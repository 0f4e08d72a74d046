import QueryBuilder.Proofs.Scoping

/-! Queries as they are built.

A query comes out of operations of the builder, or it is the query of a row that has been fetched
and narrowed. Each operation attaches a source together with the clause that joins it, under an
alias that the query does not have and that its context does not bind, or leaves all of these
alone. Whatever the operations and their order, the query is therefore regular.

A level of a regular query finds its base and the sources of its joins once the sources have been
visited. If it gives no select, this is due to a source, to a callback, or to what a callback
refers to. -/
namespace QueryBuilder

mutual

/-- The queries that the operations of the builder give, for any callbacks and any targets. -/
inductive Query.Built : Query → Prop
  | ofTable {table label columns} : Query.Built (.ofTable table label columns)
  | ofRelation {relation label} : Query.Built (.ofRelation relation label)
  | named {q name} : Query.Built q → Query.Built (q.named name)
  | filter {q p} : Query.Built q → Query.Built (q.filter p)
  | select {q p} : Query.Built q → Query.Built (q.select p)
  | andSelect {q p} : Query.Built q → Query.Built (q.andSelect p)
  | selectNone {q} : Query.Built q → Query.Built q.selectNone
  | sortBy {q s} : Query.Built q → Query.Built (q.sortBy s)
  | take {q count} : Query.Built q → Query.Built (q.take count)
  | including {q related} : Query.Built q → Query.Built (q.including related)
  | join {q q' target options} : Query.Built q → q.join target options = .ok q' → Query.Built q'
  | ofRow {r} : Row.Built r → Query.Built r.query

/-- The rows of such queries, those that their callbacks are called with, and those that one gets
at from there. -/
inductive Row.Built : Row → Prop
  | ofQuery {q} : Query.Built q → Row.Built (.ofQuery q)
  | bound {q scope} : Query.Built q → Row.Built (.bound q scope)
  | substituting {r names} : Row.Built r → Row.Built (r.substituting names)
  | rebase {r source} : Row.Built r → Row.Built (r.rebase source)
  | filter {r p} : Row.Built r → Row.Built (r.filter p)
  | fetch {r r' source name label} : Row.Built r → r.fetchFrom source name label = .ok r' →
      Row.Built r'

end

/-! ### The shape of what is built -/

theorem Query.Regular.andSelect {q : Query} (h : q.Regular) (p : Projection) :
    (q.andSelect p).Regular := by
  unfold Query.andSelect
  split <;> exact h.of_eq rfl rfl rfl rfl rfl

theorem Query.regular_ofTable (table : String) (label : Option String) (columns : List String) :
    (ofTable table label columns).Regular := by
  have hbase := regular_ofSource (label.getD table) table none
  unfold ofTable
  dsimp only
  split
  · exact hbase
  · exact hbase.of_eq rfl rfl rfl rfl rfl

/-- Narrowing, renaming and rebasing a row leave the shape of its query and its scope alone. -/
theorem Row.Regular.of_eq {r r' : Row} (h : r.Regular) (hquery : r'.query.Regular)
    (hcontext : r'.query.context = r.query.context) (hscope : r'.scope = r.scope)
    (hfetched : r'.fetched = r.fetched) : r'.Regular where
  query := hquery
  context hr := by rw [hcontext, hscope, h.context (hfetched ▸ hr)]

mutual

/-- Every query that is built is regular. -/
theorem Query.Built.regular {q : Query} : q.Built → q.Regular
  | .ofTable => Query.regular_ofTable _ _ _
  | .ofRelation => Query.regular_ofSource _ _ _
  | .named h => h.regular.of_eq rfl rfl rfl rfl rfl
  | .filter h => h.regular.of_eq rfl rfl rfl rfl rfl
  | .select h => h.regular.of_eq rfl rfl rfl rfl rfl
  | .andSelect h => h.regular.andSelect _
  | .selectNone h => h.regular.of_eq rfl rfl rfl rfl rfl
  | .sortBy h => h.regular.of_eq rfl rfl rfl rfl rfl
  | .take h => h.regular.of_eq rfl rfl rfl rfl rfl
  | .including h => h.regular.of_eq rfl rfl rfl rfl rfl
  | .join h hjoin => h.regular.join hjoin
  | .ofRow h => h.regular.query

/-- Every row that is built is regular. -/
theorem Row.Built.regular {r : Row} : r.Built → r.Regular
  | .ofQuery h => Row.regular_bound h.regular _
  | .bound h => Row.regular_bound h.regular _
  | .substituting h => h.regular.of_eq h.regular.query rfl rfl rfl
  | .rebase h => h.regular.of_eq h.regular.query rfl rfl rfl
  | .filter h => h.regular.of_eq (h.regular.query.of_eq rfl rfl rfl rfl rfl) rfl rfl rfl
  | .fetch h hfetch => h.regular.fetchFrom hfetch

end

namespace Sql

variable {α β : Type}

/-! ### Runs that fail -/

theorem bind_eq_error_iff {x : Naming α} {f : α → Naming β} {n : Names} {fault : Fault} :
    (x >>= f) n = .error fault ↔
      x n = .error fault ∨ ∃ a m, x n = .ok (a, m) ∧ f a m = .error fault := by
  show (Except.bind (x n) fun p => f p.1 p.2) = _ ↔ _
  cases x n with
  | error e => simp [Except.bind]
  | ok p =>
    obtain ⟨a, m⟩ := p
    simp only [Except.bind, reduceCtorEq, Except.ok.injEq, Prod.mk.injEq, false_or]
    constructor
    · intro h
      exact ⟨a, m, ⟨rfl, rfl⟩, h⟩
    · rintro ⟨_, _, ⟨rfl, rfl⟩, h⟩
      exact h

theorem pure_ne_error {a : α} {n : Names} {fault : Fault} :
    (pure a : Naming α) n ≠ .error fault := by
  show Except.ok (a, n) ≠ _
  simp

theorem checked_eq_error_iff {x : Except Fault α} {n : Names} {fault : Fault} :
    checked x n = .error fault ↔ x = .error fault := by
  cases x <;> simp [checked]

/-- A list of computations fails in one of them. -/
theorem mapM_eq_error {f : α → Naming β} {xs : List α} {n : Names} {fault : Fault}
    (h : xs.mapM f n = .error fault) : ∃ x ∈ xs, ∃ m, f x m = .error fault := by
  induction xs generalizing n with
  | nil =>
    rw [List.mapM_nil] at h
    exact absurd h pure_ne_error
  | cons x xs ih =>
    rw [List.mapM_cons] at h
    rcases bind_eq_error_iff.mp h with hfirst | ⟨y, m, -, h⟩
    · exact ⟨x, List.mem_cons_self .., n, hfirst⟩
    · rcases bind_eq_error_iff.mp h with hrest | ⟨ys, m', -, h⟩
      · obtain ⟨x', hx', hfault⟩ := ih hrest
        exact ⟨x', List.mem_cons_of_mem _ hx', hfault⟩
      · exact absurd h pure_ne_error

/-! ### Levels that fail -/

/-- What the callbacks of a query end with for a row: one of them fails when it is called, or
something that one of them has given fails to resolve. -/
inductive CallbackFails (calls : Calls) (resolveHere : Expr Query → Naming (Expr Statement))
    (q : Query) (row : Row) (fault : Fault) : Prop
  | projection {p} : p ∈ q.projections → p.apply calls row = .error fault →
      CallbackFails calls resolveHere q row fault
  | join {j} : j ∈ q.joins → j.on.apply calls row = .error fault →
      CallbackFails calls resolveHere q row fault
  | filter {p} : p ∈ q.filters → p.apply calls row = .error fault →
      CallbackFails calls resolveHere q row fault
  | sorting {s} : q.sorting = some s → s.apply calls row = .error fault →
      CallbackFails calls resolveHere q row fault
  | resolving {e n} : Gives calls q row e → resolveHere e n = .error fault →
      CallbackFails calls resolveHere q row fault

section
variable {calls : Calls} {resolveHere : Expr Query → Naming (Expr Statement)} {q : Query} {row : Row}
  {n : Names} {fault : Fault}

/-- Expressions that are resolved one after the other fail in one of them. -/
theorem mapM_resolve_eq_error {expr : α → Expr Query} {build : α → Expr Statement → β} {xs : List α}
    (h : (xs.mapM (fun x => do return build x (← resolveHere (expr x))) : Naming (List β)) n =
      .error fault) :
    ∃ x ∈ xs, ∃ m, resolveHere (expr x) m = .error fault := by
  obtain ⟨x, hx, m, hfault⟩ := mapM_eq_error h
  rcases bind_eq_error_iff.mp hfault with hfault | ⟨_, _, -, hpure⟩
  · exact ⟨x, hx, m, hfault⟩
  · exact absurd hpure pure_ne_error

theorem projections_fail (h : q.projections.mapM (projected calls resolveHere row) n = .error fault) :
    CallbackFails calls resolveHere q row fault := by
  obtain ⟨p, hp, m, hfault⟩ := mapM_eq_error h
  rcases bind_eq_error_iff.mp hfault with hcall | ⟨selections, m', happly, hfault⟩
  · exact .projection hp (checked_eq_error_iff.mp hcall)
  · obtain ⟨s, hs, k, hresolve⟩ := mapM_resolve_eq_error hfault
    exact .resolving (.projection hp (checked_eq_ok_iff.mp happly).1 hs) hresolve

theorem joins_fail {l : LevelScope} (hitems : ∀ j ∈ q.joins, ∃ item, l.item j.label = .ok item)
    (h : q.joins.mapM (joined calls resolveHere row l) n = .error fault) :
    CallbackFails calls resolveHere q row fault := by
  obtain ⟨j, hj, m, hfault⟩ := mapM_eq_error h
  obtain ⟨item, hitem⟩ := hitems j hj
  simp only [joined, bind_eq_error_iff, checked_eq_error_iff, checked_eq_ok_iff, hitem] at hfault
  rcases hfault with hcall | ⟨e, k, ⟨happly, -⟩, hresolve | ⟨_, _, -, hitem' | ⟨_, _, -, hpure⟩⟩⟩
  · exact .join hj hcall
  · exact .resolving (.join hj happly) hresolve
  · cases hitem'
  · exact absurd hpure pure_ne_error

theorem filtered_fails (h : filtered calls resolveHere row q.filters n = .error fault) :
    CallbackFails calls resolveHere q row fault := by
  rcases bind_eq_error_iff.mp h with hcalls | ⟨es, m, hes, hfault⟩
  · obtain ⟨p, hp, k, hcall⟩ := mapM_eq_error hcalls
    exact .filter hp (checked_eq_error_iff.mp hcall)
  · obtain ⟨e, he, k, hresolve⟩ := mapM_eq_error hfault
    obtain ⟨p, hp, happly⟩ := exists_of_forall₂ (checked_mapM hes).1 he
    exact .resolving (.filter hp happly) hresolve

theorem sorted_fails (h : sorted calls resolveHere row q.sorting n = .error fault) :
    CallbackFails calls resolveHere q row fault := by
  cases hsorting : q.sorting with
  | none =>
    rw [hsorting] at h
    exact absurd h pure_ne_error
  | some s =>
    rw [hsorting] at h
    rcases bind_eq_error_iff.mp h with hcall | ⟨keys, m, happly, hfault⟩
    · exact .sorting hsorting (checked_eq_error_iff.mp hcall)
    · obtain ⟨k, hk, m', hresolve⟩ := mapM_resolve_eq_error hfault
      exact .resolving (.sorting hsorting (checked_eq_ok_iff.mp happly).1 hk) hresolve

end

section
variable (placement : EntryPlacement) (calls : Calls) (depth : Nat) (q : Query)
  (parent : Option Scope) (n : Names)

/-- The visit of the sources of a level. -/
def visits : Naming LevelScope :=
  q.sources.foldlM (visit (compileLevel placement calls depth)) { scope := Scope.child parent }

/-- What a level that gives no select ends with: the fault of a source that is visited, or that of
a callback in the scope of the sources. -/
inductive LevelFails (fault : Fault) : Prop
  | visiting : visits placement calls depth q parent n = .error fault → LevelFails fault
  | callback {l m} : visits placement calls depth q parent n = .ok (l, m) →
      CallbackFails calls (resolve (subqueryOf placement (compileLevel placement calls depth)) l.scope)
        q (Row.bound q l.scope) fault → LevelFails fault

end

section
variable {placement : EntryPlacement} {calls : Calls} {depth : Nat} {q : Query}
  {parent : Option Scope} {n : Names} {l : LevelScope} {m : Names}

/-- Once its sources have been visited, a regular query has an item for each of them: for its base
and for what its joins join. -/
theorem exists_items (hq : q.Regular) (h : visits placement calls depth q parent n = .ok (l, m)) :
    (∃ item, l.item q.baseSource = .ok item) ∧
      ∀ j ∈ q.joins, ∃ item, l.item j.label = .ok item := by
  obtain ⟨items, hitems, -⟩ := visits_items (I := fun _ _ _ _ => True)
    (fun source _ _ _ l l' m m' _ hvisit => by
      cases hdata : source.data with
      | table name relation =>
        obtain ⟨label, -, -, -, hl⟩ := visit_table_run hdata hvisit
        exact ⟨label, _, hl, trivial⟩
      | nested inner =>
        obtain ⟨label, _, _, -, -, -, hl⟩ := visit_nested_run hdata hvisit
        exact ⟨label, _, hl, trivial⟩)
    hq.nodup trivial h
  have hfound : ∀ x ∈ q.sources.map (·.label), ∃ item, l.item x = .ok item := by
    intro x hx
    obtain ⟨s, hs, rfl⟩ := List.mem_map.mp hx
    obtain ⟨i, hi, rfl⟩ := List.getElem_of_mem hs
    exact ⟨_, hitems.get hi (hitems.length_eq ▸ hi)⟩
  rw [hq.labels_eq] at hfound
  refine ⟨hfound _ (List.mem_cons_self ..), ?_⟩
  intro j hj
  exact hfound _ (List.mem_cons_of_mem _ (List.mem_map_of_mem hj))

/-- No look-up of a regular query's own sources fails. -/
theorem compileLevel_fails (hq : q.Regular) {fault : Fault}
    (h : compileLevel placement calls (depth + 1) q parent n = .error fault) :
    LevelFails placement calls depth q parent n fault := by
  rcases bind_eq_error_iff.mp h with hvisits | ⟨l, m, hvisits, h⟩
  · exact .visiting hvisits
  · refine .callback hvisits ?_
    obtain ⟨⟨base, hbase⟩, hjoins⟩ := exists_items hq hvisits
    rcases bind_eq_error_iff.mp h with hitems | ⟨items, m₁, -, h⟩
    · exact projections_fail hitems
    rcases bind_eq_error_iff.mp h with hlookup | ⟨base', m₂, -, h⟩
    · rw [checked_eq_error_iff, hbase] at hlookup
      cases hlookup
    rcases bind_eq_error_iff.mp h with hjoin | ⟨joins, m₃, -, h⟩
    · exact joins_fail hjoins hjoin
    rcases bind_eq_error_iff.mp h with hfilters | ⟨conditions, m₄, -, h⟩
    · exact filtered_fails hfilters
    rcases bind_eq_error_iff.mp h with hsorting | ⟨sorting, m₅, -, h⟩
    · exact sorted_fails hsorting
    · exact absurd h pure_ne_error

end

/-- **A query that has been built is regular, and a level of it finds its own sources.** The base is
the first source, a table and the default; behind it stands one source for each join, under the
alias of the join; the aliases are distinct, and the context binds none of them. Once the sources
have been visited, the level has an item for its base and for each join; if it fails, this is the
fault of a source or of a callback. -/
theorem built_query_regular {q : Query} (h : q.Built) :
    q.Regular ∧ ∀ placement calls depth parent n,
      (∀ l m, visits placement calls depth q parent n = .ok (l, m) →
        (∃ item, l.item q.baseSource = .ok item) ∧
          ∀ j ∈ q.joins, ∃ item, l.item j.label = .ok item) ∧
      ∀ fault, compileLevel placement calls (depth + 1) q parent n = .error fault →
        LevelFails placement calls depth q parent n fault := by
  refine ⟨h.regular, ?_⟩
  intro placement calls depth parent n
  exact ⟨fun _ _ => exists_items h.regular, fun _ => compileLevel_fails h.regular⟩

/-- A trip in a scope where something else is called `stop`. -/
def tripAmongStops : Row :=
  .bound (.ofRelation ⟨journeys, 0, journeys_inhabited⟩)
    ((Scope.empty.bind "trip" ⟨"trip", none⟩).bind "stop" ⟨"stop", none⟩)

/-- The condition that always holds. -/
def always : Predicate := ⟨.value (.raw "TRUE"), []⟩

/-- The stops of the trip get an alias that nothing around has, and a table that is joined to them
gets one that they do not have either. -/
theorem built_query_regular_tripAmongStops :
    ∃ stops q, tripAmongStops.fetchFrom "trip" "stop" = .ok stops ∧
      (stops.filter always).query.join (.table "stop") { kind := .left, on := some always } = .ok q ∧
      q.sources.map (·.label) = ["stop_0", "stop_1"] ∧ q.Regular ∧
      ∀ n fault, compileLevel .hoisted .deep 1 q q.context n = .error fault →
        LevelFails .hoisted .deep 0 q q.context n fault := by
  have hlabels : (do
      let stops ← tripAmongStops.fetchFrom "trip" "stop"
      let q ← (stops.filter always).query.join (.table "stop") { kind := .left, on := some always }
      return q.sources.map Source.label) = .ok ["stop_0", "stop_1"] := by decide +kernel
  simp only [except_bind_eq_ok_iff, except_pure_eq_ok_iff] at hlabels
  obtain ⟨stops, hstops, q, hjoin, hlabels⟩ := hlabels
  have htrip : tripAmongStops.Built := .bound .ofRelation
  have hbuilt : q.Built := .join (.ofRow (.filter (.fetch htrip hstops))) hjoin
  obtain ⟨hregular, hlevels⟩ := built_query_regular hbuilt
  refine ⟨stops, q, hstops, hjoin, hlabels.symm, hregular, ?_⟩
  intro n fault
  exact (hlevels .hoisted .deep 0 q.context n).2 fault

end Sql

end QueryBuilder
