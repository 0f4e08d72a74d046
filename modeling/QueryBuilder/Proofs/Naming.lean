import QueryBuilder.Proofs.WellFormed
import QueryBuilder.Sql.Compilation

/-! Runs of the compiler.

A run that succeeds went through a chain of naming states, one for every step of the
computation. The lemmas of this module take a run apart into its steps.

Beyond its sources, all that a level does to the names is to resolve expressions, one
after the other: those that its callbacks give for projections, join conditions,
filters and sort keys. `compileLevel_run` says so; what is to be shown of a level
follows from what is shown of its sources and of one expression. -/
namespace QueryBuilder.Sql

variable {α β : Type}

/-! ### Single steps -/

theorem bind_eq_ok_iff {x : Naming α} {f : α → Naming β} {n n' : Names} {b : β} :
    (x >>= f) n = .ok (b, n') ↔ ∃ a m, x n = .ok (a, m) ∧ f a m = .ok (b, n') := by
  show (Except.bind (x n) fun p => f p.1 p.2) = _ ↔ _
  cases x n with
  | error e => simp [Except.bind]
  | ok p =>
    obtain ⟨a, m⟩ := p
    simp only [Except.bind, Except.ok.injEq, Prod.mk.injEq]
    constructor
    · intro h
      exact ⟨a, m, ⟨rfl, rfl⟩, h⟩
    · rintro ⟨_, _, ⟨rfl, rfl⟩, h⟩
      exact h

theorem pure_eq_ok_iff {a b : α} {n n' : Names} :
    (pure a : Naming α) n = .ok (b, n') ↔ b = a ∧ n' = n := by
  show Except.ok (a, n) = _ ↔ _
  simp [eq_comm]

theorem checked_eq_ok_iff {x : Except Fault α} {a : α} {n n' : Names} :
    checked x n = .ok (a, n') ↔ x = .ok a ∧ n' = n := by
  cases x <;> simp [checked, eq_comm]

theorem modify_eq_ok_iff {f : Names → Names} {u : PUnit} {n n' : Names} :
    (modify f : Naming PUnit) n = .ok (u, n') ↔ n' = f n := by
  show Except.ok (PUnit.unit, f n) = _ ↔ _
  simp [eq_comm]

theorem readTable_eq_ok_iff {name : String} {u : Unit} {n n' : Names} :
    readTable name n = .ok (u, n') ↔ name ∉ n.entryNames ∧ n' = n.readTables [name] := by
  by_cases h : name ∈ n.entryNames
  · simp [readTable, h]
  · simp only [readTable, noting_except, h, Std.TreeSet.contains_iff_mem, if_false,
      Except.ok.injEq, Prod.mk.injEq, true_and, not_false_eq_true]
    exact eq_comm

/-- Computations that give the same for the elements give the same for the list. -/
theorem mapM_imp {f g : α → Naming β} {xs : List α}
    (hfg : ∀ x ∈ xs, ∀ n y m, f x n = .ok (y, m) → g x n = .ok (y, m)) {n m : Names} {ys : List β}
    (h : xs.mapM f n = .ok (ys, m)) : xs.mapM g n = .ok (ys, m) := by
  induction xs generalizing n ys with
  | nil => exact h
  | cons x xs ih =>
    simp only [List.mapM_cons, bind_eq_ok_iff, pure_eq_ok_iff] at h ⊢
    obtain ⟨y, k, hy, rest, k', hrest, rfl, rfl⟩ := h
    refine ⟨y, k, hfg x (List.mem_cons_self ..) n y k hy, rest, _, ?_, rfl, rfl⟩
    exact ih (fun x hx => hfg x (List.mem_cons_of_mem _ hx)) hrest

/-! ### Resolving expressions one after the other -/

/-- The expressions resolve to these in a row, from one state of the names to another. -/
inductive ResolvesAll (resolveHere : Expr Query → Naming (Expr Statement)) :
    List (Expr Query) → Names → List (Expr Statement) → Names → Prop
  | nil {n} : ResolvesAll resolveHere [] n [] n
  | cons {e es r rs n m n'} : resolveHere e n = .ok (r, m) → ResolvesAll resolveHere es m rs n' →
      ResolvesAll resolveHere (e :: es) n (r :: rs) n'

namespace ResolvesAll
variable {resolveHere : Expr Query → Naming (Expr Statement)}

theorem append {es es' : List (Expr Query)} {rs rs' : List (Expr Statement)} {n m n' : Names}
    (h : ResolvesAll resolveHere es n rs m) (h' : ResolvesAll resolveHere es' m rs' n') :
    ResolvesAll resolveHere (es ++ es') n (rs ++ rs') n' := by
  induction h with
  | nil => exact h'
  | cons he _ ih => exact .cons he (ih h')

theorem length_eq {es : List (Expr Query)} {rs : List (Expr Statement)} {n n' : Names}
    (h : ResolvesAll resolveHere es n rs n') : es.length = rs.length := by
  induction h with
  | nil => rfl
  | cons _ _ ih => simp [ih]

theorem each {es : List (Expr Query)} {rs : List (Expr Statement)} {n n' : Names}
    (h : ResolvesAll resolveHere es n rs n') :
    List.Forall₂ (fun e r => ∃ m m', resolveHere e m = .ok (r, m')) es rs := by
  induction h with
  | nil => exact .nil
  | cons he _ ih => exact .cons ⟨_, _, he⟩ ih

/-- Resolving each element of a list for what is made of it. -/
theorem of_mapM {expr : α → Expr Query} (build : α → Expr Statement → β) (xs : List α) {ys : List β}
    {n n' : Names}
    (h : (xs.mapM (fun x => do return build x (← resolveHere (expr x))) : Naming (List β)) n =
      .ok (ys, n')) :
    ∃ rs, ResolvesAll resolveHere (xs.map expr) n rs n' ∧ ys = List.zipWith build xs rs := by
  induction xs generalizing ys n with
  | nil =>
    rw [List.mapM_nil, pure_eq_ok_iff] at h
    obtain ⟨rfl, rfl⟩ := h
    exact ⟨[], .nil, rfl⟩
  | cons x xs ih =>
    simp only [List.mapM_cons, bind_eq_ok_iff, pure_eq_ok_iff] at h
    obtain ⟨y, m, ⟨r, k, hr, rfl, rfl⟩, ys', m', hys, rfl, rfl⟩ := h
    obtain ⟨rs, hrs, rfl⟩ := ih hys
    exact ⟨r :: rs, .cons hr hrs, rfl⟩

end ResolvesAll

/-! ### Resolving one expression -/

/-- A run of `resolve`: the expression and the names before it, what it resolves to and
the names after it. -/
inductive Resolves (subquery : Query → Scope → Naming Statement) (scope : Scope) :
    Expr Query → Names → Expr Statement → Names → Prop
  | column {source name display n} : scope.resolve source = .ok display →
      Resolves subquery scope (.column source name) n (.column display name) n
  | star {source display n} : scope.resolve source = .ok display →
      Resolves subquery scope (.star source) n (.star display) n
  | raw {sql n} : Resolves subquery scope (.raw sql) n (.raw sql) n
  | text {value n} : Resolves subquery scope (.text value) n (.text value) n
  | unary {before e after n r n'} : Resolves subquery scope e n r n' →
      Resolves subquery scope (.unary before e after) n (.unary before r after) n'
  | binary {before between after e e' n r m r' n'} : Resolves subquery scope e n r m →
      Resolves subquery scope e' m r' n' →
      Resolves subquery scope (.binary before between after e e') n
        (.binary before between after r r') n'
  | subquery {query n statement n'} : subquery query scope n = .ok (statement, n') →
      Resolves subquery scope (.subquery query) n (.subquery statement) n'

theorem resolves_of_run {subquery : Query → Scope → Naming Statement} {scope : Scope}
    {e : Expr Query} {r : Expr Statement} {n n' : Names}
    (h : resolve subquery scope e n = .ok (r, n')) : Resolves subquery scope e n r n' := by
  induction e generalizing n n' r with
  | column source name =>
    simp only [resolve, bind_eq_ok_iff, pure_eq_ok_iff, checked_eq_ok_iff, noting_except,
      liftError_eq_ok_iff] at h
    obtain ⟨display, _, ⟨hdisplay, rfl⟩, rfl, rfl⟩ := h
    exact .column hdisplay
  | star source =>
    simp only [resolve, bind_eq_ok_iff, pure_eq_ok_iff, checked_eq_ok_iff, noting_except,
      liftError_eq_ok_iff] at h
    obtain ⟨display, _, ⟨hdisplay, rfl⟩, rfl, rfl⟩ := h
    exact .star hdisplay
  | raw sql =>
    obtain ⟨rfl, rfl⟩ := pure_eq_ok_iff.mp h
    exact .raw
  | text value =>
    obtain ⟨rfl, rfl⟩ := pure_eq_ok_iff.mp h
    exact .text
  | unary before e after ih =>
    simp only [resolve, bind_eq_ok_iff, pure_eq_ok_iff] at h
    obtain ⟨r', m, hr, rfl, rfl⟩ := h
    exact .unary (ih hr)
  | binary before between after left right ihl ihr =>
    simp only [resolve, bind_eq_ok_iff, pure_eq_ok_iff] at h
    obtain ⟨l, m, hl, r', m', hr, rfl, rfl⟩ := h
    exact .binary (ihl hl) (ihr hr)
  | subquery query =>
    simp only [resolve, bind_eq_ok_iff, pure_eq_ok_iff] at h
    obtain ⟨statement, m, hs, rfl, rfl⟩ := h
    exact .subquery hs

/-! ### The parts of a level -/

/-- The expressions that the callbacks of a query give for a row. -/
inductive Gives (calls : Calls) (q : Query) (row : Row) : Expr Query → Prop
  | projection {p selections s} : p ∈ q.projections → p.apply calls row = .ok selections →
      s ∈ selections → Gives calls q row s.expr
  | join {j e} : j ∈ q.joins → j.on.apply calls row = .ok e → Gives calls q row e
  | filter {p e} : p ∈ q.filters → p.apply calls row = .ok e → Gives calls q row e
  | sorting {s keys k} : q.sorting = some s → s.apply calls row = .ok keys → k ∈ keys →
      Gives calls q row k.expr

/-- What the callbacks of a well-formed query give is well-formed. -/
theorem Gives.wellFormed {calls : Calls} {q : Query} {scope : Scope} {e : Expr Query}
    (h : Gives calls q (Row.bound q scope) e) (hcalls : calls.WellFormed) (hq : q.WellFormed) :
    e.WellFormed := by
  have hrow := Row.wellFormed_bound hq scope
  cases h with
  | projection hp happly hs =>
    exact Projection.apply_wellFormed hcalls hrow (hq.projection_mem hp) happly _ hs
  | join hj happly => exact Predicate.apply_wellFormed hcalls hrow (hq.join_mem hj) happly
  | filter hp happly => exact Predicate.apply_wellFormed hcalls hrow (hq.filter_mem hp) happly
  | sorting hs happly hk =>
    exact Sorting.apply_wellFormed hcalls hrow (hq.sorting_mem hs) happly _ hk

/-- The items of a select, the base before the joined ones. -/
def Select.tables (s : Select) : List TableItem := s.base :: s.joins.map (·.item)

/-- The expressions of a select, without those of its subqueries. -/
def Select.exprs (s : Select) : List (Expr Statement) :=
  s.items.map (·.expr) ++ (s.joins.map (·.condition) ++ (s.conditions ++ s.sorting.map (·.expr)))

section
variable {calls : Calls} {resolveHere : Expr Query → Naming (Expr Statement)} {row : Row}
  {n n' : Names} {q : Query}

theorem projected_run {projection : Projection} {items : List SelectItem}
    (h : projected calls resolveHere row projection n = .ok (items, n')) :
    ∃ selections, projection.apply calls row = .ok selections ∧
      ResolvesAll resolveHere (selections.map (·.expr)) n (items.map (·.expr)) n' ∧
      items.map (·.label) = selections.map (·.label) := by
  simp only [projected, bind_eq_ok_iff, checked_eq_ok_iff] at h
  obtain ⟨selections, m, ⟨happly, rfl⟩, hmap⟩ := h
  obtain ⟨rs, hrs, rfl⟩ := ResolvesAll.of_mapM _ selections hmap
  have hlength : selections.length = rs.length := by simpa using hrs.length_eq
  refine ⟨selections, happly, ?_, ?_⟩
  · have hexprs : (List.zipWith (fun (s : Selection) r => (⟨r, s.label⟩ : SelectItem))
        selections rs).map (·.expr) = rs := by
      apply List.ext_getElem <;> simp [hlength]
    rw [hexprs]
    exact hrs
  · apply List.ext_getElem <;> simp [hlength]

theorem projections_run {projections : List Projection} {items : List (List SelectItem)}
    (h : projections.mapM (projected calls resolveHere row) n = .ok (items, n')) :
    ∃ selections : List (List Selection),
      List.Forall₂ (fun p ss => p.apply calls row = .ok ss) projections selections ∧
      ResolvesAll resolveHere (selections.flatten.map (·.expr)) n (items.flatten.map (·.expr)) n' ∧
      items.flatten.map (·.label) = selections.flatten.map (·.label) := by
  induction projections generalizing n items with
  | nil =>
    rw [List.mapM_nil, pure_eq_ok_iff] at h
    obtain ⟨rfl, rfl⟩ := h
    exact ⟨[], .nil, .nil, rfl⟩
  | cons p projections ih =>
    simp only [List.mapM_cons, bind_eq_ok_iff, pure_eq_ok_iff] at h
    obtain ⟨first, m, hfirst, rest, m', hrest, rfl, rfl⟩ := h
    obtain ⟨ss, happly, hrun, hlabels⟩ := projected_run hfirst
    obtain ⟨selections, happlies, hruns, hlabels'⟩ := ih hrest
    refine ⟨ss :: selections, .cons happly happlies, ?_, ?_⟩
    · simp only [List.flatten_cons, List.map_append]
      exact hrun.append hruns
    · simp only [List.flatten_cons, List.map_append, hlabels, hlabels']

theorem gives_of_projections {selections : List (List Selection)}
    (h : List.Forall₂ (fun p ss => p.apply calls row = .ok ss) q.projections selections) :
    ∀ e ∈ selections.flatten.map (·.expr), Gives calls q row e := by
  intro e he
  obtain ⟨s, hs, rfl⟩ := List.mem_map.mp he
  obtain ⟨ss, hss, hs⟩ := List.mem_flatten.mp hs
  obtain ⟨i, hi, rfl⟩ := List.getElem_of_mem hss
  have hi' := h.length_eq ▸ hi
  exact .projection (List.getElem_mem hi') (h.get hi' hi) hs

theorem joined_run {l : LevelScope} {join : JoinClause} {j : Join}
    (h : joined calls resolveHere row l join n = .ok (j, n')) :
    ∃ e, join.on.apply calls row = .ok e ∧ resolveHere e n = .ok (j.condition, n') ∧
      l.item join.label = .ok j.item ∧ j.kind = join.kind := by
  simp only [joined, bind_eq_ok_iff, checked_eq_ok_iff, noting_except, liftError_eq_ok_iff,
    pure_eq_ok_iff] at h
  obtain ⟨e, m, ⟨happly, rfl⟩, r, k, hr, item, k', ⟨hitem, rfl⟩, rfl, rfl⟩ := h
  exact ⟨e, happly, hr, hitem, rfl⟩

theorem joins_run {l : LevelScope} {joins : List JoinClause} {js : List Join}
    (h : joins.mapM (joined calls resolveHere row l) n = .ok (js, n'))
    (hq : ∀ j ∈ joins, j ∈ q.joins) :
    ∃ es, ResolvesAll resolveHere es n (js.map (·.condition)) n' ∧
      (∀ e ∈ es, Gives calls q row e) ∧
      List.Forall₂ (fun join j => l.item join.label = .ok j.item ∧ j.kind = join.kind)
        joins js := by
  induction joins generalizing n js with
  | nil =>
    rw [List.mapM_nil, pure_eq_ok_iff] at h
    obtain ⟨rfl, rfl⟩ := h
    exact ⟨[], .nil, by simp, .nil⟩
  | cons join joins ih =>
    simp only [List.mapM_cons, bind_eq_ok_iff, pure_eq_ok_iff] at h
    obtain ⟨j, m, hj, rest, m', hrest, rfl, rfl⟩ := h
    obtain ⟨e, happly, hr, hitem, hkind⟩ := joined_run hj
    obtain ⟨es, hes, hgives, hitems⟩ := ih hrest fun j' hj' => hq j' (List.mem_cons_of_mem _ hj')
    refine ⟨e :: es, .cons hr hes, ?_, .cons ⟨hitem, hkind⟩ hitems⟩
    intro e' he'
    rcases List.mem_cons.mp he' with rfl | he'
    · exact .join (hq join (List.mem_cons_self ..)) happly
    · exact hgives e' he'

/-- A list of checked values is computed without touching the names. -/
theorem checked_mapM {f : α → Except Fault β} {xs : List α} {ys : List β}
    (h : (xs.mapM (fun x => checked (f x)) : Naming (List β)) n = .ok (ys, n')) :
    List.Forall₂ (fun x y => f x = .ok y) xs ys ∧ n' = n := by
  induction xs generalizing ys with
  | nil =>
    rw [List.mapM_nil, pure_eq_ok_iff] at h
    obtain ⟨rfl, rfl⟩ := h
    exact ⟨.nil, rfl⟩
  | cons x xs ih =>
    simp only [List.mapM_cons, bind_eq_ok_iff, pure_eq_ok_iff, checked_eq_ok_iff] at h
    obtain ⟨y, m, ⟨hy, rfl⟩, ys', m', hys, rfl, rfl⟩ := h
    obtain ⟨hrest, hn⟩ := ih hys
    exact ⟨.cons hy hrest, hn⟩

theorem filtered_run {filters : List Predicate} {conditions : List (Expr Statement)}
    (h : filtered calls resolveHere row filters n = .ok (conditions, n')) :
    ∃ es, List.Forall₂ (fun p e => p.apply calls row = .ok e) filters es ∧
      ResolvesAll resolveHere es n conditions n' := by
  simp only [filtered, bind_eq_ok_iff] at h
  obtain ⟨es, m, hes, hconditions⟩ := h
  obtain ⟨happly, rfl⟩ := checked_mapM hes
  refine ⟨es, happly, ?_⟩
  have hmap : (es.mapM (fun e => do return id (← resolveHere (id e))) : Naming _) m =
      .ok (conditions, n') := by simpa using hconditions
  obtain ⟨rs, hrs, rfl⟩ := ResolvesAll.of_mapM (fun _ r => r) es hmap
  have hlength : es.length = rs.length := by simpa using hrs.length_eq
  have hid : List.zipWith (fun (_ : Expr Query) (r : Expr Statement) => r) es rs = rs := by
    apply List.ext_getElem <;> simp [hlength]
  rw [hid]
  simpa using hrs

theorem sorted_run {sorting : Option Sorting} {items : List SortItem}
    (h : sorted calls resolveHere row sorting n = .ok (items, n')) (hq : q.sorting = sorting) :
    ∃ es, ResolvesAll resolveHere es n (items.map (·.expr)) n' ∧ ∀ e ∈ es, Gives calls q row e := by
  cases sorting with
  | none =>
    simp only [sorted, pure_eq_ok_iff] at h
    obtain ⟨rfl, rfl⟩ := h
    exact ⟨[], .nil, by simp⟩
  | some s =>
    simp only [sorted, bind_eq_ok_iff, checked_eq_ok_iff] at h
    obtain ⟨keys, m, ⟨happly, rfl⟩, hmap⟩ := h
    obtain ⟨rs, hrs, rfl⟩ := ResolvesAll.of_mapM _ keys hmap
    have hlength : keys.length = rs.length := by simpa using hrs.length_eq
    refine ⟨keys.map (·.expr), ?_, ?_⟩
    · have hexprs : (List.zipWith (fun (k : SortKey) r => (⟨r, k.direction⟩ : SortItem))
          keys rs).map (·.expr) = rs := by
        apply List.ext_getElem <;> simp [hlength]
      rw [hexprs]
      exact hrs
    · intro e he
      obtain ⟨k, hk, rfl⟩ := List.mem_map.mp he
      exact .sorting hq happly hk

end

/-! ### The sources of a level -/

section
variable {level : Query → Option Scope → Naming Select} {l l' : LevelScope} {n n' : Names}

theorem visit_table_run {source : Source} {name : String} {relation : Option RelationRef}
    (hdata : source.data = .table name relation) (h : visit level l source n = .ok (l', n')) :
    ∃ label, n.freshAlias source.label false = .ok label ∧ name ∉ n.entryNames ∧
      n' = (n.withAlias label false).readTables [name] ∧
      l' = l.bind source label (.table name) := by
  simp only [visit, hdata, bind_eq_ok_iff, pure_eq_ok_iff, claim_eq_ok_iff,
    readTable_eq_ok_iff] at h
  obtain ⟨label, m, ⟨hfresh, rfl⟩, _, m', ⟨hname, rfl⟩, rfl, rfl⟩ := h
  exact ⟨label, hfresh, hname, rfl, rfl⟩

theorem visit_nested_run {source : Source} {inner : Query} (hdata : source.data = .nested inner)
    (h : visit level l source n = .ok (l', n')) :
    ∃ label body m, n.freshAlias source.label true = .ok label ∧
      level inner inner.context (n.withAlias label true) = .ok (body, m) ∧
      n' = m.withEntry ⟨label, body⟩ ∧ l' = l.bind source label (.entry label) := by
  simp only [visit, hdata, bind_eq_ok_iff, pure_eq_ok_iff, claim_eq_ok_iff,
    modify_eq_ok_iff] at h
  obtain ⟨label, m, ⟨hfresh, rfl⟩, body, m', hbody, _, m'', rfl, rfl, rfl⟩ := h
  exact ⟨label, body, m', hfresh, hbody, rfl, rfl⟩

theorem resolve_bind (l : LevelScope) (source : Source) (label name : String) (table : TableRef) :
    (l.bind source label table).scope.resolve name =
      if name = source.label then .ok label else l.scope.resolve name := by
  unfold Scope.resolve
  simp only [LevelScope.bind, Scope.lookup_bind]
  by_cases h : name = source.label <;> simp [h]

theorem item_bind (l : LevelScope) (source : Source) (label name : String) (table : TableRef) :
    (l.bind source label table).item name =
      if name = source.label then .ok ⟨table, label⟩ else l.item name := by
  unfold LevelScope.item
  rw [resolve_bind]
  by_cases h : name = source.label
  · subst h
    simp only [LevelScope.bind, Std.TreeMap.getElem?_insert_self, if_true]
    rfl
  · have h' : source.label ≠ name := fun e => h e.symm
    simp [LevelScope.bind, Std.TreeMap.getElem?_insert, h, h']

/-- What visiting one source keeps, visiting all of them keeps. -/
theorem visits_invariant {I : List Source → LevelScope → Names → Prop} {sources : List Source}
    (before : List Source)
    (step : ∀ s ∈ sources, ∀ visited l l' m m', I visited l m → visit level l s m = .ok (l', m') →
      I (visited ++ [s]) l' m')
    (start : I before l n) (h : sources.foldlM (visit level) l n = .ok (l', n')) :
    I (before ++ sources) l' n' := by
  induction sources generalizing before l n with
  | nil =>
    rw [List.foldlM_nil, pure_eq_ok_iff] at h
    obtain ⟨rfl, rfl⟩ := h
    simpa using start
  | cons s sources ih =>
    simp only [List.foldlM_cons, bind_eq_ok_iff] at h
    obtain ⟨l₁, m, hvisit, hrest⟩ := h
    have hnext := step s (List.mem_cons_self ..) before l l₁ n m start hvisit
    have := ih (before ++ [s]) (fun s' hs' => step s' (List.mem_cons_of_mem _ hs')) hnext hrest
    simpa using this

end

/-! ### What a level reads -/

/-- The items that a level has for its sources, in the order of these. -/
def ItemsFor (l : LevelScope) (sources : List Source) (items : List TableItem) : Prop :=
  List.Forall₂ (fun s item => l.item s.label = .ok item) sources items

/-- A further source leaves the items of the others alone. -/
theorem ItemsFor.bind {l : LevelScope} {sources : List Source} {items : List TableItem}
    (h : ItemsFor l sources items) {source : Source} (hnew : source.label ∉ sources.map (·.label))
    (label : String) (table : TableRef) :
    ItemsFor (l.bind source label table) (sources ++ [source]) (items ++ [⟨table, label⟩]) := by
  refine List.rel_append (R := fun (s : Source) item => (l.bind source label table).item s.label = .ok item)
    ?_ (.cons ?_ .nil)
  · refine List.forall₂_iff_get.mpr ⟨h.length_eq, ?_⟩
    intro i hi hi'
    have hitem := h.get hi hi'
    have hne : (sources.get ⟨i, hi⟩).label ≠ source.label := fun e =>
      hnew (e ▸ List.mem_map_of_mem (List.get_mem _ _))
    rw [item_bind, if_neg hne]
    exact hitem
  · rw [item_bind, if_pos rfl]

/-- A regular query reads its sources by its base and its joins. -/
theorem tables_eq_of_itemsFor {q : Query} (hq : q.Regular) {l : LevelScope}
    {items : List TableItem} (h : ItemsFor l q.sources items) {s : Select}
    (hbase : l.item q.baseSource = .ok s.base)
    (hjoins : List.Forall₂ (fun join j => l.item join.label = .ok j.item ∧ j.kind = join.kind)
      q.joins s.joins) : s.tables = items := by
  have hlabels : List.Forall₂ (fun label item => l.item label = .ok item)
      (q.sources.map (·.label)) items := List.forall₂_map_left_iff.mpr h
  have htables : List.Forall₂ (fun label item => l.item label = .ok item)
      (q.sources.map (·.label)) s.tables := by
    rw [hq.labels_eq]
    refine .cons hbase ?_
    rw [List.forall₂_map_left_iff, List.forall₂_map_right_iff]
    exact hjoins.imp fun _ _ h => h.1
  -- The same look-ups in the same order give the same items.
  refine List.forall₂_eq_eq_eq ▸ ?_
  have hlength : s.tables.length = items.length := htables.length_eq.symm.trans hlabels.length_eq
  refine List.forall₂_iff_get.mpr ⟨hlength, ?_⟩
  intro i hi hi'
  have hi'' := htables.length_eq ▸ hi
  exact Except.ok.inj ((htables.get hi'' hi).symm.trans (hlabels.get hi'' hi'))

/-- What visiting a source keeps of the sources and items so far, visiting all of them keeps. -/
theorem visits_items {level : Query → Option Scope → Naming Select}
    {I : List Source → List TableItem → LevelScope → Names → Prop} {sources : List Source}
    (step : ∀ s ∈ sources, ∀ visited items l l' m m', I visited items l m →
      visit level l s m = .ok (l', m') →
      ∃ label table, l' = l.bind s label table ∧ I (visited ++ [s]) (items ++ [⟨table, label⟩]) l' m')
    (hnodup : (sources.map (·.label)).Nodup) {l l' : LevelScope} {n n' : Names}
    (start : I [] [] l n) (h : sources.foldlM (visit level) l n = .ok (l', n')) :
    ∃ items, ItemsFor l' sources items ∧ I sources items l' n' := by
  refine visits_invariant (I := fun visited l n => (visited.map (·.label)).Nodup →
    ∃ items, ItemsFor l visited items ∧ I visited items l n) [] ?_ (fun _ => ⟨[], .nil, start⟩) h
    hnodup
  intro source hsource visited l l' m m' hbefore hvisit hnodup
  rw [List.map_append, List.map_singleton] at hnodup
  obtain ⟨hvisited, _, hdisjoint⟩ := List.nodup_append.mp hnodup
  obtain ⟨items, hitems, hm⟩ := hbefore hvisited
  have hnew : source.label ∉ visited.map (·.label) := fun hmem =>
    hdisjoint _ hmem _ (List.mem_singleton_self _) rfl
  obtain ⟨label, table, rfl, hm'⟩ := step source hsource visited items l l' m m' hm hvisit
  exact ⟨_, hitems.bind hnew label table, hm'⟩

/-! ### Runs of levels and subqueries -/

/-- What a run of a level consists of: its sources are visited, which leaves the names
`m`, and then the expressions `es`, which its callbacks give for a row of the level, are
resolved one after the other. -/
structure LevelRun (placement : EntryPlacement) (calls : Calls) (depth : Nat) (q : Query)
    (parent : Option Scope) (n : Names) (s : Select) (n' : Names) (l : LevelScope) (m : Names)
    (es : List (Expr Query)) : Prop where
  visits : q.sources.foldlM (visit (compileLevel placement calls depth))
    { scope := Scope.child parent } n = .ok (l, m)
  resolves : ResolvesAll (resolve (subqueryOf placement (compileLevel placement calls depth)) l.scope)
    es m s.exprs n'
  gives : ∀ e ∈ es, Gives calls q (Row.bound q l.scope) e
  filters : ∃ front given back rfront rback m₁ m₂, es = front ++ (given ++ back) ∧
    List.Forall₂ (fun p e => p.apply calls (Row.bound q l.scope) = .ok e) q.filters given ∧
    ResolvesAll (resolve (subqueryOf placement (compileLevel placement calls depth)) l.scope) front
      m rfront m₁ ∧
    ResolvesAll (resolve (subqueryOf placement (compileLevel placement calls depth)) l.scope) given
      m₁ s.conditions m₂ ∧
    ResolvesAll (resolve (subqueryOf placement (compileLevel placement calls depth)) l.scope) back
      m₂ rback n'
  labels : ∃ selections, List.Forall₂ (fun p ss => p.apply calls (Row.bound q l.scope) = .ok ss)
    q.projections selections ∧ s.items.map (·.label) = selections.flatten.map (·.label)
  base : l.item q.baseSource = .ok s.base
  joins : List.Forall₂ (fun join j => l.item join.label = .ok j.item ∧ j.kind = join.kind)
    q.joins s.joins

/-- A run of a level, and which of its expressions the items come from: these are resolved before
all others. -/
theorem compileLevel_run_items {placement : EntryPlacement} {calls : Calls} {depth : Nat} {q : Query}
    {parent : Option Scope} {n n' : Names} {s : Select}
    (h : compileLevel placement calls (depth + 1) q parent n = .ok (s, n')) :
    ∃ l m es, LevelRun placement calls depth q parent n s n' l m es ∧
      ∃ selections rest rs m',
        List.Forall₂ (fun p ss => p.apply calls (Row.bound q l.scope) = .ok ss) q.projections
          selections ∧
        s.items.map (·.label) = selections.flatten.map (·.label) ∧
        ResolvesAll (resolve (subqueryOf placement (compileLevel placement calls depth)) l.scope)
          (selections.flatten.map (·.expr)) m (s.items.map (·.expr)) m' ∧
        ResolvesAll (resolve (subqueryOf placement (compileLevel placement calls depth)) l.scope)
          rest m' rs n' := by
  simp only [compileLevel, levelOf, bind_eq_ok_iff, pure_eq_ok_iff, checked_eq_ok_iff, noting_except,
    liftError_eq_ok_iff] at h
  obtain ⟨l, m, hvisit, items, m₁, hitems, base, m₂, ⟨hbase, rfl⟩, joins, m₃, hjoins, conditions,
    m₄, hconditions, sorting, m₅, hsorting, rfl, rfl⟩ := h
  obtain ⟨selections, happlies, hes₁, hlabels⟩ := projections_run hitems
  obtain ⟨es₂, hes₂, hgives₂, hforall⟩ := joins_run (q := q) hjoins fun _ hj => hj
  obtain ⟨es₃, happly, hes₃⟩ := filtered_run hconditions
  obtain ⟨es₄, hes₄, hgives₄⟩ := sorted_run (q := q) hsorting rfl
  have hrest := hes₂.append (hes₃.append hes₄)
  refine ⟨l, m, selections.flatten.map (·.expr) ++ (es₂ ++ (es₃ ++ es₄)), ⟨hvisit,
    hes₁.append hrest, ?_, ⟨_, es₃, es₄, _, _, _, _,
      (List.append_assoc ..).symm, happly, hes₁.append hes₂, hes₃, hes₄⟩,
    ⟨selections, happlies, hlabels⟩, hbase, hforall⟩,
    selections, _, _, _, happlies, hlabels, hes₁, hrest⟩
  intro e he
  rw [List.mem_append, List.mem_append, List.mem_append] at he
  rcases he with he | he | he | he
  · exact gives_of_projections happlies e he
  · exact hgives₂ e he
  · obtain ⟨i, hi, rfl⟩ := List.getElem_of_mem he
    have hi' := happly.length_eq ▸ hi
    exact .filter (List.getElem_mem hi') (happly.get hi' hi)
  · exact hgives₄ e he

theorem compileLevel_run {placement : EntryPlacement} {calls : Calls} {depth : Nat} {q : Query}
    {parent : Option Scope} {n n' : Names} {s : Select}
    (h : compileLevel placement calls (depth + 1) q parent n = .ok (s, n')) :
    ∃ l m es, LevelRun placement calls depth q parent n s n' l m es := by
  obtain ⟨l, m, es, hrun, -⟩ := compileLevel_run_items h
  exact ⟨l, m, es, hrun⟩

theorem subqueryOf_hoisted_eq (level : Query → Option Scope → Naming Select) (q : Query)
    (outer : Scope) (n : Names) : subqueryOf .hoisted level q outer n =
      (level q (some (q.context.getD outer)) (n.readTables q.tables)).map fun p =>
        (⟨[], p.1⟩, p.2) := by
  show Except.bind (level q _ (n.readTables q.tables)) (fun p => _) = _
  cases level q _ (n.readTables q.tables) <;> rfl

/-- An inline subquery starts without pending entries, takes those that arise and leaves the ones
from before. -/
theorem subqueryOf_inline_eq (level : Query → Option Scope → Naming Select) (q : Query)
    (outer : Scope) (n : Names) : subqueryOf .inline level q outer n =
      (level q (some (q.context.getD outer)) { n.readTables q.tables with pending := [] }).map
        fun p => (⟨p.2.pending, p.1⟩, { p.2 with pending := n.pending }) := by
  show Except.bind (Except.bind (level q _ { n.readTables q.tables with pending := [] }) fun p => _)
    (fun p => _) = _
  cases level q _ { n.readTables q.tables with pending := [] } <;> rfl

/-- A run of a subquery. -/
theorem subqueryOf_run {placement : EntryPlacement} {level : Query → Option Scope → Naming Select}
    {q : Query} {outer : Scope} {n n' : Names} {statement : Statement}
    (h : subqueryOf placement level q outer n = .ok (statement, n')) :
    (placement = .hoisted ∧ ∃ s, level q (some (q.context.getD outer)) (n.readTables q.tables) =
        .ok (s, n') ∧ statement = ⟨[], s⟩) ∨
    (placement = .inline ∧ ∃ s m, level q (some (q.context.getD outer))
        { n.readTables q.tables with pending := [] } = .ok (s, m) ∧
      statement = ⟨m.pending, s⟩ ∧ n' = { m with pending := n.pending }) := by
  cases placement with
  | hoisted =>
    rw [subqueryOf_hoisted_eq] at h
    obtain ⟨⟨s, m⟩, hs, heq⟩ := except_map_eq_ok_iff.mp h
    obtain ⟨rfl, rfl⟩ := Prod.mk.inj heq
    exact .inl ⟨rfl, s, hs, rfl⟩
  | inline =>
    rw [subqueryOf_inline_eq] at h
    obtain ⟨⟨s, m⟩, hs, heq⟩ := except_map_eq_ok_iff.mp h
    obtain ⟨rfl, rfl⟩ := Prod.mk.inj heq
    exact .inr ⟨rfl, s, m, hs, rfl, rfl⟩

/-- A statement has the entries that are pending at the end of its level. -/
theorem statementWith_eq (calls : Calls) (depth : Nat) (q : Query) : statementWith calls depth q =
    Except.map (fun p => ⟨p.2.pending, p.1⟩)
      (compileLevel .hoisted calls depth q q.context (initialNames q)) := rfl

theorem statementWithin_eq (depth : Nat) (q : Query) : statementWithin depth q =
    Except.map (fun p => ⟨p.2.pending, p.1⟩)
      (compileLevel .hoisted (.within depth) depth q q.context (initialNames q)) := rfl

/-- The run of the level that a statement comes from. -/
theorem statementWithin_run {depth : Nat} {q : Query} {s : Statement}
    (h : statementWithin depth q = .ok s) :
    ∃ names, compileLevel .hoisted (.within depth) depth q q.context (initialNames q) =
      .ok (s.body, names) ∧ names.pending = s.entries := by
  rw [statementWithin_eq] at h
  obtain ⟨⟨body, names⟩, hrun, rfl⟩ := except_map_eq_ok_iff.mp h
  exact ⟨names, hrun, rfl⟩

theorem resolvedWith_subquery (calls : Calls) (depth : Nat) (q : Query) (scope : Scope) :
    resolvedWith calls depth (.subquery q) scope =
      Except.map (fun p => .subquery p.1)
        (subqueryOf .inline (compileLevel .inline calls depth) q scope
          (Names.reserving scope.displayAliases)) := by
  show Except.map _ (Except.bind (subqueryOf .inline (compileLevel .inline calls depth) q scope
    (Names.reserving scope.displayAliases)) fun p => _) = _
  cases subqueryOf .inline (compileLevel .inline calls depth) q scope
    (Names.reserving scope.displayAliases) <;> rfl

/-- Inline subqueries leave no entries behind. -/
theorem pending_resolve_inline {level : Query → Option Scope → Naming Select} {scope : Scope}
    {e : Expr Query} {r : Expr Statement} {n n' : Names}
    (h : resolve (subqueryOf .inline level) scope e n = .ok (r, n')) : n'.pending = n.pending := by
  replace h := resolves_of_run h
  induction h with
  | column | star | raw | text => rfl
  | unary _ ih => exact ih
  | binary _ _ ihl ihr => exact ihr.trans ihl
  | subquery hs =>
    rcases subqueryOf_run hs with ⟨hplacement, _⟩ | ⟨_, _, _, _, _, rfl⟩
    · simp at hplacement
    · rfl

end QueryBuilder.Sql
