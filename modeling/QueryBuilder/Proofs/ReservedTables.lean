import QueryBuilder.Proofs.Aliases
import QueryBuilder.Proofs.ReachableTables

/-! Tables that are reserved before anything is named.

An entry takes no name of a table that is known when it is named, and a table that turns up later
under the name of an entry is refused. Compilation starts with the tables of the query's sources,
those of its nested sources, and with each registered table all tables of its schema; no callback is
called for this. It is enough: when the tables that are read are among those reserved, no entry is
ever named like one of them (`Keeps`), and a query whose callbacks reach others by associations only
reads no tables beyond these. -/
namespace QueryBuilder
namespace Sql

variable {α β : Type} {tables : List String}

/-- The tables are known to the statement, and no entry has the name of one. -/
structure Names.Reserves (tables : List String) (n : Names) : Prop where
  known : ∀ name ∈ tables, name ∈ n.tables
  apart : ∀ name ∈ tables, name ∉ n.entryNames

namespace Names.Reserves
variable {n : Names}

theorem withAlias_table (h : n.Reserves tables) (label : String) :
    (n.withAlias label false).Reserves tables :=
  ⟨h.known, h.apart⟩

/-- An entry is named apart from all tables that are known. -/
theorem withAlias_entry (h : n.Reserves tables) {source label : String}
    (hlabel : n.freshAlias source true = .ok label) :
    (n.withAlias label true).Reserves tables where
  known := h.known
  apart name hname hentry := by
    rcases mem_insert_iff.mp hentry with rfl | hentry
    · exact not_tables_of_freshAlias hlabel (h.known name hname)
    · exact h.apart name hname hentry

theorem readTables (h : n.Reserves tables) (more : List String) :
    (n.readTables more).Reserves tables where
  known name hname := mem_readTables.mpr (.inl (h.known name hname))
  apart := h.apart

end Names.Reserves

/-- Where the tables are reserved, the computation refuses none and keeps them reserved. -/
def Keeps (tables : List String) (x : Naming α) (post : α → Prop) : Prop :=
  ∀ n, n.Reserves tables → Accepted (x n) fun p => post p.1 ∧ p.2.Reserves tables

namespace Keeps
variable {x : Naming α} {p : α → Prop} {r : β → Prop}

theorem imp (h : Keeps tables x p) {q : α → Prop} (hpq : ∀ a, p a → q a) : Keeps tables x q :=
  fun n hn => (h n hn).imp fun _ ha => ⟨hpq _ ha.1, ha.2⟩

theorem pure {a : α} (h : p a) : Keeps tables (Pure.pure a) p := fun _ hn => .ok rfl ⟨h, hn⟩

theorem bind {f : α → Naming β} (hx : Keeps tables x p) (hf : ∀ a, p a → Keeps tables (f a) r) :
    Keeps tables (x >>= f) r := fun n hn =>
  (hx n hn).bind fun result h => hf result.1 h.1 result.2 h.2

theorem checked {x : Except Fault α} (h : Accepted x p) : Keeps tables (checked x) p := by
  intro n hn
  cases h with
  | ok hx ha =>
    subst hx
    exact .ok rfl ⟨ha, hn⟩
  | error hx hfault =>
    subst hx
    exact .error rfl hfault

theorem modify {f : Names → Names} (h : ∀ n, n.Reserves tables → (f n).Reserves tables) :
    Keeps tables (modify f) fun _ => True := fun n hn => .ok rfl ⟨trivial, h n hn⟩

theorem mapM {f : α → Naming β} {xs : List α} (h : ∀ a ∈ xs, Keeps tables (f a) r) :
    Keeps tables (xs.mapM f) fun ys => ∀ y ∈ ys, r y := by
  induction xs with
  | nil => exact .pure (by simp)
  | cons a xs ih =>
    rw [List.mapM_cons]
    refine (h a (List.mem_cons_self ..)).bind fun y hy => ?_
    refine (ih fun a ha => h a (List.mem_cons_of_mem _ ha)).bind fun ys hys => .pure ?_
    exact List.forall_mem_cons.mpr ⟨hy, hys⟩

theorem foldlM {f : β → α → Naming β} {xs : List α} {b : β} (hb : r b)
    (h : ∀ b, r b → ∀ a ∈ xs, Keeps tables (f b a) r) : Keeps tables (xs.foldlM f b) r := by
  induction xs generalizing b with
  | nil => exact .pure hb
  | cons a xs ih =>
    rw [List.foldlM_cons]
    refine (h b hb a (List.mem_cons_self ..)).bind fun b' hb' => ?_
    exact ih hb' fun b hb a ha => h b hb a (List.mem_cons_of_mem _ ha)

/-! ### Names that are claimed and tables that are read -/

theorem claim (source : String) (isEntry : Bool) :
    Keeps tables (claim source isEntry) fun _ => True := by
  intro n hn
  cases hlabel : n.freshAlias source isEntry with
  | error e =>
    have hfails : Sql.claim source isEntry n = .error (.error e) := by simp [Sql.claim, hlabel]
    refine .error hfails fun label he => ?_
    obtain rfl := Fault.error.inj he
    exact Alias.fresh_ne_aliasAlreadyUsed _ _ _ hlabel
  | ok label =>
    refine .ok (claim_eq_ok_iff.mpr ⟨hlabel, rfl⟩) ⟨trivial, ?_⟩
    cases isEntry with
    | false => exact hn.withAlias_table label
    | true => exact hn.withAlias_entry hlabel

/-- **The check for entries that hide a table does not fire on a reserved table.** -/
theorem readTable {name : String} (h : name ∈ tables) :
    Keeps tables (readTable name) fun _ => True := fun n hn =>
  .ok (a := ((), n.readTables [name])) (readTable_eq_ok_iff.mpr ⟨hn.apart name h, rfl⟩)
    ⟨trivial, hn.readTables [name]⟩

end Keeps

/-! ### Levels of confined queries -/

theorem LevelScope.item_accepted (l : LevelScope) (label : String) :
    Accepted (liftM (l.item label) : Except Fault TableItem) fun _ => True := by
  refine .lift (fun _ _ => trivial) fun used h => ?_
  unfold LevelScope.item at h
  split at h
  · rcases except_bind_eq_error_iff.mp h with h | ⟨_, -, h⟩
    · simp [Scope.resolve_eq_error_iff] at h
    · cases h
  · cases h

section
variable {level : Query → Option Scope → Naming Select}
  (hlevel : ∀ q parent, q.Confined tables → (∀ scope, parent = some scope → scope.Confined tables) →
    Keeps tables (level q parent) fun _ => True)
include hlevel

theorem visit_keeps {source : Source} (hsource : source.data.Confined tables) {l : LevelScope}
    (hl : l.scope.Confined tables) :
    Keeps tables (visit level l source) fun l' => l'.scope.Confined tables := by
  have hrelation : ∀ r, source.data.relation = some r → r.Confined tables :=
    fun _ hr => hsource.relation hr
  unfold visit
  cases hdata : source.data with
  | table name relation =>
    rw [hdata] at hsource
    cases hsource with
    | table hname _ =>
      refine (Keeps.claim _ _).bind fun label _ => (Keeps.readTable hname).bind fun _ _ => ?_
      exact .pure (hl.bind hrelation)
  | nested inner =>
    rw [hdata] at hsource
    cases hsource with
    | nested hinner =>
      refine (Keeps.claim _ _).bind fun label _ => ?_
      refine (hlevel inner inner.context hinner fun _ => hinner.context_mem).bind fun body _ => ?_
      have hentry : Keeps tables (modify (·.withEntry ⟨label, body⟩)) fun _ => True :=
        .modify fun n hn => ⟨hn.known, hn.apart⟩
      exact hentry.bind fun _ _ => .pure (hl.bind hrelation)

theorem subqueryOf_keeps {placement : EntryPlacement} {q : Query} (hq : q.Confined tables)
    {outer : Scope} (houter : outer.Confined tables) :
    Keeps tables (subqueryOf placement level q outer) fun _ => True := by
  have hparent : (q.context.getD outer).Confined tables := by
    cases hcontext : q.context with
    | none => exact houter
    | some scope => exact hq.context_mem hcontext
  have hbody := hlevel q (some (q.context.getD outer)) hq fun _ hscope =>
    Option.some.inj hscope ▸ hparent
  unfold subqueryOf
  refine (Keeps.modify fun n hn => hn.readTables q.tables).bind fun _ _ => ?_
  cases placement with
  | hoisted => exact hbody.bind fun s _ => .pure trivial
  | inline =>
    have get : Keeps tables (get : Naming Names) fun _ => True := fun n hn => .ok rfl ⟨trivial, hn⟩
    have pending : ∀ entries, Keeps tables (modify fun n : Names => { n with pending := entries })
        fun _ => True := fun entries => .modify fun n hn => ⟨hn.known, hn.apart⟩
    have taking : Keeps tables (takingEntries (level q (some (q.context.getD outer))))
        fun _ => True :=
      get.bind fun before _ => (pending []).bind fun _ _ => hbody.bind fun value _ =>
        get.bind fun arisen _ => (pending before.pending).bind fun _ _ => .pure trivial
    exact taking.bind fun result _ => .pure trivial

theorem resolve_keeps {placement : EntryPlacement} {scope : Scope} (hscope : scope.Confined tables)
    {e : Expr Query} (he : e.Confined tables) :
    Keeps tables (resolve (subqueryOf placement level) scope e) fun _ => True := by
  have hresolve : ∀ source, Keeps tables (checked (liftM (scope.resolve source))) fun _ => True :=
    fun source => .checked (.lift (fun _ _ => trivial) fun label h => by
      simp [Scope.resolve_eq_error_iff] at h)
  induction e with
  | column source name => exact (hresolve source).bind fun _ _ => .pure trivial
  | star source => exact (hresolve source).bind fun _ _ => .pure trivial
  | raw sql => exact .pure trivial
  | text value => exact .pure trivial
  | unary before operand after ih => exact (ih he).bind fun _ _ => .pure trivial
  | binary before between after left right ihl ihr =>
    refine (ihl fun q hq => he q (List.mem_append_left _ hq)).bind fun _ _ => ?_
    exact (ihr fun q hq => he q (List.mem_append_right _ hq)).bind fun _ _ => .pure trivial
  | subquery q =>
    exact (subqueryOf_keeps hlevel (he q (List.mem_singleton_self q)) hscope).bind
      fun _ _ => .pure trivial

end

section
variable {calls : Calls} (hcalls : calls.Confined tables)
  {resolveHere : Expr Query → Naming (Expr Statement)}
  (hresolve : ∀ e : Expr Query, e.Confined tables → Keeps tables (resolveHere e) fun _ => True)
  {row : Row} (hrow : row.Confined tables)
include hcalls hresolve hrow

theorem projected_keeps {p : Projection} (hp : p.Confined tables) :
    Keeps tables (projected calls resolveHere row p) fun _ => True := by
  refine (Keeps.checked (hp.apply hcalls hrow)).bind fun selections hselections => ?_
  refine Keeps.imp (Keeps.mapM (r := fun _ => True) fun s hs => ?_) fun _ _ => trivial
  exact (hresolve _ (hselections s hs)).bind fun _ _ => .pure trivial

theorem joined_keeps {j : JoinClause} (hj : j.on.Confined tables) (l : LevelScope) :
    Keeps tables (joined calls resolveHere row l j) fun _ => True := by
  refine (Keeps.checked (hj.apply hcalls hrow)).bind fun e he => (hresolve e he).bind fun _ _ => ?_
  exact (Keeps.checked (l.item_accepted j.label)).bind fun _ _ => .pure trivial

theorem filtered_keeps {filters : List Predicate} (h : ∀ p ∈ filters, p.Confined tables) :
    Keeps tables (filtered calls resolveHere row filters) fun _ => True := by
  refine (Keeps.mapM fun p hp => .checked ((h p hp).apply hcalls hrow)).bind fun es hes => ?_
  exact (Keeps.mapM fun e he => hresolve e (hes e he)).imp fun _ _ => trivial

theorem sorted_keeps {sorting : Option Sorting} (h : ∀ s, sorting = some s → s.Confined tables) :
    Keeps tables (sorted calls resolveHere row sorting) fun _ => True := by
  cases sorting with
  | none => exact .pure trivial
  | some s =>
    refine (Keeps.checked ((h s rfl).apply hcalls hrow)).bind fun keys hkeys => ?_
    refine Keeps.imp (Keeps.mapM (r := fun _ => True) fun k hk => ?_) fun _ _ => trivial
    exact (hresolve _ (hkeys k hk)).bind fun _ _ => .pure trivial

end

/-- Compiling a confined query refuses none of the tables, wherever it is compiled. -/
theorem compileLevel_keeps {placement : EntryPlacement} {calls : Calls}
    (hcalls : calls.Confined tables) {depth : Nat} {q : Query} (hq : q.Confined tables)
    {parent : Option Scope} (hparent : ∀ scope, parent = some scope → scope.Confined tables) :
    Keeps tables (compileLevel placement calls depth q parent) fun _ => True := by
  induction depth generalizing q parent with
  | zero => exact .checked (.error rfl (by simp))
  | succ depth ih =>
    have hlevel : ∀ (q : Query) (parent : Option Scope), q.Confined tables →
        (∀ scope, parent = some scope → scope.Confined tables) →
        Keeps tables (compileLevel placement calls depth q parent) fun _ => True :=
      fun q parent hq hparent => ih hq hparent
    have hvisits : Keeps tables (q.sources.foldlM (visit (compileLevel placement calls depth))
        { scope := Scope.child parent }) fun l => l.scope.Confined tables :=
      .foldlM (Scope.confined_child hparent) fun l hl s hs => visit_keeps hlevel (hq.source hs) hl
    refine hvisits.bind fun l hl => ?_
    have hrow : (Row.bound q l.scope).Confined tables := .mk hq hl
    have hresolve : ∀ e : Expr Query, e.Confined tables →
        Keeps tables (resolve (subqueryOf placement (compileLevel placement calls depth)) l.scope e)
          fun _ => True := fun e he => resolve_keeps hlevel hl he
    refine (Keeps.mapM (r := fun _ => True) fun p hp =>
      projected_keeps hcalls hresolve hrow (hq.projection_mem hp)).bind fun items _ => ?_
    refine (Keeps.checked (l.item_accepted q.baseSource)).bind fun base _ => ?_
    refine (Keeps.mapM (r := fun _ => True) fun j hj =>
      joined_keeps hcalls hresolve hrow (hq.join_mem hj) l).bind fun joins _ => ?_
    refine (filtered_keeps hcalls hresolve hrow fun p hp => hq.filter_mem hp).bind
      fun conditions _ => ?_
    exact (sorted_keeps hcalls hresolve hrow fun s hs => hq.sorting_mem hs).bind
      fun sorting _ => .pure trivial

end Sql

/-! ### Queries whose callbacks follow associations -/

/-- Neither the query nor any of its nested sources has a context, and their callbacks embed only
what their rows lead to. -/
inductive Query.Traverses : Query → Prop
  | mk {q : Query} : q.context = none →
      (∀ s ∈ q.sources, ∀ inner, s.data = .nested inner → Query.Traverses inner) →
      (∀ p ∈ q.filters, p.body.Traverses 1) →
      (∀ s, q.sorting = some s → ∀ k ∈ s.body, k.expr.Traverses 1) →
      (∀ p ∈ q.projections, ∀ t ∈ p.body, t.Traverses 1) →
      (∀ j ∈ q.joins, j.on.body.Traverses 1) → Query.Traverses q

namespace Query

theorem traverses_ofSource (label name : String) (relation : Option RelationRef) :
    (ofSource label (.table name relation)).Traverses := by
  refine .mk rfl ?_ ?_ ?_ ?_ ?_
  all_goals simp [ofSource]

namespace Traverses
variable {q : Query}

theorem take (h : q.Traverses) (count : Nat) : (q.take count).Traverses := by
  cases h with
  | mk hc hs hf ho hp hj => exact .mk hc hs hf ho hp hj

theorem filter (h : q.Traverses) {p : Predicate} (hp : p.body.Traverses 1) :
    (q.filter p).Traverses := by
  cases h with
  | mk hc hs hf ho hprojections hj =>
    exact .mk hc hs (List.forall_mem_append.mpr ⟨hf, by simpa using hp⟩) ho hprojections hj

theorem attach (h : q.Traverses) {source : Source} {join : JoinClause}
    (hsource : ∀ inner, source.data = .nested inner → inner.Traverses)
    (hon : join.on.body.Traverses 1) : (q.attach source join).Traverses := by
  cases h with
  | mk hc hs hf ho hp hj =>
    exact .mk hc (List.forall_mem_append.mpr ⟨hs, by simpa using hsource⟩) hf ho hp
      (List.forall_mem_append.mpr ⟨hj, by simpa using hon⟩)

end Traverses

end Query

/-- The tables of a registered source include those of its schema. -/
theorem DataSource.confined_table {tables : List String} {name : String}
    {relation : Option RelationRef}
    (h : ∀ other ∈ (DataSource.table name relation).tables, other ∈ tables) :
    (DataSource.table name relation).Confined tables := by
  cases relation with
  | none => exact .table (h name (List.mem_singleton_self _)) (by simp)
  | some r =>
    refine .table (h name (List.mem_cons_self ..)) fun r' hr' other hother => ?_
    obtain rfl := Option.some.inj hr'
    exact h _ (List.mem_cons_of_mem _ (List.mem_map_of_mem hother))

/-- Such a query is confined to the tables that are reserved for it, and to more. -/
theorem Query.Traverses.confined {tables : List String} {q : Query} :
    q.Traverses → (∀ name ∈ q.tables, name ∈ tables) → q.Confined tables
  | .mk hcontext hnested hfilters hsorting hprojections hjoins, htables => by
    refine .mk (fun s hs => ?_) (by simp [hcontext]) (fun p hp => .mk 0 (hfilters p hp) (by simp))
      (fun s hs => .mk 0 (hsorting s hs) (by simp))
      (fun p hp => .mk 0 (hprojections p hp) (by simp)) (fun j hj => .mk 0 (hjoins j hj) (by simp))
    have hsource : ∀ name ∈ s.data.tables, name ∈ tables := by
      intro name hname
      refine htables name ?_
      rw [Query.tables_eq]
      exact List.mem_flatMap.mpr ⟨s, hs, hname⟩
    cases hdata : s.data with
    | table name relation => exact DataSource.confined_table (hdata ▸ hsource)
    | nested inner =>
      rw [hdata] at hsource
      exact .nested ((hnested s hs inner hdata).confined hsource)

namespace Sql

theorem reserves_initialNames (q : Query) : (initialNames q).Reserves q.tables where
  known name hname := mem_readTables.mpr (.inr hname)
  apart name _ := by simp [initialNames, Names.readTables, Names.reserving]

/-- **Reserving the tables of a query is enough for associations.** A query without a context, whose
nested sources have none either, and whose callbacks reach other tables only by following
associations from their rows, under any schemas: however deep it is compiled, no table of it is
refused because an entry has its name. -/
theorem reserved_tables_suffice {q : Query} (h : q.Traverses) (label : String) :
    (∀ depth, statementWithin depth q ≠ .error (.error (.aliasAlreadyUsed label))) ∧
    q.toSql ≠ .error (.error (.aliasAlreadyUsed label)) := by
  have hconfined : q.Confined q.tables := h.confined fun _ => id
  have hwithin : ∀ depth, statementWithin depth q ≠ .error (.error (.aliasAlreadyUsed label)) := by
    intro depth
    have hlevel : Keeps q.tables (compileLevel .hoisted (.within depth) depth q q.context)
        fun _ => True :=
      compileLevel_keeps (Calls.confined_within depth) hconfined fun _ => hconfined.context_mem
    have hrun := hlevel (initialNames q) (reserves_initialNames q)
    rw [statementWithin_eq, ne_eq, except_map_eq_error_iff]
    exact hrun.ne_aliasAlreadyUsed label
  refine ⟨hwithin, ?_⟩
  rw [Query.toSql, ne_eq, except_map_eq_error_iff]
  exact hwithin Calls.maxDepth

/-- Trips that some stop is late on, next to the first trip of an archive. The archive goes by the
name of the table that only the condition reads. -/
def lateTripsWithArchive : Query :=
  ((Query.ofRelation ⟨journeys, 0, journeys_inhabited⟩).attach ⟨"stop", .nested firstTrip⟩
      ⟨"stop", .left, ⟨.value (.raw "TRUE"), []⟩⟩).filter
    ⟨.existsRow (.filter (.fetch (.up 0) none "stop" none)
      (.apply .gt (.column (.up 0) none "delay") (.column (.up 1) none "delay"))), []⟩

theorem lateTripsWithArchive_traverses : lateTripsWithArchive.Traverses := by
  have hfirst : firstTrip.Traverses := (Query.traverses_ofSource "archive" "archive" none).take 1
  refine (Query.Traverses.attach (Query.traverses_ofSource ..) ?_ (.value rfl)).filter ?_
  · rintro inner ⟨⟩
    exact hfirst
  · refine .existsRow (.filter (.fetch (.up (by decide))) ?_)
    exact .apply (.column (.up (by decide))) (.column (.up (by decide)))

/-- The entry takes another name, and the table is read under its own. -/
theorem lateTripsWithArchive_compiles : lateTripsWithArchive.Traverses ∧
    lateTripsWithArchive.toSql = .ok
      ("WITH \"stop_0\" AS (\n    SELECT *\n    FROM \"archive\" AS \"archive\"\n    LIMIT 1\n)\n" ++
      "SELECT *\nFROM \"trip\" AS \"trip\"\n    LEFT JOIN \"stop_0\" AS \"stop_0\" ON TRUE\n" ++
      "WHERE EXISTS (SELECT 1\n    FROM \"stop\" AS \"stop_0_0\"\n" ++
      "    WHERE (\"trip\".\"id\" = (\"stop_0_0\".\"tripId\"))\n" ++
      "        AND (\"stop_0_0\".\"delay\" > (\"trip\".\"delay\")))") ∧
    ∀ label, lateTripsWithArchive.toSql ≠ .error (.error (.aliasAlreadyUsed label)) :=
  ⟨lateTripsWithArchive_traverses, by decide +kernel, fun label =>
    (reserved_tables_suffice lateTripsWithArchive_traverses label).2⟩

end Sql

end QueryBuilder
