import QueryBuilder.Proofs.Ending
import QueryBuilder.Proofs.MergedReferences

/-! Queries whose compilation comes to an end.

Compiling a query calls its callbacks, and what these give may embed further queries. A callback is
tame if it can be called with any row of a level and all that it embeds comes to an end. What a
callback embeds may contain the query of the row itself, since rows know their query; only the
projections of a query may do so, and only because the query that they embed has others in their
place. So a query is tame by its other callbacks and its nested sources alone, and a projection is
tame if it can be called with the rows of tame queries. The compilation of a tame query all of whose
projections are tame comes to an end (`Query.Orderly.halts`). Building keeps all of this. -/
namespace QueryBuilder

open Sql in
/-- Compiling the query comes to an end, wherever it is compiled. -/
def Query.Halts (q : Query) : Prop :=
  ∀ placement parent,
    Sql.Halts (fun i => compileLevel placement (Calls.within i.1) i.2 q parent) fun _ => True

/-- Compiling each query in the expression comes to an end. -/
def Expr.Halts (e : Expr Query) : Prop := ∀ q ∈ e.subqueries, q.Halts

def Predicate.Tame (p : Predicate) : Prop :=
  ∀ row : Row, row.fetched = false →
    Ends .atTop (fun i : Limits => p.apply (Calls.within i.1) row) Expr.Halts

def Sorting.Tame (s : Sorting) : Prop :=
  ∀ row : Row, row.fetched = false →
    Ends .atTop (fun i : Limits => s.apply (Calls.within i.1) row) fun keys =>
      ∀ k ∈ keys, k.expr.Halts

/-- Apart from its projections, the query leads to nothing that does not come to an end. -/
structure Query.Tame (q : Query) : Prop where
  nested : ∀ s ∈ q.sources, ∀ inner, s.data = .nested inner → inner.Halts
  filters : ∀ p ∈ q.filters, p.Tame
  joins : ∀ j ∈ q.joins, j.on.Tame
  sorting : ∀ s, q.sorting = some s → s.Tame

/-- In contrast to a condition, a projection may embed the query of the row. -/
def Projection.Tame (p : Projection) : Prop :=
  ∀ row : Row, row.fetched = false → row.query.Tame →
    Ends .atTop (fun i : Limits => p.apply (Calls.within i.1) row) fun selections =>
      ∀ s ∈ selections, s.expr.Halts

structure Query.Orderly (q : Query) : Prop where
  tame : q.Tame
  projections : ∀ p ∈ q.projections, p.Tame

namespace Sql

/-! ### Levels of tame queries -/

theorem halts_claim (source : String) (isEntry : Bool) :
    Halts (fun _ => claim source isEntry) fun _ => True := fun n => by
  cases h : n.freshAlias source isEntry with
  | ok label => exact .ok trivial (.of_forall fun _ => claim_eq_ok_iff.mpr ⟨h, rfl⟩)
  | error e => exact .error (e := e) (.of_forall fun _ => by simp [claim, h])

theorem halts_readTable (name : String) : Halts (fun _ => readTable name) fun _ => True :=
  fun n => by
    by_cases h : name ∈ n.entryNames
    · exact .error (e := .aliasAlreadyUsed name) (.of_forall fun _ => by simp [readTable, h])
    · exact .ok (a := ((), n.readTables [name])) trivial
        (.of_forall fun _ => readTable_eq_ok_iff.mpr ⟨h, rfl⟩)

theorem halts_modify (f : Names → Names) : Halts (fun _ => modify f) fun _ => True :=
  fun _ => .pure trivial

theorem halts_lift {α : Type} (x : Except Error α) :
    Halts (fun _ => checked (liftM x)) fun _ => True :=
  .checked (.lift fun _ _ => trivial)

section
variable {level : Limits → Query → Option Scope → Naming Select}

theorem visit_halts {source : Source}
    (h : ∀ inner, source.data = .nested inner →
      Halts (fun i => level i inner inner.context) fun _ => True) (l : LevelScope) :
    Halts (fun i => visit (level i) l source) fun _ => True := by
  unfold visit
  cases hdata : source.data with
  | table name relation =>
    exact (halts_claim _ _).bind fun label _ => (halts_readTable name).bind fun _ _ => .pure trivial
  | nested inner =>
    refine (halts_claim _ _).bind fun label _ => (h inner hdata).bind fun body _ => ?_
    exact (halts_modify _).bind fun _ _ => .pure trivial

theorem subqueryOf_halts {placement : EntryPlacement} {q : Query}
    (h : ∀ parent, Halts (fun i => level i q parent) fun _ => True) (outer : Scope) :
    Halts (fun i => subqueryOf placement (level i) q outer) fun _ => True := by
  unfold subqueryOf
  refine (halts_modify _).bind fun _ _ => ?_
  cases placement with
  | hoisted => exact (h _).bind fun s _ => .pure trivial
  | inline =>
    have get : Halts (fun _ => (get : Naming Names)) fun _ => True := fun _ => .pure trivial
    have taking : Halts (fun i => takingEntries (level i q (some (q.context.getD outer))))
        fun _ => True :=
      get.bind fun before _ => (halts_modify _).bind fun _ _ => (h _).bind fun value _ =>
        get.bind fun arisen _ => (halts_modify _).bind fun _ _ => .pure trivial
    exact taking.bind fun result _ => .pure trivial

theorem resolve_halts {subquery : Limits → Query → Scope → Naming Statement} {scope : Scope}
    {e : Expr Query} (h : ∀ q ∈ e.subqueries, Halts (fun i => subquery i q scope) fun _ => True) :
    Halts (fun i => resolve (subquery i) scope e) fun _ => True := by
  induction e with
  | column source name => exact (halts_lift _).bind fun display _ => .pure trivial
  | star source => exact (halts_lift _).bind fun display _ => .pure trivial
  | raw sql => exact .pure trivial
  | text value => exact .pure trivial
  | unary before operand after ih => exact (ih h).bind fun r _ => .pure trivial
  | binary before between after left right ihl ihr =>
    refine (ihl fun q hq => h q (List.mem_append_left _ hq)).bind fun l _ => ?_
    exact (ihr fun q hq => h q (List.mem_append_right _ hq)).bind fun r _ => .pure trivial
  | subquery q => exact (h q (List.mem_singleton_self q)).bind fun s _ => .pure trivial

end

section
variable {q : Query} {resolveHere : Limits → Expr Query → Naming (Expr Statement)} {row : Row}
  (hresolve : ∀ e : Expr Query, e.Halts → Halts (fun i => resolveHere i e) fun _ => True)
  (hrow : row.fetched = false)
include hresolve hrow

theorem projected_halts {p : Projection} (hp : p.Tame) (hquery : row.query.Tame) :
    Halts (fun i => projected (Calls.within i.1) (resolveHere i) row p) fun _ => True := by
  unfold projected
  refine (Halts.checked (hp row hrow hquery)).bind fun selections hselections => ?_
  refine Halts.imp (Halts.mapM (r := fun _ => True) fun s hs => ?_) fun _ _ => trivial
  exact (hresolve _ (hselections s hs)).bind fun r _ => .pure trivial

theorem joined_halts {j : JoinClause} (hj : j.on.Tame) (l : LevelScope) :
    Halts (fun i => joined (Calls.within i.1) (resolveHere i) row l j) fun _ => True := by
  unfold joined
  refine (Halts.checked (hj row hrow)).bind fun e he => (hresolve e he).bind fun r _ => ?_
  exact (halts_lift _).bind fun item _ => .pure trivial

theorem filtered_halts {filters : List Predicate} (h : ∀ p ∈ filters, p.Tame) :
    Halts (fun i => filtered (Calls.within i.1) (resolveHere i) row filters) fun _ => True := by
  have calling := Halts.mapM (r := Expr.Halts) fun p hp => Halts.checked (h p hp row hrow)
  refine calling.bind fun es hes => ?_
  exact (Halts.mapM fun e he => hresolve e (hes e he)).imp fun _ _ => trivial

theorem sorted_halts {sorting : Option Sorting} (h : ∀ s, sorting = some s → s.Tame) :
    Halts (fun i => sorted (Calls.within i.1) (resolveHere i) row sorting) fun _ => True := by
  cases sorting with
  | none => exact .pure trivial
  | some s =>
    refine (Halts.checked (h s rfl row hrow)).bind fun keys hkeys => ?_
    refine Halts.imp (Halts.mapM (r := fun _ => True) fun k hk => ?_) fun _ _ => trivial
    exact (hresolve _ (hkeys k hk)).bind fun r _ => .pure trivial

end

end Sql

open Sql in
/-- **A tame query all of whose projections are tame comes to an end.** Its nested sources do, and so
does all that its callbacks embed: they are called with a row of the query itself, which has not
been fetched. -/
theorem Query.Orderly.halts {q : Query} (h : q.Orderly) : q.Halts := by
  intro placement parent
  refine Sql.Halts.of_succ_levels ?_
  have hvisits : Sql.Halts (fun i => q.sources.foldlM
      (visit (compileLevel placement (Calls.within i.1) i.2)) { scope := Scope.child parent })
      fun _ => True :=
    .foldlM fun l s hs => visit_halts (fun inner hinner =>
      h.tame.nested s hs inner hinner placement inner.context) l
  refine hvisits.bind fun l _ => ?_
  have hresolve : ∀ e : Expr Query, e.Halts → Sql.Halts (fun i => resolve
      (subqueryOf placement (compileLevel placement (Calls.within i.1) i.2)) l.scope e)
      fun _ => True := fun e he =>
    resolve_halts fun inner hinner => subqueryOf_halts (he inner hinner placement) l.scope
  have hrow : (Row.bound q l.scope).fetched = false := rfl
  refine (Sql.Halts.mapM (r := fun _ => True) fun p hp =>
    projected_halts hresolve hrow (h.projections p hp) h.tame).bind fun items _ => ?_
  refine (halts_lift _).bind fun base _ => ?_
  refine (Sql.Halts.mapM (r := fun _ => True) fun j hj =>
    joined_halts hresolve hrow (h.tame.joins j hj) l).bind fun joins _ => ?_
  refine (filtered_halts hresolve hrow h.tame.filters).bind fun conditions _ => ?_
  exact (sorted_halts hresolve hrow h.tame.sorting).bind fun sorting _ => .pure trivial

/-! ### Callbacks that the library makes -/

theorem Association.predicate_tame (a : Association) (owner target : String) :
    (a.predicate owner target).Tame := fun row _ => by
  refine .ok (a := a.condition row owner target) ?_ (.of_forall fun _ => rfl)
  simp [Expr.Halts, Expr.subqueries_condition]

/-- Called from within a callback, the condition comes to an end. -/
theorem Predicate.Tame.call {p : Predicate} (h : p.Tame) {row : Row} (hrow : row.fetched = false) :
    Ends .atTop (fun i : Limits => (Calls.within i.1).predicate p row) Expr.Halts := by
  refine Ends.of_succ_calls (x := fun calls => (Calls.within calls).predicate p row) ?_
  exact h row hrow

theorem Projection.Tame.call {p : Projection} (h : p.Tame) {row : Row} (hrow : row.fetched = false)
    (hquery : row.query.Tame) :
    Ends .atTop (fun i : Limits => (Calls.within i.1).projection p row) fun selections =>
      ∀ s ∈ selections, s.expr.Halts := by
  refine Ends.of_succ_calls (x := fun calls => (Calls.within calls).projection p row) ?_
  exact h row hrow hquery

/-- A projection is tame if each of its items can be evaluated with the rows of tame queries. -/
theorem Projection.tame_of_body {p : Projection}
    (h : ∀ t ∈ p.body, ∀ row : Row, row.fetched = false → row.query.Tame →
      Ends .atTop (fun i : Limits => t.evaluate (Calls.within i.1) (row :: p.captured))
        fun selections => ∀ s ∈ selections, s.expr.Halts) : p.Tame := fun row hrow hquery => by
  have items := Ends.mapM fun t ht => h t ht row hrow hquery
  refine items.bind fun selections hselections => .pure fun s hs => ?_
  obtain ⟨found, hfound, hs⟩ := List.mem_flatten.mp hs
  exact hselections found hfound s hs

/-- So it is if each of them gives one selection, without calls and without subqueries. -/
theorem Projection.tame_of_plain {p : Projection}
    (h : ∀ t ∈ p.body, ∀ row : Row, ∃ s : Selection, s.expr.subqueries = [] ∧
      ∀ calls, t.evaluate calls (row :: p.captured) = .ok [s]) : p.Tame :=
  Projection.tame_of_body fun t ht row _ _ => by
    obtain ⟨s, hs, heval⟩ := h t ht row
    refine .ok (a := [s]) ?_ (.of_forall fun _ => heval _)
    simp [Expr.Halts, hs]

theorem Query.everything_tame : everything.Tame := Projection.tame_of_plain fun t ht row => by
  obtain rfl := List.mem_singleton.mp ht
  exact ⟨⟨.raw "*", none⟩, rfl, fun _ => rfl⟩

/-- The filters of a merged query call those of the query on the row of the joining one. -/
theorem Predicate.Tame.merged {p : Predicate} (hp : p.Tame) (target : Query) (label : String) :
    Predicate.Tame ⟨.call p (target.mergedRow label), []⟩ := fun row hrow =>
  Predicate.Tame.call hp (show (target.atMerged label row).fetched = false from hrow)

theorem Projection.Tame.merged {p : Projection} (hp : p.Tame) (target : Query) (label : String) :
    Projection.Tame ⟨[.callUnder label p (target.mergedRow label)], []⟩ := by
  refine Projection.tame_of_body fun t ht row hrow hquery => ?_
  obtain rfl := List.mem_singleton.mp ht
  have called := hp.call (show (target.atMerged label row).fetched = false from hrow) hquery
  refine called.bind fun selections hselections => .pure fun s hs => ?_
  obtain ⟨s, hmem, rfl⟩ := List.mem_map.mp hs
  rw [Selection.expr_under]
  exact hselections s hmem

namespace Query
variable {q : Query}

/-! ### Building -/

theorem Tame.filter (h : q.Tame) {p : Predicate} (hp : p.Tame) : (q.filter p).Tame where
  nested := h.nested
  filters p' hp' := by
    rcases List.mem_append.mp hp' with hp' | hp'
    · exact h.filters p' hp'
    · obtain rfl := List.mem_singleton.mp hp'
      exact hp
  joins := h.joins
  sorting := h.sorting

/-- Whether a query is tame does not depend on its projections. -/
theorem Tame.withProjections (h : q.Tame) (projections : List Projection) :
    ({ q with projections } : Query).Tame :=
  ⟨h.nested, h.filters, h.joins, h.sorting⟩

theorem Tame.attach (h : q.Tame) {source : Source} {join : JoinClause}
    (hsource : ∀ inner, source.data = .nested inner → inner.Halts) (hon : join.on.Tame) :
    (q.attach source join).Tame where
  nested s hs := by
    rcases List.mem_append.mp hs with hs | hs
    · exact h.nested s hs
    · obtain rfl := List.mem_singleton.mp hs
      exact hsource
  filters := h.filters
  joins j hj := by
    rcases List.mem_append.mp hj with hj | hj
    · exact h.joins j hj
    · obtain rfl := List.mem_singleton.mp hj
      exact hon
  sorting := h.sorting

theorem tame_ofSource (label name : String) (relation : Option RelationRef) :
    (ofSource label (.table name relation)).Tame where
  nested s hs inner hinner := by
    obtain rfl := List.mem_singleton.mp hs
    cases hinner
  filters := by simp [ofSource]
  joins := by simp [ofSource]
  sorting := by simp [ofSource]

/-- What an aggregate, or the test for any rows, embeds: it has the projections of the query
replaced. -/
theorem Tame.select_value_halts (h : q.Tame) {e : Expr Query} (he : e.subqueries = [])
    (label : Option String) : (q.select ⟨[.item (.value e) label], []⟩).Halts := by
  refine Orderly.halts ⟨h.withProjections _, fun p hp => ?_⟩
  obtain rfl := List.mem_singleton.mp hp
  refine Projection.tame_of_plain fun t ht row => ?_
  obtain rfl := List.mem_singleton.mp ht
  exact ⟨⟨e, label⟩, he, fun _ => rfl⟩

namespace Orderly

theorem withProjections (h : q.Orderly) {projections : List Projection}
    (hp : ∀ p ∈ projections, p.Tame) : ({ q with projections } : Query).Orderly :=
  ⟨h.tame.withProjections projections, hp⟩

theorem select (h : q.Orderly) {p : Projection} (hp : p.Tame) : (q.select p).Orderly :=
  h.withProjections fun _ hp' => List.mem_singleton.mp hp' ▸ hp

theorem andSelect (h : q.Orderly) {p : Projection} (hp : p.Tame) : (q.andSelect p).Orderly := by
  unfold Query.andSelect
  split
  · refine h.withProjections fun p' hp' => ?_
    rcases List.mem_cons.mp hp' with rfl | hp'
    · exact everything_tame
    · exact List.mem_singleton.mp hp' ▸ hp
  · refine h.withProjections fun p' hp' => ?_
    rcases List.mem_append.mp hp' with hp' | hp'
    · exact h.projections p' hp'
    · exact List.mem_singleton.mp hp' ▸ hp

theorem filter (h : q.Orderly) {p : Predicate} (hp : p.Tame) : (q.filter p).Orderly :=
  ⟨h.tame.filter hp, h.projections⟩

theorem sortBy (h : q.Orderly) {s : Sorting} (hs : s.Tame) : (q.sortBy s).Orderly where
  tame :=
    { h.tame with sorting := fun _ hs' => Option.some.inj hs' ▸ hs }
  projections := h.projections

/-- Names, limits and included queries have no part in compiling. -/
theorem of_eq {q' : Query} (h : q.Orderly) (hsources : q'.sources = q.sources)
    (hfilters : q'.filters = q.filters) (hjoins : q'.joins = q.joins)
    (hsorting : q'.sorting = q.sorting) (hprojections : q'.projections = q.projections) :
    q'.Orderly := by
  refine ⟨⟨?_, ?_, ?_, ?_⟩, ?_⟩
  · exact hsources ▸ h.tame.nested
  · exact hfilters ▸ h.tame.filters
  · exact hjoins ▸ h.tame.joins
  · exact hsorting ▸ h.tame.sorting
  · exact hprojections ▸ h.projections

theorem attach (h : q.Orderly) {source : Source} {join : JoinClause}
    (hsource : ∀ inner, source.data = .nested inner → inner.Halts) (hon : join.on.Tame) :
    (q.attach source join).Orderly :=
  ⟨h.tame.attach hsource hon, h.projections⟩

end Orderly

theorem orderly_ofSource (label name : String) (relation : Option RelationRef) :
    (ofSource label (.table name relation)).Orderly :=
  ⟨tame_ofSource label name relation, by simp [ofSource]⟩

theorem orderly_ofRelation (relation : RelationRef) (label : Option String) :
    (ofRelation relation label).Orderly :=
  orderly_ofSource _ _ _

theorem orderly_ofTable (table : String) (label : Option String) (columns : List String) :
    (ofTable table label columns).Orderly := by
  have hbase := orderly_ofSource (label.getD table) table none
  unfold ofTable
  dsimp only
  split
  · exact hbase
  · refine hbase.select (Projection.tame_of_plain fun t ht row => ?_)
    obtain ⟨name, _, rfl⟩ := List.mem_map.mp ht
    exact ⟨⟨row.columnOf (label.getD table) name, none⟩, rfl, fun _ => rfl⟩

/-! ### Joining -/

theorem Orderly.mergedProjections (h : q.Orderly) (label : String) :
    ∀ p ∈ q.mergedProjections label, p.Tame := by
  intro p hp
  unfold Query.mergedProjections at hp
  split at hp
  · obtain rfl := List.mem_singleton.mp hp
    refine Projection.tame_of_plain fun t ht row => ?_
    obtain rfl := List.mem_singleton.mp ht
    exact ⟨⟨row.starOf label, none⟩, rfl, fun _ => rfl⟩
  · obtain ⟨p, hmem, rfl⟩ := List.mem_map.mp hp
    exact (h.projections p hmem).merged q label

theorem Orderly.absorb (h : q.Orderly) {target : Query} (htarget : target.Orderly)
    (label : String) : (q.absorb target label).Orderly where
  tame :=
    { nested := h.tame.nested
      joins := h.tame.joins
      sorting := h.tame.sorting
      filters := fun p hp => by
        rcases List.mem_append.mp hp with hp | hp
        · exact h.tame.filters p hp
        · obtain ⟨p, hmem, rfl⟩ := List.mem_map.mp hp
          exact (htarget.tame.filters p hmem).merged target label }
  projections p hp := by
    unfold Query.absorb at hp
    dsimp only at hp
    split at hp
    · simp at hp
    · rcases List.mem_append.mp hp with hp | hp
      · exact h.projections p hp
      · exact htarget.mergedProjections label p hp

theorem derivedCondition_tame {target : Option RelationRef} {name label : String}
    {p : Predicate} (h : q.derivedCondition target name label = .ok p) : p.Tame := by
  unfold derivedCondition at h
  dsimp only at h
  split at h
  · obtain rfl := Except.ok.inj h
    exact Association.predicate_tame _ _ _
  · simp at h

/-- Joining anything that is orderly. -/
theorem Orderly.join (h : q.Orderly) {what : JoinTarget}
    (hwhat : ∀ target, what = .query target → target.Orderly) {options : JoinOptions}
    (hon : ∀ p, options.on = some p → p.Tame) {q' : Query} (hjoin : q.join what options = .ok q') :
    q'.Orderly := by
  have condition : ∀ {target name label} {p : Predicate},
      options.on = some p ∨ q.derivedCondition target name label = .ok p → p.Tame := by
    rintro target name label p (hp | hp)
    · exact hon p hp
    · exact derivedCondition_tame hp
  cases what with
  | association name =>
    simp only [Query.join, joinAssociation] at hjoin
    split at hjoin
    · simp at hjoin
    · simp only [except_bind_eq_ok_iff] at hjoin
      obtain ⟨association, -, target, -, label, -, hjoin⟩ := hjoin
      obtain rfl := Except.ok.inj hjoin
      refine h.attach (by simp [DataSource.ofRelation]) ?_
      cases hcases : options.on with
      | none => exact Association.predicate_tame _ _ _
      | some on => exact hon on hcases
  | table name =>
    simp only [Query.join, joinTable, except_bind_eq_ok_iff] at hjoin
    obtain ⟨label, -, hjoin⟩ := hjoin
    split at hjoin
    · simp at hjoin
    next on hcases =>
      obtain rfl := Except.ok.inj hjoin
      exact h.attach (by simp) (hon on hcases)
  | relation relation =>
    obtain ⟨label, on, -, hcondition, rfl⟩ := joinRelation_cases hjoin
    exact h.attach (by simp [DataSource.ofRelation]) (condition hcondition)
  | query target =>
    have htarget := hwhat target rfl
    obtain ⟨label, on, -, hcondition, hcases⟩ := joinQuery_cases hjoin
    have htame := condition hcondition
    rcases hcases with ⟨table, htable, rfl⟩ | ⟨-, rfl⟩
    · obtain ⟨own, hsources⟩ := sources_of_mergeableTable htable
      have hsource : ⟨own, table⟩ ∈ target.sources := hsources ▸ List.mem_singleton_self _
      refine Orderly.absorb ?_ htarget label
      exact h.attach (fun inner => htarget.tame.nested _ hsource inner) htame
    · refine h.attach (fun inner hinner => ?_) htame
      cases hinner
      exact htarget.halts

end Query

end QueryBuilder
