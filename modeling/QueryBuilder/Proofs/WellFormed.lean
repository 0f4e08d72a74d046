import QueryBuilder.Proofs.Regular
import QueryBuilder.Query.Evaluation

/-! Queries that are regular throughout.

A query holds further ones: nested sources, included queries, the queries of the rows
that its callbacks have captured, and those that stand in the bodies of its callbacks.
It is well-formed when all of them are regular. Building from well-formed parts gives a
well-formed query, and so does the evaluation of a well-formed term; what a callback
of a well-formed query embeds is therefore well-formed again. -/
namespace QueryBuilder

/-- The queries that stand in an expression as subqueries. -/
def Expr.subqueries {σ : Type} : Expr σ → List σ
  | .column .. | .star .. | .raw .. | .text .. => []
  | .unary _ operand _ => operand.subqueries
  | .binary _ _ _ left right => left.subqueries ++ right.subqueries
  | .subquery query => [query]

mutual

inductive DataSource.WellFormed : DataSource → Prop
  | table {name relation} : DataSource.WellFormed (.table name relation)
  | nested {query} : Query.WellFormed query → DataSource.WellFormed (.nested query)

inductive Query.WellFormed : Query → Prop
  | mk {q : Query} : q.Regular → (∀ s ∈ q.sources, DataSource.WellFormed s.data) →
      (∀ p ∈ q.filters, Predicate.WellFormed p) → (∀ s, q.sorting = some s → Sorting.WellFormed s) →
      (∀ p ∈ q.projections, Projection.WellFormed p) → (∀ j ∈ q.joins, Predicate.WellFormed j.on) →
      (∀ i ∈ q.includes, Query.WellFormed i) → Query.WellFormed q

inductive Row.WellFormed : Row → Prop
  | mk {r : Row} : r.Regular → Query.WellFormed r.query → Row.WellFormed r

inductive Predicate.WellFormed : Predicate → Prop
  | mk {p : Predicate} : ExprTerm.WellFormed p.body → (∀ r ∈ p.captured, Row.WellFormed r) →
      Predicate.WellFormed p

inductive Projection.WellFormed : Projection → Prop
  | mk {p : Projection} : (∀ t ∈ p.body, SelectionTerm.WellFormed t) →
      (∀ r ∈ p.captured, Row.WellFormed r) → Projection.WellFormed p

inductive Sorting.WellFormed : Sorting → Prop
  | mk {s : Sorting} : (∀ t ∈ s.body, ExprTerm.WellFormed t.expr) →
      (∀ r ∈ s.captured, Row.WellFormed r) → Sorting.WellFormed s

inductive RowTerm.WellFormed : RowTerm → Prop
  | up {level} : RowTerm.WellFormed (.up level)
  | value {row} : Row.WellFormed row → RowTerm.WellFormed (.value row)
  | ofQuery {query} : QueryTerm.WellFormed query → RowTerm.WellFormed (.ofQuery query)
  | fetch {row source association label} : RowTerm.WellFormed row →
      RowTerm.WellFormed (.fetch row source association label)
  | filter {row condition} : RowTerm.WellFormed row → ExprTerm.WellFormed condition →
      RowTerm.WellFormed (.filter row condition)
  | substitute {row names} : RowTerm.WellFormed row → RowTerm.WellFormed (.substitute row names)
  | rebase {row source} : RowTerm.WellFormed row → RowTerm.WellFormed (.rebase row source)
  | fail {fault} : RowTerm.WellFormed (.fail fault)

inductive ExprTerm.WellFormed : ExprTerm → Prop
  | value {e : Expr Query} : (∀ q ∈ e.subqueries, Query.WellFormed q) →
      ExprTerm.WellFormed (.value e)
  | column {row source name} : RowTerm.WellFormed row →
      ExprTerm.WellFormed (.column row source name)
  | star {row source} : RowTerm.WellFormed row → ExprTerm.WellFormed (.star row source)
  | unary {before operand after} : ExprTerm.WellFormed operand →
      ExprTerm.WellFormed (.unary before operand after)
  | binary {fragments left right} : ExprTerm.WellFormed left → ExprTerm.WellFormed right →
      ExprTerm.WellFormed (.binary fragments left right)
  | apply {op left right} : ExprTerm.WellFormed left → ExprTerm.WellFormed right →
      ExprTerm.WellFormed (.apply op left right)
  | applyRightFirst {op right left} : ExprTerm.WellFormed right → ExprTerm.WellFormed left →
      ExprTerm.WellFormed (.applyRightFirst op right left)
  | aggregate {function column row} : RowTerm.WellFormed row →
      ExprTerm.WellFormed (.aggregate function column row)
  | existsRow {row} : RowTerm.WellFormed row → ExprTerm.WellFormed (.existsRow row)
  | subquery {query} : QueryTerm.WellFormed query → ExprTerm.WellFormed (.subquery query)
  | condition {association owner target row} : RowTerm.WellFormed row →
      ExprTerm.WellFormed (.condition association owner target row)
  | call {predicate row} : Predicate.WellFormed predicate → RowTerm.WellFormed row →
      ExprTerm.WellFormed (.call predicate row)
  | callFilter {query index row} : QueryTerm.WellFormed query → RowTerm.WellFormed row →
      ExprTerm.WellFormed (.callFilter query index row)
  | callJoin {query index row} : QueryTerm.WellFormed query → RowTerm.WellFormed row →
      ExprTerm.WellFormed (.callJoin query index row)
  | fail {fault} : ExprTerm.WellFormed (.fail fault)

inductive SelectionTerm.WellFormed : SelectionTerm → Prop
  | item {expr label} : ExprTerm.WellFormed expr → SelectionTerm.WellFormed (.item expr label)
  | call {projection row} : Projection.WellFormed projection → RowTerm.WellFormed row →
      SelectionTerm.WellFormed (.call projection row)
  | callUnder {label projection row} : Projection.WellFormed projection → RowTerm.WellFormed row →
      SelectionTerm.WellFormed (.callUnder label projection row)
  | callProjection {query index row} : QueryTerm.WellFormed query → RowTerm.WellFormed row →
      SelectionTerm.WellFormed (.callProjection query index row)

inductive QueryTerm.WellFormed : QueryTerm → Prop
  | value {query} : Query.WellFormed query → QueryTerm.WellFormed (.value query)
  | ofRow {row} : RowTerm.WellFormed row → QueryTerm.WellFormed (.ofRow row)
  | included {query index} : QueryTerm.WellFormed query →
      QueryTerm.WellFormed (.included query index)
  | nestedAt {query label} : QueryTerm.WellFormed query →
      QueryTerm.WellFormed (.nestedAt query label)
  | named {query name} : QueryTerm.WellFormed query → QueryTerm.WellFormed (.named query name)
  | limit {query count} : QueryTerm.WellFormed query → QueryTerm.WellFormed (.limit query count)
  | selectNone {query} : QueryTerm.WellFormed query → QueryTerm.WellFormed (.selectNone query)
  | including {query related} : QueryTerm.WellFormed query → QueryTerm.WellFormed related →
      QueryTerm.WellFormed (.including query related)
  | filter {query condition} : QueryTerm.WellFormed query → ExprTerm.WellFormed condition →
      QueryTerm.WellFormed (.filter query condition)
  | sortBy {query} {keys : List SortTerm} : QueryTerm.WellFormed query →
      (∀ t ∈ keys, ExprTerm.WellFormed t.expr) → QueryTerm.WellFormed (.sortBy query keys)
  | select {query} {items : List SelectionTerm} : QueryTerm.WellFormed query →
      (∀ t ∈ items, SelectionTerm.WellFormed t) → QueryTerm.WellFormed (.select query items)
  | andSelect {query} {items : List SelectionTerm} : QueryTerm.WellFormed query →
      (∀ t ∈ items, SelectionTerm.WellFormed t) → QueryTerm.WellFormed (.andSelect query items)
  | join {query target kind label} {on : Option ExprTerm} : QueryTerm.WellFormed query →
      TargetTerm.WellFormed target → (∀ t, on = some t → ExprTerm.WellFormed t) →
      QueryTerm.WellFormed (.join query target kind label on)
  | fail {fault} : QueryTerm.WellFormed (.fail fault)

inductive TargetTerm.WellFormed : TargetTerm → Prop
  | association {name} : TargetTerm.WellFormed (.association name)
  | table {name} : TargetTerm.WellFormed (.table name)
  | relation {relation} : TargetTerm.WellFormed (.relation relation)
  | query {query} : QueryTerm.WellFormed query → TargetTerm.WellFormed (.query query)
  | fail {fault} : TargetTerm.WellFormed (.fail fault)

end

/-- Every subquery of the expression is well-formed. -/
def Expr.WellFormed (e : Expr Query) : Prop := ∀ q ∈ e.subqueries, q.WellFormed

inductive JoinTarget.WellFormed : JoinTarget → Prop
  | association {name} : JoinTarget.WellFormed (.association name)
  | table {name} : JoinTarget.WellFormed (.table name)
  | relation {relation} : JoinTarget.WellFormed (.relation relation)
  | query {query : Query} : query.WellFormed → JoinTarget.WellFormed (.query query)

/-! ### Parts -/

theorem DataSource.WellFormed.inner {q : Query} (h : (DataSource.nested q).WellFormed) :
    q.WellFormed := by
  cases h with
  | nested h => exact h

namespace Query
variable {q : Query}

theorem WellFormed.regular (h : q.WellFormed) : q.Regular := by
  cases h
  assumption

theorem WellFormed.source (h : q.WellFormed) {s : Source} (hs : s ∈ q.sources) :
    s.data.WellFormed := by
  cases h with
  | mk _ hsources => exact hsources s hs

theorem WellFormed.filter_mem (h : q.WellFormed) {p : Predicate} (hp : p ∈ q.filters) :
    p.WellFormed := by
  cases h with
  | mk _ _ hfilters => exact hfilters p hp

theorem WellFormed.sorting_mem (h : q.WellFormed) {s : Sorting} (hs : q.sorting = some s) :
    s.WellFormed := by
  cases h with
  | mk _ _ _ hsorting => exact hsorting s hs

theorem WellFormed.projection_mem (h : q.WellFormed) {p : Projection} (hp : p ∈ q.projections) :
    p.WellFormed := by
  cases h with
  | mk _ _ _ _ hprojections => exact hprojections p hp

theorem WellFormed.join_mem (h : q.WellFormed) {j : JoinClause} (hj : j ∈ q.joins) :
    j.on.WellFormed := by
  cases h with
  | mk _ _ _ _ _ hjoins => exact hjoins j hj

theorem WellFormed.include_mem (h : q.WellFormed) {i : Query} (hi : i ∈ q.includes) :
    i.WellFormed := by
  cases h with
  | mk _ _ _ _ _ _ hincludes => exact hincludes i hi

theorem WellFormed.nested (h : q.WellFormed) {label : String} {inner : Query}
    (hs : q.source? label = some (.nested inner)) : inner.WellFormed := by
  obtain ⟨s, hfind, hdata⟩ := Option.map_eq_some_iff.mp hs
  have hsource := h.source (List.mem_of_find?_eq_some hfind)
  rw [hdata] at hsource
  exact hsource.inner

end Query

theorem Row.WellFormed.regular {r : Row} (h : r.WellFormed) : r.Regular := by
  cases h
  assumption

theorem Row.WellFormed.query {r : Row} (h : r.WellFormed) : r.query.WellFormed := by
  cases h
  assumption

/-! ### Callbacks that the library makes -/

theorem Association.predicate_wellFormed (a : Association) (owner target : String) :
    (a.predicate owner target).WellFormed :=
  .mk (.condition .up) (by simp [Association.predicate])

theorem wellFormed_items {items : List SelectionTerm} (h : ∀ t ∈ items, t.WellFormed) :
    Projection.WellFormed ⟨items, []⟩ :=
  .mk h (by simp)

namespace Query
variable {q : Query}

theorem everything_wellFormed : everything.WellFormed := by
  refine wellFormed_items ?_
  intro t ht
  obtain rfl := List.mem_singleton.mp ht
  exact .item (.value (by simp [Expr.subqueries]))

/-! ### Building -/

theorem WellFormed.named (h : q.WellFormed) (name : String) : (q.named name).WellFormed := by
  cases h with
  | mk hr hs hf ho hp hj hi => exact .mk (hr.of_eq rfl rfl rfl rfl rfl) hs hf ho hp hj hi

theorem WellFormed.take (h : q.WellFormed) (count : Nat) : (q.take count).WellFormed := by
  cases h with
  | mk hr hs hf ho hp hj hi => exact .mk (hr.of_eq rfl rfl rfl rfl rfl) hs hf ho hp hj hi

theorem WellFormed.filter (h : q.WellFormed) {p : Predicate} (hp : p.WellFormed) :
    (q.filter p).WellFormed := by
  cases h with
  | mk hr hs hf ho hprojections hj hi =>
    refine .mk (hr.of_eq rfl rfl rfl rfl rfl) hs ?_ ho hprojections hj hi
    intro p' hp'
    rcases List.mem_append.mp hp' with hp' | hp'
    · exact hf p' hp'
    · obtain rfl := List.mem_singleton.mp hp'
      exact hp

theorem WellFormed.sortBy (h : q.WellFormed) {s : Sorting} (hs : s.WellFormed) :
    (q.sortBy s).WellFormed := by
  cases h with
  | mk hr hsources hf _ hp hj hi =>
    refine .mk (hr.of_eq rfl rfl rfl rfl rfl) hsources hf ?_ hp hj hi
    intro s' hs'
    obtain rfl := Option.some.inj hs'
    exact hs

theorem WellFormed.including (h : q.WellFormed) {related : Query} (hrelated : related.WellFormed) :
    (q.including related).WellFormed := by
  cases h with
  | mk hr hs hf ho hp hj hi =>
    refine .mk (hr.of_eq rfl rfl rfl rfl rfl) hs hf ho hp hj ?_
    intro i hi'
    rcases List.mem_append.mp hi' with hi' | hi'
    · exact hi i hi'
    · obtain rfl := List.mem_singleton.mp hi'
      exact hrelated

/-- The projections may be any well-formed ones. -/
theorem WellFormed.withProjections (h : q.WellFormed) {projections : List Projection}
    (hp : ∀ p ∈ projections, p.WellFormed) : ({ q with projections } : Query).WellFormed := by
  cases h with
  | mk hr hs hf ho _ hj hi => exact .mk (hr.of_eq rfl rfl rfl rfl rfl) hs hf ho hp hj hi

theorem WellFormed.selectNone (h : q.WellFormed) : q.selectNone.WellFormed :=
  h.withProjections (by simp)

theorem WellFormed.select (h : q.WellFormed) {p : Projection} (hp : p.WellFormed) :
    (q.select p).WellFormed := by
  refine h.withProjections ?_
  intro p' hp'
  obtain rfl := List.mem_singleton.mp hp'
  exact hp

theorem WellFormed.andSelect (h : q.WellFormed) {p : Projection} (hp : p.WellFormed) :
    (q.andSelect p).WellFormed := by
  unfold Query.andSelect
  split
  · refine h.withProjections ?_
    intro p' hp'
    rcases List.mem_cons.mp hp' with rfl | hp'
    · exact everything_wellFormed
    · obtain rfl := List.mem_singleton.mp hp'
      exact hp
  · refine h.withProjections ?_
    intro p' hp'
    rcases List.mem_append.mp hp' with hp' | hp'
    · exact h.projection_mem hp'
    · obtain rfl := List.mem_singleton.mp hp'
      exact hp

theorem wellFormed_ofSource (label name : String) (relation : Option RelationRef) :
    (ofSource label (.table name relation)).WellFormed := by
  refine .mk (regular_ofSource label name relation) ?_ ?_ ?_ ?_ ?_ ?_
  · intro s hs
    obtain rfl := List.mem_singleton.mp hs
    exact .table
  all_goals simp [ofSource]

theorem wellFormed_ofRelation (relation : RelationRef) (label : Option String) :
    (ofRelation relation label).WellFormed :=
  wellFormed_ofSource _ _ _

/-! ### Joining -/

theorem WellFormed.attach (h : q.WellFormed) {source : Source} {join : JoinClause}
    (hregular : (q.attach source join).Regular) (hdata : source.data.WellFormed)
    (hon : join.on.WellFormed) : (q.attach source join).WellFormed := by
  cases h with
  | mk _ hs hf ho hp hj hi =>
    refine .mk hregular ?_ hf ho hp ?_ hi
    · intro s' hs'
      rcases List.mem_append.mp hs' with hs' | hs'
      · exact hs s' hs'
      · obtain rfl := List.mem_singleton.mp hs'
        exact hdata
    · intro j hj'
      rcases List.mem_append.mp hj' with hj' | hj'
      · exact hj j hj'
      · obtain rfl := List.mem_singleton.mp hj'
        exact hon

theorem WellFormed.attach_claimed (h : q.WellFormed) {fallback label : String}
    {requested : Option String} (hclaim : q.claimAlias fallback requested = .ok label)
    {data : DataSource} (hdata : data.WellFormed) (kind : JoinKind) {on : Predicate}
    (hon : on.WellFormed) : (q.attach ⟨label, data⟩ ⟨label, kind, on⟩).WellFormed :=
  h.attach (h.regular.attach_claimed hclaim data kind on) hdata hon

theorem mergedRow_wellFormed (target : Query) (label : String) :
    (target.mergedRow label).WellFormed :=
  .substitute (.rebase .up)

theorem WellFormed.absorb (h : q.WellFormed) {target : Query} (htarget : target.WellFormed)
    (label : String) : (q.absorb target label).WellFormed := by
  have hmerged : ∀ p ∈ target.mergedProjections label, p.WellFormed := by
    intro p hp
    unfold mergedProjections at hp
    split at hp
    · obtain rfl := List.mem_singleton.mp hp
      refine wellFormed_items ?_
      intro t ht
      obtain rfl := List.mem_singleton.mp ht
      exact .item (.star .up)
    · obtain ⟨p', hp', rfl⟩ := List.mem_map.mp hp
      refine wellFormed_items ?_
      intro t ht
      obtain rfl := List.mem_singleton.mp ht
      exact .callUnder (htarget.projection_mem hp') (mergedRow_wellFormed target label)
  cases h with
  | mk hr hs hf ho hp hj hi =>
    refine .mk (hr.absorb target label) hs ?_ ho ?_ hj ?_
    · intro p hp'
      rcases List.mem_append.mp hp' with hp' | hp'
      · exact hf p hp'
      · obtain ⟨p', hmem, rfl⟩ := List.mem_map.mp hp'
        exact .mk (.call (htarget.filter_mem hmem) (mergedRow_wellFormed target label)) (by simp)
    · intro p hp'
      unfold Query.absorb at hp'
      dsimp only at hp'
      split at hp'
      · simp at hp'
      · rcases List.mem_append.mp hp' with hp' | hp'
        · exact hp p hp'
        · exact hmerged p hp'
    · intro i hi'
      rcases List.mem_append.mp hi' with hi' | hi'
      · exact hi i hi'
      · exact htarget.include_mem hi'

theorem derivedCondition_wellFormed {target : Option RelationRef} {name label : String}
    {p : Predicate} (h : q.derivedCondition target name label = .ok p) : p.WellFormed := by
  unfold derivedCondition at h
  dsimp only at h
  split at h
  · obtain rfl := Except.ok.inj h
    exact Association.predicate_wellFormed _ _ _
  · simp at h

/-- The condition of a join, given or derived. -/
theorem condition_wellFormed {on : Option Predicate} (hon : ∀ p, on = some p → p.WellFormed)
    {target : Option RelationRef} {name label : String} {p : Predicate}
    (h : on = some p ∨ q.derivedCondition target name label = .ok p) : p.WellFormed := by
  rcases h with h | h
  · exact hon p h
  · exact derivedCondition_wellFormed h

theorem mergeableTable_wellFormed {target : Query} {kind : JoinKind} {data : DataSource}
    (h : target.mergeableTable kind = some data) : data.WellFormed := by
  unfold mergeableTable at h
  split at h
  · split at h
    · obtain rfl := Option.some.inj h
      exact .table
    · simp at h
  · simp at h

theorem WellFormed.joinAssociation (h : q.WellFormed) {name : String} {options : JoinOptions}
    (hon : ∀ p, options.on = some p → p.WellFormed) {q' : Query}
    (hjoin : q.joinAssociation name options = .ok q') : q'.WellFormed := by
  unfold Query.joinAssociation at hjoin
  split at hjoin
  · simp at hjoin
  · simp only [except_bind_eq_ok_iff] at hjoin
    obtain ⟨association, _, target, _, label, hlabel, hq'⟩ := hjoin
    obtain rfl := Except.ok.inj hq'
    refine h.attach_claimed hlabel .table options.kind ?_
    cases hcases : options.on with
    | none => exact Association.predicate_wellFormed _ _ _
    | some on => exact hon on hcases

theorem WellFormed.joinTable (h : q.WellFormed) {table : String} {options : JoinOptions}
    (hon : ∀ p, options.on = some p → p.WellFormed) {q' : Query}
    (hjoin : q.joinTable table options = .ok q') : q'.WellFormed := by
  unfold Query.joinTable at hjoin
  simp only [except_bind_eq_ok_iff] at hjoin
  obtain ⟨label, hlabel, hq'⟩ := hjoin
  split at hq'
  · simp at hq'
  next on hcases =>
    obtain rfl := Except.ok.inj hq'
    exact h.attach_claimed hlabel .table options.kind (hon on hcases)

theorem WellFormed.joinRelation (h : q.WellFormed) {relation : RelationRef} {options : JoinOptions}
    (hon : ∀ p, options.on = some p → p.WellFormed) {q' : Query}
    (hjoin : q.joinRelation relation options = .ok q') : q'.WellFormed := by
  obtain ⟨label, on, hlabel, hcondition, rfl⟩ := joinRelation_cases hjoin
  exact h.attach_claimed hlabel .table options.kind (condition_wellFormed hon hcondition)

theorem WellFormed.joinQuery (h : q.WellFormed) {target : Query} (htarget : target.WellFormed)
    {options : JoinOptions} (hon : ∀ p, options.on = some p → p.WellFormed) {q' : Query}
    (hjoin : q.joinQuery target options = .ok q') : q'.WellFormed := by
  obtain ⟨label, on, hlabel, hcondition, ⟨table, htable, rfl⟩ | ⟨_, rfl⟩⟩ := joinQuery_cases hjoin
  · have hdata := mergeableTable_wellFormed htable
    exact (h.attach_claimed hlabel hdata options.kind (condition_wellFormed hon hcondition)).absorb
      htarget label
  · exact h.attach_claimed hlabel (.nested htarget) options.kind
      (condition_wellFormed hon hcondition)

/-- Joining anything well-formed. -/
theorem WellFormed.join (h : q.WellFormed) {target : JoinTarget} (htarget : target.WellFormed)
    {options : JoinOptions} (hon : ∀ p, options.on = some p → p.WellFormed) {q' : Query}
    (hjoin : q.join target options = .ok q') : q'.WellFormed := by
  cases htarget with
  | association => exact h.joinAssociation hon hjoin
  | table => exact h.joinTable hon hjoin
  | relation => exact h.joinRelation hon hjoin
  | query htarget => exact h.joinQuery htarget hon hjoin

end Query

/-! ### Rows -/

namespace Row

theorem wellFormed_bound {q : Query} (h : q.WellFormed) (scope : Scope) :
    (bound q scope).WellFormed :=
  .mk (regular_bound h.regular scope) h

theorem WellFormed.filter {r : Row} (h : r.WellFormed) {p : Predicate} (hp : p.WellFormed) :
    (r.filter p).WellFormed := by
  have hquery : (r.query.filter p).WellFormed := h.query.filter hp
  exact .mk ⟨hquery.regular, h.regular.context⟩ hquery

theorem WellFormed.substituting {r : Row} (h : r.WellFormed) (names : Substitution) :
    (r.substituting names).WellFormed :=
  .mk ⟨h.regular.query, h.regular.context⟩ h.query

theorem WellFormed.rebase {r : Row} (h : r.WellFormed) (source : String) :
    (r.rebase source).WellFormed :=
  .mk ⟨h.regular.query, h.regular.context⟩ h.query

theorem WellFormed.fetchFrom {r r' : Row} (h : r.WellFormed) {source name : String}
    {requested : Option String} (hfetch : r.fetchFrom source name requested = .ok r') :
    r'.WellFormed := by
  have hregular := h.regular.fetchFrom hfetch
  obtain ⟨association, target, label, _, ⟨_, rfl⟩ | ⟨_, rfl⟩⟩ := fetchFrom_cases hfetch
  · exact .mk hregular (h.query.attach hregular.query .table (association.predicate_wellFormed _ _))
  · refine .mk hregular ?_
    have hbase := (Query.wellFormed_ofRelation target (some label)).filter
      (association.predicate_wellFormed (r.substitute source) label)
    cases hbase with
    | mk _ hs hf ho hp hj hi => exact .mk hregular.query hs hf ho hp hj hi

theorem aggregate_wellFormed {r : Row} (h : r.WellFormed) (function : Aggregate) (column : String) :
    (r.aggregate function column).WellFormed := by
  intro q hq
  obtain rfl := List.mem_singleton.mp hq
  refine h.query.select (wellFormed_items ?_)
  intro t ht
  obtain rfl := List.mem_singleton.mp ht
  exact .item (.value (by simp [Expr.subqueries, Row.column, Row.columnOf]))

theorem existsRow_wellFormed {r : Row} (h : r.WellFormed) : r.existsRow.WellFormed := by
  intro q hq
  obtain rfl := List.mem_singleton.mp hq
  refine h.query.select (wellFormed_items ?_)
  intro t ht
  obtain rfl := List.mem_singleton.mp ht
  exact .item (.value (by simp [Expr.subqueries]))

end Row

/-! ### Evaluation -/

namespace Expr

theorem subqueries_apply {σ : Type} (op : Operator) (left right : Expr σ) :
    (apply op left right).subqueries = left.subqueries ++ right.subqueries := by
  unfold apply
  split <;> rfl

theorem WellFormed.apply {left right : Expr Query} (hl : left.WellFormed) (hr : right.WellFormed)
    (op : Operator) : (Expr.apply op left right).WellFormed := by
  intro q hq
  rw [subqueries_apply] at hq
  rcases List.mem_append.mp hq with hq | hq
  · exact hl q hq
  · exact hr q hq

/-- The condition of an association has no subqueries. -/
theorem subqueries_condition (a : Association) (row : Row) (owner target : String) :
    (a.condition row owner target).subqueries = [] := by
  simp [Association.condition, Association.keyPairs, subqueries_apply, subqueries, Row.columnOf]

end Expr

structure Calls.WellFormed (calls : Calls) : Prop where
  predicate : ∀ p row e, p.WellFormed → row.WellFormed → calls.predicate p row = .ok e →
    e.WellFormed
  projection : ∀ p row ss, p.WellFormed → row.WellFormed → calls.projection p row = .ok ss →
    ∀ s ∈ ss, s.expr.WellFormed

theorem mem_of_elementAt {α : Type} {xs : List α} {index : Nat} {x : α}
    (h : elementAt xs index = .ok x) : x ∈ xs := by
  unfold elementAt at h
  split at h
  next y hy =>
    obtain rfl := Except.ok.inj h
    exact List.mem_of_getElem? hy
  next => simp at h

section
variable {calls : Calls} {rows : List Row}

mutual

theorem RowTerm.evaluate_wellFormed (hcalls : calls.WellFormed) (hrows : ∀ r ∈ rows, r.WellFormed) :
    (t : RowTerm) → t.WellFormed → ∀ {r}, t.evaluate calls rows = .ok r → r.WellFormed
  | .up level, _, r, h => hrows r (mem_of_elementAt h)
  | .value row, ht, r, h => by
    obtain rfl := Except.ok.inj h
    cases ht
    assumption
  | .ofQuery query, ht, r, h => by
    cases ht with
    | ofQuery hquery =>
      simp only [RowTerm.evaluate, except_bind_eq_ok_iff, except_pure_eq_ok_iff] at h
      obtain ⟨q, hq, rfl⟩ := h
      exact Row.wellFormed_bound (query.evaluate_wellFormed hcalls hrows hquery hq) _
  | .fetch row source association label, ht, r, h => by
    cases ht with
    | fetch hrow =>
      simp only [RowTerm.evaluate, noting_except, except_bind_eq_ok_iff, liftError_eq_ok_iff] at h
      obtain ⟨r', hr', hfetch⟩ := h
      exact (row.evaluate_wellFormed hcalls hrows hrow hr').fetchFrom hfetch
  | .filter row condition, ht, r, h => by
    cases ht with
    | filter hrow hcondition =>
      simp only [RowTerm.evaluate, except_bind_eq_ok_iff, except_pure_eq_ok_iff] at h
      obtain ⟨r', hr', rfl⟩ := h
      exact (row.evaluate_wellFormed hcalls hrows hrow hr').filter (.mk hcondition hrows)
  | .substitute row names, ht, r, h => by
    cases ht with
    | substitute hrow =>
      simp only [RowTerm.evaluate, except_bind_eq_ok_iff, except_pure_eq_ok_iff] at h
      obtain ⟨r', hr', rfl⟩ := h
      exact (row.evaluate_wellFormed hcalls hrows hrow hr').substituting names
  | .rebase row source, ht, r, h => by
    cases ht with
    | rebase hrow =>
      simp only [RowTerm.evaluate, except_bind_eq_ok_iff, except_pure_eq_ok_iff] at h
      obtain ⟨r', hr', rfl⟩ := h
      exact (row.evaluate_wellFormed hcalls hrows hrow hr').rebase source
  | .fail fault, _, r, h => by simp [RowTerm.evaluate] at h

theorem ExprTerm.evaluate_wellFormed (hcalls : calls.WellFormed)
    (hrows : ∀ r ∈ rows, r.WellFormed) :
    (t : ExprTerm) → t.WellFormed → ∀ {e}, t.evaluate calls rows = .ok e → e.WellFormed
  | .value expr, ht, e, h => by
    obtain rfl := Except.ok.inj h
    cases ht
    assumption
  | .column row source name, _, e, h => by
    simp only [ExprTerm.evaluate, except_bind_eq_ok_iff, except_pure_eq_ok_iff] at h
    obtain ⟨r, _, rfl⟩ := h
    simp [Expr.WellFormed, Expr.subqueries, Row.columnOf]
  | .star row source, _, e, h => by
    simp only [ExprTerm.evaluate, except_bind_eq_ok_iff, except_pure_eq_ok_iff] at h
    obtain ⟨r, _, rfl⟩ := h
    simp [Expr.WellFormed, Expr.subqueries, Row.starOf]
  | .unary before operand after, ht, e, h => by
    cases ht with
    | unary hoperand =>
      simp only [ExprTerm.evaluate, except_bind_eq_ok_iff, except_pure_eq_ok_iff] at h
      obtain ⟨e', he', rfl⟩ := h
      have he'' : e'.WellFormed := operand.evaluate_wellFormed hcalls hrows hoperand he'
      exact he''
  | .binary fragments left right, ht, e, h => by
    cases ht with
    | binary hleft hright =>
      simp only [ExprTerm.evaluate, except_bind_eq_ok_iff] at h
      obtain ⟨l, hl, r, hr, h⟩ := h
      have hl' := left.evaluate_wellFormed hcalls hrows hleft hl
      have hr' := right.evaluate_wellFormed hcalls hrows hright hr
      split at h
      · obtain rfl := except_pure_eq_ok_iff.mp h
        intro q hq
        rcases List.mem_append.mp hq with hq | hq
        · exact hl' q hq
        · exact hr' q hq
      · simp at h
  | .apply op left right, ht, e, h => by
    cases ht with
    | apply hleft hright =>
      simp only [ExprTerm.evaluate, except_bind_eq_ok_iff, except_pure_eq_ok_iff] at h
      obtain ⟨l, hl, r, hr, rfl⟩ := h
      exact (left.evaluate_wellFormed hcalls hrows hleft hl).apply
        (right.evaluate_wellFormed hcalls hrows hright hr) op
  | .applyRightFirst op right left, ht, e, h => by
    cases ht with
    | applyRightFirst hright hleft =>
      simp only [ExprTerm.evaluate, except_bind_eq_ok_iff, except_pure_eq_ok_iff] at h
      obtain ⟨r, hr, l, hl, rfl⟩ := h
      exact (left.evaluate_wellFormed hcalls hrows hleft hl).apply
        (right.evaluate_wellFormed hcalls hrows hright hr) op
  | .aggregate function column row, ht, e, h => by
    cases ht with
    | aggregate hrow =>
      simp only [ExprTerm.evaluate, except_bind_eq_ok_iff, except_pure_eq_ok_iff] at h
      obtain ⟨r, hr, rfl⟩ := h
      exact Row.aggregate_wellFormed (row.evaluate_wellFormed hcalls hrows hrow hr) function column
  | .existsRow row, ht, e, h => by
    cases ht with
    | existsRow hrow =>
      simp only [ExprTerm.evaluate, except_bind_eq_ok_iff, except_pure_eq_ok_iff] at h
      obtain ⟨r, hr, rfl⟩ := h
      exact Row.existsRow_wellFormed (row.evaluate_wellFormed hcalls hrows hrow hr)
  | .subquery query, ht, e, h => by
    cases ht with
    | subquery hquery =>
      simp only [ExprTerm.evaluate, except_bind_eq_ok_iff, except_pure_eq_ok_iff] at h
      obtain ⟨q, hq, rfl⟩ := h
      intro q' hq'
      obtain rfl := List.mem_singleton.mp hq'
      exact query.evaluate_wellFormed hcalls hrows hquery hq
  | .condition association owner target row, _, e, h => by
    simp only [ExprTerm.evaluate, except_bind_eq_ok_iff, except_pure_eq_ok_iff] at h
    obtain ⟨r, _, rfl⟩ := h
    simp [Expr.WellFormed, Expr.subqueries_condition]
  | .call predicate row, ht, e, h => by
    cases ht with
    | call hpredicate hrow =>
      simp only [ExprTerm.evaluate, except_bind_eq_ok_iff] at h
      obtain ⟨r, hr, h⟩ := h
      exact hcalls.predicate _ _ _ hpredicate (row.evaluate_wellFormed hcalls hrows hrow hr) h
  | .callFilter query index row, ht, e, h => by
    cases ht with
    | callFilter hquery hrow =>
      simp only [ExprTerm.evaluate, except_bind_eq_ok_iff] at h
      obtain ⟨q, hq, r, hr, p, hp, h⟩ := h
      have hq' := query.evaluate_wellFormed hcalls hrows hquery hq
      exact hcalls.predicate _ _ _ (hq'.filter_mem (mem_of_elementAt hp))
        (row.evaluate_wellFormed hcalls hrows hrow hr) h
  | .callJoin query index row, ht, e, h => by
    cases ht with
    | callJoin hquery hrow =>
      simp only [ExprTerm.evaluate, except_bind_eq_ok_iff] at h
      obtain ⟨q, hq, r, hr, j, hj, h⟩ := h
      have hq' := query.evaluate_wellFormed hcalls hrows hquery hq
      exact hcalls.predicate _ _ _ (hq'.join_mem (mem_of_elementAt hj))
        (row.evaluate_wellFormed hcalls hrows hrow hr) h
  | .fail fault, _, e, h => by simp [ExprTerm.evaluate] at h

theorem QueryTerm.evaluate_wellFormed (hcalls : calls.WellFormed)
    (hrows : ∀ r ∈ rows, r.WellFormed) :
    (t : QueryTerm) → t.WellFormed → ∀ {q}, t.evaluate calls rows = .ok q → q.WellFormed
  | .value query, ht, q, h => by
    obtain rfl := Except.ok.inj h
    cases ht
    assumption
  | .ofRow row, ht, q, h => by
    cases ht with
    | ofRow hrow =>
      simp only [QueryTerm.evaluate, except_bind_eq_ok_iff, except_pure_eq_ok_iff] at h
      obtain ⟨r, hr, rfl⟩ := h
      exact (row.evaluate_wellFormed hcalls hrows hrow hr).query
  | .included query index, ht, q, h => by
    cases ht with
    | included hquery =>
      simp only [QueryTerm.evaluate, except_bind_eq_ok_iff] at h
      obtain ⟨q', hq', h⟩ := h
      exact (query.evaluate_wellFormed hcalls hrows hquery hq').include_mem (mem_of_elementAt h)
  | .nestedAt query label, ht, q, h => by
    cases ht with
    | nestedAt hquery =>
      simp only [QueryTerm.evaluate, except_bind_eq_ok_iff] at h
      obtain ⟨q', hq', h⟩ := h
      split at h
      next inner hinner =>
        obtain rfl := except_pure_eq_ok_iff.mp h
        exact (query.evaluate_wellFormed hcalls hrows hquery hq').nested hinner
      next => simp at h
  | .named query name, ht, q, h => by
    cases ht with
    | named hquery =>
      simp only [QueryTerm.evaluate, except_bind_eq_ok_iff, except_pure_eq_ok_iff] at h
      obtain ⟨q', hq', rfl⟩ := h
      exact (query.evaluate_wellFormed hcalls hrows hquery hq').named name
  | .limit query count, ht, q, h => by
    cases ht with
    | limit hquery =>
      simp only [QueryTerm.evaluate, except_bind_eq_ok_iff, except_pure_eq_ok_iff] at h
      obtain ⟨q', hq', rfl⟩ := h
      exact (query.evaluate_wellFormed hcalls hrows hquery hq').take count
  | .selectNone query, ht, q, h => by
    cases ht with
    | selectNone hquery =>
      simp only [QueryTerm.evaluate, except_bind_eq_ok_iff, except_pure_eq_ok_iff] at h
      obtain ⟨q', hq', rfl⟩ := h
      exact (query.evaluate_wellFormed hcalls hrows hquery hq').selectNone
  | .including query related, ht, q, h => by
    cases ht with
    | including hquery hrelated =>
      simp only [QueryTerm.evaluate, except_bind_eq_ok_iff, except_pure_eq_ok_iff] at h
      obtain ⟨q', hq', i, hi, rfl⟩ := h
      exact (query.evaluate_wellFormed hcalls hrows hquery hq').including
        (related.evaluate_wellFormed hcalls hrows hrelated hi)
  | .filter query condition, ht, q, h => by
    cases ht with
    | filter hquery hcondition =>
      simp only [QueryTerm.evaluate, except_bind_eq_ok_iff, except_pure_eq_ok_iff] at h
      obtain ⟨q', hq', rfl⟩ := h
      exact (query.evaluate_wellFormed hcalls hrows hquery hq').filter (.mk hcondition hrows)
  | .sortBy query keys, ht, q, h => by
    cases ht with
    | sortBy hquery hkeys =>
      simp only [QueryTerm.evaluate, except_bind_eq_ok_iff, except_pure_eq_ok_iff] at h
      obtain ⟨q', hq', rfl⟩ := h
      exact (query.evaluate_wellFormed hcalls hrows hquery hq').sortBy (.mk hkeys hrows)
  | .select query items, ht, q, h => by
    cases ht with
    | select hquery hitems =>
      simp only [QueryTerm.evaluate, except_bind_eq_ok_iff, except_pure_eq_ok_iff] at h
      obtain ⟨q', hq', rfl⟩ := h
      exact (query.evaluate_wellFormed hcalls hrows hquery hq').select (.mk hitems hrows)
  | .andSelect query items, ht, q, h => by
    cases ht with
    | andSelect hquery hitems =>
      simp only [QueryTerm.evaluate, except_bind_eq_ok_iff, except_pure_eq_ok_iff] at h
      obtain ⟨q', hq', rfl⟩ := h
      exact (query.evaluate_wellFormed hcalls hrows hquery hq').andSelect (.mk hitems hrows)
  | .join query target kind label on, ht, q, h => by
    cases ht with
    | join hquery htarget hon =>
      simp only [QueryTerm.evaluate, noting_except, except_bind_eq_ok_iff, liftError_eq_ok_iff] at h
      obtain ⟨q', hq', target', htarget', h⟩ := h
      refine (query.evaluate_wellFormed hcalls hrows hquery hq').join
        (target.evaluate_wellFormed hcalls hrows htarget htarget') ?_ h
      intro p hp
      obtain ⟨condition, hcondition, rfl⟩ := Option.map_eq_some_iff.mp hp
      exact .mk (hon _ hcondition) hrows
  | .fail fault, _, q, h => by simp [QueryTerm.evaluate] at h

theorem TargetTerm.evaluate_wellFormed (hcalls : calls.WellFormed)
    (hrows : ∀ r ∈ rows, r.WellFormed) :
    (t : TargetTerm) → t.WellFormed → ∀ {target}, t.evaluate calls rows = .ok target →
      target.WellFormed
  | .association name, _, target, h => by
    obtain rfl := Except.ok.inj h
    exact .association
  | .table name, _, target, h => by
    obtain rfl := Except.ok.inj h
    exact .table
  | .relation relation, _, target, h => by
    obtain rfl := Except.ok.inj h
    exact .relation
  | .query query, ht, target, h => by
    cases ht with
    | query hquery =>
      simp only [TargetTerm.evaluate, except_bind_eq_ok_iff, except_pure_eq_ok_iff] at h
      obtain ⟨q, hq, rfl⟩ := h
      exact .query (query.evaluate_wellFormed hcalls hrows hquery hq)
  | .fail fault, _, target, h => by simp [TargetTerm.evaluate] at h

end

theorem SelectionTerm.evaluate_wellFormed (hcalls : calls.WellFormed)
    (hrows : ∀ r ∈ rows, r.WellFormed) {t : SelectionTerm} (ht : t.WellFormed) {ss : List Selection}
    (h : t.evaluate calls rows = .ok ss) : ∀ s ∈ ss, s.expr.WellFormed := by
  cases ht with
  | @item expr label hexpr =>
    simp only [SelectionTerm.evaluate, except_bind_eq_ok_iff, except_pure_eq_ok_iff] at h
    obtain ⟨e, he, rfl⟩ := h
    intro s hs
    obtain rfl := List.mem_singleton.mp hs
    exact expr.evaluate_wellFormed hcalls hrows hexpr he
  | @call projection row hprojection hrow =>
    simp only [SelectionTerm.evaluate, except_bind_eq_ok_iff] at h
    obtain ⟨r, hr, h⟩ := h
    exact hcalls.projection _ _ _ hprojection (row.evaluate_wellFormed hcalls hrows hrow hr) h
  | @callUnder label projection row hprojection hrow =>
    simp only [SelectionTerm.evaluate, except_bind_eq_ok_iff, except_pure_eq_ok_iff] at h
    obtain ⟨r, hr, ss', h, rfl⟩ := h
    intro s hs
    obtain ⟨s', hs', rfl⟩ := List.mem_map.mp hs
    rw [Selection.expr_under]
    exact hcalls.projection _ _ _ hprojection (row.evaluate_wellFormed hcalls hrows hrow hr) h s' hs'
  | @callProjection query index row hquery hrow =>
    simp only [SelectionTerm.evaluate, except_bind_eq_ok_iff] at h
    obtain ⟨q, hq, r, hr, p, hp, h⟩ := h
    have hq' := query.evaluate_wellFormed hcalls hrows hquery hq
    exact hcalls.projection _ _ _ (hq'.projection_mem (mem_of_elementAt hp))
      (row.evaluate_wellFormed hcalls hrows hrow hr) h

end

/-! ### Calling callbacks -/

section
variable {calls : Calls} {row : Row}

theorem wellFormed_rows {captured : List Row} (hrow : row.WellFormed)
    (h : ∀ r ∈ captured, r.WellFormed) : ∀ r ∈ row :: captured, r.WellFormed := by
  intro r hr
  rcases List.mem_cons.mp hr with rfl | hr
  · exact hrow
  · exact h r hr

theorem Predicate.apply_wellFormed (hcalls : calls.WellFormed) (hrow : row.WellFormed)
    {p : Predicate} (hp : p.WellFormed) {e : Expr Query} (h : p.apply calls row = .ok e) :
    e.WellFormed := by
  cases hp with
  | mk hbody hcaptured =>
    exact p.body.evaluate_wellFormed hcalls (wellFormed_rows hrow hcaptured) hbody h

theorem Projection.apply_wellFormed (hcalls : calls.WellFormed) (hrow : row.WellFormed)
    {p : Projection} (hp : p.WellFormed) {ss : List Selection} (h : p.apply calls row = .ok ss) :
    ∀ s ∈ ss, s.expr.WellFormed := by
  cases hp with
  | mk hbody hcaptured =>
    simp only [Projection.apply, except_bind_eq_ok_iff, except_pure_eq_ok_iff,
      except_mapM_eq_ok_iff] at h
    obtain ⟨sss, hsss, rfl⟩ := h
    intro s hs
    obtain ⟨ss, hss, hs⟩ := List.mem_flatten.mp hs
    obtain ⟨t, ht, hevaluate⟩ := exists_of_forall₂ hsss hss
    exact t.evaluate_wellFormed hcalls (wellFormed_rows hrow hcaptured) (hbody t ht) hevaluate s hs

theorem Sorting.apply_wellFormed (hcalls : calls.WellFormed) (hrow : row.WellFormed)
    {s : Sorting} (hs : s.WellFormed) {keys : List SortKey} (h : s.apply calls row = .ok keys) :
    ∀ k ∈ keys, k.expr.WellFormed := by
  cases hs with
  | mk hbody hcaptured =>
    simp only [Sorting.apply, except_mapM_eq_ok_iff] at h
    intro k hk
    obtain ⟨t, ht, hevaluate⟩ := exists_of_forall₂ h hk
    simp only [SortTerm.evaluate, except_bind_eq_ok_iff, except_pure_eq_ok_iff] at hevaluate
    obtain ⟨e, he, rfl⟩ := hevaluate
    exact t.expr.evaluate_wellFormed hcalls (wellFormed_rows hrow hcaptured) (hbody t ht) he

end

end QueryBuilder
