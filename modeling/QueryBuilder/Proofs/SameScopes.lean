import QueryBuilder.Proofs.TwinEvaluation

/-! Scopes that hold the same.

The level of a statement has nothing around it; compiled as a subquery in an empty scope it has that
scope around it, a level without bindings. Scopes that differ in no more than this hold the same
(`Scope.Same`): every name is looked up alike in the two, and so it is on each of their levels.

Rows of a query in the one scope and in the other are akin, and so is whatever callbacks make of
them: queries in the scope of such a row, and callbacks that have captured it. A callback may still
tell the two rows apart, by asking whether there is a scope around its own. Callbacks that do not
are uniform (`Calls.Uniform`): for akin rows they have akin outcomes. Bodies that are terms are,
since all that terms ask of a scope is what a name stands for. -/
namespace QueryBuilder

/-- The same bindings on every level, where the second scope may have an empty level around all
others. -/
structure Scope.Same (s s' : Scope) : Prop where
  level_eq : s'.level = s.level
  outer : s'.outer = s.outer ∨ s'.outer = s.outer ++ [∅]

namespace Scope.Same
variable {s s' : Scope}

theorem refl (s : Scope) : s.Same s := ⟨rfl, .inl rfl⟩

theorem bind (h : s.Same s') (source : String) (b : Binding) :
    (s.bind source b).Same (s'.bind source b) := by
  refine ⟨?_, h.outer⟩
  unfold Scope.bind
  rw [h.level_eq]

/-- Every name is looked up alike. -/
theorem lookup_eq (h : s.Same s') : s'.lookup = s.lookup := by
  funext x
  unfold lookup levels
  rw [h.level_eq]
  rcases h.outer with houter | houter <;> simp [houter, List.findSome?_cons, List.findSome?_append]

theorem isBound_eq (h : s.Same s') : s'.isBound = s.isBound := by
  funext x
  unfold isBound
  rw [h.lookup_eq]

theorem resolve_eq (h : s.Same s') : s'.resolve = s.resolve := by
  funext x
  unfold resolve
  rw [h.lookup_eq]

/-- A level around both. -/
theorem child_some (h : s.Same s') : (child (some s)).Same (child (some s')) := by
  refine ⟨rfl, ?_⟩
  show s'.level :: s'.outer = s.level :: s.outer ∨
    s'.level :: s'.outer = (s.level :: s.outer) ++ [∅]
  rw [h.level_eq]
  rcases h.outer with houter | houter <;> simp [houter]

theorem child {parent parent' : Option Scope} (h : Option.Rel Scope.Same parent parent') :
    (child parent).Same (child parent') := by
  cases h with
  | none => exact refl _
  | some h => exact h.child_some

/-- Nothing around, or an empty scope. -/
theorem child_empty : (Scope.child none).Same (Scope.child (some empty)) := ⟨rfl, .inr rfl⟩

end Scope.Same

/-! ### The relation -/

mutual

inductive DataSource.Akin : DataSource → DataSource → Prop
  | refl {d} : DataSource.Akin d d
  | nested {q q'} : Query.Akin q q' → DataSource.Akin (.nested q) (.nested q')

inductive Source.Akin : Source → Source → Prop
  | mk {label d d'} : DataSource.Akin d d' → Source.Akin ⟨label, d⟩ ⟨label, d'⟩

inductive JoinClause.Akin : JoinClause → JoinClause → Prop
  | mk {label kind on on'} : Predicate.Akin on on' →
      JoinClause.Akin ⟨label, kind, on⟩ ⟨label, kind, on'⟩

inductive Query.Akin : Query → Query → Prop
  | refl {q} : Query.Akin q q
  | mk {q q' : Query} : q'.shape = q.shape → q'.tables = q.tables → q'.name = q.name →
      List.Forall₂ Source.Akin q.sources q'.sources →
      List.Forall₂ Predicate.Akin q.filters q'.filters →
      Option.Rel Sorting.Akin q.sorting q'.sorting →
      List.Forall₂ Projection.Akin q.projections q'.projections →
      List.Forall₂ JoinClause.Akin q.joins q'.joins →
      List.Forall₂ Query.Akin q.includes q'.includes →
      Option.Rel Scope.Same q.context q'.context →
      q'.baseSource = q.baseSource → q'.defaultSource = q.defaultSource → q'.limit = q.limit →
      Query.Akin q q'

inductive Row.Akin : Row → Row → Prop
  | mk {q q' substitutions source scope scope' fetched} : Query.Akin q q' →
      Scope.Same scope scope' →
      Row.Akin ⟨q, substitutions, source, scope, fetched⟩
        ⟨q', substitutions, source, scope', fetched⟩

/-- The same body, with akin rows; or the body that calls akin callbacks for the same row. -/
inductive Predicate.Akin : Predicate → Predicate → Prop
  | closure {body captured captured'} : List.Forall₂ Row.Akin captured captured' →
      Predicate.Akin ⟨body, captured⟩ ⟨body, captured'⟩
  | merged {p p' row} : Predicate.Akin p p' → Predicate.Akin ⟨.call p row, []⟩ ⟨.call p' row, []⟩

inductive Projection.Akin : Projection → Projection → Prop
  | closure {body captured captured'} : List.Forall₂ Row.Akin captured captured' →
      Projection.Akin ⟨body, captured⟩ ⟨body, captured'⟩
  | merged {label p p' row} : Projection.Akin p p' →
      Projection.Akin ⟨[.callUnder label p row], []⟩ ⟨[.callUnder label p' row], []⟩

inductive Sorting.Akin : Sorting → Sorting → Prop
  | closure {body captured captured'} : List.Forall₂ Row.Akin captured captured' →
      Sorting.Akin ⟨body, captured⟩ ⟨body, captured'⟩

end

theorem Row.Akin.refl : (r : Row) → r.Akin r
  | ⟨_, _, _, _, _⟩ => .mk .refl (.refl _)

theorem Predicate.Akin.refl : (p : Predicate) → p.Akin p
  | ⟨_, _⟩ => .closure (twins_refl Row.Akin.refl _)

theorem Projection.Akin.refl : (p : Projection) → p.Akin p
  | ⟨_, _⟩ => .closure (twins_refl Row.Akin.refl _)

theorem Sorting.Akin.refl : (s : Sorting) → s.Akin s
  | ⟨_, _⟩ => .closure (twins_refl Row.Akin.refl _)

theorem JoinClause.Akin.refl : (j : JoinClause) → j.Akin j
  | ⟨_, _, _⟩ => .mk (.refl _)

theorem Source.Akin.refl : (s : Source) → s.Akin s
  | ⟨_, _⟩ => .mk .refl

theorem rel_refl {α : Type} {S : α → α → Prop} (h : ∀ x, S x x) (o : Option α) :
    Option.Rel S o o := by
  cases o with
  | none => exact .none
  | some x => exact .some (h x)

/-! ### Parts of akin queries -/

/-- Queries whose parts are akin. -/
structure Query.AkinParts (q q' : Query) : Prop where
  name_eq : q'.name = q.name
  sources : List.Forall₂ Source.Akin q.sources q'.sources
  filters : List.Forall₂ Predicate.Akin q.filters q'.filters
  sorting : Option.Rel Sorting.Akin q.sorting q'.sorting
  projections : List.Forall₂ Projection.Akin q.projections q'.projections
  joins : List.Forall₂ JoinClause.Akin q.joins q'.joins
  includes : List.Forall₂ Query.Akin q.includes q'.includes
  context : Option.Rel Scope.Same q.context q'.context
  base_eq : q'.baseSource = q.baseSource
  default_eq : q'.defaultSource = q.defaultSource
  limit_eq : q'.limit = q.limit

theorem Source.Akin.label_eq {s s' : Source} (h : s.Akin s') : s'.label = s.label := by
  cases h
  rfl

theorem Source.Akin.data {s s' : Source} (h : s.Akin s') : s.data.Akin s'.data := by
  cases h
  assumption

theorem JoinClause.Akin.label_eq {j j' : JoinClause} (h : j.Akin j') : j'.label = j.label := by
  cases h
  rfl

theorem JoinClause.Akin.kind_eq {j j' : JoinClause} (h : j.Akin j') : j'.kind = j.kind := by
  cases h
  rfl

theorem JoinClause.Akin.on {j j' : JoinClause} (h : j.Akin j') : j.on.Akin j'.on := by
  cases h
  assumption

namespace Query
variable {q q' : Query}

theorem Akin.shape_eq (h : q.Akin q') : q'.shape = q.shape := by
  cases h with
  | refl => rfl
  | mk hshape => exact hshape

theorem Akin.tables_eq (h : q.Akin q') : q'.tables = q.tables := by
  cases h with
  | refl => rfl
  | mk _ htables => exact htables

theorem Akin.parts (h : q.Akin q') : q.AkinParts q' := by
  cases h with
  | refl =>
    exact ⟨rfl, twins_refl Source.Akin.refl _, twins_refl Predicate.Akin.refl _,
      rel_refl Sorting.Akin.refl _, twins_refl Projection.Akin.refl _,
      twins_refl JoinClause.Akin.refl _, twins_refl (fun _ => .refl) _,
      rel_refl Scope.Same.refl _, rfl, rfl, rfl⟩
  | mk _ _ hname hsources hfilters hsorting hprojections hjoins hincludes hcontext hbase hdefault
      hlimit =>
    exact ⟨hname, hsources, hfilters, hsorting, hprojections, hjoins, hincludes, hcontext, hbase,
      hdefault, hlimit⟩

theorem Akin.defaultRelation_eq (h : q.Akin q') : q'.defaultRelation = q.defaultRelation :=
  defaultRelation_of_shape h.shape_eq h.parts.default_eq

end Query

theorem DataSource.Akin.relation_eq {d d' : DataSource} (h : d.Akin d') :
    d'.relation = d.relation := by
  cases h with
  | refl => rfl
  | nested hq => exact hq.defaultRelation_eq

theorem DataSource.Akin.tables_eq {d d' : DataSource} (h : d.Akin d') : d'.tables = d.tables := by
  cases h with
  | refl => rfl
  | nested hq => exact hq.tables_eq

namespace Query
variable {q q' : Query}

theorem AkinParts.akin (h : q.AkinParts q') : q.Akin q' := by
  refine .mk ?_ ?_ h.name_eq h.sources h.filters h.sorting h.projections h.joins h.includes
    h.context h.base_eq h.default_eq h.limit_eq
  · exact map_eq_of_forall₂ h.sources fun s s' hs => by rw [hs.label_eq, hs.data.relation_eq]
  · rw [Query.tables_eq, Query.tables_eq, List.flatMap_def, List.flatMap_def,
      map_eq_of_forall₂ h.sources fun s s' hs => hs.data.tables_eq]

theorem Akin.source? (h : q.Akin q') (label : String) :
    Option.Rel DataSource.Akin (q.source? label) (q'.source? label) := by
  unfold Query.source?
  have hsources := h.parts.sources
  generalize q.sources = sources, q'.sources = sources' at hsources
  induction hsources with
  | nil => exact .none
  | cons hs _ ih =>
    cases hs with
    | @mk source _ _ hdata =>
      by_cases hlabel : source = label
      · simpa [hlabel] using Option.Rel.some hdata
      · simpa [hlabel] using ih

theorem Akin.hasSource_eq (h : q.Akin q') : q'.hasSource = q.hasSource :=
  hasSource_of_shape h.shape_eq

theorem Akin.ownScope (h : q.Akin q') : q.ownScope.Same q'.ownScope := by
  have hscope := Scope.Same.child h.parts.context
  rw [ownScope_eq, ownScope_eq, h.shape_eq]
  generalize Scope.child q.context = scope, Scope.child q'.context = scope' at hscope
  induction q.shape generalizing scope scope' with
  | nil => exact hscope
  | cons p rest ih => exact ih _ _ (hscope.bind _ _)

/-! ### Building akin queries -/

theorem Akin.named (h : q.Akin q') (name : String) : (q.named name).Akin (q'.named name) :=
  ({ h.parts with name_eq := rfl } : AkinParts (q.named name) (q'.named name)).akin

theorem Akin.take (h : q.Akin q') (count : Nat) : (q.take count).Akin (q'.take count) :=
  ({ h.parts with limit_eq := rfl } : AkinParts (q.take count) (q'.take count)).akin

theorem Akin.filter (h : q.Akin q') {p p' : Predicate} (hp : p.Akin p') :
    (q.filter p).Akin (q'.filter p') :=
  ({ h.parts with filters := List.rel_append h.parts.filters (.cons hp .nil) } :
    AkinParts (q.filter p) (q'.filter p')).akin

theorem Akin.sortBy (h : q.Akin q') {s s' : Sorting} (hs : s.Akin s') :
    (q.sortBy s).Akin (q'.sortBy s') :=
  ({ h.parts with sorting := .some hs } : AkinParts (q.sortBy s) (q'.sortBy s')).akin

theorem Akin.including (h : q.Akin q') {related related' : Query}
    (hrelated : related.Akin related') : (q.including related).Akin (q'.including related') :=
  ({ h.parts with includes := List.rel_append h.parts.includes (.cons hrelated .nil) } :
    AkinParts (q.including related) (q'.including related')).akin

theorem Akin.withContext (h : q.Akin q') {scope scope' : Scope} (hscope : scope.Same scope') :
    (q.withContext scope).Akin (q'.withContext scope') :=
  ({ h.parts with context := .some hscope } :
    AkinParts (q.withContext scope) (q'.withContext scope')).akin

theorem Akin.withProjections (h : q.Akin q') {projections projections' : List Projection}
    (hp : List.Forall₂ Projection.Akin projections projections') :
    ({ q with projections } : Query).Akin { q' with projections := projections' } :=
  ({ h.parts with projections := hp } :
    AkinParts { q with projections } { q' with projections := projections' }).akin

theorem Akin.select (h : q.Akin q') {p p' : Projection} (hp : p.Akin p') :
    (q.select p).Akin (q'.select p') := h.withProjections (.cons hp .nil)

theorem Akin.andSelect (h : q.Akin q') {p p' : Projection} (hp : p.Akin p') :
    (q.andSelect p).Akin (q'.andSelect p') := by
  have hprojections := h.parts.projections
  unfold Query.andSelect
  generalize q.projections = ps, q'.projections = ps' at hprojections
  cases hprojections with
  | nil => exact h.withProjections (.cons (.refl _) (.cons hp .nil))
  | cons hfirst hrest =>
    exact h.withProjections (List.rel_append (.cons hfirst hrest) (.cons hp .nil))

theorem Akin.attach (h : q.Akin q') (label : String) (kind : JoinKind) {d d' : DataSource}
    (hd : d.Akin d') {on on' : Predicate} (hon : on.Akin on') :
    (q.attach ⟨label, d⟩ ⟨label, kind, on⟩).Akin (q'.attach ⟨label, d'⟩ ⟨label, kind, on'⟩) :=
  ({ h.parts with
      sources := List.rel_append h.parts.sources (.cons (.mk hd) .nil)
      joins := List.rel_append h.parts.joins (.cons (.mk hon) .nil) } :
    AkinParts (q.attach ⟨label, d⟩ ⟨label, kind, on⟩)
      (q'.attach ⟨label, d'⟩ ⟨label, kind, on'⟩)).akin

/-! ### Joining akin queries -/

theorem Akin.claimAlias_eq (h : q.Akin q') : q'.claimAlias = q.claimAlias := by
  have htaken : q'.isTaken = q.isTaken := by
    funext label
    have hcontext := h.parts.context
    unfold isTaken
    rw [h.hasSource_eq]
    generalize q.context = context, q'.context = context' at hcontext
    cases hcontext with
    | none => rfl
    | some hscope => simp [hscope.isBound_eq]
  funext fallback requested
  unfold Query.claimAlias
  rw [htaken]

variable {kind : JoinKind} {label : Option String} {on on' : Option Predicate}

theorem Akin.conditionOf (h : q.Akin q') (hon : Option.Rel Predicate.Akin on on')
    (relation : Option RelationRef) (name under : String) :
    SameOutcome Predicate.Akin (q.conditionOf ⟨kind, label, on⟩ relation name under)
      (q'.conditionOf ⟨kind, label, on'⟩ relation name under) := by
  cases hon with
  | some hp => exact .ok hp
  | none =>
    unfold Query.conditionOf derivedCondition
    rw [h.defaultRelation_eq, h.parts.default_eq]
    exact .refl Predicate.Akin.refl _

theorem Akin.joinAssociation (h : q.Akin q') (hon : Option.Rel Predicate.Akin on on')
    (name : String) : SameOutcome Query.Akin (q.joinAssociation name ⟨kind, label, on⟩)
      (q'.joinAssociation name ⟨kind, label, on'⟩) := by
  unfold Query.joinAssociation
  rw [h.defaultRelation_eq, h.parts.default_eq, h.claimAlias_eq]
  cases q.defaultRelation with
  | none => exact .error
  | some relation =>
    refine .bind_left _ fun association => .bind_left _ fun target => .bind_left _ fun label => ?_
    refine .ok (h.attach label _ .refl ?_)
    cases hon with
    | some hp => exact hp
    | none => exact .refl _

theorem Akin.joinTable (h : q.Akin q') (hon : Option.Rel Predicate.Akin on on') (table : String) :
    SameOutcome Query.Akin (q.joinTable table ⟨kind, label, on⟩)
      (q'.joinTable table ⟨kind, label, on'⟩) := by
  unfold Query.joinTable
  rw [h.claimAlias_eq]
  refine .bind_left _ fun label => ?_
  cases hon with
  | some hp => exact .ok (h.attach label _ .refl hp)
  | none => exact .error

theorem Akin.joinRelation (h : q.Akin q') (hon : Option.Rel Predicate.Akin on on')
    (relation : RelationRef) : SameOutcome Query.Akin (q.joinRelation relation ⟨kind, label, on⟩)
      (q'.joinRelation relation ⟨kind, label, on'⟩) := by
  rw [joinRelation_eq, joinRelation_eq, h.claimAlias_eq]
  refine .bind_left _ fun label => (h.conditionOf hon _ _ label).bind fun on on' hon => ?_
  exact .ok (h.attach label _ .refl hon)

section
variable {t t' : Query}

theorem Akin.mergeableTable_eq (h : t.Akin t') (kind : JoinKind) :
    t'.mergeableTable kind = t.mergeableTable kind := by
  have hempty : ∀ {α : Type} {S : α → α → Prop} {xs ys : List α},
      List.Forall₂ S xs ys → ys.isEmpty = xs.isEmpty := by
    intro α S xs ys h
    cases h <;> rfl
  have hsorting : t'.sorting.isNone = t.sorting.isNone := by
    have hsorting := h.parts.sorting
    generalize t.sorting = sorting, t'.sorting = sorting' at hsorting
    cases hsorting <;> rfl
  unfold mergeableTable
  rw [hempty h.parts.filters, hempty h.parts.joins, hsorting, h.parts.limit_eq]
  have hsources := h.parts.sources
  generalize t.sources = sources, t'.sources = sources' at hsources
  cases hsources with
  | nil => rfl
  | @cons s _ _ _ hs hrest =>
    obtain ⟨label, data⟩ := s
    cases hs with
    | mk hdata =>
      cases hdata with
      | refl => cases hrest <;> cases data <;> rfl
      | nested => cases hrest <;> rfl

theorem Akin.mergedRow_eq (h : t.Akin t') (label : String) :
    t'.mergedRow label = t.mergedRow label := by
  unfold mergedRow
  rw [h.parts.default_eq, h.parts.base_eq]

theorem Akin.mergedFilters (h : t.Akin t') (label : String) :
    List.Forall₂ Predicate.Akin (t.mergedFilters label) (t'.mergedFilters label) := by
  unfold Query.mergedFilters
  rw [List.forall₂_map_left_iff, List.forall₂_map_right_iff, h.mergedRow_eq]
  exact h.parts.filters.imp fun _ _ hp => .merged hp

theorem Akin.mergedProjections (h : t.Akin t') (label : String) :
    List.Forall₂ Projection.Akin (t.mergedProjections label) (t'.mergedProjections label) := by
  have hprojections := h.parts.projections
  unfold Query.mergedProjections
  rw [h.mergedRow_eq]
  generalize t.projections = ps, t'.projections = ps' at hprojections
  cases hprojections with
  | nil => exact .cons (.refl _) .nil
  | cons hp hps =>
    refine List.forall₂_map_left_iff.mpr (List.forall₂_map_right_iff.mpr ?_)
    exact (List.Forall₂.cons hp hps).imp fun _ _ hp => .merged hp

theorem Akin.absorb (h : q.Akin q') (ht : t.Akin t') (label : String) :
    (q.absorb t label).Akin (q'.absorb t' label) := by
  have hprojections : List.Forall₂ Projection.Akin (q.absorb t label).projections
      (q'.absorb t' label).projections := by
    have hps := h.parts.projections
    unfold Query.absorb
    dsimp only
    generalize q.projections = ps, q'.projections = ps' at hps
    cases hps with
    | nil => exact .nil
    | cons hp hps => exact List.rel_append (.cons hp hps) (ht.mergedProjections label)
  exact ({ h.parts with
      includes := List.rel_append h.parts.includes ht.parts.includes
      filters := List.rel_append h.parts.filters (ht.mergedFilters label)
      projections := hprojections } :
    AkinParts (q.absorb t label) (q'.absorb t' label)).akin

theorem Akin.joinQuery (h : q.Akin q') (ht : t.Akin t') (hon : Option.Rel Predicate.Akin on on') :
    SameOutcome Query.Akin (q.joinQuery t ⟨kind, label, on⟩)
      (q'.joinQuery t' ⟨kind, label, on'⟩) := by
  rw [joinQuery_eq, joinQuery_eq, h.claimAlias_eq, ht.parts.name_eq, ht.parts.default_eq,
    ht.defaultRelation_eq, ht.mergeableTable_eq]
  refine .bind_left _ fun label => (h.conditionOf hon _ _ label).bind fun on on' hon => ?_
  cases t.mergeableTable kind with
  | some table => exact .ok ((h.attach label _ .refl hon).absorb ht label)
  | none => exact .ok (h.attach label _ (.nested ht) hon)

end

end Query

inductive JoinTarget.Akin : JoinTarget → JoinTarget → Prop
  | refl {what} : JoinTarget.Akin what what
  | query {q q' : Query} : q.Akin q' → JoinTarget.Akin (.query q) (.query q')

theorem Query.Akin.join {q q' : Query} (h : q.Akin q') {what what' : JoinTarget}
    (hwhat : what.Akin what') {kind : JoinKind} {label : Option String} {on on' : Option Predicate}
    (hon : Option.Rel Predicate.Akin on on') :
    SameOutcome Query.Akin (q.join what ⟨kind, label, on⟩) (q'.join what' ⟨kind, label, on'⟩) := by
  cases hwhat with
  | query ht => exact h.joinQuery ht hon
  | refl =>
    cases what with
    | association name => exact h.joinAssociation hon name
    | table name => exact h.joinTable hon name
    | relation relation => exact h.joinRelation hon relation
    | query t => exact h.joinQuery .refl hon

/-! ### Akin rows and expressions -/

inductive Expr.Akin : Expr Query → Expr Query → Prop
  | refl {e} : Expr.Akin e e
  | unary {before e e' after} : Expr.Akin e e' →
      Expr.Akin (.unary before e after) (.unary before e' after)
  | binary {before between after l l' r r'} : Expr.Akin l l' → Expr.Akin r r' →
      Expr.Akin (.binary before between after l r) (.binary before between after l' r')
  | subquery {q q' : Query} : q.Akin q' → Expr.Akin (.subquery q) (.subquery q')

theorem Expr.Akin.apply {l l' r r' : Expr Query} (hl : l.Akin l') (hr : r.Akin r')
    (op : Operator) : (l.apply op r).Akin (l'.apply op r') := by
  have hatomic : l'.isAtomic = l.isAtomic := by cases hl <;> rfl
  unfold Expr.apply
  rw [hatomic]
  split <;> exact .binary hl hr

namespace Row
variable {r r' : Row}

theorem Akin.query (h : r.Akin r') : r.query.Akin r'.query := by
  cases h
  assumption

theorem Akin.scope (h : r.Akin r') : r.scope.Same r'.scope := by
  cases h
  assumption

theorem Akin.default_eq (h : r.Akin r') : r'.defaultSource = r.defaultSource := by
  cases h
  rfl

theorem Akin.substitute_eq (h : r.Akin r') : r'.substitute = r.substitute := by
  cases h
  rfl

theorem Akin.fetched_eq (h : r.Akin r') : r'.fetched = r.fetched := by
  cases h
  rfl

theorem akin_bound {q q' : Query} (h : q.Akin q') {scope scope' : Scope}
    (hscope : scope.Same scope') : (bound q scope).Akin (bound q' scope') := by
  unfold bound
  rw [h.parts.default_eq]
  exact .mk h hscope

theorem Akin.filter (h : r.Akin r') {p p' : Predicate} (hp : p.Akin p') :
    (r.filter p).Akin (r'.filter p') := by
  cases h with
  | mk hq hscope => exact .mk (hq.filter hp) hscope

theorem Akin.substituting (h : r.Akin r') (names : Substitution) :
    (r.substituting names).Akin (r'.substituting names) := by
  cases h with
  | mk hq hscope => exact .mk hq hscope

theorem Akin.rebase (h : r.Akin r') (source : String) :
    (r.rebase source).Akin (r'.rebase source) := by
  cases h with
  | mk hq hscope => exact .mk hq hscope

theorem Akin.condition_eq (h : r.Akin r') (a : Association) (owner target : String) :
    a.condition r' owner target = a.condition r owner target := by
  unfold Association.condition columnOf
  rw [h.substitute_eq]

theorem Akin.aggregate (h : r.Akin r') (function : Aggregate) (column : String) :
    (r.aggregate function column).Akin (r'.aggregate function column) := by
  unfold Row.aggregate Row.column Row.columnOf
  rw [h.substitute_eq, h.default_eq]
  exact .subquery (h.query.select (.refl _))

theorem Akin.existsRow (h : r.Akin r') : r.existsRow.Akin r'.existsRow :=
  .unary (.subquery (h.query.select (.refl _)))

/-- What is fetched is in the scope of the row. -/
theorem Akin.fetchFrom (h : r.Akin r') (source name : String) (label : Option String) :
    SameOutcome Row.Akin (r.fetchFrom source name label) (r'.fetchFrom source name label) := by
  have hlookup := h.scope.lookup_eq
  have hrelation := relationOf_of_shape h.query.shape_eq hlookup
  have hclaim := claimAlias_of_shape h.query.shape_eq hlookup
  unfold Row.fetchFrom
  rw [hrelation, hclaim, h.substitute_eq, h.fetched_eq]
  refine .bind_left _ fun relation => ?_
  cases relation with
  | none => exact .error
  | some relation =>
    refine .bind_left _ fun association => .bind_left _ fun target => .bind_left _ fun label => ?_
    cases h with
    | @mk _ _ _ _ _ _ fetched hq hscope =>
      cases fetched with
      | true => exact .ok (.mk (hq.attach _ _ .refl (.refl _)) hscope)
      | false =>
        exact .ok (.mk ((Query.Akin.refl.withContext hscope).filter (.refl _)) hscope)

end Row

/-- Selections of akin expressions under the same name. -/
inductive Selection.Akin : Selection → Selection → Prop
  | mk {e e' label} : e.Akin e' → Selection.Akin ⟨e, label⟩ ⟨e', label⟩

theorem Selection.Akin.under {s s' : Selection} (h : s.Akin s') (label : String) :
    (s.under label).Akin (s'.under label) := by
  obtain ⟨e, name⟩ := s
  cases h with
  | mk he =>
    cases name with
    | some name => exact .mk he
    | none =>
      cases he with
      | refl => cases e <;> exact .mk .refl
      | unary he => exact .mk (.unary he)
      | binary hl hr => exact .mk (.binary hl hr)
      | subquery hq => exact .mk (.subquery hq)

inductive SortKey.Akin : SortKey → SortKey → Prop
  | mk {e e' direction} : e.Akin e' → SortKey.Akin ⟨e, direction⟩ ⟨e', direction⟩

/-! ### Outcomes -/

namespace SameOutcome
variable {α β γ δ ε : Type} {S : α → β → Prop} {T : γ → δ → Prop}

theorem lift {x : Except Error α} {y : Except Error β} (h : SameOutcome S x y) :
    SameOutcome S (liftM x : Except Fault α) (liftM y : Except Fault β) := by
  cases h with
  | ok hab => exact .ok hab
  | error => exact .error

theorem mapM {xs : List α} {ys : List β} (h : List.Forall₂ S xs ys) {f : α → Except ε γ}
    {g : β → Except ε δ} (hfg : ∀ a b, S a b → SameOutcome T (f a) (g b)) :
    SameOutcome (List.Forall₂ T) (xs.mapM f) (ys.mapM g) := by
  induction h with
  | nil => exact .ok .nil
  | cons hab _ ih =>
    rw [List.mapM_cons, List.mapM_cons]
    exact (hfg _ _ hab).bind fun c d hcd => ih.bind fun cs ds hrest => .ok (.cons hcd hrest)

/-- Related lists have related elements in the same places. -/
theorem elementAt {xs : List α} {ys : List β} (h : List.Forall₂ S xs ys) (index : Nat) :
    SameOutcome S (QueryBuilder.elementAt xs index) (QueryBuilder.elementAt ys index) := by
  induction h generalizing index with
  | nil => exact .error
  | cons hab _ ih =>
    cases index with
    | zero => exact .ok hab
    | succ index => exact ih index

end SameOutcome

/-! ### Evaluation -/

/-- Callbacks that do not tell scopes apart that hold the same: akin ones, called for akin rows,
have akin outcomes. -/
structure Calls.Uniform (calls : Calls) : Prop where
  predicate : ∀ p p' r r', p.Akin p' → r.Akin r' →
    SameOutcome Expr.Akin (calls.predicate p r) (calls.predicate p' r')
  projection : ∀ p p' r r', p.Akin p' → r.Akin r' →
    SameOutcome (List.Forall₂ Selection.Akin) (calls.projection p r) (calls.projection p' r')

section
variable {calls : Calls} {rows rows' : List Row}

mutual

theorem RowTerm.evaluate_akin (hcalls : calls.Uniform) (hrows : List.Forall₂ Row.Akin rows rows') :
    (t : RowTerm) → SameOutcome Row.Akin (t.evaluate calls rows) (t.evaluate calls rows')
  | .up level => .elementAt hrows level
  | .value row => .ok (.refl row)
  | .ofQuery query => by
    simp only [RowTerm.evaluate]
    exact (query.evaluate_akin hcalls hrows).bind fun q q' hq => .ok (Row.akin_bound hq hq.ownScope)
  | .fetch row source association label => by
    simp only [RowTerm.evaluate]
    refine (row.evaluate_akin hcalls hrows).bind fun r r' hr => ?_
    rw [hr.default_eq]
    exact .lift (hr.fetchFrom _ _ _)
  | .filter row condition => by
    simp only [RowTerm.evaluate]
    exact (row.evaluate_akin hcalls hrows).bind fun r r' hr => .ok (hr.filter (.closure hrows))
  | .substitute row names => by
    simp only [RowTerm.evaluate]
    exact (row.evaluate_akin hcalls hrows).bind fun r r' hr => .ok (hr.substituting names)
  | .rebase row source => by
    simp only [RowTerm.evaluate]
    exact (row.evaluate_akin hcalls hrows).bind fun r r' hr => .ok (hr.rebase source)
  | .fail fault => .error

theorem ExprTerm.evaluate_akin (hcalls : calls.Uniform)
    (hrows : List.Forall₂ Row.Akin rows rows') :
    (t : ExprTerm) → SameOutcome Expr.Akin (t.evaluate calls rows) (t.evaluate calls rows')
  | .value e => .ok .refl
  | .column row source name => by
    simp only [ExprTerm.evaluate]
    refine (row.evaluate_akin hcalls hrows).bind fun r r' hr => .ok ?_
    unfold Row.columnOf
    rw [hr.substitute_eq, hr.default_eq]
    exact .refl
  | .star row source => by
    simp only [ExprTerm.evaluate]
    refine (row.evaluate_akin hcalls hrows).bind fun r r' hr => .ok ?_
    unfold Row.starOf
    rw [hr.substitute_eq, hr.default_eq]
    exact .refl
  | .unary before operand after => by
    simp only [ExprTerm.evaluate]
    exact (operand.evaluate_akin hcalls hrows).bind fun e e' he => .ok (.unary he)
  | .binary fragments left right => by
    simp only [ExprTerm.evaluate]
    refine (left.evaluate_akin hcalls hrows).bind fun l l' hl => ?_
    refine (right.evaluate_akin hcalls hrows).bind fun r r' hr => ?_
    split
    · exact .ok (.binary hl hr)
    · exact .error
  | .apply op left right => by
    simp only [ExprTerm.evaluate]
    exact (left.evaluate_akin hcalls hrows).bind fun l l' hl =>
      (right.evaluate_akin hcalls hrows).bind fun r r' hr => .ok (hl.apply hr op)
  | .applyRightFirst op right left => by
    simp only [ExprTerm.evaluate]
    exact (right.evaluate_akin hcalls hrows).bind fun r r' hr =>
      (left.evaluate_akin hcalls hrows).bind fun l l' hl => .ok (hl.apply hr op)
  | .aggregate function column row => by
    simp only [ExprTerm.evaluate]
    exact (row.evaluate_akin hcalls hrows).bind fun r r' hr => .ok (hr.aggregate function column)
  | .existsRow row => by
    simp only [ExprTerm.evaluate]
    exact (row.evaluate_akin hcalls hrows).bind fun r r' hr => .ok hr.existsRow
  | .subquery query => by
    simp only [ExprTerm.evaluate]
    exact (query.evaluate_akin hcalls hrows).bind fun q q' hq => .ok (.subquery hq)
  | .condition a owner target row => by
    simp only [ExprTerm.evaluate]
    refine (row.evaluate_akin hcalls hrows).bind fun r r' hr => .ok ?_
    rw [hr.condition_eq]
    exact .refl
  | .call p row => by
    simp only [ExprTerm.evaluate]
    exact (row.evaluate_akin hcalls hrows).bind fun r r' hr =>
      hcalls.predicate _ _ _ _ (.refl p) hr
  | .callFilter query index row => by
    simp only [ExprTerm.evaluate]
    exact (query.evaluate_akin hcalls hrows).bind fun q q' hq =>
      (row.evaluate_akin hcalls hrows).bind fun r r' hr =>
      (SameOutcome.elementAt hq.parts.filters index).bind fun p p' hp =>
      hcalls.predicate _ _ _ _ hp hr
  | .callJoin query index row => by
    simp only [ExprTerm.evaluate]
    exact (query.evaluate_akin hcalls hrows).bind fun q q' hq =>
      (row.evaluate_akin hcalls hrows).bind fun r r' hr =>
      (SameOutcome.elementAt hq.parts.joins index).bind fun j j' hj =>
      hcalls.predicate _ _ _ _ hj.on hr
  | .fail fault => .error

theorem QueryTerm.evaluate_akin (hcalls : calls.Uniform)
    (hrows : List.Forall₂ Row.Akin rows rows') :
    (t : QueryTerm) → SameOutcome Query.Akin (t.evaluate calls rows) (t.evaluate calls rows')
  | .value q => .ok .refl
  | .ofRow row => by
    simp only [QueryTerm.evaluate]
    exact (row.evaluate_akin hcalls hrows).bind fun r r' hr => .ok hr.query
  | .included query index => by
    simp only [QueryTerm.evaluate]
    exact (query.evaluate_akin hcalls hrows).bind fun q q' hq =>
      .elementAt hq.parts.includes index
  | .nestedAt query label => by
    simp only [QueryTerm.evaluate]
    refine (query.evaluate_akin hcalls hrows).bind fun q q' hq => ?_
    have hdata := hq.source? label
    generalize q.source? label = d, q'.source? label = d' at hdata
    cases hdata with
    | none => exact .error
    | @some d d' hd =>
      cases hd with
      | refl => cases d with
        | table => exact .error
        | nested => exact .ok .refl
      | nested hq => exact .ok hq
  | .named query name => by
    simp only [QueryTerm.evaluate]
    exact (query.evaluate_akin hcalls hrows).bind fun q q' hq => .ok (hq.named name)
  | .limit query count => by
    simp only [QueryTerm.evaluate]
    exact (query.evaluate_akin hcalls hrows).bind fun q q' hq => .ok (hq.take count)
  | .selectNone query => by
    simp only [QueryTerm.evaluate]
    exact (query.evaluate_akin hcalls hrows).bind fun q q' hq => .ok (hq.withProjections .nil)
  | .including query related => by
    simp only [QueryTerm.evaluate]
    exact (query.evaluate_akin hcalls hrows).bind fun q q' hq =>
      (related.evaluate_akin hcalls hrows).bind fun i i' hi => .ok (hq.including hi)
  | .filter query condition => by
    simp only [QueryTerm.evaluate]
    exact (query.evaluate_akin hcalls hrows).bind fun q q' hq => .ok (hq.filter (.closure hrows))
  | .sortBy query keys => by
    simp only [QueryTerm.evaluate]
    exact (query.evaluate_akin hcalls hrows).bind fun q q' hq => .ok (hq.sortBy (.closure hrows))
  | .select query items => by
    simp only [QueryTerm.evaluate]
    exact (query.evaluate_akin hcalls hrows).bind fun q q' hq => .ok (hq.select (.closure hrows))
  | .andSelect query items => by
    simp only [QueryTerm.evaluate]
    exact (query.evaluate_akin hcalls hrows).bind fun q q' hq =>
      .ok (hq.andSelect (.closure hrows))
  | .join query target kind label on => by
    simp only [QueryTerm.evaluate]
    refine (query.evaluate_akin hcalls hrows).bind fun q q' hq =>
      (target.evaluate_akin hcalls hrows).bind fun t t' ht => .lift (hq.join ht ?_)
    cases on with
    | none => exact .none
    | some condition => exact .some (.closure hrows)
  | .fail fault => .error

theorem TargetTerm.evaluate_akin (hcalls : calls.Uniform)
    (hrows : List.Forall₂ Row.Akin rows rows') :
    (t : TargetTerm) → SameOutcome JoinTarget.Akin (t.evaluate calls rows) (t.evaluate calls rows')
  | .association _ | .table _ | .relation _ => .ok .refl
  | .query query => by
    simp only [TargetTerm.evaluate]
    exact (query.evaluate_akin hcalls hrows).bind fun q q' hq => .ok (.query hq)
  | .fail fault => .error

end

theorem SelectionTerm.evaluate_callUnder (hcalls : calls.Uniform)
    (hrows : List.Forall₂ Row.Akin rows rows') {p p' : Projection} (hp : p.Akin p')
    (label : String) (row : RowTerm) : SameOutcome (List.Forall₂ Selection.Akin)
      ((callUnder label p row).evaluate calls rows)
      ((callUnder label p' row).evaluate calls rows') := by
  simp only [SelectionTerm.evaluate]
  refine (row.evaluate_akin hcalls hrows).bind fun r r' hr => ?_
  refine (hcalls.projection _ _ _ _ hp hr).bind fun ss ss' hss => .ok ?_
  refine List.forall₂_map_left_iff.mpr (List.forall₂_map_right_iff.mpr ?_)
  exact hss.imp fun s s' hs => hs.under label

theorem SelectionTerm.evaluate_akin (hcalls : calls.Uniform)
    (hrows : List.Forall₂ Row.Akin rows rows') (t : SelectionTerm) :
    SameOutcome (List.Forall₂ Selection.Akin) (t.evaluate calls rows) (t.evaluate calls rows') := by
  cases t with
  | item e label =>
    simp only [SelectionTerm.evaluate]
    exact (e.evaluate_akin hcalls hrows).bind fun e e' he => .ok (.cons (.mk he) .nil)
  | call p row =>
    simp only [SelectionTerm.evaluate]
    exact (row.evaluate_akin hcalls hrows).bind fun r r' hr =>
      hcalls.projection _ _ _ _ (.refl p) hr
  | callUnder label p row =>
    exact evaluate_callUnder hcalls hrows (.refl p) label row
  | callProjection query index row =>
    simp only [SelectionTerm.evaluate]
    exact (query.evaluate_akin hcalls hrows).bind fun q q' hq =>
      (row.evaluate_akin hcalls hrows).bind fun r r' hr =>
      (SameOutcome.elementAt hq.parts.projections index).bind fun p p' hp =>
      hcalls.projection _ _ _ _ hp hr

end

/-! ### Calls -/

section
variable {calls : Calls} {r r' : Row}

theorem Predicate.Akin.apply {p p' : Predicate} (h : p.Akin p') (hcalls : calls.Uniform)
    (hr : r.Akin r') : SameOutcome Expr.Akin (p.apply calls r) (p'.apply calls r') := by
  cases h with
  | closure hcaptured => exact ExprTerm.evaluate_akin hcalls (.cons hr hcaptured) _
  | merged hp =>
    simp only [Predicate.apply, ExprTerm.evaluate]
    exact (RowTerm.evaluate_akin hcalls (.cons hr .nil) _).bind fun _ _ hrow =>
      hcalls.predicate _ _ _ _ hp hrow

theorem Projection.Akin.apply {p p' : Projection} (h : p.Akin p') (hcalls : calls.Uniform)
    (hr : r.Akin r') :
    SameOutcome (List.Forall₂ Selection.Akin) (p.apply calls r) (p'.apply calls r') := by
  cases h with
  | @closure body _ _ hcaptured =>
    refine (SameOutcome.mapM (twins_refl (fun _ => rfl) body) ?_).bind fun ss ss' hss =>
      .ok (List.rel_flatten hss)
    rintro t _ rfl
    exact t.evaluate_akin hcalls (.cons hr hcaptured)
  | merged hp =>
    refine SameOutcome.bind ?_ fun ss ss' hss => .ok (List.rel_flatten hss)
    simp only [List.mapM_cons, List.mapM_nil]
    exact (SelectionTerm.evaluate_callUnder hcalls (.cons hr .nil) hp _ _).bind fun _ _ hss =>
      .ok (.cons hss .nil)

theorem Sorting.Akin.apply {s s' : Sorting} (h : s.Akin s') (hcalls : calls.Uniform)
    (hr : r.Akin r') :
    SameOutcome (List.Forall₂ SortKey.Akin) (s.apply calls r) (s'.apply calls r') := by
  cases h with
  | @closure body _ _ hcaptured =>
    refine SameOutcome.mapM (twins_refl (fun _ => rfl) body) ?_
    rintro t _ rfl
    exact (t.expr.evaluate_akin hcalls (.cons hr hcaptured)).bind fun e e' he => .ok (.mk he)

end

/-- Callbacks whose bodies are terms are uniform, with calls inside one another. -/
theorem Calls.within_uniform (depth : Nat) : (within depth).Uniform := by
  induction depth with
  | zero => exact ⟨fun _ _ _ _ _ _ => .error, fun _ _ _ _ _ _ => .error⟩
  | succ depth ih =>
    exact ⟨fun _ _ _ _ hp hr => hp.apply ih hr, fun _ _ _ _ hp hr => hp.apply ih hr⟩

theorem Calls.deep_uniform : deep.Uniform := within_uniform _

end QueryBuilder
