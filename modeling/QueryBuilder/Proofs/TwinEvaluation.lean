import QueryBuilder.Proofs.Twins
import QueryBuilder.Query.Evaluation

/-! Evaluating twins.

Terms that read as one another, evaluated with the rows of twin callbacks, have twin values
or the same fault. A merged filter is called through one more callback than the filter that
is written for the joining query, so the one side may be given up as too deep where the
other goes on. On the other side, a callback that calls one of the added filters by hand,
for a row that it has fetched, counts as missing something: such a row keeps the merged
filter's substitution when it is fetched from, and there the two differ. -/
namespace QueryBuilder

variable {α β γ δ ε : Type} {R : Reading}

/-! ### Outcomes -/

/-- Related values, or the same error. -/
inductive SameOutcome (S : α → β → Prop) : Except ε α → Except ε β → Prop
  | ok {a b} : S a b → SameOutcome S (.ok a) (.ok b)
  | error {e} : SameOutcome S (.error e) (.error e)

namespace SameOutcome
variable {S : α → β → Prop} {T : γ → δ → Prop}

theorem refl {S : α → α → Prop} (h : ∀ a, S a a) (x : Except ε α) : SameOutcome S x x := by
  cases x with
  | ok a => exact .ok (h a)
  | error e => exact .error

theorem bind {x : Except ε α} {y : Except ε β} (h : SameOutcome S x y) {f : α → Except ε γ}
    {g : β → Except ε δ} (hfg : ∀ a b, S a b → SameOutcome T (f a) (g b)) :
    SameOutcome T (x >>= f) (y >>= g) := by
  cases h with
  | ok hab => exact hfg _ _ hab
  | error => exact .error

/-- The same first step. -/
theorem bind_left (x : Except ε α) {f : α → Except ε γ} {g : α → Except ε δ}
    (hfg : ∀ a, SameOutcome T (f a) (g a)) : SameOutcome T (x >>= f) (x >>= g) := by
  cases x with
  | ok a => exact hfg a
  | error e => exact .error

end SameOutcome

/-- Related values, or the same fault. Nothing is said of the second computation when the
first is too deep, and nothing of the first when the second has missed something. -/
inductive Agree (S : α → β → Prop) : Except Fault α → Except Fault β → Prop
  | ok {a b} : S a b → Agree S (.ok a) (.ok b)
  | fault {f} : Agree S (.error f) (.error f)
  | tooDeep {y} : Agree S (.error .tooDeep) y
  | missing {x} : Agree S x (.error .missing)

namespace Agree
variable {S : α → β → Prop} {T : γ → δ → Prop} {x : Except Fault α} {y : Except Fault β}

theorem bind (h : Agree S x y) {f : α → Except Fault γ} {g : β → Except Fault δ}
    (hfg : ∀ a b, S a b → Agree T (f a) (g b)) : Agree T (x >>= f) (y >>= g) := by
  cases h with
  | ok hab => exact hfg _ _ hab
  | fault => exact .fault
  | tooDeep => exact .tooDeep
  | missing => exact .missing

theorem imp (h : Agree S x y) {S' : α → β → Prop} (hS : ∀ a b, S a b → S' a b) :
    Agree S' x y := by
  cases h with
  | ok hab => exact .ok (hS _ _ hab)
  | fault => exact .fault
  | tooDeep => exact .tooDeep
  | missing => exact .missing

theorem lift {x : Except Error α} {y : Except Error β} (h : SameOutcome S x y) :
    Agree S (liftM x) (liftM y) := by
  cases h with
  | ok hab => exact .ok hab
  | error => exact .fault

theorem mapM {xs : List α} {ys : List β} (h : List.Forall₂ S xs ys) {f : α → Except Fault γ}
    {g : β → Except Fault δ} (hfg : ∀ a b, S a b → Agree T (f a) (g b)) :
    Agree (List.Forall₂ T) (xs.mapM f) (ys.mapM g) := by
  induction h with
  | nil => exact .ok .nil
  | cons hab _ ih =>
    rw [List.mapM_cons, List.mapM_cons]
    exact (hfg _ _ hab).bind fun c d hcd => ih.bind fun cs ds hrest => .ok (.cons hcd hrest)

/-- Related lists have related elements in the same places. -/
theorem elementAt {xs : List α} {ys : List β} (h : List.Forall₂ S xs ys) (index : Nat) :
    Agree S (QueryBuilder.elementAt xs index) (QueryBuilder.elementAt ys index) := by
  induction h generalizing index with
  | nil => exact .fault
  | cons hab _ ih =>
    cases index with
    | zero => exact .ok hab
    | succ index => exact ih index

end Agree

/-! ### Joining twins -/

inductive JoinTarget.Twin (R : Reading) : JoinTarget → JoinTarget → Prop
  | association {name} : JoinTarget.Twin R (.association name) (.association name)
  | table {name} : JoinTarget.Twin R (.table name) (.table name)
  | relation {relation} : JoinTarget.Twin R (.relation relation) (.relation relation)
  | query {q q' : Query} : q.Twin R q' → JoinTarget.Twin R (.query q) (.query q')

structure JoinOptions.Twin (R : Reading) (o o' : JoinOptions) : Prop where
  kind_eq : o'.kind = o.kind
  label_eq : o'.label = o.label
  on : Option.Rel (Predicate.Twin R) o.on o'.on

namespace Query
variable {q q' : Query} {o o' : JoinOptions}

theorem Twin.claimAlias_eq (h : q.Twin R q') : q'.claimAlias = q.claimAlias := by
  have htaken : q'.isTaken = q.isTaken := by
    funext label
    unfold isTaken
    rw [h.hasSource_eq, h.frame.context_eq]
  funext fallback requested
  unfold Query.claimAlias
  rw [htaken]

theorem Twin.conditionOf (h : q.Twin R q') (ho : o.Twin R o') (relation : Option RelationRef)
    (name label : String) : SameOutcome (Predicate.Twin R) (q.conditionOf o relation name label)
      (q'.conditionOf o' relation name label) := by
  have hon := ho.on
  unfold Query.conditionOf
  generalize o.on = on, o'.on = on' at hon
  cases hon with
  | some hp => exact .ok hp
  | none =>
    unfold derivedCondition
    rw [h.frame.defaultRelation_eq, h.frame.default_eq]
    exact .refl (fun _ => .refl) _

theorem Twin.attach_claimed (h : q.Twin R q') (label : String) (kind : JoinKind)
    {d d' : DataSource} (hd : d.Twin R d') {on on' : Predicate} (hon : on.Twin R on') :
    (q.attach ⟨label, d⟩ ⟨label, kind, on⟩).Twin R (q'.attach ⟨label, d'⟩ ⟨label, kind, on'⟩) := by
  have hsource : Source.Twin R ⟨label, d⟩ ⟨label, d'⟩ := ⟨rfl, hd⟩
  have hjoin : JoinClause.Twin R ⟨label, kind, on⟩ ⟨label, kind, on'⟩ := ⟨rfl, rfl, hon⟩
  exact h.attach hsource hjoin

theorem Twin.joinAssociation (h : q.Twin R q') (ho : o.Twin R o') (name : String) :
    SameOutcome (Query.Twin R) (q.joinAssociation name o) (q'.joinAssociation name o') := by
  unfold Query.joinAssociation
  rw [h.frame.defaultRelation_eq, h.frame.default_eq, h.claimAlias_eq, ho.label_eq, ho.kind_eq]
  cases q.defaultRelation with
  | none => exact .error
  | some relation =>
    refine .bind_left _ fun association => .bind_left _ fun target => .bind_left _ fun label => ?_
    refine .ok (h.attach_claimed label _ .refl ?_)
    have hon := ho.on
    generalize o.on = on, o'.on = on' at hon
    cases hon with
    | some hp => exact hp
    | none => exact .refl

theorem Twin.joinTable (h : q.Twin R q') (ho : o.Twin R o') (table : String) :
    SameOutcome (Query.Twin R) (q.joinTable table o) (q'.joinTable table o') := by
  unfold Query.joinTable
  rw [h.claimAlias_eq, ho.label_eq, ho.kind_eq]
  refine .bind_left _ fun label => ?_
  have hon := ho.on
  generalize o.on = on, o'.on = on' at hon
  cases hon with
  | some hp => exact .ok (h.attach_claimed label _ .refl hp)
  | none => exact .error

theorem Twin.joinRelation (h : q.Twin R q') (ho : o.Twin R o') (relation : RelationRef) :
    SameOutcome (Query.Twin R) (q.joinRelation relation o) (q'.joinRelation relation o') := by
  rw [joinRelation_eq, joinRelation_eq, h.claimAlias_eq, ho.label_eq, ho.kind_eq]
  refine .bind_left _ fun label => (h.conditionOf ho _ _ label).bind fun on on' hon => ?_
  exact .ok (h.attach_claimed label _ .refl hon)

theorem Twin.mergeableTable_eq {t t' : Query} (h : t.Twin R t') (kind : JoinKind) :
    t'.mergeableTable kind = t.mergeableTable kind := by
  have hempty : ∀ {α : Type} {xs ys : List α}, ys.length = xs.length → ys.isEmpty = xs.isEmpty := by
    intro α xs ys hlength
    cases xs <;> cases ys <;> simp_all
  have hjoins : t'.joins.isEmpty = t.joins.isEmpty := hempty h.parts.joins.length_eq.symm
  have hsorting : t'.sorting.isNone = t.sorting.isNone := by
    rw [← Option.not_isSome, ← Option.not_isSome, h.frame.sorting_isSome]
  unfold mergeableTable
  rw [hempty h.frame.filters_length, hjoins, hsorting, h.frame.limit_eq]
  have hsources := h.parts.sources
  generalize t.sources = sources, t'.sources = sources' at hsources
  cases hsources with
  | nil => rfl
  | @cons s s' _ _ hs hrest =>
    obtain ⟨label, data⟩ := s
    obtain ⟨label', data'⟩ := s'
    obtain ⟨-, hdata⟩ := hs
    cases hdata with
    | refl => cases hrest <;> cases data <;> rfl
    | nested => cases hrest <;> rfl

theorem Twin.mergedRow_eq {t t' : Query} (h : t.Twin R t') (label : String) :
    t'.mergedRow label = t.mergedRow label := by
  unfold mergedRow
  rw [h.frame.default_eq, h.frame.base_eq]

theorem Twin.mergedFilters {t t' : Query} (h : t.Twin R t') (label : String) :
    List.Forall₂ (Predicate.Twin R) (t.mergedFilters label) (t'.mergedFilters label) := by
  unfold Query.mergedFilters
  rw [List.forall₂_map_left_iff, List.forall₂_map_right_iff, h.mergedRow_eq]
  refine h.parts.filters.imp fun p p' hp => ?_
  have hrow : RowTerm.ReadsAs R (deeper none) (t.mergedRow label) (t.mergedRow label) :=
    RowTerm.readsAs_refl R _
  exact .closure (.call hp hrow) .nil

theorem Twin.mergedProjections {t t' : Query} (h : t.Twin R t') (label : String) :
    List.Forall₂ (Projection.Twin R) (t.mergedProjections label) (t'.mergedProjections label) := by
  have hprojections := h.parts.projections
  unfold Query.mergedProjections
  rw [h.mergedRow_eq]
  generalize t.projections = ps, t'.projections = ps' at hprojections
  cases hprojections with
  | nil => exact .cons .refl .nil
  | cons hp hps =>
    refine List.forall₂_map_left_iff.mpr (List.forall₂_map_right_iff.mpr ?_)
    refine (List.Forall₂.cons hp hps).imp fun p p' hp => ?_
    have hnone : Captured R none [] [] := .nil
    refine .closure rfl (fun s s' hmem => ?_) hnone
    obtain ⟨rfl, rfl⟩ := Prod.mk.inj (List.mem_singleton.mp hmem)
    exact .callUnder hp (RowTerm.readsAs_refl R _)

theorem Twin.absorb (h : q.Twin R q') {t t' : Query} (ht : t.Twin R t') (label : String) :
    (q.absorb t label).Twin R (q'.absorb t' label) := by
  have hprojections : List.Forall₂ (Projection.Twin R) (q.absorb t label).projections
      (q'.absorb t' label).projections := by
    have hps := h.parts.projections
    unfold Query.absorb
    dsimp only
    generalize q.projections = ps, q'.projections = ps' at hps
    cases hps with
    | nil => exact .nil
    | cons hp hps => exact List.rel_append (.cons hp hps) (ht.mergedProjections label)
  exact ({ h.parts with
      includes := List.rel_append h.parts.includes ht.parts.includes
      filters := List.rel_append h.parts.filters (ht.mergedFilters label)
      projections := hprojections } :
    TwinParts R (q.absorb t label) (q'.absorb t' label)).twin

theorem Twin.joinQuery (h : q.Twin R q') {t t' : Query} (ht : t.Twin R t') (ho : o.Twin R o') :
    SameOutcome (Query.Twin R) (q.joinQuery t o) (q'.joinQuery t' o') := by
  rw [joinQuery_eq, joinQuery_eq, h.claimAlias_eq, ho.label_eq, ht.frame.name_eq,
    ht.frame.default_eq, ht.frame.defaultRelation_eq, ho.kind_eq, ht.mergeableTable_eq]
  refine .bind_left _ fun label => (h.conditionOf ho _ _ label).bind fun on on' hon => ?_
  cases t.mergeableTable o.kind with
  | some table => exact .ok ((h.attach_claimed label _ .refl hon).absorb ht label)
  | none => exact .ok (h.attach_claimed label _ (.nested ht) hon)

theorem Twin.join (h : q.Twin R q') {t t' : JoinTarget} (ht : t.Twin R t') (ho : o.Twin R o') :
    SameOutcome (Query.Twin R) (q.join t o) (q'.join t' o') := by
  cases ht with
  | association => exact h.joinAssociation ho _
  | table => exact h.joinTable ho _
  | relation => exact h.joinRelation ho _
  | query ht => exact h.joinQuery ht ho

end Query

/-! ### Rows and expressions -/

namespace Row
variable {r r' : Row}

theorem Twin.refl (r : Row) : r.Twin R r := .mk .refl rfl rfl rfl rfl

theorem Twin.query (h : r.Twin R r') : r.query.Twin R r'.query := by
  cases h
  assumption

theorem Twin.substitutions_eq (h : r.Twin R r') : r'.substitutions = r.substitutions := by
  cases h
  assumption

theorem Twin.default_eq (h : r.Twin R r') : r'.defaultSource = r.defaultSource := by
  cases h
  assumption

theorem Twin.scope_eq (h : r.Twin R r') : r'.scope = r.scope := by
  cases h
  assumption

theorem Twin.fetched_eq (h : r.Twin R r') : r'.fetched = r.fetched := by
  cases h
  assumption

theorem twin_bound {q q' : Query} (h : q.Twin R q') (scope : Scope) :
    (bound q scope).Twin R (bound q' scope) :=
  .mk h rfl h.frame.default_eq rfl rfl

theorem twin_ofQuery {q q' : Query} (h : q.Twin R q') : (ofQuery q).Twin R (ofQuery q') := by
  unfold ofQuery
  rw [h.ownScope_eq]
  exact twin_bound h _

theorem Twin.rebase (h : r.Twin R r') (source : String) :
    (r.rebase source).Twin R (r'.rebase source) :=
  .mk h.query h.substitutions_eq rfl h.scope_eq h.fetched_eq

theorem Twin.substituting (h : r.Twin R r') (names : Substitution) :
    (r.substituting names).Twin R (r'.substituting names) :=
  .mk h.query (congrArg (names :: ·) h.substitutions_eq) h.default_eq h.scope_eq h.fetched_eq

theorem Twin.filter (h : r.Twin R r') {p p' : Predicate} (hp : p.Twin R p') :
    (r.filter p).Twin R (r'.filter p') :=
  .mk (h.query.filter hp) h.substitutions_eq h.default_eq h.scope_eq h.fetched_eq

theorem Twin.substitute_eq (h : r.Twin R r') : r'.substitute = r.substitute := by
  funext source
  unfold Row.substitute
  rw [h.substitutions_eq]

theorem Twin.columnOf_eq (h : r.Twin R r') : r'.columnOf = r.columnOf := by
  funext source name
  unfold Row.columnOf
  rw [h.substitute_eq]

theorem Twin.starOf_eq (h : r.Twin R r') : r'.starOf = r.starOf := by
  funext source
  unfold Row.starOf
  rw [h.substitute_eq]

theorem Twin.condition_eq (h : r.Twin R r') (a : Association) (owner target : String) :
    a.condition r' owner target = a.condition r owner target := by
  unfold Association.condition
  rw [h.columnOf_eq]

theorem Twin.fetchFrom (h : r.Twin R r') (source name : String) (label : Option String) :
    SameOutcome (Row.Twin R) (r.fetchFrom source name label) (r'.fetchFrom source name label) := by
  unfold Row.fetchFrom
  have hlookup := congrArg Scope.lookup h.scope_eq
  rw [relationOf_of_shape h.query.frame.shape_eq hlookup,
    claimAlias_of_shape h.query.frame.shape_eq hlookup, h.substitute_eq, h.fetched_eq,
    h.scope_eq]
  refine .bind_left _ fun relation => ?_
  cases relation with
  | none => exact .error
  | some relation =>
    refine .bind_left _ fun association => .bind_left _ fun target => .bind_left _ fun label => ?_
    cases r.fetched with
    | true =>
      refine .ok (.mk ?_ h.substitutions_eq rfl rfl rfl)
      exact h.query.attach (.refl _) (.refl _)
    | false => exact .ok (.refl _)

/-! A merged row asks for its own source by the name that the other side asks for. -/

theorem merge_substitute (r : Row) (source : Option String) :
    (R.merge r).substitute (source.getD R.base) = r.substitute (R.name source) := by
  rw [← R.names_getD]
  rfl

theorem merge_columnOf (r : Row) (source : Option String) (name : String) :
    (R.merge r).columnOf (source.getD R.base) name = r.columnOf (R.name source) name := by
  unfold Row.columnOf
  rw [merge_substitute]

theorem merge_condition (r : Row) (a : Association) (owner target : String) :
    a.condition (R.merge r) owner target =
      a.condition r (R.name (some owner)) (R.name (some target)) := by
  have hcolumn := fun source => merge_columnOf (R := R) r (some source)
  simp only [Option.getD_some] at hcolumn
  unfold Association.condition Association.sides
  cases a.direction <;> simp only [hcolumn]

/-- A row that is fetched keeps none of the names. -/
theorem merge_fetchFrom {r : Row} (h : r.fetched = false) (source : Option String)
    (name : String) (label : Option String) :
    (R.merge r).fetchFrom (source.getD R.base) name label =
      r.fetchFrom (R.name source) name label := by
  have hfetched : (R.merge r).fetched = false := h
  have hrelation : (R.merge r).relationOf = r.relationOf := rfl
  have hclaim : (R.merge r).claimAlias = r.claimAlias := rfl
  have hscope : (R.merge r).scope = r.scope := rfl
  unfold Row.fetchFrom
  rw [merge_substitute, hrelation, hclaim, hscope, hfetched, h]
  simp only [Bool.false_eq_true, if_false]

end Row

/-- Expressions that differ in subqueries, which are twins. -/
inductive Expr.Twin (R : Reading) : Expr Query → Expr Query → Prop
  | column {source name} : Expr.Twin R (.column source name) (.column source name)
  | star {source} : Expr.Twin R (.star source) (.star source)
  | raw {sql} : Expr.Twin R (.raw sql) (.raw sql)
  | text {value} : Expr.Twin R (.text value) (.text value)
  | unary {before e e' after} : Expr.Twin R e e' →
      Expr.Twin R (.unary before e after) (.unary before e' after)
  | binary {before between after l l' r r'} : Expr.Twin R l l' → Expr.Twin R r r' →
      Expr.Twin R (.binary before between after l r) (.binary before between after l' r')
  | subquery {q q' : Query} : q.Twin R q' → Expr.Twin R (.subquery q) (.subquery q')

namespace Expr
variable {e e' l l' r r' : Expr Query}

theorem Twin.refl : (e : Expr Query) → e.Twin R e
  | .column .. => .column
  | .star .. => .star
  | .raw .. => .raw
  | .text .. => .text
  | .unary _ e _ => .unary (refl e)
  | .binary _ _ _ l r => .binary (refl l) (refl r)
  | .subquery _ => .subquery .refl

theorem Twin.isAtomic_eq (h : e.Twin R e') : e'.isAtomic = e.isAtomic := by
  cases h <;> rfl

theorem Twin.apply (hl : l.Twin R l') (hr : r.Twin R r') (op : Operator) :
    (l.apply op r).Twin R (l'.apply op r') := by
  unfold Expr.apply
  rw [hl.isAtomic_eq]
  split <;> exact .binary hl hr

end Expr

namespace Row
variable {r r' : Row}

theorem Twin.aggregate (h : r.Twin R r') (function : Aggregate) (column : String) :
    (r.aggregate function column).Twin R (r'.aggregate function column) := by
  unfold Row.aggregate Row.column
  rw [h.columnOf_eq, h.default_eq]
  exact .subquery (h.query.select .refl)

theorem Twin.existsRow (h : r.Twin R r') : r.existsRow.Twin R r'.existsRow :=
  .unary (.subquery (h.query.select .refl))

end Row

/-- Selections of twin expressions under the same name. -/
structure Selection.Twin (R : Reading) (s s' : Selection) : Prop where
  expr : s.expr.Twin R s'.expr
  label_eq : s'.label = s.label

theorem Selection.Twin.under {s s' : Selection} (h : s.Twin R s') (label : String) :
    (s.under label).Twin R (s'.under label) := by
  obtain ⟨e, name⟩ := s
  obtain ⟨e', name'⟩ := s'
  obtain ⟨he, hname⟩ := h
  dsimp only at he hname
  subst hname
  cases name' with
  | some name => exact ⟨he, rfl⟩
  | none => cases he <;> exact ⟨by constructor <;> assumption, rfl⟩

structure SortKey.Twin (R : Reading) (k k' : SortKey) : Prop where
  expr : k.expr.Twin R k'.expr
  direction_eq : k'.direction = k.direction

/-! ### Captured rows -/

namespace Captured

/-- A row other than the filter's own has a twin. -/
theorem elementAt : {rows rows' : List Row} → {own : Option Nat} → Captured R own rows rows' →
    {level : Nat} → own ≠ some level →
    Agree (Row.Twin R) (QueryBuilder.elementAt rows level) (QueryBuilder.elementAt rows' level)
  | _, _, _, .nil, _, _ => .fault
  | _, _, _, .cons hr _, 0, _ => .ok hr
  | _, _, _, .cons _ hrows, level + 1, hne =>
    elementAt hrows fun he : _ = some level => hne (by rw [he]; rfl)
  | _, _, _, .own _ _ _, 0, hne => absurd rfl hne
  | _, _, _, .own _ _ hrows, _ + 1, _ => elementAt hrows (by simp)

/-- The filter's own row is a merged one on the one side. -/
theorem elementAt_own : {rows rows' : List Row} → {own : Option Nat} → Captured R own rows rows' →
    {level : Nat} → own = some level →
    Agree (fun m r' => ∃ r, m = R.merge r ∧ r.Twin R r' ∧ r.fetched = false)
      (QueryBuilder.elementAt rows level) (QueryBuilder.elementAt rows' level)
  | _, _, _, .nil, _, _ => .fault
  | _, _, _, @cons _ none _ _ _ _ _ _, _, he => by simp [deeper] at he
  | _, _, _, @cons _ (some _) _ _ _ _ _ hrows, _, he => by
    obtain rfl := Option.some.inj he
    exact elementAt_own hrows rfl
  | _, _, _, .own hr hfetched _, 0, _ => .ok ⟨_, rfl, hr, hfetched⟩
  | _, _, _, .own _ _ _, _ + 1, he => by simp at he

/-- The conditions given to a join, if any, become twin callbacks. -/
theorem conditions {own : Option Nat} {rows rows' : List Row} (h : Captured R own rows rows')
    {on on' : Option ExprTerm} (hsome : on'.isSome = on.isSome)
    (hon : ∀ t t', on = some t → on' = some t' → t.ReadsAs R (deeper own) t') :
    Option.Rel (Predicate.Twin R) (on.map fun condition => ⟨condition, rows⟩)
      (on'.map fun condition => ⟨condition, rows'⟩) := by
  cases on with
  | none =>
    cases on' with
    | none => exact .none
    | some => simp at hsome
  | some condition =>
    cases on' with
    | none => simp at hsome
    | some condition' => exact .some (.closure (hon _ _ rfl rfl) h)

end Captured

/-! ### Evaluation -/

/-- Calling twin callbacks for twin rows has outcomes that agree. -/
structure Calls.Agree (R : Reading) (calls calls' : Calls) : Prop where
  predicate : ∀ p p' r r', p.Twin R p' → r.Twin R r' →
    QueryBuilder.Agree (Expr.Twin R) (calls.predicate p r) (calls'.predicate p' r')
  projection : ∀ p p' r r', p.Twin R p' → r.Twin R r' →
    QueryBuilder.Agree (List.Forall₂ (Selection.Twin R)) (calls.projection p r)
      (calls'.projection p' r')

section
variable {calls calls' : Calls} {own : Option Nat} {rows rows' : List Row}

mutual

theorem RowTerm.evaluate_twin (hcalls : calls.Agree R calls') (hrows : Captured R own rows rows') :
    (t : RowTerm) → ∀ {t'}, t.ReadsAs R own t' →
      Agree (Row.Twin R) (t.evaluate calls rows) (t'.evaluate calls' rows')
  | .up level, _, h => by
    cases h with
    | up hne => exact hrows.elementAt hne
  | .value row, _, h => by
    cases h
    exact .ok (.refl row)
  | .ofQuery query, _, h => by
    cases h with
    | ofQuery hquery =>
      simp only [RowTerm.evaluate]
      exact (query.evaluate_twin hcalls hrows hquery).bind fun q q' hq => .ok (Row.twin_ofQuery hq)
  | .fetch row source association label, _, h => by
    cases h with
    | fetch hrow =>
      simp only [RowTerm.evaluate]
      refine (row.evaluate_twin hcalls hrows hrow).bind fun r r' hr => ?_
      rw [hr.default_eq]
      exact .lift (hr.fetchFrom _ _ _)
    | @fetchOwn level =>
      simp only [RowTerm.evaluate]
      refine (hrows.elementAt_own rfl).bind ?_
      rintro _ r' ⟨r, rfl, hr, hfetched⟩
      have hmerged := Row.merge_fetchFrom (R := R) hfetched source association label
      exact .lift (hmerged ▸ hr.fetchFrom _ _ _)
  | .filter row condition, _, h => by
    cases h with
    | filter hrow hcondition =>
      simp only [RowTerm.evaluate]
      exact (row.evaluate_twin hcalls hrows hrow).bind fun r r' hr =>
        .ok (hr.filter (.closure hcondition hrows))
  | .substitute row names, _, h => by
    cases h with
    | substitute hrow =>
      simp only [RowTerm.evaluate]
      exact (row.evaluate_twin hcalls hrows hrow).bind fun r r' hr => .ok (hr.substituting names)
  | .rebase row source, _, h => by
    cases h with
    | rebase hrow =>
      simp only [RowTerm.evaluate]
      exact (row.evaluate_twin hcalls hrows hrow).bind fun r r' hr => .ok (hr.rebase source)
  | .fail fault, _, h => by
    cases h
    exact .fault

theorem ExprTerm.evaluate_twin (hcalls : calls.Agree R calls') (hrows : Captured R own rows rows') :
    (t : ExprTerm) → ∀ {t'}, t.ReadsAs R own t' →
      Agree (Expr.Twin R) (t.evaluate calls rows) (t'.evaluate calls' rows')
  | .value e, _, h => by
    cases h
    exact .ok (.refl e)
  | .column row source name, _, h => by
    cases h with
    | column hrow =>
      simp only [ExprTerm.evaluate]
      refine (row.evaluate_twin hcalls hrows hrow).bind fun r r' hr => .ok ?_
      rw [hr.columnOf_eq, hr.default_eq]
      exact .refl _
    | columnOwn =>
      simp only [ExprTerm.evaluate]
      refine (hrows.elementAt_own rfl).bind ?_
      rintro _ r' ⟨r, rfl, hr, -⟩
      have hmerged := Row.merge_columnOf (R := R) r source name
      refine .ok ?_
      rw [hr.columnOf_eq]
      exact hmerged ▸ .refl _
  | .star row source, _, h => by
    cases h with
    | star hrow =>
      simp only [ExprTerm.evaluate]
      refine (row.evaluate_twin hcalls hrows hrow).bind fun r r' hr => .ok ?_
      rw [hr.starOf_eq, hr.default_eq]
      exact .refl _
    | starOwn =>
      simp only [ExprTerm.evaluate]
      refine (hrows.elementAt_own rfl).bind ?_
      rintro _ r' ⟨r, rfl, hr, -⟩
      have hmerged := Row.merge_substitute (R := R) r source
      refine .ok ?_
      rw [hr.starOf_eq]
      unfold Row.starOf
      exact hmerged ▸ .refl _
  | .unary before operand after, _, h => by
    cases h with
    | unary hoperand =>
      simp only [ExprTerm.evaluate]
      exact (operand.evaluate_twin hcalls hrows hoperand).bind fun e e' he => .ok (.unary he)
  | .binary fragments left right, _, h => by
    cases h with
    | binary hleft hright =>
      simp only [ExprTerm.evaluate]
      refine (left.evaluate_twin hcalls hrows hleft).bind fun l l' hl => ?_
      refine (right.evaluate_twin hcalls hrows hright).bind fun r r' hr => ?_
      split
      · exact .ok (.binary hl hr)
      · exact .fault
  | .apply op left right, _, h => by
    cases h with
    | apply hleft hright =>
      simp only [ExprTerm.evaluate]
      exact (left.evaluate_twin hcalls hrows hleft).bind fun l l' hl =>
        (right.evaluate_twin hcalls hrows hright).bind fun r r' hr => .ok (hl.apply hr op)
  | .applyRightFirst op right left, _, h => by
    cases h with
    | applyRightFirst hright hleft =>
      simp only [ExprTerm.evaluate]
      exact (right.evaluate_twin hcalls hrows hright).bind fun r r' hr =>
        (left.evaluate_twin hcalls hrows hleft).bind fun l l' hl => .ok (hl.apply hr op)
  | .aggregate function column row, _, h => by
    cases h with
    | aggregate hrow =>
      simp only [ExprTerm.evaluate]
      exact (row.evaluate_twin hcalls hrows hrow).bind fun r r' hr =>
        .ok (hr.aggregate function column)
  | .existsRow row, _, h => by
    cases h with
    | existsRow hrow =>
      simp only [ExprTerm.evaluate]
      exact (row.evaluate_twin hcalls hrows hrow).bind fun r r' hr => .ok hr.existsRow
  | .subquery query, _, h => by
    cases h with
    | subquery hquery =>
      simp only [ExprTerm.evaluate]
      exact (query.evaluate_twin hcalls hrows hquery).bind fun q q' hq => .ok (.subquery hq)
  | .condition a owner target row, _, h => by
    cases h with
    | condition hrow =>
      simp only [ExprTerm.evaluate]
      refine (row.evaluate_twin hcalls hrows hrow).bind fun r r' hr => .ok ?_
      rw [hr.condition_eq]
      exact .refl _
    | conditionOwn =>
      simp only [ExprTerm.evaluate]
      refine (hrows.elementAt_own rfl).bind ?_
      rintro _ r' ⟨r, rfl, hr, -⟩
      refine .ok ?_
      rw [hr.condition_eq, Row.merge_condition]
      exact .refl _
  | .call p row, _, h => by
    cases h with
    | call hp hrow =>
      simp only [ExprTerm.evaluate]
      exact (row.evaluate_twin hcalls hrows hrow).bind fun r r' hr =>
        hcalls.predicate _ _ _ _ hp hr
  | .callFilter query index row, _, h => by
    cases h with
    | callFilter hquery hrow =>
      simp only [ExprTerm.evaluate]
      exact (query.evaluate_twin hcalls hrows hquery).bind fun q q' hq =>
        (row.evaluate_twin hcalls hrows hrow).bind fun r r' hr =>
        (Agree.elementAt hq.parts.filters index).bind fun p p' hp =>
        hcalls.predicate _ _ _ _ hp hr
  | .callJoin query index row, _, h => by
    cases h with
    | callJoin hquery hrow =>
      simp only [ExprTerm.evaluate]
      exact (query.evaluate_twin hcalls hrows hquery).bind fun q q' hq =>
        (row.evaluate_twin hcalls hrows hrow).bind fun r r' hr =>
        (Agree.elementAt hq.parts.joins index).bind fun j j' hj =>
        hcalls.predicate _ _ _ _ hj.on hr
  | .fail fault, _, h => by
    cases h
    exact .fault

theorem QueryTerm.evaluate_twin (hcalls : calls.Agree R calls')
    (hrows : Captured R own rows rows') :
    (t : QueryTerm) → ∀ {t'}, t.ReadsAs R own t' →
      Agree (Query.Twin R) (t.evaluate calls rows) (t'.evaluate calls' rows')
  | .value q, _, h => by
    cases h
    exact .ok .refl
  | .ofRow row, _, h => by
    cases h with
    | ofRow hrow =>
      simp only [QueryTerm.evaluate]
      exact (row.evaluate_twin hcalls hrows hrow).bind fun r r' hr => .ok hr.query
  | .included query index, _, h => by
    cases h with
    | included hquery =>
      simp only [QueryTerm.evaluate]
      exact (query.evaluate_twin hcalls hrows hquery).bind fun q q' hq =>
        .elementAt hq.parts.includes index
  | .nestedAt query label, _, h => by
    cases h with
    | nestedAt hquery =>
      simp only [QueryTerm.evaluate]
      refine (query.evaluate_twin hcalls hrows hquery).bind fun q q' hq => ?_
      have hdata := hq.source? label
      generalize q.source? label = d, q'.source? label = d' at hdata
      cases hdata with
      | none => exact .fault
      | @some d d' hd =>
        cases hd with
        | refl => cases d with
          | table => exact .fault
          | nested => exact .ok .refl
        | nested hq => exact .ok hq
  | .named query name, _, h => by
    cases h with
    | named hquery =>
      simp only [QueryTerm.evaluate]
      exact (query.evaluate_twin hcalls hrows hquery).bind fun q q' hq => .ok (hq.named name)
  | .limit query count, _, h => by
    cases h with
    | limit hquery =>
      simp only [QueryTerm.evaluate]
      exact (query.evaluate_twin hcalls hrows hquery).bind fun q q' hq => .ok (hq.take count)
  | .selectNone query, _, h => by
    cases h with
    | selectNone hquery =>
      simp only [QueryTerm.evaluate]
      exact (query.evaluate_twin hcalls hrows hquery).bind fun q q' hq => .ok hq.selectNone
  | .including query related, _, h => by
    cases h with
    | including hquery hrelated =>
      simp only [QueryTerm.evaluate]
      exact (query.evaluate_twin hcalls hrows hquery).bind fun q q' hq =>
        (related.evaluate_twin hcalls hrows hrelated).bind fun i i' hi => .ok (hq.including hi)
  | .filter query condition, _, h => by
    cases h with
    | filter hquery hcondition =>
      simp only [QueryTerm.evaluate]
      exact (query.evaluate_twin hcalls hrows hquery).bind fun q q' hq =>
        .ok (hq.filter (.closure hcondition hrows))
  | .sortBy query keys, _, h => by
    cases h with
    | sortBy hquery hdirections hkeys =>
      simp only [QueryTerm.evaluate]
      exact (query.evaluate_twin hcalls hrows hquery).bind fun q q' hq =>
        .ok (hq.sortBy (.closure hdirections hkeys hrows))
  | .select query items, _, h => by
    cases h with
    | select hquery hlength hitems =>
      simp only [QueryTerm.evaluate]
      exact (query.evaluate_twin hcalls hrows hquery).bind fun q q' hq =>
        .ok (hq.select (.closure hlength hitems hrows))
  | .andSelect query items, _, h => by
    cases h with
    | andSelect hquery hlength hitems =>
      simp only [QueryTerm.evaluate]
      exact (query.evaluate_twin hcalls hrows hquery).bind fun q q' hq =>
        .ok (hq.andSelect (.closure hlength hitems hrows))
  | .join query target kind label on, _, h => by
    cases h with
    | join hquery htarget hsome hon =>
      simp only [QueryTerm.evaluate]
      exact (query.evaluate_twin hcalls hrows hquery).bind fun q q' hq =>
        (target.evaluate_twin hcalls hrows htarget).bind fun t t' ht =>
        .lift (hq.join ht ⟨rfl, rfl, hrows.conditions hsome hon⟩)
  | .fail fault, _, h => by
    cases h
    exact .fault

theorem TargetTerm.evaluate_twin (hcalls : calls.Agree R calls')
    (hrows : Captured R own rows rows') :
    (t : TargetTerm) → ∀ {t'}, t.ReadsAs R own t' →
      Agree (JoinTarget.Twin R) (t.evaluate calls rows) (t'.evaluate calls' rows')
  | .association _, _, h => by
    cases h
    exact .ok .association
  | .table _, _, h => by
    cases h
    exact .ok .table
  | .relation _, _, h => by
    cases h
    exact .ok .relation
  | .query query, _, h => by
    cases h with
    | query hquery =>
      simp only [TargetTerm.evaluate]
      exact (query.evaluate_twin hcalls hrows hquery).bind fun q q' hq => .ok (.query hq)
  | .fail fault, _, h => by
    cases h
    exact .fault

end

theorem SelectionTerm.evaluate_twin (hcalls : calls.Agree R calls')
    (hrows : Captured R own rows rows') (t : SelectionTerm) {t' : SelectionTerm}
    (h : t.ReadsAs R own t') :
    Agree (List.Forall₂ (Selection.Twin R)) (t.evaluate calls rows) (t'.evaluate calls' rows') := by
  cases h with
  | item he =>
    simp only [SelectionTerm.evaluate]
    exact (ExprTerm.evaluate_twin hcalls hrows _ he).bind fun e e' he =>
      .ok (.cons ⟨he, rfl⟩ .nil)
  | call hp hrow =>
    simp only [SelectionTerm.evaluate]
    exact (RowTerm.evaluate_twin hcalls hrows _ hrow).bind fun r r' hr =>
      hcalls.projection _ _ _ _ hp hr
  | callUnder hp hrow =>
    simp only [SelectionTerm.evaluate]
    refine (RowTerm.evaluate_twin hcalls hrows _ hrow).bind fun r r' hr => ?_
    refine (hcalls.projection _ _ _ _ hp hr).bind fun ss ss' hss => .ok ?_
    refine List.forall₂_map_left_iff.mpr (List.forall₂_map_right_iff.mpr ?_)
    exact hss.imp fun s s' hs => hs.under _
  | callProjection hquery hrow =>
    simp only [SelectionTerm.evaluate]
    exact (QueryTerm.evaluate_twin hcalls hrows _ hquery).bind fun q q' hq =>
      (RowTerm.evaluate_twin hcalls hrows _ hrow).bind fun r r' hr =>
      (Agree.elementAt hq.parts.projections _).bind fun p p' hp =>
      hcalls.projection _ _ _ _ hp hr

end

/-! ### Calls -/

theorem Captured.refl (rows : List Row) : Captured R none rows rows := by
  induction rows with
  | nil => exact .nil
  | cons r rows ih =>
    have hrow : Row.Twin R r r := .refl r
    exact ih.cons hrow

namespace Calls

/-- Calls as deep as `within`, except that no callback calls one of the filters `spared` by
hand for a row that it has fetched. -/
def sparing (spared : Predicate → Bool) : (depth : Nat) → Calls
  | 0 => ⟨fun _ _ => .error .tooDeep, fun _ _ => .error .tooDeep⟩
  | depth + 1 =>
    { predicate := fun p row =>
        if row.fetched && spared p then .error .missing else p.apply (sparing spared depth) row
      projection := fun p row => p.apply (sparing spared depth) row }

end Calls

/-! ### What twin callbacks are -/

theorem Predicate.Twin.cases {p p' : Predicate} (h : p.Twin R p') :
    (∃ own, p.body.ReadsAs R (deeper own) p'.body ∧ Captured R own p.captured p'.captured) ∨
    ∃ filter : Predicate, p = ⟨.call filter R.mergedRow, []⟩ ∧
      filter.body.ReadsAs R (some 0) p'.body ∧ Captured R none filter.captured p'.captured ∧
      R.spared p' = true := by
  cases h with
  | refl => exact .inl ⟨none, p.body.readsAs_refl R, .refl _⟩
  | closure hbody hcaptured => exact .inl ⟨_, hbody, hcaptured⟩
  | merged hbody hcaptured hspared => exact .inr ⟨_, rfl, hbody, hcaptured, hspared⟩

theorem Projection.Twin.cases {p p' : Projection} (h : p.Twin R p') :
    ∃ own, List.Forall₂ (SelectionTerm.ReadsAs R (deeper own)) p.body p'.body ∧
      Captured R own p.captured p'.captured := by
  cases h with
  | refl => exact ⟨none, twins_refl (SelectionTerm.readsAs_refl R) _, .refl _⟩
  | closure hlength hbody hcaptured => exact ⟨_, forall₂_zip hlength hbody, hcaptured⟩

theorem Sorting.Twin.cases {s s' : Sorting} (h : s.Twin R s') :
    ∃ own, List.Forall₂ (fun t t' : SortTerm => t'.direction = t.direction ∧
      t.expr.ReadsAs R (deeper own) t'.expr) s.body s'.body ∧
      Captured R own s.captured s'.captured := by
  cases h with
  | refl => exact ⟨none, twins_refl (fun t => ⟨rfl, t.readsAs_refl R⟩) _, .refl _⟩
  | closure hdirections hbody hcaptured =>
    exact ⟨_, forall₂_zip_of_map hdirections hbody, hcaptured⟩

section
variable {calls calls' : Calls} {r r' : Row}

theorem Projection.Twin.apply {p p' : Projection} (h : p.Twin R p') (hcalls : calls.Agree R calls')
    (hr : r.Twin R r') :
    Agree (List.Forall₂ (Selection.Twin R)) (p.apply calls r) (p'.apply calls' r') := by
  obtain ⟨own, hbody, hcaptured⟩ := h.cases
  refine (QueryBuilder.Agree.mapM hbody fun t t' ht =>
    t.evaluate_twin hcalls (.cons hr hcaptured) ht).bind fun ss ss' hss => ?_
  exact .ok (List.rel_flatten hss)

theorem Sorting.Twin.apply {s s' : Sorting} (h : s.Twin R s') (hcalls : calls.Agree R calls')
    (hr : r.Twin R r') :
    Agree (List.Forall₂ (SortKey.Twin R)) (s.apply calls r) (s'.apply calls' r') := by
  obtain ⟨own, hbody, hcaptured⟩ := h.cases
  refine QueryBuilder.Agree.mapM hbody fun t t' ht => ?_
  exact (t.expr.evaluate_twin hcalls (.cons hr hcaptured) ht.2).bind fun e e' he => .ok ⟨he, ht.1⟩

end

namespace Calls

/-- Calls of twin callbacks agree. A merged filter calls the filter that it is made of, and so
takes one call more than the other side does. -/
theorem agree_sparing (R : Reading) {depth depth' : Nat} (hdepth : depth ≤ depth') :
    (within depth).Agree R (sparing R.spared depth') ∧
    ∀ (p p' : Predicate) (r r' : Row), p.Twin R p' → r.Twin R r' → r.fetched = false →
      QueryBuilder.Agree (Expr.Twin R) (p.apply (within depth) r)
        (p'.apply (sparing R.spared depth') r') := by
  induction depth generalizing depth' with
  | zero =>
    have hcalls : (within 0).Agree R (sparing R.spared depth') :=
      ⟨fun _ _ _ _ _ _ => .tooDeep, fun _ _ _ _ _ _ => .tooDeep⟩
    refine ⟨hcalls, fun p p' r r' hp hr _ => ?_⟩
    rcases hp.cases with ⟨own, hbody, hcaptured⟩ | ⟨filter, rfl, -⟩
    · exact p.body.evaluate_twin hcalls (.cons hr hcaptured) hbody
    · exact .tooDeep
  | succ depth ih =>
    have hcalls : (within (depth + 1)).Agree R (sparing R.spared depth') := by
      obtain ⟨below, rfl⟩ : ∃ below, depth' = below + 1 := ⟨depth' - 1, by omega⟩
      have hbelow : depth ≤ below := by omega
      obtain ⟨hagree, happly⟩ := ih hbelow
      refine ⟨fun p p' r r' hp hr => ?_, fun p p' r r' hp hr => hp.apply hagree hr⟩
      simp only [within, sparing]
      split
      · exact .missing
      · rename_i hspared
        rcases hp.cases with ⟨own, hbody, hcaptured⟩ | ⟨filter, rfl, -, -, hspare⟩
        · exact p.body.evaluate_twin hagree (.cons hr hcaptured) hbody
        · refine happly _ _ _ _ hp hr ?_
          simpa [hr.fetched_eq, hspare] using hspared
    refine ⟨hcalls, fun p p' r r' hp hr hfetched => ?_⟩
    rcases hp.cases with ⟨own, hbody, hcaptured⟩ | ⟨filter, rfl, hbody, hcaptured, -⟩
    · exact p.body.evaluate_twin hcalls (.cons hr hcaptured) hbody
    · -- The filter is called with the merged row; on the other side its body runs at once.
      have hbelow : depth ≤ depth' := by omega
      exact filter.body.evaluate_twin (ih hbelow).1 (.own hr hfetched hcaptured) hbody

end Calls

end QueryBuilder
