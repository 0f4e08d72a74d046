import QueryBuilder.Proofs.Callbacks
import QueryBuilder.Proofs.Conditions

/-! Joining a query in place of its table.

Flattening is decided when a query is joined: an inner join takes the table of a query
that filters it, and the filters are called with those of the joining query, after all
joins. Whatever is joined later is joined in the same way as it would be to the query
kept as a nested source.

The two have the same rows where all later joins are inner joins or left joins. A later
right join or full join keeps tuples without a row, with nulls for the columns of the
table. The nested query was filtered before that, and the rows stay; the merged filters
see the nulls, do not hold, and drop them. -/
namespace QueryBuilder
namespace Query

/-- Joins a query, kept as it is. -/
def joinNested (q target : Query) (options : JoinOptions) : Except Error Query := do
  let base := target.name.getD target.defaultSource
  let label ← q.claimAlias base options.label
  let on ← q.conditionOf options target.defaultRelation base label
  .ok (q.attach ⟨label, .nested target⟩ ⟨label, options.kind, on⟩)

/-- Joins one after the other. -/
def joinAll (q : Query) : List (JoinTarget × JoinOptions) → Except Error Query
  | [] => .ok q
  | (target, options) :: rest => do
    let joined ← q.join target options
    joined.joinAll rest

/-! ### The same joins

Of two queries one has joined `target` as it is, the other its table, both as an inner join
under `label`. -/

/-- `n` joins the query where `f` joins the table; `later` are the kinds of the joins behind. -/
structure Flattens (target : Query) (label : String) (table : DataSource) (later : List JoinKind)
    (n f : Query) : Prop where
  shape_eq : f.shape = n.shape
  source_eq : ∀ other, other ≠ label → f.source? other = n.source? other
  nested : n.source? label = some (.nested target)
  merged : f.source? label = some table
  joins_eq : f.joins = n.joins
  joins : ∃ front on back, n.joins = front ++ ⟨label, .inner, on⟩ :: back ∧
    label ∉ n.baseSource :: front.map (·.label) ∧ (∀ j ∈ back, j.label ≠ label) ∧
    back.map (·.kind) = later
  filters : ∃ before after, n.filters = before ++ after ∧
    f.filters = before ++ target.mergedFilters label ++ after
  all : n.projections = [] ∧ f.projections = []
  base_eq : f.baseSource = n.baseSource
  default_eq : f.defaultSource = n.defaultSource
  default_ne : n.defaultSource ≠ label
  context_eq : f.context = n.context

theorem source?_absorb (q target : Query) (under label : String) :
    (q.absorb target under).source? label = q.source? label := rfl

theorem shape_absorb (q target : Query) (under : String) :
    (q.absorb target under).shape = q.shape := rfl

/-- A query that projects everything goes on to do so. -/
theorem absorb_projections {q : Query} (h : q.projections = []) (target : Query) (under : String) :
    (q.absorb target under).projections = [] := by
  unfold absorb
  simp [h]

theorem source?_eq_none {q : Query} {label : String} (h : q.isTaken label = false) :
    q.source? label = none := by
  unfold isTaken hasSource at h
  rw [Bool.or_eq_false_iff] at h
  simpa using h.1

namespace Flattens
variable {target : Query} {label : String} {table : DataSource} {later : List JoinKind}
  {n f : Query}

theorem isTaken_eq (h : Flattens target label table later n f) : f.isTaken = n.isTaken := by
  funext other
  unfold isTaken
  rw [h.context_eq, hasSource_of_shape h.shape_eq]

theorem claimAlias_eq (h : Flattens target label table later n f) :
    f.claimAlias = n.claimAlias := by
  funext fallback requested
  unfold claimAlias
  rw [h.isTaken_eq]

theorem defaultRelation_eq (h : Flattens target label table later n f) :
    f.defaultRelation = n.defaultRelation := by
  rw [f.defaultRelation_eq, n.defaultRelation_eq, h.default_eq, h.source_eq _ h.default_ne]

theorem conditionOf_eq (h : Flattens target label table later n f) :
    f.conditionOf = n.conditionOf := by
  funext options relation name other
  unfold conditionOf derivedCondition
  rw [h.defaultRelation_eq, h.default_eq]

theorem attach (h : Flattens target label table later n f) {other : String}
    (hfree : n.isTaken other = false) (data : DataSource) (kind : JoinKind) (on : Predicate) :
    Flattens target label table (later ++ [kind])
      (n.attach ⟨other, data⟩ ⟨other, kind, on⟩) (f.attach ⟨other, data⟩ ⟨other, kind, on⟩) := by
  have hne : other ≠ label := by
    rintro rfl
    have hnone := source?_eq_none hfree
    rw [h.nested] at hnone
    simp at hnone
  refine
    { shape_eq := ?_
      source_eq := ?_
      nested := ?_
      merged := ?_
      joins_eq := congrArg (· ++ _) h.joins_eq
      joins := ?_
      filters := h.filters
      all := h.all
      base_eq := h.base_eq
      default_eq := h.default_eq
      default_ne := h.default_ne
      context_eq := h.context_eq }
  · rw [shape_attach, shape_attach, h.shape_eq]
  · intro l hl
    rw [source?_attach, source?_attach, h.source_eq l hl]
  · rw [source?_attach, h.nested]
    rfl
  · rw [source?_attach, h.merged]
    rfl
  · obtain ⟨front, on', back, hjoins, hfront, hback, hkinds⟩ := h.joins
    refine ⟨front, on', back ++ [⟨other, kind, on⟩], ?_, hfront, ?_, ?_⟩
    · show n.joins ++ [_] = _
      rw [hjoins, List.append_assoc, List.cons_append]
    · intro j hj
      rcases List.mem_append.mp hj with hj | hj
      · exact hback j hj
      · obtain rfl := List.mem_singleton.mp hj
        exact hne
    · rw [List.map_append, hkinds]
      rfl

theorem absorb (h : Flattens target label table later n f) (other : Query) (under : String) :
    Flattens target label table later (n.absorb other under) (f.absorb other under) := by
  obtain ⟨before, after, hn, hf⟩ := h.filters
  obtain ⟨hall, hall'⟩ := h.all
  refine
    { h with
      filters := ⟨before, after ++ other.mergedFilters under, ?_, ?_⟩
      all := ⟨absorb_projections hall other under, absorb_projections hall' other under⟩ }
  · show n.filters ++ _ = _
    rw [hn, List.append_assoc]
  · show f.filters ++ _ = _
    rw [hf]
    simp only [List.append_assoc]

/-! Whatever is joined to the one can be joined to the other. -/

variable {options : JoinOptions} {f' : Query}

theorem joinAssociation (h : Flattens target label table later n f) {name : String}
    (hf : f.joinAssociation name options = .ok f') :
    ∃ n', n.joinAssociation name options = .ok n' ∧
      Flattens target label table (later ++ [options.kind]) n' f' := by
  unfold Query.joinAssociation at hf ⊢
  rw [h.defaultRelation_eq, h.claimAlias_eq, h.default_eq] at hf
  cases hrelation : n.defaultRelation with
  | none =>
    rw [hrelation] at hf
    simp at hf
  | some relation =>
    rw [hrelation] at hf
    simp only [except_bind_eq_ok_iff] at hf ⊢
    obtain ⟨association, hassociation, other, hother, alias', hclaim, hf⟩ := hf
    obtain rfl := Except.ok.inj hf
    refine ⟨_, ⟨association, hassociation, other, hother, alias', hclaim, rfl⟩, ?_⟩
    exact h.attach (not_taken_of_claimAlias hclaim) _ _ _

theorem joinTable (h : Flattens target label table later n f) {name : String}
    (hf : f.joinTable name options = .ok f') :
    ∃ n', n.joinTable name options = .ok n' ∧
      Flattens target label table (later ++ [options.kind]) n' f' := by
  unfold Query.joinTable at hf ⊢
  rw [h.claimAlias_eq] at hf
  simp only [except_bind_eq_ok_iff] at hf ⊢
  obtain ⟨alias', hclaim, hf⟩ := hf
  cases hon : options.on with
  | none =>
    rw [hon] at hf
    simp at hf
  | some on =>
    rw [hon] at hf
    obtain rfl := Except.ok.inj hf
    refine ⟨_, ⟨alias', hclaim, rfl⟩, ?_⟩
    exact h.attach (not_taken_of_claimAlias hclaim) _ _ _

theorem joinRelation (h : Flattens target label table later n f) {relation : RelationRef}
    (hf : f.joinRelation relation options = .ok f') :
    ∃ n', n.joinRelation relation options = .ok n' ∧
      Flattens target label table (later ++ [options.kind]) n' f' := by
  rw [joinRelation_eq] at hf ⊢
  rw [h.claimAlias_eq, h.conditionOf_eq] at hf
  simp only [except_bind_eq_ok_iff] at hf ⊢
  obtain ⟨alias', hclaim, on, hon, hf⟩ := hf
  obtain rfl := Except.ok.inj hf
  refine ⟨_, ⟨alias', hclaim, on, hon, rfl⟩, ?_⟩
  exact h.attach (not_taken_of_claimAlias hclaim) _ _ _

theorem joinQuery (h : Flattens target label table later n f) {other : Query}
    (hf : f.joinQuery other options = .ok f') :
    ∃ n', n.joinQuery other options = .ok n' ∧
      Flattens target label table (later ++ [options.kind]) n' f' := by
  rw [joinQuery_eq] at hf ⊢
  rw [h.claimAlias_eq, h.conditionOf_eq] at hf
  simp only [except_bind_eq_ok_iff] at hf ⊢
  obtain ⟨alias', hclaim, on, hon, hf⟩ := hf
  have hattach := h.attach (not_taken_of_claimAlias hclaim)
  cases hmerge : other.mergeableTable options.kind with
  | none =>
    rw [hmerge] at hf
    obtain rfl := Except.ok.inj hf
    exact ⟨_, ⟨alias', hclaim, on, hon, rfl⟩, hattach _ _ _⟩
  | some table' =>
    rw [hmerge] at hf
    obtain rfl := Except.ok.inj hf
    exact ⟨_, ⟨alias', hclaim, on, hon, rfl⟩, (hattach _ _ _).absorb _ _⟩

theorem join (h : Flattens target label table later n f) {what : JoinTarget}
    (hf : f.join what options = .ok f') :
    ∃ n', n.join what options = .ok n' ∧
      Flattens target label table (later ++ [options.kind]) n' f' := by
  cases what with
  | association name => exact h.joinAssociation hf
  | table name => exact h.joinTable hf
  | relation relation => exact h.joinRelation hf
  | query other => exact h.joinQuery hf

theorem joinAll (h : Flattens target label table later n f)
    {further : List (JoinTarget × JoinOptions)} (hf : f.joinAll further = .ok f') :
    ∃ n', n.joinAll further = .ok n' ∧
      Flattens target label table (later ++ further.map (·.2.kind)) n' f' := by
  induction further generalizing later n f with
  | nil =>
    obtain rfl := Except.ok.inj hf
    refine ⟨n, rfl, ?_⟩
    rw [List.map_nil, List.append_nil]
    exact h
  | cons step further ih =>
    obtain ⟨what, options⟩ := step
    obtain ⟨f₁, hfirst, hrest⟩ := except_bind_eq_ok_iff.mp hf
    obtain ⟨n₁, hn₁, h₁⟩ := h.join hfirst
    obtain ⟨n', hn', h'⟩ := ih h₁ hrest
    refine ⟨n', except_bind_eq_ok_iff.mpr ⟨n₁, hn₁, hn'⟩, ?_⟩
    rw [List.append_assoc] at h'
    exact h'

end Flattens

/-- The table of a query that may be merged is the relation behind the query. -/
theorem relation_of_mergeableTable {q : Query} {kind : JoinKind} {table : DataSource}
    (hq : q.Regular) (h : q.mergeableTable kind = some table) :
    table.relation = q.defaultRelation := by
  obtain ⟨name, relation, rest, hsources, -⟩ := hq.sources
  have hrelation : q.defaultRelation = relation := by
    rw [q.defaultRelation_eq, hq.default_eq]
    unfold source?
    rw [hsources]
    simp [DataSource.relation]
  unfold mergeableTable at h
  rw [hsources] at h
  cases rest with
  | cons => simp at h
  | nil =>
    simp only [Option.ite_none_right_eq_some] at h
    obtain rfl := Option.some.inj h.2
    exact hrelation.symm

/-- An inner join of a query that can be merged starts with nothing joined behind it. -/
theorem flattens_of_joinQuery {q target f : Query} {options : JoinOptions} {table : DataSource}
    (hq : q.Regular) (hprojections : q.projections = []) (htarget : target.Regular)
    (hkind : options.kind = .inner) (hmerge : target.mergeableTable options.kind = some table)
    (hf : q.joinQuery target options = .ok f) :
    ∃ label n, q.claimAlias (target.name.getD target.defaultSource) options.label = .ok label ∧
      q.joinNested target options = .ok n ∧ Flattens target label table [] n f := by
  rw [joinQuery_eq] at hf
  unfold joinNested
  simp only [except_bind_eq_ok_iff] at hf ⊢
  obtain ⟨label, hclaim, on, hon, hf⟩ := hf
  rw [hmerge] at hf
  obtain rfl := Except.ok.inj hf
  have hfree := not_taken_of_claimAlias hclaim
  have hnew := not_mem_labels_of_isTaken hfree
  rw [hq.labels_eq] at hnew
  refine ⟨label, _, hclaim, ⟨label, hclaim, on, hon, rfl⟩, ?_⟩
  refine
    { shape_eq := ?_
      source_eq := ?_
      nested := ?_
      merged := ?_
      joins_eq := rfl
      joins := ?_
      filters := ⟨q.filters, [], ?_, ?_⟩
      all := ⟨hprojections, absorb_projections hprojections target label⟩
      base_eq := rfl
      default_eq := rfl
      default_ne := ?_
      context_eq := rfl }
  · rw [shape_absorb, shape_attach, shape_attach, relation_of_mergeableTable htarget hmerge]
    rfl
  · intro other hother
    rw [source?_absorb, source?_attach, source?_attach]
    simp [Ne.symm hother]
  · rw [source?_attach, source?_eq_none hfree]
    simp
  · rw [source?_absorb, source?_attach, source?_eq_none hfree]
    simp
  · refine ⟨q.joins, on, [], ?_, hnew, by simp, rfl⟩
    show q.joins ++ [_] = _
    rw [hkind]
  · exact (List.append_nil _).symm
  · exact (List.append_nil _).symm
  · show q.defaultSource ≠ label
    rw [hq.default_eq]
    rintro rfl
    exact hnew (List.mem_cons_self ..)

/-- The table of a query that may be merged and projects everything. -/
theorem plain?_of_mergeableTable {q : Query} {kind : JoinKind} {table : DataSource}
    (hq : q.Regular) (hall : q.projections = []) (h : q.mergeableTable kind = some table) :
    ∃ name relation, table = .table name relation ∧ q.plain? = some (q.baseSource, name) := by
  obtain ⟨name, relation, rest, hsources, hrest⟩ := hq.sources
  unfold mergeableTable at h
  unfold plain?
  rw [hsources] at h ⊢
  cases rest with
  | cons => simp at h
  | nil =>
    simp only [Option.ite_none_right_eq_some, Bool.and_eq_true] at h
    obtain ⟨⟨⟨⟨-, hjoins⟩, hsorting⟩, hlimit⟩, htable⟩ := h
    obtain rfl := Option.some.inj htable
    refine ⟨name, relation, rfl, ?_⟩
    simp [hall, hjoins, hsorting, hlimit]

end Query

/-! ### The same rows -/

section
variable {V : Type} {m : Meaning V} {calls : Calls} {n f : Query}

/-- The conditions of the first query mean the same when they are called for the second. -/
def Meaning.SameConditions (m : Meaning V) (calls : Calls) (n f : Query) : Prop :=
  ∀ p, (p ∈ n.filters ∨ ∃ j ∈ n.joins, j.on = p) →
    ∀ e, p.apply calls (Row.ofQuery n) = .ok e →
      ∃ e', p.apply calls (Row.ofQuery f) = .ok e' ∧ ∀ row, m.value row e' = m.value row e

/-- Plain callbacks mean the same for queries of one shape. -/
theorem Meaning.sameConditions_of_plain (m : Meaning V) (hshape : f.shape = n.shape)
    (hcontext : f.context = n.context) (hdefault : f.defaultSource = n.defaultSource)
    (hfilters : ∀ p ∈ n.filters, p.body.Plain) (hjoins : ∀ j ∈ n.joins, j.on.body.Plain)
    (depth : Nat) : m.SameConditions (.within depth) n f := by
  intro p hp e he
  have hplain : p.body.Plain := by
    rcases hp with hp | ⟨j, hj, rfl⟩
    · exact hfilters p hp
    · exact hjoins j hj
  have hrow := Row.Alike.ofQuery hshape hcontext hdefault
  exact ⟨e, p.apply_of_alike hplain hrow he, fun _ => rfl⟩

theorem Meaning.SameConditions.exists_conditions (h : m.SameConditions calls n f)
    {filters : List Predicate} (hfilters : ∀ p ∈ filters, p ∈ n.filters)
    {conditions : List (Expr Query)}
    (hn : filters.mapM (·.apply calls (Row.ofQuery n)) = .ok conditions) :
    ∃ conditions', filters.mapM (·.apply calls (Row.ofQuery f)) = .ok conditions' ∧
      m.holdAll conditions' = m.holdAll conditions := by
  induction filters generalizing conditions with
  | nil =>
    obtain rfl := except_pure_eq_ok_iff.mp hn
    exact ⟨[], rfl, rfl⟩
  | cons p filters ih =>
    obtain ⟨e, rest, he, hrest, rfl⟩ := except_mapM_cons_eq_ok_iff.mp hn
    obtain ⟨e', he', hvalue⟩ := h p (.inl (hfilters p (List.mem_cons_self ..))) e he
    obtain ⟨rest', hrest', hholds⟩ := ih (fun p hp => hfilters p (List.mem_cons_of_mem _ hp)) hrest
    refine ⟨e' :: rest', except_mapM_cons_eq_ok_iff.mpr ⟨e', rest', he', hrest', rfl⟩, ?_⟩
    funext row
    have hrow := congrFun hholds row
    unfold Meaning.holdAll Meaning.holds at hrow ⊢
    rw [List.all_cons, List.all_cons, hrow, hvalue]

namespace Query.Flattens
variable {target : Query} {label : String} {table : DataSource} {later : List JoinKind}

theorem tuplesOf_eq (h : Flattens target label table later n f) {other : String}
    (hother : other ≠ label) : f.tuplesOf m calls other = n.tuplesOf m calls other := by
  unfold tuplesOf
  rw [h.source_eq other hother]

theorem exists_step (h : Flattens target label table later n f) (hsame : m.SameConditions calls n f)
    {join : JoinClause} (hjoin : join ∈ n.joins) (hother : join.label ≠ label) {step : JoinStep V}
    (hstep : n.step m calls join = .ok step) :
    ∃ step', f.step m calls join = .ok step' ∧ m.SameStep step step' := by
  obtain ⟨tuples, on, htuples, hon, rfl⟩ := step_eq_ok_iff.mp hstep
  obtain ⟨on', hon', hvalue⟩ := hsame join.on (.inr ⟨join, hjoin, rfl⟩) on hon
  rw [← h.tuplesOf_eq hother] at htuples
  refine ⟨_, step_eq_ok_iff.mpr ⟨tuples, on', htuples, hon', rfl⟩, ?_⟩
  exact ⟨rfl, rfl, rfl, hvalue⟩

theorem exists_steps (h : Flattens target label table later n f)
    (hsame : m.SameConditions calls n f) {joins : List JoinClause}
    (hjoins : ∀ j ∈ joins, j ∈ n.joins ∧ j.label ≠ label) {steps : List (JoinStep V)}
    (hsteps : joins.mapM (n.step m calls) = .ok steps) :
    ∃ steps', joins.mapM (f.step m calls) = .ok steps' ∧
      List.Forall₂ (m.SameStep) steps steps' := by
  induction joins generalizing steps with
  | nil =>
    obtain rfl := except_pure_eq_ok_iff.mp hsteps
    exact ⟨[], rfl, .nil⟩
  | cons j joins ih =>
    obtain ⟨step, rest, hstep, hrest, rfl⟩ := except_mapM_cons_eq_ok_iff.mp hsteps
    obtain ⟨hmem, hother⟩ := hjoins j (List.mem_cons_self ..)
    obtain ⟨step', hstep', hsame'⟩ := h.exists_step hsame hmem hother hstep
    obtain ⟨rest', hrest', hall⟩ := ih (fun j hj => hjoins j (List.mem_cons_of_mem _ hj)) hrest
    exact ⟨step' :: rest', except_mapM_cons_eq_ok_iff.mpr ⟨step', rest', hstep', hrest', rfl⟩,
      .cons hsame' hall⟩

/-- The tuples of the query that one of them has joined, and the table of the other. -/
theorem exists_tuples {name : String} {relation : Option RelationRef}
    (h : Flattens target label (.table name relation) later n f)
    (hplain : target.plain? = some (target.baseSource, name)) {tuples : List (Tuple V)}
    (htuples : n.tuplesOf m calls label = .ok tuples) :
    f.tuplesOf m calls label = .ok (m.table name) ∧
      ∃ conditions, target.conditions calls = .ok conditions ∧
        tuples = (m.table name).filter fun t => m.holdAll conditions [(target.baseSource, t)] := by
  unfold tuplesOf at htuples ⊢
  rw [h.nested] at htuples
  rw [h.merged]
  unfold DataSource.tuples at htuples
  simp only [hplain, except_bind_eq_ok_iff, except_pure_eq_ok_iff] at htuples
  obtain ⟨conditions, hconditions, rfl⟩ := htuples
  exact ⟨rfl, conditions, hconditions, rfl⟩

/-- Of the joins, only that of the target differs, in the tuples that are joined. -/
theorem exists_steps_filter {name : String} {relation : Option RelationRef}
    (h : Flattens target label (.table name relation) later n f)
    (hplain : target.plain? = some (target.baseSource, name)) (hsame : m.SameConditions calls n f)
    {steps : List (JoinStep V)} (hsteps : n.joins.mapM (n.step m calls) = .ok steps) :
    ∃ (conditions : List (Expr Query)) (front back : List (JoinStep V)) (step : JoinStep V),
      target.conditions calls = .ok conditions ∧
      steps = front ++
        step.filter (fun t => m.holdAll conditions [(target.baseSource, t)]) :: back ∧
      step.kind = .inner ∧ step.label = label ∧
      label ∉ [n.baseSource] ++ front.map (·.label) ∧ back.map (·.kind) = later ∧
      ∃ steps', f.joins.mapM (f.step m calls) = .ok steps' ∧
        List.Forall₂ m.SameStep (front ++ step :: back) steps' := by
  obtain ⟨frontJoins, on, backJoins, hjoins, hnew, hback, hkinds⟩ := h.joins
  have hfront : ∀ j ∈ frontJoins, j ∈ n.joins ∧ j.label ≠ label := by
    intro j hj
    refine ⟨by simp [hjoins, hj], ?_⟩
    rintro rfl
    exact hnew (List.mem_cons_of_mem _ (List.mem_map_of_mem hj))
  have hbehind : ∀ j ∈ backJoins, j ∈ n.joins ∧ j.label ≠ label := by
    intro j hj
    exact ⟨by simp [hjoins, hj], hback j hj⟩
  rw [hjoins] at hsteps
  obtain ⟨front, rest, hfrontSteps, hrest, rfl⟩ := except_mapM_append_eq_ok_iff.mp hsteps
  obtain ⟨filtered, back, hfiltered, hbackSteps, rfl⟩ := except_mapM_cons_eq_ok_iff.mp hrest
  obtain ⟨tuples, e, htuples, he, rfl⟩ := step_eq_ok_iff.mp hfiltered
  obtain ⟨hmerged, conditions, hconditions, rfl⟩ := h.exists_tuples hplain htuples
  obtain ⟨front', hfront', hsameFront⟩ := h.exists_steps hsame hfront hfrontSteps
  obtain ⟨back', hback', hsameBack⟩ := h.exists_steps hsame hbehind hbackSteps
  obtain ⟨e', he', hvalue⟩ := hsame on (.inr ⟨⟨label, .inner, on⟩, by simp [hjoins], rfl⟩) e he
  refine ⟨conditions, front, back, ⟨.inner, label, m.table name, e⟩, hconditions, rfl, rfl, rfl,
    ?_, ?_, front' ++ ⟨.inner, label, m.table name, e'⟩ :: back', ?_, ?_⟩
  · rw [labels_of_steps hfrontSteps]
    exact hnew
  · rw [kinds_of_steps hbackSteps]
    exact hkinds
  · rw [h.joins_eq, hjoins]
    refine except_mapM_append_eq_ok_iff.mpr ⟨front', _, hfront', ?_, rfl⟩
    refine except_mapM_cons_eq_ok_iff.mpr ⟨_, back', ?_, hback', rfl⟩
    exact step_eq_ok_iff.mpr ⟨_, e', hmerged, he', rfl⟩
  · refine List.rel_append hsameFront (.cons ?_ hsameBack)
    exact ⟨rfl, rfl, rfl, hvalue⟩

/-- The merged filters join the others. -/
theorem exists_conditions (htarget : target.Regular) (hcompares : target.ComparesColumns)
    (h : Flattens target label table later n f) {depth : Nat}
    (hsame : m.SameConditions (.within (depth + 1)) n f) {conditions own : List (Expr Query)}
    (hconditions : n.conditions (.within (depth + 1)) = .ok conditions)
    (hown : target.conditions (.within (depth + 1)) = .ok own) :
    ∃ conditions', f.conditions (.within (depth + 1)) = .ok conditions' ∧
      ∀ row, m.holdAll conditions' row =
        (m.holdAll conditions row && m.holdAll own [(target.baseSource, m.tuple row label)]) := by
  obtain ⟨before, after, hn, hf⟩ := h.filters
  unfold Query.conditions at hconditions ⊢
  rw [hn] at hconditions
  obtain ⟨first, last, hfirst, hlast, rfl⟩ := except_mapM_append_eq_ok_iff.mp hconditions
  obtain ⟨first', hfirst', hholdsFirst⟩ :=
    hsame.exists_conditions (fun p hp => by simp [hn, hp]) hfirst
  obtain ⟨last', hlast', hholdsLast⟩ :=
    hsame.exists_conditions (fun p hp => by simp [hn, hp]) hlast
  have hmerged := conditions_merged htarget hcompares hown (r := Row.ofQuery f) rfl label
  refine ⟨first' ++ own.map (Expr.onSource label) ++ last', ?_, ?_⟩
  · rw [hf]
    refine except_mapM_append_eq_ok_iff.mpr ⟨_, last', ?_, hlast', rfl⟩
    exact except_mapM_append_eq_ok_iff.mpr ⟨first', _, hfirst', hmerged, rfl⟩
  · intro row
    have hexprs := own_of_conditions htarget hcompares hown
    have htuple := m.tuple_singleton target.baseSource (m.tuple row label)
    have hholds := m.holdAll_onSource (fun e he => (hexprs e he).1) htuple.symm
    simp only [Meaning.holdAll_append]
    rw [hholds, hholdsFirst, hholdsLast, Bool.and_assoc, Bool.and_assoc,
      Bool.and_comm (m.holdAll own _)]

/-- The rows of the query with the table are those of the query with `target` on whose tuple
of `target` the merged filters hold. -/
theorem rows_eq (hm : m.Standard) (htarget : target.Regular) (hcompares : target.ComparesColumns)
    {name : String} {relation : Option RelationRef}
    (h : Flattens target label (.table name relation) later n f)
    (hplain : target.plain? = some (target.baseSource, name))
    {depth : Nat} (hsame : m.SameConditions (.within (depth + 1)) n f) {rows : List (JoinedRow V)}
    (hrows : n.rows m (.within (depth + 1)) = .ok rows) :
    ∃ keep : Tuple V → Bool,
      f.rows m (.within (depth + 1)) = .ok (m.keeping keep label rows) ∧
      ((target.filters = [] ∧ ∀ t, keep t = true) ∨
        (target.filters ≠ [] ∧ keep m.nulls = false)) ∧
      ∀ P : Tuple V → Prop, (∀ t, keep t = true → P t) →
        (P m.nulls ∨ ∀ kind ∈ later, kind.keepsRight = false) →
          ∀ row ∈ rows, P (m.tuple row label) := by
  obtain ⟨base, steps, conditions, hbase, hsteps, hconditions, rfl⟩ := rows_eq_ok_iff.mp hrows
  obtain ⟨own, front, back, step, hown, rfl, hkind, rfl, hnew, rfl, steps', hsteps', hsameSteps⟩ :=
    h.exists_steps_filter hplain hsame hsteps
  obtain ⟨conditions', hconditions', hholds⟩ :=
    h.exists_conditions htarget hcompares hsame hconditions hown
  have hbase_ne : n.baseSource ≠ step.label := fun heq => hnew (by simp [heq])
  have hkeyed := keyed_base n.baseSource base
  let keep : Tuple V → Bool := fun t => m.holdAll own [(target.baseSource, t)]
  have hnulls : (target.filters = [] ∧ ∀ t, keep t = true) ∨
      (target.filters ≠ [] ∧ keep m.nulls = false) := by
    rcases conditions_cases hm htarget hcompares hown with ⟨hempty, rfl⟩ | hnulls
    · exact .inl ⟨hempty, fun _ => rfl⟩
    · exact .inr hnulls
  have hjoined : m.keeping keep step.label
      (m.joinAll [n.baseSource] (base.map fun t => [(n.baseSource, t)])
        (front ++ step.filter keep :: back)) =
      m.keeping keep step.label
        (m.joinAll [n.baseSource] (base.map fun t => [(n.baseSource, t)])
          (front ++ step :: back)) := by
    rcases hnulls with ⟨-, hall⟩ | ⟨-, hnulls⟩
    · rw [JoinStep.filter_eq_self hall]
    · exact m.keeping_filter hkeyed hkind hnew hnulls
  refine ⟨keep, ?_, hnulls, ?_⟩
  · refine rows_eq_ok_iff.mpr ⟨base, steps', conditions', ?_, hsteps', hconditions', ?_⟩
    · rw [h.base_eq, h.tuplesOf_eq hbase_ne, hbase]
    · have hsplit : m.holdAll conditions' =
          fun row => m.holdAll conditions row && keep (m.tuple row step.label) := by
        funext row
        exact hholds row
      unfold Meaning.keeping at hjoined ⊢
      rw [m.joinAll_congr hsameSteps, h.base_eq, hsplit, List.filter_comm, hjoined,
        List.filter_filter]
  · intro P hP hright row hrow
    refine m.forall_filter hkeyed hkind hnew hP ?_ row (List.mem_filter.mp hrow).1
    refine hright.imp_right fun hkinds other hother => ?_
    exact hkinds other.kind (List.mem_map_of_mem hother)

end Query.Flattens

/-- **A merged query has the rows of the query kept as it is exactly when it has no filters
or no row has nulls in its place.** Otherwise rows are lost. Without a later right join or
full join none are. The conditions have to mean the same in both, as those of plain
callbacks do. -/
theorem Query.flattening_keeps_rows_iff (hm : m.Standard) {parent target : Query}
    {options : JoinOptions} {table : DataSource} {further : List (JoinTarget × JoinOptions)}
    (hparent : parent.Regular) (hprojections : parent.projections = [])
    (htarget : target.Regular) (hall : target.projections = [])
    (hcompares : target.ComparesColumns) (hkind : options.kind = .inner)
    (hmerge : target.mergeableTable .inner = some table)
    (hf : parent.joinAll ((.query target, options) :: further) = .ok f) :
    ∃ label n, parent.claimAlias (target.name.getD target.defaultSource) options.label = .ok label ∧
      (parent.joinNested target options >>= (·.joinAll further)) = .ok n ∧
      n.projections = [] ∧ f.projections = [] ∧
      ((∀ p ∈ n.filters, p.body.Plain) → (∀ j ∈ n.joins, j.on.body.Plain) →
        m.SameConditions .deep n f) ∧
      (m.SameConditions .deep n f → ∀ rows, n.rows m .deep = .ok rows →
        ∃ rows', f.rows m .deep = .ok rows' ∧ rows'.Sublist rows ∧
          (rows'.Perm rows ↔
            target.filters = [] ∨ ∀ row ∈ rows, m.tuple row label ≠ m.nulls) ∧
          ((∀ join ∈ further, join.2.kind.keepsRight = false) → rows' = rows)) := by
  obtain ⟨first, hfirst, hrest⟩ := except_bind_eq_ok_iff.mp hf
  rw [← hkind] at hmerge
  obtain ⟨label, start, hclaim, hstart, hflattens⟩ :=
    flattens_of_joinQuery hparent hprojections htarget hkind hmerge hfirst
  obtain ⟨n, hn, h⟩ := hflattens.joinAll hrest
  refine ⟨label, n, hclaim, except_bind_eq_ok_iff.mpr ⟨start, hstart, hn⟩, h.all.1, h.all.2, ?_, ?_⟩
  · intro hfilters hjoins
    exact m.sameConditions_of_plain h.shape_eq h.context_eq h.default_eq hfilters hjoins _
  intro hsame rows hrows
  obtain ⟨name, relation, rfl, hplain⟩ := plain?_of_mergeableTable htarget hall hmerge
  obtain ⟨depth, hdepth⟩ : ∃ depth, Calls.deep = .within (depth + 1) := ⟨999999, rfl⟩
  rw [hdepth] at hsame hrows ⊢
  obtain ⟨keep, hrows', hnulls, hforall⟩ := h.rows_eq hm htarget hcompares hplain hsame hrows
  have hall_kept : (∀ row ∈ rows, keep (m.tuple row label) = true) →
      m.keeping keep label rows = rows := List.filter_eq_self.mpr
  refine ⟨_, hrows', List.filter_sublist, ?_, ?_⟩
  · constructor
    · intro hperm
      rcases hnulls with ⟨hempty, -⟩ | ⟨-, hnulls⟩
      · exact .inl hempty
      · have hkept := List.filter_eq_self.mp (List.filter_sublist.eq_of_length hperm.length_eq)
        refine .inr fun row hrow hnull => ?_
        have := hkept row hrow
        rw [hnull, hnulls] at this
        simp at this
    · intro hrows_kept
      rw [hall_kept]
      rcases hnulls with ⟨-, hkeep⟩ | ⟨hfilters, -⟩
      · exact fun row _ => hkeep _
      · rcases hrows_kept with hempty | hno_nulls
        · exact absurd hempty hfilters
        · intro row hrow
          -- In every row the filters hold, or the tuple is missing.
          have hcases := hforall (fun t => keep t = true ∨ t = m.nulls) (fun _ => .inl)
            (.inl (.inr rfl)) row hrow
          exact hcases.resolve_right (hno_nulls row hrow)
  · intro hkinds
    refine hall_kept (hforall (keep · = true) (fun _ => id) (.inr ?_))
    intro kind hmem
    obtain ⟨join, hjoin, rfl⟩ := List.mem_map.mp hmem
    exact hkinds join hjoin

end

/-! ### Late stops -/

namespace Transit

/-- Two trips, the second of which has a late stop, and two routes, one without trips. -/
def database : String → List (Tuple Cell)
  | "trips" =>
    [Cell.tuple [("id", .number 1), ("route", .number 1)],
      Cell.tuple [("id", .number 2), ("route", .number 2)]]
  | "stops" =>
    [Cell.tuple [("trip", .number 1), ("delay", .number 0)],
      Cell.tuple [("trip", .number 2), ("delay", .number 5)]]
  | "routes" => [Cell.tuple [("id", .number 2)], Cell.tuple [("id", .number 3)]]
  | _ => []

def trips : Query := .ofTable "trips"

def lateStops : Query :=
  (Query.ofTable "stops").filter
    ⟨.apply .gt (.column (.up 0) none "delay") (.value (.raw "0")), []⟩

/-- Joins the stops of a trip. -/
def stopping : JoinOptions where
  on := some ⟨.apply .eq (.column (.up 0) (some "stops") "trip") (.column (.up 0) none "id"), []⟩

/-- Joins the route of a trip. -/
def routed (kind : JoinKind) : List (JoinTarget × JoinOptions) :=
  [(.table "routes",
    { kind
      on := some
        ⟨.apply .eq (.column (.up 0) (some "routes") "id") (.column (.up 0) none "route"), []⟩ })]

theorem regular_trips : trips.Regular := Query.regular_ofSource _ _ _

theorem regular_lateStops : lateStops.Regular :=
  (Query.regular_ofSource _ _ _).of_eq rfl rfl rfl rfl rfl

theorem lateStops_comparesColumns : lateStops.ComparesColumns where
  own p hp := by
    obtain rfl := List.mem_singleton.mp hp
    exact .apply (.column (.inl rfl)) (.value rfl rfl)
  strict p hp calls e he := by
    obtain rfl := List.mem_singleton.mp hp
    obtain rfl := Except.ok.inj he
    exact .left rfl (.column _)

/-- The late stops joined by their table, and then the routes. -/
def merged (kind : JoinKind) : Except Error Query :=
  trips.joinAll ((.query lateStops, stopping) :: routed kind)

/-- The late stops joined as they are, and then the routes. -/
def kept (kind : JoinKind) : Except Error Query :=
  trips.joinNested lateStops stopping >>= (·.joinAll (routed kind))

theorem sameConditions {kind : JoinKind} {f n : Query} (hf : merged kind = .ok f)
    (hn : kept kind = .ok n) (m : Meaning Cell) : m.SameConditions .deep n f := by
  obtain rfl := Except.ok.inj hf
  obtain rfl := Except.ok.inj hn
  refine m.sameConditions_of_plain ?_ ?_ ?_ ?_ ?_ _
  · rfl
  · rfl
  · rfl
  · intro p hp
    cases hp
  · intro j hj
    rcases List.mem_cons.mp hj with rfl | hj
    · exact .apply (.column (.up 0)) (.column (.up 0))
    · obtain rfl := List.mem_singleton.mp hj
      exact .apply (.column (.up 0)) (.column (.up 0))

def rowCount (q : Except Error Query) : Except Fault Nat := do
  let rows ← (← q).rows (Cell.meaning database) .deep
  return rows.length

theorem exists_rows {q : Except Error Query} {count : Nat} (h : rowCount q = .ok count) :
    ∃ q' rows, q = .ok q' ∧ q'.rows (Cell.meaning database) .deep = .ok rows ∧
      rows.length = count := by
  unfold rowCount at h
  simp only [except_bind_eq_ok_iff, except_pure_eq_ok_iff, liftError_eq_ok_iff] at h
  obtain ⟨q', hq, rows, hrows, rfl⟩ := h
  exact ⟨q', rows, hq, hrows, rfl⟩

/-- With a left join the late stop is found either way. -/
theorem left_join_keeps_late_stop : ∃ f n rows, merged .left = .ok f ∧ kept .left = .ok n ∧
    n.rows (Cell.meaning database) .deep = .ok rows ∧
    f.rows (Cell.meaning database) .deep = .ok rows ∧ rows.length = 1 := by
  have hcount : rowCount (kept .left) = .ok 1 := by decide +kernel
  obtain ⟨n, rows, hn, hrows, hlength⟩ := exists_rows hcount
  obtain ⟨f, hf⟩ : ∃ f, merged .left = .ok f := ⟨_, rfl⟩
  obtain ⟨label, n', -, hn', -, -, -, hkeeps⟩ := Query.flattening_keeps_rows_iff
    (Cell.standard_meaning database) regular_trips rfl regular_lateStops rfl
    lateStops_comparesColumns rfl rfl hf
  obtain rfl := Except.ok.inj (hn.symm.trans hn')
  obtain ⟨rows', hrows', -, -, heq⟩ := hkeeps (sameConditions hf hn _) rows hrows
  rw [heq (by simp [routed, JoinKind.keepsRight])] at hrows'
  exact ⟨f, n, rows, hf, hn, hrows, hrows', hlength⟩

/-- With a right join the route without trips is lost when the stops are merged. -/
theorem right_join_loses_route : ∃ f n rows rows', merged .right = .ok f ∧ kept .right = .ok n ∧
    (Cell.meaning database).Standard ∧ (Cell.meaning database).SameConditions .deep n f ∧
    n.rows (Cell.meaning database) .deep = .ok rows ∧
    f.rows (Cell.meaning database) .deep = .ok rows' ∧ ¬ rows'.Perm rows := by
  have hkept : rowCount (kept .right) = .ok 2 := by decide +kernel
  have hmerged : rowCount (merged .right) = .ok 1 := by decide +kernel
  obtain ⟨n, rows, hn, hrows, hlength⟩ := exists_rows hkept
  obtain ⟨f, rows', hf, hrows', hlength'⟩ := exists_rows hmerged
  refine ⟨f, n, rows, rows', hf, hn, Cell.standard_meaning database, sameConditions hf hn _, hrows,
    hrows', ?_⟩
  intro hperm
  have := hperm.length_eq
  omega

end Transit

end QueryBuilder
