import QueryBuilder.Proofs.WellFormed

/-! The rows of a query.

What a query denotes before it projects, sorts or limits: the sources are joined from
left to right, and of the joined rows those are kept on which all filters hold. A join
keeps the pairs on which its condition holds. A left join also keeps the rows that no
tuple matches, a right join the tuples that match no row, and a full join both; what is
missing is filled with nulls. A condition may be unknown, and only one that is true
holds.

The values and the operators on them are a parameter. A database gives the tuples of
tables; a nested query that filters one table has tuples of that table, and any other
nested query has whatever tuples it is given. -/
namespace QueryBuilder

/-- The joins that keep rows without a match. -/
def JoinKind.keepsLeft : JoinKind → Bool
  | inner | right => false
  | left | full => true

/-- The joins that keep tuples without a match. -/
def JoinKind.keepsRight : JoinKind → Bool
  | inner | left => false
  | right | full => true

/-- The values of a row of a table by column. -/
abbrev Tuple (V : Type) := String → V

/-- The tuples of the sources that have been joined, in this order. -/
abbrev JoinedRow (V : Type) := List (String × Tuple V)

/-- What the parts of expressions and the tables of a database mean. -/
structure Meaning (V : Type) where
  null : V
  /-- Whether a value is true; `none` stands for unknown. -/
  truth : V → Option Bool
  raw : String → V
  text : String → V
  star : Tuple V → V
  unary : (before after : String) → V → V
  binary : (before between after : String) → V → V → V
  /-- A subquery, given the tuples of the sources around it. -/
  subquery : Query → (String → Tuple V) → V
  /-- The sources of the levels around the query. -/
  outer : String → Tuple V
  table : String → List (Tuple V)
  derived : Query → List (Tuple V)

/-- A join of a source to what stands in front of it. -/
structure JoinStep (V : Type) where
  kind : JoinKind
  label : String
  tuples : List (Tuple V)
  on : Expr Query

/-- Joins only some of the tuples. -/
def JoinStep.filter {V : Type} (step : JoinStep V) (keep : Tuple V → Bool) : JoinStep V :=
  { step with tuples := step.tuples.filter keep }

namespace JoinStep
variable {V : Type} (step : JoinStep V) (keep : Tuple V → Bool)

@[simp]
theorem filter_kind : (step.filter keep).kind = step.kind := rfl

@[simp]
theorem filter_label : (step.filter keep).label = step.label := rfl

@[simp]
theorem filter_on : (step.filter keep).on = step.on := rfl

@[simp]
theorem filter_tuples : (step.filter keep).tuples = step.tuples.filter keep := rfl

variable {step keep} in
theorem filter_eq_self (h : ∀ t, keep t = true) : step.filter keep = step := by
  unfold filter
  rw [List.filter_eq_self.mpr fun t _ => h t]

end JoinStep

namespace Meaning
variable {V : Type} (m : Meaning V)

def nulls : Tuple V := fun _ => m.null

/-- The tuple of a source. -/
def tuple (row : JoinedRow V) (source : String) : Tuple V :=
  (row.lookup source).getD (m.outer source)

def value (row : JoinedRow V) : Expr Query → V
  | .column source name => m.tuple row source name
  | .star source => m.star (m.tuple row source)
  | .raw sql => m.raw sql
  | .text value => m.text value
  | .unary before operand after => m.unary before after (value row operand)
  | .binary before between after left right =>
    m.binary before between after (value row left) (value row right)
  | .subquery query => m.subquery query (m.tuple row)

def holds (e : Expr Query) (row : JoinedRow V) : Bool := m.truth (m.value row e) == some true

def holdAll (conditions : List (Expr Query)) (row : JoinedRow V) : Bool :=
  conditions.all fun e => m.holds e row

theorem holdAll_append (first second : List (Expr Query)) (row : JoinedRow V) :
    m.holdAll (first ++ second) row = (m.holdAll first row && m.holdAll second row) :=
  List.all_append

/-! ### Joining -/

/-- The row with each of the tuples that match it. -/
def pairs (step : JoinStep V) (row : JoinedRow V) : List (JoinedRow V) :=
  (step.tuples.map fun t => row ++ [(step.label, t)]).filter (m.holds step.on)

/-- What becomes of one row. -/
def extend (step : JoinStep V) (row : JoinedRow V) : List (JoinedRow V) :=
  if step.kind.keepsLeft && (m.pairs step row).isEmpty then [row ++ [(step.label, m.nulls)]]
  else m.pairs step row

/-- The tuples that match no row, with nulls for the sources in front. -/
def unmatched (step : JoinStep V) (labels : List String) (rows : List (JoinedRow V)) :
    List (JoinedRow V) :=
  if step.kind.keepsRight then
    let free := step.tuples.filter fun t =>
      rows.all fun row => !m.holds step.on (row ++ [(step.label, t)])
    free.map fun t => labels.map (·, m.nulls) ++ [(step.label, t)]
  else []

/-- One join, where `labels` are the sources in front. -/
def join (labels : List String) (rows : List (JoinedRow V)) (step : JoinStep V) :
    List (JoinedRow V) :=
  rows.flatMap (m.extend step) ++ m.unmatched step labels rows

/-- The joins from left to right. -/
def joinAll : (labels : List String) → List (JoinedRow V) → List (JoinStep V) → List (JoinedRow V)
  | _, rows, [] => rows
  | labels, rows, step :: steps => joinAll (labels ++ [step.label]) (m.join labels rows step) steps

end Meaning

/-! ### Conditions on one source

A filter on one of the sources may be applied before the source is joined or at any time
after, as long as no tuple is kept without a row that the filter has seen. -/

section
variable {V : Type} {m : Meaning V} {labels : List String} {rows : List (JoinedRow V)}
  {step : JoinStep V}

/-- The rows have a tuple for each of these sources and no others. -/
def Keyed (labels : List String) (rows : List (JoinedRow V)) : Prop :=
  ∀ row ∈ rows, row.map (·.1) = labels

theorem lookup_append_of_mem {row : JoinedRow V} {label : String} (h : label ∈ row.map (·.1))
    (rest : JoinedRow V) : (row ++ rest).lookup label = row.lookup label := by
  induction row with
  | nil => simp at h
  | cons p row ih =>
    obtain ⟨key, t⟩ := p
    rw [List.cons_append, List.lookup_cons, List.lookup_cons]
    by_cases hkey : label = key
    · subst hkey
      simp
    · rw [beq_false_of_ne hkey]
      simp only [List.map_cons, List.mem_cons, hkey, false_or] at h
      exact ih h

namespace Meaning

/-- A further tuple does not change those of the sources in front. -/
theorem tuple_append_of_mem {row : JoinedRow V} {label : String} (h : label ∈ row.map (·.1))
    (rest : JoinedRow V) : m.tuple (row ++ rest) label = m.tuple row label := by
  unfold tuple
  rw [lookup_append_of_mem h]

theorem tuple_append_self {row : JoinedRow V} {label : String} (h : label ∉ row.map (·.1))
    (t : Tuple V) : m.tuple (row ++ [(label, t)]) label = t := by
  have hlookup : (row ++ [(label, t)]).lookup label = some t := by
    induction row with
    | nil => simp
    | cons p row ih =>
      obtain ⟨key, t'⟩ := p
      simp only [List.map_cons, List.mem_cons, not_or] at h
      rw [List.cons_append, List.lookup_cons, beq_false_of_ne h.1]
      exact ih h.2
  unfold tuple
  rw [hlookup]
  rfl

theorem tuple_singleton (label : String) (t : Tuple V) : m.tuple [(label, t)] label = t := by
  unfold tuple
  rw [List.lookup_cons_self]
  rfl

/-- A tuple that no row matches stands behind nulls. -/
theorem tuple_nulls {label : String} (h : label ∈ labels) (rest : JoinedRow V) :
    m.tuple (labels.map (·, m.nulls) ++ rest) label = m.nulls := by
  have hkeys : label ∈ (labels.map (·, m.nulls)).map (·.1) := by simpa using h
  rw [tuple_append_of_mem hkeys]
  unfold tuple
  induction labels with
  | nil => simp at h
  | cons first labels ih =>
    rw [List.map_cons, List.lookup_cons]
    by_cases hfirst : label = first
    · subst hfirst
      simp
    · rw [beq_false_of_ne hfirst]
      have hrest : label ∈ labels := by simpa [hfirst] using h
      exact ih hrest (by simpa using hrest)

/-- What a row is extended by is one tuple. -/
theorem exists_of_mem_extend {row row' : JoinedRow V} (h : row' ∈ m.extend step row) :
    ∃ t, row' = row ++ [(step.label, t)] := by
  unfold extend at h
  split at h
  · exact ⟨_, List.mem_singleton.mp h⟩
  · obtain ⟨t, _, rfl⟩ := List.mem_map.mp (List.mem_filter.mp h).1
    exact ⟨t, rfl⟩

theorem exists_of_mem_unmatched {row : JoinedRow V} (h : row ∈ m.unmatched step labels rows) :
    ∃ t, row = labels.map (·, m.nulls) ++ [(step.label, t)] := by
  unfold unmatched at h
  split at h
  · obtain ⟨t, _, rfl⟩ := List.mem_map.mp h
    exact ⟨t, rfl⟩
  · simp at h

theorem keys_nulls (labels : List String) :
    (labels.map fun label => (label, m.nulls)).map (·.1) = labels := by
  rw [List.map_map]
  exact List.map_id _

theorem keyed_join (h : Keyed labels rows) (step : JoinStep V) :
    Keyed (labels ++ [step.label]) (m.join labels rows step) := by
  intro row hrow
  rcases List.mem_append.mp hrow with hrow | hrow
  · obtain ⟨before, hbefore, hrow⟩ := List.mem_flatMap.mp hrow
    obtain ⟨t, rfl⟩ := exists_of_mem_extend hrow
    rw [List.map_append, h before hbefore]
    rfl
  · obtain ⟨t, rfl⟩ := exists_of_mem_unmatched hrow
    rw [List.map_append, keys_nulls]
    rfl

theorem joinAll_append (labels : List String) (rows : List (JoinedRow V))
    (steps steps' : List (JoinStep V)) :
    m.joinAll labels rows (steps ++ steps') =
      m.joinAll (labels ++ steps.map (·.label)) (m.joinAll labels rows steps) steps' := by
  induction steps generalizing labels rows with
  | nil => simp [joinAll]
  | cons step steps ih =>
    simp only [List.cons_append, joinAll, ih, List.map_cons]
    rw [List.append_assoc]
    rfl

theorem keyed_joinAll (h : Keyed labels rows) (steps : List (JoinStep V)) :
    Keyed (labels ++ steps.map (·.label)) (m.joinAll labels rows steps) := by
  induction steps generalizing labels rows with
  | nil => simpa [joinAll] using h
  | cons step steps ih =>
    have hnext := ih (keyed_join (m := m) h step)
    rw [List.append_assoc] at hnext
    exact hnext

/-- The rows whose tuple of a source is kept. -/
def keeping (m : Meaning V) (keep : Tuple V → Bool) (label : String) (rows : List (JoinedRow V)) :
    List (JoinedRow V) :=
  rows.filter fun row => keep (m.tuple row label)

variable {keep : Tuple V → Bool} {label : String}

theorem keeping_extend {row : JoinedRow V} (h : label ∈ row.map (·.1)) (keep : Tuple V → Bool)
    (step : JoinStep V) :
    m.keeping keep label (m.extend step row) =
      if keep (m.tuple row label) then m.extend step row else [] := by
  have hsame : ∀ row' ∈ m.extend step row, m.tuple row' label = m.tuple row label := by
    intro row' hrow'
    obtain ⟨t, rfl⟩ := exists_of_mem_extend hrow'
    exact tuple_append_of_mem h _
  unfold keeping
  split
  next hkeep =>
    refine List.filter_eq_self.mpr ?_
    intro row' hrow'
    rw [hsame row' hrow', hkeep]
  next hkeep =>
    refine List.filter_eq_nil_iff.mpr ?_
    intro row' hrow'
    rw [hsame row' hrow']
    exact hkeep

theorem keeping_unmatched (h : label ∈ labels) (hnulls : keep m.nulls = false)
    (step : JoinStep V) (rows : List (JoinedRow V)) :
    m.keeping keep label (m.unmatched step labels rows) = [] := by
  refine List.filter_eq_nil_iff.mpr ?_
  intro row hrow
  obtain ⟨t, rfl⟩ := exists_of_mem_unmatched hrow
  rw [tuple_nulls h, hnulls]
  simp

/-- A filter that no nulls pass may be applied before a join instead of after it, when the
tuples without a row are left out. -/
theorem keeping_join (hrows : Keyed labels rows) (h : label ∈ labels)
    (hnulls : keep m.nulls = false) (step : JoinStep V) :
    m.keeping keep label (m.join labels rows step) =
      (m.keeping keep label rows).flatMap (m.extend step) := by
  have hmatched : m.keeping keep label (rows.flatMap (m.extend step)) =
      (m.keeping keep label rows).flatMap (m.extend step) := by
    induction rows with
    | nil => rfl
    | cons row rows ih =>
      have hrow : label ∈ row.map (·.1) := by
        rw [hrows row (List.mem_cons_self ..)]
        exact h
      have hrest := ih fun row' hrow' => hrows row' (List.mem_cons_of_mem _ hrow')
      have hfirst := keeping_extend (m := m) hrow keep step
      unfold keeping at hfirst hrest ⊢
      rw [List.flatMap_cons, List.filter_append, hfirst, hrest, List.filter_cons]
      split <;> simp
  have hunmatched := keeping_unmatched (m := m) h hnulls step rows
  unfold keeping at hmatched hunmatched ⊢
  unfold join
  rw [List.filter_append, hmatched, hunmatched, List.append_nil]

/-- What is kept after a row of joins depends only on what is kept before them. -/
theorem keeping_joinAll {rows' : List (JoinedRow V)} (hrows : Keyed labels rows)
    (hrows' : Keyed labels rows') (h : label ∈ labels) (hnulls : keep m.nulls = false)
    (hsame : m.keeping keep label rows = m.keeping keep label rows') (steps : List (JoinStep V)) :
    m.keeping keep label (m.joinAll labels rows steps) =
      m.keeping keep label (m.joinAll labels rows' steps) := by
  induction steps generalizing labels rows rows' with
  | nil => exact hsame
  | cons step steps ih =>
    refine ih (keyed_join hrows step) (keyed_join hrows' step) (List.mem_append_left _ h) ?_
    rw [keeping_join hrows h hnulls, keeping_join hrows' h hnulls, hsame]

/-- Filtering the tuples of an inner join filters its rows. -/
theorem join_filter (hrows : Keyed labels rows) (hkind : step.kind = .inner)
    (hnew : step.label ∉ labels) :
    m.join labels rows (step.filter keep) =
      m.keeping keep step.label (m.join labels rows step) := by
  have hpairs : ∀ row ∈ rows, m.extend (step.filter keep) row =
      m.keeping keep step.label (m.extend step row) := by
    intro row hrow
    have hkeys : step.label ∉ row.map (·.1) := by
      rw [hrows row hrow]
      exact hnew
    simp only [extend, JoinStep.filter_kind, hkind, JoinKind.keepsLeft, Bool.false_and,
      Bool.false_eq_true, if_false, pairs, JoinStep.filter_label, JoinStep.filter_on,
      JoinStep.filter_tuples, keeping]
    rw [List.filter_filter, List.filter_map, List.filter_map, List.filter_filter]
    congr 1
    refine List.filter_congr ?_
    intro t _
    simp only [Function.comp, tuple_append_self hkeys]
    exact Bool.and_comm _ _
  have hunmatched : ∀ step : JoinStep V, step.kind = .inner →
      m.unmatched step labels rows = [] := by
    intro step hkind
    simp [unmatched, hkind, JoinKind.keepsRight]
  unfold join
  rw [hunmatched step hkind, hunmatched (step.filter keep) hkind,
    List.append_nil, List.append_nil]
  induction rows with
  | nil => rfl
  | cons row rows ih =>
    have hrest := ih (fun row' hrow' => hrows row' (List.mem_cons_of_mem _ hrow'))
      (fun row' hrow' => hpairs row' (List.mem_cons_of_mem _ hrow'))
      (fun step hkind => by simp [unmatched, hkind, JoinKind.keepsRight])
    rw [List.flatMap_cons, List.flatMap_cons, hrest, hpairs row (List.mem_cons_self ..)]
    unfold keeping
    rw [List.filter_append]

/-! What is true of the tuple of a source stays true when further sources are joined. Only a
right join or a full join may put nulls in its place. -/

theorem forall_join {P : Tuple V → Prop} (hrows : Keyed labels rows) (h : label ∈ labels)
    (hall : ∀ row ∈ rows, P (m.tuple row label))
    (hnulls : P m.nulls ∨ step.kind.keepsRight = false) :
    ∀ row ∈ m.join labels rows step, P (m.tuple row label) := by
  intro row hrow
  rcases List.mem_append.mp hrow with hrow | hrow
  · obtain ⟨before, hbefore, hrow⟩ := List.mem_flatMap.mp hrow
    obtain ⟨t, rfl⟩ := exists_of_mem_extend hrow
    have hkeys : label ∈ before.map (·.1) := by
      rw [hrows before hbefore]
      exact h
    rw [tuple_append_of_mem hkeys]
    exact hall before hbefore
  · rcases hnulls with hnulls | hkind
    · obtain ⟨t, rfl⟩ := exists_of_mem_unmatched hrow
      rw [tuple_nulls h]
      exact hnulls
    · unfold unmatched at hrow
      rw [hkind] at hrow
      exact absurd hrow (by simp)

theorem forall_joinAll {P : Tuple V → Prop} {steps : List (JoinStep V)} (hrows : Keyed labels rows)
    (h : label ∈ labels) (hall : ∀ row ∈ rows, P (m.tuple row label))
    (hnulls : P m.nulls ∨ ∀ step ∈ steps, step.kind.keepsRight = false) :
    ∀ row ∈ m.joinAll labels rows steps, P (m.tuple row label) := by
  induction steps generalizing labels rows with
  | nil => exact hall
  | cons step steps ih =>
    have hfirst : P m.nulls ∨ step.kind.keepsRight = false :=
      hnulls.imp_right fun hkinds => hkinds step (List.mem_cons_self ..)
    have hrest : P m.nulls ∨ ∀ step ∈ steps, step.kind.keepsRight = false :=
      hnulls.imp_right fun hkinds step hstep => hkinds step (List.mem_cons_of_mem _ hstep)
    exact ih (keyed_join hrows step) (List.mem_append_left _ h)
      (forall_join hrows h hall hfirst) hrest

/-! One of the joins, with joins in front of it and behind it. -/

section
variable {front back : List (JoinStep V)}

theorem joinAll_cons_append (step : JoinStep V) :
    m.joinAll labels rows (front ++ step :: back) =
      m.joinAll (labels ++ front.map (·.label) ++ [step.label])
        (m.join (labels ++ front.map (·.label)) (m.joinAll labels rows front) step) back := by
  rw [joinAll_append]
  rfl

/-- A filter on the tuples of an inner join may as well be applied after all joins, to the
rows that are kept. -/
theorem keeping_filter (hrows : Keyed labels rows) (hkind : step.kind = .inner)
    (hnew : step.label ∉ labels ++ front.map (·.label)) (hnulls : keep m.nulls = false) :
    m.keeping keep step.label (m.joinAll labels rows (front ++ step.filter keep :: back)) =
      m.keeping keep step.label (m.joinAll labels rows (front ++ step :: back)) := by
  have hfront := keyed_joinAll (m := m) hrows front
  have hlast : step.label ∈ labels ++ front.map (·.label) ++ [step.label] := by simp
  rw [joinAll_cons_append, joinAll_cons_append]
  refine keeping_joinAll (keyed_join hfront (step.filter keep)) (keyed_join hfront step) hlast
    hnulls ?_ back
  rw [join_filter hfront hkind hnew]
  unfold keeping
  rw [List.filter_filter]
  simp

/-- What the filter says is true of the tuple in every row, unless a right join or a full
join comes later. -/
theorem forall_filter {P : Tuple V → Prop} (hrows : Keyed labels rows) (hkind : step.kind = .inner)
    (hnew : step.label ∉ labels ++ front.map (·.label)) (hkeep : ∀ t, keep t = true → P t)
    (hnulls : P m.nulls ∨ ∀ later ∈ back, later.kind.keepsRight = false) :
    ∀ row ∈ m.joinAll labels rows (front ++ step.filter keep :: back),
      P (m.tuple row step.label) := by
  have hfront := keyed_joinAll (m := m) hrows front
  have hlast : step.label ∈ labels ++ front.map (·.label) ++ [step.label] := by simp
  rw [joinAll_cons_append]
  refine forall_joinAll (keyed_join hfront (step.filter keep)) hlast ?_ hnulls
  intro row hrow
  rw [join_filter hfront hkind hnew] at hrow
  exact hkeep _ (List.mem_filter.mp hrow).2

end

/-- Both join the same tuples, on conditions that mean the same. -/
structure SameStep (m : Meaning V) (step step' : JoinStep V) : Prop where
  kind : step'.kind = step.kind
  label : step'.label = step.label
  tuples : step'.tuples = step.tuples
  on : ∀ row, m.value row step'.on = m.value row step.on

theorem join_congr {step' : JoinStep V} (h : SameStep m step step') :
    m.join labels rows step' = m.join labels rows step := by
  have hon : m.holds step'.on = m.holds step.on := by
    funext row
    unfold holds
    rw [h.on]
  unfold join extend unmatched pairs
  rw [h.kind, h.label, h.tuples, hon]

theorem joinAll_congr {steps steps' : List (JoinStep V)}
    (h : List.Forall₂ (SameStep m) steps steps') :
    m.joinAll labels rows steps' = m.joinAll labels rows steps := by
  induction h generalizing labels rows with
  | nil => rfl
  | cons hstep _ ih =>
    show m.joinAll _ (m.join _ _ _) _ = m.joinAll _ (m.join _ _ _) _
    rw [join_congr hstep, hstep.label]
    exact ih

end Meaning

end

/-! ### Queries -/

/-- The alias and the table of a query that at most filters one table. -/
def Query.plain? (q : Query) : Option (String × String) :=
  match q.sources with
  | [⟨label, .table name _⟩] =>
    if q.projections.isEmpty && q.joins.isEmpty && q.sorting.isNone && q.limit.isNone then
      some (label, name)
    else none
  | _ => none

section
variable {V : Type} (m : Meaning V) (calls : Calls)

/-- The conditions that the filters of a query give. -/
def Query.conditions (q : Query) : Except Fault (List (Expr Query)) :=
  q.filters.mapM fun p => p.apply calls (Row.ofQuery q)

def DataSource.tuples : DataSource → Except Fault (List (Tuple V))
  | .table name _ => .ok (m.table name)
  | .nested q =>
    match q.plain? with
    | some (label, name) => do
      let conditions ← q.conditions calls
      return (m.table name).filter fun t => m.holdAll conditions [(label, t)]
    | none => .ok (m.derived q)

def Query.tuplesOf (q : Query) (label : String) : Except Fault (List (Tuple V)) :=
  match q.source? label with
  | some data => data.tuples m calls
  | none => .error (.error (.unresolvedSource label))

def Query.step (q : Query) (join : JoinClause) : Except Fault (JoinStep V) := do
  let tuples ← q.tuplesOf m calls join.label
  let on ← join.on.apply calls (Row.ofQuery q)
  return ⟨join.kind, join.label, tuples, on⟩

/-- The rows of the query. -/
def Query.rows (q : Query) : Except Fault (List (JoinedRow V)) := do
  let base ← q.tuplesOf m calls q.baseSource
  let steps ← q.joins.mapM (q.step m calls)
  let conditions ← q.conditions calls
  let joined := m.joinAll [q.baseSource] (base.map fun t => [(q.baseSource, t)]) steps
  return joined.filter (m.holdAll conditions)

variable {m calls}

theorem Query.step_eq_ok_iff {q : Query} {join : JoinClause} {step : JoinStep V} :
    q.step m calls join = .ok step ↔ ∃ tuples on, q.tuplesOf m calls join.label = .ok tuples ∧
      join.on.apply calls (Row.ofQuery q) = .ok on ∧
      step = ⟨join.kind, join.label, tuples, on⟩ := by
  unfold Query.step
  simp only [except_bind_eq_ok_iff, except_pure_eq_ok_iff]
  constructor
  · rintro ⟨tuples, htuples, on, hon, rfl⟩
    exact ⟨tuples, on, htuples, hon, rfl⟩
  · rintro ⟨tuples, on, htuples, hon, rfl⟩
    exact ⟨tuples, htuples, on, hon, rfl⟩

/-- The steps join the sources of the joins, in the same way. -/
theorem Query.labels_of_steps {q : Query} {joins : List JoinClause} {steps : List (JoinStep V)}
    (h : joins.mapM (q.step m calls) = .ok steps) : steps.map (·.label) = joins.map (·.label) := by
  refine map_eq_of_except_mapM ?_ h
  intro join step hstep
  obtain ⟨tuples, on, -, -, rfl⟩ := step_eq_ok_iff.mp hstep
  rfl

theorem Query.kinds_of_steps {q : Query} {joins : List JoinClause} {steps : List (JoinStep V)}
    (h : joins.mapM (q.step m calls) = .ok steps) : steps.map (·.kind) = joins.map (·.kind) := by
  refine map_eq_of_except_mapM ?_ h
  intro join step hstep
  obtain ⟨tuples, on, -, -, rfl⟩ := step_eq_ok_iff.mp hstep
  rfl

theorem Query.rows_eq_ok_iff {q : Query} {rows : List (JoinedRow V)} :
    q.rows m calls = .ok rows ↔ ∃ base steps conditions,
      q.tuplesOf m calls q.baseSource = .ok base ∧ q.joins.mapM (q.step m calls) = .ok steps ∧
      q.conditions calls = .ok conditions ∧
      rows = (m.joinAll [q.baseSource] (base.map fun t => [(q.baseSource, t)]) steps).filter
        (m.holdAll conditions) := by
  unfold Query.rows
  simp only [except_bind_eq_ok_iff, except_pure_eq_ok_iff]
  constructor
  · rintro ⟨base, hbase, steps, hsteps, conditions, hconditions, rfl⟩
    exact ⟨base, steps, conditions, hbase, hsteps, hconditions, rfl⟩
  · rintro ⟨base, steps, conditions, hbase, hsteps, hconditions, rfl⟩
    exact ⟨base, hbase, steps, hsteps, conditions, hconditions, rfl⟩

/-- The base source has a tuple in every row that is joined to it. -/
theorem keyed_base (label : String) (tuples : List (Tuple V)) :
    Keyed [label] (tuples.map fun t => [(label, t)]) := by
  intro row hrow
  obtain ⟨t, _, rfl⟩ := List.mem_map.mp hrow
  rfl

end

end QueryBuilder
