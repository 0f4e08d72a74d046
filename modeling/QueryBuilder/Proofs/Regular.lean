import QueryBuilder.Proofs.Results
import QueryBuilder.Query.Join

/-! The shape of queries.

Building keeps the sources of a query in step with its joins: the first source is the
base, which is a table and the default, and behind it stands one source for each join,
under the alias of the join. The aliases are distinct, and none of them is bound in the
scope that the query was built in. The query of a fetched row was built in the scope of
that row. -/
namespace QueryBuilder

structure Query.Regular (q : Query) : Prop where
  sources : ∃ name relation rest, q.sources = ⟨q.baseSource, .table name relation⟩ :: rest ∧
    rest.map (·.label) = q.joins.map (·.label)
  default_eq : q.defaultSource = q.baseSource
  nodup : (q.sources.map (·.label)).Nodup
  unbound : ∀ scope, q.context = some scope → ∀ s ∈ q.sources, scope.isBound s.label = false

structure Row.Regular (r : Row) : Prop where
  query : r.query.Regular
  context : r.fetched = true → r.query.context = some r.scope

namespace Query

theorem Regular.labels_eq {q : Query} (h : q.Regular) :
    q.sources.map (·.label) = q.baseSource :: q.joins.map (·.label) := by
  obtain ⟨name, relation, rest, hsources, hrest⟩ := h.sources
  rw [hsources, List.map_cons, hrest]

theorem Regular.hasSource_default {q : Query} (h : q.Regular) :
    q.hasSource q.defaultSource := by
  rw [hasSource_iff, ← List.mem_map, h.labels_eq, h.default_eq]
  exact List.mem_cons_self ..

theorem hasSource_eq_false_iff {q : Query} {label : String} :
    q.hasSource label = false ↔ label ∉ q.sources.map (·.label) := by
  rw [← Bool.not_eq_true, hasSource_iff, List.mem_map]

theorem not_mem_labels_of_isTaken {q : Query} {label : String} (h : q.isTaken label = false) :
    label ∉ q.sources.map (·.label) := by
  unfold isTaken at h
  rw [Bool.or_eq_false_iff] at h
  intro hmem
  obtain ⟨s, hs, hlabel⟩ := List.mem_map.mp hmem
  have := hasSource_iff.mpr ⟨s, hs, hlabel⟩
  rw [h.1] at this
  exact absurd this (by simp)

theorem isBound_of_isTaken {q : Query} {label : String} (h : q.isTaken label = false)
    {scope : Scope} (hscope : q.context = some scope) : scope.isBound label = false := by
  unfold isTaken at h
  rw [Bool.or_eq_false_iff] at h
  simpa [hscope] using h.2

theorem source?_attach (q : Query) (source : Source) (join : JoinClause) (label : String) :
    (q.attach source join).source? label =
      (q.source? label).or (if source.label = label then some source.data else none) := by
  unfold source? attach
  rw [List.find?_append]
  by_cases h : source.label = label
  · cases q.sources.find? (·.label = label) <;> simp [h]
  · cases q.sources.find? (·.label = label) <;> simp [h]

/-! ### Building -/

theorem regular_ofSource (label name : String) (relation : Option RelationRef) :
    (ofSource label (.table name relation)).Regular where
  sources := ⟨name, relation, [], rfl, rfl⟩
  default_eq := rfl
  nodup := by simp [ofSource]
  unbound := by simp [ofSource]

/-- Only the sources, the joins and the context matter. -/
theorem Regular.of_eq {q q' : Query} (h : q.Regular) (hs : q'.sources = q.sources)
    (hj : q'.joins = q.joins) (hb : q'.baseSource = q.baseSource)
    (hd : q'.defaultSource = q.defaultSource) (hc : q'.context = q.context) : q'.Regular where
  sources := by
    rw [hs, hj, hb]
    exact h.sources
  default_eq := by rw [hd, hb, h.default_eq]
  nodup := by rw [hs]; exact h.nodup
  unbound := by
    rw [hs, hc]
    exact h.unbound

theorem Regular.attach {q : Query} (h : q.Regular) {source : Source} {join : JoinClause}
    (hlabel : source.label = join.label) (hnew : source.label ∉ q.sources.map (·.label))
    (hfree : ∀ scope, q.context = some scope → scope.isBound source.label = false) :
    (q.attach source join).Regular where
  sources := by
    obtain ⟨name, relation, rest, hsources, hrest⟩ := h.sources
    refine ⟨name, relation, rest ++ [source], ?_, ?_⟩
    · show q.sources ++ [source] = _
      rw [hsources]
      rfl
    · show _ = (q.joins ++ [join]).map (·.label)
      rw [List.map_append, List.map_append, hrest, List.map_singleton, List.map_singleton, hlabel]
  default_eq := h.default_eq
  nodup := by
    show ((q.sources ++ [source]).map (·.label)).Nodup
    rw [List.map_append, List.map_singleton]
    refine List.nodup_append.mpr ⟨h.nodup, by simp, ?_⟩
    intro a ha b hb hab
    obtain rfl := List.mem_singleton.mp hb
    exact hnew (hab ▸ ha)
  unbound := by
    intro scope hscope s hs
    rcases List.mem_append.mp hs with hs | hs
    · exact h.unbound scope hscope s hs
    · obtain rfl := List.mem_singleton.mp hs
      exact hfree scope hscope

/-- A source under a claimed alias may be joined. -/
theorem Regular.attach_claimed {q : Query} (h : q.Regular) {fallback label : String}
    {requested : Option String} (hclaim : q.claimAlias fallback requested = .ok label)
    (data : DataSource) (kind : JoinKind) (on : Predicate) :
    (q.attach ⟨label, data⟩ ⟨label, kind, on⟩).Regular := by
  have hfree := not_taken_of_claimAlias hclaim
  exact h.attach rfl (not_mem_labels_of_isTaken hfree) fun _ => isBound_of_isTaken hfree

theorem Regular.absorb {q : Query} (h : q.Regular) (target : Query) (label : String) :
    (q.absorb target label).Regular :=
  h.of_eq rfl rfl rfl rfl rfl

/-! ### Joins that succeed -/

variable {q q' : Query}

/-- The condition of a join: the one it is given, or that of the association. -/
def conditionOf (q : Query) (options : JoinOptions) (relation : Option RelationRef)
    (name label : String) : Except Error Predicate :=
  match options.on with
  | some on => .ok on
  | none => q.derivedCondition relation name label

theorem conditionOf_cases {options : JoinOptions} {relation : Option RelationRef}
    {name label : String} {on : Predicate}
    (h : q.conditionOf options relation name label = .ok on) :
    options.on = some on ∨ q.derivedCondition relation name label = .ok on := by
  unfold conditionOf at h
  cases hon : options.on with
  | some on' =>
    rw [hon] at h
    exact .inl (congrArg some (Except.ok.inj h))
  | none =>
    rw [hon] at h
    exact .inr h

theorem joinRelation_eq (q : Query) (relation : RelationRef) (options : JoinOptions) :
    q.joinRelation relation options = (do
      let label ← q.claimAlias relation.name options.label
      let on ← q.conditionOf options (some relation) relation.name label
      .ok (q.attach ⟨label, .ofRelation relation⟩ ⟨label, options.kind, on⟩)) := by
  unfold joinRelation conditionOf
  cases options.on <;> rfl

theorem joinQuery_eq (q target : Query) (options : JoinOptions) :
    q.joinQuery target options = (do
      let label ← q.claimAlias (target.name.getD target.defaultSource) options.label
      let on ← q.conditionOf options target.defaultRelation
        (target.name.getD target.defaultSource) label
      match target.mergeableTable options.kind with
      | some table =>
        .ok ((q.attach ⟨label, table⟩ ⟨label, options.kind, on⟩).absorb target label)
      | none => .ok (q.attach ⟨label, .nested target⟩ ⟨label, options.kind, on⟩)) := by
  unfold joinQuery conditionOf
  cases options.on <;> rfl

theorem joinRelation_cases {relation : RelationRef} {options : JoinOptions}
    (h : q.joinRelation relation options = .ok q') :
    ∃ label on, q.claimAlias relation.name options.label = .ok label ∧
      (options.on = some on ∨ q.derivedCondition (some relation) relation.name label = .ok on) ∧
      q' = q.attach ⟨label, .ofRelation relation⟩ ⟨label, options.kind, on⟩ := by
  rw [joinRelation_eq] at h
  simp only [except_bind_eq_ok_iff] at h
  obtain ⟨label, hlabel, on, hon, h⟩ := h
  exact ⟨label, on, hlabel, conditionOf_cases hon, (Except.ok.inj h).symm⟩

theorem joinQuery_cases {target : Query} {options : JoinOptions}
    (h : q.joinQuery target options = .ok q') :
    ∃ label on, q.claimAlias (target.name.getD target.defaultSource) options.label = .ok label ∧
      (options.on = some on ∨ q.derivedCondition target.defaultRelation
        (target.name.getD target.defaultSource) label = .ok on) ∧
      ((∃ table, target.mergeableTable options.kind = some table ∧
          q' = (q.attach ⟨label, table⟩ ⟨label, options.kind, on⟩).absorb target label) ∨
        (target.mergeableTable options.kind = none ∧
          q' = q.attach ⟨label, .nested target⟩ ⟨label, options.kind, on⟩)) := by
  rw [joinQuery_eq] at h
  simp only [except_bind_eq_ok_iff] at h
  obtain ⟨label, hlabel, on, hon, h⟩ := h
  refine ⟨label, on, hlabel, conditionOf_cases hon, ?_⟩
  cases hmerge : target.mergeableTable options.kind with
  | some table =>
    rw [hmerge] at h
    exact .inl ⟨table, rfl, (Except.ok.inj h).symm⟩
  | none =>
    rw [hmerge] at h
    exact .inr ⟨rfl, (Except.ok.inj h).symm⟩

/-- The table that is merged is the only source of its query. -/
theorem sources_of_mergeableTable {kind : JoinKind} {data : DataSource}
    (h : q.mergeableTable kind = some data) : ∃ label, q.sources = [⟨label, data⟩] := by
  unfold mergeableTable at h
  split at h
  · rename_i label name relation hsources
    split at h
    · obtain rfl := Option.some.inj h
      exact ⟨label, hsources⟩
    · simp at h
  · simp at h

/-- Whatever is joined, its source comes under a claimed alias, and a merged query is absorbed
besides. -/
theorem join_cases {what : JoinTarget} {options : JoinOptions} (h : q.join what options = .ok q') :
    ∃ fallback label data on, q.claimAlias fallback options.label = .ok label ∧
      (q' = q.attach ⟨label, data⟩ ⟨label, options.kind, on⟩ ∨
        ∃ target, q' = (q.attach ⟨label, data⟩ ⟨label, options.kind, on⟩).absorb target label) := by
  cases what with
  | association name =>
    simp only [join, joinAssociation] at h
    split at h
    · simp at h
    · simp only [except_bind_eq_ok_iff] at h
      obtain ⟨_, -, _, -, label, hclaim, h⟩ := h
      exact ⟨_, label, _, _, hclaim, .inl (Except.ok.inj h).symm⟩
  | table name =>
    simp only [join, joinTable, except_bind_eq_ok_iff] at h
    obtain ⟨label, hclaim, h⟩ := h
    split at h
    · simp at h
    · exact ⟨_, label, _, _, hclaim, .inl (Except.ok.inj h).symm⟩
  | relation relation =>
    obtain ⟨label, on, hclaim, -, rfl⟩ := joinRelation_cases h
    exact ⟨_, label, _, on, hclaim, .inl rfl⟩
  | query target =>
    obtain ⟨label, on, hclaim, -, ⟨table, -, rfl⟩ | ⟨-, rfl⟩⟩ := joinQuery_cases h
    · exact ⟨_, label, table, on, hclaim, .inr ⟨target, rfl⟩⟩
    · exact ⟨_, label, _, on, hclaim, .inl rfl⟩

theorem Regular.join (hq : q.Regular) {what : JoinTarget} {options : JoinOptions}
    (h : q.join what options = .ok q') : q'.Regular := by
  obtain ⟨fallback, label, data, on, hclaim, rfl | ⟨target, rfl⟩⟩ := join_cases h
  · exact hq.attach_claimed hclaim data options.kind on
  · exact (hq.attach_claimed hclaim data options.kind on).absorb target label

end Query

/-! ### Rows -/

namespace Row

theorem regular_bound {q : Query} (h : q.Regular) (scope : Scope) : (bound q scope).Regular where
  query := h
  context := by simp [bound]

theorem not_visible_iff {r : Row} {label : String} :
    r.isVisible label = false ↔
      label ∉ r.query.sources.map (·.label) ∧ r.scope.isBound label = false := by
  unfold isVisible
  rw [Bool.or_eq_false_iff, ← Bool.not_eq_true, Query.hasSource_iff]
  simp

/-- What following an association gives: one more join of a fetched row's query, or a
query in the scope of the row. -/
theorem fetchFrom_cases {r r' : Row} {source name : String} {requested : Option String}
    (h : r.fetchFrom source name requested = .ok r') :
    ∃ (association : Association) (target : RelationRef) (label : String),
      r.isVisible label = false ∧
      ((r.fetched = true ∧ r' = { r with
        query := r.query.attach ⟨label, .ofRelation target⟩
          (association.joinClause (r.substitute source) label .inner)
        defaultSource := label }) ∨
      (r.fetched = false ∧ r' =
        { query := ((Query.ofRelation target label).withContext r.scope).filter
            (association.predicate (r.substitute source) label)
          substitutions := []
          defaultSource := label
          scope := r.scope
          fetched := true })) := by
  unfold fetchFrom at h
  simp only [except_bind_eq_ok_iff] at h
  obtain ⟨found, -, h⟩ := h
  cases found with
  | none => simp at h
  | some relation =>
    simp only [except_bind_eq_ok_iff] at h
    obtain ⟨association, -, target, -, label, hlabel, h⟩ := h
    refine ⟨association, target, label, not_visible_of_claimAlias hlabel, ?_⟩
    cases hfetched : r.fetched with
    | true =>
      left
      simpa [hfetched, eq_comm] using h
    | false =>
      right
      simpa [hfetched, eq_comm] using h

theorem Regular.fetchFrom {r r' : Row} (hr : r.Regular) {source name : String}
    {requested : Option String} (h : r.fetchFrom source name requested = .ok r') : r'.Regular := by
  obtain ⟨association, target, label, hfree, ⟨hfetched, rfl⟩ | ⟨-, rfl⟩⟩ := fetchFrom_cases h
  · obtain ⟨hnew, hunbound⟩ := not_visible_iff.mp hfree
    refine ⟨hr.query.attach rfl hnew ?_, hr.context⟩
    intro scope hscope
    rw [hr.context hfetched] at hscope
    obtain rfl := Option.some.inj hscope
    exact hunbound
  · obtain ⟨-, hunbound⟩ := not_visible_iff.mp hfree
    refine ⟨?_, fun _ => rfl⟩
    have hbase := Query.regular_ofSource label target.name (some target)
    refine ⟨hbase.sources, hbase.default_eq, hbase.nodup, ?_⟩
    intro scope hscope s hs
    obtain rfl := Option.some.inj hscope
    obtain rfl := List.mem_singleton.mp hs
    exact hunbound

end Row

end QueryBuilder
