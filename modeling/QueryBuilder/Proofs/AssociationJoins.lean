import Mathlib.Data.String.Basic
import QueryBuilder.Proofs.Regular
import QueryBuilder.Proofs.SchemaHistories
import QueryBuilder.Sql.Compilation

/-! Joining along an association.

An association of the default source can be joined by its name, or by what it leads to:
the relation itself, or a query over it. Only the name says which association is meant
when several lead to the same relation; the other two take the first one in the order
of the names. That settles the condition, and a query over a relation is merged with
nothing to bring along, so that all three ways build the same query. -/
namespace QueryBuilder

/-! ### The association that leads to a relation -/

/-- In a map that is kept in the order of its keys, the first entry with a property is the
one whose key comes before all others with it. -/
theorem find?_toList_eq_some_iff {α : Type} {m : Std.TreeMap String α} {p : α → Prop}
    [DecidablePred p] {name : String} {a : α} :
    m.toList.find? (fun entry => p entry.2) = some (name, a) ↔
      m[name]? = some a ∧ p a ∧ ∀ other b, m[other]? = some b → p b → name ≤ other := by
  have hsorted := m.ordered_keys_toList
  have hmem (key : String) (b : α) : (key, b) ∈ m.toList ↔ m[key]? = some b :=
    Std.TreeMap.mem_toList_iff_getElem?_eq_some
  rw [List.find?_eq_some_iff_append]
  constructor
  · rintro ⟨hp, before, behind, hlist, hbefore⟩
    rw [hlist] at hsorted
    refine ⟨(hmem name a).mp (hlist ▸ by simp), of_decide_eq_true hp, fun other b hb hpb => ?_⟩
    have hother := (hmem other b).mpr hb
    rw [hlist, List.mem_append, List.mem_cons] at hother
    rcases hother with hother | hother | hother
    · exact absurd hpb (by simpa using hbefore _ hother)
    · exact (congrArg Prod.fst hother).ge
    · have hlt := (List.pairwise_cons.mp (List.pairwise_append.mp hsorted).2.1).1 _ hother
      exact (compare_lt_iff_lt.mp hlt).le
  · rintro ⟨ha, hp, hleast⟩
    obtain ⟨before, behind, hlist⟩ := List.append_of_mem ((hmem name a).mpr ha)
    rw [hlist] at hsorted
    refine ⟨decide_eq_true hp, before, behind, hlist, fun entry hentry => ?_⟩
    have hlt := (List.pairwise_append.mp hsorted).2.2 entry hentry (name, a) (by simp)
    have hlt : entry.1 < name := compare_lt_iff_lt.mp hlt
    by_contra hpentry
    refine absurd (hleast entry.1 entry.2 ((hmem _ _).mp ?_) (by simpa using hpentry)) hlt.not_ge
    exact hlist ▸ List.mem_append_left _ hentry

namespace RelationRef
variable {o t : RelationRef} {name : String} {a : Association}

/-- The association that `o` has under `name` leads to `t`. -/
structure Leads (o t : RelationRef) (name : String) (a : Association) : Prop where
  declared : o.relation.associations[name]? = some a
  reaches : a.target = t.id

/-- It is the first one that does, in the order of the names. -/
structure LeadsFirst (o t : RelationRef) (name : String) (a : Association) : Prop
    extends o.Leads t name a where
  least : ∀ (other : String) (b : Association), o.Leads t other b → name ≤ other

theorem leadsFirst_iff :
    o.LeadsFirst t name a ↔
      o.relation.associations.toList.find? (fun (_, b) => b.target = t.id.val) = some (name, a) := by
  refine Iff.trans ?_
    (find?_toList_eq_some_iff (p := fun b : Association => b.target = t.id)).symm
  constructor
  · intro h
    exact ⟨h.declared, h.reaches, fun other b hb hreaches => h.least other b ⟨hb, hreaches⟩⟩
  · rintro ⟨ha, hreaches, hleast⟩
    exact ⟨⟨ha, hreaches⟩, fun other b hb => hleast other b hb.declared hb.reaches⟩

theorem associationTo_eq_some_iff (hstamp : o.home.stamp = t.home.stamp) :
    o.associationTo t = some a ↔ ∃ name, o.LeadsFirst t name a := by
  simp only [associationTo, if_pos hstamp, Option.map_eq_some_iff, leadsFirst_iff, Prod.exists,
    exists_eq_right]

theorem associationTo_eq_none_iff (hstamp : o.home.stamp = t.home.stamp) :
    o.associationTo t = none ↔ ∀ name a, ¬ o.Leads t name a := by
  rw [associationTo, if_pos hstamp, Option.map_eq_none_iff, List.find?_eq_none]
  constructor
  · intro h name a ha
    refine absurd ha.reaches ?_
    simpa using h (name, a) (Std.TreeMap.mem_toList_iff_getElem?_eq_some.mpr ha.declared)
  · rintro h ⟨name, a⟩ ha hreaches
    exact h name a ⟨Std.TreeMap.mem_toList_iff_getElem?_eq_some.mp ha, by simpa using hreaches⟩

/-- Among the associations that lead to a relation there is a first one. -/
theorem Leads.exists_first (hstamp : o.home.stamp = t.home.stamp) (h : o.Leads t name a) :
    ∃ first b, o.LeadsFirst t first b := by
  cases hto : o.associationTo t with
  | none => exact absurd h ((associationTo_eq_none_iff hstamp).mp hto name a)
  | some b =>
    obtain ⟨first, hfirst⟩ := (associationTo_eq_some_iff hstamp).mp hto
    exact ⟨first, b, hfirst⟩

/-- Following an association gives the relation that it leads to. -/
theorem Leads.sibling (hhome : t.home = o.home) (h : o.Leads t name a) :
    o.sibling a.target = .ok t := by
  obtain ⟨f, id⟩ := t
  obtain rfl : f = o.home := hhome
  rw [RelationRef.sibling, FrozenSchema.reference, h.reaches, dif_pos id.isLt]

end RelationRef

/-! ### The three ways -/

/-- What may be joined to follow an association from `o` to `t`. A query over `t` may have
any alias for it. -/
inductive JoinTarget.Along (o t : RelationRef) : JoinTarget → Prop
  | relation : Along o t (.relation t)
  | query (base : Option String) : Along o t (.query (.ofRelation t base))
  | association {name : String} {a : Association} (first : o.LeadsFirst t name a) :
    Along o t (.association name)

namespace Query
variable {q : Query} {o t : RelationRef} {label name : String} {a : Association}

/-- The SQL text of a query with something joined to it. -/
def joinedSql (q : Query) (what : JoinTarget) (options : JoinOptions) : Except Fault String := do
  (← q.join what options).toSql

theorem claimAlias_some (hfree : q.isTaken label = false) (fallback : String) :
    q.claimAlias fallback (some label) = .ok label := by
  simp [claimAlias, hfree]

theorem derivedCondition_eq (howner : q.defaultRelation = some o) (targetName label : String) :
    q.derivedCondition (some t) targetName label =
      match o.associationTo t with
      | some a => .ok (a.predicate q.defaultSource label)
      | none => .error (.missingJoinCondition targetName) := by
  rw [derivedCondition, howner]
  rfl

theorem defaultRelation_ofRelation (t : RelationRef) (base : Option String) :
    (ofRelation t base).defaultRelation = some t := by
  rw [defaultRelation_eq]
  simp [ofRelation, ofSource, source?, DataSource.ofRelation, DataSource.relation]

theorem mergeableTable_ofRelation (t : RelationRef) (base : Option String) (kind : JoinKind) :
    (ofRelation t base).mergeableTable kind = some (.ofRelation t) := by
  simp [mergeableTable, ofRelation, ofSource, DataSource.ofRelation]

/-- A query over a relation brings nothing along when it is merged. -/
theorem absorb_ofRelation (hall : q.projections = []) (t : RelationRef) (base : Option String)
    (label : String) : q.absorb (ofRelation t base) label = q := by
  cases q
  obtain rfl := hall
  simp [absorb, ofRelation, ofSource, mergedFilters]

/-- The query with `t` joined under `label`, along the association `a`. -/
def joinedAlong (q : Query) (t : RelationRef) (a : Association) (label : String)
    (kind : JoinKind) : Query :=
  q.attach ⟨label, .ofRelation t⟩ (a.joinClause q.defaultSource label kind)

/-- Joining by name, where the association leads to `t`. -/
theorem joinAssociation_of_leads (howner : q.defaultRelation = some o) (hhome : t.home = o.home)
    (hfree : q.isTaken label = false) (h : o.Leads t name a) (kind : JoinKind) :
    q.joinAssociation name { kind, label := some label } = .ok (q.joinedAlong t a label kind) := by
  have hassociation := RelationRef.association_eq_ok_iff.mpr h.declared
  simp only [joinAssociation, howner, hassociation, h.sibling hhome, claimAlias_some hfree, bind,
    Except.bind]
  rfl

/-- Joining a relation without a condition of its own takes what leads there first. -/
theorem joinRelation_eq_derived (howner : q.defaultRelation = some o)
    (hfree : q.isTaken label = false) (kind : JoinKind) :
    q.joinRelation t { kind, label := some label } =
      match o.associationTo t with
      | some a => .ok (q.joinedAlong t a label kind)
      | none => .error (.missingJoinCondition t.name) := by
  simp only [joinRelation_eq, claimAlias_some hfree, conditionOf, derivedCondition_eq howner, bind,
    Except.bind]
  cases o.associationTo t <;> rfl

/-- So does joining a query over the relation, which is merged whatever the kind. -/
theorem joinQuery_ofRelation_eq_derived (howner : q.defaultRelation = some o)
    (hall : q.projections = []) (hfree : q.isTaken label = false) (base : Option String)
    (kind : JoinKind) :
    q.joinQuery (ofRelation t base) { kind, label := some label } =
      match o.associationTo t with
      | some a => .ok (q.joinedAlong t a label kind)
      | none => .error (.missingJoinCondition (base.getD t.name)) := by
  simp only [joinQuery_eq, claimAlias_some hfree, conditionOf, defaultRelation_ofRelation,
    mergeableTable_ofRelation, derivedCondition_eq howner, bind, Except.bind]
  cases o.associationTo t with
  | none => rfl
  | some a =>
    have hall : (q.joinedAlong t a label kind).projections = [] := hall
    exact congrArg Except.ok (absorb_ofRelation hall t base label)

/-- Every way to join along an association takes the first one that leads to the relation. -/
theorem join_along (howner : q.defaultRelation = some o) (hall : q.projections = [])
    (hhome : t.home = o.home) (hfree : q.isTaken label = false) {what : JoinTarget}
    (hwhat : JoinTarget.Along o t what) (hto : o.associationTo t = some a) (kind : JoinKind) :
    q.join what { kind, label := some label } = .ok (q.joinedAlong t a label kind) := by
  cases hwhat with
  | relation =>
    show q.joinRelation t _ = _
    rw [joinRelation_eq_derived howner hfree, hto]
  | query base =>
    show q.joinQuery (ofRelation t base) _ = _
    rw [joinQuery_ofRelation_eq_derived howner hall hfree, hto]
  | association first =>
    have hstamp : o.home.stamp = t.home.stamp := by rw [hhome]
    have hfirst := (RelationRef.associationTo_eq_some_iff hstamp).mpr ⟨_, first⟩
    obtain rfl := Option.some.inj (hfirst.symm.trans hto)
    exact joinAssociation_of_leads howner hhome hfree first.toLeads kind

/-- **The ways to join along an association agree.** To a query without projections whose
default source has the relation `o`, a relation `t` of the same schema is joined under a free
alias and without a condition. If an association of `o` leads to `t`, there is a first one
in the order of the names; joining `t`, joining a query over `t` and joining by that name
give the same query, so the same SQL text or the same failure to compile. If none
leads there, the first two fail for want of a condition. -/
theorem association_joins_agree {q : Query} {o t : RelationRef} {label : String}
    (howner : q.defaultRelation = some o) (hall : q.projections = []) (hhome : t.home = o.home)
    (hfree : q.isTaken label = false) (kind : JoinKind) :
    let options : JoinOptions := { kind, label := some label }
    ((∃ name a, o.Leads t name a) →
      ∃ first a, o.LeadsFirst t first a ∧ ∀ what, JoinTarget.Along o t what →
        q.join what options = .ok (q.joinedAlong t a label kind) ∧
        q.joinedSql what options = (q.joinedAlong t a label kind).toSql) ∧
    ((∀ name a, ¬ o.Leads t name a) →
      q.join (.relation t) options = .error (.missingJoinCondition t.name) ∧
      ∀ base, q.join (.query (.ofRelation t base)) options =
        .error (.missingJoinCondition (base.getD t.name))) := by
  intro options
  have hstamp : o.home.stamp = t.home.stamp := by rw [hhome]
  refine ⟨fun ⟨name, a, h⟩ => ?_, fun hnone => ?_⟩
  · obtain ⟨first, b, hfirst⟩ := h.exists_first hstamp
    refine ⟨first, b, hfirst, fun what hwhat => ?_⟩
    have hto := (RelationRef.associationTo_eq_some_iff hstamp).mpr ⟨first, hfirst⟩
    have hjoin := join_along howner hall hhome hfree hwhat hto kind
    refine ⟨hjoin, ?_⟩
    rw [joinedSql, hjoin]
    rfl
  · have hto := (RelationRef.associationTo_eq_none_iff hstamp).mpr hnone
    refine ⟨?_, fun base => ?_⟩
    · show q.joinRelation t _ = _
      rw [joinRelation_eq_derived howner hfree, hto]
    · show q.joinQuery (ofRelation t base) _ = _
      rw [joinQuery_ofRelation_eq_derived howner hall hfree, hto]

/-- A trip has its stops under two names, and the trip before it. -/
def transfers : FrozenSchema := ⟨0, .after [.addTable "trip", .addTable "stop",
  .declare .hasMany 0 1 { label := some "stops" },
  .declare .hasMany 0 1 { label := some "changes", foreignKey := some "changeId" },
  .declare .belongsTo 0 0 { label := some "previous" }]⟩

def transfersTrip : RelationRef := ⟨transfers, 0, by decide +kernel⟩

def transfersStop : RelationRef := ⟨transfers, 1, by decide +kernel⟩

/-- The stops are joined by the first of their names, a trip to itself by the only one, and
nothing leads from a stop to its trip. -/
theorem association_joins_agree_transfers :
    let trips := Query.ofRelation transfersTrip
    let changes : JoinOptions := { kind := .left, label := some "change" }
    let previous : JoinOptions := { label := some "before" }
    (trips.joinedSql (.relation transfersStop) changes =
        trips.joinedSql (.association "changes") changes ∧
      trips.joinedSql (.query (.ofRelation transfersStop (some "stop"))) changes =
        trips.joinedSql (.association "changes") changes) ∧
    trips.joinedSql (.relation transfersTrip) previous =
      trips.joinedSql (.association "previous") previous ∧
    (Query.ofRelation transfersStop).join (.relation transfersTrip) previous =
      .error (.missingJoinCondition "trip") := by
  intro trips changes previous
  have howner : trips.defaultRelation = some transfersTrip := defaultRelation_ofRelation ..
  have hchanges : transfersTrip.LeadsFirst transfersStop "changes"
      ⟨.hasMany, 0, 1, "changeId", "id"⟩ := RelationRef.leadsFirst_iff.mpr (by decide +kernel)
  have hprevious : transfersTrip.LeadsFirst transfersTrip "previous"
      ⟨.belongsTo, 0, 0, "tripId", "id"⟩ := RelationRef.leadsFirst_iff.mpr (by decide +kernel)
  obtain ⟨_, _, -, hjoins⟩ := (association_joins_agree (t := transfersStop) howner rfl rfl
    (by decide +kernel : trips.isTaken "change" = false) .left).1 ⟨_, _, hchanges.toLeads⟩
  obtain ⟨_, _, -, hjoins'⟩ := (association_joins_agree (t := transfersTrip) howner rfl rfl
    (by decide +kernel : trips.isTaken "before" = false) .inner).1 ⟨_, _, hprevious.toLeads⟩
  have hagree := fun what hwhat => (hjoins what hwhat).2
  have hagree' := fun what hwhat => (hjoins' what hwhat).2
  have hnone : ∀ name a, ¬ transfersStop.Leads transfersTrip name a :=
    (RelationRef.associationTo_eq_none_iff (by rfl)).mp
      (by decide +kernel : transfersStop.associationTo transfersTrip = none)
  refine ⟨⟨?_, ?_⟩, ?_, ?_⟩
  · rw [hagree _ .relation, hagree _ (.association hchanges)]
  · rw [hagree _ (.query _), hagree _ (.association hchanges)]
  · rw [hagree' _ .relation, hagree' _ (.association hprevious)]
  · exact ((association_joins_agree (defaultRelation_ofRelation ..) rfl (by rfl)
      (by decide +kernel : (ofRelation transfersStop).isTaken "before" = false) .inner).2 hnone).1

end Query

end QueryBuilder
