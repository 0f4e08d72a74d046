import QueryBuilder.Proofs.FetchChains
import QueryBuilder.Proofs.ReachableTables
import QueryBuilder.Proofs.SchemaFiles

/-! How following an association ends.

Following an association looks up the source, the association in its relation, the relation
at the other end, and the names that are in use. Each look-up can fail, and the first one
that does is what is reported. The third one does not fail: what has been registered by the
operations on schemas, or read from a file, has both of its sides in the schema. That is
the only thing asked of a row here; whatever queries and rows are made from registered
relations have no others. -/
namespace QueryBuilder

/-! ### What a row can see -/

/-- The relation behind a data source, if there is one: that of a table, and for a nested query
the one behind its default source. -/
inductive DataSource.StandsFor : DataSource → Option RelationRef → Prop
  | table {name : String} {relation : Option RelationRef} :
    StandsFor (.table name relation) relation
  | borrowed {q : Query} {data : DataSource} {relation : Option RelationRef} :
    q.source? q.defaultSource = some data → StandsFor data relation → StandsFor (.nested q) relation
  | rootless {q : Query} : q.source? q.defaultSource = none → StandsFor (.nested q) none

theorem DataSource.standsFor_relation (data : DataSource) : data.StandsFor data.relation := by
  cases data with
  | table name relation => exact .table
  | nested q =>
    have hrelation : (nested q).relation = q.defaultRelation := rfl
    rw [hrelation, q.defaultRelation_eq]
    cases hsource : q.source? q.defaultSource with
    | none => exact .rootless hsource
    | some data =>
      obtain ⟨s, hs, hdata⟩ := Option.map_eq_some_iff.mp hsource
      have hmem := List.mem_of_find?_eq_some hs
      exact .borrowed hsource data.standsFor_relation
termination_by sizeOf data
decreasing_by
  subst_vars
  exact Query.sizeOf_source_lt hmem

theorem DataSource.standsFor_iff {data : DataSource} {relation : Option RelationRef} :
    data.StandsFor relation ↔ data.relation = relation := by
  refine ⟨fun h => ?_, fun h => h ▸ data.standsFor_relation⟩
  induction h with
  | table => rfl
  | @borrowed q data relation hsource _ ih =>
    show q.defaultRelation = relation
    rw [q.defaultRelation_eq, hsource]
    exact ih
  | @rootless q hsource =>
    show q.defaultRelation = none
    rw [q.defaultRelation_eq, hsource]
    rfl

namespace Row
variable {r : Row} {x name : String} {relation : Option RelationRef} {e : Error}

/-- The alias is a source of the row's query or bound in its scope, at whatever level. -/
def Sees (r : Row) (x : String) : Prop :=
  (∃ s ∈ r.query.sources, s.label = x) ∨ ∃ level ∈ r.scope.levels, x ∈ level

/-- The relation behind an alias, if there is one: a source of the row's query hides what the scope
binds, and an inner level of the scope what those around it bind. -/
inductive StandsFor (r : Row) (x : String) : Option RelationRef → Prop
  | own {data : DataSource} {relation : Option RelationRef} : r.query.source? x = some data →
    data.StandsFor relation → StandsFor r x relation
  | around {b : Binding} : r.query.source? x = none → r.scope.lookup x = some b →
    StandsFor r x b.relation

theorem isVisible_iff : r.isVisible x ↔ r.Sees x := by
  have hbound : r.scope.isBound x ↔ ∃ level ∈ r.scope.levels, x ∈ level := by
    unfold Scope.isBound Scope.lookup
    rw [List.findSome?_isSome_iff]
    simp only [Std.TreeMap.isSome_getElem?_iff_mem]
  rw [isVisible, Bool.or_eq_true, Query.hasSource_iff, hbound, Sees]

theorem relationOf_eq_ok_iff : r.relationOf x = .ok relation ↔ r.StandsFor x relation := by
  unfold relationOf
  constructor
  · intro h
    split at h
    · rename_i data hsource
      exact .own hsource (DataSource.standsFor_iff.mpr (Except.ok.inj h))
    · rename_i hnone
      split at h
      · rename_i b hlookup
        obtain rfl := Except.ok.inj h
        exact .around hnone hlookup
      · cases h
  · intro h
    cases h with
    | own hsource hdata =>
      rw [hsource]
      exact congrArg Except.ok (DataSource.standsFor_iff.mp hdata)
    | around hnone hlookup => simp only [hnone, hlookup]

theorem relationOf_eq_error_iff :
    r.relationOf x = .error e ↔ ¬ r.Sees x ∧ e = .unresolvedSource x := by
  rw [← isVisible_iff, isVisible, Query.hasSource, Scope.isBound, relationOf]
  cases r.query.source? x with
  | some data => simp
  | none => cases r.scope.lookup x <;> simp [eq_comm]

/-- Only what is visible stands for something, so what an alias stands for is never asked of one that
is not there. -/
theorem StandsFor.sees (h : r.StandsFor x relation) : r.Sees x :=
  isVisible_iff.mp (isVisible_of_relationOf (relationOf_eq_ok_iff.mpr h))

end Row

/-! ### Registered relations -/

/-- The relation belongs to a schema that the operations on schemas have given. -/
def RelationRef.Registered (o : RelationRef) : Prop :=
  ∃ history, o.home.schema = (Registry.after history).schema

namespace RelationRef.Registered
variable {o t : RelationRef}

/-- So does every relation of a file. -/
theorem of_file {f : Schema.File} (h : f.replay = .ok o.home.schema) : o.Registered := by
  obtain ⟨history, hs⟩ := Schema.File.replay_eq_after h
  exact ⟨history, by rw [hs, Registry.after_eq, Registry.schema_ofSchema]⟩

theorem of_sibling (h : o.Registered) {id : Nat} (ht : o.sibling id = .ok t) : t.Registered := by
  obtain ⟨hid, rfl⟩ := FrozenSchema.reference_eq_ok_iff.mp ht
  exact h

/-- What its associations lead to can be referred to. -/
theorem exists_sibling (h : o.Registered) {name : String} {a : Association}
    (ha : o.relation.associations[name]? = some a) : ∃ t, o.sibling a.target = .ok t := by
  obtain ⟨history, hs⟩ := h
  have hsound : o.home.schema.Sound := by
    rw [hs, Registry.after_eq, Registry.schema_ofSchema]
    exact Schema.after_sound history
  obtain ⟨t, ht, -⟩ := FrozenSchema.sibling_of_sound hsound
    (FrozenSchema.reference_eq_ok_iff.mpr ⟨o.id.isLt, rfl⟩) (association_eq_ok_iff.mpr ha)
  exact ⟨t, ht⟩

end RelationRef.Registered

/-- Every relation that the scope has for an alias is registered. -/
def Scope.Registered (scope : Scope) : Prop :=
  ∀ x b o, scope.lookup x = some b → b.relation = some o → o.Registered

/-- The query is over registered relations, and was built among such. -/
structure Query.Registered (q : Query) : Prop where
  sources : ∀ s ∈ q.sources, ∀ o, s.data.relation = some o → o.Registered
  context : ∀ scope, q.context = some scope → scope.Registered

structure Row.Registered (r : Row) : Prop where
  query : r.query.Registered
  scope : r.scope.Registered

/-- What is joined brings only registered relations along. -/
def JoinTarget.Registered : JoinTarget → Prop
  | .association _ | .table _ => True
  | .relation o => o.Registered
  | .query q => q.Registered

namespace Scope.Registered
variable {scope : Scope}

theorem bind (h : scope.Registered) {x : String} {b : Binding}
    (hb : ∀ o, b.relation = some o → o.Registered) : (scope.bind x b).Registered := by
  intro y b' o hlookup ho
  rw [Scope.lookup_bind] at hlookup
  split at hlookup
  · obtain rfl := Option.some.inj hlookup
    exact hb o ho
  · exact h y b' o hlookup ho

theorem child {parent : Option Scope} (h : ∀ scope, parent = some scope → scope.Registered) :
    (Scope.child parent).Registered := by
  intro x b o hlookup
  cases parent with
  | none => simp at hlookup
  | some outer =>
    rw [Scope.lookup_child_some] at hlookup
    exact h outer rfl x b o hlookup

end Scope.Registered

namespace Query.Registered
variable {q q' : Query}

theorem ofTable (table : String) (label : Option String) (columns : List String) :
    (Query.ofTable table label columns).Registered := by
  have hbase : (Query.ofSource (label.getD table) (.table table none)).Registered := by
    constructor <;> simp [ofSource, DataSource.relation]
  unfold Query.ofTable
  dsimp only
  split
  · exact hbase
  · exact ⟨hbase.sources, hbase.context⟩

theorem ofRelation {o : RelationRef} (h : o.Registered) (label : Option String) :
    (Query.ofRelation o label).Registered := by
  constructor
  · simpa [Query.ofRelation, ofSource, DataSource.ofRelation, DataSource.relation] using h
  · simp [Query.ofRelation, ofSource]

theorem attach (h : q.Registered) {source : Source} (join : JoinClause)
    (hsource : ∀ o, source.data.relation = some o → o.Registered) :
    (q.attach source join).Registered where
  sources := List.forall_mem_append.mpr ⟨h.sources, by simpa using hsource⟩
  context := h.context

theorem source (h : q.Registered) {x : String} {data : DataSource} (hdata : q.source? x = some data)
    {o : RelationRef} (ho : data.relation = some o) : o.Registered := by
  obtain ⟨s, hs, rfl⟩ := Option.map_eq_some_iff.mp hdata
  exact h.sources s (List.mem_of_find?_eq_some hs) o ho

theorem defaultRelation (h : q.Registered) {o : RelationRef} (ho : q.defaultRelation = some o) :
    o.Registered := by
  rw [q.defaultRelation_eq, Option.bind_eq_some_iff] at ho
  obtain ⟨data, hdata, hrelation⟩ := ho
  exact h.source hdata hrelation

theorem join (h : q.Registered) {what : JoinTarget} (hwhat : what.Registered)
    {options : JoinOptions} (hjoin : q.join what options = .ok q') : q'.Registered := by
  cases what with
  | association name =>
    simp only [Query.join, joinAssociation] at hjoin
    split at hjoin
    · cases hjoin
    · rename_i o ho
      simp only [except_bind_eq_ok_iff] at hjoin
      obtain ⟨a, -, t, ht, label, -, hjoin⟩ := hjoin
      obtain rfl := Except.ok.inj hjoin
      refine h.attach _ fun o' ho' => ?_
      obtain rfl := Option.some.inj ho'
      exact (h.defaultRelation ho).of_sibling ht
  | table name =>
    simp only [Query.join, joinTable, except_bind_eq_ok_iff] at hjoin
    obtain ⟨label, -, hjoin⟩ := hjoin
    split at hjoin
    · cases hjoin
    · obtain rfl := Except.ok.inj hjoin
      refine h.attach _ fun o ho => ?_
      cases ho
  | relation o =>
    obtain ⟨label, on, -, -, rfl⟩ := joinRelation_cases hjoin
    refine h.attach _ fun o' ho' => ?_
    obtain rfl := Option.some.inj ho'
    exact hwhat
  | query target =>
    have htarget : target.Registered := hwhat
    obtain ⟨label, on, -, -, ⟨table, hmerge, rfl⟩ | ⟨-, rfl⟩⟩ := joinQuery_cases hjoin
    · obtain ⟨own, hsources⟩ := sources_of_mergeableTable hmerge
      have htable : ∀ o, table.relation = some o → o.Registered :=
        htarget.sources ⟨own, table⟩ (hsources ▸ List.mem_singleton_self _)
      have hattach : (q.attach ⟨label, table⟩ ⟨label, options.kind, on⟩).Registered :=
        h.attach _ htable
      exact ⟨hattach.sources, hattach.context⟩
    · exact h.attach _ fun o ho => htarget.defaultRelation ho

theorem ownScope (h : q.Registered) : q.ownScope.Registered := by
  have hfold : ∀ (sources : List Source) (scope : Scope), (∀ s ∈ sources, s ∈ q.sources) →
      scope.Registered → (sources.foldl
        (fun scope s => scope.bind s.label ⟨s.label, s.data.relation⟩) scope).Registered := by
    intro sources
    induction sources with
    | nil => exact fun _ _ h => h
    | cons s sources ih =>
      intro scope hmem hscope
      refine ih _ (fun s' hs' => hmem s' (List.mem_cons_of_mem _ hs')) (hscope.bind fun o ho => ?_)
      exact h.sources s (hmem s (List.mem_cons_self ..)) o ho
  exact hfold _ _ (fun _ => id) (.child h.context)

end Query.Registered

namespace Row.Registered
variable {r : Row}

theorem ofQuery {q : Query} (h : q.Registered) : (Row.ofQuery q).Registered := ⟨h, h.ownScope⟩

theorem standsFor (h : r.Registered) {x : String} {o : RelationRef}
    (ho : r.StandsFor x (some o)) : o.Registered := by
  generalize hrelation : some o = relation at ho
  cases ho with
  | own hsource hdata =>
    subst hrelation
    exact h.query.source hsource (DataSource.standsFor_iff.mp hdata)
  | @around b hnone hlookup => exact h.scope x b o hlookup hrelation.symm

/-- Following an association leads to registered relations only. -/
theorem fetchFrom {f : Row} (h : r.Registered) {source name : String} {label : Option String}
    (hfetch : r.fetchFrom source name label = .ok f) : f.Registered := by
  obtain ⟨o, link, ho, -, htarget, -, rfl⟩ := fetchFrom_run hfetch
  have hlink : link.target.Registered :=
    (h.standsFor (relationOf_eq_ok_iff.mp ho)).of_sibling htarget
  have hsource : ∀ o, link.source.data.relation = some o → o.Registered := by
    intro o ho
    obtain rfl := Option.some.inj ho
    exact hlink
  split
  · exact ⟨h.query.attach _ hsource, h.scope⟩
  · refine ⟨⟨by simpa [Query.chain] using hsource, fun scope hscope => ?_⟩, h.scope⟩
    obtain rfl := Option.some.inj hscope
    exact h.scope

end Row.Registered

/-- The rows that the callbacks of a level are called with see the relations of its sources, and
what is around. -/
theorem Sql.CompiledLevel.registered_row {placement : EntryPlacement} {calls : Calls}
    (level : CompiledLevel placement calls) (hquery : level.query.Registered)
    (hparent : ∀ scope, level.parent = some scope → scope.Registered) : level.row.Registered := by
  refine ⟨hquery, ?_⟩
  refine visits_invariant (I := fun _ l _ => l.scope.Registered) [] ?_ (.child hparent)
    level.run.visits
  intro s hs visited l l' m m' hl hvisit
  obtain ⟨label, table, rfl, -⟩ :=
    visit_claims (compileLevel_grows placement calls level.depth) hvisit
  exact hl.bind fun o ho => hquery.sources s hs o ho

/-! ### The outcomes -/

namespace Row
variable {r : Row} {source name : String} {label : Option String} {e : Error}

/-- Why the association `name` of `owner` is not followed: the owner is looked up before the
association, and the association before the names in use. -/
inductive Refuses (r : Row) (owner name : String) (label : Option String) : Error → Prop
  | unresolved (unseen : ¬ r.Sees owner) : Refuses r owner name label (.unresolvedSource owner)
  | unrelated (bare : r.StandsFor owner none) :
    Refuses r owner name label (.unknownAssociation owner name)
  | unknown {o : RelationRef} (found : r.StandsFor owner (some o))
    (missing : o.relation.associations[name]? = none) :
    Refuses r owner name label (.unknownAssociation o.name name)
  | used {o : RelationRef} {a : Association} {x : String} (found : r.StandsFor owner (some o))
    (known : o.relation.associations[name]? = some a) (requested : label = some x)
    (seen : r.Sees x) : Refuses r owner name label (.aliasAlreadyUsed x)
  | exhausted {o : RelationRef} {a : Association} (found : r.StandsFor owner (some o))
    (known : o.relation.associations[name]? = some a) (unrequested : label = none)
    (seen : r.Sees name) (numbered : ∀ n < Alias.maxAttempts, r.Sees (Alias.numbered name n)) :
    Refuses r owner name label (.aliasSpaceExhausted name Alias.maxAttempts)

theorem claimAlias_eq_error_iff :
    r.claimAlias name label = .error e ↔
      (∃ x, label = some x ∧ r.Sees x ∧ e = .aliasAlreadyUsed x) ∨
      (label = none ∧ r.Sees name ∧ (∀ n < Alias.maxAttempts, r.Sees (Alias.numbered name n)) ∧
        e = .aliasSpaceExhausted name Alias.maxAttempts) := by
  cases label with
  | none =>
    simp only [claimAlias, Alias.fresh_eq_error_iff, isVisible_iff, reduceCtorEq, false_and,
      exists_false, false_or, true_and]
  | some x =>
    simp only [claimAlias, ← isVisible_iff, reduceCtorEq, false_and, or_false,
      Option.some.injEq, exists_eq_left']
    split
    · rename_i hx
      simp only [hx, true_and, Except.error.injEq, eq_comm]
    · rename_i hx
      simp only [hx, reduceCtorEq, false_and]

/-- With the other end found, only the alias is left to fail. -/
theorem fetchFrom_eq_error_iff_claim {o t : RelationRef} {a : Association}
    (hfound : r.StandsFor (r.substitute source) (some o))
    (hknown : o.relation.associations[name]? = some a) (ht : o.sibling a.target = .ok t) :
    r.fetchFrom source name label = .error e ↔ r.claimAlias name label = .error e := by
  rw [fetchFrom, relationOf_eq_ok_iff.mpr hfound]
  simp only [bind, Except.bind, RelationRef.association_eq_ok_iff.mpr hknown, ht]
  cases r.claimAlias name label with
  | error => simp
  | ok => cases r.fetched <;> simp

/-- The step: each reason is reported as it is. -/
theorem Refuses.fetchFrom_eq (hr : r.Registered)
    (h : r.Refuses (r.substitute source) name label e) :
    r.fetchFrom source name label = .error e := by
  cases h with
  | unresolved hunseen =>
    rw [fetchFrom, relationOf_eq_error_iff.mpr ⟨hunseen, rfl⟩]
    rfl
  | unrelated hbare =>
    rw [fetchFrom, relationOf_eq_ok_iff.mpr hbare]
    rfl
  | unknown hfound hmissing =>
    rw [fetchFrom, relationOf_eq_ok_iff.mpr hfound]
    simp only [bind, Except.bind, RelationRef.association_eq_error_iff.mpr ⟨hmissing, rfl⟩]
  | used hfound hknown hrequested hseen =>
    obtain ⟨t, ht⟩ := (hr.standsFor hfound).exists_sibling hknown
    exact (fetchFrom_eq_error_iff_claim hfound hknown ht).mpr
      (claimAlias_eq_error_iff.mpr (.inl ⟨_, hrequested, hseen, rfl⟩))
  | exhausted hfound hknown hunrequested hseen hnumbered =>
    obtain ⟨t, ht⟩ := (hr.standsFor hfound).exists_sibling hknown
    exact (fetchFrom_eq_error_iff_claim hfound hknown ht).mpr
      (claimAlias_eq_error_iff.mpr (.inr ⟨hunrequested, hseen, hnumbered, rfl⟩))

/-- Without a reason the association is followed. -/
theorem refuses_or_follows (hr : r.Registered) (source name : String) (label : Option String) :
    (∃ e, r.Refuses (r.substitute source) name label e) ∨
      ∃ f, r.fetchFrom source name label = .ok f := by
  cases hrelation : r.relationOf (r.substitute source) with
  | error e => exact .inl ⟨_, .unresolved (relationOf_eq_error_iff.mp hrelation).1⟩
  | ok found =>
    have hfound := relationOf_eq_ok_iff.mp hrelation
    cases found with
    | none => exact .inl ⟨_, .unrelated hfound⟩
    | some o =>
      cases hknown : o.relation.associations[name]? with
      | none => exact .inl ⟨_, .unknown hfound hknown⟩
      | some a =>
        obtain ⟨t, ht⟩ := (hr.standsFor hfound).exists_sibling hknown
        cases hfetch : r.fetchFrom source name label with
        | ok f => exact .inr ⟨f, rfl⟩
        | error e =>
          rcases claimAlias_eq_error_iff.mp
            ((fetchFrom_eq_error_iff_claim hfound hknown ht).mp hfetch) with
            ⟨x, hx, hseen, -⟩ | ⟨hnone, hseen, hnumbered, -⟩
          · exact .inl ⟨_, .used hfound hknown hx hseen⟩
          · exact .inl ⟨_, .exhausted hfound hknown hnone hseen hnumbered⟩

/-- **How following an association ends.** For a row over registered relations, it is refused
exactly for the stated reasons, each reported as it is: the owner is not visible; it has no relation,
or its relation no such association; the alias that is asked for is visible; none is asked for, and
the association's name and all its numbered variants are visible. Without any of these the
association is followed, to a row over registered relations again. Never is a relation unknown. -/
theorem fetchFrom_outcomes (hr : r.Registered) (source name : String) (label : Option String) :
    (∀ e, r.fetchFrom source name label = .error e ↔
      r.Refuses (r.substitute source) name label e) ∧
    ((∃ f, r.fetchFrom source name label = .ok f) ↔
      ∀ e, ¬ r.Refuses (r.substitute source) name label e) ∧
    (∀ relation, r.fetchFrom source name label ≠ .error (.unknownRelation relation)) ∧
    ∀ f, r.fetchFrom source name label = .ok f → f.Registered := by
  have herror (e : Error) : r.fetchFrom source name label = .error e ↔
      r.Refuses (r.substitute source) name label e := by
    refine ⟨fun h => ?_, fun h => h.fetchFrom_eq hr⟩
    obtain ⟨e', hrefuses⟩ | ⟨f, hf⟩ := refuses_or_follows hr source name label
    · obtain rfl := Except.error.inj ((hrefuses.fetchFrom_eq hr).symm.trans h)
      exact hrefuses
    · cases hf.symm.trans h
  refine ⟨herror, ⟨?_, fun hnone => ?_⟩, ?_, fun f hf => hr.fetchFrom hf⟩
  · rintro ⟨f, hf⟩ e hrefuses
    cases hf.symm.trans ((herror e).mpr hrefuses)
  · exact (refuses_or_follows hr source name label).resolve_left fun ⟨e, he⟩ => hnone e he
  · intro relation h
    cases (herror _).mp h

/-- The trips of a history, frozen. -/
def frozenTrips : FrozenSchema := ⟨0, (Registry.after Registry.tripHistory).schema⟩

def frozenTrip : RelationRef := ⟨frozenTrips, 0, by decide +kernel⟩

def frozenStop : RelationRef := ⟨frozenTrips, 1, by decide +kernel⟩

def oneTrip : Query := (Query.ofRelation frozenTrip).take 1

def besideTrip : JoinClause := ⟨"trip", .left, ⟨.value (.raw "TRUE"), []⟩⟩

/-- Stops beside a trip that is kept as a nested source, built where another stop is in scope. -/
def stopsBesideOneTrip : Query :=
  ((Query.ofRelation frozenStop (some "s")).attach ⟨"trip", .nested oneTrip⟩ besideTrip).withContext
    (Scope.empty.bind "stop" ⟨"stop", none⟩)

theorem registered_stopsBesideOneTrip : (ofQuery stopsBesideOneTrip).Registered := by
  have hstops : (Query.ofRelation frozenStop (some "s")).Registered := .ofRelation ⟨_, rfl⟩ _
  have htrip : (Query.ofRelation frozenTrip).Registered := .ofRelation ⟨_, rfl⟩ _
  have hone : ∀ o, (DataSource.nested oneTrip).relation = some o → o.Registered :=
    fun o ho => htrip.defaultRelation ho
  refine .ofQuery ⟨(hstops.attach besideTrip hone).sources, fun scope hscope => ?_⟩
  obtain rfl := Option.some.inj hscope
  refine Scope.Registered.bind ?_ (by simp)
  intro x b o hlookup
  simp at hlookup

/-- The stops of the nested trip are followed under a free alias; a source that is not there, one
without a relation, a relation without the association, and an alias in use are refused. -/
theorem fetchFrom_outcomes_stopsBesideOneTrip :
    let r := ofQuery stopsBesideOneTrip
    (∃ f, r.fetchFrom "trip" "stop" = .ok f ∧ f.defaultSource = "stop_0" ∧ f.Registered) ∧
    r.fetchFrom "depot" "stop" = .error (.unresolvedSource "depot") ∧
    r.fetchFrom "stop" "trip" = .error (.unknownAssociation "stop" "trip") ∧
    r.fetchFrom "s" "trip" = .error (.unknownAssociation "stop" "trip") ∧
    r.fetchFrom "trip" "stop" (some "s") = .error (.aliasAlreadyUsed "s") := by
  intro r
  have hr : r.Registered := registered_stopsBesideOneTrip
  have hlabel : (r.fetchFrom "trip" "stop").map (·.defaultSource) = .ok "stop_0" := by
    decide +kernel
  obtain ⟨f, hf, hlabel⟩ := except_map_eq_ok_iff.mp hlabel
  have htrip : r.StandsFor "trip" (some frozenTrip) := .own rfl (.borrowed rfl .table)
  have hstop : r.scope.lookup "stop" = some ⟨"stop", none⟩ := by
    show ((((Scope.child (some (Scope.empty.bind "stop" ⟨"stop", none⟩))).bind "s" _).bind "trip"
      _).lookup "stop") = _
    simp [Scope.lookup_bind]
  refine ⟨⟨f, hf, hlabel, (fetchFrom_outcomes hr ..).2.2.2 f hf⟩, ?_, ?_, ?_, ?_⟩
  · exact ((fetchFrom_outcomes hr "depot" "stop" none).1 _).mpr
      (.unresolved (isVisible_iff.not.mp (by decide +kernel)))
  · exact ((fetchFrom_outcomes hr "stop" "trip" none).1 _).mpr
      (.unrelated (.around rfl hstop))
  · exact ((fetchFrom_outcomes hr "s" "trip" none).1 _).mpr
      (.unknown (o := frozenStop) (.own rfl .table) (by decide +kernel))
  · exact ((fetchFrom_outcomes hr "trip" "stop" (some "s")).1 _).mpr
      (.used (a := ⟨.hasMany, 0, 1, "tripId", "id"⟩) htrip (by decide +kernel) rfl
        (isVisible_iff.mp (by decide +kernel)))

end Row

end QueryBuilder
