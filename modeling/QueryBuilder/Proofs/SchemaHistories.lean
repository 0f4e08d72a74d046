import Mathlib.Data.List.Induction
import QueryBuilder.Schema.Registry

/-! What every history of a registry leaves behind.

One equation says what a single operation does to the registry that holds a given
schema: what the same operation on that schema says, and nothing at all when it fails,
wherever between its look-ups and its registration that happens. A registry is
therefore at any time the one that holds the schema of its history, and what is said
about it is an invariant of the operations on schemas. -/
namespace QueryBuilder

/-- The one of two sides that is the master, for an association declared by `owner`. -/
def Direction.master {α : Type} (direction : Direction) (owner target : α) : α :=
  match direction with
  | .hasMany => owner
  | .belongsTo => target

def Direction.slave {α : Type} (direction : Direction) (owner target : α) : α :=
  match direction with
  | .hasMany => target
  | .belongsTo => owner

/-- The relation with one more association. -/
def Relation.extended (r : Relation) (name : String) (a : Association) : Relation :=
  { r with associations := r.associations.insert name a }

/-- The name under which an association with `target` is registered. -/
def AssociationOptions.name (options : AssociationOptions) (target : Relation) : String :=
  options.label.getD target.name

/-- What a relation keeps: its name, its key, and every association under its name. -/
structure Relation.Keeps (r r' : Relation) : Prop where
  name_eq : r'.name = r.name
  key_eq : r'.primaryKey = r.primaryKey
  association : ∀ (name : String) (a : Association),
    r.associations[name]? = some a → r'.associations[name]? = some a

theorem Relation.Keeps.refl (r : Relation) : r.Keeps r := ⟨rfl, rfl, fun _ _ h => h⟩

theorem Relation.Keeps.trans {r r' r'' : Relation} (h : r.Keeps r') (h' : r'.Keeps r'') :
    r.Keeps r'' :=
  ⟨h'.name_eq.trans h.name_eq, h'.key_eq.trans h.key_eq,
    fun name a ha => h'.association name a (h.association name a ha)⟩

theorem Relation.getElem?_extended (r : Relation) (name other : String) (a : Association) :
    (r.extended name a).associations[other]? =
      if name = other then some a else r.associations[other]? := by
  rw [extended, Std.TreeMap.getElem?_insert]
  simp

theorem Relation.keeps_extended {r : Relation} {name : String} (a : Association)
    (hfree : r.associations[name]? = none) : r.Keeps (r.extended name a) := by
  refine ⟨rfl, rfl, fun other b hb => ?_⟩
  have hne : name ≠ other := by
    rintro rfl
    simp [hfree] at hb
  rw [getElem?_extended, if_neg hne, hb]

/-- The association joins two of `count` relations, and `id` is the one that declares it. -/
structure Association.Joins (a : Association) (count id : Nat) : Prop where
  master_lt : a.master < count
  slave_lt : a.slave < count
  declaring : match a.direction with
    | .hasMany => a.master = id ∧ a.target = a.slave
    | .belongsTo => a.slave = id ∧ a.target = a.master

theorem Association.Joins.mono {a : Association} {count count' id : Nat}
    (h : a.Joins count id) (hle : count ≤ count') : a.Joins count' id :=
  ⟨Nat.lt_of_lt_of_le h.master_lt hle, Nat.lt_of_lt_of_le h.slave_lt hle, h.declaring⟩

theorem Association.Joins.target_lt {a : Association} {count id : Nat} (h : a.Joins count id) :
    a.target < count := by
  unfold Association.target
  cases a.direction with
  | hasMany => exact h.slave_lt
  | belongsTo => exact h.master_lt

/-! ### One declaration -/

theorem Operation.apply_declare (s : Schema) (direction : Direction) (owner target : Nat)
    (options : AssociationOptions) :
    (Operation.declare direction owner target options).apply s =
      s.declare direction owner target options := by
  cases direction <;> rfl

namespace Schema
variable {s s' : Schema} {direction : Direction} {owner target : Nat}
  {options : AssociationOptions}

/-- Why a declaration is refused: the owner is looked up before the target, the key is
wanted before the name. -/
inductive Refuses (s : Schema) (direction : Direction) (owner target : Nat)
    (options : AssociationOptions) : Error → Prop
  | owner (unknown : s.relations[owner]? = none) :
    Refuses s direction owner target options (.unknownRelation (idText owner))
  | target {o : Relation} (known : s.relations[owner]? = some o)
    (unknown : s.relations[target]? = none) :
    Refuses s direction owner target options (.unknownRelation (idText target))
  | key {o t : Relation} (known : s.relations[owner]? = some o)
    (reached : s.relations[target]? = some t)
    (keyless : (options.targetKey <|> (direction.master o t).primaryKey) = none) :
    Refuses s direction owner target options (.missingTargetKey (direction.master o t).name)
  | name {o t : Relation} {key : String} (known : s.relations[owner]? = some o)
    (reached : s.relations[target]? = some t)
    (keyed : (options.targetKey <|> (direction.master o t).primaryKey) = some key)
    (taken : o.associations.contains (options.name t)) :
    Refuses s direction owner target options (.aliasAlreadyUsed (options.name t))

/-- A declaration is accepted and adds `a`, under a name that was free, to what its owner
`o` has. -/
structure Accepts (s : Schema) (direction : Direction) (owner target : Nat)
    (options : AssociationOptions) (o : Relation) (name : String) (a : Association) : Prop where
  known : s.relations[owner]? = some o
  free : o.associations[name]? = none
  parts : ∃ t key, s.relations[target]? = some t ∧ name = options.name t ∧
    (options.targetKey <|> (direction.master o t).primaryKey) = some key ∧
    a = ⟨direction, direction.master owner target, direction.slave owner target,
      options.foreignKey.getD ((direction.master o t).name ++ "Id"), key⟩

/-- A declaration between two relations that are there. -/
theorem declare_known {o t : Relation} (ho : s.relations[owner]? = some o)
    (ht : s.relations[target]? = some t) :
    s.declare direction owner target options =
      match options.targetKey <|> (direction.master o t).primaryKey with
      | none => .error (.missingTargetKey (direction.master o t).name)
      | some key =>
        if o.associations.contains (options.name t) then .error (.aliasAlreadyUsed (options.name t))
        else .ok ⟨s.relations.set owner (o.extended (options.name t)
          ⟨direction, direction.master owner target, direction.slave owner target,
            options.foreignKey.getD ((direction.master o t).name ++ "Id"), key⟩)⟩ := by
  cases direction with
  | hasMany =>
    simp only [declare, relation, ho, ht, bind, Except.bind, Association.between, Direction.master]
    cases options.targetKey <|> o.primaryKey <;> rfl
  | belongsTo =>
    simp only [declare, relation, ho, ht, bind, Except.bind, Association.between, Direction.master]
    cases options.targetKey <|> t.primaryKey <;> rfl

theorem declare_cases (s : Schema) (direction : Direction) (owner target : Nat)
    (options : AssociationOptions) :
    (∃ e, s.Refuses direction owner target options e ∧
      s.declare direction owner target options = .error e) ∨
    ∃ o name a, s.Accepts direction owner target options o name a ∧
      s.declare direction owner target options =
        .ok ⟨s.relations.set owner (o.extended name a)⟩ := by
  cases ho : s.relations[owner]? with
  | none =>
    refine .inl ⟨_, .owner ho, ?_⟩
    simp only [declare, relation, ho]
    rfl
  | some o =>
    cases ht : s.relations[target]? with
    | none =>
      refine .inl ⟨_, .target ho ht, ?_⟩
      simp only [declare, relation, ho, ht]
      rfl
    | some t =>
      rw [declare_known ho ht]
      cases hkey : (options.targetKey <|> (direction.master o t).primaryKey) with
      | none => exact .inl ⟨_, .key ho ht hkey, rfl⟩
      | some key =>
        by_cases htaken : o.associations.contains (options.name t)
        · exact .inl ⟨_, .name ho ht hkey htaken, if_pos htaken⟩
        · have hfree : o.associations[options.name t]? = none := by
            rw [Std.TreeMap.contains_eq_isSome_getElem?] at htaken
            simpa using htaken
          exact .inr ⟨o, _, _, ⟨ho, hfree, t, key, ht, rfl, hkey, rfl⟩, if_neg htaken⟩

/-! ### The operations on a schema -/

/-- An operation that fails leaves the schema as it is. -/
def perform (s : Schema) (o : Operation) : Schema :=
  match o.apply s with
  | .ok s' => s'
  | .error _ => s

/-- The schema after a history. -/
def after (history : List Operation) : Schema := history.foldl perform {}

/-- What a step of a history may do: nothing, one more relation behind the others, or one
more association on one relation. -/
inductive Step (s : Schema) (o : Operation) : Schema → Prop
  | refused (none_added : o.added = none) : Step s o s
  | added {name : String} {key : Option String} (adds : o.added = some (name, key)) :
    Step s o (s.addRelation name key)
  | declared {direction : Direction} {owner target : Nat} {options : AssociationOptions}
    {r : Relation} {name : String} {a : Association} (none_added : o.added = none)
    (accepted : s.Accepts direction owner target options r name a) :
    Step s o ⟨s.relations.set owner (r.extended name a)⟩

theorem step_perform (s : Schema) (o : Operation) : Step s o (s.perform o) := by
  cases o with
  | addTable name => exact .added rfl
  | addTableWithKey name key => exact .added rfl
  | addRelation name key => exact .added rfl
  | declare direction owner target options =>
    obtain ⟨e, -, he⟩ | ⟨r, name, a, haccepts, hok⟩ := s.declare_cases direction owner target options
    · have hperform : s.perform (.declare direction owner target options) = s := by
        rw [perform, Operation.apply_declare, he]
      exact hperform.symm ▸ .refused rfl
    · have hperform : s.perform (.declare direction owner target options) =
          ⟨s.relations.set owner (r.extended name a)⟩ := by
        rw [perform, Operation.apply_declare, hok]
      exact hperform.symm ▸ .declared rfl haccepts

/-! ### What histories keep -/

section
variable {o : Operation} {r : Relation} {name : String} {a : Association}

theorem Accepts.joins (h : s.Accepts direction owner target options r name a) :
    a.Joins s.relations.length owner := by
  obtain ⟨t, key, htarget, -, -, rfl⟩ := h.parts
  have howner : owner < s.relations.length := (List.getElem?_eq_some_iff.mp h.known).1
  have htarget : target < s.relations.length := (List.getElem?_eq_some_iff.mp htarget).1
  cases direction with
  | hasMany => exact ⟨howner, htarget, rfl, rfl⟩
  | belongsTo => exact ⟨htarget, howner, rfl, rfl⟩

theorem Step.kept (h : Step s o s') {id : Nat} (hr : s.relations[id]? = some r) :
    ∃ r', s'.relations[id]? = some r' ∧ r.Keeps r' := by
  have hlt : id < s.relations.length := (List.getElem?_eq_some_iff.mp hr).1
  cases h with
  | refused => exact ⟨r, hr, .refl r⟩
  | added => exact ⟨r, (List.getElem?_append_left hlt).trans hr, .refl r⟩
  | @declared _ owner _ _ known name a _ haccepts =>
    by_cases howner : owner = id
    · subst howner
      obtain rfl : r = known := Option.some.inj (hr.symm.trans haccepts.known)
      exact ⟨_, List.getElem?_set_self hlt, r.keeps_extended a haccepts.free⟩
    · exact ⟨r, (List.getElem?_set_ne howner).trans hr, .refl r⟩

/-- Every association stands with the relation that declares it and joins relations that
are there. -/
def Sound (s : Schema) : Prop :=
  ∀ (id : Nat) (r : Relation), s.relations[id]? = some r →
    ∀ (name : String) (a : Association), r.associations[name]? = some a →
      a.Joins s.relations.length id

theorem Step.sound (h : Step s o s') (hs : s.Sound) : s'.Sound := by
  intro id r hr other b hb
  cases h with
  | refused => exact hs id r hr other b hb
  | @added name key =>
    rw [length_addRelation]
    by_cases hlt : id < s.relations.length
    · exact (hs id r ((List.getElem?_append_left hlt).symm.trans hr) other b hb).mono
        (Nat.le_succ _)
    · -- The relation that was added has no association yet.
      have hr : [({ name, primaryKey := key } : Relation)][id - s.relations.length]? = some r :=
        (List.getElem?_append_right (Nat.le_of_not_lt hlt)).symm.trans hr
      obtain rfl : r = { name, primaryKey := key } := by
        simpa using List.mem_of_getElem? hr
      simp at hb
  | @declared _ owner _ _ known name a _ haccepts =>
    rw [List.length_set]
    by_cases howner : owner = id
    · subst howner
      have hlt : owner < s.relations.length := (List.getElem?_eq_some_iff.mp haccepts.known).1
      obtain rfl : known.extended name a = r :=
        Option.some.inj ((List.getElem?_set_self hlt).symm.trans hr)
      rw [Relation.getElem?_extended] at hb
      split at hb
      · obtain rfl : a = b := Option.some.inj hb
        exact haccepts.joins
      · exact hs owner known haccepts.known other b hb
    · exact hs id r ((List.getElem?_set_ne howner).symm.trans hr) other b hb

/-- The names and keys, in the order of the ids. -/
def headers (s : Schema) : List (String × Option String) :=
  s.relations.map fun r => (r.name, r.primaryKey)

theorem Step.headers_eq (h : Step s o s') : s'.headers = s.headers ++ o.added.toList := by
  cases h with
  | refused hnone => simp [hnone]
  | added hadds => simp [hadds, headers, addRelation]
  | @declared _ owner _ _ known name a hnone haccepts =>
    have hlt := List.getElem?_eq_some_iff.mp haccepts.known
    rw [hnone, Option.toList_none, List.append_nil, headers, headers, List.map_set]
    refine List.ext_getElem? fun id => ?_
    by_cases howner : owner = id
    · subst howner
      rw [List.getElem?_set_self (by simpa using hlt.1), List.getElem?_map, haccepts.known]
      rfl
    · rw [List.getElem?_set_ne howner]

end

/-! ### Histories -/

theorem after_append (history more : List Operation) :
    after (history ++ more) = more.foldl perform (after history) :=
  List.foldl_append

/-- A history goes on and keeps what there is. -/
theorem after_kept (history more : List Operation) {id : Nat} {r : Relation}
    (hr : (after history).relations[id]? = some r) :
    ∃ r', (after (history ++ more)).relations[id]? = some r' ∧ r.Keeps r' := by
  rw [after_append]
  generalize after history = s at hr ⊢
  induction more generalizing s r with
  | nil => exact ⟨r, hr, .refl r⟩
  | cons o more ih =>
    obtain ⟨r', hr', hkeeps⟩ := (s.step_perform o).kept hr
    obtain ⟨r'', hr'', hkeeps'⟩ := ih (s.perform o) hr'
    exact ⟨r'', hr'', hkeeps.trans hkeeps'⟩

theorem after_sound (history : List Operation) : (after history).Sound := by
  have hempty : ({} : Schema).Sound := by
    intro id r hr
    simp at hr
  unfold after
  generalize ({} : Schema) = s at hempty ⊢
  induction history generalizing s with
  | nil => exact hempty
  | cons o history ih => exact ih (s.perform o) ((s.step_perform o).sound hempty)

theorem headers_after (history : List Operation) :
    (after history).headers = history.filterMap Operation.added := by
  induction history using List.reverseRecOn with
  | nil => rfl
  | append_singleton history o ih =>
    rw [after_append, List.foldl_cons, List.foldl_nil, ((after history).step_perform o).headers_eq,
      ih, List.filterMap_append]
    cases hadded : o.added <;> simp [hadded]

end Schema

/-! ### The registry and the schema it holds -/

namespace Registry

/-- The registry that holds a schema: every relation with its place for an id. -/
def ofSchema (s : Schema) : Registry := ⟨s.relations.mapIdx Record.mk⟩

@[simp] theorem getElem?_ofSchema (s : Schema) (id : Nat) :
    (ofSchema s).records[id]? = s.relations[id]?.map (Record.mk id) :=
  List.getElem?_mapIdx

/-- The record at an id is made of that id and the relation that stands there. -/
theorem getElem?_ofSchema_eq_some_iff {s : Schema} {id : Nat} {r : Record} :
    (ofSchema s).records[id]? = some r ↔
      ∃ relation, s.relations[id]? = some relation ∧ r = ⟨id, relation⟩ := by
  rw [getElem?_ofSchema, Option.map_eq_some_iff]
  simp only [eq_comm]

@[simp] theorem length_ofSchema (s : Schema) :
    (ofSchema s).records.length = s.relations.length :=
  List.length_mapIdx

@[simp] theorem schema_ofSchema (s : Schema) : (ofSchema s).schema = s := by
  cases s with
  | mk relations =>
    refine congrArg Schema.mk (List.ext_getElem? fun id => ?_)
    rw [List.getElem?_map, getElem?_ofSchema, Option.map_map]
    exact Option.map_id' ..

theorem headers_ofSchema (s : Schema) :
    (ofSchema s).records.map (fun r => (r.relation.name, r.relation.primaryKey)) = s.headers := by
  have hmap := congrArg Schema.headers (schema_ofSchema s)
  rw [Schema.headers, schema, List.map_map] at hmap
  exact hmap

theorem ofSchema_addRelation (s : Schema) (name : String) (key : Option String) :
    ofSchema (s.addRelation name key) =
      ⟨(ofSchema s).records ++ [⟨s.relations.length, { name, primaryKey := key }⟩]⟩ := by
  simp [ofSchema, Schema.addRelation, List.mapIdx_append]

theorem ofSchema_set (s : Schema) (id : Nat) (r : Relation) :
    ofSchema ⟨s.relations.set id r⟩ = ⟨(ofSchema s).records.set id ⟨id, r⟩⟩ := by
  refine congrArg Registry.mk (List.ext_getElem? fun other => ?_)
  simp only [ofSchema, List.getElem?_mapIdx, List.getElem?_set, List.length_mapIdx]
  split
  · subst other
    split <;> rfl
  · rfl

/-! Each step of an operation, on the registry that holds a schema. -/

theorem bind_run {α β : Type} (x : InPlace α) (f : α → InPlace β) (g : Registry) :
    (x >>= f).run.run g = match x.run.run g with
      | (.ok a, g') => (f a).run.run g'
      | (.error e, g') => (.error e, g') := by
  simp only [ExceptT.run_bind, StateT.run_bind]
  rcases x.run.run g with ⟨_ | _, g'⟩ <;> rfl

theorem record_run (s : Schema) (id : Nat) :
    (record id).run.run (ofSchema s) = match s.relations[id]? with
      | some r => (.ok ⟨id, r⟩, ofSchema s)
      | none => (.error (.unknownRelation (Schema.idText id)), ofSchema s) := by
  have hget : (get : InPlace Registry).run.run (ofSchema s) = (.ok (ofSchema s), ofSchema s) := rfl
  unfold record
  rw [bind_run, hget]
  simp only [getElem?_ofSchema]
  cases s.relations[id]? <;> rfl

theorem add_run (s : Schema) (name : String) (key : Option String) :
    (add name key).run.run (ofSchema s) =
      (.ok s.relations.length, ofSchema (s.addRelation name key)) := by
  rw [ofSchema_addRelation, ← length_ofSchema s]
  rfl

/-- The association as it is made from two records. -/
theorem association_eq (direction : Direction) (owner target : Record)
    (options : AssociationOptions) :
    association direction owner target options =
      Association.between direction (direction.master owner target).id
        (direction.slave owner target).id (direction.master owner target).relation options := by
  cases direction with
  | hasMany =>
    unfold association fromMaster Association.between
    cases hkey : options.targetKey <|> owner.relation.primaryKey <;>
      simp only [Direction.master, Direction.slave, hkey]
  | belongsTo =>
    unfold association fromMaster Association.between
    cases hkey : options.targetKey <|> target.relation.primaryKey <;>
    · simp only [Direction.master, Direction.slave, hkey]
      rfl

theorem nameFor_run {s : Schema} {target : Nat} {t : Relation}
    (ht : s.relations[target]? = some t) (options : AssociationOptions) :
    (nameFor target options.label).run.run (ofSchema s) = (.ok (options.name t), ofSchema s) := by
  unfold nameFor AssociationOptions.name
  cases options.label with
  | some label => rfl
  | none =>
    simp only []
    rw [bind_run, record_run, ht]
    rfl

theorem register_run {s : Schema} {owner target : Nat} {o t : Relation}
    (ho : s.relations[owner]? = some o) (ht : s.relations[target]? = some t)
    (options : AssociationOptions) (a : Association) :
    (register owner target options.label a).run.run (ofSchema s) =
      if o.associations.contains (options.name t) then
        (.error (.aliasAlreadyUsed (options.name t)), ofSchema s)
      else (.ok (), ofSchema ⟨s.relations.set owner (o.extended (options.name t) a)⟩) := by
  unfold register
  rw [bind_run, nameFor_run ht]
  simp only []
  rw [bind_run, record_run, ho]
  simp only []
  split
  · rfl
  · rw [ofSchema_set]
    rfl

/-- A declaration in place does what it says on a schema, or nothing. -/
theorem declare_run (s : Schema) (direction : Direction) (owner target : Nat)
    (options : AssociationOptions) :
    (declare direction owner target options).run.run (ofSchema s) =
      match s.declare direction owner target options with
      | .ok s' => (.ok (), ofSchema s')
      | .error e => (.error e, ofSchema s) := by
  unfold declare
  rw [bind_run, record_run]
  cases ho : s.relations[owner]? with
  | none =>
    simp only [Schema.declare, Schema.relation, ho]
    rfl
  | some o =>
    simp only []
    rw [bind_run, record_run]
    cases ht : s.relations[target]? with
    | none =>
      simp only [Schema.declare, Schema.relation, ho, ht]
      rfl
    | some t =>
      simp only []
      rw [Schema.declare_known ho ht, association_eq, bind_run]
      have hmaster : (direction.master (⟨owner, o⟩ : Record) ⟨target, t⟩) =
          ⟨direction.master owner target, direction.master o t⟩ := by
        cases direction <;> rfl
      have hslave : (direction.slave (⟨owner, o⟩ : Record) ⟨target, t⟩).id =
          direction.slave owner target := by
        cases direction <;> rfl
      rw [hmaster, hslave, Association.between]
      cases options.targetKey <|> (direction.master o t).primaryKey with
      | none => rfl
      | some key =>
        show (register owner target options.label _).run.run _ = _
        rw [register_run ho ht]
        by_cases htaken : o.associations.contains (options.name t)
        · simp only [if_pos htaken]
        · simp only [if_neg htaken]

/-- One operation in place does what it says on the schema, or nothing. -/
theorem perform_ofSchema (s : Schema) (o : Operation) :
    (ofSchema s).perform o = match o.apply s with
      | .ok s' => (.ok (o.added.map fun _ => s.relations.length), ofSchema s')
      | .error e => (.error e, ofSchema s) := by
  unfold perform
  cases o with
  | addTable name | addTableWithKey name key | addRelation name key =>
    simp only [Operation.inPlace, map_eq_pure_bind, bind_run, add_run]
    rfl
  | declare direction owner target options =>
    simp only [Operation.inPlace, map_eq_pure_bind, bind_run, declare_run, Operation.apply_declare]
    cases s.declare direction owner target options <;> rfl

/-- A relation that is added is answered with its place. -/
theorem perform_added (s : Schema) {o : Operation} {header : String × Option String}
    (hadded : o.added = some header) :
    ((ofSchema s).perform o).1 = .ok (some (ofSchema s).records.length) := by
  rw [perform_ofSchema]
  cases o with
  | addTable | addTableWithKey | addRelation => simp [Operation.apply, Operation.added]
  | declare => cases hadded

/-- A declaration is refused and changes nothing, or replaces the record of its owner. -/
theorem perform_declare (s : Schema) (direction : Direction) (owner target : Nat)
    (options : AssociationOptions) :
    (∃ e, s.Refuses direction owner target options e ∧
      (ofSchema s).perform (.declare direction owner target options) = (.error e, ofSchema s)) ∨
    ∃ o name a, s.Accepts direction owner target options o name a ∧
      (ofSchema s).perform (.declare direction owner target options) =
        (.ok none, ⟨(ofSchema s).records.set owner ⟨owner, o.extended name a⟩⟩) := by
  rw [perform_ofSchema, Operation.apply_declare]
  obtain ⟨e, he, herror⟩ | ⟨o, name, a, haccepts, hok⟩ :=
    s.declare_cases direction owner target options
  · exact .inl ⟨e, he, by rw [herror]⟩
  · refine .inr ⟨o, name, a, haccepts, ?_⟩
    rw [hok, ← ofSchema_set]
    rfl

theorem after_eq (history : List Operation) : after history = ofSchema (Schema.after history) := by
  unfold after Schema.after
  have hempty : ({} : Registry) = ofSchema {} := rfl
  rw [hempty]
  generalize ({} : Schema) = s
  induction history generalizing s with
  | nil => rfl
  | cons o history ih =>
    have hstep : ((ofSchema s).perform o).2 = ofSchema (s.perform o) := by
      rw [perform_ofSchema, Schema.perform]
      cases o.apply s <;> rfl
    rw [List.foldl_cons, List.foldl_cons, hstep, ih]

/-- A record stays where it is, under its id, when the history goes on. -/
theorem after_kept (history more : List Operation) {id : Nat} {r : Record}
    (hr : (after history).records[id]? = some r) :
    ∃ r', (after (history ++ more)).records[id]? = some r' ∧ r'.id = r.id ∧
      r.relation.Keeps r'.relation := by
  rw [after_eq] at hr
  obtain ⟨relation, hrelation, rfl⟩ := getElem?_ofSchema_eq_some_iff.mp hr
  obtain ⟨relation', hrelation', hkeeps⟩ := Schema.after_kept history more hrelation
  rw [after_eq]
  exact ⟨⟨id, relation'⟩, getElem?_ofSchema_eq_some_iff.mpr ⟨relation', hrelation', rfl⟩, rfl,
    hkeeps⟩

theorem joins_of_sound {s : Schema} (hsound : s.Sound) {r : Record}
    (hr : r ∈ (ofSchema s).records) {name : String} {a : Association}
    (ha : r.relation.associations[name]? = some a) :
    a.Joins (ofSchema s).records.length r.id := by
  obtain ⟨id, hid⟩ := List.mem_iff_getElem?.mp hr
  obtain ⟨relation, hrelation, rfl⟩ := getElem?_ofSchema_eq_some_iff.mp hid
  rw [length_ofSchema]
  exact hsound id relation hrelation name a ha

end Registry

/-! ### Frozen schemas -/

namespace FrozenSchema
variable {f : FrozenSchema} {id : Nat} {ref : RelationRef}

theorem reference_eq_ok_iff :
    f.reference id = .ok ref ↔ ∃ hid : id < f.schema.relations.length, ref = ⟨f, id, hid⟩ := by
  unfold reference
  split
  · rename_i hid
    simp [hid, eq_comm]
  · rename_i hid
    simp [hid]

theorem exists_reference_iff :
    (∃ ref, f.reference id = .ok ref) ↔ id < f.schema.relations.length :=
  ⟨fun ⟨_, href⟩ => (reference_eq_ok_iff.mp href).1,
    fun hid => ⟨_, reference_eq_ok_iff.mpr ⟨hid, rfl⟩⟩⟩

/-- Looking up the relation that a reference stands for cannot fail. -/
theorem relation_of_reference (h : f.reference id = .ok ref) :
    f.schema.relation ref.id = .ok ref.relation := by
  obtain ⟨hid, rfl⟩ := reference_eq_ok_iff.mp h
  exact Schema.relation_eq_ok_iff.mpr (List.getElem?_eq_getElem hid)

/-- In a sound schema the relation that an association leads to can be referred to. -/
theorem sibling_of_sound (hsound : f.schema.Sound) (h : f.reference id = .ok ref) {name : String}
    {a : Association} (ha : ref.association name = .ok a) :
    ∃ reached, ref.sibling a.target = .ok reached ∧ f.reference a.target = .ok reached ∧
      reached.id.val = a.target := by
  obtain ⟨hid, rfl⟩ := reference_eq_ok_iff.mp h
  have ha : (f.schema.relations[id]).associations[name]? = some a :=
    RelationRef.association_eq_ok_iff.mp ha
  have htarget : a.target < f.schema.relations.length :=
    (hsound id _ (List.getElem?_eq_getElem hid) name a ha).target_lt
  have hreached : f.reference a.target = .ok ⟨f, a.target, htarget⟩ :=
    reference_eq_ok_iff.mpr ⟨htarget, rfl⟩
  exact ⟨_, hreached, hreached, rfl⟩

end FrozenSchema

namespace Registry

/-- **What every history of a registry leaves behind**, whatever names, options and ids
its operations are given. The registry holds the schema of the history, the relations
numbered in the order in which they were added and with the names and keys they were
added with; every association joins two of them and stands with the one that declares
it. A declaration is refused, for the stated reason, and then nothing has changed, or it
adds one association under a free name of its owner and nothing else. What there is
stays when the history goes on. Once frozen, what is referred to is found, and what its
associations lead to can be referred to. -/
theorem history_sound (history : List Operation) :
    let g := after history
    g.schema = Schema.after history ∧
    (∀ (id : Nat) (r : Record), g.records[id]? = some r → r.id = id) ∧
    g.records.map (fun r => (r.relation.name, r.relation.primaryKey)) =
      history.filterMap Operation.added ∧
    (∀ (o : Operation) (header : String × Option String), o.added = some header →
      (g.perform o).1 = .ok (some g.records.length)) ∧
    (∀ r ∈ g.records, ∀ (name : String) (a : Association),
      r.relation.associations[name]? = some a → a.Joins g.records.length r.id) ∧
    (∀ (direction : Direction) (owner target : Nat) (options : AssociationOptions),
      (∃ e, g.schema.Refuses direction owner target options e ∧
        g.perform (.declare direction owner target options) = (.error e, g)) ∨
      ∃ o name a, g.schema.Accepts direction owner target options o name a ∧
        g.perform (.declare direction owner target options) =
          (.ok none, ⟨g.records.set owner ⟨owner, o.extended name a⟩⟩)) ∧
    (∀ (more : List Operation) (id : Nat) (r : Record), g.records[id]? = some r →
      ∃ r', (after (history ++ more)).records[id]? = some r' ∧ r'.id = r.id ∧
        r.relation.Keeps r'.relation) ∧
    ∀ (stamp id : Nat),
      let f : FrozenSchema := ⟨stamp, g.schema⟩
      ((∃ ref, f.reference id = .ok ref) ↔ id < g.records.length) ∧
      ∀ ref, f.reference id = .ok ref → f.schema.relation ref.id = .ok ref.relation ∧
        ∀ (name : String) (a : Association), ref.association name = .ok a →
          ∃ reached, ref.sibling a.target = .ok reached ∧ f.reference a.target = .ok reached ∧
            reached.id.val = a.target := by
  intro g
  obtain ⟨s, hs⟩ : ∃ s, s = Schema.after history := ⟨_, rfl⟩
  have hg : g = ofSchema s := hs ▸ after_eq history
  have hsound : s.Sound := hs ▸ Schema.after_sound history
  have hheaders : s.headers = history.filterMap Operation.added :=
    hs ▸ Schema.headers_after history
  refine ⟨?_, ?_, ?_, ?_, ?_, ?_, fun more id r hr => after_kept history more hr, ?_⟩
  all_goals rw [hg]
  · exact (schema_ofSchema s).trans hs
  · intro id r hr
    obtain ⟨relation, -, rfl⟩ := getElem?_ofSchema_eq_some_iff.mp hr
    rfl
  · exact (headers_ofSchema s).trans hheaders
  · exact fun o header hadded => perform_added s hadded
  · exact fun r hr name a ha => joins_of_sound hsound hr ha
  · rw [schema_ofSchema]
    exact perform_declare s
  · rw [schema_ofSchema, length_ofSchema]
    intro stamp id f
    exact ⟨FrozenSchema.exists_reference_iff, fun ref href =>
      ⟨FrozenSchema.relation_of_reference href,
        fun name a ha => FrozenSchema.sibling_of_sound hsound href ha⟩⟩

/-- A history in which three declarations fail, at three different points, and one joins
a relation with itself. -/
def tripHistory : List Operation :=
  [.addTable "trip", .declare .hasMany 0 1 {}, .addRelation "stop" none, .declare .hasMany 0 1 {},
    .declare .hasMany 0 1 { foreignKey := some "at" }, .declare .hasMany 1 1 {},
    .declare .belongsTo 0 0 { label := some "previous" }]

theorem history_sound_trips :
    (after tripHistory).records.map (fun r => (r.id, r.relation.name)) =
      [(0, "trip"), (1, "stop")] ∧
    ((after tripHistory).records.map fun r => r.relation.associations.toList) =
      [[("previous", ⟨.belongsTo, 0, 0, "tripId", "id"⟩),
        ("stop", ⟨.hasMany, 0, 1, "tripId", "id"⟩)], []] ∧
    ∀ r ∈ (after tripHistory).records, ∀ (name : String) (a : Association),
      r.relation.associations[name]? = some a → a.Joins 2 r.id :=
  have hlength : (after tripHistory).records.length = 2 := by decide +kernel
  ⟨by decide +kernel, by decide +kernel, hlength ▸ (history_sound tripHistory).2.2.2.2.1⟩

end Registry

end QueryBuilder
