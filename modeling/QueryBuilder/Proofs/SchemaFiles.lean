import QueryBuilder.Proofs.Results
import QueryBuilder.Proofs.SchemaHistories
import QueryBuilder.Schema.File

/-! What a schema file means.

A file can be read without replaying it. A relation is known by its place, a name means the first
relation that is called so, and a record declares its association by what it says and by what the
relations are called; which associations have been registered before matters only for the name it
takes. Replaying follows this reading record by record: after some of the records the schema is the
one that they describe, and the next one is rejected for the reason that it has among these. -/
namespace QueryBuilder.Schema

/-- The name under which a record registers its association. -/
def AssociationRecord.name (r : AssociationRecord) : String := r.label.getD r.target

/-- The name of the one side. -/
def AssociationRecord.master (r : AssociationRecord) : String := r.kind.master r.owner r.target

/-- The name of the many side. -/
def AssociationRecord.slave (r : AssociationRecord) : String := r.kind.slave r.owner r.target

/-! ### Reading a file as it stands -/

/-- The primary key of a record's relation. -/
inductive RelationRecord.Keyed (r : RelationRecord) : Option String → Prop
  | given {key : String} (own : r.primaryKey = some key) : Keyed r (some key)
  | default (none_given : r.primaryKey = none) (plain : r.derived = false) : Keyed r (some "id")
  | derived (none_given : r.primaryKey = none) (derived : r.derived = true) : Keyed r none

section
variable (relations : List RelationRecord)

/-- The relation in this place is the first one of this name. -/
structure FirstCalled (name : String) (id : Nat) : Prop where
  called : ∃ r, relations[id]? = some r ∧ r.name = name
  first : ∀ earlier < id, ∀ r, relations[earlier]? = some r → r.name ≠ name

/-- No relation has this name. -/
def Uncalled (name : String) : Prop := ∀ r ∈ relations, r.name ≠ name

/-- The key that a record's association points at: its own one, or else that of the one side. -/
inductive PointsAt (r : AssociationRecord) : Option String → Prop
  | given {key : String} (own : r.targetKey = some key) : PointsAt r (some key)
  | master {id : Nat} {m : RelationRecord} {key : Option String} (none_given : r.targetKey = none)
    (first : FirstCalled relations r.master id) (found : relations[id]? = some m)
    (keyed : m.Keyed key) : PointsAt r key

/-- The association that a record declares. -/
structure Declares (r : AssociationRecord) (a : Association) : Prop where
  direction_eq : a.direction = r.kind
  master : FirstCalled relations r.master a.master
  slave : FirstCalled relations r.slave a.slave
  target : FirstCalled relations r.target a.target
  targetKey : PointsAt relations r (some a.targetKey)
  foreignKey_eq : a.foreignKey = r.foreignKey.getD (r.master ++ "Id")

/-- Why a record is rejected behind these: the owner is looked for before the target, both before
the key, and the name comes last. -/
inductive Rejects (earlier : List AssociationRecord) (r : AssociationRecord) : Error → Prop
  | owner (unknown : Uncalled relations r.owner) : Rejects earlier r (.unknownRelation r.owner)
  | target (known : ¬ Uncalled relations r.owner) (unknown : Uncalled relations r.target) :
    Rejects earlier r (.unknownRelation r.target)
  | key (known : ¬ Uncalled relations r.owner) (reached : ¬ Uncalled relations r.target)
    (keyless : PointsAt relations r none) : Rejects earlier r (.missingTargetKey r.master)
  | name (known : ¬ Uncalled relations r.owner) (reached : ¬ Uncalled relations r.target)
    (keyed : ¬ PointsAt relations r none)
    (taken : ∃ e ∈ earlier, e.owner = r.owner ∧ e.name = r.name) :
    Rejects earlier r (.aliasAlreadyUsed r.name)

/-- None of the records is rejected behind those in front of it. -/
def Unrejected (associations : List AssociationRecord) : Prop :=
  ∀ front r, front ++ [r] <+: associations → ∀ e, ¬ Rejects relations front r e

/-- The first of the records that is rejected is rejected for this reason. -/
def FirstRejected (associations : List AssociationRecord) (e : Error) : Prop :=
  ∃ front r, front ++ [r] <+: associations ∧ Unrejected relations front ∧ Rejects relations front r e

/-- The schema has these relations in their places, and the associations that the records declare
on their owners, and no others. -/
structure Describes (associations : List AssociationRecord) (s : Schema) : Prop where
  count_eq : s.relations.length = relations.length
  relation : ∀ (id : Nat) (x : Relation), s.relations[id]? = some x →
    ∃ r, relations[id]? = some r ∧ x.name = r.name ∧ r.Keyed x.primaryKey
  registered : ∀ r ∈ associations, ∃ id x a, FirstCalled relations r.owner id ∧
    s.relations[id]? = some x ∧ Declares relations r a ∧ x.associations[r.name]? = some a
  only : ∀ (id : Nat) (x : Relation), s.relations[id]? = some x →
    ∀ (name : String) (a : Association), x.associations[name]? = some a →
      ∃ r ∈ associations, FirstCalled relations r.owner id ∧ r.name = name ∧ Declares relations r a

end

/-! ### Names and keys -/

theorem RelationRecord.keyed_iff {r : RelationRecord} {key : Option String} :
    r.Keyed key ↔ key = r.key := by
  constructor
  · intro h
    cases h with
    | given own => simp [RelationRecord.key, own]
    | default hnone hplain => simp [RelationRecord.key, hnone, hplain, defaultPrimaryKey]
    | derived hnone hderived => simp [RelationRecord.key, hnone, hderived]
  · rintro rfl
    unfold RelationRecord.key
    cases hkey : r.primaryKey with
    | some key => exact .given hkey
    | none =>
      cases hderived : r.derived with
      | false => exact .default hkey hderived
      | true => exact .derived hkey hderived

section
variable {relations : List RelationRecord} {name : String} {id : Nat}

theorem FirstCalled.unique {id' : Nat} (h : FirstCalled relations name id)
    (h' : FirstCalled relations name id') : id = id' := by
  obtain ⟨r, hr, hname⟩ := h.called
  obtain ⟨r', hr', hname'⟩ := h'.called
  rcases Nat.lt_trichotomy id id' with hlt | heq | hlt
  · exact absurd hname (h'.first id hlt r hr)
  · exact heq
  · exact absurd hname' (h.first id' hlt r' hr')

theorem FirstCalled.name_eq {name' : String} (h : FirstCalled relations name id)
    (h' : FirstCalled relations name' id) : name = name' := by
  obtain ⟨r, hr, rfl⟩ := h.called
  obtain ⟨r', hr', rfl⟩ := h'.called
  rw [Option.some.inj (hr.symm.trans hr')]

theorem FirstCalled.not_uncalled (h : FirstCalled relations name id) : ¬ Uncalled relations name := by
  obtain ⟨r, hr, hname⟩ := h.called
  exact fun hnone => hnone r (List.mem_of_getElem? hr) hname

end

/-! ### One record -/

section
variable {relations : List RelationRecord} {earlier : List AssociationRecord} {s : Schema}

/-- Both have a relation in the same places. -/
theorem Describes.exists_relation (h : Describes relations earlier s) {id : Nat}
    {r : RelationRecord} (hr : relations[id]? = some r) :
    ∃ x, s.relations[id]? = some x ∧ x.name = r.name ∧ r.Keyed x.primaryKey := by
  have hlt : id < s.relations.length := h.count_eq ▸ (List.getElem?_eq_some_iff.mp hr).1
  have hx := List.getElem?_eq_getElem hlt
  obtain ⟨r', hr', hname, hkeyed⟩ := h.relation id _ hx
  obtain rfl := Option.some.inj (hr.symm.trans hr')
  exact ⟨_, hx, hname, hkeyed⟩

/-- A name is looked up as the file says. -/
theorem Describes.relationByName (h : Describes relations earlier s) (name : String) :
    (Uncalled relations name ∧ s.relationByName name = .error (.unknownRelation name)) ∨
    ∃ id x, FirstCalled relations name id ∧ s.relations[id]? = some x ∧ x.name = name ∧
      s.relationByName name = .ok id := by
  unfold Schema.relationByName
  cases hfind : s.relations.findIdx? (·.name = name) with
  | none =>
    refine .inl ⟨?_, rfl⟩
    intro r hr hname
    obtain ⟨id, hid⟩ := List.mem_iff_getElem?.mp hr
    obtain ⟨x, hx, hxname, -⟩ := h.exists_relation hid
    have hother := List.findIdx?_eq_none_iff.mp hfind x (List.mem_of_getElem? hx)
    simp [hxname, hname] at hother
  | some id =>
    obtain ⟨hlt, hname, hfirst⟩ := List.findIdx?_eq_some_iff_getElem.mp hfind
    have hx := List.getElem?_eq_getElem hlt
    obtain ⟨r, hr, hrname, -⟩ := h.relation id _ hx
    have hname : s.relations[id].name = name := by simpa using hname
    refine .inr ⟨id, _, ⟨⟨r, hr, hrname.symm.trans hname⟩, ?_⟩, hx, hname, rfl⟩
    intro other hother r' hr' hr'name
    obtain ⟨x, hx', hx'name, -⟩ := h.exists_relation hr'
    obtain ⟨hlt', rfl⟩ := List.getElem?_eq_some_iff.mp hx'
    exact hfirst other hother (by simp [hx'name, hr'name])

/-- The key of a declaration is the one that the record's association points at. -/
theorem Describes.pointsAt_iff (h : Describes relations earlier s) {r : AssociationRecord} {id : Nat}
    {m : Relation} (hfirst : FirstCalled relations r.master id) (hm : s.relations[id]? = some m)
    {key : Option String} : PointsAt relations r key ↔ (r.targetKey <|> m.primaryKey) = key := by
  obtain ⟨x, hx, -, hkeyed⟩ := h.relation id m hm
  constructor
  · intro hpoints
    cases hpoints with
    | given hown => simp [hown]
    | master hnone hfirst' hfound hkeyed' =>
      obtain rfl := hfirst.unique hfirst'
      obtain rfl := Option.some.inj (hx.symm.trans hfound)
      rw [hnone, RelationRecord.keyed_iff.mp hkeyed, RelationRecord.keyed_iff.mp hkeyed']
      rfl
  · rintro rfl
    cases htarget : r.targetKey with
    | some key => exact .given htarget
    | none => exact .master htarget hfirst hx hkeyed

/-- A name is free on its owner if none of the records has taken it there. -/
theorem Describes.free_iff (h : Describes relations earlier s) {r : AssociationRecord} {id : Nat}
    {o : Relation} (hfirst : FirstCalled relations r.owner id) (ho : s.relations[id]? = some o) :
    o.associations[r.name]? = none ↔ ¬ ∃ e ∈ earlier, e.owner = r.owner ∧ e.name = r.name := by
  constructor
  · rintro hfree ⟨e, he, howner, hname⟩
    obtain ⟨id', x, a, hfirst', hx, -, ha⟩ := h.registered e he
    obtain rfl := hfirst.unique (howner ▸ hfirst')
    obtain rfl := Option.some.inj (ho.symm.trans hx)
    rw [hname, hfree] at ha
    cases ha
  · intro hfree
    refine Option.eq_none_iff_forall_ne_some.mpr fun a ha => hfree ?_
    obtain ⟨e, he, hfirst', hname, -⟩ := h.only id o ho r.name a ha
    exact ⟨e, he, hfirst'.name_eq hfirst, hname⟩

/-- One more association, under a name that was free on its owner. -/
theorem Describes.extended (h : Describes relations earlier s) {r : AssociationRecord} {owner : Nat}
    {o : Relation} (hfirst : FirstCalled relations r.owner owner)
    (ho : s.relations[owner]? = some o) (hfree : o.associations[r.name]? = none) {a : Association}
    (ha : Declares relations r a) :
    Describes relations (earlier ++ [r]) ⟨s.relations.set owner (o.extended r.name a)⟩ := by
  have hlt : owner < s.relations.length := (List.getElem?_eq_some_iff.mp ho).1
  have hset : (s.relations.set owner (o.extended r.name a))[owner]? = some (o.extended r.name a) :=
    List.getElem?_set_self hlt
  have hkeep : ∀ (id : Nat) (x : Relation), s.relations[id]? = some x →
      ∃ x', (s.relations.set owner (o.extended r.name a))[id]? = some x' ∧ x.Keeps x' := by
    intro id x hx
    by_cases hid : owner = id
    · subst hid
      obtain rfl := Option.some.inj (ho.symm.trans hx)
      exact ⟨_, hset, o.keeps_extended a hfree⟩
    · exact ⟨x, (List.getElem?_set_ne hid).trans hx, .refl x⟩
  have hback : ∀ (id : Nat) (x' : Relation), (s.relations.set owner (o.extended r.name a))[id]? = some x' →
      (id = owner ∧ x' = o.extended r.name a) ∨ s.relations[id]? = some x' := by
    intro id x' hx'
    by_cases hid : owner = id
    · subst hid
      exact .inl ⟨rfl, (Option.some.inj (hset.symm.trans hx')).symm⟩
    · exact .inr ((List.getElem?_set_ne hid).symm.trans hx')
  refine ⟨(List.length_set).trans h.count_eq, ?_, ?_, ?_⟩
  · intro id x' hx'
    rcases hback id x' hx' with ⟨rfl, rfl⟩ | hx
    · exact h.relation id o ho
    · exact h.relation id x' hx
  · intro r' hr'
    rcases List.mem_append.mp hr' with hr' | hr'
    · obtain ⟨id, x, a', hfirst', hx, ha', hregistered⟩ := h.registered r' hr'
      obtain ⟨x', hx', hkeeps⟩ := hkeep id x hx
      exact ⟨id, x', a', hfirst', hx', ha', hkeeps.association _ _ hregistered⟩
    · obtain rfl := List.mem_singleton.mp hr'
      exact ⟨owner, _, a, hfirst, hset, ha, by rw [Relation.getElem?_extended, if_pos rfl]⟩
  · intro id x' hx' name b hb
    rcases hback id x' hx' with ⟨rfl, rfl⟩ | hx
    · rw [Relation.getElem?_extended] at hb
      split at hb
      · rename_i hname
        obtain rfl := Option.some.inj hb
        exact ⟨r, List.mem_append_right _ (List.mem_singleton_self r), hfirst, hname, ha⟩
      · obtain ⟨r', hr', hrest⟩ := h.only id o ho name b hb
        exact ⟨r', List.mem_append_left _ hr', hrest⟩
    · obtain ⟨r', hr', hrest⟩ := h.only id x' hx name b hb
      exact ⟨r', List.mem_append_left _ hr', hrest⟩

/-- The step: a record is rejected for the reason that it has among the earlier ones, or its
association is one more. -/
theorem Describes.declareRecord (h : Describes relations earlier s) (r : AssociationRecord) :
    (∃ e, Rejects relations earlier r e ∧ s.declareRecord r = .error e) ∨
    ((∀ e, ¬ Rejects relations earlier r e) ∧
      ∃ s', s.declareRecord r = .ok s' ∧ Describes relations (earlier ++ [r]) s') := by
  rcases h.relationByName r.owner with ⟨hunknown, howner⟩ | ⟨owner, o, hfirst, ho, honame, howner⟩
  · exact .inl ⟨_, .owner hunknown, by simp only [Schema.declareRecord, howner]; rfl⟩
  rcases h.relationByName r.target with
    ⟨hunknown, htarget⟩ | ⟨target, t, hreached, ht, htname, htarget⟩
  · refine .inl ⟨_, .target hfirst.not_uncalled hunknown, ?_⟩
    simp only [Schema.declareRecord, howner, htarget]
    rfl
  obtain ⟨hmaster, hm, hmname⟩ : FirstCalled relations r.master (r.kind.master owner target) ∧
      s.relations[r.kind.master owner target]? = some (r.kind.master o t) ∧
      (r.kind.master o t).name = r.master := by
    unfold AssociationRecord.master
    cases r.kind with
    | hasMany => exact ⟨hfirst, ho, honame⟩
    | belongsTo => exact ⟨hreached, ht, htname⟩
  have hslave : FirstCalled relations r.slave (r.kind.slave owner target) := by
    unfold AssociationRecord.slave
    cases r.kind with
    | hasMany => exact hreached
    | belongsTo => exact hfirst
  have hname : ({ label := r.label, foreignKey := r.foreignKey, targetKey := r.targetKey } :
      AssociationOptions).name t = r.name := by
    rw [AssociationOptions.name, AssociationRecord.name, htname]
  have hpoints : ∀ key, PointsAt relations r key ↔
      (r.targetKey <|> (r.kind.master o t).primaryKey) = key := fun _ => h.pointsAt_iff hmaster hm
  have hdeclare : s.declareRecord r = s.declare r.kind owner target
      { label := r.label, foreignKey := r.foreignKey, targetKey := r.targetKey } := by
    simp only [Schema.declareRecord, howner, htarget]
    rfl
  rw [hdeclare, declare_known ho ht, hname, hmname]
  cases hkey : (r.targetKey <|> (r.kind.master o t).primaryKey) with
  | none =>
    exact .inl ⟨_, .key hfirst.not_uncalled hreached.not_uncalled ((hpoints none).mpr hkey), rfl⟩
  | some key =>
    have hkeyed : ¬ PointsAt relations r none := by simp [hpoints, hkey]
    have htaken := h.free_iff hfirst ho
    by_cases hcontains : o.associations.contains r.name
    · refine .inl ⟨_, .name hfirst.not_uncalled hreached.not_uncalled hkeyed ?_, if_pos hcontains⟩
      rw [Std.TreeMap.contains_eq_isSome_getElem?, Option.isSome_iff_ne_none] at hcontains
      exact not_not.mp (htaken.not.mp hcontains)
    · have hfree : o.associations[r.name]? = none := by
        rw [Std.TreeMap.contains_eq_isSome_getElem?] at hcontains
        simpa using hcontains
      refine .inr ⟨?_, _, if_neg hcontains, h.extended hfirst ho hfree ?_⟩
      · intro e hrejects
        cases hrejects with
        | owner hunknown => exact hfirst.not_uncalled hunknown
        | target _ hunknown => exact hreached.not_uncalled hunknown
        | key _ _ hkeyless => exact hkeyed hkeyless
        | name _ _ _ hname => exact htaken.mp hfree hname
      · refine ⟨rfl, hmaster, hslave, ?_, (hpoints _).mpr hkey, rfl⟩
        unfold Association.target
        cases r.kind with
        | hasMany => exact hreached
        | belongsTo => exact hreached

end

/-! ### All records -/

section
variable {relations : List RelationRecord} {associations : List AssociationRecord}

theorem Unrejected.concat (h : Unrejected relations associations) {r : AssociationRecord}
    (hr : ∀ e, ¬ Rejects relations associations r e) :
    Unrejected relations (associations ++ [r]) := by
  intro front r' hfront
  rcases List.prefix_concat_iff.mp hfront with heq | hfront
  · obtain ⟨rfl, rfl⟩ := List.append_singleton_inj.mp heq
    exact hr
  · exact h front r' hfront

/-- Nothing behind the first record that is rejected matters. -/
theorem FirstRejected.append {e : Error} (h : FirstRejected relations associations e)
    (more : List AssociationRecord) : FirstRejected relations (associations ++ more) e := by
  obtain ⟨front, r, hfront, hrest⟩ := h
  exact ⟨front, r, hfront.trans (List.prefix_append ..), hrest⟩

theorem FirstRejected.not_unrejected {e : Error} (h : FirstRejected relations associations e) :
    ¬ Unrejected relations associations := by
  obtain ⟨front, r, hfront, -, hr⟩ := h
  exact fun hnone => hnone front r hfront e hr

theorem Rejects.unique {r : AssociationRecord} {e e' : Error} (h : Rejects relations associations r e)
    (h' : Rejects relations associations r e') : e = e' := by
  cases h <;> cases h' <;> first | rfl | contradiction

theorem FirstRejected.unique {e e' : Error} (h : FirstRejected relations associations e)
    (h' : FirstRejected relations associations e') : e = e' := by
  obtain ⟨front, r, hfront, hfine, hr⟩ := h
  obtain ⟨front', r', hfront', hfine', hr'⟩ := h'
  -- Neither of the two records stands in front of the other.
  have hle : ∀ {front front' : List AssociationRecord} {r r' : AssociationRecord} {e : Error},
      front ++ [r] <+: associations → front' ++ [r'] <+: associations →
      Unrejected relations front' → Rejects relations front r e →
      front'.length ≤ front.length := by
    intro front front' r r' e hfront hfront' hfine' hr
    by_contra hlt
    have hinside : front ++ [r] <+: front' := by
      refine List.prefix_of_prefix_length_le hfront ((List.prefix_append ..).trans hfront') ?_
      rw [List.length_append, List.length_singleton]
      omega
    exact hfine' front r hinside e hr
  have hlength : (front ++ [r]).length = (front' ++ [r']).length := by
    rw [List.length_append, List.length_append, List.length_singleton, List.length_singleton,
      Nat.le_antisymm (hle hfront' hfront hfine hr') (hle hfront hfront' hfine' hr)]
  have heq := (List.prefix_of_prefix_length_le hfront hfront' (Nat.le_of_eq hlength)).eq_of_length hlength
  obtain ⟨rfl, rfl⟩ := List.append_singleton_inj.mp heq
  exact hr.unique hr'

theorem foldlM_declareRecord_concat (s : Schema) (associations : List AssociationRecord)
    (r : AssociationRecord) :
    (associations ++ [r]).foldlM declareRecord s =
      (associations.foldlM declareRecord s >>= fun s' => s'.declareRecord r) := by
  rw [List.foldlM_append]
  refine congrArg _ (funext fun s' => ?_)
  rw [List.foldlM_cons]
  exact bind_pure _

/-- The relations of a file, without any associations. -/
theorem describes_relations (relations : List RelationRecord) :
    Describes relations [] (relations.foldl addRecord {}) := by
  have hfold : (relations.foldl addRecord {}).relations =
      relations.map fun r => { name := r.name, primaryKey := r.key } := by
    induction relations using List.reverseRecOn with
    | nil => rfl
    | append_singleton relations r ih =>
      rw [List.foldl_append, List.foldl_cons, List.foldl_nil, addRecord, addRelation, ih,
        List.map_append, List.map_singleton]
  have hplace : ∀ (id : Nat) (x : Relation), (relations.foldl addRecord {}).relations[id]? = some x →
      ∃ r, relations[id]? = some r ∧ x = { name := r.name, primaryKey := r.key } := by
    intro id x hx
    rw [hfold, List.getElem?_map] at hx
    obtain ⟨r, hr, rfl⟩ := Option.map_eq_some_iff.mp hx
    exact ⟨r, hr, rfl⟩
  refine ⟨by rw [hfold, List.length_map], ?_, by simp, ?_⟩
  · intro id x hx
    obtain ⟨r, hr, rfl⟩ := hplace id x hx
    exact ⟨r, hr, rfl, RelationRecord.keyed_iff.mpr rfl⟩
  · intro id x hx name a ha
    obtain ⟨r, -, rfl⟩ := hplace id x hx
    simp at ha

/-- The run: the schema that the records describe, or what the first one of them that is rejected is
rejected for. -/
theorem replay_records (relations : List RelationRecord) (associations : List AssociationRecord) :
    (Unrejected relations associations ∧
      ∃ s, associations.foldlM declareRecord (relations.foldl addRecord {}) = .ok s ∧
        Describes relations associations s) ∨
    ∃ e, FirstRejected relations associations e ∧
      associations.foldlM declareRecord (relations.foldl addRecord {}) = .error e := by
  induction associations using List.reverseRecOn with
  | nil => exact .inl ⟨by simp [Unrejected], _, rfl, describes_relations relations⟩
  | append_singleton associations r ih =>
    rw [foldlM_declareRecord_concat]
    rcases ih with ⟨hfine, s, hs, hdescribes⟩ | ⟨e, hfirst, herror⟩
    · rw [hs]
      rcases hdescribes.declareRecord r with ⟨e, hrejects, herror⟩ | ⟨hr, s', hs', hdescribes'⟩
      · exact .inr ⟨e, ⟨associations, r, List.prefix_rfl, hfine, hrejects⟩, herror⟩
      · exact .inl ⟨hfine.concat hr, s', hs', hdescribes'⟩
    · exact .inr ⟨e, hfirst.append [r], by rw [herror]; rfl⟩

end

namespace File

theorem replay_cases (f : File) :
    (Unrejected f.relations f.associations ∧
      ∃ s, f.replay = .ok s ∧ Describes f.relations f.associations s) ∨
    ∃ e, FirstRejected f.relations f.associations e ∧ f.replay = .error e :=
  replay_records f.relations f.associations

theorem replay_eq_error_iff {f : File} {e : Error} :
    f.replay = .error e ↔ FirstRejected f.relations f.associations e := by
  rcases f.replay_cases with ⟨hfine, s, hs, -⟩ | ⟨e', hfirst, he'⟩
  · rw [hs]
    exact iff_of_false (by simp) fun hfirst => hfirst.not_unrejected hfine
  · rw [he', Except.error.injEq]
    constructor
    · rintro rfl
      exact hfirst
    · exact hfirst.unique

theorem replay_fails_iff {f : File} :
    (∃ e, f.replay = .error e) ↔
      ∃ front r e, front ++ [r] <+: f.associations ∧ Rejects f.relations front r e := by
  rcases f.replay_cases with ⟨hfine, s, hs, -⟩ | ⟨e, hfirst, he⟩
  · rw [hs]
    refine iff_of_false (by simp) ?_
    rintro ⟨front, r, e, hfront, hrejects⟩
    exact hfine front r hfront e hrejects
  · obtain ⟨front, r, hfront, -, hrejects⟩ := hfirst
    exact iff_of_true ⟨e, he⟩ ⟨front, r, e, hfront, hrejects⟩

theorem describes_of_replay {f : File} {s : Schema} (h : f.replay = .ok s) :
    Describes f.relations f.associations s := by
  rcases f.replay_cases with ⟨-, s', hs', hdescribes⟩ | ⟨e, -, he⟩
  · obtain rfl := Except.ok.inj (hs'.symm.trans h)
    exact hdescribes
  · cases he.symm.trans h

/-- The schema of a file is that of a history. -/
theorem replay_eq_after {f : File} {s : Schema} (h : f.replay = .ok s) :
    ∃ history, s = after history := by
  obtain ⟨relations, associations⟩ := f
  unfold replay at h
  dsimp only at h
  induction associations using List.reverseRecOn generalizing s with
  | nil =>
    obtain rfl := Except.ok.inj h
    refine ⟨relations.map fun r => .addRelation r.name r.key, ?_⟩
    rw [after, List.foldl_map]
    rfl
  | append_singleton associations r ih =>
    rw [foldlM_declareRecord_concat] at h
    obtain ⟨s', hs', h⟩ := except_bind_eq_ok_iff.mp h
    obtain ⟨history, rfl⟩ := ih hs'
    simp only [declareRecord, except_bind_eq_ok_iff] at h
    obtain ⟨owner, -, target, -, h⟩ := h
    refine ⟨history ++ [.declare r.kind owner target
      { label := r.label, foreignKey := r.foreignKey, targetKey := r.targetKey }], ?_⟩
    rw [after_append, List.foldl_cons, List.foldl_nil, perform, Operation.apply_declare, h]

/-- **A schema file means what its records say, one by one.** However texts are decoded, one that is
decoded as this file gives what replaying it gives. This fails exactly if some record is rejected
behind those in front of it: if it names a relation that the file does not have, if neither the
record nor the one side has a key to point at, or if an earlier record has taken its name on the
same owner; and the error is that of the first such record. Otherwise it gives the schema that has
the file's relations in their places and the associations of all records, each on the first relation
that is called like its owner, and no others. -/
theorem replay_outcome (f : File) :
    (∀ (decode : String → Option File) (text : String), decode text = some f →
      ofText decode text = f.replay) ∧
    ((∃ e, f.replay = .error e) ↔
      ∃ front r e, front ++ [r] <+: f.associations ∧ Rejects f.relations front r e) ∧
    (∀ e, f.replay = .error e ↔ FirstRejected f.relations f.associations e) ∧
    ∀ s, f.replay = .ok s → Describes f.relations f.associations s := by
  refine ⟨?_, replay_fails_iff, fun e => replay_eq_error_iff, fun s => describes_of_replay⟩
  intro decode text hdecode
  unfold ofText
  rw [hdecode]

/-- Two relations are called `trip`. The stops have no key, so that they can point at trips but
nothing can point at them. -/
def keylessStops : File where
  relations := [{ name := "trip" }, { name := "stop", derived := true }, { name := "trip" }]
  associations :=
    [{ kind := .belongsTo, owner := "stop", target := "trip", label := some "of" },
      { kind := .hasMany, owner := "stop", target := "trip" }]

/-- The first record is registered. The second one is rejected, and so is one in TOML that names a
relation which its file does not have. -/
theorem replay_outcome_keylessStops :
    keylessStops.replay = .error (.missingTargetKey "stop") ∧
    (∃ s, replay { keylessStops with associations := keylessStops.associations.take 1 } = .ok s ∧
      Describes keylessStops.relations (keylessStops.associations.take 1) s ∧
      s.relations.map (fun x => (x.name, x.primaryKey, x.associations.toList)) =
        [("trip", some "id", []),
          ("stop", none, [("of", ⟨.belongsTo, 0, 1, "tripId", "id"⟩)]), ("trip", some "id", [])]) ∧
    ofToml ("[[relations]]\nname=\"t\"\n" ++
        "[[associations]]\nkind=\"has_many\"\nowner=\"t\"\ntarget=\"s\"") =
      .error (.unknownRelation "s") := by
  have hok : ∃ s, replay { keylessStops with associations := keylessStops.associations.take 1 } =
      .ok s ∧ s.relations.map (fun x => (x.name, x.primaryKey, x.associations.toList)) =
        [("trip", some "id", []),
          ("stop", none, [("of", ⟨.belongsTo, 0, 1, "tripId", "id"⟩)]), ("trip", some "id", [])] :=
    except_map_eq_ok_iff.mp (by decide +kernel)
  obtain ⟨s, hs, hrelations⟩ := hok
  have hfine : Unrejected keylessStops.relations (keylessStops.associations.take 1) := by
    intro front r hfront e hrejects
    obtain ⟨e', he'⟩ := (replay_outcome { keylessStops with
      associations := keylessStops.associations.take 1 }).2.1.mpr ⟨front, r, e, hfront, hrejects⟩
    cases hs.symm.trans he'
  have hstop : FirstCalled keylessStops.relations "stop" 1 := ⟨⟨_, rfl, rfl⟩, by decide⟩
  refine ⟨?_, ⟨s, hs, (replay_outcome _).2.2.2 s hs, hrelations⟩, ?_⟩
  · refine ((replay_outcome keylessStops).2.2.1 _).mpr
      ⟨keylessStops.associations.take 1, ⟨.hasMany, "stop", "trip", none, none, none⟩,
        List.prefix_rfl, hfine, ?_⟩
    refine .key hstop.not_uncalled ?_ (.master rfl hstop rfl (.derived rfl rfl))
    exact fun hnone => hnone _ (.head _) rfl
  · refine ((replay_outcome ⟨[{ name := "t" }], [⟨.hasMany, "t", "s", none, none, none⟩]⟩).1
      ofToml? _ (by decide +kernel)).trans ?_
    refine ((replay_outcome _).2.2.1 _).mpr ⟨[], _, List.prefix_rfl, by simp [Unrejected], ?_⟩
    exact .target (fun hnone => hnone _ (.head _) rfl) (by simp [Uncalled])

end File

end QueryBuilder.Schema
