import QueryBuilder.Schema.Reference

/-! The registry of relations, filled in place.

While a schema is described, its relations stand in a registry that every operation
changes where it stands; each relation carries the id it was given when it was added.
An association is made from the records of its two sides and registered afterwards, so
that an operation may fail at several points, and nothing is rolled back when it does.

A `Schema` is what such a registry holds, with the ids left out: they are places. -/
namespace QueryBuilder

/-- A relation of a registry and its id. -/
structure Record where
  id : Nat
  relation : Relation

structure Registry where
  records : List Record := []

/-- One operation of the interface that describes a schema. The ids of the two sides of
an association come from the caller and need not be in range. -/
inductive Operation where
  | addTable (name : String)
  | addTableWithKey (name primaryKey : String)
  | addRelation (name : String) (primaryKey : Option String)
  | declare (direction : Direction) (owner target : Nat) (options : AssociationOptions)

namespace Registry

/-- A step on the registry where it stands: what it changed before it failed stays
changed. -/
abbrev InPlace (α : Type) := ExceptT Error (StateM Registry) α

def record (id : Nat) : InPlace Record := do
  match (← get).records[id]? with
  | some r => return r
  | none => throw (.unknownRelation (Schema.idText id))

/-- Adds a relation behind the others; its id is their number. -/
def add (name : String) (primaryKey : Option String) : InPlace Nat := do
  let id := (← get).records.length
  modify fun g => { g with records := g.records ++ [⟨id, { name, primaryKey }⟩] }
  return id

/-- The association as its master declares it. -/
def fromMaster (master slave : Record) (options : AssociationOptions) :
    Except Error Association :=
  let foreignKey := options.foreignKey.getD (master.relation.name ++ "Id")
  match options.targetKey <|> master.relation.primaryKey with
  | none => .error (.missingTargetKey master.relation.name)
  | some targetKey => .ok ⟨.hasMany, master.id, slave.id, foreignKey, targetKey⟩

/-- The association that the owner declares. A slave declares the one its master would,
only the other way round. -/
def association (direction : Direction) (owner target : Record) (options : AssociationOptions) :
    Except Error Association :=
  match direction with
  | .hasMany => fromMaster owner target options
  | .belongsTo => do
    let declared ← fromMaster target owner options
    return { declared with direction := .belongsTo }

/-- The name for an association with `target`: its label or else the target's name. -/
def nameFor (target : Nat) (label : Option String) : InPlace String := do
  match label with
  | some label => return label
  | none => return (← record target).relation.name

/-- Registers an association on the owner. -/
def register (owner target : Nat) (label : Option String) (a : Association) : InPlace Unit := do
  let name ← nameFor target label
  let holder ← record owner
  if holder.relation.associations.contains name then
    throw (.aliasAlreadyUsed name)
  else
    let relation :=
      { holder.relation with associations := holder.relation.associations.insert name a }
    modify fun g => { g with records := g.records.set owner { holder with relation } }

def declare (direction : Direction) (owner target : Nat) (options : AssociationOptions) :
    InPlace Unit := do
  let holder ← record owner
  let reached ← record target
  let a ← liftExcept (association direction holder reached options)
  register owner target options.label a
where
  liftExcept {α : Type} : Except Error α → InPlace α
    | .ok a => pure a
    | .error e => throw e

end Registry

namespace Operation
open Registry

/-- What an operation does; the ones that add a relation answer its id. -/
def inPlace : Operation → InPlace (Option Nat)
  | .addTable name => some <$> add name (some Schema.defaultPrimaryKey)
  | .addTableWithKey name primaryKey => some <$> add name (some primaryKey)
  | .addRelation name primaryKey => some <$> add name primaryKey
  | .declare direction owner target options =>
    (fun _ => none) <$> Registry.declare direction owner target options

/-- The name and the key of the relation that an operation adds. -/
def added : Operation → Option (String × Option String)
  | .addTable name => some (name, some Schema.defaultPrimaryKey)
  | .addTableWithKey name primaryKey => some (name, some primaryKey)
  | .addRelation name primaryKey => some (name, primaryKey)
  | .declare .. => none

/-- The operation on a finished schema. -/
def apply (s : Schema) : Operation → Except Error Schema
  | .addTable name => .ok (s.addTable name)
  | .addTableWithKey name primaryKey => .ok (s.addRelation name (some primaryKey))
  | .addRelation name primaryKey => .ok (s.addRelation name primaryKey)
  | .declare .hasMany owner target options => s.hasMany owner target options
  | .declare .belongsTo owner target options => s.belongsTo owner target options

end Operation

namespace Registry

/-- What an operation answers and the registry it leaves. -/
def perform (g : Registry) (o : Operation) : Except Error (Option Nat) × Registry :=
  o.inPlace.run.run g

/-- The registry after a history. Operations that fail do not end it. -/
def after (history : List Operation) : Registry :=
  history.foldl (fun g o => (g.perform o).2) {}

/-- The schema that the registry holds. -/
def schema (g : Registry) : Schema := ⟨g.records.map (·.relation)⟩

end Registry

end QueryBuilder
