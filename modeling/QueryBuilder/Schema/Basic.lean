import QueryBuilder.Error
import Std.Data.TreeMap

/-! Relations and the associations between them.

A schema lists relations; a relation is known by its place in the list, its id.
An association joins a master (the one side) to a slave (the many side) and is
declared on either of them: `hasMany` on the master, `belongsTo` on the slave. Both
declarations describe the same pair of columns. -/
namespace QueryBuilder

/-- The side of an association on which it is declared. -/
inductive Direction where
  | hasMany
  | belongsTo
deriving DecidableEq, Repr

/-- The slave's foreign key points at the master's target key. -/
structure Association where
  direction : Direction
  master : Nat
  slave : Nat
  foreignKey : String
  targetKey : String
deriving DecidableEq, Repr

/-- What a declaration may say beyond the two relations. -/
structure AssociationOptions where
  label : Option String := none
  foreignKey : Option String := none
  targetKey : Option String := none

structure Relation where
  name : String
  primaryKey : Option String
  associations : Std.TreeMap String Association := ∅

structure Schema where
  relations : List Relation := []

namespace Association

/-- The id of the relation that a traversal from the declaring side reaches. -/
def target (a : Association) : Nat :=
  match a.direction with
  | .hasMany => a.slave
  | .belongsTo => a.master

/-- A traversal reaches at most one row exactly when it goes to the one side. -/
def isSingle (a : Association) : Bool := a.direction = .belongsTo

/-- The columns that have to agree, the master's before the slave's. -/
def keyPairs (a : Association) : List (String × String) := [(a.targetKey, a.foreignKey)]

/-- The association of `master`, known as `relation`, with `slave`. Keys that are not
given follow the master: its name with `Id` behind it, and its primary key. -/
def between (direction : Direction) (master slave : Nat) (relation : Relation)
    (options : AssociationOptions) : Except Error Association :=
  match options.targetKey <|> relation.primaryKey with
  | none => .error (.missingTargetKey relation.name)
  | some targetKey => .ok
    { direction, master, slave, targetKey
      foreignKey := options.foreignKey.getD (relation.name ++ "Id") }

end Association

namespace Relation

/-- The association registered under `name`. -/
def association (r : Relation) (name : String) : Except Error Association :=
  match r.associations[name]? with
  | some a => .ok a
  | none => .error (.unknownAssociation r.name name)

end Relation

namespace Schema

/-- The primary key of a table that is registered without one. -/
def defaultPrimaryKey : String := "id"

/-- Registers a relation behind the others; its id is their number. -/
def addRelation (s : Schema) (name : String) (primaryKey : Option String) : Schema :=
  { s with relations := s.relations ++ [{ name, primaryKey }] }

/-- Registers a table whose primary key is the default one. -/
def addTable (s : Schema) (name : String) : Schema := s.addRelation name (some defaultPrimaryKey)

/-- The text that stands for an id in messages. -/
def idText (id : Nat) : String := "#" ++ toString id

def relation (s : Schema) (id : Nat) : Except Error Relation :=
  match s.relations[id]? with
  | some r => .ok r
  | none => .error (.unknownRelation (idText id))

/-- The id of the first relation with this name. -/
def relationByName (s : Schema) (name : String) : Except Error Nat :=
  match s.relations.findIdx? (·.name = name) with
  | some id => .ok id
  | none => .error (.unknownRelation name)

/-- Registers on `owner` an association with `target`, under the given alias or else
the name of `target`. -/
def declare (s : Schema) (direction : Direction) (owner target : Nat)
    (options : AssociationOptions := {}) : Except Error Schema := do
  let ownerRelation ← s.relation owner
  let targetRelation ← s.relation target
  let association ← match direction with
    | .hasMany => Association.between direction owner target ownerRelation options
    | .belongsTo => Association.between direction target owner targetRelation options
  let name := options.label.getD targetRelation.name
  if ownerRelation.associations.contains name then
    .error (.aliasAlreadyUsed name)
  else
    let extended :=
      { ownerRelation with associations := ownerRelation.associations.insert name association }
    .ok { s with relations := s.relations.set owner extended }

def hasMany (s : Schema) (owner target : Nat) (options : AssociationOptions := {}) :
    Except Error Schema :=
  s.declare .hasMany owner target options

def belongsTo (s : Schema) (owner target : Nat) (options : AssociationOptions := {}) :
    Except Error Schema :=
  s.declare .belongsTo owner target options

theorem length_addRelation (s : Schema) (name : String) (key : Option String) :
    (s.addRelation name key).relations.length = s.relations.length + 1 := by
  simp [addRelation]

theorem relation_eq_ok_iff {s : Schema} {id : Nat} {r : Relation} :
    s.relation id = .ok r ↔ s.relations[id]? = some r := by
  unfold relation
  cases s.relations[id]? <;> simp

end Schema

end QueryBuilder
