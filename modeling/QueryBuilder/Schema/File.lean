import QueryBuilder.Schema.Basic
import QueryBuilder.Toml.Document

/-! Schema files.

A schema file lists relations and associations. It means the schema that arises when
the relations are registered in their order, and then the associations in theirs; the
relations of an association are named, and the first one of a name is meant. -/
namespace QueryBuilder.Schema

/-- A relation of a schema file. One without a primary key has the default one, unless
it is derived. -/
structure RelationRecord where
  name : String
  primaryKey : Option String := none
  derived : Bool := false
deriving DecidableEq, Repr

structure AssociationRecord where
  kind : Direction
  owner : String
  target : String
  label : Option String := none
  foreignKey : Option String := none
  targetKey : Option String := none
deriving DecidableEq, Repr

structure File where
  relations : List RelationRecord := []
  associations : List AssociationRecord := []
deriving DecidableEq, Repr

/-! ### Reading -/

section
open Toml

def directionOf? : Value → Option Direction := fun v =>
  match v.caseName? with
  | some "has_many" => some .hasMany
  | some "belongs_to" => some .belongsTo
  | _ => none

def RelationRecord.ofValue? (v : Value) : Option RelationRecord := do
  let r ← v.record?
  return {
    name := ← r.required 0 "name" Value.text?
    primaryKey := ← r.optional 1 "primary_key" Value.text?
    derived := ← r.withDefault 2 "derived" Value.boolean? false }

def AssociationRecord.ofValue? (v : Value) : Option AssociationRecord := do
  let r ← v.record?
  return {
    kind := ← r.required 0 "kind" directionOf?
    owner := ← r.required 1 "owner" Value.text?
    target := ← r.required 2 "target" Value.text?
    label := ← r.optional 3 "as" Value.text?
    foreignKey := ← r.optional 4 "foreign_key" Value.text?
    targetKey := ← r.optional 5 "target_key" Value.text? }

/-- A list of records. -/
def recordsOf? {α : Type} (ofValue? : Value → Option α) (v : Value) : Option (List α) :=
  v.array?.bind (·.mapM ofValue?)

def File.ofValue? (v : Value) : Option File := do
  let r ← v.record?
  return {
    relations := ← r.withDefault 0 "relations" (recordsOf? RelationRecord.ofValue?) []
    associations := ← r.withDefault 1 "associations" (recordsOf? AssociationRecord.ofValue?) [] }

def File.ofToml? (text : String) : Option File := (Value.read text).bind File.ofValue?

end

/-! ### Replaying -/

def RelationRecord.key (r : RelationRecord) : Option String :=
  match r.primaryKey with
  | some key => some key
  | none => if r.derived then none else some defaultPrimaryKey

def addRecord (s : Schema) (r : RelationRecord) : Schema := s.addRelation r.name r.key

/-- Registers an association; its owner is looked up before its target. -/
def declareRecord (s : Schema) (r : AssociationRecord) : Except Error Schema := do
  let owner ← s.relationByName r.owner
  let target ← s.relationByName r.target
  s.declare r.kind owner target
    { label := r.label, foreignKey := r.foreignKey, targetKey := r.targetKey }

/-- The schema that a file means. -/
def File.replay (f : File) : Except Error Schema :=
  f.associations.foldlM declareRecord (f.relations.foldl addRecord {})

/-- How messages about a text that is no schema file begin. -/
def malformedText : String := "Failed to parse schema:"

/-- The schema of a text that is decoded like this. -/
def ofText (decode : String → Option File) (text : String) : Except Error Schema :=
  match decode text with
  | some file => file.replay
  | none => .error (.configuration malformedText)

/-- The schema of a schema file's text. -/
def ofToml : String → Except Error Schema := ofText File.ofToml?

end QueryBuilder.Schema
