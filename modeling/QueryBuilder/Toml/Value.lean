import QueryBuilder.Decimal.Binary

/-! TOML values, and records read from them.

A record is what a structured value is decoded from: a table, by its keys, or an array,
by position. Keys that a reader does not ask for are ignored, and so are elements
behind those it asks for. -/
namespace QueryBuilder.Toml

inductive Value where
  | text (s : String)
  | integer (n : Int)
  | float (x : Decimal.Binary)
  | boolean (b : Bool)
  | dateTime (written : String)
  | array (items : List Value)
  | table (entries : List (String × Value))

namespace Value

def text? : Value → Option String
  | text s => some s
  | _ => none

def integer? : Value → Option Int
  | integer n => some n
  | _ => none

def boolean? : Value → Option Bool
  | boolean b => some b
  | _ => none

def array? : Value → Option (List Value)
  | array items => some items
  | _ => none

/-- The value has neither elements nor entries. -/
def isEmptyCollection : Value → Bool
  | array [] => true
  | table [] => true
  | _ => false

/-- The name of a case without content: a text, or a table whose single key is the name
and whose value is empty. -/
def caseName? : Value → Option String
  | text s => some s
  | table [(name, content)] => if content.isEmptyCollection then some name else none
  | _ => none

end Value

/-- What the fields of a structure are read from. -/
inductive Record where
  | keyed (entries : List (String × Value))
  | listed (items : List Value)

/-- The record that a value is. A date has fields too, none of which has a name that
anyone could ask for. -/
def Value.record? : Value → Option Record
  | .table entries => some (.keyed entries)
  | .array items => some (.listed items)
  | .dateTime _ => some (.keyed [])
  | _ => none

namespace Record

/-- The value of the field with this position and name. -/
def field? (r : Record) (position : Nat) (name : String) : Option Value :=
  match r with
  | keyed entries => entries.lookup name
  | listed items => items[position]?

variable {α : Type} (r : Record) (position : Nat) (name : String) (decode : Value → Option α)

/-- A field that has to be there. -/
def required : Option α := (r.field? position name).bind decode

/-- A field that has a default. -/
def withDefault (default : α) : Option α :=
  match r.field? position name with
  | none => some default
  | some v => decode v

/-- A field that a table may leave out, but not an array. -/
def optional : Option (Option α) :=
  match r, r.field? position name with
  | keyed _, none => some none
  | listed _, none => none
  | _, some v => (decode v).map some

end Record

end QueryBuilder.Toml
