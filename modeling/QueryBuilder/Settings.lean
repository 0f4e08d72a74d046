import QueryBuilder.Schema.File

/-! Settings.

They say which database to connect to and where the schema file is. They are read
from a file in the working directory, or else from one in the user's configuration
directory, or else they are the default ones; a value of the environment replaces the
database's address. -/
namespace QueryBuilder

structure DatabaseSettings where
  url : Option String := none
  maxConnections : Nat := 5
deriving DecidableEq, Repr

structure Settings where
  database : DatabaseSettings := {}
  /-- The path of the schema file. -/
  schema : Option String := none
deriving DecidableEq, Repr

/-- The place of a file: a path that the working directory resolves, or one inside the
user's configuration directory. -/
inductive Location where
  | working (path : String)
  | configuration (path : String)
deriving DecidableEq, Repr

/-- The texts of the files that there are. -/
abbrev Files := Location → Option String

/-- What the operating system says about a file that is not there. -/
def missingFileText : String := "No such file or directory (os error 2)"

namespace Settings

/-! ### Reading -/

section
open Toml

/-- An unsigned number of 32 bits. -/
def word32? (v : Value) : Option Nat :=
  (v.integer?.bind (·.toNat?)).filter (· < UInt32.size)

def databaseOf? (v : Value) : Option DatabaseSettings := do
  let r ← v.record?
  return {
    url := ← r.withDefault 0 "url" (·.text?.map some) none
    maxConnections := ← r.withDefault 1 "max_connections" word32? 5 }

def ofValue? (v : Value) : Option Settings := do
  let r ← v.record?
  return {
    database := ← r.withDefault 0 "database" databaseOf? {}
    schema := ← r.withDefault 1 "schema" (·.text?.map some) none }

end

/-- How messages about a text that holds no settings begin. -/
def malformedText : String := "Failed to parse config:"

/-- The settings of a text. -/
def ofToml (text : String) : Except Error Settings :=
  match (Toml.Value.read text).bind ofValue? with
  | some settings => .ok settings
  | none => .error (.configuration malformedText)

/-! ### Loading -/

/-- Replaces the address of the database, unless the new one is empty. -/
def overriding (s : Settings) : Option String → Settings
  | none => s
  | some url => if url.isEmpty then s else { s with database.url := some url }

/-- The settings of a file in the working directory. -/
def loadFile (files : Files) (path : String) : Except Error Settings :=
  match files (.working path) with
  | some text => ofToml text
  | none => .error (.configuration ("Failed to read " ++ path ++ ": " ++ missingFileText))

def fileName : String := "relq.toml"

/-- The places where settings are looked for, the first one first. -/
def candidates : List Location := [.working fileName, .configuration ("relq/" ++ fileName)]

/-- The settings of the first file that there is, or the default ones; `url` is the
address that the environment gives. -/
def load (files : Files) (url : Option String) : Except Error Settings := do
  let settings ← match candidates.findSome? files with
    | some text => ofToml text
    | none => pure {}
  return settings.overriding url

/-- The schema of the schema file, if the settings name one. -/
def loadSchema (s : Settings) (files : Files) : Except Error (Option Schema) :=
  match s.schema with
  | none => .ok none
  | some path =>
    match files (.working path) with
    | some text => (Schema.ofToml text).map some
    | none => .error (.configuration ("Failed to read schema: " ++ missingFileText))

/-- The address to connect to. -/
def connectionUrl (s : Settings) : Except Error String :=
  match s.database.url with
  | some url => .ok url
  | none => .error (.configuration "database.url is not set")

end Settings

end QueryBuilder
