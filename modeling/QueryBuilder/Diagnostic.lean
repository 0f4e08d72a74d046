import QueryBuilder.Query.Basic
import QueryBuilder.Text.Escaped

/-! Diagnostic text.

A short view of a query, a row, a relation or an association for messages and logs:
what it is built from, with callbacks only counted. -/
namespace QueryBuilder

/-- The structure of a diagnostic text. -/
inductive Diagnostic where
  | word (s : String)
  | text (s : String)
  /-- Something with a name and unnamed parts; a tuple has the empty name. -/
  | tagged (name : String) (parts : List Diagnostic)
  | record (name : String) (fields : List (String × Diagnostic))
  | list (items : List Diagnostic)
  | map (entries : List (String × String))

namespace Diagnostic

def commaSeparated (parts : List String) : String := String.intercalate ", " parts

mutual

def print : Diagnostic → String
  | word s => s
  | text s => Text.Escaped.escaped s
  | tagged name parts => name ++ "(" ++ commaSeparated (printAll parts) ++ ")"
  | record name fields => name ++ " \x7b " ++ commaSeparated (printFields fields) ++ " \x7d"
  | list items => "[" ++ commaSeparated (printAll items) ++ "]"
  | map entries =>
    "\x7b" ++ commaSeparated (entries.map fun (key, value) =>
      Text.Escaped.escaped key ++ ": " ++ Text.Escaped.escaped value) ++ "\x7d"

def printAll : List Diagnostic → List String
  | [] => []
  | d :: rest => d.print :: printAll rest

def printFields : List (String × Diagnostic) → List String
  | [] => []
  | (name, d) :: rest => (name ++ ": " ++ d.print) :: printFields rest

end

def number (n : Nat) : Diagnostic := word (toString n)

def truth (b : Bool) : Diagnostic := word (if b then "true" else "false")

def option : Option Diagnostic → Diagnostic
  | none => word "None"
  | some d => tagged "Some" [d]

end Diagnostic

open Diagnostic

def Direction.diagnostic : Direction → Diagnostic
  | hasMany => word "HasMany"
  | belongsTo => word "BelongsTo"

def JoinKind.diagnostic : JoinKind → Diagnostic
  | inner => word "Inner"
  | left => word "Left"
  | right => word "Right"
  | full => word "Full"

/-- Only the name of a relation is shown, as it is. -/
def RelationRef.diagnostic (r : RelationRef) : Diagnostic := tagged "RelationRef" [word r.name]

def Association.diagnostic (a : Association) : Diagnostic :=
  let id (n : Nat) := tagged "RelationId" [number n]
  record "Association" [
    ("direction", a.direction.diagnostic),
    ("master", id a.master),
    ("slave", id a.slave),
    ("foreign_key", text a.foreignKey),
    ("target_key", text a.targetKey),
    ("join_conditions", number a.keyPairs.length)]

def JoinClause.diagnostic (j : JoinClause) : Diagnostic :=
  record "JoinClause" [("alias", text j.label), ("kind", j.kind.diagnostic)]

mutual

def Query.diagnostic : Query → Diagnostic
  | { name, sources, filters, projections, joins, includes, defaultSource, limit, .. } =>
    record "Query" [
      ("name", option (name.map text)),
      ("data_sources", list (sourceDiagnostics sources)),
      ("where_clauses", number filters.length),
      ("select_expressions", number projections.length),
      ("joins", list (joins.map JoinClause.diagnostic)),
      ("includes", number includes.length),
      ("default_source", text defaultSource),
      ("limit", option (limit.map number))]

def sourceDiagnostics : List Source → List Diagnostic
  | [] => []
  | source :: rest => source.diagnostic :: sourceDiagnostics rest

def Source.diagnostic : Source → Diagnostic
  | { label, data } => tagged "" [text label, data.diagnostic]

def DataSource.diagnostic : DataSource → Diagnostic
  | .table name relation =>
    record "Table" [
      ("name", text name),
      ("relation", option (relation.map RelationRef.diagnostic))]
  | .nested query => tagged "Nested" [query.diagnostic]

end

/-- The substitutions are shown in the order in which they were pushed. -/
def Row.diagnostic (r : Row) : Diagnostic :=
  record "Row" [
    ("default_source", text r.defaultSource),
    ("substitutions", list (r.substitutions.reverse.map fun names => .map names.toList)),
    ("fetched", truth r.fetched)]

end QueryBuilder
