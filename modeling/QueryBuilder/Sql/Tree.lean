import QueryBuilder.Query.Basic

/-! Statements.

The tree that a query compiles to. Its expressions name the aliases of the statement
instead of the sources of queries. A statement has a list of entries, each of which
gives a name to a select that the entries behind it and the body may read. -/
namespace QueryBuilder.Sql

/-- What an item of a select ranges over: a table of the database, or an entry. -/
inductive TableRef where
  | table (name : String)
  | entry (name : String)
deriving DecidableEq, Repr

def TableRef.name : TableRef → String
  | table name => name
  | entry name => name

/-- A table and the alias it is read under. -/
structure TableItem where
  table : TableRef
  label : String
deriving DecidableEq, Repr

mutual

structure Statement where
  entries : List Entry
  body : Select

/-- A select that has a name. -/
structure Entry where
  name : String
  body : Select

structure Select where
  items : List SelectItem
  base : TableItem
  joins : List Join
  conditions : List (Expr Statement)
  sorting : List SortItem
  limit : Option Nat

structure SelectItem where
  expr : Expr Statement
  label : Option String

structure Join where
  kind : JoinKind
  item : TableItem
  condition : Expr Statement

structure SortItem where
  expr : Expr Statement
  direction : SortDirection

end

end QueryBuilder.Sql
