import QueryBuilder.Expr
import QueryBuilder.Scope

/-! Queries, rows and the terms that callbacks are written in.

A query takes functions of a row: its filters, join conditions, projections and
sorting are called, while the query is compiled, with the row they are about. Rows
know their query, so such a function cannot be a function of the logic without
queries becoming an infinite regress. It is a closure instead: a body in a small
language of terms, together with the rows that were current where it was written.
`up n` in a body is the row of the `n`-th enclosing callback, the innermost first; a
callback that is called puts its own row in front of the captured ones.

Queries are therefore finite data. What a callback does is given by the evaluation
of terms; nothing is evaluated when a callback is built. -/
namespace QueryBuilder

inductive JoinKind where
  | inner
  | left
  | right
  | full
deriving DecidableEq, Repr

inductive SortDirection where
  | ascending
  | descending
deriving DecidableEq, Repr

/-- The aggregate functions of a row's query. -/
inductive Aggregate where
  | min
  | max
  | sum
  | count
  | mean
deriving DecidableEq, Repr

namespace Aggregate

def all : List Aggregate := [min, max, sum, count, mean]

/-- The function's name in SQL. -/
def function : Aggregate → String
  | min => "MIN"
  | max => "MAX"
  | sum => "SUM"
  | count => "COUNT"
  | mean => "AVG"

/-- The name of its result in a subquery. -/
def label : Aggregate → String
  | min => "min"
  | max => "max"
  | sum => "sum"
  | count => "count"
  | mean => "mean"

end Aggregate

/-- Names to be read as other names. -/
abbrev Substitution := Std.TreeMap String String

mutual

/-- Where the rows of a source come from: a table, with its relation when it is
registered in a schema, or a query kept as it is. -/
inductive DataSource where
  | table (name : String) (relation : Option RelationRef)
  | nested (query : Query)

/-- A data source under the alias by which its query refers to it. -/
structure Source where
  label : String
  data : DataSource

/-- How a source other than the first one is joined. -/
structure JoinClause where
  label : String
  kind : JoinKind
  on : Predicate

/-- A query. The base source is the first one, which the others are joined to; the
default source is the one that columns without a source belong to. `context` is the
scope of the callback that the query was built in. -/
structure Query where
  name : Option String
  sources : List Source
  filters : List Predicate
  sorting : Option Sorting
  projections : List Projection
  joins : List JoinClause
  includes : List Query
  context : Option Scope
  baseSource : String
  defaultSource : String
  limit : Option Nat

/-- What a callback is called with: a query, the scope in which its sources are
visible, and the substitutions that names pass through, the latest first. A fetched
row stands for the rows of an association; its query ranges over these. -/
structure Row where
  query : Query
  substitutions : List Substitution
  defaultSource : String
  scope : Scope
  fetched : Bool

/-- A callback that gives a condition. -/
structure Predicate where
  body : ExprTerm
  captured : List Row

/-- A callback that gives selections. -/
structure Projection where
  body : List SelectionTerm
  captured : List Row

/-- A callback that gives what to sort by. -/
structure Sorting where
  body : List SortTerm
  captured : List Row

/-- Terms for rows. -/
inductive RowTerm where
  | up (level : Nat)
  | value (row : Row)
  /-- The row of a query outside of any compilation. -/
  | ofQuery (query : QueryTerm)
  /-- Follows an association of a source, by default the default one. -/
  | fetch (row : RowTerm) (source : Option String) (association : String) (label : Option String)
  | filter (row : RowTerm) (condition : ExprTerm)
  | substitute (row : RowTerm) (names : Substitution)
  /-- The same row with another default source. -/
  | rebase (row : RowTerm) (source : String)
  | fail (fault : Fault)

/-- Terms for expressions. Operands are evaluated from left to right, except where
a constructor says otherwise. -/
inductive ExprTerm where
  | value (expr : Expr Query)
  /-- A column of a source, by default the row's default one. -/
  | column (row : RowTerm) (source : Option String) (name : String)
  | star (row : RowTerm) (source : Option String)
  | unary (before : String) (operand : ExprTerm) (after : String)
  | binary (fragments : List String) (left right : ExprTerm)
  | apply (op : Operator) (left right : ExprTerm)
  /-- `left op right`, where the right operand is evaluated first. -/
  | applyRightFirst (op : Operator) (right left : ExprTerm)
  | aggregate (function : Aggregate) (column : String) (row : RowTerm)
  | existsRow (row : RowTerm)
  | subquery (query : QueryTerm)
  /-- The condition of an association between two aliases. -/
  | condition (association : Association) (owner target : String) (row : RowTerm)
  | call (predicate : Predicate) (row : RowTerm)
  /-- Calls a filter of a query. -/
  | callFilter (query : QueryTerm) (index : Nat) (row : RowTerm)
  /-- Calls the condition of a join of a query. -/
  | callJoin (query : QueryTerm) (index : Nat) (row : RowTerm)
  | fail (fault : Fault)

/-- Terms for lists of selections. -/
inductive SelectionTerm where
  | item (expr : ExprTerm) (label : Option String)
  | call (projection : Projection) (row : RowTerm)
  /-- Calls a projection and names its selections under a common alias. -/
  | callUnder (label : String) (projection : Projection) (row : RowTerm)
  /-- Calls a projection of a query. -/
  | callProjection (query : QueryTerm) (index : Nat) (row : RowTerm)

structure SortTerm where
  expr : ExprTerm
  direction : SortDirection

/-- Terms for queries. Conditions, selections and sort keys in them are bodies of
callbacks. -/
inductive QueryTerm where
  | value (query : Query)
  | ofRow (row : RowTerm)
  | included (query : QueryTerm) (index : Nat)
  /-- The nested query that is a source of a query. -/
  | nestedAt (query : QueryTerm) (label : String)
  | named (query : QueryTerm) (name : String)
  | limit (query : QueryTerm) (count : Nat)
  | selectNone (query : QueryTerm)
  | including (query related : QueryTerm)
  | filter (query : QueryTerm) (condition : ExprTerm)
  | sortBy (query : QueryTerm) (keys : List SortTerm)
  | select (query : QueryTerm) (items : List SelectionTerm)
  | andSelect (query : QueryTerm) (items : List SelectionTerm)
  | join (query : QueryTerm) (target : TargetTerm) (kind : JoinKind) (label : Option String)
      (on : Option ExprTerm)
  | fail (fault : Fault)

/-- Terms for what is joined. -/
inductive TargetTerm where
  | association (name : String)
  | table (name : String)
  | relation (relation : RelationRef)
  | query (query : QueryTerm)
  | fail (fault : Fault)

end

/-- A projected expression, and the name it is given. -/
structure Selection where
  expr : Expr Query
  label : Option String := none

/-- An expression to sort by. -/
structure SortKey where
  expr : Expr Query
  direction : SortDirection

/-! ### Sources and relations -/

mutual

/-- The relation behind a data source. -/
def DataSource.relation : DataSource → Option RelationRef
  | .table _ relation => relation
  | .nested query => query.defaultRelation

/-- The relation behind the default source. -/
def Query.defaultRelation : Query → Option RelationRef
  | { sources, defaultSource, .. } => relationUnder defaultSource sources

/-- The relation behind the first source with this alias. -/
def relationUnder (label : String) : List Source → Option RelationRef
  | [] => none
  | source :: rest =>
    if source.label = label then source.relation else relationUnder label rest

/-- The relation behind a source. -/
def Source.relation : Source → Option RelationRef
  | { data, .. } => data.relation

end

mutual

/-- The tables that a query reads through its sources, and with a registered table
those of its whole schema, since callbacks reach these through associations. -/
def Query.tables : Query → List String
  | { sources, .. } => tablesOf sources

def tablesOf : List Source → List String
  | [] => []
  | source :: rest => source.tables ++ tablesOf rest

def Source.tables : Source → List String
  | { data, .. } => data.tables

def DataSource.tables : DataSource → List String
  | .table name none => [name]
  | .table name (some r) => name :: r.home.schema.relations.map (·.name)
  | .nested query => query.tables

end

namespace Query

/-- The data source under an alias of this query. -/
def source? (q : Query) (label : String) : Option DataSource :=
  (q.sources.find? (·.label = label)).map (·.data)

def hasSource (q : Query) (label : String) : Bool := (q.source? label).isSome

theorem hasSource_iff {q : Query} {label : String} :
    q.hasSource label ↔ ∃ s ∈ q.sources, s.label = label := by
  simp [hasSource, source?]

end Query

theorem Source.relation_eq (s : Source) : s.relation = s.data.relation := by
  cases s
  rfl

theorem Source.tables_eq (s : Source) : s.tables = s.data.tables := by
  cases s
  rfl

theorem relationUnder_eq (label : String) (sources : List Source) :
    relationUnder label sources =
      ((sources.find? (·.label = label)).map (·.data)).bind DataSource.relation := by
  induction sources with
  | nil => rfl
  | cons s rest ih =>
    by_cases h : s.label = label
    · simp [relationUnder, h, Source.relation_eq]
    · simp [relationUnder, h, ih]

/-- The default relation is the relation behind the default source. -/
theorem Query.defaultRelation_eq (q : Query) :
    q.defaultRelation = (q.source? q.defaultSource).bind DataSource.relation := by
  cases q
  exact relationUnder_eq _ _

theorem tablesOf_eq (sources : List Source) :
    tablesOf sources = sources.flatMap fun s => s.data.tables := by
  induction sources with
  | nil => rfl
  | cons s rest ih => simp [tablesOf, Source.tables_eq, ih]

theorem Query.tables_eq (q : Query) : q.tables = q.sources.flatMap fun s => s.data.tables := by
  cases q
  exact tablesOf_eq _

end QueryBuilder
