import QueryBuilder.Query.Evaluation
import QueryBuilder.Sql.Names
import QueryBuilder.Sql.Printer

/-! Compiling queries.

A query is compiled level by level. First every source of the level claims a display
alias, and nested sources are compiled on the spot, in their own context, into
entries. Then the callbacks of the level are called with a row in the scope so
obtained, and what they give is resolved: sources become display aliases, and queries
in it are compiled as subqueries inside that scope.

Entries go to the statement as a whole. An expression that is compiled on its own has
no such place; there every subquery keeps the entries that arise in it. -/
namespace QueryBuilder.Sql

/-- Where the entries of a subquery go. -/
inductive EntryPlacement where
  /-- To the head of the whole statement. -/
  | hoisted
  /-- To the head of the subquery itself. -/
  | inline
deriving DecidableEq, Repr

section
variable {m : Type → Type} [Monad m] [Evaluating m]

/-- Resolves an expression in a scope, given how subqueries are compiled. -/
def resolve (subquery : Query → Scope → NamingIn m Statement) (scope : Scope) :
    Expr Query → NamingIn m (Expr Statement)
  | .column source name => do return .column (← checked (settled (scope.resolve source))) name
  | .star source => do return .star (← checked (settled (scope.resolve source)))
  | .raw sql => pure (.raw sql)
  | .text value => pure (.text value)
  | .unary before operand after => do
    return .unary before (← resolve subquery scope operand) after
  | .binary before between after left right => do
    let l ← resolve subquery scope left
    let r ← resolve subquery scope right
    return .binary before between after l r
  | .subquery query => do return .subquery (← subquery query scope)

/-! ### The sources of a level -/

/-- The scope of a level as far as its sources have been visited, and what each of them
ranges over. -/
structure LevelScope where
  scope : Scope
  tables : Std.TreeMap String TableRef := ∅

namespace LevelScope

def bind (l : LevelScope) (source : Source) (label : String) (table : TableRef) : LevelScope where
  scope := l.scope.bind source.label ⟨label, source.data.relation⟩
  tables := l.tables.insert source.label table

/-- The item of a `FROM` clause that reads a source of the level. -/
def item (l : LevelScope) (source : String) : Except Error TableItem :=
  match l.tables[source]? with
  | some table => do return ⟨table, ← l.scope.resolve source⟩
  | none => .error (.unresolvedSource source)

end LevelScope

/-- Visits a source, given how levels are compiled. -/
def visit (level : Query → Option Scope → NamingIn m Select) (l : LevelScope) (source : Source) :
    NamingIn m LevelScope :=
  match source.data with
  | .table name _ => do
    let label ← claim source.label false
    readTable name
    return l.bind source label (.table name)
  | .nested query => do
    let label ← claim source.label true
    let body ← level query query.context
    modify (·.withEntry ⟨label, body⟩)
    return l.bind source label (.entry label)

/-! ### The callbacks of a level -/

section
variable (calls : Calls m) (resolveHere : Expr Query → NamingIn m (Expr Statement)) (row : Row)

/-- The items that a projection selects. -/
def projected (projection : Projection) : NamingIn m (List SelectItem) := do
  let selections ← checked (projection.apply calls row)
  selections.mapM fun s => do return ⟨← resolveHere s.expr, s.label⟩

def joined (l : LevelScope) (join : JoinClause) : NamingIn m Join := do
  let condition ← resolveHere (← checked (join.on.apply calls row))
  let item ← checked (settled (l.item join.label))
  return ⟨join.kind, item, condition⟩

/-- The conditions of all filters, which are called before any of them is resolved. -/
def filtered (filters : List Predicate) : NamingIn m (List (Expr Statement)) := do
  let conditions ← filters.mapM fun p => checked (p.apply calls row)
  conditions.mapM resolveHere

def sorted : Option Sorting → NamingIn m (List SortItem)
  | none => pure []
  | some sorting => do
    let keys ← checked (sorting.apply calls row)
    keys.mapM fun key => do return ⟨← resolveHere key.expr, key.direction⟩

end

/-! ### Levels and subqueries -/

/-- Runs a computation and takes the entries that arise in it away from the pending
ones. -/
def takingEntries {α : Type} (x : NamingIn m α) : NamingIn m (List Entry × α) := do
  let before := (← get).pending
  modify fun n => { n with pending := [] }
  let value ← x
  let arisen := (← get).pending
  modify fun n => { n with pending := before }
  return (arisen, value)

/-- A query as a subquery of an expression that is resolved in `outer`. Its level is
inside the query's own context if it has one. -/
def subqueryOf (placement : EntryPlacement) (level : Query → Option Scope → NamingIn m Select)
    (query : Query) (outer : Scope) : NamingIn m Statement := do
  let parent := query.context.getD outer
  reserve query.tables
  match placement with
  | .hoisted => return ⟨[], ← level query (some parent)⟩
  | .inline =>
    let (entries, body) ← takingEntries (level query (some parent))
    return ⟨entries, body⟩

/-- A level of a query inside `parent`, given how the levels of nested sources and how subqueries
are compiled. -/
def levelOf (calls : Calls m) (level : Query → Option Scope → NamingIn m Select)
    (subquery : Query → Scope → NamingIn m Statement) (query : Query) (parent : Option Scope) :
    NamingIn m Select := do
  let l ← query.sources.foldlM (visit level) { scope := Scope.child parent }
  let row := Row.bound query l.scope
  let resolveHere := resolve subquery l.scope
  let items ← query.projections.mapM (projected calls resolveHere row)
  let base ← checked (settled (l.item query.baseSource))
  let joins ← query.joins.mapM (joined calls resolveHere row l)
  let conditions ← filtered calls resolveHere row query.filters
  let sorting ← sorted calls resolveHere row query.sorting
  return { items := items.flatten, base, joins, conditions, sorting, limit := query.limit }

/-- One level of a query. At most `depth` levels lie inside one another. -/
def compileLevel (placement : EntryPlacement) (calls : Calls m) :
    (depth : Nat) → Query → Option Scope → NamingIn m Select
  | 0, _, _ => checked (settled (.error .tooDeep))
  | depth + 1, query, parent =>
    let level := compileLevel placement calls depth
    levelOf calls level (subqueryOf placement level) query parent

theorem compileLevel_succ (placement : EntryPlacement) (calls : Calls m) (depth : Nat) (q : Query)
    (parent : Option Scope) : compileLevel placement calls (depth + 1) q parent =
      levelOf calls (compileLevel placement calls depth)
        (subqueryOf placement (compileLevel placement calls depth)) q parent := rfl

/-- The names that are taken before a query is compiled. -/
def initialNames (query : Query) : Names :=
  (Names.reserving ((query.context.map Scope.displayAliases).getD [])).readTables query.tables

/-- The statement of a query, with the given calls and levels to the given depth. -/
def statementWith (calls : Calls m) (depth : Nat) (query : Query) : m Statement :=
  let level := compileLevel .hoisted calls depth query query.context
  (fun (body, names) => ⟨names.pending, body⟩) <$> level.run (initialNames query)

/-- An expression resolved in a scope, with the given calls and levels to the given depth. -/
def resolvedWith (calls : Calls m) (depth : Nat) (expr : Expr Query) (scope : Scope) :
    m (Expr Statement) :=
  let resolution := resolve (subqueryOf .inline (compileLevel .inline calls depth)) scope expr
  Prod.fst <$> resolution.run (Names.reserving scope.displayAliases)

end

/-- The statement of a query, with levels and calls to the given depth. -/
def statementWithin (depth : Nat) (query : Query) : Except Fault Statement :=
  statementWith (Calls.within depth) depth query

/-- An expression resolved in a scope, with levels and calls to the given depth. -/
def resolvedWithin (depth : Nat) (expr : Expr Query) (scope : Scope) :
    Except Fault (Expr Statement) :=
  resolvedWith (Calls.within depth) depth expr scope

end QueryBuilder.Sql

namespace QueryBuilder

/-- The statement that a query compiles to. -/
def Query.statement (q : Query) : Except Fault Sql.Statement :=
  Sql.statementWithin Calls.maxDepth q

/-- The SQL text of a query. -/
def Query.toSql (q : Query) : Except Fault String := q.statement.map Sql.Statement.print

/-- An expression whose sources are looked up in a scope. -/
def Expr.resolved (e : Expr Query) (scope : Scope) : Except Fault (Expr Sql.Statement) :=
  Sql.resolvedWithin Calls.maxDepth e scope

/-- The SQL text of an expression in a scope. -/
def Expr.toSql (e : Expr Query) (scope : Scope) : Except Fault String :=
  (e.resolved scope).map Sql.printExpr

end QueryBuilder
