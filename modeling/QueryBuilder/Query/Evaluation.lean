import QueryBuilder.Query.Join

/-! Evaluating terms and calling callbacks.

A term is evaluated with the rows that are current, the innermost first. Evaluation
follows the term, except where the term calls a callback: the callback's body is no
part of the term, and it may lead back to the callback itself. How callbacks are
called is therefore a parameter of the evaluation, and `Calls.within` closes the
loop: it allows calls inside calls to a given depth and answers `tooDeep` below. Other
calls make of a callback any function of its row, also one that no term describes.

An evaluation ends with a value or with a fault (`Except Fault`), and that is all the
program asks of it. What comes up on the way, the names among which an alias is looked
for and the faults that callbacks return, is gone by then. The computations that terms
are evaluated in are a parameter as well, so that the same evaluation can also be run
in ones that keep it. -/
namespace QueryBuilder

/-- Computations that terms can be evaluated in. -/
class Evaluating (m : Type → Type) where
  /-- A result, and the names that are looked at, claimed or reserved for it. -/
  noting {α : Type} : List String → Except Fault α → m α
  /-- The fault that a callback returns. -/
  returning {α : Type} : Fault → m α

export Evaluating (noting returning)

/-- A result that no names are needed for. -/
abbrev settled {m : Type → Type} [Evaluating m] {α : Type} (result : Except Fault α) : m α :=
  noting [] result

/-- The program's own computations keep nothing but how they end. -/
@[default_instance]
instance : Evaluating (Except Fault) where
  noting _ result := result
  returning fault := .error fault

section
variable {α : Type}

@[simp]
theorem noting_except (names : List String) (result : Except Fault α) :
    noting names result = result := rfl

@[simp]
theorem returning_except (fault : Fault) : (returning fault : Except Fault α) = .error fault := rfl

end

/-- How callbacks are called. -/
structure Calls (m : Type → Type := Except Fault) where
  predicate : Predicate → Row → m (Expr Query)
  projection : Projection → Row → m (List Selection)

/-- An element that a term refers to by its place. -/
def elementAt {α : Type} (xs : List α) (index : Nat) : Except Fault α :=
  match xs[index]? with
  | some x => .ok x
  | none => .error .missing

section
variable {m : Type → Type} [Monad m] [Evaluating m]

mutual

def RowTerm.evaluate (calls : Calls m) (rows : List Row) : RowTerm → m Row
  | .up level => settled (elementAt rows level)
  | .value row => return row
  | .ofQuery query => do return Row.ofQuery (← query.evaluate calls rows)
  | .fetch row source association label => do
    let r ← row.evaluate calls rows
    noting r.visibleNames (r.fetchFrom (source.getD r.defaultSource) association label)
  | .filter row condition => do
    let r ← row.evaluate calls rows
    return r.filter ⟨condition, rows⟩
  | .substitute row names => do return (← row.evaluate calls rows).substituting names
  | .rebase row source => do return (← row.evaluate calls rows).rebase source
  | .fail fault => returning fault

def ExprTerm.evaluate (calls : Calls m) (rows : List Row) : ExprTerm → m (Expr Query)
  | .value expr => return expr
  | .column row source name => do
    let r ← row.evaluate calls rows
    return r.columnOf (source.getD r.defaultSource) name
  | .star row source => do
    let r ← row.evaluate calls rows
    return r.starOf (source.getD r.defaultSource)
  | .unary before operand after => do
    return .unary before (← operand.evaluate calls rows) after
  | .binary fragments left right => do
    let l ← left.evaluate calls rows
    let r ← right.evaluate calls rows
    match fragments with
    | [before, between, after] => return .binary before between after l r
    | _ => settled (.error (.error (.malformedBinaryOperator fragments.length)))
  | .apply op left right => do
    let l ← left.evaluate calls rows
    let r ← right.evaluate calls rows
    return l.apply op r
  | .applyRightFirst op right left => do
    let r ← right.evaluate calls rows
    let l ← left.evaluate calls rows
    return l.apply op r
  | .aggregate function column row => do
    return (← row.evaluate calls rows).aggregate function column
  | .existsRow row => do return (← row.evaluate calls rows).existsRow
  | .subquery query => do return .subquery (← query.evaluate calls rows)
  | .condition association owner target row => do
    return association.condition (← row.evaluate calls rows) owner target
  | .call predicate row => do calls.predicate predicate (← row.evaluate calls rows)
  | .callFilter query index row => do
    let q ← query.evaluate calls rows
    let r ← row.evaluate calls rows
    calls.predicate (← settled (elementAt q.filters index)) r
  | .callJoin query index row => do
    let q ← query.evaluate calls rows
    let r ← row.evaluate calls rows
    calls.predicate (← settled (elementAt q.joins index)).on r
  | .fail fault => returning fault

def QueryTerm.evaluate (calls : Calls m) (rows : List Row) : QueryTerm → m Query
  | .value query => return query
  | .ofRow row => do return (← row.evaluate calls rows).query
  | .included query index => do
    let q ← query.evaluate calls rows
    settled (elementAt q.includes index)
  | .nestedAt query label => do
    let q ← query.evaluate calls rows
    match q.source? label with
    | some (.nested inner) => return inner
    | _ => settled (.error .missing)
  | .named query name => do return (← query.evaluate calls rows).named name
  | .limit query count => do return (← query.evaluate calls rows).take count
  | .selectNone query => do return (← query.evaluate calls rows).selectNone
  | .including query related => do
    let q ← query.evaluate calls rows
    return q.including (← related.evaluate calls rows)
  | .filter query condition => do
    return (← query.evaluate calls rows).filter ⟨condition, rows⟩
  | .sortBy query keys => do return (← query.evaluate calls rows).sortBy ⟨keys, rows⟩
  | .select query items => do return (← query.evaluate calls rows).select ⟨items, rows⟩
  | .andSelect query items => do return (← query.evaluate calls rows).andSelect ⟨items, rows⟩
  | .join query target kind label on => do
    let q ← query.evaluate calls rows
    let t ← target.evaluate calls rows
    noting q.takenNames (q.join t { kind, label, on := on.map fun condition => ⟨condition, rows⟩ })
  | .fail fault => returning fault

def TargetTerm.evaluate (calls : Calls m) (rows : List Row) : TargetTerm → m JoinTarget
  | .association name => return .association name
  | .table name => return .table name
  | .relation relation => return .relation relation
  | .query query => do return .query (← query.evaluate calls rows)
  | .fail fault => returning fault

end

def SelectionTerm.evaluate (calls : Calls m) (rows : List Row) :
    SelectionTerm → m (List Selection)
  | .item expr label => do return [⟨← expr.evaluate calls rows, label⟩]
  | .call projection row => do calls.projection projection (← row.evaluate calls rows)
  | .callUnder label projection row => do
    let selections ← calls.projection projection (← row.evaluate calls rows)
    return selections.map (Selection.under label)
  | .callProjection query index row => do
    let q ← query.evaluate calls rows
    let r ← row.evaluate calls rows
    calls.projection (← settled (elementAt q.projections index)) r

def SortTerm.evaluate (calls : Calls m) (rows : List Row) (key : SortTerm) : m SortKey := do
  return ⟨← key.expr.evaluate calls rows, key.direction⟩

/-! ### Calling callbacks -/

/-- The condition that a callback gives for a row, where `calls` is how it calls other
callbacks. -/
def Predicate.apply (calls : Calls m) (p : Predicate) (row : Row) : m (Expr Query) :=
  p.body.evaluate calls (row :: p.captured)

/-- The selections that a callback gives for a row. -/
def Projection.apply (calls : Calls m) (p : Projection) (row : Row) : m (List Selection) := do
  return (← p.body.mapM (·.evaluate calls (row :: p.captured))).flatten

/-- The sort keys that a callback gives for a row. -/
def Sorting.apply (calls : Calls m) (s : Sorting) (row : Row) : m (List SortKey) :=
  s.body.mapM (·.evaluate calls (row :: s.captured))

namespace Calls

/-- Calls with at most `depth` calls inside one another. -/
def within : (depth : Nat) → Calls m
  | 0 => ⟨fun _ _ => settled (.error .tooDeep), fun _ _ => settled (.error .tooDeep)⟩
  | depth + 1 =>
    -- As functions, so that deeper calls are not set up before they are made.
    { predicate := fun p row => p.apply (within depth) row
      projection := fun p row => p.apply (within depth) row }

/-- The depth that evaluation is allowed, far beyond that of any query whose evaluation
ends. -/
def maxDepth : Nat := 1000000

/-- Calls as deep as evaluation is allowed to go. -/
def deep : Calls := within maxDepth

end Calls

end

namespace ExprTerm

def negation (e : ExprTerm) : ExprTerm := .unary "NOT (" e ")"

def negative (e : ExprTerm) : ExprTerm := .unary "-(" e ")"

/-- The term of a computed expression. -/
def ofExcept : Except Error (Expr Query) → ExprTerm
  | .ok e => .value e
  | .error e => .fail (.error e)

end ExprTerm

end QueryBuilder
