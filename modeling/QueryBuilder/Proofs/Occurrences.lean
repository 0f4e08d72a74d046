import QueryBuilder.Proofs.Naming

/-! Where a statement introduces names.

A statement introduces aliases in the `FROM` and `JOIN` items of its selects, and names
of entries in its `WITH` clauses. All of these places are collected here, through
entries and subqueries of any depth. -/
namespace QueryBuilder.Sql

/-- A place that introduces a name: an item of a select, or an entry. -/
inductive Occurrence where
  | item (item : TableItem)
  | entry (name : String)
deriving DecidableEq, Repr

namespace Occurrence

def item? : Occurrence → Option TableItem
  | item i => some i
  | entry _ => none

def entry? : Occurrence → Option String
  | item _ => none
  | entry name => some name

end Occurrence

/-- The items among some places. -/
def itemsOf (os : List Occurrence) : List TableItem := os.filterMap Occurrence.item?

def labelsOf (os : List Occurrence) : List String := (itemsOf os).map (·.label)

/-- The names of entries among some places. -/
def entriesOf (os : List Occurrence) : List String := os.filterMap Occurrence.entry?

mutual

def exprOccurrences : Expr Statement → List Occurrence
  | .column .. | .star .. | .raw .. | .text .. => []
  | .unary _ operand _ => exprOccurrences operand
  | .binary _ _ _ left right => exprOccurrences left ++ exprOccurrences right
  | .subquery statement => statement.occurrences

def Statement.occurrences : Statement → List Occurrence
  | ⟨entries, body⟩ => entriesOccurrences entries ++ body.occurrences

def entriesOccurrences : List Entry → List Occurrence
  | [] => []
  | entry :: rest => entry.occurrences ++ entriesOccurrences rest

def Entry.occurrences : Entry → List Occurrence
  | ⟨name, body⟩ => .entry name :: body.occurrences

def Select.occurrences : Select → List Occurrence
  | ⟨items, base, joins, conditions, sorting, _⟩ =>
    (base :: joins.map (·.item)).map .item ++ (itemsOccurrences items ++ (joinsOccurrences joins ++
      (conditionsOccurrences conditions ++ sortingOccurrences sorting)))

def itemsOccurrences : List SelectItem → List Occurrence
  | [] => []
  | item :: rest => item.occurrences ++ itemsOccurrences rest

def SelectItem.occurrences : SelectItem → List Occurrence
  | ⟨expr, _⟩ => exprOccurrences expr

def joinsOccurrences : List Join → List Occurrence
  | [] => []
  | join :: rest => join.occurrences ++ joinsOccurrences rest

def Join.occurrences : Join → List Occurrence
  | ⟨_, _, condition⟩ => exprOccurrences condition

def conditionsOccurrences : List (Expr Statement) → List Occurrence
  | [] => []
  | e :: rest => exprOccurrences e ++ conditionsOccurrences rest

def sortingOccurrences : List SortItem → List Occurrence
  | [] => []
  | item :: rest => item.occurrences ++ sortingOccurrences rest

def SortItem.occurrences : SortItem → List Occurrence
  | ⟨expr, _⟩ => exprOccurrences expr

end

end QueryBuilder.Sql
