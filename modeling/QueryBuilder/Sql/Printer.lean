import QueryBuilder.Sql.Tree

/-! The text of a statement.

The parts of a select stand on lines of their own, the first and the further ones of
a list indented by one step. Entries are written in front of the body, indented
between brackets; a subquery is written between brackets where it stands, its further
lines indented. Indenting works on the text: a line break inside of it is followed by
one step of blanks, wherever it stands. -/
namespace QueryBuilder

/-- The keyword of a kind of join. -/
def JoinKind.keyword : JoinKind → String
  | inner => "INNER"
  | left => "LEFT"
  | right => "RIGHT"
  | full => "FULL OUTER"

def SortDirection.keyword : SortDirection → String
  | ascending => "ASC"
  | descending => "DESC"

end QueryBuilder

namespace QueryBuilder.Sql
open Text

/-- One step of indentation. -/
def indentation : String := "    "

/-- The characters of a text with every line break followed by one step. -/
def indentedChars : List Char → List Char
  | [] => []
  | c :: rest =>
    if c = '\n' then c :: (indentation.toList ++ indentedChars rest) else c :: indentedChars rest

def indented (text : String) : String := String.ofList (indentedChars text.toList)

theorem indentedChars_append (xs ys : List Char) :
    indentedChars (xs ++ ys) = indentedChars xs ++ indentedChars ys := by
  induction xs with
  | nil => rfl
  | cons c xs ih => by_cases h : c = '\n' <;> simp [indentedChars, h, ih]

theorem indentedChars_eq_self {xs : List Char} (h : '\n' ∉ xs) : indentedChars xs = xs := by
  induction xs with
  | nil => rfl
  | cons c xs ih =>
    have hc : ¬ c = '\n' := fun e => h (by simp [e])
    simp [indentedChars, hc, ih (fun hm => h (List.mem_cons_of_mem _ hm))]

theorem indented_append (a b : String) : indented (a ++ b) = indented a ++ indented b := by
  simp [indented, indentedChars_append, String.ofList_append]

/-- A line break and one step of indentation. -/
def newLine : String := "\n" ++ indentation

def TableItem.print (item : TableItem) : String :=
  Quoted.identifier item.table.name ++ " AS " ++ Quoted.identifier item.label

/-- The condition of a select: with several conditions each that is not atomic stands
between brackets. -/
def grouped (several : Bool) (atomic : Bool) (text : String) : String :=
  if several && !atomic then "(" ++ text ++ ")" else text

mutual

def printExpr : Expr Statement → String
  | .column source name => Quoted.identifier source ++ "." ++ Quoted.identifier name
  | .star source => Quoted.identifier source ++ ".*"
  | .raw sql => sql
  | .text value => Quoted.literal value
  | .unary before operand after => before ++ printExpr operand ++ after
  | .binary before between after left right =>
    before ++ printExpr left ++ between ++ printExpr right ++ after
  | .subquery statement => "(" ++ indented statement.print ++ ")"

/-- The text of a statement. -/
def Statement.print : Statement → String
  | ⟨[], body⟩ => body.print
  | ⟨entry :: entries, body⟩ =>
    "WITH " ++ String.intercalate ",\n" (printEntries (entry :: entries)) ++ "\n" ++ body.print

def printEntries : List Entry → List String
  | [] => []
  | entry :: rest => entry.print :: printEntries rest

def Entry.print : Entry → String
  | ⟨name, body⟩ =>
    Quoted.identifier name ++ " AS (" ++ newLine ++ indented body.print ++ "\n)"

def Select.print : Select → String
  | ⟨items, base, joins, conditions, sorting, limit⟩ =>
    let selected := match items with
      | [] => "*"
      | items => String.intercalate ("," ++ newLine) (printItems items)
    let restricted := match conditions with
      | [] => ""
      | conditions =>
        "\nWHERE " ++ String.intercalate (newLine ++ "AND ")
          (printConditions (conditions.length > 1) conditions)
    let sorted := match sorting with
      | [] => ""
      | sorting => "\nORDER BY " ++ String.intercalate ", " (printSorting sorting)
    let limited := match limit with
      | none => ""
      | some n => "\nLIMIT " ++ toString n
    "SELECT " ++ selected ++ "\nFROM " ++ base.print ++ String.join (printJoins joins) ++ restricted
      ++ sorted ++ limited

def printItems : List SelectItem → List String
  | [] => []
  | item :: rest => item.print :: printItems rest

def SelectItem.print : SelectItem → String
  | ⟨expr, none⟩ => printExpr expr
  | ⟨expr, some label⟩ => printExpr expr ++ " AS " ++ Quoted.identifier label

def printJoins : List Join → List String
  | [] => []
  | join :: rest => join.print :: printJoins rest

def Join.print : Join → String
  | ⟨kind, item, condition⟩ =>
    newLine ++ kind.keyword ++ " JOIN " ++ item.print ++ " ON " ++ printExpr condition

def printConditions (several : Bool) : List (Expr Statement) → List String
  | [] => []
  | e :: rest => grouped several e.isAtomic (printExpr e) :: printConditions several rest

def printSorting : List SortItem → List String
  | [] => []
  | item :: rest => item.print :: printSorting rest

def SortItem.print : SortItem → String
  | ⟨expr, direction⟩ => printExpr expr ++ " " ++ direction.keyword

end

end QueryBuilder.Sql
