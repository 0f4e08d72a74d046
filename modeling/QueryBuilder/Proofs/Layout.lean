import Mathlib.Data.List.Basic
import Mathlib.Tactic.Ring
import QueryBuilder.Proofs.Quoted
import QueryBuilder.Sql.Printer

/-! The layout of printed statements.

A statement is printed as a row of pieces, each of which is a quoted token or plain
text. A piece lies inside as many brackets as there are subqueries and entries around
it, and everything inside a pair of brackets is indented as text. `join_statement` says
that the printed text is the row of its pieces, each indented as often as it lies
inside brackets; what this does to a quoted token is `indentedBy_quoted`. -/
namespace QueryBuilder.Sql
open Text

/-! ### Repeated indentation -/

/-- The text as it stands inside `depth` pairs of brackets. -/
def indentedBy : (depth : Nat) → String → String
  | 0, text => text
  | depth + 1, text => indentedBy depth (indented text)

@[simp]
theorem indentedBy_zero (text : String) : indentedBy 0 text = text := rfl

theorem indentedBy_append (depth : Nat) (a b : String) :
    indentedBy depth (a ++ b) = indentedBy depth a ++ indentedBy depth b := by
  induction depth generalizing a b with
  | zero => rfl
  | succ depth ih =>
    simp only [indentedBy, indented_append]
    exact ih _ _

theorem indentedBy_eq_self {text : String} (h : '\n' ∉ text.toList) (depth : Nat) :
    indentedBy depth text = text := by
  have once : indented text = text := by
    unfold indented
    rw [indentedChars_eq_self h, String.ofList_toList]
  induction depth with
  | zero => rfl
  | succ depth ih => rw [indentedBy, once, ih]

theorem toList_indented (text : String) : (indented text).toList = indentedChars text.toList := by
  simp [indented]

/-- Indenting keeps the line breaks, and adds a step for each of them. -/
theorem count_indentedChars (xs : List Char) :
    (indentedChars xs).count '\n' = xs.count '\n' ∧
      (indentedChars xs).length = xs.length + 4 * xs.count '\n' := by
  have step : indentation.toList = [' ', ' ', ' ', ' '] := by decide
  induction xs with
  | nil => exact ⟨rfl, rfl⟩
  | cons c xs ih =>
    obtain ⟨hcount, hlength⟩ := ih
    by_cases h : c = '\n'
    · subst h
      simp only [indentedChars, if_true, step, List.cons_append, List.nil_append]
      constructor
      · simp [hcount]
      · simp only [List.length_cons, hlength, List.count_cons_self]
        omega
    · simp only [indentedChars, h, if_false, List.count_cons_of_ne h, List.length_cons]
      exact ⟨hcount, by omega⟩

theorem length_indentedBy (depth : Nat) (text : String) :
    (indentedBy depth text).toList.length =
      text.toList.length + 4 * depth * text.toList.count '\n' := by
  induction depth generalizing text with
  | zero => simp
  | succ depth ih =>
    obtain ⟨hcount, hlength⟩ := count_indentedChars text.toList
    rw [indentedBy, ih, toList_indented, hcount, hlength]
    ring

/-- Only a text without line breaks stands inside brackets as it is. -/
theorem indentedBy_eq_self_iff (depth : Nat) (text : String) :
    indentedBy depth text = text ↔ depth = 0 ∨ '\n' ∉ text.toList := by
  constructor
  · intro h
    have hlength := length_indentedBy depth text
    rw [h] at hlength
    have hzero : 4 * depth * text.toList.count '\n' = 0 := by omega
    rcases Nat.mul_eq_zero.mp hzero with hd | hc
    · exact .inl (by omega)
    · exact .inr (List.count_eq_zero.mp hc)
  · rintro (rfl | h)
    · rfl
    · exact indentedBy_eq_self h depth

/-! ### Indented tokens -/

/-- Text inside a token is indented like any other: a quote that is neither a line break
nor a blank stays where it is. -/
theorem indentedChars_encode {quote : Char} (hn : quote ≠ '\n') (hb : quote ≠ ' ')
    (s : List Char) :
    indentedChars (Quoted.encode quote s) = Quoted.encode quote (indentedChars s) := by
  have blanks : Quoted.encode quote indentation.toList = indentation.toList := by
    have step : indentation.toList = [' ', ' ', ' ', ' '] := by decide
    simp [step, Quoted.encode, Ne.symm hb]
  induction s with
  | nil => rfl
  | cons c s ih =>
    by_cases hq : c = quote
    · subst hq
      simp [Quoted.encode, indentedChars, hn, ih]
    by_cases hc : c = '\n'
    · subst hc
      simp [Quoted.encode, indentedChars, hq, ih, Quoted.encode_append, blanks]
    · simp [Quoted.encode, indentedChars, hq, hc, ih]

theorem indented_quoted {quote : Char} (hn : quote ≠ '\n') (hb : quote ≠ ' ') (s : String) :
    indented (Quoted.quoted quote s) = Quoted.quoted quote (indented s) := by
  rw [← String.toList_inj, toList_indented, Quoted.toList_quoted, Quoted.toList_quoted,
    toList_indented, indentedChars_append, ← indentedChars_encode hn hb]
  simp [indentedChars, hn]

theorem indentedBy_quoted {quote : Char} (hn : quote ≠ '\n') (hb : quote ≠ ' ') (depth : Nat)
    (s : String) :
    indentedBy depth (Quoted.quoted quote s) = Quoted.quoted quote (indentedBy depth s) := by
  induction depth generalizing s with
  | zero => rfl
  | succ depth ih => rw [indentedBy, indented_quoted hn hb, ih, indentedBy]

/-! ### Pieces -/

/-- What is written at one place of a statement. -/
inductive Content where
  | plain (text : String)
  | identifier (name : String)
  | literal (value : String)
deriving DecidableEq, Repr

def Content.text : Content → String
  | plain text => text
  | identifier name => Quoted.identifier name
  | literal value => Quoted.literal value

/-- A content and the number of brackets it lies inside. -/
structure Piece where
  depth : Nat
  content : Content
deriving DecidableEq, Repr

namespace Piece

/-- The text that the piece becomes in the statement. -/
def text (p : Piece) : String := indentedBy p.depth p.content.text

/-- The text of a row of pieces. -/
def join (pieces : List Piece) : String := String.join (pieces.map text)

end Piece

/-- Rows of pieces with a separator between them. -/
def separated (separator : Piece) : List (List Piece) → List Piece
  | [] => []
  | [row] => row
  | row :: rows => row ++ separator :: separated separator rows

section
variable (depth : Nat)

def plainPiece (text : String) : Piece := ⟨depth, .plain text⟩

def identifierPiece (name : String) : Piece := ⟨depth, .identifier name⟩

/-- The list of selected items, where nothing listed stands for everything. -/
def selectedPieces : List (List Piece) → List Piece
  | [] => [plainPiece depth "*"]
  | rows => separated (plainPiece depth ("," ++ newLine)) rows

/-- A clause that is left out when it has nothing to list. -/
def clausePieces (keyword separator : String) : List (List Piece) → List Piece
  | [] => []
  | rows => plainPiece depth keyword :: separated (plainPiece depth separator) rows

def TableItem.pieces (item : TableItem) : List Piece :=
  [identifierPiece depth item.table.name, plainPiece depth " AS ", identifierPiece depth item.label]

def groupedPieces (several atomic : Bool) (row : List Piece) : List Piece :=
  if several && !atomic then plainPiece depth "(" :: row ++ [plainPiece depth ")"] else row

end

mutual

def exprPieces (depth : Nat) : Expr Statement → List Piece
  | .column source name =>
    [identifierPiece depth source, plainPiece depth ".", identifierPiece depth name]
  | .star source => [identifierPiece depth source, plainPiece depth ".*"]
  | .raw sql => [plainPiece depth sql]
  | .text value => [⟨depth, .literal value⟩]
  | .unary before operand after =>
    plainPiece depth before :: exprPieces depth operand ++ [plainPiece depth after]
  | .binary before between after left right =>
    plainPiece depth before :: exprPieces depth left ++ plainPiece depth between ::
      exprPieces depth right ++ [plainPiece depth after]
  | .subquery statement =>
    plainPiece depth "(" :: statement.pieces (depth + 1) ++ [plainPiece depth ")"]

/-- The pieces of a statement that lies inside `depth` pairs of brackets. -/
def Statement.pieces (depth : Nat) : Statement → List Piece
  | ⟨[], body⟩ => body.pieces depth
  | ⟨entry :: entries, body⟩ =>
    plainPiece depth "WITH " ::
      separated (plainPiece depth ",\n") (entryPieces depth (entry :: entries)) ++
      plainPiece depth "\n" :: body.pieces depth

def entryPieces (depth : Nat) : List Entry → List (List Piece)
  | [] => []
  | entry :: rest => entry.pieces depth :: entryPieces depth rest

def Entry.pieces (depth : Nat) : Entry → List Piece
  | ⟨name, body⟩ =>
    identifierPiece depth name :: plainPiece depth (" AS (" ++ newLine) ::
      body.pieces (depth + 1) ++ [plainPiece depth "\n)"]

def Select.pieces (depth : Nat) : Select → List Piece
  | ⟨items, base, joins, conditions, sorting, limit⟩ =>
    let selected := selectedPieces depth (itemPieces depth items)
    let restricted := clausePieces depth "\nWHERE " (newLine ++ "AND ")
      (conditionPieces depth (conditions.length > 1) conditions)
    let sorted := clausePieces depth "\nORDER BY " ", " (sortingPieces depth sorting)
    let limited := match limit with
      | none => []
      | some n => [plainPiece depth ("\nLIMIT " ++ toString n)]
    plainPiece depth "SELECT " :: selected ++ plainPiece depth "\nFROM " :: base.pieces depth ++
      (joinPieces depth joins).flatten ++ restricted ++ sorted ++ limited

def itemPieces (depth : Nat) : List SelectItem → List (List Piece)
  | [] => []
  | item :: rest => item.pieces depth :: itemPieces depth rest

def SelectItem.pieces (depth : Nat) : SelectItem → List Piece
  | ⟨expr, none⟩ => exprPieces depth expr
  | ⟨expr, some label⟩ =>
    exprPieces depth expr ++ [plainPiece depth " AS ", identifierPiece depth label]

def joinPieces (depth : Nat) : List Join → List (List Piece)
  | [] => []
  | join :: rest => join.pieces depth :: joinPieces depth rest

def Join.pieces (depth : Nat) : Join → List Piece
  | ⟨kind, item, condition⟩ =>
    plainPiece depth (newLine ++ kind.keyword ++ " JOIN ") :: item.pieces depth ++
      plainPiece depth " ON " :: exprPieces depth condition

def conditionPieces (depth : Nat) (several : Bool) : List (Expr Statement) → List (List Piece)
  | [] => []
  | e :: rest =>
    groupedPieces depth several e.isAtomic (exprPieces depth e) ::
      conditionPieces depth several rest

def sortingPieces (depth : Nat) : List SortItem → List (List Piece)
  | [] => []
  | item :: rest => item.pieces depth :: sortingPieces depth rest

def SortItem.pieces (depth : Nat) : SortItem → List Piece
  | ⟨expr, direction⟩ => exprPieces depth expr ++ [plainPiece depth (" " ++ direction.keyword)]

end

/-! ### Joining pieces -/

/-- The text of a list of selected items. -/
def selectedText : List String → String
  | [] => "*"
  | texts => String.intercalate ("," ++ newLine) texts

/-- The text of a clause. -/
def clauseText (keyword separator : String) : List String → String
  | [] => ""
  | texts => keyword ++ String.intercalate separator texts

/-- The clauses of a select one after the other. -/
theorem Select.print_eq (items : List SelectItem) (base : TableItem) (joins : List Join)
    (conditions : List (Expr Statement)) (sorting : List SortItem) (limit : Option Nat) :
    Select.print ⟨items, base, joins, conditions, sorting, limit⟩ =
      "SELECT " ++ selectedText (printItems items) ++ "\nFROM " ++ base.print ++
        String.join (printJoins joins) ++
        clauseText "\nWHERE " (newLine ++ "AND ")
          (printConditions (conditions.length > 1) conditions) ++
        clauseText "\nORDER BY " ", " (printSorting sorting) ++
        (limit.map fun n => "\nLIMIT " ++ toString n).getD "" := by
  rw [Select.print.eq_def]
  cases items <;> cases conditions <;> cases sorting <;> cases limit <;>
    simp only [printItems, printConditions, printSorting, selectedText, clauseText, Option.map,
      Option.getD]

@[simp]
theorem join_nil : Piece.join [] = "" := rfl

@[simp]
theorem join_cons (p : Piece) (pieces : List Piece) :
    Piece.join (p :: pieces) = p.text ++ Piece.join pieces := by
  simp [Piece.join]

@[simp]
theorem join_append (a b : List Piece) : Piece.join (a ++ b) = Piece.join a ++ Piece.join b := by
  simp [Piece.join]

@[simp]
theorem text_plainPiece (depth : Nat) (text : String) :
    (plainPiece depth text).text = indentedBy depth text := rfl

@[simp]
theorem text_identifierPiece (depth : Nat) (name : String) :
    (identifierPiece depth name).text = indentedBy depth (Quoted.identifier name) := rfl

theorem join_separated (depth : Nat) (separator : String) (rows : List (List Piece))
    (texts : List String) (h : rows.map Piece.join = texts.map (indentedBy depth)) :
    Piece.join (separated (plainPiece depth separator) rows) =
      indentedBy depth (String.intercalate separator texts) := by
  induction rows generalizing texts with
  | nil =>
    obtain rfl : texts = [] := by simpa using h.symm
    simp [separated, indentedBy_eq_self]
  | cons row rows ih =>
    obtain ⟨text, texts, rfl⟩ : ∃ t ts, texts = t :: ts := by
      cases texts with
      | nil => simp at h
      | cons t ts => exact ⟨t, ts, rfl⟩
    simp only [List.map_cons, List.cons.injEq] at h
    obtain ⟨hrow, hrows⟩ := h
    have hjoined := ih texts hrows
    cases rows with
    | nil =>
      obtain rfl : texts = [] := by simpa using hrows.symm
      simp [separated, hrow]
    | cons second rows =>
      cases texts with
      | nil => simp at hrows
      | cons t ts =>
        simp only [separated, join_append, join_cons, hrow, text_plainPiece,
          String.intercalate_cons_cons, indentedBy_append] at hjoined ⊢
        rw [hjoined, String.append_assoc]

theorem join_groupedPieces (depth : Nat) (several atomic : Bool) (row : List Piece)
    (text : String) (h : Piece.join row = indentedBy depth text) :
    Piece.join (groupedPieces depth several atomic row) =
      indentedBy depth (grouped several atomic text) := by
  unfold groupedPieces grouped
  split
  · simp [h, indentedBy_append, String.append_assoc]
  · exact h

theorem join_selectedPieces (depth : Nat) (rows : List (List Piece)) (texts : List String)
    (h : rows.map Piece.join = texts.map (indentedBy depth)) :
    Piece.join (selectedPieces depth rows) = indentedBy depth (selectedText texts) := by
  have hjoined := join_separated depth ("," ++ newLine) rows texts h
  cases rows with
  | nil =>
    obtain rfl : texts = [] := by simpa using h.symm
    simp [selectedPieces, selectedText]
  | cons row rows =>
    cases texts with
    | nil => simp at h
    | cons t ts => exact hjoined

theorem join_clausePieces (depth : Nat) (keyword separator : String) (rows : List (List Piece))
    (texts : List String) (h : rows.map Piece.join = texts.map (indentedBy depth)) :
    Piece.join (clausePieces depth keyword separator rows) =
      indentedBy depth (clauseText keyword separator texts) := by
  have hjoined := join_separated depth separator rows texts h
  cases rows with
  | nil =>
    obtain rfl : texts = [] := by simpa using h.symm
    simp [clausePieces, clauseText, indentedBy_eq_self]
  | cons row rows =>
    cases texts with
    | nil => simp at h
    | cons t ts => simp [clausePieces, clauseText, indentedBy_append, hjoined]

theorem join_tableItem (depth : Nat) (item : TableItem) :
    Piece.join (item.pieces depth) = indentedBy depth item.print := by
  simp [TableItem.pieces, TableItem.print, indentedBy_append, String.append_assoc]

mutual

theorem join_exprPieces (depth : Nat) :
    (e : Expr Statement) → Piece.join (exprPieces depth e) = indentedBy depth (printExpr e)
  | .column source name => by
    simp [exprPieces, printExpr, indentedBy_append, String.append_assoc]
  | .star source => by simp [exprPieces, printExpr, indentedBy_append]
  | .raw sql => by simp [exprPieces, printExpr]
  | .text value => by simp [exprPieces, printExpr, Piece.text, Content.text]
  | .unary before operand after => by
    have ho := join_exprPieces depth operand
    simp [exprPieces, printExpr, indentedBy_append, ho, String.append_assoc]
  | .binary before between after left right => by
    have hl := join_exprPieces depth left
    have hr := join_exprPieces depth right
    simp [exprPieces, printExpr, indentedBy_append, hl, hr, String.append_assoc]
  | .subquery statement => by
    have hs := join_statement (depth + 1) statement
    simp [exprPieces, printExpr, indentedBy_append, hs, indentedBy, String.append_assoc]

theorem join_statement (depth : Nat) :
    (s : Statement) → Piece.join (s.pieces depth) = indentedBy depth s.print
  | ⟨[], body⟩ => by
    rw [Statement.pieces, Statement.print]
    exact join_select depth body
  | ⟨entry :: entries, body⟩ => by
    have hb := join_select depth body
    have he := join_separated depth ",\n" _ _ (join_entries depth (entry :: entries))
    simp [Statement.pieces, Statement.print, indentedBy_append, hb, he, String.append_assoc]

theorem join_entries (depth : Nat) : (entries : List Entry) →
    (entryPieces depth entries).map Piece.join = (printEntries entries).map (indentedBy depth)
  | [] => rfl
  | entry :: rest => by
    simp [entryPieces, printEntries, join_entry depth entry, join_entries depth rest]

theorem join_entry (depth : Nat) :
    (entry : Entry) → Piece.join (entry.pieces depth) = indentedBy depth entry.print
  | ⟨name, body⟩ => by
    have hb := join_select (depth + 1) body
    simp [Entry.pieces, Entry.print, indentedBy_append, hb, indentedBy, String.append_assoc]

theorem join_select (depth : Nat) :
    (s : Select) → Piece.join (s.pieces depth) = indentedBy depth s.print
  | ⟨items, base, joins, conditions, sorting, limit⟩ => by
    have hitems := join_selectedPieces depth _ _ (join_items depth items)
    have hjoins := join_joins depth joins
    have hconditions := join_clausePieces depth "\nWHERE " (newLine ++ "AND ") _ _
      (join_conditions depth (conditions.length > 1) conditions)
    have hsorting := join_clausePieces depth "\nORDER BY " ", " _ _ (join_sorting depth sorting)
    rw [Select.print_eq, Select.pieces.eq_def]
    simp only [join_append, join_cons, text_plainPiece, join_tableItem, hitems, hjoins,
      hconditions, hsorting, indentedBy_append]
    cases limit with
    | none => simp [String.append_assoc, indentedBy_eq_self]
    | some n => simp [String.append_assoc, indentedBy_append]

theorem join_items (depth : Nat) : (items : List SelectItem) →
    (itemPieces depth items).map Piece.join = (printItems items).map (indentedBy depth)
  | [] => rfl
  | item :: rest => by
    simp [itemPieces, printItems, join_item depth item, join_items depth rest]

theorem join_item (depth : Nat) :
    (item : SelectItem) → Piece.join (item.pieces depth) = indentedBy depth item.print
  | ⟨expr, none⟩ => by
    rw [SelectItem.pieces, SelectItem.print]
    exact join_exprPieces depth expr
  | ⟨expr, some label⟩ => by
    have he := join_exprPieces depth expr
    simp [SelectItem.pieces, SelectItem.print, indentedBy_append, he, String.append_assoc]

theorem join_joins (depth : Nat) : (joins : List Join) →
    Piece.join (joinPieces depth joins).flatten = indentedBy depth (String.join (printJoins joins))
  | [] => by simp [joinPieces, printJoins, indentedBy_eq_self]
  | join :: rest => by
    simp [joinPieces, printJoins, indentedBy_append, join_join depth join, join_joins depth rest]

theorem join_join (depth : Nat) :
    (join : Join) → Piece.join (join.pieces depth) = indentedBy depth join.print
  | ⟨kind, item, condition⟩ => by
    have hc := join_exprPieces depth condition
    simp [Join.pieces, Join.print, indentedBy_append, join_tableItem, hc, String.append_assoc]

theorem join_conditions (depth : Nat) (several : Bool) : (conditions : List (Expr Statement)) →
    (conditionPieces depth several conditions).map Piece.join =
      (printConditions several conditions).map (indentedBy depth)
  | [] => rfl
  | e :: rest => by
    have he := join_groupedPieces depth several e.isAtomic _ _ (join_exprPieces depth e)
    simp [conditionPieces, printConditions, he, join_conditions depth several rest]

theorem join_sorting (depth : Nat) : (sorting : List SortItem) →
    (sortingPieces depth sorting).map Piece.join = (printSorting sorting).map (indentedBy depth)
  | [] => rfl
  | item :: rest => by
    simp [sortingPieces, printSorting, join_sortItem depth item, join_sorting depth rest]

theorem join_sortItem (depth : Nat) :
    (item : SortItem) → Piece.join (item.pieces depth) = indentedBy depth item.print
  | ⟨expr, direction⟩ => by
    have he := join_exprPieces depth expr
    simp [SortItem.pieces, SortItem.print, indentedBy_append, he, String.append_assoc]

end

end QueryBuilder.Sql
