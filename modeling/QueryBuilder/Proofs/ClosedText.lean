import QueryBuilder.Proofs.ConditionText
import QueryBuilder.Proofs.Formulas
import QueryBuilder.Proofs.Layout
import QueryBuilder.Proofs.Naming

/-! Texts that close what they open.

Compiled text is put together from raw text, from the fragments of operators, and from quoted
tokens, keywords and brackets of the compiler's own. These close what they open. So the whole text
does if every raw text does and the fragments of every operator do around its operands. What is
written between brackets is then out of sight of what stands around them, so that it reads as one
operand. -/
namespace QueryBuilder.Condition
open Text.Quoted (encode identifierQuote literalQuote)
open Sql

/-- Quoted tokens, comments and brackets that begin in the text end in it, and no others do. -/
def Closed (text : String) : Prop := (signs text.toList).isSome

instance (text : String) : Decidable (Closed text) := inferInstanceAs (Decidable (_ = _))

/-- From the place on, the characters come to the end of a condition, with no word in sight. -/
def Wordless (p : Place) (cs : List Char) : Prop :=
  ∃ ss, signsFrom p cs = some ss ∧ ∀ s ∈ ss, s.inWord = false

theorem Wordless.nil : Wordless .outside [] := ⟨[], rfl, fun _ hs => absurd hs List.not_mem_nil⟩

theorem Wordless.cons {p p' : Place} {c : Char} {cs : List Char} (hbehind : p.behind c = some p')
    (hword : (⟨c, p.shows⟩ : Sign).inWord = false) (h : Wordless p' cs) : Wordless p (c :: cs) := by
  obtain ⟨ss, hss, hout⟩ := h
  refine ⟨_, signsFrom_cons_eq_some.mpr ⟨p', ss, hbehind, hss, rfl⟩, fun s hs => ?_⟩
  rcases List.mem_cons.mp hs with rfl | hs
  · exact hword
  · exact hout s hs

/-- A closed text without a word in sight. -/
def Solid (text : String) : Prop := Wordless .outside text.toList

theorem Solid.closed {text : String} (h : Solid text) : Closed text := by
  obtain ⟨ss, hss, -⟩ := h
  exact Option.isSome_iff_exists.mpr ⟨ss, hss⟩

theorem Solid.append {a b : String} (ha : Solid a) (hb : Solid b) : Solid (a ++ b) := by
  obtain ⟨ss, hss, hout⟩ := ha
  obtain ⟨ts, hts, hout'⟩ := hb
  refine ⟨ss ++ ts, ?_, fun s hs => (List.mem_append.mp hs).elim (hout s) (hout' s)⟩
  rw [String.toList_append]
  exact signs_append hss hts

namespace Closed

theorem append {a b : String} (ha : Closed a) (hb : Closed b) : Closed (a ++ b) := by
  obtain ⟨ss, hss⟩ := Option.isSome_iff_exists.mp ha
  obtain ⟨ts, hts⟩ := Option.isSome_iff_exists.mp hb
  refine Option.isSome_iff_exists.mpr ⟨ss ++ ts, ?_⟩
  rw [String.toList_append]
  exact signs_append hss hts

/-- Between brackets no word is in sight. -/
theorem bracketed {text : String} (h : Closed text) : Solid ("(" ++ text ++ ")") := by
  obtain ⟨ss, hss⟩ := Option.isSome_iff_exists.mp h
  refine ⟨⟨'(', true⟩ :: (ss.map Sign.hidden ++ [⟨')', false⟩]), ?_, ?_⟩
  · have hchars : ("(" ++ text ++ ")").toList = '(' :: (text.toList ++ [')']) := by
      simp [String.toList_append]
    rw [hchars]
    exact signs_bracketed hss
  · intro s hs
    simp only [List.mem_cons, List.mem_append, List.mem_map, List.not_mem_nil, or_false] at hs
    rcases hs with rfl | ⟨t, -, rfl⟩ | rfl <;> rfl

theorem intercalate {separator : String} (hseparator : Closed separator) {texts : List String}
    (h : ∀ text ∈ texts, Closed text) : Closed (String.intercalate separator texts) := by
  induction texts with
  | nil => exact (by decide : Closed "")
  | cons text texts ih =>
    have hfirst := h text (List.mem_cons_self ..)
    have hrest := ih fun t ht => h t (List.mem_cons_of_mem _ ht)
    cases texts with
    | nil => rwa [String.intercalate_singleton]
    | cons second texts =>
      rw [String.intercalate_cons_cons]
      exact (hfirst.append hseparator).append hrest

theorem join {texts : List String} (h : ∀ text ∈ texts, Closed text) :
    Closed (String.join texts) := by
  induction texts with
  | nil => exact (by decide : Closed "")
  | cons text texts ih =>
    rw [String.join_cons]
    exact (h text (List.mem_cons_self ..)).append (ih fun t ht => h t (List.mem_cons_of_mem _ ht))

end Closed

/-! ### Quoted tokens and numbers -/

/-- The quote of a token, and what is read inside of the token. -/
inductive Quotes : Char → Mode → Prop
  | literal : Quotes literalQuote .literal
  | identifier : Quotes identifierQuote .identifier

namespace Quotes
variable {quote : Char} {mode : Mode}

theorem begins (h : Quotes quote mode) : Place.outside.behind quote = some ⟨0, mode⟩ := by
  cases h <;> rfl

theorem ends (h : Quotes quote mode) : Place.behind ⟨0, mode⟩ quote = some .outside := by
  cases h <;> rfl

theorem goes_on (h : Quotes quote mode) {c : Char} (hc : c ≠ quote) :
    Place.behind ⟨0, mode⟩ c = some ⟨0, mode⟩ := by
  cases h <;> simp [Place.behind, Mode.isCode, Mode.next, hc]

theorem inWord_eq (h : Quotes quote mode) (shown : Bool) :
    (⟨quote, shown⟩ : Sign).inWord = false := by
  cases h <;> cases shown <;> rfl

theorem shows_eq (h : Quotes quote mode) : (⟨0, mode⟩ : Place).shows = false := by
  cases h <;> rfl

/-- Inside of a token a quote stands twice, so that the token ends with the next one. -/
theorem wordless (h : Quotes quote mode) (cs : List Char) :
    Wordless ⟨0, mode⟩ (encode quote cs ++ [quote]) := by
  induction cs with
  | nil => exact .cons h.ends (h.inWord_eq _) .nil
  | cons c cs ih =>
    by_cases hc : c = quote
    · subst hc
      rw [encode, if_pos rfl]
      exact .cons h.ends (h.inWord_eq _) (.cons h.begins (h.inWord_eq _) ih)
    · have hword : (⟨c, (⟨0, mode⟩ : Place).shows⟩ : Sign).inWord = false := by
        rw [Sign.inWord, h.shows_eq]
        rfl
      rw [encode, if_neg hc]
      exact .cons (h.goes_on hc) hword ih

theorem solid (h : Quotes quote mode) (s : String) : Solid (Text.Quoted.quoted quote s) := by
  unfold Solid
  rw [Text.Quoted.toList_quoted]
  exact .cons h.begins (h.inWord_eq _) (h.wordless s.toList)

end Quotes

theorem solid_identifier (name : String) : Solid (Text.Quoted.identifier name) :=
  Quotes.identifier.solid name

theorem behind_digit {mode : Mode} (hmode : mode.isCode) {c : Char} (hc : c.isDigit) :
    Place.behind ⟨0, mode⟩ c = some .outside := by
  have hne : ∀ d : Char, d.isDigit = false → c ≠ d := fun d hd => Formula.ne_of_isDigit hc hd
  cases mode <;> simp [Mode.isCode] at hmode <;>
    simp [Place.behind, Place.outside, Mode.isCode, Mode.next, Mode.opening, literalQuote,
      identifierQuote, hne '(' rfl, hne ')' rfl, hne '\x27' rfl, hne '\x22' rfl, hne '-' rfl,
      hne '/' rfl, hne '*' rfl]

theorem signs_digits {cs : List Char} (h : ∀ c ∈ cs, c.isDigit) : ∃ ss, signs cs = some ss := by
  induction cs with
  | nil => exact ⟨[], rfl⟩
  | cons c cs ih =>
    obtain ⟨ss, hss⟩ := ih fun d hd => h d (List.mem_cons_of_mem _ hd)
    exact ⟨_, signsFrom_cons_eq_some.mpr
      ⟨_, ss, behind_digit rfl (h c (List.mem_cons_self ..)), hss, rfl⟩⟩

theorem closed_number (n : Nat) : Closed (toString n) := by
  have hdigits : (toString n).toList = Nat.toDigits 10 n := by
    rw [Nat.toString_eq_ofList_toDigits, String.toList_ofList]
  refine Option.isSome_iff_exists.mpr ?_
  rw [hdigits]
  exact signs_digits (Formula.isDigit_toDigits n)

/-- A digit behind a minus sign makes sure that this begins no comment. -/
theorem closed_integer (value : Int) : Closed (printExpr (Formula.integer value).expr) := by
  refine Option.isSome_iff_exists.mpr ?_
  show ∃ ss, signs (Formula.integer value).chars = some ss
  rw [Formula.chars_integer]
  split
  · exact signs_digits (Formula.isDigit_toDigits _)
  · obtain ⟨c, digits, hdigits, hc⟩ := Formula.toDigits_head (-value).toNat
    have hrest := Formula.isDigit_toDigits (-value).toNat
    rw [hdigits] at hrest ⊢
    obtain ⟨ss, hss⟩ := signs_digits fun d hd => hrest d (List.mem_cons_of_mem _ hd)
    exact ⟨_, signsFrom_cons_eq_some.mpr ⟨_, _, rfl,
      signsFrom_cons_eq_some.mpr ⟨_, ss, behind_digit rfl hc, hss, rfl⟩, rfl⟩⟩

/-! ### Indentation -/

/-- Behind a line break, a blank changes nothing. -/
theorem Place.behind_blank {p p' : Place} (h : p.behind '\n' = some p') :
    p'.behind ' ' = some p' := by
  obtain ⟨opened, mode⟩ := p
  cases mode <;>
  · obtain rfl := Option.some.inj h
    rfl

theorem signsFrom_indented {p : Place} {cs : List Char} {ss : List Sign}
    (h : signsFrom p cs = some ss) : ∃ ts, signsFrom p (indentedChars cs) = some ts := by
  induction cs generalizing p ss with
  | nil => exact ⟨ss, h⟩
  | cons c cs ih =>
    obtain ⟨p', ss', hbehind, hrest, rfl⟩ := signsFrom_cons_eq_some.mp h
    obtain ⟨ts, hts⟩ := ih hrest
    by_cases hc : c = '\n'
    · subst hc
      have hblank := Place.behind_blank hbehind
      have hstep : indentation.toList = [' ', ' ', ' ', ' '] := by decide
      rw [indentedChars, if_pos rfl, hstep]
      exact ⟨_, signsFrom_cons_eq_some.mpr ⟨_, _, hbehind,
        signsFrom_cons_eq_some.mpr ⟨_, _, hblank, signsFrom_cons_eq_some.mpr ⟨_, _, hblank,
        signsFrom_cons_eq_some.mpr ⟨_, _, hblank, signsFrom_cons_eq_some.mpr ⟨_, _, hblank, hts,
          rfl⟩, rfl⟩, rfl⟩, rfl⟩, rfl⟩⟩
    · rw [indentedChars, if_neg hc]
      exact ⟨_, signsFrom_cons_eq_some.mpr ⟨_, _, hbehind, hts, rfl⟩⟩

theorem Closed.indented {text : String} (h : Closed text) : Closed (indented text) := by
  obtain ⟨ss, hss⟩ := Option.isSome_iff_exists.mp h
  refine Option.isSome_iff_exists.mpr ?_
  rw [toList_indented]
  exact signsFrom_indented hss

/-! ### Statements -/

theorem printItems_eq (items : List SelectItem) :
    printItems items = items.map SelectItem.print := by
  induction items with
  | nil => rfl
  | cons item rest ih => rw [printItems, ih, List.map_cons]

theorem printJoins_eq (joins : List Join) : printJoins joins = joins.map Join.print := by
  induction joins with
  | nil => rfl
  | cons join rest ih => rw [printJoins, ih, List.map_cons]

theorem printConditions_eq (several : Bool) (conditions : List (Expr Statement)) :
    printConditions several conditions =
      conditions.map fun e => grouped several e.isAtomic (printExpr e) := by
  induction conditions with
  | nil => rfl
  | cons e rest ih => rw [printConditions, ih, List.map_cons]

theorem printSorting_eq (sorting : List SortItem) :
    printSorting sorting = sorting.map SortItem.print := by
  induction sorting with
  | nil => rfl
  | cons item rest ih => rw [printSorting, ih, List.map_cons]

theorem printEntries_eq (entries : List Entry) :
    printEntries entries = entries.map Entry.print := by
  induction entries with
  | nil => rfl
  | cons entry rest ih => rw [printEntries, ih, List.map_cons]

theorem closed_identifier (name : String) : Closed (Text.Quoted.identifier name) :=
  (solid_identifier name).closed

theorem closed_tableItem (item : TableItem) : Closed item.print :=
  ((closed_identifier _).append (by decide)).append (closed_identifier _)

theorem closed_selectItem {item : SelectItem} (h : Closed (printExpr item.expr)) :
    Closed item.print := by
  obtain ⟨e, _ | label⟩ := item
  · exact h
  · exact (h.append (by decide)).append (closed_identifier label)

theorem closed_join {join : Join} (h : Closed (printExpr join.condition)) : Closed join.print := by
  obtain ⟨kind, item, condition⟩ := join
  have hkind : Closed (newLine ++ kind.keyword ++ " JOIN ") := by cases kind <;> decide
  exact ((hkind.append (closed_tableItem item)).append (by decide)).append h

theorem closed_sortItem {item : SortItem} (h : Closed (printExpr item.expr)) :
    Closed item.print := by
  obtain ⟨e, direction⟩ := item
  exact (h.append (by decide)).append (by cases direction <;> decide)

theorem closed_grouped {text : String} (h : Closed text) (several atomic : Bool) :
    Closed (grouped several atomic text) := by
  unfold grouped
  split
  · exact h.bracketed.closed
  · exact h

theorem closed_clauseText {keyword separator : String} (hkeyword : Closed keyword)
    (hseparator : Closed separator) {texts : List String} (h : ∀ text ∈ texts, Closed text) :
    Closed (clauseText keyword separator texts) := by
  cases texts with
  | nil => exact (by decide : Closed "")
  | cons text texts => exact hkeyword.append (hseparator.intercalate h)

/-- A select closes if its expressions do. -/
theorem closed_select {s : Select} (h : ∀ e ∈ s.exprs, Closed (printExpr e)) : Closed s.print := by
  obtain ⟨items, base, joins, conditions, sorting, limit⟩ := s
  simp only [Select.exprs, List.forall_mem_append, List.forall_mem_map] at h
  obtain ⟨hitems, hjoins, hconditions, hsorting⟩ := h
  have hselected : Closed (selectedText (printItems items)) := by
    rw [printItems_eq]
    cases items with
    | nil => exact (by decide : Closed "*")
    | cons item rest =>
      refine Closed.intercalate (by decide) (List.forall_mem_map.mpr ?_)
      exact fun item hitem => closed_selectItem (hitems item hitem)
  have hjoined : Closed (String.join (printJoins joins)) := by
    rw [printJoins_eq]
    exact Closed.join (List.forall_mem_map.mpr fun join hjoin => closed_join (hjoins join hjoin))
  have hrestricted : ∀ text ∈ printConditions (conditions.length > 1) conditions, Closed text := by
    rw [printConditions_eq]
    exact List.forall_mem_map.mpr fun e he => closed_grouped (hconditions e he) _ _
  have hsorted : ∀ text ∈ printSorting sorting, Closed text := by
    rw [printSorting_eq]
    exact List.forall_mem_map.mpr fun item hitem => closed_sortItem (hsorting item hitem)
  have hlimited : Closed ((limit.map fun n => "\nLIMIT " ++ toString n).getD "") := by
    cases limit with
    | none => exact (by decide : Closed "")
    | some n => exact (by decide : Closed "\nLIMIT ").append (closed_number n)
  have hfrom : Closed ("SELECT " ++ selectedText (printItems items) ++ "\nFROM " ++ base.print) :=
    (((by decide : Closed "SELECT ").append hselected).append (by decide)).append
      (closed_tableItem base)
  have hwhere := closed_clauseText (by decide : Closed "\nWHERE ")
    (by decide : Closed (newLine ++ "AND ")) hrestricted
  have horder := closed_clauseText (by decide : Closed "\nORDER BY ") (by decide : Closed ", ")
    hsorted
  rw [Select.print_eq]
  exact (((hfrom.append hjoined).append hwhere).append horder).append hlimited

theorem closed_entry {entry : Entry} (h : ∀ e ∈ entry.body.exprs, Closed (printExpr e)) :
    Closed entry.print := by
  obtain ⟨name, body⟩ := entry
  have hbody : Closed ("(" ++ (newLine ++ indented body.print ++ "\n") ++ ")") :=
    ((((by decide : Closed newLine).append (closed_select h).indented).append
      (by decide)).bracketed).closed
  have hentry := ((closed_identifier name).append (by decide : Closed " AS ")).append hbody
  have hprint : Entry.print ⟨name, body⟩ = Text.Quoted.identifier name ++ " AS " ++
      ("(" ++ (newLine ++ indented body.print ++ "\n") ++ ")") := by
    rw [← String.toList_inj]
    simp [Entry.print, String.toList_append]
  rwa [hprint]

/-- A statement closes if its expressions and those of its entries do. -/
theorem closed_statement {s : Statement}
    (hentries : ∀ entry ∈ s.entries, ∀ e ∈ entry.body.exprs, Closed (printExpr e))
    (hbody : ∀ e ∈ s.body.exprs, Closed (printExpr e)) : Closed s.print := by
  obtain ⟨entries, body⟩ := s
  cases entries with
  | nil => exact closed_select hbody
  | cons entry rest =>
    have hprinted : ∀ text ∈ printEntries (entry :: rest), Closed text := by
      rw [printEntries_eq]
      exact List.forall_mem_map.mpr fun e he => closed_entry (hentries e he)
    have hlisted := Closed.intercalate (by decide : Closed ",\n") hprinted
    exact (((by decide : Closed "WITH ").append hlisted).append (by decide)).append
      (closed_select hbody)

/-! ### Expressions -/

/-- Every raw text in the expression is closed, in its subqueries as well, and the fragments of
every operator close around its operands. -/
inductive Closes : Expr Statement → Prop
  | column {source name} : Closes (.column source name)
  | star {source} : Closes (.star source)
  | raw {sql} : Closed sql → Closes (.raw sql)
  | text {value} : Closes (.text value)
  | unary {before e after} : Closes e →
      (Closed (printExpr e) → Closed (before ++ printExpr e ++ after)) →
      Closes (.unary before e after)
  | binary {before between after left right} : Closes left → Closes right →
      (Closed (printExpr left) → Closed (printExpr right) →
        Closed (before ++ printExpr left ++ between ++ printExpr right ++ after)) →
      Closes (.binary before between after left right)
  | subquery {s : Statement} : (∀ entry ∈ s.entries, ∀ e ∈ entry.body.exprs, Closes e) →
      (∀ e ∈ s.body.exprs, Closes e) → Closes (.subquery s)

namespace Closes

/-- By induction on the expression: what closes is put together to a text that closes. -/
theorem closed {e : Expr Statement} (h : Closes e) : Closed (printExpr e) := by
  induction h with
  | column => exact ((closed_identifier _).append (by decide)).append (closed_identifier _)
  | star => exact (closed_identifier _).append (by decide)
  | raw hsql => exact hsql
  | text => exact (Quotes.literal.solid _).closed
  | unary _ haround ih => exact haround ih
  | binary _ _ haround ihl ihr => exact haround ihl ihr
  | subquery _ _ ihentries ihbody =>
    exact ((closed_statement ihentries ihbody).indented.bracketed).closed

/-- A function or a word in front of brackets. -/
theorem call {e : Expr Statement} (h : Closes e) {name : String} (hname : Closed name) :
    Closes (.unary (name ++ "(") e ")") := by
  refine .unary h fun hclosed => ?_
  have haround := hname.append hclosed.bracketed.closed
  rwa [← String.append_assoc, ← String.append_assoc] at haround

theorem negation {e : Expr Statement} (h : Closes e) : Closes e.negation :=
  h.call (by decide : Closed "NOT ")

theorem negative {e : Expr Statement} (h : Closes e) : Closes e.negative := by
  refine .unary h fun hclosed => ?_
  obtain ⟨ss, hss⟩ := Option.isSome_iff_exists.mp hclosed
  have hchars : ("-(" ++ printExpr e ++ ")").toList =
      '-' :: '(' :: ((printExpr e).toList ++ [')']) := by
    simp [String.toList_append]
  refine Option.isSome_iff_exists.mpr ?_
  rw [hchars]
  exact ⟨_, signsFrom_cons_eq_some.mpr ⟨_, _, rfl,
    signsFrom_cons_eq_some.mpr ⟨_, _, rfl, signsFrom_deeper hss, rfl⟩, rfl⟩⟩

theorem apply {left right : Expr Statement} (hl : Closes left) (hr : Closes right)
    (op : Operator) : Closes (left.apply op right) := by
  have hsymbol : Closed (" " ++ op.symbol ++ " ") := by cases op <;> decide
  unfold Expr.apply
  split
  · refine .binary hl hr fun hleft hright => ?_
    have haround := (hleft.append hsymbol).append hright.bracketed.closed
    have htext : "" ++ printExpr left ++ (" " ++ op.symbol ++ " (") ++ printExpr right ++ ")" =
        printExpr left ++ (" " ++ op.symbol ++ " ") ++ ("(" ++ printExpr right ++ ")") := by
      rw [← String.toList_inj]
      simp [String.toList_append]
    rwa [htext]
  · refine .binary hl hr fun hleft hright => ?_
    have haround := (hleft.bracketed.closed.append hsymbol).append hright.bracketed.closed
    have htext : "(" ++ printExpr left ++ (") " ++ op.symbol ++ " (") ++ printExpr right ++ ")" =
        "(" ++ printExpr left ++ ")" ++ (" " ++ op.symbol ++ " ") ++
          ("(" ++ printExpr right ++ ")") := by
      rw [← String.toList_inj]
      simp [String.toList_append]
    rwa [htext]

end Closes

/-- Every formula closes. -/
theorem closes_formula (f : Formula) : Closes f.expr := by
  induction f with
  | column => exact .column
  | star => exact .star
  | text => exact .text
  | integer value => exact .raw (closed_integer value)
  | negation f ih => exact ih.negation
  | negative f ih => exact ih.negative
  | apply op left right ihl ihr => exact ihl.apply ihr op

/-! ### Single operands -/

/-- A solid text that begins and ends with a character that is no blank. -/
structure Firm (text : String) : Prop where
  solid : Solid text
  first : ∃ c ∈ text.toList.head?, c.isWhitespace = false
  last : ∃ c ∈ text.toList.getLast?, c.isWhitespace = false

namespace Firm

theorem append {a b : String} (ha : Firm a) (hb : Firm b) : Firm (a ++ b) where
  solid := ha.solid.append hb.solid
  first := by
    obtain ⟨c, hc, hblank⟩ := ha.first
    refine ⟨c, ?_, hblank⟩
    rw [Option.mem_def] at hc ⊢
    rw [String.toList_append, List.head?_append, hc]
    rfl
  last := by
    obtain ⟨c, hc, hblank⟩ := hb.last
    refine ⟨c, ?_, hblank⟩
    rw [Option.mem_def] at hc ⊢
    rw [String.toList_append, List.getLast?_append, hc]
    rfl

theorem bracketed {text : String} (h : Closed text) : Firm ("(" ++ text ++ ")") where
  solid := h.bracketed
  first := ⟨'(', by simp [String.toList_append], rfl⟩
  last := ⟨')', by rw [String.toList_append, List.getLast?_append]; rfl, rfl⟩

theorem quoted {quote : Char} {mode : Mode} (h : Quotes quote mode) (s : String) :
    Firm (Text.Quoted.quoted quote s) where
  solid := h.solid s
  first := ⟨quote, by simp, by cases h <;> rfl⟩
  last := ⟨quote, by rw [Text.Quoted.toList_quoted]; exact List.getLast?_concat, by cases h <;> rfl⟩

/-- **A firm text reads as one operand.** -/
theorem read {text : String} (h : Firm text) : read text = some [[⟨0, text⟩]] := by
  obtain ⟨⟨ss, hss, hout⟩, ⟨c, hc, hfirst⟩, ⟨d, hd, hlast⟩⟩ := h
  have hitems : items (tokens ss) = some (parts text.toList) := by
    rw [tokens_of_no_word hout, ← chars_of_signsFrom hss, ← items_marks, List.map_map]
    rfl
  have htrimmed : trimmed (text.toList.map .mark) = text := by
    have hend : text.toList.rdropWhile Char.isWhitespace = text.toList := by
      refine List.rdropWhile_eq_self_iff.mpr fun hne => ?_
      rw [List.getLast?_eq_some_getLast hne, Option.mem_def, Option.some.injEq] at hd
      simp [hd, hlast]
    rw [trimmed, chars_marks, hend, String.ofList_toList]
  have hoperand : Operand.ofItems (parts text.toList) = ⟨0, text⟩ := by
    rw [Operand.ofItems, tokens_parts]
    obtain ⟨rest, hrest⟩ : ∃ rest, text.toList = c :: rest := List.head?_eq_some_iff.mp hc
    rw [hrest, List.map_cons] at htrimmed ⊢
    have hblank : (Token.mark c).isBlank = false := hfirst
    simp [Operand.ofTokens, hblank, Token.keyword?, htrimmed]
  have hne : text ≠ "" := by
    rintro rfl
    simp at hc
  refine read_eq_some_iff.mpr ⟨ss, _, hss, hitems, ?_, ?_⟩
  · rw [alternatives, splitOnP_parts (fun _ => rfl), List.map_singleton, operands,
      splitOnP_parts (fun _ => rfl), List.map_singleton, hoperand]
  · simp [isWhole, hne]

end Firm

end QueryBuilder.Condition
