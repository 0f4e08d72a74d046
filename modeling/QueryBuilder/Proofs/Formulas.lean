import Mathlib.Data.List.Basic
import QueryBuilder.Literal
import QueryBuilder.Proofs.Quoted
import QueryBuilder.Sql.Compilation

/-! Reading formulas back.

A formula is made of columns, texts and integers by the operators. The right operand of an
operator always stands between brackets, and the left one does unless it is atomic, so that what
follows an atomic formula tells whether it is an operand: the blank in front of an operator, or a
closing bracket, or nothing. This is all that a reader needs to know which tree was written, and it
never has to look into quoted tokens, whatever their texts are. -/
namespace QueryBuilder
open Text.Quoted (inside encode inside_encode identifierQuote literalQuote)

/-- What the operators make of columns, text literals and integer literals. -/
inductive Formula where
  | column (source name : String)
  | star (source : String)
  | text (value : String)
  | integer (value : Int)
  | negation (operand : Formula)
  | negative (operand : Formula)
  | apply (op : Operator) (left right : Formula)
deriving DecidableEq, Repr

/-- The display alias of a source; a source that is not bound keeps its name. -/
def Scope.display (s : Scope) (source : String) : String :=
  ((s.lookup source).map (·.display)).getD source

namespace Formula
variable {σ : Type}

def expr : Formula → Expr σ
  | column source name => .column source name
  | star source => .star source
  | text value => Literal.text value
  | integer value => Literal.integer value
  | negation operand => operand.expr.negation
  | negative operand => operand.expr.negative
  | apply op left right => .apply op left.expr right.expr

/-- The sources of its columns and stars. -/
def sources : Formula → List String
  | column source _ | star source => [source]
  | text _ | integer _ => []
  | negation operand | negative operand => operand.sources
  | apply _ left right => left.sources ++ right.sources

/-- The formula with the display alias of each source in its place. -/
def displayed (scope : Scope) : Formula → Formula
  | column source name => column (scope.display source) name
  | star source => star (scope.display source)
  | text value => text value
  | integer value => integer value
  | negation operand => negation (operand.displayed scope)
  | negative operand => negative (operand.displayed scope)
  | apply op left right => apply op (left.displayed scope) (right.displayed scope)

def isAtomic : Formula → Bool
  | column .. | star .. | text .. | integer .. => true
  | negation .. | negative .. | apply .. => false

@[simp]
theorem isAtomic_expr (f : Formula) : (f.expr : Expr σ).isAtomic = f.isAtomic := by
  cases f with
  | apply op left right => exact Expr.isAtomic_apply op left.expr right.expr
  | column | star | text | integer | negation | negative => rfl

@[simp]
theorem isAtomic_displayed (scope : Scope) (f : Formula) :
    (f.displayed scope).isAtomic = f.isAtomic := by
  cases f <;> rfl

end Formula

/-! ### The characters of a formula -/

def Operator.all : List Operator :=
  [.plus, .minus, .gt, .gte, .lt, .lte, .eq, .ne, .and, .or]

/-- The text between the operands of an operator, up to the bracket around the right one. -/
def Operator.infixChars (op : Operator) : List Char := (" " ++ op.symbol ++ " (").toList

namespace Formula

def chars (f : Formula) : List Char := (Sql.printExpr f.expr).toList

/-- The characters of a quoted token. -/
def tokenChars (quote : Char) (s : String) : List Char := quote :: encode quote s.toList ++ [quote]

theorem chars_column (source name : String) :
    (column source name).chars =
      tokenChars identifierQuote source ++ '.' :: tokenChars identifierQuote name := by
  simp [chars, expr, Sql.printExpr, Text.Quoted.identifier, tokenChars]

theorem chars_star (source : String) :
    (star source).chars = tokenChars identifierQuote source ++ ['.', '*'] := by
  simp [chars, expr, Sql.printExpr, Text.Quoted.identifier, tokenChars]

theorem chars_text (value : String) : (text value).chars = tokenChars literalQuote value := by
  simp [chars, expr, Literal.text, Sql.printExpr, Text.Quoted.literal, tokenChars]

theorem chars_integer (value : Int) : (integer value).chars =
    if 0 ≤ value then Nat.toDigits 10 value.toNat else '-' :: Nat.toDigits 10 (-value).toNat := by
  have hrepr : ∀ n : Nat, n.repr.toList = Nat.toDigits 10 n := fun n => by
    rw [← Nat.toString_eq_repr, Nat.toString_eq_ofList_toDigits, String.toList_ofList]
  simp only [chars, expr, Literal.integer, Sql.printExpr, Int.toString_eq_repr, Int.repr_eq_if]
  split
  · exact hrepr _
  · rw [String.toList_append, hrepr]
    rfl

theorem chars_negation (f : Formula) :
    (negation f).chars = 'N' :: 'O' :: 'T' :: ' ' :: '(' :: (f.chars ++ [')']) := by
  simp [chars, expr, Expr.negation, Sql.printExpr, String.toList_append]

theorem chars_negative (f : Formula) : (negative f).chars = '-' :: '(' :: (f.chars ++ [')']) := by
  simp [chars, expr, Expr.negative, Sql.printExpr, String.toList_append]

theorem chars_apply (op : Operator) (left right : Formula) : (apply op left right).chars =
    (if left.isAtomic then left.chars else '(' :: (left.chars ++ [')'])) ++
      (op.infixChars ++ (right.chars ++ [')'])) := by
  unfold chars
  simp only [expr, Expr.apply, isAtomic_expr]
  split <;> simp [Sql.printExpr, Operator.infixChars, String.toList_append]

/-! ### The reader -/

/-- What may stand behind a formula: nothing, or the bracket that closes around it. -/
def EndsFormula (rest : List Char) : Prop := ∀ c ∈ rest.head?, c = ')'

/-- What may stand behind an atomic formula: the blank in front of an operator as well. -/
def EndsAtom (rest : List Char) : Prop := ∀ c ∈ rest.head?, c = ' ' ∨ c = ')'

theorem EndsFormula.endsAtom {rest : List Char} (h : EndsFormula rest) : EndsAtom rest :=
  fun c hc => .inr (h c hc)

/-- The number at the front. -/
def readNatural (cs : List Char) : Option (Nat × List Char) :=
  let digits := cs.takeWhile Char.isDigit
  if digits = [] then none
  else some (Nat.ofDigitChars 10 digits 0, cs.dropWhile Char.isDigit)

def readInteger : List Char → Option (Int × List Char)
  | [] => none
  | c :: rest =>
    if c = '-' then (readNatural rest).map fun (n, rest) => (-(n : Int), rest)
    else (readNatural (c :: rest)).map fun (n, rest) => ((n : Int), rest)

/-- The column or star of a source whose name has been read. -/
def readMember (source : String) : List Char → Option (Formula × List Char)
  | '.' :: c :: rest =>
    if c = '*' then some (.star source, rest)
    else if c = identifierQuote then
      (inside identifierQuote rest).map fun (name, rest) =>
        (.column source (String.ofList name), rest)
    else none
  | _ => none

/-- The atomic formula at the front. -/
def readAtom : List Char → Option (Formula × List Char)
  | [] => none
  | c :: rest =>
    if c = identifierQuote then
      (inside identifierQuote rest).bind fun (source, rest) =>
        readMember (String.ofList source) rest
    else if c = literalQuote then
      (inside literalQuote rest).map fun (value, rest) => (.text (String.ofList value), rest)
    else (readInteger (c :: rest)).map fun (value, rest) => (.integer value, rest)

/-- The operator at the front, with the bracket that opens around its right operand. -/
def readOperator (cs : List Char) : Option (Operator × List Char) :=
  Operator.all.findSome? fun op => (cs.dropPrefix? op.infixChars).map fun rest => (op, rest)

/-- What is read up to a closing bracket. -/
def enclosed (read : List Char → Option (Formula × List Char)) (cs : List Char) :
    Option (Formula × List Char) :=
  match read cs with
  | some (f, ')' :: rest) => some (f, rest)
  | _ => none

/-- What an operator and its right operand make of a left operand. -/
def readApplied (read : List Char → Option (Formula × List Char)) (left : Formula)
    (cs : List Char) : Option (Formula × List Char) := do
  let (op, cs) ← readOperator cs
  let (right, cs) ← enclosed read cs
  return (.apply op left right, cs)

/-- A formula that begins with a bracket, `NOT` or the sign of a negative. -/
def readCompound (read : List Char → Option (Formula × List Char)) :
    List Char → Option (Formula × List Char)
  | 'N' :: 'O' :: 'T' :: ' ' :: '(' :: rest =>
    (enclosed read rest).map fun (f, rest) => (.negation f, rest)
  | '-' :: '(' :: rest => (enclosed read rest).map fun (f, rest) => (.negative f, rest)
  | '(' :: rest => (enclosed read rest).bind fun (left, rest) => readApplied read left rest
  | _ => none

/-- The formula at the front. At most `n` brackets lie inside one another. -/
def readWithin : (n : Nat) → List Char → Option (Formula × List Char)
  | 0, _ => none
  | n + 1, cs =>
    match readAtom cs with
    | some (atom, rest) =>
      if (readOperator rest).isSome then readApplied (readWithin n) atom rest
      else some (atom, rest)
    | none => readCompound (readWithin n) cs

/-- The formula that a text is. -/
def read (text : String) : Option Formula :=
  match readWithin (text.toList.length + 1) text.toList with
  | some (f, []) => some f
  | _ => none

/-! ### Reading undoes writing -/

theorem isDigit_toDigits (n : Nat) : ∀ c ∈ Nat.toDigits 10 n, c.isDigit = true := fun _ hc =>
  Nat.isDigit_of_mem_toDigits (by decide) (by decide) hc

/-- A number begins with a digit. -/
theorem toDigits_head (n : Nat) :
    ∃ c digits, Nat.toDigits 10 n = c :: digits ∧ c.isDigit = true := by
  obtain ⟨c, digits, hc⟩ :=
    List.exists_cons_of_ne_nil (Nat.toDigits_ne_nil (n := n) (b := 10))
  exact ⟨c, digits, hc, isDigit_toDigits n c (hc ▸ List.mem_cons_self ..)⟩

theorem ne_of_isDigit {c d : Char} (hc : c.isDigit = true) (hd : d.isDigit = false) : c ≠ d := by
  rintro rfl
  simp [hc] at hd

theorem integer_head (value : Int) : ∃ c digits, (integer value).chars = c :: digits ∧
    c ≠ identifierQuote ∧ c ≠ literalQuote := by
  rw [chars_integer]
  split
  · obtain ⟨c, digits, hc, hdigit⟩ := toDigits_head value.toNat
    exact ⟨c, digits, hc, ne_of_isDigit hdigit rfl, ne_of_isDigit hdigit rfl⟩
  · exact ⟨'-', _, rfl, by decide, by decide⟩

theorem readNatural_append (n : Nat) {rest : List Char} (h : EndsAtom rest) :
    readNatural (Nat.toDigits 10 n ++ rest) = some (n, rest) := by
  have hrest : ∀ c ∈ rest.head?, c.isDigit = false := fun c hc => by
    rcases h c hc with rfl | rfl <;> rfl
  have htake : rest.takeWhile Char.isDigit = [] := by
    cases rest with
    | nil => rfl
    | cons c rest => exact List.takeWhile_cons_of_neg (by simp [hrest c rfl])
  have hdrop : rest.dropWhile Char.isDigit = rest := by
    cases rest with
    | nil => rfl
    | cons c rest => exact List.dropWhile_cons_of_neg (by simp [hrest c rfl])
  unfold readNatural
  rw [List.takeWhile_append_of_pos (isDigit_toDigits n),
    List.dropWhile_append_of_pos (isDigit_toDigits n), htake, hdrop, List.append_nil]
  simp only [Nat.toDigits_ne_nil, if_false, Nat.ofDigitChars_ten_toDigits]

theorem readInteger_append (value : Int) {rest : List Char} (h : EndsAtom rest) :
    readInteger ((integer value).chars ++ rest) = some (value, rest) := by
  rw [chars_integer]
  split
  · have hread := readNatural_append value.toNat h
    obtain ⟨c, digits, hc, hdigit⟩ := toDigits_head value.toNat
    have hminus : c ≠ '-' := ne_of_isDigit hdigit rfl
    rw [hc, List.cons_append] at hread ⊢
    simp only [readInteger, hminus, if_false, hread, Option.map_some]
    simp
    omega
  · have hread := readNatural_append (-value).toNat h
    simp only [readInteger, List.cons_append, if_true, hread, Option.map_some]
    simp
    omega

theorem readAtom_append {f : Formula} (hf : f.isAtomic) {rest : List Char} (h : EndsAtom rest) :
    readAtom (f.chars ++ rest) = some (f, rest) := by
  have hquotes : ∀ {quote}, quote ≠ ' ' → quote ≠ ')' → rest.head? ≠ some quote := by
    intro quote hblank hbracket hq
    rcases h quote hq with rfl | rfl
    · exact hblank rfl
    · exact hbracket rfl
  cases f with
  | column source name =>
    have hname := inside_encode identifierQuote name.toList (hquotes (by decide) (by decide))
    let member := '.' :: identifierQuote :: (encode identifierQuote name.toList ++
      identifierQuote :: rest)
    have hsource : inside identifierQuote (encode identifierQuote source.toList ++
        identifierQuote :: member) = some (source.toList, member) :=
      inside_encode _ _ (by simp [member, identifierQuote])
    have hstar : identifierQuote ≠ '*' := by decide
    rw [chars_column]
    simp [tokenChars, readAtom, member, hsource, readMember, hname, hstar]
  | star source =>
    have hsource : inside identifierQuote (encode identifierQuote source.toList ++
        identifierQuote :: '.' :: '*' :: rest) = some (source.toList, '.' :: '*' :: rest) :=
      inside_encode _ _ (by simp [identifierQuote])
    rw [chars_star]
    simp [tokenChars, readAtom, hsource, readMember]
  | text value =>
    have hvalue := inside_encode literalQuote value.toList (hquotes (by decide) (by decide))
    have hother : literalQuote ≠ identifierQuote := by decide
    rw [chars_text]
    simp [tokenChars, readAtom, hvalue, hother]
  | integer value =>
    have hread := readInteger_append value h
    obtain ⟨c, digits, hc, hidentifier, hliteral⟩ := integer_head value
    rw [hc, List.cons_append] at hread ⊢
    simp [readAtom, hidentifier, hliteral, hread]
  | negation | negative | apply => exact absurd hf (by simp [isAtomic])

theorem readOperator_append (op : Operator) (rest : List Char) :
    readOperator (op.infixChars ++ rest) = some (op, rest) := by
  cases op <;> simp [readOperator, Operator.all, Operator.infixChars, Operator.symbol,
    List.findSome?, List.dropPrefix?]

theorem readOperator_ends {rest : List Char} (h : EndsFormula rest) : readOperator rest = none := by
  cases rest with
  | nil => rfl
  | cons c rest =>
    obtain rfl := h c rfl
    rfl

theorem enclosed_append {read : List Char → Option (Formula × List Char)} {f : Formula}
    {rest : List Char} (h : read (f.chars ++ ')' :: rest) = some (f, ')' :: rest)) :
    enclosed read (f.chars ++ ')' :: rest) = some (f, rest) := by
  simp [enclosed, h]

theorem readApplied_append {read : List Char → Option (Formula × List Char)} (op : Operator)
    (left : Formula) {right : Formula} {rest : List Char}
    (h : read (right.chars ++ ')' :: rest) = some (right, ')' :: rest)) :
    readApplied read left (op.infixChars ++ (right.chars ++ ')' :: rest)) =
      some (apply op left right, rest) := by
  simp [readApplied, readOperator_append, enclosed_append h]

theorem endsFormula_bracket (rest : List Char) : EndsFormula (')' :: rest) := by
  simp [EndsFormula]

theorem endsAtom_infixChars (op : Operator) (rest : List Char) :
    EndsAtom (op.infixChars ++ rest) := by
  simp [EndsAtom, Operator.infixChars]

/-- What begins with `NOT`, with a bracket or with the sign of a negative is not atomic. -/
theorem readAtom_eq_none {cs rest : List Char}
    (h : cs = 'N' :: rest ∨ cs = '(' :: rest ∨ cs = '-' :: '(' :: rest) : readAtom cs = none := by
  rcases h with rfl | rfl | rfl <;>
    simp [readAtom, readInteger, readNatural, identifierQuote, literalQuote]

theorem readWithin_atom {f : Formula} (hf : f.isAtomic) (n : Nat) {rest : List Char}
    (h : EndsFormula rest) : readWithin (n + 1) (f.chars ++ rest) = some (f, rest) := by
  simp [readWithin, readAtom_append hf h.endsAtom, readOperator_ends h]

/-- Every formula is read back, and what stands behind it is left alone. By induction on the
formula: behind an operand there is always the bracket that closes around it. -/
theorem readWithin_append (f : Formula) {n : Nat} {rest : List Char} (hn : f.chars.length < n)
    (h : EndsFormula rest) : readWithin n (f.chars ++ rest) = some (f, rest) := by
  induction f generalizing n rest with
  | column | star | text | integer =>
    obtain ⟨n, rfl⟩ := Nat.exists_eq_succ_of_ne_zero (by omega : n ≠ 0)
    exact readWithin_atom rfl n h
  | negation f ih =>
    obtain ⟨n, rfl⟩ := Nat.exists_eq_succ_of_ne_zero (by omega : n ≠ 0)
    rw [chars_negation] at hn ⊢
    simp only [List.length_cons, List.length_append] at hn
    have inner := ih (n := n) (by omega) (endsFormula_bracket rest)
    simp [readWithin, readAtom_eq_none (.inl rfl), readCompound, enclosed_append inner]
  | negative f ih =>
    obtain ⟨n, rfl⟩ := Nat.exists_eq_succ_of_ne_zero (by omega : n ≠ 0)
    rw [chars_negative] at hn ⊢
    simp only [List.length_cons, List.length_append] at hn
    have inner := ih (n := n) (by omega) (endsFormula_bracket rest)
    simp [readWithin, readAtom_eq_none (.inr (.inr rfl)), readCompound, enclosed_append inner]
  | apply op left right ihl ihr =>
    obtain ⟨n, rfl⟩ := Nat.exists_eq_succ_of_ne_zero (by omega : n ≠ 0)
    rw [chars_apply] at hn ⊢
    simp only [List.length_append, List.length_singleton] at hn
    have hright := ihr (n := n) (by omega) (endsFormula_bracket rest)
    have happlied := readApplied_append op left hright
    by_cases hl : left.isAtomic = true
    · simp [hl, readWithin, readAtom_append hl (endsAtom_infixChars op _), readOperator_append,
        happlied]
    · simp only [hl, Bool.false_eq_true, if_false, List.length_cons, List.length_append] at hn
      have hleft := ihl (n := n) (by omega)
        (endsFormula_bracket (op.infixChars ++ (right.chars ++ ')' :: rest)))
      simp [hl, readWithin, readAtom_eq_none (.inr (.inl rfl)), readCompound,
        enclosed_append hleft, happlied]

/-- Reading undoes writing. -/
theorem read_printExpr (f : Formula) : read (Sql.printExpr f.expr) = some f := by
  have hnil : EndsFormula [] := by simp [EndsFormula]
  have h := readWithin_append f (Nat.lt_succ_self _) hnil
  rw [List.append_nil] at h
  show (match readWithin (f.chars.length + 1) f.chars with
    | some (f, []) => some f
    | _ => none) = some f
  rw [h]

end Formula

end QueryBuilder
