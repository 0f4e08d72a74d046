import Mathlib.Data.List.Chain
import QueryBuilder.Proofs.Formulas
import QueryBuilder.Proofs.Naming

/-! The text of a formula.

Compiling a formula replaces its sources by their display aliases, so that what is written is a
formula again. Its quoted tokens hold any characters; outside of them every bracket is closed and
no minus sign follows another, which would begin a comment. -/
namespace QueryBuilder
open Text.Quoted (encode identifierQuote literalQuote)

/-! ### Outside of quoted tokens -/

/-- The characters outside of quoted tokens. The text begins inside of a token of the given quote, or
outside of all tokens. -/
def unquotedFrom : Option Char → List Char → List Char
  | _, [] => []
  | none, c :: rest =>
    if c = identifierQuote ∨ c = literalQuote then unquotedFrom (some c) rest
    else c :: unquotedFrom none rest
  | some quote, c :: rest =>
    if c = quote then unquotedFrom none rest else unquotedFrom (some quote) rest

/-- The characters of a text outside of its quoted tokens. -/
def outsideQuotes (text : String) : List Char := unquotedFrom none text.toList

/-- Whether all brackets of a text are closed that is read inside of so many open ones. -/
def closesAll : (opened : Nat) → List Char → Bool
  | opened, [] => opened == 0
  | opened, '(' :: rest => closesAll (opened + 1) rest
  | 0, ')' :: _ => false
  | opened + 1, ')' :: rest => closesAll opened rest
  | opened, _ :: rest => closesAll opened rest

/-- Every bracket is closed, and none is closed that has not been opened. -/
def Balanced (cs : List Char) : Prop := closesAll 0 cs = true

instance (cs : List Char) : Decidable (Balanced cs) := inferInstanceAs (Decidable (_ = _))

/-- Characters behind which everything stands inside of the same brackets as before. -/
def Neutral (cs : List Char) : Prop :=
  ∀ opened rest, closesAll opened (cs ++ rest) = closesAll opened rest

namespace Neutral

theorem nil : Neutral [] := fun _ _ => rfl

theorem append {xs ys : List Char} (hx : Neutral xs) (hy : Neutral ys) : Neutral (xs ++ ys) := by
  intro opened rest
  rw [List.append_assoc, hx, hy]

theorem bracketed {cs : List Char} (h : Neutral cs) : Neutral ('(' :: (cs ++ [')'])) := by
  intro opened rest
  show closesAll (opened + 1) (cs ++ [')'] ++ rest) = _
  rw [List.append_assoc, h]
  rfl

theorem of_forall {cs : List Char} (h : ∀ c ∈ cs, c ≠ '(' ∧ c ≠ ')') : Neutral cs := by
  intro opened rest
  induction cs with
  | nil => rfl
  | cons c cs ih =>
    obtain ⟨hopen, hclose⟩ := h c (List.mem_cons_self ..)
    rw [List.cons_append, closesAll.eq_5, ih fun c hc => h c (List.mem_cons_of_mem _ hc)]
    all_goals simp_all

theorem balanced {cs : List Char} (h : Neutral cs) : Balanced cs := by
  have := h 0 []
  rwa [List.append_nil] at this

end Neutral

/-- No minus sign follows another, and none stands at the end, where one could follow. -/
structure Calm (cs : List Char) : Prop where
  chain : cs.IsChain fun a b => ¬ (a = '-' ∧ b = '-')
  last : '-' ∉ cs.getLast?

namespace Calm

theorem append {xs ys : List Char} (hx : Calm xs) (hy : Calm ys) : Calm (xs ++ ys) where
  chain := hx.chain.append hy.chain fun a ha b _ => by
    rintro ⟨rfl, -⟩
    exact hx.last ha
  last := by
    rw [List.getLast?_append, Option.mem_def, Option.or_eq_some_iff]
    rintro (h | ⟨-, h⟩)
    · exact hy.last h
    · exact hx.last h

theorem of_notMem {cs : List Char} (h : '-' ∉ cs) : Calm cs where
  chain := by
    induction cs with
    | nil => exact .nil
    | cons c cs ih =>
      rw [List.mem_cons, not_or] at h
      exact List.isChain_cons.mpr ⟨fun _ _ hc => h.1 hc.1.symm, ih h.2⟩
  last hlast := h (List.mem_of_mem_getLast? hlast)

/-- A minus sign in front of something that does not begin with one. -/
theorem minus {c : Char} {cs : List Char} (hc : c ≠ '-') (h : Calm (c :: cs)) :
    Calm ('-' :: c :: cs) where
  chain := List.isChain_cons_cons.mpr ⟨fun hm => hc hm.2, h.chain⟩
  last := by
    rw [List.getLast?_cons_cons]
    exact h.last

theorem bracketed {cs : List Char} (h : Calm cs) : Calm ('(' :: (cs ++ [')'])) := by
  have opening : Calm ['('] := .of_notMem (by decide)
  have closing : Calm [')'] := .of_notMem (by decide)
  exact opening.append (h.append closing)

theorem not_infix {cs : List Char} (h : Calm cs) : ¬ ['-', '-'] <:+: cs := by
  intro hi
  have hpair := List.IsChain.infix h.chain hi
  exact List.isChain_pair.mp hpair ⟨rfl, rfl⟩

end Calm

/-- Neither a quote nor a bracket. -/
def isBare (c : Char) : Bool :=
  c != identifierQuote && c != literalQuote && c != '(' && c != ')'

theorem isBare_iff {c : Char} :
    isBare c ↔ c ≠ identifierQuote ∧ c ≠ literalQuote ∧ c ≠ '(' ∧ c ≠ ')' := by
  simp [isBare, and_assoc]

/-- The characters `cs` leave `plain` outside of quoted tokens, and begin and end outside of
them. -/
structure Leaves (cs plain : List Char) : Prop where
  unquoted : ∀ rest, unquotedFrom none (cs ++ rest) = plain ++ unquotedFrom none rest
  calm : Calm plain
  neutral : Neutral plain

namespace Leaves

theorem append {xs ys px py : List Char} (hx : Leaves xs px) (hy : Leaves ys py) :
    Leaves (xs ++ ys) (px ++ py) where
  unquoted rest := by rw [List.append_assoc, hx.unquoted, hy.unquoted, List.append_assoc]
  calm := hx.calm.append hy.calm
  neutral := hx.neutral.append hy.neutral

/-- Characters that are neither quotes nor brackets. -/
theorem bare {cs : List Char} (hc : cs.all isBare) (h : Calm cs) : Leaves cs cs where
  unquoted rest := by
    clear h
    induction cs with
    | nil => rfl
    | cons c cs ih =>
      rw [List.all_cons, Bool.and_eq_true, isBare_iff] at hc
      obtain ⟨⟨hi, hl, -, -⟩, hrest⟩ := hc
      rw [List.cons_append, unquotedFrom, if_neg (by simp [hi, hl]), ih hrest]
      rfl
  calm := h
  neutral := .of_forall fun c hm => (isBare_iff.mp (List.all_eq_true.mp hc c hm)).2.2

/-- The text of a token ends with it: inside, the quote stands only in pairs. -/
theorem unquotedFrom_encode {quote : Char} (hq : quote = identifierQuote ∨ quote = literalQuote)
    (s rest : List Char) :
    unquotedFrom (some quote) (encode quote s ++ quote :: rest) = unquotedFrom none rest := by
  induction s with
  | nil => simp [unquotedFrom]
  | cons c s ih =>
    by_cases hc : c = quote
    · subst hc
      simp only [encode, if_true, List.cons_append, unquotedFrom, hq]
      exact ih
    · simp only [encode, hc, if_false, List.cons_append, unquotedFrom]
      exact ih

theorem token {quote : Char} (hq : quote = identifierQuote ∨ quote = literalQuote) (s : String) :
    Leaves (Formula.tokenChars quote s) [] where
  unquoted rest := by
    simp only [Formula.tokenChars, List.append_assoc, List.cons_append, List.nil_append,
      unquotedFrom, hq, if_true]
    exact unquotedFrom_encode hq s.toList rest
  calm := .of_notMem (by decide)
  neutral := .nil

theorem bracketed {cs plain : List Char} (h : Leaves cs plain) :
    Leaves ('(' :: (cs ++ [')'])) ('(' :: (plain ++ [')'])) where
  unquoted rest := by
    show '(' :: unquotedFrom none (cs ++ [')'] ++ rest) = _
    rw [List.append_assoc, h.unquoted]
    simp [unquotedFrom, identifierQuote, literalQuote]
  calm := h.calm.bracketed
  neutral := h.neutral.bracketed

/-- A minus sign in front of brackets. -/
theorem minus {cs plain : List Char} (h : Leaves cs ('(' :: plain)) :
    Leaves ('-' :: cs) ('-' :: '(' :: plain) where
  unquoted rest := by
    show '-' :: unquotedFrom none (cs ++ rest) = _
    rw [h.unquoted]
    rfl
  calm := .minus (by decide) h.calm
  neutral opened rest := h.neutral opened rest

end Leaves

/-- An integer leaves itself: a digit stands behind its sign. -/
theorem Formula.leaves_integer (value : Int) :
    Leaves (integer value).chars (integer value).chars := by
  have ne : ∀ n, ∀ c ∈ Nat.toDigits 10 n, ∀ d : Char, d.isDigit = false → c ≠ d := fun n c hc d =>
    ne_of_isDigit (isDigit_toDigits n c hc)
  have bare : ∀ n, (Nat.toDigits 10 n).all isBare := fun n =>
    List.all_eq_true.mpr fun c hc => isBare_iff.mpr
      ⟨ne n c hc _ rfl, ne n c hc _ rfl, ne n c hc _ rfl, ne n c hc _ rfl⟩
  have calm : ∀ n, Calm (Nat.toDigits 10 n) := fun n => .of_notMem fun hm => ne n _ hm '-' rfl rfl
  rw [chars_integer]
  split
  · exact .bare (bare _) (calm _)
  · obtain ⟨d, digits, hd, hdigit⟩ := toDigits_head (-value).toNat
    exact .bare (bare _) (hd ▸ .minus (ne_of_isDigit hdigit rfl) (hd ▸ calm _))

/-- What stands between the operands of an operator. -/
theorem Operator.leaves_symbol (op : Operator) :
    Leaves (" " ++ op.symbol ++ " ").toList (" " ++ op.symbol ++ " ").toList :=
  .bare (by cases op <;> decide) ⟨by cases op <;> decide, by cases op <;> decide⟩

theorem Operator.infixChars_eq (op : Operator) :
    op.infixChars = (" " ++ op.symbol ++ " ").toList ++ ['('] := by
  simp [infixChars, String.toList_append]

/-- By induction on the formula: it is put together from tokens, brackets and bare characters. -/
theorem Formula.leaves (f : Formula) : ∃ plain, Leaves f.chars plain := by
  have quoted := @Leaves.token identifierQuote (.inl rfl)
  induction f with
  | column source name =>
    have dot : Leaves ['.'] ['.'] := .bare (by decide) (.of_notMem (by decide))
    rw [chars_column]
    exact ⟨_, (quoted source).append (dot.append (quoted name))⟩
  | star source =>
    rw [chars_star]
    exact ⟨_, (quoted source).append (.bare (by decide) (.of_notMem (by decide)))⟩
  | text value =>
    rw [chars_text]
    exact ⟨_, .token (.inr rfl) value⟩
  | integer value => exact ⟨_, leaves_integer value⟩
  | negation f ih =>
    obtain ⟨plain, h⟩ := ih
    have word : Leaves ['N', 'O', 'T', ' '] ['N', 'O', 'T', ' '] :=
      .bare (by decide) (.of_notMem (by decide))
    rw [chars_negation]
    exact ⟨_, word.append h.bracketed⟩
  | negative f ih =>
    obtain ⟨plain, h⟩ := ih
    rw [chars_negative]
    exact ⟨_, h.bracketed.minus⟩
  | apply op left right ihl ihr =>
    obtain ⟨pl, hl⟩ := ihl
    obtain ⟨pr, hr⟩ := ihr
    rw [chars_apply, op.infixChars_eq]
    simp only [List.append_assoc, List.cons_append, List.nil_append]
    have applied := op.leaves_symbol.append hr.bracketed
    split
    · exact ⟨_, hl.append applied⟩
    · exact ⟨_, hl.bracketed.append applied⟩

/-! ### Compiling a formula -/

namespace Formula
open Sql

theorem resolve_display {scope : Scope} {source : String} (h : scope.isBound source) :
    scope.resolve source = .ok (scope.display source) := by
  obtain ⟨b, hb⟩ := Option.isSome_iff_exists.mp h
  simp [Scope.resolve, Scope.display, hb]

/-- Compiling a formula puts the display aliases in, and claims no name. -/
theorem resolve_expr (subquery : Query → Scope → Naming Statement) {scope : Scope} {f : Formula}
    (h : ∀ source ∈ f.sources, scope.isBound source) (n : Names) :
    resolve subquery scope f.expr n = .ok ((f.displayed scope).expr, n) := by
  induction f with
  | column source name =>
    have hsource := resolve_display (h source (List.mem_singleton_self _))
    simp only [expr, resolve, bind_eq_ok_iff, pure_eq_ok_iff, checked_eq_ok_iff, noting_except,
      liftError_eq_ok_iff]
    exact ⟨_, n, ⟨hsource, rfl⟩, rfl, rfl⟩
  | star source =>
    have hsource := resolve_display (h source (List.mem_singleton_self _))
    simp only [expr, resolve, bind_eq_ok_iff, pure_eq_ok_iff, checked_eq_ok_iff, noting_except,
      liftError_eq_ok_iff]
    exact ⟨_, n, ⟨hsource, rfl⟩, rfl, rfl⟩
  | text value => rfl
  | integer value => rfl
  | negation f ih | negative f ih =>
    have hf := ih h
    simp only [expr, Expr.negation, Expr.negative, resolve, bind_eq_ok_iff, pure_eq_ok_iff]
    exact ⟨_, n, hf, rfl, rfl⟩
  | apply op left right ihl ihr =>
    have hl := ihl fun source hs => h source (List.mem_append_left _ hs)
    have hr := ihr fun source hs => h source (List.mem_append_right _ hs)
    simp only [expr, displayed, Expr.apply, isAtomic_expr, isAtomic_displayed]
    split <;>
    · simp only [resolve, bind_eq_ok_iff, pure_eq_ok_iff]
      exact ⟨_, n, hl, _, n, hr, rfl, rfl⟩

theorem toSql_expr {scope : Scope} {f : Formula}
    (h : ∀ source ∈ f.sources, scope.isBound source) :
    f.expr.toSql scope = .ok (printExpr (f.displayed scope).expr) := by
  unfold Expr.toSql
  show Except.map _ (Except.map _ (resolve _ scope f.expr (.reserving scope.displayAliases))) = _
  rw [resolve_expr _ h]
  rfl

/-- **Formulas can be read back.** In every scope that binds its sources a formula compiles, to a
text from which the reader recovers it with the display aliases in the place of its sources. So two
formulas compile to one text only if they agree up to this replacement. Outside of the quoted tokens
of the text all brackets are closed, and no minus sign follows another. -/
theorem read_toSql (scope : Scope) (f : Formula) (h : ∀ source ∈ f.sources, scope.isBound source) :
    ∃ text, f.expr.toSql scope = .ok text ∧
      read text = some (f.displayed scope) ∧
      (∀ (scope' : Scope) (g : Formula), (∀ source ∈ g.sources, scope'.isBound source) →
        (g.expr.toSql scope' = .ok text ↔ g.displayed scope' = f.displayed scope)) ∧
      Balanced (outsideQuotes text) ∧ ¬ ['-', '-'] <:+: outsideQuotes text := by
  refine ⟨_, toSql_expr h, read_printExpr _, fun scope' g hg => ?_, ?_⟩
  · rw [toSql_expr hg, Except.ok.injEq]
    constructor
    · intro htext
      have hread := congrArg read htext
      rwa [read_printExpr, read_printExpr, Option.some.injEq] at hread
    · intro heq
      rw [heq]
  · obtain ⟨plain, hplain⟩ := leaves (f.displayed scope)
    have houtside : outsideQuotes (printExpr (f.displayed scope).expr) = plain := by
      have hall := hplain.unquoted []
      simp only [List.append_nil, unquotedFrom] at hall
      exact hall
    rw [houtside]
    exact ⟨hplain.neutral.balanced, hplain.calm.not_infix⟩

/-- Brackets, quotes and minus signs inside of tokens, and a negative of a negative number. -/
def awkward : Formula :=
  .apply .minus
    (.negation (.apply .eq (.column "t" "a\x22)") (.text "-- (\x27")))
    (.negative (.integer (-5)))

theorem awkward_reads_back :
    let scope := Scope.empty.bind "t" { display := "t_0" }
    let text := "(NOT (\x22t_0\x22.\x22a\x22\x22)\x22 = (\x27-- (\x27\x27\x27))) - (-(-5))"
    (∀ source ∈ awkward.sources, scope.isBound source) ∧ awkward.expr.toSql scope = .ok text ∧
      read text = some (awkward.displayed scope) := by
  intro scope text
  have hbound : ∀ source ∈ awkward.sources, scope.isBound source := by
    simp [awkward, sources, scope, Scope.isBound, Scope.lookup_bind]
  have htext : printExpr (awkward.displayed scope).expr = text := by
    have hdisplay : scope.display "t" = "t_0" := by
      simp [scope, Scope.display, Scope.lookup_bind]
    simp only [awkward, displayed, hdisplay, text]
    decide +kernel
  obtain ⟨written, hsql, hread, -⟩ := read_toSql scope awkward hbound
  obtain rfl : written = text :=
    Except.ok.inj (hsql.symm.trans ((toSql_expr hbound).trans (congrArg _ htext)))
  exact ⟨hbound, hsql, hread⟩

end Formula

end QueryBuilder
