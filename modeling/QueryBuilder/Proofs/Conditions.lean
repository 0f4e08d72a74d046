import QueryBuilder.Proofs.Rows
import QueryBuilder.Proofs.Scoping

/-! Conditions on the columns of one source.

A condition that compares the columns of a source is unknown where these are null, and it
depends on nothing but the tuple of the source. It may therefore be called under another
alias of the source, as joining a query does with the filters that it merges: their
expressions are then the same but for the alias. -/
namespace QueryBuilder

/-! ### Nulls -/

/-- The operators that may have a value although an operand is null. -/
def Operator.isConnective : Operator → Bool
  | and | or => true
  | _ => false

namespace Meaning
variable {V : Type} (m : Meaning V)

/-- What an infix operator means, where the left operand may stand in brackets. -/
def operator (op : Operator) (bracketed : Bool) (left right : V) : V :=
  if bracketed then m.binary "(" (") " ++ op.symbol ++ " (") ")" left right
  else m.binary "" (" " ++ op.symbol ++ " (") ")" left right

/-- Null is unknown, and so is what is computed from it. `AND` and `OR` are unknown only
when both of their operands are. -/
structure Standard : Prop where
  truth : m.truth m.null = none
  left : ∀ op bracketed v, op.isConnective = false → m.operator op bracketed m.null v = m.null
  right : ∀ op bracketed v, op.isConnective = false → m.operator op bracketed v m.null = m.null
  both : ∀ op bracketed, m.operator op bracketed m.null m.null = m.null
  negation : m.unary "NOT (" ")" m.null = m.null
  negative : m.unary "-(" ")" m.null = m.null

variable {m} {row : JoinedRow V}

theorem value_apply (op : Operator) (left right : Expr Query) :
    m.value row (left.apply op right) =
      m.operator op (!left.isAtomic) (m.value row left) (m.value row right) := by
  unfold Expr.apply operator
  cases left.isAtomic <;> rfl

end Meaning

/-- Expressions that are null as soon as the columns of a source are. -/
inductive Expr.Strict {σ : Type} (source : String) : Expr σ → Prop
  | column (name : String) : Strict source (.column source name)
  | negation {e : Expr σ} : Strict source e → Strict source e.negation
  | negative {e : Expr σ} : Strict source e → Strict source e.negative
  | left {op : Operator} {left right : Expr σ} : op.isConnective = false → Strict source left →
      Strict source (left.apply op right)
  | right {op : Operator} {left right : Expr σ} : op.isConnective = false → Strict source right →
      Strict source (left.apply op right)
  | both {op : Operator} {left right : Expr σ} : Strict source left → Strict source right →
      Strict source (left.apply op right)

namespace Meaning
variable {V : Type} {m : Meaning V} {row : JoinedRow V} {source : String}

theorem value_eq_null (hm : m.Standard) {e : Expr Query} (h : e.Strict source)
    (hrow : m.tuple row source = m.nulls) : m.value row e = m.null := by
  induction h with
  | column name =>
    show m.tuple row source name = m.null
    rw [hrow]
    rfl
  | negation _ ih =>
    show m.unary _ _ (m.value row _) = _
    rw [ih, hm.negation]
  | negative _ ih =>
    show m.unary _ _ (m.value row _) = _
    rw [ih, hm.negative]
  | left hop _ ih => rw [value_apply, ih, hm.left _ _ _ hop]
  | right hop _ ih => rw [value_apply, ih, hm.right _ _ _ hop]
  | both _ _ ihl ihr => rw [value_apply, ihl, ihr, hm.both]

/-- A condition that is null does not hold. -/
theorem holds_eq_false (hm : m.Standard) {e : Expr Query} (h : e.Strict source)
    (hrow : m.tuple row source = m.nulls) : m.holds e row = false := by
  unfold holds
  rw [value_eq_null hm h hrow, hm.truth]
  rfl

theorem holdAll_eq_false (hm : m.Standard) {conditions : List (Expr Query)}
    (hne : conditions ≠ []) (h : ∀ e ∈ conditions, e.Strict source)
    (hrow : m.tuple row source = m.nulls) : m.holdAll conditions row = false := by
  obtain ⟨e, rest, rfl⟩ := List.exists_cons_of_ne_nil hne
  have hhead := holds_eq_false hm (h e (List.mem_cons_self ..)) hrow
  unfold holdAll
  rw [List.all_cons, hhead, Bool.false_and]

end Meaning

/-! ### Another alias -/

namespace Expr
variable {σ : Type}

/-- The same columns, of the source with this alias. -/
def onSource (label : String) : Expr σ → Expr σ
  | .column _ name => .column label name
  | .star _ => .star label
  | .raw sql => .raw sql
  | .text value => .text value
  | .unary before operand after => .unary before (operand.onSource label) after
  | .binary before between after left right =>
    .binary before between after (left.onSource label) (right.onSource label)
  | .subquery query => .subquery query

/-- All columns are those of this source, and there are no subqueries. -/
structure Own (source : String) (e : Expr σ) : Prop where
  qualifiers : ∀ q ∈ e.qualifiers, q = source
  subqueries : e.subqueries = []

theorem isAtomic_onSource (label : String) (e : Expr σ) :
    (e.onSource label).isAtomic = e.isAtomic := by
  cases e <;> rfl

theorem onSource_apply (label : String) (op : Operator) (left right : Expr σ) :
    (left.apply op right).onSource label =
      (left.onSource label).apply op (right.onSource label) := by
  unfold apply
  rw [isAtomic_onSource]
  cases left.isAtomic <;> rfl

/-- Without columns there is nothing to change. -/
theorem onSource_eq_self {label : String} {e : Expr σ} (h : e.qualifiers = []) :
    e.onSource label = e := by
  induction e with
  | column => simp [qualifiers] at h
  | star => simp [qualifiers] at h
  | raw | text | subquery => rfl
  | unary before operand after ih =>
    show Expr.unary before _ after = _
    rw [ih h]
  | binary before between after left right ihl ihr =>
    obtain ⟨hl, hr⟩ := List.append_eq_nil_iff.mp h
    show Expr.binary before between after _ _ = _
    rw [ihl hl, ihr hr]

theorem Own.apply {source : String} {left right : Expr σ} (hl : left.Own source)
    (hr : right.Own source) (op : Operator) : (left.apply op right).Own source := by
  have hq : (left.apply op right).qualifiers = left.qualifiers ++ right.qualifiers := by
    unfold Expr.apply
    cases left.isAtomic <;> rfl
  have hs : (left.apply op right).subqueries = left.subqueries ++ right.subqueries := by
    unfold Expr.apply
    cases left.isAtomic <;> rfl
  refine ⟨?_, ?_⟩
  · rw [hq]
    intro q hmem
    exact (List.mem_append.mp hmem).elim (hl.qualifiers q) (hr.qualifiers q)
  · rw [hs, hl.subqueries, hr.subqueries]
    rfl

end Expr

namespace Meaning
variable {V : Type} {m : Meaning V} {row row' : JoinedRow V} {source label : String}

/-- The value depends on the tuple of the source alone. -/
theorem value_onSource {e : Expr Query} (h : e.Own source)
    (htuple : m.tuple row label = m.tuple row' source) :
    m.value row (e.onSource label) = m.value row' e := by
  induction e with
  | column q name =>
    obtain rfl := h.qualifiers q (List.mem_singleton_self q)
    show m.tuple row label name = m.tuple row' q name
    rw [htuple]
  | star q =>
    obtain rfl := h.qualifiers q (List.mem_singleton_self q)
    show m.star (m.tuple row label) = m.star (m.tuple row' q)
    rw [htuple]
  | raw | text => rfl
  | unary before operand after ih =>
    show m.unary before after _ = m.unary before after _
    rw [ih ⟨h.qualifiers, h.subqueries⟩]
  | binary before between after left right ihl ihr =>
    obtain ⟨hl, hr⟩ := List.append_eq_nil_iff.mp h.subqueries
    have hleft : left.Own source := ⟨fun q hq => h.qualifiers q (List.mem_append_left _ hq), hl⟩
    have hright : right.Own source := ⟨fun q hq => h.qualifiers q (List.mem_append_right _ hq), hr⟩
    show m.binary before between after _ _ = m.binary before between after _ _
    rw [ihl hleft, ihr hright]
  | subquery query => exact absurd h.subqueries (by simp [Expr.subqueries])

theorem holds_onSource {e : Expr Query} (h : e.Own source)
    (htuple : m.tuple row label = m.tuple row' source) :
    m.holds (e.onSource label) row = m.holds e row' := by
  unfold holds
  rw [value_onSource h htuple]

theorem holdAll_onSource {conditions : List (Expr Query)} (h : ∀ e ∈ conditions, e.Own source)
    (htuple : m.tuple row label = m.tuple row' source) :
    m.holdAll (conditions.map (Expr.onSource label)) row = m.holdAll conditions row' := by
  unfold holdAll
  rw [List.all_map]
  induction conditions with
  | nil => rfl
  | cons e conditions ih =>
    have hhead := holds_onSource (h e (List.mem_cons_self ..)) htuple
    have hrest := ih fun e he => h e (List.mem_cons_of_mem _ he)
    rw [List.all_cons, List.all_cons, hrest]
    exact congrArg (· && _) hhead

end Meaning

/-! ### Callbacks over one source -/

/-- Terms over the columns of the row they are evaluated for, which has this default source. -/
inductive ExprTerm.Own (source : String) : ExprTerm → Prop
  | value {e : Expr Query} : e.qualifiers = [] → e.subqueries = [] → Own source (.value e)
  | column {qualifier : Option String} {name : String} :
      qualifier = none ∨ qualifier = some source → Own source (.column (.up 0) qualifier name)
  | unary {before after : String} {operand : ExprTerm} : Own source operand →
      Own source (.unary before operand after)
  | binary {fragments : List String} {left right : ExprTerm} : Own source left → Own source right →
      Own source (.binary fragments left right)
  | apply {op : Operator} {left right : ExprTerm} : Own source left → Own source right →
      Own source (.apply op left right)
  | applyRightFirst {op : Operator} {right left : ExprTerm} : Own source right →
      Own source left → Own source (.applyRightFirst op right left)

/-- The row stands for `source`, which has the alias `label`. -/
structure Row.Reads (r : Row) (source label : String) : Prop where
  default_eq : r.defaultSource = source
  substitute_eq : r.substitute source = label

namespace ExprTerm.Own
variable {source label : String} {t : ExprTerm} {calls calls' : Calls} {r r' : Row}
  {captured : List Row} {e : Expr Query}

theorem columnOf_eq {qualifier : Option String} (h : qualifier = none ∨ qualifier = some source)
    (hr : r.Reads source label) (name : String) :
    r.columnOf (qualifier.getD r.defaultSource) name = .column label name := by
  have hname : qualifier.getD r.defaultSource = source := by
    rcases h with rfl | rfl
    · exact hr.default_eq
    · rfl
  unfold Row.columnOf
  rw [hname, hr.substitute_eq]

/-- Such a term gives an expression over the source. -/
theorem own_of_evaluate (h : t.Own source) (hr : r.Reads source label)
    (he : t.evaluate calls (r :: captured) = .ok e) : e.Own label := by
  induction h generalizing e with
  | @value e' hq hs =>
    obtain rfl := Except.ok.inj he
    refine ⟨?_, hs⟩
    rw [hq]
    simp
  | column hqualifier =>
    obtain rfl := Except.ok.inj he
    rw [columnOf_eq hqualifier hr]
    exact ⟨by simp [Expr.qualifiers], rfl⟩
  | unary _ ih =>
    simp only [ExprTerm.evaluate, except_bind_eq_ok_iff, except_pure_eq_ok_iff] at he
    obtain ⟨operand, hoperand, rfl⟩ := he
    have hown := ih hoperand
    exact ⟨hown.qualifiers, hown.subqueries⟩
  | binary _ _ ihl ihr =>
    simp only [ExprTerm.evaluate, except_bind_eq_ok_iff] at he
    obtain ⟨left, hleft, right, hright, he⟩ := he
    split at he
    · obtain rfl := Except.ok.inj he
      have hl := ihl hleft
      have hr := ihr hright
      refine ⟨?_, ?_⟩
      · intro q hmem
        exact (List.mem_append.mp hmem).elim (hl.qualifiers q) (hr.qualifiers q)
      · show left.subqueries ++ right.subqueries = []
        rw [hl.subqueries, hr.subqueries]
        rfl
    · simp at he
  | apply _ _ ihl ihr =>
    simp only [ExprTerm.evaluate, except_bind_eq_ok_iff, except_pure_eq_ok_iff] at he
    obtain ⟨left, hleft, right, hright, rfl⟩ := he
    exact (ihl hleft).apply (ihr hright) _
  | applyRightFirst _ _ ihr ihl =>
    simp only [ExprTerm.evaluate, except_bind_eq_ok_iff, except_pure_eq_ok_iff] at he
    obtain ⟨right, hright, left, hleft, rfl⟩ := he
    exact (ihl hleft).apply (ihr hright) _

/-- Under another alias it gives the same expression over that alias. -/
theorem evaluate_onSource (h : t.Own source) (hr : r.Reads source source)
    (hr' : r'.Reads source label) (he : t.evaluate calls (r :: captured) = .ok e) :
    t.evaluate calls' (r' :: captured) = .ok (e.onSource label) := by
  induction h generalizing e with
  | value hq _ =>
    obtain rfl := Except.ok.inj he
    rw [Expr.onSource_eq_self hq]
    rfl
  | column hqualifier =>
    obtain rfl := Except.ok.inj he
    rw [columnOf_eq hqualifier hr]
    exact congrArg Except.ok (columnOf_eq hqualifier hr' _)
  | unary _ ih =>
    simp only [ExprTerm.evaluate, except_bind_eq_ok_iff, except_pure_eq_ok_iff] at he ⊢
    obtain ⟨operand, hoperand, rfl⟩ := he
    exact ⟨_, ih hoperand, rfl⟩
  | binary _ _ ihl ihr =>
    simp only [ExprTerm.evaluate, except_bind_eq_ok_iff] at he ⊢
    obtain ⟨left, hleft, right, hright, he⟩ := he
    refine ⟨_, ihl hleft, _, ihr hright, ?_⟩
    split at he
    · obtain rfl := Except.ok.inj he
      rfl
    · simp at he
  | apply _ _ ihl ihr =>
    simp only [ExprTerm.evaluate, except_bind_eq_ok_iff, except_pure_eq_ok_iff] at he ⊢
    obtain ⟨left, hleft, right, hright, rfl⟩ := he
    exact ⟨_, ihl hleft, _, ihr hright, Expr.onSource_apply _ _ _ _⟩
  | applyRightFirst _ _ ihr ihl =>
    simp only [ExprTerm.evaluate, except_bind_eq_ok_iff, except_pure_eq_ok_iff] at he ⊢
    obtain ⟨right, hright, left, hleft, rfl⟩ := he
    exact ⟨_, ihr hright, _, ihl hleft, Expr.onSource_apply _ _ _ _⟩

end ExprTerm.Own

namespace Query
variable {q : Query} {label : String}

/-- The filters of the query compare columns of its base source. -/
structure ComparesColumns (q : Query) : Prop where
  own : ∀ p ∈ q.filters, p.body.Own q.baseSource
  strict : ∀ p ∈ q.filters, ∀ calls e, p.apply calls (Row.ofQuery q) = .ok e →
    e.Strict q.baseSource

theorem reads_ofQuery (hq : q.Regular) : (Row.ofQuery q).Reads q.baseSource q.baseSource where
  default_eq := hq.default_eq
  substitute_eq := rfl

theorem reads_merged (hq : q.Regular) {r : Row} (hr : r.substitutions = []) (label : String) :
    ((r.rebase q.defaultSource).substituting (Std.TreeMap.ofList [(q.baseSource, label)])).Reads
      q.baseSource label where
  default_eq := hq.default_eq
  substitute_eq := by
    rw [Row.substitute_substituting, Row.substitute_nil (by exact hr)]
    simp [Std.TreeMap.ofList_singleton]

/-- The conditions of a query that filters one source are over that source. -/
theorem own_of_conditions (hq : q.Regular) (hc : q.ComparesColumns) {calls : Calls}
    {conditions : List (Expr Query)} (h : q.conditions calls = .ok conditions) :
    ∀ e ∈ conditions, e.Own q.baseSource ∧ e.Strict q.baseSource := by
  intro e he
  obtain ⟨p, hp, happly⟩ := exists_of_forall₂ (except_mapM_eq_ok_iff.mp h) he
  exact ⟨(hc.own p hp).own_of_evaluate (reads_ofQuery hq) happly, hc.strict p hp _ _ happly⟩

/-- Nulls pass the filters only if there are none. -/
theorem conditions_cases {V : Type} {m : Meaning V} (hm : m.Standard) (hq : q.Regular)
    (hc : q.ComparesColumns) {calls : Calls} {conditions : List (Expr Query)}
    (h : q.conditions calls = .ok conditions) :
    (q.filters = [] ∧ conditions = []) ∨
      (q.filters ≠ [] ∧ m.holdAll conditions [(q.baseSource, m.nulls)] = false) := by
  have hlength := (except_mapM_eq_ok_iff.mp h).length_eq
  by_cases hempty : q.filters = []
  · rw [hempty, List.length_nil] at hlength
    exact .inl ⟨hempty, List.eq_nil_of_length_eq_zero hlength.symm⟩
  · have hne : conditions ≠ [] := by
      rintro rfl
      exact hempty (List.eq_nil_of_length_eq_zero hlength)
    have hexprs := own_of_conditions hq hc h
    exact .inr ⟨hempty, m.holdAll_eq_false hm hne (fun e he => (hexprs e he).2)
      (m.tuple_singleton _ _)⟩

/-- The merged filters give the same conditions over the new alias. -/
theorem conditions_merged (hq : q.Regular) (hc : q.ComparesColumns) {depth : Nat}
    {conditions : List (Expr Query)} (h : q.conditions (.within (depth + 1)) = .ok conditions)
    {r : Row} (hr : r.substitutions = []) (label : String) :
    (q.mergedFilters label).mapM (·.apply (.within (depth + 1)) r) =
      .ok (conditions.map (Expr.onSource label)) := by
  have hforall := except_mapM_eq_ok_iff.mp h
  have hown : ∀ p ∈ q.filters, p.body.Own q.baseSource := hc.own
  rw [except_mapM_eq_ok_iff]
  unfold mergedFilters
  rw [List.forall₂_map_left_iff, List.forall₂_map_right_iff]
  clear h
  generalize q.filters = filters at hforall hown
  induction hforall with
  | nil => exact .nil
  | @cons p e filters conditions hhead _ ih =>
    have hrest := ih fun p hp => hown p (List.mem_cons_of_mem _ hp)
    refine .cons ?_ hrest
    have hself := hown p (List.mem_cons_self ..)
    exact hself.evaluate_onSource (reads_ofQuery hq) (reads_merged hq hr label) hhead

end Query

/-! ### Cells

Values of a database, and the operators on them as SQL has them. -/

/-- The value of a column in a row of a table. -/
inductive Cell where
  | null
  | truth (value : Bool)
  | number (value : Int)
  | text (value : String)
deriving DecidableEq

/-- The operator written with these characters between its operands. -/
def Operator.ofInfix (between : String) : Option Operator :=
  [plus, minus, gt, gte, lt, lte, eq, ne, and, or].find? fun op =>
    between = " " ++ op.symbol ++ " (" || between = ") " ++ op.symbol ++ " ("

namespace Cell

/-- `AND`. -/
def both : Cell → Cell → Cell
  | .truth false, _ | _, .truth false => .truth false
  | .truth true, .truth true => .truth true
  | _, _ => .null

/-- `OR`. -/
def either : Cell → Cell → Cell
  | .truth true, _ | _, .truth true => .truth true
  | .truth false, .truth false => .truth false
  | _, _ => .null

def negation : Cell → Cell
  | .truth value => .truth !value
  | _ => .null

def compare (holds : Ordering → Bool) : Cell → Cell → Cell
  | .number a, .number b => .truth (holds (Ord.compare a b))
  | .text a, .text b => .truth (holds (Ord.compare a b))
  | .truth a, .truth b => .truth (holds (Ord.compare a b))
  | _, _ => .null

def calculate (f : Int → Int → Int) : Cell → Cell → Cell
  | .number a, .number b => .number (f a b)
  | _, _ => .null

def operate : Operator → Cell → Cell → Cell
  | .plus => calculate (· + ·)
  | .minus => calculate (· - ·)
  | .gt => compare (·.isGT)
  | .gte => compare (·.isGE)
  | .lt => compare (·.isLT)
  | .lte => compare (·.isLE)
  | .eq => compare (·.isEq)
  | .ne => compare (·.isNe)
  | .and => both
  | .or => either

def unary (before : String) (operand : Cell) : Cell :=
  if before = "NOT (" then negation operand
  else if before = "-(" then calculate (· - ·) (.number 0) operand
  else .null

def binary (between : String) (left right : Cell) : Cell :=
  match Operator.ofInfix between with
  | some op => operate op left right
  | none => .null

/-- The number with these decimal digits. -/
def digits (cs : List Char) : Option Nat :=
  cs.foldlM (fun n c => if c.isDigit then some (10 * n + (c.toNat - '0'.toNat)) else none) 0

/-- What a literal in SQL stands for. -/
def literal (sql : String) : Cell :=
  if sql = "TRUE" then .truth true
  else match sql.toList with
    | '-' :: cs => ((digits cs).map fun n => .number (-n)).getD .null
    | cs => ((digits cs).map fun n => .number n).getD .null

/-- The row of a table with these columns. -/
def tuple (columns : List (String × Cell)) : Tuple Cell := fun name =>
  (columns.lookup name).getD .null

/-- The meaning of expressions without subqueries, over a database of these tables. -/
def meaning (table : String → List (Tuple Cell)) : Meaning Cell where
  null := .null
  truth
    | .truth value => some value
    | _ => none
  raw := literal
  text := .text
  star _ := .null
  unary before _ := unary before
  binary _ between _ := binary between
  subquery _ _ := .null
  outer _ _ := .null
  table := table
  derived _ := []

theorem ofInfix_symbol (op : Operator) (bracketed : Bool) :
    Operator.ofInfix (if bracketed then ") " ++ op.symbol ++ " (" else " " ++ op.symbol ++ " (") =
      some op := by
  cases op <;> cases bracketed <;> decide +kernel

theorem operator_meaning (table : String → List (Tuple Cell)) (op : Operator) (bracketed : Bool) :
    (meaning table).operator op bracketed = operate op := by
  have h := ofInfix_symbol op bracketed
  funext left right
  unfold Meaning.operator
  cases bracketed
  · show binary (" " ++ op.symbol ++ " (") left right = _
    unfold binary
    rw [if_neg (by simp)] at h
    rw [h]
  · show binary (") " ++ op.symbol ++ " (") left right = _
    unfold binary
    rw [if_pos rfl] at h
    rw [h]

theorem standard_meaning (table : String → List (Tuple Cell)) : (meaning table).Standard where
  truth := rfl
  left op bracketed v h := by
    rw [operator_meaning]
    cases op <;> first | rfl | simp [Operator.isConnective] at h
  right op bracketed v h := by
    rw [operator_meaning]
    cases op <;> first | (cases v <;> rfl) | simp [Operator.isConnective] at h
  both op bracketed := by
    rw [operator_meaning]
    cases op <;> rfl
  negation := rfl
  negative := rfl

end Cell

end QueryBuilder
