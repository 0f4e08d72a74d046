/-! Quoted text.

SQL puts an identifier between double quotes and a text literal between single
quotes; inside, the quote is written twice and every other character stands for
itself. -/
namespace QueryBuilder.Text.Quoted

def identifierQuote : Char := '\x22'

def literalQuote : Char := '\x27'

/-- The inside of a quoted token: every quote twice, all else once. -/
def encode (quote : Char) : List Char → List Char
  | [] => []
  | c :: rest => if c = quote then c :: c :: encode quote rest else c :: encode quote rest

/-- A whole quoted token. -/
def quoted (quote : Char) (s : String) : String :=
  String.ofList (quote :: encode quote s.toList ++ [quote])

def identifier (s : String) : String := quoted identifierQuote s

def literal (s : String) : String := quoted literalQuote s

@[simp]
theorem encode_nil (quote : Char) : encode quote [] = [] := rfl

theorem encode_append (quote : Char) (s t : List Char) :
    encode quote (s ++ t) = encode quote s ++ encode quote t := by
  induction s with
  | nil => rfl
  | cons c s ih => by_cases h : c = quote <;> simp [encode, h, ih]

theorem encode_eq_self {quote : Char} {s : List Char} (h : quote ∉ s) : encode quote s = s := by
  induction s with
  | nil => rfl
  | cons c s ih =>
    have hc : c ≠ quote := fun e => h (e ▸ List.mem_cons_self ..)
    rw [encode, if_neg hc, ih fun hs => h (List.mem_cons_of_mem _ hs)]

@[simp]
theorem toList_quoted (quote : Char) (s : String) :
    (quoted quote s).toList = quote :: encode quote s.toList ++ [quote] := by
  simp [quoted]

end QueryBuilder.Text.Quoted
