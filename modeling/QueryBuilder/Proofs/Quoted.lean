import QueryBuilder.Text.Quoted

/-! Reading quoted tokens.

A quoted token begins with the quote and goes on to the first quote that no other
quote follows; in between a pair of quotes stands for one. Reading is the other side
of writing: a token is read exactly where a text has been quoted and no further quote
follows (`read_eq_some_iff`), the text that is read is the one that has been quoted,
and what stands behind it is left alone. No text ends its token early therefore. -/
namespace QueryBuilder.Text.Quoted

/-- The text up to the quote that ends a token, and what stands behind that quote. -/
def inside (quote : Char) : List Char → Option (List Char × List Char)
  | [] => none
  | [c] => if c = quote then some ([], []) else none
  | c :: d :: rest =>
    if c = quote then
      if d = quote then (inside quote rest).map fun (s, t) => (quote :: s, t)
      else some ([], d :: rest)
    else (inside quote (d :: rest)).map fun (s, t) => (c :: s, t)

/-- The text of the token at the front, and what stands behind the token. -/
def read (quote : Char) (text : String) : Option (String × String) :=
  match text.toList with
  | [] => none
  | c :: rest =>
    if c = quote then (inside quote rest).map fun (s, t) => (String.ofList s, String.ofList t)
    else none

theorem inside_cons_of_ne {quote c : Char} (h : c ≠ quote) (rest : List Char) :
    inside quote (c :: rest) = (inside quote rest).map fun (s, t) => (c :: s, t) := by
  cases rest <;> simp [inside, h]

theorem inside_pair (quote : Char) (rest : List Char) :
    inside quote (quote :: quote :: rest) =
      (inside quote rest).map fun (s, t) => (quote :: s, t) := by
  simp [inside]

/-- A quote ends the token unless another one follows. -/
theorem inside_end {quote : Char} {rest : List Char} (h : rest.head? ≠ some quote) :
    inside quote (quote :: rest) = some ([], rest) := by
  cases rest with
  | nil => simp [inside]
  | cons d rest =>
    have hd : d ≠ quote := fun e => h (by simp [e])
    simp [inside, hd]

theorem inside_encode (quote : Char) (s : List Char) {rest : List Char}
    (h : rest.head? ≠ some quote) :
    inside quote (encode quote s ++ quote :: rest) = some (s, rest) := by
  induction s with
  | nil => exact inside_end h
  | cons c s ih =>
    by_cases hc : c = quote
    · subst hc
      simp only [encode, if_true, List.cons_append]
      rw [inside_pair, ih]
      rfl
    · simp only [encode, hc, if_false, List.cons_append]
      rw [inside_cons_of_ne hc, ih]
      rfl

/-- The inside of a token is what writing makes of its text, and no further quote follows. -/
theorem inside_eq_some_iff {quote : Char} {text s rest : List Char} :
    inside quote text = some (s, rest) ↔
      text = encode quote s ++ quote :: rest ∧ rest.head? ≠ some quote := by
  constructor
  · intro h
    fun_induction inside quote text generalizing s with
    | case1 => cases h
    | case2 =>
      cases h
      simp
    | case3 => cases h
    | case4 tail ih =>
      obtain ⟨⟨s', rest'⟩, hs, heq⟩ := Option.map_eq_some_iff.mp h
      cases heq
      obtain ⟨rfl, hrest⟩ := ih hs
      simp [encode, hrest]
    | case5 d tail hd =>
      cases h
      simp [hd]
    | case6 c d tail hc ih =>
      obtain ⟨⟨s', rest'⟩, hs, heq⟩ := Option.map_eq_some_iff.mp h
      cases heq
      obtain ⟨htext, hrest⟩ := ih hs
      simp [encode, hc, hrest, htext]
  · rintro ⟨rfl, hrest⟩
    exact inside_encode quote s hrest

/-- Reading undoes quoting, whatever follows other than a further quote. -/
theorem read_quoted_append (quote : Char) (s rest : String) (h : rest.toList.head? ≠ some quote) :
    read quote (quoted quote s ++ rest) = some (s, rest) := by
  have hchars : (quoted quote s ++ rest).toList =
      quote :: (encode quote s.toList ++ quote :: rest.toList) := by
    simp [String.toList_append]
  unfold read
  rw [hchars]
  simp [inside_encode quote s.toList h]

theorem read_quoted (quote : Char) (s : String) : read quote (quoted quote s) = some (s, "") := by
  have h := read_quoted_append quote s "" (by simp)
  rwa [String.append_empty] at h

/-- A token is read exactly where one has been written and no further quote follows. -/
theorem read_eq_some_iff {quote : Char} {text s rest : String} :
    read quote text = some (s, rest) ↔
      text = quoted quote s ++ rest ∧ rest.toList.head? ≠ some quote := by
  constructor
  · intro h
    unfold read at h
    split at h
    · cases h
    · rename_i c tail htext
      split at h
      · rename_i hc
        obtain ⟨⟨s', rest'⟩, hinside, heq⟩ := Option.map_eq_some_iff.mp h
        cases heq
        obtain ⟨htail, hrest⟩ := inside_eq_some_iff.mp hinside
        refine ⟨String.toList_injective ?_, by simpa using hrest⟩
        simp [htext, hc, htail, String.toList_append]
      · cases h
  · rintro ⟨rfl, hrest⟩
    exact read_quoted_append quote s rest hrest

/-! ### Exact tokens -/

/-- What is written between these quotes is read back, and nothing else is. -/
structure ReadsBack (quote : Char) (write : String → String) : Prop where
  /-- The text is read, and what stands behind its token is left alone. -/
  reads (s : String) {rest : String} (h : rest.toList.head? ≠ some quote) :
    read quote (write s ++ rest) = some (s, rest)
  /-- Where a text is read, its token stands, and no further quote behind it. -/
  written {text s rest : String} (h : read quote text = some (s, rest)) :
    text = write s ++ rest ∧ rest.toList.head? ≠ some quote
  /-- No token ends before its last quote: where a part of it could be a token, the second quote of
  a pair follows. -/
  unbroken {s front back t : String} (hparts : write s = front ++ back) (hback : back ≠ "")
    (hfront : read quote front = some (t, "")) : back.toList.head? = some quote
  injective {s t : String} (h : write s = write t) : s = t

theorem readsBack_quoted (quote : Char) : ReadsBack quote (quoted quote) where
  reads s rest h := read_quoted_append quote s rest h
  written h := read_eq_some_iff.mp h
  unbroken {s front back t} hparts hback hfront := by
    refine Decidable.byContradiction fun hhead => ?_
    -- Otherwise the whole token would be read as its front part.
    have hpart : front ++ back = quoted quote t ++ back := by
      rw [(read_eq_some_iff.mp hfront).1, String.append_empty]
    have hread := read_eq_some_iff.mpr ⟨hparts.trans hpart, hhead⟩
    rw [read_quoted] at hread
    exact hback (congrArg Prod.snd (Option.some.inj hread)).symm
  injective {s t} h := by
    have hread := read_quoted quote s
    rw [h, read_quoted] at hread
    exact (congrArg Prod.fst (Option.some.inj hread)).symm

/-- **Reading undoes quoting.** A text literal or a quoted identifier with any text in it, followed
by anything but a further quote, is read as that text, and what follows is left. Nothing in the text
ends the token, and different texts have different tokens. -/
theorem quoting_reads_back :
    ReadsBack literalQuote literal ∧ ReadsBack identifierQuote identifier :=
  ⟨readsBack_quoted literalQuote, readsBack_quoted identifierQuote⟩

/-- Quotes at both ends of the texts, and SQL behind the tokens that has quotes of its own. -/
theorem quoting_reads_back_nested :
    (" = ''".toList.head? ≠ some literalQuote ∧
      read literalQuote (literal "'it''s'" ++ " = ''") = some ("'it''s'", " = ''")) ∧
    (".\"id\"".toList.head? ≠ some identifierQuote ∧
      read identifierQuote (identifier "\"trip\"" ++ ".\"id\"") =
        some ("\"trip\"", ".\"id\"")) := by
  have hliteral : " = ''".toList.head? ≠ some literalQuote := by decide
  have hidentifier : ".\"id\"".toList.head? ≠ some identifierQuote := by decide
  exact ⟨⟨hliteral, quoting_reads_back.1.reads _ hliteral⟩,
    ⟨hidentifier, quoting_reads_back.2.reads _ hidentifier⟩⟩

end QueryBuilder.Text.Quoted
