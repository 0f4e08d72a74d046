import QueryBuilder.Error

/-! Fresh aliases.

A base name is tried as it stands and then with a number behind it, counting from
zero. The search is bounded, so that it ends whatever is taken. -/
namespace QueryBuilder.Alias

/-- How many numbered variants are tried. -/
def maxAttempts : Nat := 1000

def numbered (base : String) (n : Nat) : String := base ++ "_" ++ toString n

/-- The first name of `base`, `base_0`, `base_1`, … that is not taken. -/
def fresh (base : String) (taken : String → Bool) : Except Error String :=
  if taken base then
    match (List.range maxAttempts).find? fun n => !taken (numbered base n) with
    | some n => .ok (numbered base n)
    | none => .error (.aliasSpaceExhausted base maxAttempts)
  else .ok base

/-- There is no fresh alias when the base and all its numbered variants are taken. -/
theorem fresh_eq_error_iff {base : String} {taken : String → Bool} {e : Error} :
    fresh base taken = .error e ↔
      taken base ∧ (∀ n < maxAttempts, taken (numbered base n)) ∧
        e = .aliasSpaceExhausted base maxAttempts := by
  have hnone : (List.range maxAttempts).find? (fun n => !taken (numbered base n)) = none ↔
      ∀ n < maxAttempts, taken (numbered base n) := by
    simp only [List.find?_eq_none, List.mem_range, Bool.not_eq_true', Bool.not_eq_false]
  unfold fresh
  split
  · rename_i hbase
    split
    · rename_i n hfound
      rw [← hnone, hfound]
      simp only [reduceCtorEq, false_and, and_false]
    · rename_i hnot
      rw [← hnone, hnot]
      simp only [hbase, true_and, Except.error.injEq, eq_comm]
  · rename_i hbase
    simp only [hbase, reduceCtorEq, false_and]

/-- A fresh alias is not taken. -/
theorem not_taken_of_fresh {base label : String} {taken : String → Bool}
    (h : fresh base taken = .ok label) : taken label = false := by
  unfold fresh at h
  split at h
  · split at h
    · rename_i n hn
      obtain rfl := Except.ok.inj h
      simpa using List.find?_some hn
    · simp at h
  · rename_i hb
    obtain rfl := Except.ok.inj h
    simpa using hb

end QueryBuilder.Alias
