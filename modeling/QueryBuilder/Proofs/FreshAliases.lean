import Mathlib.Data.List.Dedup
import QueryBuilder.Proofs.FetchOutcomes
import Std.Data.String.ToNat

/-! The search for a fresh alias.

The base name and its numbered variants are tried one after the other, up to the first one that is
not taken. They are 1001 different names. The search can fail only where each of them is taken
(`fresh_fails_iff`), and so not where there are no more than 1000 names to be taken. A join looks
at the sources of its query and at what its context binds, a fetch at the sources of the row's query
and at what its scope binds: these are the names that can leave it without an alias. -/
namespace QueryBuilder

namespace Alias
variable {base label : String} {taken : String → Bool} {names : List String} {e : Error}

/-- The names that are tried, in their order. -/
def candidates (base : String) : List String := base :: (List.range 1000).map (numbered base)

theorem numbered_injective (base : String) : Function.Injective (numbered base) := by
  intro m n h
  exact Nat.repr_inj.mp ((String.append_right_inj (base ++ "_")).mp h)

/-- A number makes a name longer. -/
theorem numbered_ne (base : String) (n : Nat) : numbered base n ≠ base := by
  intro h
  have hlength := congrArg String.length h
  rw [numbered, String.length_append, String.length_append] at hlength
  have hmark : "_".length = 1 := rfl
  omega

theorem nodup_candidates (base : String) : (candidates base).Nodup := by
  refine List.nodup_cons.mpr ⟨fun h => ?_, List.nodup_range.map (numbered_injective base)⟩
  obtain ⟨n, -, hn⟩ := List.mem_map.mp h
  exact numbered_ne base n hn

/-- A thousand names leave a candidate free. -/
theorem not_candidates_subset (h : names.dedup.length ≤ 1000) : ¬ candidates base ⊆ names := by
  intro hsubset
  have hle : (candidates base).length ≤ names.dedup.length :=
    (nodup_candidates base).length_le_of_subset fun _ hc => List.mem_dedup.mpr (hsubset hc)
  simp only [candidates, List.length_cons, List.length_map, List.length_range] at hle
  omega

/-- The search is a look-up among the candidates. -/
theorem fresh_eq (base : String) (taken : String → Bool) :
    fresh base taken = match (candidates base).find? (!taken ·) with
      | some label => .ok label
      | none => .error (.aliasSpaceExhausted base 1000) := by
  have hnumbered : ((List.range 1000).map (numbered base)).find? (!taken ·) =
      ((List.range maxAttempts).find? fun n => !taken (numbered base n)).map (numbered base) :=
    List.find?_map ..
  rw [fresh, candidates, List.find?_cons, hnumbered]
  cases taken base with
  | false => rfl
  | true => cases (List.range maxAttempts).find? fun n => !taken (numbered base n) <;> rfl

/-- The search finds the first candidate that is not taken. -/
theorem fresh_finds_iff : fresh base taken = .ok label ↔
    taken label = false ∧
      ∃ before after, candidates base = before ++ label :: after ∧ ∀ c ∈ before, taken c := by
  have hfind : fresh base taken = .ok label ↔ (candidates base).find? (!taken ·) = some label := by
    rw [fresh_eq]
    cases (candidates base).find? (!taken ·) <;> simp
  rw [hfind, List.find?_eq_some_iff_append]
  simp only [Bool.not_not, Bool.not_eq_true']

/-- The search fails where every candidate is taken. -/
theorem fresh_fails_iff : fresh base taken = .error e ↔
    (∀ c ∈ candidates base, taken c) ∧ e = .aliasSpaceExhausted base 1000 := by
  rw [fresh_eq_error_iff]
  simp [candidates, maxAttempts, and_assoc]

/-- Where a search fails, its candidates are among the names. -/
theorem candidates_subset_of_fresh (hnames : ∀ c, taken c → c ∈ names)
    (h : fresh base taken = .error e) : candidates base ⊆ names :=
  fun c hc => hnames c ((fresh_fails_iff.mp h).1 c hc)

/-- Where a thousand names are all that can be taken, the search succeeds. -/
theorem exists_fresh (hnames : ∀ c, taken c → c ∈ names) (hfew : names.dedup.length ≤ 1000) :
    ∃ label, fresh base taken = .ok label := by
  cases h : fresh base taken with
  | ok label => exact ⟨label, rfl⟩
  | error e => exact absurd (candidates_subset_of_fresh hnames h) (not_candidates_subset hfew)

end Alias

/-! ### Joins and fetches -/

namespace RelationRef
variable {r : RelationRef} {name base : String} {attempts id : Nat}

theorem association_ne_exhausted :
    r.association name ≠ .error (.aliasSpaceExhausted base attempts) := by
  simp [association_eq_error_iff]

theorem sibling_ne_exhausted :
    r.sibling id ≠ .error (.aliasSpaceExhausted base attempts) := by
  unfold sibling FrozenSchema.reference
  split <;> simp

end RelationRef

namespace Query
variable {q : Query} {base fallback : String} {attempts : Nat} {label : Option String}

theorem candidates_subset_of_claimAlias
    (h : q.claimAlias fallback label = .error (.aliasSpaceExhausted base attempts)) :
    Alias.candidates base ⊆ q.takenNames := by
  unfold claimAlias at h
  split at h
  · split at h <;> cases h
  · obtain ⟨-, he⟩ := Alias.fresh_fails_iff.mp h
    cases he
    exact Alias.candidates_subset_of_fresh (fun _ => mem_takenNames.mpr) h

theorem conditionOf_ne_exhausted {options : JoinOptions} {relation : Option RelationRef}
    {name label : String} :
    q.conditionOf options relation name label ≠ .error (.aliasSpaceExhausted base attempts) := by
  unfold conditionOf derivedCondition
  dsimp only
  split
  · simp
  · split <;> simp

/-- A join that ends without an alias has found every candidate among its query's names. -/
theorem candidates_subset_of_join {target : JoinTarget} {options : JoinOptions}
    (h : q.join target options = .error (.aliasSpaceExhausted base attempts)) :
    Alias.candidates base ⊆ q.takenNames := by
  cases target with
  | association name =>
    simp only [join, joinAssociation] at h
    split at h
    · cases h
    · simp only [except_bind_eq_error_iff] at h
      rcases h with h | ⟨_, -, h | ⟨_, -, h | ⟨_, -, h⟩⟩⟩
      · exact absurd h RelationRef.association_ne_exhausted
      · exact absurd h RelationRef.sibling_ne_exhausted
      · exact candidates_subset_of_claimAlias h
      · cases h
  | table name =>
    simp only [join, joinTable, except_bind_eq_error_iff] at h
    rcases h with h | ⟨_, -, h⟩
    · exact candidates_subset_of_claimAlias h
    · split at h <;> cases h
  | relation o =>
    simp only [join, joinRelation_eq, except_bind_eq_error_iff] at h
    rcases h with h | ⟨_, -, h | ⟨_, -, h⟩⟩
    · exact candidates_subset_of_claimAlias h
    · exact absurd h conditionOf_ne_exhausted
    · cases h
  | query inner =>
    simp only [join, joinQuery_eq, except_bind_eq_error_iff] at h
    rcases h with h | ⟨_, -, h | ⟨_, -, h⟩⟩
    · exact candidates_subset_of_claimAlias h
    · exact absurd h conditionOf_ne_exhausted
    · split at h <;> cases h

theorem join_ne_exhausted (hfew : q.takenNames.dedup.length ≤ 1000) (target : JoinTarget)
    (options : JoinOptions) (base : String) (attempts : Nat) :
    q.join target options ≠ .error (.aliasSpaceExhausted base attempts) :=
  fun h => Alias.not_candidates_subset hfew (candidates_subset_of_join h)

end Query

namespace Row
variable {r : Row} {base source name : String} {attempts : Nat} {label : Option String}

/-- A fetch that ends without an alias has found every candidate among what its row sees. -/
theorem candidates_subset_of_fetchFrom
    (h : r.fetchFrom source name label = .error (.aliasSpaceExhausted base attempts)) :
    Alias.candidates base ⊆ r.visibleNames := by
  simp only [fetchFrom, except_bind_eq_error_iff] at h
  rcases h with h | ⟨found, -, h⟩
  · cases (relationOf_eq_error_iff.mp h).2
  · cases found with
    | none => cases h
    | some o =>
      simp only [except_bind_eq_error_iff] at h
      rcases h with h | ⟨_, -, h | ⟨_, -, h | ⟨_, -, h⟩⟩⟩
      · exact absurd h RelationRef.association_ne_exhausted
      · exact absurd h RelationRef.sibling_ne_exhausted
      · obtain ⟨_, -, -, he⟩ | ⟨rfl, -, -, he⟩ := claimAlias_eq_error_iff.mp h
        · cases he
        · cases he
          exact Alias.candidates_subset_of_fresh (fun _ => mem_visibleNames.mpr) h
      · split at h <;> cases h

theorem fetchFrom_ne_exhausted (hfew : r.visibleNames.dedup.length ≤ 1000) (source name : String)
    (label : Option String) (base : String) (attempts : Nat) :
    r.fetchFrom source name label ≠ .error (.aliasSpaceExhausted base attempts) :=
  fun h => Alias.not_candidates_subset hfew (candidates_subset_of_fetchFrom h)

end Row

end QueryBuilder
