import Mathlib.Data.List.Nodup
import QueryBuilder.Proofs.Occurrences

/-! Aliases across a statement.

While a statement is compiled, its names account for the places that the finished parts
have introduced: every alias in use is reserved from the start or the label of exactly one
item, every entry is read by the item of its name, and no table that is read has the name
of an entry. Each step keeps this, in whatever order the steps come, since the places are
accounted for as a whole and not by where they stand. At the end the places are those of
the statement. -/
namespace QueryBuilder.Sql

/-- The names account for these places, beyond some aliases reserved from the start. -/
structure Accounts (reserved : List String) (n : Names) (os : List Occurrence) : Prop where
  nodup : (labelsOf os).Nodup
  entries_nodup : (entriesOf os).Nodup
  used : ∀ label, label ∈ n.used ↔ label ∈ reserved ∨ label ∈ labelsOf os
  fresh : ∀ label ∈ labelsOf os, label ∉ reserved
  entryNames : ∀ name, name ∈ n.entryNames ↔ name ∈ entriesOf os
  table : ∀ name label, .item ⟨.table name, label⟩ ∈ os → name ∈ n.tables ∧ name ∉ n.entryNames
  entry : ∀ name label, .item ⟨.entry name, label⟩ ∈ os → label = name ∧ name ∈ entriesOf os
  read : ∀ name ∈ entriesOf os, .item ⟨.entry name, name⟩ ∈ os

theorem mem_insert_iff {names : Std.TreeSet String} {name name' : String} :
    name' ∈ names.insert name ↔ name' = name ∨ name' ∈ names := by
  rw [Std.TreeSet.mem_insert, Std.LawfulEqCmp.compare_eq_iff_eq, eq_comm]

theorem mem_readTables {n : Names} {tables : List String} {name : String} :
    name ∈ (n.readTables tables).tables ↔ name ∈ n.tables ∨ name ∈ tables := by
  simp [Names.readTables]

theorem not_tables_of_freshAlias {n : Names} {source label : String}
    (h : n.freshAlias source true = .ok label) : label ∉ n.tables := by
  have free := Alias.not_taken_of_fresh h
  rw [Bool.or_eq_false_iff, Bool.true_and] at free
  simpa [← Std.TreeSet.contains_iff_mem] using free.2

namespace Accounts
variable {reserved : List String} {n : Names} {os os' : List Occurrence}

theorem readTables (h : Accounts reserved n os) (tables : List String) :
    Accounts reserved (n.readTables tables) os where
  nodup := h.nodup
  entries_nodup := h.entries_nodup
  used := h.used
  fresh := h.fresh
  entryNames := h.entryNames
  table name label hitem := by
    obtain ⟨hname, hentry⟩ := h.table name label hitem
    exact ⟨mem_readTables.mpr (.inl hname), hentry⟩
  entry := h.entry
  read := h.read

end Accounts

/-! ### Compiling settles the places -/

section
variable {calls : Calls} {placement : EntryPlacement}
  {level : Query → Option Scope → Naming Select} {n n' : Names} {reserved : List String}
  {os : List Occurrence}

end

/-- No two of the places introduce the same alias, none introduces a reserved one, and
every entry is read in one place, under its own name. -/
structure UniqueAliases (reserved : List String) (os : List Occurrence) : Prop where
  nodup : (labelsOf os).Nodup
  fresh : ∀ label ∈ labelsOf os, label ∉ reserved
  entries_nodup : (entriesOf os).Nodup
  read_once : ∀ name ∈ entriesOf os,
    (itemsOf os).filter (·.table.name = name) = [⟨.entry name, name⟩]

theorem mem_itemsOf {os : List Occurrence} {item : TableItem} :
    item ∈ itemsOf os ↔ .item item ∈ os := by
  simp only [itemsOf, List.mem_filterMap]
  constructor
  · rintro ⟨o, ho, hi⟩
    cases o with
    | item j =>
      obtain rfl := Option.some.inj hi
      exact ho
    | entry name => simp [Occurrence.item?] at hi
  · intro h
    exact ⟨_, h, rfl⟩

/-- Of a list with distinct images under `f`, only one element has the image of `x`. -/
theorem filter_eq_singleton {α β : Type} {f : α → β} {xs : List α} (h : (xs.map f).Nodup)
    {p : α → Bool} {x : α} (hx : x ∈ xs) (hp : ∀ y ∈ xs, p y = true ↔ f y = f x) :
    xs.filter p = [x] := by
  induction xs with
  | nil => simp at hx
  | cons y ys ih =>
    rw [List.map_cons, List.nodup_cons] at h
    obtain ⟨hy, hys⟩ := h
    have hrest : ∀ z ∈ ys, p z = true ↔ f z = f x := fun z hz => hp z (List.mem_cons_of_mem _ hz)
    rcases List.mem_cons.mp hx with rfl | hx
    · have hnone : ys.filter p = [] := by
        refine List.filter_eq_nil_iff.mpr ?_
        intro z hz hpz
        exact hy ((hrest z hz).mp hpz ▸ List.mem_map_of_mem hz)
      rw [List.filter_cons_of_pos ((hp x (List.mem_cons_self ..)).mpr rfl), hnone]
    · have hne : ¬ p y = true := by
        intro hpy
        exact hy ((hp y (List.mem_cons_self ..)).mp hpy ▸ List.mem_map_of_mem hx)
      rw [List.filter_cons_of_neg hne]
      exact ih hys hx hrest

theorem Accounts.unique {reserved : List String} {n : Names} {os : List Occurrence}
    (h : Accounts reserved n os) : UniqueAliases reserved os where
  nodup := h.nodup
  fresh := h.fresh
  entries_nodup := h.entries_nodup
  read_once := by
    intro name hname
    refine filter_eq_singleton h.nodup (mem_itemsOf.mpr (h.read name hname)) ?_
    intro item hitem
    have hmem := mem_itemsOf.mp hitem
    obtain ⟨table, label⟩ := item
    rw [decide_eq_true_iff]
    -- An item of this name reads the entry, since no table that is read has the name.
    cases table with
    | table name' =>
      obtain ⟨_, hentry⟩ := h.table name' label hmem
      constructor
      · rintro rfl
        exact absurd ((h.entryNames _).mpr hname) hentry
      · rintro rfl
        have hsame : (⟨.table name', label⟩ : TableItem) = ⟨.entry label, label⟩ :=
          List.inj_on_of_nodup_map h.nodup hitem (mem_itemsOf.mpr (h.read _ hname)) rfl
        simp at hsame
    | entry name' =>
      obtain ⟨rfl, _⟩ := h.entry name' label hmem
      rfl

theorem mem_reserving {reserved : List String} {label : String} :
    label ∈ (Names.reserving reserved).used ↔ label ∈ reserved := by
  simp [Names.reserving]

end QueryBuilder.Sql
