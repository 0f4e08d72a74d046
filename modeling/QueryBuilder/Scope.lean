import QueryBuilder.Schema.Reference

/-! Alias scopes.

A level of a scope says under which display alias each source of a query is
written, and which relation stands behind it. Levels are chained outward: a name is
looked up in the innermost level first and then in those around it, so an inner
binding hides an outer one of the same name. -/
namespace QueryBuilder

structure Binding where
  display : String
  relation : Option RelationRef := none

/-- The bindings of one level, in the order of their names. -/
abbrev Level := Std.TreeMap String Binding

/-- The innermost level and the levels around it, from the inside out. -/
structure Scope where
  level : Level := ∅
  outer : List Level := []

namespace Scope

/-- The empty scope. -/
def empty : Scope := {}

def levels (s : Scope) : List Level := s.level :: s.outer

/-- An empty level inside `parent`, or on its own. -/
def child : Option Scope → Scope
  | none => {}
  | some parent => { outer := parent.levels }

/-- Binds a source in the innermost level, in place of an earlier binding there. -/
def bind (s : Scope) (source : String) (binding : Binding) : Scope :=
  { s with level := s.level.insert source binding }

/-- The scope around the innermost level. -/
def parent? (s : Scope) : Option Scope :=
  match s.outer with
  | [] => none
  | level :: outer => some { level, outer }

/-- The sources bound in the innermost level. -/
def sources (s : Scope) : List String := s.level.keys

/-- The innermost binding of `source`. -/
def lookup (s : Scope) (source : String) : Option Binding :=
  s.levels.findSome? fun level => level[source]?

def isBound (s : Scope) (source : String) : Bool := (s.lookup source).isSome

/-- What is bound at some level. -/
def boundNames (s : Scope) : List String := s.levels.flatMap (·.keys)

/-- The display alias of `source`. -/
def resolve (s : Scope) (source : String) : Except Error String :=
  match s.lookup source with
  | some binding => .ok binding.display
  | none => .error (.unresolvedSource source)

/-- The display aliases of all levels, from the inside out. -/
def displayAliases (s : Scope) : List String :=
  s.levels.flatMap fun level => level.toList.map fun (_, binding) => binding.display

/-- A binding hides those of the same name and no others. -/
theorem lookup_bind (s : Scope) (source name : String) (binding : Binding) :
    (s.bind source binding).lookup name = if name = source then some binding else s.lookup name := by
  by_cases h : name = source
  · subst h
    simp [lookup, levels, bind]
  · have h' : source ≠ name := fun e => h e.symm
    simp [lookup, levels, bind, List.findSome?_cons, Std.TreeMap.getElem?_insert, h, h']

@[simp]
theorem lookup_empty (name : String) : empty.lookup name = none := by
  simp [lookup, levels, empty]

@[simp]
theorem lookup_child_none (name : String) : (child none).lookup name = none := by
  simp [lookup, levels, child]

/-- An empty level hides nothing. -/
@[simp]
theorem lookup_child_some (parent : Scope) (name : String) :
    (child (some parent)).lookup name = parent.lookup name := by
  simp [lookup, levels, child]

theorem mem_boundNames {s : Scope} {x : String} : x ∈ s.boundNames ↔ s.isBound x := by
  unfold boundNames isBound lookup
  rw [List.mem_flatMap, List.findSome?_isSome_iff]
  simp only [Std.TreeMap.mem_keys, Std.TreeMap.isSome_getElem?_iff_mem]

theorem resolve_eq_ok_iff {s : Scope} {source display : String} :
    s.resolve source = .ok display ↔ ∃ b, s.lookup source = some b ∧ b.display = display := by
  unfold resolve
  cases s.lookup source <;> simp

theorem resolve_eq_error_iff {s : Scope} {source : String} {e : Error} :
    s.resolve source = .error e ↔ s.isBound source = false ∧ e = .unresolvedSource source := by
  unfold resolve isBound
  cases s.lookup source <;> simp [eq_comm]

theorem isBound_of_resolve {s : Scope} {source display : String}
    (h : s.resolve source = .ok display) : s.isBound source = true := by
  obtain ⟨b, hb, -⟩ := resolve_eq_ok_iff.mp h
  rw [isBound, hb, Option.isSome_some]

/-- A bound source is written under a display alias of the scope. -/
theorem mem_displayAliases_of_resolve {s : Scope} {source display : String}
    (h : s.resolve source = .ok display) : display ∈ s.displayAliases := by
  obtain ⟨b, hlookup, rfl⟩ := resolve_eq_ok_iff.mp h
  obtain ⟨level, hl, hb⟩ := List.exists_of_findSome?_eq_some hlookup
  refine List.mem_flatMap.2 ⟨level, hl, List.mem_map.2 ?_⟩
  exact ⟨_, Std.TreeMap.mem_toList_iff_getElem?_eq_some.2 hb, rfl⟩

end Scope

end QueryBuilder
