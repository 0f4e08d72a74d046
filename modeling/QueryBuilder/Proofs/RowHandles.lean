import Mathlib.Data.List.Pairwise
import QueryBuilder.Proofs.OuterReferences

/-! What the columns of a row are written as in the subqueries of its callback.

A column has the name of a source and not the level that its row is of. In a subquery the name is
looked up from the inside out: in the level of the subquery, then in the scope that its query
carries, or else in that of the level whose callback embeds it, and so on. The column is one of the
row's own level if this gets there and no level on the way has a source of the name. A query that
has been fetched from a row of the level gets there at once and has no such source. -/
namespace QueryBuilder.Sql
variable {placement : EntryPlacement} {calls : Calls}

namespace CompiledLevel

/-- A source of a level has an alias that is new there, and in use from then on. -/
theorem exists_alias {level : CompiledLevel placement calls} {x : String}
    (hx : level.query.hasSource x) :
    ∃ d, level.scope.resolve x = .ok d ∧ d ∉ level.before.used ∧ d ∈ level.visited.used :=
  level.binds.own x (List.mem_map.mpr (Query.hasSource_iff.mp hx))

theorem used_of_resolve {level : CompiledLevel placement calls} {x d : String}
    (hx : level.query.hasSource x) (hd : level.scope.resolve x = .ok d) :
    d ∉ level.before.used ∧ d ∈ level.visited.used := by
  obtain ⟨d', hd', hnew⟩ := exists_alias hx
  obtain rfl := Except.ok.inj (hd.symm.trans hd')
  exact hnew

/-- Any other name means what it means around the level. -/
theorem resolve_outward {level : CompiledLevel placement calls} {x : String}
    (hx : level.query.hasSource x = false) :
    level.scope.resolve x = (Scope.child level.parent).resolve x := by
  unfold Scope.resolve
  rw [level.binds.around x (Query.hasSource_eq_false_iff.mp hx)]

/-! ### Levels below a level -/

/-- The level is compiled in the course of a callback of `top`, however deep inside. -/
inductive Below (top : CompiledLevel placement calls) : CompiledLevel placement calls → Prop
  | embeds {inner statement} : top.Embeds inner statement → Below top inner
  | within {outer inner statement} : Below top outer → outer.Embeds inner statement →
      Below top inner
  | nests {outer inner name} : Below top outer → outer.Nests inner name → Below top inner

section
variable {top inner : CompiledLevel placement calls}

theorem Below.subset (h : top.Below inner) : ∀ d ∈ top.visited.used, d ∈ inner.before.used := by
  induction h with
  | embeds hembeds => exact hembeds.grows
  | @within outer _ _ _ hembeds ih =>
    exact fun d hd => hembeds.grows d (outer.before_subset_visited d (ih d hd))
  | nests _ hnests ih => exact fun d hd => hnests.grows d (ih d hd)

theorem Below.parent_of_context (h : top.Below inner) {scope : Scope}
    (hcontext : inner.query.context = some scope) : inner.parent = some scope := by
  cases h with
  | embeds hembeds | within _ hembeds => exact hembeds.parent_of_context hcontext
  | nests _ hnests => exact hnests.parent_eq.trans hcontext

/-- The sources of a level get aliases that no level above has. -/
theorem Below.fresh (h : top.Below inner) {x d : String} (hx : inner.query.hasSource x)
    (hd : inner.scope.resolve x = .ok d) : d ∉ top.visited.used :=
  fun hused => (used_of_resolve hx hd).1 (h.subset d hused)

end

/-! ### Looking names up -/

/-- From the first scope outward lie these levels, all of them below `top`, and then the last
scope. -/
inductive Chain (top : CompiledLevel placement calls) :
    Option Scope → List (CompiledLevel placement calls) → Option Scope → Prop
  | nil {base} : Chain top base [] base
  | cons {level between base} : top.Below level → Chain top level.parent between base →
      Chain top (some level.scope) (level :: between) base

/-- Names that are looked up from the level on get to `top` through these levels. -/
def Sees (top inner : CompiledLevel placement calls)
    (between : List (CompiledLevel placement calls)) : Prop :=
  top.Chain (some inner.scope) between (some top.scope)

theorem resolve_child_some (scope : Scope) (x : String) :
    (Scope.child (some scope)).resolve x = scope.resolve x := by
  unfold Scope.resolve
  rw [Scope.lookup_child_some]

/-- A name is that of a source on the way, which has a new alias, or is looked up at the end. -/
theorem Chain.resolve {top : CompiledLevel placement calls} {start base : Option Scope}
    {between : List (CompiledLevel placement calls)} (h : top.Chain start between base)
    {x d : String} (hd : (Scope.child start).resolve x = .ok d) :
    ((∃ level ∈ between, level.query.hasSource x) ∧ d ∉ top.visited.used) ∨
      (∀ level ∈ between, level.query.hasSource x = false) ∧
        (Scope.child base).resolve x = .ok d := by
  induction h with
  | nil => exact .inr ⟨by simp, hd⟩
  | @cons level between base hbelow _ ih =>
    rw [resolve_child_some] at hd
    cases hown : level.query.hasSource x with
    | true => exact .inl ⟨⟨level, List.mem_cons_self .., hown⟩, hbelow.fresh hown hd⟩
    | false =>
      have haround := (resolve_outward hown).symm.trans hd
      rcases ih haround with ⟨⟨hider, hmem, hsource⟩, hfresh⟩ | ⟨hfree, hbase⟩
      · exact .inl ⟨⟨hider, List.mem_cons_of_mem _ hmem, hsource⟩, hfresh⟩
      · exact .inr ⟨List.forall_mem_cons.mpr ⟨hown, hfree⟩, hbase⟩

section
variable {top outer inner : CompiledLevel placement calls} {statement : Statement}
  {between : List (CompiledLevel placement calls)} {x d d' : String}

/-- A query without a context is in the scope of the level that embeds it. -/
theorem Sees.embeds (h : top.Sees outer between) (hembeds : outer.Embeds inner statement)
    (hbelow : top.Below inner) (hcontext : inner.query.context = none) :
    top.Sees inner (inner :: between) := by
  refine .cons hbelow ?_
  rw [hembeds.parent_eq, hcontext]
  exact h

/-- A query with a context is in that scope, whichever level embeds it. -/
theorem Sees.fetched (h : top.Sees outer between) (hbelow : top.Below inner)
    (hcontext : inner.query.context = some outer.scope) : top.Sees inner (inner :: between) := by
  refine .cons hbelow ?_
  rw [hbelow.parent_of_context hcontext]
  exact h

/-- A source of `top` is written the same below if no level on the way hides it, and only then. -/
theorem Sees.resolve_eq_iff (h : top.Sees inner between) (hx : top.query.hasSource x)
    (hd : top.scope.resolve x = .ok d) (hd' : inner.scope.resolve x = .ok d') :
    d' = d ↔ ∀ level ∈ between, level.query.hasSource x = false := by
  rcases Chain.resolve h ((resolve_child_some _ _).trans hd') with
    ⟨⟨level, hmem, hsource⟩, hfresh⟩ | ⟨hfree, hbase⟩
  · refine iff_of_false (fun heq => hfresh (heq ▸ (used_of_resolve hx hd).2)) fun hfree => ?_
    rw [hfree level hmem] at hsource
    cases hsource
  · rw [resolve_child_some, hd] at hbase
    exact iff_of_true (Except.ok.inj hbase).symm hfree

end

/-! ### Levels inside one another -/

/-- The first level is below the second one. What is looked up from it gets to that level, or to
a scope that has been there before. -/
structure Linked (inner top : CompiledLevel placement calls) : Prop where
  below : top.Below inner
  chain : ∃ between base, top.Chain (some inner.scope) between base ∧
    (base = some top.scope ∨ ∀ scope, base = some scope → top.before.Covers scope)

/-- A source of a level that one is linked to is written the same if names get to that level and
nothing hides it, and only then. -/
theorem Linked.resolve_eq_iff {inner top : CompiledLevel placement calls} (h : inner.Linked top)
    {x d d' : String} (hx : top.query.hasSource x) (hd : top.scope.resolve x = .ok d)
    (hd' : inner.scope.resolve x = .ok d') :
    d' = d ↔ ∃ between, top.Sees inner between ∧
      ∀ level ∈ between, level.query.hasSource x = false := by
  constructor
  · intro heq
    subst heq
    obtain ⟨hfresh, hused⟩ := used_of_resolve hx hd
    obtain ⟨between, base, hchain, hbase⟩ := h.chain
    rcases hchain.resolve ((resolve_child_some _ _).trans hd') with ⟨-, hnew⟩ | ⟨hfree, hresolve⟩
    · exact absurd hused hnew
    · rcases hbase with rfl | hcovers
      · exact ⟨between, hchain, hfree⟩
      · -- What has been around before cannot have the alias.
        cases base with
        | none => simp [Scope.resolve] at hresolve
        | some scope =>
          rw [resolve_child_some] at hresolve
          exact absurd ((hcovers scope rfl).resolve hresolve) hfresh
  · intro hsees
    obtain ⟨between, hsees, hfree⟩ := hsees
    exact (hsees.resolve_eq_iff hx hd hd').mpr hfree

theorem Inside.root_subset {root inner : CompiledLevel .hoisted calls}
    {around : List (CompiledLevel .hoisted calls)} (h : Inside root inner around) :
    ∀ level ∈ inner :: around, ∀ d ∈ root.before.used, d ∈ level.before.used := by
  induction h with
  | root => simp
  | @embeds outer _ _ _ _ hembeds _ ih =>
    refine List.forall_mem_cons.mpr ⟨fun d hd => ?_, ih⟩
    exact hembeds.grows d (outer.before_subset_visited d (ih outer (List.mem_cons_self ..) d hd))
  | nests _ hnests _ ih =>
    obtain ⟨houter, haround⟩ := List.forall_mem_cons.mp ih
    exact List.forall_mem_cons.mpr ⟨fun d hd => hnests.grows d (houter d hd), haround⟩

/-- The rows that callbacks of the level are called with: its own one, and that one as the
callbacks of a query expect it that has been merged into the level's. -/
inductive Receives (level : CompiledLevel placement calls) : Row → Prop
  | own : Receives level level.row
  | merged {target : Query} {label} : target.defaultSource = target.baseSource →
      level.query.hasSource label → Receives level (target.atMerged label level.row)

/-- What a row has by default is a source of its level. -/
theorem Receives.hasSource {level : CompiledLevel placement calls} (hq : level.query.Regular)
    {t : Row} (h : level.Receives t) : level.query.hasSource (t.substitute t.defaultSource) := by
  cases h with
  | own => exact hq.hasSource_default
  | @merged target label hdefault hlabel =>
    have hname : (target.atMerged label level.row).substitute target.defaultSource = label := by
      unfold Query.atMerged
      rw [Row.substitute_substituting, Row.substitute_nil rfl, hdefault]
      simp [Std.TreeMap.ofList_singleton]
    show level.query.hasSource ((target.atMerged label level.row).substitute _) = true
    exact hname.symm ▸ hlabel

end CompiledLevel

end QueryBuilder.Sql
