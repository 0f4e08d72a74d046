import QueryBuilder.Proofs.Levels
import QueryBuilder.Proofs.PendingEntries

/-! The `WITH` clauses of a statement.

A nested source becomes an entry when it is visited, behind the entries of its own nested sources
and of the subqueries in it. What a level brings in is thus read off the level: the entries of its
sources, one after the other, and then those of the subqueries that its callbacks embed. A hoisted
subquery passes its entries on, an inline one puts them in front of itself.

Since whatever an entry reads has arisen before it, the entries of a clause stand in the order of
their dependence. -/
namespace QueryBuilder.Sql

/-- The subqueries in the expressions of a select. -/
def Select.subqueries (s : Select) : List Statement := s.exprs.flatMap Expr.subqueries

section
variable (placement : EntryPlacement) (calls : Calls)

mutual

/-- When the level is compiled these entries arise and are passed on. -/
inductive Yields : CompiledLevel placement calls → List Entry → Prop
  | intro {level es es'} : SourcesYield level.query.sources level.select.tables es →
      SubqueriesYield (level.exprs.flatMap Expr.subqueries) level.select.subqueries es' →
      Yields level (es ++ es')

/-- The sources are read by these items, and these entries arise: one for each nested source, to
which the source is compiled, and those that arise in it. -/
inductive SourcesYield : List Source → List TableItem → List Entry → Prop
  | nil : SourcesYield [] [] []
  | table {label name relation display} :
      SourcesYield [⟨label, .table name relation⟩] [⟨.table name, display⟩] []
  | nested {label} {inner : CompiledLevel placement calls} {name es} : Yields inner es →
      SourcesYield [⟨label, .nested inner.query⟩] [⟨.entry name, name⟩]
        (es ++ [⟨name, inner.select⟩])
  | append {sources items es sources' items' es'} : SourcesYield sources items es →
      SourcesYield sources' items' es' →
      SourcesYield (sources ++ sources') (items ++ items') (es ++ es')

/-- The queries are compiled to these statements, and these entries are passed on. -/
inductive SubqueriesYield : List Query → List Statement → List Entry → Prop
  | nil : SubqueriesYield [] [] []
  | hoisted {inner : CompiledLevel placement calls} {es} : placement = .hoisted →
      Yields inner es → SubqueriesYield [inner.query] [⟨[], inner.select⟩] es
  | inline {inner : CompiledLevel placement calls} {es} : placement = .inline →
      Yields inner es → SubqueriesYield [inner.query] [⟨es, inner.select⟩] []
  | append {qs ss es qs' ss' es'} : SubqueriesYield qs ss es → SubqueriesYield qs' ss' es' →
      SubqueriesYield (qs ++ qs') (ss ++ ss') (es ++ es')

end

end

section
variable {placement : EntryPlacement} {calls : Calls}
  {level : Query → Option Scope → Naming Select} {n n' : Names}

end

/-- Of the entries that may be read at a place, those that may be read in a subquery there besides
its own. -/
def EntryPlacement.around : EntryPlacement → List String → List String
  | .hoisted, names => names
  | .inline, _ => []

/-- The select reads only entries of these names. Its subqueries may read the entries in front of
them, which stand in order, and if entries are hoisted what the select may read; in this case
there are none in front of them. -/
inductive Select.ReadsFrom (placement : EntryPlacement) : List String → Select → Prop
  | intro {names} {s : Select} :
      (∀ name label, ⟨.entry name, label⟩ ∈ s.tables → name ∈ names) →
      (∀ st ∈ s.subqueries, placement = .hoisted → st.entries = []) →
      (∀ st ∈ s.subqueries, ∀ before entry after, st.entries = before ++ entry :: after →
        ReadsFrom placement (before.map (·.name)) entry.body) →
      (∀ st ∈ s.subqueries,
        ReadsFrom placement (placement.around names ++ st.entries.map (·.name)) st.body) →
      ReadsFrom placement names s

/-- Each entry reads only those in front of it. -/
def Ordered (placement : EntryPlacement) (es : List Entry) : Prop :=
  ∀ before entry after, es = before ++ entry :: after →
    entry.body.ReadsFrom placement (before.map (·.name))

/-- What `Select.ReadsFrom` says of a subquery. -/
structure Statement.ReadsFrom (placement : EntryPlacement) (names : List String)
    (st : Statement) : Prop where
  bare : placement = .hoisted → st.entries = []
  ordered : Ordered placement st.entries
  body : st.body.ReadsFrom placement (placement.around names ++ st.entries.map (·.name))

section
variable {placement : EntryPlacement} {names names' : List String}

theorem Select.readsFrom_of_subqueries {s : Select}
    (htables : ∀ name label, ⟨.entry name, label⟩ ∈ s.tables → name ∈ names)
    (hsubqueries : ∀ st ∈ s.subqueries, st.ReadsFrom placement names) :
    s.ReadsFrom placement names :=
  .intro htables (fun st hst => (hsubqueries st hst).bare)
    (fun st hst => (hsubqueries st hst).ordered) (fun st hst => (hsubqueries st hst).body)

theorem Select.ReadsFrom.tables {s : Select} (h : s.ReadsFrom placement names) {name label : String}
    (hitem : ⟨.entry name, label⟩ ∈ s.tables) : name ∈ names := by
  cases h with
  | intro htables => exact htables name label hitem

theorem Select.ReadsFrom.subqueries {s : Select} (h : s.ReadsFrom placement names) :
    ∀ st ∈ s.subqueries, st.ReadsFrom placement names := by
  cases h with
  | intro _ hbare hordered hbody =>
    exact fun st hst => ⟨hbare st hst, hordered st hst, hbody st hst⟩

theorem EntryPlacement.around_append_subset (hsub : names ⊆ names') (own : List String) :
    placement.around names ++ own ⊆ placement.around names' ++ own := by
  cases placement with
  | hoisted =>
    exact List.append_subset.mpr ⟨List.Subset.trans hsub (List.subset_append_left _ _),
      List.subset_append_right _ _⟩
  | inline => exact List.Subset.refl _

theorem Select.ReadsFrom.mono {s : Select} (h : s.ReadsFrom placement names)
    (hsub : names ⊆ names') : s.ReadsFrom placement names' := by
  induction h generalizing names' with
  | intro htables hbare hordered _ _ ih =>
    refine .intro (fun name label hitem => hsub (htables name label hitem)) hbare hordered ?_
    exact fun st hst => ih st hst (EntryPlacement.around_append_subset hsub _)

theorem Statement.ReadsFrom.mono {st : Statement} (h : st.ReadsFrom placement names)
    (hsub : names ⊆ names') : st.ReadsFrom placement names' :=
  ⟨h.bare, h.ordered, h.body.mono (EntryPlacement.around_append_subset hsub _)⟩

theorem Ordered.nil : Ordered placement [] := by simp [Ordered]

/-- Entries may stand behind others that they read. -/
theorem Ordered.extend {es es' : List Entry} (h : Ordered placement es)
    (h' : ∀ before entry after, es' = before ++ entry :: after →
      entry.body.ReadsFrom placement ((es ++ before).map (·.name))) :
    Ordered placement (es ++ es') := by
  intro before entry after heq
  rcases List.append_eq_append_iff.mp heq with ⟨middle, rfl, hes'⟩ | ⟨middle, hes, hafter⟩
  · exact h' middle entry after hes'
  · cases middle with
    | nil =>
      rw [List.append_nil] at hes
      simpa [hes] using h' [] entry after hafter.symm
    | cons first middle =>
      obtain ⟨rfl, -⟩ := List.cons.inj hafter
      exact h before _ middle hes

theorem Ordered.append {es es' : List Entry} (h : Ordered placement es)
    (h' : Ordered placement es') : Ordered placement (es ++ es') := by
  refine h.extend fun before entry after heq => (h' before entry after heq).mono ?_
  rw [List.map_append]
  exact List.subset_append_right _ _

theorem Ordered.snoc {es : List Entry} (h : Ordered placement es) {entry : Entry}
    (hbody : entry.body.ReadsFrom placement (es.map (·.name))) :
    Ordered placement (es ++ [entry]) := by
  refine h.extend fun before entry' after heq => ?_
  cases before with
  | nil =>
    obtain ⟨rfl, -⟩ := List.cons.inj heq
    simpa using hbody
  | cons first before => simp at heq

end

section
variable {placement : EntryPlacement} {calls : Calls}

mutual

/-- The entries of a level stand in order, and the level reads from them. -/
theorem Yields.ordered {level : CompiledLevel placement calls} {es : List Entry} :
    Yields placement calls level es →
      Ordered placement es ∧ level.select.ReadsFrom placement (es.map (·.name))
  | .intro hsources hsubqueries => by
    obtain ⟨hordered, htables⟩ := hsources.ordered
    obtain ⟨hordered', hreads⟩ := hsubqueries.ordered
    rw [List.map_append]
    refine ⟨hordered.append hordered', Select.readsFrom_of_subqueries ?_ ?_⟩
    · intro name label hitem
      exact List.mem_append_left _ (htables name label hitem)
    · intro st hst
      exact (hreads st hst).mono (List.subset_append_right _ _)

theorem SourcesYield.ordered {sources : List Source} {items : List TableItem} {es : List Entry} :
    SourcesYield placement calls sources items es → Ordered placement es ∧
      ∀ name label, ⟨.entry name, label⟩ ∈ items → name ∈ es.map (·.name)
  | .nil => ⟨.nil, by simp⟩
  | .table => ⟨.nil, by simp⟩
  | .nested hinner => by
    obtain ⟨hordered, hreads⟩ := hinner.ordered
    refine ⟨hordered.snoc hreads, ?_⟩
    intro name label hitem
    simp only [List.mem_singleton, TableItem.mk.injEq, TableRef.entry.injEq] at hitem
    simp [hitem.1]
  | .append h h' => by
    obtain ⟨hordered, htables⟩ := h.ordered
    obtain ⟨hordered', htables'⟩ := h'.ordered
    refine ⟨hordered.append hordered', ?_⟩
    intro name label hitem
    rw [List.map_append, List.mem_append]
    exact (List.mem_append.mp hitem).imp (htables name label) (htables' name label)

theorem SubqueriesYield.ordered {qs : List Query} {ss : List Statement} {es : List Entry} :
    SubqueriesYield placement calls qs ss es → Ordered placement es ∧
      ∀ st ∈ ss, st.ReadsFrom placement (es.map (·.name))
  | .nil => ⟨.nil, by simp⟩
  | .hoisted hplacement hinner => by
    obtain ⟨hordered, hreads⟩ := hinner.ordered
    subst hplacement
    refine ⟨hordered, ?_⟩
    intro st hst
    obtain rfl := List.mem_singleton.mp hst
    exact ⟨fun _ => rfl, .nil, by simpa [EntryPlacement.around] using hreads⟩
  | .inline hplacement hinner => by
    obtain ⟨hordered, hreads⟩ := hinner.ordered
    subst hplacement
    refine ⟨.nil, ?_⟩
    intro st hst
    obtain rfl := List.mem_singleton.mp hst
    exact ⟨by simp, hordered, by simpa [EntryPlacement.around] using hreads⟩
  | .append h h' => by
    obtain ⟨hordered, hreads⟩ := h.ordered
    obtain ⟨hordered', hreads'⟩ := h'.ordered
    refine ⟨hordered.append hordered', ?_⟩
    intro st hst
    rw [List.map_append]
    rcases List.mem_append.mp hst with hst | hst
    · exact (hreads st hst).mono (List.subset_append_left _ _)
    · exact (hreads' st hst).mono (List.subset_append_right _ _)

end

end

/-! ### Hoisted entries -/

/-- A nested source that has a nested source itself. -/
def stopsInTrips : Query :=
  let trips := ((Query.ofTable "trips").attach ⟨"inner", .nested ((Query.ofTable "stops").take 5)⟩
    ⟨"inner", .inner, ⟨.value (.raw "TRUE"), []⟩⟩).take 2
  (Query.ofTable "routes").attach ⟨"middle", .nested trips⟩
    ⟨"middle", .inner, ⟨.value (.raw "TRUE"), []⟩⟩

/-- No schema is behind the table, and it turns up after the entry of its name. -/
example : ((Query.ofTable "routes").attach ⟨"stop", .nested ((Query.ofTable "archive").take 1)⟩
    ⟨"stop", .inner, ⟨.value (.raw "TRUE"), []⟩⟩ |>.filter
      ⟨.unary "EXISTS " (.subquery (.value (Query.ofTable "stop"))) "", []⟩).toSql =
    .error (.error (.aliasAlreadyUsed "stop")) := by decide +kernel

end QueryBuilder.Sql
