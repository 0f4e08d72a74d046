import QueryBuilder.Proofs.OuterReferences

/-! Where the entries of a statement may look.

A nested source becomes an entry at the head of the whole statement, wherever it is read. Its body
is compiled in the scope that the nested query carries. When this is the scope of a level of the
statement, what the query refers to around it is introduced by the select of that level. The
entry stands outside of this select, so the reference is to nothing. -/
namespace QueryBuilder

/-- The relation behind a source is that of one that the row can see. -/
theorem Row.isVisible_of_relationOf {r : Row} {source : String} {relation : Option RelationRef}
    (h : r.relationOf source = .ok relation) : r.isVisible source = true := by
  unfold relationOf at h
  unfold isVisible Query.hasSource Scope.isBound
  split at h
  · rename_i data hsource
    simp [hsource]
  · split at h
    · rename_i binding hlookup
      simp [hlookup]
    · cases h

/-- A row follows an association from a source that it can see. -/
theorem Row.isVisible_of_fetchFrom {r r' : Row} {source name : String} {label : Option String}
    (h : r.fetchFrom source name label = .ok r') : r.isVisible (r.substitute source) = true := by
  simp only [Row.fetchFrom, except_bind_eq_ok_iff] at h
  obtain ⟨found, hfound, -⟩ := h
  exact isVisible_of_relationOf hfound

namespace Sql
variable {placement : EntryPlacement} {calls : Calls}

/-- The item of a source has the alias that the source resolves to. -/
theorem LevelScope.resolve_of_item {l : LevelScope} {source : String} {item : TableItem}
    (h : l.item source = .ok item) : l.scope.resolve source = .ok item.label := by
  unfold LevelScope.item at h
  split at h
  · obtain ⟨label, hlabel, hitem⟩ := except_bind_eq_ok_iff.mp h
    obtain rfl := except_pure_eq_ok_iff.mp hitem
    exact hlabel
  · cases h

namespace CompiledLevel

/-- The select of a level introduces the aliases of the level's sources. -/
theorem mem_labels_iff {level : CompiledLevel placement calls} (hq : level.query.Regular)
    {d : String} : d ∈ level.select.labels ↔
      ∃ x ∈ level.query.sources.map (·.label), level.scope.resolve x = .ok d := by
  have htables : List.Forall₂ (fun x d => level.scope.resolve x = .ok d)
      (level.query.sources.map (·.label)) level.select.labels := by
    rw [hq.labels_eq]
    refine .cons (LevelScope.resolve_of_item level.run.base) ?_
    rw [List.map_map, List.forall₂_map_left_iff, List.forall₂_map_right_iff]
    exact level.run.joins.imp fun _ _ hjoin => LevelScope.resolve_of_item hjoin.1
  constructor
  · intro hd
    obtain ⟨x, hx, hresolve⟩ := exists_of_forall₂ htables hd
    exact ⟨x, hx, hresolve⟩
  · intro h
    obtain ⟨x, hx, hresolve⟩ := h
    obtain ⟨i, hi, rfl⟩ := List.getElem_of_mem hx
    have hi' := htables.length_eq ▸ hi
    obtain rfl := Except.ok.inj (hresolve.symm.trans (htables.get hi hi'))
    exact List.getElem_mem hi'

/-- What a level refers to is introduced by its own select if it is one of its sources, and only
then. -/
theorem Covered.introduces_iff {level : CompiledLevel placement calls} (h : level.Covered)
    (hq : level.query.Regular) {x d : String} (hx : level.scope.resolve x = .ok d) :
    d ∈ level.select.labels ↔ level.query.hasSource x := by
  rw [mem_labels_iff hq, Query.hasSource_iff]
  constructor
  · intro hd
    obtain ⟨y, hy, hresolve⟩ := hd
    obtain rfl := (h.resolve_own_iff hy hresolve hx).mp rfl
    exact List.mem_map.mp hy
  · intro hsource
    exact ⟨x, List.mem_map.mpr hsource, hx⟩

/-- A nested query that is in the scope of the level around it has everything around in use. -/
theorem Nests.covered {outer inner nested : CompiledLevel placement calls} {statement : Statement}
    {name : String} (h : inner.Nests nested name) (hembeds : outer.Embeds inner statement)
    (houter : outer.Covered) (hcontext : nested.query.context = some outer.scope) :
    nested.Covered := by
  intro scope hscope
  rw [h.parent_eq, hcontext] at hscope
  obtain rfl := Option.some.inj hscope
  exact houter.scope.mono fun d hd => h.grows d (hembeds.grows d hd)

/-- An expression that is compiled on its own has no head of a statement. There the entry stays
with the subquery, inside the select of the level that the nested query is in the scope of. -/
theorem Nests.entry_kept {outer inner nested : CompiledLevel .inline calls} {statement : Statement}
    {name : String} (h : inner.Nests nested name) (hembeds : outer.Embeds inner statement) :
    ⟨name, nested.select⟩ ∈ statement.entries := by
  rw [hembeds.keeps rfl]
  exact h.entry

/-- What a row of the level fetches from is bound in the scope of the level. -/
theorem isBound_of_fetchFrom {level : CompiledLevel placement calls} {row r : Row}
    (hrow : row.query = level.query) (hscope : row.scope = level.scope)
    {source association : String} {label : Option String}
    (hfetch : row.fetchFrom source association label = .ok r) :
    level.scope.isBound (row.substitute source) = true := by
  rcases Bool.or_eq_true_iff.mp (Row.isVisible_of_fetchFrom hfetch) with hsource | hbound
  · rw [hrow, Query.hasSource_iff] at hsource
    obtain ⟨d, hd, -⟩ := level.binds.own _ (List.mem_map.mpr hsource)
    exact Scope.isBound_of_resolve hd
  · rwa [hscope] at hbound

/-- A fetched query that is kept nested in another one of the same level: the association's
condition names the source that it was fetched from, which is not among its own. -/
theorem exists_correlation {outer nested : CompiledLevel placement calls}
    (hq : nested.query.Regular) (hcontext : nested.query.context = some outer.scope)
    (hparent : nested.parent = some outer.scope) {row r : Row} (hrow : row.query = outer.query)
    (hscope : row.scope = outer.scope) (hown : row.fetched = false) {source association : String}
    {label : Option String} (hfetch : row.fetchFrom source association label = .ok r)
    (hfilters : r.query.filters ⊆ nested.query.filters) :
    ∃ d, outer.scope.resolve (row.substitute source) = .ok d ∧
      nested.scope.resolve (row.substitute source) = .ok d ∧
      nested.query.hasSource (row.substitute source) = false ∧
      ∃ c ∈ nested.select.conditions, d ∈ c.qualifiers := by
  -- What is bound in the context of a query is none of its own sources.
  have hlabels : row.substitute source ∉ nested.query.sources.map (·.label) := by
    intro hmem
    obtain ⟨s, hs, hlabel⟩ := List.mem_map.mp hmem
    have hfree := hq.unbound _ hcontext s hs
    rw [hlabel, isBound_of_fetchFrom hrow hscope hfetch] at hfree
    cases hfree
  obtain ⟨a, target, label', -, ⟨hfetched, -⟩ | ⟨-, rfl⟩⟩ := Row.fetchFrom_cases hfetch
  · rw [hown] at hfetched
    cases hfetched
  have hmem : a.predicate (row.substitute source) label' ∈ nested.query.filters :=
    hfilters (List.mem_append_right _ (List.mem_singleton_self _))
  obtain ⟨i, hi⟩ := List.mem_iff_getElem?.mp hmem
  obtain ⟨e, c, hcondition, happly, -, -⟩ := nested.exists_condition hi
  obtain ⟨j, hj⟩ := List.mem_iff_getElem?.mp (a.owner_mem_qualifiers rfl happly)
  obtain ⟨d, hd, hresolve⟩ := hcondition.becomes.qualifier hj
  refine ⟨d, resolve_around hlabels hparent ▸ hresolve, hresolve,
    Query.hasSource_eq_false_iff.mpr hlabels, c, ?_, ?_⟩
  · exact List.mem_of_getElem? hcondition.condition
  · exact List.mem_of_getElem? hd

end CompiledLevel

/-- **An entry is out of the scope that its query was built in.** When a query that carries the
scope of a level is kept nested in a subquery of that level, its body stands in an entry at the
head of the statement, and what it refers to is introduced there if it is one of its own sources,
and only then. A fetched query refers to the source that it was fetched from, and so its entry
is always out of scope. -/
theorem hoisted_entry_out_of_scope {q : Query} {text : String} (hsql : q.toSql = .ok text) :
    ∃ (s : Statement) (root : CompiledLevel .hoisted .deep), q.statement = .ok s ∧ s.print = text ∧
      root.query = q ∧ root.Opens s ∧
      ∀ outer around inner statement, root.Inside outer around → outer.Embeds inner statement →
        ∀ label N, ⟨label, .nested N⟩ ∈ inner.query.sources → N.Regular →
          N.context = some outer.scope →
          ∃ (nested : CompiledLevel .hoisted .deep) (name : String), nested.query = N ∧
            ⟨name, nested.select⟩ ∈ s.entries ∧
            List.Forall₂ (fun e c => List.Forall₂ (fun x d => nested.scope.resolve x = .ok d ∧
              (d ∈ nested.select.labels ↔ N.hasSource x)) e.qualifiers c.qualifiers)
              nested.exprs nested.select.exprs ∧
            ∀ (row r : Row) (source association : String) (requested : Option String),
              row.query = outer.query → row.scope = outer.scope → row.fetched = false →
              row.fetchFrom source association requested = .ok r → r.query.filters ⊆ N.filters →
              ∃ d, outer.scope.resolve (row.substitute source) = .ok d ∧
                (∃ c ∈ nested.select.conditions, d ∈ c.qualifiers) ∧
                d ∉ nested.select.labels ∧ ¬ ScopedSelect [] nested.select := by
  obtain ⟨s, root, hs, htext, hquery, hopens⟩ := CompiledLevel.exists_opens hsql
  refine ⟨s, root, hs, htext, hquery, hopens, ?_⟩
  intro outer around inner statement hinside hembeds label N hsource hN hcontext
  obtain ⟨nested, name, rfl, hnests⟩ := inner.exists_nests hsource
  have hsurrounded := hinside.surrounded hopens
  have hcovered := hnests.covered hembeds hsurrounded.covered hcontext
  refine ⟨nested, name, rfl, ?_, ?_, ?_⟩
  · exact hsurrounded.hoists _ (hembeds.hoists rfl _ hnests.entry)
  · refine nested.becomes_exprs.imp fun e c hbecomes => ?_
    exact hbecomes.qualifiers.imp fun x d hx => ⟨hx, hcovered.introduces_iff hN hx⟩
  · intro row r source association requested hrow hscope hown hfetch hfilters
    have hparent : nested.parent = some outer.scope := hnests.parent_eq.trans hcontext
    obtain ⟨d, hd, hresolve, hother, c, hc, hmentions⟩ :=
      CompiledLevel.exists_correlation hN hcontext hparent hrow hscope hown hfetch hfilters
    have hout : d ∉ nested.select.labels := by
      rw [hcovered.introduces_iff hN hresolve, hother]
      simp
    refine ⟨d, hd, ⟨c, hc, hmentions⟩, hout, ?_⟩
    intro hscoped
    cases hscoped with
    | intro hqualifiers =>
      have hexprs : c ∈ nested.select.exprs :=
        List.mem_append_right _ (List.mem_append_right _ (List.mem_append_left _ hc))
      have hmem := hqualifiers c hexprs d hmentions
      rw [List.append_nil] at hmem
      exact hout hmem

/-- Joined to depots and kept nested, the stops of a trip refer to no trip. -/
theorem stops_nested_out_of_scope : ∃ (s : Statement) (root nested : CompiledLevel .hoisted .deep)
    (name d : String), (tripsNextTo .left "depot").statement = .ok s ∧
    root.query = tripsNextTo .left "depot" ∧ root.Opens s ∧ ⟨name, nested.select⟩ ∈ s.entries ∧
    root.scope.resolve "trip" = .ok d ∧ (∃ c ∈ nested.select.conditions, d ∈ c.qualifiers) ∧
    d ∉ nested.select.labels ∧ ¬ ScopedSelect [] nested.select := by
  obtain ⟨text, htext⟩ := except_isOk_iff.mp
    (by decide +kernel : (tripsNextTo .left "depot").toSql.isOk)
  obtain ⟨s, root, hs, -, hquery, hopens, hentries⟩ := hoisted_entry_out_of_scope htext
  obtain ⟨r, -, inner, -, statement, on, hfetch, -, -, hinner, hjoin⟩ :=
    CompiledLevel.exists_stops hquery
  have hfetches : Fetches "trip" root.scope r.query := by
    refine fetches_of_fetchFrom (hquery ▸ regular_tripsNextTo _ _) ?_ hfetch
    rw [hquery]
    rfl
  obtain ⟨label, on, -, -, ⟨table, hmerge, -⟩ | ⟨-, hnested⟩⟩ := Query.joinQuery_cases hjoin
  · rw [hfetches.kept] at hmerge
    cases hmerge
  · obtain ⟨nested, name, -, hentry, -, hout⟩ := hentries root [] inner statement .root hinner label
      r.query (by rw [hnested]; exact List.mem_append_right _ (List.mem_singleton_self _))
      hfetches.regular hfetches.context_eq
    obtain ⟨d, hd, hmentions, hlabels, hscoped⟩ := hout _ r "trip" "stop" none rfl rfl rfl hfetch
      fun _ => id
    exact ⟨s, root, nested, name, d, hs, hquery, hopens, hentry, hd, hmentions, hlabels, hscoped⟩

/-- The entry for the stops names a trip that only the select below it introduces. -/
theorem stops_nested_name_no_trip :
    (tripsNextTo .left "depot").toSql = .ok
      ("WITH \"s\" AS (\n    SELECT *\n    FROM \"stop\" AS \"stop_0\"\n" ++
      "    WHERE \"trip\".\"id\" = (\"stop_0\".\"tripId\")\n)\nSELECT *\n" ++
      "FROM \"trip\" AS \"trip\"\nWHERE (EXISTS (SELECT *\n    FROM \"stop\" AS \"stop\"\n" ++
      "    WHERE \"trip\".\"id\" = (\"stop\".\"tripId\")))\n    AND (EXISTS (SELECT *\n" ++
      "    FROM \"depot\" AS \"depot\"\n        LEFT JOIN \"s\" AS \"s\" ON TRUE))") := by
  decide +kernel

end Sql

end QueryBuilder
