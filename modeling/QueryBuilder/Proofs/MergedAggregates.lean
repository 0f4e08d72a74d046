import QueryBuilder.Proofs.MergedSelections

/-! Aggregates over the row of a merged query.

A row that has not been fetched stands for its level, and an aggregate of it ranges over the query
of this level. When a query is joined and kept nested, its selections are asked for in a level of
its own, and its aggregates range over the query itself. When it is merged, they are asked for in
the level of the joining query: the row they are called with takes its default source and its names
from the merged query, but its query is the joining one. -/
namespace QueryBuilder

/-- The queries that an aggregate of the row embeds, or the question whether it has any rows. -/
inductive Row.Asks (row : Row) : Query → Prop
  | aggregate {function : Aggregate} {column : String} {q : Query} :
      q ∈ (row.aggregate function column).subqueries → Asks row q
  | existsRow {q : Query} : q ∈ row.existsRow.subqueries → Asks row q

/-- Such a query differs from that of the row in what it selects. -/
theorem Row.Asks.exists_select {row : Row} {q : Query} (h : row.Asks q) :
    ∃ p, q = row.query.select p := by
  cases h with
  | aggregate hq | existsRow hq => exact ⟨_, List.mem_singleton.mp hq⟩

namespace Sql
variable {placement : EntryPlacement} {calls : Calls}

/-- The select of the level ranges over this query: it reads the sources of the query in their
order, joined as they are there, under the conditions that its filters give. -/
structure CompiledLevel.RangesOver (level : CompiledLevel placement calls) (q : Query) : Prop where
  reads : List.Forall₂ (fun (s : Source) (item : TableItem) => ReadAs s.data item.table) q.sources
    level.select.tables
  kinds : level.select.joins.map (·.kind) = q.joins.map (·.kind)
  conditions : List.Forall₂
    (fun p c => ∃ e, p.apply calls level.row = .ok e ∧ level.Becomes e c) q.filters
    level.select.conditions

theorem CompiledLevel.ranges_over_own {level : CompiledLevel placement calls}
    (hq : level.query.Regular) : level.RangesOver level.query := by
  refine ⟨?_, ?_, ?_⟩
  · obtain ⟨items, hitems, hreads⟩ := visits_read hq.nodup level.run.visits
    rwa [tables_eq_of_itemsFor hq hitems level.run.base level.run.joins]
  · have hkinds : List.Forall₂ (· = ·) (level.query.joins.map (·.kind))
        (level.select.joins.map (·.kind)) := by
      rw [List.forall₂_map_left_iff, List.forall₂_map_right_iff]
      exact level.run.joins.imp fun _ _ hjoin => hjoin.2.symm
    rw [List.forall₂_eq_eq_eq] at hkinds
    exact hkinds.symm
  · obtain ⟨given, hgiven, hbecomes, -⟩ := level.exists_given
    exact forall₂_comp hgiven hbecomes

theorem CompiledLevel.RangesOver.length_eq {level : CompiledLevel placement calls} {q : Query}
    (h : level.RangesOver q) : q.sources.length = level.select.tables.length :=
  h.reads.length_eq

/-- What a row asks for ranges over the query of the row. -/
theorem CompiledLevel.Becomes.ranges {host : CompiledLevel placement calls} {e : Expr Query}
    {e' : Expr Statement} (h : host.Becomes e e') {row : Row} (hrow : row.query.Regular)
    {q : Query} (hq : q ∈ e.subqueries) (hasks : row.Asks q) :
    ∃ (inner : CompiledLevel placement calls) (statement : Statement), inner.query = q ∧
      statement ∈ e'.subqueries ∧ host.Embeds inner statement ∧ inner.RangesOver row.query := by
  obtain ⟨inner, statement, hinner, hmem, hembeds⟩ := h.embeds hq
  obtain ⟨p, rfl⟩ := hasks.exists_select
  have hregular : inner.query.Regular := hinner ▸ hrow.of_eq rfl rfl rfl rfl rfl
  obtain ⟨hreads, hkinds, hconditions⟩ := CompiledLevel.ranges_over_own hregular
  rw [hinner] at hreads hkinds hconditions
  exact ⟨inner, statement, hinner, hmem, hembeds, hreads, hkinds, hconditions⟩

/-- What a merged query selects is listed in the level of the joining query. -/
theorem CompiledLevel.exists_merged_listing {depth : Nat}
    (level : CompiledLevel placement (.within (depth + 1))) {target : Query} {label : String}
    {projections : List Projection} {listed : List Selection} {items : List SelectItem}
    (hselects : level.row.Selects (.within (depth + 1))
      (projections ++ target.mergedProjections label) listed)
    (hlists : List.Forall₂ level.Lists listed items) :
    ∃ selections, (target.atMerged label level.row).Selects (.within depth) target.projections
        selections ∧
      ∀ t ∈ selections, ∃ item ∈ items, level.Becomes t.expr item.expr := by
  by_cases hnone : target.projections = []
  · rw [hnone]
    exact ⟨[], Row.selects_nil_iff.mpr rfl, by simp⟩
  · obtain ⟨own, merged, -, hmerged, rfl⟩ := hselects.of_append
    obtain ⟨added, hadded, rfl⟩ := hmerged.of_merged hnone
    obtain ⟨front, back, -, hback, rfl⟩ := exists_append_of_forall₂ hlists
    refine ⟨added, hadded, fun t ht => ?_⟩
    obtain ⟨item, hitem, -, hbecomes⟩ := exists_of_forall₂ (lists_under hback).flip ht
    exact ⟨item, List.mem_append_right _ hitem, hbecomes⟩

/-- **What a merged query asks of its own row, it asks of the joining query.** The projections of a
joined query are called in the level of the joining query if it is merged, with the row of this
level under the names of the merged query, and otherwise in a level of its own, with the row of
that. Whatever aggregate of this row they select, or whether it has any rows, the subquery that is
listed for it ranges over the query of the row: over all sources of the joining query, joined and
restricted as there, if the query is merged; over the query itself if it is kept nested, and only
then. -/
theorem merged_aggregate_ranges_iff {parent target joined : Query} {options : JoinOptions}
    (hparent : parent.Regular) (htarget : target.Regular) (hprojections : parent.projections ≠ [])
    (hjoined : parent.joinQuery target options = .ok joined) {calls depth : Nat} {q : Query}
    (hq : q.Regular) (hsources : joined.sources <+: q.sources)
    (hlist : q.projections = joined.projections) {outer : Option Scope} {n n' : Names} {s : Select}
    (h : compileLevel placement (.within (calls + 1)) depth q outer n = .ok (s, n')) :
    ∃ (label : String) (level host : CompiledLevel placement (.within (calls + 1))) (row : Row)
      (fewer : Nat) (selections : List Selection),
      parent.claimAlias (target.name.getD target.defaultSource) options.label = .ok label ∧
      level.query = q ∧ level.select = s ∧
      ((target.mergeableTable options.kind).isSome ∧ host = level ∧
          row = target.atMerged label level.row ∨
        target.mergeableTable options.kind = none ∧ host.query = target ∧ row = host.row ∧
          ∃ name, level.Nests host name) ∧
      row.Selects (.within fewer) target.projections selections ∧
      ∀ t ∈ selections, ∃ item ∈ host.select.items, host.Becomes t.expr item.expr ∧
        ∀ asked ∈ t.expr.subqueries, row.Asks asked →
          ∃ (inner : CompiledLevel placement (.within (calls + 1))) (statement : Statement),
            inner.query = asked ∧ statement ∈ item.expr.subqueries ∧
            statement.body = inner.select ∧ host.Embeds inner statement ∧
            inner.RangesOver row.query ∧
            (inner.RangesOver target ↔ target.mergeableTable options.kind = none) := by
  obtain ⟨level, listed, hquery, -, -, hselect, -, hselects, hlists⟩ := CompiledLevel.exists_listing h
  obtain ⟨label, on, hclaim, -, ⟨table, htable, rfl⟩ | ⟨hkept, rfl⟩⟩ := Query.joinQuery_cases hjoined
  · have hselected : q.projections = parent.projections ++ target.mergedProjections label := by
      rw [hlist]
      simp [Query.absorb, Query.attach, hprojections]
    rw [hselected] at hselects
    obtain ⟨selections, hselections, hitems⟩ := level.exists_merged_listing hselects hlists
    have hregular : level.query.Regular := hquery ▸ hq
    refine ⟨label, level, level, target.atMerged label level.row, calls, selections, hclaim, hquery,
      hselect, .inl ⟨by simp [htable], rfl, rfl⟩, hselections, fun t ht => ?_⟩
    obtain ⟨item, hitem, hbecomes⟩ := hitems t ht
    refine ⟨item, hselect ▸ hitem, hbecomes, fun asked hasked hasks => ?_⟩
    obtain ⟨inner, statement, hinner, hmem, hembeds, hranges⟩ :=
      hbecomes.ranges hregular hasked hasks
    refine ⟨inner, statement, hinner, hmem, hembeds.body_eq, hembeds, hranges,
      iff_of_false (fun htable' => ?_) (by simp [htable])⟩
    -- The joining query has a source of its own besides the merged one.
    obtain ⟨base, rest, hbase⟩ : ∃ base rest, parent.sources = base :: rest := by
      obtain ⟨name, relation, rest, hbase, -⟩ := hparent.sources
      exact ⟨_, rest, hbase⟩
    obtain ⟨own, hown⟩ := Query.sources_of_mergeableTable htable
    have hone := htable'.length_eq
    have hmany := hranges.length_eq
    have hlength := hsources.length_le
    have hquery' : (target.atMerged label level.row).query = q := hquery
    rw [hquery'] at hmany
    simp only [Query.absorb, Query.attach, List.length_append, hbase, List.length_cons,
      List.length_nil] at hlength
    rw [hown, List.length_singleton] at hone
    omega
  · have hnested : ⟨label, .nested target⟩ ∈ level.query.sources := by
      rw [hquery]
      exact hsources.subset (List.mem_append_right _ (List.mem_singleton_self _))
    obtain ⟨name, m, body, m', hm, hrun, hentry, hpending⟩ := level.exists_nested_run hnested
    obtain ⟨host, selections, rfl, hhost, rfl, rfl, rfl, hselections, hitems⟩ :=
      CompiledLevel.exists_listing hrun
    refine ⟨label, level, host, host.row, calls + 1, selections, hclaim, hquery, hselect,
      .inr ⟨hkept, rfl, rfl, name, hhost, hm.used, hentry, hpending⟩, hselections, ?_⟩
    intro t ht
    obtain ⟨item, hitem, hlists⟩ := exists_of_forall₂ hitems.flip ht
    refine ⟨item, hitem, hlists.becomes, fun asked hasked hasks => ?_⟩
    obtain ⟨inner, statement, hinner, hmem, hembeds, hranges⟩ :=
      hlists.becomes.ranges htarget hasked hasks
    exact ⟨inner, statement, hinner, hmem, hembeds.body_eq, hembeds, hranges,
      iff_of_true hranges hkept⟩

/-! ### Counting the stops of trips -/

/-- How many stops there are, for every stop. -/
def totalledStops : Query :=
  (Query.ofTable "stops").select ⟨[.item (.aggregate .count "id" (.up 0)) (some "total")], []⟩

theorem regular_totalledStops : totalledStops.Regular :=
  (Query.regular_ofSource "stops" "stops" none).of_eq rfl rfl rfl rfl rfl

/-- Next to the day of a trip, the stops are counted over all sources of the joined query. -/
theorem totalledStops_range_over_trips : ∃ (flat : Query) (s : Statement)
    (level inner : CompiledLevel .hoisted .deep) (statement : Statement),
    (Query.ofTable "trips" none ["day"]).joinQuery totalledStops (everywhere none) = .ok flat ∧
    flat.statement = .ok s ∧ level.query = flat ∧ level.select = s.body ∧
    (∃ item ∈ s.body.items, statement ∈ item.expr.subqueries) ∧ level.Embeds inner statement ∧
    inner.RangesOver flat ∧ ¬ inner.RangesOver totalledStops := by
  obtain ⟨flat, hflat, hok⟩ := except_map_eq_ok_iff.mp (by decide +kernel :
    ((Query.ofTable "trips" none ["day"]).joinQuery totalledStops (everywhere none)).map
      (fun flat => flat.statement.isOk) = .ok true)
  obtain ⟨s, hs⟩ := except_isOk_iff.mp hok
  obtain ⟨names, hrun, -⟩ := statementWithin_run hs
  have hparent : (Query.ofTable "trips" none ["day"]).Regular :=
    (Query.regular_ofSource "trips" "trips" none).of_eq rfl rfl rfl rfl rfl
  have hjoin : (Query.ofTable "trips" none ["day"]).join (.query totalledStops) (everywhere none) =
      .ok flat := hflat
  have hregular : flat.Regular := hparent.join hjoin
  obtain ⟨label, level, host, row, fewer, selections, -, hquery, hselect, hhost, hselections,
      hlisted⟩ :=
    merged_aggregate_ranges_iff hparent regular_totalledStops (by decide) hflat hregular
      (List.prefix_refl _) rfl hrun
  obtain ⟨-, rfl, rfl⟩ | ⟨hkept, -⟩ := hhost
  swap
  · exact absurd hkept (by decide)
  -- The only selection is the aggregate of the row.
  have hcounted : selections = [⟨(totalledStops.atMerged label host.row).aggregate .count "id",
      some "total"⟩] := Row.Selects.unique ⟨_, .cons rfl .nil, rfl⟩ hselections
  rw [hcounted] at hlisted
  obtain ⟨item, hitem, -, hasked⟩ := hlisted _ (List.mem_singleton_self _)
  obtain ⟨inner, statement, -, hmem, -, hembeds, hranges, hiff⟩ :=
    hasked _ (List.mem_singleton_self _) (.aggregate (List.mem_singleton_self _))
  refine ⟨flat, _, host, inner, statement, hflat, hs, hquery, hselect, ⟨item, hselect ▸ hitem, hmem⟩,
    hembeds, ?_, fun hover => absurd (hiff.mp hover) (by decide)⟩
  have hown : (totalledStops.atMerged label host.row).query = flat := hquery
  exact hown ▸ hranges

/-- On their own, and kept nested, the stops are counted over the stops; merged, they are counted
over the trips and their stops. -/
theorem totalledStops_range_differently :
    totalledStops.toSql = .ok ("SELECT (SELECT COUNT(\"stops_0\".\"id\") AS \"count\"\n" ++
      "    FROM \"stops\" AS \"stops_0\") AS \"total\"\nFROM \"stops\" AS \"stops\"") ∧
    (∃ nested, (Query.ofTable "trips" none ["day"]).joinQuery (totalledStops.take 5)
        (everywhere none) = .ok nested ∧
      nested.toSql = .ok ("WITH \"stops_0\" AS (\n" ++
        "    SELECT (SELECT COUNT(\"stops_1\".\"id\") AS \"count\"\n" ++
        "        FROM \"stops\" AS \"stops_1\"\n        LIMIT 5) AS \"total\"\n" ++
        "    FROM \"stops\" AS \"stops\"\n    LIMIT 5\n)\nSELECT \"trips\".\"day\"\n" ++
        "FROM \"trips\" AS \"trips\"\n    INNER JOIN \"stops_0\" AS \"stops_0\" ON TRUE")) ∧
    ∃ flat, (Query.ofTable "trips" none ["day"]).joinQuery totalledStops (everywhere none) =
        .ok flat ∧
      flat.toSql = .ok ("SELECT \"trips\".\"day\",\n" ++
        "    (SELECT COUNT(\"stops_0\".\"id\") AS \"count\"\n" ++
        "    FROM \"trips\" AS \"trips_0\"\n" ++
        "        INNER JOIN \"stops\" AS \"stops_0\" ON TRUE) AS \"stops.total\"\n" ++
        "FROM \"trips\" AS \"trips\"\n    INNER JOIN \"stops\" AS \"stops\" ON TRUE") :=
  ⟨by decide +kernel, except_map_eq_ok_iff.mp (by decide +kernel),
    except_map_eq_ok_iff.mp (by decide +kernel)⟩

end Sql

end QueryBuilder
