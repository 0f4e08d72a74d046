import QueryBuilder.Proofs.MergedSelections
import QueryBuilder.Proofs.NarrowedRows

/-! The argument of an aggregate.

An aggregate reads a column of its row and embeds the query of the row. The column has the name of
the row's default source, as the row's substitutions have it, and the subquery looks this name up in
its own level first. So the argument belongs to the subquery if the name is one of the query's own
sources. Default source, substitutions and query of a row are set by different hands: a row that is
handed to a callback has all three from its level, a merged one has its default and a substitution
from the query that was merged, a fetched one has a query of its own. Each of them keeps the three
together, and so do following associations and narrowing (`Row.Anchored`).

A callback that has been merged can also be called by hand, for any row there is. It puts the alias
that it has been merged under for the name of its source, whether the row's query has this alias or
not. -/
namespace QueryBuilder

/-! ### Rows and their default sources -/

/-- Rows that are made of a query or handed to a callback, and those that one gets at from there by
following associations, by narrowing, and by calling merged callbacks by hand. The names are those
that the latter have put for the names of their sources. -/
inductive Row.Obtained : Row → List String → Prop
  | handed {r : Row} : r.Handed → r.query.Regular → Obtained r []
  | fetch {r r' : Row} {placed : List String} {source name : String} {label : Option String} :
      Obtained r placed → r.fetchFrom source name label = .ok r' → Obtained r' placed
  | filter {r : Row} {placed : List String} (condition : Predicate) :
      Obtained r placed → Obtained (r.filter condition) placed
  | merged {r : Row} {placed : List String} {target : Query} (label : String) :
      Obtained r placed → target.defaultSource = target.baseSource →
      Obtained (target.atMerged label r) (r.substitute label :: placed)

/-- What the row has by default is a source of its query or one of the names, and so is whatever
stands for another name in it. -/
structure Row.Anchored (r : Row) (placed : List String) : Prop where
  regular : r.Regular
  source : r.query.hasSource r.origin ∨ r.origin ∈ placed
  substituted : ∀ x, r.substitute x = x ∨
    (r.query.hasSource (r.substitute x) ∨ r.substitute x ∈ placed)

/-- A merged callback replaces the name of its source, and leaves all others to the row. -/
theorem Row.substitute_atMerged (target : Query) (label : String) (r : Row) (x : String) :
    (target.atMerged label r).substitute x =
      if x = target.baseSource then r.substitute label else r.substitute x := by
  unfold Query.atMerged
  rw [substitute_substituting, Std.TreeMap.ofList_singleton, Std.TreeMap.getD_insert]
  by_cases hx : x = target.baseSource
  · simp [hx, substitute, rebase]
  · have hx' : target.baseSource ≠ x := fun h => hx h.symm
    simp [hx, hx', substitute, rebase]

theorem Row.origin_atMerged {target : Query} (hdefault : target.defaultSource = target.baseSource)
    (label : String) (r : Row) : (target.atMerged label r).origin = r.substitute label := by
  show (target.atMerged label r).substitute target.defaultSource = _
  rw [substitute_atMerged, if_pos hdefault]

namespace Row.Anchored
variable {r r' : Row} {placed : List String}

theorem of_plain (hregular : r.Regular) (hplain : r.substitutions = [])
    (hsource : r.query.hasSource r.defaultSource) : r.Anchored placed :=
  ⟨hregular, .inl (by rwa [origin, substitute_nil hplain]),
    fun x => .inl (substitute_nil hplain x)⟩

theorem mono (h : r.Anchored placed) {placed' : List String} (hsubset : placed ⊆ placed') :
    r.Anchored placed' where
  regular := h.regular
  source := h.source.imp_right (hsubset ·)
  substituted x := (h.substituted x).imp_right (·.imp_right (hsubset ·))

theorem merged (h : r.Anchored placed) {target : Query}
    (hdefault : target.defaultSource = target.baseSource) {label : String}
    (hlabel : r.query.hasSource (r.substitute label) ∨ r.substitute label ∈ placed) :
    (target.atMerged label r).Anchored placed := by
  refine ⟨⟨h.regular.query, h.regular.context⟩, ?_, fun x => ?_⟩
  · rw [origin_atMerged hdefault]
    exact hlabel
  · rw [substitute_atMerged]
    by_cases hx : x = target.baseSource
    · rw [if_pos hx]
      exact .inr hlabel
    · rw [if_neg hx]
      exact h.substituted x

/-- The start: a row of a level, its own one or a merged one, or of a query by itself. -/
theorem of_handed (h : r.Handed) (hquery : r.query.Regular) : r.Anchored [] := by
  have hplain : ∀ {q : Query} (scope : Scope), q.Regular → (bound q scope).Anchored [] :=
    fun _ hq => .of_plain ⟨hq, by simp [bound]⟩ rfl hq.hasSource_default
  cases h with
  | made q => exact hplain _ hquery
  | received hreceives =>
    cases hreceives with
    | own => exact hplain _ hquery
    | merged hdefault hlabel => exact (hplain _ hquery).merged hdefault (.inl hlabel)

/-- The steps: the target of an association is a source of the query it is joined to, or of the one
that begins with it. -/
theorem fetchFrom (h : r.Anchored placed) {source name : String} {label : Option String}
    (hfetch : r.fetchFrom source name label = .ok r') : r'.Anchored placed := by
  have hregular := h.regular.fetchFrom hfetch
  obtain ⟨-, link, -, -, -, -, hr'⟩ := fetchFrom_run hfetch
  by_cases hfetched : r.fetched = true
  · rw [if_pos hfetched] at hr'
    subst hr'
    have hsubstituted : ∀ x, r.substitute x = x ∨
        ((r.query.attach link.source (link.association.joinClause (r.substitute source) link.label
          .inner)).hasSource (r.substitute x) ∨ r.substitute x ∈ placed) := by
      intro x
      rw [Query.hasSource_attach, Bool.or_eq_true]
      exact (h.substituted x).imp_right (·.imp_left .inl)
    refine ⟨hregular, ?_, hsubstituted⟩
    rcases hsubstituted link.label with hsame | hother
    · left
      show Query.hasSource _ (r.substitute link.label) = true
      rw [hsame, Query.hasSource_attach]
      simp [FetchLink.source]
    · exact hother
  · rw [if_neg hfetched] at hr'
    subst hr'
    refine .of_plain hregular rfl ?_
    simp [Query.hasSource, Query.source?, Query.chain, FetchLink.source]

theorem filter (h : r.Anchored placed) (condition : Predicate) :
    (r.filter condition).Anchored placed where
  regular := ⟨h.regular.query.of_eq rfl rfl rfl rfl rfl, h.regular.context⟩
  source := h.source
  substituted := h.substituted

end Row.Anchored

/-- The run: so it is for all of these rows. -/
theorem Row.Obtained.anchored {r : Row} {placed : List String} (h : r.Obtained placed) :
    r.Anchored placed := by
  induction h with
  | handed hhanded hquery => exact .of_handed hhanded hquery
  | fetch _ hfetch ih => exact ih.fetchFrom hfetch
  | filter condition _ ih => exact ih.filter condition
  | merged label _ hdefault ih =>
    exact (ih.mono (List.subset_cons_self ..)).merged hdefault (.inr (List.mem_cons_self ..))

namespace Sql
variable {placement : EntryPlacement} {calls : Calls}

/-! ### Compiled aggregates -/

/-- The select has one item, the function over the column of an item of its own. -/
structure Select.Aggregates (s : Select) (function : Aggregate) (column display : String) :
    Prop where
  items_eq : s.items =
    [⟨.unary (function.function ++ "(") (.column display column) ")", some function.label⟩]
  own : display ∈ s.labels

/-- A function of a column becomes the function of the column under the source's alias. -/
theorem CompiledLevel.becomes_function (level : CompiledLevel placement calls)
    {source name before after : String} {e : Expr Statement}
    (h : level.Becomes (.unary before (.column source name) after) e) :
    ∃ d, level.scope.resolve source = .ok d ∧ e = .unary before (.column d name) after := by
  obtain ⟨n, n', -, -, h⟩ := h
  cases resolves_of_run h with
  | unary hoperand =>
    cases hoperand with
    | column hdisplay => exact ⟨_, hdisplay, rfl⟩

/-- The argument is written under the alias of the row's default source, which the level has named
itself. -/
theorem compileLevel_aggregate {r : Row} (hregular : r.query.Regular)
    (hsource : r.query.hasSource r.origin) {function : Aggregate} {column : String} {q : Query}
    (hq : q ∈ (r.aggregate function column).subqueries) {depth : Nat} {parent : Option Scope}
    {n n' : Names} {s : Select}
    (h : compileLevel placement calls depth q parent n = .ok (s, n')) :
    ∃ (level : CompiledLevel placement calls) (d : String), level.query = q ∧ level.select = s ∧
      level.scope.resolve r.origin = .ok d ∧ s.Aggregates function column d ∧ d ∉ n.used := by
  obtain rfl := List.mem_singleton.mp hq
  obtain ⟨level, selections, hquery, -, hbefore, hselect, -, hselects, hlists⟩ :=
    CompiledLevel.exists_listing h
  obtain rfl := Row.Selects.unique ⟨_, .cons rfl .nil, rfl⟩ hselects
  obtain ⟨item, hitem, hitems⟩ : ∃ item, level.Lists
      ⟨.unary (function.function ++ "(") (r.column column) ")", some function.label⟩ item ∧
      s.items = [item] := by
    generalize s.items = items at hlists
    cases hlists with
    | cons hitem hnil =>
      cases hnil
      exact ⟨_, hitem, rfl⟩
  obtain ⟨d, hresolve, hexpr⟩ := level.becomes_function hitem.becomes
  have hown : level.query.hasSource r.origin := hquery ▸ hsource
  have hlevel : level.query.Regular := hquery ▸ hregular.of_eq rfl rfl rfl rfl rfl
  obtain ⟨hnew, -⟩ := CompiledLevel.used_of_resolve hown hresolve
  refine ⟨level, d, hquery, hselect, hresolve, ⟨?_, ?_⟩, hbefore ▸ hnew⟩
  · have hlabel : item.label = some function.label := hitem.label_eq
    rw [hitems]
    cases item
    rw [← hexpr, ← hlabel]
  · rw [← hselect, CompiledLevel.mem_labels_iff hlevel]
    exact ⟨_, List.mem_map.mpr (Query.hasSource_iff.mp hown), hresolve⟩

/-- **The argument of an aggregate is bound inside its own subquery.** For every row that is made of
a query, handed to a callback or got at from there by following associations, narrowing and calling
merged callbacks, the name of what it has by default is a source of its query, unless a callback
that was called by hand has put it there and the query has no such source. Wherever an aggregate of
the row is compiled otherwise, in the course of a level or in an expression by itself, the argument
is written under the alias of an item of the subquery's own select, which is that of no source of a
level around, nor in use there for anything else. -/
theorem aggregate_binds_inside {r : Row} {placed : List String} (hr : r.Obtained placed) :
    (r.query.hasSource r.origin ∨ r.origin ∈ placed) ∧
    ∀ (function : Aggregate) (column : String) (q : Query), r.query.hasSource r.origin →
      q ∈ (r.aggregate function column).subqueries →
      (∀ (placement : EntryPlacement) (calls : Calls) (outer : CompiledLevel placement calls)
        (e : Expr Query) (e' : Expr Statement), outer.Becomes e e' → q ∈ e.subqueries →
        ∃ (level : CompiledLevel placement calls) (statement : Statement) (d : String),
          level.query = q ∧ level.select = statement.body ∧ statement ∈ e'.subqueries ∧
          level.scope.resolve r.origin = .ok d ∧ statement.body.Aggregates function column d ∧
          d ∉ outer.visited.used ∧
          ∀ top, top = outer ∨ top.Below outer → ∀ x, top.query.hasSource x →
            top.scope.resolve x ≠ .ok d) ∧
      ∀ (scope : Scope) (e : Expr Query) (e' : Expr Statement), e.resolved scope = .ok e' →
        q ∈ e.subqueries →
        ∃ (level : CompiledLevel .inline .deep) (statement : Statement) (d : String),
          level.query = q ∧ level.select = statement.body ∧ statement ∈ e'.subqueries ∧
          level.scope.resolve r.origin = .ok d ∧ statement.body.Aggregates function column d ∧
          d ∉ scope.displayAliases := by
  have hanchored := hr.anchored
  refine ⟨hanchored.source, fun function column q hsource hq => ⟨?_, ?_⟩⟩
  · intro placement calls outer e e' hbecomes hmem
    obtain ⟨n, n', statement, hn, hstatement, hrun⟩ := hbecomes.compiles hmem
    obtain ⟨level, d, hquery, hselect, hresolve, haggregates, hnew⟩ :=
      compileLevel_aggregate hanchored.regular.query hsource hq hrun
    have hfree : d ∉ outer.visited.used := fun hd => hnew (hn d hd)
    refine ⟨level, statement, d, hquery, hselect, hstatement, hresolve, haggregates, hfree, ?_⟩
    intro top htop x hx hd
    have hused := (CompiledLevel.used_of_resolve hx hd).2
    rcases htop with rfl | hbelow
    · exact hfree hused
    · exact hfree (outer.before_subset_visited _ (hbelow.subset _ hused))
  · intro scope e e' hresolved hmem
    obtain ⟨⟨_, n'⟩, hresolves, rfl⟩ := except_map_eq_ok_iff.mp hresolved
    obtain ⟨n, n'', statement, hn, hstatement, hrun⟩ := exists_compiled_subquery hresolves hmem
    obtain ⟨level, d, hquery, hselect, hresolve, haggregates, hnew⟩ :=
      compileLevel_aggregate hanchored.regular.query hsource hq hrun
    refine ⟨level, statement, d, hquery, hselect, hstatement, hresolve, haggregates, fun hd => ?_⟩
    exact hnew (hn d (mem_reserving.mpr hd))

theorem regular_lateRoutes : lateRoutes.Regular :=
  (Query.regular_ofSource "route" "route" (some ⟨routeNetwork, 0, by decide⟩)).of_eq rfl rfl rfl rfl
    rfl

/-- The largest delay of the stops of a route's trips is one of the stops in the subquery. -/
theorem lateRoutes_bind_delay : ∃ (root : CompiledLevel .hoisted .deep) (f : Row) (e : Expr Query)
    (e' : Expr Statement) (statement : Statement) (d : String), root.query = lateRoutes ∧
    root.Condition 0 e e' ∧ f.Obtained [] ∧ f.query.hasSource f.origin ∧ statement ∈ e'.subqueries ∧
    statement.body.Aggregates .max "delay" d ∧ root.scope.resolve "route" ≠ .ok d := by
  obtain ⟨text, htext⟩ := except_isOk_iff.mp (by decide +kernel : lateRoutes.toSql.isOk)
  obtain ⟨-, root, -, -, hquery, -⟩ := CompiledLevel.exists_opens htext
  have hfilters : root.query.filters = lateRoutes.filters := by rw [hquery]
  obtain ⟨e, e', hcondition, he, -, -⟩ := root.exists_condition (i := 0) (by rw [hfilters]; rfl)
  simp only [Predicate.apply, ExprTerm.evaluate, RowTerm.evaluate, noting_except, stopsOfTrips,
    except_bind_eq_ok_iff, except_pure_eq_ok_iff, liftError_eq_ok_iff, Option.getD_none] at he
  obtain ⟨_, ⟨_, ⟨f, ⟨trips, ⟨row, hrow, htrips⟩, hstops⟩, rfl⟩, rfl⟩, _, rfl, rfl⟩ := he
  obtain rfl := Except.ok.inj hrow
  have hregular : root.row.query.Regular := by
    rw [show root.row.query = lateRoutes from hquery]
    exact regular_lateRoutes
  have hobtained : Row.Obtained (f.filter ⟨isLate, [root.row]⟩) [] :=
    .filter _ (.fetch (.fetch (.handed (.received .own) hregular) htrips) hstops)
  obtain ⟨hplaced, haggregates⟩ := aggregate_binds_inside hobtained
  have hsource := hplaced.resolve_right List.not_mem_nil
  obtain ⟨-, statement, d, -, -, hstatement, -, haggregate, -, hapart⟩ :=
    (haggregates .max "delay" _ hsource (List.mem_singleton_self _)).1 _ _ _ _ _ hcondition.becomes
      (List.mem_append_left _ (List.mem_singleton_self _))
  have hroute : root.query.hasSource "route" := by
    rw [hquery]
    rfl
  exact ⟨root, _, _, e', statement, d, hquery, hcondition, hobtained, hsource, hstatement,
    haggregate, hapart root (.inl rfl) "route" hroute⟩

/-- Stops and how many there are. -/
def numberedStops : Query :=
  (Query.ofTable "stop").select ⟨[.item (.aggregate .count "id" (.up 0)) (some "number")], []⟩

theorem routeNetwork_inhabited : 0 < routeNetwork.schema.relations.length := by decide

/-- Routes that call their second projection for the trips that they fetch. -/
def countingRoutes : Query :=
  (Query.ofRelation ⟨routeNetwork, 0, routeNetwork_inhabited⟩).select
    ⟨[.callProjection (.ofRow (.up 0)) 1 (.fetch (.up 0) none "trip" none)], []⟩

/-- Where the query of the row has no such source, the callback refers to a level around its own:
the routes count, among the trips, the stops that they are joined with. -/
theorem numberedStops_bind_outside :
    (∃ flat f, countingRoutes.joinQuery numberedStops (everywhere (some "late")) = .ok flat ∧
      (Row.ofQuery flat).fetchFrom "route" "trip" none = .ok f ∧
      (numberedStops.atMerged "late" f).Obtained ["late"] ∧
      (numberedStops.atMerged "late" f).query.hasSource
        (numberedStops.atMerged "late" f).origin = false) ∧
    (countingRoutes.joinQuery numberedStops (everywhere (some "late"))).map Query.toSql = .ok (.ok
      ("SELECT (SELECT COUNT(\"late\".\"id\") AS \"count\"\n    FROM \"trip\" AS \"trip\"\n" ++
      "    WHERE \"route\".\"id\" = (\"trip\".\"routeId\")) AS \"late.number\",\n" ++
      "    (SELECT COUNT(\"late_0\".\"id\") AS \"count\"\n    FROM \"route\" AS \"route_0\"\n" ++
      "        INNER JOIN \"stop\" AS \"late_0\" ON TRUE) AS \"late.number\"\n" ++
      "FROM \"route\" AS \"route\"\n    INNER JOIN \"stop\" AS \"late\" ON TRUE")) := by
  have hroutes : countingRoutes.Regular :=
    (Query.regular_ofSource "route" "route" (some ⟨routeNetwork, 0, routeNetwork_inhabited⟩)).of_eq
      rfl rfl rfl rfl rfl
  have hrun : (do
      let flat ← countingRoutes.joinQuery numberedStops (everywhere (some "late"))
      let f ← (Row.ofQuery flat).fetchFrom "route" "trip" none
      return (f.substitute "late", f.query.hasSource "late")) = .ok ("late", false) := by
    decide +kernel
  simp only [except_bind_eq_ok_iff, except_pure_eq_ok_iff, Prod.mk.injEq] at hrun
  obtain ⟨flat, hflat, f, hf, hlate, hsource⟩ := hrun
  have hjoin : countingRoutes.join (.query numberedStops) (everywhere (some "late")) = .ok flat :=
    hflat
  have hregular : flat.Regular := hroutes.join hjoin
  have hfetched : f.Obtained [] := .fetch (.handed (.made flat) hregular) hf
  refine ⟨⟨flat, f, hflat, hf, ?_, ?_⟩, by decide +kernel⟩
  · have hmerged : (numberedStops.atMerged "late" f).Obtained [f.substitute "late"] :=
      .merged "late" hfetched rfl
    rwa [← hlate] at hmerged
  · rw [Row.origin_atMerged rfl, ← hlate]
    exact hsource.symm

end Sql

end QueryBuilder
