import QueryBuilder.Proofs.FetchChains

/-! Narrowing the rows at the end of a chain.

A fetched row and its query each have a default source. The first association that is followed
makes both of them its target. Every further one adds its target to the query and moves the row
there, while the default source of the query stays where the chain started. A condition that
narrows the row is called much later, by the level that compiles the query, and with the row of
this level: it speaks about the source in which the chain started, and not about the one at its
end that an aggregate of the same row reads. -/
namespace QueryBuilder

/-! ### The two default sources -/

/-- The row stands at the end of so many associations that have been followed from `r`, each from
whatever source and under whatever alias, and has been narrowed anywhere on the way. -/
inductive Row.LeadsTo (r : Row) : Nat → Row → Prop
  | first {f source name label} : r.fetched = false → r.fetchFrom source name label = .ok f →
      LeadsTo r 1 f
  | next {count f f' source name label} : LeadsTo r count f →
      f.fetchFrom source name label = .ok f' → LeadsTo r (count + 1) f'
  | filter {count f} (condition : Predicate) : LeadsTo r count f →
      LeadsTo r count (f.filter condition)

/-- The sources of the row's query are those of the links, whose aliases differ. The query has the
first of them for a default, the row the last. -/
structure Row.EndOf (f : Row) (first : FetchLink) (rest : List FetchLink) : Prop where
  fetched : f.fetched = true
  plain : f.substitutions = []
  sources_eq : f.query.sources = (first :: rest).map FetchLink.source
  start_eq : f.query.defaultSource = first.label
  default_eq : f.defaultSource = (rest.getLastD first).label
  nodup : ((first :: rest).map (·.label)).Nodup

namespace Row.EndOf
variable {f f' : Row} {first : FetchLink} {rest : List FetchLink}

theorem labels_eq (h : f.EndOf first rest) :
    f.query.sources.map (·.label) = (first :: rest).map (·.label) := by
  rw [h.sources_eq, List.map_map]
  rfl

/-- The query has the relation of a link behind its alias. -/
theorem source?_eq (h : f.EndOf first rest) {link : FetchLink} (hlink : link ∈ first :: rest) :
    f.query.source? link.label = some (.ofRelation link.target) := by
  have hfound : ∀ links : List FetchLink, (links.map (·.label)).Nodup → link ∈ links →
      ((links.map FetchLink.source).find? (·.label = link.label)) = some link.source := by
    intro links hnodup hmem
    induction links with
    | nil => cases hmem
    | cons other links ih =>
      rw [List.map_cons, List.nodup_cons] at hnodup
      rcases List.mem_cons.mp hmem with rfl | hmem
      · simp [FetchLink.source]
      · have hne : other.source.label ≠ link.label := by
          intro heq
          exact hnodup.1 (List.mem_map.mpr ⟨link, hmem, heq.symm⟩)
        rw [List.map_cons, List.find?_cons_of_neg (by simpa using hne), ih hnodup.2 hmem]
  unfold Query.source?
  rw [h.sources_eq, hfound _ h.nodup hlink]
  rfl

/-- Nothing else than a further link takes the two defaults apart. -/
theorem default_eq_iff (h : f.EndOf first rest) :
    f.query.defaultSource = f.defaultSource ↔ rest = [] := by
  rw [h.start_eq, h.default_eq]
  cases rest with
  | nil => simp
  | cons next rest =>
    refine iff_of_false (fun hsame => ?_) (by simp)
    have hlast : rest.getLastD next ∈ next :: rest := List.getLastD_mem_cons
    rw [List.getLastD_cons] at hsame
    exact (List.nodup_cons.mp h.nodup).1 (List.mem_map.mpr ⟨_, hlast, hsame.symm⟩)

theorem filter (h : f.EndOf first rest) (p : Predicate) : (f.filter p).EndOf first rest :=
  ⟨h.fetched, h.plain, h.sources_eq, h.start_eq, h.default_eq, h.nodup⟩

/-- What is followed from such a row, from whichever source, is one more link. -/
theorem fetchFrom (h : f.EndOf first rest) {source name : String} {label : Option String}
    (hfetch : f.fetchFrom source name label = .ok f') :
    ∃ link, f'.EndOf first (rest ++ [link]) := by
  obtain ⟨-, link, -, -, -, hvisible, rfl⟩ := fetchFrom_run hfetch
  rw [if_pos h.fetched]
  have hnew : link.label ∉ (first :: rest).map (·.label) :=
    h.labels_eq ▸ (not_visible_iff.mp hvisible).1
  refine ⟨link, h.fetched, h.plain, ?_, h.start_eq, ?_, ?_⟩
  · simp [Query.attach, h.sources_eq]
  · rw [List.getLastD_concat]
  · rw [← List.cons_append, List.map_append]
    exact h.nodup.append (List.nodup_singleton _) (List.disjoint_singleton.mpr hnew)

end Row.EndOf

/-- The run: a row that is reached in so many steps stands at the end of so many links. -/
theorem Row.LeadsTo.endOf {r f : Row} {count : Nat} (h : r.LeadsTo count f) :
    ∃ first rest, count = (first :: rest).length ∧ f.EndOf first rest := by
  induction h with
  | first hr hfetch =>
    obtain ⟨-, first, -, -, -, -, rfl⟩ := fetchFrom_run hfetch
    rw [if_neg (by simp [hr])]
    exact ⟨first, [], rfl, rfl, rfl, rfl, rfl, rfl, List.nodup_singleton _⟩
  | next _ hfetch ih =>
    obtain ⟨first, rest, hcount, hend⟩ := ih
    obtain ⟨link, hend'⟩ := hend.fetchFrom hfetch
    exact ⟨first, rest ++ [link], by simp [hcount], hend'⟩
  | filter condition _ ih =>
    obtain ⟨first, rest, hcount, hend⟩ := ih
    exact ⟨first, rest, hcount, hend.filter condition⟩

/-! ### The level that calls the condition -/

/-- The query ranges over what `q` ranges over, under all of its conditions. What it selects, how
it is sorted and limited and which conditions it adds makes no difference. -/
structure Query.RangesLike (q' q : Query) : Prop where
  sources_eq : q'.sources = q.sources
  default_eq : q'.defaultSource = q.defaultSource
  filters : q.filters <+: q'.filters

/-- An aggregate of a row and the question whether there is one embed such a query. -/
theorem Row.rangesLike_of_aggregate (f : Row) {function : Aggregate} {column : String} {q : Query}
    (h : q ∈ (f.aggregate function column).subqueries ∨ q ∈ f.existsRow.subqueries) :
    q.RangesLike f.query := by
  rcases h with h | h
  · obtain rfl := List.mem_singleton.mp h
    exact ⟨rfl, rfl, List.prefix_refl _⟩
  · obtain rfl := List.mem_singleton.mp h
    exact ⟨rfl, rfl, List.prefix_refl _⟩

namespace Sql
variable {placement : EntryPlacement} {calls : Calls}

/-- A column is written under the display alias of its source. -/
theorem CompiledLevel.becomes_column_iff (level : CompiledLevel placement calls)
    {source name : String} {e : Expr Statement} :
    level.Becomes (.column source name) e ↔
      ∃ d, level.scope.resolve source = .ok d ∧ e = .column d name := by
  constructor
  · rintro ⟨n, n', -, -, h⟩
    cases resolves_of_run h with
    | column hdisplay => exact ⟨_, hdisplay, rfl⟩
  · rintro ⟨d, hd, rfl⟩
    refine ⟨level.visited, level.visited, .refl _, level.visited_grows, ?_⟩
    simp only [resolve, bind_eq_ok_iff, checked_eq_ok_iff, noting_except, liftError_eq_ok_iff,
      pure_eq_ok_iff]
    exact ⟨d, _, ⟨hd, rfl⟩, rfl, rfl⟩

section
variable {level : CompiledLevel placement calls} {f : Row} {first : FetchLink}
  {rest : List FetchLink}

/-- The level of such a query has the sources of the chain, under aliases that differ. -/
theorem CompiledLevel.alias_of_link (hend : f.EndOf first rest)
    (hranges : level.query.RangesLike f.query) {link : FetchLink} (hlink : link ∈ first :: rest) :
    ∃ d, level.scope.resolve link.label = .ok d ∧
      ∀ other ∈ first :: rest, level.scope.resolve other.label = .ok d → other.label = link.label := by
  have hlabel : ∀ other ∈ first :: rest, other.label ∈ level.query.sources.map (·.label) := by
    intro other hother
    rw [hranges.sources_eq, hend.labels_eq]
    exact List.mem_map_of_mem hother
  obtain ⟨d, hd, -⟩ := level.binds.own _ (hlabel link hlink)
  exact ⟨d, hd, fun other hother hsame =>
    level.binds.apart _ (hlabel other hother) _ (hlabel link hlink) (hsame.trans hd.symm)⟩

/-- The condition is called with the level's own row. -/
theorem CompiledLevel.calls_condition {p : Predicate}
    (hranges : level.query.RangesLike (f.filter p).query) :
    ∃ i e c, level.query.filters[i]? = some p ∧ p.apply calls level.row = .ok e ∧
      level.Condition i e c := by
  obtain ⟨more, hmore⟩ := hranges.filters
  have hp : level.query.filters[f.query.filters.length]? = some p := by
    rw [← hmore]
    simp [Row.filter, Query.filter]
  obtain ⟨e, c, hcondition, happly, -⟩ := level.exists_condition hp
  exact ⟨_, e, c, hp, happly, hcondition⟩

/-- What the condition follows, it follows from the source in which the chain started. -/
theorem CompiledLevel.fetch_from_start (hend : f.EndOf first rest)
    (hranges : level.query.RangesLike f.query) :
    level.row.relationOf level.row.origin = .ok (some first.target) ∧
    ∀ (name : String) (requested : Option String) (g : Row),
      level.row.fetch name requested = .ok g →
      ∃ link : FetchLink, first.target.association name = .ok link.association ∧
        first.target.sibling link.association.target = .ok link.target ∧
        g.query = .chain level.scope first.label link [] := by
  have horigin : level.row.origin = first.label := by
    show level.query.defaultSource = first.label
    rw [hranges.default_eq, hend.start_eq]
  have hsource : level.query.source? first.label = some (.ofRelation first.target) := by
    rw [← hend.source?_eq (List.mem_cons_self ..), Query.source?, Query.source?,
      hranges.sources_eq]
  have hrelation : level.row.relationOf level.row.origin = .ok (some first.target) := by
    have hown : level.row.query.source? first.label = some (.ofRelation first.target) := hsource
    rw [horigin, Row.relationOf, hown]
    rfl
  refine ⟨hrelation, fun name requested g hg => ?_⟩
  obtain ⟨relation, link, hfound, hassociation, htarget, -, rfl⟩ := Row.fetch_run hg
  obtain rfl := Option.some.inj (Except.ok.inj (hrelation.symm.trans hfound))
  exact ⟨link, hassociation, htarget, by rw [horigin]; rfl⟩

end

/-- **A condition that narrows a fetched row speaks about that row exactly if a single association
leads there.** It is called with the row of the level that compiles the query. This row has the
first source of the chain for a default, its columns are written under the alias of this source,
and what is followed from it is tied to this source. The columns that an aggregate reads from `f`
itself are written under the alias of the last source, which is another one as soon as there is a
second association. -/
theorem narrowing_speaks_of_row_iff {r f : Row} {count : Nat} (hf : r.LeadsTo count f)
    (p : Predicate) :
    ∃ (first : FetchLink) (rest : List FetchLink), count = (first :: rest).length ∧
      f.query.sources = (first :: rest).map FetchLink.source ∧
      f.defaultSource = (rest.getLastD first).label ∧
      f.relationOf f.defaultSource = .ok (some (rest.getLastD first).target) ∧
      (∀ (function : Aggregate) (column : String) (q : Query),
        q ∈ ((f.filter p).aggregate function column).subqueries ∨
          q ∈ (f.filter p).existsRow.subqueries → q.RangesLike (f.filter p).query) ∧
      ∀ (placement : EntryPlacement) (calls : Calls) (level : CompiledLevel placement calls),
        level.query.RangesLike (f.filter p).query →
        (∃ i e c, level.query.filters[i]? = some p ∧ p.apply calls level.row = .ok e ∧
          level.Condition i e c) ∧
        level.row.defaultSource = first.label ∧
        (level.row.defaultSource = f.defaultSource ↔ count = 1) ∧
        (∃ its own : String, (its = own ↔ count = 1) ∧ ∀ (column : String) (e : Expr Statement),
          (level.Becomes (level.row.column column) e ↔ e = .column its column) ∧
          (level.Becomes (f.column column) e ↔ e = .column own column)) ∧
        level.row.relationOf level.row.origin = .ok (some first.target) ∧
        ∀ (name : String) (requested : Option String) (g : Row),
          level.row.fetch name requested = .ok g →
          ∃ link : FetchLink, first.target.association name = .ok link.association ∧
            first.target.sibling link.association.target = .ok link.target ∧
            g.query = .chain level.scope first.label link [] := by
  obtain ⟨first, rest, hcount, hend⟩ := hf.endOf
  have hlast : rest.getLastD first ∈ first :: rest := List.getLastD_mem_cons
  have hone : count = 1 ↔ rest = [] := by
    rw [hcount, List.length_cons, Nat.add_eq_right, List.length_eq_zero_iff]
  have hrelation : f.relationOf f.defaultSource = .ok (some (rest.getLastD first).target) := by
    rw [Row.relationOf, hend.default_eq, hend.source?_eq hlast]
    rfl
  refine ⟨first, rest, hcount, hend.sources_eq, hend.default_eq, hrelation,
    fun _ _ q hq => (f.filter p).rangesLike_of_aggregate hq, fun placement calls level hranges => ?_⟩
  have hfiltered : (f.filter p).EndOf first rest := hend.filter p
  have hdefault : level.row.defaultSource = first.label :=
    hranges.default_eq.trans hfiltered.start_eq
  refine ⟨CompiledLevel.calls_condition hranges, hdefault, ?_, ?_,
    CompiledLevel.fetch_from_start hfiltered hranges⟩
  · rw [hone, ← hend.default_eq_iff, hdefault, hend.start_eq]
  · obtain ⟨its, hits, -⟩ := CompiledLevel.alias_of_link hfiltered hranges (List.mem_cons_self ..)
    obtain ⟨own, hown, hapart⟩ := CompiledLevel.alias_of_link hfiltered hranges hlast
    have hmine : ∀ column, level.row.column column = .column first.label column := by
      intro column
      rw [Row.column, Row.columnOf, Row.substitute_nil rfl, hdefault]
    have hits' : ∀ column, f.column column = .column (rest.getLastD first).label column := by
      intro column
      rw [Row.column, Row.columnOf, Row.substitute_nil hend.plain, hend.default_eq]
    refine ⟨its, own, ?_, fun column e => ⟨?_, ?_⟩⟩
    · rw [hone, ← hend.default_eq_iff, hend.start_eq, hend.default_eq]
      constructor
      · intro hsame
        exact hapart first (List.mem_cons_self ..) (hsame ▸ hits)
      · intro hsame
        exact Except.ok.inj (hits.symm.trans (hsame ▸ hown))
    · rw [hmine, level.becomes_column_iff, hits]
      simp
    · rw [hits', level.becomes_column_iff, hown]
      simp

/-! ### Routes with a late stop -/

/-- Routes have trips, and these have stops. -/
def routeNetwork : FrozenSchema where
  stamp := 0
  schema := ⟨[
    ⟨"route", some "id", (∅ : Std.TreeMap String Association).insert "trip"
      ⟨.hasMany, 0, 1, "routeId", "id"⟩⟩,
    ⟨"trip", some "id", (∅ : Std.TreeMap String Association).insert "stop"
      ⟨.hasMany, 1, 2, "tripId", "id"⟩⟩,
    ⟨"stop", some "id", ∅⟩]⟩

def isLate : ExprTerm := .apply .gt (.column (.up 0) none "delay") (.value (.raw "0"))

/-- The stops of the trips of the row. -/
def stopsOfTrips : RowTerm := .fetch (.fetch (.up 0) none "trip" none) none "stop" none

/-- Routes, by the largest delay of a late stop. -/
def lateRoutes : Query :=
  (Query.ofRelation ⟨routeNetwork, 0, by decide⟩).filter
    ⟨.apply .gt (.aggregate .max "delay" (.filter stopsOfTrips isLate)) (.value (.raw "9")), []⟩

/-- The condition compares the delays of the trips. -/
theorem lateRoutes_speak_of_trips :
    ∃ (root level : CompiledLevel .hoisted .deep) (statement : Statement) (f : Row),
      root.query = lateRoutes ∧ root.Embeds level statement ∧ root.row.LeadsTo 2 f ∧
      level.query.RangesLike (f.filter ⟨isLate, [root.row]⟩).query ∧
      level.row.defaultSource ≠ f.defaultSource ∧
      ∃ its own : String, its ≠ own ∧ ∀ column : String,
        level.Becomes (level.row.column column) (.column its column) ∧
        level.Becomes (f.column column) (.column own column) := by
  obtain ⟨text, htext⟩ := except_isOk_iff.mp (by decide +kernel : lateRoutes.toSql.isOk)
  obtain ⟨-, root, -, -, hquery, -⟩ := CompiledLevel.exists_opens htext
  have hfilters : root.query.filters = lateRoutes.filters := by rw [hquery]
  obtain ⟨e, c, hcondition, he, -, -⟩ := root.exists_condition (i := 0) (by rw [hfilters]; rfl)
  simp only [Predicate.apply, ExprTerm.evaluate, RowTerm.evaluate, noting_except, stopsOfTrips,
    except_bind_eq_ok_iff, except_pure_eq_ok_iff, liftError_eq_ok_iff, Option.getD_none] at he
  obtain ⟨_, ⟨_, ⟨f, ⟨trips, ⟨row, hrow, htrips⟩, hstops⟩, rfl⟩, rfl⟩, _, rfl, rfl⟩ := he
  obtain rfl := Except.ok.inj hrow
  have hf : root.row.LeadsTo 2 f := .next (.first rfl htrips) hstops
  obtain ⟨level, statement, hlevel, -, hembeds⟩ :=
    hcondition.becomes.embeds (List.mem_append_left _ (List.mem_singleton_self _))
  obtain ⟨_, _, -, -, -, -, haggregate, hcompiled⟩ :=
    narrowing_speaks_of_row_iff hf ⟨isLate, [root.row]⟩
  have hranges : level.query.RangesLike (f.filter ⟨isLate, [root.row]⟩).query :=
    haggregate .max "delay" _ (.inl (hlevel ▸ List.mem_singleton_self _))
  obtain ⟨-, -, hdefault, ⟨its, own, hsame, hcolumns⟩, -, -⟩ :=
    hcompiled .hoisted .deep level hranges
  have htwo : ¬ 2 = 1 := by decide
  exact ⟨root, level, statement, f, hquery, hembeds, hf, hranges, mt hdefault.mp htwo, its, own,
    mt hsame.mp htwo, fun column =>
      ⟨(hcolumns column _).1.mpr rfl, (hcolumns column _).2.mpr rfl⟩⟩

/-- The aggregate reads the stops that the condition should be about. -/
theorem lateRoutes_compare_trips :
    ((Row.ofQuery lateRoutes).fetchAll ["trip", "stop"]).map (·.defaultSource) = .ok "stop" ∧
    lateRoutes.toSql = .ok ("SELECT *\nFROM \"route\" AS \"route\"\n" ++
      "WHERE (SELECT MAX(\"stop\".\"delay\") AS \"max\"\n    FROM \"trip\" AS \"trip\"\n" ++
      "        INNER JOIN \"stop\" AS \"stop\" ON \"trip\".\"id\" = (\"stop\".\"tripId\")\n" ++
      "    WHERE (\"route\".\"id\" = (\"trip\".\"routeId\"))\n" ++
      "        AND (\"trip\".\"delay\" > (0))) > (9)") :=
  ⟨by decide +kernel, by decide +kernel⟩

end Sql

end QueryBuilder
