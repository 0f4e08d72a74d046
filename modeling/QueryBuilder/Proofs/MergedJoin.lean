import QueryBuilder.Proofs.Scoping
import QueryBuilder.Proofs.TwinCompilation

/-! A merged query and its table.

A query that only filters its table may be joined, and is then merged; or its table may be
joined, and the filters added one by one, written for the joining query. Both ways lead to
the same text, whatever the joining query is: the results are twins.

The merged query brings along what it includes, so this has to be added too. -/
namespace QueryBuilder

/-! ### Spelling a query out -/

/-- The filter with its source read as another one; it captures the same rows. -/
structure Predicate.ReadsAs (R : Reading) (p p' : Predicate) : Prop where
  body : p.body.ReadsAs R (some 0) p'.body
  captured_eq : p'.captured = p.captured

namespace Query

/-- The query ranges over what is joined here, and nothing else. -/
inductive Over (q : Query) : JoinTarget → Prop
  | table {name : String} : q.sources = [⟨q.baseSource, .table name none⟩] → Over q (.table name)
  | relation {r : RelationRef} : q.sources = [⟨q.baseSource, .ofRelation r⟩] → Over q (.relation r)

/-- The query with these filters and included queries, and with the columns of one of its
sources unless it selects everything. -/
def spelledOut (q : Query) (filters : List Predicate) (includes : List Query) (label : String) :
    Query :=
  let extended := includes.foldl Query.including (filters.foldl Query.filter q)
  if q.projections.isEmpty then extended
  else extended.andSelect ⟨[.item (.star (.up 0) (some label)) none], []⟩

theorem foldl_filter (q : Query) (filters : List Predicate) :
    filters.foldl Query.filter q = { q with filters := q.filters ++ filters } := by
  induction filters generalizing q with
  | nil =>
    cases q
    simp
  | cons p ps ih =>
    rw [List.foldl_cons, ih]
    simp [Query.filter]

theorem foldl_including (q : Query) (includes : List Query) :
    includes.foldl Query.including q = { q with includes := q.includes ++ includes } := by
  induction includes generalizing q with
  | nil =>
    cases q
    simp
  | cons i is ih =>
    rw [List.foldl_cons, ih]
    simp [Query.including]

theorem spelledOut_eq (q : Query) (filters : List Predicate) (includes : List Query)
    (label : String) : q.spelledOut filters includes label =
      { q with
        includes := q.includes ++ includes
        filters := q.filters ++ filters
        projections :=
          if q.projections.isEmpty then []
          else q.projections ++ [⟨[.item (.star (.up 0) (some label)) none], []⟩] } := by
  unfold spelledOut
  rw [foldl_filter, foldl_including]
  obtain ⟨_, _, _, _, projections, _, _, _, _, _, _⟩ := q
  cases projections <;> rfl

/-! ### The two ways -/

theorem joinTable_eq (q : Query) (table : String) (options : JoinOptions) :
    q.joinTable table options = (do
      let label ← q.claimAlias table options.label
      let on ← q.conditionOf options none table label
      .ok (q.attach ⟨label, .table table none⟩ ⟨label, options.kind, on⟩)) := by
  have hderived : ∀ label, q.derivedCondition none table label =
      .error (.missingJoinCondition table) := by
    intro label
    unfold derivedCondition
    cases q.defaultRelation <;> rfl
  unfold joinTable conditionOf
  cases options.on with
  | some on => rfl
  | none => simp only [hderived]; rfl

/-- What a query ranges over is joined under a claimed alias, on the condition that is given
or derived. -/
theorem Over.join_eq {target : Query} {what : JoinTarget} (h : target.Over what) :
    ∃ data name, target.sources = [⟨target.baseSource, data⟩] ∧
      ∀ (q : Query) (options : JoinOptions), q.join what options = (do
        let label ← q.claimAlias name options.label
        let on ← q.conditionOf options data.relation name label
        .ok (q.attach ⟨label, data⟩ ⟨label, options.kind, on⟩)) := by
  cases h with
  | table hsources => exact ⟨_, _, hsources, fun q options => q.joinTable_eq _ options⟩
  | relation hsources => exact ⟨_, _, hsources, fun q options => q.joinRelation_eq _ options⟩

theorem defaultRelation_of_sources {q : Query} (hq : q.Regular) {data : DataSource}
    (hsources : q.sources = [⟨q.baseSource, data⟩]) : q.defaultRelation = data.relation := by
  rw [defaultRelation_eq, hq.default_eq]
  simp [source?, hsources]

/-- A given alias is claimed as it is. -/
theorem claimAlias_given {q : Query} {fallback label label' : String}
    (h : q.claimAlias fallback (some label) = .ok label') : label' = label := by
  simp only [claimAlias] at h
  split at h
  · simp at h
  · exact (Except.ok.inj h).symm

/-- The condition does not depend on the name that a missing one is reported for. -/
theorem conditionOf_congr {q : Query} {options : JoinOptions} {relation : Option RelationRef}
    {name name' label : String} {on on' : Predicate}
    (h : q.conditionOf options relation name label = .ok on)
    (h' : q.conditionOf options relation name' label = .ok on') : on' = on := by
  unfold conditionOf derivedCondition at h h'
  cases hon : options.on with
  | some given =>
    rw [hon] at h h'
    exact (Except.ok.inj h').symm.trans (Except.ok.inj h)
  | none =>
    rw [hon] at h h'
    dsimp only at h h'
    split at h
    · rename_i hassociation
      rw [hassociation] at h'
      exact (Except.ok.inj h').symm.trans (Except.ok.inj h)
    · simp at h

/-- Merging a query joins its table, and absorbs the rest of it. -/
theorem joinQuery_eq_absorb {parent target flat joined : Query} {options : JoinOptions}
    {label : String} {what : JoinTarget} (htarget : target.Regular) (hover : target.Over what)
    (hmerge : (target.mergeableTable options.kind).isSome) (hlabel : options.label = some label)
    (hflat : parent.joinQuery target options = .ok flat)
    (hjoined : parent.join what options = .ok joined) : flat = joined.absorb target label := by
  obtain ⟨data, name, hsources, hjoin⟩ := hover.join_eq
  obtain ⟨table, htable⟩ := Option.isSome_iff_exists.mp hmerge
  obtain ⟨label', hsources'⟩ := sources_of_mergeableTable htable
  obtain ⟨-, rfl⟩ := Source.mk.inj (List.singleton_inj.mp (hsources.symm.trans hsources'))
  rw [hjoin, hlabel] at hjoined
  rw [joinQuery_eq, hlabel, htable, defaultRelation_of_sources htarget hsources] at hflat
  simp only [except_bind_eq_ok_iff] at hjoined hflat
  obtain ⟨claimed, hclaimed, on, hon, hjoined⟩ := hjoined
  obtain ⟨claimed', hclaimed', on', hon', hflat⟩ := hflat
  obtain rfl := claimAlias_given hclaimed
  obtain rfl := claimAlias_given hclaimed'
  obtain rfl := conditionOf_congr hon hon'
  obtain rfl := Except.ok.inj hjoined
  exact (Except.ok.inj hflat).symm

/-- The merged query and the one that is spelled out are twins. -/
theorem absorb_twin (joined : Query) {target : Query} (htarget : target.Regular)
    (hprojections : target.projections = []) (label : String) {spared : Predicate → Bool}
    {filters : List Predicate}
    (hfilters : List.Forall₂ (Predicate.ReadsAs ⟨target.baseSource, label, spared⟩) target.filters
      filters) (hspared : ∀ p ∈ filters, spared p = true) :
    (joined.absorb target label).Twin ⟨target.baseSource, label, spared⟩
      (joined.spelledOut filters target.includes label) := by
  have hmerged : target.mergedProjections label =
      [⟨[.item (.star (.up 0) (some label)) none], []⟩] := by
    unfold mergedProjections
    rw [hprojections]
  have hrow : target.mergedRow label = Reading.mergedRow ⟨target.baseSource, label, spared⟩ := by
    unfold mergedRow
    rw [htarget.default_eq]
    rfl
  have htwins : List.Forall₂ (Predicate.Twin ⟨target.baseSource, label, spared⟩)
      (target.mergedFilters label) filters := by
    unfold mergedFilters
    rw [List.forall₂_map_left_iff, hrow]
    refine forall₂_zip hfilters.length_eq.symm fun p p' hmem => ?_
    have hp := (zip_of_forall₂ hfilters).2 p p' hmem
    exact .merged hp.body (hp.captured_eq ▸ .refl _) (hspared p' (List.of_mem_zip hmem).2)
  rw [spelledOut_eq]
  have hparts := (Query.Twin.refl (R := ⟨target.baseSource, label, spared⟩) (q := joined)).parts
  refine TwinParts.twin { hparts with filters := ?_, projections := ?_, includes := ?_ }
  · exact List.rel_append hparts.filters htwins
  · show List.Forall₂ _ (if _ then _ else joined.projections ++ target.mergedProjections label) _
    rw [hmerged]
    exact twins_refl (fun _ => .refl) _
  · exact twins_refl (fun _ => .refl) _

end Query

namespace Sql

/-- Two computations that agree with a third one, and are not given up, have one outcome. -/
theorem eq_of_agree {α : Type} {x y z : Except Fault α} (hx : Agree Eq x z) (hy : Agree Eq y z)
    (hxdeep : x ≠ .error .tooDeep) (hydeep : y ≠ .error .tooDeep) (hz : z ≠ .error .missing) :
    x = y := by
  cases hx with
  | ok hxz =>
    obtain rfl := hxz
    cases hy with
    | ok hyz => rw [hyz]
    | tooDeep => exact absurd rfl hydeep
  | fault =>
    cases hy with
    | fault => rfl
    | tooDeep => exact absurd rfl hydeep
    | missing => exact absurd rfl hz
  | tooDeep => exact absurd rfl hxdeep
  | missing => exact absurd rfl hz

/-- **A merged query has the text of its table joined with its filters spelled out, byte for
byte.** Or both have the same error. The filters may use their row through columns, stars,
associations and what is fetched; where they say their source, the others say the alias.
What the joining query is does not matter, as long as none of its callbacks calls one of
the filters by hand for a row that it has fetched. -/
theorem merged_join_eq_spelled_out {parent target flat joined : Query} {options : JoinOptions}
    {label : String} {what : JoinTarget} {filters : List Predicate} {spared : Predicate → Bool}
    (htarget : target.Regular) (hover : target.Over what)
    (hmerge : (target.mergeableTable options.kind).isSome)
    (hprojections : target.projections = []) (hlabel : options.label = some label)
    (hflat : parent.joinQuery target options = .ok flat)
    (hjoined : parent.join what options = .ok joined)
    (hfilters : List.Forall₂ (Predicate.ReadsAs ⟨target.baseSource, label, spared⟩) target.filters
      filters)
    (hspared : ∀ p ∈ filters, spared p = true)
    (hcalled : sparingStatement spared (joined.spelledOut filters target.includes label) ≠
      .error .missing)
    (hflatDeep : flat.toSql ≠ .error .tooDeep)
    (hdirectDeep : (joined.spelledOut filters target.includes label).toSql ≠ .error .tooDeep) :
    flat.toSql = (joined.spelledOut filters target.includes label).toSql := by
  have hdeep : ∀ q : Query, q.toSql ≠ .error .tooDeep → q.statement ≠ .error .tooDeep := by
    intro q hsql hstatement
    refine hsql ?_
    unfold Query.toSql
    rw [hstatement]
    rfl
  obtain rfl := Query.joinQuery_eq_absorb htarget hover hmerge hlabel hflat hjoined
  have hmerged := statement_twin (joined.absorb_twin htarget hprojections label hfilters hspared)
  have hdirect := statement_twin (R := ⟨target.baseSource, label, spared⟩)
    (q := joined.spelledOut filters target.includes label) .refl
  have hsame := eq_of_agree hmerged hdirect (hdeep _ hflatDeep) (hdeep _ hdirectDeep) hcalled
  unfold Query.toSql
  rw [hsame]

/-! ### Trips with stops -/

/-- A table whose name is also the alias of what is joined to it. -/
def archivedTrips : Query := .ofTable "trip" none ["day"]

/-- Trips with some stop and a late day, where the source is named and where it is not. -/
def lateTrips : Query :=
  ((Query.ofRelation ⟨journeys, 0, journeys_inhabited⟩).filter
    ⟨.existsRow (.fetch (.up 0) (some "trip") "stop" none), []⟩).filter
      ⟨.apply .gt (.column (.up 0) none "day") (.value (.raw "5")), []⟩

/-- The filters of `lateTrips` for a query that joins their table as `late`. -/
def lateFilters : List Predicate :=
  [⟨.existsRow (.fetch (.up 0) (some "late") "stop" none), []⟩,
    ⟨.apply .gt (.column (.up 0) (some "late") "day") (.value (.raw "5")), []⟩]

def asLate : JoinOptions where
  label := some "late"
  on := some ⟨.value (.raw "TRUE"), []⟩

theorem lateFilters_readsAs (spared : Predicate → Bool) :
    List.Forall₂ (Predicate.ReadsAs ⟨"trip", "late", spared⟩) lateTrips.filters lateFilters := by
  refine .cons ⟨.existsRow .fetchOwn, rfl⟩ (.cons ⟨?_, rfl⟩ .nil)
  exact .apply .columnOwn .value

theorem regular_lateTrips : lateTrips.Regular :=
  (Query.regular_ofSource "trip" "trip" (some ⟨journeys, 0, by decide⟩)).of_eq rfl rfl rfl rfl rfl

/-- The late trips next to the archived ones, whose alias is the name that the filters have
for their own source. -/
theorem late_trips_eq_spelled_out :
    ∃ flat joined, archivedTrips.joinQuery lateTrips asLate = .ok flat ∧
      archivedTrips.join (.relation ⟨journeys, 0, by decide⟩) asLate = .ok joined ∧
      flat.toSql = (joined.spelledOut lateFilters lateTrips.includes "late").toSql ∧
      flat.toSql = .ok
        ("SELECT \"trip\".\"day\",\n    \"late\".*\nFROM \"trip\" AS \"trip\"\n" ++
        "    INNER JOIN \"trip\" AS \"late\" ON TRUE\nWHERE (EXISTS (SELECT 1\n" ++
        "    FROM \"stop\" AS \"stop\"\n    WHERE \"late\".\"id\" = (\"stop\".\"tripId\")))\n" ++
        "    AND (\"late\".\"day\" > (5))") := by
  have hflat : (archivedTrips.joinQuery lateTrips asLate).map Query.toSql = .ok (.ok
      ("SELECT \"trip\".\"day\",\n    \"late\".*\nFROM \"trip\" AS \"trip\"\n" ++
      "    INNER JOIN \"trip\" AS \"late\" ON TRUE\nWHERE (EXISTS (SELECT 1\n" ++
      "    FROM \"stop\" AS \"stop\"\n    WHERE \"late\".\"id\" = (\"stop\".\"tripId\")))\n" ++
      "    AND (\"late\".\"day\" > (5))")) := by
    decide +kernel
  have hspared : (archivedTrips.join (.relation ⟨journeys, 0, by decide⟩) asLate).map (fun q =>
      ((sparingStatement (fun _ => true) (q.spelledOut lateFilters lateTrips.includes "late")).isOk,
        (q.spelledOut lateFilters lateTrips.includes "late").toSql.isOk)) = .ok (true, true) := by
    decide +kernel
  obtain ⟨flat, hflat, hsql⟩ := except_map_eq_ok_iff.mp hflat
  obtain ⟨joined, hjoined, hdirect⟩ := except_map_eq_ok_iff.mp hspared
  obtain ⟨hcalled, hdirect⟩ := Prod.mk.inj hdirect
  refine ⟨flat, joined, hflat, hjoined, ?_, hsql⟩
  refine merged_join_eq_spelled_out regular_lateTrips (.relation rfl) rfl rfl rfl hflat hjoined
    (lateFilters_readsAs _) (fun _ _ => rfl) ?_ ?_ ?_
  · intro hmissing
    rw [hmissing] at hcalled
    cases hcalled
  · rw [hsql]
    simp
  · intro hdeep
    rw [hdeep] at hdirect
    cases hdirect

/-! ### Where the two differ -/

/-- A query over a table that selects, as a subquery, the first query that it includes once
one over `x` has been added behind the others. -/
def firstIncluded : Query :=
  (Query.ofTable "trip").select
    ⟨[.item (.subquery (.included (.including (.ofRow (.up 0)) (.value (.ofTable "x"))) 0)) none],
      []⟩

/-- Routes with stops, each of which is of a trip. -/
def routedStops : FrozenSchema where
  stamp := 1
  schema := ⟨[⟨"route", some "id", (∅ : Std.TreeMap String Association).insert "stop"
      ⟨.hasMany, 0, 1, "routeId", "id"⟩⟩,
    ⟨"stop", some "id", (∅ : Std.TreeMap String Association).insert "trip"
      ⟨.belongsTo, 2, 1, "tripId", "id"⟩⟩,
    ⟨"trip", some "id", ∅⟩]⟩

/-- Stops, under the alias `trip`, by how many trips they have. -/
def countedStops : Query :=
  (Query.ofRelation ⟨routedStops, 1, by decide⟩ (some "trip")).filter
    ⟨.apply .gt (.aggregate .count "id" (.fetch (.up 0) none "trip" none)) (.value (.raw "0")), []⟩

/-- Routes that call their first filter for the stops that they fetch. -/
def callingRoutes : Query :=
  (Query.ofRelation ⟨routedStops, 0, by decide⟩).select
    ⟨[.item (.callFilter (.ofRow (.up 0)) 0 (.fetch (.up 0) none "stop" none)) none], []⟩

/-- The filter of `countedStops` for a query that joins their table as `late`. -/
def countedFilters : List Predicate :=
  [⟨.apply .gt (.aggregate .count "id" (.fetch (.up 0) (some "late") "trip" none))
    (.value (.raw "0")), []⟩]

/-- Without what the merged query includes, a callback that looks at the included queries of
its row tells the two apart. And so does one that calls a merged filter for a fetched row:
what the filter fetches from there is named like the source that it calls its own. -/
theorem spelled_out_differs :
    (∃ target flat joined, target.Over (.table "stop") ∧ (target.mergeableTable .inner).isSome ∧
      target.projections = [] ∧ target.filters = [] ∧
      firstIncluded.joinQuery target asLate = .ok flat ∧
      firstIncluded.join (.table "stop") asLate = .ok joined ∧
      flat.toSql ≠ (joined.spelledOut [] [] "late").toSql) ∧
    ∃ flat joined, countedStops.Over (.relation ⟨routedStops, 1, by decide⟩) ∧
      (countedStops.mergeableTable .inner).isSome ∧ countedStops.projections = [] ∧
      countedStops.includes = [] ∧
      List.Forall₂ (Predicate.ReadsAs ⟨"trip", "late", fun _ => false⟩) countedStops.filters
        countedFilters ∧
      callingRoutes.joinQuery countedStops asLate = .ok flat ∧
      callingRoutes.join (.relation ⟨routedStops, 1, by decide⟩) asLate = .ok joined ∧
      flat.toSql ≠ (joined.spelledOut countedFilters [] "late").toSql := by
  have hincluded : (do
      let flat ← firstIncluded.joinQuery ((Query.ofTable "stop").including (.ofTable "y")) asLate
      let joined ← firstIncluded.join (.table "stop") asLate
      return decide (flat.toSql = (joined.spelledOut [] [] "late").toSql)) = .ok false := by
    decide +kernel
  have hcalled : (do
      let flat ← callingRoutes.joinQuery countedStops asLate
      let joined ← callingRoutes.join (.relation ⟨routedStops, 1, by decide⟩) asLate
      return decide (flat.toSql = (joined.spelledOut countedFilters [] "late").toSql)) =
        .ok false := by
    decide +kernel
  simp only [except_bind_eq_ok_iff, except_pure_eq_ok_iff] at hincluded hcalled
  obtain ⟨flat, hflat, joined, hjoined, hne⟩ := hincluded
  obtain ⟨flat', hflat', joined', hjoined', hne'⟩ := hcalled
  have hreads : List.Forall₂ (Predicate.ReadsAs ⟨"trip", "late", fun _ => false⟩)
      countedStops.filters countedFilters :=
    .cons ⟨.apply (.aggregate .fetchOwn) .value, rfl⟩ .nil
  exact ⟨⟨_, flat, joined, .table rfl, rfl, rfl, rfl, hflat, hjoined, of_decide_eq_false hne.symm⟩,
    flat', joined', .relation rfl, rfl, rfl, rfl, hreads, hflat', hjoined',
    of_decide_eq_false hne'.symm⟩

end Sql

end QueryBuilder
