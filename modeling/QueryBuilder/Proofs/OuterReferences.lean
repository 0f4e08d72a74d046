import QueryBuilder.Proofs.MergedReferences

/-! What the filters of a merged query refer to around it.

A query that is built in a callback carries the scope of the callback's row, and its filters may
name what is bound there. Merged into another query they are looked up among the sources of that
one first, and then in the context of that one. No source of a query is called like something in
its own context, but the joining query may have been built elsewhere: its sources may well be
called like something in the context of the query that it merges. -/
namespace QueryBuilder

/-! ### Callbacks that use the rows they are given -/

/-- The rows have the same default source and call every source the same, but perhaps what is
`source` for the first one. -/
structure Row.SameBut (source : String) (r r' : Row) : Prop where
  default_eq : r'.defaultSource = r.defaultSource
  substitute : ∀ x, r'.substitute x = r.substitute x ∨ r.substitute x = source

namespace Row.SameBut
variable {source : String} {r r' : Row}

theorem refl (r : Row) : r.SameBut source r := ⟨rfl, fun _ => .inl rfl⟩

theorem substituting (h : r.SameBut source r') (names : Substitution) :
    (r.substituting names).SameBut source (r'.substituting names) :=
  ⟨h.default_eq, fun x => h.substitute (names.getD x x)⟩

/-- The row of a query against the row that its filters get where it is merged. -/
theorem merged (q : Query) (scope : Scope) {r : Row} (hr : r.substitutions = [])
    (label : String) : (Row.bound q scope).SameBut q.baseSource (q.atMerged label r) where
  default_eq := rfl
  substitute x := by
    have hbound : (Row.bound q scope).substitute x = x := Row.substitute_nil rfl x
    unfold Query.atMerged
    rw [hbound, Row.substitute_substituting, Row.substitute_nil (by exact hr)]
    by_cases hx : x = q.baseSource
    · exact .inr hx
    · left
      have hne : q.baseSource ≠ x := fun h => hx h.symm
      simp [Std.TreeMap.ofList_singleton, Std.TreeMap.getD_insert, hne]

end Row.SameBut

/-- Terms for rows that the callback has been given. -/
inductive RowTerm.Given : RowTerm → Prop
  | up {level} : Given (.up level)
  | value {row} : Given (.value row)
  | filter {row condition} : Given row → Given (.filter row condition)
  | substitute {row names} : Given row → Given (.substitute row names)
  | rebase {row source} : Given row → Given (.rebase row source)

/-- Terms that take columns from given rows only. What stands in their subqueries does not
matter. -/
inductive ExprTerm.Direct : ExprTerm → Prop
  | value {e} : Direct (.value e)
  | column {row source name} : row.Given → Direct (.column row source name)
  | star {row source} : row.Given → Direct (.star row source)
  | unary {before after t} : Direct t → Direct (.unary before t after)
  | binary {fragments left right} : Direct left → Direct right →
      Direct (.binary fragments left right)
  | apply {op left right} : Direct left → Direct right → Direct (.apply op left right)
  | applyRightFirst {op right left} : Direct right → Direct left →
      Direct (.applyRightFirst op right left)
  | aggregate {function column row} : Direct (.aggregate function column row)
  | existsRow {row} : Direct (.existsRow row)
  | subquery {query} : Direct (.subquery query)
  | condition {association owner target row} : row.Given →
      Direct (.condition association owner target row)
  | call {p row} : Direct p.body → row.Given → Direct (.call p row)

section
variable {source : String} {rows rows' : List Row}

theorem Row.SameBut.elementAt (h : List.Forall₂ (Row.SameBut source) rows rows') {level : Nat}
    {r r' : Row} (hr : QueryBuilder.elementAt rows level = .ok r)
    (hr' : QueryBuilder.elementAt rows' level = .ok r') : r.SameBut source r' := by
  induction h generalizing level with
  | nil => simp [QueryBuilder.elementAt] at hr
  | cons hhead _ ih =>
    cases level with
    | zero =>
      obtain rfl := Except.ok.inj hr
      obtain rfl := Except.ok.inj hr'
      exact hhead
    | succ level => exact ih hr hr'

theorem RowTerm.Given.evaluate {t : RowTerm} (h : t.Given) {calls calls' : Calls}
    (hrows : List.Forall₂ (Row.SameBut source) rows rows') {r r' : Row}
    (hr : t.evaluate calls rows = .ok r) (hr' : t.evaluate calls' rows' = .ok r') :
    r.SameBut source r' := by
  induction h generalizing r r' with
  | up => exact Row.SameBut.elementAt hrows hr hr'
  | value =>
    obtain rfl := Except.ok.inj hr
    obtain rfl := Except.ok.inj hr'
    exact .refl _
  | filter _ ih =>
    simp only [RowTerm.evaluate, except_bind_eq_ok_iff, except_pure_eq_ok_iff] at hr hr'
    obtain ⟨r, hr, rfl⟩ := hr
    obtain ⟨r', hr', rfl⟩ := hr'
    exact ⟨(ih hr hr').default_eq, (ih hr hr').substitute⟩
  | substitute _ ih =>
    simp only [RowTerm.evaluate, except_bind_eq_ok_iff, except_pure_eq_ok_iff] at hr hr'
    obtain ⟨r, hr, rfl⟩ := hr
    obtain ⟨r', hr', rfl⟩ := hr'
    exact (ih hr hr').substituting _
  | rebase _ ih =>
    simp only [RowTerm.evaluate, except_bind_eq_ok_iff, except_pure_eq_ok_iff] at hr hr'
    obtain ⟨r, hr, rfl⟩ := hr
    obtain ⟨r', hr', rfl⟩ := hr'
    exact ⟨rfl, (ih hr hr').substitute⟩

end

/-- For rows that call one source differently, a callback names the same sources in the same
places but for that one. -/
theorem ExprTerm.Direct.qualifiers {t : ExprTerm} (h : t.Direct) {source : String}
    {depth depth' : Nat} {rows rows' : List Row}
    (hrows : List.Forall₂ (Row.SameBut source) rows rows') {e e' : Expr Query}
    (he : t.evaluate (.within depth) rows = .ok e)
    (he' : t.evaluate (.within depth') rows' = .ok e') :
    List.Forall₂ (fun x x' => x' = x ∨ x = source) e.qualifiers e'.qualifiers := by
  induction h generalizing depth depth' rows rows' e e' with
  | value =>
    obtain rfl := Except.ok.inj he
    obtain rfl := Except.ok.inj he'
    exact List.forall₂_same.mpr fun _ _ => .inl rfl
  | column hrow | star hrow =>
    simp only [ExprTerm.evaluate, except_bind_eq_ok_iff, except_pure_eq_ok_iff] at he he'
    obtain ⟨r, hr, rfl⟩ := he
    obtain ⟨r', hr', rfl⟩ := he'
    have hsame := hrow.evaluate hrows hr hr'
    rw [hsame.default_eq]
    exact .cons (hsame.substitute _) .nil
  | unary _ ih =>
    simp only [ExprTerm.evaluate, except_bind_eq_ok_iff, except_pure_eq_ok_iff] at he he'
    obtain ⟨e, he, rfl⟩ := he
    obtain ⟨e', he', rfl⟩ := he'
    show List.Forall₂ _ e.qualifiers e'.qualifiers
    exact ih hrows he he'
  | @binary fragments left right _ _ ihl ihr =>
    simp only [ExprTerm.evaluate, except_bind_eq_ok_iff] at he he'
    obtain ⟨l, hl, r, hr, he⟩ := he
    obtain ⟨l', hl', r', hr', he'⟩ := he'
    split at he
    · obtain rfl := except_pure_eq_ok_iff.mp he
      obtain rfl := except_pure_eq_ok_iff.mp he'
      exact List.rel_append (ihl hrows hl hl') (ihr hrows hr hr')
    · simp at he
  | apply _ _ ihl ihr =>
    simp only [ExprTerm.evaluate, except_bind_eq_ok_iff, except_pure_eq_ok_iff] at he he'
    obtain ⟨l, hl, r, hr, rfl⟩ := he
    obtain ⟨l', hl', r', hr', rfl⟩ := he'
    rw [Expr.qualifiers_apply, Expr.qualifiers_apply]
    exact List.rel_append (ihl hrows hl hl') (ihr hrows hr hr')
  | applyRightFirst _ _ ihr ihl =>
    simp only [ExprTerm.evaluate, except_bind_eq_ok_iff, except_pure_eq_ok_iff] at he he'
    obtain ⟨r, hr, l, hl, rfl⟩ := he
    obtain ⟨r', hr', l', hl', rfl⟩ := he'
    rw [Expr.qualifiers_apply, Expr.qualifiers_apply]
    exact List.rel_append (ihl hrows hl hl') (ihr hrows hr hr')
  | aggregate | existsRow | subquery =>
    simp only [ExprTerm.evaluate, except_bind_eq_ok_iff, except_pure_eq_ok_iff] at he he'
    obtain ⟨_, -, rfl⟩ := he
    obtain ⟨_, -, rfl⟩ := he'
    exact .nil
  | condition hrow =>
    simp only [ExprTerm.evaluate, except_bind_eq_ok_iff, except_pure_eq_ok_iff] at he he'
    obtain ⟨r, hr, rfl⟩ := he
    obtain ⟨r', hr', rfl⟩ := he'
    have hsame := hrow.evaluate hrows hr hr'
    rw [Expr.qualifiers_condition, Expr.qualifiers_condition]
    exact .cons (hsame.substitute _) (.cons (hsame.substitute _) .nil)
  | call _ hrow ih =>
    simp only [ExprTerm.evaluate, except_bind_eq_ok_iff] at he he'
    obtain ⟨r, hr, he⟩ := he
    obtain ⟨r', hr', he'⟩ := he'
    have hsame := hrow.evaluate hrows hr hr'
    cases depth with
    | zero => cases he
    | succ depth =>
      cases depth' with
      | zero => cases he'
      | succ depth' =>
        exact ih (.cons hsame (List.forall₂_same.mpr fun r _ => .refl r)) he he'

/-- The condition of an association names the side that it is followed from. -/
theorem Association.owner_mem_qualifiers (a : Association) {owner target : String} {calls : Calls}
    {row : Row} (hrow : row.substitutions = []) {e : Expr Query}
    (he : (a.predicate owner target).apply calls row = .ok e) : owner ∈ e.qualifiers := by
  obtain rfl := Except.ok.inj he
  rw [Expr.qualifiers_condition, Row.substitute_nil hrow, Row.substitute_nil hrow]
  unfold sides
  cases a.direction <;> simp

/-! ### References to what is around -/

namespace Sql
variable {placement : EntryPlacement} {calls : Calls}

namespace CompiledLevel

/-- A source of the context is written the same in a subquery as in the scope of the level if it
is neither hidden nor something else there, and only then. -/
theorem Embeds.resolve_eq_iff {outer inner : CompiledLevel placement calls}
    {statement : Statement} (h : outer.Embeds inner statement) (houter : outer.Covered)
    {x d d' : String} (hx : outer.scope.resolve x = .ok d) (hx' : inner.scope.resolve x = .ok d') :
    d' = d ↔ inner.query.hasSource x = false ∧
      (inner.query.context.getD outer.scope).resolve x = .ok d := by
  by_cases hown : x ∈ inner.query.sources.map (·.label)
  · have hsource : inner.query.hasSource x := Query.hasSource_iff.mpr (List.mem_map.mp hown)
    obtain ⟨d'', hd'', hfresh, -⟩ := inner.binds.own x hown
    obtain rfl := Except.ok.inj (hx'.symm.trans hd'')
    refine iff_of_false (fun hd => hfresh ?_) (by simp [hsource])
    exact hd ▸ h.grows _ (houter.scope.resolve hx)
  · have hsource := Query.hasSource_eq_false_iff.mpr hown
    rw [resolve_around hown h.parent_eq] at hx'
    rw [hx', hsource]
    simp

/-- A filter as the query gives it on its own, and as it is given where the query is merged: it
names the same sources in the same places, but for the source of that query. -/
theorem exists_merged_conditions {depth : Nat} (hcalls : calls = .within (depth + 1))
    {alone inner : CompiledLevel placement calls} {parent : Query} {label : String}
    (hmerges : parent.Merges alone.query label inner.query) {i : Nat} {p : Predicate}
    (hp : alone.query.filters[i]? = some p) (hdirect : p.body.Direct) :
    ∃ e r e' r', alone.Condition i e r ∧ inner.Condition (parent.filters.length + i) e' r' ∧
      List.Forall₂ (fun x x' => x' = x ∨ x = alone.query.baseSource) e.qualifiers
        e'.qualifiers := by
  subst hcalls
  obtain ⟨e, r, hcondition, happly, -, -⟩ := alone.exists_condition hp
  obtain ⟨e', r', hcondition', happly', -, -⟩ := inner.exists_condition (hmerges.filter hp)
  have hrow := Row.SameBut.merged alone.query alone.scope (r := inner.row) rfl label
  exact ⟨e, r, e', r', hcondition, hcondition',
    hdirect.qualifiers (.cons hrow (List.forall₂_same.mpr fun r _ => .refl r)) happly
      (Query.apply_merged happly')⟩

end CompiledLevel

/-- **A merged filter refers to the same thing around if the joining query has no source of that
name and finds the same thing in its own context, and only then.** What the filter refers to is
what it refers to where the query that it comes from is compiled on its own. -/
theorem outer_reference_kept_iff {q : Query} {text : String} (hsql : q.toSql = .ok text) :
    ∃ (s : Statement) (root : CompiledLevel .hoisted .deep), q.statement = .ok s ∧ s.print = text ∧
      root.query = q ∧ root.Opens s ∧
      ∀ outer around inner statement, root.Inside outer around → outer.Embeds inner statement →
        ∀ (parent target : Query) (options : JoinOptions), target.Regular →
          target.context = some outer.scope → (target.mergeableTable options.kind).isSome →
          parent.joinQuery target options = .ok inner.query →
          ∀ (elsewhere alone : CompiledLevel .hoisted .deep) (statement' : Statement),
            elsewhere.Embeds alone statement' → alone.query = target →
            ∀ i p, target.filters[i]? = some p → p.body.Direct →
              ∃ e r e' r', alone.Condition i e r ∧
                inner.Condition (parent.filters.length + i) e' r' ∧
                ∀ (j : Nat) (x : String), e.qualifiers[j]? = some x → target.hasSource x = false →
                  ∃ d d', outer.scope.resolve x = .ok d ∧ r.qualifiers[j]? = some d ∧
                    e'.qualifiers[j]? = some x ∧ r'.qualifiers[j]? = some d' ∧
                    (d' = d ↔ inner.query.hasSource x = false ∧
                      (parent.context.getD outer.scope).resolve x = .ok d) := by
  obtain ⟨s, root, hs, htext, hquery, hopens⟩ := CompiledLevel.exists_opens hsql
  obtain ⟨depth, hdepth⟩ : ∃ depth, Calls.deep = .within (depth + 1) := ⟨999999, rfl⟩
  refine ⟨s, root, hs, htext, hquery, hopens, ?_⟩
  intro outer around inner statement hinside hembeds parent target options htarget hcontext hmerge
    hflat elsewhere alone statement' halone hsame i p hp hdirect
  subst hsame
  obtain ⟨label, -, hmerges⟩ := Query.merges_of_joinQuery hmerge hflat
  obtain ⟨e, r, e', r', hcondition, hcondition', hsame⟩ :=
    CompiledLevel.exists_merged_conditions hdepth hmerges hp hdirect
  refine ⟨e, r, e', r', hcondition, hcondition', ?_⟩
  intro j x hx hsource
  obtain ⟨d, hd, hresolve⟩ := hcondition.becomes.qualifier hx
  have hlabels := Query.hasSource_eq_false_iff.mp hsource
  rw [CompiledLevel.resolve_around hlabels (halone.parent_of_context hcontext)] at hresolve
  -- The name is not that of the merged source, so the merged filter has it as it is.
  obtain ⟨hj, hxj⟩ := List.getElem?_eq_some_iff.mp hx
  have hj' : j < e'.qualifiers.length := hsame.length_eq ▸ hj
  have hx' : e'.qualifiers[j]? = some x := by
    rw [List.getElem?_eq_getElem hj', Option.some.injEq]
    rcases hsame.get hj hj' with heq | hbase
    · exact heq.trans hxj
    · refine absurd ?_ hlabels
      rw [htarget.labels_eq]
      exact List.mem_cons.mpr (.inl (hxj.symm.trans hbase))
  obtain ⟨d', hd', hresolve'⟩ := hcondition'.becomes.qualifier hx'
  rw [← hmerges.context_eq]
  exact ⟨d, d', hresolve, hd, hx', hd', hembeds.resolve_eq_iff (hinside.surrounded hopens).covered
    hresolve hresolve'⟩

/-! ### Stops of a trip, next to a table -/

/-- The stops of the trip that the callback is called for. -/
def stopsOfTrip : QueryTerm := .ofRow (.fetch (.up 0) none "stop" none)

/-- The stops joined to all rows of a table. -/
def stopsNextTo (kind : JoinKind) (table : String) : QueryTerm :=
  .join (.value (.ofTable table)) (.query stopsOfTrip) kind (some "s") (some everyRow)

/-- Trips that have stops, on their own and next to the table. -/
def tripsNextTo (kind : JoinKind) (table : String) : Query :=
  ((Query.ofRelation ⟨journeys, 0, journeys_inhabited⟩).filter
    ⟨.unary "EXISTS " (.subquery stopsOfTrip) "", []⟩).filter
      ⟨.unary "EXISTS " (.subquery (stopsNextTo kind table)) "", []⟩

theorem regular_tripsNextTo (kind : JoinKind) (table : String) : (tripsNextTo kind table).Regular :=
  (Query.regular_ofSource "trip" "trip" (some ⟨journeys, 0, by decide⟩)).of_eq rfl rfl rfl rfl rfl

/-- The query that an existence condition embeds. -/
theorem subquery_of_existing {calls : Calls} {row : Row} {query : QueryTerm} {e : Expr Query}
    (he : Predicate.apply calls ⟨.unary "EXISTS " (.subquery query) "", []⟩ row = .ok e) :
    ∃ q, query.evaluate calls [row] = .ok q ∧ e.subqueries = [q] := by
  simp only [Predicate.apply, ExprTerm.evaluate, except_bind_eq_ok_iff,
    except_pure_eq_ok_iff] at he
  obtain ⟨_, ⟨q, hq, rfl⟩, rfl⟩ := he
  exact ⟨q, hq, rfl⟩

/-- The two callbacks of the trips fetch the same stops, and embed these alone and joined. -/
theorem CompiledLevel.exists_stops {kind : JoinKind} {table : String}
    {root : CompiledLevel placement calls} (hquery : root.query = tripsNextTo kind table) :
    ∃ r alone inner statement statement' on,
      (Row.bound root.query root.scope).fetchFrom "trip" "stop" = .ok r ∧
      root.Embeds alone statement ∧ alone.query = r.query ∧ root.Embeds inner statement' ∧
      (Query.ofTable table).joinQuery r.query ⟨kind, some "s", some on⟩ = .ok inner.query := by
  have hfilters : root.query.filters = (tripsNextTo kind table).filters := by rw [hquery]
  have hdefault : root.row.defaultSource = "trip" := by
    show root.query.defaultSource = _
    rw [hquery]
    rfl
  obtain ⟨e, _, hcondition, he, -, -⟩ := root.exists_condition (i := 0) (by rw [hfilters]; rfl)
  obtain ⟨e', _, hcondition', he', -, -⟩ := root.exists_condition (i := 1) (by rw [hfilters]; rfl)
  obtain ⟨target, htarget, hsubqueries⟩ := subquery_of_existing he
  obtain ⟨flat, hflat, hsubqueries'⟩ := subquery_of_existing he'
  simp only [stopsNextTo, QueryTerm.evaluate, TargetTerm.evaluate, noting_except, htarget,
    except_bind_eq_ok_iff, except_pure_eq_ok_iff, liftError_eq_ok_iff] at hflat
  simp only [stopsOfTrip, QueryTerm.evaluate, RowTerm.evaluate, noting_except,
    except_bind_eq_ok_iff, except_pure_eq_ok_iff, liftError_eq_ok_iff] at htarget
  obtain ⟨r, ⟨row, hrow, hfetch⟩, rfl⟩ := htarget
  obtain rfl := Except.ok.inj hrow
  rw [Option.getD_none, hdefault] at hfetch
  obtain ⟨_, rfl, _, ⟨_, hr, rfl⟩, hflat⟩ := hflat
  obtain rfl := Except.ok.inj hr
  obtain ⟨alone, statement, halone, -, hembeds⟩ :=
    hcondition.becomes.embeds (hsubqueries ▸ List.mem_singleton_self _)
  obtain ⟨inner, statement', rfl, -, hembeds'⟩ :=
    hcondition'.becomes.embeds (hsubqueries' ▸ List.mem_singleton_self _)
  exact ⟨r, alone, inner, statement, statement', _, hfetch, hembeds, halone, hembeds', hflat⟩

/-- A query that is fetched from a source is merged by an inner join and kept by a left one. Its
filter refers to that source. -/
structure Fetches (source : String) (scope : Scope) (q : Query) : Prop where
  regular : q.Regular
  context_eq : q.context = some scope
  mergeable : (q.mergeableTable .inner).isSome
  kept : q.mergeableTable .left = none
  other : q.hasSource source = false
  filter : ∃ p, q.filters[0]? = some p ∧ p.body.Direct ∧ ∀ calls row e, row.substitutions = [] →
    p.apply calls row = .ok e → source ∈ e.qualifiers

theorem fetches_of_fetchFrom {q : Query} (hq : q.Regular) {scope : Scope} {source name : String}
    {label : Option String} {r : Row} (hsource : q.hasSource source)
    (h : (Row.bound q scope).fetchFrom source name label = .ok r) :
    Fetches source scope r.query := by
  have hregular := ((Row.regular_bound hq scope).fetchFrom h).query
  obtain ⟨a, target, label, hvisible, ⟨hfetched, -⟩ | ⟨-, rfl⟩⟩ := Row.fetchFrom_cases h
  · cases hfetched
  have hsubst : (Row.bound q scope).substitute source = source := Row.substitute_nil rfl source
  refine ⟨hregular, rfl, rfl, rfl, ?_, _, rfl, .condition .up, ?_⟩
  · refine Query.hasSource_eq_false_iff.mpr fun hmem => ?_
    obtain rfl := List.mem_singleton.mp hmem
    exact (Row.not_visible_iff.mp hvisible).1 (List.mem_map.mpr (Query.hasSource_iff.mp hsource))
  · intro calls row e hrow he
    rw [hsubst] at he
    exact a.owner_mem_qualifiers hrow he

/-- Next to depots the stops are those of the trip. -/
theorem stops_next_to_depots : ∃ (s : Statement) (root alone inner : CompiledLevel .hoisted .deep),
    (tripsNextTo .inner "depot").statement = .ok s ∧ root.query = tripsNextTo .inner "depot" ∧
    root.Opens s ∧ (∃ statement, root.Embeds alone statement) ∧
    (∃ statement, root.Embeds inner statement) ∧
    ∃ e r e' r' d, ∃ j : Nat, alone.Condition 0 e r ∧ inner.Condition 0 e' r' ∧
      e.qualifiers[j]? = some "trip" ∧ root.scope.resolve "trip" = .ok d ∧
      r.qualifiers[j]? = some d ∧ r'.qualifiers[j]? = some d := by
  obtain ⟨text, htext⟩ := except_isOk_iff.mp
    (by decide +kernel : (tripsNextTo .inner "depot").toSql.isOk)
  obtain ⟨s, root, hs, -, hquery, hopens, hkept⟩ := outer_reference_kept_iff htext
  obtain ⟨r, alone, inner, statement, statement', on, hfetch, halone, hsame, hinner, hflat⟩ :=
    CompiledLevel.exists_stops hquery
  have hfetches : Fetches "trip" root.scope r.query := by
    refine fetches_of_fetchFrom (hquery ▸ regular_tripsNextTo _ _) ?_ hfetch
    rw [hquery]
    rfl
  obtain ⟨p, hp, hdirect, hnames⟩ := hfetches.filter
  obtain ⟨e, c, e', c', hcondition, hcondition', hall⟩ := hkept root [] inner statement' .root
    hinner _ _ _ hfetches.regular hfetches.context_eq hfetches.mergeable hflat root alone statement
    halone hsame 0 p hp hdirect
  -- The filter of the stops names the trip.
  obtain ⟨p', hp', he⟩ := hcondition.given
  rw [hsame, hp] at hp'
  obtain rfl := Option.some.inj hp'
  obtain ⟨j, hj⟩ := List.mem_iff_getElem?.mp (hnames _ _ _ rfl he)
  obtain ⟨d, d', hresolve, hd, -, hd', hiff⟩ := hall j "trip" hj hfetches.other
  have hsource : inner.query.hasSource "trip" = false := by
    obtain ⟨label, hclaim, hmerges⟩ := Query.merges_of_joinQuery hfetches.mergeable hflat
    obtain rfl := Except.ok.inj (hclaim.symm.trans rfl : Except.ok label = .ok "s")
    rw [Query.hasSource_eq_false_iff, hmerges.labels_eq]
    decide
  obtain rfl := hiff.mpr ⟨hsource, hresolve⟩
  exact ⟨s, root, alone, inner, hs, hquery, hopens, ⟨_, halone⟩, ⟨_, hinner⟩, e, c, e', c', _, j,
    hcondition, hcondition', hj, hresolve, hd, hd'⟩

/-- Next to a table that is called like the trips the stops are those of its rows. -/
theorem stops_next_to_trips :
    (tripsNextTo .inner "trip").toSql = .ok
      ("SELECT *\nFROM \"trip\" AS \"trip\"\nWHERE (EXISTS (SELECT *\n" ++
      "    FROM \"stop\" AS \"stop\"\n    WHERE \"trip\".\"id\" = (\"stop\".\"tripId\")))\n" ++
      "    AND (EXISTS (SELECT *\n    FROM \"trip\" AS \"trip_0\"\n" ++
      "        INNER JOIN \"stop\" AS \"s\" ON TRUE\n" ++
      "    WHERE \"trip_0\".\"id\" = (\"s\".\"tripId\")))") := by
  decide +kernel

end Sql

end QueryBuilder
