import QueryBuilder.Proofs.Building
import QueryBuilder.Proofs.Callbacks
import QueryBuilder.Proofs.MergedSelections

/-! Selections that are added to those of a query.

The list of a level is compiled before anything else of the level but its sources, one projection
after the other. So what a query lists comes out in the same way when more is added behind it, as
long as its callbacks do not look into the query of their row. A list without items stands for
`*`. Whether a query selects everything is judged twice, though: when something is added, by whether
it has projections, and when the list is written, by whether they have given anything. -/
namespace QueryBuilder

/-! ### Plain selections -/

/-- Terms for selections that take no row's query but that of a fetched one. -/
inductive SelectionTerm.Plain : SelectionTerm → Prop
  | item {expr : ExprTerm} {label : Option String} : expr.Plain → Plain (.item expr label)
  | call {p : Projection} {row : RowTerm} : (∀ t ∈ p.body, Plain t) → row.Plain →
      Plain (.call p row)
  | callUnder {label : String} {p : Projection} {row : RowTerm} : (∀ t ∈ p.body, Plain t) →
      row.Plain → Plain (.callUnder label p row)

def Projection.Plain (p : Projection) : Prop := ∀ t ∈ p.body, t.Plain

/-- What all terms give for the other rows as well, the projection gives for the other row. -/
theorem Projection.apply_imp {p : Projection} {calls : Calls} {r r' : Row}
    (h : ∀ t ∈ p.body, ∀ ss, t.evaluate calls (r :: p.captured) = .ok ss →
      t.evaluate calls (r' :: p.captured) = .ok ss) {ss : List Selection}
    (hss : p.apply calls r = .ok ss) : p.apply calls r' = .ok ss := by
  simp only [apply, except_bind_eq_ok_iff, except_pure_eq_ok_iff] at hss ⊢
  obtain ⟨groups, hgroups, rfl⟩ := hss
  exact ⟨groups, except_mapM_imp h hgroups, rfl⟩

theorem SelectionTerm.Plain.evaluate {t : SelectionTerm} (h : t.Plain) {depth : Nat}
    {rows rows' : List Row} (hrows : List.Forall₂ Row.Alike rows rows') {ss : List Selection}
    (hss : t.evaluate (.within depth) rows = .ok ss) :
    t.evaluate (.within depth) rows' = .ok ss := by
  induction h generalizing depth rows rows' ss with
  | item hexpr =>
    simp only [SelectionTerm.evaluate, except_bind_eq_ok_iff, except_pure_eq_ok_iff] at hss ⊢
    obtain ⟨e, he, rfl⟩ := hss
    exact ⟨e, hexpr.evaluate hrows he, rfl⟩
  | call _ hrow ih =>
    simp only [SelectionTerm.evaluate, except_bind_eq_ok_iff] at hss ⊢
    obtain ⟨r, hr, hss⟩ := hss
    obtain ⟨r', hr', halike⟩ := hrow.evaluate hrows hr
    refine ⟨r', hr', ?_⟩
    cases depth with
    | zero => cases hss
    | succ depth =>
      exact Projection.apply_imp (fun t ht _ => ih t ht (.cons halike (Row.Alike.refl_all _))) hss
  | callUnder _ hrow ih =>
    simp only [SelectionTerm.evaluate, except_bind_eq_ok_iff, except_pure_eq_ok_iff] at hss ⊢
    obtain ⟨r, hr, given, hgiven, rfl⟩ := hss
    obtain ⟨r', hr', halike⟩ := hrow.evaluate hrows hr
    refine ⟨r', hr', given, ?_, rfl⟩
    cases depth with
    | zero => cases hgiven
    | succ depth =>
      exact Projection.apply_imp (fun t ht _ => ih t ht (.cons halike (Row.Alike.refl_all _)))
        hgiven

/-- A plain projection gives the same selections for rows that agree. -/
theorem Projection.Plain.apply {p : Projection} (h : p.Plain) {depth : Nat} {r r' : Row}
    (hr : r.Alike r') {ss : List Selection} (hss : p.apply (.within depth) r = .ok ss) :
    p.apply (.within depth) r' = .ok ss :=
  Projection.apply_imp
    (fun t ht _ => (h t ht).evaluate (.cons hr (Row.Alike.refl_all _))) hss

namespace Query

theorem plain_mergedProjections {target : Query} (h : ∀ p ∈ target.projections, p.Plain)
    (label : String) : ∀ p ∈ target.mergedProjections label, p.Plain := by
  intro p hp t ht
  unfold mergedProjections at hp
  split at hp
  · obtain rfl := List.mem_singleton.mp hp
    obtain rfl := List.mem_singleton.mp ht
    exact .item (.star (.up 0))
  · obtain ⟨given, hgiven, rfl⟩ := List.mem_map.mp hp
    obtain rfl := List.mem_singleton.mp ht
    exact .callUnder (h given hgiven) (.substitute (.rebase (.up 0)))

/-- Merging two queries with plain projections gives such a query. -/
theorem plain_joinQuery {q target joined : Query} {options : JoinOptions}
    (hq : ∀ p ∈ q.projections, p.Plain) (htarget : ∀ p ∈ target.projections, p.Plain)
    (h : q.joinQuery target options = .ok joined) : ∀ p ∈ joined.projections, p.Plain := by
  obtain ⟨label, on, -, -, ⟨table, -, rfl⟩ | ⟨-, rfl⟩⟩ := joinQuery_cases h
  · intro p hp
    simp only [absorb] at hp
    split at hp
    · cases hp
    · rcases List.mem_append.mp hp with hp | hp
      · exact hq p hp
      · exact plain_mergedProjections htarget label p hp
  · exact hq

/-- A query that selects something else has the same rows. -/
theorem alike_bound {q q' : Query} (hsources : q'.sources = q.sources)
    (hdefault : q'.defaultSource = q.defaultSource) (scope : Scope) :
    (Row.bound q scope).Alike (Row.bound q' scope) where
  shape_eq := congrArg (List.map _) hsources
  substitutions_eq := rfl
  default_eq := hdefault
  scope_eq := rfl
  fetched_eq := rfl
  query_eq := by simp [Row.bound]

/-- Adding selections changes the projections only, which become those of the query, or else `*`,
and then the added one. -/
theorem andSelect_eq (q : Query) (p : Projection) :
    q.andSelect p = { q with
      projections := (if q.projections = [] then [everything] else q.projections) ++ [p] } := by
  unfold andSelect
  split
  next hnone => rw [if_pos hnone]; rfl
  next hsome => rw [if_neg hsome]

end Query

namespace Sql
variable {placement : EntryPlacement} {calls : Calls}

/-! ### Lists -/

section
variable (placement : EntryPlacement) (calls : Calls) (depth : Nat) (q : Query)
  (parent : Option Scope)

/-- What a projection selects for the row in a level with these sources. -/
def selectedItems (l : LevelScope) (row : Row) : Projection → Naming (List SelectItem) :=
  projected calls (resolve (subqueryOf placement (compileLevel placement calls depth)) l.scope) row

/-- The list of a level, with the sources that have been visited before. -/
def listed : Naming (LevelScope × List SelectItem) := do
  let l ← visits placement calls depth q parent
  let items ← q.projections.mapM (selectedItems placement calls depth l (Row.bound q l.scope))
  return (l, items.flatten)

end

theorem listed_eq_ok_iff {depth : Nat} {q : Query} {parent : Option Scope} {n m : Names}
    {l : LevelScope} {items : List SelectItem} :
    listed placement calls depth q parent n = .ok ((l, items), m) ↔
      ∃ visited groups, visits placement calls depth q parent n = .ok (l, visited) ∧
        q.projections.mapM (selectedItems placement calls depth l (Row.bound q l.scope)) visited =
          .ok (groups, m) ∧ items = groups.flatten := by
  simp only [listed, bind_eq_ok_iff, pure_eq_ok_iff, Prod.mk.injEq]
  constructor
  · rintro ⟨l, visited, hvisits, groups, m, hgroups, ⟨rfl, rfl⟩, rfl⟩
    exact ⟨visited, groups, hvisits, hgroups, rfl⟩
  · rintro ⟨visited, groups, hvisits, hgroups, rfl⟩
    exact ⟨l, visited, hvisits, groups, m, hgroups, ⟨rfl, rfl⟩, rfl⟩

/-- The items of a level are its list. -/
theorem listed_of_compileLevel {depth : Nat} {q : Query} {parent : Option Scope} {n n' : Names}
    {s : Select} (h : compileLevel placement calls (depth + 1) q parent n = .ok (s, n')) :
    ∃ l m, listed placement calls depth q parent n = .ok ((l, s.items), m) := by
  simp only [compileLevel, levelOf, bind_eq_ok_iff, pure_eq_ok_iff] at h
  obtain ⟨l, visited, hvisits, groups, m, hgroups, _, _, -, _, _, -, _, _, -, _, _, -, rfl, -⟩ := h
  exact ⟨l, m, listed_eq_ok_iff.mpr ⟨visited, groups, hvisits, hgroups, rfl⟩⟩

/-- A plain projection selects the same for rows that agree. -/
theorem selectedItems_of_alike {calls depth : Nat} {p : Projection} (h : p.Plain) {l : LevelScope}
    {r r' : Row} (hr : r.Alike r') {n m : Names} {items : List SelectItem}
    (hitems : selectedItems placement (.within calls) depth l r p n = .ok (items, m)) :
    selectedItems placement (.within calls) depth l r' p n = .ok (items, m) := by
  simp only [selectedItems, projected, bind_eq_ok_iff, checked_eq_ok_iff] at hitems ⊢
  obtain ⟨ss, _, ⟨happly, rfl⟩, hresolve⟩ := hitems
  exact ⟨ss, _, ⟨h.apply hr happly, rfl⟩, hresolve⟩

/-! ### Lists with more behind them -/

/-- The list as it is written: an empty one stands for `*`. -/
def shown : List SelectItem → List SelectItem
  | [] => [⟨.raw "*", none⟩]
  | items => items

theorem shown_of_ne_nil {items : List SelectItem} (h : items ≠ []) : shown items = items := by
  cases items with
  | nil => exact absurd rfl h
  | cons item rest => rfl

theorem Select.shows_shown (s : Select) : s.Shows (shown s.items) := by
  by_cases h : s.items = []
  · exact .inr ⟨h, by rw [h]; rfl⟩
  · exact .inl (shown_of_ne_nil h).symm

/-- A select without items of its own in front shows `*` there only if it shows nothing else. -/
theorem Select.shows_shown_append_iff {s : Select} {own added : List SelectItem}
    (h : s.items = own ++ added) : s.Shows (shown own ++ added) ↔ own ≠ [] ∨ added = [] := by
  cases own with
  | cons item rest => exact iff_of_true (.inl h) (.inl (List.cons_ne_nil item rest))
  | nil =>
    rw [List.nil_append] at h
    cases added with
    | nil => exact iff_of_true (.inr ⟨h, rfl⟩) (.inr rfl)
    | cons item rest =>
      refine iff_of_false ?_ (by simp)
      rintro (hshows | ⟨hnone, -⟩)
      · have hlength := congrArg List.length (h.symm.trans hshows)
        simp [shown] at hlength
      · rw [h] at hnone
        cases hnone

/-- The projection that stands for everything selects `*`. -/
theorem selectedItems_everything {depth : Nat} {l : LevelScope} {row : Row} {n m : Names}
    {groups : List (List SelectItem)}
    (h : [Query.everything].mapM (selectedItems placement calls depth l row) n = .ok (groups, m)) :
    groups = [[⟨.raw "*", none⟩]] ∧ m = n := by
  simp only [List.mapM_cons, List.mapM_nil, bind_eq_ok_iff, pure_eq_ok_iff] at h
  obtain ⟨items, k, hitems, _, _, ⟨rfl, rfl⟩, rfl, rfl⟩ := h
  obtain ⟨rfl, rfl⟩ : items = [⟨.raw "*", none⟩] ∧ m = n := by
    have hstar : selectedItems placement calls depth l row Query.everything n =
        .ok ([⟨.raw "*", none⟩], n) := rfl
    rw [hstar] at hitems
    cases hitems
    exact ⟨rfl, rfl⟩
  exact ⟨rfl, rfl⟩

/-- The list of a query with a further projection falls into two parts. -/
theorem exists_of_listed_append {depth : Nat} {q : Query} {front : List Projection} {p : Projection}
    (hprojections : q.projections = front ++ [p]) {parent : Option Scope} {n m' : Names}
    {l : LevelScope} {items : List SelectItem}
    (h : listed placement calls depth q parent n = .ok ((l, items), m')) :
    ∃ visited groups m added, visits placement calls depth q parent n = .ok (l, visited) ∧
      front.mapM (selectedItems placement calls depth l (Row.bound q l.scope)) visited =
        .ok (groups, m) ∧
      selectedItems placement calls depth l (Row.bound q l.scope) p m = .ok (added, m') ∧
      items = groups.flatten ++ added := by
  obtain ⟨visited, groups, hvisits, hgroups, rfl⟩ := listed_eq_ok_iff.mp h
  simp only [hprojections, List.mapM_append, List.mapM_cons, List.mapM_nil, bind_eq_ok_iff,
    pure_eq_ok_iff] at hgroups
  obtain ⟨groups, m, hfront, _, _, ⟨added, _, hadded, _, _, ⟨rfl, rfl⟩, rfl, rfl⟩, rfl, rfl⟩ := hgroups
  exact ⟨visited, groups, m, added, hvisits, hfront, hadded, by simp⟩

/-- The list of a query to which something has been added: that of the query, from the same names,
or `*` if the query has no projections, and then what has been added. -/
theorem listed_andSelect {q : Query} (hq : ∀ p ∈ q.projections, p.Plain) {p : Projection}
    {calls depth : Nat} {parent : Option Scope} {n m' : Names} {l : LevelScope}
    {items : List SelectItem}
    (h : listed placement (.within calls) depth (q.andSelect p) parent n = .ok ((l, items), m')) :
    ∃ own added m, listed placement (.within calls) depth q parent n = .ok ((l, own), m) ∧
      selectedItems placement (.within calls) depth l (Row.bound (q.andSelect p) l.scope) p m =
        .ok (added, m') ∧
      items = (if q.projections = [] then shown own else own) ++ added := by
  have hprojections : (q.andSelect p).projections =
      (if q.projections = [] then [Query.everything] else q.projections) ++ [p] := by
    rw [Query.andSelect_eq]
  have hsources : (q.andSelect p).sources = q.sources := by rw [Query.andSelect_eq]
  have hdefault : (q.andSelect p).defaultSource = q.defaultSource := by rw [Query.andSelect_eq]
  obtain ⟨visited, groups, m, added, hvisits, hfront, hadded, rfl⟩ :=
    exists_of_listed_append hprojections h
  rw [visits, hsources] at hvisits
  by_cases hnone : q.projections = []
  · rw [if_pos hnone] at hfront
    obtain ⟨rfl, rfl⟩ := selectedItems_everything hfront
    refine ⟨[], added, _, listed_eq_ok_iff.mpr ⟨_, [], hvisits, ?_, rfl⟩, hadded, ?_⟩
    · rw [hnone, List.mapM_nil]
      rfl
    · rw [if_pos hnone]
      rfl
  · rw [if_neg hnone] at hfront
    have hsame := mapM_imp (fun p' hp' _ _ _ => selectedItems_of_alike (hq p' hp')
      (Query.alike_bound hsources.symm hdefault.symm l.scope)) hfront
    refine ⟨groups.flatten, added, m,
      listed_eq_ok_iff.mpr ⟨visited, groups, hvisits, hsame, rfl⟩, hadded, ?_⟩
    rw [if_neg hnone]

/-- **What is added to a query is listed behind what the query lists, unless its projections give
nothing.** The level of the query with a further projection visits the same sources and lists the
same items, from the same names, and then what the added projection selects. Where the query has no
projections, `*` is listed in front instead. So the list of the query, `*` if there is nothing on
it, is followed by the added items, except for one case: the query has projections, these give no
selection, and the added one does. Then the query on its own shows `*`, and the added items take
its place. -/
theorem appended_selections_listed_iff {q : Query} (hq : ∀ p ∈ q.projections, p.Plain)
    {p : Projection} {calls depth : Nat} {parent : Option Scope} {n n' : Names} {s : Select}
    (h : compileLevel placement (.within calls) (depth + 1) (q.andSelect p) parent n =
      .ok (s, n')) :
    ∃ (l : LevelScope) (own added : List SelectItem) (m m' : Names),
      listed placement (.within calls) depth q parent n = .ok ((l, own), m) ∧
      (∀ s₀ n₀, compileLevel placement (.within calls) (depth + 1) q parent n = .ok (s₀, n₀) →
        s₀.items = own ∧ s₀.Shows (shown own)) ∧
      selectedItems placement (.within calls) depth l (Row.bound (q.andSelect p) l.scope) p m =
        .ok (added, m') ∧
      s.items = (if q.projections = [] then shown own else own) ++ added ∧
      (s.Shows (shown own ++ added) ↔ q.projections = [] ∨ own ≠ [] ∨ added = []) := by
  obtain ⟨l, m', hlisted⟩ := listed_of_compileLevel h
  obtain ⟨own, added, m, hown, hadded, hitems⟩ := listed_andSelect hq hlisted
  refine ⟨l, own, added, m, m', hown, fun s₀ n₀ h₀ => ?_, hadded, hitems, ?_⟩
  · obtain ⟨l₀, m₀, hlisted₀⟩ := listed_of_compileLevel h₀
    rw [hown] at hlisted₀
    cases hlisted₀
    exact ⟨rfl, s₀.shows_shown⟩
  · by_cases hnone : q.projections = []
    · rw [if_pos hnone] at hitems
      exact iff_of_true (.inl hitems) (.inl hnone)
    · rw [if_neg hnone] at hitems
      rw [Select.shows_shown_append_iff hitems]
      simp [hnone]

/-! ### The number of a trip -/

/-- The number of the row. -/
def number : Projection := ⟨[.column "number"], []⟩

/-- The number of a trip is listed behind its day and what is merged of its stops. -/
theorem number_behind_delayedStops : ∃ (flat : Query) (s₀ s : Statement) (added : List SelectItem),
    (Query.ofTable "trips" none ["day"]).joinQuery delayedStops (everywhere (some "s")) = .ok flat ∧
    flat.statement = .ok s₀ ∧ (flat.andSelect number).statement = .ok s ∧
    s₀.body.items.length = 4 ∧ added.length = 1 ∧ s.body.Shows (s₀.body.items ++ added) := by
  obtain ⟨flat, hflat, hstatements⟩ := except_map_eq_ok_iff.mp (by decide +kernel :
    ((Query.ofTable "trips" none ["day"]).joinQuery delayedStops (everywhere (some "s"))).map
      (fun flat => (flat.statement.map (·.body.items.length),
        (flat.andSelect number).statement.isOk)) = .ok (.ok 4, true))
  obtain ⟨hlengths, hok⟩ := Prod.mk.inj hstatements
  obtain ⟨s₀, hs₀, hlength⟩ := except_map_eq_ok_iff.mp hlengths
  obtain ⟨s, hs⟩ := except_isOk_iff.mp hok
  have hplain : ∀ p ∈ flat.projections, p.Plain := by
    refine Query.plain_joinQuery ?_ ?_ hflat
    · intro p hp t ht
      obtain rfl := List.mem_singleton.mp hp
      obtain rfl := List.mem_singleton.mp ht
      exact .item (.column (.up 0))
    · intro p hp t ht
      obtain rfl := List.mem_singleton.mp hp
      rcases List.mem_cons.mp ht with rfl | ht
      · exact .item (.column (.up 0))
      rcases List.mem_cons.mp ht with rfl | ht
      · exact .item (.column (.up 0))
      obtain rfl := List.mem_singleton.mp ht
      exact .item (.apply (.column (.up 0)) (.value _))
  obtain ⟨names₀, hrun₀, -⟩ := statementWithin_run hs₀
  obtain ⟨names, hrun, -⟩ := statementWithin_run hs
  have hstart : (flat.andSelect number).context = flat.context ∧
      initialNames (flat.andSelect number) = initialNames flat := by
    rw [Query.andSelect_eq]
    exact ⟨rfl, by simp [initialNames, Query.tables_eq]⟩
  rw [hstart.1, hstart.2] at hrun
  have hdepth : Calls.maxDepth = 999999 + 1 := rfl
  rw [hdepth] at hrun hrun₀
  obtain ⟨l, own, added, m, m', -, hown, hadded, -, hlists⟩ :=
    appended_selections_listed_iff hplain hrun
  obtain ⟨rfl, -⟩ := hown _ _ hrun₀
  have hne : s₀.body.items ≠ [] := List.ne_nil_of_length_eq_add_one hlength
  obtain ⟨selections, hselections, -, hlabels⟩ := projected_run hadded
  cases hselections
  have hone : added.length = 1 := by simpa using congrArg List.length hlabels
  refine ⟨flat, _, _, added, hflat, hs₀, hs, hlength, hone, ?_⟩
  rw [← shown_of_ne_nil hne]
  exact hlists.mpr (.inr (.inl hne))

/-- Where nothing is selected, the number comes behind `*`; where an empty list is, it takes the
place of `*`. -/
theorem number_in_place_of_star :
    ((Query.ofTable "trips").andSelect number).toSql =
      .ok "SELECT *,\n    \"trips\".\"number\"\nFROM \"trips\" AS \"trips\"" ∧
    ((Query.ofTable "trips").select ⟨[], []⟩).toSql =
      .ok "SELECT *\nFROM \"trips\" AS \"trips\"" ∧
    (((Query.ofTable "trips").select ⟨[], []⟩).andSelect number).toSql =
      .ok "SELECT \"trips\".\"number\"\nFROM \"trips\" AS \"trips\"" :=
  ⟨by decide +kernel, by decide +kernel, by decide +kernel⟩

end Sql

end QueryBuilder
