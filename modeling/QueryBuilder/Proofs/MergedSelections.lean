import QueryBuilder.Proofs.Layout
import QueryBuilder.Proofs.MergedReferences
import QueryBuilder.Proofs.TwinCompilation

/-! What becomes of the selections of a merged query.

A query with projections that merges another one takes over its projections: behind its own
selections come those of the other query, which are called with rows that call its source by the
alias it has there. A query without projections selects everything and goes on to do so: what the
other one selects is never asked for, although it is not part of what `*` stands for. -/
namespace QueryBuilder

/-! ### Selections -/

/-- What the projections give for the row, one after the other. -/
def Row.Selects (row : Row) (calls : Calls) (projections : List Projection)
    (selections : List Selection) : Prop :=
  ∃ groups, List.Forall₂ (fun p ss => p.apply calls row = .ok ss) projections groups ∧
    selections = groups.flatten

theorem Row.selects_nil_iff {row : Row} {calls : Calls} {selections : List Selection} :
    row.Selects calls [] selections ↔ selections = [] := by
  constructor
  · rintro ⟨_, hgroups, rfl⟩
    cases hgroups
    rfl
  · rintro rfl
    exact ⟨[], .nil, rfl⟩

theorem Row.Selects.of_append {row : Row} {calls : Calls} {projections more : List Projection}
    {selections : List Selection} (h : row.Selects calls (projections ++ more) selections) :
    ∃ front back, row.Selects calls projections front ∧ row.Selects calls more back ∧
      selections = front ++ back := by
  obtain ⟨groups, hgroups, rfl⟩ := h
  obtain ⟨front, back, hfront, hback, rfl⟩ := exists_append_of_forall₂ hgroups
  exact ⟨_, _, ⟨front, hfront, rfl⟩, ⟨back, hback, rfl⟩, List.flatten_append⟩

theorem Row.Selects.unique {row : Row} {calls : Calls} {projections : List Projection}
    {selections selections' : List Selection} (h : row.Selects calls projections selections)
    (h' : row.Selects calls projections selections') : selections' = selections := by
  obtain ⟨groups, hgroups, rfl⟩ := h
  obtain ⟨groups', hgroups', rfl⟩ := h'
  have hsame := (except_mapM_eq_ok_iff.mpr hgroups).symm.trans (except_mapM_eq_ok_iff.mpr hgroups')
  rw [Except.ok.inj hsame]

/-- The name of a plain column. -/
def Expr.columnName? {σ : Type} : Expr σ → Option String
  | .column _ name => some name
  | _ => none

/-- Under an alias, a selection that has a name or is a plain column is called `alias.name`. -/
theorem Selection.label_under (label : String) (s : Selection) :
    (s.under label).label = (s.label <|> s.expr.columnName?).map (label ++ "." ++ ·) := by
  obtain ⟨e, name⟩ := s
  cases name with
  | some name => rfl
  | none => cases e <;> rfl

/-! ### Merged projections -/

theorem Projection.apply_singleton (calls : Calls) (t : SelectionTerm) (captured : List Row)
    (row : Row) :
    Projection.apply calls ⟨[t], captured⟩ row = t.evaluate calls (row :: captured) := by
  unfold apply
  rw [List.mapM_cons, List.mapM_nil]
  cases t.evaluate calls (row :: captured) with
  | error e => rfl
  | ok ss => exact congrArg Except.ok (List.append_nil ss)

section
variable {target : Query} {label : String} {row : Row} {depth : Nat}

/-- A merged projection gives what the projection gives for a row of the joining query in which
its source is called `label`, named under `label`. -/
theorem Projection.apply_merged_iff {p : Projection} {ss : List Selection} :
    Projection.apply (.within (depth + 1)) ⟨[.callUnder label p (target.mergedRow label)], []⟩ row =
        .ok ss ↔
      ∃ given, p.apply (.within depth) (target.atMerged label row) = .ok given ∧
        ss = given.map (Selection.under label) := by
  have hevaluate : SelectionTerm.evaluate (.within (depth + 1)) [row]
      (.callUnder label p (target.mergedRow label)) =
      Except.map (List.map (Selection.under label))
        (p.apply (.within depth) (target.atMerged label row)) := by
    show Except.bind (p.apply (.within depth) (target.atMerged label row)) _ = _
    cases p.apply (.within depth) (target.atMerged label row) <;> rfl
  rw [apply_singleton, hevaluate, except_map_eq_ok_iff]
  simp only [eq_comm]

/-- The merged projections together, when there are any. -/
theorem Row.Selects.of_merged {selections : List Selection} (hprojections : target.projections ≠ [])
    (h : row.Selects (.within (depth + 1)) (target.mergedProjections label) selections) :
    ∃ given, (target.atMerged label row).Selects (.within depth) target.projections given ∧
      selections = given.map (Selection.under label) := by
  have hmerged : target.mergedProjections label =
      target.projections.map fun p => ⟨[.callUnder label p (target.mergedRow label)], []⟩ := by
    unfold Query.mergedProjections
    split
    · exact absurd ‹_› hprojections
    · rfl
  obtain ⟨groups, hgroups, rfl⟩ := h
  rw [hmerged, List.forall₂_map_left_iff] at hgroups
  generalize target.projections = projections at hgroups
  induction hgroups with
  | nil => exact ⟨[], ⟨[], .nil, rfl⟩, rfl⟩
  | cons hfirst _ ih =>
    obtain ⟨given, hgiven, rfl⟩ := Projection.apply_merged_iff.mp hfirst
    obtain ⟨rest, ⟨groups, hgroups, rfl⟩, hrest⟩ := ih
    refine ⟨given ++ groups.flatten, ⟨given :: groups, .cons hgiven hgroups, rfl⟩, ?_⟩
    rw [List.flatten_cons, hrest, List.map_append]

end

/-! ### Selections written for the joining query -/

/-- The projection with its source read as another one; it captures the same rows. -/
structure Projection.ReadsAs (R : Reading) (p p' : Projection) : Prop where
  body : List.Forall₂ (SelectionTerm.ReadsAs R (some 0)) p.body p'.body
  captured_eq : p'.captured = p.captured

/-- The source of `target` read as `label`. -/
def Query.readAs (target : Query) (label : String) : Reading :=
  ⟨target.baseSource, label, fun _ => false⟩

theorem Calls.sparing_none (depth : Nat) : sparing (fun _ => false) depth = within depth := by
  induction depth with
  | zero => rfl
  | succ depth ih => simp [sparing, within, ih]

theorem Calls.agree_within (target : Query) (label : String) {depth depth' : Nat}
    (hdepth : depth ≤ depth') : (within depth).Agree (target.readAs label) (within depth') :=
  sparing_none depth' ▸ (agree_sparing (target.readAs label) hdepth).1

section
variable {target : Query} {label : String} {row : Row} {depth depth' : Nat}

/-- What a projection gives where it is merged, and what it gives where it says the alias itself,
are twins. -/
theorem Projection.ReadsAs.apply (htarget : target.Regular) (hrow : row.fetched = false)
    (hdepth : depth ≤ depth') {p p' : Projection} (h : p.ReadsAs (target.readAs label) p') :
    Agree (List.Forall₂ (Selection.Twin (target.readAs label)))
      (p.apply (.within depth) (target.atMerged label row)) (p'.apply (.within depth') row) := by
  have hmerge : target.atMerged label row = (target.readAs label).merge row := by
    unfold Query.atMerged
    rw [htarget.default_eq]
    rfl
  have hcaptured : Captured (target.readAs label) (some 0)
      (target.atMerged label row :: p.captured) (row :: p'.captured) := by
    rw [hmerge, h.captured_eq]
    exact .own (.refl row) hrow (.refl _)
  refine (Agree.mapM h.body fun t t' ht =>
    t.evaluate_twin (Calls.agree_within target label hdepth) hcaptured ht).bind fun _ _ hss => ?_
  exact .ok (List.rel_flatten hss)

theorem Row.Selects.twins (htarget : target.Regular) (hrow : row.fetched = false)
    (hdepth : depth ≤ depth') {projections written : List Projection}
    (hwritten : List.Forall₂ (Projection.ReadsAs (target.readAs label)) projections written)
    {added given : List Selection}
    (hadded : (target.atMerged label row).Selects (.within depth) projections added)
    (hgiven : row.Selects (.within depth') written given) :
    List.Forall₂ (Selection.Twin (target.readAs label)) added given := by
  obtain ⟨groups, hgroups, rfl⟩ := hadded
  obtain ⟨groups', hgroups', rfl⟩ := hgiven
  refine List.rel_flatten ?_
  induction hwritten generalizing groups groups' with
  | nil =>
    cases hgroups
    cases hgroups'
    exact .nil
  | cons hp _ ih =>
    cases hgroups with
    | cons hfirst hrest =>
      cases hgroups' with
      | cons hfirst' hrest' =>
        have hagree := hp.apply htarget hrow hdepth
        rw [hfirst, hfirst'] at hagree
        cases hagree with
        | ok hss => exact .cons hss (ih _ hrest _ hrest')

end

/-! ### Merging -/

/-- The merged row calls its own columns by the alias. -/
theorem Query.columnOf_atMerged (target : Query) (label : String) {row : Row}
    (hrow : row.substitutions = []) (name : String) :
    (target.atMerged label row).columnOf target.baseSource name = .column label name := by
  unfold Row.columnOf atMerged
  rw [Row.substitute_substituting, Row.substitute_nil (by exact hrow)]
  simp [Std.TreeMap.ofList_singleton]

/-- What a query projects that has merged another one. -/
theorem Query.projections_of_joinQuery {parent target flat : Query} {options : JoinOptions}
    (hmerge : (target.mergeableTable options.kind).isSome)
    (h : parent.joinQuery target options = .ok flat) :
    ∃ label, parent.claimAlias (target.name.getD target.defaultSource) options.label = .ok label ∧
      flat.projections =
        if parent.projections = [] then []
        else parent.projections ++ target.mergedProjections label := by
  obtain ⟨label, on, hclaim, -, ⟨table, -, rfl⟩ | ⟨hnone, -⟩⟩ := joinQuery_cases h
  · refine ⟨label, hclaim, ?_⟩
    simp only [absorb, List.isEmpty_iff]
    rfl
  · rw [hnone] at hmerge
    simp at hmerge

namespace Sql
variable {placement : EntryPlacement} {calls : Calls}

/-- The items are those of the select, where `*` stands for none. -/
def Select.Shows (s : Select) (items : List SelectItem) : Prop :=
  s.items = items ∨ s.items = [] ∧ items = [⟨.raw "*", none⟩]

theorem Select.Shows.print_eq {s : Select} {items : List SelectItem} (h : s.Shows items) :
    ({ s with items } : Select).print = s.print := by
  obtain ⟨_, base, joins, conditions, sorting, limit⟩ := s
  rcases h with rfl | ⟨hnone, rfl⟩
  · rfl
  · obtain rfl := hnone
    simp only [Select.print_eq, printItems, SelectItem.print, printExpr, selectedText,
      String.intercalate_singleton]

/-- A select without items shows `*` and nothing behind it. -/
theorem Select.shows_star_append_iff {s : Select} (hitems : s.items = [])
    {back : List SelectItem} : s.Shows ([⟨.raw "*", none⟩] ++ back) ↔ back = [] := by
  constructor
  · rintro (hshows | ⟨-, hshows⟩)
    · rw [hitems] at hshows
      cases hshows
    · simpa using hshows
  · rintro rfl
    exact .inr ⟨hitems, rfl⟩

/-- The item is the selection, resolved in the level. -/
structure CompiledLevel.Lists (level : CompiledLevel placement calls) (s : Selection)
    (item : SelectItem) : Prop where
  label_eq : item.label = s.label
  becomes : level.Becomes s.expr item.expr

/-- What is listed for selections taken over under an alias. -/
theorem CompiledLevel.lists_under {level : CompiledLevel placement calls} {label : String}
    {added : List Selection} {items : List SelectItem}
    (h : List.Forall₂ level.Lists (added.map (Selection.under label)) items) :
    List.Forall₂ (fun t item =>
      item.label = (t.label <|> t.expr.columnName?).map (label ++ "." ++ ·) ∧
      level.Becomes t.expr item.expr) added items := by
  rw [List.forall₂_map_left_iff] at h
  refine h.imp fun t item hitem => ⟨?_, ?_⟩
  · rw [hitem.label_eq, Selection.label_under]
  · rw [← Selection.expr_under label t]
    exact hitem.becomes

/-- A level lists what its projections give, in this order. -/
theorem CompiledLevel.exists_listing {depth : Nat} {q : Query} {parent : Option Scope}
    {n n' : Names} {s : Select} (h : compileLevel placement calls depth q parent n = .ok (s, n')) :
    ∃ (level : CompiledLevel placement calls) (selections : List Selection), level.query = q ∧
      level.parent = parent ∧ level.before = n ∧ level.select = s ∧ level.after = n' ∧
      level.row.Selects calls q.projections selections ∧
      List.Forall₂ level.Lists selections s.items := by
  cases depth with
  | zero => simp [compileLevel, checked_eq_ok_iff] at h
  | succ depth =>
    obtain ⟨l, m, es, run, groups, rest, rs, m', happlies, hlabels, hitems, hrest⟩ :=
      compileLevel_run_items h
    let level : CompiledLevel placement calls := ⟨depth, q, parent, n, s, n', l, m, es, run⟩
    have hbecomes := level.becomes_each (.refl _)
      (resolvesAll_grows (compileLevel_grows placement calls depth) hrest) hitems
    refine ⟨level, groups.flatten, rfl, rfl, rfl, rfl, rfl, ⟨groups, happlies, rfl⟩, ?_⟩
    generalize groups.flatten = selections at hlabels hbecomes
    have hlength : selections.length = s.items.length := by
      simpa using (congrArg List.length hlabels).symm
    refine List.forall₂_iff_get.mpr ⟨hlength, fun i hs hitem => ⟨?_, ?_⟩⟩
    · have hlabel := congrArg (·[i]?) hlabels
      simpa [List.getElem?_eq_getElem hs, List.getElem?_eq_getElem hitem] using hlabel
    · have hbecome := hbecomes.get (i := i) (by simpa using hs) (by simpa using hitem)
      simpa using hbecome

/-- What `e` is resolved to, `e'` is resolved to as well, unless it asks for what is not there. -/
def CompiledLevel.SameThere (level : CompiledLevel placement calls) (e e' : Expr Query) : Prop :=
  ∀ n r n', resolve (subqueryOf placement (compileLevel placement calls level.depth)) level.scope e
      n = .ok (r, n') →
    resolve (subqueryOf placement (compileLevel placement calls level.depth)) level.scope e' n =
        .ok (r, n') ∨
      resolve (subqueryOf placement (compileLevel placement calls level.depth)) level.scope e' n =
        .error .missing

theorem CompiledLevel.sameThere_of_twin {depth : Nat}
    (level : CompiledLevel placement (.within depth)) {target : Query} {label : String}
    {e e' : Expr Query} (h : e.Twin (target.readAs label) e') : level.SameThere e e' := by
  have hcalls := Calls.agree_sparing (target.readAs label) (Nat.le_refl depth)
  have hnone : Calls.sparing (target.readAs label).spared depth = .within depth :=
    Calls.sparing_none depth
  rw [hnone] at hcalls
  have hlevel := compileLevel_twin (target.readAs label) placement hcalls.1 hcalls.2 level.depth
  have htogether : Together Eq
      (resolve (subqueryOf placement (compileLevel placement (.within depth) level.depth))
        level.scope e)
      (resolve (subqueryOf placement (compileLevel placement (.within depth) level.depth))
        level.scope e') :=
    resolve_twin (fun _ _ => subqueryOf_twin placement hlevel level.scope) h
  intro n r n' hr
  have hagree := htogether n
  rw [hr] at hagree
  generalize resolve _ level.scope e' n = outcome at hagree ⊢
  cases hagree with
  | @ok _ p h =>
    obtain ⟨rfl, rfl⟩ := h
    exact .inl rfl
  | missing => exact .inr rfl

/-- What the merged query selects, and what the same selections are when they are written for the
joining query, is resolved alike. -/
theorem CompiledLevel.sameThere_written {target : Query} (htarget : target.Regular)
    {label : String} {depth : Nat} (level : CompiledLevel placement (.within (depth + 1)))
    {written : List Projection} {added given : List Selection}
    (hadded : (target.atMerged label level.row).Selects (.within depth) target.projections added)
    (hwritten : List.Forall₂ (Projection.ReadsAs (target.readAs label)) target.projections written)
    (hgiven : level.row.Selects (.within (depth + 1)) written given) :
    List.Forall₂ (fun t t' => t'.label = t.label ∧ level.SameThere t.expr t'.expr) added given := by
  refine (Row.Selects.twins htarget rfl (Nat.le_succ depth) hwritten hadded hgiven).imp ?_
  exact fun t t' ht => ⟨ht.label_eq, level.sameThere_of_twin ht.expr⟩

/-- **What a merged query selects is listed behind the selections of the joining query, and not at
all if that one has no projections.** With projections the list is that of the joining query and
then, in order, that of the merged one, whose callbacks are called with a row that calls their
source by the alias of the join; each item is named under this alias if it has a name or is a
plain column, and its expression becomes what the same selection becomes when it is written with
the alias. Without projections the list stays `*`, so what the merged query selects is listed only
if it selects nothing. -/
theorem merged_selections_listed_iff {parent target flat : Query} {options : JoinOptions}
    (htarget : target.Regular) (hmerge : (target.mergeableTable options.kind).isSome)
    (hprojections : target.projections ≠ []) (hflat : parent.joinQuery target options = .ok flat)
    {calls depth : Nat} {q : Query} (hq : q.projections = flat.projections) {outer : Option Scope}
    {n n' : Names} {s : Select}
    (h : compileLevel placement (.within (calls + 1)) depth q outer n = .ok (s, n')) :
    ∃ (label : String) (level : CompiledLevel placement (.within (calls + 1)))
      (own : List Selection),
      parent.claimAlias (target.name.getD target.defaultSource) options.label = .ok label ∧
      level.query = q ∧ level.parent = outer ∧ level.before = n ∧ level.select = s ∧
      level.after = n' ∧ level.row.Selects (.within (calls + 1)) parent.projections own ∧
      (∀ name, (target.atMerged label level.row).columnOf target.baseSource name =
        .column label name) ∧
      (parent.projections = [] → s.items = []) ∧
      (parent.projections ≠ [] → ∃ added,
        (target.atMerged label level.row).Selects (.within calls) target.projections added) ∧
      ∀ added, (target.atMerged label level.row).Selects (.within calls) target.projections added →
        ((∃ front back, s.Shows (front ++ back) ∧
            (if parent.projections = [] then front = [⟨.raw "*", none⟩]
              else List.Forall₂ level.Lists own front) ∧
            List.Forall₂ (fun t item => item.label =
                (t.label <|> t.expr.columnName?).map (label ++ "." ++ ·) ∧
              level.Becomes t.expr item.expr) added back) ↔
          parent.projections ≠ [] ∨ added = []) ∧
        ∀ written given,
          List.Forall₂ (Projection.ReadsAs (target.readAs label)) target.projections written →
          level.row.Selects (.within (calls + 1)) written given →
          List.Forall₂ (fun t t' => t'.label = t.label ∧ level.SameThere t.expr t'.expr)
            added given := by
  obtain ⟨label, hclaim, hflat⟩ := Query.projections_of_joinQuery hmerge hflat
  obtain ⟨level, selections, hquery, hparent, hbefore, hselect, hafter, hselects, hlists⟩ :=
    CompiledLevel.exists_listing h
  rw [hq, hflat] at hselects
  have hcolumns : ∀ name, (target.atMerged label level.row).columnOf target.baseSource name =
      .column label name := target.columnOf_atMerged label rfl
  by_cases hnone : parent.projections = []
  · rw [if_pos hnone, Row.selects_nil_iff] at hselects
    subst hselects
    have hitems : s.items = [] := List.forall₂_nil_left_iff.mp hlists
    refine ⟨label, level, [], hclaim, hquery, hparent, hbefore, hselect, hafter,
      hnone ▸ Row.selects_nil_iff.mpr rfl, hcolumns, fun _ => hitems, fun hne => absurd hnone hne,
      fun added hadded => ⟨?_, fun _ _ => level.sameThere_written htarget hadded⟩⟩
    simp only [if_pos hnone]
    constructor
    · rintro ⟨front, back, hshows, rfl, hback⟩
      obtain rfl := (Select.shows_star_append_iff hitems).mp hshows
      exact .inr (List.forall₂_nil_right_iff.mp hback)
    · rintro (hne | rfl)
      · exact absurd hnone hne
      · exact ⟨_, [], (Select.shows_star_append_iff hitems).mpr rfl, rfl, .nil⟩
  · rw [if_neg hnone] at hselects
    obtain ⟨own, merged, hown, hmerged, rfl⟩ := hselects.of_append
    obtain ⟨added, hadded, rfl⟩ := hmerged.of_merged hprojections
    refine ⟨label, level, own, hclaim, hquery, hparent, hbefore, hselect, hafter, hown, hcolumns,
      fun he => absurd he hnone, fun _ => ⟨added, hadded⟩,
      fun added' hadded' => ⟨?_, fun _ _ => level.sameThere_written htarget hadded'⟩⟩
    obtain rfl := hadded.unique hadded'
    simp only [if_neg hnone]
    refine ⟨fun _ => .inl hnone, fun _ => ?_⟩
    obtain ⟨front, back, hfront, hback, hitems⟩ := exists_append_of_forall₂ hlists
    exact ⟨front, back, .inl hitems, hfront, CompiledLevel.lists_under hback⟩

/-! ### Trips with their stops -/

/-- Stops by a plain column, a named one and a comparison. -/
def delayedStops : Query :=
  (Query.ofTable "stops").select ⟨[.column "name", .column "delay" (some "late"),
    .item (.apply .gt (.column (.up 0) none "delay") (.value (.raw "0"))) none], []⟩

theorem regular_delayedStops : delayedStops.Regular :=
  (Query.regular_ofSource "stops" "stops" none).of_eq rfl rfl rfl rfl rfl

/-- What the stops select for a row. -/
theorem selects_delayedStops {row : Row} {calls : Calls} {added : List Selection}
    (h : row.Selects calls delayedStops.projections added) :
    added = [⟨row.column "name", none⟩, ⟨row.column "delay", some "late"⟩,
      ⟨(row.column "delay").apply .gt (.raw "0"), none⟩] :=
  Row.Selects.unique ⟨_, .cons rfl .nil, rfl⟩ h

/-- Behind the day of a trip, the three selections are listed. -/
theorem delayedStops_listed : ∃ (flat : Query) (s : Statement)
    (level : CompiledLevel .hoisted .deep) (own added : List Selection)
    (front back : List SelectItem),
    (Query.ofTable "trips" none ["day"]).joinQuery delayedStops (everywhere (some "s")) = .ok flat ∧
    flat.statement = .ok s ∧ level.query = flat ∧ level.select = s.body ∧ added.length = 3 ∧
    s.body.Shows (front ++ back) ∧ List.Forall₂ level.Lists own front ∧
    List.Forall₂ (fun t item => item.label =
        (t.label <|> t.expr.columnName?).map ("s" ++ "." ++ ·) ∧
      level.Becomes t.expr item.expr) added back := by
  obtain ⟨flat, hflat⟩ := except_isOk_iff.mp (by decide +kernel :
    ((Query.ofTable "trips" none ["day"]).joinQuery delayedStops (everywhere (some "s"))).isOk)
  obtain ⟨text, htext⟩ := except_isOk_iff.mp (by
    have hsql : (((Query.ofTable "trips" none ["day"]).joinQuery delayedStops
        (everywhere (some "s"))).map fun flat => flat.toSql.isOk) = .ok true := by decide +kernel
    rw [hflat] at hsql
    exact Except.ok.inj hsql : flat.toSql.isOk)
  obtain ⟨s, hs, -⟩ := except_map_eq_ok_iff.mp htext
  have hstatement := hs
  rw [Query.statement, statementWithin_eq] at hstatement
  obtain ⟨⟨body, names⟩, hrun, rfl⟩ := except_map_eq_ok_iff.mp hstatement
  obtain ⟨label, level, own, hlabel, hquery, -, -, hselect, -, -, -, -, hadded, hlists⟩ :=
    merged_selections_listed_iff regular_delayedStops (by decide) (by decide)
      hflat rfl hrun
  obtain rfl : "s" = label := by
    have hclaim : (Query.ofTable "trips" none ["day"]).claimAlias "stops" (some "s") = .ok "s" := by
      decide +kernel
    exact Except.ok.inj (hclaim.symm.trans hlabel)
  obtain ⟨added, hadded⟩ := hadded (by decide)
  obtain ⟨front, back, hitems, hfront, hback⟩ := (hlists added hadded).1.mpr (.inl (by decide))
  rw [if_neg (by decide)] at hfront
  have hlength : added.length = 3 := congrArg List.length (selects_delayedStops hadded)
  exact ⟨flat, _, level, own, added, front, back, hflat, hs, hquery, hselect, hlength, hitems,
    hfront, hback⟩

/-- Behind all columns of a trip, none of them is. -/
theorem delayedStops_not_listed :
    delayedStops.toSql = .ok ("SELECT \"stops\".\"name\",\n" ++
      "    \"stops\".\"delay\" AS \"late\",\n    \"stops\".\"delay\" > (0)\n" ++
      "FROM \"stops\" AS \"stops\"") ∧
    ∃ flat, (Query.ofTable "trips").joinQuery delayedStops (everywhere (some "s")) = .ok flat ∧
      flat.toSql = .ok
        "SELECT *\nFROM \"trips\" AS \"trips\"\n    INNER JOIN \"stops\" AS \"s\" ON TRUE" :=
  ⟨by decide +kernel, except_map_eq_ok_iff.mp (by decide +kernel)⟩

end Sql

end QueryBuilder
