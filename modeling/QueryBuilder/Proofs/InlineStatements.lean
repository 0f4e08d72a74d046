import QueryBuilder.Proofs.WithClauses
import QueryBuilder.Proofs.SameScopes

/-! Statements and subqueries that are compiled on their own.

A query can be compiled as a statement, or as a subquery of an expression that is compiled on its
own. The two start in different places. A statement is in no scope and keeps all entries at its
head; a subquery is in the scope of the expression, and leaves no entry outside. In an empty scope
the first makes no difference, since nothing is looked up otherwise there, unless a callback asks
whether there is a scope around its own. The second makes none either if the entries are all the
query's own: if no subquery that is embedded in its course has a nested source, whatever nested
sources the query itself has. -/
namespace QueryBuilder

/-- No source of the query is nested. -/
def Query.isFlat (q : Query) : Bool :=
  q.sources.all fun s => match s.data with
    | .table .. => true
    | .nested _ => false

namespace Sql

variable {α β γ : Type} {calls : Calls} {placement : EntryPlacement}

/-! ### Levels in scopes that hold the same -/

theorem mapM_eq_of_forall₂ {S : α → β → Prop} {xs : List α} {ys : List β}
    (h : List.Forall₂ S xs ys) {f : α → Naming γ} {g : β → Naming γ}
    (hfg : ∀ a b, S a b → f a = g b) : xs.mapM f = ys.mapM g := by
  induction h with
  | nil => rfl
  | cons hab _ ih => rw [List.mapM_cons, List.mapM_cons, hfg _ _ hab, ih]

/-- Related outcomes are gone on with alike. -/
theorem checked_bind_eq {S : α → β → Prop} {x : Except Fault α} {y : Except Fault β}
    (h : SameOutcome S x y) {f : α → Naming γ} {g : β → Naming γ}
    (hfg : ∀ a b, S a b → f a = g b) : (checked x >>= f) = (checked y >>= g) := by
  cases h with
  | ok hab => exact hfg _ _ hab
  | error => rfl

theorem mapM_checked (f : α → Except Fault β) (xs : List α) :
    (xs.mapM fun x => checked (f x)) = checked (xs.mapM f) := by
  induction xs with
  | nil => rfl
  | cons x xs ih =>
    rw [List.mapM_cons, List.mapM_cons, ih]
    cases f x with
    | error fault => rfl
    | ok y =>
      show (checked (xs.mapM f) >>= fun ys => pure (y :: ys)) = checked (_ >>= fun ys => _)
      cases xs.mapM f <;> rfl

/-- The same tables, in scopes that hold the same. -/
structure LevelScope.Same (l l' : LevelScope) : Prop where
  scope : l.scope.Same l'.scope
  tables_eq : l'.tables = l.tables

namespace LevelScope.Same
variable {l l' : LevelScope}

theorem bind (h : l.Same l') {s s' : Source} (hs : s.Akin s') (label : String) (table : TableRef) :
    (l.bind s label table).Same (l'.bind s' label table) := by
  unfold LevelScope.bind
  rw [hs.label_eq, hs.data.relation_eq, h.tables_eq]
  exact ⟨h.scope.bind _ _, rfl⟩

theorem item_eq (h : l.Same l') : l'.item = l.item := by
  funext source
  unfold LevelScope.item
  rw [h.tables_eq, h.scope.resolve_eq]

end LevelScope.Same

section
variable {level : Query → Option Scope → Naming Select}

/-- Levels that are compiled alike for akin queries in scopes that hold the same. -/
def SameLevels (level : Query → Option Scope → Naming Select) : Prop :=
  ∀ (q q' : Query) (parent parent' : Option Scope), q.Akin q' →
    (Scope.child parent).Same (Scope.child parent') → level q parent = level q' parent'

theorem visit_bind_eq (hlevel : SameLevels level) {s s' : Source} (hs : s.Akin s')
    {l l' : LevelScope} (hl : l.Same l') {f g : LevelScope → Naming α}
    (hfg : ∀ l l', l.Same l' → f l = g l') :
    (visit level l s >>= f) = (visit level l' s' >>= g) := by
  have hnext := fun label table => hfg _ _ (hl.bind hs label table)
  cases hs with
  | @mk source d d' hdata =>
    cases hdata with
    | refl =>
      cases d <;> simp only [visit, bind_assoc, pure_bind, hnext]
    | nested hq =>
      have hbody := hlevel _ _ _ _ hq (Scope.Same.child hq.parts.context)
      simp only [visit, bind_assoc, pure_bind, hbody, hnext]

theorem visits_bind_eq (hlevel : SameLevels level) {sources sources' : List Source}
    (hsources : List.Forall₂ Source.Akin sources sources') {l l' : LevelScope} (hl : l.Same l')
    {f g : LevelScope → Naming α} (hfg : ∀ l l', l.Same l' → f l = g l') :
    (sources.foldlM (visit level) l >>= f) = (sources'.foldlM (visit level) l' >>= g) := by
  induction hsources generalizing l l' with
  | nil =>
    rw [List.foldlM_nil, List.foldlM_nil, pure_bind, pure_bind]
    exact hfg l l' hl
  | cons hs _ ih =>
    rw [List.foldlM_cons, List.foldlM_cons, bind_assoc, bind_assoc]
    exact visit_bind_eq hlevel hs hl fun l l' hl => ih hl

theorem subqueryOf_akin (hlevel : SameLevels level) {q q' : Query} (hq : q.Akin q')
    {outer outer' : Scope} (houter : outer.Same outer') :
    subqueryOf placement level q outer = subqueryOf placement level q' outer' := by
  have hparent : (Scope.child (some (q.context.getD outer))).Same
      (Scope.child (some (q'.context.getD outer'))) := by
    have hcontext := hq.parts.context
    generalize q.context = context, q'.context = context' at hcontext
    cases hcontext with
    | none => exact houter.child_some
    | some hscope => exact hscope.child_some
  simp only [subqueryOf, hq.tables_eq, hlevel _ _ _ _ hq hparent]

theorem resolve_akin {subquery : Query → Scope → Naming Statement} {scope scope' : Scope}
    (hscope : scope.Same scope')
    (h : ∀ q q' : Query, q.Akin q' → subquery q scope = subquery q' scope') {e e' : Expr Query}
    (he : e.Akin e') : resolve subquery scope e = resolve subquery scope' e' := by
  have hrefl : ∀ e, resolve subquery scope e = resolve subquery scope' e := by
    intro e
    induction e with
    | column | star => simp only [resolve, hscope.resolve_eq]
    | raw | text => rfl
    | unary _ _ _ ih => simp only [resolve, ih]
    | binary _ _ _ _ _ ihl ihr => simp only [resolve, ihl, ihr]
    | subquery q => simp only [resolve, h q q .refl]
  induction he with
  | refl => exact hrefl _
  | unary _ ih => simp only [resolve, ih]
  | binary _ _ ihl ihr => simp only [resolve, ihl, ihr]
  | subquery hq => simp only [resolve, h _ _ hq]

end

section
variable {resolveHere resolveHere' : Expr Query → Naming (Expr Statement)}
  (hresolve : ∀ e e' : Expr Query, e.Akin e' → resolveHere e = resolveHere' e')
  (hcalls : calls.Uniform) {row row' : Row} (hrow : row.Akin row')

include hresolve hcalls hrow

theorem projected_akin {p p' : Projection} (hp : p.Akin p') :
    projected calls resolveHere row p = projected calls resolveHere' row' p' := by
  refine checked_bind_eq (hp.apply hcalls hrow) fun ss ss' hss => mapM_eq_of_forall₂ hss ?_
  rintro _ _ ⟨he⟩
  rw [hresolve _ _ he]

theorem joined_akin {l l' : LevelScope} (hl : l.Same l') {j j' : JoinClause} (hj : j.Akin j') :
    joined calls resolveHere row l j = joined calls resolveHere' row' l' j' := by
  unfold joined
  rw [hl.item_eq, hj.label_eq, hj.kind_eq]
  refine checked_bind_eq (hj.on.apply hcalls hrow) fun e e' he => ?_
  rw [hresolve _ _ he]

theorem filtered_akin {ps ps' : List Predicate} (hps : List.Forall₂ Predicate.Akin ps ps') :
    filtered calls resolveHere row ps = filtered calls resolveHere' row' ps' := by
  unfold filtered
  rw [mapM_checked, mapM_checked]
  refine checked_bind_eq (.mapM hps fun p p' hp => hp.apply hcalls hrow) fun es es' hes => ?_
  exact mapM_eq_of_forall₂ hes hresolve

theorem sorted_akin {sorting sorting' : Option Sorting}
    (h : Option.Rel Sorting.Akin sorting sorting') :
    sorted calls resolveHere row sorting = sorted calls resolveHere' row' sorting' := by
  cases h with
  | none => rfl
  | some hs =>
    refine checked_bind_eq (hs.apply hcalls hrow) fun ks ks' hks => mapM_eq_of_forall₂ hks ?_
    rintro _ _ ⟨he⟩
    rw [hresolve _ _ he]

end

/-- Akin queries compile alike in scopes that hold the same. -/
theorem compileLevel_akin (placement : EntryPlacement) (hcalls : calls.Uniform) (depth : Nat) :
    SameLevels (compileLevel placement calls depth) := by
  induction depth with
  | zero => exact fun _ _ _ _ _ _ => rfl
  | succ depth ih =>
    intro q q' parent parent' hq hparent
    have hparts := hq.parts
    have hstart : LevelScope.Same { scope := .child parent } { scope := .child parent' } :=
      ⟨hparent, rfl⟩
    simp only [compileLevel, levelOf]
    refine visits_bind_eq ih hparts.sources hstart fun l l' hl => ?_
    have hrow := Row.akin_bound hq hl.scope
    have hresolve : ∀ e e' : Expr Query, e.Akin e' →
        resolve (subqueryOf placement (compileLevel placement calls depth)) l.scope e =
          resolve (subqueryOf placement (compileLevel placement calls depth)) l'.scope e' :=
      fun e e' he => resolve_akin hl.scope (fun _ _ hq => subqueryOf_akin ih hq hl.scope) he
    rw [mapM_eq_of_forall₂ hparts.projections fun _ _ hp => projected_akin hresolve hcalls hrow hp,
      mapM_eq_of_forall₂ hparts.joins fun _ _ hj => joined_akin hresolve hcalls hrow hl hj,
      filtered_akin hresolve hcalls hrow hparts.filters,
      sorted_akin hresolve hcalls hrow hparts.sorting, hl.item_eq, hparts.base_eq, hparts.limit_eq]

/-! ### Subqueries without nested sources -/

/-- A subquery of a statement; one that has a nested source is given up with the fault. -/
def markedSubquery (mark : Fault) (level : Query → Option Scope → Naming Select) (query : Query)
    (outer : Scope) : Naming Statement :=
  if query.isFlat then subqueryOf .hoisted level query outer else checked (.error mark)

/-- Compiles a level, and gives up with the fault where a subquery has a nested source. -/
def compileMarked (mark : Fault) (calls : Calls) :
    (depth : Nat) → Query → Option Scope → Naming Select
  | 0, _, _ => checked (.error .tooDeep)
  | depth + 1, query, parent =>
    levelOf calls (compileMarked mark calls depth)
      (markedSubquery mark (compileMarked mark calls depth)) query parent

/-- The second computation does what the first does, unless that one is given up with the fault. -/
def UnlessGivenUp (mark : Fault) (x y : Naming α) : Prop := ∀ n, x n = .error mark ∨ x n = y n

namespace UnlessGivenUp
variable {mark : Fault}

theorem refl (x : Naming α) : UnlessGivenUp mark x x := fun _ => .inr rfl

theorem bind {x y : Naming α} (h : UnlessGivenUp mark x y) {f g : α → Naming β}
    (hfg : ∀ a, UnlessGivenUp mark (f a) (g a)) : UnlessGivenUp mark (x >>= f) (y >>= g) := by
  intro n
  show Except.bind (x n) (fun p => f p.1 p.2) = _ ∨
    Except.bind (x n) (fun p => f p.1 p.2) = Except.bind (y n) fun p => g p.1 p.2
  rcases h n with hx | hx
  · rw [hx]
    exact .inl rfl
  · rw [← hx]
    cases x n with
    | error fault => exact .inr rfl
    | ok p => exact hfg p.1 p.2

/-- The same first step. -/
theorem bind_left (x : Naming α) {f g : α → Naming β} (hfg : ∀ a, UnlessGivenUp mark (f a) (g a)) :
    UnlessGivenUp mark (x >>= f) (x >>= g) := (refl x).bind hfg

/-- The same result first. -/
theorem checked_bind {x : Except Fault α} {f g : α → Naming β}
    (hfg : ∀ a, x = .ok a → UnlessGivenUp mark (f a) (g a)) :
    UnlessGivenUp mark (checked x >>= f) (checked x >>= g) := by
  cases x with
  | error fault => exact .refl _
  | ok a => exact hfg a rfl

theorem mapM {f g : α → Naming β} {xs : List α}
    (hfg : ∀ a ∈ xs, UnlessGivenUp mark (f a) (g a)) :
    UnlessGivenUp mark (xs.mapM f) (xs.mapM g) := by
  induction xs with
  | nil => exact .refl _
  | cons x xs ih =>
    rw [List.mapM_cons, List.mapM_cons]
    obtain ⟨hx, hxs⟩ := List.forall_mem_cons.mp hfg
    exact hx.bind fun y => (ih hxs).bind fun ys => .refl _

theorem foldlM {f g : β → α → Naming β} {xs : List α}
    (hfg : ∀ b, ∀ a ∈ xs, UnlessGivenUp mark (f b a) (g b a)) (b : β) :
    UnlessGivenUp mark (xs.foldlM f b) (xs.foldlM g b) := by
  induction xs generalizing b with
  | nil => exact .refl _
  | cons x xs ih =>
    rw [List.foldlM_cons, List.foldlM_cons]
    exact (hfg b x List.mem_cons_self).bind (ih fun b a ha => hfg b a (List.mem_cons_of_mem _ ha))

variable {subquery subquery' : Query → Scope → Naming Statement}
  {level level' : Query → Option Scope → Naming Select}

theorem resolve {scope : Scope} {e : Expr Query}
    (h : ∀ q ∈ e.subqueries, UnlessGivenUp mark (subquery q scope) (subquery' q scope)) :
    UnlessGivenUp mark (resolve subquery scope e) (resolve subquery' scope e) := by
  induction e with
  | column | star | raw | text => exact .refl _
  | unary _ _ _ ih => exact (ih h).bind fun _ => .refl _
  | binary _ _ _ _ _ ihl ihr =>
    obtain ⟨hl, hr⟩ := List.forall_mem_append.mp h
    exact (ihl hl).bind fun _ => (ihr hr).bind fun _ => .refl _
  | subquery q => exact (h q (List.mem_singleton_self q)).bind fun _ => .refl _

theorem visit {source : Source} (h : ∀ inner, source.data = .nested inner →
      UnlessGivenUp mark (level inner inner.context) (level' inner inner.context))
    (l : LevelScope) : UnlessGivenUp mark (visit level l source) (visit level' l source) := by
  cases hdata : source.data with
  | table =>
    simp only [Sql.visit, hdata]
    exact .refl _
  | nested inner =>
    simp only [Sql.visit, hdata]
    exact .bind_left _ fun _ => (h inner hdata).bind fun _ => .refl _

/-- What holds of nested sources and of subqueries holds of the level. -/
theorem levelOf {q : Query} {parent : Option Scope}
    (hlevel : ∀ s ∈ q.sources, ∀ inner, s.data = .nested inner →
      UnlessGivenUp mark (level inner inner.context) (level' inner inner.context))
    (hsubquery : ∀ scope e, Gives calls q (Row.bound q scope) e → ∀ q' ∈ e.subqueries,
      UnlessGivenUp mark (subquery q' scope) (subquery' q' scope)) :
    UnlessGivenUp mark (levelOf calls level subquery q parent)
      (levelOf calls level' subquery' q parent) := by
  refine (foldlM (fun l s hs => visit (hlevel s hs) l) _).bind fun l => ?_
  have hresolve : ∀ e, Gives calls q (Row.bound q l.scope) e →
      UnlessGivenUp mark (Sql.resolve subquery l.scope e) (Sql.resolve subquery' l.scope e) :=
    fun e he => resolve (hsubquery l.scope e he)
  refine (mapM fun p hp => checked_bind fun ss hss => mapM fun s hs => ?_).bind fun items => ?_
  · exact (hresolve _ (.projection hp hss hs)).bind fun _ => .refl _
  refine .bind_left _ fun base => ?_
  refine (mapM fun j hj => checked_bind fun e he => ?_).bind fun joins => ?_
  · exact (hresolve e (.join hj he)).bind fun _ => .refl _
  refine UnlessGivenUp.bind ?_ fun conditions => ?_
  · unfold filtered
    rw [mapM_checked]
    refine checked_bind fun es hes => mapM fun e he => hresolve e ?_
    obtain ⟨p, hp, happly⟩ := exists_of_forall₂ (except_mapM_eq_ok_iff.mp hes) he
    exact .filter hp happly
  refine UnlessGivenUp.bind ?_ fun sorting => .refl _
  cases hsorting : q.sorting with
  | none => exact .refl _
  | some sorting =>
    refine checked_bind fun keys hkeys => mapM fun key hkey => ?_
    exact (hresolve _ (.sorting hsorting hkeys hkey)).bind fun _ => .refl _

end UnlessGivenUp

/-- No entry arises in the sources of a query without nested ones. -/
theorem pending_of_visits {level : Query → Option Scope → Naming Select} {sources : List Source}
    (hflat : ∀ s ∈ sources, ∀ inner, s.data ≠ .nested inner) {l l' : LevelScope} {n n' : Names}
    (h : sources.foldlM (visit level) l n = .ok (l', n')) : n'.pending = n.pending := by
  refine visits_invariant (I := fun _ _ m => m.pending = n.pending) [] ?_ rfl h
  intro s hs _ l l' m m' hm hvisit
  cases hdata : s.data with
  | table name relation =>
    obtain ⟨label, -, -, rfl, -⟩ := visit_table_run hdata hvisit
    exact hm
  | nested inner => exact absurd hdata (hflat s hs inner)

/-- Where subqueries are inline, expressions leave the pending entries as they are. -/
theorem ResolvesAll.pending_inline {level : Query → Option Scope → Naming Select} {scope : Scope}
    {es : List (Expr Query)} {rs : List (Expr Statement)} {n n' : Names}
    (h : ResolvesAll (resolve (subqueryOf .inline level) scope) es n rs n') :
    n'.pending = n.pending := by
  induction h with
  | nil => rfl
  | cons he _ ih => exact ih.trans (pending_resolve_inline he)

/-- The level of a query without nested sources leaves no entries, when subqueries are inline. -/
theorem pending_of_isFlat {depth : Nat} {q : Query} (hq : q.isFlat) {parent : Option Scope}
    {n n' : Names} {s : Select}
    (h : compileLevel .inline calls depth q parent n = .ok (s, n')) : n'.pending = n.pending := by
  cases depth with
  | zero => simp [compileLevel, checked_eq_ok_iff] at h
  | succ depth =>
    obtain ⟨l, m, es, hrun⟩ := compileLevel_run h
    have hflat : ∀ s ∈ q.sources, ∀ inner, s.data ≠ .nested inner := by
      intro s hs inner hdata
      have htable := List.all_eq_true.mp hq s hs
      simp [hdata] at htable
    exact hrun.resolves.pending_inline.trans (pending_of_visits hflat hrun.visits)

/-- For such a query it makes no difference where the entries of a subquery go. -/
theorem subqueryOf_inline_of_isFlat {depth : Nat} {q : Query} (hq : q.isFlat) (outer : Scope) :
    subqueryOf .inline (compileLevel .inline calls depth) q outer =
      subqueryOf .hoisted (compileLevel .inline calls depth) q outer := by
  funext n
  have hframed := compileLevel_framed .inline calls depth q (some (q.context.getD outer))
  rw [subqueryOf_inline_eq, subqueryOf_hoisted_eq, hframed.eq_behind (n.readTables q.tables)]
  cases hrun : compileLevel .inline calls depth q (some (q.context.getD outer))
      { n.readTables q.tables with pending := [] } with
  | error fault => rfl
  | ok p =>
    have hnone : p.2.pending = [] := pending_of_isFlat hq hrun
    simp [Except.map, Names.behind, Names.readTables, hnone]

/-- Unless a subquery has a nested source, levels compile alike wherever the entries go. -/
theorem compileMarked_unless (mark : Fault) (calls : Calls) (placement : EntryPlacement)
    (depth : Nat) (q : Query) (parent : Option Scope) : UnlessGivenUp mark
      (compileMarked mark calls depth q parent) (compileLevel placement calls depth q parent) := by
  induction depth generalizing q parent with
  | zero => exact .refl _
  | succ depth ih =>
    rw [compileLevel_succ]
    refine .levelOf (fun _ _ inner _ => ih inner _) fun outer _ _ q _ => ?_
    unfold markedSubquery
    split
    · rename_i hq
      have hhoisted : UnlessGivenUp mark
          (subqueryOf .hoisted (compileMarked mark calls depth) q outer)
          (subqueryOf .hoisted (compileLevel placement calls depth) q outer) :=
        .bind_left _ fun _ => (ih _ _).bind fun _ => .refl _
      cases placement with
      | hoisted => exact hhoisted
      | inline =>
        rw [subqueryOf_inline_of_isFlat hq]
        exact hhoisted
    · exact fun _ => .inl rfl

end Sql

/-- No subquery that is embedded when the query is compiled as a statement has a nested source, at
whatever level: giving up at the first such subquery, with some fault, does not end the
compilation with that fault. -/
def Query.EmbedsFlat (calls : Calls) (depth : Nat) (q : Query) : Prop :=
  ∃ mark, Sql.compileMarked mark calls depth q q.context (Sql.initialNames q) ≠ .error mark

namespace Sql

/-- A compilation that succeeds has given up nowhere. -/
theorem embedsFlat_of_isOk {depth : Nat} {q : Query}
    (h : (compileMarked .tooDeep calls depth q q.context (initialNames q)).isOk) :
    q.EmbedsFlat calls depth := by
  refine ⟨.tooDeep, fun herror => ?_⟩
  rw [herror] at h
  cases h

/-- It is enough to know a set of queries, with the nested sources of its queries and with what
their callbacks embed, where nothing embedded has a nested source. -/
theorem embedsFlat_of_closed {Q : Query → Prop}
    (hnested : ∀ q, Q q → ∀ s ∈ q.sources, ∀ inner, s.data = .nested inner → Q inner)
    (hembedded : ∀ q, Q q → ∀ scope e, Gives calls q (Row.bound q scope) e → ∀ q' ∈ e.subqueries,
      Q q' ∧ q'.isFlat) (depth : Nat) {q : Query} (hq : Q q) : q.EmbedsFlat calls depth := by
  have hmarked : ∀ mark depth q, Q q → ∀ parent, UnlessGivenUp mark
      (compileLevel .hoisted calls depth q parent) (compileMarked mark calls depth q parent) := by
    intro mark depth
    induction depth with
    | zero => exact fun _ _ _ => .refl _
    | succ depth ih =>
      intro q hq parent
      rw [compileLevel_succ]
      refine .levelOf (fun s hs inner hdata => ih inner (hnested q hq s hs inner hdata) _) ?_
      intro scope e he q' hq'
      obtain ⟨hclosed, hflat⟩ := hembedded q hq scope e he q' hq'
      unfold markedSubquery
      rw [if_pos hflat]
      exact .bind_left _ fun _ => (ih q' hclosed _).bind fun _ => .refl _
  obtain ⟨mark, hmark⟩ : ∃ mark, compileLevel .hoisted calls depth q q.context
      (initialNames q) ≠ .error mark := by
    by_cases h : compileLevel .hoisted calls depth q q.context (initialNames q) = .error .tooDeep
    · exact ⟨.missing, by simp [h]⟩
    · exact ⟨_, h⟩
  refine ⟨mark, ?_⟩
  rw [← (hmarked mark _ q hq _ _).resolve_left hmark]
  exact hmark

section
variable {depth : Nat} {q : Query}

/-- Then the statement is compiled alike wherever the entries of subqueries go. -/
theorem compileLevel_inline_eq_hoisted (hflat : q.EmbedsFlat calls depth) :
    compileLevel .inline calls depth q q.context (initialNames q) =
      compileLevel .hoisted calls depth q q.context (initialNames q) := by
  obtain ⟨mark, hmark⟩ := hflat
  have hunless := fun placement =>
    (compileMarked_unless mark calls placement depth q q.context _).resolve_left hmark
  exact (hunless .inline).symm.trans (hunless .hoisted)

/-- Such a query is the same statement in an empty scope, entries included, if its callbacks do not
tell that there is one. -/
theorem resolved_subquery_empty (hcalls : calls.Uniform) (hcontext : q.context = none)
    (hflat : q.EmbedsFlat calls depth) : resolvedWith calls depth (.subquery q) .empty =
      (statementWith calls depth q).map .subquery := by
  have hparent : compileLevel .inline calls depth q (some .empty) =
      compileLevel .inline calls depth q none :=
    (compileLevel_akin .inline hcalls depth _ _ _ _ .refl Scope.Same.child_empty).symm
  have hlevel := compileLevel_inline_eq_hoisted hflat
  have hstart : initialNames q =
      { (Names.reserving Scope.empty.displayAliases).readTables q.tables with pending := [] } := by
    unfold initialNames
    rw [hcontext]
    rfl
  rw [resolvedWith_subquery, subqueryOf_inline_eq, statementWith_eq, ← hlevel, hcontext, ← hparent,
    hstart]
  show Except.map _ (Except.map _ (compileLevel .inline calls depth q (some .empty) _)) =
    Except.map _ (Except.map _ (compileLevel .inline calls depth q (some .empty) _))
  cases compileLevel .inline calls depth q (some .empty)
    { (Names.reserving Scope.empty.displayAliases).readTables q.tables with pending := [] } <;> rfl

end

/-- **A query without a context gives the same text as a statement and as a subquery on its own,**
but that the subquery stands in parentheses and is indented; and what one fails with, the other
does too. The nested sources of the query itself may be as many and as deep as they like; only what
is embedded has none. Callbacks may be any functions of their rows that do not tell scopes apart
which hold the same. -/
theorem subquery_toSql (hcalls : calls.Uniform) (depth : Nat) (q : Query)
    (hcontext : q.context = none) (hflat : q.EmbedsFlat calls depth) :
    (resolvedWith calls depth (.subquery q) .empty).map printExpr =
      (statementWith calls depth q).map fun s => "(" ++ indented s.print ++ ")" := by
  rw [resolved_subquery_empty hcalls hcontext hflat]
  cases statementWith calls depth q <;> rfl

/-- Nested sources inside one another, and a subquery without any. -/
def stopsInTripsWithVehicles : Query :=
  stopsInTrips.filter ⟨.existsRow (.value (Row.ofQuery (Query.ofTable "vehicles"))), []⟩

theorem stopsInTripsWithVehicles_embedsFlat :
    stopsInTripsWithVehicles.EmbedsFlat .deep Calls.maxDepth :=
  embedsFlat_of_isOk (by decide +kernel)

theorem stopsInTripsWithVehicles_subquery_toSql : stopsInTripsWithVehicles.toSql.isOk ∧
    (resolvedWith .deep Calls.maxDepth (.subquery stopsInTripsWithVehicles) .empty).map printExpr =
      (statementWith .deep Calls.maxDepth stopsInTripsWithVehicles).map fun s =>
        "(" ++ indented s.print ++ ")" :=
  ⟨by decide +kernel,
    subquery_toSql Calls.deep_uniform _ _ rfl stopsInTripsWithVehicles_embedsFlat⟩

/-- Callbacks that give `A` where there is a scope around that of their row, and `B` where there is
none. -/
def askingForParent : Calls where
  predicate _ row := .ok (.raw (if row.scope.parent?.isSome then "A" else "B"))
  projection _ _ := .ok []

/-- Trips that such a callback chooses from. -/
def trackedTrips : Query :=
  (Query.ofTable "trips").filter ⟨.call ⟨.value (.raw ""), []⟩ (.up 0), []⟩

/-- The callback tells a statement, which has no scope around its level, from a subquery, which has
the empty scope around it. -/
theorem statement_ne_subquery : trackedTrips.context = none ∧
    trackedTrips.EmbedsFlat askingForParent Calls.maxDepth ∧
    (statementWith askingForParent Calls.maxDepth trackedTrips).map Statement.print =
      .ok "SELECT *\nFROM \"trips\" AS \"trips\"\nWHERE B" ∧
    (resolvedWith askingForParent Calls.maxDepth (.subquery trackedTrips) .empty).map printExpr =
      .ok "(SELECT *\n    FROM \"trips\" AS \"trips\"\n    WHERE A)" ∧
    (resolvedWith askingForParent Calls.maxDepth (.subquery trackedTrips) .empty).map printExpr ≠
      (statementWith askingForParent Calls.maxDepth trackedTrips).map fun s =>
        "(" ++ indented s.print ++ ")" :=
  ⟨rfl, embedsFlat_of_isOk (by decide +kernel), by decide +kernel,
    by decide +kernel, by decide +kernel⟩

/-- Callbacks whose bodies are terms do not tell. -/
theorem toSql_subquery (q : Query) (hcontext : q.context = none)
    (hflat : q.EmbedsFlat .deep Calls.maxDepth) :
    (Expr.subquery q).toSql .empty = q.toSql.map fun text => "(" ++ indented text ++ ")" := by
  have hresolved := resolved_subquery_empty Calls.deep_uniform hcontext hflat
  show Except.map printExpr (resolvedWith .deep Calls.maxDepth (.subquery q) .empty) =
    Except.map _ (Except.map Statement.print (statementWith .deep Calls.maxDepth q))
  rw [hresolved]
  cases statementWith .deep Calls.maxDepth q <;> rfl

end Sql

end QueryBuilder
