import QueryBuilder.Proofs.TwinEvaluation
import QueryBuilder.Sql.Compilation

/-! Compiling twins.

The compiler reads of a query what twins have in common, and what their callbacks give for
rows of theirs. It therefore claims the same names for both in the same order, and ends with
one and the same select. -/
namespace QueryBuilder.Sql

variable {α β γ δ : Type} {R : Reading}

/-- From every state of the names on, the computations agree and leave the same names. -/
def Together (S : α → β → Prop) (x : Naming α) (y : Naming β) : Prop :=
  ∀ n, Agree (fun p p' => S p.1 p'.1 ∧ p'.2 = p.2) (x n) (y n)

namespace Together
variable {S : α → β → Prop} {T : γ → δ → Prop}

theorem pure {a : α} {b : β} (h : S a b) : Together S (pure a) (pure b) := fun _ => .ok ⟨h, rfl⟩

theorem bind {x : Naming α} {y : Naming β} (h : Together S x y) {f : α → Naming γ}
    {g : β → Naming δ} (hfg : ∀ a b, S a b → Together T (f a) (g b)) :
    Together T (x >>= f) (y >>= g) := by
  intro n
  refine Agree.bind (h n) fun p p' hp => ?_
  obtain ⟨a, m⟩ := p
  obtain ⟨b, m'⟩ := p'
  obtain ⟨hab, hm⟩ := hp
  obtain rfl : m' = m := hm
  exact hfg a b hab m'

theorem refl (x : Naming α) : Together Eq x x := by
  intro n
  cases x n with
  | error f => exact .fault
  | ok p => exact .ok ⟨rfl, rfl⟩

/-- First steps with the same outcome. -/
theorem bind_eq {x y : Naming α} (h : Together Eq x y) {f : α → Naming γ} {g : α → Naming δ}
    (hfg : ∀ a, Together T (f a) (g a)) : Together T (x >>= f) (y >>= g) :=
  h.bind fun a _ hab => hab ▸ hfg a

/-- The same first step. -/
theorem bind_left (x : Naming α) {f : α → Naming γ} {g : α → Naming δ}
    (hfg : ∀ a, Together T (f a) (g a)) : Together T (x >>= f) (x >>= g) := (refl x).bind_eq hfg

theorem checked {x : Except Fault α} {y : Except Fault β} (h : Agree S x y) :
    Together S (checked x) (checked y) := by
  intro n
  cases h with
  | ok hab => exact .ok ⟨hab, rfl⟩
  | fault => exact .fault
  | tooDeep => exact .tooDeep
  | missing => exact .missing

theorem mapM {xs : List α} {ys : List β} (h : List.Forall₂ S xs ys) {f : α → Naming γ}
    {g : β → Naming δ} (hfg : ∀ a b, S a b → Together T (f a) (g b)) :
    Together (List.Forall₂ T) (xs.mapM f) (ys.mapM g) := by
  induction h with
  | nil => exact .pure .nil
  | cons hab _ ih =>
    rw [List.mapM_cons, List.mapM_cons]
    exact (hfg _ _ hab).bind fun c d hcd => ih.bind fun cs ds hrest => .pure (.cons hcd hrest)

/-- Lists of the same values. -/
theorem mapM_eq {xs : List α} {ys : List β} (h : List.Forall₂ S xs ys) {f : α → Naming γ}
    {g : β → Naming γ} (hfg : ∀ a b, S a b → Together Eq (f a) (g b)) :
    Together Eq (xs.mapM f) (ys.mapM g) := by
  intro n
  refine (mapM h hfg n).imp fun p p' hp => ⟨?_, hp.2⟩
  exact List.forall₂_eq_eq_eq ▸ hp.1

theorem foldlM {xs : List α} {ys : List β} (h : List.Forall₂ S xs ys) {f : γ → α → Naming γ}
    {g : γ → β → Naming γ} (hfg : ∀ c a b, S a b → Together Eq (f c a) (g c b)) (c : γ) :
    Together Eq (xs.foldlM f c) (ys.foldlM g c) := by
  induction h generalizing c with
  | nil => exact .pure rfl
  | cons hab _ ih =>
    rw [List.foldlM_cons, List.foldlM_cons]
    refine (hfg c _ _ hab).bind_eq fun c' => ?_
    exact ih c'

end Together

/-! ### Expressions -/

theorem resolve_twin {subquery subquery' : Query → Scope → Naming Statement} {scope : Scope}
    (h : ∀ q q' : Query, q.Twin R q' → Together Eq (subquery q scope) (subquery' q' scope))
    {e e' : Expr Query} (he : e.Twin R e') :
    Together Eq (resolve subquery scope e) (resolve subquery' scope e') := by
  induction he with
  | column | star | raw | text => exact .refl _
  | unary _ ih =>
    simp only [resolve]
    exact ih.bind_eq fun _ => .pure rfl
  | binary _ _ ihl ihr =>
    simp only [resolve]
    refine ihl.bind_eq fun l => ?_
    exact ihr.bind_eq fun _ => .pure rfl
  | subquery hq =>
    simp only [resolve]
    exact (h _ _ hq).bind_eq fun _ => .pure rfl

/-! ### The parts of a level -/

/-- Compiles twin levels to the same select. -/
def SameLevel (R : Reading) (level level' : Query → Option Scope → Naming Select) : Prop :=
  ∀ (q q' : Query) (parent : Option Scope), q.Twin R q' →
    Together Eq (level q parent) (level' q' parent)

theorem visit_twin {level level' : Query → Option Scope → Naming Select}
    (hlevel : SameLevel R level level') (l : LevelScope) {s s' : Source} (hs : s.Twin R s') :
    Together Eq (visit level l s) (visit level' l s') := by
  obtain ⟨label, data⟩ := s
  obtain ⟨label', data'⟩ := s'
  obtain ⟨hlabel, hdata⟩ := hs
  dsimp only at hlabel hdata
  subst hlabel
  have hrelation := hdata.relation_eq
  cases hdata with
  | refl =>
    cases data with
    | table => exact .refl _
    | nested q =>
      simp only [visit]
      exact .bind_left _ fun claimed => (hlevel _ _ _ .refl).bind_eq fun _ => .refl _
  | nested hq =>
    simp only [visit, hq.frame.context_eq]
    refine .bind_left _ fun claimed => (hlevel _ _ _ hq).bind_eq fun body => ?_
    refine .bind_left _ fun _ => ?_
    unfold LevelScope.bind
    dsimp only
    rw [hrelation]
    exact .refl _

section
variable {calls calls' : Calls} {resolveHere resolveHere' : Expr Query → Naming (Expr Statement)}
  (hresolve : ∀ e e' : Expr Query, e.Twin R e' → Together Eq (resolveHere e) (resolveHere' e'))
  {row row' : Row}

include hresolve

theorem projected_twin {p p' : Projection}
    (hp : Agree (List.Forall₂ (Selection.Twin R)) (p.apply calls row) (p'.apply calls' row')) :
    Together Eq (projected calls resolveHere row p) (projected calls' resolveHere' row' p') := by
  unfold projected
  refine (Together.checked hp).bind fun ss ss' hss => .mapM_eq hss fun s s' hs => ?_
  rw [hs.label_eq]
  exact (hresolve _ _ hs.expr).bind_eq fun _ => .pure rfl

theorem joined_twin (l : LevelScope) {j j' : JoinClause} (hj : j.Twin R j')
    (hon : Agree (Expr.Twin R) (j.on.apply calls row) (j'.on.apply calls' row')) :
    Together Eq (joined calls resolveHere row l j) (joined calls' resolveHere' row' l j') := by
  unfold joined
  rw [hj.label_eq, hj.kind_eq]
  exact (Together.checked hon).bind fun e e' he => (hresolve _ _ he).bind_eq fun _ => .refl _

theorem filtered_twin {ps ps' : List Predicate}
    (hps : List.Forall₂ (fun p p' => Agree (Expr.Twin R) (Predicate.apply calls p row)
      (Predicate.apply calls' p' row')) ps ps') :
    Together Eq (filtered calls resolveHere row ps) (filtered calls' resolveHere' row' ps') := by
  unfold filtered
  refine (Together.mapM hps fun p p' hp => .checked hp).bind fun es es' hes => ?_
  exact .mapM_eq hes hresolve

theorem sorted_twin {sorting sorting' : Option Sorting}
    (h : Option.Rel (fun s s' => Agree (List.Forall₂ (SortKey.Twin R)) (Sorting.apply calls s row)
      (Sorting.apply calls' s' row')) sorting sorting') :
    Together Eq (sorted calls resolveHere row sorting)
      (sorted calls' resolveHere' row' sorting') := by
  cases h with
  | none => exact .refl _
  | some hs =>
    simp only [sorted]
    refine (Together.checked hs).bind fun ks ks' hks => .mapM_eq hks fun k k' hk => ?_
    rw [hk.direction_eq]
    exact (hresolve _ _ hk.expr).bind_eq fun _ => .pure rfl

end

/-! ### Levels -/

theorem subqueryOf_twin (placement : EntryPlacement)
    {level level' : Query → Option Scope → Naming Select} (hlevel : SameLevel R level level')
    (outer : Scope) {q q' : Query} (hq : q.Twin R q') :
    Together Eq (subqueryOf placement level q outer) (subqueryOf placement level' q' outer) := by
  unfold subqueryOf
  rw [hq.frame.context_eq, hq.frame.tables_eq]
  refine .bind_left _ fun _ => ?_
  cases placement with
  | hoisted =>
    exact (hlevel _ _ _ hq).bind_eq fun _ => .pure rfl
  | inline =>
    refine Together.bind_eq ?_ fun _ => .refl _
    unfold takingEntries
    exact .bind_left _ fun _ => .bind_left _ fun _ => (hlevel _ _ _ hq).bind_eq fun _ => .refl _

/-- Twin queries compile to the same select. -/
theorem compileLevel_twin (R : Reading) (placement : EntryPlacement) {calls calls' : Calls}
    (hcalls : calls.Agree R calls')
    (hpredicates : ∀ (p p' : Predicate) (r r' : Row), p.Twin R p' → r.Twin R r' →
      r.fetched = false → Agree (Expr.Twin R) (p.apply calls r) (p'.apply calls' r'))
    (depth : Nat) :
    SameLevel R (compileLevel placement calls depth) (compileLevel placement calls' depth) := by
  induction depth with
  | zero => exact fun _ _ _ _ => .refl _
  | succ depth ih =>
    intro q q' parent hq
    have hparts := hq.parts
    simp only [compileLevel, levelOf]
    refine (Together.foldlM hparts.sources (fun l s s' hs => visit_twin ih l hs) _).bind_eq fun l => ?_
    have hrow := Row.twin_bound hq l.scope
    have hresolve : ∀ e e' : Expr Query, e.Twin R e' →
        Together Eq (resolve (subqueryOf placement (compileLevel placement calls depth)) l.scope e)
          (resolve (subqueryOf placement (compileLevel placement calls' depth)) l.scope e') :=
      fun e e' he => resolve_twin (fun _ _ => subqueryOf_twin placement ih l.scope) he
    have hpredicate : ∀ p p' : Predicate, p.Twin R p' → Agree (Expr.Twin R)
        (p.apply calls (Row.bound q l.scope)) (p'.apply calls' (Row.bound q' l.scope)) :=
      fun p p' hp => hpredicates p p' _ _ hp hrow rfl
    refine (Together.mapM_eq hparts.projections fun p p' hp =>
      projected_twin hresolve (hp.apply hcalls hrow)).bind_eq fun items => ?_
    rw [hparts.base_eq, hparts.limit_eq]
    refine .bind_left _ fun base => ?_
    refine (Together.mapM_eq hparts.joins fun j j' hj =>
      joined_twin hresolve l hj (hpredicate _ _ hj.on)).bind_eq fun joins => ?_
    refine (filtered_twin hresolve (hparts.filters.imp hpredicate)).bind_eq fun conditions => ?_
    refine (sorted_twin hresolve ?_).bind_eq fun sorting => .refl _
    have hsorting := hparts.sorting
    generalize q.sorting = sorting, q'.sorting = sorting' at hsorting
    cases hsorting with
    | none => exact .none
    | some hs => exact .some (hs.apply hcalls hrow)

/-! ### Statements -/

theorem statementWith_twin {calls calls' : Calls} (hcalls : calls.Agree R calls')
    (hpredicates : ∀ (p p' : Predicate) (r r' : Row), p.Twin R p' → r.Twin R r' →
      r.fetched = false → Agree (Expr.Twin R) (p.apply calls r) (p'.apply calls' r'))
    (depth : Nat) {q q' : Query} (hq : q.Twin R q') :
    Agree Eq (statementWith calls depth q) (statementWith calls' depth q') := by
  have hnames : initialNames q' = initialNames q := by
    unfold initialNames
    rw [hq.frame.context_eq, hq.frame.tables_eq]
  have hlevel := compileLevel_twin R .hoisted hcalls hpredicates depth q q' q.context hq
    (initialNames q)
  unfold statementWith
  rw [hnames, hq.frame.context_eq]
  simp only [StateT.run]
  generalize compileLevel .hoisted calls depth q q.context (initialNames q) = x at hlevel ⊢
  generalize compileLevel .hoisted calls' depth q' q.context (initialNames q) = y at hlevel ⊢
  cases hlevel with
  | @ok p p' h =>
    obtain ⟨body, names⟩ := p
    obtain ⟨rfl, rfl⟩ := h
    exact .ok rfl
  | fault => exact .fault
  | tooDeep => exact .tooDeep
  | missing => exact .missing

/-- The statement of a query none of whose callbacks calls one of the filters `spared` by hand
for a row that it has fetched. -/
def sparingStatement (spared : Predicate → Bool) (q : Query) : Except Fault Statement :=
  statementWith (.sparing spared Calls.maxDepth) Calls.maxDepth q

/-- Twin queries have the same statement or the same fault. -/
theorem statement_twin {q q' : Query} (hq : q.Twin R q') :
    Agree Eq q.statement (sparingStatement R.spared q') :=
  statementWith_twin (Calls.agree_sparing R (Nat.le_refl _)).1
    (Calls.agree_sparing R (Nat.le_refl _)).2 _ hq

end QueryBuilder.Sql
