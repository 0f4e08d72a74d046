import QueryBuilder.Proofs.FreshAliases
import QueryBuilder.Query.Evaluation

/-! Evaluation that leaves a trail.

How many names are in use in the course of an evaluation cannot be told from its result: callbacks
build queries of their own, and what they build need not be kept. So terms are evaluated in
computations that keep a trail (`Traced`): which names the joins and fetches find in use, and which
faults callbacks return of their own accord. The trail is kept when the evaluation fails.

Such an evaluation ends as the program's own does (`Traces`). If that is for want of an alias, the
trail tells why: the candidates are all among its names, or a callback has returned this very
fault. -/
namespace QueryBuilder

variable {α β : Type}

/-- What a computation leaves behind. -/
structure Trail where
  /-- The names that are claimed or reserved, or found in use by a search for an alias. -/
  names : List String := []
  /-- The faults that callbacks return. -/
  returned : List Fault := []

/-- Computations that leave a trail, with a value or without. -/
abbrev Traced := ExceptT Fault (StateM Trail)

namespace Trail

/-- The trail shows where the fault comes from, if it is that there is no alias left. -/
def AccountsFor (t : Trail) (fault : Fault) : Prop :=
  ∀ base attempts, fault = .error (.aliasSpaceExhausted base attempts) →
    Alias.candidates base ⊆ t.names ∨ fault ∈ t.returned

/-- The outcome of a computation as that of a traced one, which has started with `t`. -/
inductive Leads (t : Trail) (post : α → Trail → Prop) :
    Except Fault α → Except Fault α × Trail → Prop
  | ok {a t'} : t.names ⊆ t'.names → post a t' → Leads t post (.ok a) (.ok a, t')
  | error {fault t'} : t'.AccountsFor fault → Leads t post (.error fault) (.error fault, t')

theorem Leads.bind {t : Trail} {post : α → Trail → Prop} {post' : β → Trail → Prop}
    {x : Except Fault α} {y : Traced α} {f : α → Except Fault β} {g : α → Traced β}
    (hx : t.Leads post x (y t)) (hf : ∀ a t', post a t' → t'.Leads post' (f a) (g a t')) :
    t.Leads post' (x >>= f) ((y >>= g) t) := by
  have hrun : (y >>= g) t = ExceptT.bindCont g (y t).1 (y t).2 := rfl
  rw [hrun]
  generalize y t = result at hx
  cases hx with
  | @ok a t' hnames ha =>
    show t.Leads post' (f a) (g a t')
    have hstep := hf a t' ha
    generalize f a = z, g a t' = result at hstep
    cases hstep with
    | ok hnames' hb => exact .ok (List.Subset.trans hnames hnames') hb
    | error haccounts => exact .error haccounts
  | error haccounts => exact .error haccounts

/-- What is computed from a value leaves no trail of its own. -/
theorem Leads.map {t : Trail} {post : α → Trail → Prop} {x : Except Fault α} {y : Traced α}
    (h : t.Leads post x (y t)) (f : α → β) :
    t.Leads (fun _ _ => True) (f <$> x) ((f <$> y) t) := by
  have hrun : (f <$> y) t =
      ExceptT.bindCont (fun a => (pure (f a) : Traced β)) (y t).1 (y t).2 := rfl
  rw [hrun]
  generalize y t = result at h
  cases h with
  | ok hnames _ => exact .ok hnames trivial
  | error haccounts => exact .error haccounts

theorem Leads.outcome_eq {t : Trail} {post : α → Trail → Prop} {x : Except Fault α}
    {p : Except Fault α × Trail} (h : t.Leads post x p) : p.1 = x := by
  cases h <;> rfl

/-- There is room for an alias: the names are no more than a thousand, and no callback has returned
of its own accord that no alias is left. -/
structure Roomy (t : Trail) : Prop where
  few : t.names.dedup.length ≤ 1000
  unprompted : ∀ base attempts, .error (.aliasSpaceExhausted base attempts) ∉ t.returned

/-- A computation that leaves room does not end for want of an alias. -/
theorem Leads.ne_exhausted {t : Trail} {post : α → Trail → Prop} {x : Except Fault α}
    {p : Except Fault α × Trail} (h : t.Leads post x p) (hroomy : p.2.Roomy) (base : String)
    (attempts : Nat) : x ≠ .error (.error (.aliasSpaceExhausted base attempts)) := by
  rintro rfl
  cases h with
  | error haccounts =>
    rcases haccounts base attempts rfl with hsubset | hreturned
    · exact Alias.not_candidates_subset hroomy.few hsubset
    · exact hroomy.unprompted base attempts hreturned

end Trail

/-- The traced computation ends as the plain one does, and accounts for how it ends. -/
def Traces (y : Traced α) (x : Except Fault α) : Prop :=
  ∀ t : Trail, t.Leads (fun _ _ => True) x (y t)

instance : Evaluating Traced where
  noting names result t := (result, { t with names := names ++ t.names })
  returning fault t := (.error fault, { t with returned := fault :: t.returned })

namespace Traces

theorem pure (a : α) : Traces (pure a) (Except.ok a) := fun _ => .ok (List.Subset.refl _) trivial

theorem bind {x : Except Fault α} {y : Traced α} {f : α → Except Fault β} {g : α → Traced β}
    (hx : Traces y x) (hf : ∀ a, Traces (g a) (f a)) : Traces (y >>= g) (x >>= f) :=
  fun t => (hx t).bind fun a t' _ => hf a t'

/-- A search that fails notes all that it has tried. -/
theorem noted {names : List String} {x : Except Fault α}
    (h : ∀ base attempts, x = .error (.error (.aliasSpaceExhausted base attempts)) →
      Alias.candidates base ⊆ names) : Traces (noting names x) x := fun t => by
  cases x with
  | ok a => exact .ok (List.subset_append_right ..) trivial
  | error fault =>
    refine .error fun base attempts he => .inl ?_
    exact List.Subset.trans (h base attempts (congrArg _ he)) (List.subset_append_left ..)

theorem searched {names : List String} {x : Except Error α}
    (h : ∀ base attempts, x = .error (.aliasSpaceExhausted base attempts) →
      Alias.candidates base ⊆ names) : Traces (noting names (liftM x)) (liftM x) := by
  refine .noted fun base attempts he => h base attempts ?_
  cases x with
  | ok a => cases he
  | error e =>
    obtain rfl := Fault.error.inj (Except.error.inj he)
    rfl

/-- Where no alias is looked for, there is no name to be noted. -/
theorem settled {x : Except Fault α}
    (h : ∀ base attempts, x ≠ .error (.error (.aliasSpaceExhausted base attempts))) :
    Traces (settled x) x := .noted fun base attempts he => absurd he (h base attempts)

theorem elementAt (xs : List α) (index : Nat) :
    Traces (QueryBuilder.settled (elementAt xs index)) (elementAt xs index) := by
  refine .settled fun base attempts => ?_
  unfold QueryBuilder.elementAt
  split <;> simp

theorem returning (fault : Fault) : Traces (returning fault : Traced α) (.error fault) :=
  fun _ => .error fun _ _ _ => .inr (List.mem_cons_self ..)

theorem mapM {f : α → Except Fault β} {g : α → Traced β} (h : ∀ a, Traces (g a) (f a))
    (xs : List α) : Traces (xs.mapM g) (xs.mapM f) := by
  induction xs with
  | nil => exact .pure []
  | cons a xs ih =>
    rw [List.mapM_cons, List.mapM_cons]
    exact (h a).bind fun b => ih.bind fun bs => .pure (b :: bs)

end Traces

/-! ### Terms and callbacks -/

/-- The calls end as the plain ones do. -/
structure Calls.Trace (traced : Calls Traced) (calls : Calls) : Prop where
  predicate : ∀ p row, Traces (traced.predicate p row) (calls.predicate p row)
  projection : ∀ p row, Traces (traced.projection p row) (calls.projection p row)

section
variable {traced : Calls Traced} {calls : Calls} (rows : List Row)

mutual

theorem RowTerm.traces : (t : RowTerm) → Traces (t.evaluate traced rows) (t.evaluate calls rows)
  | .up level => .elementAt rows level
  | .value row => .pure row
  | .ofQuery query => query.traces.bind fun _ => .pure _
  | .fetch row _ _ _ =>
    row.traces.bind fun _ => .searched fun _ _ => Row.candidates_subset_of_fetchFrom
  | .filter row _ => row.traces.bind fun _ => .pure _
  | .substitute row _ => row.traces.bind fun _ => .pure _
  | .rebase row _ => row.traces.bind fun _ => .pure _
  | .fail fault => .returning fault

theorem QueryTerm.traces : (t : QueryTerm) → Traces (t.evaluate traced rows) (t.evaluate calls rows)
  | .value query => .pure query
  | .ofRow row => row.traces.bind fun _ => .pure _
  | .included query index => query.traces.bind fun q => .elementAt q.includes index
  | .nestedAt query label => query.traces.bind fun q => by
    split
    · exact .pure _
    · exact .settled (by simp)
  | .named query _ => query.traces.bind fun _ => .pure _
  | .limit query _ => query.traces.bind fun _ => .pure _
  | .selectNone query => query.traces.bind fun _ => .pure _
  | .including query related => query.traces.bind fun _ => related.traces.bind fun _ => .pure _
  | .filter query _ => query.traces.bind fun _ => .pure _
  | .sortBy query _ => query.traces.bind fun _ => .pure _
  | .select query _ => query.traces.bind fun _ => .pure _
  | .andSelect query _ => query.traces.bind fun _ => .pure _
  | .join query target _ _ _ => query.traces.bind fun _ => target.traces.bind fun _ =>
      .searched fun _ _ => Query.candidates_subset_of_join
  | .fail fault => .returning fault

theorem TargetTerm.traces :
    (t : TargetTerm) → Traces (t.evaluate traced rows) (t.evaluate calls rows)
  | .association _ => .pure _
  | .table _ => .pure _
  | .relation _ => .pure _
  | .query query => query.traces.bind fun _ => .pure _
  | .fail fault => .returning fault

end

end

section
variable {traced : Calls Traced} {calls : Calls} (h : traced.Trace calls)
include h

theorem ExprTerm.traces (rows : List Row) (t : ExprTerm) :
    Traces (t.evaluate traced rows) (t.evaluate calls rows) := by
  cases t with
  | value expr => exact .pure expr
  | column row source name => exact (row.traces rows).bind fun _ => .pure _
  | star row source => exact (row.traces rows).bind fun _ => .pure _
  | unary before operand after => exact (operand.traces rows).bind fun _ => .pure _
  | binary fragments left right =>
    refine (left.traces rows).bind fun _ => (right.traces rows).bind fun _ => ?_
    split
    · exact .pure _
    · exact .settled (by simp)
  | apply op left right =>
    exact (left.traces rows).bind fun _ => (right.traces rows).bind fun _ => .pure _
  | applyRightFirst op right left =>
    exact (right.traces rows).bind fun _ => (left.traces rows).bind fun _ => .pure _
  | aggregate function name row => exact (row.traces rows).bind fun _ => .pure _
  | existsRow row => exact (row.traces rows).bind fun _ => .pure _
  | subquery query => exact (query.traces rows).bind fun _ => .pure _
  | condition association owner target row => exact (row.traces rows).bind fun _ => .pure _
  | call p row => exact (row.traces rows).bind fun r => h.predicate p r
  | callFilter query index row =>
    exact (query.traces rows).bind fun q => (row.traces rows).bind fun r =>
      (Traces.elementAt q.filters index).bind fun p => h.predicate p r
  | callJoin query index row =>
    exact (query.traces rows).bind fun q => (row.traces rows).bind fun r =>
      (Traces.elementAt q.joins index).bind fun clause => h.predicate clause.on r
  | fail fault => exact .returning fault

theorem SelectionTerm.traces (rows : List Row) (t : SelectionTerm) :
    Traces (t.evaluate traced rows) (t.evaluate calls rows) := by
  cases t with
  | item expr label => exact (expr.traces h rows).bind fun _ => .pure _
  | call p row => exact (row.traces rows).bind fun r => h.projection p r
  | callUnder label p row =>
    exact (row.traces rows).bind fun r => (h.projection p r).bind fun _ => .pure _
  | callProjection query index row =>
    exact (query.traces rows).bind fun q => (row.traces rows).bind fun r =>
      (Traces.elementAt q.projections index).bind fun p => h.projection p r

theorem SortTerm.traces (rows : List Row) (key : SortTerm) :
    Traces (key.evaluate traced rows) (key.evaluate calls rows) :=
  (key.expr.traces h rows).bind fun _ => .pure _

theorem Predicate.traces (p : Predicate) (row : Row) :
    Traces (p.apply traced row) (p.apply calls row) := p.body.traces h (row :: p.captured)

theorem Projection.traces (p : Projection) (row : Row) :
    Traces (p.apply traced row) (p.apply calls row) :=
  (Traces.mapM (fun t => t.traces h (row :: p.captured)) p.body).bind fun _ => .pure _

theorem Sorting.traces (s : Sorting) (row : Row) :
    Traces (s.apply traced row) (s.apply calls row) :=
  .mapM (fun key => key.traces h (row :: s.captured)) s.body

end

/-- However deep they go, traced calls end as the plain ones do. -/
theorem Calls.trace_within (depth : Nat) :
    (within depth : Calls Traced).Trace (within depth : Calls) := by
  induction depth with
  | zero => exact ⟨fun _ _ => .settled nofun, fun _ _ => .settled nofun⟩
  | succ depth ih => exact ⟨fun p row => p.traces ih row, fun p row => p.traces ih row⟩

end QueryBuilder
