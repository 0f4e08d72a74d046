import Mathlib.Order.Filter.AtTopBot.Prod
import QueryBuilder.Proofs.Results
import QueryBuilder.Sql.Compilation

/-! Computations that come to an end.

Evaluation and compilation are computations with a limit: they answer `tooDeep` when callbacks call
callbacks, or levels lie inside levels, beyond it. A computation comes to an end if its outcome is a
value or an error and does not depend on the limit, once this is large enough. What is put together
from computations that come to an end does so too. -/
namespace QueryBuilder

variable {ι κ α β : Type}

/-- In the limit `l` the computation has one outcome: a value with the property, or an error. -/
inductive Ends (l : Filter ι) (x : ι → Except Fault α) (post : α → Prop) : Prop
  | ok {a} : post a → (∀ᶠ i in l, x i = .ok a) → Ends l x post
  | error {e} : (∀ᶠ i in l, x i = .error (.error e)) → Ends l x post

namespace Ends
variable {l : Filter ι} {x y : ι → Except Fault α} {p q : α → Prop} {r : β → Prop}

theorem imp (h : Ends l x p) (hpq : ∀ a, p a → q a) : Ends l x q := by
  cases h with
  | ok ha hx => exact .ok (hpq _ ha) hx
  | error hx => exact .error hx

theorem congr (h : Ends l x p) (hxy : ∀ᶠ i in l, y i = x i) : Ends l y p := by
  cases h with
  | ok ha hx => exact .ok ha ((hxy.and hx).mono fun _ hi => hi.1.trans hi.2)
  | error hx => exact .error ((hxy.and hx).mono fun _ hi => hi.1.trans hi.2)

/-- The limit may be reached in another way. -/
theorem comp (h : Ends l x p) {l' : Filter κ} {g : κ → ι} (hg : Filter.Tendsto g l' l) :
    Ends l' (fun k => x (g k)) p := by
  cases h with
  | ok ha hx => exact .ok ha (hg.eventually hx)
  | error hx => exact .error (hg.eventually hx)

theorem pure {a : α} (h : p a) : Ends l (fun _ => Pure.pure a) p :=
  .ok h (.of_forall fun _ => rfl)

theorem fail (e : Error) : Ends l (fun _ => .error (.error e)) p :=
  .error (.of_forall fun _ => rfl)

theorem lift {x : Except Error α} (h : ∀ a, x = .ok a → p a) :
    Ends l (fun _ => (liftM x : Except Fault α)) p := by
  cases x with
  | ok a => exact .ok (h a rfl) (.of_forall fun _ => rfl)
  | error e => exact .error (.of_forall fun _ => rfl)

theorem bind {f : ι → α → Except Fault β} (hx : Ends l x p)
    (hf : ∀ a, p a → Ends l (fun i => f i a) r) : Ends l (fun i => x i >>= f i) r := by
  cases hx with
  | @error e hx =>
    refine (Ends.fail e).congr (hx.mono fun i hi => ?_)
    rw [hi]
    rfl
  | @ok a ha hx =>
    refine (hf a ha).congr (hx.mono fun i hi => ?_)
    rw [hi]
    rfl

theorem mapM {f : ι → α → Except Fault β} {xs : List α}
    (h : ∀ a ∈ xs, Ends l (fun i => f i a) r) :
    Ends l (fun i => xs.mapM (f i)) fun ys => ∀ y ∈ ys, r y := by
  induction xs with
  | nil => exact .pure (by simp)
  | cons a xs ih =>
    simp only [List.mapM_cons]
    refine (h a (List.mem_cons_self ..)).bind fun y hy => ?_
    refine (ih fun a ha => h a (List.mem_cons_of_mem _ ha)).bind fun ys hys => .pure ?_
    exact List.forall_mem_cons.mpr ⟨hy, hys⟩

/-- What holds of the outcome of all computations holds of each. -/
theorem of_eq (h : Ends ⊤ x p) (i : ι) {a : α} (ha : x i = .ok a) : p a := by
  cases h with
  | ok hp hx =>
    obtain rfl := Except.ok.inj (ha.symm.trans (Filter.eventually_top.mp hx i))
    exact hp
  | error hx => cases ha.symm.trans (Filter.eventually_top.mp hx i)

/-- Where the limit is large enough, the outcome is not that it was reached. -/
theorem exists_outcome (h : Ends l x p) :
    ∃ outcome : Except Error α, ∀ᶠ i in l, x i = outcome.mapError .error := by
  cases h with
  | @ok a _ hx => exact ⟨.ok a, hx⟩
  | @error e hx => exact ⟨.error e, hx⟩

end Ends

/-- How deep calls may lie inside one another, and how deep levels may. -/
abbrev Limits := ℕ × ℕ

/-- What ends with one more level ends. -/
theorem Ends.of_succ_levels {x : Limits → Except Fault α} {p : α → Prop}
    (h : Ends .atTop (fun i : Limits => x (i.1, i.2 + 1)) p) : Ends .atTop x p := by
  have hpred : Filter.Tendsto (fun i : Limits => ((i.1, i.2 - 1) : Limits)) .atTop .atTop := by
    refine Filter.tendsto_atTop.mpr fun b => ?_
    filter_upwards [Filter.eventually_ge_atTop (b.1, b.2 + 1)] with i hi
    exact ⟨hi.1, Nat.le_sub_one_of_lt hi.2⟩
  refine (h.comp hpred).congr ?_
  filter_upwards [Filter.eventually_ge_atTop ((0, 1) : Limits)] with i hi
  rw [Nat.sub_add_cancel hi.2]

/-- What ends with one more call ends. -/
theorem Ends.of_succ_calls {x : ℕ → Except Fault α} {p : α → Prop}
    (h : Ends .atTop (fun i : Limits => x (i.1 + 1)) p) :
    Ends .atTop (fun i : Limits => x i.1) p := by
  have hpred : Filter.Tendsto (fun i : Limits => ((i.1 - 1, i.2) : Limits)) .atTop .atTop := by
    refine Filter.tendsto_atTop.mpr fun b => ?_
    filter_upwards [Filter.eventually_ge_atTop (b.1 + 1, b.2)] with i hi
    exact ⟨Nat.le_sub_one_of_lt hi.1, hi.2⟩
  refine (h.comp hpred).congr ?_
  filter_upwards [Filter.eventually_ge_atTop ((1, 0) : Limits)] with i hi
  rw [Nat.sub_add_cancel hi.1]

namespace Sql

/-- From all names the computation ends. -/
def Halts (x : Limits → Naming α) (p : α → Prop) : Prop :=
  ∀ n, Ends .atTop (fun i => x i n) fun result => p result.1

namespace Halts
variable {x : Limits → Naming α} {p : α → Prop} {r : β → Prop}

theorem of_succ_levels (h : Halts (fun i => x (i.1, i.2 + 1)) p) : Halts x p := fun n =>
  Ends.of_succ_levels (h n)

theorem pure {a : α} (h : p a) : Halts (fun _ => Pure.pure a) p := fun _ => .pure h

theorem checked {x : Limits → Except Fault α} (h : Ends .atTop x p) :
    Halts (fun i => checked (x i)) p := fun n => by
  refine (h.bind (f := fun _ a => .ok (a, n)) fun a ha => .pure ha).congr (.of_forall fun i => ?_)
  show (x i).map _ = _
  cases x i <;> rfl

theorem bind {f : Limits → α → Naming β} (hx : Halts x p)
    (hf : ∀ a, p a → Halts (fun i => f i a) r) : Halts (fun i => x i >>= f i) r := fun n =>
  (hx n).bind fun result h => hf result.1 h result.2

theorem imp (h : Halts x p) {q : α → Prop} (hpq : ∀ a, p a → q a) : Halts x q := fun n =>
  (h n).imp fun result => hpq result.1

theorem mapM {f : Limits → α → Naming β} {xs : List α} (h : ∀ a ∈ xs, Halts (fun i => f i a) r) :
    Halts (fun i => xs.mapM (f i)) fun ys => ∀ y ∈ ys, r y := by
  induction xs with
  | nil => exact .pure (by simp)
  | cons a xs ih =>
    simp only [List.mapM_cons]
    refine (h a (List.mem_cons_self ..)).bind fun y hy => ?_
    refine (ih fun a ha => h a (List.mem_cons_of_mem _ ha)).bind fun ys hys => .pure ?_
    exact List.forall_mem_cons.mpr ⟨hy, hys⟩

theorem foldlM {f : Limits → β → α → Naming β} {xs : List α} {b : β}
    (h : ∀ b, ∀ a ∈ xs, Halts (fun i => f i b a) fun _ => True) :
    Halts (fun i => xs.foldlM (f i) b) fun _ => True := by
  induction xs generalizing b with
  | nil => exact .pure trivial
  | cons a xs ih =>
    simp only [List.foldlM_cons]
    refine (h b a (List.mem_cons_self ..)).bind fun b' _ => ?_
    exact ih fun b a ha => h b a (List.mem_cons_of_mem _ ha)

end Halts

end Sql

end QueryBuilder
