import Mathlib.Data.List.Induction
import OsCourseLabs.Core.Transition

/-!
# Cells that hold what was last written

Of the actions that a loop or a run goes through some write a cell and the others leave it. What
the cell holds in the end is what the last writing action put there, or what it held at the
start. It is enough that every single turn treats the cell so.
-/

namespace OsCourseLabs

variable {σ α β γ : Type*} {w : α → Option β} {v : β}

/-- The value left in a cell that holds `v` by actions that write `w`. -/
def lastWrite (w : α → Option β) (v : β) (as : List α) : β :=
  as.foldl (fun u a => (w a).getD u) v

theorem lastWrite_append (as bs : List α) :
    lastWrite w v (as ++ bs) = lastWrite w (lastWrite w v as) bs := List.foldl_append

theorem lastWrite_concat (as : List α) (a : α) :
    lastWrite w v (as ++ [a]) = (w a).getD (lastWrite w v as) := lastWrite_append as [a]

/-- What holds of the first value and of every value written holds of the value left. -/
theorem lastWrite_of_forall {P : β → Prop} {as : List α} (h0 : P v)
    (h : ∀ a ∈ as, ∀ u, w a = some u → P u) : P (lastWrite w v as) := by
  induction as using List.reverseRecOn with
  | nil => exact h0
  | append_singleton as a ih =>
    have hall := List.forall_mem_append.mp h
    rw [lastWrite_concat]
    cases ha : w a with
    | none => exact ih hall.1
    | some u => exact hall.2 a (by simp) u ha

/-- What is seen of a cell through a function is a cell itself. -/
theorem lastWrite_map (f : β → γ) (as : List α) :
    f (lastWrite w v as) = lastWrite (fun a => (w a).map f) (f v) as := by
  induction as using List.reverseRecOn with
  | nil => rfl
  | append_singleton as a ih =>
    rw [lastWrite_concat, lastWrite_concat, ← ih]
    cases w a <;> rfl

/-- Two accounts of what the actions write that agree on them leave the same value. -/
theorem lastWrite_congr {w' : α → Option β} {as : List α} (h : ∀ a ∈ as, w a = w' a) :
    lastWrite w v as = lastWrite w' v as := by
  induction as using List.reverseRecOn with
  | nil => rfl
  | append_singleton as a ih =>
    have hall := List.forall_mem_append.mp h
    rw [lastWrite_concat, lastWrite_concat, ih hall.1, hall.2 a (by simp)]

/-- Where every turn of a loop writes a cell as said, under an invariant, the loop leaves in
it what was last written. -/
theorem foldl_eq_lastWrite_of_invariant {step : σ → α → σ} {r : σ → β} {I : σ → Prop} {s : σ}
    (h0 : I s) (hinv : ∀ u a, I u → I (step u a))
    (hstep : ∀ u a, I u → r (step u a) = (w a).getD (r u)) (as : List α) :
    r (as.foldl step s) = lastWrite w (r s) as := by
  have hall : I (as.foldl step s) ∧ r (as.foldl step s) = lastWrite w (r s) as := by
    induction as using List.reverseRecOn with
    | nil => exact ⟨h0, rfl⟩
    | append_singleton as a ih =>
      rw [List.foldl_append, List.foldl_cons, List.foldl_nil, lastWrite_concat, ← ih.2]
      exact ⟨hinv _ a ih.1, hstep _ a ih.1⟩
  exact hall.2

theorem foldl_eq_lastWrite {step : σ → α → σ} {r : σ → β}
    (hstep : ∀ u a, r (step u a) = (w a).getD (r u)) (s : σ) (as : List α) :
    r (as.foldl step s) = lastWrite w (r s) as :=
  foldl_eq_lastWrite_of_invariant (I := fun _ => True) trivial (fun _ _ _ => trivial)
    (fun u a _ => hstep u a) as

/-- The same for the steps of a run. -/
theorem Transition.Run.eq_lastWrite {step : σ → α → Option σ} {r : σ → β} {s t : σ}
    {as : List α} (h : Run step s as t)
    (hstep : ∀ u a v, step u a = some v → r v = (w a).getD (r u)) :
    r t = lastWrite w (r s) as := by
  induction h with
  | nil => rfl
  | snoc _ hs ih => rw [lastWrite_concat, ← ih, hstep _ _ _ hs]

end OsCourseLabs
