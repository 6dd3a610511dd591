import Mathlib.Data.List.Infix
import Mathlib.Tactic.Common

/-!
# Runs of guarded step functions

A system is given by a step function `step : σ → α → Option σ`: an action that is
not enabled answers `none`. A run is the list of the actions it takes. Invariants
are proved once for a step and hold along every run, also when they need a guard
on the actions taken; a refinement is proved once for a step and maps runs to runs.
-/

namespace OsCourseLabs.Transition

variable {σ τ α β : Type*} {step : σ → α → Option σ}

/-- A run from the first state to the last that takes exactly the listed actions. -/
inductive Run (step : σ → α → Option σ) : σ → List α → σ → Prop
  | nil (s : σ) : Run step s [] s
  | snoc {s t u as a} : Run step s as t → step t a = some u → Run step s (as ++ [a]) u

/-- Execution of an action list, which fails at the first action not enabled. -/
def exec (step : σ → α → Option σ) (s : σ) : List α → Option σ
  | [] => some s
  | a :: as => (step s a).bind fun t => exec step t as

/-- Every state a run passes through has the property. -/
def Always (step : σ → α → Option σ) (s : σ) (as : List α) (P : σ → Prop) : Prop :=
  ∀ pre t, pre <+: as → Run step s pre t → P t

/-- Every action a run takes meets the condition in the state it is taken from. -/
def Along (step : σ → α → Option σ) (s : σ) (as : List α) (G : σ → α → Prop) : Prop :=
  ∀ pre a t, pre ++ [a] <+: as → Run step s pre t → G t a

/-- A step is a run. -/
theorem Run.single {s t : σ} {a : α} (h : step s a = some t) : Run step s [a] t :=
  Run.snoc (Run.nil s) h

/-- Runs that meet are one run. -/
theorem Run.append {s t u : σ} {as bs : List α} (h : Run step s as t) (h' : Run step t bs u) :
    Run step s (as ++ bs) u := by
  induction h' with
  | nil => simpa only [List.append_nil] using h
  | snoc _ hs ih =>
    rw [← List.append_assoc]
    exact Run.snoc ih hs

/-- A step in front of a run is a run. -/
theorem Run.cons {s t u : σ} {a : α} {as : List α} (h : step s a = some t)
    (h' : Run step t as u) : Run step s (a :: as) u :=
  (Run.single h).append h'

/-- The last action of a run, with the state it was taken from. -/
theorem Run.snoc_inv {s u : σ} {as : List α} {a : α} (h : Run step s (as ++ [a]) u) :
    ∃ t, Run step s as t ∧ step t a = some u := by
  generalize he : as ++ [a] = bs at h
  cases h with
  | nil => exact absurd he (by simp)
  | snoc h hs =>
    obtain ⟨rfl, ha⟩ := List.append_inj' he rfl
    cases ha
    exact ⟨_, h, hs⟩

/-- Without actions nothing changes. -/
theorem Run.nil_inv {s t : σ} (h : Run step s [] t) : t = s := by
  generalize he : ([] : List α) = bs at h
  cases h with
  | nil => rfl
  | snoc => exact absurd he (by simp)

/-- A run of a concatenation passes through a state between its two parts. -/
theorem Run.split {s u : σ} {as bs : List α} (h : Run step s (as ++ bs) u) :
    ∃ t, Run step s as t ∧ Run step t bs u := by
  induction bs using List.reverseRecOn generalizing u with
  | nil => exact ⟨u, by simpa only [List.append_nil] using h, Run.nil u⟩
  | append_singleton bs b ih =>
    rw [← List.append_assoc] at h
    obtain ⟨v, hv, hs⟩ := h.snoc_inv
    obtain ⟨t, hl, hr⟩ := ih hv
    exact ⟨t, hl, Run.snoc hr hs⟩

/-- A step function is deterministic: a run is determined by its actions. -/
theorem Run.unique {s t u : σ} {as : List α} (h : Run step s as t) (h' : Run step s as u) :
    t = u := by
  induction h generalizing u with
  | nil => exact h'.nil_inv.symm
  | snoc _ hs ih =>
    obtain ⟨v, hv, hs'⟩ := h'.snoc_inv
    cases ih hv
    exact Option.some.inj (hs.symm.trans hs')

/-- What the actions lead to when executed is reached by a run. -/
theorem run_of_exec {s t : σ} {as : List α} (h : exec step s as = some t) :
    Run step s as t := by
  induction as generalizing s with
  | nil => cases h; exact Run.nil _
  | cons a as ih =>
    obtain ⟨v, hs, hv⟩ := Option.bind_eq_some_iff.mp h
    exact Run.cons hs (ih hv)

/-- An execution that goes through is a run. -/
theorem run_of_isSome {s : σ} {as : List α} (h : (exec step s as).isSome = true) :
    ∃ t, Run step s as t := by
  obtain ⟨t, ht⟩ := Option.isSome_iff_exists.mp h
  exact ⟨t, run_of_exec ht⟩

/-- What is observed of the state after an execution is observed at the end of a run. -/
theorem run_of_observed {f : σ → β} {v : β} {s : σ} {as : List α}
    (h : (exec step s as).map f = some v) : ∃ t, Run step s as t ∧ f t = v := by
  obtain ⟨t, ht, hv⟩ := Option.map_eq_some_iff.mp h
  exact ⟨t, run_of_exec ht, hv⟩

/-- What holds at the start and is kept by every step holds at the end of every run. -/
theorem Run.invariant {I : σ → Prop} {s t : σ} {as : List α} (h : Run step s as t)
    (h0 : I s) (hstep : ∀ u a v, I u → step u a = some v → I v) : I t := by
  induction h with
  | nil => exact h0
  | snoc _ hs ih => exact hstep _ _ _ ih hs

/-- As `Run.invariant`, for runs whose actions all have a property. -/
theorem Run.invariant_of_mem {I : σ → Prop} {A : α → Prop} {s t : σ} {as : List α}
    (h : Run step s as t) (ha : ∀ a ∈ as, A a) (h0 : I s)
    (hstep : ∀ u a v, A a → I u → step u a = some v → I v) : I t := by
  induction h with
  | nil => exact h0
  | snoc _ hs ih =>
    have hall := List.forall_mem_append.mp ha
    exact hstep _ _ _ (hall.2 _ (by simp)) (ih hall.1) hs

/-- A condition met along actions is met along the first of them. -/
theorem Along.shorten {G : σ → α → Prop} {s : σ} {as bs : List α}
    (h : Along step s bs G) (hp : as <+: bs) : Along step s as G :=
  fun pre a t hpre ht => h pre a t (hpre.trans hp) ht

/-- What always holds along actions does along the first of them. -/
theorem Always.shorten {P : σ → Prop} {s : σ} {as bs : List α}
    (h : Always step s bs P) (hp : as <+: bs) : Always step s as P :=
  fun pre t hpre ht => h pre t (hpre.trans hp) ht

/-- What always holds does so in the state that a run ends in. -/
theorem Always.last {P : σ → Prop} {s t : σ} {as : List α} (h : Always step s as P)
    (hr : Run step s as t) : P t :=
  h as t (List.prefix_refl as) hr

/-- A condition met along actions is met by the last one. -/
theorem Along.last {G : σ → α → Prop} {s t : σ} {as : List α} {a : α}
    (h : Along step s (as ++ [a]) G) (hr : Run step s as t) : G t a :=
  h as a t (List.prefix_refl _) hr

/-- An invariant that a step keeps only under a guard holds at the end of every run
whose actions all meet the guard. -/
theorem Run.guarded_invariant {I : σ → Prop} {G : σ → α → Prop} {s t : σ} {as : List α}
    (h : Run step s as t) (hg : Along step s as G) (h0 : I s)
    (hstep : ∀ u a v, I u → G u a → step u a = some v → I v) : I t := by
  induction h with
  | nil => exact h0
  | snoc hr hs ih =>
    exact hstep _ _ _ (ih (hg.shorten (List.prefix_append _ _))) (hg.last hr) hs

/-- The same for all states passed through. -/
theorem Always.of_along {I : σ → Prop} {G : σ → α → Prop} {s : σ} {as : List α}
    (hg : Along step s as G) (h0 : I s)
    (hstep : ∀ u a v, I u → G u a → step u a = some v → I v) : Always step s as I :=
  fun _ _ hpre ht => ht.guarded_invariant (hg.shorten hpre) h0 hstep

/-- A condition on the actions alone can be added. -/
theorem Along.and_mem {G : σ → α → Prop} {A : α → Prop} {s : σ} {as : List α}
    (h : Along step s as G) (ha : ∀ a ∈ as, A a) : Along step s as fun u a => A a ∧ G u a :=
  fun pre a t hpre ht => ⟨ha a (hpre.subset (by simp)), h pre a t hpre ht⟩

/-- What holds of every step from a state that a run reaches holds along the run. -/
theorem Run.along {G : σ → α → Prop} {s t : σ} {as : List α} (h : Run step s as t)
    (hG : ∀ pre u a v, pre ++ [a] <+: as → Run step s pre u → step u a = some v → G u a) :
    Along step s as G := by
  intro pre a u hpre hu
  obtain ⟨post, rfl⟩ := hpre
  obtain ⟨v, hv, -⟩ := h.split
  obtain ⟨u', hu', hs⟩ := hv.snoc_inv
  cases hu.unique hu'
  exact hG pre u a v (List.prefix_append _ _) hu hs

/-- Executable check that every action of a run meets a decidable condition. -/
def alongCheck (step : σ → α → Option σ) (G : σ → α → Prop) [∀ s a, Decidable (G s a)]
    (s : σ) : List α → Bool
  | [] => true
  | a :: as => decide (G s a) && (step s a).all fun t => alongCheck step G t as

/-- A decidable condition is checked by executing the actions. -/
theorem along_of_check {G : σ → α → Prop} [∀ s a, Decidable (G s a)] {s : σ} {as : List α}
    (h : alongCheck step G s as = true) : Along step s as G := by
  induction as generalizing s with
  | nil =>
    intro pre a t hpre
    exact absurd (List.prefix_nil.mp hpre) (by simp)
  | cons b bs ih =>
    simp only [alongCheck, Bool.and_eq_true, decide_eq_true_eq] at h
    intro pre a t hpre ht
    cases pre with
    | nil =>
      obtain ⟨rfl, -⟩ := List.cons_prefix_cons.mp hpre
      cases ht.nil_inv
      exact h.1
    | cons c pre =>
      obtain ⟨rfl, hrest⟩ := List.cons_prefix_cons.mp hpre
      rw [← List.singleton_append] at ht
      obtain ⟨u, hu, ht⟩ := ht.split
      obtain ⟨v, hv, hs⟩ := (show Run step s ([] ++ [c]) u from hu).snoc_inv
      cases hv.nil_inv
      have hall := h.2
      rw [hs] at hall
      exact ih hall pre a t hrest ht

/-- A functional refinement proved for one step under an invariant maps every run of
the concrete system to a run of the abstract one. -/
theorem Run.refine {step' : τ → β → Option τ} (abs : σ → τ) (label : α → β)
    {I : σ → Prop} {A : α → Prop} {s t : σ} {as : List α} (h : Run step s as t)
    (ha : ∀ a ∈ as, A a) (h0 : I s)
    (hinv : ∀ u a v, A a → I u → step u a = some v → I v)
    (hstep : ∀ u a v, A a → I u → step u a = some v → step' (abs u) (label a) = some (abs v)) :
    Run step' (abs s) (as.map label) (abs t) := by
  induction h with
  | nil => exact Run.nil _
  | snoc hr hs ih =>
    have hall := List.forall_mem_append.mp ha
    rw [List.map_append]
    exact Run.snoc (ih hall.1)
      (hstep _ _ _ (hall.2 _ (by simp)) (hr.invariant_of_mem hall.1 h0 hinv) hs)

end OsCourseLabs.Transition
