import Mathlib.Data.List.Forall2
import Mathlib.Data.List.Induction

/-!
# Outputs of a loop

A loop takes one turn for each of its inputs and collects outputs. Where every input that
has a label adds one output and the others add none, the outputs are paired with the
labels in their order, and what relates them is a matter of one turn.
-/

namespace OsCourseLabs

variable {σ α δ ω : Type*} {turn : σ → α → σ} {out : σ → List ω} {label : α → Option δ}
  {R : δ → ω → Prop}

/-- What one turn relates to its label, a loop relates to all of them. -/
theorem outputs_foldl (hnone : ∀ s a, label a = none → out (turn s a) = out s)
    (hsome : ∀ s a d, label a = some d → ∃ o, out (turn s a) = out s ++ [o] ∧ R d o)
    {s : σ} (hs : out s = []) (as : List α) :
    List.Forall₂ R (as.filterMap label) (out (as.foldl turn s)) := by
  induction as using List.reverseRecOn with
  | nil =>
    rw [List.foldl_nil, hs]
    exact .nil
  | append_singleton as a ih =>
    rw [List.foldl_append, List.foldl_cons, List.foldl_nil, List.filterMap_append]
    cases hl : label a with
    | none =>
      rw [hnone _ a hl, List.filterMap_cons_none hl, List.filterMap_nil, List.append_nil]
      exact ih
    | some d =>
      obtain ⟨o, ho, hR⟩ := hsome (as.foldl turn s) a d hl
      rw [ho, List.filterMap_cons_some hl, List.filterMap_nil]
      exact List.rel_append ih (.cons hR .nil)

end OsCourseLabs
