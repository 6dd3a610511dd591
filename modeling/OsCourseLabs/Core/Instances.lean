import OsCourseLabs.Core.Ledger

/-!
# Ledgers of several instances

Where the keys of a ledger belong to numbered instances, the ledger of an instance is what
was done to its keys. Instances do not interfere: the whole ledger is disciplined as soon as
that of every instance is, and a key is held exactly when its instance holds it.
-/

namespace OsCourseLabs.Ledger

variable {κ ι : Type*} [DecidableEq κ] [DecidableEq ι]

/-- The same entry on the key of an instance. -/
def Op.tag (n : ι) : Op κ → Op (κ × ι)
  | .acquire k => .acquire (k, n)
  | .use k => .use (k, n)
  | .release k => .release (k, n)

/-- The entry without its instance, if it is on a key of the given one. -/
def Op.only (n : ι) : Op (κ × ι) → Option (Op κ)
  | .acquire (k, m) => if m = n then some (.acquire k) else none
  | .use (k, m) => if m = n then some (.use k) else none
  | .release (k, m) => if m = n then some (.release k) else none

/-- The ledger of one instance. -/
def instanceLog (n : ι) (log : List (Op (κ × ι))) : List (Op κ) := log.filterMap (Op.only n)

omit [DecidableEq κ] in

/-- The entries of an instance come in the order of the log. -/
@[simp] theorem instanceLog_append (n : ι) (a b : List (Op (κ × ι))) :
    instanceLog n (a ++ b) = instanceLog n a ++ instanceLog n b := List.filterMap_append

omit [DecidableEq κ] in

/-- Entries tagged with an instance are its own, and no other one has them. -/
theorem instanceLog_tag (n m : ι) (ops : List (Op κ)) :
    instanceLog n (ops.map (Op.tag m)) = if m = n then ops else [] := by
  have honly : ∀ op : Op κ, (op.tag m).only n = if m = n then some op else none := by
    intro op
    cases op <;> rfl
  simp only [instanceLog, List.filterMap_map, Function.comp_def, honly]
  split
  · exact List.filterMap_some
  · simp

/-- An instance acquires what the log says it does. -/
theorem acquired_instanceLog (n : ι) (log : List (Op (κ × ι))) (k : κ) :
    acquired (instanceLog n log) k = acquired log (k, n) := by
  induction log with
  | nil => rfl
  | cons op log ih =>
    obtain ⟨j, m⟩ | ⟨j, m⟩ | ⟨j, m⟩ := op <;>
      by_cases hm : m = n <;> by_cases hj : j = k <;>
        simp_all [instanceLog, Op.only, acquired_cons]

/-- An instance releases what the log says it does. -/
theorem released_instanceLog (n : ι) (log : List (Op (κ × ι))) (k : κ) :
    released (instanceLog n log) k = released log (k, n) := by
  induction log with
  | nil => rfl
  | cons op log ih =>
    obtain ⟨j, m⟩ | ⟨j, m⟩ | ⟨j, m⟩ := op <;>
      by_cases hm : m = n <;> by_cases hj : j = k <;>
        simp_all [instanceLog, Op.only, released_cons]

/-- A key is held exactly when its instance holds it. -/
theorem held_instanceLog (n : ι) (log : List (Op (κ × ι))) (k : κ) :
    Held (instanceLog n log) k ↔ Held log (k, n) := by
  rw [Held, Held, acquired_instanceLog, released_instanceLog]

/-- Instances that keep the discipline keep it together. -/
theorem disciplined_of_instanceLog {log : List (Op (κ × ι))}
    (h : ∀ n, Disciplined (instanceLog n log)) : Disciplined log := by
  induction log using List.reverseRecOn with
  | nil => exact Disciplined.nil
  | append_singleton log op ih =>
    have hlog : Disciplined log := ih fun n => (instanceLog_append n log [op] ▸ h n).shorten
    refine disciplined_concat_iff.mpr ⟨hlog, ?_⟩
    obtain ⟨k, n⟩ | ⟨k, n⟩ | ⟨k, n⟩ := op <;>
    · have hn := h n
      rw [instanceLog_append, instanceLog.eq_1 n [_]] at hn
      simp only [List.filterMap_cons, Op.only, ite_true, List.filterMap_nil] at hn
      simpa only [Allowed, held_instanceLog] using (disciplined_concat_iff.mp hn).2

end OsCourseLabs.Ledger
