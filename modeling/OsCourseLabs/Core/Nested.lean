import OsCourseLabs.Core.Ledger

/-!
# Nested ledgers

A ledger is nested when every release gives back the key acquired last of those held, so
that the keys held form a stack. What is brought up in some order and torn down in the
reverse order is nested and leaves the stack as it was.
-/

namespace OsCourseLabs.Ledger

variable {κ : Type*} [DecidableEq κ]

/-- The keys held after the entries, newest first; none when an entry breaks the nesting. -/
def stackAfter : List κ → List (Op κ) → Option (List κ)
  | held, [] => some held
  | held, .acquire k :: log => if k ∈ held then none else stackAfter (k :: held) log
  | held, .use k :: log => if k ∈ held then stackAfter held log else none
  | [], .release _ :: _ => none
  | j :: held, .release k :: log => if k = j then stackAfter held log else none

theorem stackAfter_append (held : List κ) (a b : List (Op κ)) :
    stackAfter held (a ++ b) = (stackAfter held a).bind fun h => stackAfter h b := by
  induction a generalizing held with
  | nil => rfl
  | cons op a ih =>
    cases op with
    | acquire k =>
      simp only [List.cons_append, stackAfter, ih]
      split <;> rfl
    | use k =>
      simp only [List.cons_append, stackAfter, ih]
      split <;> rfl
    | release k =>
      cases held with
      | nil => rfl
      | cons j held =>
        simp only [List.cons_append, stackAfter, ih]
        split <;> rfl

/-- Keys that are free are acquired on top of the stack. -/
theorem stackAfter_acquires {held ks : List κ} (hn : (ks.reverse ++ held).Nodup) :
    stackAfter held (ks.map .acquire) = some (ks.reverse ++ held) := by
  induction ks generalizing held with
  | nil => rfl
  | cons k ks ih =>
    rw [List.reverse_cons, List.append_assoc, List.singleton_append] at hn
    have hk : k ∉ held := (List.nodup_cons.mp (List.nodup_append.mp hn).2.1).1
    rw [List.map_cons, stackAfter, if_neg hk, ih hn]
    simp

/-- Keys on top of the stack are released in its order. -/
theorem stackAfter_releases (ks held : List κ) :
    stackAfter (ks ++ held) (ks.map .release) = some held := by
  induction ks with
  | nil => rfl
  | cons k ks ih => rw [List.cons_append, List.map_cons, stackAfter, if_pos rfl, ih]

/-- What is brought up and torn down again leaves the stack as it was. -/
theorem stackAfter_unwound {held ks : List κ} (hn : (ks.reverse ++ held).Nodup) :
    stackAfter held (ks.map .acquire ++ ks.reverse.map .release) = some held := by
  rw [stackAfter_append, stackAfter_acquires hn, Option.bind_some, stackAfter_releases]

end OsCourseLabs.Ledger
