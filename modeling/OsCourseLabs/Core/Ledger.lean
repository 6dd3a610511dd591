import Mathlib.Data.List.Count
import Mathlib.Data.List.Induction
import Mathlib.Tactic.Common

/-!
# Ledgers of acquired, used and released keys

A ledger lists, oldest first, what was done to the keys of some kind of resource.
It is disciplined when no key is acquired twice without a release between, and none
is used or released while it is not held. In a disciplined ledger that acquires a
key at most once, every use lies after the acquisition and before the release.
-/

namespace OsCourseLabs.Ledger

/-- One entry of a ledger. -/
inductive Op (κ : Type*) where
  | acquire (k : κ)
  | use (k : κ)
  | release (k : κ)
  deriving DecidableEq, Repr

variable {κ : Type*} [DecidableEq κ]

/-- How often the ledger acquires the key. -/
def acquired (log : List (Op κ)) (k : κ) : Nat := log.count (.acquire k)

/-- How often the ledger releases the key. -/
def released (log : List (Op κ)) (k : κ) : Nat := log.count (.release k)

/-- The key has an acquisition that is not released yet. -/
def Held (log : List (Op κ)) (k : κ) : Prop := released log k < acquired log k

/-- Every key acquired is released exactly once, and no other key is. -/
def Settled (log : List (Op κ)) : Prop :=
  ∀ k, released log k = acquired log k ∧ acquired log k ≤ 1

/-- Keys are acquired while free, and used and released only while held. -/
inductive Disciplined : List (Op κ) → Prop
  | nil : Disciplined []
  | acquire {log k} : Disciplined log → ¬ Held log k → Disciplined (log ++ [.acquire k])
  | use {log k} : Disciplined log → Held log k → Disciplined (log ++ [.use k])
  | release {log k} : Disciplined log → Held log k → Disciplined (log ++ [.release k])

@[simp] theorem acquired_nil (k : κ) : acquired [] k = 0 := rfl

@[simp] theorem released_nil (k : κ) : released [] k = 0 := rfl

@[simp] theorem acquired_append (a b : List (Op κ)) (k : κ) :
    acquired (a ++ b) k = acquired a k + acquired b k := List.count_append

@[simp] theorem released_append (a b : List (Op κ)) (k : κ) :
    released (a ++ b) k = released a k + released b k := List.count_append

@[simp] theorem acquired_cons (op : Op κ) (log : List (Op κ)) (k : κ) :
    acquired (op :: log) k = acquired log k + if op = .acquire k then 1 else 0 := by
  simp only [acquired, List.count_cons, beq_iff_eq]

@[simp] theorem released_cons (op : Op κ) (log : List (Op κ)) (k : κ) :
    released (op :: log) k = released log k + if op = .release k then 1 else 0 := by
  simp only [released, List.count_cons, beq_iff_eq]

/-- Nothing is released more often than it was acquired. -/
theorem Disciplined.released_le {log : List (Op κ)} (h : Disciplined log) (k : κ) :
    released log k ≤ acquired log k := by
  induction h with
  | nil => exact Nat.le_refl 0
  | acquire _ _ ih => simp; omega
  | use _ _ ih => simpa using ih
  | @release log j _ hheld ih =>
    unfold Held at hheld
    by_cases hj : j = k
    · subst j; simp; omega
    · simp [hj]; omega

/-- A prefix of a disciplined ledger is disciplined. -/
theorem Disciplined.shorten {a b : List (Op κ)} (h : Disciplined (a ++ b)) : Disciplined a := by
  generalize he : a ++ b = log at h
  induction h generalizing b with
  | nil => rw [List.append_eq_nil_iff.mp he |>.1]; exact Disciplined.nil
  | acquire h hk ih | use h hk ih | release h hk ih =>
    rcases List.eq_nil_or_concat b with rfl | ⟨b', op, rfl⟩
    · rw [List.append_nil] at he
      subst he
      first | exact h.acquire hk | exact h.use hk | exact h.release hk
    · rw [List.concat_eq_append, ← List.append_assoc] at he
      exact ih (List.append_inj' he rfl).1

/-- The entry may follow the ledger. -/
def Allowed (log : List (Op κ)) : Op κ → Prop
  | .acquire k => ¬ Held log k
  | .use k | .release k => Held log k

instance (log : List (Op κ)) (k : κ) : Decidable (Held log k) :=
  inferInstanceAs (Decidable (_ < _))

instance (log : List (Op κ)) (op : Op κ) : Decidable (Allowed log op) :=
  match op with
  | .acquire k => inferInstanceAs (Decidable (¬ Held log k))
  | .use k | .release k => inferInstanceAs (Decidable (Held log k))

/-- A ledger is disciplined when its last entry may follow the disciplined rest. -/
theorem disciplined_concat_iff {log : List (Op κ)} {op : Op κ} :
    Disciplined (log ++ [op]) ↔ Disciplined log ∧ Allowed log op := by
  constructor
  · intro h
    generalize he : log ++ [op] = whole at h
    cases h with
    | nil => exact absurd he (by simp)
    | acquire h hk | use h hk | release h hk =>
      obtain ⟨rfl, hop⟩ := List.append_inj' he rfl
      cases hop
      exact ⟨h, hk⟩
  · rintro ⟨h, hop⟩
    cases op with
    | acquire k => exact h.acquire hop
    | use k => exact h.use hop
    | release k => exact h.release hop

/-- Executable check of entries that follow a disciplined ledger. -/
def disciplinedCheck (log : List (Op κ)) : List (Op κ) → Bool
  | [] => true
  | op :: ops => decide (Allowed log op) && disciplinedCheck (log ++ [op]) ops

theorem disciplinedCheck_iff {log : List (Op κ)} (h : Disciplined log) (ops : List (Op κ)) :
    disciplinedCheck log ops = true ↔ Disciplined (log ++ ops) := by
  induction ops generalizing log with
  | nil => simpa [disciplinedCheck] using h
  | cons op ops ih =>
    have hcons : log ++ op :: ops = log ++ [op] ++ ops := by simp
    rw [disciplinedCheck, Bool.and_eq_true, decide_eq_true_eq, hcons]
    constructor
    · rintro ⟨hop, hrest⟩
      exact (ih (disciplined_concat_iff.mpr ⟨h, hop⟩)).mp hrest
    · intro hall
      have hlog := hall.shorten
      exact ⟨(disciplined_concat_iff.mp hlog).2, (ih hlog).mpr hall⟩

instance (log : List (Op κ)) : Decidable (Disciplined log) :=
  decidable_of_iff _ (disciplinedCheck_iff Disciplined.nil log)

/-- A key is held wherever it is used. -/
theorem Disciplined.held_of_use {pre post : List (Op κ)} {k : κ}
    (h : Disciplined (pre ++ .use k :: post)) : Held pre k := by
  have hp : Disciplined (pre ++ [.use k]) :=
    Disciplined.shorten (List.append_assoc pre [.use k] post ▸ h)
  exact (disciplined_concat_iff.mp hp).2

/-- Of a key acquired at most once, every use follows the acquisition and precedes
the release. -/
theorem Disciplined.use_between {pre post : List (Op κ)} {k : κ}
    (h : Disciplined (pre ++ .use k :: post))
    (hone : acquired (pre ++ .use k :: post) k ≤ 1) :
    .acquire k ∈ pre ∧ .release k ∉ pre := by
  have hheld := h.held_of_use
  unfold Held at hheld
  simp only [acquired_append] at hone
  constructor
  · exact List.count_pos_iff.mp (by unfold acquired at hheld; omega)
  · intro hr
    have hpos : 0 < released pre k := List.count_pos_iff.mpr hr
    omega

/-- Opening distinct keys acquires each of them once and releases none. -/
theorem opened_counts {ks : List κ} (hn : ks.Nodup) (k : κ) :
    acquired (ks.flatMap fun k => [.acquire k, .use k]) k = (if k ∈ ks then 1 else 0) ∧
      released (ks.flatMap fun k => [.acquire k, .use k]) k = 0 := by
  induction ks with
  | nil => simp
  | cons j ks ih =>
    have hnj := List.nodup_cons.mp hn
    obtain ⟨ha, hr⟩ := ih hnj.2
    by_cases hj : j = k
    · subst j
      simp [ha, hr, hnj.1]
    · simp [ha, hr, hj, Ne.symm hj]

/-- Closing distinct keys releases each of them once and acquires none. -/
theorem closed_counts {ks : List κ} (hn : ks.Nodup) (k : κ) :
    acquired (ks.flatMap fun k => [.use k, .release k]) k = 0 ∧
      released (ks.flatMap fun k => [.use k, .release k]) k = if k ∈ ks then 1 else 0 := by
  induction ks with
  | nil => simp
  | cons j ks ih =>
    have hnj := List.nodup_cons.mp hn
    obtain ⟨ha, hr⟩ := ih hnj.2
    by_cases hj : j = k
    · subst j
      simp [ha, hr, hnj.1]
    · simp [ha, hr, hj, Ne.symm hj]

/-- Uses acquire and release nothing. -/
theorem uses_counts {log : List (Op κ)} (h : ∀ op ∈ log, ∃ k, op = .use k) (k : κ) :
    acquired log k = 0 ∧ released log k = 0 := by
  constructor
  · apply List.count_eq_zero.mpr
    intro hm
    obtain ⟨j, hj⟩ := h _ hm
    cases hj
  · apply List.count_eq_zero.mpr
    intro hm
    obtain ⟨j, hj⟩ := h _ hm
    cases hj

/-- Each of several free keys is acquired and used at once. -/
theorem Disciplined.append_opened {log : List (Op κ)} (h : Disciplined log) {ks : List κ}
    (hn : ks.Nodup) (hfree : ∀ k ∈ ks, ¬ Held log k) :
    Disciplined (log ++ ks.flatMap fun k => [.acquire k, .use k]) := by
  induction ks generalizing log with
  | nil => simpa using h
  | cons k ks ih =>
    have hnk := List.nodup_cons.mp hn
    have hk := hfree k (by simp)
    have hle := h.released_le k
    rw [Held, Nat.not_lt] at hk
    have hopen : Disciplined (log ++ [.acquire k] ++ [.use k]) := by
      refine (h.acquire (by unfold Held; omega)).use ?_
      simp only [Held, acquired_append, released_append, acquired_cons, released_cons,
        acquired_nil, released_nil, reduceCtorEq, ite_true, ite_false]
      omega
    have hrest := ih hopen hnk.2 fun j hj => by
      have hne : k ≠ j := fun he => hnk.1 (he ▸ hj)
      simpa [Held, hne] using hfree j (List.mem_cons_of_mem _ hj)
    simpa only [List.flatMap_cons, List.append_assoc, List.cons_append, List.nil_append] using hrest

/-- Uses of held keys keep the discipline. -/
theorem Disciplined.append_uses {log uses : List (Op κ)} (h : Disciplined log)
    (hu : ∀ op ∈ uses, ∃ k, op = .use k ∧ Held log k) : Disciplined (log ++ uses) := by
  induction uses using List.reverseRecOn with
  | nil => simpa using h
  | append_singleton uses op ih =>
    have hall := List.forall_mem_append.mp hu
    obtain ⟨k, rfl, hk⟩ := hall.2 op (by simp)
    have hz := uses_counts (fun op hop => (hall.1 op hop).imp fun _ h => h.1) k
    rw [← List.append_assoc]
    exact (ih hall.1).use (by
      simpa only [Held, acquired_append, released_append, hz, Nat.add_zero] using hk)

/-- Each of several held keys is used once more and released. -/
theorem Disciplined.append_closed {log : List (Op κ)} (h : Disciplined log) {ks : List κ}
    (hn : ks.Nodup) (hheld : ∀ k ∈ ks, Held log k) :
    Disciplined (log ++ ks.flatMap fun k => [.use k, .release k]) := by
  induction ks generalizing log with
  | nil => simpa using h
  | cons k ks ih =>
    have hnk := List.nodup_cons.mp hn
    have hk := hheld k (by simp)
    have hclose : Disciplined (log ++ [.use k] ++ [.release k]) :=
      (h.use hk).release (by simpa [Held] using hk)
    have hrest := ih hclose hnk.2 fun j hj => by
      have hne : k ≠ j := fun he => hnk.1 (he ▸ hj)
      simpa [Held, hne] using hheld j (List.mem_cons_of_mem _ hj)
    simpa only [List.flatMap_cons, List.append_assoc, List.cons_append, List.nil_append] using hrest

end OsCourseLabs.Ledger
