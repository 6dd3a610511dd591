import Mathlib.Tactic.Common

/-!
# Bounded polling

A loop asks until an answer ends it, and at most a given number of times. The first answer
that ends it is the one that decides; when there is none among those asked for, the poll
expires. The questions asked are counted.
-/

namespace OsCourseLabs.Polling

variable {γ : Type*} {answer : Nat → Option γ}

/-- Poll from question `i` on, at most `tries` times: what ended the poll, if anything did,
and the number of the next question. -/
def poll (answer : Nat → Option γ) : (tries i : Nat) → Option γ × Nat
  | 0, i => (none, i)
  | tries + 1, i =>
    match answer i with
    | some c => (some c, i + 1)
    | none => poll answer tries (i + 1)

/-- Question `k` is the first one from `i` on whose answer ends the poll. -/
structure Decides (answer : Nat → Option γ) (i k : Nat) (c : γ) : Prop where
  from_le : i ≤ k
  answered : answer k = some c
  again : ∀ j, i ≤ j → j < k → answer j = none

/-- What decides later decides, if the first try does not. -/
theorem Decides.cons {i k : Nat} {c : γ} (hi : answer i = none) (h : Decides answer (i + 1) k c) :
    Decides answer i k c := by
  refine ⟨Nat.le_of_succ_le h.from_le, h.answered, fun j hj hk => ?_⟩
  rcases Nat.eq_or_lt_of_le hj with rfl | hj
  · exact hi
  · exact h.again j hj hk

/-- What decides after the first try decides from the second on. -/
theorem Decides.tail {i k : Nat} {c : γ} (hi : answer i = none) (h : Decides answer i k c) :
    Decides answer (i + 1) k c := by
  refine ⟨?_, h.answered, fun j hj => h.again j (Nat.le_of_succ_le hj)⟩
  rcases Nat.eq_or_lt_of_le h.from_le with rfl | hk
  · exact absurd (hi.symm.trans h.answered) (by simp)
  · exact hk

/-- A poll ends with the answer to the first question that ends it. -/
theorem poll_eq_some_iff {tries i k : Nat} {c : γ} :
    poll answer tries i = (some c, k + 1) ↔ Decides answer i k c ∧ k < i + tries := by
  induction tries generalizing i with
  | zero =>
    refine iff_of_false (by simp [poll]) fun ⟨h, hk⟩ => ?_
    have hle := h.from_le
    omega
  | succ tries ih =>
    rw [poll]
    cases hi : answer i with
    | some d =>
      constructor
      · intro h
        obtain ⟨rfl, rfl⟩ : d = c ∧ i = k := by simpa using h
        exact ⟨⟨Nat.le_refl _, hi, fun j hj hk => absurd hk (by omega)⟩, by omega⟩
      · rintro ⟨h, -⟩
        rcases Nat.eq_or_lt_of_le h.from_le with rfl | hk
        · cases hi.symm.trans h.answered
          rfl
        · exact absurd (hi.symm.trans (h.again i (Nat.le_refl _) hk)) (by simp)
    | none =>
      rw [ih]
      constructor
      · rintro ⟨h, hk⟩
        exact ⟨h.cons hi, by omega⟩
      · rintro ⟨h, hk⟩
        exact ⟨h.tail hi, by omega⟩

/-- A poll expires, having asked as often as it may, when no answer ends it. -/
theorem poll_eq_none_iff {tries i : Nat} :
    poll answer tries i = (none, i + tries) ↔ ∀ j, i ≤ j → j < i + tries → answer j = none := by
  induction tries generalizing i with
  | zero => exact iff_of_true rfl fun j hj hlt => absurd hlt (by omega)
  | succ tries ih =>
    rw [poll]
    cases hi : answer i with
    | some d =>
      refine iff_of_false (by simp) fun h => ?_
      exact absurd (hi.symm.trans (h i (Nat.le_refl _) (by omega))) (by simp)
    | none =>
      have hsum : i + (tries + 1) = i + 1 + tries := by omega
      rw [hsum]
      exact ih.trans ⟨fun h j hj hlt => by
        rcases Nat.eq_or_lt_of_le hj with rfl | hj
        · exact hi
        · exact h j hj hlt, fun h j hj => h j (Nat.le_of_succ_le hj)⟩

/-- A poll is decided by an answer or expires. -/
theorem poll_cases (answer : Nat → Option γ) (tries i : Nat) :
    (∃ k c, Decides answer i k c ∧ k < i + tries ∧ poll answer tries i = (some c, k + 1)) ∨
      (∀ j, i ≤ j → j < i + tries → answer j = none) ∧ poll answer tries i = (none, i + tries) := by
  by_cases h : ∀ j, i ≤ j → j < i + tries → answer j = none
  · exact Or.inr ⟨h, poll_eq_none_iff.mpr h⟩
  · left
    induction tries generalizing i with
    | zero => exact absurd (fun j hj hlt => absurd hlt (by omega)) h
    | succ tries ih =>
      cases hi : answer i with
      | some c =>
        have hd : Decides answer i i c :=
          ⟨Nat.le_refl _, hi, fun j hj hk => absurd hk (by omega)⟩
        exact ⟨i, c, hd, by omega, poll_eq_some_iff.mpr ⟨hd, by omega⟩⟩
      | none =>
        obtain ⟨k, c, hd, hk, -⟩ := ih (i + 1) fun hall => h fun j hj hlt => by
          rcases Nat.eq_or_lt_of_le hj with rfl | hj
          · exact hi
          · exact hall j hj (by omega)
        have hd := hd.cons hi
        exact ⟨k, c, hd, by omega, poll_eq_some_iff.mpr ⟨hd, by omega⟩⟩

/-- A status that is read again and again ends a poll when it is ready or cannot be read. -/
def statusAnswer {α ε : Type*} (ready : α → Bool) (status : Nat → Except ε α) (i : Nat) :
    Option (Except ε Unit) :=
  match status i with
  | .error e => some (.error e)
  | .ok a => if ready a then some (.ok ()) else none

/-- The status read as number `k` is the first that is ready, and none before it fails. -/
structure Awaited {α ε : Type*} (ready : α → Bool) (status : Nat → Except ε α) (k : Nat) :
    Prop where
  unready : ∀ j < k, ∃ a, status j = .ok a ∧ ready a = false
  ready_at : ∃ a, status k = .ok a ∧ ready a = true

section Status

variable {α ε : Type*} {ready : α → Bool} {status : Nat → Except ε α}

/-- A status goes on exactly if it was read and is not ready. -/
theorem statusAnswer_eq_none_iff {i : Nat} :
    statusAnswer ready status i = none ↔ ∃ a, status i = .ok a ∧ ready a = false := by
  unfold statusAnswer
  cases status i with
  | error e => simp
  | ok a => cases h : ready a <;> simp [h]

/-- A status ends the wait well exactly if it was read and is ready. -/
theorem statusAnswer_eq_ok_iff {i : Nat} :
    statusAnswer ready status i = some (.ok ()) ↔ ∃ a, status i = .ok a ∧ ready a = true := by
  unfold statusAnswer
  cases status i with
  | error e => simp
  | ok a => cases h : ready a <;> simp [h]

/-- A status awaited decides the wait. -/
theorem Awaited.decides {k : Nat} (h : Awaited ready status k) :
    Decides (statusAnswer ready status) 0 k (.ok ()) :=
  ⟨Nat.zero_le k, statusAnswer_eq_ok_iff.mpr h.ready_at,
    fun j _ hj => statusAnswer_eq_none_iff.mpr (h.unready j hj)⟩

/-- Only a status awaited ends the wait well. -/
theorem Decides.awaited {k : Nat} (h : Decides (statusAnswer ready status) 0 k (.ok ())) :
    Awaited ready status k :=
  ⟨fun j hj => statusAnswer_eq_none_iff.mp (h.again j (Nat.zero_le j) hj),
    statusAnswer_eq_ok_iff.mp h.answered⟩

/-- A poll of a status finds it ready, fails to read it, or expires; only in the first case was
it ready in time. -/
theorem poll_status_cases (ready : α → Bool) (status : Nat → Except ε α) (tries : Nat) :
    (∃ k < tries, Awaited ready status k ∧
        poll (statusAnswer ready status) tries 0 = (some (.ok ()), k + 1)) ∨
      (¬ (∃ k < tries, Awaited ready status k) ∧
        ((∃ e, ∃ k < tries, poll (statusAnswer ready status) tries 0 = (some (.error e), k + 1)) ∨
          poll (statusAnswer ready status) tries 0 = (none, tries))) := by
  have hunique : ∀ k < tries, Awaited ready status k →
      poll (statusAnswer ready status) tries 0 = (some (.ok ()), k + 1) := fun k hk h =>
    poll_eq_some_iff.mpr ⟨h.decides, by omega⟩
  rcases poll_cases (statusAnswer ready status) tries 0 with ⟨k, c, hd, hk, hp⟩ | ⟨-, hp⟩
  · rw [Nat.zero_add] at hk
    cases c with
    | ok u => exact Or.inl ⟨k, hk, hd.awaited, hp⟩
    | error e =>
      refine Or.inr ⟨?_, Or.inl ⟨e, k, hk, hp⟩⟩
      rintro ⟨j, hj, h⟩
      exact absurd (hp.symm.trans (hunique j hj h)) (by simp)
  · rw [Nat.zero_add] at hp
    refine Or.inr ⟨?_, Or.inr hp⟩
    rintro ⟨j, hj, h⟩
    exact absurd (hp.symm.trans (hunique j hj h)) (by simp)

end Status

end OsCourseLabs.Polling
