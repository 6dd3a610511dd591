import Mathlib.Data.List.Count

/-!
# Lists of slots

Parties of a system kept in a list, each named by its index. A step of one party sets
its slot; these lemmas say what that does to properties of all slots and to the number
of slots with a property.
-/

namespace OsCourseLabs.Slots

variable {α : Type*} {l : List α} {k : Nat} {x y : α}

/-- A property of all slots is kept when the new content of one slot has it. -/
theorem forall_mem_set {p : α → Prop} (h : ∀ z ∈ l, p z) (hy : p y) : ∀ z ∈ l.set k y, p z := by
  intro z hz
  rcases List.mem_or_eq_of_mem_set hz with hm | rfl
  · exact h z hm
  · exact hy

/-- A property of all slots held before when the old content of the slot had it if the new has. -/
theorem forall_mem_of_set {p : α → Prop} (hk : l[k]? = some x) (hp : p y → p x)
    (h : ∀ z ∈ l.set k y, p z) : ∀ z ∈ l, p z := by
  obtain ⟨hlt, rfl⟩ := List.getElem?_eq_some_iff.mp hk
  intro z hz
  obtain ⟨j, hj, rfl⟩ := List.mem_iff_getElem.mp hz
  by_cases hjk : j = k
  · subst hjk
    exact hp (h y (List.mem_set hlt y))
  · refine h _ (List.mem_iff_getElem.mpr ⟨j, by simpa using hj, ?_⟩)
    rw [List.getElem_set_ne (Ne.symm hjk)]

/-- What is elsewhere stays when a slot is set. -/
theorem mem_set_of_ne {z : α} (hk : l[k]? = some x) (hz : z ∈ l) (hne : z ≠ x) :
    z ∈ l.set k y := by
  obtain ⟨j, hj, rfl⟩ := List.mem_iff_getElem.mp hz
  have hjk : k ≠ j := by
    rintro rfl
    exact hne (Option.some.inj ((List.getElem?_eq_getElem hj).symm.trans hk))
  refine List.mem_iff_getElem.mpr ⟨j, by simpa using hj, ?_⟩
  rw [List.getElem_set_ne hjk]

/-- Setting a slot moves the count by what the slot stops and starts to contribute. -/
theorem countP_set_add (hk : l[k]? = some x) (p : α → Bool) :
    (l.set k y).countP p + (if p x then 1 else 0) = l.countP p + if p y then 1 else 0 := by
  obtain ⟨hlt, rfl⟩ := List.getElem?_eq_some_iff.mp hk
  rw [List.countP_set hlt]
  by_cases hx : p l[k] = true
  · have hpos : 0 < l.countP p := List.countP_pos_iff.mpr ⟨l[k], List.getElem_mem hlt, hx⟩
    simp only [hx, ite_true]
    omega
  · simp [hx]

/-- A slot with the property is counted. -/
theorem countP_pos_of_getElem? {p : α → Bool} (hk : l[k]? = some x) (hx : p x = true) :
    0 < l.countP p :=
  List.countP_pos_iff.mpr ⟨x, List.mem_of_getElem? hk, hx⟩

end OsCourseLabs.Slots
