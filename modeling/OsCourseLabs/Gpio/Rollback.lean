import OsCourseLabs.Gpio.Init

/-!
# Rolling back a failed load

A load that fails before its pin loop leaves nothing behind. Inside the loop no exit
undoes what the earlier pins and the failing pin acquired: the exits that clean up
leave a record, the others leave the region as well.
-/

namespace OsCourseLabs.Gpio

open Ledger

/-- The registries are as before, and what was acquired in between was released, each
resource once and no other. -/
def RolledBack (before after : Kernel) : Prop :=
  after.reg = before.reg ∧
    ∃ log, after.ledger = before.ledger ++ log ∧ Settled log

/-- A load fails before its pin loop, or every checked call of every pin succeeds. -/
def FailsEarlyOrNever (o : Outcomes) (k : Kernel) : Prop :=
  ¬ RegionGranted o k ∨ o.cls = .null ∨ ∀ i ∈ gpios, PinSucceeds o k i

theorem RolledBack.refl (k : Kernel) : RolledBack k k :=
  ⟨rfl, [], by simp, fun _ => by simp⟩

/-- A region taken and given back is settled. -/
theorem settled_region (first count : Nat) :
    Settled [Op.acquire (Resource.region first count), .release (.region first count)] := by
  intro r
  by_cases hr : Resource.region first count = r <;> simp [hr]

/-- What leaves a region or a record behind is not rolled back. -/
theorem Started.not_rolledBack {s t : Driver} (h : Started s t) {k : Kernel}
    (hk : k.reg.regions = t.kernel.reg.regions ∨
      t.kernel.reg.records.length < k.reg.records.length) :
    ¬ RolledBack s.kernel k := by
  rintro ⟨hreg, -⟩
  rcases hk with hregions | hrecords
  · rw [hreg, h.regions] at hregions
    exact absurd (congrArg List.length hregions) (by simp)
  · rw [hreg, h.records] at hrecords
    exact Nat.lt_irrefl _ hrecords

/-- A failed load is rolled back exactly when it failed before the pin loop. -/
theorem gpioLkmInit_rolledBack_iff (o : Outcomes) (s : Driver) :
    ((gpioLkmInit o s).2 ≠ 0 → RolledBack s.kernel (gpioLkmInit o s).1.kernel) ↔
      FailsEarlyOrNever o s.kernel := by
  rcases gpioLkmInit_cases o s with ⟨hr, he⟩ | ⟨_, hc, _, first, he⟩ | ⟨hr, hc, t, ht, he⟩
  · rw [he]
    exact iff_of_true (fun _ => RolledBack.refl _) (Or.inl hr)
  · apply iff_of_true
    · intro _
      rw [he]
      exact ⟨rfl, _, List.append_assoc _ _ _, settled_region first _⟩
    · exact Or.inr (Or.inl hc)
  · have hpins : (∀ i ∈ gpios, PinSucceeds o t.kernel i) ↔
        ∀ i ∈ gpios, PinSucceeds o s.kernel i :=
      forall₂_congr fun i _ => ht.pinSucceeds_iff i
    rw [he]
    rcases initLoop_cases o (List.range (MAX_GPIO_NUMBER + 1)) List.nodup_range 0 t with
      ⟨hall, u, as, hu, -⟩ | ⟨hall, hne, hleft⟩
    · rw [hu]
      exact iff_of_true (fun h => absurd rfl h) (Or.inr (Or.inr (hpins.mp hall)))
    · apply iff_of_false
      · intro h
        exact ht.not_rolledBack hleft (h hne)
      · rintro (h | h | h)
        · exact h hr
        · exact hc h
        · exact hall (hpins.mpr h)

/-- Everything succeeds but the GPIO requests. -/
def Outcomes.busyGpio : Outcomes := { Outcomes.smooth with gpio := fun _ => -EBUSY }

/-- The load fails with the region, the class and a record left behind. -/
theorem busyGpio_not_rolledBack :
    (gpioLkmInit .busyGpio .unloaded).2 = -ENODEV ∧
      ¬ RolledBack Driver.unloaded.kernel (gpioLkmInit .busyGpio .unloaded).1.kernel := by
  refine ⟨by decide, fun h => ?_⟩
  have hreg := congrArg Registries.records h.1
  exact absurd hreg (by decide)

end OsCourseLabs.Gpio
