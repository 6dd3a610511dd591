import OsCourseLabs.Usb.Probe

/-!
# What a probe leaves behind

All failures of `stm32leds_probe` share one label, which drops the only reference on the
structure. The destructor gives back the device reference, the buffer if there is one, and
the structure; a successful probe leaves the device from which every run starts.
-/

namespace OsCourseLabs.Usb

open Ledger

/-- A failed probe released what it acquired, each once and after it was acquired, and left the
interface without data pointer and minor of its own. -/
structure LeavesNothing (o : ProbeOutcomes) (interface : Interface) (r : ProbeResult) : Prop where
  settled : Settled r.ledger
  disciplined : Disciplined r.ledger
  acquired : ∀ a, o.dev = some a → acquired r.ledger (.device a) = 1 ∧
    acquired r.ledger (.usbDevice interface.udev) = 1
  dev : r.dev = none
  intfdata : interface.intfdata = none → r.interface.intfdata = none
  registered : r.interface.registered = interface.registered

/-- A successful probe holds structure, buffer and device reference once each, the interface
points to the structure, and the structure has one reference. -/
structure Binds (interface : Interface) (r : ProbeResult) (a : Nat) (dev : Stm32leds)
    (b : Buffer) : Prop where
  alive : r.dev = some dev
  kref : dev.kref = 1
  udev : dev.udev = interface.udev
  buffer : dev.intInBuffer = some b
  intfdata : r.interface.intfdata = some a
  registered : r.interface.registered = true
  held : ∀ k, acquired r.ledger k =
    (if k = .device a ∨ k = .usbDevice interface.udev ∨ k = .buffer b then 1 else 0) ∧
      released r.ledger k = 0

theorem Sound.acquired {a : Nat} {interface : Interface} {p : Probing} (h : Sound a interface p)
    (k : Resource) : acquired p.ledger k = (if k = .device a ∨ k = .usbDevice interface.udev ∨
      ∃ b, p.dev.intInBuffer = some b ∧ k = .buffer b then 1 else 0) ∧ released p.ledger k = 0 := by
  rw [h.ledger]
  cases p.dev.intInBuffer <;> cases k <;> simp [bufferAcquired, eq_comm]

theorem Sound.disciplined {a : Nat} {interface : Interface} {p : Probing}
    (h : Sound a interface p) : Disciplined p.ledger := by
  have hdevice : Disciplined [Op.acquire (Resource.device a)] :=
    Disciplined.nil.acquire (by simp [Held])
  have hboth := hdevice.acquire (k := .usbDevice interface.udev) (by simp [Held])
  rw [h.ledger]
  cases p.dev.intInBuffer with
  | none => exact hboth
  | some b => exact hboth.acquire (by simp [Held])

theorem acquired_stm32ledsDelete (a : Nat) (dev : Stm32leds) (k : Resource) :
    Ledger.acquired (stm32ledsDelete a dev) k = 0 := by
  cases hb : dev.intInBuffer <;> simp [stm32ledsDelete, hb]

/-- The error label releases what the probe acquired. -/
theorem Sound.error {a : Nat} {o : ProbeOutcomes} {interface interface' : Interface} {p : Probing}
    {retval : Int} (h : Sound a interface p) (ho : o.dev = some a)
    (hi : interface.intfdata = none → interface'.intfdata = none)
    (hr : interface'.registered = interface.registered) :
    LeavesNothing o interface (probeError a retval interface' p) := by
  have hheld := h.acquired
  have hledger : (probeError a retval interface' p).ledger =
      p.ledger ++ stm32ledsDelete a p.dev := by rw [probeError, if_pos h.kref]
  constructor
  case settled =>
    intro k
    obtain ⟨ha, hrel⟩ := hheld k
    rw [hledger, acquired_append, released_append, acquired_stm32ledsDelete, ha, hrel]
    constructor
    · cases hb : p.dev.intInBuffer <;> cases k <;> simp [stm32ledsDelete, hb, h.udev, eq_comm]
    · split <;> simp
  case disciplined =>
    rw [hledger, stm32ledsDelete, h.udev, ← List.append_assoc, ← List.append_assoc]
    have hu := h.disciplined.release (k := .usbDevice interface.udev)
      (by simp [Held, hheld])
    cases hb : p.dev.intInBuffer with
    | none =>
      rw [List.append_nil]
      exact hu.release (by simp [Held, hheld])
    | some b =>
      have hbuf := hu.release (k := .buffer b) (by simp [Held, hheld, hb])
      exact hbuf.release (by simp [Held, hheld])
  case acquired =>
    intro a' ha'
    obtain rfl : a = a' := Option.some.inj (ho.symm.trans ha')
    simp [hledger, acquired_stm32ledsDelete, hheld]
  case dev => rw [probeError, if_pos h.kref]
  case intfdata =>
    intro hn
    rw [probeError, if_pos h.kref]
    exact hi hn
  case registered =>
    rw [probeError, if_pos h.kref]
    exact hr

/-- Either the probe goes through, with the structure in order, or it leaves nothing. -/
theorem stm32ledsProbe_cases (o : ProbeOutcomes) (interface : Interface) :
    (∃ a p, o.dev = some a ∧ Sound a interface p ∧ Found interface.endpoints p.dev ∧
      p.dev.intInEndpointAddr ≠ 0 ∧ stm32ledsProbe o interface =
        ⟨0, { interface with intfdata := some a, registered := true }, some p.dev, p.ledger⟩) ∨
    ((stm32ledsProbe o interface).retval ≠ 0 ∧
      LeavesNothing o interface (stm32ledsProbe o interface)) := by
  have hnomem : (-ENOMEM : Int) ≠ 0 := by decide
  cases ho : o.dev with
  | none =>
    have he : stm32ledsProbe o interface = ⟨-ENOMEM, interface, none, []⟩ := by
      simp only [stm32ledsProbe, ho]
    rw [he]
    refine Or.inr ⟨hnomem, fun k => by simp, Disciplined.nil, ?_, rfl, id, rfl⟩
    intro a ha
    rw [ho] at ha
    cases ha
  | some a =>
    rcases (probeStart_sound a interface).loop o 0 interface.endpoints with
      ⟨p, hp, hs⟩ | ⟨p, hp, hs⟩
    · have he : stm32ledsProbe o interface = probeRegister o a interface p := by
        simp only [stm32ledsProbe, ho, hp]
      rw [he]
      rcases probeRegister_cases o a interface p with ⟨⟨hin, _, _⟩, he⟩ |
        ⟨_, r, i', hr, hi, hreg, he⟩
      · exact Or.inl ⟨a, p, rfl, hs, (probeStart_found a interface).loop hp, hin, he⟩
      · rw [he, probeError_retval]
        exact Or.inr ⟨hr, hs.error ho hi hreg⟩
    · have he : stm32ledsProbe o interface = probeError a (-ENOMEM) interface p := by
        simp only [stm32ledsProbe, ho, hp]
      rw [he, probeError_retval]
      exact Or.inr ⟨hnomem, hs.error ho id rfl⟩

/-- A probe that fails leaves nothing behind, and one that succeeds holds everything once. -/
theorem stm32ledsProbe_settles (o : ProbeOutcomes) (interface : Interface) :
    ((stm32ledsProbe o interface).retval ≠ 0 →
      LeavesNothing o interface (stm32ledsProbe o interface)) ∧
    ((stm32ledsProbe o interface).retval = 0 → ∃ a dev b, o.dev = some a ∧
      Binds interface (stm32ledsProbe o interface) a dev b) := by
  rcases stm32ledsProbe_cases o interface with ⟨a, p, ho, hs, hf, hin, he⟩ | ⟨hr, h⟩
  · rw [he]
    refine ⟨fun h => absurd rfl h, fun _ => ?_⟩
    obtain ⟨ein, hein⟩ := Option.ne_none_iff_exists'.mp (mt hf.input.address_eq_zero_iff.mpr hin)
    have hinput := hf.input
    rw [hein] at hinput
    obtain ⟨-, -, -, i, hib⟩ := hinput
    refine ⟨a, p.dev, _, ho, rfl, hs.kref, hs.udev, hib, rfl, rfl, fun k => ?_⟩
    have hheld := hs.acquired k
    simpa only [hib, Option.some.injEq, exists_eq_left'] using hheld
  · exact ⟨fun _ => h, fun h0 => absurd h0 hr⟩

/-- The device that file operations and disconnect work on after a probe. -/
def ProbeResult.device (r : ProbeResult) (dev : Stm32leds) (b : Buffer) : Device where
  kref := dev.kref
  deleted := 0
  intfdata := r.interface.intfdata.isSome
  registered := r.interface.registered
  disconnect := .bound
  files := []
  calls := []
  shared := ⟨none, List.replicate b.size 0, []⟩
  completed := []

/-- Every successful probe leaves the device from which the runs start, with an input buffer
of the size stored in the structure. -/
theorem stm32ledsProbe_device {o : ProbeOutcomes} {interface : Interface} {cfg : Config}
    {dev : Stm32leds} (h0 : (stm32ledsProbe o interface).retval = 0)
    (hdev : (stm32ledsProbe o interface).dev = some dev) (hcfg : cfg.intInSize = dev.intInSize) :
    ∃ b, dev.intInBuffer = some b ∧
      (stm32ledsProbe o interface).device dev b = probed cfg := by
  rcases stm32ledsProbe_cases o interface with ⟨a, p, ho, hs, hf, hin, he⟩ | ⟨hr, _⟩
  swap
  · exact absurd h0 hr
  rw [he] at hdev ⊢
  cases hdev
  obtain ⟨ein, hein⟩ := Option.ne_none_iff_exists'.mp (mt hf.input.address_eq_zero_iff.mpr hin)
  have hinput := hf.input
  rw [hein] at hinput
  obtain ⟨-, -, hsize, i, hib⟩ := hinput
  refine ⟨_, hib, ?_⟩
  simp only [ProbeResult.device, probed, hs.kref, hcfg, hsize, Option.isSome_some]

end OsCourseLabs.Usb
