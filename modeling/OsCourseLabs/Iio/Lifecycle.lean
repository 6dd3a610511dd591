import OsCourseLabs.Core.Nested
import OsCourseLabs.Core.Transition
import OsCourseLabs.Iio.Readback

/-!
# Binding and unbinding an HMC5843

A probe sets the chip up, then its triggered buffer, and last registers the device; each
failure undoes what came before. Memory is managed: the driver core frees it after a failed
probe and after a remove. The registers belong to the chip and outlive the driver, so what an
unbound chip does depends on how it was left.
-/

namespace OsCourseLabs.Iio.Hmc5843

open Ledger Transition

/-- What a bound driver holds. -/
inductive Resource where
  /-- From `devm_iio_device_alloc`. -/
  | iioDev
  | triggeredBuffer
  | registration
  deriving DecidableEq, Repr

/-- What the environment answers to the calls of one probe. -/
structure ProbeOutcomes where
  alloc : Bool
  init : InitOutcomes
  bufferSetup : Option Nat
  register : Option Nat
  sleep : Bus

/-- The answer, the registers after it, and what was acquired and released. -/
structure ProbeResult where
  ret : Int
  regmap : Registers
  ops : List (Op Resource)

/-- The label `buffer_setup_err`. -/
def bufferSetupErr (o : ProbeOutcomes) (ret : Int) (data : Hmc5843Data) (ops : List (Op Resource)) :
    ProbeResult :=
  ⟨ret, (hmc5843SetMode o.sleep HMC5843_MODE_SLEEP data).2.regmap, ops⟩

/-- `hmc5843_common_probe`; its labels give back the buffer and put the chip to sleep. -/
def hmc5843CommonProbe (o : ProbeOutcomes) (id : Ids) (regmap : Registers) : ProbeResult :=
  if o.alloc then
    let (ret, data) := hmc5843Init o.init ⟨id, regmap⟩
    if ret < 0 then ⟨ret, data.regmap, [.acquire .iioDev]⟩
    else
      match o.bufferSetup with
      | some errno => bufferSetupErr o (errorCode errno) data [.acquire .iioDev]
      | none =>
        match o.register with
        | some errno =>
          -- label buffer_cleanup
          bufferSetupErr o (errorCode errno) data
            [.acquire .iioDev, .acquire .triggeredBuffer, .release .triggeredBuffer]
        | none =>
          ⟨0, data.regmap,
            [.acquire .iioDev, .acquire .triggeredBuffer, .acquire .registration]⟩
  else ⟨-ENOMEM, regmap, []⟩

/-- The answer of the mode update is not looked at. -/
def hmc5843CommonRemove (sleep : Bus) (data : Hmc5843Data) : ProbeResult :=
  ⟨0, (hmc5843SetMode sleep HMC5843_MODE_SLEEP data).2.regmap,
    [.release .registration, .release .triggeredBuffer]⟩

/-- A chip, the variant that a driver bound to it drives, and what was acquired and released. -/
structure Device where
  regmap : Registers
  bound : Option Ids
  ledger : List (Op Resource)

/-- What happens to the device. -/
inductive Event where
  | probe (o : ProbeOutcomes) (id : Ids)
  | remove (sleep : Bus)
  | call (c : Call)

/-- The driver core probes an unbound device and frees managed memory with the binding. -/
def step (d : Device) : Event → Option Device
  | .probe o id =>
    match d.bound with
    | some _ => none
    | none =>
      let r := hmc5843CommonProbe o id d.regmap
      if r.ret < 0 then
        some ⟨r.regmap, none,
          d.ledger ++ r.ops ++ if o.alloc then [.release .iioDev] else []⟩
      else some ⟨r.regmap, some id, d.ledger ++ r.ops⟩
  | .remove sleep =>
    match d.bound with
    | none => none
    | some id =>
      let r := hmc5843CommonRemove sleep ⟨id, d.regmap⟩
      some ⟨r.regmap, none, d.ledger ++ r.ops ++ [.release .iioDev]⟩
  | .call c =>
    match d.bound with
    | none => none
    | some id => some { d with regmap := (c.serve ⟨id, d.regmap⟩).2.regmap }

/-- What a driver holds while it is bound, newest first, and otherwise. -/
def holdings : Option Ids → List Resource
  | some _ => [.registration, .triggeredBuffer, .iioDev]
  | none => []

/-- The updates that decide whether an unbound chip is left converting get through, and the one
that starts the conversion takes effect only if it says so. -/
def Event.Reliable : Event → Prop
  | .probe o _ => o.sleep.carries = true ∧ (o.init.mode = .ok ∨ o.init.mode.carries = false)
  | .remove sleep => sleep.carries = true
  | .call _ => True

/-- A failed set-up leaves the mode alone when its last update takes effect only if it says so. -/
theorem hmc5843Init_mode_of_neg {o : InitOutcomes} {data : Hmc5843Data}
    (h : (hmc5843Init o data).1 < 0) (hmode : o.mode = .ok ∨ o.mode.carries = false) :
    Setting.mode.get (hmc5843Init o data).2.regmap = Setting.mode.get data.regmap := by
  revert h
  unfold hmc5843Init
  split
  · exact fun _ => rfl
  · split
    · exact fun _ => rfl
    · simp only [hmc5843SetMeasConf_eq, hmc5843SetSampFreq_eq, hmc5843SetRangeGain_eq,
        hmc5843SetMode_eq, Setting.put_ret]
      have hconf := @Setting.get_put_of_ne .measConf .mode (by decide)
      have hrate := @Setting.get_put_of_ne .rate .mode (by decide)
      have hgain := @Setting.get_put_of_ne .gain .mode (by decide)
      split
      · exact fun _ => hconf _ _ _
      · split
        · exact fun _ => (hrate _ _ _).trans (hconf _ _ _)
        · split
          · exact fun _ => (hgain _ _ _).trans ((hrate _ _ _).trans (hconf _ _ _))
          · intro hneg
            have hb : o.mode.carries = false :=
              hmode.resolve_left ((Bus.ret_neg_iff _).mp hneg)
            rw [Setting.get_put, hb, hgain, hrate, hconf]
            rfl

/-- An access answers zero or an error. -/
theorem Bus.ret_eq_zero_or_neg (bus : Bus) : bus.ret = 0 ∨ bus.ret < 0 := by
  rw [ret_eq_zero_iff, ret_neg_iff]
  exact em _

/-- The init answers zero or an error. -/
theorem hmc5843Init_ret (o : InitOutcomes) (data : Hmc5843Data) :
    (hmc5843Init o data).1 = 0 ∨ (hmc5843Init o data).1 < 0 := by
  unfold hmc5843Init
  split
  · exact Or.inr (Int.negSucc_lt_zero _)
  · split
    · exact Or.inr (show -ENODEV < 0 by decide)
    · simp only [hmc5843SetMeasConf_eq, hmc5843SetSampFreq_eq, hmc5843SetRangeGain_eq,
        hmc5843SetMode_eq, Setting.put_ret]
      split
      · exact Or.inr ‹_›
      · split
        · exact Or.inr ‹_›
        · split
          · exact Or.inr ‹_›
          · exact Bus.ret_eq_zero_or_neg _

/-- How a probe ends: what it answers, leaves in the chip and holds. -/
inductive ProbeEnds (o : ProbeOutcomes) (id : Ids) (regmap : Registers) : ProbeResult → Prop
  | noMemory : o.alloc = false → ProbeEnds o id regmap ⟨-ENOMEM, regmap, []⟩
  | initFailed : o.alloc = true → (hmc5843Init o.init ⟨id, regmap⟩).1 < 0 →
    ProbeEnds o id regmap ⟨(hmc5843Init o.init ⟨id, regmap⟩).1,
      (hmc5843Init o.init ⟨id, regmap⟩).2.regmap, [.acquire .iioDev]⟩
  | undone {ret ops} : o.alloc = true → ret < 0 → stackAfter [] ops = some [.iioDev] →
    ProbeEnds o id regmap ⟨ret,
      (Setting.mode.put o.sleep HMC5843_MODE_SLEEP
        (hmc5843Init o.init ⟨id, regmap⟩).2).2.regmap, ops⟩
  | bound {ops} : o.alloc = true → (hmc5843Init o.init ⟨id, regmap⟩).1 = 0 →
    stackAfter [] ops = some [.registration, .triggeredBuffer, .iioDev] →
    ProbeEnds o id regmap ⟨0, (hmc5843Init o.init ⟨id, regmap⟩).2.regmap, ops⟩

/-- Each way through the probe is one of the ends. -/
theorem hmc5843CommonProbe_ends (o : ProbeOutcomes) (id : Ids) (regmap : Registers) :
    ProbeEnds o id regmap (hmc5843CommonProbe o id regmap) := by
  cases ha : o.alloc with
  | false =>
    rw [hmc5843CommonProbe, ha]
    exact .noMemory ha
  | true =>
    simp only [hmc5843CommonProbe, ha, ite_true]
    split
    · next hneg => exact .initFailed ha hneg
    · next hneg =>
      have hzero := (hmc5843Init_ret o.init ⟨id, regmap⟩).resolve_right hneg
      cases o.bufferSetup with
      | some errno =>
        simp only [bufferSetupErr, hmc5843SetMode_eq]
        exact .undone ha (Int.negSucc_lt_zero errno) rfl
      | none =>
        cases o.register with
        | some errno =>
          simp only [bufferSetupErr, hmc5843SetMode_eq]
          exact .undone ha (Int.negSucc_lt_zero errno) rfl
        | none => exact .bound ha hzero rfl

/-- What an event does to the device. -/
inductive Effect (d : Device) : Event → Device → Prop
  | noMemory {o id} : d.bound = none → Effect d (.probe o id) ⟨d.regmap, none, d.ledger⟩
  | initFailed {o id} : d.bound = none → (hmc5843Init o.init ⟨id, d.regmap⟩).1 < 0 →
    Effect d (.probe o id) ⟨(hmc5843Init o.init ⟨id, d.regmap⟩).2.regmap, none,
      d.ledger ++ [.acquire .iioDev, .release .iioDev]⟩
  | undone {o id ops data} : d.bound = none → stackAfter [] ops = some [.iioDev] →
    Effect d (.probe o id) ⟨(Setting.mode.put o.sleep HMC5843_MODE_SLEEP data).2.regmap, none,
      d.ledger ++ (ops ++ [.release .iioDev])⟩
  | bound {o id ops regmap} : d.bound = none → stackAfter [] ops = some (holdings (some id)) →
    Effect d (.probe o id) ⟨regmap, some id, d.ledger ++ ops⟩
  | removed {sleep id data} : d.bound = some id →
    Effect d (.remove sleep) ⟨(Setting.mode.put sleep HMC5843_MODE_SLEEP data).2.regmap, none,
      d.ledger ++ (holdings (some id)).map .release⟩
  | served {c id regmap} : d.bound = some id → Effect d (.call c) ⟨regmap, some id, d.ledger⟩

/-- Each step of a device has one of the effects. -/
theorem effect_of_step {d d' : Device} {e : Event} (hs : step d e = some d') : Effect d e d' := by
  cases e with
  | probe o id =>
    simp only [step] at hs
    split at hs
    · cases hs
    · next hb =>
      have hp := hmc5843CommonProbe_ends o id d.regmap
      generalize hmc5843CommonProbe o id d.regmap = r at hs hp
      cases hp with
      | noMemory ha =>
        cases hs
        simpa [ha] using Effect.noMemory hb
      | initFailed ha hneg =>
        rw [if_pos hneg] at hs
        cases hs
        simpa [ha] using Effect.initFailed hb hneg
      | undone ha hneg hops =>
        rw [if_pos hneg] at hs
        cases hs
        simpa [ha] using Effect.undone hb hops
      | bound ha hzero hops =>
        cases hs
        exact .bound hb hops
  | remove sleep =>
    simp only [step] at hs
    split at hs
    · cases hs
    · next id hb =>
      cases hs
      simpa [hmc5843CommonRemove, hmc5843SetMode_eq, holdings] using Effect.removed hb
  | call c =>
    simp only [step] at hs
    split at hs
    · cases hs
    · next id hb =>
      cases hs
      rw [hb]
      exact .served hb

/-- Every event keeps the ledger nested, with the holdings of a bound driver on the stack. -/
theorem step_ledger {d d' : Device} {e : Event} (hs : step d e = some d')
    (h : stackAfter [] d.ledger = some (holdings d.bound)) :
    stackAfter [] d'.ledger = some (holdings d'.bound) := by
  have hmore : ∀ ops, stackAfter [] (d.ledger ++ ops) = stackAfter (holdings d.bound) ops :=
    fun ops => by rw [stackAfter_append, h, Option.bind_some]
  cases effect_of_step hs with
  | noMemory hb =>
    rw [hb] at h
    exact h
  | initFailed hb hneg =>
    rw [hmore, hb]
    rfl
  | undone hb hops =>
    rw [hmore, hb, holdings, stackAfter_append, hops]
    rfl
  | bound hb hops =>
    rw [hmore, hb]
    exact hops
  | removed hb =>
    rw [hmore, hb]
    rfl
  | served hb =>
    rw [hb] at h
    exact h

/-- However often a driver is bound and unbound and whichever calls fail, what it holds is
acquired in one order and given back in the reverse one: three things while it is bound and
nothing otherwise. -/
theorem hmc5843_lifecycle_nested {d d' : Device} {es : List Event} (hr : Run step d es d')
    (h0 : d.bound = none ∧ d.ledger = []) :
    stackAfter [] d'.ledger = some (holdings d'.bound) := by
  refine hr.invariant (I := fun u => stackAfter [] u.ledger = some (holdings u.bound)) ?_
    fun u e v hu hs => step_ledger hs hu
  rw [h0.1, h0.2]
  rfl

/-- A probe that fails to register and one that succeeds. -/
theorem hmc5843_lifecycle_nested_retried :
    ∃ d, Run step ⟨fun _ => 0x13, none, []⟩
      [.probe ⟨true, .smooth, none, some 11, .ok⟩ .hmc5883l,
        .probe ⟨true, .smooth, none, none, .ok⟩ .hmc5883l] d ∧
      stackAfter [] d.ledger = some [.registration, .triggeredBuffer, .iioDev] := by
  obtain ⟨d, hrun, hd⟩ := run_of_observed (f := Device.bound)
    (show (exec step ⟨fun _ => 0x13, none, []⟩
      [.probe ⟨true, .smooth, none, some 11, .ok⟩ .hmc5883l,
        .probe ⟨true, .smooth, none, none, .ok⟩ .hmc5883l]).map _ = some (some .hmc5883l) from rfl)
  refine ⟨d, hrun, ?_⟩
  rw [hmc5843_lifecycle_nested hrun ⟨rfl, rfl⟩, hd]
  rfl

/-- The mode of a chip that no driver is bound to is not the converting one. -/
def Device.Resting (d : Device) : Prop :=
  d.bound = none → Setting.mode.get d.regmap ≠ 0

/-- A chip that rests while unbound does so after a step on a bus that can be relied on. -/
theorem step_resting {d d' : Device} {e : Event} (he : e.Reliable) (hs : step d e = some d')
    (h : d.Resting) : d'.Resting := by
  have hsleep : ∀ bus : Bus, bus.carries = true → ∀ data : Hmc5843Data,
      Setting.mode.get (Setting.mode.put bus HMC5843_MODE_SLEEP data).2.regmap ≠ 0 := by
    intro bus hb data
    rw [Setting.get_put, hb, if_pos rfl]
    decide
  cases effect_of_step hs with
  | noMemory hb => exact fun _ => h hb
  | initFailed hb hneg =>
    intro _
    simp only
    rw [hmc5843Init_mode_of_neg hneg he.2]
    exact h hb
  | undone => exact fun _ => hsleep _ he.1 _
  | removed => exact fun _ => hsleep _ he _
  | bound | served => exact fun hn => absurd hn (by simp)

/-- A chip that did not convert before any driver came does not convert whenever no driver is
bound, in every run whose deciding updates get through. -/
theorem hmc5843_unbound_rests {d d' : Device} {es : List Event} (hr : Run step d es d')
    (h0 : d.Resting) (he : ∀ e ∈ es, e.Reliable) : d'.Resting :=
  hr.invariant_of_mem he h0 fun _ _ _ hrel hu hs => step_resting hrel hs hu

/-- A driver that came and went leaves the chip asleep. -/
theorem hmc5843_unbound_rests_removed :
    ∃ d, Run step ⟨fun _ => 0x13, none, []⟩
      [.probe ⟨true, .smooth, none, none, .ok⟩ .hmc5883l, .remove .ok] d ∧
      Setting.mode.get d.regmap ≠ 0 := by
  obtain ⟨d, hrun, hd⟩ := run_of_observed (f := Device.bound)
    (show (exec step ⟨fun _ => 0x13, none, []⟩
      [.probe ⟨true, .smooth, none, none, .ok⟩ .hmc5883l, .remove .ok]).map _ = some none from rfl)
  exact ⟨d, hrun, hmc5843_unbound_rests hrun (fun _ => by decide)
    (by simp [Event.Reliable, Bus.carries, InitOutcomes.smooth]) hd⟩

end OsCourseLabs.Iio.Hmc5843
