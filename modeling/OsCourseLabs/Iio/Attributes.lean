import OsCourseLabs.Core.LastWrite
import OsCourseLabs.Iio.Dummy

/-!
# The attributes of the dummy IIO device

A value that is accepted for an attribute is what the attribute reads as until the next one
is accepted. Nothing else that can be read changes with it, and a write that is refused
changes nothing.
-/

namespace OsCourseLabs.Iio.Dummy

/-- What can be written. -/
inductive Attribute where
  | dac
  | steps
  | running
  | walking
  | calibscale
  | calibbias
  | enable
  | calibheight
  deriving DecidableEq, Repr

/-- The attribute that a channel and a mask name, of those that can be written. -/
def attrOf (chan : ChanSpec) (mask : ChanInfo) : Option Attribute :=
  match mask, chan.type, chan.channel2 with
  | .raw, .voltage, _ => if chan.output then some .dac else none
  | .processed, .steps, _ => some .steps
  | .processed, .activity, .modifier .running => some .running
  | .processed, .activity, .modifier .walking => some .walking
  | .calibscale, _, _ => some .calibscale
  | .calibbias, _, _ => some .calibbias
  | .enable, .steps, _ => some .enable
  | .calibheight, .steps, _ => some .calibheight
  | _, _, _ => none

/-- A write of user space. -/
structure Write where
  chan : ChanSpec
  val : Int
  val2 : Int
  mask : ChanInfo
  deriving DecidableEq, Repr

/-- What an attribute reads as once a value is accepted for it: a confidence is clamped, and a
scale is accepted only if it is in the table. -/
def Attribute.accepts (val val2 : Int) : Attribute → Option Answer
  | .running => some (.int (max 0 (min val 100)))
  | .walking => some (.int (max 0 (min val 100)))
  | .calibscale =>
    if (val, val2) ∈ dummyScales.map fun scale => (scale.val, scale.val2) then
      some (.intPlusMicro val val2)
    else none
  | _ => some (.int val)

/-- The attribute that a write sets, and what the attribute then reads as. -/
def Write.accepted (w : Write) : Option (Attribute × Answer) :=
  (attrOf w.chan w.mask).bind fun a => (a.accepts w.val w.val2).map fun v => (a, v)

/-- What a read of the channel answers once the write is served, where the write changes it. -/
def Write.writes (chan : ChanSpec) (mask : ChanInfo) (w : Write) : Option (Option Answer) :=
  w.accepted.bind fun (a, v) => if attrOf chan mask = some a then some (some v) else none

/-- The function of the driver that a write runs. -/
def Write.serve (st : DummyState) (w : Write) : Int × DummyState :=
  iioDummyWriteRaw st w.chan w.val w.val2 w.mask

/-- The state after a sequence of writes. -/
def DummyState.run (st : DummyState) (ws : List Write) : DummyState :=
  ws.foldl (fun st w => (w.serve st).2) st

/-- An attribute as it is read from the state. -/
def Attribute.read (st : DummyState) : Attribute → Option Answer
  | .dac => some (.int st.dacVal)
  | .steps => some (.int st.steps)
  | .running => some (.int st.activityRunning)
  | .walking => some (.int st.activityWalking)
  | .calibscale =>
    st.accelCalibscale.map fun i => .intPlusMicro (dummyScales.get i).val (dummyScales.get i).val2
  | .calibbias => some (.int st.accelCalibbias)
  | .enable => some (.int st.stepsEnabled)
  | .calibheight => some (.int st.height)

/-- A channel and a mask that name an attribute read it. -/
theorem iioDummyReadRaw_attrOf {chan : ChanSpec} {mask : ChanInfo} {a : Attribute}
    (h : attrOf chan mask = some a) (st : DummyState) :
    iioDummyReadRaw st chan mask = a.read st := by
  unfold attrOf at h
  split at h <;> (try split at h) <;> cases h <;> simp [iioDummyReadRaw, Attribute.read, *]

/-- What no attribute names is read from the values that no write changes. -/
theorem iioDummyReadRaw_congr {chan : ChanSpec} {mask : ChanInfo}
    (h : attrOf chan mask = none) {st st' : DummyState}
    (hsingle : st'.singleEndedAdcVal = st.singleEndedAdcVal)
    (hdiff0 : st'.differentialAdcVal0 = st.differentialAdcVal0)
    (hdiff1 : st'.differentialAdcVal1 = st.differentialAdcVal1)
    (haccel : st'.accelVal = st.accelVal) :
    iioDummyReadRaw st' chan mask = iioDummyReadRaw st chan mask := by
  obtain ⟨type, channel, channel2, output, differential, scanIndex, infoMask⟩ := chan
  cases mask with
  | raw =>
    cases type with
    | voltage =>
      have ho : output = false := by simpa [attrOf] using h
      simp [iioDummyReadRaw, ho, hsingle, hdiff0, hdiff1]
    | accel => simp [iioDummyReadRaw, haccel]
    | _ => rfl
  | processed =>
    cases type with
    | steps => cases h
    | activity =>
      match channel2 with
      | .modifier .running => cases h
      | .modifier .walking => cases h
      | .modifier .x => rfl
      | .modifier .y => rfl
      | .modifier .z => rfl
      | .number _ => rfl
    | _ => rfl
  | calibscale => cases h
  | calibbias => cases h
  | enable =>
    cases type with
    | steps => cases h
    | _ => rfl
  | calibheight =>
    cases type with
    | steps => cases h
    | _ => rfl
  | scale => cases type <;> rfl
  | _ => rfl

/-- What a write of an attribute does. -/
def Attribute.store (st : DummyState) (val val2 : Int) : Attribute → Int × DummyState
  | .dac => (0, { st with dacVal := val })
  | .steps => (0, { st with steps := val })
  | .running => (0, { st with activityRunning := clampActivity val })
  | .walking => (0, { st with activityWalking := clampActivity val })
  | .calibscale =>
    match findScale val val2 with
    | none => (-EINVAL, st)
    | some i => (0, { st with accelCalibscale := some i })
  | .calibbias => (0, { st with accelCalibbias := val })
  | .enable => (0, { st with stepsEnabled := val })
  | .calibheight => (0, { st with height := val })

/-- The dispatch of a write agrees with the dispatch of a read on which attribute is meant. -/
theorem iioDummyWriteRaw_eq_store (st : DummyState) (chan : ChanSpec) (val val2 : Int)
    (mask : ChanInfo) :
    iioDummyWriteRaw st chan val val2 mask =
      match attrOf chan mask with
      | some a => a.store st val val2
      | none => (-EINVAL, st) := by
  obtain ⟨type, channel, channel2, output, differential, scanIndex, infoMask⟩ := chan
  cases mask with
  | raw =>
    cases type with
    | voltage => cases output <;> rfl
    | _ => rfl
  | processed =>
    cases type with
    | activity =>
      match channel2 with
      | .modifier .running => rfl
      | .modifier .walking => rfl
      | .modifier .x => rfl
      | .modifier .y => rfl
      | .modifier .z => rfl
      | .number _ => rfl
    | _ => rfl
  | enable => cases type <;> rfl
  | calibheight => cases type <;> rfl
  | _ => rfl

/-- An activity is cut to a percentage. -/
theorem clampActivity_eq (val : Int) : clampActivity val = max 0 (min val 100) := by
  simp only [clampActivity]
  split <;> split <;> omega

/-- A pair that is found in the table of scales is what the entry found holds. -/
theorem findScale_eq_some {val val2 : Int} {i : Fin dummyScales.length}
    (h : findScale val val2 = some i) :
    (dummyScales.get i).val = val ∧ (dummyScales.get i).val2 = val2 := by
  have hi := (List.findFinIdx?_eq_some_iff.mp h).1
  have hpair : val = (dummyScales.get i).val ∧ val2 = (dummyScales.get i).val2 := by
    simpa using hi
  exact ⟨hpair.1.symm, hpair.2.symm⟩

/-- A scale is not found exactly if it is not in the table. -/
theorem findScale_eq_none_iff {val val2 : Int} :
    findScale val val2 = none ↔
      (val, val2) ∉ dummyScales.map fun scale => (scale.val, scale.val2) := by
  rw [findScale, List.findFinIdx?_eq_none_iff, List.mem_map]
  constructor
  · rintro hall ⟨scale, hmem, hpair⟩
    have hfound := hall scale hmem
    grind
  · intro hnot scale hmem hfound
    refine hnot ⟨scale, hmem, ?_⟩
    grind

/-- A write of an attribute that accepts the value succeeds, and the attribute then reads as
said and all else as before. -/
theorem Attribute.store_spec (st : DummyState) (val val2 : Int) (a : Attribute) :
    match a.accepts val val2 with
    | some v =>
      (a.store st val val2).1 = 0 ∧
        (∀ b : Attribute, b.read (a.store st val val2).2 = if b = a then some v else b.read st) ∧
        ((a.store st val val2).2.singleEndedAdcVal, (a.store st val val2).2.differentialAdcVal0,
            (a.store st val val2).2.differentialAdcVal1, (a.store st val val2).2.accelVal) =
          (st.singleEndedAdcVal, st.differentialAdcVal0, st.differentialAdcVal1, st.accelVal)
    | none => a.store st val val2 = (-EINVAL, st) := by
  cases a with
  | calibscale =>
    simp only [Attribute.accepts, Attribute.store]
    cases hfind : findScale val val2 with
    | none => rw [if_neg (findScale_eq_none_iff.mp hfind)]
    | some i =>
      have hmem : (val, val2) ∈ dummyScales.map fun scale => (scale.val, scale.val2) := by
        by_contra hnot
        simp [findScale_eq_none_iff.mpr hnot] at hfind
      obtain ⟨hval, hval2⟩ := findScale_eq_some hfind
      rw [if_pos hmem]
      refine ⟨rfl, fun b => ?_, rfl⟩
      cases b <;> simp [Attribute.read, ← hval, ← hval2]
  | running | walking =>
    refine ⟨rfl, fun b => ?_, rfl⟩
    cases b <;> simp [Attribute.read, Attribute.store, clampActivity_eq]
  | _ =>
    refine ⟨rfl, fun b => ?_, rfl⟩
    cases b <;> simp [Attribute.read, Attribute.store]

/-- What a write answers, and what every read answers after it. -/
theorem Write.serve_spec (st : DummyState) (w : Write) :
    (w.serve st).1 = (if w.accepted.isSome then 0 else -EINVAL) ∧
      ∀ chan mask, iioDummyReadRaw (w.serve st).2 chan mask =
        (w.writes chan mask).getD (iioDummyReadRaw st chan mask) := by
  rw [Write.serve, iioDummyWriteRaw_eq_store]
  cases ha : attrOf w.chan w.mask with
  | none => simp [Write.accepted, Write.writes, ha]
  | some a =>
    have hspec := a.store_spec st w.val w.val2
    cases hv : a.accepts w.val w.val2 with
    | none =>
      rw [hv] at hspec
      simp [hspec, Write.accepted, Write.writes, ha, hv]
    | some v =>
      rw [hv] at hspec
      obtain ⟨hret, hread, hrest⟩ := hspec
      simp only [Prod.mk.injEq] at hrest
      refine ⟨by simp [hret, Write.accepted, ha, hv], fun chan mask => ?_⟩
      cases hb : attrOf chan mask with
      | none =>
        rw [iioDummyReadRaw_congr hb hrest.1 hrest.2.1 hrest.2.2.1 hrest.2.2.2]
        simp [Write.writes, Write.accepted, ha, hv, hb]
      | some b =>
        rw [iioDummyReadRaw_attrOf hb, iioDummyReadRaw_attrOf hb, hread b]
        by_cases hba : b = a
        · simp [Write.writes, Write.accepted, ha, hv, hb, hba]
        · have hab : ¬a = b := fun h => hba h.symm
          simp [Write.writes, Write.accepted, ha, hv, hb, hba]

/-- A write that is refused changes nothing. -/
theorem Write.serve_refused {st : DummyState} {w : Write} (h : w.accepted = none) :
    w.serve st = (-EINVAL, st) := by
  rw [Write.serve, iioDummyWriteRaw_eq_store]
  cases ha : attrOf w.chan w.mask with
  | none => rfl
  | some a =>
    have hspec := a.store_spec st w.val w.val2
    have hv : a.accepts w.val w.val2 = none := by simpa [Write.accepted, ha] using h
    rw [hv] at hspec
    exact hspec

/-- A channel reads what was last written to it. -/
theorem DummyState.run_reads (st : DummyState) (ws : List Write) (chan : ChanSpec)
    (mask : ChanInfo) :
    iioDummyReadRaw (st.run ws) chan mask =
      lastWrite (Write.writes chan mask) (iioDummyReadRaw st chan mask) ws :=
  foldl_eq_lastWrite (r := fun st => iioDummyReadRaw st chan mask)
    (fun u w => (w.serve_spec u).2 chan mask) st ws

/-- After any sequence of writes a read answers with what was last accepted for the attribute it
names, or as at the start where nothing was. A write is refused exactly when it names no
attribute or a scale that is not in the table, and then leaves the whole state. -/
theorem iioDummy_reads_last_write (st : DummyState) (ws : List Write) :
    (∀ chan mask, iioDummyReadRaw (st.run ws) chan mask =
      lastWrite (Write.writes chan mask) (iioDummyReadRaw st chan mask) ws) ∧
    ∀ w : Write, if w.accepted.isSome then (w.serve (st.run ws)).1 = 0
      else w.serve (st.run ws) = (-EINVAL, st.run ws) := by
  refine ⟨st.run_reads ws, fun w => ?_⟩
  cases h : w.accepted with
  | none => exact Write.serve_refused h
  | some p =>
    have hret := (w.serve_spec (st.run ws)).1
    rw [h] at hret
    exact hret

/-- A read that the core can print, and that is a percentage if it is a confidence. -/
def Proper (type : ChanType) : Option Answer → Prop
  | none => False
  | some (.error _) => False
  | some (.int val) => type = .activity → 0 ≤ val ∧ val ≤ 100
  | some (.intPlusMicro _ _) => type ≠ .activity
  | some (.intPlusNano _ _) => type ≠ .activity

/-- What an attribute accepts is proper, but for a confidence only on its own attributes. -/
theorem Attribute.accepts_proper {a : Attribute} {val val2 : Int} {v : Answer}
    (h : a.accepts val val2 = some v) (type : ChanType)
    (htype : type = .activity → a = .running ∨ a = .walking) : Proper type (some v) := by
  cases a with
  | running | walking =>
    simp only [Attribute.accepts, Option.some.injEq] at h
    subst h
    exact fun _ => by omega
  | calibscale =>
    simp only [Attribute.accepts] at h
    split at h <;> cases h
    intro ht
    simpa using htype ht
  | _ =>
    cases h
    intro ht
    simpa using htype ht

/-- A listed attribute of a confidence channel is the confidence. -/
theorem attrOf_of_activity : ∀ chan ∈ iioDummyChannels, ∀ mask ∈ chan.infoMask,
    chan.type = .activity →
      attrOf chan mask = some .running ∨ attrOf chan mask = some .walking := by
  decide

/-- Every attribute that the channels list reads properly on a device that was just set up. -/
theorem iioDummyInitDevice_proper (st : DummyState) :
    ∀ chan ∈ iioDummyChannels, ∀ mask ∈ chan.infoMask,
      Proper chan.type (iioDummyReadRaw (iioDummyInitDevice st) chan mask) := by
  simp [iioDummyChannels, iioDummyReadRaw, iioDummyInitDevice, Proper, dummyScales]

/-- On a device that was set up, whatever was written, by whomever and to whatever channel,
every attribute that a channel lists reads without an error and without following a null
pointer, and a confidence stays within a hundred percent. -/
theorem iioDummy_attributes_proper (st : DummyState) (ws : List Write) :
    ∀ chan ∈ iioDummyChannels, ∀ mask ∈ chan.infoMask,
      Proper chan.type (iioDummyReadRaw ((iioDummyInitDevice st).run ws) chan mask) := by
  intro chan hchan mask hmask
  rw [DummyState.run_reads]
  refine lastWrite_of_forall (iioDummyInitDevice_proper st chan hchan mask hmask) ?_
  intro w _ u hu
  obtain ⟨⟨a, v⟩, hacc, hif⟩ := Option.bind_eq_some_iff.mp hu
  obtain ⟨b, hb, hv⟩ := Option.bind_eq_some_iff.mp hacc
  obtain ⟨v', hv', hpair⟩ := Option.map_eq_some_iff.mp hv
  cases hpair
  obtain ⟨hattr, rfl⟩ : attrOf chan mask = some a ∧ some v = u := by
    simpa [Option.ite_none_right_eq_some] using hif
  refine Attribute.accepts_proper hv' chan.type fun ht => ?_
  have hconf := attrOf_of_activity chan hchan mask hmask ht
  simpa [hattr] using hconf

/-- Two hundred percent, written as the confidence of a walk. -/
def Write.tooSure : Write where
  chan :=
    { type := .activity, channel := 0, channel2 := .modifier .walking, output := false
      differential := false, scanIndex := -1, infoMask := [.processed] }
  val := 200
  val2 := 0
  mask := .processed

theorem iioDummy_attributes_proper_clamped :
    Proper .activity (iioDummyReadRaw
      ((iioDummyInitDevice ⟨0, 0, 0, 0, 0, 0, none, 0, 0, 0, 0, 0⟩).run [.tooSure])
      Write.tooSure.chan .processed) :=
  iioDummy_attributes_proper _ _ Write.tooSure.chan (by decide) .processed (by decide)

end OsCourseLabs.Iio.Dummy
