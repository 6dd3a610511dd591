import OsCourseLabs.Usb.InFlight
import Mathlib.Data.List.Basic

/-!
# What a writer is told

The return value of `stm32leds_write` is one variable that also holds the status of the
submission. It is zero for an accepted frame and for a write of the wrong length, and most
failures do not return at all, so a caller can tell frames accepted from frames dropped only
where none is accepted.
-/

namespace OsCourseLabs.Usb

/-- The frame that the event hands to the device. -/
def Event.frame : Event → Option (List UInt8)
  | .submitUrb data ret => if ret = 0 then some data else none
  | _ => none

/-- The frames of a write that the USB core accepts. -/
def WriteRequest.frames (cfg : Config) (q : WriteRequest) : List (List UInt8) :=
  (stm32ledsWrite cfg q).1.filterMap Event.frame

/-- The payload of a write that returns a positive value. -/
def WriteRequest.acknowledged (cfg : Config) (q : WriteRequest) : List (List UInt8) :=
  match (stm32ledsWrite cfg q).2 with
  | .returned r => if 0 < r then [q.payload.take q.count] else []
  | .crashed => []

/-- An accepted write returns its count and carries its payload, a dropped one that has a
payload returns an error. -/
structure WriteRequest.Tells (cfg : Config) (q : WriteRequest) : Prop where
  accepted : ∀ data ∈ q.frames cfg, (stm32ledsWrite cfg q).2 = .returned q.count ∧
    q.count ≤ q.payload.length ∧ data = q.payload.take q.count
  dropped : 0 < q.count → q.frames cfg = [] → ∃ r < 0, (stm32ledsWrite cfg q).2 = .returned r

/-- Over a sequence of writes the caller knows from the return values which frames the device
was handed. -/
structure TellsApart (cfg : Config) (qs : List WriteRequest) : Prop where
  tells : ∀ q ∈ qs, q.Tells cfg
  frames : qs.flatMap (WriteRequest.frames cfg) = qs.flatMap (WriteRequest.acknowledged cfg)
  replies : ∀ q ∈ qs, ∀ q' ∈ qs, q.frames cfg ≠ [] → q'.frames cfg = [] → 0 < q'.count →
    (stm32ledsWrite cfg q).2 ≠ (stm32ledsWrite cfg q').2

/-- The write gets as far as `usb_submit_urb`. -/
def WriteRequest.Submits (q : WriteRequest) : Prop :=
  q.count = 10 ∧ q.urbOk = true ∧ q.coherentOk = true ∧ q.count ≤ q.payload.length

theorem devDbg_frames (cfg : Config) : (devDbg cfg).filterMap Event.frame = [] := by
  unfold devDbg
  split <;> rfl

/-- What a write hands over and how it ends, by how far it gets. -/
theorem stm32ledsWrite_replies (cfg : Config) (q : WriteRequest) :
    (q.Submits ∧ q.frames cfg = (if q.submit = 0 then [q.data] else []) ∧
      (stm32ledsWrite cfg q).2 = if q.submit = 0 then .returned 0 else .crashed) ∨
    (¬ q.Submits ∧ q.frames cfg = [] ∧ (stm32ledsWrite cfg q).2 =
      if q.count ≠ 10 then .returned 0
      else if q.NoBuffer then .returned (-ENOMEM)
      else .crashed) := by
  have hdbg := devDbg_frames cfg
  unfold WriteRequest.frames
  by_cases h10 : q.count = 10
  swap
  · refine Or.inr ⟨fun h => h10 h.1, ?_⟩
    by_cases h0 : q.count = 0
    · simp [stm32ledsWrite, h0]
    · simp [stm32ledsWrite, h0, h10, hdbg]
  by_cases hurb : q.urbOk = true
  swap
  · have he : stm32ledsWrite cfg q = ([.readUrb], .crashed) := by
      simp [stm32ledsWrite, h10, WriteRequest.fromUrb, hurb]
    rw [he]
    exact Or.inr ⟨fun h => hurb h.2.1, rfl, by simp [h10, WriteRequest.NoBuffer, hurb]⟩
  by_cases hbuf : q.coherentOk = true
  swap
  · have he : stm32ledsWrite cfg q =
        (.allocUrb :: (devDbg cfg ++ cleanup false), .returned (-ENOMEM)) := by
      simp [stm32ledsWrite, h10, WriteRequest.fromUrb, hurb, WriteRequest.fromCoherent, hbuf]
    rw [he]
    refine Or.inr ⟨fun h => hbuf h.2.2.1, ?_, by simp [h10, WriteRequest.NoBuffer, hurb, hbuf]⟩
    rw [List.filterMap_cons, List.filterMap_append, hdbg]
    rfl
  by_cases hcopy : q.payload.length < q.count
  · have he : stm32ledsWrite cfg q =
        (.allocUrb :: .allocCoherent :: (devDbg cfg ++ cleanup true), .crashed) := by
      rw [h10] at hcopy
      simp [stm32ledsWrite, h10, WriteRequest.fromUrb, hurb, WriteRequest.fromCoherent, hbuf,
        WriteRequest.fromCopy, hcopy]
    rw [he]
    refine Or.inr ⟨fun h => Nat.not_le.mpr hcopy h.2.2.2, ?_,
      by simp [h10, WriteRequest.NoBuffer, hbuf]⟩
    rw [List.filterMap_cons, List.filterMap_cons, List.filterMap_append, hdbg]
    rfl
  · have he : stm32ledsWrite cfg q =
        (.allocUrb :: .allocCoherent :: q.fromSubmit.1, q.fromSubmit.2) := by
      rw [h10] at hcopy
      simp [stm32ledsWrite, h10, WriteRequest.fromUrb, hurb, WriteRequest.fromCoherent, hbuf,
        WriteRequest.fromCopy, hcopy]
    rw [he]
    refine Or.inl ⟨⟨h10, hurb, hbuf, Nat.not_lt.mp hcopy⟩, ?_⟩
    by_cases hsub : q.submit = 0
    · simp only [WriteRequest.fromSubmit, hsub, ne_eq, not_true_eq_false, ite_false, ite_true,
        and_true]
      rfl
    · simp only [WriteRequest.fromSubmit, hsub, ne_eq, not_false_eq_true, ite_false, ite_true,
        and_true]
      simp [Event.frame, hsub, cleanup]

/-- A write that submits never tells: accepted it returns zero, refused it does not return. -/
theorem WriteRequest.Submits.not_tells {cfg : Config} {q : WriteRequest} (hs : q.Submits)
    (hf : q.frames cfg = if q.submit = 0 then [q.data] else [])
    (he : (stm32ledsWrite cfg q).2 = if q.submit = 0 then .returned 0 else .crashed) :
    ¬ q.Tells cfg := by
  have h10 := hs.1
  intro h
  by_cases hz : q.submit = 0
  · rw [if_pos hz] at hf he
    have ha := (h.accepted q.data (by rw [hf]; exact List.mem_cons_self)).1
    rw [he, h10] at ha
    exact absurd ha (by decide)
  · rw [if_neg hz] at hf he
    obtain ⟨r, hr, hret⟩ := h.dropped (by omega) hf
    rw [he] at hret
    cases hret

/-- A write that hands over nothing tells exactly when it has no payload or returns an error. -/
theorem WriteRequest.tells_iff_of_dropped {cfg : Config} {q : WriteRequest}
    (hf : q.frames cfg = []) :
    q.Tells cfg ↔ q.count = 0 ∨ ∃ r < 0, (stm32ledsWrite cfg q).2 = .returned r := by
  constructor
  · intro h
    rcases Nat.eq_zero_or_pos q.count with h0 | hpos
    · exact Or.inl h0
    · exact Or.inr (h.dropped hpos hf)
  · rintro (h0 | hr)
    · exact ⟨by simp [hf], fun hpos => by omega⟩
    · exact ⟨by simp [hf], fun _ _ => hr⟩

/-- Of the writes that do not submit, only those without a buffer return an error. -/
theorem WriteRequest.noBuffer_iff_of_not_submits {cfg : Config} {q : WriteRequest}
    (he : (stm32ledsWrite cfg q).2 =
      if q.count ≠ 10 then .returned 0
      else if q.NoBuffer then .returned (-ENOMEM)
      else .crashed) :
    q.NoBuffer ↔ ∃ r < 0, (stm32ledsWrite cfg q).2 = .returned r := by
  constructor
  · intro hno
    rw [if_neg (not_not.mpr hno.1), if_pos hno] at he
    exact ⟨-ENOMEM, by decide, he⟩
  · rintro ⟨r, hr, hret⟩
    rw [he] at hret
    split at hret
    · cases hret
      exact absurd hr (by decide)
    · split at hret
      · assumption
      · cases hret

/-- A write tells exactly when there is nothing to tell or it gets no buffer for its URB. -/
theorem WriteRequest.tells_iff (cfg : Config) (q : WriteRequest) :
    q.Tells cfg ↔ q.count = 0 ∨ q.NoBuffer := by
  rcases stm32ledsWrite_replies cfg q with ⟨hs, hf, he⟩ | ⟨-, hf, he⟩
  · have h10 := hs.1
    refine iff_of_false (hs.not_tells hf he) ?_
    rintro (h0 | hno)
    · omega
    · exact Bool.false_ne_true (hno.2.2.symm.trans hs.2.2.1)
  · rw [tells_iff_of_dropped hf, noBuffer_iff_of_not_submits he]

/-- Where a write tells, its frame is the payload that its return value acknowledges. -/
theorem WriteRequest.Tells.frames_eq {cfg : Config} {q : WriteRequest} (h : q.Tells cfg) :
    q.frames cfg = q.acknowledged cfg := by
  unfold acknowledged
  rcases stm32ledsWrite_replies cfg q with ⟨hs, hf, he⟩ | ⟨-, hf, he⟩
  · exact absurd h (hs.not_tells hf he)
  · by_cases hpos : 0 < q.count
    · obtain ⟨r, hr, hret⟩ := h.dropped hpos hf
      rw [hret, hf]
      exact (if_neg (by omega)).symm
    · rw [if_pos (by omega)] at he
      rw [he, hf]
      rfl

/-- Where two writes tell, an accepted one is not answered like one dropped with its payload. -/
theorem WriteRequest.Tells.replies_ne {cfg : Config} {q q' : WriteRequest} (h : q.Tells cfg)
    (h' : q'.Tells cfg) (hq : q.frames cfg ≠ []) (hq' : q'.frames cfg = [])
    (hpos : 0 < q'.count) : (stm32ledsWrite cfg q).2 ≠ (stm32ledsWrite cfg q').2 := by
  obtain ⟨data, hdata⟩ := List.exists_mem_of_ne_nil _ hq
  obtain ⟨r, hr, hret⟩ := h'.dropped hpos hq'
  rw [(h.accepted data hdata).1, hret]
  intro he
  cases he
  omega

/-- A caller can tell accepted writes from dropped ones exactly when every write of the sequence
is empty, or has ten bytes, gets its URB and is refused its buffer. -/
theorem stm32ledsWrites_tellApart_iff (cfg : Config) (qs : List WriteRequest) :
    TellsApart cfg qs ↔ ∀ q ∈ qs, q.count = 0 ∨ q.NoBuffer := by
  constructor
  · intro h q hq
    exact (q.tells_iff cfg).mp (h.tells q hq)
  · intro h
    have htells : ∀ q ∈ qs, q.Tells cfg := fun q hq => (q.tells_iff cfg).mpr (h q hq)
    constructor
    case tells => exact htells
    case frames => exact List.flatMap_congr fun q hq => (htells q hq).frames_eq
    case replies =>
      intro q hq q' hq'
      exact (htells q hq).replies_ne (htells q' hq')

/-- A write of five bytes. -/
def WriteRequest.wrongLength : WriteRequest := ⟨5, List.replicate 5 1, true, true, 0⟩

/-- A write whose frame the device gets and one whose payload is dropped both return zero. -/
theorem accepted_like_dropped :
    WriteRequest.accepted.frames .tenBytes = [List.replicate 10 0] ∧
    (stm32ledsWrite .tenBytes .accepted).2 = .returned 0 ∧
    WriteRequest.wrongLength.frames .tenBytes = [] ∧
    (stm32ledsWrite .tenBytes .wrongLength).2 = .returned 0 ∧
    ¬ TellsApart .tenBytes [.accepted, .wrongLength] := by
  refine ⟨by decide, by decide, by decide, by decide, fun h => ?_⟩
  have hne := h.replies .accepted (by decide) .wrongLength (by decide) (by decide) (by decide)
    (by decide)
  exact hne (by decide)

end OsCourseLabs.Usb
