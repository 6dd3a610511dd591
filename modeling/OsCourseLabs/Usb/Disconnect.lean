import OsCourseLabs.Usb.Lifetime

/-!
# Calls after the disconnect

Files opened before the disconnect stay usable after it, and neither read nor write
checks whether the interface is gone. A call issued after the disconnect keeps away from
the device and returns an error only when it is a write that is refused its buffer: with a
buffer in hand a failing write does not return.
-/

namespace OsCourseLabs.Usb

open Slots Transition

/-- The event hands a transfer to the USB core or uses the interface. -/
def Event.reaches : Event → Bool
  | .interruptMsg _ _ | .submitUrb _ _ | .useInterface => true
  | .deliver _ | .allocUrb | .allocCoherent | .readUrb | .freeCoherent | .freeUrb | .kfree => false

/-- The call keeps away from the device and, once it ended, has returned an error. -/
def Call.Refuses (call : Call) : Prop :=
  (∀ e ∈ call.events, Event.reaches e = false) ∧
    (call.io.ended = true → ∃ r < 0, call.io.result = some r)

/-- Every call issued after the disconnect refuses. -/
def Silent (s : Device) : Prop := ∀ call ∈ s.calls, call.late = true → call.Refuses

/-- A write of ten bytes that is refused its buffer, without a word. -/
def WriteRequest.FailsInside (cfg : Config) (q : WriteRequest) : Prop :=
  q.NoBuffer ∧ cfg.debug = false

instance (cfg : Config) (q : WriteRequest) : Decidable (q.FailsInside cfg) :=
  inferInstanceAs (Decidable (_ ∧ _))

/-- The call is such a write. -/
def Io.FailsInside (cfg : Config) : Io → Prop
  | .read _ _ => False
  | .write q _ => q.FailsInside cfg

/-- A call issued after the disconnect is such a write. -/
def Admitted (cfg : Config) (s : Device) : Action → Prop
  | .readBegin _ _ => s.disconnect ≠ .done
  | .writeBegin _ q => s.disconnect = .done → q.FailsInside cfg
  | _ => True

instance (cfg : Config) (s : Device) (a : Action) : Decidable (Admitted cfg s a) :=
  match a with
  | .readBegin _ _ => inferInstanceAs (Decidable (_ ≠ _))
  | .writeBegin _ _ => inferInstanceAs (Decidable (_ → _))
  | .openBegin | .openStep _ | .callStep _ | .release _ | .disconnectStep | .complete _ _ =>
    inferInstanceAs (Decidable True)

/-- The call as it was issued. -/
def Io.issued : Io → Io
  | .read q _ => .read q .lock
  | .write q _ => .write q .start

/-- The events of a call are those of its function up to the next step; of a read only the
transfer is asked for. -/
def Call.Sound (cfg : Config) (call : Call) : Prop :=
  match call.io with
  | .read q pc => pc = .lock ∨ pc = .transfer ∨ .interruptMsg q.report q.ret ∈ call.events
  | .write q pc =>
    (call.events ++ (q.remaining cfg pc).1, (q.remaining cfg pc).2) = stm32ledsWrite cfg q

/-- Calls stay in their slots with the request they were issued with. -/
def CallsGrow (s t : Device) : Prop :=
  ∀ (c : Nat) (call : Call), s.calls[c]? = some call →
    ∃ call' : Call, t.calls[c]? = some call' ∧
      call'.late = call.late ∧ call'.io.issued = call.io.issued

/-- `stm32leds_write` keeps away from the device and fails exactly on these requests. -/
theorem stm32ledsWrite_refuses_iff (cfg : Config) (q : WriteRequest) :
    ((∀ e ∈ (stm32ledsWrite cfg q).1, Event.reaches e = false) ∧
      ∃ r < 0, (stm32ledsWrite cfg q).2 = .returned r) ↔ q.FailsInside cfg := by
  have hmem : 0 < ENOMEM := by decide
  unfold WriteRequest.FailsInside WriteRequest.NoBuffer
  by_cases h0 : q.count = 0
  · simp [stm32ledsWrite, h0]
  by_cases h10 : q.count = 10
  swap
  · simp [stm32ledsWrite, h0, h10]
  by_cases hurb : q.urbOk = true
  swap
  · simp [stm32ledsWrite, h10, WriteRequest.fromUrb, hurb]
  by_cases hbuf : q.coherentOk = true
  swap
  · cases hd : cfg.debug <;>
      simp [stm32ledsWrite, h10, WriteRequest.fromUrb, hurb, WriteRequest.fromCoherent, hbuf,
        devDbg, hd, cleanup, Event.reaches, hmem]
  by_cases hcopy : q.payload.length < 10
  · cases hd : cfg.debug <;>
      simp [stm32ledsWrite, h10, WriteRequest.fromUrb, hurb, WriteRequest.fromCoherent, hbuf,
        WriteRequest.fromCopy, hcopy, devDbg, hd, cleanup, Event.reaches]
  · by_cases hsub : q.submit = 0 <;>
      simp [stm32ledsWrite, h10, WriteRequest.fromUrb, hurb, WriteRequest.fromCoherent, hbuf,
        WriteRequest.fromCopy, hcopy, WriteRequest.fromSubmit, hsub, cleanup, Event.reaches]

/-- A step of a call keeps it sound. -/
theorem Call.Sound.step {cfg : Config} {c : Nat} {call : Call} {sh sh' : Shared} {io : Io}
    {es : List Event} (h : call.Sound cfg) (hn : call.io.next cfg c sh = some (sh', io, es)) :
    Call.Sound cfg { call with io := io, events := call.events ++ es } := by
  obtain ⟨f, late, oldIo, events⟩ := call
  cases oldIo with
  | read q pc =>
    obtain ⟨⟨sh'', pc', es'⟩, hq, he⟩ := Option.map_eq_some_iff.mp hn
    cases he
    cases pc with
    | lock =>
      simp only [ReadRequest.next, Option.ite_none_right_eq_some, Option.some.injEq] at hq
      obtain ⟨_, hq⟩ := hq
      cases hq
      exact Or.inr (Or.inl rfl)
    | transfer =>
      cases hq
      exact Or.inr (Or.inr (List.mem_append_right _ (by simp)))
    | unlock | copy | finish | returned =>
      rcases h with h | h | h
      · cases h
      · cases h
      · exact Or.inr (Or.inr (List.mem_append_left _ h))
  | write q pc =>
    obtain ⟨⟨sh'', pc', es'⟩, hq, he⟩ := Option.map_eq_some_iff.mp hn
    cases he
    have hrem := WriteRequest.next_remaining hq
    simp only [Sound] at h ⊢
    rw [← h, hrem, List.append_assoc]

/-- An ended call refuses exactly when its request fails inside. -/
theorem Call.Sound.refuses_iff {cfg : Config} {call : Call} (h : call.Sound cfg)
    (hend : call.io.ended = true) : call.Refuses ↔ call.io.FailsInside cfg := by
  obtain ⟨f, late, io, events⟩ := call
  cases io with
  | read q pc =>
    apply iff_of_false _ id
    intro hr
    rcases h with rfl | rfl | h
    · cases hend
    · cases hend
    · exact absurd (hr.1 _ h) (by simp [Event.reaches])
  | write q pc =>
    rw [Io.FailsInside, ← stm32ledsWrite_refuses_iff, ← h]
    cases pc with
    | returned r => simp [Refuses, WriteRequest.remaining, Io.result, Io.ended]
    | crashed => simp [Refuses, WriteRequest.remaining, Io.result, Io.ended]
    | start | allocUrb | allocCoherent | copy | lock | submit | unlock | freeUrb | error =>
      cases hend

/-- A call whose request fails inside refuses at every one of its steps. -/
theorem Call.Sound.refuses {cfg : Config} {call : Call} (h : call.Sound cfg)
    (hf : call.io.FailsInside cfg) : call.Refuses := by
  obtain ⟨f, late, io, events⟩ := call
  cases io with
  | read q pc => exact hf.elim
  | write q pc =>
    have hwhole := (stm32ledsWrite_refuses_iff cfg q).mpr hf
    rw [← h] at hwhole
    refine ⟨fun e he => hwhole.1 e (List.mem_append_left _ he), fun hend => ?_⟩
    obtain ⟨r, hr, hret⟩ := hwhole.2
    cases pc with
    | returned r' => cases hret; exact ⟨r, hr, rfl⟩
    | crashed => cases hret
    | start | allocUrb | allocCoherent | copy | lock | submit | unlock | freeUrb | error =>
      cases hend

/-- What a call was issued with decides whether it fails inside. -/
theorem Io.failsInside_issued (cfg : Config) (io : Io) :
    io.issued.FailsInside cfg ↔ io.FailsInside cfg := by
  cases io <;> rfl

/-- A step of a call does not change what was asked for. -/
theorem Io.next_issued {cfg : Config} {c : Nat} {sh : Shared} {io : Io}
    {r : Shared × Io × List Event} (h : io.next cfg c sh = some r) : r.2.1.issued = io.issued := by
  cases io with
  | read q pc =>
    obtain ⟨_, _, rfl⟩ := Option.map_eq_some_iff.mp h
    rfl
  | write q pc =>
    obtain ⟨_, _, rfl⟩ := Option.map_eq_some_iff.mp h
    rfl

/-- Calls that stay are there. -/
theorem CallsGrow.refl (s : Device) : CallsGrow s s := fun _ call h => ⟨call, h, rfl, rfl⟩

/-- Calls that stay twice stay. -/
theorem CallsGrow.trans {s t u : Device} (h : CallsGrow s t) (h' : CallsGrow t u) :
    CallsGrow s u := by
  intro c call hc
  obtain ⟨call', hc', hl, hi⟩ := h c call hc
  obtain ⟨call'', hc'', hl', hi'⟩ := h' c call' hc'
  exact ⟨call'', hc'', hl'.trans hl, hi'.trans hi⟩

/-- A new call leaves the others. -/
private theorem CallsGrow.append {s t : Device} {new : List Call}
    (h : t.calls = s.calls ++ new) : CallsGrow s t := by
  intro c call hc
  refine ⟨call, ?_, rfl, rfl⟩
  rw [h, List.getElem?_append_left (List.getElem?_eq_some_iff.mp hc).1, hc]

/-- No action takes a call away or makes it another one. -/
theorem CallsGrow.step {cfg : Config} {s t : Device} {a : Action} (h : Effect cfg s a t) :
    CallsGrow s t := by
  cases h with
  | readBegin | writeBegin => exact CallsGrow.append rfl
  | @callStep c call sh io es hc hn =>
    intro d call' hd
    by_cases hcd : c = d
    · subst hcd
      cases hc.symm.trans hd
      exact ⟨_, List.getElem?_set_self (List.getElem?_eq_some_iff.mp hc).1, rfl,
        Io.next_issued hn⟩
    · exact ⟨call', (List.getElem?_set_ne hcd).trans hd, rfl, rfl⟩
  | openBegin | openFind | openFetch | openGet | openStore | release | disconnectFetch
  | disconnectClear | disconnectDeregister | disconnectPut | complete => exact CallsGrow.refl s

/-- No run takes a call away or makes it another one. -/
theorem CallsGrow.run {cfg : Config} {s t : Device} {as : List Action}
    (h : Run (Usb.step cfg) s as t) : CallsGrow s t :=
  h.invariant (CallsGrow.refl s) fun _ _ _ hi hs => hi.trans (CallsGrow.step (effect_of_step hs))

/-- In every run the events of a call are those of its steps so far. -/
theorem run_sound {cfg : Config} {t : Device} {as : List Action}
    (h : Run (step cfg) (probed cfg) as t) : ∀ call ∈ t.calls, call.Sound cfg :=
  h.invariant (I := fun u => ∀ call ∈ u.calls, call.Sound cfg) (by simp [probed])
    fun _ _ _ hi hs => forall_calls_step hi (effect_of_step hs) (fun _ _ _ => Or.inl rfl)
      (fun _ _ _ => rfl) fun _ _ _ _ _ hcall hn => hcall.step hn

/-- Late calls were issued as requests that fail inside. -/
def LateFail (cfg : Config) (s : Device) : Prop :=
  ∀ call ∈ s.calls, call.late = true → call.io.FailsInside cfg

/-- An action that is admitted lets no late call come to the core. -/
theorem LateFail.step {cfg : Config} {s t : Device} {a : Action} (h : LateFail cfg s)
    (hg : Admitted cfg s a) (hs : Effect cfg s a t) : LateFail cfg t := by
  apply forall_calls_step h hs
  · rintro f q rfl hl
    exact absurd (of_decide_eq_true hl) hg
  · rintro f q rfl hl
    exact hg (of_decide_eq_true hl)
  · intro c call sh io es hcall hn hl
    rw [← Io.failsInside_issued, Io.next_issued hn, Io.failsInside_issued]
    exact hcall hl

/-- The call that an issuing action adds, with the request it was issued with. -/
theorem Admitted.of_issued {cfg : Config} {s t : Device} {a : Action} (hs : Effect cfg s a t)
    (h : ∀ call : Call, t.calls[s.calls.length]? = some call → call.late = true →
      call.io.FailsInside cfg) : Admitted cfg s a := by
  cases hs with
  | readBegin =>
    intro hd
    exact h _ List.getElem?_concat_length (decide_eq_true hd)
  | writeBegin =>
    intro hd
    exact h _ List.getElem?_concat_length (decide_eq_true hd)
  | openBegin | openFind | openFetch | openGet | openStore | callStep | release | disconnectFetch
  | disconnectClear | disconnectDeregister | disconnectPut | complete => trivial

/-- A run whose late calls are all ten-byte writes that are refused their buffer, without debug
output, is silent after the disconnect; once all late calls ended, only such a run is. -/
theorem silent_of_admitted {cfg : Config} {t : Device} {as : List Action}
    (hrun : Run (step cfg) (probed cfg) as t) :
    (Along (step cfg) (probed cfg) as (Admitted cfg) →
      Always (step cfg) (probed cfg) as Silent) ∧
    ((∀ call ∈ t.calls, call.late = true → call.io.ended = true) →
      Always (step cfg) (probed cfg) as Silent →
      Along (step cfg) (probed cfg) as (Admitted cfg)) := by
  constructor
  · intro hg pre u hpre hu call hc hl
    have hlate : LateFail cfg u := hu.guarded_invariant (hg.shorten hpre)
      (by simp [LateFail, probed]) fun _ _ _ hi hga hs => hi.step hga (effect_of_step hs)
    exact (run_sound hu call hc).refuses (hlate call hc hl)
  · intro hend halways
    refine hrun.along fun pre u a v hpre hu hs => ?_
    obtain ⟨post, rfl⟩ := hpre
    obtain ⟨w, hw, hpost⟩ := hrun.split
    cases (Run.snoc hu hs).unique hw
    apply Admitted.of_issued (effect_of_step hs)
    intro call hc hl
    -- the call is still there at the end of the run, where it has ended and refuses
    obtain ⟨call', hc', hl', hi'⟩ := CallsGrow.run hpost _ call hc
    have hm := List.mem_of_getElem? hc'
    have hlate := hl'.trans hl
    have hrefuses := halways.last hrun call' hm hlate
    have hfails := ((run_sound hrun call' hm).refuses_iff (hend call' hm hlate)).mp hrefuses
    rw [← Io.failsInside_issued, hi', Io.failsInside_issued] at hfails
    exact hfails

/-- The theorem applies to a late write that is refused its buffer. -/
theorem silent_of_admitted_noBuffer :
    Always (step .tenBytes) (probed .tenBytes) (openThenUnplug ++
      .writeBegin 0 ⟨10, List.replicate 10 0, true, false, 0⟩ ::
        List.replicate 4 (.callStep 0)) Silent := by
  obtain ⟨t, hrun⟩ := run_of_isSome (show (exec (step .tenBytes) (probed .tenBytes)
    (openThenUnplug ++ .writeBegin 0 ⟨10, List.replicate 10 0, true, false, 0⟩ ::
      List.replicate 4 (.callStep 0))).isSome = true by decide)
  exact (silent_of_admitted hrun).1 (along_of_check (by decide))

/-- A late read hands its transfer to the USB core. -/
theorem late_read_not_silent :
    ∃ t, Run (step .tenBytes) (probed .tenBytes) (openThenUnplug ++
      [.readBegin 0 ⟨10, 0, [7], true⟩, .callStep 0, .callStep 0]) t ∧ ¬ Silent t := by
  have he : (exec (step .tenBytes) (probed .tenBytes) (openThenUnplug ++
      [.readBegin 0 ⟨10, 0, [7], true⟩, .callStep 0, .callStep 0])).map (fun t => t.calls) =
      some [⟨0, true, .read ⟨10, 0, [7], true⟩ .unlock, [.interruptMsg [7] 0]⟩] := by decide
  obtain ⟨t, hrun, hv⟩ := run_of_observed he
  refine ⟨t, hrun, fun h => ?_⟩
  have hr := h _ (by rw [hv]; exact List.mem_singleton_self _) rfl
  exact absurd (hr.1 _ (List.mem_singleton_self _)) (by decide)

end OsCourseLabs.Usb
