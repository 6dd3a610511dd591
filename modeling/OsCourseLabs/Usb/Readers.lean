import OsCourseLabs.Usb.Driver

/-!
# Concurrent readers

The mutex of a read covers the transfer, but the report stays in the shared buffer until
the copy, after the mutex is released. A read delivers its own report unless the transfer
of another one overwrites it in that gap.
-/

namespace OsCourseLabs.Usb

open Slots Transition

/-- The transfer and the user copy of a read succeed. -/
def Action.Succeeds : Action → Prop
  | .readBegin _ q => q.ret = 0 ∧ q.userOk = true
  | _ => True

/-- The read whose transfer is the next step of the call. -/
def Call.transfers (call : Call) : Option ReadRequest :=
  match call.io with
  | .read q .transfer => some q
  | _ => none

/-- The report that the call has in the shared buffer only. -/
def Call.exposed (call : Call) : Option (List UInt8) :=
  match call.io with
  | .read q .unlock | .read q .copy => some q.report
  | _ => none

/-- Two reports agree on the bytes that both of them have. -/
def AgreeOnShared (x y : List UInt8) : Prop := x.take y.length = y.take x.length

instance (x y : List UInt8) : Decidable (AgreeOnShared x y) :=
  inferInstanceAs (Decidable (_ = _))

/-- The action transfers a report over one that another read has not copied yet and that
differs on the bytes they share. -/
def Overwrites (s : Device) : Action → Prop
  | .callStep c => ∃ call ∈ s.calls[c]?, ∃ q ∈ call.transfers,
      ∃ other ∈ s.calls, ∃ x ∈ other.exposed, ¬ AgreeOnShared x q.report
  | _ => False

instance (s : Device) (a : Action) : Decidable (Overwrites s a) :=
  match a with
  | .callStep c => inferInstanceAs (Decidable (∃ call ∈ s.calls[c]?, ∃ q ∈ call.transfers,
      ∃ other ∈ s.calls, ∃ x ∈ other.exposed, ¬ AgreeOnShared x q.report))
  | .openBegin | .openStep _ | .readBegin _ _ | .writeBegin _ _ | .release _ | .disconnectStep
  | .complete _ _ => inferInstanceAs (Decidable False)

/-- Every read that returned has delivered the report of its own transfer. -/
def OwnReports (s : Device) : Prop :=
  ∀ call ∈ s.calls, ∀ q r, call.io = .read q (.returned r) →
    r = q.report.length ∧ call.events = [.interruptMsg q.report q.ret, .deliver q.report]

/-- Where the report of a read is. -/
def Call.Reading (buffer : List UInt8) (call : Call) : Prop :=
  match call.io with
  | .write _ _ => True
  | .read q pc => q.ret = 0 ∧ q.userOk = true ∧ match pc with
    | .lock | .transfer => call.events = [] ∧ q.report.length ≤ 10
    | .unlock | .copy => call.events = [.interruptMsg q.report q.ret] ∧
        buffer.take q.report.length = q.report
    | .finish temp => call.events = [.interruptMsg q.report q.ret] ∧
        temp.take q.report.length = q.report
    | .returned r => r = q.report.length ∧
        call.events = [.interruptMsg q.report q.ret, .deliver q.report]

/-- The buffer has its ten bytes, and every report is where its read expects it. -/
structure Undisturbed (s : Device) : Prop where
  buffer : s.shared.intInBuffer.length = 10
  reading : ∀ call ∈ s.calls, call.Reading s.shared.intInBuffer

/-- A transfer keeps a report that it agrees with on the shared bytes. -/
theorem take_received {x y buffer : List UInt8} (hx : buffer.take x.length = x)
    (h : AgreeOnShared x y) : (y ++ buffer.drop y.length).take x.length = x := by
  unfold AgreeOnShared at h
  rcases Nat.le_total x.length y.length with hle | hle
  · rw [List.take_append_of_le_length hle, ← h, List.take_of_length_le hle]
  · rw [List.take_of_length_le hle] at h
    rw [List.take_append, List.take_of_length_le hle, List.take_drop, Nat.add_sub_cancel' hle, hx]
    conv_rhs => rw [← List.take_append_drop y.length x, h]

/-- A transfer that does not agree with a report takes it out of the buffer. -/
theorem agreeOnShared_of_take_received {x y buffer : List UInt8}
    (h : (y ++ buffer.drop y.length).take x.length = x) : AgreeOnShared x y := by
  unfold AgreeOnShared
  conv_lhs => rw [← h]
  rw [List.take_take, Nat.min_comm, ← List.take_take, List.take_left]

/-- A write leaves the input buffer alone. -/
theorem WriteRequest.next_buffer {cfg : Config} {c : Nat} {q : WriteRequest} {sh sh' : Shared}
    {pc pc' : WritePc} {es : List Event} (h : q.next cfg c sh pc = some (sh', pc', es)) :
    sh'.intInBuffer = sh.intInBuffer := by
  cases pc with
  | start =>
    simp only [next] at h
    split at h
    · cases h; rfl
    · split at h <;> cases h <;> rfl
  | allocUrb | allocCoherent | copy | lock =>
    simp only [next] at h
    split at h <;> cases h <;> rfl
  | submit | unlock | freeUrb | error => cases h; rfl
  | returned | crashed => cases h

/-- Another read's report survives a transfer that does not overwrite it. -/
theorem Call.Reading.received {buffer : List UInt8} {other : Call} {q : ReadRequest}
    (h : other.Reading buffer) (hg : ∀ x ∈ other.exposed, AgreeOnShared x q.report) :
    other.Reading (q.received buffer) := by
  obtain ⟨f, late, io, events⟩ := other
  cases io with
  | write q' pc' => trivial
  | read q' pc' =>
    cases pc' with
    | unlock | copy =>
      obtain ⟨hret, hok, hev, htake⟩ := h
      exact ⟨hret, hok, hev, take_received htake (hg q'.report rfl)⟩
    | lock | transfer | finish | returned => exact h

/-- A step of a read that is not its transfer leaves the buffer alone and its report in place. -/
theorem Call.Reading.step {cfg : Config} {c f : Nat} {late : Bool} {q : ReadRequest}
    {pc pc' : ReadPc} {sh sh' : Shared} {events es : List Event}
    (h : Call.Reading sh.intInBuffer ⟨f, late, .read q pc, events⟩)
    (hb : sh.intInBuffer.length = 10) (hpc : pc ≠ .transfer)
    (hn : q.next cfg c sh pc = some (sh', pc', es)) :
    sh'.intInBuffer = sh.intInBuffer ∧
      Call.Reading sh.intInBuffer ⟨f, late, .read q pc', events ++ es⟩ := by
  cases pc with
  | lock =>
    obtain ⟨hret, hok, hev, hlen⟩ := h
    simp only [ReadRequest.next, Option.ite_none_right_eq_some, Option.some.injEq] at hn
    obtain ⟨_, hn⟩ := hn
    cases hn
    exact ⟨rfl, hret, hok, by simpa using hev, hlen⟩
  | transfer => exact absurd rfl hpc
  | unlock =>
    obtain ⟨hret, hok, hev, htake⟩ := h
    cases hn
    exact ⟨rfl, hret, hok, by simpa using hev, htake⟩
  | copy =>
    obtain ⟨hret, hok, hev, htake⟩ := h
    cases hn
    refine ⟨rfl, hret, hok, by simpa using hev, ?_⟩
    have htemp : tempOf cfg sh.intInBuffer = sh.intInBuffer := by
      rw [tempOf, List.take_append_of_le_length (by omega), List.take_of_length_le (by omega)]
    rw [htemp, htake]
  | finish temp =>
    obtain ⟨hret, hok, hev, htake⟩ := h
    simp only [ReadRequest.next, hret, hok, ne_eq, not_true_eq_false, ite_false, ite_true,
      Option.some.injEq] at hn
    cases hn
    refine ⟨rfl, hret, hok, rfl, ?_⟩
    simp only at hev ⊢
    rw [hev, q.delivered_of_take htake]
    rfl
  | returned r => cases hn

/-- A step that overwrites no report keeps every report where its read expects it. -/
theorem Undisturbed.step {cfg : Config} {s t : Device} {a : Action} (h : Undisturbed s)
    (h10 : cfg.intInSize = 10) (ha : a.Succeeds) (hg : ¬ Overwrites s a)
    (hs : Effect cfg s a t) : Undisturbed t := by
  cases hs with
  | @readBegin f q hf hfit =>
    rw [ReadRequest.room, h10] at hfit
    have hnew : Call.Reading s.shared.intInBuffer
        ⟨f, decide (s.disconnect = .done), .read q .lock, []⟩ := ⟨ha.1, ha.2, rfl, by omega⟩
    exact ⟨h.buffer, List.forall_mem_append.mpr ⟨h.reading, List.forall_mem_singleton.mpr hnew⟩⟩
  | writeBegin hf =>
    exact ⟨h.buffer, List.forall_mem_append.mpr ⟨h.reading, List.forall_mem_singleton.mpr trivial⟩⟩
  | @callStep c call sh io es hc hn =>
    have hcall := h.reading call (List.mem_of_getElem? hc)
    obtain ⟨f, late, oldIo, events⟩ := call
    cases oldIo with
    | write q pc =>
      obtain ⟨⟨sh', pc', es'⟩, hq, he⟩ := Option.map_eq_some_iff.mp hn
      cases he
      have hbuf := WriteRequest.next_buffer hq
      exact ⟨(congrArg List.length hbuf).trans h.buffer,
        forall_mem_set (fun call hm => hbuf ▸ h.reading call hm) trivial⟩
    | read q pc =>
      obtain ⟨⟨sh', pc', es'⟩, hq, he⟩ := Option.map_eq_some_iff.mp hn
      cases he
      by_cases hpc : pc = .transfer
      · subst hpc
        cases hq
        obtain ⟨hret, hok, hev, hlen⟩ := hcall
        refine ⟨?_, forall_mem_set (fun other hm => ?_) ⟨hret, hok, ?_, ?_⟩⟩
        · simp only [ReadRequest.received, List.length_append, List.length_drop, h.buffer]
          omega
        · apply (h.reading other hm).received
          intro x hx
          exact Classical.not_not.mp fun hn => hg ⟨_, hc, q, rfl, other, hm, x, hx, hn⟩
        · simp only at hev
          rw [hev]
          rfl
        · simp [ReadRequest.received]
      · obtain ⟨hbuf, hnew⟩ := hcall.step h.buffer hpc hq
        refine ⟨(congrArg List.length hbuf).trans h.buffer, forall_mem_set (fun call hm => ?_) ?_⟩
        · exact hbuf ▸ h.reading call hm
        · exact hbuf ▸ hnew
  | openBegin | openFind | openFetch | openGet | openStore | release | disconnectFetch
  | disconnectClear | disconnectDeregister | disconnectPut | complete =>
    exact ⟨h.buffer, h.reading⟩

theorem Undisturbed.ownReports {s : Device} (h : Undisturbed s) : OwnReports s := by
  intro call hc q r hio
  have hr := h.reading call hc
  rw [Call.Reading, hio] at hr
  exact hr.2.2

/-- After an overwriting transfer the other read no longer finds its report in the buffer. -/
theorem Overwrites.lost {cfg : Config} {s t : Device} {a : Action} (h : Overwrites s a)
    (hs : Effect cfg s a t) :
    ∃ other ∈ t.calls, ∃ x ∈ other.exposed, t.shared.intInBuffer.take x.length ≠ x := by
  cases hs with
  | @callStep c call sh io es hc hn =>
    obtain ⟨call', hc', q, hq, other, hm, x, hx, hne⟩ := h
    cases hc.symm.trans hc'
    obtain ⟨f, late, oldIo, events⟩ := call
    have hio : oldIo = .read q .transfer := by
      simp only [Call.transfers, Option.mem_def] at hq
      split at hq
      · cases hq
        rfl
      · cases hq
    subst hio
    cases hn
    refine ⟨other, mem_set_of_ne hc hm ?_, x, hx, fun htake => ?_⟩
    · rintro rfl
      cases hx
    · exact hne (agreeOnShared_of_take_received htake)
  | openBegin | openFind | openFetch | openGet | openStore | readBegin | writeBegin | release
  | disconnectFetch | disconnectClear | disconnectDeregister | disconnectPut | complete =>
    exact h.elim

/-- With ten-byte endpoints and transfers and copies that succeed, every read of a run delivers
the report of its own transfer, as long as no transfer overwrites another read's report. -/
theorem concurrent_reads_own_reports {cfg : Config} {as : List Action}
    (h10 : cfg.intInSize = 10) (ha : ∀ a ∈ as, a.Succeeds)
    (hg : Along (step cfg) (probed cfg) as fun u a => ¬ Overwrites u a) :
    Always (step cfg) (probed cfg) as OwnReports := by
  have h0 : Undisturbed (probed cfg) := ⟨by simp [probed, h10], by simp [probed]⟩
  have hall : Always (step cfg) (probed cfg) as Undisturbed :=
    Always.of_along (hg.and_mem ha) h0 fun _ _ _ hi hga hs =>
      hi.step h10 hga.1 hga.2 (effect_of_step hs)
  exact fun pre u hpre hu => (hall pre u hpre hu).ownReports

/-- A read of ten bytes that receives one byte. -/
def ReadRequest.oneByte (b : UInt8) : ReadRequest := ⟨10, 0, [b], true⟩

/-- A file with two reads begun on it, the first of which has its report in the buffer. -/
def twoReads : List Action :=
  [.openBegin, .openStep 0, .openStep 0, .openStep 0, .openStep 0, .readBegin 0 (.oneByte 1),
    .readBegin 0 (.oneByte 2), .callStep 0, .callStep 0, .callStep 0]

/-- The theorem applies when the first read copies before the second transfers. -/
theorem concurrent_reads_own_reports_twoReads :
    Always (step .tenBytes) (probed .tenBytes) (twoReads ++ [.callStep 1, .callStep 0,
      .callStep 1, .callStep 0, .callStep 1, .callStep 1, .callStep 1]) OwnReports :=
  concurrent_reads_own_reports rfl (by simp [twoReads, Action.Succeeds, ReadRequest.oneByte])
    (along_of_check (by decide))

/-- The second read transfers first: both reads deliver its report, and the first is lost. -/
theorem twoReads_report_lost :
    ∃ t, Run (step .tenBytes) (probed .tenBytes) (twoReads ++ [.callStep 1, .callStep 1,
      .callStep 1, .callStep 0, .callStep 0, .callStep 1, .callStep 1]) t ∧ ¬ OwnReports t := by
  have he : (exec (step .tenBytes) (probed .tenBytes) (twoReads ++ [.callStep 1, .callStep 1,
      .callStep 1, .callStep 0, .callStep 0, .callStep 1, .callStep 1])).map
      (fun t => t.calls[0]?) = some (some ⟨0, false, .read (.oneByte 1) (.returned 1),
        [.interruptMsg [1] 0, .deliver [2]]⟩) := by decide
  obtain ⟨t, hrun, hv⟩ := run_of_observed he
  refine ⟨t, hrun, fun h => ?_⟩
  obtain ⟨-, hev⟩ := h _ (List.mem_of_getElem? hv) _ _ rfl
  exact absurd hev (by decide)

end OsCourseLabs.Usb
