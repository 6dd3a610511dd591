import OsCourseLabs.Usb.Lifetime

/-!
# URBs in flight and the object they point to

The URB of a write carries a bare pointer to the driver object. The USB core completes all
URBs before it calls disconnect, but a file that stays open takes further writes; a URB
outlives its context exactly when it is accepted by such a late submission and the last file
is closed over it.
-/

namespace OsCourseLabs.Usb

open Slots Transition

/-- While a URB is in flight its context is not freed. -/
def ContextAlive (s : Device) : Prop := s.shared.urbs ≠ [] → s.deleted = 0

/-- The core calls disconnect once it has completed the URBs outstanding. -/
def Drained (s : Device) : Action → Prop
  | .disconnectStep => s.disconnect = .bound → s.shared.urbs = []
  | _ => True

/-- The next step of call `c` is a submission that the USB core accepts. -/
def Device.Accepts (s : Device) (c : Nat) : Prop :=
  ∃ call q, s.calls[c]? = some call ∧ call.io = .write q .submit ∧ q.submit = 0

/-- On the way the URB of call `c` was accepted although the disconnect had begun. -/
def AcceptedLate (cfg : Config) (as : List Action) (c : Nat) : Prop :=
  ∃ pre s, pre ++ [.callStep c] <+: as ∧ Run (step cfg) (probed cfg) pre s ∧
    s.disconnect ≠ .bound ∧ s.Accepts c

/-- The last open file is closed after the disconnect, or the disconnect ends with none open. -/
def LastClose (s : Device) : Action → Prop
  | .release f => s.disconnect = .done ∧ .opened ∉ s.files.set f .released
  | .disconnectStep => s.disconnect = .deregistered ∧ .opened ∉ s.files
  | _ => False

instance (s : Device) (a : Action) : Decidable (Drained s a) :=
  match a with
  | .disconnectStep => inferInstanceAs (Decidable (_ → _))
  | .openBegin | .openStep _ | .readBegin _ _ | .writeBegin _ _ | .callStep _ | .release _
  | .complete _ _ => inferInstanceAs (Decidable True)

instance (s : Device) (a : Action) : Decidable (LastClose s a) :=
  match a with
  | .release _ => inferInstanceAs (Decidable (_ ∧ _))
  | .disconnectStep => inferInstanceAs (Decidable (_ ∧ _))
  | .openBegin | .openStep _ | .readBegin _ _ | .writeBegin _ _ | .callStep _ | .complete _ _ =>
    inferInstanceAs (Decidable False)

/-- A URB accepted after the disconnect began is in flight when the last file is closed. -/
def Overtaken (cfg : Config) (as : List Action) : Prop :=
  ∃ pre a s c, pre ++ [a] <+: as ∧ Run (step cfg) (probed cfg) pre s ∧ LastClose s a ∧
    c ∈ s.shared.urbs ∧ AcceptedLate cfg pre c

/-- A step of a call leaves the URBs in flight alone, or is a submission that is accepted. -/
theorem Io.next_urbs {cfg : Config} {c : Nat} {sh sh' : Shared} {io io' : Io} {es : List Event}
    (h : io.next cfg c sh = some (sh', io', es)) :
    sh'.urbs = sh.urbs ∨
      sh'.urbs = sh.urbs ++ [c] ∧ ∃ q, io = .write q .submit ∧ q.submit = 0 := by
  cases io with
  | read q pc =>
    obtain ⟨⟨sh'', pc', es'⟩, hq, he⟩ := Option.map_eq_some_iff.mp h
    cases he
    cases pc with
    | lock =>
      obtain ⟨-, hq⟩ := Option.ite_none_right_eq_some.mp hq
      cases hq
      exact Or.inl rfl
    | transfer | unlock | copy =>
      cases hq
      exact Or.inl rfl
    | finish temp =>
      simp only [ReadRequest.next] at hq
      split at hq
      · cases hq
        exact Or.inl rfl
      · split at hq <;> cases hq <;> exact Or.inl rfl
    | returned => cases hq
  | write q pc =>
    obtain ⟨⟨sh'', pc', es'⟩, hq, he⟩ := Option.map_eq_some_iff.mp h
    cases he
    cases pc with
    | start =>
      simp only [WriteRequest.next] at hq
      split at hq
      · cases hq
        exact Or.inl rfl
      · split at hq <;> cases hq <;> exact Or.inl rfl
    | allocUrb | allocCoherent | copy =>
      simp only [WriteRequest.next] at hq
      split at hq <;> cases hq <;> exact Or.inl rfl
    | lock =>
      obtain ⟨-, hq⟩ := Option.ite_none_right_eq_some.mp hq
      cases hq
      exact Or.inl rfl
    | submit =>
      cases hq
      by_cases hz : q.submit = 0
      · exact Or.inr ⟨if_pos hz, q, rfl, hz⟩
      · exact Or.inl (if_neg hz)
    | unlock | freeUrb | error =>
      cases hq
      exact Or.inl rfl
    | returned | crashed => cases hq

/-- Once the disconnect has begun, the URBs in flight are such as were accepted late. -/
theorem acceptedLate_of_run {cfg : Config} {s : Device} {as : List Action}
    (hrun : Run (step cfg) (probed cfg) as s)
    (hcore : Along (step cfg) (probed cfg) as Drained) (hd : s.disconnect ≠ .bound) :
    ∀ c ∈ s.shared.urbs, AcceptedLate cfg as c := by
  induction hrun with
  | nil => exact absurd rfl hd
  | @snoc s t as a hr hs ih =>
    have hlonger : ∀ c, AcceptedLate cfg as c → AcceptedLate cfg (as ++ [a]) c :=
      fun c ⟨pre, u, hpre, hu⟩ => ⟨pre, u, hpre.trans (List.prefix_append _ _), hu⟩
    have hbefore : s.disconnect ≠ .bound → ∀ c ∈ s.shared.urbs, AcceptedLate cfg (as ++ [a]) c :=
      fun hne c hc => hlonger c (ih (hcore.shorten (List.prefix_append _ _)) hne c hc)
    cases effect_of_step hs with
    | openBegin | openFind | openFetch | openGet | openStore | readBegin | writeBegin | release =>
      exact hbefore hd
    | disconnectFetch hb =>
      -- the one step that begins the disconnect finds no URB in flight
      rw [hcore.last hr hb]
      exact fun c hc => absurd hc List.not_mem_nil
    | disconnectClear hf | disconnectDeregister hf | disconnectPut hf =>
      exact hbefore (by simp [hf])
    | complete =>
      exact fun c hc => hbefore hd c (List.mem_of_mem_erase hc)
    | @callStep d call sh io es hcall hn =>
      intro c hc
      rcases Io.next_urbs hn with hurbs | ⟨hurbs, q, hio, hz⟩
      · exact hbefore hd c (hurbs ▸ hc)
      · simp only [hurbs, List.mem_append, List.mem_singleton] at hc
        rcases hc with hc | rfl
        · exact hbefore hd c hc
        · exact ⟨as, s, List.prefix_refl _, hr, hd, call, q, hcall, hio, hz⟩

/-- The action drops the last reference on the driver object. -/
def LastPut (s : Device) : Action → Prop
  | .release _ => s.kref = 1
  | .disconnectStep => s.disconnect = .deregistered ∧ s.kref = 1
  | _ => False

/-- With the minor deregistered only open files hold references. -/
theorem Counted.no_holds_iff {s : Device} (h : Counted s) (hd : s.registered ≠ true)
    (files : List FilePc) (hsub : ∀ pc ∈ files, pc ∈ s.files ∨ pc = .released) :
    files.countP FilePc.holds = 0 ↔ .opened ∉ files := by
  rw [List.countP_eq_zero]
  constructor
  · exact fun hall hm => hall _ hm rfl
  · intro hnone pc hpc hholds
    cases pc with
    | opened => exact hnone hpc
    | store =>
      rcases hsub _ hpc with hm | he
      · exact hd (h.opening _ hm rfl)
      · cases he
    | find | fetch | get | failed | released => cases hholds

/-- The last reference goes exactly with the last file. -/
theorem Counted.lastPut_iff {cfg : Config} {s t : Device} {a : Action} (h : Counted s)
    (hs : Effect cfg s a t) : LastPut s a ↔ LastClose s a := by
  have hreg : s.disconnect = .deregistered ∨ s.disconnect = .done → s.registered ≠ true :=
    fun hd hr => hd.elim (h.registered hr).1 (h.registered hr).2
  have hk := h.kref
  cases hs with
  | openBegin | openFind | openFetch | openGet | openStore | readBegin | writeBegin | callStep
  | complete => exact Iff.rfl
  | @release f hf hret =>
    have hcount := countP_set_add (y := FilePc.released) hf FilePc.holds
    simp only [FilePc.holds, Bool.false_eq_true, ite_false, ite_true] at hcount
    rw [LastPut, LastClose]
    by_cases hd : s.disconnect = .done
    · rw [if_pos hd] at hk
      have hnone := h.no_holds_iff (hreg (Or.inr hd)) (s.files.set f .released)
        fun _ hm => List.mem_or_eq_of_mem_set hm
      rw [and_iff_right hd, ← hnone]
      omega
    · rw [if_neg hd] at hk
      exact iff_of_false (by omega) fun hl => hd hl.1
  | disconnectPut hd =>
    have hnone := h.no_holds_iff (hreg (Or.inl hd)) s.files fun _ hm => Or.inl hm
    rw [LastPut, LastClose, and_congr_right_iff]
    intro _
    rw [← hnone]
    rw [hd, if_neg (by simp)] at hk
    omega
  | disconnectFetch hd | disconnectClear hd | disconnectDeregister hd =>
    have hne : ¬ s.disconnect = .deregistered := by simp [hd]
    exact iff_of_false (fun hl => hne hl.1) fun hl => hne hl.1

/-- A step that does not close the last file over a URB in flight keeps the contexts alive. -/
theorem ContextAlive.step {cfg : Config} {s t : Device} {a : Action} (h : ContextAlive s)
    (hc : Counted s) (hg : s.shared.urbs ≠ [] → ¬ LastClose s a) (hs : Effect cfg s a t) :
    ContextAlive t := by
  intro hu
  have hlast := hc.lastPut_iff hs
  cases hs with
  | openBegin | openFind | openFetch | openGet | openStore | readBegin | writeBegin
  | disconnectFetch | disconnectClear | disconnectDeregister => exact h hu
  | callStep hcall hn =>
    -- the call that may have submitted the URB has an open file
    exact hc.alive (hc.kref_pos_of_opened
      (hc.calls _ (List.mem_of_getElem? hcall) (Io.result_of_next hn)))
  | release hf _ =>
    have hk : s.kref ≠ 1 := fun hk => hg hu (hlast.mp hk)
    simpa only [Device.krefPut, hk, ite_false] using h hu
  | disconnectPut hd =>
    have hk : s.kref ≠ 1 := fun hk => hg hu (hlast.mp ⟨hd, hk⟩)
    simpa only [Device.krefPut, hk, ite_false] using h hu
  | complete _ =>
    apply h
    intro hnil
    exact hu (by simp [hnil])

/-- Closing the last file over a URB in flight frees the context of that URB. -/
theorem LastClose.not_contextAlive {cfg : Config} {s t : Device} {a : Action}
    (h : LastClose s a) (hc : Counted s) (hu : s.shared.urbs ≠ []) (hs : Effect cfg s a t) :
    ¬ ContextAlive t := by
  have hlast := (hc.lastPut_iff hs).mpr h
  intro ht
  cases hs with
  | openBegin | openFind | openFetch | openGet | openStore | readBegin | writeBegin | callStep
  | complete => exact hlast
  | release hf _ =>
    have hdel := ht hu
    rw [LastPut] at hlast
    simp [Device.krefPut, hlast] at hdel
  | disconnectPut hd =>
    have hdel := ht hu
    simp [Device.krefPut, hlast.2] at hdel
  | disconnectFetch hd | disconnectClear hd | disconnectDeregister hd _ =>
    have hwrong := hlast.1
    rw [hd] at hwrong
    cases hwrong

/-- In a run of a probed device, unplugged with no URB outstanding, every URB in flight has its
context exactly when none that was accepted after the disconnect began is still in flight where
the last file is closed. -/
theorem contextAlive_iff {cfg : Config} {t : Device} {as : List Action}
    (hrun : Run (step cfg) (probed cfg) as t)
    (hcore : Along (step cfg) (probed cfg) as Drained) :
    Always (step cfg) (probed cfg) as ContextAlive ↔ ¬ Overtaken cfg as := by
  constructor
  · rintro halways ⟨pre, a, s, c, hpre, hs, hclose, hc, -⟩
    obtain ⟨post, rfl⟩ := hpre
    obtain ⟨v, hv, -⟩ := hrun.split
    obtain ⟨s', hs', hstep⟩ := hv.snoc_inv
    cases hs.unique hs'
    exact hclose.not_contextAlive (run_counted hs) (List.ne_nil_of_mem hc) (effect_of_step hstep)
      (halways (pre ++ [a]) v (List.prefix_append _ _) hv)
  · intro hnot
    have hsafe : Along (step cfg) (probed cfg) as fun s a =>
        s.shared.urbs ≠ [] → ¬ LastClose s a := by
      intro pre a s hpre hs hu hclose
      obtain ⟨c, hc⟩ := List.exists_mem_of_ne_nil _ hu
      have hcore' := hcore.shorten ((List.prefix_append _ _).trans hpre)
      have hd : s.disconnect ≠ .bound := by
        intro hb
        cases a <;> simp [LastClose, hb] at hclose
      exact hnot ⟨pre, a, s, c, hpre, hs, hclose, hc, acceptedLate_of_run hs hcore' hd c hc⟩
    intro pre u hpre hu
    refine (hu.guarded_invariant (I := fun u => Counted u ∧ ContextAlive u) (hsafe.shorten hpre)
      ⟨probed_counted cfg, fun hne => absurd rfl hne⟩ ?_).2
    rintro u a v ⟨hc, hi⟩ hga hs
    exact ⟨hc.step (effect_of_step hs), hi.step hc hga (effect_of_step hs)⟩

/-- A write of ten bytes that every call accepts. -/
def WriteRequest.accepted : WriteRequest := ⟨10, List.replicate 10 0, true, true, 0⟩

/-- A file is opened, the device is unplugged, and a write on the file is accepted. -/
def writeAfterUnplug : List Action :=
  openThenUnplug ++ .writeBegin 0 .accepted :: List.replicate 8 (.callStep 0)

/-- The theorem applies to a run that waits for the completion before the release. -/
theorem contextAlive_iff_completed :
    Always (step .tenBytes) (probed .tenBytes) (writeAfterUnplug ++ [.complete 0 0, .release 0])
      ContextAlive := by
  obtain ⟨t, hrun⟩ := run_of_isSome (show (exec (step .tenBytes) (probed .tenBytes)
    (writeAfterUnplug ++ [.complete 0 0, .release 0])).isSome = true by decide)
  have hsafe : Along (step .tenBytes) (probed .tenBytes)
      (writeAfterUnplug ++ [.complete 0 0, .release 0])
      fun s a => ¬ (s.shared.urbs ≠ [] ∧ LastClose s a) := along_of_check (by decide)
  refine (contextAlive_iff hrun (along_of_check (by decide))).mpr ?_
  rintro ⟨pre, a, s, c, hpre, hs, hclose, hc, -⟩
  exact hsafe pre a s hpre hs ⟨List.ne_nil_of_mem hc, hclose⟩

/-- The file is released before the completion: the URB in flight points to freed memory. -/
theorem writeAfterUnplug_orphaned :
    ∃ t, Run (step .tenBytes) (probed .tenBytes) (writeAfterUnplug ++ [.release 0]) t ∧
      ¬ ContextAlive t := by
  have he : (exec (step .tenBytes) (probed .tenBytes) (writeAfterUnplug ++ [.release 0])).map
      (fun t => (t.shared.urbs, t.deleted)) = some ([0], 1) := by decide
  obtain ⟨t, hrun, hv⟩ := run_of_observed he
  obtain ⟨hurbs, hdel⟩ := Prod.mk.inj hv
  refine ⟨t, hrun, fun h => ?_⟩
  have hzero := h (by simp [hurbs])
  omega

end OsCourseLabs.Usb
