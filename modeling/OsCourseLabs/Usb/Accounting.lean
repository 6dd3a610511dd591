import OsCourseLabs.Usb.Booking
import OsCourseLabs.Usb.Disconnect
import Mathlib.Logic.Function.Basic

/-!
# URBs and coherent buffers of writes

Every call has a ledger of what it takes and gives back, kept while calls and completions
of URBs interleave. The ledgers are in order in every state of a run whose writes all get
their URB and do not fail with a buffer in hand; once all writes ended, of no other run.
-/

namespace OsCourseLabs.Usb

open Ledger Transition

/-- A device with the ledger of each call. -/
structure Books where
  device : Device
  ledger : Nat → List (Op Item)

/-- Entries appended to the ledger of one call. -/
def Books.record (b : Books) (c : Nat) (ops : List (Op Item)) : Nat → List (Op Item) :=
  Function.update b.ledger c (b.ledger c ++ ops)

/-- The ledgers after an action. -/
def Books.ledgerAfter (cfg : Config) (b : Books) : Action → Nat → List (Op Item)
  | .callStep c =>
    match b.device.calls[c]?.bind fun call => call.io.next cfg c b.device.shared with
    | some (_, _, es) => b.record c (stepOps es)
    | none => b.ledger
  | .complete c status => b.record c (completionOps cfg status)
  | .openBegin | .openStep _ | .readBegin _ _ | .writeBegin _ _ | .release _
  | .disconnectStep => b.ledger

/-- A step of the device that is entered in the ledgers. -/
def bookStep (cfg : Config) (b : Books) (a : Action) : Option Books :=
  (step cfg b.device a).map fun t => ⟨t, b.ledgerAfter cfg a⟩

/-- A probed device with empty ledgers. -/
def Books.opened (cfg : Config) : Books := ⟨probed cfg, fun _ => []⟩

/-- No URB is read or buffer given back that is not there or to `kfree`, none is taken twice, a
call that ended has dropped its URB, and the buffers allocated are those of URBs accepted and
not completed and of calls that have not come to the submission. -/
structure Accounted (b : Books) : Prop where
  disciplined : ∀ c, Disciplined (b.ledger c)
  once : ∀ c item, acquired (b.ledger c) item ≤ 1
  references : ∀ (c : Nat) (call : Call), b.device.calls[c]? = some call → call.io.ended = true →
    ¬ Held (b.ledger c) .urb
  buffers : ∀ (c : Nat) (call : Call), b.device.calls[c]? = some call →
    (Held (b.ledger c) .buffer ↔ c ∈ b.device.shared.urbs ∨ call.io.ownsBuffer = true)

/-- The action issues no write that is not orderly. -/
def Action.Orderly : Action → Prop
  | .writeBegin _ q => q.Orderly
  | _ => True

instance (a : Action) : Decidable a.Orderly :=
  match a with
  | .writeBegin _ q => inferInstanceAs (Decidable q.Orderly)
  | .openBegin | .openStep _ | .readBegin _ _ | .callStep _ | .release _ | .disconnectStep
  | .complete _ _ => inferInstanceAs (Decidable True)

/-- The ledger of a call fits its next step. -/
def Call.Booked (call : Call) (inFlight : Bool) (log : List (Op Item)) : Prop :=
  match call.io with
  | .read _ _ => inFlight = false ∧ log = []
  | .write q pc => Usb.Booked q pc inFlight log

/-- The ledgers fit the calls, and there are no others. -/
structure Kept (b : Books) : Prop where
  calls : ∀ (c : Nat) (call : Call), b.device.calls[c]? = some call →
    call.Booked (decide (c ∈ b.device.shared.urbs)) (b.ledger c)
  unissued : ∀ c, b.device.calls.length ≤ c → c ∉ b.device.shared.urbs ∧ b.ledger c = []
  nodup : b.device.shared.urbs.Nodup

/-- A step of a read takes and gives back nothing. -/
theorem ReadRequest.next_ops {cfg : Config} {c : Nat} {q : ReadRequest} {sh sh' : Shared}
    {pc pc' : ReadPc} {es : List Event} (h : q.next cfg c sh pc = some (sh', pc', es)) :
    sh'.urbs = sh.urbs ∧ stepOps es = [] := by
  cases pc with
  | lock =>
    simp only [next, Option.ite_none_right_eq_some, Option.some.injEq] at h
    obtain ⟨_, h⟩ := h
    cases h
    exact ⟨rfl, rfl⟩
  | transfer | unlock | copy =>
    cases h
    exact ⟨rfl, rfl⟩
  | finish temp =>
    simp only [next] at h
    split at h
    · cases h
      exact ⟨rfl, rfl⟩
    · split at h <;> cases h <;> exact ⟨rfl, rfl⟩
  | returned => cases h

/-- A call issued has an empty ledger. -/
theorem Kept.issue {b : Books} {s : Device} {call : Call} (h : Kept b)
    (hcalls : s.calls = b.device.calls ++ [call]) (hshared : s.shared = b.device.shared)
    (hnew : call.Booked false []) : Kept ⟨s, b.ledger⟩ := by
  constructor
  case calls =>
    intro c call' hc
    have hfresh := h.unissued b.device.calls.length (Nat.le_refl _)
    simp only [hcalls, hshared] at hc ⊢
    rcases Nat.lt_trichotomy c b.device.calls.length with hlt | rfl | hgt
    · rw [List.getElem?_append_left hlt] at hc
      exact h.calls c call' hc
    · rw [List.getElem?_concat_length] at hc
      cases hc
      rwa [decide_eq_false hfresh.1, hfresh.2]
    · rw [List.getElem?_eq_none (by simp; omega)] at hc
      cases hc
  case unissued =>
    intro c hc
    simp only [hcalls, hshared, List.length_append] at hc ⊢
    exact h.unissued c (by omega)
  case nodup =>
    rw [hshared]
    exact h.nodup

/-- What neither issues, advances nor completes leaves the ledgers fitting. -/
theorem Kept.of_eq {b : Books} {s : Device} (h : Kept b) (hcalls : s.calls = b.device.calls)
    (hshared : s.shared = b.device.shared) : Kept ⟨s, b.ledger⟩ := by
  constructor
  case calls => simpa only [hcalls, hshared] using h.calls
  case unissued => simpa only [hcalls, hshared] using h.unissued
  case nodup => simpa only [hshared] using h.nodup

/-- A step of one call, or the completion of its URB, changes its own ledger only. -/
theorem Kept.record {b : Books} {s : Device} {c : Nat} {call call' : Call} {ops : List (Op Item)}
    (h : Kept b) (hc : b.device.calls[c]? = some call)
    (hcalls : s.calls = b.device.calls.set c call')
    (hurbs : ∀ d, d ≠ c → (d ∈ s.shared.urbs ↔ d ∈ b.device.shared.urbs))
    (hnodup : s.shared.urbs.Nodup)
    (hnew : call'.Booked (decide (c ∈ s.shared.urbs)) (b.ledger c ++ ops)) :
    Kept ⟨s, b.record c ops⟩ := by
  have hlt : c < b.device.calls.length := (List.getElem?_eq_some_iff.mp hc).1
  constructor
  case calls =>
    intro d call'' hd
    simp only [hcalls] at hd
    by_cases hdc : d = c
    · subst d
      rw [List.getElem?_set_self hlt] at hd
      cases hd
      simpa only [Books.record, Function.update_self] using hnew
    · rw [List.getElem?_set_ne (Ne.symm hdc)] at hd
      simpa only [Books.record, Function.update_of_ne hdc, hurbs d hdc] using h.calls d call'' hd
  case unissued =>
    intro d hd
    simp only [hcalls, List.length_set] at hd
    have hdc : d ≠ c := by omega
    simpa only [Books.record, Function.update_of_ne hdc, hurbs d hdc] using h.unissued d hd
  case nodup => exact hnodup

/-- A step of a read leaves its ledger empty. -/
theorem Kept.readStep {cfg : Config} {b : Books} {s : Device} {c : Nat} {call : Call}
    {q : ReadRequest} {pc pc' : ReadPc} {es : List Event} (h : Kept b)
    (hc : b.device.calls[c]? = some call) (hio : call.io = .read q pc)
    (hn : q.next cfg c b.device.shared pc = some (s.shared, pc', es))
    (hcalls : s.calls = b.device.calls.set c
      { call with io := .read q pc', events := call.events ++ es }) :
    Kept ⟨s, b.record c (stepOps es)⟩ := by
  obtain ⟨hurbs, hops⟩ := ReadRequest.next_ops hn
  have hbooked := h.calls c call hc
  rw [Call.Booked, hio] at hbooked
  refine h.record hc hcalls (fun d _ => by rw [hurbs]) (hurbs ▸ h.nodup) ?_
  rw [hurbs, hops, List.append_nil]
  exact hbooked

/-- A step of a write enters in its ledger what it does, and may put its URB in flight. -/
theorem Kept.writeStep {cfg : Config} {b : Books} {s : Device} {c : Nat} {call : Call}
    {q : WriteRequest} {pc pc' : WritePc} {es : List Event} (h : Kept b)
    (hc : b.device.calls[c]? = some call) (hio : call.io = .write q pc)
    (hn : q.next cfg c b.device.shared pc = some (s.shared, pc', es))
    (hcalls : s.calls = b.device.calls.set c
      { call with io := .write q pc', events := call.events ++ es }) :
    Kept ⟨s, b.record c (stepOps es)⟩ := by
  have hbooked := h.calls c call hc
  rw [Call.Booked, hio] at hbooked
  rcases hbooked.step hn with ⟨hurbs, hnew⟩ | ⟨hurbs, hfree, hnew⟩
  · refine h.record hc hcalls (fun d _ => by rw [hurbs]) (hurbs ▸ h.nodup) ?_
    rw [hurbs]
    exact hnew
  · have hnot : c ∉ b.device.shared.urbs := of_decide_eq_false hfree
    refine h.record hc hcalls (fun d hd => by simp [hurbs, hd]) ?_ ?_
    · rw [hurbs, List.nodup_append]
      refine ⟨h.nodup, List.pairwise_singleton _ c, fun d hd e he => ?_⟩
      rw [List.mem_singleton.mp he]
      rintro rfl
      exact hnot hd
    · have hmem : decide (c ∈ s.shared.urbs) = true := by simp [hurbs]
      rw [hmem]
      exact hnew

/-- The completion of a URB in flight is entered in the ledger of its write. -/
theorem Kept.complete {b : Books} {s : Device} {c : Nat} (h : Kept b)
    (hu : c ∈ b.device.shared.urbs) (hcalls : s.calls = b.device.calls)
    (hurbs : s.shared.urbs = b.device.shared.urbs.erase c) : Kept ⟨s, b.record c letGo⟩ := by
  have hlt : c < b.device.calls.length := by
    refine Nat.lt_of_not_le fun hle => ?_
    exact (h.unissued c hle).1 hu
  have hc := List.getElem?_eq_getElem hlt
  have hbooked := h.calls c _ hc
  rw [decide_eq_true hu] at hbooked
  have hset : s.calls = b.device.calls.set c b.device.calls[c] := by
    rw [hcalls, List.set_getElem_self hlt]
  have hother : ∀ d, d ≠ c → (d ∈ s.shared.urbs ↔ d ∈ b.device.shared.urbs) := by
    intro d hd
    rw [hurbs]
    exact List.mem_erase_of_ne hd
  have hgone : c ∉ s.shared.urbs := by
    rw [hurbs]
    exact h.nodup.not_mem_erase
  refine h.record hc hset hother (hurbs ▸ h.nodup.erase c) ?_
  rw [decide_eq_false hgone]
  generalize b.device.calls[c] = call at hbooked
  obtain ⟨f, late, io, events⟩ := call
  cases io with
  | read q pc => cases hbooked.1
  | write q pc => exact Booked.complete hbooked

/-- The ledgers go on fitting at every step. -/
theorem Kept.step {cfg : Config} {b b' : Books} {a : Action} (h : Kept b)
    (hs : bookStep cfg b a = some b') : Kept b' := by
  obtain ⟨t, hstep, rfl⟩ := Option.map_eq_some_iff.mp hs
  cases effect_of_step hstep with
  | openBegin | openFind | openFetch | openGet | openStore | release | disconnectFetch
  | disconnectClear | disconnectDeregister | disconnectPut => exact h.of_eq rfl rfl
  | readBegin => exact h.issue rfl rfl ⟨rfl, rfl⟩
  | writeBegin => exact h.issue rfl rfl .start
  | @callStep c call sh io es hc hn =>
    have hledger : b.ledgerAfter cfg (.callStep c) = b.record c (stepOps es) := by
      simp only [Books.ledgerAfter, hc, Option.bind_some, hn]
    rw [hledger]
    cases hio : call.io with
    | read q pc =>
      rw [hio] at hn
      obtain ⟨⟨sh', pc', es'⟩, hq, he⟩ := Option.map_eq_some_iff.mp hn
      cases he
      exact h.readStep hc hio hq rfl
    | write q pc =>
      rw [hio] at hn
      obtain ⟨⟨sh', pc', es'⟩, hq, he⟩ := Option.map_eq_some_iff.mp hn
      cases he
      exact h.writeStep hc hio hq rfl
  | @complete c status hu =>
    have hledger : b.ledgerAfter cfg (.complete c status) = b.record c letGo := by
      rw [Books.ledgerAfter, completionOps_eq]
    rw [hledger]
    exact h.complete hu rfl rfl

theorem opened_kept (cfg : Config) : Kept (Books.opened cfg) :=
  ⟨by simp [Books.opened, probed], by simp [Books.opened, probed],
    by simp [Books.opened, probed]⟩

theorem run_kept {cfg : Config} {b : Books} {as : List Action}
    (h : Run (bookStep cfg) (Books.opened cfg) as b) : Kept b :=
  h.invariant (opened_kept cfg) fun _ _ _ hi hs => hi.step hs

/-- The ledgers do not interfere: the device takes the same runs with them and without. -/
theorem run_device {cfg : Config} {b : Books} {as : List Action}
    (h : Run (bookStep cfg) (Books.opened cfg) as b) : Run (step cfg) (probed cfg) as b.device := by
  induction h with
  | nil => exact Run.nil _
  | snoc _ hs ih =>
    obtain ⟨t, ht, rfl⟩ := Option.map_eq_some_iff.mp hs
    exact Run.snoc ih ht

theorem run_booked {cfg : Config} {t : Device} {as : List Action}
    (h : Run (step cfg) (probed cfg) as t) :
    ∃ b, Run (bookStep cfg) (Books.opened cfg) as b ∧ b.device = t := by
  induction h with
  | nil => exact ⟨Books.opened cfg, Run.nil _, rfl⟩
  | snoc _ hs ih =>
    obtain ⟨b, hb, rfl⟩ := ih
    exact ⟨_, Run.snoc hb (Option.map_eq_some_iff.mpr ⟨_, hs, rfl⟩), rfl⟩

/-- The writes among the calls were issued orderly. -/
def WritesOrderly (s : Device) : Prop :=
  ∀ call ∈ s.calls, ∀ q pc, call.io = .write q pc → q.Orderly

/-- The request of a write is the one it was issued with. -/
theorem Io.request_of_issued {io io' : Io} {q : WriteRequest} {pc : WritePc}
    (h : io'.issued = io.issued) (hio : io = .write q pc) : ∃ pc', io' = .write q pc' := by
  subst hio
  cases io' with
  | read => cases h
  | write q' pc' =>
    cases h
    exact ⟨pc', rfl⟩

theorem WritesOrderly.step {cfg : Config} {s t : Device} {a : Action} (h : WritesOrderly s)
    (ha : a.Orderly) (hs : Effect cfg s a t) : WritesOrderly t := by
  apply forall_calls_step h hs
  · rintro f q rfl q' pc he
    cases he
  · rintro f q rfl q' pc he
    cases he
    exact ha
  · intro c call sh io es hcall hn q pc he
    obtain ⟨pc', hio⟩ := Io.request_of_issued (Io.next_issued hn).symm he
    exact hcall q pc' hio

/-- Where every write is orderly, the ledger of a call is in order. -/
theorem Kept.sheet {b : Books} {c : Nat} {call : Call} (h : Kept b)
    (ho : WritesOrderly b.device) (hc : b.device.calls[c]? = some call) :
    ∃ urb, Sheet (b.ledger c) urb
        (decide (c ∈ b.device.shared.urbs) || call.io.ownsBuffer) ∧
      (call.io.ended = true → urb = false) := by
  have hbooked := h.calls c call hc
  have horderly := ho call (List.mem_of_getElem? hc)
  obtain ⟨f, late, io, events⟩ := call
  cases io with
  | read q pc =>
    obtain ⟨hfree, hempty⟩ := hbooked
    rw [hfree, hempty]
    exact ⟨false, Sheet.nil, fun _ => rfl⟩
  | write q pc => exact Booked.sheet hbooked (horderly q pc rfl)

/-- The ledgers that belong to no call are empty, and so in order too. -/
theorem Kept.all_sheets {b : Books} (h : Kept b) (ho : WritesOrderly b.device) (c : Nat) :
    ∃ urb buffer, Sheet (b.ledger c) urb buffer := by
  by_cases hlt : c < b.device.calls.length
  · obtain ⟨urb, hs, _⟩ := h.sheet ho (List.getElem?_eq_getElem hlt)
    exact ⟨urb, _, hs⟩
  · rw [(h.unissued c (Nat.not_lt.mp hlt)).2]
    exact ⟨false, false, Sheet.nil⟩

/-- Where every write is orderly, everything is accounted for. -/
theorem Kept.accounted {b : Books} (h : Kept b) (ho : WritesOrderly b.device) : Accounted b := by
  constructor
  case disciplined =>
    intro c
    obtain ⟨urb, buffer, hs⟩ := h.all_sheets ho c
    exact hs.disciplined
  case once =>
    intro c item
    obtain ⟨urb, buffer, hs⟩ := h.all_sheets ho c
    cases item with
    | urb => exact hs.once.1
    | buffer => exact hs.once.2.1
    | submitted => exact hs.once.2.2.1
    | heap => exact hs.once.2.2.2
  case references =>
    intro c call hc hend
    obtain ⟨urb, hs, hgone⟩ := h.sheet ho hc
    have hurb := hs.urb
    rw [hgone hend] at hurb
    exact of_decide_eq_false hurb
  case buffers =>
    intro c call hc
    obtain ⟨urb, hs, _⟩ := h.sheet ho hc
    rw [← decide_eq_true_iff (p := Held (b.ledger c) .buffer), hs.buffer, Bool.or_eq_true,
      decide_eq_true_eq]

/-- In a run whose writes are all orderly every URB and buffer is accounted for in every state;
once all writes ended, only in such a run. -/
theorem stm32ledsWrite_accounted {cfg : Config} {b : Books} {as : List Action}
    (hrun : Run (bookStep cfg) (Books.opened cfg) as b) :
    ((∀ a ∈ as, a.Orderly) → Always (bookStep cfg) (Books.opened cfg) as Accounted) ∧
    ((∀ call ∈ b.device.calls, ∀ q pc, call.io = .write q pc → call.io.ended = true) →
      Always (bookStep cfg) (Books.opened cfg) as Accounted → ∀ a ∈ as, a.Orderly) := by
  constructor
  · intro ho pre b' hpre hb'
    have hwrites : WritesOrderly b'.device := (run_device hb').invariant_of_mem
      (fun a ha => ho a (hpre.subset ha)) (by simp [WritesOrderly, probed])
      fun _ _ _ ha hi hs => hi.step ha (effect_of_step hs)
    exact (run_kept hb').accounted hwrites
  · intro hend halways a ha
    cases a with
    | openBegin | openStep | readBegin | callStep | release | disconnectStep | complete => trivial
    | writeBegin f q =>
      obtain ⟨pre, post, rfl⟩ := List.append_of_mem ha
      have hdevice := run_device hrun
      obtain ⟨s, hpre, hpost⟩ := hdevice.split
      rw [← List.singleton_append] at hpost
      obtain ⟨t, hissue, hrest⟩ := hpost.split
      obtain ⟨s', hnil, hstep⟩ := (show Run (step cfg) s ([] ++ [.writeBegin f q]) t from
        hissue).snoc_inv
      cases hnil.nil_inv
      cases effect_of_step hstep with
      | writeBegin hf =>
        -- the write is still there at the end of the run, where it has ended
        obtain ⟨call, hc, _, hissued⟩ := CallsGrow.run hrest _ _ List.getElem?_concat_length
        obtain ⟨pc, hio⟩ := Io.request_of_issued hissued rfl
        have hended := hend call (List.mem_of_getElem? hc) q pc hio
        have hbooked := (run_kept hrun).calls _ call hc
        rw [Call.Booked, hio] at hbooked
        rw [hio] at hended
        exact hbooked.orderly hended ((halways.last hrun).disciplined _)

/-- A file is opened and a write on it runs to its end. -/
def openAndWrite (q : WriteRequest) : List Action :=
  [.openBegin, .openStep 0, .openStep 0, .openStep 0, .openStep 0, .writeBegin 0 q] ++
    List.replicate 8 (.callStep 0)

/-- The theorem applies to an accepted write and its completion. -/
theorem stm32ledsWrite_accounted_completed :
    Always (bookStep .tenBytes) (Books.opened .tenBytes)
      (openAndWrite .accepted ++ [.complete 0 0]) Accounted := by
  obtain ⟨b, hrun⟩ := run_of_isSome (show (exec (bookStep .tenBytes) (Books.opened .tenBytes)
    (openAndWrite .accepted ++ [.complete 0 0])).isSome = true by decide)
  exact (stm32ledsWrite_accounted hrun).1 (by decide)

/-- The device is gone when the URB is submitted. -/
def WriteRequest.refused : WriteRequest := { WriteRequest.accepted with submit := -ENODEV }

/-- A refused submission gives its buffer back twice. -/
theorem refused_write_not_accounted :
    ∃ b, Run (bookStep .tenBytes) (Books.opened .tenBytes) (openAndWrite .refused) b ∧
      ¬ Accounted b := by
  have he : (exec (bookStep .tenBytes) (Books.opened .tenBytes) (openAndWrite .refused)).map
      (fun b => b.ledger 0) = some (tried ++ freedTwice) := by decide
  obtain ⟨b, hrun, hledger⟩ := run_of_observed he
  refine ⟨b, hrun, fun h => ?_⟩
  have hd := h.disciplined 0
  rw [hledger] at hd
  exact absurd hd (by decide)

end OsCourseLabs.Usb
