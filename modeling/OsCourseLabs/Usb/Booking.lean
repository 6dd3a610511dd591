import OsCourseLabs.Core.Ledger
import OsCourseLabs.Usb.Replies

/-!
# The ledger of a write

A write takes a reference on its URB and a coherent buffer; the USB core takes a reference
on a URB it accepts. What a write has done to them by each of its steps is listed here,
also where the completion of the URB comes between the steps. The buffer goes to the
callback when the submission is accepted; the clean-up of a failed write gives it back
twice, and without a URB reads through NULL. Either is the last that the call does.
-/

namespace OsCourseLabs.Usb

open Ledger

/-- What a write holds: its reference on the URB, its buffer, and the reference of the USB core
on a URB that is accepted and not completed. Memory of `kmalloc` is what `kfree` asks for; no
write takes any. -/
inductive Item where
  | urb
  | buffer
  | submitted
  | heap
  deriving DecidableEq, Repr

/-- What an event does to them, where the URB is reached through the reference `via`. -/
def Event.ops (via : Item) : Event → List (Op Item)
  | .allocUrb => [.acquire .urb]
  | .allocCoherent => [.use via, .acquire .buffer]
  | .submitUrb _ ret =>
    [.use via, .use .buffer] ++ if ret = 0 then [.acquire .submitted] else []
  | .freeCoherent => [.use via, .release .buffer]
  | .readUrb => [.use via]
  | .freeUrb => [.release .urb]
  | .kfree => [.use .heap, .release .buffer]
  | .interruptMsg _ _ | .deliver _ | .useInterface => []

/-- What a step of a call does. -/
def stepOps (es : List Event) : List (Op Item) := es.flatMap (Event.ops .urb)

/-- What a completion does: the callback, after which the core drops its reference. -/
def completionOps (cfg : Config) (status : Int) : List (Op Item) :=
  (stm32ledsWriteIntCallback cfg status).flatMap (Event.ops .submitted) ++ [.release .submitted]

/-- The call has a buffer that it has not handed to the USB core. -/
def Io.ownsBuffer : Io → Bool
  | .write _ .copy | .write _ .lock | .write _ .submit | .write _ (.error true _) => true
  | .write q .unlock => q.submit ≠ 0
  | _ => false

/-- The write needs no URB, or gets one and does not fail with a buffer in hand. -/
def WriteRequest.Orderly (q : WriteRequest) : Prop :=
  q.count ≠ 10 ∨ q.urbOk = true ∧
    (q.coherentOk = true → q.count ≤ q.payload.length ∧ q.submit = 0)

instance (q : WriteRequest) : Decidable q.Orderly :=
  inferInstanceAs (Decidable (_ ∨ _ ∧ (_ → _)))

/-- The ledger of a write that has its URB. -/
def gotUrb : List (Op Item) := [.acquire .urb]

/-- The same with its buffer. -/
def gotBuffer : List (Op Item) := gotUrb ++ [.use .urb, .acquire .buffer]

/-- The same after the submission was asked for. -/
def tried : List (Op Item) := gotBuffer ++ [.use .urb, .use .buffer]

/-- The same once it was accepted. -/
def sent : List (Op Item) := tried ++ [.acquire .submitted]

/-- The callback and the core let go. -/
def letGo : List (Op Item) := [.use .submitted, .release .buffer, .release .submitted]

/-- The clean-up with a buffer. -/
def freedTwice : List (Op Item) :=
  [.use .urb, .release .buffer, .release .urb, .use .heap, .release .buffer]

/-- The ledger of an accepted write, by its next step and whether its URB is in flight. The
completion may come between any two steps, or after the call. -/
inductive AcceptedBook : WritePc → Bool → List (Op Item) → Prop
  | unlock : AcceptedBook .unlock true sent
  | unlockCompleted : AcceptedBook .unlock false (sent ++ letGo)
  | freeUrb : AcceptedBook .freeUrb true sent
  | freeUrbCompleted : AcceptedBook .freeUrb false (sent ++ letGo)
  | returned {r} : AcceptedBook (.returned r) true (sent ++ [.release .urb])
  | completedFirst {r} : AcceptedBook (.returned r) false (sent ++ letGo ++ [.release .urb])
  | completedLast {r} : AcceptedBook (.returned r) false (sent ++ [.release .urb] ++ letGo)

/-- The ledger of a write, by its next step and whether its URB is in flight. -/
inductive Booked (q : WriteRequest) : WritePc → Bool → List (Op Item) → Prop
  | start : Booked q .start false []
  | wrongLength {r} : q.count ≠ 10 → Booked q (.returned r) false []
  | allocUrb : q.count = 10 → Booked q .allocUrb false []
  | crashed : q.count = 10 → q.urbOk = false → Booked q .crashed false [.use .urb]
  | allocCoherent : q.count = 10 → q.urbOk = true → Booked q .allocCoherent false gotUrb
  | noBuffer {r} : q.count = 10 → q.urbOk = true → q.coherentOk = false →
      Booked q (.error false r) false gotUrb
  | noBufferReturned {r} : q.count = 10 → q.urbOk = true → q.coherentOk = false →
      Booked q (.returned r) false (gotUrb ++ [.use .urb, .release .urb])
  | copy : q.count = 10 → q.urbOk = true → q.coherentOk = true → Booked q .copy false gotBuffer
  | unread {r} : q.count = 10 → q.coherentOk = true → q.payload.length < q.count →
      Booked q (.error true r) false gotBuffer
  | unreadCrashed : q.count = 10 → q.coherentOk = true → q.payload.length < q.count →
      Booked q .crashed false (gotBuffer ++ freedTwice)
  | lock : q.Submits → Booked q .lock false gotBuffer
  | submit : q.Submits → Booked q .submit false gotBuffer
  | refused : q.Submits → q.submit ≠ 0 → Booked q .unlock false tried
  | refusedError {r} : q.Submits → q.submit ≠ 0 → Booked q (.error true r) false tried
  | refusedCrashed : q.Submits → q.submit ≠ 0 →
      Booked q .crashed false (tried ++ freedTwice)
  | accepted {pc inFlight log} : q.Submits → q.submit = 0 → AcceptedBook pc inFlight log →
      Booked q pc inFlight log

/-- Debug output takes and gives back nothing. -/
theorem Event.ops_devDbg (cfg : Config) : (devDbg cfg).flatMap (Event.ops .urb) = [] := by
  unfold devDbg
  split <;> rfl

theorem completionOps_eq (cfg : Config) (status : Int) :
    completionOps cfg status = letGo := by
  unfold completionOps stm32ledsWriteIntCallback devDbg
  split
  · split <;> rfl
  · rfl

/-- A step of an accepted write appends the release of its URB, or nothing. -/
theorem AcceptedBook.step {cfg : Config} {c : Nat} {q : WriteRequest} {pc pc' : WritePc}
    {inFlight : Bool} {log : List (Op Item)} {sh sh' : Shared} {es : List Event}
    (h : AcceptedBook pc inFlight log) (hz : q.submit = 0)
    (hn : q.next cfg c sh pc = some (sh', pc', es)) :
    sh'.urbs = sh.urbs ∧ AcceptedBook pc' inFlight (log ++ stepOps es) := by
  cases h with
  | unlock =>
    simp only [WriteRequest.next, hz, ne_eq, not_true_eq_false, ite_false, Option.some.injEq] at hn
    cases hn
    exact ⟨rfl, .freeUrb⟩
  | unlockCompleted =>
    simp only [WriteRequest.next, hz, ne_eq, not_true_eq_false, ite_false, Option.some.injEq] at hn
    cases hn
    exact ⟨rfl, .freeUrbCompleted⟩
  | freeUrb =>
    cases hn
    exact ⟨rfl, .returned⟩
  | freeUrbCompleted =>
    cases hn
    exact ⟨rfl, .completedFirst⟩
  | returned | completedFirst | completedLast => cases hn

/-- A step of a write appends to its ledger what the next position asks for, and puts its URB
in flight at most. -/
theorem Booked.step {cfg : Config} {c : Nat} {q : WriteRequest} {pc pc' : WritePc}
    {inFlight : Bool} {log : List (Op Item)} {sh sh' : Shared} {es : List Event}
    (h : Booked q pc inFlight log) (hn : q.next cfg c sh pc = some (sh', pc', es)) :
    (sh'.urbs = sh.urbs ∧ Booked q pc' inFlight (log ++ stepOps es)) ∨
    (sh'.urbs = sh.urbs ++ [c] ∧ inFlight = false ∧
      Booked q pc' true (log ++ stepOps es)) := by
  have hdbg := Event.ops_devDbg cfg
  cases h with
  | start =>
    simp only [WriteRequest.next] at hn
    split at hn
    · cases hn
      exact Or.inl ⟨rfl, .wrongLength (by omega)⟩
    · split at hn
      · cases hn
        rename_i h10
        refine Or.inl ⟨rfl, ?_⟩
        simp only [stepOps, hdbg, List.append_nil]
        exact .wrongLength h10
      · cases hn
        rename_i h10
        exact Or.inl ⟨rfl, .allocUrb (not_not.mp h10)⟩
  | allocUrb h10 =>
    simp only [WriteRequest.next] at hn
    split at hn <;> cases hn
    · rename_i hurb
      exact Or.inl ⟨rfl, .allocCoherent h10 hurb⟩
    · rename_i hurb
      exact Or.inl ⟨rfl, .crashed h10 (Bool.not_eq_true _ ▸ hurb)⟩
  | allocCoherent h10 hurb =>
    simp only [WriteRequest.next] at hn
    split at hn <;> cases hn
    · rename_i hbuf
      exact Or.inl ⟨rfl, .copy h10 hurb hbuf⟩
    · rename_i hbuf
      refine Or.inl ⟨rfl, ?_⟩
      simp only [stepOps, hdbg, List.append_nil]
      exact .noBuffer h10 hurb (Bool.not_eq_true _ ▸ hbuf)
  | copy h10 hurb hbuf =>
    simp only [WriteRequest.next] at hn
    split at hn <;> cases hn
    · rename_i hshort
      refine Or.inl ⟨rfl, ?_⟩
      simp only [stepOps, hdbg, List.append_nil]
      exact .unread h10 hbuf hshort
    · rename_i hlong
      exact Or.inl ⟨rfl, .lock ⟨h10, hurb, hbuf, Nat.not_lt.mp hlong⟩⟩
  | lock hs =>
    simp only [WriteRequest.next, Option.ite_none_right_eq_some, Option.some.injEq] at hn
    obtain ⟨_, hn⟩ := hn
    cases hn
    exact Or.inl ⟨rfl, .submit hs⟩
  | submit hs =>
    by_cases hz : q.submit = 0
    · simp only [WriteRequest.next, hz, ite_true, Option.some.injEq] at hn
      cases hn
      exact Or.inr ⟨rfl, rfl, .accepted hs hz .unlock⟩
    · simp only [WriteRequest.next, hz, ite_false, Option.some.injEq] at hn
      cases hn
      refine Or.inl ⟨rfl, ?_⟩
      simp only [stepOps, List.flatMap_singleton, Event.ops, hz, ite_false]
      exact .refused hs hz
  | refused hs hz =>
    simp only [WriteRequest.next, hz, ne_eq, not_false_eq_true, ite_true, Option.some.injEq] at hn
    cases hn
    exact Or.inl ⟨rfl, .refusedError hs hz⟩
  | noBuffer h10 hurb hbuf =>
    cases hn
    exact Or.inl ⟨rfl, .noBufferReturned h10 hurb hbuf⟩
  | unread h10 hbuf hshort =>
    cases hn
    exact Or.inl ⟨rfl, .unreadCrashed h10 hbuf hshort⟩
  | refusedError hs hz =>
    cases hn
    exact Or.inl ⟨rfl, .refusedCrashed hs hz⟩
  | accepted hs hz ha =>
    obtain ⟨hurbs, hbook⟩ := ha.step hz hn
    exact Or.inl ⟨hurbs, .accepted hs hz hbook⟩
  | wrongLength | crashed | noBufferReturned | unreadCrashed | refusedCrashed => cases hn

/-- Only a URB in flight completes. -/
theorem Booked.complete {q : WriteRequest} {pc : WritePc} {log : List (Op Item)}
    (h : Booked q pc true log) : Booked q pc false (log ++ letGo) := by
  cases h with
  | accepted hs hz ha =>
    cases ha with
    | unlock => exact .accepted hs hz .unlockCompleted
    | freeUrb => exact .accepted hs hz .freeUrbCompleted
    | returned => exact .accepted hs hz .completedLast

/-- A ledger in order, and whether it holds the URB and the buffer. -/
structure Sheet (log : List (Op Item)) (urb buffer : Bool) : Prop where
  disciplined : Disciplined log
  once : acquired log .urb ≤ 1 ∧ acquired log .buffer ≤ 1 ∧ acquired log .submitted ≤ 1 ∧
    acquired log .heap ≤ 1
  urb : decide (Held log .urb) = urb
  buffer : decide (Held log .buffer) = buffer

theorem sheet_iff {log : List (Op Item)} {urb buffer : Bool} :
    Sheet log urb buffer ↔ Disciplined log ∧
      (acquired log .urb ≤ 1 ∧ acquired log .buffer ≤ 1 ∧ acquired log .submitted ≤ 1 ∧
        acquired log .heap ≤ 1) ∧
      decide (Held log .urb) = urb ∧ decide (Held log .buffer) = buffer := by
  constructor
  · intro h
    exact ⟨h.disciplined, h.once, h.urb, h.buffer⟩
  · rintro ⟨hd, ho, hu, hb⟩
    exact ⟨hd, ho, hu, hb⟩

instance (log : List (Op Item)) (urb buffer : Bool) : Decidable (Sheet log urb buffer) :=
  decidable_of_iff _ sheet_iff.symm

theorem Sheet.nil : Sheet [] false false := by decide

theorem sheet_gotUrb : Sheet gotUrb true false := by decide

theorem sheet_gotBuffer : Sheet gotBuffer true true := by decide

/-- An accepted write holds the URB until it returns and its buffer until the completion. -/
theorem AcceptedBook.sheet {pc : WritePc} {inFlight : Bool} {log : List (Op Item)}
    (h : AcceptedBook pc inFlight log) :
    ∃ urb, Sheet log urb inFlight ∧ ∀ r, pc = .returned r → urb = false := by
  cases h with
  | unlock | unlockCompleted | freeUrb | freeUrbCompleted =>
    exact ⟨true, by decide, fun r hr => by cases hr⟩
  | returned | completedFirst | completedLast =>
    exact ⟨false, by decide, fun _ _ => rfl⟩

/-- The ledger of an orderly write is in order at every step. -/
theorem Booked.sheet {q : WriteRequest} {pc : WritePc} {inFlight : Bool} {log : List (Op Item)}
    (h : Booked q pc inFlight log) (ho : q.Orderly) :
    ∃ urb, Sheet log urb (inFlight || (Io.write q pc).ownsBuffer) ∧
      ((Io.write q pc).ended = true → urb = false) := by
  have hten : q.count = 10 → q.urbOk = true ∧
      (q.coherentOk = true → q.count ≤ q.payload.length ∧ q.submit = 0) :=
    fun h10 => ho.resolve_left fun hne => hne h10
  cases h with
  | start | allocUrb | wrongLength => exact ⟨false, Sheet.nil, fun _ => rfl⟩
  | allocCoherent | noBuffer => exact ⟨true, sheet_gotUrb, fun he => by cases he⟩
  | noBufferReturned =>
    have hgone : Sheet (gotUrb ++ [.use .urb, .release .urb]) false false := by decide
    exact ⟨false, hgone, fun _ => rfl⟩
  | copy | lock | submit => exact ⟨true, sheet_gotBuffer, fun he => by cases he⟩
  | crashed h10 hurb =>
    rw [(hten h10).1] at hurb
    cases hurb
  | unread h10 hbuf hshort | unreadCrashed h10 hbuf hshort =>
    exact absurd ((hten h10).2 hbuf).1 (Nat.not_le.mpr hshort)
  | refused hs hz | refusedError hs hz | refusedCrashed hs hz =>
    exact absurd ((hten hs.1).2 hs.2.2.1).2 hz
  | accepted hs hz ha =>
    obtain ⟨urb, hsheet, hret⟩ := ha.sheet
    have howns : (Io.write q pc).ownsBuffer = false := by
      cases ha with
      | unlock | unlockCompleted => simp [Io.ownsBuffer, hz]
      | freeUrb | freeUrbCompleted | returned | completedFirst | completedLast => rfl
    rw [howns, Bool.or_false]
    refine ⟨urb, hsheet, fun hend => ?_⟩
    cases pc with
    | returned r => exact hret r rfl
    | crashed => cases ha
    | start | allocUrb | allocCoherent | copy | lock | submit | unlock | freeUrb | error =>
      cases hend

/-- A write that ended with a disciplined ledger is orderly. -/
theorem Booked.orderly {q : WriteRequest} {pc : WritePc} {inFlight : Bool}
    {log : List (Op Item)} (h : Booked q pc inFlight log)
    (hend : (Io.write q pc).ended = true) (hd : Disciplined log) : q.Orderly := by
  cases h with
  | wrongLength h10 => exact Or.inl h10
  | noBufferReturned h10 hurb hbuf =>
    refine Or.inr ⟨hurb, fun hb => ?_⟩
    rw [hbuf] at hb
    cases hb
  | crashed | unreadCrashed | refusedCrashed => exact absurd hd (by decide)
  | accepted hs hz ha => exact Or.inr ⟨hs.2.1, fun _ => ⟨hs.2.2.2, hz⟩⟩
  | start | allocUrb | allocCoherent | noBuffer | copy | unread | lock | submit | refused
  | refusedError => cases hend

end OsCourseLabs.Usb
