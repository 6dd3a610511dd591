import OsCourseLabs.Core.Ledger
import OsCourseLabs.Usb.Driver

/-!
# Binding a device

`stm32leds_probe` looks for the first interrupt endpoint of each direction, with a zero
address as the mark of an endpoint not found yet, and allocates the input buffer inside
that loop. All failures go to one label, where the structure is dropped through its
reference count.
-/

namespace OsCourseLabs.Usb

open Ledger

/-- The fields of `struct usb_endpoint_descriptor` that the probe reads. -/
structure EndpointDescriptor where
  bEndpointAddress : UInt8
  bmAttributes : UInt8
  wMaxPacketSize : UInt16
  bInterval : UInt8
  deriving DecidableEq, Repr

/-- `usb_endpoint_xfer_int`. -/
def usbEndpointXferInt (e : EndpointDescriptor) : Bool := e.bmAttributes &&& 0x03 == 0x03

/-- `usb_endpoint_is_int_in`. -/
def usbEndpointIsIntIn (e : EndpointDescriptor) : Bool :=
  usbEndpointXferInt e && e.bEndpointAddress &&& 0x80 == 0x80

/-- `usb_endpoint_is_int_out`. -/
def usbEndpointIsIntOut (e : EndpointDescriptor) : Bool :=
  usbEndpointXferInt e && e.bEndpointAddress &&& 0x80 == 0x00

/-- The buffer allocated for the descriptor at a position of the list. -/
structure Buffer where
  position : Nat
  size : Nat
  deriving DecidableEq, Repr

/-- `struct stm32leds` without the locks and the state of the LEDs. -/
structure Stm32leds where
  udev : Nat
  intInBuffer : Option Buffer
  intInSize : Nat
  intInEndpointAddr : UInt8
  intOutEndpointAddr : UInt8
  intOutInterval : UInt8
  intInInterval : UInt8
  kref : Nat
  deriving DecidableEq, Repr

/-- What a probe acquires. -/
inductive Resource where
  | device (a : Nat)
  | usbDevice (u : Nat)
  | buffer (b : Buffer)
  deriving DecidableEq, Repr

/-- The interface that is probed. -/
structure Interface where
  udev : Nat
  /-- The endpoints of the current setting. -/
  endpoints : List EndpointDescriptor
  intfdata : Option Nat
  /-- Whether a minor is registered. -/
  registered : Bool
  deriving DecidableEq, Repr

/-- The answers of the two `kzalloc` calls, the second by position, and of `usb_register_dev`. -/
structure ProbeOutcomes where
  dev : Option Nat
  buffer : Nat → Bool
  register : Int

/-- The structure being filled in, and what was acquired so far. -/
structure Probing where
  dev : Stm32leds
  ledger : List (Op Resource)

/-- What a probe leaves: the structure is gone where it was not allocated or is deleted. -/
structure ProbeResult where
  retval : Int
  interface : Interface
  dev : Option Stm32leds
  ledger : List (Op Resource)

/-- The zeroed structure after `kref_init` and `usb_get_dev`. -/
def probeStart (a : Nat) (interface : Interface) : Probing :=
  ⟨⟨interface.udev, none, 0, 0, 0, 0, 0, 1⟩,
    [.acquire (.device a), .acquire (.usbDevice interface.udev)]⟩

/-- The acquisition of a buffer, where it was allocated. -/
def bufferAcquired : Option Buffer → List (Op Resource)
  | none => []
  | some b => [.acquire (.buffer b)]

/-- The fields stored for an interrupt-IN endpoint, and the answer to the allocation. -/
def Probing.found (p : Probing) (e : EndpointDescriptor) (b : Option Buffer) : Probing :=
  ⟨{ p.dev with
      intInSize := e.wMaxPacketSize.toNat
      intInInterval := e.bInterval
      intInEndpointAddr := e.bEndpointAddress
      intInBuffer := b }, p.ledger ++ bufferAcquired b⟩

/-- The first half of the loop body. -/
def probeIntIn (o : ProbeOutcomes) (i : Nat) (e : EndpointDescriptor) (p : Probing) :
    Except Probing Probing :=
  if p.dev.intInEndpointAddr = 0 ∧ usbEndpointIsIntIn e then
    if o.buffer i then .ok (p.found e (some ⟨i, e.wMaxPacketSize.toNat⟩))
    else .error (p.found e none)
  else .ok p

/-- The second half of the loop body. -/
def probeIntOut (e : EndpointDescriptor) (p : Probing) : Probing :=
  if p.dev.intOutEndpointAddr = 0 ∧ usbEndpointIsIntOut e then
    { p with dev := { p.dev with
      intOutEndpointAddr := e.bEndpointAddress
      intOutInterval := e.bInterval } }
  else p

/-- The endpoint loop from a position on. -/
def probeLoop (o : ProbeOutcomes) : Nat → List EndpointDescriptor → Probing →
    Except Probing Probing
  | _, [], p => .ok p
  | i, e :: es, p =>
    match probeIntIn o i e p with
    | .error p => .error p
    | .ok p => probeLoop o (i + 1) es (probeIntOut e p)

/-- `stm32leds_delete`; freeing a NULL buffer does nothing. -/
def stm32ledsDelete (a : Nat) (dev : Stm32leds) : List (Op Resource) :=
  [.release (.usbDevice dev.udev)] ++
    (match dev.intInBuffer with
    | some b => [.release (.buffer b)]
    | none => []) ++ [.release (.device a)]

/-- The label `error` with a structure: `kref_put`, whose last reference deletes it. -/
def probeError (a : Nat) (retval : Int) (interface : Interface) (p : Probing) : ProbeResult :=
  if p.dev.kref = 1 then ⟨retval, interface, none, p.ledger ++ stm32ledsDelete a p.dev⟩
  else ⟨retval, interface, some { p.dev with kref := p.dev.kref - 1 }, p.ledger⟩

/-- A minor is registered when the call succeeds. -/
def usbRegisterDev (outcome : Int) (interface : Interface) : Int × Interface :=
  if outcome = 0 then (0, { interface with registered := true }) else (outcome, interface)

/-- `stm32leds_probe` after its loop. -/
def probeRegister (o : ProbeOutcomes) (a : Nat) (interface : Interface) (p : Probing) :
    ProbeResult :=
  if ¬ (p.dev.intInEndpointAddr ≠ 0 ∧ p.dev.intOutEndpointAddr ≠ 0) then
    probeError a (-ENOMEM) interface p
  else
    let (retval, interface) := usbRegisterDev o.register { interface with intfdata := some a }
    if retval ≠ 0 then probeError a retval { interface with intfdata := none } p
    else ⟨0, interface, some p.dev, p.ledger⟩

/-- `stm32leds_probe`. -/
def stm32ledsProbe (o : ProbeOutcomes) (interface : Interface) : ProbeResult :=
  match o.dev with
  | none => ⟨-ENOMEM, interface, none, []⟩
  | some a =>
    match probeLoop o 0 interface.endpoints (probeStart a interface) with
    | .error p => probeError a (-ENOMEM) interface p
    | .ok p => probeRegister o a interface p

/-- The input fields come from the descriptor, where there is one. -/
def InFrom (dev : Stm32leds) : Option EndpointDescriptor → Prop
  | none => dev.intInEndpointAddr = 0 ∧ dev.intInBuffer = none
  | some e => dev.intInEndpointAddr = e.bEndpointAddress ∧ dev.intInInterval = e.bInterval ∧
      dev.intInSize = e.wMaxPacketSize.toNat ∧
      ∃ i, dev.intInBuffer = some ⟨i, e.wMaxPacketSize.toNat⟩

/-- The output fields come from the descriptor, where there is one. -/
def OutFrom (dev : Stm32leds) : Option EndpointDescriptor → Prop
  | none => dev.intOutEndpointAddr = 0
  | some e => dev.intOutEndpointAddr = e.bEndpointAddress ∧ dev.intOutInterval = e.bInterval

/-- The structure holds the first interrupt endpoint of each direction of the list seen so far.
An output endpoint with number zero may be taken for none. -/
structure Found (es : List EndpointDescriptor) (dev : Stm32leds) : Prop where
  input : InFrom dev (es.find? usbEndpointIsIntIn)
  output : (∀ e ∈ es, e.bEndpointAddress &&& 0x0f ≠ 0) →
    OutFrom dev (es.find? usbEndpointIsIntOut)

/-- What the error label relies on: one reference, and the ledger fits the structure. -/
structure Sound (a : Nat) (interface : Interface) (p : Probing) : Prop where
  kref : p.dev.kref = 1
  udev : p.dev.udev = interface.udev
  ledger : p.ledger = [.acquire (.device a), .acquire (.usbDevice interface.udev)] ++
    bufferAcquired p.dev.intInBuffer
  /-- A buffer is allocated only where an address is stored. -/
  unfound : p.dev.intInEndpointAddr = 0 → p.dev.intInBuffer = none

/-- An interrupt-IN address has its direction bit set. -/
theorem address_ne_zero_of_isIntIn {e : EndpointDescriptor} (h : usbEndpointIsIntIn e = true) :
    e.bEndpointAddress ≠ 0 := by
  intro h0
  simp [usbEndpointIsIntIn, h0] at h

/-- The mark of an input endpoint that is not found yet is never a found address. -/
theorem InFrom.address_eq_zero_iff {dev : Stm32leds} {es : List EndpointDescriptor}
    (h : InFrom dev (es.find? usbEndpointIsIntIn)) :
    dev.intInEndpointAddr = 0 ↔ es.find? usbEndpointIsIntIn = none := by
  cases he : es.find? usbEndpointIsIntIn with
  | none =>
    rw [he] at h
    exact iff_of_true h.1 rfl
  | some e =>
    rw [he] at h
    apply iff_of_false
    · rw [h.1]
      exact address_ne_zero_of_isIntIn (List.find?_some he)
    · exact Option.some_ne_none e

/-- The same for output endpoints, whose number has to be there. -/
theorem OutFrom.address_eq_zero_iff {dev : Stm32leds} {es : List EndpointDescriptor}
    (h : OutFrom dev (es.find? usbEndpointIsIntOut))
    (hn : ∀ e ∈ es, e.bEndpointAddress &&& 0x0f ≠ 0) :
    dev.intOutEndpointAddr = 0 ↔ es.find? usbEndpointIsIntOut = none := by
  cases he : es.find? usbEndpointIsIntOut with
  | none =>
    rw [he] at h
    exact iff_of_true h rfl
  | some e =>
    rw [he] at h
    apply iff_of_false
    · rw [h.1]
      intro h0
      apply hn e (List.mem_of_find?_eq_some he)
      rw [h0]
      rfl
    · exact Option.some_ne_none e

/-- The second half of the body keeps what it does not store. -/
theorem probeIntOut_frame (e : EndpointDescriptor) (p : Probing) :
    ∃ addr interval, probeIntOut e p =
      { p with dev := { p.dev with intOutEndpointAddr := addr, intOutInterval := interval } } := by
  unfold probeIntOut
  split <;> exact ⟨_, _, rfl⟩

/-- The case of an interrupt-in endpoint keeps the probing sound, also where it fails. -/
theorem Sound.intIn {a i : Nat} {o : ProbeOutcomes} {interface : Interface} {e : EndpointDescriptor}
    {p : Probing} (h : Sound a interface p) :
    (∃ q, probeIntIn o i e p = .ok q ∧ Sound a interface q) ∨
      ∃ q, probeIntIn o i e p = .error q ∧ Sound a interface q := by
  unfold probeIntIn
  split
  · rename_i hfirst
    have hnone := h.unfound hfirst.1
    have hled := h.ledger
    rw [hnone, bufferAcquired, List.append_nil] at hled
    have hfound : ∀ b, Sound a interface (p.found e b) := by
      intro b
      refine ⟨h.kref, h.udev, congrArg (· ++ bufferAcquired b) hled, fun h0 => ?_⟩
      exact absurd h0 (address_ne_zero_of_isIntIn hfirst.2)
    split
    · exact Or.inl ⟨_, rfl, hfound _⟩
    · exact Or.inr ⟨_, rfl, hfound _⟩
  · exact Or.inl ⟨p, rfl, h⟩

/-- The case of an interrupt-out endpoint keeps the probing sound. -/
theorem Sound.intOut {a : Nat} {interface : Interface} {e : EndpointDescriptor} {p : Probing}
    (h : Sound a interface p) : Sound a interface (probeIntOut e p) := by
  obtain ⟨addr, interval, he⟩ := probeIntOut_frame e p
  rw [he]
  exact ⟨h.kref, h.udev, h.ledger, h.unfound⟩

/-- However the loop is left, the structure is in order for the error label. -/
theorem Sound.loop {a : Nat} {interface : Interface} {p : Probing} (h : Sound a interface p)
    (o : ProbeOutcomes) (i : Nat) (es : List EndpointDescriptor) :
    (∃ q, probeLoop o i es p = .ok q ∧ Sound a interface q) ∨
      ∃ q, probeLoop o i es p = .error q ∧ Sound a interface q := by
  induction es generalizing i p with
  | nil => exact Or.inl ⟨p, rfl, h⟩
  | cons e es ih =>
    rw [probeLoop]
    rcases h.intIn (o := o) (i := i) (e := e) with ⟨q, he, hq⟩ | ⟨q, he, hq⟩
    · rw [he]
      exact ih hq.intOut (i + 1)
    · rw [he]
      exact Or.inr ⟨q, rfl, hq⟩

/-- The probing starts sound. -/
theorem probeStart_sound (a : Nat) (interface : Interface) :
    Sound a interface (probeStart a interface) :=
  ⟨rfl, rfl, rfl, fun _ => rfl⟩

/-- The first half of the body keeps the input fields on the first descriptor found, and leaves
the output fields alone. -/
theorem InFrom.intIn {o : ProbeOutcomes} {i : Nat} {e : EndpointDescriptor}
    {es : List EndpointDescriptor} {p q : Probing}
    (h : InFrom p.dev (es.find? usbEndpointIsIntIn)) (hq : probeIntIn o i e p = .ok q) :
    InFrom q.dev ((es ++ [e]).find? usbEndpointIsIntIn) ∧
      q.dev.intOutEndpointAddr = p.dev.intOutEndpointAddr ∧
      q.dev.intOutInterval = p.dev.intOutInterval := by
  have hmark := h.address_eq_zero_iff
  unfold probeIntIn at hq
  rw [List.find?_append, List.find?_singleton]
  split at hq
  · rename_i hfirst
    rw [hmark.mp hfirst.1, hfirst.2]
    split at hq
    · cases hq
      exact ⟨⟨rfl, rfl, rfl, i, rfl⟩, rfl, rfl⟩
    · cases hq
  · rename_i hpass
    cases hq
    refine ⟨?_, rfl, rfl⟩
    cases hf : es.find? usbEndpointIsIntIn with
    | none =>
      rw [hf] at h
      rw [if_neg fun he => hpass ⟨h.1, he⟩]
      exact h
    | some d =>
      rw [hf] at h
      exact h

/-- The second half of the body keeps the output fields on the first descriptor found. -/
theorem OutFrom.intOut {e : EndpointDescriptor} {es : List EndpointDescriptor} {p : Probing}
    (h : OutFrom p.dev (es.find? usbEndpointIsIntOut))
    (hn : ∀ d ∈ es, d.bEndpointAddress &&& 0x0f ≠ 0) :
    OutFrom (probeIntOut e p).dev ((es ++ [e]).find? usbEndpointIsIntOut) := by
  have hmark := h.address_eq_zero_iff hn
  unfold probeIntOut
  rw [List.find?_append, List.find?_singleton]
  split
  · rename_i hfirst
    rw [hmark.mp hfirst.1, hfirst.2]
    exact ⟨rfl, rfl⟩
  · rename_i hpass
    cases hf : es.find? usbEndpointIsIntOut with
    | none =>
      rw [hf] at h
      rw [if_neg fun he => hpass ⟨h, he⟩]
      exact h
    | some d =>
      rw [hf] at h
      exact h

/-- The loop body extends the part of the list that the structure accounts for. -/
theorem Found.body {o : ProbeOutcomes} {i : Nat} {e : EndpointDescriptor}
    {es : List EndpointDescriptor} {p q : Probing} (h : Found es p.dev)
    (hq : probeIntIn o i e p = .ok q) : Found (es ++ [e]) (probeIntOut e q).dev := by
  obtain ⟨hin, haddr, hinterval⟩ := h.input.intIn hq
  constructor
  · obtain ⟨addr, interval, hframe⟩ := probeIntOut_frame e q
    rw [hframe]
    cases hf : (es ++ [e]).find? usbEndpointIsIntIn <;> rw [hf] at hin <;> exact hin
  · intro hn
    have hes := (List.forall_mem_append.mp hn).1
    have hout : OutFrom q.dev (es.find? usbEndpointIsIntOut) := by
      have hp := h.output hes
      cases hf : es.find? usbEndpointIsIntOut with
      | none =>
        rw [hf] at hp
        exact haddr.trans hp
      | some d =>
        rw [hf] at hp
        exact ⟨haddr.trans hp.1, hinterval.trans hp.2⟩
    exact hout.intOut hes

/-- A loop that is not left early accounts for the whole list. -/
theorem Found.loop {o : ProbeOutcomes} {i : Nat} {es ds : List EndpointDescriptor}
    {p q : Probing} (h : Found es p.dev) (hq : probeLoop o i ds p = .ok q) :
    Found (es ++ ds) q.dev := by
  induction ds generalizing i es p with
  | nil =>
    cases hq
    rwa [List.append_nil]
  | cons e ds ih =>
    rw [probeLoop] at hq
    split at hq
    · cases hq
    · rename_i p' hp
      have hrest := ih (h.body hp) hq
      rwa [List.append_assoc, List.singleton_append] at hrest

/-- The probing starts with nothing found. -/
theorem probeStart_found (a : Nat) (interface : Interface) :
    Found [] (probeStart a interface).dev :=
  ⟨⟨rfl, rfl⟩, fun _ => rfl⟩

/-- With memory for every buffer the loop is not left early. -/
theorem probeLoop_ok {o : ProbeOutcomes} (hb : ∀ i, o.buffer i = true) (i : Nat)
    (es : List EndpointDescriptor) (p : Probing) : ∃ q, probeLoop o i es p = .ok q := by
  induction es generalizing i p with
  | nil => exact ⟨p, rfl⟩
  | cons e es ih =>
    have hok : ∃ q, probeIntIn o i e p = .ok q := by
      unfold probeIntIn
      rw [hb, if_pos rfl]
      split <;> exact ⟨_, rfl⟩
    obtain ⟨q, hq⟩ := hok
    rw [probeLoop, hq]
    exact ih (i + 1) (probeIntOut e q)

/-- The label `error` answers the error it was reached with. -/
@[simp] theorem probeError_retval (a : Nat) (retval : Int) (interface : Interface)
    (p : Probing) : (probeError a retval interface p).retval = retval := by
  unfold probeError
  split <;> rfl

/-- After the loop the probe succeeds with both endpoints and a minor, or goes to the error
label with an interface that points nowhere new and has no minor of its own. -/
theorem probeRegister_cases (o : ProbeOutcomes) (a : Nat) (interface : Interface) (p : Probing) :
    ((p.dev.intInEndpointAddr ≠ 0 ∧ p.dev.intOutEndpointAddr ≠ 0 ∧ o.register = 0) ∧
      probeRegister o a interface p =
        ⟨0, { interface with intfdata := some a, registered := true }, some p.dev, p.ledger⟩) ∨
    (¬ (p.dev.intInEndpointAddr ≠ 0 ∧ p.dev.intOutEndpointAddr ≠ 0 ∧ o.register = 0) ∧
      ∃ retval interface', retval ≠ 0 ∧
        (interface.intfdata = none → interface'.intfdata = none) ∧
        interface'.registered = interface.registered ∧
        probeRegister o a interface p = probeError a retval interface' p) := by
  unfold probeRegister usbRegisterDev
  by_cases hfound : p.dev.intInEndpointAddr ≠ 0 ∧ p.dev.intOutEndpointAddr ≠ 0
  · rw [if_neg (not_not.mpr hfound)]
    by_cases hr : o.register = 0
    · simp only [hr, ite_true]
      exact Or.inl ⟨⟨hfound.1, hfound.2, trivial⟩, rfl⟩
    · simp only [hr, ite_false]
      exact Or.inr ⟨fun h => h.2.2, o.register, { interface with intfdata := none }, hr,
        fun _ => rfl, rfl, if_pos hr⟩
  · rw [if_pos hfound]
    exact Or.inr ⟨fun h => hfound ⟨h.1, h.2.1⟩, -ENOMEM, interface, by decide, id, rfl, rfl⟩

/-- Where both endpoints were found, the whole structure comes from their descriptors, and one
buffer was allocated. -/
theorem Found.device {a : Nat} {interface : Interface} {p : Probing}
    (hfound : Found interface.endpoints p.dev) (hsound : Sound a interface p)
    (hnumber : ∀ e ∈ interface.endpoints, e.bEndpointAddress &&& 0x0f ≠ 0)
    (hin : interface.endpoints.find? usbEndpointIsIntIn ≠ none)
    (hout : interface.endpoints.find? usbEndpointIsIntOut ≠ none) :
    ∃ ein eout i,
      interface.endpoints.find? usbEndpointIsIntIn = some ein ∧
      interface.endpoints.find? usbEndpointIsIntOut = some eout ∧
      p.dev =
        { udev := interface.udev
          intInBuffer := some ⟨i, ein.wMaxPacketSize.toNat⟩
          intInSize := ein.wMaxPacketSize.toNat
          intInEndpointAddr := ein.bEndpointAddress
          intInInterval := ein.bInterval
          intOutEndpointAddr := eout.bEndpointAddress
          intOutInterval := eout.bInterval
          kref := 1 } ∧
      ∀ b, acquired p.ledger (.buffer b) =
        if b = ⟨i, ein.wMaxPacketSize.toNat⟩ then 1 else 0 := by
  obtain ⟨ein, hein⟩ := Option.ne_none_iff_exists'.mp hin
  obtain ⟨eout, heout⟩ := Option.ne_none_iff_exists'.mp hout
  have hinput := hfound.input
  have houtput := hfound.output hnumber
  rw [hein] at hinput
  rw [heout] at houtput
  obtain ⟨hia, hii, his, i, hib⟩ := hinput
  obtain ⟨hoa, hoi⟩ := houtput
  refine ⟨ein, eout, i, hein, heout, ?_, fun b => ?_⟩
  · rw [← hsound.udev, ← hsound.kref, ← hib, ← his, ← hia, ← hii, ← hoa, ← hoi]
  · have hled := hsound.ledger
    rw [hib] at hled
    simp [hled, bufferAcquired, eq_comm]

/-- With memory and a minor, the probe succeeds exactly when the interface has an interrupt
endpoint of each direction. It then stores the first of each and nothing else, with one buffer,
of the size that the input endpoint asks for. -/
theorem stm32ledsProbe_discovers {o : ProbeOutcomes} {interface : Interface} {a : Nat}
    (hnumber : ∀ e ∈ interface.endpoints, e.bEndpointAddress &&& 0x0f ≠ 0)
    (hdev : o.dev = some a) (hbuffer : ∀ i, o.buffer i = true) (hregister : o.register = 0) :
    ((stm32ledsProbe o interface).retval = 0 ↔
      (∃ e ∈ interface.endpoints, usbEndpointIsIntIn e = true) ∧
        ∃ e ∈ interface.endpoints, usbEndpointIsIntOut e = true) ∧
    ((stm32ledsProbe o interface).retval = 0 → ∃ ein eout i,
      interface.endpoints.find? usbEndpointIsIntIn = some ein ∧
      interface.endpoints.find? usbEndpointIsIntOut = some eout ∧
      (stm32ledsProbe o interface).dev = some
        { udev := interface.udev
          intInBuffer := some ⟨i, ein.wMaxPacketSize.toNat⟩
          intInSize := ein.wMaxPacketSize.toNat
          intInEndpointAddr := ein.bEndpointAddress
          intInInterval := ein.bInterval
          intOutEndpointAddr := eout.bEndpointAddress
          intOutInterval := eout.bInterval
          kref := 1 } ∧
      ∀ b, acquired (stm32ledsProbe o interface).ledger (.buffer b) =
        if b = ⟨i, ein.wMaxPacketSize.toNat⟩ then 1 else 0) := by
  obtain ⟨p, hp⟩ := probeLoop_ok hbuffer 0 interface.endpoints (probeStart a interface)
  have hfound : Found interface.endpoints p.dev := (probeStart_found a interface).loop hp
  have hsound : Sound a interface p := by
    rcases (probeStart_sound a interface).loop o 0 interface.endpoints with
      ⟨q, hq, hs⟩ | ⟨q, hq, _⟩
    · rw [hp] at hq
      cases hq
      exact hs
    · rw [hp] at hq
      cases hq
  have hin := hfound.input.address_eq_zero_iff
  have hout := (hfound.output hnumber).address_eq_zero_iff hnumber
  have hprobe : stm32ledsProbe o interface = probeRegister o a interface p := by
    simp only [stm32ledsProbe, hdev, hp]
  have hexists : ∀ f : EndpointDescriptor → Bool,
      interface.endpoints.find? f ≠ none ↔ ∃ e ∈ interface.endpoints, f e = true := by
    intro f
    simp [List.find?_eq_none]
  rw [hprobe, ← hexists, ← hexists, ne_eq, ne_eq, ← hin, ← hout]
  rcases probeRegister_cases o a interface p with ⟨⟨hi, ho, _⟩, he⟩ | ⟨hno, r, i', hr, _, _, he⟩
  · rw [he]
    refine ⟨iff_of_true rfl ⟨hi, ho⟩, fun _ => ?_⟩
    obtain ⟨ein, eout, i, hein, heout, hdevice, hledger⟩ :=
      hfound.device hsound hnumber (mt hin.mpr hi) (mt hout.mpr ho)
    exact ⟨ein, eout, i, hein, heout, congrArg some hdevice, hledger⟩
  · rw [he, probeError_retval]
    exact ⟨iff_of_false hr fun h => hno ⟨h.1, h.2, hregister⟩, fun h => absurd h hr⟩

/-- An interrupt endpoint of ten bytes in each direction. -/
def bothEndpoints : List EndpointDescriptor := [⟨0x81, 0x03, 10, 20⟩, ⟨0x01, 0x03, 10, 20⟩]

/-- Memory and a minor are there. -/
def ProbeOutcomes.smooth : ProbeOutcomes := ⟨some 1, fun _ => true, 0⟩

/-- The theorem applies: both endpoints are found. -/
theorem stm32ledsProbe_discovers_both :
    (stm32ledsProbe .smooth ⟨0, bothEndpoints, none, false⟩).retval = 0 := by
  have hd := @stm32ledsProbe_discovers .smooth ⟨0, bothEndpoints, none, false⟩ 1 (by decide) rfl
    (fun _ => rfl) rfl
  exact hd.1.mpr (by decide)

end OsCourseLabs.Usb
