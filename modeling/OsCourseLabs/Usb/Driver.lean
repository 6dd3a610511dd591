import OsCourseLabs.Core.Slots
import OsCourseLabs.Core.Transition
import OsCourseLabs.Usb.Calls

/-!
# A bound device and its steps

One device after a successful probe: the driver object with its reference count, the
files opened on its minor, the calls on these files, and the disconnect. Opens hold the
core's minor lock for reading, deregistration takes it for writing; the VFS releases a
file after all calls on it returned.
-/

namespace OsCourseLabs.Usb

open Slots

/-- The next step of an open, or what became of the file. -/
inductive FilePc where
  | find
  | fetch
  | get
  | store
  | opened
  | failed (r : Int)
  | released
  deriving DecidableEq, Repr

/-- How far the one disconnect of the device is. -/
inductive DisconnectPc where
  | bound
  | fetched
  | cleared
  | deregistered
  | done
  deriving DecidableEq, Repr

/-- A read or a write with its next step. -/
inductive Io where
  | read (q : ReadRequest) (pc : ReadPc)
  | write (q : WriteRequest) (pc : WritePc)
  deriving DecidableEq, Repr

/-- A call on a file, whether the disconnect was complete when it was issued, and what it
did so far. -/
structure Call where
  file : Nat
  late : Bool
  io : Io
  events : List Event
  deriving DecidableEq, Repr

/-- The driver object, the interface it is bound to, files and calls in order of creation. -/
structure Device where
  kref : Nat
  /-- How often `stm32leds_delete` ran. -/
  deleted : Nat
  /-- Whether the data pointer of the interface is set. -/
  intfdata : Bool
  /-- Whether the minor is registered. -/
  registered : Bool
  disconnect : DisconnectPc
  files : List FilePc
  calls : List Call
  shared : Shared
  /-- Completed URBs with what the callback did. -/
  completed : List (Nat × List Event)
  deriving DecidableEq, Repr

inductive Action where
  | openBegin
  | openStep (f : Nat)
  | readBegin (f : Nat) (q : ReadRequest)
  | writeBegin (f : Nat) (q : WriteRequest)
  | callStep (c : Nat)
  | release (f : Nat)
  | disconnectStep
  | complete (c : Nat) (status : Int)
  deriving DecidableEq, Repr

/-- The open is in progress and holds the minor lock. -/
def FilePc.opening : FilePc → Bool
  | .find | .fetch | .get | .store => true
  | .opened | .failed _ | .released => false

/-- The file holds a reference on the driver object. -/
def FilePc.holds : FilePc → Bool
  | .store | .opened => true
  | .find | .fetch | .get | .failed _ | .released => false

/-- What the call returned, once it has. -/
def Io.result : Io → Option Int
  | .read _ (.returned r) | .write _ (.returned r) => some r
  | _ => none

/-- The call takes no further step. -/
def Io.ended : Io → Bool
  | .read _ (.returned _) | .write _ (.returned _) | .write _ .crashed => true
  | _ => false

/-- The next step of a call. -/
def Io.next (cfg : Config) (c : Nat) (sh : Shared) : Io → Option (Shared × Io × List Event)
  | .read q pc => (q.next cfg c sh pc).map fun r => (r.1, .read q r.2.1, r.2.2)
  | .write q pc => (q.next cfg c sh pc).map fun r => (r.1, .write q r.2.1, r.2.2)

/-- `kref_put`: the last reference runs `stm32leds_delete`. -/
def Device.krefPut (s : Device) : Device :=
  { s with
    kref := s.kref - 1
    deleted := if s.kref = 1 then s.deleted + 1 else s.deleted }

/-- `stm32leds_open` on file `f`. -/
def Device.openNext (s : Device) (f : Nat) : FilePc → Option Device
  | .find => some { s with
      files := s.files.set f (if s.registered then .fetch else .failed (-ENODEV)) }
  | .fetch => some { s with
      files := s.files.set f (if s.intfdata then .get else .failed (-ENODEV)) }
  | .get => some { s with kref := s.kref + 1, files := s.files.set f .store }
  | .store => some { s with files := s.files.set f .opened }
  | .opened | .failed _ | .released => none

/-- `stm32leds_disconnect`. -/
def Device.disconnectNext (s : Device) : Option Device :=
  match s.disconnect with
  | .bound => some { s with disconnect := .fetched }
  | .fetched => some { s with intfdata := false, disconnect := .cleared }
  | .cleared =>
    if ∀ pc ∈ s.files, pc.opening = false then
      some { s with registered := false, disconnect := .deregistered }
    else none
  | .deregistered => some (Device.krefPut { s with disconnect := .done })
  | .done => none

/-- A call issued on an open file. -/
def Device.issue (s : Device) (f : Nat) (io : Io) : Option Device :=
  if s.files[f]? = some .opened then
    some { s with calls := s.calls ++ [⟨f, decide (s.disconnect = .done), io, []⟩] }
  else none

/-- One step of the system; a call on a minor or a file that is not there is no step. -/
def step (cfg : Config) (s : Device) : Action → Option Device
  | .openBegin => if s.registered then some { s with files := s.files ++ [.find] } else none
  | .openStep f => s.files[f]?.bind (s.openNext f)
  | .readBegin f q => if q.report.length ≤ q.room cfg then s.issue f (.read q .lock) else none
  | .writeBegin f q => s.issue f (.write q .start)
  | .callStep c =>
    s.calls[c]?.bind fun call =>
      (call.io.next cfg c s.shared).map fun r => { s with
        shared := r.1
        calls := s.calls.set c { call with io := r.2.1, events := call.events ++ r.2.2 } }
  | .release f =>
    if s.files[f]? = some .opened ∧ ∀ call ∈ s.calls, call.file = f → call.io.result ≠ none then
      some (Device.krefPut { s with files := s.files.set f .released })
    else none
  | .disconnectStep => s.disconnectNext
  | .complete c status =>
    if c ∈ s.shared.urbs then
      some { s with
        shared := { s.shared with urbs := s.shared.urbs.erase c }
        completed := s.completed ++ [(c, stm32ledsWriteIntCallback cfg status)] }
    else none

/-- A device as a successful probe leaves it. -/
def probed (cfg : Config) : Device where
  kref := 1
  deleted := 0
  intfdata := true
  registered := true
  disconnect := .bound
  files := []
  calls := []
  shared := ⟨none, List.replicate cfg.intInSize 0, []⟩
  completed := []

/-- An endpoint of ten bytes and a driver built without debug output. -/
def Config.tenBytes : Config := ⟨10, [], [], false⟩

/-- A file is opened and the device is unplugged. -/
def openThenUnplug : List Action :=
  [.openBegin, .openStep 0, .openStep 0, .openStep 0, .openStep 0, .disconnectStep,
    .disconnectStep, .disconnectStep, .disconnectStep]

/-- What each action can do, the guards included. -/
inductive Effect (cfg : Config) (s : Device) : Action → Device → Prop
  | openBegin : s.registered = true →
      Effect cfg s .openBegin { s with files := s.files ++ [.find] }
  | openFind {f} : s.files[f]? = some .find →
      Effect cfg s (.openStep f) { s with
        files := s.files.set f (if s.registered then .fetch else .failed (-ENODEV)) }
  | openFetch {f} : s.files[f]? = some .fetch →
      Effect cfg s (.openStep f) { s with
        files := s.files.set f (if s.intfdata then .get else .failed (-ENODEV)) }
  | openGet {f} : s.files[f]? = some .get →
      Effect cfg s (.openStep f) { s with kref := s.kref + 1, files := s.files.set f .store }
  | openStore {f} : s.files[f]? = some .store →
      Effect cfg s (.openStep f) { s with files := s.files.set f .opened }
  | readBegin {f q} : s.files[f]? = some .opened → q.report.length ≤ q.room cfg →
      Effect cfg s (.readBegin f q) { s with
        calls := s.calls ++ [⟨f, decide (s.disconnect = .done), .read q .lock, []⟩] }
  | writeBegin {f q} : s.files[f]? = some .opened →
      Effect cfg s (.writeBegin f q) { s with
        calls := s.calls ++ [⟨f, decide (s.disconnect = .done), .write q .start, []⟩] }
  | callStep {c call sh io es} : s.calls[c]? = some call →
      call.io.next cfg c s.shared = some (sh, io, es) →
      Effect cfg s (.callStep c) { s with
        shared := sh
        calls := s.calls.set c { call with io := io, events := call.events ++ es } }
  | release {f} : s.files[f]? = some .opened →
      (∀ call ∈ s.calls, call.file = f → call.io.result ≠ none) →
      Effect cfg s (.release f) (Device.krefPut { s with files := s.files.set f .released })
  | disconnectFetch : s.disconnect = .bound →
      Effect cfg s .disconnectStep { s with disconnect := .fetched }
  | disconnectClear : s.disconnect = .fetched →
      Effect cfg s .disconnectStep { s with intfdata := false, disconnect := .cleared }
  | disconnectDeregister : s.disconnect = .cleared →
      (∀ pc ∈ s.files, FilePc.opening pc = false) →
      Effect cfg s .disconnectStep { s with registered := false, disconnect := .deregistered }
  | disconnectPut : s.disconnect = .deregistered →
      Effect cfg s .disconnectStep (Device.krefPut { s with disconnect := .done })
  | complete {c status} : c ∈ s.shared.urbs →
      Effect cfg s (.complete c status) { s with
        shared := { s.shared with urbs := s.shared.urbs.erase c }
        completed := s.completed ++ [(c, stm32ledsWriteIntCallback cfg status)] }

theorem effect_of_step {cfg : Config} {s t : Device} {a : Action} (h : step cfg s a = some t) :
    Effect cfg s a t := by
  cases a with
  | openBegin =>
    simp only [step, Option.ite_none_right_eq_some, Option.some.injEq] at h
    obtain ⟨hr, rfl⟩ := h
    exact Effect.openBegin hr
  | openStep f =>
    obtain ⟨pc, hf, h⟩ := Option.bind_eq_some_iff.mp h
    cases pc with
    | find => cases h; exact Effect.openFind hf
    | fetch => cases h; exact Effect.openFetch hf
    | get => cases h; exact Effect.openGet hf
    | store => cases h; exact Effect.openStore hf
    | opened | failed | released => cases h
  | readBegin f q =>
    simp only [step, Device.issue, Option.ite_none_right_eq_some, Option.some.injEq] at h
    obtain ⟨hq, hf, rfl⟩ := h
    exact Effect.readBegin hf hq
  | writeBegin f q =>
    simp only [step, Device.issue, Option.ite_none_right_eq_some, Option.some.injEq] at h
    obtain ⟨hf, rfl⟩ := h
    exact Effect.writeBegin hf
  | callStep c =>
    obtain ⟨call, hc, h⟩ := Option.bind_eq_some_iff.mp h
    obtain ⟨⟨sh, io, es⟩, hn, rfl⟩ := Option.map_eq_some_iff.mp h
    exact Effect.callStep hc hn
  | release f =>
    simp only [step, Option.ite_none_right_eq_some, Option.some.injEq] at h
    obtain ⟨⟨hf, hc⟩, rfl⟩ := h
    exact Effect.release hf hc
  | disconnectStep =>
    simp only [step, Device.disconnectNext] at h
    split at h
    · rename_i hd
      cases h
      exact Effect.disconnectFetch hd
    · rename_i hd
      cases h
      exact Effect.disconnectClear hd
    · rename_i hd
      simp only [Option.ite_none_right_eq_some, Option.some.injEq] at h
      obtain ⟨ho, rfl⟩ := h
      exact Effect.disconnectDeregister hd ho
    · rename_i hd
      cases h
      exact Effect.disconnectPut hd
    · cases h
  | complete c status =>
    simp only [step, Option.ite_none_right_eq_some, Option.some.injEq] at h
    obtain ⟨hu, rfl⟩ := h
    exact Effect.complete hu

/-- A property of calls that every call is issued with and keeps at its own steps holds of all
calls after every step of the system. -/
theorem forall_calls_step {cfg : Config} {s t : Device} {a : Action} {P : Call → Prop}
    (h : ∀ call ∈ s.calls, P call) (hs : Effect cfg s a t)
    (hread : ∀ f q, a = .readBegin f q →
      P ⟨f, decide (s.disconnect = .done), .read q .lock, []⟩)
    (hwrite : ∀ f q, a = .writeBegin f q →
      P ⟨f, decide (s.disconnect = .done), .write q .start, []⟩)
    (hnext : ∀ c (call : Call) sh io es, P call →
      call.io.next cfg c s.shared = some (sh, io, es) →
      P { call with io := io, events := call.events ++ es }) :
    ∀ call ∈ t.calls, P call := by
  cases hs with
  | @readBegin f q =>
    exact List.forall_mem_append.mpr ⟨h, List.forall_mem_singleton.mpr (hread f q rfl)⟩
  | @writeBegin f q =>
    exact List.forall_mem_append.mpr ⟨h, List.forall_mem_singleton.mpr (hwrite f q rfl)⟩
  | @callStep c call sh io es hc hn =>
    exact forall_mem_set h (hnext c call sh io es (h call (List.mem_of_getElem? hc)) hn)
  | openBegin | openFind | openFetch | openGet | openStore | release | disconnectFetch
  | disconnectClear | disconnectDeregister | disconnectPut | complete => exact h

end OsCourseLabs.Usb
