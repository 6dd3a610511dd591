import OsCourseLabs.Core.Decimal
import OsCourseLabs.Core.Errno
import OsCourseLabs.Core.Transition
import OsCourseLabs.Gpio.Kernel

/-!
# Loading and unloading the LED driver

`ebbLED_init` looks at what some of its calls answer and not at the others, and a thread that
cannot be started is not followed by any cleaning up. `ebbLED_exit` gives back whatever pin the
module parameter names by then.
-/

namespace OsCourseLabs.Gpio.Led

open CString Decimal Transition

/-- What the driver changes in the kernel; pins are also requested and exported by others. -/
structure Registry where
  /-- The directory `/sys/ebb` is there. -/
  ebb : Bool
  gpios : List Nat
  exported : List Nat
  thread : Bool
  deriving DecidableEq, Repr

/-- What the environment answers to the calls of one load. -/
structure LoadOutcomes where
  kobjectCreate : Bool
  createGroup : Option Nat
  gpioRequest : Bool
  gpioExport : Bool
  kthreadRun : Option Nat
  deriving DecidableEq, Repr

/-- A directory that is there already is not made again. -/
def kobjectCreateAndAdd (ok : Bool) (k : Registry) : Bool × Registry :=
  if ok ∧ k.ebb = false then (true, { k with ebb := true }) else (false, k)

/-- The directory goes with the last reference to it. -/
def kobjectPut (k : Registry) : Registry := { k with ebb := false }

/-- A pin that is requested already is refused. -/
def gpioRequest (gpio : Nat) (ok : Bool) (k : Registry) : Registry :=
  if ok then { k with gpios := (requestGpio gpio k.gpios).getD k.gpios } else k

/-- Only a requested pin is exported, by whomever it is requested. -/
def gpioExport (gpio : Nat) (ok : Bool) (k : Registry) : Registry :=
  if ok ∧ gpio ∈ k.gpios ∧ gpio ∉ k.exported then { k with exported := gpio :: k.exported } else k

/-- A pin is unexported whoever exported it. -/
def gpioUnexport (gpio : Nat) (k : Registry) : Registry :=
  { k with exported := k.exported.erase gpio }

/-- A pin is freed whoever requested it. -/
def gpioFree (gpio : Nat) (k : Registry) : Registry :=
  { k with gpios := freeGpio gpio k.gpios }

/-- `ebbLED_init`, up to what it answers and leaves in the kernel. -/
def ebbLEDInit (o : LoadOutcomes) (gpioLED : Nat) (k : Registry) : Int × Registry :=
  let (ebbKobj, k) := kobjectCreateAndAdd o.kobjectCreate k
  if ebbKobj then
    match o.createGroup with
    | some errno => (errorCode errno, kobjectPut k)
    | none =>
      -- neither answer is looked at
      let k := gpioRequest gpioLED o.gpioRequest k
      let k := gpioExport gpioLED o.gpioExport k
      match o.kthreadRun with
      | some errno => (errorCode errno, k)
      | none => (0, { k with thread := true })
  else (-ENOMEM, k)

/-- `ebbLED_exit`: the pin freed is the one that the parameter names by then. -/
def ebbLEDExit (gpioLED : Nat) (k : Registry) : Registry :=
  let k := kobjectPut { k with thread := false }
  gpioFree gpioLED (gpioUnexport gpioLED k)

/-- What `ebbLED_init` prints into `ledName`, with the terminator; `%d` takes the unsigned
parameter for a signed one. -/
def ledName (gpioLED : BitVec 32) : List UInt8 :=
  ascii ['l', 'e', 'd'] ++ printInt gpioLED.toInt ++ [0]

/-- The name fits the seven bytes of `ledName` exactly for the numbers of at most three digits,
and for the last 99 there are, which are printed as negative. Every number has its own name. -/
theorem ebbLED_name_fits_iff (gpioLED : BitVec 32) :
    ((ledName gpioLED).length ≤ 7 ↔ gpioLED.toNat < 1000 ∨ 4294967197 ≤ gpioLED.toNat) ∧
      ∀ gpio, ledName gpio = ledName gpioLED → gpio = gpioLED := by
  constructor
  · have hlen : (ledName gpioLED).length = (printInt gpioLED.toInt).length + 4 := by
      simp [ledName, ascii]
    have hlt := gpioLED.isLt
    rw [hlen]
    cases hv : gpioLED.toInt with
    | ofNat n =>
      have hn : (printNat n).length ≤ 3 ↔ n < 1000 := length_printNat_le_iff (by decide)
      rw [BitVec.toInt_eq_toNat_cond, Int.ofNat_eq_natCast] at hv
      simp only [printInt]
      split at hv <;> omega
    | negSucc n =>
      have hn : (printNat (n + 1)).length ≤ 2 ↔ n + 1 < 100 :=
        length_printNat_le_iff (by decide)
      rw [BitVec.toInt_eq_toNat_cond] at hv
      simp only [printInt, List.length_cons]
      split at hv <;> omega
  · intro gpio h
    have hprint := List.append_cancel_left (List.append_cancel_right h)
    exact BitVec.eq_of_toInt_eq (printInt_injective hprint)

/-- The load gets the pin it asks for. -/
def Granted (o : LoadOutcomes) (gpioLED : Nat) (k : Registry) : Prop :=
  o.gpioRequest = true ∧ gpioLED ∉ k.gpios

/-- The load gets the pin exported, by whomever it is requested. -/
def Exported (o : LoadOutcomes) (gpioLED : Nat) (k : Registry) : Prop :=
  o.gpioExport = true ∧ (gpioLED ∈ k.gpios ∨ o.gpioRequest = true) ∧ gpioLED ∉ k.exported

instance (o : LoadOutcomes) (gpioLED : Nat) (k : Registry) : Decidable (Granted o gpioLED k) :=
  inferInstanceAs (Decidable (_ ∧ _))

instance (o : LoadOutcomes) (gpioLED : Nat) (k : Registry) : Decidable (Exported o gpioLED k) :=
  inferInstanceAs (Decidable (_ ∧ _ ∧ _))

/-- A pin is added to a list or not, and one is taken out: the list is the same exactly when the
same pin was added and taken out, or neither. -/
theorem erase_insert_eq_iff {l : List Nat} {g g' : Nat} {P : Prop} [Decidable P]
    (hP : P → g ∉ l) : (if P then g :: l else l).erase g' = l ↔ P ∧ g' = g ∨ ¬P ∧ g' ∉ l := by
  by_cases h : P
  · simp only [h, ite_true, true_and, not_true, false_and, or_false]
    constructor
    · intro he
      by_contra hne
      have htail : ¬(g == g') = true := fun hb => hne (beq_iff_eq.mp hb).symm
      rw [List.erase_cons_tail htail] at he
      exact hP h (he ▸ List.mem_cons_self)
    · rintro rfl
      rw [List.erase_cons_head]
  · simp only [h, ite_false, false_and, not_false_eq_true, true_and, false_or]
    exact List.erase_eq_self_iff

/-- A request adds the pin when it is granted, and changes nothing otherwise. -/
theorem gpioRequest_eq (gpio : Nat) (ok : Bool) (k : Registry) : gpioRequest gpio ok k =
    if ok = true ∧ gpio ∉ k.gpios then { k with gpios := gpio :: k.gpios } else k := by
  cases ok with
  | false => simp [gpioRequest]
  | true => by_cases h : gpio ∈ k.gpios <;> simp [gpioRequest, requestGpio, h]

/-- The pin as `ebbLED_init` sets it up, as far as it can. -/
def withPin (o : LoadOutcomes) (g : Nat) (k : Registry) : Registry :=
  gpioExport g o.gpioExport (gpioRequest g o.gpioRequest k)

/-- The pin is requested exactly if the load gets it. -/
theorem withPin_gpios (o : LoadOutcomes) (g : Nat) (k : Registry) :
    (withPin o g k).gpios = if Granted o g k then g :: k.gpios else k.gpios := by
  have hexport : (withPin o g k).gpios = (gpioRequest g o.gpioRequest k).gpios := by
    rw [withPin, gpioExport]
    split <;> rfl
  rw [hexport, gpioRequest_eq]
  by_cases h : Granted o g k
  · rw [if_pos h, if_pos (show o.gpioRequest = true ∧ g ∉ k.gpios from h)]
  · rw [if_neg h, if_neg (show ¬(o.gpioRequest = true ∧ g ∉ k.gpios) from h)]

/-- The pin is exported exactly if the load gets it exported. -/
theorem withPin_exported (o : LoadOutcomes) (g : Nat) (k : Registry) :
    (withPin o g k).exported = if Exported o g k then g :: k.exported else k.exported := by
  have hrequest : (gpioRequest g o.gpioRequest k).exported = k.exported := by
    rw [gpioRequest_eq]
    split <;> rfl
  have hmem : g ∈ (gpioRequest g o.gpioRequest k).gpios ↔ g ∈ k.gpios ∨ o.gpioRequest = true := by
    rw [gpioRequest_eq]
    split
    · next h => simp [h.1]
    · next h => exact ⟨Or.inl, fun hor => hor.elim id fun hr => by_contra fun hg => h ⟨hr, hg⟩⟩
  simp only [withPin, gpioExport, hrequest, hmem]
  by_cases h : Exported o g k
  · rw [if_pos h, if_pos (show o.gpioExport = true ∧ _ ∧ g ∉ k.exported from h)]
  · rw [if_neg h, if_neg (show ¬(o.gpioExport = true ∧ _ ∧ g ∉ k.exported) from h), hrequest]

/-- How a load ends. Only where the thread does not start does a failure leave anything. -/
inductive LoadEnds (o : LoadOutcomes) (g : Nat) (k : Registry) : Int × Registry → Prop
  | noDirectory : ¬(o.kobjectCreate = true ∧ k.ebb = false) → LoadEnds o g k (-ENOMEM, k)
  | noGroup {errno} : o.kobjectCreate = true → k.ebb = false → o.createGroup = some errno →
    LoadEnds o g k (errorCode errno, k)
  | noThread {errno} : o.kobjectCreate = true → k.ebb = false → o.createGroup = none →
    o.kthreadRun = some errno → LoadEnds o g k (errorCode errno, withPin o g { k with ebb := true })
  | loaded : o.kobjectCreate = true → k.ebb = false → o.createGroup = none →
    o.kthreadRun = none →
    LoadEnds o g k (0, { withPin o g { k with ebb := true } with thread := true })

/-- A load ends at its first failure that is looked at, or succeeds. -/
theorem ebbLEDInit_ends (o : LoadOutcomes) (g : Nat) (k : Registry) :
    LoadEnds o g k (ebbLEDInit o g k) := by
  by_cases hok : o.kobjectCreate = true ∧ k.ebb = false
  · have hput : kobjectPut { k with ebb := true } = k := by
      obtain ⟨ebb, gpios, exported, thread⟩ := k
      obtain rfl : ebb = false := hok.2
      rfl
    simp only [ebbLEDInit, kobjectCreateAndAdd, if_pos hok, ite_true]
    cases hgroup : o.createGroup with
    | some errno =>
      simp only [hput]
      exact .noGroup hok.1 hok.2 hgroup
    | none =>
      cases hthread : o.kthreadRun with
      | some errno => exact .noThread hok.1 hok.2 hgroup hthread
      | none => exact .loaded hok.1 hok.2 hgroup hthread
  · simp only [ebbLEDInit, kobjectCreateAndAdd, if_neg hok]
    exact .noDirectory hok

/-- The module parameter, and the kernel as the driver changes it. -/
structure Machine where
  loaded : Bool
  gpioLED : Nat
  registry : Registry
  deriving DecidableEq, Repr

/-- What is done with the module and its parameter. -/
inductive Event where
  | load (o : LoadOutcomes) (gpioLED : Nat)
  | setGpioLED (gpio : Nat)
  | unload
  deriving DecidableEq, Repr

/-- Only a module that is not loaded is loaded; its parameter can be written while it is. -/
def moduleStep (m : Machine) : Event → Option Machine
  | .load o gpioLED =>
    if m.loaded then none
    else
      let r := ebbLEDInit o gpioLED m.registry
      some ⟨decide (0 ≤ r.1), gpioLED, r.2⟩
  | .setGpioLED gpio => if m.loaded then some { m with gpioLED := gpio } else none
  | .unload =>
    if m.loaded then some ⟨false, m.gpioLED, ebbLEDExit m.gpioLED m.registry⟩ else none

/-- A load that gets as far as the thread and cannot start it. -/
def Event.LeavesBehind : Event → Prop
  | .load o _ => o.kobjectCreate = true ∧ o.createGroup = none ∧ o.kthreadRun ≠ none
  | _ => False

/-- Whether the directory is there, and whether it is the one of a module that is gone. -/
inductive Standing (m : Machine) (stuck : Prop) : Prop
  | clear : ¬stuck → m.registry.ebb = m.loaded → Standing m stuck
  | stuck : stuck → m.loaded = false → m.registry.ebb = true → Standing m stuck

/-- Setting up the pin leaves the directory alone. -/
theorem withPin_ebb (o : LoadOutcomes) (g : Nat) (k : Registry) : (withPin o g k).ebb = k.ebb := by
  simp only [withPin, gpioExport, gpioRequest]
  split <;> split <;> rfl

/-- A load that answers an error does not leave the module loaded. -/
theorem errorCode_not_loaded (errno : Nat) : decide (0 ≤ errorCode errno) = false :=
  decide_eq_false (Int.not_le.mpr (Int.negSucc_lt_zero errno))

/-- The directory of a module that is gone stays, and no other comes. -/
theorem moduleStep_standing {m m' : Machine} {e : Event} {stuck : Prop}
    (hs : moduleStep m e = some m') (h : Standing m stuck) :
    Standing m' (stuck ∨ e.LeavesBehind) := by
  cases e with
  | load o g =>
    simp only [moduleStep, Option.ite_none_left_eq_some] at hs
    obtain ⟨hidle, hs⟩ := hs
    cases hs
    have hidle : m.loaded = false := by simpa using hidle
    have hends := ebbLEDInit_ends o g m.registry
    generalize ebbLEDInit o g m.registry = r at hends
    cases h with
    | stuck hstuck _ hebb =>
      cases hends with
      | noDirectory => exact .stuck (Or.inl hstuck) rfl hebb
      | noGroup _ hfree | noThread _ hfree | loaded _ hfree => simp [hebb] at hfree
    | clear hclear hebb =>
      rw [hidle] at hebb
      have hnot : ¬(Event.load o g).LeavesBehind → ¬(stuck ∨ (Event.load o g).LeavesBehind) :=
        fun h1 h2 => h2.elim hclear h1
      cases hends with
      | noDirectory hno =>
        exact .clear (hnot fun h => hno ⟨h.1, hebb⟩) hebb
      | @noGroup errno _ _ hgroup =>
        refine .clear (hnot fun h => absurd (hgroup.symm.trans h.2.1) (by simp)) ?_
        exact hebb.trans (errorCode_not_loaded errno).symm
      | @noThread errno hcreate _ hgroup hthread =>
        refine .stuck (Or.inr ⟨hcreate, hgroup, by simp [hthread]⟩) (errorCode_not_loaded errno) ?_
        rw [withPin_ebb]
      | loaded _ _ _ hthread =>
        refine .clear (hnot fun h => h.2.2 hthread) ?_
        exact withPin_ebb o g _
  | setGpioLED gpio =>
    simp only [moduleStep, Option.ite_none_right_eq_some] at hs
    obtain ⟨_, hs⟩ := hs
    cases hs
    cases h with
    | clear h1 h2 => exact .clear (fun h => h.elim h1 id) h2
    | stuck h1 h2 h3 => exact .stuck (Or.inl h1) h2 h3
  | unload =>
    simp only [moduleStep, Option.ite_none_right_eq_some] at hs
    obtain ⟨hloaded, hs⟩ := hs
    cases hs
    cases h with
    | clear h1 h2 => exact .clear (fun h => h.elim h1 id) rfl
    | stuck h1 h2 h3 => exact absurd (hloaded.symm.trans h2) (by decide)

/-- How the directory stands after a run depends on whether a thread failed to start in it. -/
theorem run_standing {m m' : Machine} {es : List Event} (hr : Run moduleStep m es m')
    (h0 : m.loaded = false ∧ m.registry.ebb = false) :
    Standing m' (∃ e ∈ es, e.LeavesBehind) := by
  induction hr with
  | nil => exact .clear (by simp) (h0.2.trans h0.1.symm)
  | snoc _ hs ih =>
    simp only [List.mem_append, List.mem_singleton, or_and_right, exists_or, exists_eq_left]
    exact moduleStep_standing hs ih

/-- In every run from a kernel without the directory, the module is loaded only as long as no
thread failed to start. Once one did, the directory stays for good, and with it every later
load is refused. -/
theorem ebbLED_thread_failure_sticks {m m' : Machine} {es : List Event}
    (hr : Run moduleStep m es m') (h0 : m.loaded = false ∧ m.registry.ebb = false) :
    ((∃ e ∈ es, e.LeavesBehind) → m'.loaded = false ∧ m'.registry.ebb = true ∧
        ∀ o g, ebbLEDInit o g m'.registry = (-ENOMEM, m'.registry)) ∧
      ((∀ e ∈ es, ¬e.LeavesBehind) → m'.registry.ebb = m'.loaded) := by
  cases run_standing hr h0 with
  | clear hclear hebb => exact ⟨fun h => absurd h hclear, fun _ => hebb⟩
  | stuck hstuck hidle hebb =>
    refine ⟨fun _ => ⟨hidle, hebb, fun o g => ?_⟩, fun hnone => ?_⟩
    · have hends := ebbLEDInit_ends o g m'.registry
      generalize ebbLEDInit o g m'.registry = r at hends
      cases hends with
      | noDirectory => rfl
      | noGroup _ hfree | noThread _ hfree | loaded _ hfree => simp [hebb] at hfree
    · obtain ⟨e, he, hleaves⟩ := hstuck
      exact absurd hleaves (hnone e he)

/-- After a load whose thread failed, a load with nothing in its way is refused. -/
theorem ebbLED_thread_failure_sticks_twice :
    ∃ m, Run moduleStep ⟨false, 16, ⟨false, [], [], false⟩⟩
      [.load ⟨true, none, true, true, some 11⟩ 16, .load ⟨true, none, true, true, none⟩ 16] m ∧
      m.loaded = false ∧ m.registry.ebb = true := by
  obtain ⟨m, hrun⟩ := run_of_isSome (show (exec moduleStep ⟨false, 16, ⟨false, [], [], false⟩⟩
    [.load ⟨true, none, true, true, some 11⟩ 16,
      .load ⟨true, none, true, true, none⟩ 16]).isSome = true by decide)
  have hstuck := (ebbLED_thread_failure_sticks hrun ⟨rfl, rfl⟩).1
    ⟨_, List.mem_cons_self, rfl, rfl, by simp⟩
  exact ⟨m, hrun, hstuck.1, hstuck.2.1⟩

end OsCourseLabs.Gpio.Led
