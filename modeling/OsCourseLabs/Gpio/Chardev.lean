import OsCourseLabs.Core.Nested
import OsCourseLabs.Core.Transition
import OsCourseLabs.Gpio.Kernel
import Mathlib.Data.List.Nodup

/-!
# The skeleton of a character device

`chardev` asks the kernel for the same things as the GPIO driver, for one number and in the
same order, and every way its init can fail gives back what it had. Its exit gives back the
rest, the cdev included.
-/

namespace OsCourseLabs.Gpio.Chardev

open Ledger Transition

/-- The name of the class, in which the one node of the module is. -/
def DEVICE_NAME : String := "foo_bar"

/-- The minor number asked for; the major is the kernel's choice. -/
def CHARDEV_MINOR : Nat := 19

/-- How many numbers are asked for. -/
def CHARDEV_MINOR_NUM : Nat := 1

/-- The number resolves to the cdev no more. -/
def cdevDel (a dev : Nat) (k : Kernel) : Kernel :=
  { k with
    reg := { k.reg with cdevs := k.reg.cdevs.erase (dev, a) }
    ledger := k.ledger ++ [.release (.cdev dev a)] }

/-- What the kernel answers to the calls of one load: the major number it offers, and pointers
that may be error pointers but not null. -/
structure LoadOutcomes where
  major : Option Nat
  classOk : Bool
  deviceOk : Bool
  cdevAdd : Option Nat
  errno : Nat
  deriving DecidableEq, Repr

/-- What `class_create` and `device_create` answer when they succeed or fail. -/
def ptr (ok : Bool) : Ptr := if ok then .valid else .err

/-- The static variables `first` and `cd_class`; `c_dev` is at a fixed address. -/
structure Vars where
  first : Nat
  cdClass : Ptr
  deriving DecidableEq, Repr

/-- `chardev_init`: every failure undoes the calls before it, the newest first. -/
def chardevInit (cDev : Nat) (o : LoadOutcomes) (k : Kernel) : Except Int Vars × Kernel :=
  match allocChrdevRegion (o.major.map fun ma => mkdev ma CHARDEV_MINOR) CHARDEV_MINOR_NUM k with
  | (none, k) => (.error (errorCode o.errno), k)
  | (some first, k) =>
    match classCreate DEVICE_NAME (ptr o.classOk) k with
    | (.err, k) => (.error (errorCode o.errno), unregisterChrdevRegion first 1 k)
    | (cdClass, k) =>
      match deviceCreate DEVICE_NAME cdClass first (ptr o.deviceOk) k with
      | (.err, k) =>
        (.error (errorCode o.errno),
          unregisterChrdevRegion first 1 (classDestroy DEVICE_NAME cdClass k))
      | (_, k) =>
        match cdevAdd cDev first (match o.cdevAdd with | some e => errorCode e | none => 0) k with
        | (ret, k) =>
          if ret < 0 then
            (.error ret,
              unregisterChrdevRegion first 1 (classDestroy DEVICE_NAME cdClass
                (deviceDestroy DEVICE_NAME cdClass first k)))
          else (.ok ⟨first, cdClass⟩, k)

/-- `chardev_exit`: the calls of the init undone in the reverse order. -/
def chardevExit (cDev : Nat) (v : Vars) (k : Kernel) : Kernel :=
  unregisterChrdevRegion v.first 1 (classDestroy DEVICE_NAME v.cdClass
    (deviceDestroy DEVICE_NAME v.cdClass v.first (cdevDel cDev v.first k)))

/-- The module while it is loaded, and the kernel. -/
structure Machine where
  vars : Option Vars
  kernel : Kernel

/-- What is done with the module. -/
inductive Event where
  | load (o : LoadOutcomes)
  | unload
  deriving DecidableEq, Repr

/-- Only a module that is not loaded is loaded, and only a loaded one is unloaded. -/
def step (cDev : Nat) (m : Machine) : Event → Option Machine
  | .load o =>
    match m.vars with
    | some _ => none
    | none =>
      let (ret, k) := chardevInit cDev o m.kernel
      some ⟨ret.toOption, k⟩
  | .unload =>
    match m.vars with
    | some v => some ⟨none, chardevExit cDev v m.kernel⟩
    | none => none

/-- The registries with what a loaded module has in them. -/
def published (cDev : Nat) (v : Vars) (reg : Registries) : Registries :=
  { reg with
    regions := (v.first, 1) :: reg.regions
    classes := DEVICE_NAME :: reg.classes
    cdevs := (v.first, cDev) :: reg.cdevs
    nodes := (DEVICE_NAME, v.first) :: reg.nodes }

/-- What a loaded module holds, newest first. -/
def holdings (cDev : Nat) (v : Vars) : List Resource :=
  [.cdev v.first cDev, .node v.first, .cls DEVICE_NAME, .region v.first 1]

/-- The entries that taking these things makes. -/
def taken (rs : List Resource) : List (Op Resource) := rs.map .acquire

/-- The entries that giving them back in the reverse order makes. -/
def given (rs : List Resource) : List (Op Resource) := rs.reverse.map .release

/-- How a load ends: it takes some things and gives them back, or it keeps everything. -/
inductive LoadEnds (cDev : Nat) (k : Kernel) : Except Int Vars × Kernel → Prop
  | failed {errno : Nat} {rs : List Resource} {answers : List Answer} : rs.Nodup →
    LoadEnds cDev k (.error (errorCode errno),
      { k with ledger := k.ledger ++ (taken rs ++ given rs), answers := answers })
  | loaded {first : Nat} {answers : List Answer} : LoadEnds cDev k (.ok ⟨first, .valid⟩,
      { k with
        reg := published cDev ⟨first, .valid⟩ k.reg
        ledger := k.ledger ++ taken (holdings cDev ⟨first, .valid⟩).reverse
        answers := answers })

/-- A range of numbers is refused, or it is reserved at some first number. -/
theorem allocChrdevRegion_cases (offer : Option Nat) (count : Nat) (k : Kernel) :
    allocChrdevRegion offer count k = (none, k.answer .allocChrdevRegion false) ∨
      ∃ first, allocChrdevRegion offer count k =
        (some first, Kernel.answer .allocChrdevRegion true { k with
          reg := { k.reg with regions := (first, count) :: k.reg.regions }
          ledger := k.ledger ++ [.acquire (.region first count)] }) := by
  cases offer with
  | none => exact Or.inl rfl
  | some first =>
    simp only [allocChrdevRegion]
    split
    · exact Or.inr ⟨first, rfl⟩
    · exact Or.inl rfl

/-- The class is refused by an error pointer, or it is there. -/
theorem classCreate_cases (ok : Bool) (k : Kernel) :
    classCreate DEVICE_NAME (ptr ok) k = (.err, k.answer .classCreate false) ∨
      classCreate DEVICE_NAME (ptr ok) k = (.valid, Kernel.answer .classCreate true { k with
        reg := { k.reg with classes := DEVICE_NAME :: k.reg.classes }
        ledger := k.ledger ++ [.acquire (.cls DEVICE_NAME)] }) := by
  cases ok with
  | false => exact Or.inl rfl
  | true =>
    simp only [classCreate, ptr, ite_true]
    split
    · exact Or.inl rfl
    · exact Or.inr rfl

/-- In a valid class the node is refused by an error pointer, or it is there. -/
theorem deviceCreate_cases (dev : Nat) (ok : Bool) (k : Kernel) :
    deviceCreate DEVICE_NAME .valid dev (ptr ok) k =
        (.err, k.answer (.deviceCreate dev) false) ∨
      deviceCreate DEVICE_NAME .valid dev (ptr ok) k =
        (.valid, Kernel.answer (.deviceCreate dev) true { k with
          reg := { k.reg with nodes := (DEVICE_NAME, dev) :: k.reg.nodes }
          ledger := k.ledger ++ [.acquire (.node dev)] }) := by
  cases ok with
  | false => exact Or.inl rfl
  | true =>
    simp only [deviceCreate, ptr, ite_true]
    split
    · exact Or.inr rfl
    · exact Or.inl rfl

/-- Each call of a load is refused, and what came before it is given back, or granted. -/
theorem chardevInit_ends (cDev : Nat) (o : LoadOutcomes) (k : Kernel) :
    LoadEnds cDev k (chardevInit cDev o k) := by
  have hfail : ∀ {errno : Nat} {r : List Resource} {k' : Kernel}, r.Nodup →
      k' = { k with ledger := k.ledger ++ (taken r ++ given r), answers := k'.answers } →
      LoadEnds cDev k (.error (errorCode errno), k') := by
    intro errno r k' hn he
    rw [he]
    exact .failed hn
  rw [chardevInit]
  rcases allocChrdevRegion_cases (o.major.map fun ma => mkdev ma CHARDEV_MINOR) CHARDEV_MINOR_NUM k
    with hregion | ⟨first, hregion⟩
  · rw [hregion]
    exact hfail (r := []) List.nodup_nil (by simp [taken, given, Kernel.answer])
  · rw [hregion]
    simp only
    generalize hk : Kernel.answer _ _ _ = k1
    rcases classCreate_cases o.classOk k1 with hclass | hclass
    · rw [hclass]
      refine hfail (r := [.region first 1]) (by simp) ?_
      simp [← hk, unregisterChrdevRegion, CHARDEV_MINOR_NUM, taken, given, Kernel.answer]
    · rw [hclass]
      simp only
      generalize hk2 : Kernel.answer _ _ _ = k2
      rcases deviceCreate_cases first o.deviceOk k2 with hnode | hnode
      · rw [hnode]
        refine hfail (r := [.region first 1, .cls DEVICE_NAME]) (by simp) ?_
        simp [← hk2, ← hk, unregisterChrdevRegion, classDestroy, CHARDEV_MINOR_NUM, taken, given,
          Kernel.answer]
      · rw [hnode]
        simp only
        cases hadd : o.cdevAdd with
        | some errno =>
          have hneg : errorCode errno < 0 := Int.negSucc_lt_zero errno
          have hne : errorCode errno ≠ 0 := by omega
          simp only [cdevAdd, if_neg hne, if_pos hneg]
          refine hfail (r := [.region first 1, .cls DEVICE_NAME, .node first]) (by simp) ?_
          simp [← hk2, ← hk, unregisterChrdevRegion, classDestroy, deviceDestroy, CHARDEV_MINOR_NUM,
            taken, given, Kernel.answer]
        | none =>
          simp only [cdevAdd, ite_true]
          rw [if_neg (by decide)]
          simpa [← hk2, ← hk, published, holdings, taken, CHARDEV_MINOR_NUM, Kernel.answer] using
            @LoadEnds.loaded cDev k first _

/-- The exit of a loaded module gives back what the load took. -/
theorem chardevExit_published (cDev first : Nat) (k : Kernel) (log : List (Op Resource))
    (answers : List Answer) :
    chardevExit cDev ⟨first, .valid⟩ { k with
        reg := published cDev ⟨first, .valid⟩ k.reg, ledger := log, answers := answers } =
      { k with
        ledger := log ++ given (holdings cDev ⟨first, .valid⟩).reverse, answers := answers } := by
  simp [chardevExit, cdevDel, deviceDestroy, classDestroy, unregisterChrdevRegion, published, given,
    holdings]

/-- The kernel as it was before the module came, with what a loaded module has in it. -/
inductive Restored (cDev : Nat) (k : Kernel) : Machine → Prop
  | unloaded {log answers} : stackAfter [] log = some [] →
    Restored cDev k ⟨none, { k with ledger := k.ledger ++ log, answers := answers }⟩
  | loaded {first log answers} : stackAfter [] log = some (holdings cDev ⟨first, .valid⟩) →
    Restored cDev k ⟨some ⟨first, .valid⟩, { k with
      reg := published cDev ⟨first, .valid⟩ k.reg
      ledger := k.ledger ++ log
      answers := answers }⟩

/-- A loaded module holds everything once. -/
theorem nodup_holdings (cDev : Nat) (v : Vars) : (holdings cDev v).Nodup := by simp [holdings]

/-- A load and an unload keep the balance, however the load ends. -/
theorem step_restored {cDev : Nat} {k : Kernel} {m m' : Machine} {e : Event}
    (hs : step cDev m e = some m') (h : Restored cDev k m) : Restored cDev k m' := by
  cases h with
  | @unloaded log answers hstack =>
    cases e with
    | unload => cases hs
    | load o =>
      simp only [step] at hs
      have hends := chardevInit_ends cDev o
        { k with ledger := k.ledger ++ log, answers := answers }
      generalize chardevInit cDev o _ = r at hs hends
      cases hends with
      | @failed errno r answers hn =>
        cases hs
        simp only [List.append_assoc]
        refine .unloaded ?_
        rw [stackAfter_append, hstack, Option.bind_some]
        exact stackAfter_unwound (by rwa [List.append_nil, List.nodup_reverse])
      | @loaded first answers =>
        cases hs
        simp only [List.append_assoc]
        refine .loaded ?_
        rw [stackAfter_append, hstack, Option.bind_some, taken, stackAfter_acquires]
        · simp
        · simpa using nodup_holdings cDev _
  | @loaded first log answers hstack =>
    cases e with
    | load o => cases hs
    | unload =>
      cases hs
      rw [chardevExit_published, List.append_assoc]
      refine .unloaded ?_
      rw [stackAfter_append, hstack, Option.bind_some, given, List.reverse_reverse]
      simpa using stackAfter_releases (holdings cDev ⟨first, .valid⟩) []

/-- However often the module is loaded and unloaded, and wherever its loads fail, it leaves the
registries of the kernel as it found them whenever it is not loaded, and a loaded one has added
one number, its class, its node and its cdev, which the number resolves to. What it takes it gives
back in the reverse order. -/
theorem chardev_restores {cDev : Nat} {k : Kernel} {m : Machine} {es : List Event}
    (hr : Run (step cDev) ⟨none, k⟩ es m) :
    (m.vars = none → m.kernel.reg = k.reg) ∧
      (∀ v, m.vars = some v → m.kernel.reg = published cDev v k.reg ∧
        m.kernel.resolve v.first = some cDev) ∧
      ∃ log, m.kernel.ledger = k.ledger ++ log ∧
        stackAfter [] log = some ((m.vars.map (holdings cDev)).getD []) := by
  have h0 : Restored cDev k ⟨none, k⟩ := by
    simpa using @Restored.unloaded cDev k [] k.answers rfl
  cases hr.invariant h0 fun _ _ _ hu hs => step_restored hs hu with
  | unloaded hstack => exact ⟨fun _ => rfl, (fun v hv => by cases hv), _, rfl, hstack⟩
  | loaded hstack =>
    refine ⟨(fun hv => by cases hv), fun v hv => ?_, _, rfl, hstack⟩
    cases hv
    exact ⟨rfl, by simp [Kernel.resolve, published]⟩

/-- A load whose cdev is refused, a load, and an unload. -/
theorem chardev_restores_twice :
    ∃ m, Run (step 7)
      ⟨none, ⟨⟨[], [], [], [], [], []⟩, fun _ => ⟨.low, .output⟩, fun _ => ⟨.input, .low⟩,
        [], [], []⟩⟩
      [.load ⟨some 240, true, true, some 15, 0⟩, .load ⟨some 240, true, true, none, 0⟩, .unload] m ∧
      m.kernel.reg = ⟨[], [], [], [], [], []⟩ := by
  obtain ⟨m, hrun, hm⟩ := run_of_observed (f := Machine.vars)
    (show (exec (step 7)
      ⟨none, ⟨⟨[], [], [], [], [], []⟩, fun _ => ⟨.low, .output⟩, fun _ => ⟨.input, .low⟩,
        [], [], []⟩⟩
      [.load ⟨some 240, true, true, some 15, 0⟩, .load ⟨some 240, true, true, none, 0⟩,
        .unload]).map _ = some none from rfl)
  exact ⟨m, hrun, (chardev_restores hrun).1 hm⟩

end OsCourseLabs.Gpio.Chardev
