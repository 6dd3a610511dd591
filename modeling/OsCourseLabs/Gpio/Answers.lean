import OsCourseLabs.Gpio.Init
import Mathlib.Tactic.MkIffOfInductiveProp

/-!
# The answers that a load gets

The kernel calls record their answers, so a load leaves behind what it asked for and got, up to
the call that ended it. For one pin the record tells whether a call failed and which device
numbers were handed out; the loop appends the records of its pins.
-/

namespace OsCourseLabs.Gpio

/-- The device number that a call is handed. -/
def LoadCall.number : LoadCall → Option Nat
  | .cdevAdd dev | .deviceCreate dev => some dev
  | _ => none

/-- The device numbers handed out, in order. -/
def numbers (as : List Answer) : List Nat := as.filterMap fun a => a.call.number

/-- Whether one of the calls failed. -/
def someFails (as : List Answer) : Bool := as.any fun a => !a.ok

/-- The answers to the calls of one load: the load has the record grow by them. -/
def loadAnswers (o : Outcomes) (s : Driver) : List Answer :=
  (gpioLkmInit o s).1.kernel.answers.drop s.kernel.answers.length

/-- Memory and GPIO of the pin are granted, so that its cdev is added. -/
def ReachesCdev (o : Outcomes) (k : Kernel) (i : Nat) : Prop :=
  o.kmalloc i = true ∧ 0 ≤ o.gpio i ∧ i ∉ k.reg.gpios

/-- `device_create` succeeds for the pin. -/
@[mk_iff]
structure NodeSucceeds (o : Outcomes) (s : Driver) (i : Nat) : Prop where
  device : o.device i = .valid
  cls : s.gpioLkmClass = .valid
  node : (DEVICE_NAME, nodeDev s.first i) ∉ s.kernel.reg.nodes

/-- The answers to the calls for one pin, by the call that is the last. -/
inductive PinAnswers (o : Outcomes) (i : Nat) (s : Driver) : List Answer → Prop
  | noMemory : o.kmalloc i ≠ true → PinAnswers o i s [⟨.kmalloc, false⟩]
  | noGpio : ¬ (0 ≤ o.gpio i ∧ i ∉ s.kernel.reg.gpios) →
    PinAnswers o i s [⟨.kmalloc, true⟩, ⟨.gpioRequestOne, false⟩]
  | noCdev : ReachesCdev o s.kernel i → o.cdev i ≠ 0 →
    PinAnswers o i s
      [⟨.kmalloc, true⟩, ⟨.gpioRequestOne, true⟩, ⟨.cdevAdd (s.first + i), false⟩]
  | published {ok : Bool} : ReachesCdev o s.kernel i → o.cdev i = 0 →
    (ok = true ↔ NodeSucceeds o s i) →
    PinAnswers o i s [⟨.kmalloc, true⟩, ⟨.gpioRequestOne, true⟩, ⟨.cdevAdd (s.first + i), true⟩,
      ⟨.deviceCreate (nodeDev s.first i), ok⟩]

/-- Numbers are handed out in the order of the calls. -/
theorem numbers_append (as bs : List Answer) : numbers (as ++ bs) = numbers as ++ numbers bs :=
  List.filterMap_append

/-- A call fails in one part of the record or the other. -/
theorem someFails_append (as bs : List Answer) :
    someFails (as ++ bs) = (someFails as || someFails bs) :=
  List.any_append

/-- A load is answered what its record has grown by. -/
theorem loadAnswers_eq {o : Outcomes} {s : Driver} {as : List Answer}
    (h : (gpioLkmInit o s).1.kernel.answers = s.kernel.answers ++ as) : loadAnswers o s = as := by
  rw [loadAnswers, h, List.drop_left]

/-- A pin hands out no number but its own, in one of its two spellings. -/
theorem PinAnswers.mem_numbers {o : Outcomes} {i n : Nat} {s : Driver} {as : List Answer}
    (h : PinAnswers o i s as) (hn : n ∈ numbers as) :
    n = s.first + i ∨ n = nodeDev s.first i := by
  cases h <;> simp_all [numbers, LoadCall.number]

/-- A pin that gets as far as its cdev hands out its number. -/
theorem PinAnswers.number_mem {o : Outcomes} {i : Nat} {s : Driver} {as : List Answer}
    (h : PinAnswers o i s as) (hr : ReachesCdev o s.kernel i) : s.first + i ∈ numbers as := by
  cases h with
  | noMemory hm => exact absurd hr.1 hm
  | noGpio hg => exact absurd hr.2 hg
  | noCdev | published => simp [numbers, LoadCall.number]

/-- A pin that does not get as far as its cdev hands out nothing. -/
theorem PinAnswers.numbers_eq_nil {o : Outcomes} {i : Nat} {s : Driver} {as : List Answer}
    (h : PinAnswers o i s as) (hr : ¬ ReachesCdev o s.kernel i) : numbers as = [] := by
  cases h with
  | noMemory | noGpio => rfl
  | noCdev hc | published hc => exact absurd hc hr

/-- No call for a pin fails exactly when the checked calls and `device_create` succeed. -/
theorem PinAnswers.someFails_eq_false_iff {o : Outcomes} {i : Nat} {s : Driver}
    {as : List Answer} (h : PinAnswers o i s as) :
    someFails as = false ↔ PinSucceeds o s.kernel i ∧ NodeSucceeds o s i := by
  cases h with
  | noMemory hm => exact iff_of_false (by simp [someFails]) fun h => hm h.1.kmalloc
  | noGpio hg =>
    exact iff_of_false (by simp [someFails]) fun h => hg ⟨h.1.gpio, h.1.unheld⟩
  | noCdev _ hc => exact iff_of_false (by simp [someFails]) fun h => hc h.1.cdev
  | @published ok hr hc hok =>
    have hfails : someFails [⟨.kmalloc, true⟩, ⟨.gpioRequestOne, true⟩,
        ⟨.cdevAdd (s.first + i), true⟩, ⟨.deviceCreate (nodeDev s.first i), ok⟩] = false ↔
        ok = true := by simp [someFails]
    rw [hfails, hok]
    constructor
    · intro hn
      exact ⟨⟨hr.1, hr.2.1, hr.2.2, hc, by simp [hn.device]⟩, hn⟩
    · exact And.right

/-- Destroying a class asks for nothing. -/
theorem classDestroy_answers (name : String) (cls : Ptr) (k : Kernel) :
    (classDestroy name cls k).answers = k.answers := by
  cases cls <;> rfl

/-- Destroying a node asks for nothing. -/
theorem deviceDestroy_answers (name : String) (cls : Ptr) (dev : Nat) (k : Kernel) :
    (deviceDestroy name cls dev k).answers = k.answers := by
  unfold deviceDestroy
  split <;> rfl

/-- Destroying all nodes asks for nothing. -/
theorem destroyNodes_answers (cls : Ptr) (first : Nat) (is : List Nat) (k : Kernel) :
    (destroyNodes cls first is k).answers = k.answers := by
  induction is generalizing k with
  | nil => rfl
  | cons i is ih =>
    rw [destroyNodes, ih]
    split
    · exact deviceDestroy_answers _ cls _ k
    · rfl

/-- Cleaning up asks the kernel for nothing that it may refuse. -/
theorem releaseClassAndRegion_answers (s : Driver) (k : Kernel) :
    (releaseClassAndRegion s k).kernel.answers = k.answers :=
  classDestroy_answers _ s.gpioLkmClass k

/-- `device_create` is recorded as a success exactly when it makes the node. -/
theorem deviceCreate_answers (name : String) (cls : Ptr) (dev : Nat) (outcome : Ptr)
    (k : Kernel) : ∃ ok, (deviceCreate name cls dev outcome k).2.answers =
        k.answers ++ [⟨.deviceCreate dev, ok⟩] ∧
      (ok = true ↔ outcome = .valid ∧ cls = .valid ∧ (name, dev) ∉ k.reg.nodes) := by
  cases outcome with
  | null | err => exact ⟨false, rfl, by simp⟩
  | valid =>
    by_cases h : cls = .valid ∧ (name, dev) ∉ k.reg.nodes
    · exact ⟨true, by simp [deviceCreate, h], by simp [h]⟩
    · exact ⟨false, by simp only [deviceCreate, if_neg h, Kernel.answer_answers], by simp_all⟩

/-- The calls that publish a pin: `device_create` follows when `cdev_add` succeeds. -/
theorem publishPin_answers (o : Outcomes) (i a : Nat) (s : Driver) :
    (o.cdev i ≠ 0 ∧ (publishPin o i a s).1.kernel.answers =
      s.kernel.answers ++ [⟨.cdevAdd (s.first + i), false⟩]) ∨
    (o.cdev i = 0 ∧ ∃ ok, (publishPin o i a s).1.kernel.answers = s.kernel.answers ++
        [⟨.cdevAdd (s.first + i), true⟩, ⟨.deviceCreate (nodeDev s.first i), ok⟩] ∧
      (ok = true ↔ NodeSucceeds o s i)) := by
  by_cases hc : o.cdev i = 0
  swap
  · refine Or.inl ⟨hc, ?_⟩
    simp only [publishPin, cdevAdd, hc, ite_false, ne_eq, not_false_eq_true, ite_true,
      releaseClassAndRegion_answers, destroyNodes_answers, Kernel.answer_answers]
  obtain ⟨ok, hans, hok⟩ := deviceCreate_answers DEVICE_NAME s.gpioLkmClass (nodeDev s.first i)
    (o.device i) (cdevAdd a (s.first + i) 0 s.kernel).2
  have h0 : (cdevAdd a (s.first + i) 0 s.kernel).1 = 0 := rfl
  have hadd : (cdevAdd a (s.first + i) 0 s.kernel).2.answers =
      s.kernel.answers ++ [⟨.cdevAdd (s.first + i), true⟩] := rfl
  refine Or.inr ⟨hc, ok, ?_, hok.trans (nodeSucceeds_iff o s i).symm⟩
  simp only [publishPin, hc, h0, ne_eq, not_true_eq_false, ite_false]
  rw [hadd, List.append_assoc] at hans
  split
  · rw [releaseClassAndRegion_answers]
    exact hans
  · exact hans

/-- The calls for one pin are answered in one of the four ways. -/
theorem initPin_answers (o : Outcomes) (i index : Nat) (s : Driver) :
    ∃ as, (initPin o i index s).1.kernel.answers = s.kernel.answers ++ as ∧
      PinAnswers o i s as := by
  by_cases hm : o.kmalloc i = true
  swap
  · exact ⟨_, by simp [initPin, kmalloc, hm], .noMemory hm⟩
  rcases gpioRequestOne_cases i (o.gpio i) (kmalloc o.mem true s.kernel).2 with
    ⟨hc, hi, hg⟩ | ⟨hn, r, hr, hg⟩
  · have hreach : ReachesCdev o s.kernel i := ⟨hm, hc, by simpa [kmalloc] using hi⟩
    simp only [initPin, kmalloc, hm, ite_true] at hg ⊢
    simp only [hg, Int.lt_irrefl, ite_false]
    generalize hu : Driver.mk _ _ _ _ _ = u
    have hans : u.kernel.answers =
        s.kernel.answers ++ [⟨.kmalloc, true⟩, ⟨.gpioRequestOne, true⟩] := by
      simp [← hu, Kernel.store]
    have hfirst : u.first = s.first := by rw [← hu]
    have hnode : NodeSucceeds o u i ↔ NodeSucceeds o s i := by
      simp [nodeSucceeds_iff, ← hu, Kernel.store]
    rcases publishPin_answers o i (o.mem.pick s.kernel.reg.records) u with
      ⟨hcd, hpub⟩ | ⟨hcd, ok, hpub, hok⟩
    · rw [hpub, hans, hfirst, List.append_assoc]
      exact ⟨_, rfl, .noCdev hreach hcd⟩
    · rw [hpub, hans, hfirst, List.append_assoc]
      exact ⟨_, rfl, .published hreach hcd (hok.trans hnode)⟩
  · simp only [kmalloc, ite_true] at hg
    refine ⟨_, ?_, .noGpio (by simpa [kmalloc] using hn)⟩
    simp [initPin, kmalloc, hm, hg, hr]

/-- `class_create` is recorded as a success exactly when it answers a valid pointer. -/
theorem classCreate_answers (name : String) (outcome : Ptr) (k : Kernel) :
    ∃ ok, (classCreate name outcome k).2.answers = k.answers ++ [⟨.classCreate, ok⟩] ∧
      (ok = true ↔ (classCreate name outcome k).1 = .valid) := by
  cases outcome with
  | null | err => exact ⟨false, rfl, by simp [classCreate]⟩
  | valid =>
    by_cases h : name ∈ k.reg.classes
    · exact ⟨false, by simp [classCreate, h], by simp [classCreate, h]⟩
    · exact ⟨true, by simp [classCreate, h], by simp [classCreate, h]⟩

/-- Two calls are answered before the pin loop, the first with success. -/
theorem loopStart_answers {o : Outcomes} {s : Driver} {first : Nat}
    (hf : s.kernel.rangeFree first USE_GPIOS_NUM = true) :
    ∃ ok, (loopStart o first s).kernel.answers =
        s.kernel.answers ++ [⟨.allocChrdevRegion, true⟩, ⟨.classCreate, ok⟩] ∧
      (ok = true ↔ (loopStart o first s).gpioLkmClass = .valid) := by
  obtain ⟨ok, hans, hok⟩ := classCreate_answers DEVICE_NAME o.cls
    (allocChrdevRegion (some first) USE_GPIOS_NUM s.kernel).2
  refine ⟨ok, hans.trans ?_, hok⟩
  simp only [allocChrdevRegion, hf, ite_true, Kernel.answer_answers, List.append_assoc]
  rfl

end OsCourseLabs.Gpio
