import OsCourseLabs.Gpio.Answers
import OsCourseLabs.Gpio.Loaded

/-!
# What a load that returns zero promises

`class_create` and `device_create` answer an error pointer when they fail, and
`gpio_lkm_init` compares their answers with NULL. A load is complete when it returns zero
only if the failures that it does not check for do not occur either.
-/

namespace OsCourseLabs.Gpio

/-- Whether a call made by `gpio_lkm_init` fails. -/
def callFails (o : Outcomes) (s : Driver) : Bool := someFails (loadAnswers o s)

/-- Entry `j` of the array of records stands for pin `i`, and everything for the pin is there. -/
structure CompleteEntry (s : Driver) (j i a : Nat) : Prop where
  devp : s.gpioLkmDevp j = some a
  live : a ∈ s.kernel.reg.records
  requested : i ∈ s.kernel.reg.gpios
  pin : s.kernel.pins i = ⟨.output, .low⟩
  cdev : s.kernel.resolve (s.first + i) = some a
  node : (DEVICE_NAME, nodeDev s.first i) ∈ s.kernel.reg.nodes
  dev : s.kernel.heap a = ⟨.low, .output⟩

/-- The class is valid and every entry of the array of records is complete. -/
structure CompleteLoad (s : Driver) : Prop where
  cls : s.gpioLkmClass = .valid
  registered : DEVICE_NAME ∈ s.kernel.reg.classes
  entries : ∀ j < USE_GPIOS_NUM, ∃ i a, gpios[j]? = some i ∧ CompleteEntry s j i a

/-- Every check that `gpio_lkm_init` makes passes. -/
structure ChecksPass (o : Outcomes) (k : Kernel) : Prop where
  region : RegionGranted o k
  cls : o.cls ≠ .null
  pins : ∀ i ∈ gpios, PinSucceeds o k i

/-- `class_create` and every `device_create` answer no error pointer. -/
structure NoErrorPointer (o : Outcomes) (k : Kernel) : Prop where
  cls : o.cls = .valid ∧ DEVICE_NAME ∉ k.reg.classes
  device : ∀ i ∈ gpios, o.device i = .valid
  node : ∀ first, o.region = some first → ∀ i ∈ gpios,
    (DEVICE_NAME, nodeDev first i) ∉ k.reg.nodes

/-- Different pins have different nodes when the first minor is zero. -/
theorem nodeDev_injective {first i j : Nat} (h0 : minor first = 0) (hi : i < 1 <<< MINORBITS)
    (hj : j < 1 <<< MINORBITS) (h : nodeDev first i = nodeDev first j) : i = j := by
  rw [nodeDev, nodeDev, mkdev_major_minor_add h0 hi, mkdev_major_minor_add h0 hj] at h
  exact Nat.add_left_cancel h

/-- A pin for which no call fails adds its node and no other. -/
theorem initPin_nodes {o : Outcomes} {i : Nat} {s : Driver} (hp : PinSucceeds o s.kernel i)
    (hn : NodeSucceeds o s i) (index : Nat) :
    (initPin o i index s).1.kernel.reg.nodes =
      (DEVICE_NAME, nodeDev s.first i) :: s.kernel.reg.nodes := by
  have hgpio : ¬ o.gpio i < 0 := Int.not_lt.mpr hp.gpio
  simp [initPin, kmalloc, hp.kmalloc, gpioRequestOne, requestGpio, hgpio, hp.unheld,
    gpioDirectionOutput, gpioConfigure, publishPin, cdevAdd, hp.cdev, deviceCreate, hn.device,
    hn.cls, hn.node, Kernel.store]

/-- No call of the loop fails exactly when none fails for any of its pins, and then the loop adds
the nodes of its pins. The induction carries that the nodes of the pins left are still free. -/
theorem initLoop_answers_iff {o : Outcomes} {is : List Nat} (index : Nat) {s : Driver}
    (hnodup : is.Nodup) (h0 : minor s.first = 0) (hbits : ∀ i ∈ is, i < 1 <<< MINORBITS) :
    ∃ as, (initLoop o is index s).1.kernel.answers = s.kernel.answers ++ as ∧
      (someFails as = false ↔
        ∀ i ∈ is.filter initGpio, PinSucceeds o s.kernel i ∧ NodeSucceeds o s i) ∧
      (someFails as = false → (initLoop o is index s).1.kernel.reg.nodes =
        ((is.filter initGpio).map fun i => (DEVICE_NAME, nodeDev s.first i)).reverse ++
          s.kernel.reg.nodes) := by
  induction is generalizing index s with
  | nil => exact ⟨[], (List.append_nil _).symm, by simp [someFails], fun _ => rfl⟩
  | cons i is ih =>
    have hni := List.nodup_cons.mp hnodup
    have hbi := List.forall_mem_cons.mp hbits
    by_cases hi : initGpio i = true
    swap
    · rw [initLoop_skip hi, List.filter_cons_of_neg hi]
      exact ih index hni.2 h0 hbi.2
    obtain ⟨as, hans, hpin⟩ := initPin_answers o i index s
    have hfail := hpin.someFails_eq_false_iff
    rcases initPin_cases o i index s with ⟨hp, t, a, he, hg⟩ | ⟨hp, r, _, he, _⟩
    swap
    · have hsome : ¬ someFails as = false := fun h => hp (hfail.mp h).1
      rw [initLoop_stop hi he, List.filter_cons_of_pos hi, List.forall_mem_cons]
      exact ⟨as, hans, iff_of_false hsome fun h => hp h.1.1, fun h => absurd h hsome⟩
    obtain ⟨bs, hbs, hiff, hnodes⟩ := ih (index + 1) hni.2 (hg.first ▸ h0) hbi.2
    have hnode : NodeSucceeds o s i →
        t.kernel.reg.nodes = (DEVICE_NAME, nodeDev s.first i) :: s.kernel.reg.nodes := by
      intro hn
      have hnew := initPin_nodes hp hn index
      rwa [he] at hnew
    rw [he] at hans
    rw [initLoop_next hi he, List.filter_cons_of_pos hi, List.forall_mem_cons]
    refine ⟨as ++ bs, by rw [hbs, hans, List.append_assoc], ?_, ?_⟩ <;>
      rw [someFails_append, Bool.or_eq_false_iff, hfail]
    · apply and_congr_right
      rintro ⟨-, hn⟩
      refine hiff.trans (forall₂_congr fun j hj => ?_)
      have hmem := (List.mem_filter.mp hj).1
      have hne : j ≠ i := fun hji => hni.1 (hji ▸ hmem)
      have hdev : nodeDev s.first j ≠ nodeDev s.first i :=
        fun hd => hne (nodeDev_injective h0 (hbi.2 j hmem) hbi.1 hd)
      rw [hg.pinSucceeds_iff hne, nodeSucceeds_iff, nodeSucceeds_iff, hnode hn, hg.first, hg.cls]
      simp [hdev]
    · rintro ⟨⟨-, hn⟩, hb⟩
      simp only [hnodes hb, hnode hn, hg.first, List.map_cons, List.reverse_cons, List.append_assoc,
        List.cons_append, List.nil_append]

/-- The load returns zero exactly when its checks pass. -/
theorem gpioLkmInit_eq_zero_iff (o : Outcomes) (s : Driver) :
    (gpioLkmInit o s).2 = 0 ↔ ChecksPass o s.kernel := by
  rcases gpioLkmInit_cases o s with ⟨hr, he⟩ | ⟨_, hc, he, _⟩ | ⟨hr, hc, t, ht, he⟩
  · rw [he]
    exact iff_of_false (by simp) fun h => hr h.region
  · rw [he]
    exact iff_of_false (by simp [EINVAL]) fun h => h.cls hc
  · have hpins : (∀ i ∈ gpios, PinSucceeds o t.kernel i) ↔
        ∀ i ∈ gpios, PinSucceeds o s.kernel i :=
      forall₂_congr fun i _ => ht.pinSucceeds_iff i
    rw [he]
    rcases initLoop_cases o (List.range (MAX_GPIO_NUMBER + 1)) List.nodup_range 0 t with
      ⟨hall, u, as, hu, -⟩ | ⟨hall, hne, _⟩
    · rw [hu]
      exact iff_of_true rfl ⟨hr, hc, hpins.mp hall⟩
    · exact iff_of_false hne fun h => hall (hpins.mpr h.pins)

/-- A pin that makes the load fail makes it return a negative value. -/
theorem initPin_negative {o : Outcomes} {i : Nat} (hc : o.cdev i ≤ 0) (index : Nat)
    (s : Driver) (r : Int) (h : (initPin o i index s).2 = some r) : r < 0 := by
  by_cases hm : o.kmalloc i = true
  swap
  · simp only [initPin, kmalloc, hm, Bool.false_eq_true, ite_false, Option.some.injEq] at h
    exact h ▸ by decide
  rcases gpioRequestOne_cases i (o.gpio i) (kmalloc o.mem true s.kernel).2 with
    ⟨_, _, hg⟩ | ⟨_, q, hq, hg⟩
  · simp only [initPin, kmalloc, hm, ite_true] at hg h
    simp only [hg, Int.lt_irrefl, ite_false, publishPin] at h
    split at h
    · rename_i hne
      cases h
      simp only [cdevAdd] at hne ⊢
      split at hne
      · exact absurd rfl hne
      · rename_i h0
        rw [if_neg h0]
        omega
    · split at h
      · cases h
        decide
      · cases h
  · simp only [initPin, kmalloc, hm, ite_true] at hg h
    simp only [hg, hq, ite_true, Option.some.injEq] at h
    exact h ▸ by decide

theorem initLoop_nonpos {o : Outcomes} (hc : ∀ i, o.cdev i ≤ 0) (is : List Nat) (index : Nat)
    (s : Driver) : (initLoop o is index s).2 ≤ 0 := by
  induction is generalizing index s with
  | nil => exact Int.le_refl 0
  | cons i is ih =>
    rw [initLoop]
    split
    · have hneg := initPin_negative (hc i) index s
      generalize initPin o i index s = res at hneg
      obtain ⟨t, _ | r⟩ := res
      · exact ih (index + 1) t
      · exact Int.le_of_lt (hneg r rfl)
    · exact ih index s

/-- A load never returns a positive value. -/
theorem gpioLkmInit_nonpos {o : Outcomes} (hc : ∀ i, o.cdev i ≤ 0) (s : Driver) :
    (gpioLkmInit o s).2 ≤ 0 := by
  rcases gpioLkmInit_cases o s with ⟨_, he⟩ | ⟨_, _, he, _⟩ | ⟨_, _, t, _, he⟩
  · rw [he]
    exact Int.negSucc_le_zero 0
  · rw [he]
    decide
  · rw [he]
    exact initLoop_nonpos hc _ 0 t

theorem classCreate_valid_iff (name : String) (outcome : Ptr) (k : Kernel) :
    (classCreate name outcome k).1 = .valid ↔ outcome = .valid ∧ name ∉ k.reg.classes := by
  cases outcome <;> simp only [classCreate, reduceCtorEq, false_and, true_and]
  split
  · rename_i h
    exact iff_of_false (by simp) fun hn => hn h
  · rename_i h
    exact iff_of_true rfl h

/-- What the loop starts from, as far as the class and the nodes are concerned. -/
theorem loopStart_class {o : Outcomes} {s : Driver} {first : Nat}
    (hf : s.kernel.rangeFree first USE_GPIOS_NUM = true) :
    ((loopStart o first s).gpioLkmClass = .valid ↔
      o.cls = .valid ∧ DEVICE_NAME ∉ s.kernel.reg.classes) ∧
    ((loopStart o first s).gpioLkmClass = .valid →
      DEVICE_NAME ∈ (loopStart o first s).kernel.reg.classes) ∧
    (loopStart o first s).kernel.reg.nodes = s.kernel.reg.nodes := by
  have hvalid := classCreate_valid_iff DEVICE_NAME o.cls
    (allocChrdevRegion (some first) USE_GPIOS_NUM s.kernel).2
  have hclasses : (allocChrdevRegion (some first) USE_GPIOS_NUM s.kernel).2.reg.classes =
      s.kernel.reg.classes := by simp only [allocChrdevRegion, hf, ite_true, Kernel.answer_reg]
  rw [hclasses] at hvalid
  refine ⟨hvalid, fun hc => ?_, ?_⟩
  · obtain ⟨ho, hn⟩ := hvalid.mp hc
    simp only [loopStart, ho, classCreate, hclasses, hn, ite_false, Kernel.answer_reg,
      List.mem_cons, true_or]
  · obtain ⟨p, classes, ledger, answers, _, he⟩ := classCreate_frame DEVICE_NAME o.cls
      (allocChrdevRegion (some first) USE_GPIOS_NUM s.kernel).2
    simp only [loopStart, he]
    simp only [allocChrdevRegion, hf, ite_true, Kernel.answer_reg]

/-- With region and class given, no call of the load fails exactly when the class is valid and
no call of the loop fails. -/
theorem callFails_granted {o : Outcomes} {s : Driver} {first : Nat}
    (ho : o.region = some first) (hf : s.kernel.rangeFree first USE_GPIOS_NUM = true)
    (hc : o.cls ≠ .null) {as : List Answer}
    (h : (initLoop o (List.range (MAX_GPIO_NUMBER + 1)) 0 (loopStart o first s)).1.kernel.answers =
      (loopStart o first s).kernel.answers ++ as) :
    callFails o s = false ↔
      (loopStart o first s).gpioLkmClass = .valid ∧ someFails as = false := by
  obtain ⟨ok, hstart, hok⟩ := loopStart_answers (o := o) hf
  rw [← gpioLkmInit_eq_initLoop ho hf hc, hstart, List.append_assoc] at h
  rw [callFails, loadAnswers_eq h, someFails_append, Bool.or_eq_false_iff, ← hok]
  simp [someFails]

/-- The loop of a load whose range begins at minor zero, as `initLoop_answers_iff` has it. -/
theorem loadLoop_answers {o : Outcomes} {s : Driver} {first : Nat} (h0 : minor first = 0) :
    ∃ as, (initLoop o (List.range (MAX_GPIO_NUMBER + 1)) 0 (loopStart o first s)).1.kernel.answers
        = (loopStart o first s).kernel.answers ++ as ∧
      (someFails as = false ↔ ∀ i ∈ gpios, PinSucceeds o (loopStart o first s).kernel i ∧
        NodeSucceeds o (loopStart o first s) i) ∧
      (someFails as = false →
        (initLoop o (List.range (MAX_GPIO_NUMBER + 1)) 0 (loopStart o first s)).1.kernel.reg.nodes =
          (gpios.map fun i => (DEVICE_NAME, nodeDev first i)).reverse ++
            (loopStart o first s).kernel.reg.nodes) := by
  refine initLoop_answers_iff 0 List.nodup_range h0 fun i hi => ?_
  rw [minors_per_major]
  exact (List.mem_range.mp hi).trans (by decide)

/-- No call of a load fails exactly when neither the checked nor the unchecked ones do. -/
theorem callFails_eq_false_iff {o : Outcomes} {s : Driver}
    (hminor : ∀ first, o.region = some first → minor first = 0) :
    callFails o s = false ↔ ChecksPass o s.kernel ∧ NoErrorPointer o s.kernel := by
  rcases gpioLkmInit_cases o s with ⟨hr, he⟩ | ⟨_, hc, _, first, he⟩ | ⟨hr, hc, _⟩
  · have hans : loadAnswers o s = [⟨.allocChrdevRegion, false⟩] := loadAnswers_eq (by rw [he]; rfl)
    exact iff_of_false (by simp [callFails, hans, someFails]) fun h => hr h.1.region
  · have hans : loadAnswers o s = [⟨.allocChrdevRegion, true⟩, ⟨.classCreate, false⟩] :=
      loadAnswers_eq (by rw [he]; exact List.append_assoc _ _ _)
    exact iff_of_false (by simp [callFails, hans, someFails]) fun h => h.1.cls hc
  have hgranted := hr
  obtain ⟨first, ho, hf⟩ := hr
  have hstart : Started s (loopStart o first s) := loopStart_started hf
  obtain ⟨hcls, _, hnodes⟩ := loopStart_class (o := o) hf
  obtain ⟨as, hans, hiff, _⟩ := loadLoop_answers (o := o) (s := s) (hminor first ho)
  rw [callFails_granted ho hf hc hans, hiff]
  constructor
  · rintro ⟨hc', hall⟩
    have hpins : ∀ i ∈ gpios, PinSucceeds o s.kernel i :=
      fun i hi => (hstart.pinSucceeds_iff i).mp (hall i hi).1
    refine ⟨⟨hgranted, hc, hpins⟩, hcls.mp hc', fun i hi => (hall i hi).2.device, ?_⟩
    intro first' ho' i hi
    obtain rfl : first = first' := Option.some.inj (ho.symm.trans ho')
    exact hnodes ▸ (hall i hi).2.node
  · rintro ⟨hp, hn⟩
    refine ⟨hcls.mpr hn.cls, fun i hi => ⟨(hstart.pinSucceeds_iff i).mpr (hp.pins i hi),
      hn.device i hi, hcls.mpr hn.cls, ?_⟩⟩
    rw [hnodes]
    exact hn.node first ho i hi

/-- A load in which no call fails is complete. -/
theorem gpioLkmInit_complete {o : Outcomes} {s : Driver}
    (hminor : ∀ first, o.region = some first → minor first = 0) (h : callFails o s = false)
    (hchecks : ChecksPass o s.kernel) :
    CompleteLoad (gpioLkmInit o s).1 := by
  obtain ⟨first, ho, hf⟩ := hchecks.region
  obtain ⟨bs, hans, _, hnodes⟩ := loadLoop_answers (o := o) (s := s) (hminor first ho)
  obtain ⟨hc, hloop⟩ := (callFails_granted ho hf hchecks.cls hans).mp h
  have hclasses := (loopStart_class (o := o) hf).2.1 hc
  have hstart : Started s (loopStart o first s) := loopStart_started hf
  have hnodes := hnodes hloop
  rw [gpioLkmInit_eq_initLoop ho hf hchecks.cls]
  rcases initLoop_cases o (List.range (MAX_GPIO_NUMBER + 1)) List.nodup_range 0
    (loopStart o first s) with ⟨_, t, as, he, hg⟩ | ⟨hall, _⟩
  swap
  · exact absurd (fun i hi => (hstart.pinSucceeds_iff i).mpr (hchecks.pins i hi)) hall
  rw [he] at hnodes ⊢
  change t.kernel.reg.nodes = _ at hnodes
  have hfirst : t.first = first := hg.first
  have hl : as.length = gpios.length := hg.length
  refine ⟨hg.cls.trans hc, hg.classes ▸ hclasses, fun j hj => ?_⟩
  rw [← length_gpios] at hj
  have hja : j < as.length := hl.symm ▸ hj
  have hmem : as[j] ∈ as := List.getElem_mem hja
  have hi : gpios[j] ∈ gpios := List.getElem_mem hj
  refine ⟨gpios[j], as[j], List.getElem?_eq_getElem hj, ?_⟩
  constructor
  case devp => rw [hg.devp, if_pos (by omega), Nat.sub_zero, List.getElem?_eq_getElem hja]
  case live =>
    rw [hg.records]
    exact List.mem_append_left _ (List.mem_reverse.mpr hmem)
  case requested =>
    rw [hg.gpios]
    exact List.mem_append_left _ (List.mem_reverse.mpr hi)
  case pin =>
    rw [hg.pins]
    exact if_pos hi
  case cdev =>
    rw [hg.first]
    exact resolve_pin hg hj hja
  case node =>
    rw [hnodes, hfirst]
    apply List.mem_append_left
    rw [List.mem_reverse]
    exact List.mem_map.mpr ⟨gpios[j], hi, rfl⟩
  case dev => rw [hg.heap, if_pos hmem]

/-- Everything succeeds but `class_create` and, without a class, `device_create`. -/
def Outcomes.noClass : Outcomes := { Outcomes.smooth with cls := .err, device := fun _ => .err }

end OsCourseLabs.Gpio
