import OsCourseLabs.Gpio.Driver

/-!
# Loading the GPIO driver

`gpio_lkm_init` acquires a device-number region and a class, and then for each pin
of its loop a record, a GPIO, a cdev and a device node. Each failure has its own
exit, with the clean-up written at that exit and no other.
-/

namespace OsCourseLabs.Gpio

/-- What the environment answers to the calls of one load, per pin inside the loop. -/
structure Outcomes where
  mem : Allocator
  region : Option Nat
  cls : Ptr
  kmalloc : Nat → Bool
  gpio : Nat → Int
  cdev : Nat → Int
  device : Nat → Ptr

/-- The inner loop of the `cdev_add` failure exit. -/
def destroyNodes (cls : Ptr) (first : Nat) : List Nat → Kernel → Kernel
  | [], k => k
  | i :: is, k =>
    destroyNodes cls first is
      (if initGpio i then deviceDestroy DEVICE_NAME cls (nodeDev first i) k else k)

/-- Both exits of the loop body that clean up end by giving back class and region. -/
def releaseClassAndRegion (s : Driver) (k : Kernel) : Driver :=
  let k := classDestroy DEVICE_NAME s.gpioLkmClass k
  { s with kernel := unregisterChrdevRegion s.first USE_GPIOS_NUM k }

/-- The second half of the loop body: publish the record's cdev and create the node. -/
def publishPin (o : Outcomes) (i a : Nat) (s : Driver) : Driver × Option Int :=
  let (ret, k) := cdevAdd a (s.first + i) (o.cdev i) s.kernel
  if ret ≠ 0 then
    let k := destroyNodes s.gpioLkmClass s.first (List.range (MAX_GPIO_NUMBER + 1)) k
    (releaseClassAndRegion s k, some ret)
  else
    let (d, k) := deviceCreate DEVICE_NAME s.gpioLkmClass (nodeDev s.first i) (o.device i) k
    if d = .null then (releaseClassAndRegion s k, some (-1))
    else ({ s with kernel := k }, none)

/-- One selected pin of the loop: `none` goes on, `some r` leaves `gpio_lkm_init` with `r`. -/
def initPin (o : Outcomes) (i index : Nat) (s : Driver) : Driver × Option Int :=
  let (p, k) := kmalloc o.mem (o.kmalloc i) s.kernel
  let s := { s with kernel := k, gpioLkmDevp := Function.update s.gpioLkmDevp index p }
  match p with
  | none => (s, some (-ENOMEM))
  | some a =>
    let (r, k) := gpioRequestOne i (o.gpio i) k
    if r < 0 then ({ s with kernel := k }, some (-ENODEV))
    else publishPin o i a { s with kernel := k.store a ⟨.low, .output⟩ }

/-- The pin loop over the numbers left. -/
def initLoop (o : Outcomes) : List Nat → Nat → Driver → Driver × Int
  | [], _, s => (s, 0)
  | i :: is, index, s =>
    if initGpio i then
      match initPin o i index s with
      | (s, some r) => (s, r)
      | (s, none) => initLoop o is (index + 1) s
    else initLoop o is index s

/-- `gpio_lkm_init`: the class pointer is compared with NULL only. -/
def gpioLkmInit (o : Outcomes) (s : Driver) : Driver × Int :=
  match allocChrdevRegion o.region USE_GPIOS_NUM s.kernel with
  | (none, k) => ({ s with kernel := k }, -1)
  | (some first, k) =>
    let (cls, k) := classCreate DEVICE_NAME o.cls k
    let s := { s with kernel := k, first := first, gpioLkmClass := cls }
    if cls = .null then
      ({ s with kernel := unregisterChrdevRegion first USE_GPIOS_NUM k }, -EINVAL)
    else initLoop o (List.range (MAX_GPIO_NUMBER + 1)) 0 s

/-- `alloc_chrdev_region` succeeds. -/
def RegionGranted (o : Outcomes) (k : Kernel) : Prop :=
  ∃ first, o.region = some first ∧ k.rangeFree first USE_GPIOS_NUM = true

/-- The state from which the pin loop starts: region and class are taken, no more. -/
structure Started (s t : Driver) : Prop where
  regions : t.kernel.reg.regions = (t.first, USE_GPIOS_NUM) :: s.kernel.reg.regions
  records : t.kernel.reg.records = s.kernel.reg.records
  gpios : t.kernel.reg.gpios = s.kernel.reg.gpios
  cdevs : t.kernel.reg.cdevs = s.kernel.reg.cdevs
  pins : t.kernel.pins = s.kernel.pins
  calls : t.kernel.gpioCalls = s.kernel.gpioCalls
  files : t.files = s.files

/-- Every call the driver checks inside the loop succeeds for the pin. -/
structure PinSucceeds (o : Outcomes) (k : Kernel) (i : Nat) : Prop where
  kmalloc : o.kmalloc i = true
  gpio : 0 ≤ o.gpio i
  unheld : i ∉ k.reg.gpios
  cdev : o.cdev i = 0
  device : o.device i ≠ .null

/-- The state after a pin went through, whatever became of its device node. -/
structure Grown (s t : Driver) (index : Nat) (ps as : List Nat) : Prop where
  length : as.length = ps.length
  nodup : as.Nodup
  new : ∀ a ∈ as, a ∉ s.kernel.reg.records
  regions : t.kernel.reg.regions = s.kernel.reg.regions
  classes : t.kernel.reg.classes = s.kernel.reg.classes
  records : t.kernel.reg.records = as.reverse ++ s.kernel.reg.records
  gpios : t.kernel.reg.gpios = ps.reverse ++ s.kernel.reg.gpios
  cdevs : t.kernel.reg.cdevs =
    ((List.zip ps as).map fun p => (s.first + p.1, p.2)).reverse ++ s.kernel.reg.cdevs
  heap : ∀ a, t.kernel.heap a = if a ∈ as then ⟨.low, .output⟩ else s.kernel.heap a
  pins : ∀ p, t.kernel.pins p = if p ∈ ps then ⟨.output, .low⟩ else s.kernel.pins p
  calls : t.kernel.gpioCalls =
    s.kernel.gpioCalls ++ ps.flatMap fun i => [.request i, .directionOutput i .low]
  devp : ∀ j, t.gpioLkmDevp j =
    if index ≤ j ∧ j < index + as.length then as[j - index]? else s.gpioLkmDevp j
  first : t.first = s.first
  cls : t.gpioLkmClass = s.gpioLkmClass
  files : t.files = s.files

/-- Success of a pin depends on the kernel only through the pin being requested already. -/
theorem PinSucceeds.congr {o : Outcomes} {k k' : Kernel} {i : Nat}
    (h : i ∈ k.reg.gpios ↔ i ∈ k'.reg.gpios) : PinSucceeds o k i ↔ PinSucceeds o k' i := by
  constructor
  · intro hs
    exact ⟨hs.kmalloc, hs.gpio, fun hi => hs.unheld (h.mpr hi), hs.cdev, hs.device⟩
  · intro hs
    exact ⟨hs.kmalloc, hs.gpio, fun hi => hs.unheld (h.mp hi), hs.cdev, hs.device⟩

/-- Region and class taken do not change whether a pin succeeds. -/
theorem Started.pinSucceeds_iff {o : Outcomes} {s t : Driver} (h : Started s t) (i : Nat) :
    PinSucceeds o t.kernel i ↔ PinSucceeds o s.kernel i :=
  PinSucceeds.congr (by rw [h.gpios])

theorem allocChrdevRegion_refused {o : Outcomes} {k : Kernel} (h : ¬ RegionGranted o k) :
    allocChrdevRegion o.region USE_GPIOS_NUM k = (none, k.answer .allocChrdevRegion false) := by
  cases ho : o.region with
  | none => rfl
  | some first =>
    have hf : ¬ k.rangeFree first USE_GPIOS_NUM = true := fun hf => h ⟨first, ho, hf⟩
    simp only [allocChrdevRegion, hf, Bool.false_eq_true, ite_false]

theorem allocChrdevRegion_granted {o : Outcomes} {k : Kernel} {first : Nat}
    (ho : o.region = some first) (hf : k.rangeFree first USE_GPIOS_NUM = true) :
    allocChrdevRegion o.region USE_GPIOS_NUM k =
      (some first, (allocChrdevRegion (some first) USE_GPIOS_NUM k).2) := by
  simp only [allocChrdevRegion, ho, hf, ite_true]

/-- The GPIO core grants a request exactly when it accepts it and the pin is not held. -/
theorem gpioRequestOne_cases (i : Nat) (core : Int) (k : Kernel) :
    (0 ≤ core ∧ i ∉ k.reg.gpios ∧
      gpioRequestOne i core k = (0, { k with
        reg := { k.reg with gpios := i :: k.reg.gpios }
        pins := Function.update k.pins i ⟨.output, .low⟩
        ledger := k.ledger ++ [.acquire (.gpio i)]
        gpioCalls := k.gpioCalls ++ [.request i] ++ [.directionOutput i .low]
        answers := k.answers ++ [⟨.gpioRequestOne, true⟩] })) ∨
    (¬ (0 ≤ core ∧ i ∉ k.reg.gpios) ∧ ∃ r < 0,
      gpioRequestOne i core k = (r, k.answer .gpioRequestOne false)) := by
  by_cases hc : core < 0
  · exact Or.inr ⟨fun h => by omega, core, hc, by simp [gpioRequestOne, hc]⟩
  · by_cases hi : i ∈ k.reg.gpios
    · exact Or.inr ⟨fun h => h.2 hi, -EBUSY, by decide, by
        simp [gpioRequestOne, requestGpio, hc, hi]⟩
    · exact Or.inl ⟨by omega, hi, by
        simp [gpioRequestOne, requestGpio, hc, hi, gpioDirectionOutput, gpioConfigure,
          Kernel.answer]⟩

/-- The answer of `device_create` is NULL only when the outcome is. -/
theorem deviceCreate_null_iff (name : String) (cls : Ptr) (dev : Nat) (outcome : Ptr)
    (k : Kernel) : (deviceCreate name cls dev outcome k).1 = .null ↔ outcome = .null := by
  cases outcome <;> simp only [deviceCreate]
  split <;> simp

/-- Whatever it answers, `device_create` touches nothing but the nodes. -/
theorem deviceCreate_frame (name : String) (cls : Ptr) (dev : Nat) (outcome : Ptr) (k : Kernel) :
    ∃ nodes ledger answers, (deviceCreate name cls dev outcome k).2 =
      { k with reg := { k.reg with nodes := nodes }, ledger := ledger, answers := answers } := by
  cases outcome <;> simp only [deviceCreate]
  · exact ⟨_, _, _, rfl⟩
  · exact ⟨_, _, _, rfl⟩
  · split <;> exact ⟨_, _, _, rfl⟩

@[simp] theorem classDestroy_records (name : String) (cls : Ptr) (k : Kernel) :
    (classDestroy name cls k).reg.records = k.reg.records := by
  cases cls <;> rfl

@[simp] theorem deviceDestroy_records (name : String) (cls : Ptr) (dev : Nat) (k : Kernel) :
    (deviceDestroy name cls dev k).reg.records = k.reg.records := by
  unfold deviceDestroy
  split <;> rfl

@[simp] theorem destroyNodes_records (cls : Ptr) (first : Nat) (is : List Nat) (k : Kernel) :
    (destroyNodes cls first is k).reg.records = k.reg.records := by
  induction is generalizing k with
  | nil => rfl
  | cons i is ih =>
    rw [destroyNodes, ih]
    split <;> simp

@[simp] theorem releaseClassAndRegion_records (s : Driver) (k : Kernel) :
    (releaseClassAndRegion s k).kernel.reg.records = k.reg.records := by
  simp [releaseClassAndRegion, unregisterChrdevRegion]

/-- Publishing goes on to the next pin, with the cdev live, or returns an error with the
records as they were. -/
theorem publishPin_cases (o : Outcomes) (i a : Nat) (s : Driver) :
    ((o.cdev i = 0 ∧ o.device i ≠ .null) ∧ ∃ nodes ledger answers,
      publishPin o i a s = ({ s with kernel := { s.kernel with
        reg := { s.kernel.reg with cdevs := (s.first + i, a) :: s.kernel.reg.cdevs, nodes := nodes }
        ledger := ledger
        answers := answers } }, none)) ∨
    (¬ (o.cdev i = 0 ∧ o.device i ≠ .null) ∧ ∃ r ≠ 0, (publishPin o i a s).2 = some r ∧
      (publishPin o i a s).1.kernel.reg.records = s.kernel.reg.records) := by
  by_cases hc : o.cdev i = 0
  · have hadd := deviceCreate_null_iff DEVICE_NAME s.gpioLkmClass (nodeDev s.first i) (o.device i)
      (cdevAdd a (s.first + i) 0 s.kernel).2
    obtain ⟨nodes, ledger, answers, he⟩ := deviceCreate_frame DEVICE_NAME s.gpioLkmClass
      (nodeDev s.first i) (o.device i) (cdevAdd a (s.first + i) 0 s.kernel).2
    have h0 : (cdevAdd a (s.first + i) 0 s.kernel).1 = 0 := rfl
    by_cases hd : o.device i = .null
    · refine Or.inr ⟨fun h => h.2 hd, -1, by decide, ?_⟩
      simp only [publishPin, hc, h0, hadd.mpr hd, ne_eq, not_true_eq_false, ite_false, ite_true,
        releaseClassAndRegion_records, he, true_and]
      rfl
    · refine Or.inl ⟨⟨hc, hd⟩, nodes, ledger, answers, ?_⟩
      simp only [publishPin, hc, h0, hadd, hd, ne_eq, not_true_eq_false, ite_false, he]
      rfl
  · refine Or.inr ⟨fun h => hc h.1, o.cdev i, hc, ?_⟩
    simp [publishPin, cdevAdd, hc]

/-- What one pin of the loop does: all its checked calls succeed and the pin is set up,
or `gpio_lkm_init` returns an error with the region or a new record left behind. -/
theorem initPin_cases (o : Outcomes) (i index : Nat) (s : Driver) :
    (PinSucceeds o s.kernel i ∧ ∃ t a,
      initPin o i index s = (t, none) ∧ Grown s t index [i] [a]) ∨
    (¬ PinSucceeds o s.kernel i ∧ ∃ r ≠ 0, (initPin o i index s).2 = some r ∧
      ((initPin o i index s).1.kernel.reg.regions = s.kernel.reg.regions ∨
        s.kernel.reg.records.length < (initPin o i index s).1.kernel.reg.records.length)) := by
  by_cases hm : o.kmalloc i = true
  swap
  · refine Or.inr ⟨fun h => hm h.kmalloc, -ENOMEM, by decide, ?_⟩
    simp [initPin, kmalloc, hm]
  have hfresh := o.mem.fresh s.kernel.reg.records
  rcases gpioRequestOne_cases i (o.gpio i) (kmalloc o.mem true s.kernel).2 with
    ⟨hc, hi, hg⟩ | ⟨hn, r, hr, hg⟩
  swap
  · refine Or.inr ⟨fun h => hn ⟨h.gpio, h.unheld⟩, -ENODEV, by decide, ?_⟩
    simp only [kmalloc, ite_true] at hg
    simp [initPin, kmalloc, hm, hg, hr]
  simp only [kmalloc, ite_true] at hg hi
  have he : initPin o i index s = publishPin o i (o.mem.pick s.kernel.reg.records)
      { s with
        kernel := Kernel.store { s.kernel with
          reg := { s.kernel.reg with
            records := o.mem.pick s.kernel.reg.records :: s.kernel.reg.records
            gpios := i :: s.kernel.reg.gpios }
          pins := Function.update s.kernel.pins i ⟨.output, .low⟩
          ledger := s.kernel.ledger ++ [.acquire (.record (o.mem.pick s.kernel.reg.records))] ++
            [.acquire (.gpio i)]
          gpioCalls := s.kernel.gpioCalls ++ [.request i] ++ [.directionOutput i .low]
          answers := s.kernel.answers ++ [⟨.kmalloc, true⟩] ++ [⟨.gpioRequestOne, true⟩] }
          (o.mem.pick s.kernel.reg.records) ⟨.low, .output⟩
        gpioLkmDevp := Function.update s.gpioLkmDevp index
          (some (o.mem.pick s.kernel.reg.records)) } := by
    simp only [initPin, kmalloc, hm, ite_true, hg]
    rfl
  generalize o.mem.pick s.kernel.reg.records = a at he hfresh
  rcases publishPin_cases o i a _ with
    ⟨⟨hcd, hd⟩, nodes, ledger, answers, hp⟩ | ⟨hn, r, hr, hp, hrec⟩
  · refine Or.inl ⟨⟨hm, hc, hi, hcd, hd⟩, _, a, he.trans hp, ?_⟩
    constructor
    case devp =>
      intro j
      by_cases hj : j = index
      · subst j
        simp
      · have hn : ¬ (index ≤ j ∧ j < index + [a].length) := by
          simp only [List.length_singleton]
          omega
        rw [if_neg hn]
        simp [hj]
    all_goals simp [Kernel.store, hfresh, Function.update_apply]
  · refine Or.inr ⟨fun h => hn ⟨h.cdev, h.device⟩, r, hr, he ▸ hp, Or.inr ?_⟩
    rw [he, hrec]
    simp [Kernel.store]

theorem Grown.refl (s : Driver) (index : Nat) : Grown s s index [] [] := by
  constructor
  case devp =>
    intro j
    have hn : ¬ (index ≤ j ∧ j < index + ([] : List Nat).length) := by
      simp only [List.length_nil]
      omega
    rw [if_neg hn]
  all_goals simp

/-- A pin set up, followed by the pins after it. -/
theorem Grown.cons {s t u : Driver} {index i a : Nat} {ps as : List Nat}
    (h : Grown s t index [i] [a]) (h' : Grown t u (index + 1) ps as) :
    Grown s u index (i :: ps) (a :: as) := by
  have ha : a ∉ s.kernel.reg.records := h.new a (by simp)
  have hnew : ∀ b ∈ as, b ≠ a ∧ b ∉ s.kernel.reg.records := by
    intro b hb
    have hb' := h'.new b hb
    rw [h.records] at hb'
    simpa using hb'
  constructor
  case length => simp [h'.length]
  case nodup => exact List.nodup_cons.mpr ⟨fun hm => (hnew a hm).1 rfl, h'.nodup⟩
  case new => exact List.forall_mem_cons.mpr ⟨ha, fun b hb => (hnew b hb).2⟩
  case regions => exact h'.regions.trans h.regions
  case classes => exact h'.classes.trans h.classes
  case records => simp [h'.records, h.records]
  case gpios => simp [h'.gpios, h.gpios]
  case cdevs => simp [h'.cdevs, h.cdevs, h.first]
  case heap =>
    intro b
    rw [h'.heap, h.heap]
    by_cases hb : b ∈ as <;> simp [hb]
  case pins =>
    intro p
    rw [h'.pins, h.pins]
    by_cases hp : p ∈ ps <;> simp [hp]
  case calls => simp [h'.calls, h.calls]
  case devp =>
    intro j
    rw [h'.devp, h.devp]
    simp only [List.length_cons, List.length_nil]
    rcases Nat.lt_trichotomy j index with hj | rfl | hj
    · have h1 : ¬ (index + 1 ≤ j ∧ j < index + 1 + as.length) := by omega
      have h2 : ¬ (index ≤ j ∧ j < index + (0 + 1)) := by omega
      have h3 : ¬ (index ≤ j ∧ j < index + (as.length + 1)) := by omega
      simp only [h1, h2, h3, ite_false]
    · have h1 : ¬ (j + 1 ≤ j ∧ j < j + 1 + as.length) := by omega
      have h2 : j ≤ j ∧ j < j + (0 + 1) := by omega
      have h3 : j ≤ j ∧ j < j + (as.length + 1) := by omega
      simp only [h1, h2, h3, if_false, Nat.sub_self, List.getElem?_cons_zero]
    · have h2 : ¬ (index ≤ j ∧ j < index + (0 + 1)) := by omega
      obtain ⟨d, rfl⟩ : ∃ d, j = index + 1 + d := ⟨j - (index + 1), by omega⟩
      have h4 : index + 1 + d - index = d + 1 := by omega
      simp only [h2, ite_false, h4, List.getElem?_cons_succ, Nat.add_sub_cancel_left]
      congr 1
      simp only [eq_iff_iff]
      omega
  case first => exact h'.first.trans h.first
  case cls => exact h'.cls.trans h.cls
  case files => exact h'.files.trans h.files

/-- A pin set up does not change whether another one succeeds. -/
theorem Grown.pinSucceeds_iff {o : Outcomes} {s t : Driver} {index i j a : Nat}
    (h : Grown s t index [i] [a]) (hne : j ≠ i) :
    PinSucceeds o t.kernel j ↔ PinSucceeds o s.kernel j :=
  PinSucceeds.congr (by simp [h.gpios, hne])

/-- A pin that is not selected is passed over. -/
theorem initLoop_skip {o : Outcomes} {i : Nat} (hi : initGpio i ≠ true) (is : List Nat)
    (index : Nat) (s : Driver) : initLoop o (i :: is) index s = initLoop o is index s := by
  rw [initLoop, if_neg hi]

/-- After a pin that is set up the loop goes on. -/
theorem initLoop_next {o : Outcomes} {i index : Nat} {s t : Driver} (hi : initGpio i = true)
    (he : initPin o i index s = (t, none)) (is : List Nat) :
    initLoop o (i :: is) index s = initLoop o is (index + 1) t := by
  rw [initLoop, if_pos hi, he]

/-- A pin that fails ends the load. -/
theorem initLoop_stop {o : Outcomes} {i index : Nat} {r : Int} {s : Driver}
    (hi : initGpio i = true) (he : (initPin o i index s).2 = some r) (is : List Nat) :
    initLoop o (i :: is) index s = ((initPin o i index s).1, r) := by
  have hq : initPin o i index s = ((initPin o i index s).1, some r) := Prod.ext rfl he
  rw [initLoop, if_pos hi, hq]

/-- The loop ends with zero exactly when every checked call of every pin succeeds. -/
theorem initLoop_cases (o : Outcomes) (is : List Nat) (hn : is.Nodup) (index : Nat)
    (s : Driver) :
    ((∀ i ∈ is.filter initGpio, PinSucceeds o s.kernel i) ∧ ∃ t as,
      initLoop o is index s = (t, 0) ∧ Grown s t index (is.filter initGpio) as) ∨
    ((¬ ∀ i ∈ is.filter initGpio, PinSucceeds o s.kernel i) ∧
      (initLoop o is index s).2 ≠ 0 ∧
      ((initLoop o is index s).1.kernel.reg.regions = s.kernel.reg.regions ∨
        s.kernel.reg.records.length < (initLoop o is index s).1.kernel.reg.records.length)) := by
  induction is generalizing index s with
  | nil => exact Or.inl ⟨by simp, s, [], rfl, Grown.refl s index⟩
  | cons i is ih =>
    have hni := List.nodup_cons.mp hn
    by_cases hi : initGpio i = true
    swap
    · rw [initLoop_skip hi, List.filter_cons_of_neg hi]
      exact ih hni.2 index s
    have hf : (i :: is).filter initGpio = i :: is.filter initGpio := List.filter_cons_of_pos hi
    rcases initPin_cases o i index s with ⟨hp, t, a, he, hg⟩ | ⟨hp, r, hr, he, hleft⟩
    · have hrest : (∀ j ∈ is.filter initGpio, PinSucceeds o t.kernel j) ↔
          ∀ j ∈ is.filter initGpio, PinSucceeds o s.kernel j := by
        refine forall₂_congr fun j hj => hg.pinSucceeds_iff ?_
        rintro rfl
        exact hni.1 (List.mem_filter.mp hj).1
      rw [initLoop_next hi he, hf, List.forall_mem_cons]
      rcases ih hni.2 (index + 1) t with ⟨hall, u, as, hu, hgu⟩ | ⟨hall, hne, hleft⟩
      · exact Or.inl ⟨⟨hp, hrest.mp hall⟩, u, a :: as, hu, hg.cons hgu⟩
      · refine Or.inr ⟨fun h => hall (hrest.mpr h.2), hne, ?_⟩
        rw [hg.regions, hg.records] at hleft
        exact hleft.imp id fun h => Nat.lt_of_succ_lt (by simpa using h)
    · rw [initLoop_stop hi he, hf, List.forall_mem_cons]
      exact Or.inr ⟨fun h => hp h.1, hr, hleft⟩

/-- A class pointer is NULL only when the outcome is, and no registry but the classes moves. -/
theorem classCreate_frame (name : String) (outcome : Ptr) (k : Kernel) :
    ∃ p classes ledger answers, (p = .null ↔ outcome = .null) ∧ classCreate name outcome k =
      (p, { k with
        reg := { k.reg with classes := classes }, ledger := ledger, answers := answers }) := by
  cases outcome <;> simp only [classCreate]
  · exact ⟨_, _, _, _, by simp, rfl⟩
  · exact ⟨_, _, _, _, by simp, rfl⟩
  · split <;> exact ⟨_, _, _, _, by simp, rfl⟩

/-- After the region is granted, the class decides whether the pin loop is entered. -/
private theorem gpioLkmInit_granted {o : Outcomes} {s : Driver} {first : Nat} {k k' : Kernel}
    {cls : Ptr} (ha : allocChrdevRegion o.region USE_GPIOS_NUM s.kernel = (some first, k))
    (hc : classCreate DEVICE_NAME o.cls k = (cls, k')) :
    gpioLkmInit o s =
      if cls = .null then
        ({ s with
          kernel := unregisterChrdevRegion first USE_GPIOS_NUM k'
          first := first
          gpioLkmClass := cls }, -EINVAL)
      else initLoop o (List.range (MAX_GPIO_NUMBER + 1)) 0
        { s with kernel := k', first := first, gpioLkmClass := cls } := by
  simp only [gpioLkmInit, ha, hc]

/-- The three ways through `gpio_lkm_init`: no region, no class, or the pin loop. -/
theorem gpioLkmInit_cases (o : Outcomes) (s : Driver) :
    (¬ RegionGranted o s.kernel ∧ gpioLkmInit o s =
      ({ s with kernel := s.kernel.answer .allocChrdevRegion false }, -1)) ∨
    (RegionGranted o s.kernel ∧ o.cls = .null ∧ (gpioLkmInit o s).2 = -EINVAL ∧
      ∃ first, (gpioLkmInit o s).1.kernel = { s.kernel with
        ledger := s.kernel.ledger ++ [.acquire (.region first USE_GPIOS_NUM)] ++
          [.release (.region first USE_GPIOS_NUM)]
        answers := s.kernel.answers ++ [⟨.allocChrdevRegion, true⟩] ++
          [⟨.classCreate, false⟩] }) ∨
    (RegionGranted o s.kernel ∧ o.cls ≠ .null ∧ ∃ t, Started s t ∧
      gpioLkmInit o s = initLoop o (List.range (MAX_GPIO_NUMBER + 1)) 0 t) := by
  by_cases hr : RegionGranted o s.kernel
  swap
  · refine Or.inl ⟨hr, ?_⟩
    simp only [gpioLkmInit, allocChrdevRegion_refused hr]
  obtain ⟨first, ho, hf⟩ := hr
  have ha : allocChrdevRegion o.region USE_GPIOS_NUM s.kernel = (some first, { s.kernel with
      reg := { s.kernel.reg with regions := (first, USE_GPIOS_NUM) :: s.kernel.reg.regions }
      ledger := s.kernel.ledger ++ [.acquire (.region first USE_GPIOS_NUM)]
      answers := s.kernel.answers ++ [⟨.allocChrdevRegion, true⟩] }) := by
    simp only [allocChrdevRegion, ho, hf, ite_true, Kernel.answer]
  by_cases hn : o.cls = .null
  · refine Or.inr (Or.inl ⟨⟨first, ho, hf⟩, hn, ?_⟩)
    have hc : ∀ k, classCreate DEVICE_NAME o.cls k = (.null, k.answer .classCreate false) :=
      fun k => by rw [hn]; rfl
    rw [gpioLkmInit_granted ha (hc _), if_pos rfl]
    exact ⟨rfl, first, by simp [unregisterChrdevRegion, Kernel.answer]⟩
  · obtain ⟨p, classes, ledger, answers, hp, hc⟩ := classCreate_frame DEVICE_NAME o.cls
      { s.kernel with
        reg := { s.kernel.reg with regions := (first, USE_GPIOS_NUM) :: s.kernel.reg.regions }
        ledger := s.kernel.ledger ++ [.acquire (.region first USE_GPIOS_NUM)]
        answers := s.kernel.answers ++ [⟨.allocChrdevRegion, true⟩] }
    have he := gpioLkmInit_granted ha hc
    rw [if_neg (mt hp.mp hn)] at he
    refine Or.inr (Or.inr ⟨⟨first, ho, hf⟩, hn, _, ?_, he⟩)
    exact ⟨rfl, rfl, rfl, rfl, rfl, rfl, rfl⟩

/-- The state that the pin loop starts from. -/
def loopStart (o : Outcomes) (first : Nat) (s : Driver) : Driver :=
  let k := (allocChrdevRegion (some first) USE_GPIOS_NUM s.kernel).2
  { s with
    kernel := (classCreate DEVICE_NAME o.cls k).2
    first := first
    gpioLkmClass := (classCreate DEVICE_NAME o.cls k).1 }

/-- With region and class given, `gpio_lkm_init` is its pin loop. -/
theorem gpioLkmInit_eq_initLoop {o : Outcomes} {s : Driver} {first : Nat}
    (ho : o.region = some first) (hf : s.kernel.rangeFree first USE_GPIOS_NUM = true)
    (hc : o.cls ≠ .null) :
    gpioLkmInit o s = initLoop o (List.range (MAX_GPIO_NUMBER + 1)) 0 (loopStart o first s) := by
  obtain ⟨p, classes, ledger, answers, hp, he⟩ := classCreate_frame DEVICE_NAME o.cls
    (allocChrdevRegion (some first) USE_GPIOS_NUM s.kernel).2
  rw [gpioLkmInit_granted (allocChrdevRegion_granted ho hf) he, if_neg (mt hp.mp hc), loopStart, he]

theorem loopStart_started {o : Outcomes} {s : Driver} {first : Nat}
    (hf : s.kernel.rangeFree first USE_GPIOS_NUM = true) : Started s (loopStart o first s) := by
  obtain ⟨p, classes, ledger, answers, hp, he⟩ := classCreate_frame DEVICE_NAME o.cls
    (allocChrdevRegion (some first) USE_GPIOS_NUM s.kernel).2
  simp only [loopStart, he]
  simp only [allocChrdevRegion, hf, ite_true, Kernel.answer]
  exact ⟨rfl, rfl, rfl, rfl, rfl, rfl, rfl⟩

/-- A load that returns zero went through the loop with every pin. -/
theorem gpioLkmInit_zero {o : Outcomes} {s t : Driver} (h : gpioLkmInit o s = (t, 0)) :
    ∃ u as, Started s u ∧ Grown u t 0 gpios as := by
  rcases gpioLkmInit_cases o s with ⟨_, he⟩ | ⟨_, _, he, _⟩ | ⟨_, _, u, hu, he⟩
  · rw [he] at h
    cases h
  · rw [h] at he
    cases he
  · rcases initLoop_cases o _ List.nodup_range 0 u with ⟨_, t', as, ht, hg⟩ | ⟨_, hne, _⟩
    · rw [he, ht] at h
      cases h
      exact ⟨u, as, hu, hg⟩
    · rw [← he, h] at hne
      exact absurd rfl hne

/-- A kernel in which nothing is registered and every pin is an input. -/
def Kernel.bare : Kernel :=
  ⟨⟨[], [], [], [], [], []⟩, fun _ => ⟨.low, .input⟩, fun _ => ⟨.input, .low⟩, [], [], []⟩

/-- The module before its first load. -/
def Driver.unloaded : Driver := ⟨.bare, 0, .null, fun _ => none, fun _ => none⟩

private theorem le_foldr_max {a : Nat} {used : List Nat} (h : a ∈ used) :
    a ≤ used.foldr max 0 := by
  induction used with
  | nil => simp at h
  | cons b used ih =>
    rcases List.mem_cons.mp h with rfl | hb
    · exact Nat.le_max_left _ _
    · exact (ih hb).trans (Nat.le_max_right _ _)

/-- Addresses one above the largest in use. -/
def Allocator.bump : Allocator where
  pick used := used.foldr max 0 + 1
  fresh _ h := absurd (le_foldr_max h) (by omega)

/-- Every call of a load succeeds; the region starts at minor zero of major 240. -/
def Outcomes.smooth : Outcomes :=
  ⟨.bump, some (mkdev 240 0), .valid, fun _ => true, fun _ => 0, fun _ => 0, fun _ => .valid⟩

theorem gpioLkmInit_smooth :
    gpioLkmInit .smooth .unloaded = ((gpioLkmInit .smooth .unloaded).1, 0) := rfl

end OsCourseLabs.Gpio
