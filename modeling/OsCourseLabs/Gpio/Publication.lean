import OsCourseLabs.Gpio.Answers

/-!
# The device numbers a load publishes

`gpio_lkm_init` reserves as many numbers as it has pins, but adds the pin number to the
first of them: from pin 16 on, the number lies behind the reserved range. What counts are the
numbers handed to `cdev_add` and `device_create`, also where the call fails.
-/

namespace OsCourseLabs.Gpio

/-- The numbers that `gpio_lkm_init` hands to `cdev_add` and `device_create`, in order; at any
point of its execution those handed out so far are the first of them. -/
def publishedNumbers (o : Outcomes) (s : Driver) : List Nat := numbers (loadAnswers o s)

/-- Every number published lies in the range reserved for the module, and in no other. -/
structure OwnsPublished (o : Outcomes) (s : Driver) : Prop where
  reserved : ∀ dev ∈ publishedNumbers o s, ∃ first, o.region = some first ∧
    first ≤ dev ∧ dev < first + USE_GPIOS_NUM
  foreign : ∀ dev ∈ publishedNumbers o s, ∀ r ∈ s.kernel.reg.regions,
    ¬ (r.1 ≤ dev ∧ dev < r.1 + r.2)

/-- The load gets as far as to publish pin 16, the first whose number is not reserved. -/
def PublishesPin16 (o : Outcomes) (k : Kernel) : Prop :=
  RegionGranted o k ∧ o.cls ≠ .null ∧
    (∀ i ∈ gpios, i < USE_GPIOS_NUM → PinSucceeds o k i) ∧ ReachesCdev o k 16

/-- The loop hands out no numbers but those of its pins. -/
theorem initLoop_numbers (o : Outcomes) (is : List Nat) (index : Nat) (s : Driver) :
    ∃ as, (initLoop o is index s).1.kernel.answers = s.kernel.answers ++ as ∧
      ∀ n ∈ numbers as, ∃ i ∈ is.filter initGpio, n = s.first + i ∨ n = nodeDev s.first i := by
  induction is generalizing index s with
  | nil => exact ⟨[], (List.append_nil _).symm, fun n hn => by cases hn⟩
  | cons i is ih =>
    by_cases hi : initGpio i = true
    swap
    · rw [initLoop_skip hi, List.filter_cons_of_neg hi]
      exact ih index s
    obtain ⟨as, hans, hpin⟩ := initPin_answers o i index s
    rw [List.filter_cons_of_pos hi]
    rcases initPin_cases o i index s with ⟨_, t, a, he, hg⟩ | ⟨_, r, _, he, _⟩
    · obtain ⟨bs, hbs, hnum⟩ := ih (index + 1) t
      rw [he] at hans
      rw [initLoop_next hi he]
      refine ⟨as ++ bs, by rw [hbs, hans, List.append_assoc], fun n hn => ?_⟩
      rw [numbers_append] at hn
      rcases List.mem_append.mp hn with hn | hn
      · exact ⟨i, List.mem_cons_self, hpin.mem_numbers hn⟩
      · obtain ⟨j, hj, hn⟩ := hnum n hn
        exact ⟨j, List.mem_cons_of_mem _ hj, hg.first ▸ hn⟩
    · rw [initLoop_stop hi he]
      exact ⟨as, hans, fun n hn => ⟨i, List.mem_cons_self, hpin.mem_numbers hn⟩⟩

/-- The record of a loop begins with that of its first pin; where the pin fails it is all. -/
theorem initLoop_answers_cons {o : Outcomes} {i : Nat} (hi : initGpio i = true) (is : List Nat)
    (index : Nat) (s : Driver) :
    ∃ as bs, (initLoop o (i :: is) index s).1.kernel.answers = s.kernel.answers ++ (as ++ bs) ∧
      PinAnswers o i s as ∧ (¬ PinSucceeds o s.kernel i → bs = []) := by
  obtain ⟨as, hans, hpin⟩ := initPin_answers o i index s
  rcases initPin_cases o i index s with ⟨hp, t, a, he, _⟩ | ⟨_, r, _, he, _⟩
  · obtain ⟨bs, hbs, _⟩ := initLoop_numbers o is (index + 1) t
    rw [he] at hans
    rw [initLoop_next hi he]
    exact ⟨as, bs, by rw [hbs, hans, List.append_assoc], hpin, fun h => absurd hp h⟩
  · rw [initLoop_stop hi he]
    exact ⟨as, [], by rw [List.append_nil, hans], hpin, fun _ => rfl⟩

/-- A loop in two parts: the second part is entered when every pin of the first succeeds. -/
theorem initLoop_append {o : Outcomes} {is : List Nat} (hn : is.Nodup) (js : List Nat)
    (index : Nat) (s : Driver) :
    ((∀ i ∈ is.filter initGpio, PinSucceeds o s.kernel i) ∧ ∃ t index' as,
      Grown s t index (is.filter initGpio) as ∧ initLoop o is index s = (t, 0) ∧
      initLoop o (is ++ js) index s = initLoop o js index' t) ∨
    ((¬ ∀ i ∈ is.filter initGpio, PinSucceeds o s.kernel i) ∧
      initLoop o (is ++ js) index s = initLoop o is index s) := by
  induction is generalizing index s with
  | nil => exact Or.inl ⟨by simp, s, index, [], Grown.refl s index, rfl, rfl⟩
  | cons i is ih =>
    have hni := List.nodup_cons.mp hn
    by_cases hi : initGpio i = true
    swap
    · rw [List.filter_cons_of_neg hi, List.cons_append, initLoop_skip hi, initLoop_skip hi]
      exact ih hni.2 index s
    have hf : (i :: is).filter initGpio = i :: is.filter initGpio := List.filter_cons_of_pos hi
    rcases initPin_cases o i index s with ⟨hp, t, a, he, hg⟩ | ⟨hp, r, _, he, _⟩
    · have hrest : (∀ j ∈ is.filter initGpio, PinSucceeds o t.kernel j) ↔
          ∀ j ∈ is.filter initGpio, PinSucceeds o s.kernel j := by
        refine forall₂_congr fun j hj => hg.pinSucceeds_iff ?_
        rintro rfl
        exact hni.1 (List.mem_filter.mp hj).1
      rw [hf, List.forall_mem_cons, List.cons_append, initLoop_next hi he, initLoop_next hi he,
        ← hrest]
      rcases ih hni.2 (index + 1) t with ⟨hall, u, index', as, hgu, hzero, heq⟩ | ⟨hall, heq⟩
      · exact Or.inl ⟨⟨hp, hall⟩, u, index', a :: as, hg.cons hgu, hzero, heq⟩
      · exact Or.inr ⟨fun h => hall h.2, heq⟩
    · rw [hf, List.forall_mem_cons, List.cons_append, initLoop_stop hi he, initLoop_stop hi he]
      exact Or.inr ⟨fun h => hp h.1, rfl⟩

/-- With region and class given, the numbers published are those of the pin loop. -/
theorem publishedNumbers_granted {o : Outcomes} {s : Driver} {first : Nat} {as : List Answer}
    (ho : o.region = some first) (hf : s.kernel.rangeFree first USE_GPIOS_NUM = true)
    (hc : o.cls ≠ .null)
    (h : (initLoop o (List.range (MAX_GPIO_NUMBER + 1)) 0 (loopStart o first s)).1.kernel.answers =
      (loopStart o first s).kernel.answers ++ as) : publishedNumbers o s = numbers as := by
  obtain ⟨ok, hstart, _⟩ := loopStart_answers (o := o) hf
  rw [← gpioLkmInit_eq_initLoop ho hf hc, hstart, List.append_assoc] at h
  rw [publishedNumbers, loadAnswers_eq h, numbers_append]
  rfl

/-- Without region or class nothing is published. -/
theorem publishedNumbers_refused {o : Outcomes} {s : Driver}
    (h : ¬ RegionGranted o s.kernel ∨ o.cls = .null) : publishedNumbers o s = [] := by
  rcases gpioLkmInit_cases o s with ⟨_, he⟩ | ⟨_, _, _, first, he⟩ | ⟨hr, hc, _⟩
  · have hans : loadAnswers o s = [⟨.allocChrdevRegion, false⟩] := loadAnswers_eq (by rw [he]; rfl)
    rw [publishedNumbers, hans]
    rfl
  · have hans : loadAnswers o s = [⟨.allocChrdevRegion, true⟩, ⟨.classCreate, false⟩] :=
      loadAnswers_eq (by rw [he]; exact List.append_assoc _ _ _)
    rw [publishedNumbers, hans]
    rfl
  · exact absurd h (not_or.mpr ⟨not_not.mpr hr, hc⟩)

/-- A number next to the first one lies in no range reserved by another driver. -/
theorem not_foreign {k : Kernel} {first dev : Nat}
    (hf : k.rangeFree first USE_GPIOS_NUM = true) (hlo : first ≤ dev)
    (hhi : dev < first + USE_GPIOS_NUM) :
    ∀ r ∈ k.reg.regions, ¬ (r.1 ≤ dev ∧ dev < r.1 + r.2) := by
  rintro r hr ⟨h1, h2⟩
  have hfree := List.all_eq_true.mp hf r hr
  simp only [Bool.or_eq_true, decide_eq_true_eq] at hfree
  omega

/-- The numbers of the pins below the size of the range are owned. -/
theorem ownsPublished_of_small {o : Outcomes} {s : Driver} {first : Nat}
    (ho : o.region = some first) (hf : s.kernel.rangeFree first USE_GPIOS_NUM = true)
    (h0 : minor first = 0)
    (hsmall : ∀ dev ∈ publishedNumbers o s,
      ∃ i < USE_GPIOS_NUM, dev = first + i ∨ dev = nodeDev first i) : OwnsPublished o s := by
  have hown : ∀ dev ∈ publishedNumbers o s, first ≤ dev ∧ dev < first + USE_GPIOS_NUM := by
    intro dev hdev
    obtain ⟨i, hlt, hn⟩ := hsmall dev hdev
    have hbits : i < 1 <<< MINORBITS := by
      rw [minors_per_major]
      simp only [USE_GPIOS_NUM] at hlt
      omega
    have hdev : dev = first + i := by
      rcases hn with rfl | rfl
      · rfl
      · exact mkdev_major_minor_add h0 hbits
    omega
  exact ⟨fun dev hdev => ⟨first, ho, hown dev hdev⟩,
    fun dev hdev => not_foreign hf (hown dev hdev).1 (hown dev hdev).2⟩

/-- The pins whose numbers lie in the reserved range are those before pin 16. -/
theorem small_gpios : (List.range 16).filter initGpio = gpios.filter (· < USE_GPIOS_NUM) := by
  decide

/-- A load publishes only numbers it owns exactly when it ends before it publishes pin 16. -/
theorem gpioLkmInit_ownsPublished_iff {o : Outcomes} {s : Driver}
    (hminor : ∀ first, o.region = some first → minor first = 0) :
    OwnsPublished o s ↔ ¬ PublishesPin16 o s.kernel := by
  by_cases hr : RegionGranted o s.kernel
  swap
  · have hnone := publishedNumbers_refused (o := o) (Or.inl hr)
    exact iff_of_true ⟨by simp [hnone], by simp [hnone]⟩ fun h => hr h.1
  by_cases hc : o.cls = .null
  · have hnone := publishedNumbers_refused (s := s) (Or.inr hc)
    exact iff_of_true ⟨by simp [hnone], by simp [hnone]⟩ fun h => h.2.1 hc
  have hgranted := hr
  obtain ⟨first, ho, hf⟩ := hr
  have hstart : Started s (loopStart o first s) := loopStart_started hf
  have hpins : (∀ i ∈ (List.range 16).filter initGpio,
      PinSucceeds o (loopStart o first s).kernel i) ↔
      ∀ i ∈ gpios, i < USE_GPIOS_NUM → PinSucceeds o s.kernel i := by
    simp only [small_gpios, List.mem_filter, decide_eq_true_eq, and_imp]
    exact forall₃_congr fun i _ _ => hstart.pinSucceeds_iff i
  have hsplit : List.range (MAX_GPIO_NUMBER + 1) = List.range 16 ++ 16 :: List.range' 17 11 := by
    decide
  have hselected : initGpio 16 = true := by decide
  have hnodup : (List.range 16).Nodup := List.nodup_range
  -- the pins before pin 16 hand out owned numbers only
  obtain ⟨as, hans, hnum⟩ := initLoop_numbers o (List.range 16) 0 (loopStart o first s)
  have hsmall : ∀ dev ∈ numbers as,
      ∃ i < USE_GPIOS_NUM, dev = first + i ∨ dev = nodeDev first i := by
    intro dev hdev
    obtain ⟨i, hi, hn⟩ := hnum dev hdev
    rw [small_gpios] at hi
    exact ⟨i, of_decide_eq_true (List.mem_filter.mp hi).2, hn⟩
  rcases initLoop_append hnodup (16 :: List.range' 17 11) 0 (loopStart o first s) with
    ⟨hall, t, index, rs, hg, hzero, heq⟩ | ⟨hall, heq⟩
  · have hreach : ReachesCdev o t.kernel 16 ↔ ReachesCdev o s.kernel 16 := by
      have hmem : 16 ∉ (List.range 16).filter initGpio := by decide
      simp only [ReachesCdev, hg.gpios, hstart.gpios, List.mem_append, List.mem_reverse, hmem,
        false_or]
    obtain ⟨bs, cs, hbs, hpin, hrest⟩ := initLoop_answers_cons (o := o) hselected
      (List.range' 17 11) index t
    rw [hzero] at hans
    have hpub : publishedNumbers o s = numbers as ++ (numbers bs ++ numbers cs) := by
      rw [← numbers_append, ← numbers_append]
      apply publishedNumbers_granted ho hf hc
      rw [hsplit, heq, hbs, hans, List.append_assoc]
    by_cases h16 : ReachesCdev o s.kernel 16
    · refine iff_of_false (fun h => ?_) fun h => h ⟨hgranted, hc, hpins.mp hall, h16⟩
      have hmem : first + 16 ∈ publishedNumbers o s := by
        have hfirst : t.first = first := hg.first
        rw [hpub]
        exact List.mem_append_right _
          (List.mem_append_left _ (hfirst ▸ hpin.number_mem (hreach.mpr h16)))
      obtain ⟨first', ho', _, hlt⟩ := h.reserved _ hmem
      rw [ho] at ho'
      cases ho'
      simp only [USE_GPIOS_NUM] at hlt
      omega
    · refine iff_of_true ?_ fun h => h16 h.2.2.2
      have hstop : ¬ PinSucceeds o t.kernel 16 :=
        fun hp => h16 (hreach.mp ⟨hp.kmalloc, hp.gpio, hp.unheld⟩)
      rw [hpin.numbers_eq_nil (mt hreach.mp h16), hrest hstop] at hpub
      exact ownsPublished_of_small ho hf (hminor first ho)
        (hpub.trans (List.append_nil _) ▸ hsmall)
  · refine iff_of_true ?_ fun h => hall (hpins.mpr h.2.2.1)
    have hpub : publishedNumbers o s = numbers as := by
      apply publishedNumbers_granted ho hf hc
      rw [hsplit, heq, hans]
    exact ownsPublished_of_small ho hf (hminor first ho) (hpub ▸ hsmall)

/-- The module before its load, while another driver holds the numbers behind its range. -/
def Driver.neighbour : Driver :=
  { Driver.unloaded with kernel := { Kernel.bare with reg :=
      ⟨[(mkdev 240 14, 14)], [], [], [], [], []⟩ } }

/-- The theorem applies to a load that is refused the GPIO of pin 16. -/
theorem gpioLkmInit_ownsPublished_iff_refused16 :
    OwnsPublished { Outcomes.smooth with gpio := fun i => if i = 16 then -EBUSY else 0 }
      .neighbour := by
  refine (gpioLkmInit_ownsPublished_iff ?_).mpr ?_
  · intro first h
    cases h
    decide
  · intro h
    exact absurd h.2.2.2.2.1 (by decide)

/-- A load next to another driver publishes numbers of that driver. -/
theorem neighbour_not_owned :
    (gpioLkmInit .smooth .neighbour).2 = 0 ∧ ¬ OwnsPublished .smooth .neighbour := by
  refine ⟨by decide, fun h => ?_⟩
  have hnum : mkdev 240 16 ∈ publishedNumbers .smooth .neighbour := by decide
  exact h.foreign _ hnum (mkdev 240 14, 14) (by decide) (by decide)

end OsCourseLabs.Gpio
