import OsCourseLabs.Gpio.Init
import OsCourseLabs.Gpio.Requests
import Mathlib.Data.List.Nodup

/-!
# The loaded module

A request reaches a record through the cdev and a pin through the minor number. The
layout left by a load makes the two ways meet: it keeps, for every pin, the one record
that the cdev of the pin's node is embedded in, and every request keeps the layout.
-/

namespace OsCourseLabs.Gpio

open Transition

/-- The record says which direction the pin has and, as an output, which level it drives. -/
def Agrees (dev : GpioLkmDev) (pin : Pin) : Prop :=
  dev.dir = pin.dir ∧ (dev.dir = .output → dev.state = pin.level)

instance (dev : GpioLkmDev) (pin : Pin) : Decidable (Agrees dev pin) :=
  inferInstanceAs (Decidable (_ ∧ (_ → _)))

/-- Every record of the module agrees with its pin. -/
def Truthful (s : Driver) : Prop :=
  ∀ k i, gpios[k]? = some i →
    ∃ a, s.gpioLkmDevp k = some a ∧ Agrees (s.kernel.heap a) (s.kernel.pins i)

/-- Where the records of the pins are and how open files refer to them. -/
structure Layout (s : Driver) (record : Nat → Nat) : Prop where
  baseMinor : minor s.first = 0
  injective : ∀ i ∈ gpios, ∀ j ∈ gpios, record i = record j → i = j
  live : ∀ i ∈ gpios, record i ∈ s.kernel.reg.records
  devp : ∀ (k i : Nat), gpios[k]? = some i → s.gpioLkmDevp k = some (record i)
  resolve : ∀ i ∈ gpios, s.kernel.resolve (nodeDev s.first i) = some (record i)
  files : ∀ fd f, s.files fd = some f →
    ∃ i ∈ gpios, f.inode = nodeDev s.first i ∧ f.privateData = some (record i)

/-- The GPIO core refuses the configuration that a command asks for. -/
def CoreRefuses (cmd : Command) (core : Int) (dev : GpioLkmDev) : Prop :=
  core < 0 ∧ (cmd = .setIn ∧ dev.dir = .output ∨ cmd = .setOut ∧ dev.dir = .input)

/-- The request is a write whose direction change the core refuses. -/
def Refused (s : Driver) (a : Request × Int) : Prop :=
  match a.1 with
  | .write fd payload count core => ∃ f dev cmd, s.files fd = some f ∧
      f.privateData = some dev ∧ commandOf payload count = some cmd ∧
      CoreRefuses cmd core (s.kernel.heap dev)
  | _ => False

private theorem gpioConfigure_pin (call : GpioCall) (gpio : Nat) (pin : Pin) (core : Int)
    (k : Kernel) :
    (gpioConfigure call gpio pin core k).2.pins gpio = if core < 0 then k.pins gpio else pin := by
  by_cases hc : core < 0 <;> simp [gpioConfigure, hc]

/-- A command carried out keeps record and pin in agreement unless the core refuses. -/
theorem runCommand_agrees {cmd : Command} {gpio : Nat} {core : Int} {dev dev' : GpioLkmDev}
    {k k' : Kernel} (h : runCommand cmd gpio core dev k = .ok (dev', k'))
    (ha : Agrees dev (k.pins gpio)) :
    Agrees dev' (k'.pins gpio) ↔ ¬ CoreRefuses cmd core dev := by
  cases cmd with
  | setIn =>
    simp only [runCommand, gpioDirectionInput] at h
    split at h
    · rename_i hd
      cases h
      have hout : dev.dir = .output := by cases hdir : dev.dir <;> simp_all
      by_cases hc : core < 0 <;>
        simp [Agrees, CoreRefuses, gpioConfigure_pin, hc, hout, ← ha.1]
    · rename_i hd
      cases h
      simp_all [CoreRefuses]
  | setOut =>
    simp only [runCommand, gpioDirectionOutput] at h
    split at h
    · rename_i hd
      cases h
      have hin : dev.dir = .input := by cases hdir : dev.dir <;> simp_all
      by_cases hc : core < 0 <;>
        simp [Agrees, CoreRefuses, gpioConfigure_pin, hc, hin, ← ha.1]
    · rename_i hd
      cases h
      simp_all [CoreRefuses]
  | setHigh | setLow =>
    simp only [runCommand, gpioSetValue] at h
    split at h
    · cases h
    · cases h
      simp [Agrees, CoreRefuses, ha.1]
  | na => cases h

/-- The records in loop order, as a function of the pin. -/
def recordOf (as : List Nat) (i : Nat) : Nat := as[gpios.idxOf i]?.getD 0

private theorem recordOf_getElem {as : List Nat} (hl : as.length = gpios.length) {k : Nat}
    (hk : k < gpios.length) : recordOf as gpios[k] = as[k] := by
  rw [recordOf, nodup_gpios.idxOf_getElem k hk, List.getElem?_eq_getElem (by omega),
    Option.getD_some]

theorem nodeDev_eq {first i : Nat} (h0 : minor first = 0) (hi : i ∈ gpios) :
    nodeDev first i = first + i :=
  mkdev_major_minor_add h0 (gpio_lt hi)

/-- The minor number of a node is the pin it was created for. -/
theorem minor_nodeDev {first i : Nat} (h0 : minor first = 0) (hi : i ∈ gpios) :
    minor (nodeDev first i) = i := by
  rw [nodeDev_eq h0 hi, minor_add h0 (gpio_lt hi)]

private theorem lookup_of_nodup {l : List (Nat × Nat)} {d a : Nat}
    (hn : (l.map Prod.fst).Nodup) (h : (d, a) ∈ l) : l.lookup d = some a := by
  induction l with
  | nil => simp at h
  | cons p l ih =>
    obtain ⟨e, b⟩ := p
    have hnp := List.nodup_cons.mp hn
    rcases List.mem_cons.mp h with he | hm
    · cases he
      simp
    · have hne : d ≠ e := by
        rintro rfl
        exact hnp.1 (List.mem_map.mpr ⟨(d, a), hm, rfl⟩)
      rw [List.lookup_cons, beq_eq_false_iff_ne.mpr hne]
      exact ih hnp.2 hm

/-- The number of a pin set up resolves to the record set up for it. -/
theorem resolve_pin {s t : Driver} {index : Nat} {as : List Nat}
    (h : Grown s t index gpios as) {k : Nat} (hk : k < gpios.length) (ha : k < as.length) :
    t.kernel.resolve (s.first + gpios[k]) = some as[k] := by
  have hl := h.length
  have hkeys : (((List.zip gpios as).map fun p => (s.first + p.1, p.2)).map Prod.fst).Nodup := by
    rw [List.map_map]
    change ((List.zip gpios as).map ((s.first + ·) ∘ Prod.fst)).Nodup
    rw [← List.map_map, List.map_fst_zip (by omega)]
    exact nodup_gpios.map fun a b h => Nat.add_left_cancel h
  have hlookup : ((List.zip gpios as).map fun p => (s.first + p.1, p.2)).reverse.lookup
      (s.first + gpios[k]) = some as[k] := by
    apply lookup_of_nodup
    · rwa [List.map_reverse, List.nodup_reverse]
    · rw [List.mem_reverse]
      exact List.mem_map.mpr ⟨(gpios[k], as[k]), List.mem_iff_getElem.mpr
        ⟨k, by simp; omega, by simp⟩, rfl⟩
  rw [Kernel.resolve, h.cdevs, List.lookup_append, hlookup, Option.some_or]

/-- A load that returns zero leaves the layout, with every pin low and every record saying so. -/
theorem gpioLkmInit_layout {o : Outcomes} {s t : Driver} (h : gpioLkmInit o s = (t, 0))
    (h0 : minor t.first = 0) (hf : ∀ fd, s.files fd = none) :
    ∃ record, Layout t record ∧ (∀ i ∈ gpios, t.kernel.heap (record i) = ⟨.low, .output⟩) ∧
      (∀ i ∈ gpios, t.kernel.pins i = ⟨.output, .low⟩) ∧ ∀ fd, t.files fd = none := by
  obtain ⟨u, as, hu, hg⟩ := gpioLkmInit_zero h
  have hl := hg.length
  have hrec : ∀ k (hk : k < gpios.length), recordOf as gpios[k] = as[k] :=
    fun k hk => recordOf_getElem hl hk
  have hmem : ∀ i ∈ gpios, recordOf as i ∈ as := by
    intro i hi
    obtain ⟨k, hk, rfl⟩ := List.mem_iff_getElem.mp hi
    rw [hrec k hk]
    exact List.getElem_mem _
  have hfiles : ∀ fd, t.files fd = none := by
    intro fd
    rw [hg.files, hu.files, hf]
  refine ⟨recordOf as, ?_, fun i hi => by rw [hg.heap, if_pos (hmem i hi)],
    fun i hi => by rw [hg.pins, if_pos hi], hfiles⟩
  constructor
  case baseMinor => exact h0
  case injective =>
    intro i hi j hj he
    obtain ⟨k, hk, rfl⟩ := List.mem_iff_getElem.mp hi
    obtain ⟨m, hm, rfl⟩ := List.mem_iff_getElem.mp hj
    rw [hrec k hk, hrec m hm, hg.nodup.getElem_inj_iff] at he
    subst he
    rfl
  case live =>
    intro i hi
    rw [hg.records]
    exact List.mem_append_left _ (List.mem_reverse.mpr (hmem i hi))
  case devp =>
    intro k i hk
    obtain ⟨hk', rfl⟩ := List.getElem?_eq_some_iff.mp hk
    rw [hg.devp, if_pos (by omega), hrec k hk', Nat.sub_zero, List.getElem?_eq_getElem]
  case resolve =>
    intro i hi
    obtain ⟨k, hk, rfl⟩ := List.mem_iff_getElem.mp hi
    rw [nodeDev_eq h0 hi, hg.first, resolve_pin hg hk (by omega), hrec k hk]
  case files =>
    intro fd f hfd
    rw [hfiles] at hfd
    cases hfd

/-- Truthfulness through the array of records is truthfulness pin by pin. -/
theorem Layout.truthful_iff {s : Driver} {record : Nat → Nat} (h : Layout s record) :
    Truthful s ↔ ∀ i ∈ gpios, Agrees (s.kernel.heap (record i)) (s.kernel.pins i) := by
  constructor
  · intro ht i hi
    obtain ⟨k, hk⟩ := List.getElem?_of_mem hi
    obtain ⟨a, hd, ha⟩ := ht k i hk
    rw [h.devp k i hk] at hd
    cases hd
    exact ha
  · intro ha k i hk
    exact ⟨record i, h.devp k i hk, ha i (List.mem_of_getElem? hk)⟩

/-- The registries and static variables carry the layout; only opens add to the files. -/
theorem Layout.of_framed {s t : Driver} {record : Nat → Nat} (h : Layout s record)
    (hf : Framed s t) (hfiles : ∀ fd f, t.files fd = some f →
      ∃ i ∈ gpios, f.inode = nodeDev s.first i ∧ f.privateData = some (record i)) :
    Layout t record where
  baseMinor := by rw [hf.first, h.baseMinor]
  injective := h.injective
  live := by rw [hf.reg]; exact h.live
  devp := by rw [hf.devp]; exact h.devp
  resolve := by simp only [hf.first, Kernel.resolve, hf.reg]; exact h.resolve
  files := by rw [hf.first]; exact hfiles

/-- What a write does: an error that changes nothing, or one command carried out on the
pin of the file's node and on the record of that same pin. -/
theorem Layout.write_cases {s t : Driver} {record : Nat → Nat} (h : Layout s record)
    {fd count : Nat} {payload : List UInt8} {core r : Int}
    (hs : serve s (.write fd payload count core) = some (.answered r t)) :
    ∃ i ∈ gpios, ∃ f, s.files fd = some f ∧ f.inode = nodeDev s.first i ∧
      ((r < 0 ∧ t = s ∧
        match commandOf payload count with
        | none => r = -EFAULT
        | some cmd => runCommand cmd i core (s.kernel.heap (record i)) s.kernel = .error r) ∨
      ∃ cmd dev pin calls, commandOf payload count = some cmd ∧ r = count ∧
        (∀ c ∈ calls, GpioCall.op c = .use i) ∧
        runCommand cmd i core (s.kernel.heap (record i)) s.kernel = .ok (dev, { s.kernel with
          pins := Function.update s.kernel.pins i pin
          gpioCalls := s.kernel.gpioCalls ++ calls }) ∧
        t = { s with
          kernel := { s.kernel with
            heap := Function.update s.kernel.heap (record i) dev
            pins := Function.update s.kernel.pins i pin
            gpioCalls := s.kernel.gpioCalls ++ calls }
          files := Function.update s.files fd (some { f with fPos := f.fPos + count }) }) := by
  rcases serve_cases hs with ⟨_, _, _, hq, _⟩ | ⟨_, _, hq, _⟩ | ⟨_, _, _, _, _, _, hq, _⟩ |
    ⟨fd, payload, count, core, f, a, f', k', hq, hfd, ha, _, hserved, rfl⟩
  · cases hq
  · cases hq
  · cases hq
  · cases hq
    obtain ⟨i, hi, hino, hpd⟩ := h.files fd f hfd
    obtain rfl : a = record i := Option.some.inj (ha.symm.trans hpd)
    have hm : minor f.inode = i := by rw [hino, minor_nodeDev h.baseMinor hi]
    refine ⟨i, hi, f, hfd, hino, ?_⟩
    rcases gpioLkmWrite_cases f (record i) payload count core s.kernel with ⟨-, -, hw⟩ |
      ⟨-, ⟨e, hneg, hw, hcmd⟩ | ⟨cmd, dev, k'', hcmd, hr, hw⟩⟩
    · rw [hw] at hserved
      cases hserved
    · rw [hm] at hcmd
      rw [hw] at hserved
      cases hserved
      refine Or.inl ⟨hneg, ?_, hcmd⟩
      rw [← hfd, Function.update_eq_self]
    · rw [hm] at hr
      rw [hw] at hserved
      cases hserved
      rcases runCommand_cases cmd i core (s.kernel.heap (record i)) s.kernel with
        ⟨e, _, hc⟩ | ⟨dev', pin, calls, hcalls, hc⟩
      · rw [hr] at hc
        cases hc
      · rw [hr] at hc
        cases hc
        exact Or.inr ⟨cmd, dev, pin, calls, hcmd, rfl, hcalls, hr, rfl⟩

/-- Every request keeps the layout. -/
theorem Layout.kept {s t : Driver} {record : Nat → Nat} {q : Request} {r : Int}
    (h : Layout s record) (hs : serve s q = some (.answered r t)) : Layout t record := by
  apply h.of_framed (serve_framed hs)
  intro fd f hfd
  rcases serve_cases hs with ⟨fd', dev, a, _, _, hd, ha, _, rfl⟩ | ⟨fd', f', _, hf', _, rfl⟩ |
    ⟨_, _, _, _, f', _, _, _, rfl⟩ | ⟨fd', payload, count, core, _, _, _, _, rfl, _⟩
  · simp only [Function.update_apply] at hfd
    split at hfd
    · cases hfd
      obtain ⟨i, hi, rfl⟩ := List.mem_map.mp hd
      exact ⟨i, hi, rfl, ha.symm.trans (h.resolve i hi)⟩
    · exact h.files fd f hfd
  · simp only [Function.update_apply] at hfd
    split at hfd
    · cases hfd
    · exact h.files fd f hfd
  · exact h.files fd f hfd
  · obtain ⟨i, hi, g, hg, hino, ⟨_, rfl, _⟩ | ⟨_, _, _, _, _, _, _, _, rfl⟩⟩ := h.write_cases hs
    · exact h.files fd f hfd
    · simp only [Function.update_apply] at hfd
      split at hfd
      · cases hfd
        exact h.files fd' g hg
      · exact h.files fd f hfd

/-- The layout holds throughout every run of requests. -/
theorem Layout.run {s t : Driver} {record : Nat → Nat} {as : List (Request × Int)}
    (h : Layout s record) (hr : Run step s as t) : Layout t record :=
  hr.invariant (I := fun u => Layout u record) h
    fun _ _ _ hi hs => hi.kept (step_eq_some.mp hs)

/-- A write on an open file that stays inside its buffer is answered: the record is live. -/
theorem Layout.write_served {s : Driver} {record : Nat → Nat} (h : Layout s record)
    {fd count : Nat} {f : File} (hfd : s.files fd = some f) {payload : List UInt8}
    (hfits : ¬ (count = 0 ∧ BUF_SIZE < payload.length)) (core : Int) :
    ∃ r t, serve s (.write fd payload count core) = some (.answered r t) := by
  obtain ⟨i, hi, _, hpd⟩ := h.files fd f hfd
  obtain ⟨r, f', k', hw⟩ : ∃ r f' k',
      gpioLkmWrite f (record i) payload count core s.kernel = some (r, f', k') := by
    rcases gpioLkmWrite_cases f (record i) payload count core s.kernel with ⟨h0, hmany, -⟩ |
      ⟨-, ⟨e, -, hw, -⟩ | ⟨cmd, dev, k', -, -, hw⟩⟩
    · exact absurd ⟨h0, hmany⟩ hfits
    · exact ⟨_, _, _, hw⟩
    · exact ⟨_, _, _, hw⟩
  refine ⟨r, { s with kernel := k', files := Function.update s.files fd (some f') }, ?_⟩
  simp only [serve, hfd, hpd, Option.bind_eq_bind, Option.bind_some, h.live i hi, ite_true, hw]

/-- From a truthful state a step is truthful exactly when it is not refused. -/
theorem Layout.truthful_step_iff {s t : Driver} {record : Nat → Nat} (h : Layout s record)
    (ht : Truthful s) {q : Request} {r : Int} (hs : serve s q = some (.answered r t)) :
    Truthful t ↔ ¬ Refused s (q, r) := by
  rcases serve_cases hs with ⟨_, _, _, rfl, _, _, _, _, rfl⟩ | ⟨_, _, rfl, _, _, rfl⟩ |
    ⟨_, _, _, _, _, _, rfl, _, rfl⟩ | ⟨fd, payload, count, core, _, _, _, _, rfl, _⟩
  · exact iff_of_true ht id
  · exact iff_of_true ht id
  · exact iff_of_true ht id
  · obtain ⟨i, hi, f, hfd, hino, hcases⟩ := h.write_cases hs
    obtain ⟨j, hj, hinoj, hpd⟩ := h.files fd f hfd
    obtain rfl : j = i := by
      rw [← minor_nodeDev h.baseMinor hj, ← hinoj, hino, minor_nodeDev h.baseMinor hi]
    have hrefused : Refused s (.write fd payload count core, r) ↔ ∃ cmd,
        commandOf payload count = some cmd ∧ CoreRefuses cmd core (s.kernel.heap (record j)) := by
      simp [Refused, hfd, hpd]
    rw [hrefused]
    rcases hcases with ⟨_, rfl, hcmd⟩ | ⟨cmd, dev, pin, calls, hcmd, _, _, hrun, rfl⟩
    · apply iff_of_true ht
      rintro ⟨cmd, hc, hneg, hdir⟩
      rw [hc] at hcmd
      rcases hdir with ⟨rfl, _⟩ | ⟨rfl, _⟩ <;> simp only [runCommand] at hcmd <;>
        split at hcmd <;> cases hcmd
    · have hkept := h.kept hs
      have ha := h.truthful_iff.mp ht
      have hagree := runCommand_agrees hrun (ha j hi)
      simp only [hcmd, Option.some.injEq, exists_eq_left']
      rw [← hagree, hkept.truthful_iff]
      constructor
      · intro hall
        simpa using hall j hi
      · intro hj i hi'
        by_cases hij : i = j
        · subst hij
          simpa using hj
        · have hne : record i ≠ record j := fun he => hij (h.injective i hi' j hi he)
          simpa [hij, hne] using ha i hi'

end OsCourseLabs.Gpio
