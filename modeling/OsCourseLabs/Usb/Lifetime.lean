import OsCourseLabs.Usb.Driver

/-!
# Lifetime of the driver object

The reference count equals the references that exist: one for the binding until the
disconnect drops it, and one for each file that took one and is not released. The object
is deleted when the last goes, and whatever still refers to it holds a reference.
-/

namespace OsCourseLabs.Usb

open Slots Transition

/-- Count, deletion and registration fit the files, the calls and the disconnect. -/
structure Counted (s : Device) : Prop where
  kref : s.kref = (if s.disconnect = .done then 0 else 1) + s.files.countP FilePc.holds
  deleted : s.deleted = if s.kref = 0 then 1 else 0
  registered : s.registered = true → s.disconnect ≠ .deregistered ∧ s.disconnect ≠ .done
  opening : ∀ pc ∈ s.files, FilePc.opening pc = true → s.registered = true
  calls : ∀ call ∈ s.calls, call.io.result = none → s.files[call.file]? = some .opened

/-- The action reads or writes the driver object. -/
def Touches (s : Device) : Action → Prop
  | .openStep f => s.files[f]? = some .get
  | .callStep _ | .release _ => True
  | .disconnectStep => s.disconnect = .deregistered
  | .openBegin | .readBegin _ _ | .writeBegin _ _ | .complete _ _ => False

/-- A call that takes a step has not returned before it. -/
theorem Io.result_of_next {cfg : Config} {c : Nat} {sh : Shared} {io : Io}
    {r : Shared × Io × List Event} (h : io.next cfg c sh = some r) : io.result = none := by
  obtain ⟨q, pc⟩ | ⟨q, pc⟩ := io
  · cases pc <;> first | rfl | cases h
  · cases pc <;> first | rfl | cases h

/-- An open file holds a reference. -/
theorem Counted.kref_pos_of_opened {s : Device} (h : Counted s) {f : Nat}
    (hf : s.files[f]? = some .opened) : 0 < s.kref := by
  have hpos : 0 < s.files.countP FilePc.holds := countP_pos_of_getElem? hf rfl
  have hk := h.kref
  omega

/-- A device that is not disconnected holds a reference. -/
theorem Counted.kref_pos_of_bound {s : Device} (h : Counted s) (hd : s.disconnect ≠ .done) :
    0 < s.kref := by
  have hk := h.kref
  rw [if_neg hd] at hk
  omega

/-- An object with references is not deleted. -/
theorem Counted.alive {s : Device} (h : Counted s) (hk : 0 < s.kref) : s.deleted = 0 := by
  rw [h.deleted, if_neg (by omega)]

/-- Dropping a reference that exists keeps count and deletion in step. -/
theorem krefPut_deleted {s : Device} (hk : 0 < s.kref)
    (hd : s.deleted = if s.kref = 0 then 1 else 0) :
    s.krefPut.deleted = if s.krefPut.kref = 0 then 1 else 0 := by
  have hkref : s.krefPut.kref = s.kref - 1 := rfl
  have hdel : s.krefPut.deleted = if s.kref = 1 then s.deleted + 1 else s.deleted := rfl
  rw [if_neg (by omega)] at hd
  rw [hdel, hkref, hd]
  by_cases h1 : s.kref = 1
  · simp [h1]
  · rw [if_neg h1, if_neg (by omega)]

/-- Another file's slot is as it was. -/
private theorem opened_set {s : Device} {f g : Nat} {x y : FilePc}
    (hg : s.files[g]? = some .opened) (hf : s.files[f]? = some x) (hx : x ≠ .opened) :
    (s.files.set f y)[g]? = some .opened := by
  have hne : f ≠ g := by
    rintro rfl
    exact hx (Option.some.inj (hf.symm.trans hg))
  rw [List.getElem?_set_ne hne, hg]

/-- An open that goes on or fails without taking a reference. -/
private theorem Counted.set_file {s : Device} (h : Counted s) {f : Nat} {x y : FilePc}
    (hf : s.files[f]? = some x) (hx : x.opening = true) (hxy : x.holds = y.holds) :
    Counted { s with files := s.files.set f y } := by
  have hcount := countP_set_add (y := y) hf FilePc.holds
  have hreg := h.opening x (List.mem_of_getElem? hf) hx
  refine ⟨?_, h.deleted, h.registered, fun _ _ _ => hreg, fun call hc hr => ?_⟩
  · rw [← hxy] at hcount
    rw [h.kref]
    simp only
    omega
  · exact opened_set (h.calls call hc hr) hf (by rintro rfl; cases hx)

/-- A call is issued only on an open file. -/
private theorem Counted.append_call {s : Device} (h : Counted s) {call : Call}
    (hf : s.files[call.file]? = some .opened) :
    Counted { s with calls := s.calls ++ [call] } :=
  ⟨h.kref, h.deleted, h.registered, h.opening,
    List.forall_mem_append.mpr ⟨h.calls, List.forall_mem_singleton.mpr fun _ => hf⟩⟩

/-- Every step keeps the count. -/
theorem Counted.step {cfg : Config} {s t : Device} {a : Action} (h : Counted s)
    (hs : Effect cfg s a t) : Counted t := by
  cases hs with
  | openBegin hr =>
    refine ⟨?_, h.deleted, h.registered, fun _ _ _ => hr, fun call hc hres => ?_⟩
    · simpa [FilePc.holds] using h.kref
    · have hf := h.calls call hc hres
      rw [List.getElem?_append_left (List.getElem?_eq_some_iff.mp hf).1, hf]
  | openFind hf | openFetch hf =>
    apply h.set_file hf rfl
    split <;> rfl
  | openGet hf =>
    have hcount := countP_set_add (y := FilePc.store) hf FilePc.holds
    have hreg := h.opening _ (List.mem_of_getElem? hf) rfl
    have hpos := h.kref_pos_of_bound (h.registered hreg).2
    have hk := h.kref
    refine ⟨?_, ?_, h.registered, fun _ _ _ => hreg, fun call hc hr => ?_⟩
    · simp only [FilePc.holds, Bool.false_eq_true, ite_false, ite_true] at hcount ⊢
      omega
    · rw [if_neg (Nat.succ_ne_zero _)]
      exact h.alive hpos
    · exact opened_set (h.calls call hc hr) hf (by simp)
  | openStore hf => exact h.set_file hf rfl rfl
  | readBegin hf _ => exact h.append_call hf
  | writeBegin hf => exact h.append_call hf
  | @callStep c call sh io es hc hn =>
    refine ⟨h.kref, h.deleted, h.registered, h.opening, forall_mem_set h.calls fun _ => ?_⟩
    exact h.calls call (List.mem_of_getElem? hc) (Io.result_of_next hn)
  | @release f hf hret =>
    have hcount := countP_set_add (y := FilePc.released) hf FilePc.holds
    have hpos := h.kref_pos_of_opened hf
    have hk := h.kref
    refine ⟨?_, krefPut_deleted hpos h.deleted, h.registered,
      fun pc hpc ho => ?_, fun call hc hr => ?_⟩
    · simp only [Device.krefPut]
      simp only [FilePc.holds, Bool.false_eq_true, ite_false, ite_true] at hcount
      omega
    · rcases List.mem_or_eq_of_mem_set hpc with hm | rfl
      · exact h.opening pc hm ho
      · cases ho
    · have hne : f ≠ call.file := fun he => hret call hc he.symm hr
      exact (List.getElem?_set_ne hne).trans (h.calls call hc hr)
  | disconnectFetch hd =>
    refine ⟨?_, h.deleted, fun _ => ⟨by simp, by simp⟩, h.opening, h.calls⟩
    simpa [hd] using h.kref
  | disconnectClear hd =>
    refine ⟨?_, h.deleted, fun _ => ⟨by simp, by simp⟩, h.opening, h.calls⟩
    simpa [hd] using h.kref
  | disconnectDeregister hd ho =>
    refine ⟨?_, h.deleted, fun hr => absurd hr (by simp), fun pc hpc hop => ?_, h.calls⟩
    · simpa [hd] using h.kref
    · rw [ho pc hpc] at hop
      cases hop
  | disconnectPut hd =>
    have hpos := h.kref_pos_of_bound (by rw [hd]; simp)
    have hk := h.kref
    rw [hd] at hk
    refine ⟨?_, krefPut_deleted hpos h.deleted, fun hr => absurd hd (h.registered hr).1,
      h.opening, h.calls⟩
    simp only [Device.krefPut, reduceCtorEq, ite_false, ite_true] at hk ⊢
    omega
  | complete _ => exact ⟨h.kref, h.deleted, h.registered, h.opening, h.calls⟩

/-- The probe leaves one reference, that of the device. -/
theorem probed_counted (cfg : Config) : Counted (probed cfg) :=
  ⟨rfl, rfl, fun _ => ⟨by simp [probed], by simp [probed]⟩, by simp [probed], by simp [probed]⟩

/-- The references are counted along every run. -/
theorem run_counted {cfg : Config} {t : Device} {as : List Action}
    (h : Run (step cfg) (probed cfg) as t) : Counted t :=
  h.invariant (probed_counted cfg) fun _ _ _ hi hs => hi.step (effect_of_step hs)

/-- Whoever is about to touch the object holds a reference on it. -/
theorem Counted.alive_of_touches {cfg : Config} {s t : Device} {a : Action} (h : Counted s)
    (hs : Effect cfg s a t) (ht : Touches s a) : s.deleted = 0 := by
  apply h.alive
  cases hs with
  | openBegin | readBegin | writeBegin | complete => exact ht.elim
  | openFind hf | openFetch hf | openStore hf =>
    rw [Touches, hf] at ht
    cases ht
  | openGet hf =>
    have hreg := h.opening _ (List.mem_of_getElem? hf) rfl
    exact h.kref_pos_of_bound (h.registered hreg).2
  | @callStep c call sh io es hc hn =>
    exact h.kref_pos_of_opened (h.calls call (List.mem_of_getElem? hc) (Io.result_of_next hn))
  | release hf _ => exact h.kref_pos_of_opened hf
  | disconnectFetch hd | disconnectClear hd | disconnectDeregister hd _ =>
    rw [Touches, hd] at ht
    cases ht
  | disconnectPut hd => exact h.kref_pos_of_bound (by rw [hd]; simp)

/-- In every run of a probed device the count equals the references that exist, the object
has been deleted once if none is left and not at all otherwise, and no open, read, write,
release or disconnect touches it after its deletion. -/
theorem stm32leds_lifetime {cfg : Config} {t : Device} {as : List Action}
    (hrun : Run (step cfg) (probed cfg) as t) :
    t.kref = (if t.disconnect = .done then 0 else 1) + t.files.countP FilePc.holds ∧
    t.deleted =
      (if t.disconnect = .done ∧ ∀ pc ∈ t.files, FilePc.holds pc = false then 1 else 0) ∧
    Along (step cfg) (probed cfg) as fun u a => Touches u a → u.deleted = 0 := by
  have h := run_counted hrun
  refine ⟨h.kref, ?_, hrun.along fun pre u a v _ hu hs ht =>
    (run_counted hu).alive_of_touches (effect_of_step hs) ht⟩
  have hzero : t.kref = 0 ↔ t.disconnect = .done ∧ ∀ pc ∈ t.files, FilePc.holds pc = false := by
    rw [h.kref]
    by_cases hd : t.disconnect = .done
    · simp [hd]
    · simp [hd]
  rw [h.deleted]
  simp only [hzero]

/-- The theorem applies: the last release deletes the object. -/
theorem stm32leds_lifetime_released :
    ∃ t, Run (step .tenBytes) (probed .tenBytes) (openThenUnplug ++ [.release 0]) t ∧
      t.kref = 0 ∧ t.deleted = 1 := by
  have he : (exec (step .tenBytes) (probed .tenBytes) (openThenUnplug ++ [.release 0])).map
      (fun t => (t.disconnect, t.files)) = some (.done, [.released]) := by decide
  obtain ⟨t, hrun, hv⟩ := run_of_observed he
  obtain ⟨hd, hf⟩ := Prod.mk.inj hv
  obtain ⟨hk, hdel, -⟩ := stm32leds_lifetime hrun
  rw [hd, hf] at hk hdel
  exact ⟨t, hrun, hk, hdel⟩

end OsCourseLabs.Usb
