import OsCourseLabs.Core.Errno
import OsCourseLabs.Core.Instances
import OsCourseLabs.Core.Transition

/-!
# Instances of the dummy IIO device

User space makes and removes instances at will. A probe acquires what an instance is made of
in an order and undoes it on failure, a remove gives it back. Two pieces escape: the name,
when a probe fails once it has it, and the software device, which no remove frees.
-/

namespace OsCourseLabs.Iio.Dummy

open Ledger Transition

/-- What an instance is made of. -/
inductive Piece where
  /-- From `kzalloc`. -/
  | swd
  /-- From `iio_device_alloc`. -/
  | indioDev
  /-- From `kstrdup`. -/
  | name
  | events
  | buffer
  | registration
  deriving DecidableEq, Repr

/-- What the environment answers to the calls of one probe. -/
structure ProbeOutcomes where
  kzalloc : Bool
  deviceAlloc : Bool
  kstrdup : Bool
  eventsRegister : Int
  configureBuffer : Int
  deviceRegister : Int
  deriving DecidableEq, Repr

/-- A software device or an error, and what was acquired and released. -/
abbrev ProbeResult := Except Int Unit × List (Op Piece)

/-! The error labels of the probe, each falling through to the next. -/

/-- `error_kzalloc`: nothing is given back. -/
def errorKzalloc (ret : Int) (ops : List (Op Piece)) : ProbeResult := (.error ret, ops)

/-- `error_ret`: the software device is freed. -/
def errorRet (ret : Int) (ops : List (Op Piece)) : ProbeResult :=
  errorKzalloc ret (ops ++ [.release .swd])

/-- `error_free_device`. -/
def errorFreeDevice (ret : Int) (ops : List (Op Piece)) : ProbeResult :=
  errorRet ret (ops ++ [.release .indioDev])

/-- `error_unregister_events`. -/
def errorUnregisterEvents (ret : Int) (ops : List (Op Piece)) : ProbeResult :=
  errorFreeDevice ret (ops ++ [.release .events])

/-- `error_unconfigure_buffer`. -/
def errorUnconfigureBuffer (ret : Int) (ops : List (Op Piece)) : ProbeResult :=
  errorUnregisterEvents ret (ops ++ [.release .buffer])

/-- `iio_dummy_probe`. -/
def iioDummyProbe (o : ProbeOutcomes) : ProbeResult :=
  if o.kzalloc then
    if o.deviceAlloc then
      -- the copy of the name is not checked, and a null name is none
      let named : List (Op Piece) :=
        [.acquire .swd, .acquire .indioDev] ++ if o.kstrdup then [.acquire .name] else []
      if o.eventsRegister < 0 then errorFreeDevice o.eventsRegister named
      else if o.configureBuffer < 0 then
        errorUnregisterEvents o.configureBuffer (named ++ [.acquire .events])
      else if o.deviceRegister < 0 then
        errorUnconfigureBuffer o.deviceRegister (named ++ [.acquire .events, .acquire .buffer])
      else (.ok (), named ++ [.acquire .events, .acquire .buffer, .acquire .registration])
    else errorRet (-ENOMEM) [.acquire .swd]
  else errorKzalloc (-ENOMEM) []

/-- The remove of an instance that the probe with these answers made. -/
def iioDummyRemove (o : ProbeOutcomes) : List (Op Piece) :=
  [.release .registration, .release .buffer, .release .events] ++
    (if o.kstrdup then [.release .name] else []) ++ [.release .indioDev]

/-- The probes so far, the instances removed, and the ledger of all pieces. -/
structure Instances where
  probes : List ProbeOutcomes
  removed : List Nat
  ledger : List (Op (Piece × Nat))
  deriving DecidableEq, Repr

/-- No instance was ever made. -/
def Instances.start : Instances := ⟨[], [], []⟩

/-- What user space asks for through the configuration file system. -/
inductive Request where
  | make (o : ProbeOutcomes)
  | drop (n : Nat)
  deriving DecidableEq, Repr

/-- The probe makes an instance. -/
def ProbeOutcomes.succeeds (o : ProbeOutcomes) : Bool := (iioDummyProbe o).1.toBool

/-- Only an instance that was made can be removed, and only once. -/
def step (u : Instances) : Request → Option Instances
  | .make o =>
    some ⟨u.probes ++ [o], u.removed,
      u.ledger ++ (iioDummyProbe o).2.map (Op.tag u.probes.length)⟩
  | .drop n =>
    match u.probes[n]? with
    | some o =>
      if o.succeeds ∧ n ∉ u.removed then
        some ⟨u.probes, u.removed ++ [n], u.ledger ++ (iioDummyRemove o).map (Op.tag n)⟩
      else none
    | none => none

/-- What became of the pieces of a probe: a live instance has all of them, a removed one still
its software device, and a failed probe its name, if it came to copy it. -/
def kept (o : ProbeOutcomes) (removed : Prop) [Decidable removed] : List Piece :=
  if o.succeeds then
    if removed then [.swd]
    else [.swd, .indioDev, .events, .buffer, .registration] ++ if o.kstrdup then [.name] else []
  else if o.kzalloc ∧ o.deviceAlloc ∧ o.kstrdup then [.name]
  else []

/-- The whole ledger of an instance. -/
def history (o : ProbeOutcomes) (removed : Prop) [Decidable removed] : List (Op Piece) :=
  (iioDummyProbe o).2 ++ if removed then iioDummyRemove o else []

/-- Every instance has its own history, and only one that was made is removed. -/
structure Inv (u : Instances) : Prop where
  removed : ∀ n ∈ u.removed, ∃ o, u.probes[n]? = some o ∧ o.succeeds
  log : ∀ n, instanceLog n u.ledger = (u.probes[n]?.map fun o => history o (n ∈ u.removed)).getD []

/-- With no instances there is nothing to account for. -/
theorem inv_start : Inv Instances.start :=
  ⟨by simp [Instances.start], fun n => by simp [Instances.start, instanceLog]⟩

/-- Making and dropping an instance keeps the accounts of all. -/
theorem step_inv {u v : Instances} {r : Request} (hs : step u r = some v) (h : Inv u) :
    Inv v := by
  cases r with
  | make o =>
    cases hs
    have hlast : u.probes.length ∉ u.removed := fun hmem => by
      obtain ⟨_, hget, _⟩ := h.removed _ hmem
      simp at hget
    constructor
    · intro n hn
      obtain ⟨p, hget, hp⟩ := h.removed n hn
      exact ⟨p, by rw [List.getElem?_append_left (List.getElem?_eq_some_iff.mp hget).1, hget], hp⟩
    · intro n
      rw [instanceLog_append, instanceLog_tag, h.log n]
      by_cases hn : u.probes.length = n
      · subst hn
        simp [history, hlast]
      · rw [if_neg hn, List.append_nil]
        rcases Nat.lt_or_gt_of_ne hn with hlt | hgt
        · rw [List.getElem?_eq_none (by omega), List.getElem?_eq_none (by simp; omega)]
        · rw [List.getElem?_append_left hgt]
  | drop n =>
    simp only [step] at hs
    split at hs
    · next o hget =>
      simp only [Option.ite_none_right_eq_some] at hs
      obtain ⟨⟨hok, hnew⟩, hs⟩ := hs
      cases hs
      constructor
      · intro m hm
        rcases List.mem_append.mp hm with hm | hm
        · exact h.removed m hm
        · rw [List.mem_singleton.mp hm]
          exact ⟨o, hget, hok⟩
      · intro m
        rw [instanceLog_append, instanceLog_tag, h.log m]
        by_cases hm : n = m
        · subst hm
          simp [hget, history, hnew]
        · have hne : m ≠ n := fun he => hm he.symm
          simp [hm, hne]
    · cases hs

/-- How a probe ends: it fails and keeps at most the name, or it makes an instance. -/
inductive ProbeEnds (o : ProbeOutcomes) : ProbeResult → Prop
  | failed {ret ops} : Disciplined ops →
    (∀ p, Held ops p ↔ p ∈ if o.kzalloc ∧ o.deviceAlloc ∧ o.kstrdup then [Piece.name] else []) →
    ProbeEnds o (.error ret, ops)
  | made : ProbeEnds o (.ok (), [.acquire .swd, .acquire .indioDev] ++
      (if o.kstrdup then [.acquire .name] else []) ++
      [.acquire .events, .acquire .buffer, .acquire .registration])

/-- Each way through the probe is one of the ends. -/
theorem iioDummyProbe_ends (o : ProbeOutcomes) : ProbeEnds o (iioDummyProbe o) := by
  cases hswd : o.kzalloc with
  | false =>
    simp only [iioDummyProbe, hswd]
    refine .failed (by decide) fun p => ?_
    simp only [hswd, Bool.false_eq_true, false_and, ite_false]
    cases p <;> decide
  | true =>
    cases hdev : o.deviceAlloc with
    | false =>
      simp only [iioDummyProbe, hswd, hdev]
      refine .failed (by decide) fun p => ?_
      simp only [hdev, Bool.false_eq_true, false_and, and_false, ite_false]
      cases p <;> decide
    | true =>
      simp only [iioDummyProbe, hswd, hdev, ite_true]
      split
      · cases hname : o.kstrdup <;>
          exact .failed (by decide) fun p => by simp only [hswd, hdev, hname]; cases p <;> decide
      · split
        · cases hname : o.kstrdup <;>
            exact .failed (by decide) fun p => by simp only [hswd, hdev, hname]; cases p <;> decide
        · split
          · cases hname : o.kstrdup <;>
              exact .failed (by decide) fun p => by
                simp only [hswd, hdev, hname]
                cases p <;> decide
          · exact .made

/-- The history of one instance is disciplined and leaves what is said to be kept. -/
theorem history_account (o : ProbeOutcomes) (removed : Prop) [Decidable removed]
    (hr : removed → o.succeeds) :
    Disciplined (history o removed) ∧ ∀ p, Held (history o removed) p ↔ p ∈ kept o removed := by
  have hends := iioDummyProbe_ends o
  generalize hprobe : iioDummyProbe o = r at hends
  cases hends with
  | failed hd hkept =>
    have hfail : o.succeeds = false := by simp [ProbeOutcomes.succeeds, hprobe, Except.toBool]
    have hlive : ¬removed := fun h => by simp [hfail] at hr; exact hr h
    simpa only [history, hprobe, kept, hfail, hlive, ite_false, List.append_nil, Bool.false_eq_true]
      using And.intro hd hkept
  | made =>
    have hok : o.succeeds = true := by simp [ProbeOutcomes.succeeds, hprobe, Except.toBool]
    simp only [history, hprobe, kept, hok, iioDummyRemove, ite_true]
    by_cases hrem : removed <;> simp only [hrem, ite_true, ite_false] <;>
      cases o.kstrdup <;> exact ⟨by decide, fun p => by cases p <;> decide⟩

/-- Whichever instances are made and removed, in whatever order and however their probes fail,
nothing is released that is not held, no instance touches the pieces of another, and what is
held of an instance is exactly what is said to be kept. -/
theorem iioDummy_instances_account {u : Instances} {rs : List Request}
    (hr : Run step Instances.start rs u) :
    Disciplined u.ledger ∧
      ∀ n p, Held u.ledger (p, n) ↔ ∃ o, u.probes[n]? = some o ∧ p ∈ kept o (n ∈ u.removed) := by
  have hinv := hr.invariant inv_start fun _ _ _ hi hs => step_inv hs hi
  have haccount : ∀ n, Disciplined (instanceLog n u.ledger) ∧ ∀ p, Held (instanceLog n u.ledger) p ↔
      ∃ o, u.probes[n]? = some o ∧ p ∈ kept o (n ∈ u.removed) := by
    intro n
    rw [hinv.log n]
    cases hget : u.probes[n]? with
    | none => exact ⟨Disciplined.nil, fun p => by simp [Held]⟩
    | some o =>
      have hrem : n ∈ u.removed → o.succeeds := fun hmem => by
        obtain ⟨o', hget', hok⟩ := hinv.removed n hmem
        rwa [Option.some.inj (hget.symm.trans hget')]
      simpa using history_account o (n ∈ u.removed) hrem
  refine ⟨disciplined_of_instanceLog fun n => (haccount n).1, fun n p => ?_⟩
  rw [← held_instanceLog]
  exact (haccount n).2 p

/-- An instance that was removed keeps its software device, and one that could not be
registered its name. -/
theorem iioDummy_instances_account_leaks :
    ∃ u, Run step Instances.start
      [.make ⟨true, true, true, 0, 0, 0⟩, .make ⟨true, true, true, 0, 0, -5⟩, .drop 0] u ∧
      Disciplined u.ledger ∧ Held u.ledger (.swd, 0) ∧ Held u.ledger (.name, 1) := by
  obtain ⟨u, hrun, hu⟩ := run_of_observed (f := fun u : Instances => (u.probes, u.removed))
    (show (exec step Instances.start
      [.make ⟨true, true, true, 0, 0, 0⟩, .make ⟨true, true, true, 0, 0, -5⟩, .drop 0]).map
        _ = some ([⟨true, true, true, 0, 0, 0⟩, ⟨true, true, true, 0, 0, -5⟩], [0]) from rfl)
  obtain ⟨hprobes, hremoved⟩ := Prod.mk.inj hu
  obtain ⟨hd, hheld⟩ := iioDummy_instances_account hrun
  refine ⟨u, hrun, hd, (hheld 0 .swd).mpr ⟨_, by rw [hprobes]; rfl, ?_⟩,
    (hheld 1 .name).mpr ⟨_, by rw [hprobes]; rfl, ?_⟩⟩
  · rw [hremoved]; decide
  · rw [hremoved]; decide

end OsCourseLabs.Iio.Dummy
