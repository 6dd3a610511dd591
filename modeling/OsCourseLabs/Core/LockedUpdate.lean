import OsCourseLabs.Core.Transition
import Mathlib.Logic.Function.Basic

/-!
# Read-modify-write under a lock

Threads share cells and a lock. A thread takes the lock, loads a cell, stores it changed and
gives the lock back; it may give up on the way, or only look at the cells. Nothing but the
lock keeps the threads apart. Their stores then work as if each changed the memory at once.
-/

namespace OsCourseLabs.LockedUpdate

open Transition

/-- Where a thread is: outside, or in the section with its update to load, to store, or with
nothing left to store. -/
inductive Phase (ω β : Type*) where
  | outside
  | locked (op : ω)
  | loaded (op : ω) (v : β)
  | inside
  deriving DecidableEq, Repr

/-- The shared cells, the thread that has the lock, and where each thread is. -/
structure State (θ ω ι β : Type*) where
  mem : ι → β
  owner : Option θ
  phase : θ → Phase ω β

/-- A step of a thread. -/
inductive Act (θ ω : Type*) where
  /-- Take the lock for an update. -/
  | lock (t : θ) (op : ω)
  /-- Take the lock to look at the cells. -/
  | look (t : θ)
  | load (t : θ)
  | store (t : θ) (op : ω)
  /-- Give up an update that is not stored. -/
  | fail (t : θ)
  | unlock (t : θ)
  deriving DecidableEq, Repr

variable {θ ω ι β : Type*} {cell : ω → ι} {change : ω → β → β}

/-- The updates stored, in the order of their stores. -/
def commits (as : List (Act θ ω)) : List ω :=
  as.filterMap fun
    | .store _ op => some op
    | _ => none

/-- Updates are stored in the order of the steps. -/
theorem commits_append (as bs : List (Act θ ω)) : commits (as ++ bs) = commits as ++ commits bs :=
  List.filterMap_append

/-- A thread is in the section exactly when it has the lock, and what it loaded is still there. -/
structure Inv (cell : ω → ι) (s : State θ ω ι β) : Prop where
  owner_iff : ∀ t, s.owner = some t ↔ s.phase t ≠ .outside
  fresh : ∀ t op v, s.phase t = .loaded op v → v = s.mem (cell op)

/-- Two threads are never in the section together. -/
theorem Inv.exclusive {s : State θ ω ι β} (h : Inv cell s) {t u : θ} (ht : s.phase t ≠ .outside)
    (hu : s.phase u ≠ .outside) : t = u :=
  Option.some.inj (((h.owner_iff t).mpr ht).symm.trans ((h.owner_iff u).mpr hu))

/-- A memory in which nobody has the lock or is in the section. -/
def State.start (mem : ι → β) : State θ ω ι β := ⟨mem, none, fun _ => .outside⟩

/-- At the start no thread is in the section. -/
theorem inv_start (mem : ι → β) : Inv cell (State.start mem : State θ ω ι β) :=
  ⟨fun _ => iff_of_false (by simp [State.start]) (by simp [State.start]), fun _ _ _ h => by cases h⟩

variable [DecidableEq θ]

/-- A thread in another phase. -/
def State.move (s : State θ ω ι β) (t : θ) (p : Phase ω β) : State θ ω ι β :=
  { s with phase := Function.update s.phase t p }

/-- Moving a thread leaves the lock where it is. -/
@[simp] theorem State.move_owner (s : State θ ω ι β) (t : θ) (p : Phase ω β) :
    (s.move t p).owner = s.owner := rfl

/-- Moving a thread leaves the phases of the others. -/
theorem State.move_phase (s : State θ ω ι β) (t u : θ) (p : Phase ω β) :
    (s.move t p).phase u = if u = t then p else s.phase u := by
  by_cases h : u = t
  · subst h
    simp [move]
  · simp [move, h]

/-- A thread outside takes the lock: it alone is in the section. -/
theorem Inv.enter {s : State θ ω ι β} (h : Inv cell s) {t : θ} {p : Phase ω β}
    (hp : p ≠ .outside) (hnew : ∀ op v, p ≠ .loaded op v) (ho : s.owner = none) :
    Inv cell { s.move t p with owner := some t } := by
  have hout : ∀ u, s.phase u = .outside := fun u => by
    by_contra hu
    exact absurd (ho.symm.trans ((h.owner_iff u).mpr hu)) (by simp)
  refine ⟨fun u => ?_, fun u op v hl => ?_⟩
  · rw [State.move_phase]
    by_cases hu : u = t
    · subst hu
      simp [hp]
    · simp [hu, hout u, Ne.symm hu]
  · rw [State.move_phase] at hl
    by_cases hu : u = t
    · rw [if_pos hu] at hl
      exact absurd hl (hnew op v)
    · rw [if_neg hu, hout u] at hl
      cases hl

/-- The thread in the section moves on in it; what it has loaded by then is in the memory. -/
theorem Inv.advance {s : State θ ω ι β} (h : Inv cell s) {t : θ} {p : Phase ω β} {mem : ι → β}
    (hin : s.phase t ≠ .outside) (hp : p ≠ .outside)
    (hnew : ∀ op v, p = .loaded op v → v = mem (cell op)) :
    Inv cell { s.move t p with mem := mem } := by
  refine ⟨fun u => ?_, fun u op v hl => ?_⟩
  · rw [State.move_phase]
    by_cases hu : u = t
    · subst hu
      simpa [hp] using (h.owner_iff u).mpr hin
    · simpa [hu] using h.owner_iff u
  · rw [State.move_phase] at hl
    by_cases hu : u = t
    · rw [if_pos hu] at hl
      exact hnew op v hl
    · rw [if_neg hu] at hl
      have hne : s.phase u ≠ .outside := fun ho => absurd (ho.symm.trans hl) (by simp)
      exact absurd (h.exclusive hne hin) hu

/-- The thread in the section leaves it: nobody is in it. -/
theorem Inv.leave {s : State θ ω ι β} (h : Inv cell s) {t : θ} (hin : s.phase t ≠ .outside) :
    Inv cell { s.move t .outside with owner := none } := by
  have hout : ∀ u, (s.move t .outside).phase u = .outside := fun u => by
    rw [State.move_phase]
    by_cases hu : u = t
    · simp [hu]
    · rw [if_neg hu]
      by_contra hne
      exact hu (h.exclusive hne hin)
  refine ⟨fun u => ?_, fun u op v hl => ?_⟩
  · simp [hout u]
  · exact absurd ((hout u).symm.trans hl) (by simp)

variable [DecidableEq ω] [DecidableEq ι]

/-- An update as a change of the memory in one step. -/
def apply (cell : ω → ι) (change : ω → β → β) (mem : ι → β) (op : ω) : ι → β :=
  Function.update mem (cell op) (change op (mem (cell op)))

/-- Each act has its phase, and the lock is taken only when it is free. -/
def step (cell : ω → ι) (change : ω → β → β) (s : State θ ω ι β) :
    Act θ ω → Option (State θ ω ι β)
  | .lock t op =>
    match s.phase t, s.owner with
    | .outside, none => some { s.move t (.locked op) with owner := some t }
    | _, _ => none
  | .look t =>
    match s.phase t, s.owner with
    | .outside, none => some { s.move t .inside with owner := some t }
    | _, _ => none
  | .load t =>
    match s.phase t with
    | .locked op => some (s.move t (.loaded op (s.mem (cell op))))
    | _ => none
  | .store t op =>
    match s.phase t with
    | .loaded op' v =>
      if op' = op then
        some { s.move t .inside with mem := Function.update s.mem (cell op) (change op v) }
      else none
    | _ => none
  | .fail t =>
    match s.phase t with
    | .locked _ => some (s.move t .inside)
    | .loaded _ _ => some (s.move t .inside)
    | _ => none
  | .unlock t =>
    match s.phase t with
    | .inside => some { s.move t .outside with owner := none }
    | _ => none

/-- Every step keeps the invariant, and changes the memory as the update it stores does at once. -/
theorem step_spec {s s' : State θ ω ι β} {a : Act θ ω} (h : Inv cell s)
    (hs : step cell change s a = some s') :
    Inv cell s' ∧ s'.mem = (commits [a]).foldl (apply cell change) s.mem := by
  cases a with
  | lock t op =>
    simp only [step] at hs
    split at hs
    · next hp ho =>
      cases hs
      exact ⟨h.enter (by simp) (by simp) ho, rfl⟩
    · cases hs
  | look t =>
    simp only [step] at hs
    split at hs
    · next hp ho =>
      cases hs
      exact ⟨h.enter (by simp) (by simp) ho, rfl⟩
    · cases hs
  | load t =>
    simp only [step] at hs
    split at hs
    · next op hp =>
      cases hs
      exact ⟨h.advance (by simp [hp]) (by simp) (by rintro _ _ ⟨⟩; rfl), rfl⟩
    · cases hs
  | store t op =>
    simp only [step] at hs
    split at hs
    · next op' v hp =>
      split at hs
      · next he =>
        cases hs
        subst he
        refine ⟨h.advance (by simp [hp]) (by simp) (by simp), ?_⟩
        rw [h.fresh t _ _ hp]
        rfl
      · cases hs
    · cases hs
  | fail t =>
    simp only [step] at hs
    split at hs
    · next hp =>
      cases hs
      exact ⟨h.advance (by simp [hp]) (by simp) (by simp), rfl⟩
    · next hp =>
      cases hs
      exact ⟨h.advance (by simp [hp]) (by simp) (by simp), rfl⟩
    · cases hs
  | unlock t =>
    simp only [step] at hs
    split at hs
    · next hp =>
      cases hs
      exact ⟨h.leave (by simp [hp]), rfl⟩
    · cases hs

/-- The invariant holds along every run. -/
theorem Inv.run {s s' : State θ ω ι β} {as : List (Act θ ω)} (h : Inv cell s)
    (hr : Run (step cell change) s as s') : Inv cell s' :=
  hr.invariant h fun _ _ _ hu hs => (step_spec hu hs).1

/-- However the threads interleave, the memory is what the stored updates make of it one after
the other: none of them is lost. -/
theorem run_mem {s s' : State θ ω ι β} {as : List (Act θ ω)} (h : Inv cell s)
    (hr : Run (step cell change) s as s') :
    s'.mem = (commits as).foldl (apply cell change) s.mem := by
  induction hr with
  | nil => rfl
  | snoc hr hs ih =>
    rw [(step_spec (h.run hr) hs).2, ih, commits_append, List.foldl_append]

/-- A thread that nobody interrupts changes the memory by its update. -/
theorem exec_alone (mem : ι → β) (t : θ) (op : ω) :
    exec (step cell change) (State.start mem) [.lock t op, .load t, .store t op, .unlock t] =
      some (State.start (apply cell change mem op)) := by
  simp [exec, step, State.start, State.move, apply]

end OsCourseLabs.LockedUpdate
