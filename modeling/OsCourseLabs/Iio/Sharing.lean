import OsCourseLabs.Core.LockedUpdate
import OsCourseLabs.Iio.Settings

/-!
# Tasks that share an HMC5843

Two settings lie in one register, so an update of one rewrites the other. The driver reads,
modifies and writes back under `data->lock`. The updates of any number of tasks, interleaved
step by step, then leave the registers as the same calls do when they are served one after
another.
-/

namespace OsCourseLabs.Iio.Hmc5843

open LockedUpdate Transition

/-- What `regmap_update_bits` is asked for: a setting and its value. -/
abbrev Update := Setting × BitVec 8

/-- The register that an update reads and writes back. -/
def Update.cell (u : Update) : BitVec 8 := u.1.reg

/-- What an update makes of its register. -/
def Update.change (u : Update) (r : BitVec 8) : BitVec 8 := u.1.field.put u.2 r

/-- The registers, the lock and the tasks. -/
abbrev Tasks (θ : Type*) := LockedUpdate.State θ Update (BitVec 8) (BitVec 8)

/-- One step of one task. -/
def taskStep {θ : Type*} [DecidableEq θ] : Tasks θ → Act θ Update → Option (Tasks θ) :=
  LockedUpdate.step Update.cell Update.change

variable {θ : Type*} [DecidableEq θ]

/-- An update in one step is the setter of the driver. -/
theorem apply_eq_put (data : Hmc5843Data) (u : Update) :
    apply Update.cell Update.change data.regmap u = (u.1.put .ok u.2 data).2.regmap := by
  funext reg
  rw [Setting.put_regmap]
  by_cases hr : reg = u.1.reg
  · subst hr
    simp [apply, Update.cell, Update.change, Bus.carries]
  · simp [apply, Update.cell, hr]

/-- A task that nobody interrupts does what the setter of the driver does. -/
theorem alone (data : Hmc5843Data) (t : θ) (u : Update) :
    exec taskStep (State.start data.regmap) [.lock t u, .load t, .store t u, .unlock t] =
      some (State.start (u.1.put .ok u.2 data).2.regmap) := by
  rw [← apply_eq_put]
  exact exec_alone data.regmap t u

/-- Calls that get through are their updates, one after the other. -/
theorem run_regmap (data : Hmc5843Data) {calls : List Call} (hok : ∀ c ∈ calls, c.bus = .ok) :
    (data.run calls).regmap = (calls.filterMap (Call.target data.id)).foldl
      (apply Update.cell Update.change) data.regmap := by
  induction calls using List.reverseRecOn with
  | nil => rfl
  | append_singleton calls c ih =>
    have hall := List.forall_mem_append.mp hok
    rw [List.filterMap_append, List.foldl_append, ← ih hall.1, Hmc5843Data.run, List.foldl_append,
      List.foldl_cons, List.foldl_nil, Call.serve_eq, ← Hmc5843Data.run, Hmc5843Data.run_id,
      hall.2 c (by simp)]
    cases ht : c.target data.id with
    | none => rw [List.filterMap_cons_none ht]; rfl
    | some u =>
      rw [List.filterMap_cons_some ht]
      exact (apply_eq_put _ u).symm

/-- However the tasks interleave, the registers end as the driver leaves them when it serves,
one after another, calls with the updates that were stored: no update is lost, also none of
another setting in the same register. -/
theorem hmc5843_tasks_as_calls {s s' : Tasks θ} {acts : List (Act θ Update)}
    (hr : Run taskStep s acts s') (data : Hmc5843Data) (h0 : s = State.start data.regmap)
    (calls : List Call) (hok : ∀ c ∈ calls, c.bus = .ok)
    (hcalls : calls.filterMap (Call.target data.id) = commits acts) :
    s'.mem = (data.run calls).regmap := by
  subst h0
  rw [run_regmap data hok, hcalls]
  exact run_mem (inv_start _) hr

/-- Two tasks set the rate and the bias, which lie in one register, and both are kept. -/
theorem hmc5843_tasks_as_calls_two :
    ∃ s : Tasks Bool, Run taskStep (State.start fun _ => 0x10)
      [.lock true (.rate, 5), .load true, .store true (.rate, 5), .unlock true,
        .lock false (.measConf, 1), .load false, .store false (.measConf, 1)] s ∧
      s.mem HMC5843_CONFIG_REG_A = 0x15 := by
  obtain ⟨s, hrun⟩ := run_of_isSome (show (exec (taskStep (θ := Bool)) (State.start fun _ => 0x10)
    [.lock true (.rate, 5), .load true, .store true (.rate, 5), .unlock true,
      .lock false (.measConf, 1), .load false, .store false (.measConf, 1)]).isSome = true from rfl)
  refine ⟨s, hrun, ?_⟩
  rw [hmc5843_tasks_as_calls hrun ⟨.hmc5883l, fun _ => 0x10⟩ rfl
    [.writeRaw .ok 30 0 .sampFreq, .setMeasurementConfiguration .ok 1] (by simp [Call.bus])
    (by decide)]
  decide

end OsCourseLabs.Iio.Hmc5843
