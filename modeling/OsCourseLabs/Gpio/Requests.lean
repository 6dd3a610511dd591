import OsCourseLabs.Gpio.Driver

/-!
# What a request can do to the module

Inversion lemmas for the file operations: a read only samples, a write either
answers an error and changes nothing or carries out one command on one pin and one
record, unless it overruns its buffer. No request touches the registries or the static
variables.
-/

namespace OsCourseLabs.Gpio

open CString Ledger Transition

/-- The command that reaches the switch of `gpio_lkm_write`; `none` when the copy faults or leaves
the buffer. -/
def commandOf (payload : List UInt8) (count : Nat) : Option Command :=
  (rawCopyFromUser BUF_SIZE payload (copyLen count)).bind fun (missing, kbuf) =>
    if missing ≠ 0 then none else (terminate BUF_SIZE kbuf).map whichCommand

/-- A write of no bytes, from an address where more can be read than the buffer holds. -/
def Request.Overruns : Request → Prop
  | .write _ payload count _ => count = 0 ∧ BUF_SIZE < payload.length
  | _ => False

/-- The direction that a command asks for, if it asks for one. -/
def Command.wants : Command → Option Direction
  | .setIn => some .input
  | .setOut => some .output
  | _ => none

/-- A call on a GPIO as an entry of the ledger of its pins. -/
def GpioCall.op : GpioCall → Op Nat
  | .request pin => .acquire pin
  | .free pin => .release pin
  | .directionInput pin | .directionOutput pin _ | .setValue pin _ | .getValue pin => .use pin

/-- What every request leaves alone. -/
structure Framed (s t : Driver) : Prop where
  reg : t.kernel.reg = s.kernel.reg
  ledger : t.kernel.ledger = s.kernel.ledger
  first : t.first = s.first
  cls : t.gpioLkmClass = s.gpioLkmClass
  devp : t.gpioLkmDevp = s.gpioLkmDevp

theorem Framed.refl (s : Driver) : Framed s s := ⟨rfl, rfl, rfl, rfl, rfl⟩

theorem Framed.trans {s t u : Driver} (h : Framed s t) (h' : Framed t u) : Framed s u :=
  ⟨h'.reg.trans h.reg, h'.ledger.trans h.ledger, h'.first.trans h.first, h'.cls.trans h.cls,
    h'.devp.trans h.devp⟩

/-- For a non-empty write the command is read from the payload without its last byte. -/
theorem commandOf_eq {count : Nat} (payload : List UInt8) (h : 1 ≤ count) :
    commandOf payload count =
      if payload.length < min (count - 1) 511 then none
      else some (whichCommand (payload.take (min (count - 1) 511))) := by
  have hlen := copyLen_eq h
  rw [commandOf]
  rcases rawCopyFromUser_cases payload count with ⟨h0, -⟩ | ⟨-, hcopy, hroom⟩
  · omega
  · rw [hcopy, Option.bind_some, ← hlen]
    by_cases hl : payload.length < copyLen count
    · rw [if_pos hl]
      exact if_pos (by omega)
    · have hkbuf : terminate BUF_SIZE (payload.take (copyLen count)) =
          some (payload.take (copyLen count) ++ [0]) := if_pos (hroom (by omega))
      rw [if_neg hl, ← whichCommand_terminated]
      exact (if_neg (by omega)).trans (congrArg (Option.map whichCommand) hkbuf)

/-- The reading loop only samples the pin. -/
theorem readLoop_kernel (gpio : Nat) (sample : Nat → Int) (room n retval : Nat)
    (stored : List UInt8) (k : Kernel) :
    ∃ m, (readLoop gpio sample room n retval stored k).2 =
      { k with gpioCalls := k.gpioCalls ++ List.replicate m (.getValue gpio) } := by
  induction n generalizing retval stored k with
  | zero => exact ⟨0, by simp [readLoop]⟩
  | succ n ih =>
    simp only [readLoop]
    split
    · exact ⟨1, rfl⟩
    · obtain ⟨m, hm⟩ := ih (retval + 1) (stored ++ [UInt8.ofInt (48 + sample retval)])
        (gpioGetValue gpio k)
      refine ⟨m + 1, ?_⟩
      rw [hm]
      simp [gpioGetValue, List.replicate_succ]

/-- Whether the core accepts or refuses, a configuration is one call and moves one pin at most. -/
theorem gpioConfigure_kernel (call : GpioCall) (gpio : Nat) (pin : Pin) (core : Int)
    (k : Kernel) :
    ∃ pin', (gpioConfigure call gpio pin core k).2 = { k with
      pins := Function.update k.pins gpio pin'
      gpioCalls := k.gpioCalls ++ [call] } := by
  by_cases hc : core < 0
  · exact ⟨k.pins gpio, by simp [gpioConfigure, hc]⟩
  · exact ⟨pin, by simp [gpioConfigure, hc]⟩

/-- A command fails with an error, or writes one record and one pin by calls on that pin. -/
theorem runCommand_cases (cmd : Command) (gpio : Nat) (core : Int) (dev : GpioLkmDev)
    (k : Kernel) :
    (∃ e < 0, runCommand cmd gpio core dev k = .error e) ∨
    ∃ dev' pin calls, (∀ c ∈ calls, GpioCall.op c = .use gpio) ∧
      runCommand cmd gpio core dev k = .ok (dev', { k with
        pins := Function.update k.pins gpio pin
        gpioCalls := k.gpioCalls ++ calls }) := by
  have hsame : ∃ dev' pin calls, (∀ c ∈ calls, GpioCall.op c = .use gpio) ∧
      (Except.ok (dev, k) : Except Int _) = .ok (dev', { k with
        pins := Function.update k.pins gpio pin
        gpioCalls := k.gpioCalls ++ calls }) :=
    ⟨dev, k.pins gpio, [], by simp, by simp⟩
  cases cmd with
  | setIn =>
    obtain ⟨pin, hpin⟩ := gpioConfigure_kernel (.directionInput gpio) gpio
      { k.pins gpio with dir := .input } core k
    simp only [runCommand, gpioDirectionInput, hpin]
    split
    · exact Or.inr ⟨_, pin, [.directionInput gpio], by simp [GpioCall.op], rfl⟩
    · exact Or.inr hsame
  | setOut =>
    obtain ⟨pin, hpin⟩ := gpioConfigure_kernel (.directionOutput gpio .low) gpio
      ⟨.output, .low⟩ core k
    simp only [runCommand, gpioDirectionOutput, hpin]
    split
    · exact Or.inr ⟨_, pin, [.directionOutput gpio .low], by simp [GpioCall.op], rfl⟩
    · exact Or.inr hsame
  | setHigh =>
    simp only [runCommand, gpioSetValue]
    split
    · exact Or.inl ⟨-EPERM, by decide, rfl⟩
    · exact Or.inr ⟨_, _, [.setValue gpio .high], by simp [GpioCall.op], rfl⟩
  | setLow =>
    simp only [runCommand, gpioSetValue]
    split
    · exact Or.inl ⟨-EPERM, by decide, rfl⟩
    · exact Or.inr ⟨_, _, [.setValue gpio .low], by simp [GpioCall.op], rfl⟩
  | na => exact Or.inl ⟨-EINVAL, by decide, rfl⟩

/-- A write leaves its buffer, or answers a negative error and changes nothing, or carries its
command out. -/
theorem gpioLkmWrite_cases (f : File) (a : Nat) (payload : List UInt8) (count : Nat)
    (core : Int) (k : Kernel) :
    (count = 0 ∧ BUF_SIZE < payload.length ∧ gpioLkmWrite f a payload count core k = none) ∨
    ¬ (count = 0 ∧ BUF_SIZE < payload.length) ∧
      ((∃ e < 0, gpioLkmWrite f a payload count core k = some (e, f, k) ∧
        match commandOf payload count with
        | none => e = -EFAULT
        | some cmd => runCommand cmd (minor f.inode) core (k.heap a) k = .error e) ∨
      ∃ cmd dev k', commandOf payload count = some cmd ∧
        runCommand cmd (minor f.inode) core (k.heap a) k = .ok (dev, k') ∧
        gpioLkmWrite f a payload count core k =
          some ((count : Int), { f with fPos := f.fPos + count }, k'.store a dev)) := by
  unfold gpioLkmWrite commandOf
  rcases rawCopyFromUser_cases payload count with ⟨h0, hmany, hcopy⟩ | ⟨hfits, hcopy, hroom⟩
  · exact Or.inl ⟨h0, hmany, by rw [hcopy, Option.bind_none]⟩
  · refine Or.inr ⟨hfits, ?_⟩
    rw [hcopy]
    by_cases hm : copyLen count - payload.length = 0
    · have hkbuf : terminate BUF_SIZE (payload.take (copyLen count)) =
          some (payload.take (copyLen count) ++ [0]) := if_pos (hroom hm)
      simp only [Option.bind_some, hm, ne_eq, not_true_eq_false, ite_false, hkbuf, Option.map_some]
      generalize whichCommand (payload.take (copyLen count) ++ [0]) = cmd
      rcases runCommand_cases cmd (minor f.inode) core (k.heap a) k with
        ⟨e, he, h⟩ | ⟨dev, pin, calls, _, h⟩
      · exact Or.inl ⟨e, he, by rw [h], h⟩
      · exact Or.inr ⟨cmd, dev, _, rfl, h, by rw [h]⟩
    · exact Or.inl ⟨-EFAULT, by decide, by simp [hm], by simp [hm]⟩

/-- The four things one answered request can be. -/
theorem serve_cases {s t : Driver} {q : Request} {r : Int}
    (h : serve s q = some (.answered r t)) :
    (∃ fd dev a, q = .openNode fd dev ∧ s.files fd = none ∧ dev ∈ gpios.map (nodeDev s.first) ∧
      s.kernel.resolve dev = some a ∧ r = 0 ∧
      t = { s with files := Function.update s.files fd (some (gpioLkmOpen dev a)) }) ∨
    (∃ fd f, q = .release fd ∧ s.files fd = some f ∧ r = 0 ∧
      t = { s with files := Function.update s.files fd none }) ∨
    (∃ fd count room sample f m, q = .read fd count room sample ∧ s.files fd = some f ∧
      t = { s with kernel := { s.kernel with
        gpioCalls := s.kernel.gpioCalls ++ List.replicate m (.getValue (minor f.inode)) } }) ∨
    (∃ fd payload count core f a f' k', q = .write fd payload count core ∧
      s.files fd = some f ∧ f.privateData = some a ∧ a ∈ s.kernel.reg.records ∧
      gpioLkmWrite f a payload count core s.kernel = some (r, f', k') ∧
      t = { s with kernel := k', files := Function.update s.files fd (some f') }) := by
  cases q with
  | openNode fd dev =>
    simp only [serve, Option.ite_none_right_eq_some, Option.map_eq_some_iff,
      Reply.answered.injEq] at h
    obtain ⟨⟨hf, hd⟩, a, ha, rfl, rfl⟩ := h
    exact Or.inl ⟨fd, dev, a, rfl, hf, hd, ha, rfl, rfl⟩
  | release fd =>
    simp only [serve, Option.map_eq_some_iff, Reply.answered.injEq] at h
    obtain ⟨f, hf, rfl, rfl⟩ := h
    exact Or.inr (Or.inl ⟨fd, f, rfl, hf, rfl, rfl⟩)
  | read fd count room sample =>
    simp only [serve, Option.map_eq_some_iff, Reply.answered.injEq] at h
    obtain ⟨f, hf, rfl, rfl⟩ := h
    obtain ⟨m, hm⟩ := readLoop_kernel (minor f.inode) sample room count 0 [] s.kernel
    exact Or.inr (Or.inr (Or.inl ⟨fd, count, room, sample, f, m, rfl, hf, by
      rw [gpioLkmRead, hm]⟩))
  | write fd payload count core =>
    simp only [serve, Option.bind_eq_bind, Option.bind_eq_some_iff,
      Option.ite_none_right_eq_some] at h
    obtain ⟨f, hf, a, ha, hlive, he⟩ := h
    split at he
    · cases he
    · next r' f' k' hw =>
      cases he
      exact Or.inr (Or.inr (Or.inr ⟨fd, payload, count, core, f, a, f', k', rfl, hf, ha, hlive, hw,
        rfl⟩))

/-- Only such a write overruns. -/
theorem serve_overrun {s : Driver} {q : Request} (h : serve s q = some .overrun) :
    q.Overruns := by
  cases q with
  | openNode fd dev =>
    obtain ⟨-, h⟩ := Option.ite_none_right_eq_some.mp h
    obtain ⟨a, -, he⟩ := Option.map_eq_some_iff.mp h
    cases he
  | release | read =>
    obtain ⟨f, -, he⟩ := Option.map_eq_some_iff.mp h
    cases he
  | write fd payload count core =>
    simp only [serve, Option.bind_eq_bind, Option.bind_eq_some_iff,
      Option.ite_none_right_eq_some] at h
    obtain ⟨f, -, a, -, -, he⟩ := h
    split at he
    · next hw =>
      rcases gpioLkmWrite_cases f a payload count core s.kernel with ⟨h0, hmany, -⟩ |
        ⟨-, ⟨e, -, hret, -⟩ | ⟨cmd, dev, k', -, -, hret⟩⟩
      · exact ⟨h0, hmany⟩
      · rw [hret] at hw
        cases hw
      · rw [hret] at hw
        cases hw
    · cases he

/-- A request that is answered does not overrun. -/
theorem not_overruns_of_served {s t : Driver} {q : Request} {r : Int}
    (h : serve s q = some (.answered r t)) : ¬ q.Overruns := by
  rcases serve_cases h with ⟨_, _, _, rfl, _⟩ | ⟨_, _, rfl, _⟩ | ⟨_, _, _, _, _, _, rfl, _⟩ |
    ⟨fd, payload, count, core, f, a, f', k', rfl, _, _, _, hw, _⟩
  · exact id
  · exact id
  · exact id
  · rcases gpioLkmWrite_cases f a payload count core s.kernel with ⟨-, -, hnone⟩ | ⟨hfits, -⟩
    · rw [hnone] at hw
      cases hw
    · exact hfits

/-- A run without a write that overruns is a run of steps. -/
theorem run_of_fitting {s : Driver} {m : Module} {as : List (Request × Int)}
    (h : Run issue (.serving s) as m) (hfits : ∀ a ∈ as, ¬ a.1.Overruns) :
    ∃ t, m = .serving t ∧ Run step s as t := by
  have hserving : ∃ t, m = .serving t := by
    refine h.invariant_of_mem (I := fun m => ∃ t, m = .serving t) hfits ⟨s, rfl⟩ ?_
    intro u a v ha _ hs
    obtain ⟨u, rfl, ⟨t, -, rfl⟩ | ⟨hover, -⟩⟩ := issue_cases hs
    · exact ⟨t, rfl⟩
    · exact absurd (serve_overrun hover) ha
  obtain ⟨t, rfl⟩ := hserving
  exact ⟨t, rfl, run_of_issued h⟩

theorem serve_framed {s t : Driver} {q : Request} {r : Int}
    (h : serve s q = some (.answered r t)) : Framed s t := by
  rcases serve_cases h with ⟨fd, dev, a, _, _, _, _, _, rfl⟩ | ⟨fd, f, _, _, _, rfl⟩ |
    ⟨fd, count, room, sample, f, m, _, _, rfl⟩ |
    ⟨fd, payload, count, core, f, a, f', k', _, _, _, _, hserved, rfl⟩
  · exact ⟨rfl, rfl, rfl, rfl, rfl⟩
  · exact ⟨rfl, rfl, rfl, rfl, rfl⟩
  · exact ⟨rfl, rfl, rfl, rfl, rfl⟩
  · rcases gpioLkmWrite_cases f a payload count core s.kernel with ⟨-, -, hw⟩ |
      ⟨-, ⟨e, -, hw, -⟩ | ⟨cmd, dev, k'', -, hr, hw⟩⟩
    · rw [hw] at hserved
      cases hserved
    · rw [hw] at hserved
      cases hserved
      exact ⟨rfl, rfl, rfl, rfl, rfl⟩
    · rw [hw] at hserved
      cases hserved
      rcases runCommand_cases cmd (minor f.inode) core (s.kernel.heap a) s.kernel with
        ⟨e, _, hc⟩ | ⟨dev', pin, calls, _, hc⟩
      · rw [hr] at hc
        cases hc
      · rw [hr] at hc
        cases hc
        exact ⟨rfl, rfl, rfl, rfl, rfl⟩

/-- Requests, however many, leave registries and static variables alone. -/
theorem run_framed {s t : Driver} {as : List (Request × Int)} (h : Run step s as t) :
    Framed s t :=
  h.invariant (I := Framed s) (Framed.refl s)
    fun _ _ _ hi hs => hi.trans (serve_framed (step_eq_some.mp hs))

end OsCourseLabs.Gpio
