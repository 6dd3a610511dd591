import OsCourseLabs.Gpio.Requests

/-!
# The command language of a node

A write carries one of four words when the word is followed by a terminator, which is the
last byte of the write or NUL. Whatever follows a NUL is not looked at, and neither is
what exceeds the buffer; a write that carries no word is refused and changes nothing.
-/

namespace OsCourseLabs.Gpio

open CString

/-- The write is the word, a terminator, and nothing else unless the terminator is NUL. -/
def Carries (word s : List UInt8) : Prop :=
  ∃ b rest, s = word ++ b :: rest ∧ (b = 0 ∨ rest = [])

/-- `gpio_lkm_write` from the switch on. -/
def execute (cmd : Command) (f : File) (a count : Nat) (core : Int) (k : Kernel) :
    Int × File × Kernel :=
  match runCommand cmd (minor f.inode) core (k.heap a) k with
  | .error e => (e, f, k)
  | .ok (dev, k) => (count, { f with fPos := f.fPos + count }, k.store a dev)

/-- The command decoded is the one executed. -/
theorem gpioLkmWrite_eq_execute {payload : List UInt8} {count : Nat} {cmd : Command}
    (h : commandOf payload count = some cmd) (f : File) (a : Nat) (core : Int) (k : Kernel) :
    gpioLkmWrite f a payload count core k = some (execute cmd f a count core k) := by
  obtain ⟨⟨missing, kbuf⟩, hcopy, h⟩ := Option.bind_eq_some_iff.mp h
  obtain ⟨hm, h⟩ := Option.ite_none_left_eq_some.mp h
  obtain ⟨kbuf', hk, rfl⟩ := Option.map_eq_some_iff.mp h
  simp only [gpioLkmWrite, hcopy, Option.bind_some, if_neg hm, hk, Option.map_some]
  rfl

/-- A write carries a word exactly when it is read from all its bytes but the last. -/
theorem carries_iff_cstr {word s : List UInt8} (hw : ∀ x ∈ word, x ≠ 0) (hs : s ≠ []) :
    Carries word s ↔ cstr s.dropLast = word := by
  rw [cstr_eq_iff hw]
  have hlast := List.dropLast_concat_getLast hs
  constructor
  · rintro ⟨b, rest, rfl, hend⟩
    rcases List.eq_nil_or_concat rest with rfl | ⟨rest, c, rfl⟩
    · exact Or.inl (List.dropLast_concat ..)
    · have hb : b = 0 := hend.resolve_right (by simp)
      refine Or.inr ⟨rest, ?_⟩
      rw [hb, List.concat_eq_append, ← List.cons_append, ← List.append_assoc, List.dropLast_concat]
  · rintro (h | ⟨rest, h⟩)
    · exact ⟨s.getLast hs, [], by rw [← h, hlast], Or.inr rfl⟩
    · refine ⟨0, rest ++ [s.getLast hs], ?_, Or.inl rfl⟩
      rw [← List.cons_append, ← List.append_assoc, ← h, hlast]

/-- The words have no NUL and fit the buffer by far. -/
theorem commands_words : ∀ p ∈ commands, (∀ x ∈ p.2, x ≠ 0) ∧ p.2.length < 511 := by
  have hwords : ∀ p ∈ commands, p.2.all (· ≠ 0) = true ∧ p.2.length < 5 := by decide
  intro p hp
  obtain ⟨hnul, hlen⟩ := hwords p hp
  refine ⟨fun x hx => ?_, by omega⟩
  exact of_decide_eq_true (List.all_eq_true.mp hnul x hx)

/-- Decoding answers the command of a word exactly on the strings read as that word. -/
theorem whichCommand_eq_iff (com : List UInt8) :
    ∀ p ∈ commands, whichCommand com = p.1 ↔ cstr com = p.2 := by
  rw [whichCommand_eq]
  have hne : cmdOut ≠ cmdIn ∧ cmdOut ≠ cmdLow ∧ cmdOut ≠ cmdHigh ∧ cmdIn ≠ cmdLow ∧
      cmdIn ≠ cmdHigh ∧ cmdLow ≠ cmdHigh := by decide
  obtain ⟨h1, h2, h3, h4, h5, h6⟩ := hne
  simp only [commands, List.forall_mem_cons, List.not_mem_nil, false_implies, implies_true,
    and_true]
  refine ⟨?_, ?_, ?_, ?_⟩ <;> constructor <;> intro h <;> grind

/-- What is decoded from a whole write, in terms of the write. -/
theorem commandOf_whole {s : List UInt8} (hs : s ≠ []) :
    commandOf s s.length = some (whichCommand (s.dropLast.take 511)) := by
  have hpos : 1 ≤ s.length := List.length_pos_iff.mpr hs
  rw [commandOf_eq s hpos, if_neg (by omega), List.dropLast_eq_take, List.take_take, Nat.min_comm]

theorem commandOf_eq_some_iff {s : List UInt8} (hs : s ≠ []) :
    ∀ p ∈ commands, commandOf s s.length = some p.1 ↔ Carries p.2 s := by
  intro p hp
  obtain ⟨hnul, hlen⟩ := commands_words p hp
  rw [commandOf_whole hs, Option.some.injEq, whichCommand_eq_iff _ p hp, cstr_take_eq_iff hlen,
    carries_iff_cstr hnul hs]

/-- A string that is read as none of the words is no command. -/
theorem whichCommand_eq_na {com : List UInt8} (h : ∀ p ∈ commands, whichCommand com ≠ p.1) :
    whichCommand com = .na := by
  cases hc : whichCommand com with
  | na => rfl
  | setOut => exact absurd hc (h (.setOut, cmdOut) (by simp [commands]))
  | setIn => exact absurd hc (h (.setIn, cmdIn) (by simp [commands]))
  | setLow => exact absurd hc (h (.setLow, cmdLow) (by simp [commands]))
  | setHigh => exact absurd hc (h (.setHigh, cmdHigh) (by simp [commands]))

/-- A write that carries no word is decoded to no command. -/
theorem commandOf_of_not_carries {s : List UInt8} (hs : s ≠ [])
    (h : ∀ p ∈ commands, ¬ Carries p.2 s) : commandOf s s.length = some .na := by
  rw [commandOf_whole hs]
  refine congrArg some (whichCommand_eq_na fun p hp hc => h p hp ?_)
  rw [← commandOf_eq_some_iff hs p hp, commandOf_whole hs, hc]

/-- A non-empty write executes the command of a word exactly when it carries that word, and is
refused without any change when it carries none. -/
theorem gpioLkmWrite_language {s : List UInt8} (hs : s ≠ []) :
    (∀ p ∈ commands, commandOf s s.length = some p.1 ↔ Carries p.2 s) ∧
    (∀ p ∈ commands, Carries p.2 s → ∀ f a core k,
      gpioLkmWrite f a s s.length core k = some (execute p.1 f a s.length core k)) ∧
    ((∀ p ∈ commands, ¬ Carries p.2 s) → ∀ f a core k,
      gpioLkmWrite f a s s.length core k = some (-EINVAL, f, k)) := by
  refine ⟨commandOf_eq_some_iff hs, fun p hp hc f a core k => ?_, fun h f a core k => ?_⟩
  · exact gpioLkmWrite_eq_execute ((commandOf_eq_some_iff hs p hp).mpr hc) f a core k
  · rw [gpioLkmWrite_eq_execute (commandOf_of_not_carries hs h)]
    rfl

/-- The theorem applies to `low` with a newline. -/
theorem gpioLkmWrite_language_low :
    commandOf (cmdLow ++ ascii ['\n']) (cmdLow ++ ascii ['\n']).length = some .setLow := by
  have hne : cmdLow ++ ascii ['\n'] ≠ [] := by decide
  exact ((gpioLkmWrite_language hne).1 (.setLow, cmdLow) (by decide)).mpr
    ⟨10, [], by decide, Or.inr rfl⟩

/-- `out`, NUL and two more bytes make an input an output, although they are not `out` alone. -/
theorem bytes_after_nul_executed :
    (cmdOut ++ [0] ++ ascii ['x', '\n']).dropLast ≠ cmdOut ∧
      commandOf (cmdOut ++ [0] ++ ascii ['x', '\n']) 6 = some .setOut ∧
      ∀ (f : File) (k : Kernel), (gpioLkmWrite f 0 (cmdOut ++ [0] ++ ascii ['x', '\n']) 6 0
        { k with heap := fun _ => ⟨.low, .input⟩ }).map Prod.fst = some 6 := by
  have hcmd : commandOf (cmdOut ++ [0] ++ ascii ['x', '\n']) 6 = some .setOut := by decide
  refine ⟨by decide, hcmd, fun f k => ?_⟩
  rw [gpioLkmWrite_eq_execute hcmd]
  rfl

end OsCourseLabs.Gpio
