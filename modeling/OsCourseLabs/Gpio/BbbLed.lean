import OsCourseLabs.Core.LastWrite
import OsCourseLabs.Core.Scan

/-!
# The attributes of the LED driver

`bbb-gpio` flashes an LED from a thread of its own. Two files in sysfs hold the mode it is in
and the period it flashes with. The mode is compared with the words of the modes up to as many
bytes as were written, less the last one; the period is scanned off the front of what is
written, into a variable that keeps what was on the stack if there is no number. The target of
the build is a 32-bit machine, so `ssize_t` takes the period for a signed number.
-/

namespace OsCourseLabs.Gpio.Led

open CString Decimal

/-- `enum modes`. -/
inductive Mode where
  | off
  | on
  | flash
  deriving DecidableEq, Repr

/-- The static variables. -/
structure Vars where
  gpioLED : Nat
  blinkPeriod : BitVec 32
  ledOn : Bool
  mode : Mode
  deriving DecidableEq, Repr

/-- The variables as they are initialized. -/
def Vars.default : Vars := ⟨16, 1000, false, .flash⟩

/-- The word that a write is compared with. -/
def Mode.word : Mode → List UInt8
  | .off => ascii ['o', 'f', 'f']
  | .on => ascii ['o', 'n']
  | .flash => ascii ['f', 'l', 'a', 's', 'h']

/-- `mode_show`: the word of the mode and a newline. -/
def modeShow (v : Vars) : List UInt8 :=
  match v.mode with
  | .off => ascii ['o', 'f', 'f', '\n']
  | .on => ascii ['o', 'n', '\n']
  | .flash => ascii ['f', 'l', 'a', 's', 'h', '\n']

/-- `mode_store`: three comparisons up to a length, the first that holds decides. -/
def modeStore (buf : List UInt8) (count : Nat) (v : Vars) : Int × Vars :=
  if strncmp buf (ascii ['o', 'n']) (count - 1) = 0 then (count, { v with mode := .on })
  else if strncmp buf (ascii ['o', 'f', 'f']) (count - 1) = 0 then (count, { v with mode := .off })
  else if strncmp buf (ascii ['f', 'l', 'a', 's', 'h']) (count - 1) = 0 then
    (count, { v with mode := .flash })
  else (count, v)

/-- `%d` takes the unsigned variable for a signed one. -/
def periodShow (v : Vars) : List UInt8 := printInt v.blinkPeriod.toInt ++ [10]

/-- The answer is the period, not how much was taken. -/
def periodStore (stack : BitVec 32) (buf : List UInt8) (v : Vars) : Int × Vars :=
  let period := (scanInt (cstr buf)).getD stack
  if 1 < period.toNat ∧ period.toNat ≤ 10000 then (period.toInt, { v with blinkPeriod := period })
  else (period.toInt, v)

/-- A write to one of the files, of no more than the page that sysfs hands on at a time; for the
period, with what is on the stack. -/
inductive Write where
  | mode (bytes : List UInt8)
  | period (bytes : List UInt8) (stack : BitVec 32)
  deriving DecidableEq, Repr

/-- Sysfs hands the bytes on with a terminator, and answers an empty write by itself. -/
def Write.serve (v : Vars) : Write → Int × Vars
  | .mode bytes => if bytes = [] then (0, v) else modeStore (bytes ++ [0]) bytes.length v
  | .period bytes stack => if bytes = [] then (0, v) else periodStore stack (bytes ++ [0]) v

/-- The variables after writes, one after the other. -/
def Vars.run (v : Vars) (ws : List Write) : Vars := ws.foldl (fun v w => (w.serve v).2) v

/-- The bytes before the last one ask for a mode: they are its word up to a NUL, or a beginning
of it that no mode compared earlier begins with. -/
def Asks (p : List UInt8) : Mode → Prop
  | .on => p = [] ∨ p = ascii ['o'] ∨ cstr p = Mode.word .on
  | .off => p = ascii ['o', 'f'] ∨ cstr p = Mode.word .off
  | .flash => p ≠ [] ∧ p <+: Mode.word .flash ∨ cstr p = Mode.word .flash

instance (p : List UInt8) : (m : Mode) → Decidable (Asks p m)
  | .on => inferInstanceAs (Decidable (_ ∨ _ ∨ _))
  | .off => inferInstanceAs (Decidable (_ ∨ _))
  | .flash => inferInstanceAs (Decidable (_ ∧ _ ∨ _))

/-- The comparison with a word, on what sysfs hands over. -/
theorem strncmp_handed {w : List UInt8} (hw : 0 ∉ w) {bytes : List UInt8} (hne : bytes ≠ []) :
    strncmp (bytes ++ [0]) w (bytes.length - 1) = 0 ↔
      bytes.dropLast <+: w ∨ cstr bytes.dropLast = w := by
  have hsplit : bytes ++ [0] = bytes.dropLast ++ (bytes.getLast hne :: [0]) := by
    conv_lhs => rw [← List.dropLast_concat_getLast hne]
    simp
  rw [← List.length_dropLast, hsplit, strncmp_length_eq_zero_iff hw]

/-- The first comparison holds exactly for what asks for `on`. -/
theorem asks_on_iff (p : List UInt8) :
    Asks p .on ↔ p <+: Mode.word .on ∨ cstr p = Mode.word .on := by
  have hinits : p <+: Mode.word .on ↔ p ∈ [[], ascii ['o'], ascii ['o', 'n']] :=
    (List.mem_inits _ _).symm
  rw [hinits]
  constructor
  · rintro (rfl | rfl | h)
    · exact Or.inl (by decide)
    · exact Or.inl (by decide)
    · exact Or.inr h
  · rintro (h | h)
    · simp only [List.mem_cons, List.not_mem_nil, or_false] at h
      rcases h with rfl | rfl | rfl <;> decide
    · exact Or.inr (Or.inr h)

/-- The second comparison is reached and holds exactly for what asks for `off`. -/
theorem asks_off_iff (p : List UInt8) :
    Asks p .off ↔ (p <+: Mode.word .off ∨ cstr p = Mode.word .off) ∧ ¬Asks p .on := by
  have hinits : p <+: Mode.word .off ↔
      p ∈ [[], ascii ['o'], ascii ['o', 'f'], ascii ['o', 'f', 'f']] := (List.mem_inits _ _).symm
  rw [hinits]
  constructor
  · rintro (rfl | h)
    · decide
    · refine ⟨Or.inr h, ?_⟩
      rintro (rfl | rfl | h')
      · exact absurd h (by decide)
      · exact absurd h (by decide)
      · exact absurd (h.symm.trans h') (by decide)
  · rintro ⟨h | h, hnot⟩
    · simp only [List.mem_cons, List.not_mem_nil, or_false] at h
      rcases h with rfl | rfl | rfl | rfl
      · exact absurd (by decide) hnot
      · exact absurd (by decide) hnot
      · decide
      · decide
    · exact Or.inr h

/-- The third comparison is reached and holds exactly for what asks for `flash`. -/
theorem asks_flash_iff (p : List UInt8) :
    Asks p .flash ↔
      (p <+: Mode.word .flash ∨ cstr p = Mode.word .flash) ∧ ¬Asks p .on ∧ ¬Asks p .off := by
  have hinits : p <+: Mode.word .flash ↔
      p ∈ [[], ascii ['f'], ascii ['f', 'l'], ascii ['f', 'l', 'a'], ascii ['f', 'l', 'a', 's'],
        ascii ['f', 'l', 'a', 's', 'h']] := (List.mem_inits _ _).symm
  constructor
  · rintro (⟨hne, h⟩ | h)
    · refine ⟨Or.inl h, ?_⟩
      rw [hinits] at h
      simp only [List.mem_cons, List.not_mem_nil, or_false, hne, false_or] at h
      rcases h with rfl | rfl | rfl | rfl | rfl <;> decide
    · have hcases : ∀ w, p = w → cstr w ≠ Mode.word .flash → False := fun w hw hne =>
        hne (hw ▸ h)
      refine ⟨Or.inr h, ?_, ?_⟩
      · rintro (h' | h' | h')
        · exact hcases _ h' (by decide)
        · exact hcases _ h' (by decide)
        · exact absurd (h.symm.trans h') (by decide)
      · rintro (h' | h')
        · exact hcases _ h' (by decide)
        · exact absurd (h.symm.trans h') (by decide)
  · rintro ⟨h | h, hon, _⟩
    · exact Or.inl ⟨fun hp => hon (Or.inl hp), h⟩
    · exact Or.inr h

/-- A write to the mode file does what its bytes but the last ask for, and is always answered
as taken whole. -/
theorem Write.serve_mode (v : Vars) {bytes : List UInt8} (hne : bytes ≠ []) :
    (Write.mode bytes).serve v =
      ((bytes.length : Int),
        if Asks bytes.dropLast .on then { v with mode := .on }
        else if Asks bytes.dropLast .off then { v with mode := .off }
        else if Asks bytes.dropLast .flash then { v with mode := .flash }
        else v) := by
  have hon := strncmp_handed (w := Mode.word .on) (by decide) hne
  have hoff := strncmp_handed (w := Mode.word .off) (by decide) hne
  have hflash := strncmp_handed (w := Mode.word .flash) (by decide) hne
  simp only [Mode.word] at hon hoff hflash
  rw [serve, if_neg hne]
  simp only [modeStore]
  by_cases h1 : Asks bytes.dropLast .on
  · rw [if_pos h1, if_pos (hon.mpr ((asks_on_iff _).mp h1))]
  · rw [if_neg h1, if_neg fun h => h1 ((asks_on_iff _).mpr (hon.mp h))]
    by_cases h2 : Asks bytes.dropLast .off
    · rw [if_pos h2, if_pos (hoff.mpr ((asks_off_iff _).mp h2).1)]
    · rw [if_neg h2, if_neg fun h => h2 ((asks_off_iff _).mpr ⟨hoff.mp h, h1⟩)]
      by_cases h3 : Asks bytes.dropLast .flash
      · rw [if_pos h3, if_pos (hflash.mpr ((asks_flash_iff _).mp h3).1)]
      · rw [if_neg h3, if_neg fun h => h3 ((asks_flash_iff _).mpr ⟨hflash.mp h, h1, h2⟩)]

/-- A write to the mode file sets the mode that its bytes but the last ask for, and there is at
most one; with none it changes nothing. In particular a single byte, whichever it is, turns the
LED on. -/
theorem bbbLed_mode_language (v : Vars) (bytes : List UInt8) :
    (∀ m, bytes ≠ [] ∧ Asks bytes.dropLast m →
      (Write.mode bytes).serve v = ((bytes.length : Int), { v with mode := m })) ∧
    ((∀ m, ¬(bytes ≠ [] ∧ Asks bytes.dropLast m)) →
      (Write.mode bytes).serve v = ((bytes.length : Int), v)) ∧
    ∀ b, (Write.mode [b]).serve v = (1, { v with mode := .on }) := by
  refine ⟨?_, fun hnone => ?_, fun b => rfl⟩
  · rintro m ⟨hne, hasks⟩
    rw [Write.serve_mode v hne]
    cases m with
    | on => rw [if_pos hasks]
    | off => rw [if_neg ((asks_off_iff _).mp hasks).2, if_pos hasks]
    | flash =>
      have hnot := ((asks_flash_iff _).mp hasks).2
      rw [if_neg hnot.1, if_neg hnot.2, if_pos hasks]
  · by_cases hne : bytes = []
    · simp [Write.serve, hne]
    · have hno : ∀ m, ¬Asks bytes.dropLast m := fun m h => hnone m ⟨hne, h⟩
      rw [Write.serve_mode v hne, if_neg (hno .on), if_neg (hno .off), if_neg (hno .flash)]

/-- The mode that a write asks for, if any. -/
def Write.asks : Write → Option Mode
  | .mode bytes =>
    if bytes = [] then none else [Mode.on, .off, .flash].find? fun m => Asks bytes.dropLast m
  | .period _ _ => none

/-- The periods that are accepted, in milliseconds. -/
def InRange (period : BitVec 32) : Prop := 1 < period.toNat ∧ period.toNat ≤ 10000

instance (period : BitVec 32) : Decidable (InRange period) :=
  inferInstanceAs (Decidable (_ ∧ _))

/-- The period that a write sets, if any: the number scanned, or what was on the stack. -/
def Write.sets : Write → Option (BitVec 32)
  | .mode _ => none
  | .period bytes stack =>
    if bytes = [] then none
    else
      let period := (scanInt (cstr bytes)).getD stack
      if InRange period then some period else none

/-- What a write leaves in the variables. -/
theorem Write.serve_vars (v : Vars) (w : Write) :
    (w.serve v).2 =
      { v with mode := w.asks.getD v.mode, blinkPeriod := w.sets.getD v.blinkPeriod } := by
  cases w with
  | mode bytes =>
    by_cases hne : bytes = []
    · simp [serve, asks, sets, hne]
    · rw [serve_mode v hne]
      simp only [asks, sets, hne, ite_false, List.find?_cons, List.find?_nil]
      by_cases h1 : Asks bytes.dropLast .on
      · simp [h1]
      · by_cases h2 : Asks bytes.dropLast .off
        · simp [h1, h2]
        · by_cases h3 : Asks bytes.dropLast .flash <;> simp [h1, h2, h3]
  | period bytes stack =>
    by_cases hne : bytes = []
    · simp [serve, asks, sets, hne]
    · have hbuf : cstr (bytes ++ [0]) = cstr bytes := cstr_append_zero bytes []
      simp only [serve, asks, sets, hne, ite_false, periodStore, hbuf]
      generalize (scanInt (cstr bytes)).getD stack = period
      split
      · next hin =>
        rw [if_pos (show InRange period from hin)]
        rfl
      · next hout =>
        rw [if_neg (show ¬InRange period from hout)]
        rfl

/-- The mode is the one that was asked for last. -/
theorem Vars.run_mode (v : Vars) (ws : List Write) :
    (v.run ws).mode = lastWrite Write.asks v.mode ws :=
  foldl_eq_lastWrite (r := Vars.mode) (fun u w => by rw [w.serve_vars u]) v ws

/-- The period is the one that was accepted last. -/
theorem Vars.run_blinkPeriod (v : Vars) (ws : List Write) :
    (v.run ws).blinkPeriod = lastWrite Write.sets v.blinkPeriod ws :=
  foldl_eq_lastWrite (r := Vars.blinkPeriod) (fun u w => by rw [w.serve_vars u]) v ws

/-- Only a period in range is accepted. -/
theorem Write.inRange_of_sets {w : Write} {period : BitVec 32} (h : w.sets = some period) :
    InRange period := by
  cases w with
  | mode bytes => cases h
  | period bytes stack =>
    simp only [sets, Option.ite_none_left_eq_some, Option.ite_none_right_eq_some,
      Option.some.injEq] at h
    exact h.2.2 ▸ h.2.1

/-- Whatever is written to the two files, and whatever the stack holds when no number can be
scanned, the mode is the last one asked for, the period is the last one accepted, and a period
between two milliseconds and ten seconds stays one. -/
theorem bbbLed_settings_last_written (v : Vars) (ws : List Write) :
    (v.run ws).mode = lastWrite Write.asks v.mode ws ∧
      (v.run ws).blinkPeriod = lastWrite Write.sets v.blinkPeriod ws ∧
      (InRange v.blinkPeriod → InRange (v.run ws).blinkPeriod) := by
  refine ⟨v.run_mode ws, v.run_blinkPeriod ws, fun h => ?_⟩
  rw [v.run_blinkPeriod ws]
  exact lastWrite_of_forall h fun w _ u hu => Write.inRange_of_sets hu

/-- A number and a newline make as many bytes as the number says only for the number two. -/
theorem length_printNat_add_one_eq_iff (n : Nat) : (printNat n).length + 1 = n ↔ n = 2 := by
  constructor
  · intro h
    by_contra hn
    have hpos := List.length_pos_iff.mpr (printNat_ne_nil n)
    obtain ⟨k, rfl⟩ : ∃ k, n = k + 3 := ⟨n - 3, by omega⟩
    have hlen : (printNat (k + 3)).length ≤ k + 1 := by
      rw [printNat, ascii, List.length_map, Nat.length_toDigits_le_iff (by decide) (by omega)]
      have hlt : k < 10 ^ k := Nat.lt_pow_self (by decide)
      have hsucc : 10 ^ (k + 1) = 10 ^ k * 10 := Nat.pow_succ 10 k
      omega
    omega
  · rintro rfl
    decide

/-- A number of an `unsigned int` written with a newline is answered as a signed one. -/
theorem Write.serve_printNat (v : Vars) {n : Nat} (hn : n < 4294967296) (stack : BitVec 32) :
    (Write.period (printNat n ++ [10]) stack).serve v =
      ((BitVec.ofNat 32 n).toInt,
        if 1 < n ∧ n ≤ 10000 then { v with blinkPeriod := BitVec.ofNat 32 n } else v) := by
  have hzero : 0 ∉ printNat n ++ [10] := by
    have hdigits := zero_not_mem_printInt (v := (n : Int))
    simpa [printInt] using hdigits
  have hscan : (scanInt (cstr (printNat n ++ [10] ++ [0]))).getD stack = BitVec.ofNat 32 n := by
    rw [cstr_append_zero, cstr_of_not_mem hzero, scanInt_printNat (by simp [isDigit])]
    rfl
  have hval : (BitVec.ofNat 32 n).toNat = n := Nat.mod_eq_of_lt hn
  rw [serve, if_neg (by simp), periodStore]
  simp only [hscan, hval]
  split <;> rfl

/-- What the mode file shows can be written back and keeps the mode. What the period file shows
can be written back as long as the period is in range, and keeps it, but the answer is the
period: of the values of an `unsigned int`, printed and written with a newline, only a two is
answered with as many bytes as were written. -/
theorem bbbLed_show_store (v : Vars) :
    (Write.mode (modeShow v)).serve v = (((modeShow v).length : Int), v) ∧
      (InRange v.blinkPeriod → ∀ stack,
        (Write.period (periodShow v) stack).serve v = ((v.blinkPeriod.toNat : Int), v)) ∧
      ∀ (n : Nat) (stack : BitVec 32), n < 4294967296 →
        ((Write.period (printNat n ++ [10]) stack).serve v).1 = (BitVec.ofNat 32 n).toInt ∧
          (((Write.period (printNat n ++ [10]) stack).serve v).1 = (printNat n ++ [10]).length ↔
            n = 2) := by
  refine ⟨?_, fun hin stack => ?_, fun n stack hn => ?_⟩
  · obtain ⟨gpioLED, blinkPeriod, ledOn, mode⟩ := v
    cases mode <;> rfl
  · have hint : v.blinkPeriod.toInt = (v.blinkPeriod.toNat : Int) :=
      BitVec.toInt_eq_toNat_of_lt (by have := hin.2; omega)
    have hshow : periodShow v = printNat v.blinkPeriod.toNat ++ [10] := by
      rw [periodShow, hint]
      rfl
    rw [hshow, Write.serve_printNat v v.blinkPeriod.isLt, BitVec.ofNat_toNat, BitVec.setWidth_eq,
      hint]
    exact congrArg _ (if_pos hin)
  · rw [Write.serve_printNat v hn]
    refine ⟨rfl, ?_⟩
    have hval : (BitVec.ofNat 32 n).toNat = n := Nat.mod_eq_of_lt hn
    have hlen := length_printNat_add_one_eq_iff n
    rw [BitVec.toInt_eq_toNat_cond, hval, List.length_append, List.length_singleton, ← hlen]
    -- from the sign bit on the answer is negative, and no length
    split <;> omega

end OsCourseLabs.Gpio.Led
