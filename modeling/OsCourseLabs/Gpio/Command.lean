import OsCourseLabs.Core.CString

/-!
# The command buffer of the GPIO driver

A write request is cut to the size of the kernel buffer, loses its last byte, is
terminated by NUL and compared with the four command words.
-/

namespace OsCourseLabs.Gpio

open CString

/-- `enum commands`. -/
inductive Command where
  | setOut
  | setIn
  | setLow
  | setHigh
  | na
  deriving DecidableEq, Repr

/-- The size of the buffer that a command is copied into. -/
def BUF_SIZE : Nat := 512

/-- The word of the command that makes a pin an output. -/
def cmdOut : List UInt8 := ascii ['o', 'u', 't']

/-- The word of the command that makes a pin an input. -/
def cmdIn : List UInt8 := ascii ['i', 'n']

/-- The word of the command that drives a pin low. -/
def cmdLow : List UInt8 := ascii ['l', 'o', 'w']

/-- The word of the command that drives a pin high. -/
def cmdHigh : List UInt8 := ascii ['h', 'i', 'g', 'h']

/-- The array `commands`, each entry with the enumerator of its index. -/
def commands : List (Command × List UInt8) :=
  [(.setOut, cmdOut), (.setIn, cmdIn), (.setLow, cmdLow), (.setHigh, cmdHigh)]

/-- The loop of `which_command` over the entries left. -/
def whichCommandIn (com : List UInt8) : List (Command × List UInt8) → Command
  | [] => .na
  | (c, word) :: rest => if strcmp com word = 0 then c else whichCommandIn com rest

/-- `which_command`: the first command of the table whose word the buffer holds. -/
def whichCommand (com : List UInt8) : Command := whichCommandIn com commands

/-- The unsigned 32-bit `len`: a count of zero wraps around. -/
def copyLen (count : Nat) : Nat :=
  if count < BUF_SIZE then (UInt32.ofNat count - 1).toNat else BUF_SIZE - 1

/-- Copy `n` bytes, of which the listed ones are readable, to a buffer of `size` bytes: how many
are missing, and the copy. Nothing checks the size: none is a copy past the end of the buffer. -/
def rawCopyFromUser (size : Nat) (user : List UInt8) (n : Nat) : Option (Nat × List UInt8) :=
  if size < min n user.length then none else some (n - user.length, user.take n)

/-- The store of the terminator behind what was copied; none past the end of the buffer. -/
def terminate (size : Nat) (kbuf : List UInt8) : Option (List UInt8) :=
  if kbuf.length < size then some (kbuf ++ [0]) else none

/-- For a non-empty write the copy takes the payload without its last byte, up to the buffer. -/
theorem copyLen_eq {count : Nat} (h : 1 ≤ count) : copyLen count = min (count - 1) 511 := by
  unfold copyLen BUF_SIZE
  split
  · rename_i hlt
    have hc : (UInt32.ofNat count).toNat = count := by
      rw [UInt32.toNat_ofNat']
      exact Nat.mod_eq_of_lt (by omega)
    rw [UInt32.toNat_sub_of_le _ _ (by rw [UInt32.le_iff_toNat_le, hc]; exact h), hc]
    simp only [UInt32.reduceToNat]
    omega
  · omega

/-- Only a write of no bytes can leave the buffer: it does if more is readable than fits. In any
other a complete copy leaves room for the terminator. -/
theorem rawCopyFromUser_cases (payload : List UInt8) (count : Nat) :
    (count = 0 ∧ BUF_SIZE < payload.length ∧
      rawCopyFromUser BUF_SIZE payload (copyLen count) = none) ∨
    (¬ (count = 0 ∧ BUF_SIZE < payload.length) ∧
      rawCopyFromUser BUF_SIZE payload (copyLen count) =
        some (copyLen count - payload.length, payload.take (copyLen count)) ∧
      (copyLen count - payload.length = 0 →
        (payload.take (copyLen count)).length < BUF_SIZE)) := by
  unfold rawCopyFromUser
  rcases Nat.eq_zero_or_pos count with rfl | hpos
  · have hlen : copyLen 0 = 4294967295 := by decide
    rw [hlen, List.length_take, BUF_SIZE]
    by_cases hmany : 512 < payload.length
    · exact Or.inl ⟨rfl, hmany, if_pos (by omega)⟩
    · exact Or.inr ⟨fun h => hmany h.2, if_neg (by omega), by omega⟩
  · have hlen := copyLen_eq hpos
    rw [List.length_take, BUF_SIZE]
    exact Or.inr ⟨by omega, if_neg (by omega), by omega⟩

/-- A word of the table is compared with the C string in the buffer. -/
private theorem whichCommandIn_cons (com word : List UInt8) (c : Command)
    (rest : List (Command × List UInt8)) (hw : cstr word = word) :
    whichCommandIn com ((c, word) :: rest) =
      if cstr com = word then c else whichCommandIn com rest := by
  simp only [whichCommandIn, strcmp_eq_zero_iff, hw]

/-- Decoding depends on the C string in the buffer only. -/
theorem whichCommand_eq (com : List UInt8) :
    whichCommand com =
      if cstr com = cmdOut then .setOut
      else if cstr com = cmdIn then .setIn
      else if cstr com = cmdLow then .setLow
      else if cstr com = cmdHigh then .setHigh
      else .na := by
  rw [whichCommand, commands, whichCommandIn_cons _ _ _ _ (by decide),
    whichCommandIn_cons _ _ _ _ (by decide), whichCommandIn_cons _ _ _ _ (by decide),
    whichCommandIn_cons _ _ _ _ (by decide), whichCommandIn]

/-- Terminating the buffer does not change the string read from the copied bytes. -/
theorem whichCommand_terminated (bytes : List UInt8) :
    whichCommand (bytes ++ [0]) = whichCommand bytes := by
  rw [whichCommand_eq, whichCommand_eq, cstr_append_zero]

end OsCourseLabs.Gpio
