import Mathlib.Tactic.Common

/-!
# Options of a command line

`getopt` answers one letter for each call and keeps in between what is left of the word that
it is in and the words that follow. Words that are no options are passed over, as the GNU
library does while `POSIXLY_CORRECT` is not set; `--` ends the options. A letter that takes an
argument takes what is left of its word, or else the next word whatever it is; the argument
itself is not kept here. The option string starts with a letter and has single colons only.
-/

namespace OsCourseLabs.Getopt

/-- A word of a command line. -/
abbrev Word := List Char

/-- `nextchar`, and `argv` from `optind` on. -/
structure Scan where
  nextchar : Word
  rest : List Word
  deriving DecidableEq, Repr

/-- Whether a letter of the option string takes an argument; none for any other letter. -/
def argument : (opts : List Char) → Char → Option Bool
  | [], _ => none
  | o :: opts, c => if o = c ∧ c ≠ ':' then some (opts.head? = some ':') else argument opts c

/-- A letter that is not in the option string has no entry. -/
theorem argument_of_not_mem {opts : List Char} {c : Char} (h : c ∉ opts) :
    argument opts c = none := by
  induction opts with
  | nil => rfl
  | cons o opts ih =>
    obtain ⟨hne, hrest⟩ := List.ne_and_not_mem_of_not_mem_cons h
    rw [argument, if_neg fun ho => hne ho.1.symm, ih hrest]

/-- The first option word: its letters and the words that follow. -/
def nextOption : List Word → Option (Char × Word × List Word)
  | [] => none
  | w :: ws =>
    if w = ['-', '-'] then none
    else
      match w with
      | '-' :: c :: cs => some (c, cs, ws)
      | _ => nextOption ws

/-- The letter `c`, of which `cs` are the next ones in the word and `ws` the words that follow. -/
def readOption (opts : List Char) (c : Char) (cs : Word) (ws : List Word) : Char × Scan :=
  match argument opts c with
  | none => ('?', ⟨cs, ws⟩)
  | some false => (c, ⟨cs, ws⟩)
  | some true =>
    match cs, ws with
    | _ :: _, ws => (c, ⟨[], ws⟩)
    | [], _ :: ws => (c, ⟨[], ws⟩)
    | [], [] => ('?', ⟨[], []⟩)

/-- One call; none stands for -1. -/
def getopt (opts : List Char) (s : Scan) : Option (Char × Scan) :=
  match s.nextchar with
  | c :: cs => some (readOption opts c cs s.rest)
  | [] => (nextOption s.rest).map fun (c, cs, ws) => readOption opts c cs ws

/-- How much is left to read in words, the ends of the words counted. -/
def wordsSize : List Word → Nat
  | [] => 0
  | w :: ws => w.length + 1 + wordsSize ws

/-- How much is left to read; every letter makes it less. -/
def Scan.size (s : Scan) : Nat := s.nextchar.length + wordsSize s.rest

/-- Reading an option leaves no more than there is. -/
theorem readOption_size (opts : List Char) (c : Char) (cs : Word) (ws : List Word) :
    (readOption opts c cs ws).2.size ≤ cs.length + wordsSize ws := by
  unfold readOption
  split
  · exact Nat.le_refl _
  · exact Nat.le_refl _
  · split
    · simp [Scan.size]
    · simp [Scan.size, wordsSize]
    · simp [Scan.size]

/-- Finding the next option takes at least the word that it is in. -/
theorem nextOption_size {ws ws' : List Word} {c : Char} {cs : Word}
    (h : nextOption ws = some (c, cs, ws')) : cs.length + wordsSize ws' < wordsSize ws := by
  induction ws with
  | nil => cases h
  | cons w ws ih =>
    simp only [nextOption, Option.ite_none_left_eq_some] at h
    obtain ⟨-, h⟩ := h
    simp only [wordsSize]
    split at h
    · cases h
      simp only [List.length_cons]
      omega
    · have hlt := ih h
      omega

/-- Every call that answers a letter leaves less to scan. -/
theorem getopt_size {opts : List Char} {s s' : Scan} {c : Char}
    (h : getopt opts s = some (c, s')) : s'.size < s.size := by
  obtain ⟨nextchar, rest⟩ := s
  cases nextchar with
  | cons d cs =>
    have hle := readOption_size opts d cs rest
    have he : readOption opts d cs rest = (c, s') := Option.some.inj h
    rw [he] at hle
    simp only [Scan.size, List.length_cons] at hle ⊢
    omega
  | nil =>
    obtain ⟨⟨d, cs, ws⟩, hnext, he⟩ := Option.map_eq_some_iff.mp h
    have hlt := nextOption_size hnext
    have hle := readOption_size opts d cs ws
    have he : readOption opts d cs ws = (c, s') := he
    rw [he] at hle
    simp only [Scan.size, List.length_nil] at hle hlt ⊢
    omega

/-- The letters answered until -1 is. -/
def getoptLoop (opts : List Char) (s : Scan) : List Char :=
  match _h : getopt opts s with
  | none => []
  | some (c, s') => c :: getoptLoop opts s'
termination_by s.size
decreasing_by exact getopt_size _h

/-- The letters of a command line. -/
def letters (opts : List Char) (words : List Word) : List Char := getoptLoop opts ⟨[], words⟩

variable {opts : List Char}

/-- The loop, unfolded once. -/
theorem getoptLoop_eq (s : Scan) :
    getoptLoop opts s = match getopt opts s with
      | none => []
      | some (c, s') => c :: getoptLoop opts s' := by
  rw [getoptLoop]
  split <;> next h => rw [h]

/-- In the middle of a word the next letter is the next option. -/
theorem getoptLoop_cons (c : Char) (cs : Word) (ws : List Word) :
    getoptLoop opts ⟨c :: cs, ws⟩ =
      (readOption opts c cs ws).1 :: getoptLoop opts (readOption opts c cs ws).2 :=
  getoptLoop_eq _

/-- Without words there are no options. -/
theorem letters_nil : letters opts [] = [] := getoptLoop_eq _

/-- Nothing after `--` is an option. -/
theorem letters_stop (ws : List Word) : letters opts (['-', '-'] :: ws) = [] := getoptLoop_eq _

/-- The letters of an option word; none of an operand. -/
def flags : Word → Word
  | '-' :: cs => cs
  | _ => []

/-- A word with flags is a dash and its flags. -/
theorem eq_of_flags {w cs : Word} (h : flags w = cs) (hne : cs ≠ []) : w = '-' :: cs := by
  unfold flags at h
  split at h
  · rw [h]
  · exact absurd h.symm hne

/-- A word without flags is passed over. -/
theorem nextOption_operand {w : Word} (h : flags w = []) (ws : List Word) :
    nextOption (w :: ws) = nextOption ws := by
  have hstop : w ≠ ['-', '-'] := by
    rintro rfl
    cases h
  rw [nextOption, if_neg hstop]
  rintro c cs rfl
  cases h

/-- A word that does not end the options is read letter by letter. -/
theorem letters_cons {w : Word} (hw : w ≠ ['-', '-']) (ws : List Word) :
    letters opts (w :: ws) = getoptLoop opts ⟨flags w, ws⟩ := by
  cases hf : flags w with
  | nil =>
    rw [letters, getoptLoop_eq, getoptLoop_eq ⟨[], ws⟩]
    simp only [getopt, nextOption_operand hf]
  | cons c cs =>
    obtain rfl := eq_of_flags hf (List.cons_ne_nil c cs)
    have hnext : nextOption (('-' :: c :: cs) :: ws) = some (c, cs, ws) := if_neg hw
    rw [letters, getoptLoop_eq, getopt, hnext]
    exact (getoptLoop_cons c cs ws).symm

/-- A letter without an argument as the caller sees it. -/
def shown (opts : List Char) (c : Char) : Char :=
  if argument opts c = none then '?' else c

/-- Letters without arguments are answered one by one. -/
theorem getoptLoop_append {a : Word} (h : ∀ c ∈ a, argument opts c ≠ some true) (b : Word)
    (ws : List Word) :
    getoptLoop opts ⟨a ++ b, ws⟩ = a.map (shown opts) ++ getoptLoop opts ⟨b, ws⟩ := by
  induction a with
  | nil => rfl
  | cons c a ih =>
    have hall := List.forall_mem_cons.mp h
    rw [List.cons_append, getoptLoop_cons, List.map_cons, List.cons_append, ← ih hall.2]
    unfold readOption shown
    cases hc : argument opts c with
    | none => rfl
    | some takes =>
      cases takes with
      | false => rfl
      | true => exact absurd hc hall.1

/-- A letter with an argument takes the rest of its word. -/
theorem getoptLoop_attached {c : Char} (hc : argument opts c = some true) {b : Word}
    (hb : b ≠ []) (ws : List Word) :
    getoptLoop opts ⟨c :: b, ws⟩ = c :: letters opts ws := by
  obtain ⟨d, b, rfl⟩ := List.exists_cons_of_ne_nil hb
  rw [getoptLoop_cons, readOption, hc]
  rfl

/-- A letter with an argument at the end of its word takes the next word. -/
theorem getoptLoop_detached {c : Char} (hc : argument opts c = some true) (w : Word)
    (ws : List Word) : getoptLoop opts ⟨[c], w :: ws⟩ = c :: letters opts ws := by
  rw [getoptLoop_cons, readOption, hc]
  rfl

/-- With no word left to take it is not answered. -/
theorem getoptLoop_missing {c : Char} (hc : argument opts c = some true) :
    getoptLoop opts ⟨[c], []⟩ = ['?'] := by
  rw [getoptLoop_cons, readOption, hc]
  exact congrArg ('?' :: ·) letters_nil

end OsCourseLabs.Getopt
