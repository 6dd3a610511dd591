import OsCourseLabs.Core.Getopt
import OsCourseLabs.Usb.Options

/-!
# The command line of the application

The help letter of `us` is declared with an argument. What follows it in its word is no option,
and at the end of its word it takes the next word: `us -hs` does not ask for the count, and
`us -h -s` does not either.
-/

namespace OsCourseLabs.Usb

open Getopt

/-- The option string of `us`; the colon gives the letter before it an argument. -/
def optstring : List Char := ['r', 'g', 'b', 'o', 'a', 'f', 's', 'h', ':']

/-- `main` on the words of its command line behind the name of the program. -/
def usCommand (appName : List UInt8) (words : List Word) (w : System) :
    Int × List (List UInt8) × List Print :=
  usMain appName (letters optstring words) w

/-- The letters that `us` acts on, told word by word. -/
def acted : List Word → List Char
  | [] => []
  | w :: ws =>
    if w = ['-', '-'] then []
    else
      match (flags w).dropWhile (· ≠ 'h') with
      | [] => flags w ++ acted ws
      | _ :: [] =>
        (flags w).takeWhile (· ≠ 'h') ++ 'h' ::
          match ws with
          | [] => []
          | _ :: ws => acted ws
      | _ :: _ :: _ => (flags w).takeWhile (· ≠ 'h') ++ 'h' :: acted ws

/-- A letter as the switch of `main` tells it from others. -/
def known (c : Char) : Char := if c ∈ ['r', 'b', 'g', 'o', 'a', 'f', 's'] then c else '?'

/-- Every letter that the switch of `main` has no case for prints the help. -/
theorem Locals.option_of_not_mem {c : Char} (h : c ∉ ['r', 'b', 'g', 'o', 'a', 'f', 's'])
    (appName : List UInt8) (s : Locals) :
    s.option appName c = { s with printed := s.printed ++ [help appName] } := by
  unfold Locals.option
  split
  case h_8 => rfl
  all_goals exact absurd (by decide) h

/-- The switch of `main` sees no more of a letter. -/
theorem Locals.option_known (appName : List UInt8) (s : Locals) (c : Char) :
    s.option appName (known c) = s.option appName c := by
  unfold known
  split
  · rfl
  · next h => rw [option_of_not_mem h, option_of_not_mem (by decide)]

/-- The switch of `main` sees no more of the letters. -/
theorem optionLoop_known (appName : List UInt8) (options : List Char) :
    optionLoop appName (options.map known) = optionLoop appName options := by
  rw [optionLoop, List.foldl_map]
  simp only [Locals.option_known]
  rfl

/-- What can be tried letter by letter holds of the letters of the option string. -/
theorem of_mem_optstring {p : Char → Prop} [DecidablePred p] (h : optstring.all (p ·)) {c : Char}
    (hc : c ∈ optstring) : p c :=
  of_decide_eq_true (List.all_eq_true.mp h c hc)

/-- The option string has the letters of the switch, the help letter and the colon. -/
theorem mem_optstring {c : Char} :
    c ∈ optstring ↔ c ∈ ['r', 'b', 'g', 'o', 'a', 'f', 's'] ∨ c = 'h' ∨ c = ':' := by
  simp only [optstring, List.mem_cons, List.not_mem_nil, or_false]
  tauto

/-- The help letter alone takes an argument. -/
theorem argument_optstring_iff (c : Char) : argument optstring c = some true ↔ c = 'h' := by
  by_cases h : c ∈ optstring
  · exact of_mem_optstring (p := fun c => argument optstring c = some true ↔ c = 'h') (by decide) h
  · rw [argument_of_not_mem h]
    exact iff_of_false nofun fun he => h (mem_optstring.mpr (.inr (.inl he)))

/-- A letter that `getopt` does not know is none of the switch either. -/
theorem known_shown (c : Char) : known (shown optstring c) = known c := by
  by_cases h : c ∈ optstring
  · exact of_mem_optstring (p := fun c => known (shown optstring c) = known c) (by decide) h
  · have hmem := (not_or.mp (mt mem_optstring.mpr h)).1
    rw [shown, if_pos (argument_of_not_mem h), known, known, if_neg hmem]
    rfl

/-- What `getopt` shows instead of unknown letters makes no difference to the switch. -/
theorem known_map_shown (cs : List Char) : (cs.map (shown optstring)).map known = cs.map known := by
  rw [List.map_map]
  exact List.map_congr_left fun c _ => known_shown c

/-- The letters of a word up to its first help letter are answered one by one. -/
theorem getoptLoop_takeWhile (w rest : Word) (ws : List Word) :
    (getoptLoop optstring ⟨w.takeWhile (· ≠ 'h') ++ rest, ws⟩).map known =
      (w.takeWhile (· ≠ 'h')).map known ++ (getoptLoop optstring ⟨rest, ws⟩).map known := by
  have hplain : ∀ c ∈ w.takeWhile (· ≠ 'h'), argument optstring c ≠ some true := fun c hc he => by
    have hne := List.mem_takeWhile_imp hc
    simp [(argument_optstring_iff c).mp he] at hne
  rw [getoptLoop_append hplain, List.map_append, known_map_shown]

/-- A word that has a help letter in it is cut in two by its first. -/
theorem eq_takeWhile_append {w b : Word} {c : Char} (h : w.dropWhile (· ≠ 'h') = c :: b) :
    w = w.takeWhile (· ≠ 'h') ++ 'h' :: b := by
  have hhead := List.head?_dropWhile_not (· ≠ 'h') w
  rw [h] at hhead
  obtain rfl : c = 'h' := by simpa using hhead
  rw [← h, List.takeWhile_append_dropWhile]

/-- Read word by word the letters are the same to `main`. -/
theorem letters_known (words : List Word) :
    (letters optstring words).map known = (acted words).map known := by
  have hh : argument optstring 'h' = some true := rfl
  fun_induction acted words with
  | case1 => rw [letters_nil]
  | case2 => rw [letters_stop]
  | case3 w ws hw hdrop ih =>
    have hall : (flags w).takeWhile (· ≠ 'h') = flags w := by
      have hsplit := List.takeWhile_append_dropWhile (p := (· ≠ 'h')) (l := flags w)
      rwa [hdrop, List.append_nil] at hsplit
    have hword := getoptLoop_takeWhile (flags w) [] ws
    rw [List.append_nil, hall] at hword
    rw [letters_cons hw, hword, List.map_append, ← ih, letters]
  | case4 w ws hw c hdrop ih =>
    have hword := getoptLoop_takeWhile (flags w) ['h'] ws
    rw [← eq_takeWhile_append hdrop] at hword
    rw [letters_cons hw, hword, List.map_append, List.map_cons]
    cases ws with
    | nil =>
      rw [getoptLoop_missing hh]
      rfl
    | cons u ws => rw [getoptLoop_detached hh, List.map_cons, ih]
  | case5 w ws hw c d b hdrop ih =>
    have hword := getoptLoop_takeWhile (flags w) ('h' :: d :: b) ws
    rw [← eq_takeWhile_append hdrop] at hword
    rw [letters_cons hw, hword, getoptLoop_attached hh (List.cons_ne_nil d b), List.map_append,
      List.map_cons, List.map_cons, ← ih]

/-- For every command line `us` does what its letters ask, read word by word: up to `--` those
of each option word, but nothing of what the help letter takes. It asks for the count exactly
if there is an `s` among them. -/
theorem us_command_line (appName : List UInt8) (words : List Word) (w : System) :
    usCommand appName words w = usMain appName (acted words) w ∧
      ∀ frame ∈ (usCommand appName words w).2.1, frame[8]? = some 1 ↔ 's' ∈ acted words := by
  have hloop : optionLoop appName (letters optstring words) = optionLoop appName (acted words) := by
    rw [← optionLoop_known, letters_known, optionLoop_known]
  have hmain : usCommand appName words w = usMain appName (acted words) w := by
    unfold usCommand usMain
    rw [hloop]
  refine ⟨hmain, fun frame hframe => ?_⟩
  rw [hmain, usMain_frames] at hframe
  split at hframe
  · cases hframe
  · rw [List.mem_singleton.mp hframe, ← optionLoop_getButtonCounts_iff appName]
    exact Option.some_inj

example : acted [['-', 'r', 'h', 's'], ['-', 'h'], ['-', 's'], ['-', 'g']] =
    ['r', 'h', 'h', 'g'] := by
  decide

end OsCourseLabs.Usb
