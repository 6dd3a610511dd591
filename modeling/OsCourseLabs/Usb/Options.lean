import OsCourseLabs.Core.AfterLast
import OsCourseLabs.Usb.Application

/-!
# The frame of the option letters

Colours accumulate, `f` clears them and `s` overwrites them with `leave_colors`, which no
colour changes any more. The flag that `s` sets is not cleared: an `f` after the last `s`
leaves a query that turns the lights off.
-/

namespace OsCourseLabs.Usb

/-- The lights that a letter turns on. -/
def mask : Char → UInt8
  | 'r' => red
  | 'b' => blue
  | 'g' => green
  | 'o' => orange
  | 'a' => orange ||| green ||| red ||| blue
  | _ => 0

/-- The lights that the letters turn on together. -/
def masks (options : List Char) : UInt8 := options.foldl (fun m c => m ||| mask c) 0

/-- A frame is a query exactly if `s` occurs, and then leaves the colours as they are; without
`s` it turns on the colours after the last `f`. -/
structure Documented (options : List Char) (data : List UInt8) : Prop where
  length : data.length = 10
  query : data[8]? = some 1 ↔ 's' ∈ options
  leaves : 's' ∈ options → data[9]? = some leaveColors
  colors : 's' ∉ options → data[9]? = some (masks (afterLast 'f' options))

/-- What a letter does to the colours. -/
theorem Locals.option_colorCombination (appName : List UInt8) (s : Locals) (c : Char) :
    (s.option appName c).colorCombination =
      if c = 'f' then 0 else if c = 's' then leaveColors else s.colorCombination ||| mask c := by
  unfold Locals.option mask
  split <;> simp_all

/-- What a letter does to the query flag. -/
theorem Locals.option_getButtonCounts (appName : List UInt8) (s : Locals) (c : Char) :
    (s.option appName c).getButtonCounts = if c = 's' then 1 else s.getButtonCounts := by
  unfold Locals.option
  split <;> simp_all

/-- The masks of letters are put together one by one. -/
theorem masks_concat (options : List Char) (c : Char) :
    masks (options ++ [c]) = masks options ||| mask c := by simp [masks]

/-- The loop handles the letters one by one. -/
theorem optionLoop_concat (appName : List UInt8) (options : List Char) (c : Char) :
    optionLoop appName (options ++ [c]) = (optionLoop appName options).option appName c := by
  simp [optionLoop]

/-- The flag is set from the first `s` on. -/
theorem optionLoop_getButtonCounts (appName : List UInt8) (options : List Char) :
    (optionLoop appName options).getButtonCounts = if 's' ∈ options then 1 else 0 := by
  induction options using List.reverseRecOn with
  | nil => rfl
  | append_singleton options c ih =>
    rw [optionLoop_concat, Locals.option_getButtonCounts, ih]
    by_cases hc : c = 's'
    · simp [hc]
    · simp [hc, Ne.symm hc]

/-- The loop ends with the flag set exactly if `s` occurs. -/
theorem optionLoop_getButtonCounts_iff (appName : List UInt8) (options : List Char) :
    (optionLoop appName options).getButtonCounts = 1 ↔ 's' ∈ options := by
  rw [optionLoop_getButtonCounts]
  by_cases hs : 's' ∈ options <;> simp [hs]

/-- The colours are those after the last `f`, unless an `s` is among the letters after it. -/
theorem optionLoop_colorCombination (appName : List UInt8) (options : List Char) :
    (optionLoop appName options).colorCombination =
      if 's' ∈ afterLast 'f' options then leaveColors else masks (afterLast 'f' options) := by
  induction options using List.reverseRecOn with
  | nil => rfl
  | append_singleton options c ih =>
    rw [optionLoop_concat, Locals.option_colorCombination]
    by_cases hf : c = 'f'
    · rw [hf, afterLast_concat_self]
      rfl
    rw [if_neg hf, afterLast_concat_of_ne hf]
    by_cases hs : c = 's'
    · simp [hs]
    · rw [if_neg hs, ih, masks_concat]
      by_cases hmem : 's' ∈ afterLast 'f' options
      · -- all bits are set already
        simp only [hmem, List.mem_append, true_or, ite_true]
        exact UInt8.neg_one_or
      · simp [hmem, Ne.symm hs]

/-- No letter reaches beyond the four LEDs. -/
theorem mask_lt (c : Char) : (mask c).toNat < 16 := by
  unfold mask
  split <;> decide

/-- No letters turn on as many lights as `leave_colors` has bits. -/
theorem masks_ne_leaveColors (options : List Char) : masks options ≠ leaveColors := by
  have hlt : (masks options).toNat < 16 := by
    induction options using List.reverseRecOn with
    | nil => decide
    | append_singleton options c ih =>
      rw [masks_concat, UInt8.toNat_or]
      exact Nat.or_lt_two_pow (n := 4) ih (mask_lt c)
  intro he
  rw [he] at hlt
  exact absurd hlt (by decide)

/-- The frame is the documented one exactly when no `f` comes after the last `s`. -/
theorem optionLoop_documented_iff (appName : List UInt8) (options : List Char) :
    Documented options (optionLoop appName options).data ↔
      ('s' ∈ options → 'f' ∉ afterLast 's' options) := by
  have hdata : (optionLoop appName options).data[9]? = some (if 's' ∈ afterLast 'f' options
      then leaveColors else masks (afterLast 'f' options)) :=
    congrArg some (optionLoop_colorCombination appName options)
  constructor
  · intro h hs
    rw [← mem_afterLast_iff (by decide) hs]
    have hleaves := h.leaves hs
    rw [hdata, Option.some.injEq] at hleaves
    by_contra hnot
    rw [if_neg hnot] at hleaves
    exact masks_ne_leaveColors _ hleaves
  · intro h
    constructor
    case length => rfl
    case query =>
      have hflag : (optionLoop appName options).data[8]? =
          some (optionLoop appName options).getButtonCounts := rfl
      rw [hflag, Option.some.injEq]
      exact optionLoop_getButtonCounts_iff appName options
    case leaves =>
      intro hs
      rw [hdata, if_pos ((mem_afterLast_iff (by decide) hs).mpr (h hs))]
    case colors =>
      intro hs
      have hnot : 's' ∉ afterLast 'f' options := fun hmem => hs (afterLast_subset _ _ hmem)
      rw [hdata, if_neg hnot]

/-- Every run of `us` that opens the device writes the frame of its option letters, and no
other. -/
theorem usMain_frames (appName : List UInt8) (options : List Char) (w : System) :
    (usMain appName options w).2.1 =
      if w.fd = none then [] else [(optionLoop appName options).data] := by
  unfold usMain
  cases w.fd <;> rfl

/-- `-sf` asks for the button count and turns the lights off. -/
theorem query_turns_off :
    (optionLoop [] ['s', 'f']).data = [1, 0, 0, 0, 0, 0, 0, 0, 1, 0] ∧
    ¬ Documented ['s', 'f'] (optionLoop [] ['s', 'f']).data := by
  refine ⟨by decide, fun h => ?_⟩
  have hleaves := h.leaves (by decide)
  exact absurd hleaves (by decide)

end OsCourseLabs.Usb
