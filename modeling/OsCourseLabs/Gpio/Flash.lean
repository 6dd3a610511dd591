import OsCourseLabs.Core.Transition
import OsCourseLabs.Gpio.BbbLed

/-!
# The thread that flashes the LED

The thread reads the mode up to twice in a turn, without a lock, while the files are written.
A watch beside it notes the modes in force since the turn began and how the LED was before;
what a turn makes of the LED is then judged by these.
-/

namespace OsCourseLabs.Gpio.Led

open Transition

/-- What the thread does next. -/
inductive Pc where
  /-- `kthread_should_stop()`. -/
  | stopTest
  /-- `mode==FLASH`. -/
  | flashTest
  /-- `mode==ON`. -/
  | onTest
  /-- `gpio_set_value(gpioLED, ledOn)`. -/
  | drive
  /-- `msleep(blinkPeriod/2)`. -/
  | sleep
  | done
  deriving DecidableEq, Repr

/-- The thread, the variables it shares with the files, and its calls to `gpio_set_value` and
`msleep`, oldest first. -/
structure Flasher where
  vars : Vars
  pc : Pc
  shouldStop : Bool
  driven : List (Nat × Bool)
  slept : List Nat
  deriving DecidableEq, Repr

/-- `flash`, up to its next access to what it shares. -/
def flash (s : Flasher) : Option Flasher :=
  match s.pc with
  | .stopTest => some { s with pc := if s.shouldStop then .done else .flashTest }
  | .flashTest =>
    if s.vars.mode = .flash then
      some { s with vars := { s.vars with ledOn := !s.vars.ledOn }, pc := .drive }
    else some { s with pc := .onTest }
  | .onTest =>
    if s.vars.mode = .on then
      some { s with vars := { s.vars with ledOn := true }, pc := .drive }
    else some { s with vars := { s.vars with ledOn := false }, pc := .drive }
  | .drive => some { s with driven := s.driven ++ [(s.vars.gpioLED, s.vars.ledOn)], pc := .sleep }
  | .sleep => some { s with slept := s.slept ++ [s.vars.blinkPeriod.toNat / 2], pc := .stopTest }
  | .done => none

/-- The thread goes on, a file or a module parameter is written, or `kthread_stop` is called. -/
inductive Action where
  | thread
  | write (w : Write)
  | setGpioLED (gpio : Nat)
  | setBlinkPeriod (period : BitVec 32)
  | stop
  deriving DecidableEq, Repr

/-- An action of the thread, of a write, of a parameter or of the unload. -/
def step (s : Flasher) : Action → Option Flasher
  | .thread => flash s
  | .write w => some { s with vars := (w.serve s.vars).2 }
  | .setGpioLED gpio => some { s with vars := { s.vars with gpioLED := gpio } }
  | .setBlinkPeriod period => some { s with vars := { s.vars with blinkPeriod := period } }
  | .stop => some { s with shouldStop := true }

/-- A turn of the loop that has driven the LED. -/
structure Turn where
  before : Bool
  modes : List Mode
  lit : Bool
  deriving DecidableEq, Repr

/-- How the LED was when the turn began, the modes in force since, and the turns before it. -/
structure Watch where
  before : Bool
  modes : List Mode
  turns : List Turn
  deriving DecidableEq, Repr

/-- What the watch notes of an action that leads from one state to another. -/
def Watch.note (w : Watch) (s : Flasher) (a : Action) (t : Flasher) : Watch :=
  match a with
  | .thread =>
    match s.pc with
    | .stopTest => { w with before := s.vars.ledOn, modes := [s.vars.mode] }
    | .drive => { w with turns := w.turns ++ [⟨w.before, w.modes, s.vars.ledOn⟩] }
    | _ => w
  | .write _ => { w with modes := w.modes ++ [t.vars.mode] }
  | _ => w

/-- The watch only looks on. -/
def watchedStep (p : Flasher × Watch) (a : Action) : Option (Flasher × Watch) :=
  (step p.1 a).map fun t => (t, p.2.note p.1 a t)

/-- The thread as it is started on the variables, and the watch with it. -/
def started (v : Vars) : Flasher × Watch := (⟨v, .stopTest, false, [], []⟩, ⟨v.ledOn, [], []⟩)

/-- What became of the LED is what a mode in force asked for; or the turn found the mode to be
on at its first look and flashing at the second. -/
def Turn.Justified (t : Turn) : Prop :=
  match t.lit with
  | true => .on ∈ t.modes ∨ .flash ∈ t.modes ∧ t.before = false
  | false =>
    .off ∈ t.modes ∨ .flash ∈ t.modes ∧ t.before = true ∨ [Mode.on, .flash].Sublist t.modes

/-- What holds of the turn that is under way. -/
def UnderWay (s : Flasher) (w : Watch) : Prop :=
  match s.pc with
  | .flashTest => s.vars.mode ∈ w.modes ∧ w.before = s.vars.ledOn
  | .onTest => s.vars.mode ∈ w.modes ∧ w.before = s.vars.ledOn ∧
      ∃ m ∈ w.modes, m ≠ .flash ∧ (s.vars.mode = .flash → [m, .flash].Sublist w.modes)
  | .drive => (Turn.mk w.before w.modes s.vars.ledOn).Justified
  | _ => True

/-- Modes that come later take no reason away. -/
theorem Turn.Justified.append {before lit : Bool} {modes : List Mode}
    (h : (Turn.mk before modes lit).Justified) (more : List Mode) :
    (Turn.mk before (modes ++ more) lit).Justified := by
  cases lit with
  | true =>
    rcases h with h | h
    · exact Or.inl (List.mem_append_left _ h)
    · exact Or.inr ⟨List.mem_append_left _ h.1, h.2⟩
  | false =>
    rcases h with h | h | h
    · exact Or.inl (List.mem_append_left _ h)
    · exact Or.inr (Or.inl ⟨List.mem_append_left _ h.1, h.2⟩)
    · exact Or.inr (Or.inr (h.trans (List.sublist_append_left _ _)))

/-- What the thread does keeps the turn justified so far. -/
theorem flash_underWay {s t : Flasher} {w : Watch} (hs : flash s = some t) (h : UnderWay s w) :
    UnderWay t (w.note s .thread t) := by
  obtain ⟨vars, pc, shouldStop, driven, slept⟩ := s
  cases pc with
  | stopTest =>
    cases hs
    cases shouldStop with
    | true => trivial
    | false => exact ⟨by simp [Watch.note], rfl⟩
  | flashTest =>
    obtain ⟨hmode, hbefore⟩ := h
    simp only [flash] at hs
    split at hs
    · next hf =>
      cases hs
      simp only at hmode hbefore hf
      rw [hf] at hmode
      simp only [UnderWay, Watch.note, hbefore]
      cases vars.ledOn with
      | true => exact Or.inr (Or.inl ⟨hmode, rfl⟩)
      | false => exact Or.inr ⟨hmode, rfl⟩
    · next hf =>
      cases hs
      exact ⟨hmode, hbefore, _, hmode, hf, fun h => absurd h hf⟩
  | onTest =>
    obtain ⟨hmode, hbefore, m, hm, hne, hthen⟩ := h
    simp only [flash] at hs
    split at hs
    · next hon =>
      cases hs
      exact Or.inl (hon ▸ hmode)
    · next hon =>
      cases hs
      simp only at hmode hon hthen
      simp only [UnderWay, Watch.note, Turn.Justified]
      cases hv : vars.mode with
      | off => exact Or.inl (hv ▸ hmode)
      | on => exact absurd hv hon
      | flash =>
        cases m with
        | off => exact Or.inl hm
        | on => exact Or.inr (Or.inr (hthen hv))
        | flash => exact absurd rfl hne
  | drive =>
    cases hs
    trivial
  | sleep =>
    cases hs
    trivial
  | done => cases hs

/-- A write in the middle of a turn adds a mode to it. -/
theorem UnderWay.write {s : Flasher} {w : Watch} (h : UnderWay s w) (x : Write) :
    UnderWay { s with vars := (x.serve s.vars).2 }
      { w with modes := w.modes ++ [(x.serve s.vars).2.mode] } := by
  obtain ⟨vars, pc, shouldStop, driven, slept⟩ := s
  have hlit : (x.serve vars).2.ledOn = vars.ledOn := by rw [x.serve_vars]
  cases pc with
  | flashTest => exact ⟨List.mem_append_right _ (List.mem_singleton_self _), h.2.trans hlit.symm⟩
  | onTest =>
    obtain ⟨_, hbefore, m, hm, hne, _⟩ := h
    refine ⟨List.mem_append_right _ (List.mem_singleton_self _), hbefore.trans hlit.symm,
      m, List.mem_append_left _ hm, hne, fun hf => ?_⟩
    simp only at hf
    rw [hf]
    exact (List.singleton_sublist.mpr hm).append (List.Sublist.refl [Mode.flash])
  | drive =>
    simp only [UnderWay, hlit]
    exact Turn.Justified.append h _
  | _ => trivial

/-- How the LED was before the turn that is under way. -/
def current (s : Flasher) (w : Watch) : Bool :=
  match s.pc with
  | .drive => w.before
  | _ => s.vars.ledOn

/-- Every turn is justified, begins where the one before it ended, and is what was driven. -/
structure Inv (v : Vars) (p : Flasher × Watch) : Prop where
  underWay : UnderWay p.1 p.2
  justified : ∀ t ∈ p.2.turns, t.Justified
  chained : p.2.turns.map Turn.before ++ [current p.1 p.2] = v.ledOn :: p.2.turns.map Turn.lit
  driven : p.1.driven.map Prod.snd = p.2.turns.map Turn.lit

/-- A thread that was just started has no turns to justify. -/
theorem inv_started (v : Vars) : Inv v (started v) :=
  ⟨trivial, by simp [started], rfl, rfl⟩

/-- Every action keeps the turns justified. -/
theorem watchedStep_inv {v : Vars} {p q : Flasher × Watch} {a : Action}
    (hs : watchedStep p a = some q) (h : Inv v p) : Inv v q := by
  obtain ⟨s, w⟩ := p
  obtain ⟨hunder, hjust, hchain, hdriven⟩ := h
  obtain ⟨t, ht, rfl⟩ := Option.map_eq_some_iff.mp hs
  cases a with
  | thread =>
    have hnext := flash_underWay ht hunder
    obtain ⟨vars, pc, shouldStop, driven, slept⟩ := s
    cases pc with
    | stopTest =>
      cases ht
      cases shouldStop <;> exact ⟨hnext, hjust, hchain, hdriven⟩
    | flashTest =>
      have hbefore : w.before = vars.ledOn := hunder.2
      simp only [step, flash] at ht
      split at ht <;> cases ht
      · exact ⟨hnext, hjust, by simpa [current, Watch.note, hbefore] using hchain, hdriven⟩
      · exact ⟨hnext, hjust, hchain, hdriven⟩
    | onTest =>
      have hbefore : w.before = vars.ledOn := hunder.2.1
      simp only [step, flash] at ht
      split at ht <;> cases ht <;>
        exact ⟨hnext, hjust, by simpa [current, Watch.note, hbefore] using hchain, hdriven⟩
    | drive =>
      cases ht
      refine ⟨hnext, ?_, ?_, ?_⟩
      · intro t ht
        rcases List.mem_append.mp ht with ht | ht
        · exact hjust t ht
        · exact List.mem_singleton.mp ht ▸ hunder
      · simp only [current] at hchain
        simp [current, Watch.note, hchain]
      · simpa [Watch.note] using hdriven
    | sleep =>
      cases ht
      exact ⟨hnext, hjust, hchain, hdriven⟩
    | done => cases ht
  | write x =>
    cases ht
    have hcur : current { s with vars := (x.serve s.vars).2 }
        { w with modes := w.modes ++ [(x.serve s.vars).2.mode] } = current s w := by
      have hlit : (x.serve s.vars).2.ledOn = s.vars.ledOn := by rw [x.serve_vars]
      obtain ⟨vars, pc, shouldStop, driven, slept⟩ := s
      cases pc <;> first | rfl | exact hlit
    exact ⟨hunder.write x, hjust, (congrArg (_ ++ [·]) hcur).trans hchain, hdriven⟩
  | setGpioLED gpio => cases ht; exact ⟨hunder, hjust, hchain, hdriven⟩
  | setBlinkPeriod period => cases ht; exact ⟨hunder, hjust, hchain, hdriven⟩
  | stop => cases ht; exact ⟨hunder, hjust, hchain, hdriven⟩

/-- However the writes to the files and parameters fall between the steps of the thread, every
turn that drives the LED is justified by the modes in force during that turn, begins with the
LED as the one before left it, and is what is driven on the pin. -/
theorem bbbLed_turns_justified {v : Vars} {p : Flasher × Watch} {as : List Action}
    (hr : Run watchedStep (started v) as p) :
    (∀ t ∈ p.2.turns, t.Justified) ∧
      p.2.turns.map Turn.before <+: v.ledOn :: p.2.turns.map Turn.lit ∧
      p.1.driven.map Prod.snd = p.2.turns.map Turn.lit := by
  have hinv := hr.invariant (inv_started v) fun _ _ _ hu hs => watchedStep_inv hs hu
  exact ⟨hinv.justified, ⟨_, hinv.chained⟩, hinv.driven⟩

/-- An LED that was on goes dark for a turn when the mode changes from on to flashing between
the two looks at it. -/
theorem bbbLed_turns_justified_glitch :
    ∃ p, Run watchedStep (started ⟨16, 1000, true, .on⟩)
      [.thread, .thread, .write (.mode (modeShow Vars.default)), .thread, .thread] p ∧
      p.2.turns = [⟨true, [.on, .flash], false⟩] ∧ ∀ t ∈ p.2.turns, t.Justified := by
  obtain ⟨p, hrun, hp⟩ := run_of_observed (f := fun p : Flasher × Watch => p.2.turns)
    (show (exec watchedStep (started ⟨16, 1000, true, .on⟩)
      [.thread, .thread, .write (.mode (modeShow Vars.default)), .thread, .thread]).map _ =
        some [⟨true, [.on, .flash], false⟩] by decide)
  exact ⟨p, hrun, hp, (bbbLed_turns_justified hrun).1⟩

/-- Every run can be watched. -/
theorem run_watched {s t : Flasher} {as : List Action} (hr : Run step s as t) (w : Watch) :
    ∃ w', Run watchedStep (s, w) as (t, w') := by
  induction hr with
  | nil => exact ⟨w, Run.nil _⟩
  | snoc _ hs ih =>
    obtain ⟨w', hw⟩ := ih
    exact ⟨_, hw.snoc (by rw [watchedStep, hs, Option.map_some])⟩

/-- The mode that an action asks for, if any. -/
def Action.asks : Action → Option Mode
  | .write w => w.asks
  | _ => none

/-- Only the given mode was in force so far. -/
structure Steady (m : Mode) (p : Flasher × Watch) : Prop where
  now : p.1.vars.mode = m
  turn : ∀ m' ∈ p.2.modes, m' = m
  turns : ∀ t ∈ p.2.turns, ∀ m' ∈ t.modes, m' = m

/-- An action that asks for no mode keeps the mode in force. -/
theorem watchedStep_steady {m : Mode} {p q : Flasher × Watch} {a : Action} (ha : a.asks = none)
    (hs : watchedStep p a = some q) (h : Steady m p) : Steady m q := by
  obtain ⟨s, w⟩ := p
  obtain ⟨hnow, hturn, hturns⟩ := h
  obtain ⟨t, ht, rfl⟩ := Option.map_eq_some_iff.mp hs
  cases a with
  | thread =>
    obtain ⟨vars, pc, shouldStop, driven, slept⟩ := s
    cases pc with
    | stopTest =>
      cases ht
      exact ⟨hnow, fun m' hm => (List.mem_singleton.mp hm).trans hnow, hturns⟩
    | flashTest | onTest =>
      simp only [step, flash] at ht
      split at ht <;> cases ht <;> exact ⟨hnow, hturn, hturns⟩
    | drive =>
      cases ht
      refine ⟨hnow, hturn, fun t ht => ?_⟩
      rcases List.mem_append.mp ht with ht | ht
      · exact hturns t ht
      · exact List.mem_singleton.mp ht ▸ hturn
    | sleep =>
      cases ht
      exact ⟨hnow, hturn, hturns⟩
    | done => cases ht
  | write x =>
    cases ht
    have hmode : (x.serve s.vars).2.mode = m := by
      rw [x.serve_vars, show x.asks = none from ha]
      exact hnow
    refine ⟨hmode, fun m' hm => ?_, hturns⟩
    rcases List.mem_append.mp hm with hm | hm
    · exact hturn m' hm
    · exact (List.mem_singleton.mp hm).trans hmode
  | setGpioLED gpio => cases ht; exact ⟨hnow, hturn, hturns⟩
  | setBlinkPeriod period => cases ht; exact ⟨hnow, hturn, hturns⟩
  | stop => cases ht; exact ⟨hnow, hturn, hturns⟩

/-- What a turn makes of the LED in one mode throughout. -/
def Mode.turns (before : Bool) : Mode → Bool
  | .on => true
  | .off => false
  | .flash => !before

/-- In a turn of one mode the LED does what the mode says. -/
theorem Turn.Justified.steady {t : Turn} {m : Mode} (h : t.Justified)
    (hm : ∀ m' ∈ t.modes, m' = m) : t.lit = m.turns t.before := by
  obtain ⟨before, modes, lit⟩ := t
  cases lit with
  | true =>
    rcases h with h | ⟨h, hb⟩
    · exact hm _ h ▸ rfl
    · have hb : before = false := hb
      exact hm _ h ▸ hb ▸ rfl
  | false =>
    rcases h with h | ⟨h, hb⟩ | h
    · exact hm _ h ▸ rfl
    · have hb : before = true := hb
      exact hm _ h ▸ hb ▸ rfl
    · have hon := hm .on (h.subset (by simp))
      have hflash := hm .flash (h.subset (by simp))
      exact absurd (hon.trans hflash.symm) (by decide)

/-- The LED after some turns in one mode. -/
def Mode.after (m : Mode) (ledOn : Bool) : Nat → Bool
  | 0 => ledOn
  | i + 1 => m.turns (m.after ledOn i)

/-- Turns that begin where the one before ended go through what the mode makes of the LED. -/
theorem chained_after {m : Mode} {b x : Bool} {ts : List Turn}
    (hc : ts.map Turn.before ++ [x] = b :: ts.map Turn.lit)
    (hs : ∀ t ∈ ts, t.lit = m.turns t.before) :
    ts.map Turn.lit = (List.range ts.length).map (fun i => m.after b (i + 1)) ∧
      x = m.after b ts.length := by
  induction ts using List.reverseRecOn generalizing x with
  | nil =>
    cases hc
    exact ⟨rfl, rfl⟩
  | append_singleton ts t ih =>
    have hall := List.forall_mem_append.mp hs
    rw [List.map_append, List.map_append, ← List.cons_append] at hc
    obtain ⟨hfront, hlast⟩ := List.append_inj' hc rfl
    obtain ⟨hlits, hbefore⟩ := ih hfront hall.1
    have hlit : t.lit = m.after b (ts.length + 1) := by
      rw [hall.2 t (List.mem_singleton_self t), hbefore]
      rfl
    constructor
    · rw [List.map_append, hlits, List.length_append, List.length_singleton, List.range_succ,
        List.map_append, List.map_singleton, List.map_singleton, hlit]
    · rw [List.length_append, List.length_singleton, ← hlit]
      exact (List.cons.inj hlast).1

/-- As long as no write asks for a mode, whatever else is written and whenever, the thread keeps
the LED on, or off, or inverts it in every turn. -/
theorem bbbLed_steady {v : Vars} {s : Flasher} {as : List Action}
    (hr : Run step ⟨v, .stopTest, false, [], []⟩ as s) (ha : ∀ a ∈ as, a.asks = none) :
    s.driven.map Prod.snd =
      (List.range s.driven.length).map fun i => v.mode.after v.ledOn (i + 1) := by
  obtain ⟨w, hw⟩ := run_watched hr ⟨v.ledOn, [], []⟩
  have hinv := hw.invariant (inv_started v) fun _ _ _ hu hs => watchedStep_inv hs hu
  have hsteady : Steady v.mode (s, w) := hw.invariant_of_mem ha
    ⟨rfl, by simp, by simp⟩ fun _ _ _ hasks hu hs => watchedStep_steady hasks hs hu
  have hlen : s.driven.length = w.turns.length := by simpa using congrArg List.length hinv.driven
  rw [hinv.driven, hlen]
  exact (chained_after hinv.chained fun t ht =>
    (hinv.justified t ht).steady (hsteady.turns t ht)).1

/-- Two turns of flashing. -/
theorem bbbLed_steady_flashing :
    ∃ s, Run step ⟨⟨16, 1000, true, .flash⟩, .stopTest, false, [], []⟩
      [.thread, .thread, .thread, .thread, .thread, .thread, .thread] s ∧
      s.driven.map Prod.snd = [false, true] := by
  obtain ⟨s, hrun, hs⟩ := run_of_observed (f := fun s : Flasher => s.driven.length)
    (show (exec step ⟨⟨16, 1000, true, .flash⟩, .stopTest, false, [], []⟩
      [.thread, .thread, .thread, .thread, .thread, .thread, .thread]).map _ = some 2 by decide)
  refine ⟨s, hrun, ?_⟩
  rw [bbbLed_steady hrun (by decide), hs]
  rfl

/-- The action leaves the period to what the file accepts. -/
def Action.KeepsRange : Action → Prop
  | .setBlinkPeriod period => InRange period
  | _ => True

/-- The thread never sleeps for less than a millisecond, which would make it spin, nor for more
than five seconds, whatever is written to the files, as long as the module parameter is not set
out of range. -/
theorem bbbLed_sleeps {v : Vars} {s : Flasher} {as : List Action}
    (hr : Run step ⟨v, .stopTest, false, [], []⟩ as s) (hv : InRange v.blinkPeriod)
    (ha : ∀ a ∈ as, a.KeepsRange) : ∀ ms ∈ s.slept, 1 ≤ ms ∧ ms ≤ 5000 := by
  have hall : InRange s.vars.blinkPeriod ∧ ∀ ms ∈ s.slept, 1 ≤ ms ∧ ms ≤ 5000 := by
    refine hr.invariant_of_mem (I := fun s =>
      InRange s.vars.blinkPeriod ∧ ∀ ms ∈ s.slept, 1 ≤ ms ∧ ms ≤ 5000) ha ⟨hv, by simp⟩ ?_
    rintro u a t hkeep ⟨hin, hslept⟩ hs
    cases a with
    | thread =>
      obtain ⟨vars, pc, shouldStop, driven, slept⟩ := u
      cases pc with
      | sleep =>
        cases hs
        refine ⟨hin, fun ms hms => ?_⟩
        rcases List.mem_append.mp hms with hms | hms
        · exact hslept ms hms
        · have hms : ms = vars.blinkPeriod.toNat / 2 := List.mem_singleton.mp hms
          obtain ⟨hlow, hup⟩ : 1 < vars.blinkPeriod.toNat ∧ vars.blinkPeriod.toNat ≤ 10000 := hin
          omega
      | stopTest | drive => cases hs; exact ⟨hin, hslept⟩
      | flashTest | onTest =>
        simp only [step, flash] at hs
        split at hs <;> cases hs <;> exact ⟨hin, hslept⟩
      | done => cases hs
    | write x =>
      cases hs
      refine ⟨?_, hslept⟩
      simp only [x.serve_vars]
      cases hx : x.sets with
      | none => exact hin
      | some period => exact Write.inRange_of_sets hx
    | setBlinkPeriod period => cases hs; exact ⟨hkeep, hslept⟩
    | setGpioLED gpio => cases hs; exact ⟨hin, hslept⟩
    | stop => cases hs; exact ⟨hin, hslept⟩
  exact hall.2

/-- With the defaults a turn sleeps half a second. -/
theorem bbbLed_sleeps_default :
    ∃ s, Run step ⟨Vars.default, .stopTest, false, [], []⟩
      [.thread, .thread, .thread, .thread] s ∧ s.slept = [500] ∧
      ∀ ms ∈ s.slept, 1 ≤ ms ∧ ms ≤ 5000 := by
  obtain ⟨s, hrun, hs⟩ := run_of_observed (f := Flasher.slept)
    (show (exec step ⟨Vars.default, .stopTest, false, [], []⟩
      [.thread, .thread, .thread, .thread]).map _ = some [500] by decide)
  exact ⟨s, hrun, hs, bbbLed_sleeps hrun (by decide) (by simp [Action.KeepsRange])⟩

end OsCourseLabs.Gpio.Led
