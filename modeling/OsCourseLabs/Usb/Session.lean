import OsCourseLabs.Usb.Count
import OsCourseLabs.Usb.Replies
import Mathlib.Logic.Function.Basic

/-!
# The application over the driver

Any number of processes run `us` on one device, and their system calls follow one another in
any order. `stm32leds_write` returns zero also for a write that it drops for its length, but
`us` always writes ten bytes: for it, a value that is not negative means an accepted frame.
-/

namespace OsCourseLabs.Usb

open Transition

/-- One start of `us`: its command line, its stack, and what the calls on its way answer. The
USB core stores no more than the ten bytes asked for. -/
structure Invocation where
  appName : List UInt8
  options : List Char
  fd : Option Int
  urbOk : Bool
  coherentOk : Bool
  submit : Int
  ret : Int
  report : List UInt8
  buf : List UInt8
  report_length : report.length ≤ 10

/-- The locals of `main` after its options. -/
def Invocation.locals (v : Invocation) : Locals := optionLoop v.appName v.options

/-- The write that `send_data` makes. -/
def Invocation.frameRequest (v : Invocation) : WriteRequest :=
  ⟨10, v.locals.data, v.urbOk, v.coherentOk, v.submit⟩

/-- The USB core has taken the frame. -/
def Invocation.Accepted (v : Invocation) : Prop :=
  v.urbOk = true ∧ v.coherentOk = true ∧ v.submit = 0

instance (v : Invocation) : Decidable v.Accepted :=
  inferInstanceAs (Decidable (_ ∧ _ ∧ _))

/-- `write` of the C library: errors become -1. -/
def writeResult (r : Int) : Int := if r < 0 then -1 else r

/-- The result of a write keeps its sign. -/
theorem writeResult_nonneg_iff (r : Int) : 0 ≤ writeResult r ↔ 0 ≤ r := by
  unfold writeResult
  split <;> omega

/-- Where a process is: before its `write`, before its `read`, or past both; a crash of the
driver kills it. -/
inductive Pc where
  | writing (fd : Int)
  | reading (fd : Int)
  | finished
  | killed
  deriving DecidableEq, Repr

/-- A process that runs the application: where it is, and what it has printed. -/
structure Process where
  run : Invocation
  pc : Pc
  printed : List Print

/-- The processes, the input buffer of the driver, and the frames handed to the device with the
processes they come from. -/
structure World where
  procs : Nat → Option Process
  intInBuffer : List UInt8
  frames : List (Nat × List UInt8)

/-- The world with a process as it is now. -/
def World.set (w : World) (p : Nat) (x : Process) : World :=
  { w with procs := Function.update w.procs p (some x) }

/-- A system call of a process, or its start. -/
inductive Act where
  | start (p : Nat) (v : Invocation)
  | write (p : Nat)
  | read (p : Nat)

/-- `main` up to its `write`: the device is opened and the options are folded. -/
def Invocation.enter (v : Invocation) : Process :=
  match v.fd with
  | none => ⟨v, .finished, [.perror "open"]⟩
  | some fd => ⟨v, .writing fd, v.locals.printed⟩

/-- A process after its `write`. -/
def Process.written (x : Process) (fd : Int) : Ending → Process
  | .crashed => { x with pc := .killed }
  | .returned r =>
    let (retval, sent) := sendData fd (writeResult r)
    { x with
      pc := if 0 ≤ retval ∧ x.run.locals.getButtonCounts = 1 then .reading fd else .finished
      printed := x.printed ++ sent }

/-- One system call of one process, from entry to return. -/
def usStep (cfg : Config) (signed : Bool) (w : World) : Act → Option World
  | .start p v => if w.procs p = none then some (w.set p v.enter) else none
  | .write p =>
    match w.procs p with
    | some ⟨v, .writing fd, printed⟩ =>
      let (events, ending) := stm32ledsWrite cfg v.frameRequest
      let w := w.set p (Process.written ⟨v, .writing fd, printed⟩ fd ending)
      some { w with frames := w.frames ++ (events.filterMap Event.frame).map (p, ·) }
    | _ => none
  | .read p =>
    match w.procs p with
    | some ⟨v, .reading fd, printed⟩ =>
      let q := countRequest v.ret v.report true
      let count := receiveData signed fd (readResult (stm32ledsRead cfg q w.intInBuffer)) v.buf
      let w := w.set p ⟨v, .finished, printed ++ [count]⟩
      some { w with intInBuffer := q.received w.intInBuffer }
    | _ => none

/-- No process yet, and whatever is in the buffer. -/
def World.start (intInBuffer : List UInt8) : World := ⟨fun _ => none, intInBuffer, []⟩

/-- The count as `us` prints it: a read error, or the second byte of its stack buffer after as
much of its own report as there was. -/
def Invocation.count (signed : Bool) (v : Invocation) (fd : Int) : Print :=
  if v.ret < 0 then couldNotRead fd
  else pressed (charValue signed ((overwrite v.buf (if v.ret = 0 then v.report else [])).getD 1 0))

/-- What is printed when the frame was not taken. -/
def couldNotSend (fd : Int) : Print :=
  .fprintf .stderr "could not send command to fd=%d\n" [.int fd]

/-- All that a start of `us` prints, told from its own options and answers alone. -/
def Invocation.output (signed : Bool) (v : Invocation) : List Print :=
  match v.fd with
  | none => [.perror "open"]
  | some fd => v.locals.printed ++
    if v.Accepted then if 's' ∈ v.options then [v.count signed fd] else []
    else [couldNotSend fd]

/-- The frame that a start of `us` gets to the device, if it opens it and the frame is taken. -/
def Invocation.frame (v : Invocation) : Option (List UInt8) :=
  if v.fd ≠ none ∧ v.Accepted then some v.locals.data else none

/-- What the driver does with the write of a process. -/
theorem Invocation.write_replies (cfg : Config) (v : Invocation) :
    ((stm32ledsWrite cfg v.frameRequest).1.filterMap Event.frame =
      if v.Accepted then [v.locals.data] else []) ∧
    ((stm32ledsWrite cfg v.frameRequest).2 = .crashed ∧ ¬ v.Accepted ∨
      ∃ r, (stm32ledsWrite cfg v.frameRequest).2 = .returned r ∧ (0 ≤ r ↔ v.Accepted)) := by
  rcases stm32ledsWrite_replies cfg v.frameRequest with ⟨hs, hframes, hret⟩ | ⟨hs, hframes, hret⟩
  · obtain ⟨-, hurb, hbuf, -⟩ := hs
    have hacc : v.Accepted ↔ v.submit = 0 := ⟨fun h => h.2.2, fun h => ⟨hurb, hbuf, h⟩⟩
    simp only [hacc]
    refine ⟨hframes, ?_⟩
    by_cases hsub : v.submit = 0
    · exact Or.inr ⟨0, hret.trans (if_pos hsub), iff_of_true (Int.le_refl 0) hsub⟩
    · exact Or.inl ⟨hret.trans (if_neg hsub), hsub⟩
  · have hacc : ¬ v.Accepted := fun h => hs ⟨rfl, h.1, h.2.1, Nat.le_refl 10⟩
    refine ⟨by rw [if_neg hacc]; exact hframes, ?_⟩
    have h10 : ¬ v.frameRequest.count ≠ 10 := not_not.mpr rfl
    rw [hret, if_neg h10]
    by_cases hno : v.frameRequest.NoBuffer
    · exact Or.inr ⟨-ENOMEM, if_pos hno, iff_of_false (by decide) hacc⟩
    · exact Or.inl ⟨if_neg hno, hacc⟩

/-- What `receive_data` prints is the count of the report that was delivered. -/
theorem Invocation.receive_count (cfg : Config) (signed : Bool) (v : Invocation) (fd : Int)
    (buffer : List UInt8) :
    receiveData signed fd
      (readResult (stm32ledsRead cfg (countRequest v.ret v.report true) buffer)) v.buf =
      v.count signed fd := by
  have h := @printedCount_eq v.ret _ v.report_length cfg signed fd true buffer v.buf
  simp only [Bool.true_eq_false, and_false, or_false] at h
  exact h

/-- What is true of a process, wherever it is. -/
def Process.Follows (signed : Bool) (x : Process) : Prop :=
  match x.pc with
  | .writing fd => x.run.fd = some fd ∧ x.printed = x.run.locals.printed
  | .reading fd => x.run.fd = some fd ∧ x.printed = x.run.locals.printed ∧ x.run.Accepted ∧
    's' ∈ x.run.options
  | .finished => x.printed = x.run.output signed
  | .killed => ¬ x.run.Accepted ∧ x.printed = x.run.locals.printed

/-- What a process has got to the device: nothing before its `write`, its frame after it. -/
def Process.sent (x : Process) : Option (List UInt8) :=
  match x.pc with
  | .writing _ => none
  | _ => x.run.frame

/-- The frame of a process that was taken, if one was. -/
def World.sentBy (w : World) (p : Nat) : Option (List UInt8) := (w.procs p).bind Process.sent

/-- What holds between the system calls: every process follows its own course, and the device
has been handed what the processes have sent, once each. -/
structure World.Orderly (signed : Bool) (w : World) : Prop where
  follows : ∀ p x, w.procs p = some x → x.Follows signed
  frames : ∀ p data, (p, data) ∈ w.frames ↔ w.sentBy p = some data
  once : (w.frames.map Prod.fst).Nodup

/-- A step of one process changes nothing about the frames of the others. -/
theorem World.sentBy_update {w w' : World} {p : Nat} {x : Process}
    (h : w'.procs = Function.update w.procs p (some x)) (p' : Nat) :
    w'.sentBy p' = if p' = p then x.sent else w.sentBy p' := by
  rw [sentBy, h]
  by_cases hp : p' = p
  · rw [if_pos hp, hp, Function.update_self, Option.bind_some]
  · rw [if_neg hp, Function.update_of_ne hp, sentBy]

/-- A process none of whose frames was taken is not in the list. -/
theorem World.Orderly.fresh {signed : Bool} {w : World} (h : w.Orderly signed) {p : Nat}
    (hnone : w.sentBy p = none) : p ∉ w.frames.map Prod.fst := by
  intro hmem
  obtain ⟨⟨p', data⟩, hf, rfl⟩ := List.mem_map.mp hmem
  exact absurd ((h.frames _ _).mp hf) (by simp [hnone])

/-- One process moves on. What it hands over is what it has sent after the step and had not sent
before. -/
theorem World.Orderly.set {signed : Bool} {w w' : World} (h : w.Orderly signed) {p : Nat}
    {x : Process} (new : List (List UInt8)) (hx : x.Follows signed)
    (hprocs : w'.procs = Function.update w.procs p (some x))
    (hframes : w'.frames = w.frames ++ new.map (p, ·))
    (hnew : w.sentBy p = none ∧ new = x.sent.toList ∨ w.sentBy p = x.sent ∧ new = []) :
    w'.Orderly signed := by
  constructor
  case follows =>
    intro p' x' hp'
    by_cases hne : p' = p
    · subst hne
      rw [hprocs, Function.update_self] at hp'
      exact Option.some.inj hp' ▸ hx
    · rw [hprocs, Function.update_of_ne hne] at hp'
      exact h.follows p' x' hp'
  case frames =>
    intro p' data
    rw [hframes, List.mem_append, h.frames, World.sentBy_update hprocs]
    by_cases hne : p' = p
    · subst hne
      rw [if_pos rfl]
      rcases hnew with ⟨hnone, rfl⟩ | ⟨hsame, rfl⟩
      · simp [hnone, Option.mem_toList]
      · simp [hsame]
    · have hnot : (p', data) ∉ new.map (p, ·) := fun hmem => by
        obtain ⟨_, _, he⟩ := List.mem_map.mp hmem
        exact hne (Prod.mk.inj he).1.symm
      rw [if_neg hne]
      exact or_iff_left hnot
  case once =>
    rw [hframes, List.map_append]
    rcases hnew with ⟨hnone, rfl⟩ | ⟨-, rfl⟩
    · have hfresh := h.fresh hnone
      cases x.sent with
      | none => simpa using h.once
      | some data =>
        refine List.nodup_append.mpr ⟨h.once, by simp, ?_⟩
        intro a ha b hb
        obtain rfl : b = p := List.mem_singleton.mp hb
        exact fun he => hfresh (he ▸ ha)
    · simpa using h.once

/-- A process past its `write` is where its options and the answer of the driver put it. -/
theorem Process.written_follows {cfg : Config} {signed : Bool} {v : Invocation} {fd : Int}
    {printed : List Print} (h : Process.Follows signed ⟨v, .writing fd, printed⟩) :
    (Process.written ⟨v, .writing fd, printed⟩ fd (stm32ledsWrite cfg v.frameRequest).2).Follows
      signed := by
  obtain ⟨hfd, rfl⟩ : v.fd = some fd ∧ printed = v.locals.printed := h
  rcases (v.write_replies cfg).2 with ⟨hend, hacc⟩ | ⟨r, hend, hr⟩
  · rw [hend]
    exact ⟨hacc, rfl⟩
  · rw [hend]
    have hs : v.locals.getButtonCounts = 1 ↔ 's' ∈ v.options :=
      optionLoop_getButtonCounts_iff v.appName v.options
    by_cases hacc : v.Accepted
    · have hpos : writeResult r = r := if_neg (Int.not_lt.mpr (hr.mpr hacc))
      by_cases hq : 's' ∈ v.options
      · have hpc : 0 ≤ r ∧ v.locals.getButtonCounts = 1 := ⟨hr.mpr hacc, hs.mpr hq⟩
        simp [written, sendData, hpos, hpc, Follows, hfd, hacc, hq, Int.not_lt.mpr hpc.1]
      · have hpc : ¬ (0 ≤ r ∧ v.locals.getButtonCounts = 1) := fun h => hq (hs.mp h.2)
        simp [written, sendData, hpos, hpc, Follows, Invocation.output, hfd, hacc, hq,
          Int.not_lt.mpr (hr.mpr hacc)]
    · have hneg : writeResult r = -1 := if_pos (Int.not_le.mp fun h => hacc (hr.mp h))
      simp [written, sendData, hneg, Follows, Invocation.output, hfd, hacc, couldNotSend]

/-- After its write a process has sent its frame. -/
theorem Process.written_sent (x : Process) (fd : Int) (ending : Ending) :
    (x.written fd ending).sent = x.run.frame := by
  cases ending with
  | crashed => rfl
  | returned r =>
    rw [written, sendData, sent]
    by_cases hpc : 0 ≤ writeResult r ∧ x.run.locals.getButtonCounts = 1
    · simp [hpc]
    · simp [hpc]

/-- A process that starts has printed what its options ask for. -/
theorem Invocation.enter_follows (signed : Bool) (v : Invocation) : v.enter.Follows signed := by
  unfold enter
  split
  · next h => simp [Process.Follows, output, h]
  · next h => exact ⟨h, rfl⟩

/-- A process that starts has sent nothing. -/
theorem Invocation.enter_sent (v : Invocation) : v.enter.sent = none := by
  unfold enter
  split
  · next h => simp [Process.sent, frame, h]
  · rfl

/-- One system call. -/
theorem World.Orderly.step {cfg : Config} {signed : Bool} {w w' : World} {a : Act}
    (h : w.Orderly signed) (hs : usStep cfg signed w a = some w') : w'.Orderly signed := by
  cases a with
  | start p v =>
    simp only [usStep] at hs
    split at hs
    · next hnone =>
      cases hs
      have hbefore : w.sentBy p = none := by rw [sentBy, hnone, Option.bind_none]
      exact h.set [] (v.enter_follows signed) rfl (by simp [World.set])
        (Or.inr ⟨hbefore.trans v.enter_sent.symm, rfl⟩)
    · cases hs
  | write p =>
    simp only [usStep] at hs
    split at hs
    · next v fd printed hp =>
      cases hs
      have hbefore : w.sentBy p = none := by rw [sentBy, hp]; rfl
      refine h.set _ (Process.written_follows (h.follows p _ hp)) rfl rfl (Or.inl ⟨hbefore, ?_⟩)
      rw [(v.write_replies cfg).1, Process.written_sent]
      obtain ⟨hfd, -⟩ : v.fd = some fd ∧ printed = v.locals.printed := h.follows p _ hp
      by_cases hacc : v.Accepted <;> simp [Invocation.frame, hfd, hacc]
    · cases hs
  | read p =>
    simp only [usStep] at hs
    split at hs
    · next v fd printed hp =>
      cases hs
      have hbefore : w.sentBy p = v.frame := by rw [sentBy, hp]; rfl
      obtain ⟨hfd, hprinted, hacc, hq⟩ : v.fd = some fd ∧ printed = v.locals.printed ∧
        v.Accepted ∧ 's' ∈ v.options := h.follows p _ hp
      refine h.set [] ?_ rfl (by simp [World.set]) (Or.inr ⟨hbefore, rfl⟩)
      rw [v.receive_count cfg signed fd]
      simp [Process.Follows, Invocation.output, hfd, hprinted, hacc, hq]
    · cases hs

/-- With no process there is nothing out of order. -/
theorem orderly_start (signed : Bool) (buffer : List UInt8) :
    (World.start buffer).Orderly signed where
  follows _ _ h := nomatch h
  frames _ _ := iff_of_false List.not_mem_nil nofun
  once := List.nodup_nil

/-- The option loop prints nothing but the help. -/
theorem optionLoop_printed (appName : List UInt8) (options : List Char) :
    ∀ text ∈ (optionLoop appName options).printed, text = help appName := by
  induction options using List.reverseRecOn with
  | nil => exact fun _ h => absurd h List.not_mem_nil
  | append_singleton options c ih =>
    rw [optionLoop_concat]
    unfold Locals.option
    split
    all_goals try exact ih
    intro text hmem
    rcases List.mem_append.mp hmem with h | h
    · exact ih text h
    · exact List.mem_singleton.mp h

/-- What `us` sees of the driver when it runs alone, over an input buffer. A write that does not
return is put down as an error; a process in one does not finish. -/
def Invocation.alone (cfg : Config) (signed : Bool) (buffer : List UInt8) (v : Invocation) :
    System where
  fd := v.fd
  write data :=
    match (stm32ledsWrite cfg { v.frameRequest with payload := data }).2 with
    | .returned r => writeResult r
    | .crashed => -1
  read := readResult (stm32ledsRead cfg (countRequest v.ret v.report true) buffer)
  buf := v.buf
  signed := signed

/-- `main` run alone prints what is told from its options and answers. -/
theorem usMain_alone (cfg : Config) (signed : Bool) (buffer : List UInt8) (v : Invocation) :
    (usMain v.appName v.options (v.alone cfg signed buffer)).2.2 = v.output signed := by
  cases hfd : v.fd with
  | none => simp [usMain, Invocation.alone, Invocation.output, hfd]
  | some fd =>
    have hret : 0 ≤ (v.alone cfg signed buffer).write v.locals.data ↔ v.Accepted := by
      have hrequest : { v.frameRequest with payload := v.locals.data } = v.frameRequest := rfl
      simp only [Invocation.alone, hrequest]
      rcases (v.write_replies cfg).2 with ⟨hend, hacc⟩ | ⟨r, hend, hr⟩
      · rw [hend]
        exact iff_of_false (by decide) hacc
      · rw [hend]
        exact (writeResult_nonneg_iff r).trans hr
    have hmain := usMain_printed (w := v.alone cfg signed buffer) hfd rfl v.appName v.options
    have hcount : printedCount cfg (v.alone cfg signed buffer).signed fd
        (countRequest v.ret v.report true) buffer (v.alone cfg signed buffer).buf =
        v.count signed fd := v.receive_count cfg signed fd buffer
    rw [hmain, hcount, Invocation.output, hfd]
    simp only [Invocation.locals] at hret ⊢
    by_cases hacc : v.Accepted
    · have hpos := hret.mpr hacc
      simp [sendData, hpos, hacc, Int.not_lt.mpr hpos]
    · have hneg := Int.not_le.mp (mt hret.mp hacc)
      simp [sendData, hneg, hacc, couldNotSend, Int.not_le.mpr hneg]

/-- No option prints the count. -/
theorem Invocation.pressed_not_mem (v : Invocation) (times : Int) :
    pressed times ∉ v.locals.printed := by
  intro hmem
  have he := optionLoop_printed v.appName v.options _ hmem
  simp [pressed, help] at he

/-- A start of `us` that prints a count has had its query taken. -/
theorem Invocation.query_of_pressed {signed : Bool} {v : Invocation} {times : Int}
    (h : pressed times ∈ v.output signed) : ∃ data, v.frame = some data ∧ data[8]? = some 1 := by
  rw [output] at h
  cases hfd : v.fd with
  | none =>
    rw [hfd] at h
    exact absurd (List.mem_singleton.mp h) (by simp [pressed])
  | some fd =>
    simp only [hfd, List.mem_append, v.pressed_not_mem, false_or] at h
    by_cases hacc : v.Accepted
    · rw [if_pos hacc] at h
      have hq : 's' ∈ v.options := by
        by_contra hq
        simp [hq] at h
      refine ⟨v.locals.data, ?_, ?_⟩
      · rw [frame, if_pos ⟨by simp [hfd], hacc⟩]
      · exact congrArg some ((optionLoop_getButtonCounts_iff _ _).mpr hq)
    · rw [if_neg hacc] at h
      exact absurd (List.mem_singleton.mp h) (by simp [pressed, couldNotSend])

/-- A process that has printed a count has had its query taken. -/
theorem Process.Follows.query {signed : Bool} {x : Process} (h : x.Follows signed) {times : Int}
    (hmem : pressed times ∈ x.printed) :
    ∃ data, x.sent = some data ∧ data[8]? = some 1 := by
  have hlocals := x.run.pressed_not_mem times
  rw [Follows] at h
  rw [sent]
  cases hpc : x.pc with
  | finished =>
    rw [hpc] at h
    exact Invocation.query_of_pressed (h ▸ hmem)
  | writing fd =>
    rw [hpc] at h
    exact absurd (h.2 ▸ hmem) hlocals
  | reading fd =>
    rw [hpc] at h
    exact absurd (h.2.1 ▸ hmem) hlocals
  | killed =>
    rw [hpc] at h
    exact absurd (h.2 ▸ hmem) hlocals

/-- Whatever order the system calls of any number of `us` processes come in, a process that
finishes has printed what it prints when it runs alone, over any buffer; the device has been
handed the frames of the processes that sent one, once each; and who prints a count has had its
own query taken. -/
theorem us_interleaved {cfg : Config} {signed : Bool} {buffer : List UInt8} {as : List Act}
    {w : World} (h : Run (usStep cfg signed) (World.start buffer) as w) :
    (∀ p x, w.procs p = some x → x.pc = .finished → ∀ buffer', x.printed =
      (usMain x.run.appName x.run.options (x.run.alone cfg signed buffer')).2.2) ∧
    (∀ p data, (p, data) ∈ w.frames ↔
      ∃ x, w.procs p = some x ∧ x.sent = some data) ∧
    (w.frames.map Prod.fst).Nodup ∧
    ∀ p x times, w.procs p = some x → pressed times ∈ x.printed →
      ∃ data, (p, data) ∈ w.frames ∧ data[8]? = some 1 := by
  have horderly : w.Orderly signed :=
    h.invariant (orderly_start signed buffer) fun _ _ _ hi hs => hi.step hs
  refine ⟨fun p x hp hpc buffer' => ?_, fun p data => ?_, horderly.once,
    fun p x times hp hmem => ?_⟩
  · have hfollows := horderly.follows p x hp
    rw [Process.Follows, hpc] at hfollows
    exact hfollows.trans (usMain_alone cfg signed buffer' x.run).symm
  · rw [horderly.frames, World.sentBy, Option.bind_eq_some_iff]
  · obtain ⟨data, hsent, hflag⟩ := (horderly.follows p x hp).query hmem
    refine ⟨data, (horderly.frames p data).mpr ?_, hflag⟩
    rw [World.sentBy, hp, Option.bind_some, hsent]

/-- `us -s`, answered with a count of five, and `us -rg`. -/
def Invocation.asking : Invocation :=
  ⟨[], ['s'], some 3, true, true, 0, 0, [0, 5], [], by decide⟩

/-- An invocation that lights two LEDs and does not ask for the count. -/
def Invocation.lighting : Invocation :=
  ⟨[], ['r', 'g'], some 3, true, true, 0, 0, [], [], by decide⟩

/-- The process that asks is started first and writes last. -/
theorem us_interleaved_two :
    ∃ w, Run (usStep .tenBytes true) (World.start [])
      [.start 0 .asking, .start 1 .lighting, .write 1, .write 0, .read 0] w ∧
      w.frames = [(1, [1, 0, 0, 0, 0, 0, 0, 0, 0, 5]), (0, [1, 0, 0, 0, 0, 0, 0, 0, 1, 255])] ∧
      (w.frames.map Prod.fst).Nodup ∧
      ∃ x, w.procs 0 = some x ∧ x.sent = some [1, 0, 0, 0, 0, 0, 0, 0, 1, 255] := by
  obtain ⟨w, hrun, hframes⟩ := run_of_observed (f := World.frames)
    (show (exec (usStep .tenBytes true) (World.start [])
      [.start 0 .asking, .start 1 .lighting, .write 1, .write 0, .read 0]).map _ =
        some [(1, [1, 0, 0, 0, 0, 0, 0, 0, 0, 5]), (0, [1, 0, 0, 0, 0, 0, 0, 0, 1, 255])] from rfl)
  obtain ⟨-, hsent, honce, -⟩ := us_interleaved hrun
  exact ⟨w, hrun, hframes, honce, (hsent 0 _).mp (by simp [hframes])⟩

end OsCourseLabs.Usb
