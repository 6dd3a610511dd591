import OsCourseLabs.Core.Buffers
import OsCourseLabs.Core.CString
import OsCourseLabs.Core.Outputs
import OsCourseLabs.Core.Printf

/-!
# Printing of uevents

`uevent` receives every datagram into the same buffer and prints the buffer as a C string,
without a terminator behind the bytes received. A datagram with a NUL byte is printed up
to that byte; behind any other, bytes of earlier datagrams and of the stack are read.
-/

namespace OsCourseLabs.Kobject

open CString

/-- The size of the buffer that a datagram is received into. -/
def NL_MAX_PAYLOAD : Nat := 8192

/-- A message of the netlink socket. -/
structure Datagram where
  bytes : List UInt8
  fits : bytes.length ≤ NL_MAX_PAYLOAD

/-- What a `recv` finds. -/
inductive Recv where
  | error
  | datagram (d : Datagram)

/-- `msg`. -/
structure Message where
  bytes : List UInt8
  size : bytes.length = NL_MAX_PAYLOAD

/-- The start of `msg` after a datagram came in. -/
def Message.store (msg : Message) (d : Datagram) : Message :=
  ⟨overwrite msg.bytes d.bytes, by rw [length_overwrite (msg.size ▸ d.fits), msg.size]⟩

/-- `recv` on `msg`: the value it returns, and `msg` after it. -/
def recv (msg : Message) : Recv → Int × Message
  | .error => (-1, msg)
  | .datagram d => (d.bytes.length, msg.store d)

/-- A call to a print function, with the number of bytes that its `%s` reads. -/
structure Printout where
  call : Print
  reads : Nat

/-- The call for an event: `%s` reads memory from `msg` on, the terminator included. -/
def printEvent (r : Int) (memory : List UInt8) : Printout :=
  ⟨.fprintf .stdout "length:%i\n msg:%s" [.int r, .str (cstr memory)], (cstr memory).length + 1⟩

/-- One turn of the loop: what `recv` finds, and what lies behind `msg` on the stack. -/
structure Turn where
  result : Recv
  behind : List UInt8

/-- `msg` and what the loop has printed. -/
structure Uevent where
  msg : Message
  printed : List Printout

/-- The body of the loop. -/
def Uevent.turn (s : Uevent) (t : Turn) : Uevent :=
  let (r, msg) := recv s.msg t.result
  if r = -1 then ⟨msg, s.printed⟩
  else if r < 0 then ⟨msg, s.printed ++ [⟨.perror "", 0⟩]⟩
  else ⟨msg, s.printed ++ [printEvent r (msg.bytes ++ t.behind)]⟩

/-- The loop, over the turns it has taken. -/
def ueventLoop (msg : Message) (turns : List Turn) : List Printout :=
  (turns.foldl Uevent.turn ⟨msg, []⟩).printed

/-- `main`: the exit status, none while the loop goes on, and what is printed. -/
def ueventMain (socket bind : Int) (msg : Message) (turns : List Turn) : Option Int × List Print :=
  if socket < 0 then
    (some 1, [.fprintf .stdout "[uevent] - Error. Failed to create socket" []])
  else if bind ≠ 0 then
    (some 1, [.fprintf .stdout "[uevent] - Error. Failed to bind netlink socket" []])
  else
    (none, .fprintf .stdout "[uevent] - Waiting for events now...\n" [] ::
      (ueventLoop msg turns).map Printout.call)

/-- The datagram that came in, if any. -/
def Recv.datagram? : Recv → Option Datagram
  | .error => none
  | .datagram d => some d

/-- The datagrams among the results. -/
def datagrams (results : List Recv) : List Datagram := results.filterMap Recv.datagram?

/-- A run on the results prints this, over some contents of the buffer and the stack. -/
def Prints (results : List Recv) (printed : List Printout) : Prop :=
  ∃ msg turns, turns.map Turn.result = results ∧ ueventLoop msg turns = printed

/-- The call that a datagram has coming: its length and its bytes up to a NUL or its end. -/
def Datagram.print (d : Datagram) : Print :=
  .fprintf .stdout "length:%i\n msg:%s" [.int d.bytes.length, .str (cstr d.bytes)]

/-- What is printed for a datagram is its own, the same in every history, and read from the
bytes received. -/
structure OwnText (results : List Recv) : Prop where
  own : ∀ printed, Prints results printed →
    printed.map Printout.call = (datagrams results).map Datagram.print
  same : ∀ printed results' printed', Prints results printed → Prints results' printed' →
    ∀ (k : Nat) (d : Datagram) (p p' : Printout),
      ((datagrams results).zip printed)[k]? = some (d, p) →
      ((datagrams results').zip printed')[k]? = some (d, p') → p.call = p'.call
  within : ∀ printed, Prints results printed →
    List.Forall₂ (fun d p => p.reads ≤ d.bytes.length) (datagrams results) printed

/-- The printout of a datagram over whatever follows its bytes in memory. -/
def PrintoutOf (d : Datagram) (p : Printout) : Prop :=
  ∃ rest, p = printEvent d.bytes.length (d.bytes ++ rest)

/-- A receive that fails prints nothing. -/
theorem Uevent.turn_error {t : Turn} (h : t.result.datagram? = none) (s : Uevent) :
    (s.turn t).printed = s.printed := by
  obtain ⟨_ | d, behind⟩ := t
  · rfl
  · cases h

/-- A datagram is printed with what follows it in the buffer and behind the buffer. -/
theorem Uevent.turn_printed (s : Uevent) (d : Datagram) (behind : List UInt8) :
    (s.turn ⟨.datagram d, behind⟩).printed = s.printed ++
      [printEvent d.bytes.length (d.bytes ++ (s.msg.bytes.drop d.bytes.length ++ behind))] := by
  have hminus : ¬ (d.bytes.length : Int) = -1 := by omega
  have hneg : ¬ (d.bytes.length : Int) < 0 := by omega
  simp only [turn, recv, hminus, hneg, ite_false, Message.store, overwrite, List.append_assoc]

/-- A datagram is printed once. -/
theorem Uevent.turn_datagram {t : Turn} {d : Datagram} (h : t.result.datagram? = some d)
    (s : Uevent) : ∃ p, (s.turn t).printed = s.printed ++ [p] ∧ PrintoutOf d p := by
  obtain ⟨_ | d', behind⟩ := t
  · cases h
  · cases h
    exact ⟨_, s.turn_printed d behind, _, rfl⟩

/-- Every run prints one call for each datagram, in their order. -/
theorem Prints.printouts {results : List Recv} {printed : List Printout}
    (h : Prints results printed) : List.Forall₂ PrintoutOf (datagrams results) printed := by
  obtain ⟨msg, turns, rfl, rfl⟩ := h
  rw [datagrams, List.filterMap_map]
  exact outputs_foldl (fun s t ht => s.turn_error ht) (fun s t d ht => s.turn_datagram ht) rfl turns

/-- A datagram with a NUL is printed as its own text. -/
theorem PrintoutOf.call_eq {d : Datagram} {p : Printout} (h : PrintoutOf d p)
    (hd : 0 ∈ d.bytes) : p.call = d.print := by
  obtain ⟨rest, rfl⟩ := h
  rw [printEvent, cstr_append_of_mem hd, Datagram.print]

/-- The print stays within the datagram exactly if a NUL is in it. -/
theorem PrintoutOf.within_iff {d : Datagram} {p : Printout} (h : PrintoutOf d p) :
    p.reads ≤ d.bytes.length ↔ 0 ∈ d.bytes := by
  obtain ⟨rest, rfl⟩ := h
  exact length_cstr_append_lt_iff d.bytes rest

/-- A buffer filled with one byte. -/
def Message.filled (b : UInt8) : Message := ⟨List.replicate NL_MAX_PAYLOAD b, List.length_replicate⟩

/-- There is a run on every sequence of results. -/
theorem exists_prints (results : List Recv) : ∃ printed, Prints results printed := by
  refine ⟨_, .filled 0, results.map fun r => ⟨r, []⟩, ?_, rfl⟩
  rw [List.map_map]
  exact List.map_id results

/-- A datagram without NUL byte is printed with the memory that follows it. -/
theorem ueventLoop_filled {d : Datagram} (hd : 0 ∉ d.bytes) {b : UInt8} (hb : b ≠ 0) :
    (ueventLoop (.filled b) [⟨.datagram d, [b]⟩]).map Printout.call =
      [.fprintf .stdout "length:%i\n msg:%s" [.int d.bytes.length,
        .str (d.bytes ++ List.replicate (NL_MAX_PAYLOAD - d.bytes.length + 1) b)]] := by
  have hfree : 0 ∉ List.replicate (NL_MAX_PAYLOAD - d.bytes.length + 1) b :=
    fun hmem => hb (List.eq_of_mem_replicate hmem).symm
  have hmemory : (Message.filled b).bytes.drop d.bytes.length ++ [b] =
      List.replicate (NL_MAX_PAYLOAD - d.bytes.length + 1) b := by
    rw [Message.filled, List.drop_replicate, List.replicate_succ']
  rw [ueventLoop, List.foldl_cons, List.foldl_nil, Uevent.turn_printed, hmemory,
    List.nil_append, List.map_singleton, printEvent, cstr_append_of_not_mem hd,
    cstr_of_not_mem hfree]

/-- So it is printed differently over different memory. -/
theorem prints_of_unterminated {d : Datagram} (hd : 0 ∉ d.bytes) :
    ∃ printed printed', Prints [.datagram d] printed ∧ Prints [.datagram d] printed' ∧
      printed.map Printout.call ≠ printed'.map Printout.call := by
  refine ⟨_, _, ⟨.filled 1, [⟨.datagram d, [1]⟩], rfl, rfl⟩,
    ⟨.filled 2, [⟨.datagram d, [2]⟩], rfl, rfl⟩, ?_⟩
  rw [ueventLoop_filled hd (by decide), ueventLoop_filled hd (by decide)]
  simp [List.replicate_succ]

/-- A run whose datagrams all have a NUL byte prints those datagrams. -/
theorem Prints.calls {results : List Recv} {printed : List Printout} (hp : Prints results printed)
    (h : ∀ d ∈ datagrams results, 0 ∈ d.bytes) :
    printed.map Printout.call = (datagrams results).map Datagram.print := by
  have hall := (List.forall₂_and_left _ _).mpr ⟨h, hp.printouts⟩
  have hmaps : List.Forall₂ Eq ((datagrams results).map Datagram.print)
      (printed.map Printout.call) := by
    rw [List.forall₂_map_left_iff, List.forall₂_map_right_iff]
    exact hall.imp fun d p hd => (hd.2.call_eq hd.1).symm
  rw [List.forall₂_eq_eq_eq] at hmaps
  exact hmaps.symm

/-- After its greeting `uevent` prints, in their order, the datagrams that came in, as long as
they have a NUL byte. -/
theorem ueventMain_printed {socket bind : Int} (hsocket : 0 ≤ socket) (hbind : bind = 0)
    {turns : List Turn} (h : ∀ d ∈ datagrams (turns.map Turn.result), 0 ∈ d.bytes)
    (msg : Message) :
    ueventMain socket bind msg turns =
      (none, .fprintf .stdout "[uevent] - Waiting for events now...\n" [] ::
        (datagrams (turns.map Turn.result)).map Datagram.print) := by
  have hprints : Prints (turns.map Turn.result) (ueventLoop msg turns) := ⟨msg, turns, rfl, rfl⟩
  rw [ueventMain, if_neg (Int.not_lt.mpr hsocket), if_neg (not_not.mpr hbind), hprints.calls h]

/-- Every printout is that of its own datagram exactly when every datagram has a NUL byte. -/
theorem uevent_ownText_iff (results : List Recv) :
    OwnText results ↔ ∀ d ∈ datagrams results, 0 ∈ d.bytes := by
  constructor
  · intro h
    obtain ⟨printed, hp⟩ := exists_prints results
    have hall : List.Forall₂ (fun d p => 0 ∈ d.bytes ∧ PrintoutOf d p) (datagrams results)
        printed :=
      List.Forall₂.mp (fun d p hof hread => ⟨hof.within_iff.mp hread, hof⟩) hp.printouts
        (h.within printed hp)
    exact (List.forall₂_and_left _ _).mp hall |>.1
  · intro h
    have hall : ∀ printed, Prints results printed → List.Forall₂
        (fun d p => 0 ∈ d.bytes ∧ PrintoutOf d p) (datagrams results) printed :=
      fun printed hp => (List.forall₂_and_left _ _).mpr ⟨h, hp.printouts⟩
    constructor
    case own => exact fun printed hp => hp.calls h
    case same =>
      intro printed results' printed' hp hp' k d p p' hk hk'
      have hd := List.forall₂_zip (hall printed hp) (List.mem_of_getElem? hk)
      have hd' := List.forall₂_zip hp'.printouts (List.mem_of_getElem? hk')
      rw [hd.2.call_eq hd.1, hd'.call_eq hd.1]
    case within =>
      intro printed hp
      exact (hall printed hp).imp fun d p hd => hd.2.within_iff.mpr hd.1

/-- A datagram of a letter and a NUL byte. -/
def Datagram.letter (b : UInt8) : Datagram := ⟨[b, 0], by simp [NL_MAX_PAYLOAD]⟩

/-- A datagram of no bytes. -/
def Datagram.empty : Datagram := ⟨[], by decide⟩

/-- The text printed for an empty datagram is that of the datagram before it. -/
theorem empty_prints_earlier :
    ((ueventLoop (.filled 0) [⟨.datagram (.letter 65), []⟩, ⟨.datagram .empty, []⟩])[1]?.map
      Printout.call) = some (.fprintf .stdout "length:%i\n msg:%s" [.int 0, .str [65]]) ∧
    ((ueventLoop (.filled 0) [⟨.datagram (.letter 66), []⟩, ⟨.datagram .empty, []⟩])[1]?.map
      Printout.call) = some (.fprintf .stdout "length:%i\n msg:%s" [.int 0, .str [66]]) ∧
    ¬ OwnText [.datagram (.letter 65), .datagram .empty] := by
  refine ⟨rfl, rfl, fun h => ?_⟩
  have hsame := h.same _ _ _ ⟨.filled 0, [⟨.datagram (.letter 65), []⟩, ⟨.datagram .empty, []⟩],
    rfl, rfl⟩ ⟨.filled 0, [⟨.datagram (.letter 66), []⟩, ⟨.datagram .empty, []⟩], rfl, rfl⟩
    1 .empty _ _ rfl rfl
  cases hsame

end OsCourseLabs.Kobject
