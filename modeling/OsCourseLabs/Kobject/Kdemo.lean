import OsCourseLabs.Core.Kstrtox
import OsCourseLabs.Core.LastWrite
import OsCourseLabs.Core.Nested
import OsCourseLabs.Core.Transition

/-!
# The attributes of the sample kobject

`kdemo` keeps an integer behind each of three files. Two of the files share their functions,
which tell them apart by the name of the attribute. Sysfs stands between a write and the store
function: an empty write never gets there, and of a long one only the first page does.
-/

namespace OsCourseLabs.Kobject

open CString Decimal Kstrtox Ledger Transition

/-- The static variables. -/
structure Kdemo where
  foo : CInt
  baz : CInt
  bar : CInt
  deriving DecidableEq, Repr

/-- The text that a show function leaves in its buffer; it answers how long the text is. -/
def fooShow (k : Kdemo) : List UInt8 := printInt k.foo.val ++ [10]

/-- `foo_store`: the variable is set only by a text that converts. -/
def fooStore (buf : List UInt8) (count : Nat) (k : Kdemo) : Int × Kdemo :=
  match kstrtoint (cstr buf) with
  | .error ret => (ret, k)
  | .ok foo => (count, { k with foo })

/-- `b_show`: every name but `baz` is taken for the other one. -/
def bShow (name : List UInt8) (k : Kdemo) : List UInt8 :=
  let var := if strcmp name (ascii ['b', 'a', 'z']) = 0 then k.baz else k.bar
  printInt var.val ++ [10]

/-- `b_store`: the text is converted before the name is looked at. -/
def bStore (name buf : List UInt8) (count : Nat) (k : Kdemo) : Int × Kdemo :=
  match kstrtoint (cstr buf) with
  | .error ret => (ret, k)
  | .ok var =>
    if strcmp name (ascii ['b', 'a', 'z']) = 0 then (count, { k with baz := var })
    else (count, { k with bar := var })

/-- `struct kobj_attribute`; both functions are handed the attribute, of which they read the
name. -/
structure KobjAttribute where
  name : List UInt8
  shows : List UInt8 → Kdemo → List UInt8
  stores : List UInt8 → List UInt8 → Nat → Kdemo → Int × Kdemo

/-- `foo_attribute`, whose functions read no name. -/
def fooAttribute : KobjAttribute :=
  ⟨ascii ['f', 'o', 'o'], fun _ => fooShow, fun _ => fooStore⟩

/-- `baz_attribute`. -/
def bazAttribute : KobjAttribute := ⟨ascii ['b', 'a', 'z'], bShow, bStore⟩

/-- `bar_attribute`: the functions of `baz_attribute` under another name. -/
def barAttribute : KobjAttribute := ⟨ascii ['b', 'a', 'r'], bShow, bStore⟩

/-- The files of the attribute group. -/
inductive File where
  | foo
  | baz
  | bar
  deriving DecidableEq, Repr

/-- The attribute behind a file. -/
def File.attr : File → KobjAttribute
  | .foo => fooAttribute
  | .baz => bazAttribute
  | .bar => barAttribute

/-- What a read of the file is served. -/
def File.read (f : File) (k : Kdemo) : List UInt8 := f.attr.shows f.attr.name k

/-- Sysfs hands on no more than a page at a time. -/
def PAGE_SIZE : Nat := 4096

/-- What sysfs hands on of the bytes written. -/
def handed (bytes : List UInt8) : List UInt8 := bytes.take PAGE_SIZE

/-- A write to the file: sysfs answers an empty one, and hands on the others with a terminator. -/
def File.write (f : File) (bytes : List UInt8) (k : Kdemo) : Int × Kdemo :=
  if bytes = [] then (0, k)
  else f.attr.stores f.attr.name (handed bytes ++ [0]) (handed bytes).length k

/-- The variable behind a file. -/
def File.value (f : File) (k : Kdemo) : CInt :=
  match f with
  | .foo => k.foo
  | .baz => k.baz
  | .bar => k.bar

/-- The variables with the one behind a file set. -/
def File.put (f : File) (v : CInt) (k : Kdemo) : Kdemo :=
  match f with
  | .foo => { k with foo := v }
  | .baz => { k with baz := v }
  | .bar => { k with bar := v }

/-- Setting the variable of one file leaves those of the others. -/
@[simp] theorem File.value_put (f g : File) (v : CInt) (k : Kdemo) :
    g.value (f.put v k) = if f = g then v else g.value k := by
  cases f <;> cases g <;> rfl

/-- A variable set to what it is stays. -/
@[simp] theorem File.put_value (f : File) (k : Kdemo) : f.put (f.value k) k = k := by
  cases f <;> rfl

/-- A read serves the variable in decimal, with a newline. -/
theorem File.read_eq (f : File) (k : Kdemo) : f.read k = printInt (f.value k).val ++ [10] := by
  cases f <;> rfl

/-- The store functions of all files do the same to their own variable. -/
theorem File.write_eq (f : File) {bytes : List UInt8} (hne : bytes ≠ []) (k : Kdemo) :
    f.write bytes k =
      match kstrtoint (cstr (handed bytes)) with
      | .error ret => (ret, k)
      | .ok v => (((handed bytes).length : Int), f.put v k) := by
  have hbuf : cstr (handed bytes ++ [0]) = cstr (handed bytes) := cstr_append_zero _ []
  rw [write, if_neg hne]
  cases f with
  | foo =>
    simp only [attr, fooAttribute, fooStore, hbuf]
    rfl
  | baz =>
    simp only [attr, bazAttribute, bStore, hbuf]
    rfl
  | bar =>
    simp only [attr, barAttribute, bStore, hbuf]
    rfl

/-- Nothing that has a number in it is empty. -/
theorem ne_nil_of_numeral {bytes : List UInt8} {v : Int} (h : Numeral (cstr (handed bytes)) v) :
    bytes ≠ [] := by
  rintro rfl
  have hconv := kstrtoint_of_numeral h
  have hnil : kstrtoint (cstr (handed [])) = .error (-EINVAL) := by decide
  rw [hnil] at hconv
  split at hconv
  · cases hconv
  · exact absurd hconv (by decide)

/-- A write to any of the files is accepted exactly when the bytes that sysfs hands on are, up to
a NUL, a decimal number that fits an `int`, with at most one newline behind it; it then sets the
variable of that file only. A refused one changes nothing, and one with a number that does not fit
is told so. An empty one is answered zero. -/
theorem kdemo_write_language (f : File) (bytes : List UInt8) (k : Kdemo) :
    (∀ v : CInt, Numeral (cstr (handed bytes)) v.val →
      f.write bytes k = (((handed bytes).length : Int), f.put v k) ∧
        ∀ g : File, g ≠ f → g.value (f.put v k) = g.value k) ∧
    (bytes ≠ [] → (∀ v : CInt, ¬Numeral (cstr (handed bytes)) v.val) →
      ((f.write bytes k).1 = -EINVAL ∨ (f.write bytes k).1 = -ERANGE) ∧ (f.write bytes k).2 = k) ∧
    (∀ v : Int, Numeral (cstr (handed bytes)) v → ¬(-2147483648 ≤ v ∧ v ≤ 2147483647) →
      f.write bytes k = (-ERANGE, k)) ∧
    f.write [] k = (0, k) := by
  refine ⟨fun v hv => ?_, fun hne hnone => ?_, fun v hv hout => ?_, rfl⟩
  · rw [File.write_eq f (ne_nil_of_numeral hv), kstrtoint_eq_ok_iff.mpr hv]
    exact ⟨rfl, fun g hg => by rw [File.value_put, if_neg (Ne.symm hg)]⟩
  · rw [File.write_eq f hne]
    cases hconv : kstrtoint (cstr (handed bytes)) with
    | error ret => exact ⟨kstrtoint_error hconv, rfl⟩
    | ok v => exact absurd (kstrtoint_eq_ok_iff.mp hconv) (hnone v)
  · rw [File.write_eq f (ne_nil_of_numeral hv), kstrtoint_of_numeral hv, dif_neg hout]

/-- What a read of a file is served can be written to any file: it is taken as a whole, and sets
the variable to the one that was read. It always fits the page that sysfs reads into. -/
theorem kdemo_read_write (f g : File) (k : Kdemo) :
    f.write (g.read k) k = (((g.read k).length : Int), f.put (g.value k) k) ∧
      (f.write (f.read k) k).2 = k ∧ (g.read k).length ≤ 12 := by
  have hlen : ∀ g : File, (g.read k).length ≤ 12 := fun g => by
    have hprint := length_printInt_le (g.value k).lower (g.value k).upper
    rw [File.read_eq, List.length_append, List.length_singleton]
    omega
  have hne : ∀ g : File, g.read k ≠ [] := fun g => by simp [File.read_eq]
  have hhanded : ∀ g : File, handed (g.read k) = g.read k := fun g =>
    List.take_of_length_le ((hlen g).trans (by decide))
  have htext : ∀ g : File, cstr (g.read k) = printInt (g.value k).val ++ [10] := fun g => by
    rw [File.read_eq, cstr_of_not_mem]
    intro hmem
    rcases List.mem_append.mp hmem with hmem | hmem
    · exact zero_not_mem_printInt hmem
    · exact absurd hmem (by decide)
  have hconv : ∀ g : File, kstrtoint (cstr (g.read k)) = .ok (g.value k) := fun g =>
    kstrtoint_eq_ok_iff.mpr (htext g ▸ numeral_printInt _)
  refine ⟨?_, ?_, hlen g⟩
  · rw [File.write_eq f (hne g), hhanded, hconv]
  · rw [File.write_eq f (hne f), hhanded, hconv]
    exact File.put_value f k

/-- What the module holds. -/
inductive Resource where
  | exampleKobj
  deriving DecidableEq, Repr

/-- `example_init`; the files go with the kobject they are in. -/
def exampleInit (create : Bool) (group : Option Nat) : Int × List (Op Resource) :=
  if create then
    match group with
    | some errno => (errorCode errno, [.acquire .exampleKobj, .release .exampleKobj])
    | none => (0, [.acquire .exampleKobj])
  else (-ENOMEM, [])

/-- `example_exit`. -/
def exampleExit : List (Op Resource) := [.release .exampleKobj]

/-- The variables while the module is loaded, and what was acquired and released. -/
structure Module where
  vars : Option Kdemo
  ledger : List (Op Resource)
  deriving DecidableEq, Repr

/-- What is done with the module and its files. -/
inductive Event where
  | load (create : Bool) (group : Option Nat)
  | unload
  | write (f : File) (bytes : List UInt8)
  deriving DecidableEq, Repr

/-- Loading sets the static variables to zero, whether or not they had a value before. -/
def step (m : Module) : Event → Option Module
  | .load create group =>
    match m.vars with
    | some _ => none
    | none =>
      let r := exampleInit create group
      some ⟨if r.1 < 0 then none else some ⟨.zero, .zero, .zero⟩, m.ledger ++ r.2⟩
  | .unload =>
    match m.vars with
    | some _ => some ⟨none, m.ledger ++ exampleExit⟩
    | none => none
  | .write f bytes =>
    match m.vars with
    | some k => some ⟨some (f.write bytes k).2, m.ledger⟩
    | none => none

/-- What an event writes to the variable of a file. -/
def Event.writes (f : File) : Event → Option CInt
  | .load _ _ => none
  | .unload => some .zero
  | .write g bytes => if g = f then (kstrtoint (cstr (handed bytes))).toOption else none

/-- The variable of a file; one that is not there counts as zero. -/
def Module.value (f : File) (m : Module) : CInt := (m.vars.map f.value).getD .zero

/-- An event writes the variable of a file, or leaves it. -/
theorem step_value {m m' : Module} {e : Event} (hs : step m e = some m') (f : File) :
    m'.value f = (e.writes f).getD (m.value f) := by
  cases e with
  | load create group =>
    simp only [step] at hs
    split at hs
    · cases hs
    · next hm =>
      cases hs
      simp only [Module.value, hm, Event.writes]
      split
      · rfl
      · cases f <;> rfl
  | unload =>
    simp only [step] at hs
    split at hs <;> cases hs
    rfl
  | write g bytes =>
    simp only [step] at hs
    split at hs
    · next k hm =>
      cases hs
      simp only [Module.value, hm, Event.writes, Option.map_some, Option.getD_some]
      by_cases hne : bytes = []
      · -- the text of nothing does not convert
        subst hne
        simp only [File.write, ite_true]
        split <;> rfl
      rw [File.write_eq g hne]
      cases kstrtoint (cstr (handed bytes)) with
      | error ret => simp [Except.toOption]
      | ok v =>
        simp only [File.value_put, Except.toOption]
        split <;> rfl
    · cases hs

/-- What the module holds while it is loaded, and otherwise. -/
def Module.holdings (m : Module) : List Resource :=
  match m.vars with
  | some _ => [.exampleKobj]
  | none => []

/-- The kobject is acquired and released in turn. -/
theorem step_ledger {m m' : Module} {e : Event} (hs : step m e = some m')
    (h : stackAfter [] m.ledger = some m.holdings) :
    stackAfter [] m'.ledger = some m'.holdings := by
  cases e with
  | load create group =>
    simp only [step] at hs
    split at hs
    · cases hs
    · next hm =>
      cases hs
      rw [Module.holdings, hm] at h
      rw [stackAfter_append, h]
      cases create with
      | false => rfl
      | true =>
        cases group with
        | none => rfl
        | some errno =>
          have hneg : (exampleInit true (some errno)).1 < 0 := Int.negSucc_lt_zero errno
          rw [Module.holdings, if_pos hneg]
          rfl
  | unload =>
    simp only [step] at hs
    split at hs
    · next k hm =>
      cases hs
      rw [Module.holdings, hm] at h
      rw [stackAfter_append, h]
      rfl
    · cases hs
  | write g bytes =>
    simp only [step] at hs
    split at hs
    · next k hm =>
      cases hs
      rw [Module.holdings, hm] at h
      exact h
    · cases hs

/-- However often the module is loaded and unloaded and whatever is written in between, each
file is read with what it was last given since the module was loaded, or with zero, and the
kobject is held exactly while the module is loaded. -/
theorem kdemo_reads_last_written {m : Module} {es : List Event}
    (hr : Run step ⟨none, []⟩ es m) :
    (∀ k, m.vars = some k → ∀ f : File,
      f.read k = printInt (lastWrite (Event.writes f) .zero es).val ++ [10]) ∧
    stackAfter [] m.ledger = some m.holdings := by
  constructor
  · intro k hk f
    have hvalue : m.value f = lastWrite (Event.writes f) .zero es :=
      hr.eq_lastWrite fun _ _ _ hs => step_value hs f
    rw [File.read_eq, ← hvalue, Module.value, hk]
    rfl
  · exact hr.invariant (I := fun u => stackAfter [] u.ledger = some u.holdings) rfl
      fun _ _ _ hu hs => step_ledger hs hu

/-- A number reads back, and a word leaves the zero. -/
theorem kdemo_reads_last_written_seven :
    ∃ m k, Run step ⟨none, []⟩
      [.load true none, .write .foo (ascii ['7']), .write .bar (ascii ['x'])] m ∧
      m.vars = some k ∧ File.foo.read k = ascii ['7', '\n'] ∧
        File.bar.read k = ascii ['0', '\n'] := by
  obtain ⟨m, hrun, hm⟩ := run_of_observed (f := Module.vars)
    (v := some ⟨⟨7, by decide, by decide⟩, .zero, .zero⟩) (show (exec step ⟨none, []⟩
      [.load true none, .write .foo (ascii ['7']), .write .bar (ascii ['x'])]).map _ = _ by decide)
  refine ⟨m, _, hrun, hm, ?_, ?_⟩
  · rw [(kdemo_reads_last_written hrun).1 _ hm .foo]
    decide
  · rw [(kdemo_reads_last_written hrun).1 _ hm .bar]
    decide

end OsCourseLabs.Kobject
