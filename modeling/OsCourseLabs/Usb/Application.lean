import OsCourseLabs.Core.Printf

/-!
# The user space application

`us` folds the option letters of its command line into a frame of ten bytes, writes the
frame to the device and, for a button-count query, reads the answer. What `getopt` and
the system calls answer is given from outside.
-/

namespace OsCourseLabs.Usb

/-- The bit of the blue LED. -/
def blue : UInt8 := 0x8

/-- The bit of the red LED. -/
def red : UInt8 := 0x4

/-- The bit of the orange LED. -/
def orange : UInt8 := 0x2

/-- The bit of the green LED. -/
def green : UInt8 := 0x1

/-- The byte that leaves the LEDs as they are. -/
def leaveColors : UInt8 := 0xFF

/-- The text of `help`. -/
def helpFormat : String :=
  "\nUsage: %s [-rgboafsh]\n\n" ++
  "-r - red light LED5\n" ++
  "-g - green light LED4\n" ++
  "-b - blue light LED6\n" ++
  "-o - orange light LED3\n" ++
  "-a - all lights are on\n" ++
  "-f - all lights are off\n" ++
  "-s - button press count\n" ++
  "-h - help\n\n" ++
  "example usage:\n" ++
  "-rgb - red, greed, blue are on; orange is off\n" ++
  "-rb  - red, blue are on; orange, green are off\n"

/-- What `help` prints. -/
def help (appName : List UInt8) : Print := .fprintf .stderr helpFormat [.str appName]

/-- The locals of `main` that the option loop works on, and what it has printed. -/
structure Locals where
  colorCombination : UInt8
  getButtonCounts : UInt8
  printed : List Print
  deriving DecidableEq, Repr

/-- The locals before the option loop. -/
def Locals.start : Locals := ⟨0, 0, []⟩

/-- The body of the option loop for a letter that `getopt` returned. -/
def Locals.option (appName : List UInt8) (s : Locals) (c : Char) : Locals :=
  match c with
  | 'r' => { s with colorCombination := s.colorCombination ||| red }
  | 'b' => { s with colorCombination := s.colorCombination ||| blue }
  | 'g' => { s with colorCombination := s.colorCombination ||| green }
  | 'o' => { s with colorCombination := s.colorCombination ||| orange }
  | 'a' => { s with colorCombination := s.colorCombination ||| (orange ||| green ||| red ||| blue) }
  | 'f' => { s with colorCombination := 0 }
  | 's' => { s with colorCombination := leaveColors, getButtonCounts := 1 }
  | _ => { s with printed := s.printed ++ [help appName] }

/-- The option loop of `main`. -/
def optionLoop (appName : List UInt8) (options : List Char) : Locals :=
  options.foldl (Locals.option appName) Locals.start

/-- `data`. -/
def Locals.data (s : Locals) : List UInt8 :=
  [1, 0, 0, 0, 0, 0, 0, 0, s.getButtonCounts, s.colorCombination]

/-- `send_data`, where `retval` is what `write` returns. -/
def sendData (fd retval : Int) : Int × List Print :=
  (retval,
    if retval < 0 then [.fprintf .stderr "could not send command to fd=%d\n" [.int fd]] else [])

/-- The value of a `char`, which is signed on some targets. -/
def charValue (signed : Bool) (b : UInt8) : Int := if signed then b.toInt8.toInt else b.toNat

/-- What is printed when the device cannot be read. -/
def couldNotRead (fd : Int) : Print :=
  .fprintf .stderr "could not read from fd = %d\n" [.int fd]

/-- What is printed of the count of the button. -/
def pressed (times : Int) : Print :=
  .fprintf .stdout "Blue button was pressed %d times\n" [.int times]

/-- `receive_data`: `read` answers a value and the buffer after it, given the one before. -/
def receiveData (signed : Bool) (fd : Int) (read : List UInt8 → Int × List UInt8)
    (buf : List UInt8) : Print :=
  let (retval, buf) := read buf
  if retval < 0 then couldNotRead fd else pressed (charValue signed (buf.getD 1 0))

/-- What the system calls of `us` answer, and the stack of `receive_data`. -/
structure System where
  fd : Option Int
  write : List UInt8 → Int
  read : List UInt8 → Int × List UInt8
  buf : List UInt8
  signed : Bool

/-- `main`: the exit status, the frames written and what is printed. -/
def usMain (appName : List UInt8) (options : List Char) (w : System) :
    Int × List (List UInt8) × List Print :=
  match w.fd with
  | none => (1, [], [.perror "open"])
  | some fd =>
    let s := optionLoop appName options
    let (retval, sent) := sendData fd (w.write s.data)
    let received :=
      if 0 ≤ retval ∧ s.getButtonCounts = 1 then [receiveData w.signed fd w.read w.buf] else []
    (0, [s.data], s.printed ++ sent ++ received)

end OsCourseLabs.Usb
