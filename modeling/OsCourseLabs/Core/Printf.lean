/-!
# What a program prints

The output of a program is the list of its calls to the print functions of the C library.
The text of a call is determined by its format and its arguments.
-/

namespace OsCourseLabs

inductive Stream where
  | stdout
  | stderr
  deriving DecidableEq, Repr

/-- An argument of a conversion; of a `%s`, the bytes printed. -/
inductive Arg where
  | int (n : Int)
  | str (bytes : List UInt8)
  deriving DecidableEq, Repr

/-- A call to `fprintf`, of which `printf` is the one on `stdout`, or to `perror`. -/
inductive Print where
  | fprintf (stream : Stream) (format : String) (args : List Arg)
  | perror (s : String)
  deriving DecidableEq, Repr

end OsCourseLabs
