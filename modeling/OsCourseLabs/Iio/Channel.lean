/-!
# Channels of an IIO device

What the IIO core hands to the callbacks of a driver: the channel, and which of its
attributes is read or written. A callback that reads answers an error or one or two
integers, together with the way to combine them.
-/

namespace OsCourseLabs.Iio

/-- `enum iio_chan_info_enum`, as far as the drivers tell its members apart. -/
inductive ChanInfo where
  | raw
  | processed
  | scale
  | offset
  | calibscale
  | calibbias
  | sampFreq
  | enable
  | calibheight
  | other (code : Nat)
  deriving DecidableEq, Repr

/-- `enum iio_chan_type`. -/
inductive ChanType where
  | voltage
  | accel
  | magn
  | steps
  | activity
  | distance
  | timestamp
  deriving DecidableEq, Repr

/-- `enum iio_modifier`. -/
inductive Modifier where
  | x
  | y
  | z
  | running
  | walking
  deriving DecidableEq, Repr

/-- The field `channel2`: the number of a second channel, or a modifier. -/
inductive Channel2 where
  | number (n : Nat)
  | modifier (m : Modifier)
  deriving DecidableEq, Repr

/-- How a channel lies in a buffer, as `scan_type` describes it. -/
structure ScanType where
  signed : Bool
  realbits : Nat
  storagebits : Nat
  shift : Nat
  bigEndian : Bool
  deriving DecidableEq, Repr

/-- The integer that a consumer reads from the bytes of a channel in a buffer. -/
def ScanType.decode (t : ScanType) (bytes : List (BitVec 8)) : Int :=
  let ordered := if t.bigEndian then bytes else bytes.reverse
  let word := ordered.foldl (fun n b => 256 * n + b.toNat) 0
  let v := (word >>> t.shift) % (1 <<< t.realbits)
  if t.signed ∧ 1 <<< (t.realbits - 1) ≤ v then (v : Int) - (1 <<< t.realbits : Nat) else v

/-- The fields of `struct iio_chan_spec` that the drivers read. -/
structure ChanSpec where
  type : ChanType
  channel : Int
  channel2 : Channel2
  output : Bool
  differential : Bool
  /-- The place of the channel in a scan; -1 for a channel that has none. -/
  scanIndex : Int
  /-- The attributes of the channel, whether it has them alone or shares them. -/
  infoMask : List ChanInfo
  deriving DecidableEq, Repr

/-- What a callback that reads answers. -/
inductive Answer where
  | error (ret : Int)
  | int (val : Int)
  | intPlusMicro (val val2 : Int)
  | intPlusNano (val val2 : Int)
  deriving DecidableEq, Repr

end OsCourseLabs.Iio
