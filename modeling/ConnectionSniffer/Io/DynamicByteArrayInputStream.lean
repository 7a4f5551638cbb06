import ConnectionSniffer.Library.Outcome
import Mathlib.Algebra.Group.Int.Defs
import Mathlib.Algebra.Group.Nat.Defs
import Mathlib.Data.Int.Basic
import Mathlib.Tactic.SplitIfs

/-!
# `DynamicByteArrayInputStream`

The combined input stream of one direction of a connection: a byte
buffer with a cursor, and a list of end marks that cut the buffer into
messages.  The definitions follow the source method by method.

* `int`s are `Int`.  The two sums that can leave the 32-bit range, the
  new size in `append` and `pos + len` in `read`, go through `toInt`.
* `arraycopy` and `newArray` throw as the Java ones do, so that a
  position out of range is a visible exception and never a silent one.
* A method that waits is modelled by `Reading.waits`: the call is not
  enabled until another call changes the stream.

`appended` is a history variable.  It collects every array that `append`
accepted, and no method reads it.
-/

namespace ConnectionSniffer

/-- Milliseconds, as `java.util.Date` holds them. -/
abbrev Date := Nat

/-- What the modelled methods throw. -/
inductive Throwable where
  | alreadyFinishedStreamException (message : String)
  | bufferFullException
  | packetsBufferFullException
  | runtimeException (message : String)
  | indexOutOfBoundsException
  | arrayIndexOutOfBoundsException
  | negativeArraySizeException
  | nullPointerException
  deriving DecidableEq

/-- The value of a Java `int` expression whose exact value is `x`. -/
def toInt (x : Int) : Int := x.bmod (2 ^ 32)

theorem toInt_eq {x : Int} (hlo : -(2 ^ 31) ≤ x) (hhi : x < 2 ^ 31) : toInt x = x := by
  unfold toInt
  exact Int.bmod_eq_of_le (by omega) (by omega)

/-- A sum above the range wraps around once. -/
theorem toInt_eq_sub {x : Int} (hlo : 2 ^ 31 ≤ x) (hhi : x < 2 ^ 32 + 2 ^ 31) :
    toInt x = x - 2 ^ 32 := by
  have hsub : (x - (2 ^ 32 : Nat)).bmod (2 ^ 32) = x.bmod (2 ^ 32) := Int.sub_bmod_right x _
  have hrange : (x - 2 ^ 32).bmod (2 ^ 32) = x - 2 ^ 32 :=
    Int.bmod_eq_of_le (by omega) (by omega)
  unfold toInt
  rw [← hsub]
  exact_mod_cast hrange

/-- The value of a Java `long` expression whose exact value is `x`. -/
def toLong (x : Int) : Int := x.bmod (2 ^ 64)

theorem toLong_eq {x : Int} (hlo : -(2 ^ 63) ≤ x) (hhi : x < 2 ^ 63) : toLong x = x := by
  unfold toLong
  exact Int.bmod_eq_of_le (by omega) (by omega)

/-- The conversion of a sum of `long`s to an `int`. -/
theorem toInt_toLong (x : Int) : toInt (toLong x) = toInt x :=
  Int.bmod_bmod_of_dvd (by decide)

/-- `System.arraycopy(src, srcPos, …, length)`: the bytes it copies. -/
def arraycopy (src : Option (List UInt8)) (srcPos length : Int) :
    Except Throwable (List UInt8) :=
  match src with
  | none => .error .nullPointerException
  | some bytes =>
    if 0 ≤ srcPos ∧ 0 ≤ length ∧ srcPos + length ≤ bytes.length then
      .ok ((bytes.drop srcPos.toNat).take length.toNat)
    else .error .arrayIndexOutOfBoundsException

/-- `new byte[size]`, which only matters where the size is negative. -/
def newArray (size : Int) : Except Throwable Unit :=
  if size < 0 then .error .negativeArraySizeException else .ok ()

/-- What `reset` throws. -/
inductive IOException where
  | ioException (message : String)
  deriving DecidableEq

structure StreamMark where
  startTime : Date
  endTime : Date
  endPos : Int

def StreamMark.moveEndPosForward (mark : StreamMark) (delta : Int) : StreamMark :=
  { mark with endPos := mark.endPos - delta }

structure DynamicByteArrayInputStream where
  buf : Option (List UInt8) := none
  /-- Current stream cursor position. -/
  pos : Int := 0
  /-- Current stream length. -/
  count : Int := 0
  /-- Total buffer size. -/
  bufferSize : Int := 0
  isFinished : Bool := false
  blocking : Bool := true
  currentStreamStartTime : Date
  newInputStreamMarks : List StreamMark := []
  readLimit : Int := -1
  markedPos : Int := -1
  /-- History: every byte that `append` accepted. -/
  appended : List UInt8 := []

/-- `MAX_BUFFER_SIZE`, which is also `capacity()`. -/
def MAX_BUFFER_SIZE : Int := 2000 * 1024

namespace DynamicByteArrayInputStream

/-- The position of the last end mark. -/
def lastEndPos (s : DynamicByteArrayInputStream) : Option Int :=
  s.newInputStreamMarks.getLast?.map StreamMark.endPos

/-! ## End marks -/

/-- Add an end mark at the end of the buffer, unless the buffer is empty
or its end is already marked. -/
def addMarkPos (s : DynamicByteArrayInputStream) (endTime : Date) :
    Bool × DynamicByteArrayInputStream :=
  if 0 < s.bufferSize ∧ s.lastEndPos ≠ some s.bufferSize then
    (true, { s with
      newInputStreamMarks :=
        s.newInputStreamMarks ++ [⟨s.currentStreamStartTime, endTime, s.bufferSize⟩] })
  else (false, s)

/-- `finish(markFinish, endTime)`.  The `notifyAll` it ends with only
enables waiting readers. -/
def finish (s : DynamicByteArrayInputStream) (markFinish : Bool) (endTime : Date) :
    Bool × DynamicByteArrayInputStream :=
  let (success, s) := s.addMarkPos endTime
  (success, if markFinish then s else { s with isFinished := true })

def markStreamStartTime (s : DynamicByteArrayInputStream) (startTime : Date) :
    DynamicByteArrayInputStream :=
  { s with currentStreamStartTime := startTime }

/-- Shift every end mark by `pos`, then check the last one. -/
def moveForwardMarks (s : DynamicByteArrayInputStream) (pos : Int) :
    Outcome Throwable DynamicByteArrayInputStream :=
  let s := { s with
    newInputStreamMarks := s.newInputStreamMarks.map (fun mark : StreamMark => mark.moveEndPosForward pos) }
  match s.lastEndPos with
  | some endPos => if endPos > s.bufferSize then .thrown .indexOutOfBoundsException s else .returned s
  | none => .returned s

/-! ## Appending -/

/-- The stream length after an append: the whole buffer, unless an end
mark already bounds the current message. -/
def extendCount (s : DynamicByteArrayInputStream) : DynamicByteArrayInputStream :=
  if s.count = 0 ∨ s.newInputStreamMarks = [] then { s with count := s.bufferSize } else s

/-- Append without dropping the bytes before the cursor, which `reset`
may still ask for. -/
def appendOnly (s : DynamicByteArrayInputStream) (newBytes : List UInt8) :
    Outcome Throwable DynamicByteArrayInputStream :=
  let newSize := toInt (s.bufferSize + newBytes.length)
  if newSize > MAX_BUFFER_SIZE then .thrown .bufferFullException s
  else
    match newArray newSize with
    | .error e => .thrown e s
    | .ok _ =>
      match if 0 < s.bufferSize then arraycopy s.buf 0 s.bufferSize else .ok [] with
      | .error e => .thrown e s
      | .ok old =>
        .returned ({ s with
          buf := some (old ++ newBytes)
          bufferSize := newSize
          appended := s.appended ++ newBytes }).extendCount

/-- The bytes from the cursor on, copied to a new array of `newSize` bytes;
none are copied where none are `available`. -/
def unreadBytes (s : DynamicByteArrayInputStream) (available newSize : Int) :
    Except Throwable (List UInt8) :=
  if 0 < available then
    match newArray newSize with
    | .error e => .error e
    | .ok _ => arraycopy s.buf s.pos available
  else .ok []

/-- Append and drop the bytes before the cursor. -/
def appendAndShrink (s : DynamicByteArrayInputStream) (newBytes : List UInt8) :
    Outcome Throwable DynamicByteArrayInputStream :=
  let available := s.bufferSize - s.pos
  let newSize := toInt (available + newBytes.length)
  if newSize > MAX_BUFFER_SIZE then .thrown .bufferFullException s
  else
    (moveForwardMarks { s with count := s.count - s.pos } s.pos).andThen fun s =>
      match s.unreadBytes available newSize with
      | .error e => .thrown e s
      | .ok unread =>
        .returned ({ s with
          buf := some (unread ++ newBytes)
          pos := 0
          bufferSize := (unread ++ newBytes).length
          appended := s.appended ++ newBytes }).extendCount

def append (s : DynamicByteArrayInputStream) (newBytes : List UInt8) :
    Outcome Throwable DynamicByteArrayInputStream :=
  if s.isFinished then
    .thrown (.alreadyFinishedStreamException "stream is already finished!") s
  else if 0 ≤ s.markedPos ∧ s.pos - s.markedPos ≤ s.readLimit then s.appendOnly newBytes
  else s.appendAndShrink newBytes

/-! ## Reading -/

/-- Drop the current message and roll over to the next one. -/
def shrinkToNextInputStream (s : DynamicByteArrayInputStream) :
    Outcome Throwable DynamicByteArrayInputStream :=
  match s.newInputStreamMarks with
  | [] => .returned s
  | _ :: marks =>
    let newSize := s.bufferSize - s.pos
    match newArray newSize with
    | .error e => .thrown e s
    | .ok _ =>
      match arraycopy s.buf s.pos newSize with
      | .error e => .thrown e s
      | .ok rest =>
        (moveForwardMarks { s with
            buf := some rest
            bufferSize := rest.length
            newInputStreamMarks := marks } s.pos).andThen fun s =>
          .returned { s with
            count := (s.newInputStreamMarks.head?.map StreamMark.endPos).getD s.bufferSize
            pos := 0
            markedPos := -1 }

/-- Whether the current message has ended.  Asking at its end rolls over
to the next message. -/
def isCurrentStreamFinished (s : DynamicByteArrayInputStream) :
    Outcome Throwable (Bool × DynamicByteArrayInputStream) :=
  match s.newInputStreamMarks with
  | mark :: _ =>
    if s.pos ≥ mark.endPos then (s.shrinkToNextInputStream).map (fun s => (true, s))
    else .returned (false, s)
  | [] => .returned (s.isFinished, s)

/-- What a read returns: `-1`, or bytes. -/
inductive ReadResult where
  | endOfMessage
  | bytes (data : List UInt8)
  deriving DecidableEq

/-- One call of a read method. -/
inductive Reading where
  | returned (result : ReadResult) (stream : DynamicByteArrayInputStream)
  | waits
  | thrown (error : Throwable) (stream : DynamicByteArrayInputStream)

/-- The stream a read of `s` leaves. -/
def Reading.left (s : DynamicByteArrayInputStream) : Reading → DynamicByteArrayInputStream
  | .returned _ s' => s'
  | .waits => s
  | .thrown _ s' => s'

/-- What both read methods do once the cursor has reached the end of the
readable bytes. -/
def readAtEnd (s : DynamicByteArrayInputStream) : Reading :=
  match s.isCurrentStreamFinished with
  | .thrown e (_, s) => .thrown e s
  | .returned (finished, s) =>
    if !finished && s.blocking then .waits else .returned .endOfMessage s

/-- `read()`. -/
def read (s : DynamicByteArrayInputStream) : Reading :=
  if s.pos < s.count then
    match arraycopy s.buf s.pos 1 with
    | .error e => .thrown e { s with pos := s.pos + 1 }
    | .ok data => .returned (.bytes data) { s with pos := s.pos + 1 }
  else s.readAtEnd

/-- `read(b, off, len)` on an array `b` of length `bLength`. -/
def readInto (s : DynamicByteArrayInputStream) (bLength off len : Int) : Reading :=
  if off < 0 ∨ off > bLength ∨ len < 0 ∨ toInt (off + len) > bLength ∨ toInt (off + len) < 0 then
    .thrown .indexOutOfBoundsException s
  else if s.pos ≥ s.count then s.readAtEnd
  else
    let len := if toInt (s.pos + len) > s.count then s.count - s.pos else len
    if len ≤ 0 then .returned (.bytes []) s
    else
      match arraycopy s.buf s.pos len with
      | .error e => .thrown e s
      | .ok data => .returned (.bytes data) { s with pos := s.pos + len }

/-- `skip(n)` with a `long` argument: the number of bytes skipped, all of
them in the current message. -/
def skip (s : DynamicByteArrayInputStream) (n : Int) : Int × DynamicByteArrayInputStream :=
  let n := if toLong (s.pos + n) > s.count then toInt (s.count - s.pos) else n
  -- `pos += n` adds in `long` and then narrows to `int`
  if n < 0 then (0, s) else (n, { s with pos := toInt (toLong (s.pos + n)) })

/-- `finishCurrentInputStream()`, which is also `close()`. -/
def finishCurrentInputStream (s : DynamicByteArrayInputStream) :
    Outcome Throwable DynamicByteArrayInputStream :=
  shrinkToNextInputStream { s with pos := s.count }

/-! ## Mark and reset -/

/-- `mark(readlimit)`. -/
def mark (s : DynamicByteArrayInputStream) (readlimit : Int) : DynamicByteArrayInputStream :=
  if readlimit > 0 then { s with readLimit := readlimit, markedPos := s.pos } else s

/-- `reset()`. -/
def reset (s : DynamicByteArrayInputStream) : Outcome IOException DynamicByteArrayInputStream :=
  if s.markedPos = -1 then
    .thrown (.ioException "cannot reset due to the connect has been finished or no marker.") s
  else .returned { s with pos := s.markedPos, markedPos := -1 }

/-- `closeWholeStream()`. -/
def closeWholeStream (s : DynamicByteArrayInputStream) : DynamicByteArrayInputStream :=
  { s with
    buf := none
    pos := 0
    count := 0
    isFinished := false
    newInputStreamMarks := []
    bufferSize := 0 }

def configureBlocking (s : DynamicByteArrayInputStream) (blocking : Bool) :
    DynamicByteArrayInputStream :=
  { s with blocking }

/-- Whether there is anything left to read, or an end mark to pass. -/
def hasMoreInputStream (s : DynamicByteArrayInputStream) : Bool :=
  decide (s.newInputStreamMarks ≠ [] ∨ s.pos < s.bufferSize)

end DynamicByteArrayInputStream

end ConnectionSniffer
