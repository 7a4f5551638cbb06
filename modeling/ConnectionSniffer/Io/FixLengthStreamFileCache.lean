import ConnectionSniffer.Io.DynamicByteArrayInputStream
import ConnectionSniffer.Library.HashMap
import ConnectionSniffer.Library.RandomAccessFile
import Mathlib.Algebra.Group.Int.Defs
import Mathlib.Algebra.Group.Nat.Defs

/-!
# `FixLengthStreamFileCache`

A store of byte strings of fixed lengths in one file, method by method.
Each entry has a cursor in a map; all of them share the file with its
pointer, and the end of the cache.

* The `uuid`s are values of any type `K`.  `randomUUID` is the argument of
  `allocate`.
* `long`s are `Nat` or `Int`.  They are positions in a file.
* The shutdown hook that deletes the file, and the serial form, are not
  here.
-/

namespace ConnectionSniffer

universe u

structure Cursor where
  startPos : Nat
  dataLen : Int
  writePos : Nat
  readPos : Nat
  deriving DecidableEq

namespace Cursor

/-- `new Cursor(startPos, dataLen)`. -/
def create (startPos : Nat) (dataLen : Int) : Cursor :=
  ⟨startPos, dataLen, startPos + 4, startPos + 4⟩

def getEndPos (c : Cursor) : Int := c.startPos + c.dataLen + 4

def moveReadForward (c : Cursor) (len : Nat) : Except IOException Cursor :=
  if c.getEndPos < c.readPos + len then .error (.ioException "exceed the allocated range")
  else .ok { c with readPos := c.readPos + len }

def moveWriteForward (c : Cursor) (len : Nat) : Except IOException Cursor :=
  if c.getEndPos < c.writePos + len then .error (.ioException "exceed the allocated range")
  else .ok { c with writePos := c.writePos + len }

end Cursor

structure FixLengthStreamFileCache (K : Type u) where
  tempFile : RandomAccessFile
  dataCursors : HashMap K Cursor := []
  headerLen : Nat := 20 * 1024
  cacheFileLen : Nat := 20 * 1024

namespace FixLengthStreamFileCache

variable {K : Type u} [DecidableEq K]

/-- `new FixLengthStreamFileCache(folder)` on this file. -/
def create (tempFile : RandomAccessFile) : FixLengthStreamFileCache K := { tempFile }

/-- An `EOFException`, which has no message. -/
def eofException : IOException := .ioException ""

def getCursor (s : FixLengthStreamFileCache K) (uuid : K) : Except IOException Cursor :=
  match s.dataCursors.get uuid with
  | none => .error (.ioException "incorrect uuid, has not allocate space.")
  | some cursor => .ok cursor

def allocate (s : FixLengthStreamFileCache K) (uuid : K) (size : Int) :
    FixLengthStreamFileCache K :=
  { s with
    dataCursors := s.dataCursors.put uuid (.create s.cacheFileLen size)
    tempFile := s.tempFile.writeInt size
    cacheFileLen := s.cacheFileLen + 4 }

/-- `write(uuid, data)`, where `data` may be `null`. -/
def write (s : FixLengthStreamFileCache K) (uuid : K) :
    Option (List UInt8) → Outcome IOException (FixLengthStreamFileCache K)
  | none | some [] => .returned s
  | some data =>
    match s.getCursor uuid with
    | .error e => .thrown e s
    | .ok cursor =>
      let s := { s with tempFile := (s.tempFile.seek cursor.writePos).write data }
      match cursor.moveWriteForward data.length with
      | .error e => .thrown e s
      | .ok cursor =>
        .returned { s with
          dataCursors := s.dataCursors.put uuid cursor
          cacheFileLen := s.cacheFileLen + data.length }

/-- How a read ends: with bytes in the caller's array, with `-1`, which is
`none`, or with an exception. -/
inductive Reading (K : Type u) where
  | returned (data : Option (List UInt8)) (cache : FixLengthStreamFileCache K)
  | thrown (error : IOException) (cache : FixLengthStreamFileCache K)

/-- The cache that a read leaves. -/
def Reading.left : Reading K → FixLengthStreamFileCache K
  | .returned _ s => s
  | .thrown _ s => s

/-- The bytes that a read gives. -/
def Reading.data : Reading K → List UInt8
  | .returned data _ => data.getD []
  | .thrown _ _ => []

def Reading.isReturned : Reading K → Bool
  | .returned _ _ => true
  | .thrown _ _ => false

/-- The end of `read`: move the cursor and read. -/
def readData (s : FixLengthStreamFileCache K) (uuid : K) (cursor : Cursor) (readLen : Nat) :
    Reading K :=
  match cursor.moveReadForward readLen with
  | .error e => .thrown e s
  | .ok cursor =>
    .returned (s.tempFile.read readLen).1 { s with
      dataCursors := s.dataCursors.put uuid cursor
      tempFile := (s.tempFile.read readLen).2 }

/-- `read(uuid, data)` for an array `data` of `length` bytes. -/
def read (s : FixLengthStreamFileCache K) (uuid : K) (length : Nat) : Reading K :=
  match s.getCursor uuid with
  | .error e => .thrown e s
  | .ok cursor =>
    match (s.tempFile.seek cursor.startPos).readInt with
    | (none, tempFile) => .thrown eofException { s with tempFile }
    | (some contentLen, tempFile) =>
      if contentLen ≠ cursor.dataLen then
        .thrown (.ioException "data may be broken") { s with tempFile }
      else if (cursor.readPos + length : Int) ≥ cursor.getEndPos then
        if cursor.getEndPos - cursor.readPos ≤ 0 then .returned (some []) { s with tempFile }
        else readData { s with tempFile } uuid cursor (cursor.getEndPos - cursor.readPos).toNat
      else readData { s with tempFile } uuid cursor length

def getDataLength (s : FixLengthStreamFileCache K) (uuid : K) : Except IOException Int :=
  (s.getCursor uuid).map Cursor.dataLen

/-- A call that may change the cache. -/
inductive Call (K : Type u) where
  | allocate (uuid : K) (size : Int)
  | write (uuid : K) (data : Option (List UInt8))
  | read (uuid : K) (length : Nat)

/-- The cache after a call, however it ended. -/
def next (s : FixLengthStreamFileCache K) : Call K → FixLengthStreamFileCache K
  | .allocate uuid size => s.allocate uuid size
  | .write uuid data => (s.write uuid data).state
  | .read uuid length => (s.read uuid length).left

/-- The call throws nothing. -/
def Returns (s : FixLengthStreamFileCache K) : Call K → Prop
  | .allocate _ _ => True
  | .write uuid data => (s.write uuid data).isReturned = true
  | .read uuid length => (s.read uuid length).isReturned = true

/-- The bytes that the call reads under `uuid`. -/
def readBy (uuid : K) (s : FixLengthStreamFileCache K) : Call K → List UInt8
  | .read uuid' length =>
    if uuid' = uuid then (s.read uuid' length).data else []
  | .allocate _ _ | .write _ _ => []

end FixLengthStreamFileCache

end ConnectionSniffer
