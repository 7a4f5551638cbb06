import ConnectionSniffer.Io.InputStream
import ConnectionSniffer.Library.ChunkedCoding
import ConnectionSniffer.Library.HashMap
import ConnectionSniffer.Library.JavaString
import ConnectionSniffer.Library.Window

/-!
# `ChunkedInputStream`

The decoder of chunked bodies, method by method.  It keeps bytes of the
underlying stream in `rawData` until a header, the end of a chunk or a
trailer line is complete, and decoded bytes in `chunkData` until they are
asked for.  Each of the two arrays is a `Window` with the position and
the count that go with it.

* `int`s are `Nat`, and an array may have any length, so a sum of lengths
  does not wrap around.  What `in.available()` says is no length:
  `ensureRawAvailable` adds it to `rawCount` with `toInt`.
* `in` is `underlying` here.  It is never `null`.
* The loops of the source have no bound.  Each turn of the loop in
  `processRaw` takes a byte from `rawData`, and each turn of the one in
  `readAheadBlocking` takes a byte from the underlying stream.
-/

namespace ConnectionSniffer

universe u

namespace ChunkedInputStream

/-- The states of the parser. -/
inductive State where
  | awaitingChunkHeader
  | readingChunk
  | awaitingChunkEol
  | awaitingTrailers
  | done
  deriving DecidableEq

end ChunkedInputStream

structure ChunkedInputStream (σ : Type u) where
  underlying : σ
  trailers : HashMap (List Char) (List Char) := []
  chunkSize : Nat := 0
  chunkRead : Nat := 0
  /-- `chunkData`, `chunkPos` and `chunkCount`. -/
  chunk : Window UInt8 := Window.create 4096 0
  /-- `rawData`, `rawPos` and `rawCount`. -/
  raw : Window UInt8 := Window.create 32 0
  error : Bool := false
  closed : Bool := false
  state : ChunkedInputStream.State := .awaitingChunkHeader

namespace ChunkedInputStream

open ChunkedCoding (CR LF)
open DynamicByteArrayInputStream (ReadResult)

variable {σ : Type u} (stream : InputStream σ)

/-- `new ChunkedInputStream(in)`. -/
def create (underlying : σ) : ChunkedInputStream σ := { underlying }

/-- An `IOException` with this message. -/
def ioException (message : String) : StreamError := .checked (.ioException message)

/-- `catch (IOException e) { error = true; throw e; }`. -/
def rethrown (e : StreamError) (c : ChunkedInputStream σ) : ChunkedInputStream σ :=
  match e with
  | .checked _ => { c with error := true }
  | .unchecked _ => c

/-- `ensureRawAvailable(size)` where no sum wraps around. -/
def makeRoom (size : Nat) (c : ChunkedInputStream σ) : ChunkedInputStream σ :=
  { c with raw := c.raw.ensure 0 size }

/-- `ensureRawAvailable(size)`.  A sum `rawCount + size` that wraps around is
not above `rawData.length`, and nothing is done. -/
def ensureRawAvailable (size : Nat) (c : ChunkedInputStream σ) : ChunkedInputStream σ :=
  if toInt (c.raw.count + size) < 0 then c else c.makeRoom size

def closeUnderlying (c : ChunkedInputStream σ) : Outcome StreamError (ChunkedInputStream σ) :=
  (stream.close c.underlying).map fun s => { c with underlying := s }

/-! ### `processRaw` -/

/-- How a turn of the loop ends: with `break`, with `return`, or with an
exception. -/
inductive Turn (σ : Type u) where
  | goesOn (c : ChunkedInputStream σ)
  | leaves (c : ChunkedInputStream σ)
  | throws (e : StreamError) (c : ChunkedInputStream σ)

/-- Note the error and throw. -/
def fails (message : String) (c : ChunkedInputStream σ) : Turn σ :=
  .throws (ioException message) { c with error := true }

/-- The distance from `rawPos` to the next LF, or to `rawCount`. -/
def lineLength (c : ChunkedInputStream σ) : Nat := c.raw.pending.findIdx (· == LF)

/-- `case STATE_AWAITING_CHUNK_HEADER`. -/
def awaitChunkHeader (c : ChunkedInputStream σ) : Turn σ :=
  if h : c.lineLength + 1 ≤ c.raw.used then
    let header := usAscii (c.raw.pending.take (c.lineLength + 1))
    match parseInt16 (header.takeWhile fun ch => (digit16 ch).isSome) with
    | none => fails "Bogus chunk size" c
    | some chunkSize =>
      .goesOn { c with
        chunkSize
        chunkRead := 0
        raw := c.raw.advance (c.lineLength + 1) h
        state := if 0 < chunkSize then .readingChunk else .awaitingTrailers }
  else .leaves c

/-- Copy as much of the chunk as is there into `chunkData`. -/
def copyChunk (c : ChunkedInputStream σ) : ChunkedInputStream σ :=
  let copyLen := min (c.chunkSize - c.chunkRead) c.raw.used
  { c with
    chunk := (c.chunk.ensure 0 copyLen).append (c.raw.pending.take copyLen)
      (Nat.le_trans (List.length_take_le _ _) (Window.le_room_ensure _ _ _))
    raw := c.raw.advance copyLen (Nat.min_le_right _ _)
    chunkRead := c.chunkRead + copyLen }

/-- `case STATE_READING_CHUNK`. -/
def readChunk (c : ChunkedInputStream σ) : Turn σ :=
  if c.raw.used = 0 then .leaves c
  else if c.copyChunk.chunkSize ≤ c.copyChunk.chunkRead then
    .goesOn { c.copyChunk with state := .awaitingChunkEol }
  else .leaves c.copyChunk

/-- `case STATE_AWAITING_CHUNK_EOL`. -/
def awaitChunkEol (c : ChunkedInputStream σ) : Turn σ :=
  if h : 2 ≤ c.raw.used then
    if c.raw.pending[0]? ≠ some CR then fails "missing CR" c
    else if c.raw.pending[1]? ≠ some LF then fails "missing LF" c
    else .goesOn { c with raw := c.raw.advance 2 h, state := .awaitingChunkHeader }
  else .leaves c

/-- `case STATE_AWAITING_TRAILERS`. -/
def awaitTrailers (c : ChunkedInputStream σ) : Turn σ :=
  if h : c.lineLength + 1 ≤ c.raw.used then
    if c.lineLength = 0 then fails "LF should be proceeded by CR" c
    else if c.raw.pending[c.lineLength - 1]? ≠ some CR then fails "LF should be proceeded by CR" c
    else if c.lineLength = 1 then
      match closeUnderlying stream { c with state := .done } with
      | .returned c => .leaves c
      | .thrown e c => .throws e c
    else
      let trailer := usAscii (c.raw.pending.take c.lineLength)
      match trailer.idxOf? ':' with
      | none => .throws (ioException "Malformed tailer - format should be key:value") c
      | some i =>
        .goesOn { c with
          trailers := c.trailers.put (trim (trailer.take i)) (trim (trailer.drop (i + 1)))
          raw := c.raw.advance (c.lineLength + 1) h }
  else .leaves c

/-- The `switch` on the state. -/
def turn (c : ChunkedInputStream σ) : Turn σ :=
  match c.state with
  | .awaitingChunkHeader => c.awaitChunkHeader
  | .readingChunk => c.readChunk
  | .awaitingChunkEol => c.awaitChunkEol
  | .awaitingTrailers => c.awaitTrailers stream
  | .done => .leaves c

/-- The loop of `processRaw` with a bound on its turns. -/
def processRawLoop : Nat → ChunkedInputStream σ → Outcome StreamError (ChunkedInputStream σ)
  | 0, c => .returned c
  | bound + 1, c =>
    match c.turn stream with
    | .goesOn c => processRawLoop bound c
    | .leaves c => .returned c
    | .throws e c => .thrown e c

def processRaw (c : ChunkedInputStream σ) : Outcome StreamError (ChunkedInputStream σ) :=
  processRawLoop stream (c.raw.used + 1) c

/-! ### Reading ahead -/

/-- Take over what a read put behind `rawCount`, and process it. -/
def processRead (c : ChunkedInputStream σ) (data : List UInt8) (h : data.length ≤ c.raw.room)
    (underlying : σ) : Outcome StreamError (ChunkedInputStream σ) :=
  processRaw stream { c with underlying, raw := c.raw.append data h }

/-- The bytes that a method left in `chunkData`: `chunkCount - chunkPos`. -/
def answered : Outcome StreamError (ChunkedInputStream σ) → Completion (ChunkedInputStream σ) Int
  | .returned c => .returned c.chunk.used c
  | .thrown e c => .thrown e c

/-- `in.read(rawData, rawCount, avail)`, and `processRaw`.  A range that is
not in the array is an exception, as it is for every stream. -/
def readAvailable (avail : Nat) (c : ChunkedInputStream σ) : Completion (ChunkedInputStream σ) Int :=
  if h : avail ≤ c.raw.room then
    match stream.read c.underlying c.raw.data.length c.raw.count avail with
    | .waits => .waits
    | .thrown e s => .thrown e (rethrown e { c with underlying := s })
    | .returned none s => .returned (-1) { c with underlying := s, error := true }
    | .returned (some data) s =>
      answered (processRead stream c data.1 (Nat.le_trans data.2 h) s)
  else .thrown (.unchecked .indexOutOfBoundsException) c

def readAheadNonBlocking (c : ChunkedInputStream σ) : Completion (ChunkedInputStream σ) Int :=
  let avail := (stream.available c.underlying).1
  let c := { c with underlying := (stream.available c.underlying).2 }
  if 0 < avail then readAvailable stream avail (c.ensureRawAvailable avail)
  else .returned c.chunk.used c

/-- The `do` loop of `readAheadBlocking` with a bound on its turns. -/
def readAheadBlockingLoop :
    Nat → ChunkedInputStream σ → Completion (ChunkedInputStream σ) Int
  | 0, _ => .waits
  | bound + 1, c =>
    if c.state = .done then .returned (-1) c
    else
      let c := c.makeRoom 32
      match stream.read c.underlying c.raw.data.length c.raw.count c.raw.room with
      | .waits => .waits
      | .thrown e s => .thrown e (rethrown e { c with underlying := s })
      | .returned none s =>
        .thrown (ioException "Premature EOF") { c with underlying := s, error := true }
      | .returned (some data) s =>
        match processRead stream c data.1 data.2 s with
        | .thrown e c => .thrown e c
        | .returned c =>
          if c.chunk.count = 0 then readAheadBlockingLoop bound c else .returned c.chunk.used c

def readAheadBlocking (c : ChunkedInputStream σ) : Completion (ChunkedInputStream σ) Int :=
  readAheadBlockingLoop stream (stream.remaining c.underlying + 1) c

def readAhead (allowBlocking : Bool) (c : ChunkedInputStream σ) :
    Completion (ChunkedInputStream σ) Int :=
  if c.state = .done then .returned (-1) c
  else
    let c := if c.chunk.used = 0 then { c with chunk := c.chunk.clear } else c
    if allowBlocking then readAheadBlocking stream c else readAheadNonBlocking stream c

/-! ### The methods of an `InputStream` -/

/-- `arraycopy` from `chunkPos` on to the caller, `n` bytes. -/
def take (n : Nat) (c : ChunkedInputStream σ) : Completion (ChunkedInputStream σ) ReadResult :=
  if h : n ≤ c.chunk.used then
    .returned (.bytes (c.chunk.pending.take n)) { c with chunk := c.chunk.advance n h }
  else .thrown (.unchecked .arrayIndexOutOfBoundsException) c

/-- `ensureOpen`, and then the rest of the method. -/
def ifOpen {α : Type} (c : ChunkedInputStream σ) (rest : Completion (ChunkedInputStream σ) α) :
    Completion (ChunkedInputStream σ) α :=
  if c.closed then .thrown (ioException "stream is closed") c else rest

/-- `read()`. -/
def read (c : ChunkedInputStream σ) : Completion (ChunkedInputStream σ) ReadResult :=
  c.ifOpen <|
  if c.chunk.used = 0 then
    match readAhead stream true c with
    | .waits => .waits
    | .thrown e c => .thrown e c
    | .returned avail c => if avail ≤ 0 then .returned .endOfMessage c else take 1 c
  else take 1 c

/-- Read the rest of a chunk directly into the caller's array. -/
def fastRead (c : ChunkedInputStream σ) (bLength off len : Nat) :
    Completion (ChunkedInputStream σ) ReadResult :=
  let remaining := c.chunkSize - c.chunkRead
  let cnt := if remaining < len then remaining else len
  if 0 < cnt then
    match stream.read c.underlying bLength off cnt with
    | .waits => .waits
    | .thrown e s => .thrown e (rethrown e { c with underlying := s })
    | .returned (some ⟨b :: rest, _⟩) s =>
      let chunkRead := c.chunkRead + (b :: rest).length
      .returned (.bytes (b :: rest)) { c with
        underlying := s
        chunkRead
        state := if c.chunkSize ≤ chunkRead then .awaitingChunkEol else c.state }
    | .returned _ s => .thrown (ioException "Premature EOF") { c with underlying := s, error := true }
  else .returned (.bytes []) c

/-- `read(b, off, len)` on an array `b` of length `bLength`. -/
def readInto (c : ChunkedInputStream σ) (bLength : Nat) (off len : Int) :
    Completion (ChunkedInputStream σ) ReadResult :=
  c.ifOpen <|
  if off < 0 ∨ off > bLength ∨ len < 0 ∨ toInt (off + len) > bLength ∨ toInt (off + len) < 0 then
    .thrown (.unchecked .indexOutOfBoundsException) c
  else if len = 0 then .returned (.bytes []) c
  else if c.chunk.used = 0 then
    if c.state = .readingChunk then fastRead stream c bLength off.toNat len.toNat
    else
      match readAhead stream true c with
      | .waits => .waits
      | .thrown e c => .thrown e c
      | .returned avail c =>
        if avail < 0 then .returned .endOfMessage c
        else take (if avail < len then avail else len).toNat c
  else take (if (c.chunk.used : Int) < len then (c.chunk.used : Int) else len).toNat c

def available (c : ChunkedInputStream σ) : Completion (ChunkedInputStream σ) Nat :=
  c.ifOpen <|
  if c.chunk.used = 0 then
    match readAhead stream false c with
    | .waits => .waits
    | .thrown e c => .thrown e c
    | .returned avail c => .returned avail.toNat c
  else .returned c.chunk.used c

def close (c : ChunkedInputStream σ) : Outcome StreamError (ChunkedInputStream σ) :=
  if c.closed then .returned c
  else (closeUnderlying stream c).andThen fun c => .returned { c with closed := true }

def hasError (c : ChunkedInputStream σ) : Bool := c.error

end ChunkedInputStream

end ConnectionSniffer
