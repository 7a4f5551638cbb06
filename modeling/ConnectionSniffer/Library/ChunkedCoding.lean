import ConnectionSniffer.Library.Run
import Mathlib.Data.List.Induction
import Mathlib.Data.List.TakeWhile

/-!
# Chunked coding

A chunked body is a series of chunks, a line with the size zero, trailer
lines and an empty line.  A chunk is a line with its size in hexadecimal
digits, its data and the end of a line.  Whatever follows the digits on a
size line is an extension, which has no meaning here.  A trailer line is
`key:value` and the end of a line.

`Body.encode` is the coding, and `Decoder` reads it byte by byte.  The
decoder stops at a fault and after the empty line that ends the body.

* `after_encode`: the decoder takes a body to its end, and puts out its
  data.
* `exists_body_of_done`: what takes the decoder to the end starts with a
  body.
* `failed_colon_iff`: the decoder meets a trailer line without a colon
  exactly in what starts with an `Uncoloned` body.

Sizes are below a `limit`.
-/

namespace ConnectionSniffer

namespace ChunkedCoding

def CR : UInt8 := 13

def LF : UInt8 := 10

def colon : UInt8 := 58

/-- The value of a hexadecimal digit. -/
def hexDigit (b : UInt8) : Option Nat :=
  if 48 ≤ b ∧ b ≤ 57 then some (b.toNat - 48)
  else if 65 ≤ b ∧ b ≤ 70 then some (b.toNat - 55)
  else if 97 ≤ b ∧ b ≤ 102 then some (b.toNat - 87)
  else none

def isHexDigit (b : UInt8) : Bool := (hexDigit b).isSome

/-- The number that hexadecimal digits stand for. -/
def hexValue (digits : List UInt8) : Nat :=
  digits.foldl (fun n b => n * 16 + (hexDigit b).getD 0) 0

/-! ## The coding -/

/-- A line with a size. -/
structure SizeLine where
  digits : List UInt8
  extension : List UInt8 := []

structure Chunk extends SizeLine where
  data : List UInt8

structure Trailer where
  key : List UInt8
  value : List UInt8
  deriving DecidableEq

structure Body where
  chunks : List Chunk
  last : SizeLine
  trailers : List Trailer := []

def SizeLine.encode (line : SizeLine) : List UInt8 := line.digits ++ line.extension ++ [LF]

def Chunk.encode (chunk : Chunk) : List UInt8 :=
  chunk.toSizeLine.encode ++ chunk.data ++ [CR, LF]

def Trailer.encode (trailer : Trailer) : List UInt8 :=
  trailer.key ++ [colon] ++ trailer.value ++ [CR, LF]

/-- The body without the empty line at its end. -/
def Body.encodeOpen (body : Body) : List UInt8 :=
  body.chunks.flatMap Chunk.encode ++ body.last.encode ++ body.trailers.flatMap Trailer.encode

def Body.encode (body : Body) : List UInt8 := body.encodeOpen ++ [CR, LF]

def Body.data (body : Body) : List UInt8 := body.chunks.flatMap Chunk.data

/-- The line has the size `n`. -/
structure SizeLine.Valid (limit : Nat) (line : SizeLine) (n : Nat) : Prop where
  digits_ne_nil : line.digits ≠ []
  digits : ∀ b ∈ line.digits, isHexDigit b = true
  value : hexValue line.digits = n
  limit : n < limit
  extension : LF ∉ line.extension
  extension_head : ∀ b ∈ line.extension.head?, isHexDigit b = false

structure Chunk.Valid (limit : Nat) (chunk : Chunk) : Prop where
  size : chunk.toSizeLine.Valid limit chunk.data.length
  nonempty : chunk.data ≠ []

structure Trailer.Valid (trailer : Trailer) : Prop where
  key : LF ∉ trailer.key
  key_colon : colon ∉ trailer.key
  value : LF ∉ trailer.value

structure Body.Valid (limit : Nat) (body : Body) : Prop where
  chunks : ∀ chunk ∈ body.chunks, chunk.Valid limit
  last : body.last.Valid limit 0
  trailers : ∀ trailer ∈ body.trailers, trailer.Valid

/-- A body up to a trailer line that has no colon. -/
def Uncoloned (limit : Nat) (bytes : List UInt8) : Prop :=
  ∃ (body : Body) (line : List UInt8), body.Valid limit ∧ line ≠ [] ∧ LF ∉ line ∧ colon ∉ line ∧
    body.encodeOpen ++ line ++ [CR, LF] <+: bytes

/-! ## The decoder -/

inductive Fault where
  /-- No size, or one that reaches the limit. -/
  | size
  /-- The data of a chunk do not end with the end of a line. -/
  | chunkEnd
  /-- A trailer line that does not end with CR and LF. -/
  | lineEnd
  /-- A trailer line without a colon. -/
  | colon
  deriving DecidableEq

inductive LineKind where
  | size
  | trailer
  deriving DecidableEq

/-- What the decoder is reading, and what it has read of it. -/
inductive Phase where
  | line (kind : LineKind) (read : List UInt8)
  | data (left : Nat)
  | chunkEnd (seen : List UInt8)
  | done
  | failed (fault : Fault)
  deriving DecidableEq

theorem Phase.failed_ne_done {fault : Fault} : Phase.failed fault ≠ .done := nofun

structure Decoder where
  phase : Phase := .line .size []
  trailers : List Trailer := []

/-- The size on a line. -/
def sizeOf (limit : Nat) (line : List UInt8) : Option Nat :=
  let digits := line.takeWhile isHexDigit
  if digits = [] ∨ limit ≤ hexValue digits then none else some (hexValue digits)

namespace Decoder

/-- The end of a size line. -/
def endSize (limit : Nat) (d : Decoder) (line : List UInt8) : Decoder :=
  { d with
    phase :=
      match sizeOf limit line with
      | none => .failed .size
      | some 0 => .line .trailer []
      | some (n + 1) => .data (n + 1) }

/-- The end of a trailer line. -/
def endTrailer (d : Decoder) (line : List UInt8) : Decoder :=
  if line.getLast? ≠ some CR then { d with phase := .failed .lineEnd }
  else if line.dropLast = [] then { d with phase := .done }
  else
    match line.dropLast.idxOf? colon with
    | none => { d with phase := .failed .colon }
    | some i => ⟨.line .trailer [], d.trailers ++ [⟨line.dropLast.take i, line.dropLast.drop (i + 1)⟩]⟩

def endLine (limit : Nat) (d : Decoder) : LineKind → List UInt8 → Decoder
  | .size => d.endSize limit
  | .trailer => d.endTrailer

/-- One byte. -/
def step (limit : Nat) (d : Decoder) (b : UInt8) : Decoder :=
  match d.phase with
  | .line kind read =>
    if b = LF then d.endLine limit kind read else { d with phase := .line kind (read ++ [b]) }
  | .data left => { d with phase := if left ≤ 1 then .chunkEnd [] else .data (left - 1) }
  | .chunkEnd [] => { d with phase := .chunkEnd [b] }
  | .chunkEnd (a :: _) =>
    { d with phase := if a = CR ∧ b = LF then .line .size [] else .failed .chunkEnd }
  | .done => d
  | .failed _ => d

/-- What one byte puts out. -/
def out (d : Decoder) (b : UInt8) : List UInt8 :=
  match d.phase with
  | .data _ => [b]
  | _ => []

variable (limit : Nat)

/-- The decoder after some bytes. -/
def after (d : Decoder) (bytes : List UInt8) : Decoder := Run.after (step limit) d bytes

/-- What the decoder puts out. -/
def outputs (d : Decoder) (bytes : List UInt8) : List UInt8 :=
  Run.outputs (step limit) out d bytes

variable {limit} {trailers : List Trailer} {kind : LineKind} {line bytes : List UInt8}

@[simp] theorem after_nil (d : Decoder) : after limit d [] = d := rfl

@[simp] theorem outputs_nil (d : Decoder) : outputs limit d [] = [] := rfl

theorem after_cons (d : Decoder) (b : UInt8) (bytes : List UInt8) :
    after limit d (b :: bytes) = after limit (step limit d b) bytes := rfl

theorem outputs_cons (d : Decoder) (b : UInt8) (bytes : List UInt8) :
    outputs limit d (b :: bytes) = out d b ++ outputs limit (step limit d b) bytes := rfl

theorem after_append (d : Decoder) (bytes bytes' : List UInt8) :
    after limit d (bytes ++ bytes') = after limit (after limit d bytes) bytes' :=
  Run.after_append _ _ _ _

theorem outputs_append (d : Decoder) (bytes bytes' : List UInt8) :
    outputs limit d (bytes ++ bytes') =
      outputs limit d bytes ++ outputs limit (after limit d bytes) bytes' :=
  Run.outputs_append _ _ _ _ _

/-! ### Lines -/

theorem step_line {b : UInt8} (h : b ≠ LF) :
    step limit ⟨.line kind line, trailers⟩ b = ⟨.line kind (line ++ [b]), trailers⟩ := if_neg h

theorem after_line (h : LF ∉ bytes) :
    after limit ⟨.line kind line, trailers⟩ bytes = ⟨.line kind (line ++ bytes), trailers⟩ := by
  induction bytes generalizing line with
  | nil => simp
  | cons b bytes ih =>
    obtain ⟨hb, hbytes⟩ := not_or.mp (List.mem_cons.not.mp h)
    rw [after_cons, step_line (Ne.symm hb), ih hbytes, List.append_assoc]
    rfl

theorem outputs_line (h : LF ∉ bytes) :
    outputs limit ⟨.line kind line, trailers⟩ bytes = [] := by
  induction bytes generalizing line with
  | nil => rfl
  | cons b bytes ih =>
    obtain ⟨hb, hbytes⟩ := not_or.mp (List.mem_cons.not.mp h)
    rw [outputs_cons, step_line (Ne.symm hb), ih hbytes]
    rfl

theorem endTrailer_of_ne {d : Decoder} (h : line.getLast? ≠ some CR) :
    d.endTrailer line = ⟨.failed .lineEnd, d.trailers⟩ := if_pos h

theorem endTrailer_cr (d : Decoder) : d.endTrailer [CR] = ⟨.done, d.trailers⟩ := rfl

theorem endTrailer_concat {d : Decoder} {text : List UInt8} (h : text ≠ []) :
    d.endTrailer (text ++ [CR]) =
      match text.idxOf? colon with
      | none => ⟨.failed .colon, d.trailers⟩
      | some i => ⟨.line .trailer [], d.trailers ++ [⟨text.take i, text.drop (i + 1)⟩]⟩ := by
  rw [endTrailer, List.dropLast_concat, if_neg (not_not.mpr List.getLast?_concat), if_neg h]

/-- A line with its end. -/
theorem after_wholeLine (limit : Nat) (trailers : List Trailer) (kind : LineKind) (h : LF ∉ line) :
    after limit ⟨.line kind [], trailers⟩ (line ++ [LF]) =
      endLine limit ⟨.line kind line, trailers⟩ kind line := by
  rw [after_append, after_line h, List.nil_append]
  rfl

theorem outputs_wholeLine (limit : Nat) (trailers : List Trailer) (kind : LineKind) (h : LF ∉ line) :
    outputs limit ⟨.line kind [], trailers⟩ (line ++ [LF]) = [] := by
  rw [outputs_append, outputs_line h, after_line h]
  rfl

/-! ### Data -/

theorem step_data {n : Nat} {b : UInt8} : step limit ⟨.data n, trailers⟩ b =
    ⟨if n ≤ 1 then .chunkEnd [] else .data (n - 1), trailers⟩ := rfl

/-- Bytes of a chunk that is not longer than they are. -/
theorem after_data (limit : Nat) (trailers : List Trailer) {n : Nat} (hn : 0 < n) (hlen : bytes.length ≤ n) :
    after limit ⟨.data n, trailers⟩ bytes =
        ⟨if bytes.length = n then .chunkEnd [] else .data (n - bytes.length), trailers⟩ ∧
      outputs limit ⟨.data n, trailers⟩ bytes = bytes := by
  induction bytes generalizing n with
  | nil => simp [Nat.ne_of_lt hn]
  | cons b bytes ih =>
    simp only [List.length_cons] at hlen ⊢
    rw [after_cons, outputs_cons, step_data]
    rcases Nat.lt_or_ge 1 n with hlt | hle
    · obtain ⟨hafter, houtputs⟩ := ih (n := n - 1) (by omega) (by omega)
      rw [if_neg (show ¬ n ≤ 1 by omega)]
      refine ⟨hafter.trans ?_, congrArg (b :: ·) houtputs⟩
      congr 1
      by_cases h : bytes.length + 1 = n
      · rw [if_pos h, if_pos (by omega)]
      · rw [if_neg h, if_neg (by omega), show n - 1 - bytes.length = n - (bytes.length + 1) by omega]
    · obtain rfl : n = 1 := by omega
      obtain rfl : bytes = [] := List.length_eq_zero_iff.mp (by omega)
      exact ⟨rfl, rfl⟩

/-! ### The ends -/

/-- What takes the decoder from inside a chunk to the end is not shorter than
the rest of the chunk. -/
theorem le_length_of_done {n : Nat}
    (h : (after limit ⟨.data n, trailers⟩ bytes).phase = .done) : n ≤ bytes.length := by
  by_contra hlt
  rw [(after_data _ _ (by omega) (by omega)).1, if_neg (by omega)] at h
  exact absurd h nofun

theorem after_done : after limit ⟨.done, trailers⟩ bytes = ⟨.done, trailers⟩ := by
  induction bytes with
  | nil => rfl
  | cons b bytes ih => exact ih

theorem outputs_done : outputs limit ⟨.done, trailers⟩ bytes = [] := by
  induction bytes with
  | nil => rfl
  | cons b bytes ih => exact ih

theorem after_failed {fault : Fault} :
    after limit ⟨.failed fault, trailers⟩ bytes = ⟨.failed fault, trailers⟩ := by
  induction bytes with
  | nil => rfl
  | cons b bytes ih => exact ih

theorem outputs_failed {fault : Fault} : outputs limit ⟨.failed fault, trailers⟩ bytes = [] := by
  induction bytes with
  | nil => rfl
  | cons b bytes ih => exact ih

end Decoder

/-! ## Decoding a body -/

section Decoding

open Decoder

variable {limit : Nat}

theorem SizeLine.Valid.text {line : SizeLine} {n : Nat} (h : line.Valid limit n) :
    LF ∉ line.digits ++ line.extension ∧ sizeOf limit (line.digits ++ line.extension) = some n := by
  constructor
  · intro hmem
    rcases List.mem_append.mp hmem with hmem | hmem
    · exact absurd (h.digits LF hmem) (by decide)
    · exact h.extension hmem
  · have hext : line.extension.takeWhile isHexDigit = [] := by
      cases he : line.extension with
      | nil => rfl
      | cons b bytes =>
        exact List.takeWhile_cons_of_neg (by simp [h.extension_head b (by simp [he])])
    have hdigits : (line.digits ++ line.extension).takeWhile isHexDigit = line.digits := by
      rw [List.takeWhile_append_of_pos h.digits, hext, List.append_nil]
    have hlimit : ¬ (line.digits = [] ∨ limit ≤ hexValue line.digits) := by
      rw [h.value]
      exact not_or.mpr ⟨h.digits_ne_nil, Nat.not_le.mpr h.limit⟩
    rw [sizeOf, hdigits, if_neg hlimit, h.value]

variable {trailers : List Trailer}

theorem after_sizeLine (trailers : List Trailer) {line : SizeLine} {n : Nat} (h : line.Valid limit n) :
    after limit ⟨.line .size [], trailers⟩ line.encode =
        ⟨if n = 0 then .line .trailer [] else .data n, trailers⟩ ∧
      outputs limit ⟨.line .size [], trailers⟩ line.encode = [] := by
  obtain ⟨hlf, hsize⟩ := h.text
  refine ⟨?_, outputs_wholeLine _ _ _ hlf⟩
  rw [SizeLine.encode, after_wholeLine _ _ _ hlf, endLine, endSize, hsize]
  cases n <;> rfl

theorem after_chunk (trailers : List Trailer) {chunk : Chunk} (h : chunk.Valid limit) :
    after limit ⟨.line .size [], trailers⟩ chunk.encode = ⟨.line .size [], trailers⟩ ∧
      outputs limit ⟨.line .size [], trailers⟩ chunk.encode = chunk.data := by
  have hpos := List.length_pos_iff.mpr h.nonempty
  obtain ⟨hsize, hsizeOut⟩ := after_sizeLine trailers h.size
  rw [if_neg (Nat.ne_of_gt hpos)] at hsize
  obtain ⟨hdata, hdataOut⟩ := after_data limit trailers hpos (Nat.le_refl _)
  rw [if_pos rfl] at hdata
  constructor
  · rw [Chunk.encode, after_append, after_append, hsize, hdata]
    rfl
  · rw [Chunk.encode, outputs_append, outputs_append, after_append, hsizeOut, hsize, hdataOut, hdata]
    exact List.append_nil _

theorem after_chunks (trailers : List Trailer) {chunks : List Chunk} (h : ∀ chunk ∈ chunks, chunk.Valid limit) :
    after limit ⟨.line .size [], trailers⟩ (chunks.flatMap Chunk.encode) =
        ⟨.line .size [], trailers⟩ ∧
      outputs limit ⟨.line .size [], trailers⟩ (chunks.flatMap Chunk.encode) =
        chunks.flatMap Chunk.data := by
  induction chunks with
  | nil => exact ⟨rfl, rfl⟩
  | cons chunk chunks ih =>
    obtain ⟨hchunk, hchunkOut⟩ := after_chunk trailers (h chunk (by simp))
    obtain ⟨hrest, hrestOut⟩ := ih fun c hc => h c (by simp [hc])
    rw [List.flatMap_cons, List.flatMap_cons]
    exact ⟨by rw [after_append, hchunk, hrest],
      by rw [outputs_append, hchunk, hchunkOut, hrestOut]⟩

theorem idxOf?_colon {key value : List UInt8} (h : colon ∉ key) :
    (key ++ [colon] ++ value).idxOf? colon = some key.length := by
  induction key with
  | nil => simp [List.idxOf?_cons]
  | cons b key ih =>
    obtain ⟨hb, hkey⟩ := not_or.mp (List.mem_cons.not.mp h)
    have hih := ih hkey
    simp only [List.cons_append, List.idxOf?_cons, beq_iff_eq, Ne.symm hb, if_false] at hih ⊢
    rw [hih]
    rfl

theorem after_trailer (limit : Nat) (trailers : List Trailer) {trailer : Trailer} (h : trailer.Valid) :
    after limit ⟨.line .trailer [], trailers⟩ trailer.encode =
        ⟨.line .trailer [], trailers ++ [trailer]⟩ ∧
      outputs limit ⟨.line .trailer [], trailers⟩ trailer.encode = [] := by
  have hlf : LF ∉ trailer.key ++ [colon] ++ trailer.value ++ [CR] := by
    simp only [List.mem_append, List.mem_singleton, not_or]
    exact ⟨⟨⟨h.key, by decide⟩, h.value⟩, by decide⟩
  have hencode : trailer.encode =
      trailer.key ++ [colon] ++ trailer.value ++ [CR] ++ [LF] := by
    simp [Trailer.encode]
  have hne : trailer.key ++ [colon] ++ trailer.value ≠ [] := by simp
  rw [hencode]
  refine ⟨?_, outputs_wholeLine _ _ _ hlf⟩
  rw [after_wholeLine _ _ _ hlf, endLine, endTrailer_concat hne, idxOf?_colon h.key_colon]
  simp

theorem after_trailers (limit : Nat) (trailers : List Trailer) {ts : List Trailer} (h : ∀ trailer ∈ ts, trailer.Valid) :
    after limit ⟨.line .trailer [], trailers⟩ (ts.flatMap Trailer.encode) =
        ⟨.line .trailer [], trailers ++ ts⟩ ∧
      outputs limit ⟨.line .trailer [], trailers⟩ (ts.flatMap Trailer.encode) = [] := by
  induction ts generalizing trailers with
  | nil => simp
  | cons trailer ts ih =>
    obtain ⟨hone, honeOut⟩ :=
      after_trailer limit trailers (h trailer (by simp))
    obtain ⟨hrest, hrestOut⟩ := ih (trailers ++ [trailer]) fun t ht => h t (by simp [ht])
    rw [List.flatMap_cons]
    exact ⟨by rw [after_append, hone, hrest, List.append_assoc]; rfl,
      by rw [outputs_append, hone, honeOut, hrestOut]; rfl⟩

theorem after_encodeOpen {body : Body} (h : body.Valid limit) :
    after limit {} body.encodeOpen = ⟨.line .trailer [], body.trailers⟩ ∧
      outputs limit {} body.encodeOpen = body.data := by
  obtain ⟨hchunks, hchunksOut⟩ := after_chunks [] h.chunks
  obtain ⟨hlast, hlastOut⟩ := after_sizeLine [] h.last
  obtain ⟨htrailers, htrailersOut⟩ := after_trailers limit [] h.trailers
  constructor
  · rw [Body.encodeOpen, after_append, after_append, hchunks, hlast, if_pos rfl, htrailers]
    rfl
  · rw [Body.encodeOpen, outputs_append, outputs_append, after_append, hchunks, hlast, if_pos rfl,
      hchunksOut, hlastOut, htrailersOut, List.append_nil, List.append_nil]
    rfl

/-- The decoder takes a body to its end. -/
theorem after_encode {body : Body} (h : body.Valid limit) (rest : List UInt8) :
    after limit {} (body.encode ++ rest) = ⟨.done, body.trailers⟩ ∧
      outputs limit {} (body.encode ++ rest) = body.data := by
  obtain ⟨hopen, hopenOut⟩ := after_encodeOpen h
  have hend : after limit ⟨.line .trailer [], body.trailers⟩ [CR, LF] = ⟨.done, body.trailers⟩ := rfl
  have hendOut : outputs limit ⟨.line .trailer [], body.trailers⟩ [CR, LF] = [] := rfl
  constructor
  · rw [Body.encode, after_append, after_append, hopen, hend, after_done]
  · rw [Body.encode, outputs_append, outputs_append, after_append, hopen, hopenOut, hend, hendOut,
      outputs_done, List.append_nil, List.append_nil]

/-- A trailer line without a colon is a fault. -/
theorem after_uncoloned {bytes : List UInt8} (h : Uncoloned limit bytes) :
    (after limit {} bytes).phase = .failed .colon := by
  obtain ⟨body, line, hbody, hne, hlf, hcolon, rest, rfl⟩ := h
  have hline : body.encodeOpen ++ line ++ [CR, LF] = body.encodeOpen ++ (line ++ [CR] ++ [LF]) := by
    simp
  have hlf' : LF ∉ line ++ [CR] := by
    simp only [List.mem_append, List.mem_singleton, not_or]
    exact ⟨hlf, by decide⟩
  have hfail : endTrailer ⟨.line .trailer (line ++ [CR]), body.trailers⟩ (line ++ [CR]) =
      ⟨.failed .colon, body.trailers⟩ := by
    rw [endTrailer_concat hne, List.idxOf?_eq_none_iff.mpr hcolon]
  rw [after_append, hline, after_append, (after_encodeOpen hbody).1, after_wholeLine _ _ _ hlf', endLine,
    hfail, after_failed]

/-! ## What has been decoded -/

/-- The bytes that led to a state of the decoder, as parts of a body. -/
def Explains (limit : Nat) (d : Decoder) (bytes : List UInt8) : Prop :=
  match d.phase with
  | .line .size read => d.trailers = [] ∧ LF ∉ read ∧
      ∃ chunks : List Chunk, (∀ chunk ∈ chunks, chunk.Valid limit) ∧
        bytes = chunks.flatMap Chunk.encode ++ read
  | .data left => d.trailers = [] ∧ 0 < left ∧
      ∃ (chunks : List Chunk) (line : SizeLine) (got : List UInt8),
        (∀ chunk ∈ chunks, chunk.Valid limit) ∧ line.Valid limit (got.length + left) ∧
          bytes = chunks.flatMap Chunk.encode ++ line.encode ++ got
  | .chunkEnd seen => d.trailers = [] ∧ seen.length ≤ 1 ∧
      ∃ (chunks : List Chunk) (chunk : Chunk),
        (∀ chunk ∈ chunks, chunk.Valid limit) ∧ chunk.Valid limit ∧
          bytes = chunks.flatMap Chunk.encode ++ (chunk.toSizeLine.encode ++ chunk.data) ++ seen
  | .line .trailer read => LF ∉ read ∧
      ∃ body : Body, body.Valid limit ∧ body.trailers = d.trailers ∧
        bytes = body.encodeOpen ++ read
  | .done => ∃ body : Body, body.Valid limit ∧ body.encode <+: bytes
  | .failed .colon => Uncoloned limit bytes
  | .failed _ => True

/-- A line that has a size is a size line. -/
theorem exists_sizeLine {line : List UInt8} {n : Nat} (hsize : sizeOf limit line = some n)
    (hlf : LF ∉ line) :
    ∃ sizeLine : SizeLine, sizeLine.Valid limit n ∧ sizeLine.encode = line ++ [LF] := by
  unfold sizeOf at hsize
  dsimp only at hsize
  split_ifs at hsize with hbad
  obtain ⟨hne, hlimit⟩ := not_or.mp hbad
  obtain rfl := Option.some.inj hsize
  refine ⟨⟨line.takeWhile isHexDigit, line.dropWhile isHexDigit⟩,
    ⟨hne, fun b hb => List.mem_takeWhile_imp hb, rfl, Nat.not_le.mp hlimit, fun hmem => ?_, ?_⟩, ?_⟩
  · exact hlf ((List.dropWhile_suffix _).subset hmem)
  · intro b hb
    have hhead := List.head?_dropWhile_not isHexDigit line
    rw [Option.mem_def.mp hb] at hhead
    simpa using hhead
  · rw [SizeLine.encode, List.takeWhile_append_dropWhile]

theorem explains_endSize {d : Decoder} {line bytes : List UInt8} (htrailers : d.trailers = [])
    (hlf : LF ∉ line) {chunks : List Chunk} (hchunks : ∀ chunk ∈ chunks, chunk.Valid limit)
    (hbytes : bytes = chunks.flatMap Chunk.encode ++ line) :
    Explains limit (d.endSize limit line) (bytes ++ [LF]) := by
  unfold Explains endSize
  cases hsize : sizeOf limit line with
  | none => trivial
  | some n =>
    obtain ⟨sizeLine, hvalid, hencode⟩ := exists_sizeLine hsize hlf
    have htext : bytes ++ [LF] = chunks.flatMap Chunk.encode ++ sizeLine.encode := by
      rw [hbytes, hencode, List.append_assoc]
    cases n with
    | zero =>
      refine ⟨by simp, ⟨chunks, sizeLine, []⟩, ⟨hchunks, hvalid, by simp⟩, htrailers.symm, ?_⟩
      rw [htext]
      simp [Body.encodeOpen]
    | succ n =>
      refine ⟨htrailers, Nat.succ_pos n, chunks, sizeLine, [], hchunks, by simpa using hvalid, ?_⟩
      rw [htext, List.append_nil]

theorem explains_endTrailer {d : Decoder} {line bytes : List UInt8} (hlf : LF ∉ line) {body : Body}
    (hbody : body.Valid limit) (htrailers : body.trailers = d.trailers)
    (hbytes : bytes = body.encodeOpen ++ line) :
    Explains limit (d.endTrailer line) (bytes ++ [LF]) := by
  by_cases hcr : line.getLast? = some CR
  · obtain ⟨text, rfl⟩ : ∃ text, line = text ++ [CR] :=
      ⟨line.dropLast, (List.dropLast_append_getLast? CR hcr).symm⟩
    have hlf' : LF ∉ text := fun hmem => hlf (List.mem_append_left _ hmem)
    rcases eq_or_ne text [] with rfl | hne
    · rw [List.nil_append, endTrailer_cr]
      exact ⟨body, hbody, by rw [hbytes, Body.encode, List.append_assoc]; exact List.prefix_rfl⟩
    · rw [endTrailer_concat hne]
      cases hidx : text.idxOf? colon with
      | none =>
        refine ⟨body, text, hbody, hne, hlf', List.idxOf?_eq_none_iff.mp hidx, ?_⟩
        rw [hbytes]
        simp
      | some i =>
        obtain ⟨hi, hcolon, hbefore⟩ := List.idxOf?_eq_some_iff.mp hidx
        have hsplit : text = text.take i ++ [colon] ++ text.drop (i + 1) := by
          rw [← hcolon, List.append_assoc, List.singleton_append, List.getElem_cons_drop,
            List.take_append_drop]
        have hvalid : (⟨text.take i, text.drop (i + 1)⟩ : Trailer).Valid := by
          refine ⟨fun hmem => hlf' (List.mem_of_mem_take hmem), fun hmem => ?_,
            fun hmem => hlf' (List.mem_of_mem_drop hmem)⟩
          obtain ⟨j, hj, heq⟩ := List.mem_iff_getElem.mp hmem
          rw [List.length_take] at hj
          rw [List.getElem_take] at heq
          exact hbefore j (by omega) heq
        refine ⟨by simp, { body with
          trailers := body.trailers ++ [⟨text.take i, text.drop (i + 1)⟩] },
          ⟨hbody.chunks, hbody.last, ?_⟩, by rw [htrailers], ?_⟩
        · intro trailer hmem
          rcases List.mem_append.mp hmem with hmem | hmem
          · exact hbody.trailers trailer hmem
          · rw [List.mem_singleton.mp hmem]
            exact hvalid
        · rw [hbytes]
          conv_lhs => rw [hsplit]
          simp [Body.encodeOpen, Trailer.encode]
  · rw [endTrailer_of_ne hcr]
    trivial

theorem explains_step {d : Decoder} {bytes : List UInt8} (h : Explains limit d bytes) (b : UInt8) :
    Explains limit (d.step limit b) (bytes ++ [b]) := by
  obtain ⟨phase, trailers⟩ := d
  cases phase with
  | line kind read =>
    by_cases hb : b = LF
    · subst hb
      have hstep : step limit ⟨.line kind read, trailers⟩ LF =
          endLine limit ⟨.line kind read, trailers⟩ kind read := rfl
      rw [hstep]
      cases kind with
      | size =>
        obtain ⟨htrailers, hlf, chunks, hchunks, hbytes⟩ := h
        exact explains_endSize htrailers hlf hchunks hbytes
      | trailer =>
        obtain ⟨hlf, body, hbody, htrailers, hbytes⟩ := h
        exact explains_endTrailer hlf hbody htrailers hbytes
    · have hread : ∀ {read : List UInt8}, LF ∉ read → LF ∉ read ++ [b] := by
        intro read hlf
        simp [hlf, Ne.symm hb]
      rw [step_line hb]
      cases kind with
      | size =>
        obtain ⟨htrailers, hlf, chunks, hchunks, rfl⟩ := h
        exact ⟨htrailers, hread hlf, chunks, hchunks, List.append_assoc ..⟩
      | trailer =>
        obtain ⟨hlf, body, hbody, htrailers, rfl⟩ := h
        exact ⟨hread hlf, body, hbody, htrailers, List.append_assoc ..⟩
  | data left =>
    obtain ⟨htrailers, hleft, chunks, line, got, hchunks, hline, rfl⟩ := h
    rw [step_data]
    split_ifs with hone
    · have hlen : (got ++ [b]).length = got.length + left := by
        rw [List.length_append, List.length_singleton]
        omega
      refine ⟨htrailers, Nat.zero_le _, chunks, ⟨line, got ++ [b]⟩, hchunks, ⟨?_, by simp⟩, ?_⟩
      · rw [hlen]
        exact hline
      · simp [List.append_assoc]
    · refine ⟨htrailers, by omega, chunks, line, got ++ [b], hchunks, ?_, by simp [List.append_assoc]⟩
      rw [List.length_append, List.length_singleton,
        show got.length + 1 + (left - 1) = got.length + left by omega]
      exact hline
  | chunkEnd seen =>
    obtain ⟨htrailers, hseen, chunks, chunk, hchunks, hchunk, rfl⟩ := h
    cases seen with
    | nil =>
      exact ⟨htrailers, le_rfl, chunks, chunk, hchunks, hchunk, by simp⟩
    | cons a rest =>
      obtain rfl : rest = [] := by
        rw [List.length_cons] at hseen
        exact List.length_eq_zero_iff.mp (by omega)
      by_cases hcrlf : a = CR ∧ b = LF
      · obtain ⟨rfl, rfl⟩ := hcrlf
        refine ⟨htrailers, by simp, chunks ++ [chunk], ?_, ?_⟩
        · intro c hc
          rcases List.mem_append.mp hc with hc | hc
          · exact hchunks c hc
          · rw [List.mem_singleton.mp hc]
            exact hchunk
        · simp [Chunk.encode, List.append_assoc]
      · have hstep : step limit ⟨.chunkEnd [a], trailers⟩ b = ⟨.failed .chunkEnd, trailers⟩ := by
          show (⟨if a = CR ∧ b = LF then .line .size [] else .failed .chunkEnd, trailers⟩ : Decoder) = _
          rw [if_neg hcrlf]
        rw [hstep]
        trivial
  | done =>
    obtain ⟨body, hbody, hpre⟩ := h
    exact ⟨body, hbody, hpre.trans (List.prefix_append _ _)⟩
  | failed fault =>
    cases fault with
    | colon =>
      obtain ⟨body, line, hbody, hne, hlf, hcolon, hpre⟩ := h
      exact ⟨body, line, hbody, hne, hlf, hcolon, hpre.trans (List.prefix_append _ _)⟩
    | size | chunkEnd | lineEnd => trivial

theorem explains_after (limit : Nat) (bytes : List UInt8) : Explains limit (after limit {} bytes) bytes := by
  induction bytes using List.reverseRecOn with
  | nil => exact ⟨rfl, by simp, [], by simp, rfl⟩
  | append_singleton bytes b ih =>
    rw [after_append]
    exact explains_step ih b

/-- What takes the decoder to the end starts with a body. -/
theorem exists_body_of_done {bytes : List UInt8} (h : (after limit {} bytes).phase = .done) :
    ∃ body : Body, body.Valid limit ∧ body.encode <+: bytes := by
  have hexplains := explains_after limit bytes
  unfold Explains at hexplains
  rwa [h] at hexplains

/-- The decoder meets a trailer line without a colon exactly in an uncoloned
body. -/
theorem failed_colon_iff {bytes : List UInt8} :
    (after limit {} bytes).phase = .failed .colon ↔ Uncoloned limit bytes := by
  refine ⟨fun h => ?_, after_uncoloned⟩
  have hexplains := explains_after limit bytes
  unfold Explains at hexplains
  rwa [h] at hexplains

end Decoding

end ChunkedCoding

end ConnectionSniffer
