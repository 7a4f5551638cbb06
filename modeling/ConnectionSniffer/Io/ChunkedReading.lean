import ConnectionSniffer.Io.ChunkedParser

/-!
# Reading a chunked stream

`Decodes` relates a `ChunkedInputStream` to the plain decoder over a run:
`consumed` are the bytes that have been read from the underlying stream,
and what has been delivered is, with what waits in `chunkData`, what the
decoder puts out on them.

`Reads` is the specification of one read.  It returns at least one byte, or
`-1` at the end of the body; it throws at a fault, or where the underlying
stream ends before the body.  `available_ends` says of `available()` that
it loses nothing.
-/

namespace ConnectionSniffer

universe u

open ChunkedCoding (Trailer Phase Fault Decoder)
open DynamicByteArrayInputStream (ReadResult)

namespace ChunkedInputStream

/-! ## Calls -/

inductive Call where
  | read
  | readInto (bLength : Nat) (off len : Int)
  | available

inductive Answer where
  | result (r : ReadResult)
  | count (n : Nat)

/-- The bytes that a read delivers. -/
def delivers : ReadResult → List UInt8
  | .bytes data => data
  | .endOfMessage => []

/-- The bytes that an answer delivers. -/
def Answer.bytes : Answer → List UInt8
  | .result r => delivers r
  | .count _ => []

namespace Call

/-- `read()` or `read(b, off, len)`. -/
def isRead : Call → Bool
  | available => false
  | _ => true

/-- A range of at least one byte in the caller's array. -/
def Legal : Call → Prop
  | readInto bLength off len => 0 ≤ off ∧ 0 < len ∧ off + len ≤ bLength ∧ bLength < 2 ^ 31
  | _ => True

/-- The arguments are `int`s, `len` is positive and the array has a length. -/
def InRange : Call → Prop
  | readInto bLength off len => bLength < 2 ^ 31 ∧ -(2 ^ 31) ≤ off ∧ off < 2 ^ 31 ∧ 0 < len ∧ len < 2 ^ 31
  | _ => True

instance : ∀ call : Call, Decidable call.Legal
  | readInto bLength off len => inferInstanceAs (Decidable
      (0 ≤ off ∧ 0 < len ∧ off + len ≤ bLength ∧ bLength < 2 ^ 31))
  | read | available => .isTrue trivial

instance : ∀ call : Call, Decidable call.InRange
  | readInto bLength off len => inferInstanceAs (Decidable
      (bLength < 2 ^ 31 ∧ -(2 ^ 31) ≤ off ∧ off < 2 ^ 31 ∧ 0 < len ∧ len < 2 ^ 31))
  | read | available => .isTrue trivial

end Call

variable {σ : Type u} (stream : InputStream σ)

/-- The answer of a method, as the answer of a call. -/
def answer {α : Type} (f : α → Answer) :
    Completion (ChunkedInputStream σ) α → Completion (ChunkedInputStream σ) Answer
  | .returned a c => .returned (f a) c
  | .waits => .waits
  | .thrown e c => .thrown e c

def invoke (c : ChunkedInputStream σ) : Call → Completion (ChunkedInputStream σ) Answer
  | .read => answer .result (c.read stream)
  | .readInto bLength off len => answer .result (c.readInto stream bLength off len)
  | .available => answer .count (c.available stream)

/-- The object after a call.  A call that waits does not end. -/
def next (c : ChunkedInputStream σ) (call : Call) : ChunkedInputStream σ :=
  match c.invoke stream call with
  | .returned _ c' => c'
  | .waits => c
  | .thrown _ c' => c'

/-- Where the call adds what the underlying stream says to be available to
`rawCount`, the sum is an `int`. -/
def Fits (c : ChunkedInputStream σ) : Call → Prop
  | .available => c.chunk.used = 0 → c.state ≠ .done → 0 < (stream.available c.underlying).1 →
      c.raw.count + (stream.available c.underlying).1 < 2 ^ 31
  | _ => True

instance : ∀ (c : ChunkedInputStream σ) (call : Call), Decidable (Fits stream c call)
  | c, .available => inferInstanceAs (Decidable (c.chunk.used = 0 → c.state ≠ .done →
      0 < (stream.available c.underlying).1 →
        c.raw.count + (stream.available c.underlying).1 < 2 ^ 31))
  | _, .read | _, .readInto .. => .isTrue trivial

/-- The bytes that a call delivers. -/
def gives (c : ChunkedInputStream σ) (call : Call) : List UInt8 :=
  match c.invoke stream call with
  | .returned answer _ => answer.bytes
  | .waits => []
  | .thrown _ _ => []

/-! ## The invariant -/

variable {I : σ → Prop} {rest : σ → List UInt8} {asks : Nat → Nat → Prop} {total : List UInt8}

/-- The stream keeps its contract in every read that the decoder makes of
it, and reads end: the stream ends itself, or it holds a whole body. -/
structure Serves (stream : InputStream σ) (I : σ → Prop) (rest : σ → List UInt8)
    (asks : Nat → Nat → Prop) (total : List UInt8) : Prop
    extends stream.Supplies I rest asks where
  ends : (Decoder.after limit {} total).phase = .done ∨
    stream.IsFinite I rest asks ∧ ∀ bLength len, asks bLength len
  mono : ∀ {bLength len bLength' len' : Nat}, asks bLength len → bLength' ≤ bLength → len' ≤ len →
    asks bLength' len'
  /-- A read into `rawData`. -/
  asks_raw : asks (total.length + 32) (total.length + 32)
  asks_available : ∀ {s : σ}, I s → asks (total.length + (stream.available s).1)
    (total.length + (stream.available s).1)
  /-- A read into the caller's array. -/
  asks_array : ∀ {bLength len : Nat}, bLength < 2 ^ 31 → len ≤ total.length → asks bLength len

structure Decodes (I : σ → Prop) (rest : σ → List UInt8)
    (asks : Nat → Nat → Prop) (total : List UInt8)
    (c : ChunkedInputStream σ) (delivered : List UInt8) (d : Decoder) (consumed : List UInt8) :
    Prop where
  atToken : AtToken c d
  ahead : c.ahead d = Decoder.after limit {} consumed
  owed : delivered ++ c.chunk.pending = Decoder.outputs limit {} consumed
  none_ahead : d.outputs limit c.raw.pending = []
  settled : Settled c ∨ ∃ fault, (c.ahead d).phase = .failed fault
  closed : c.closed = false
  raw_le : c.raw.used ≤ consumed.length
  asks_raw : asks c.raw.data.length c.raw.data.length
  /-- The underlying stream, or what it was before it was closed. -/
  supply : ∃ s, I s ∧ consumed ++ rest s = total ∧
    if c.state = .done then stream.close s = .returned c.underlying else s = c.underlying

variable {stream} {c c' : ChunkedInputStream σ} {d : Decoder} {consumed delivered : List UInt8}

theorem decodes_create {s : σ} (hs : I s) (hasks : asks 32 32) :
    Decodes stream I rest asks (rest s) (create s) [] {} [] where
  atToken := ⟨rfl, rfl, nofun⟩
  ahead := rfl
  owed := rfl
  none_ahead := rfl
  settled := Or.inl (List.not_mem_nil)
  closed := rfl
  raw_le := Nat.le_refl _
  asks_raw := hasks
  supply := ⟨s, hs, rfl, rfl⟩

namespace Decodes

/-- Before the end, the underlying stream supplies what has not been
consumed. -/
theorem supplied (h : Decodes stream I rest asks total c delivered d consumed) (hne : c.state ≠ .done) :
    I c.underlying ∧ consumed ++ rest c.underlying = total := by
  obtain ⟨s, hs, htotal, hunder⟩ := h.supply
  rw [if_neg hne] at hunder
  rw [← hunder]
  exact ⟨hs, htotal⟩

theorem consumed_isPrefix (h : Decodes stream I rest asks total c delivered d consumed) :
    consumed <+: total := by
  obtain ⟨s, -, htotal, -⟩ := h.supply
  exact ⟨_, htotal⟩

/-- The parser has reached the end exactly where the decoder has. -/
theorem done_iff (h : Decodes stream I rest asks total c delivered d consumed) :
    c.state = .done ↔ (Decoder.after limit {} consumed).phase = .done := by
  rw [← h.ahead]
  rcases h.settled with hsettled | ⟨fault, hfault⟩
  · exact (hsettled.ahead_phase h.atToken).1.symm
  · rw [hfault]
    simp only [reduceCtorEq, iff_false]
    intro hdone
    rw [Settled.ahead_phase (c := c) (by unfold Settled; rw [hdone]; trivial) h.atToken |>.1.mpr
      hdone] at hfault
    exact absurd hfault nofun

/-- The parser waits inside a chunk only with nothing in `rawData`. -/
theorem raw_of_reading (h : Decodes stream I rest asks total c delivered d consumed)
    (hreading : c.state = .readingChunk) : c.raw.pending = [] := by
  rcases h.settled with hsettled | ⟨fault, hfault⟩
  · unfold Settled at hsettled
    rwa [hreading] at hsettled
  · by_contra hne
    have hlt := h.atToken.reading hreading
    have hout := h.none_ahead
    obtain ⟨b, raw, hraw⟩ := List.exists_cons_of_ne_nil hne
    rw [h.atToken.eq, phase, hreading, hraw, Decoder.outputs_cons] at hout
    exact absurd hout (by simp [Decoder.out])

/-- Where a parser that has not met a fault waits, the decoder has not failed. -/
theorem not_failed (h : Decodes stream I rest asks total c delivered d consumed) (hsettled : Settled c)
    (fault : Fault) : (Decoder.after limit {} consumed).phase ≠ .failed fault := by
  rw [← h.ahead]
  exact (hsettled.ahead_phase h.atToken).2.1 fault

end Decodes

/-- A fault in the bytes consumed is the fault of all bytes. -/
theorem failed_of_consumed (hpre : consumed <+: total) {fault : Fault}
    (h : (Decoder.after limit {} consumed).phase = .failed fault) :
    (Decoder.after limit {} total).phase = .failed fault := by
  obtain ⟨bytes, rfl⟩ := hpre
  rw [Decoder.after_append, ← h]
  exact congrArg Decoder.phase ((congrArg (Decoder.after limit · bytes)
    (show Decoder.after limit {} consumed = ⟨.failed fault, _⟩ by rw [← h])).trans
      Decoder.after_failed) |>.trans h.symm

/-! ## Taking over bytes -/

/-- What an exception tells: the bytes are no body, and the error flag is
set unless the fault is a trailer line without a colon. -/
structure Throws (total : List UInt8) (c : ChunkedInputStream σ) (e : StreamError)
    (c' : ChunkedInputStream σ) : Prop where
  message : ∃ message, e = ioException message
  not_done : (Decoder.after limit {} total).phase ≠ .done
  noted : (Decoder.after limit {} total).phase ≠ .failed .colon → c'.error = true
  unnoted : Settled c → (Decoder.after limit {} total).phase = .failed .colon → c'.error = c.error

theorem processRead_ends (hserves : Serves stream I rest asks total)
    (h : Decodes stream I rest asks total c delivered d consumed) (hne : c.state ≠ .done)
    {data : List UInt8} (hroom : data.length ≤ c.raw.room) {s : σ} (hs : I s)
    (hdata : rest c.underlying = data ++ rest s) :
    (processRead stream c data hroom s).Ends
      (fun c' => Settled c' ∧ c'.error = c.error ∧ c'.chunk.pos ≤ c.chunk.pos ∧
        ∃ d', Decodes stream I rest asks total c' delivered d' (consumed ++ data))
      (fun e c' => Throws total c e c' ∧
        ∃ d', Decodes stream I rest asks total c' delivered d' (consumed ++ data)) := by
  set c₀ : ChunkedInputStream σ := { c with underlying := s, raw := c.raw.append data hroom } with hc₀
  have hat : AtToken c₀ d := ⟨h.atToken.phase, h.atToken.trailers, h.atToken.reading⟩
  have hahead : c₀.ahead d = Decoder.after limit {} (consumed ++ data) := by
    rw [Decoder.after_append, ← h.ahead, ahead, ahead, ← Decoder.after_append]
    simp only [hc₀, Window.pending_append]
  have howed : delivered ++ c₀.owed d = Decoder.outputs limit {} (consumed ++ data) := by
    rw [Decoder.outputs_append, ← h.owed, ← h.ahead, owed]
    simp only [hc₀, Window.pending_append]
    rw [Decoder.outputs_append, h.none_ahead, ahead, List.nil_append, List.append_assoc]
  have htotal : consumed ++ data ++ rest s = total := by
    rw [List.append_assoc, ← hdata]
    exact (h.supplied hne).2
  have hraw_le : c₀.raw.used ≤ (consumed ++ data).length := by
    have hold := h.raw_le
    rw [← Window.length_pending] at hold ⊢
    simp only [hc₀, Window.pending_append, List.length_append]
    omega
  have hasks : ∀ {c' : ChunkedInputStream σ}, Shrinks c₀ c' →
      c'.raw.used ≤ (consumed ++ data).length ∧ asks c'.raw.data.length c'.raw.data.length := by
    intro c' hshrinks
    refine ⟨hshrinks.rawUsed.trans hraw_le, ?_⟩
    rw [hshrinks.rawLength]
    simp only [hc₀, Window.length_append]
    exact h.asks_raw
  have hends := processRaw_ends hat fun _ => hserves.close hs
  refine hends.mono ?_ ?_
  · rintro c' ⟨hsettled, d', hparses, hdone⟩
    have hnone := (hsettled.ahead_phase hparses.atToken).2.2
    refine ⟨hsettled, hparses.error, hparses.shrinks.chunkPos, d', hparses.atToken,
      hparses.ahead.trans hahead, ?_, hnone, Or.inl hsettled, hparses.closed.trans h.closed,
      (hasks hparses.shrinks).1, (hasks hparses.shrinks).2, s, hs, htotal, ?_⟩
    · rw [← howed, ← hparses.owed, owed, hnone, List.append_nil]
    · split_ifs with hstate
      · exact (hdone hstate).resolve_left hne
      · exact (hparses.underlying hstate).symm
  · rintro e c' ⟨hthrown, c₁, d', fault, hparses, rfl, hfault, hnone⟩
    have hstate : c₁.state ≠ .done := by
      intro hstate
      have hphase := (Settled.ahead_phase (c := c₁) (by unfold Settled; rw [hstate]; trivial)
        hparses.atToken).1.mpr hstate
      rw [hfault] at hphase
      exact Phase.failed_ne_done hphase
    have hconsumed : (Decoder.after limit {} (consumed ++ data)).phase = .failed fault := by
      rw [← hahead, ← hparses.ahead, hfault]
    have hall := failed_of_consumed ⟨_, htotal⟩ hconsumed
    refine ⟨⟨hthrown, by rw [hall]; exact Phase.failed_ne_done, fun hcolon => ?_, fun _ hcolon => ?_⟩, d',
      ⟨hparses.atToken.phase, hparses.atToken.trailers, hparses.atToken.reading⟩,
      hparses.ahead.trans hahead, ?_, hnone, Or.inr ⟨fault, hfault⟩, hparses.closed.trans h.closed,
      (hasks hparses.shrinks).1, (hasks hparses.shrinks).2, s, hs, htotal, ?_⟩
    · rw [hall] at hcolon
      simp only [noted, decide_eq_true (show fault ≠ .colon from fun hf => hcolon (by rw [hf])),
        Bool.or_true]
    · obtain rfl : fault = .colon := Phase.failed.inj (hall.symm.trans hcolon)
      simp only [noted, ne_eq, not_true_eq_false, decide_false, Bool.or_false]
      exact hparses.error
    · rw [← howed, ← hparses.owed, owed, hnone, List.append_nil]
      rfl
    · rw [if_neg (show (c₁.noted fault).state ≠ .done from hstate)]
      exact (hparses.underlying hstate).symm

/-! ## Reading ahead -/

/-- Changes of the windows and of the underlying stream that lose nothing. -/
theorem Decodes.of_eq (h : Decodes stream I rest asks total c delivered d consumed)
    {chunk raw : Window UInt8} {s : σ} (error : Bool) (hchunk : chunk.pending = c.chunk.pending)
    (hraw : raw.pending = c.raw.pending) (hasks : asks raw.data.length raw.data.length)
    (hs : s = c.underlying ∨ c.state ≠ .done ∧ I s ∧ rest s = rest c.underlying) :
    Decodes stream I rest asks total { c with chunk, raw, error, underlying := s } delivered d
      consumed where
  atToken := ⟨h.atToken.phase, h.atToken.trailers, h.atToken.reading⟩
  ahead := by
    rw [← h.ahead, ChunkedInputStream.ahead, ChunkedInputStream.ahead, hraw]
  owed := by
    rw [← h.owed, hchunk]
  none_ahead := by
    rw [← h.none_ahead, hraw]
  settled := by
    unfold Settled ChunkedInputStream.ahead
    simp only [hraw]
    exact h.settled
  closed := h.closed
  raw_le := by
    rw [← Window.length_pending, hraw, Window.length_pending]
    exact h.raw_le
  asks_raw := hasks
  supply := by
    rcases hs with rfl | ⟨hne, hI, hrest⟩
    · exact h.supply
    · refine ⟨s, hI, ?_, ?_⟩
      · rw [hrest]
        exact (h.supplied hne).2
      · rw [if_neg hne]

theorem Settled.of_eq (h : Settled c) {chunk raw : Window UInt8} {s : σ} {error : Bool}
    (hraw : raw.pending = c.raw.pending) :
    Settled { c with chunk, raw, error, underlying := s } := by
  unfold Settled at h ⊢
  simp only [hraw]
  exact h

/-- What comes of the methods that read ahead. -/
def ReadsAhead (stream : InputStream σ) (I : σ → Prop) (rest : σ → List UInt8)
    (asks : Nat → Nat → Prop) (total : List UInt8)
    (c : ChunkedInputStream σ) (delivered : List UInt8) :
    Completion (ChunkedInputStream σ) Int → Prop
  | .waits => False
  | .thrown e c' => Throws total c e c' ∧ ∃ d' consumed',
      Decodes stream I rest asks total c' delivered d' consumed'
  | .returned n c' => (Settled c → Settled c') ∧ c'.error = c.error ∧
      (∃ d' consumed', Decodes stream I rest asks total c' delivered d' consumed') ∧
      (n = -1 ∧ c'.state = .done ∧ c'.chunk.pending = [] ∨ n = c'.chunk.used ∧ 0 < c'.chunk.used)

theorem Throws.of_start {c₀ : ChunkedInputStream σ} {e : StreamError} (h : Throws total c₀ e c')
    (hsettled : Settled c → Settled c₀) (herror : c₀.error = c.error) : Throws total c e c' :=
  ⟨h.message, h.not_done, h.noted, fun hs hcolon => (h.unnoted (hsettled hs) hcolon).trans herror⟩

theorem ReadsAhead.of_start {c₀ : ChunkedInputStream σ} {o : Completion (ChunkedInputStream σ) Int}
    (h : ReadsAhead stream I rest asks total c₀ delivered o) (hsettled : Settled c → Settled c₀)
    (herror : c₀.error = c.error) : ReadsAhead stream I rest asks total c delivered o := by
  cases o with
  | waits => exact h
  | thrown e c' => exact ⟨h.1.of_start hsettled herror, h.2⟩
  | returned n c' => exact ⟨fun hs => h.1 (hsettled hs), h.2.1.trans herror, h.2.2⟩

/-- The end of the underlying stream before the end of the body. -/
theorem throws_eof (h : Decodes stream I rest asks total c delivered d consumed)
    (hne : c.state ≠ .done) (hrest : rest c.underlying = []) (message : String)
    {c' : ChunkedInputStream σ} (herror : c'.error = true) :
    Throws total c (ioException message) c' := by
  have hconsumed : consumed = total := by
    have htotal := (h.supplied hne).2
    rwa [hrest, List.append_nil] at htotal
  refine ⟨⟨message, rfl⟩, ?_, fun _ => herror, fun hsettled hcolon => ?_⟩
  · rw [← hconsumed]
    exact mt h.done_iff.mpr hne
  · rw [← hconsumed] at hcolon
    exact absurd hcolon (h.not_failed hsettled .colon)

/-- A read of the underlying stream gets bytes, or it has ended too early. -/
theorem read_cases (hserves : Serves stream I rest asks total)
    (h : Decodes stream I rest asks total c delivered d consumed) (hne : c.state ≠ .done)
    {bLength off len : Nat} (hlen : 0 < len) (hfits : off + len ≤ bLength)
    (hasks : asks bLength len) : (∃ data s, stream.read c.underlying bLength off len = .returned (some data) s ∧ data.1 ≠ [] ∧
      rest c.underlying = data.1 ++ rest s ∧ I s) ∨
    (∃ s, stream.read c.underlying bLength off len = .returned none s ∧ I s ∧ rest s = [] ∧
      rest c.underlying = []) := by
  obtain ⟨hI, htotal⟩ := h.supplied hne
  by_cases hrest : rest c.underlying = []
  · right
    rcases hserves.ends with hdone | ⟨hfinite, -⟩
    · rw [hrest, List.append_nil] at htotal
      rw [← htotal] at hdone
      exact absurd (h.done_iff.mpr hdone) hne
    · obtain ⟨s, hread, hs, hnil⟩ := hfinite hI hrest hlen hfits hasks
      exact ⟨s, hread, hs, hnil, hrest⟩
  · exact Or.inl (hserves.read hI hrest hlen hfits hasks)

/-- A turn of the loop in which the parser stops. -/
theorem readAheadBlockingLoop_thrown {bound : Nat} (hne : c.state ≠ .done)
    {c₀ : ChunkedInputStream σ} (hc₀ : c₀ = c.makeRoom 32)
    {data : { data : List UInt8 // data.length ≤ c₀.raw.room }} {s : σ}
    (hread : stream.read c₀.underlying c₀.raw.data.length c₀.raw.count c₀.raw.room =
      .returned (some data) s) {e : StreamError}
    (hprocess : processRead stream c₀ data.1 data.2 s = .thrown e c') :
    readAheadBlockingLoop stream (bound + 1) c = .thrown e c' := by
  subst hc₀
  rw [readAheadBlockingLoop, if_neg hne]
  simp only [hread, hprocess]

/-- A turn of the loop on bytes that the parser takes over. -/
theorem readAheadBlockingLoop_returned {bound : Nat} (hne : c.state ≠ .done)
    {c₀ : ChunkedInputStream σ} (hc₀ : c₀ = c.makeRoom 32)
    {data : { data : List UInt8 // data.length ≤ c₀.raw.room }} {s : σ}
    (hread : stream.read c₀.underlying c₀.raw.data.length c₀.raw.count c₀.raw.room =
      .returned (some data) s)
    (hprocess : processRead stream c₀ data.1 data.2 s = .returned c') :
    readAheadBlockingLoop stream (bound + 1) c =
      if c'.chunk.count = 0 then readAheadBlockingLoop stream bound c'
      else .returned c'.chunk.used c' := by
  subst hc₀
  rw [readAheadBlockingLoop, if_neg hne]
  simp only [hread, hprocess]

/-- A turn of the loop at the end of the underlying stream. -/
theorem readAheadBlockingLoop_none {bound : Nat} (hne : c.state ≠ .done) {c₀ : ChunkedInputStream σ}
    (hc₀ : c₀ = c.makeRoom 32) {s : σ}
    (hread : stream.read c₀.underlying c₀.raw.data.length c₀.raw.count c₀.raw.room =
      .returned none s) :
    readAheadBlockingLoop stream (bound + 1) c =
      .thrown (ioException "Premature EOF") { c₀ with underlying := s, error := true } := by
  subst hc₀
  rw [readAheadBlockingLoop, if_neg hne]
  simp only [hread]

/-- Room in `rawData` keeps the reads within what the stream answers. -/
theorem asks_ensure (hserves : Serves stream I rest asks total)
    (h : Decodes stream I rest asks total c delivered d consumed) {size : Nat}
    (hsize : asks (total.length + size) (total.length + size)) :
    asks (c.raw.ensure 0 size).data.length (c.raw.ensure 0 size).data.length := by
  have hle := c.raw.length_ensure_le 0 size
  have hused := h.raw_le.trans h.consumed_isPrefix.length_le
  rcases Nat.le_total c.raw.data.length (c.raw.used + size) with hcase | hcase
  · rw [Nat.max_eq_right hcase] at hle
    exact hserves.mono hsize (by omega) (by omega)
  · rw [Nat.max_eq_left hcase] at hle
    exact hserves.mono h.asks_raw hle hle

theorem readAheadBlockingLoop_ends (hserves : Serves stream I rest asks total) {bound : Nat}
    (hbound : c.state ≠ .done → (rest c.underlying).length < bound) (hpos : 0 < bound)
    (h : Decodes stream I rest asks total c delivered d consumed) (hchunk : c.chunk.pending = [])
    (hfront : c.chunk.pos = 0) :
    ReadsAhead stream I rest asks total c delivered (readAheadBlockingLoop stream bound c) := by
  induction bound generalizing c d consumed with
  | zero => omega
  | succ bound ih =>
    by_cases hstate : c.state = .done
    · rw [readAheadBlockingLoop, if_pos hstate]
      exact ⟨id, rfl, ⟨d, consumed, h⟩, Or.inl ⟨rfl, hstate, hchunk⟩⟩
    -- room for the bytes of one read
    have hraw : (c.makeRoom 32).raw.pending = c.raw.pending := Window.pending_ensure _ _ _
    have h₀ := h.of_eq (s := c.underlying) c.error rfl hraw
      (asks_ensure hserves h hserves.asks_raw) (Or.inl rfl)
    have hsettled₀ : Settled c → Settled (c.makeRoom 32) := fun hsettled =>
      hsettled.of_eq hraw
    have hroom : 32 ≤ (c.makeRoom 32).raw.room := Window.le_room_ensure _ _ _
    have hfits := (c.makeRoom 32).raw.count_add_room
    have hunder : (c.makeRoom 32).underlying = c.underlying := rfl
    have herror₀ : (c.makeRoom 32).error = c.error := rfl
    have hfront₀ : (c.makeRoom 32).chunk.pos = 0 := hfront
    have hne : (c.makeRoom 32).state ≠ .done := hstate
    obtain ⟨c₀, hc₀⟩ : ∃ c₀, c₀ = c.makeRoom 32 := ⟨_, rfl⟩
    change Decodes stream I rest asks total (c.makeRoom 32) delivered d consumed at h₀
    rw [← hc₀] at h₀ hsettled₀ hroom hfits hunder herror₀ hfront₀ hne
    have hasks := hserves.mono h₀.asks_raw (Nat.le_refl _) (show c₀.raw.room ≤ c₀.raw.data.length by omega)
    rcases read_cases hserves h₀ hne (Nat.lt_of_lt_of_le (by decide) hroom) hfits.le hasks with
      ⟨data, s, hread, hdata, hrest, hs⟩ | ⟨s, hread, hs, hnil, hrest⟩
    · have hprocess := processRead_ends hserves h₀ hne data.2 hs hrest
      cases hp : processRead stream c₀ data.1 data.2 s with
      | thrown e c' =>
        rw [readAheadBlockingLoop_thrown hstate hc₀ hread hp]
        rw [hp] at hprocess
        obtain ⟨hthrows, d', h'⟩ := hprocess
        exact ⟨hthrows.of_start hsettled₀ herror₀, d', _, h'⟩
      | returned c' =>
        rw [readAheadBlockingLoop_returned hstate hc₀ hread hp]
        rw [hp] at hprocess
        obtain ⟨hsettled', herror, hpos', d', h'⟩ := hprocess
        have hfront' : c'.chunk.pos = 0 := Nat.le_zero.mp (hfront₀ ▸ hpos')
        replace herror := herror.trans herror₀
        split_ifs with hcount
        · have hlen : 0 < data.1.length := List.length_pos_iff.mpr hdata
          have hlt : c'.state ≠ .done → (rest c'.underlying).length < bound := by
            intro hstate'
            have htotal := congrArg List.length ((h'.supplied hstate').2.trans (h.supplied hstate).2.symm)
            have hold := hbound hstate
            simp only [List.length_append] at htotal
            omega
          have hbound' : 0 < bound := by
            have hold := hbound hstate
            rw [← hunder, hrest, List.length_append] at hold
            omega
          exact (ih hlt hbound' h' (Window.pending_eq_nil_iff.mpr (hcount ▸ Nat.zero_le _))
            hfront').of_start (fun _ => hsettled') herror
        · refine ⟨fun _ => hsettled', herror, ⟨d', _, h'⟩, Or.inr ⟨rfl, ?_⟩⟩
          unfold Window.used
          omega
    · rw [readAheadBlockingLoop_none hstate hc₀ hread]
      exact ⟨throws_eof h hstate (hunder ▸ hrest) _ rfl, d, consumed,
        h₀.of_eq true rfl rfl h₀.asks_raw (Or.inr ⟨hne, hs, hnil.trans hrest.symm⟩)⟩

/-- `readAhead` with nothing in `chunkData`. -/
theorem readAhead_of_nil (hne : c.state ≠ .done) (hchunk : c.chunk.pending = []) {block : Bool} :
    readAhead stream block c =
      if block then readAheadBlocking stream { c with chunk := c.chunk.clear }
      else readAheadNonBlocking stream { c with chunk := c.chunk.clear } := by
  have hused : c.chunk.used = 0 := by rw [← Window.length_pending, hchunk, List.length_nil]
  unfold readAhead
  simp only [if_neg hne, if_pos hused]

theorem readAhead_ends (hserves : Serves stream I rest asks total)
    (h : Decodes stream I rest asks total c delivered d consumed) (hchunk : c.chunk.pending = []) :
    ReadsAhead stream I rest asks total c delivered (readAhead stream true c) := by
  by_cases hstate : c.state = .done
  · rw [readAhead, if_pos hstate]
    exact ⟨id, rfl, ⟨d, consumed, h⟩, Or.inl ⟨rfl, hstate, hchunk⟩⟩
  · rw [readAhead_of_nil hstate hchunk, if_pos rfl, readAheadBlocking]
    have h₀ := h.of_eq (s := c.underlying) c.error (c.chunk.pending_clear.trans hchunk.symm) rfl
      h.asks_raw (Or.inl rfl)
    exact (readAheadBlockingLoop_ends hserves
      (fun hne => Nat.lt_succ_of_le (hserves.remaining (h₀.supplied hne).1)) (Nat.succ_pos _)
      h₀ rfl rfl).of_start (fun hsettled => hsettled.of_eq rfl) rfl

/-! ## The methods -/

/-- How a read ends: with the end of the body, with some bytes, or with an
exception. -/
def Reads (stream : InputStream σ) (I : σ → Prop) (rest : σ → List UInt8)
    (asks : Nat → Nat → Prop) (total : List UInt8)
    (c : ChunkedInputStream σ) (delivered : List UInt8) :
    Completion (ChunkedInputStream σ) ReadResult → Prop
  | .waits => False
  | .thrown e c' => Throws total c e c' ∧ ∃ d' consumed',
      Decodes stream I rest asks total c' delivered d' consumed'
  | .returned r c' => (Settled c → Settled c') ∧ c'.error = c.error ∧
      (∃ d' consumed', Decodes stream I rest asks total c' (delivered ++ delivers r) d' consumed') ∧
      (r = .endOfMessage ∧ c'.state = .done ∧ c'.chunk.pending = [] ∨ delivers r ≠ [])

theorem Reads.of_start {c₀ : ChunkedInputStream σ}
    {o : Completion (ChunkedInputStream σ) ReadResult}
    (h : Reads stream I rest asks total c₀ delivered o) (hsettled : Settled c → Settled c₀)
    (herror : c₀.error = c.error) : Reads stream I rest asks total c delivered o := by
  cases o with
  | waits => exact h
  | thrown e c' => exact ⟨h.1.of_start hsettled herror, h.2⟩
  | returned r c' => exact ⟨fun hs => h.1 (hsettled hs), h.2.1.trans herror, h.2.2⟩

theorem take_ends (h : Decodes stream I rest asks total c delivered d consumed) {n : Nat} (hn : 0 < n)
    (hle : n ≤ c.chunk.used) : Reads stream I rest asks total c delivered (take n c) := by
  rw [take, dif_pos hle]
  refine ⟨fun hsettled => hsettled, rfl, ⟨d, consumed, ⟨h.atToken.phase, h.atToken.trailers,
    h.atToken.reading⟩, h.ahead, ?_, h.none_ahead, h.settled, h.closed,
    h.raw_le, h.asks_raw, h.supply⟩, Or.inr ?_⟩
  · rw [delivers, Window.pending_advance, List.append_assoc, List.take_append_drop, h.owed]
  · rw [delivers, ← List.length_pos_iff, List.length_take, Window.length_pending]
    omega

/-- Read ahead, and take some of what is there. -/
theorem readAhead_take_ends (hserves : Serves stream I rest asks total)
    (h : Decodes stream I rest asks total c delivered d consumed) (hchunk : c.chunk.pending = [])
    {f : Int → ChunkedInputStream σ → Completion (ChunkedInputStream σ) ReadResult}
    (hend : ∀ c', f (-1) c' = .returned .endOfMessage c')
    (hsome : ∀ c' : ChunkedInputStream σ, 0 < c'.chunk.used →
      ∃ n, 0 < n ∧ n ≤ c'.chunk.used ∧ f c'.chunk.used c' = take n c') :
    Reads stream I rest asks total c delivered
      (match readAhead stream true c with
        | .waits => .waits
        | .thrown e c => .thrown e c
        | .returned avail c => f avail c) := by
  have hends := readAhead_ends hserves h hchunk
  cases ha : readAhead stream true c with
  | waits => rwa [ha] at hends
  | thrown e c' => rwa [ha] at hends
  | returned avail c' =>
    rw [ha] at hends
    obtain ⟨hsettled, herror, ⟨d', consumed', h'⟩, ⟨rfl, hstate, hnil⟩ | ⟨rfl, hused⟩⟩ := hends
    · dsimp only
      rw [hend]
      exact ⟨hsettled, herror, ⟨d', consumed', by rwa [delivers, List.append_nil]⟩,
        Or.inl ⟨rfl, hstate, hnil⟩⟩
    · obtain ⟨n, hn, hle, hf⟩ := hsome c' hused
      dsimp only
      rw [hf]
      exact (take_ends h' hn hle).of_start hsettled herror

theorem read_ends (hserves : Serves stream I rest asks total)
    (h : Decodes stream I rest asks total c delivered d consumed) :
    Reads stream I rest asks total c delivered (c.read stream) := by
  rw [read, ifOpen, h.closed, if_neg Bool.false_ne_true]
  split_ifs with hused
  · refine readAhead_take_ends hserves h
      (List.length_eq_zero_iff.mp ((Window.length_pending _).trans hused)) (fun _ => rfl) ?_
    intro c' hpos
    exact ⟨1, Nat.one_pos, hpos, if_neg (by omega)⟩
  · exact take_ends h Nat.one_pos (Nat.pos_of_ne_zero hused)

/-- How many bytes a fast read asks for. -/
theorem fastRead_some {bLength off len cnt : Nat}
    (hcnt : cnt = if c.chunkSize - c.chunkRead < len then c.chunkSize - c.chunkRead else len)
    (hpos : 0 < cnt) {b : UInt8} {bytes : List UInt8} {hlen : (b :: bytes).length ≤ cnt} {s : σ}
    (hread : stream.read c.underlying bLength off cnt = .returned (some ⟨b :: bytes, hlen⟩) s) :
    c.fastRead stream bLength off len = .returned (.bytes (b :: bytes)) { c with
      underlying := s
      chunkRead := c.chunkRead + (b :: bytes).length
      state := if c.chunkSize ≤ c.chunkRead + (b :: bytes).length then .awaitingChunkEol
        else c.state } := by
  subst hcnt
  unfold fastRead
  simp only [if_pos hpos, hread]

theorem fastRead_none {bLength off len cnt : Nat}
    (hcnt : cnt = if c.chunkSize - c.chunkRead < len then c.chunkSize - c.chunkRead else len)
    (hpos : 0 < cnt) {s : σ} (hread : stream.read c.underlying bLength off cnt = .returned none s) :
    c.fastRead stream bLength off len =
      .thrown (ioException "Premature EOF") { c with underlying := s, error := true } := by
  subst hcnt
  unfold fastRead
  simp only [if_pos hpos, hread]

/-- A fast read takes the bytes of the chunk from the underlying stream. -/
theorem fastRead_ends (hserves : Serves stream I rest asks total)
    (h : Decodes stream I rest asks total c delivered d consumed) (hchunk : c.chunk.pending = [])
    (hreading : c.state = .readingChunk) {bLength off len : Nat} (hlen : 0 < len)
    (hfits : off + len ≤ bLength) (hLength : bLength < 2 ^ 31) :
    Reads stream I rest asks total c delivered (c.fastRead stream bLength off len) := by
  have hleft := h.atToken.reading hreading
  have hne : c.state ≠ .done := by rw [hreading]; decide
  have hraw := h.raw_of_reading hreading
  obtain ⟨cnt, hcnt⟩ : ∃ cnt, cnt = if c.chunkSize - c.chunkRead < len then
    c.chunkSize - c.chunkRead else len := ⟨_, rfl⟩
  have hrange : 0 < cnt ∧ cnt ≤ len ∧ cnt ≤ c.chunkSize - c.chunkRead := by
    split_ifs at hcnt <;> omega
  obtain ⟨hpos, hle, hleChunk⟩ := hrange
  have hdec : d = ⟨.data (c.chunkSize - c.chunkRead), d.trailers⟩ := by
    rw [h.atToken.eq, phase, hreading]
  have hahead : Decoder.after limit {} consumed = d := by
    rw [← h.ahead, ahead, hraw, Decoder.after_nil]
  -- the rest of a chunk of a whole body is in the stream
  have hasks : asks bLength cnt := by
    rcases hserves.ends with hdone | ⟨-, hall⟩
    · obtain ⟨bytes, rfl⟩ := h.consumed_isPrefix
      rw [Decoder.after_append, hahead, hdec] at hdone
      have hle := Decoder.le_length_of_done hdone
      refine hserves.asks_array hLength (hleChunk.trans (hle.trans ?_))
      rw [List.length_append]
      exact Nat.le_add_left _ _
    · exact hall _ _
  have hroom : off + cnt ≤ bLength := by omega
  rcases read_cases hserves h hne hpos hroom hasks with
    ⟨⟨data, hdata⟩, s, hread, hdne, hrest, hs⟩ | ⟨s, hread, hs, hnil, hrest⟩
  · obtain ⟨b, bytes, rfl⟩ := List.exists_cons_of_ne_nil hdne
    rw [fastRead_some hcnt hpos hread]
    obtain ⟨hafter, hout⟩ :=
      Decoder.after_data limit d.trailers (by omega) (hdata.trans hleChunk)
    have hafter' := (congrArg (Decoder.after limit · (b :: bytes)) hdec).trans hafter
    have hout' := (congrArg (Decoder.outputs limit · (b :: bytes)) hdec).trans hout
    have hstate : (if c.chunkSize ≤ c.chunkRead + (b :: bytes).length then State.awaitingChunkEol
        else c.state) = .awaitingChunkEol ∨
        (if c.chunkSize ≤ c.chunkRead + (b :: bytes).length then State.awaitingChunkEol
          else c.state) = .readingChunk := by
      split_ifs
      · exact Or.inl rfl
      · exact Or.inr hreading
    have hgoing : (if c.chunkSize ≤ c.chunkRead + (b :: bytes).length then State.awaitingChunkEol
        else c.state) ≠ .done := by
      rcases hstate with heq | heq <;> rw [heq] <;> decide
    have hsettled : Settled { c with
        underlying := s
        chunkRead := c.chunkRead + (b :: bytes).length
        state := if c.chunkSize ≤ c.chunkRead + (b :: bytes).length then .awaitingChunkEol
          else c.state } := by
      unfold Settled
      rcases hstate with heq | heq
      · simp only [heq, hraw]
        exact Nat.zero_le _
      · simp only [heq, hraw]
    refine ⟨fun _ => hsettled, rfl, ⟨Decoder.after limit d (b :: bytes), consumed ++ b :: bytes,
      ⟨?_, ?_, ?_⟩, ?_, ?_, ?_, Or.inl hsettled, h.closed, ?_,
      h.asks_raw, s, hs, ?_, ?_⟩, Or.inr hdne⟩
    · rw [hafter', phase]
      by_cases hfull : (b :: bytes).length = c.chunkSize - c.chunkRead
      · rw [if_pos hfull]
        dsimp only
        rw [if_pos (by omega)]
      · rw [if_neg hfull]
        dsimp only
        rw [if_neg (by omega), hreading, Nat.sub_sub]
    · rw [hafter']
      exact h.atToken.trailers
    · intro hreading'
      by_contra hfull
      dsimp only at hreading' hfull
      rw [if_pos (Nat.not_lt.mp hfull)] at hreading'
      exact absurd hreading' (by decide)
    · rw [ahead, hraw, Decoder.after_nil, Decoder.after_append, hahead]
    · rw [Decoder.outputs_append, hahead, hout', ← h.owed, delivers]
      simp only [hchunk, List.append_nil]
    · rw [hraw]
      rfl
    · rw [← Window.length_pending, hraw]
      exact Nat.zero_le _
    · rw [List.append_assoc, ← hrest]
      exact (h.supplied hne).2
    · rw [if_neg hgoing]
  · rw [fastRead_none hcnt hpos hread]
    exact ⟨throws_eof h hne hrest _ rfl, d, consumed,
      h.of_eq true rfl rfl h.asks_raw (Or.inr ⟨hne, hs, hnil.trans hrest.symm⟩)⟩

theorem readInto_ends (hserves : Serves stream I rest asks total)
    (h : Decodes stream I rest asks total c delivered d consumed) {bLength : Nat} {off len : Int}
    (hlegal : (Call.readInto bLength off len).Legal) :
    Reads stream I rest asks total c delivered (c.readInto stream bLength off len) := by
  obtain ⟨hoff, hlen, hfits, hLength⟩ := hlegal
  have hint : toInt (off + len) = off + len := by
    rw [toInt_eq (by omega) (by omega)]
  rw [readInto, ifOpen, h.closed, if_neg Bool.false_ne_true, hint, if_neg (by omega),
    if_neg (by omega)]
  split_ifs with hused hreading
  · exact fastRead_ends hserves h
      (List.length_eq_zero_iff.mp ((Window.length_pending _).trans hused)) hreading (by omega)
      (by omega) hLength
  · refine readAhead_take_ends hserves h
      (List.length_eq_zero_iff.mp ((Window.length_pending _).trans hused)) (fun _ => rfl) ?_
    intro c' hpos
    refine ⟨_, ?_, ?_, if_neg (by omega)⟩ <;> split_ifs <;> omega
  all_goals exact take_ends h (by omega) (by omega)

/-- `readAvailable` with room for the bytes. -/
theorem readAvailable_some {avail : Nat} {s : σ} (hroom : avail ≤ c.raw.room)
    {data : { data : List UInt8 // data.length ≤ avail }}
    (hread : stream.read c.underlying c.raw.data.length c.raw.count avail =
      .returned (some data) s) :
    readAvailable stream avail c =
      answered (processRead stream c data.1 (Nat.le_trans data.2 hroom) s) := by
  unfold readAvailable
  simp only [dif_pos hroom, hread]

/-- A sum in the `int` range makes room. -/
theorem ensureRawAvailable_of_lt {size : Nat} (hfits : c.raw.count + size < 2 ^ 31) :
    c.ensureRawAvailable size = c.makeRoom size := by
  have hint : toInt (c.raw.count + size) = c.raw.count + size := toInt_eq (by omega) (by omega)
  rw [ensureRawAvailable, hint, if_neg (by omega)]

/-- On a whole body, `available()` throws nothing and loses nothing where the
sum with `rawCount` is an `int`. -/
theorem available_ends (hserves : Serves stream I rest asks total)
    (hdone : (Decoder.after limit {} total).phase = .done)
    (h : Decodes stream I rest asks total c delivered d consumed) (hint : Fits stream c .available) :
    ∃ n c' d' consumed', c.available stream = .returned n c' ∧
      Decodes stream I rest asks total c' delivered d' consumed' := by
  rw [available, ifOpen, h.closed, if_neg Bool.false_ne_true]
  split_ifs with hused
  swap
  · exact ⟨_, c, d, consumed, rfl, h⟩
  have hchunk : c.chunk.pending = [] :=
    List.length_eq_zero_iff.mp ((Window.length_pending _).trans hused)
  suffices hahead : ∃ n c' d' consumed', readAhead stream false c = .returned n c' ∧
      Decodes stream I rest asks total c' delivered d' consumed' by
    obtain ⟨n, c', d', consumed', hreturned, h'⟩ := hahead
    rw [hreturned]
    exact ⟨_, c', d', consumed', rfl, h'⟩
  by_cases hstate : c.state = .done
  · exact ⟨-1, c, d, consumed, if_pos hstate, h⟩
  rw [readAhead_of_nil hstate hchunk, if_neg Bool.false_ne_true, readAheadNonBlocking]
  have hsum := hint hused hstate
  obtain ⟨hs, hrest⟩ := hserves.available (h.supplied hstate).1
  have hsize := hserves.asks_available (h.supplied hstate).1
  obtain ⟨avail, s, havail⟩ : ∃ avail s, stream.available c.underlying = (avail, s) := ⟨_, _, rfl⟩
  rw [havail] at hs hrest hsize hsum
  dsimp only
  rw [havail]
  obtain ⟨c₁, hc₁⟩ : ∃ c₁ : ChunkedInputStream σ,
    c₁ = { c with chunk := c.chunk.clear, underlying := s } := ⟨_, rfl⟩
  have h₁ : Decodes stream I rest asks total c₁ delivered d consumed := by
    rw [hc₁]
    exact h.of_eq c.error (c.chunk.pending_clear.trans hchunk.symm) rfl h.asks_raw
      (Or.inr ⟨hstate, hs, hrest⟩)
  have hraw₁ : c₁.raw = c.raw := by rw [hc₁]
  have hne₁ : c₁.state ≠ .done := by rwa [hc₁]
  dsimp only
  rw [← hc₁]
  by_cases hpos : 0 < avail
  swap
  · rw [if_neg hpos]
    exact ⟨_, c₁, d, consumed, rfl, h₁⟩
  -- room for what is available
  rw [if_pos hpos, ensureRawAvailable_of_lt (by rw [hraw₁]; exact hsum hpos)]
  have hroom : avail ≤ (c₁.makeRoom avail).raw.room := Window.le_room_ensure _ _ _
  have h₀ : Decodes stream I rest asks total (c₁.makeRoom avail) delivered d consumed :=
    h₁.of_eq c₁.error rfl (Window.pending_ensure _ _ _) (asks_ensure hserves h₁ hsize) (Or.inl rfl)
  have hne : (c₁.makeRoom avail).state ≠ .done := hne₁
  have hfits := (c₁.makeRoom avail).raw.count_add_room
  generalize c₁.makeRoom avail = c₀ at hroom h₀ hne hfits ⊢
  have hend : c₀.raw.count + avail ≤ c₀.raw.data.length := by omega
  rcases read_cases hserves h₀ hne hpos hend (hserves.mono h₀.asks_raw (Nat.le_refl _) (by omega)) with
    ⟨data, s', hread, -, hdata, hs'⟩ | ⟨-, -, -, -, hnil⟩
  · rw [readAvailable_some hroom hread]
    have hprocess := processRead_ends hserves h₀ hne (data.2.trans hroom) hs' hdata
    cases hp : processRead stream c₀ data.1 (data.2.trans hroom) s' with
    | thrown e c' =>
      rw [hp] at hprocess
      exact absurd hdone hprocess.1.not_done
    | returned c' =>
      rw [hp] at hprocess
      obtain ⟨-, -, -, d', h'⟩ := hprocess
      exact ⟨_, c', d', _, rfl, h'⟩
  · have hthrows : Throws total c₀ _ { c₀ with error := true } :=
      throws_eof h₀ hne hnil "Premature EOF" rfl
    exact absurd hdone hthrows.not_done

end ChunkedInputStream

end ConnectionSniffer
