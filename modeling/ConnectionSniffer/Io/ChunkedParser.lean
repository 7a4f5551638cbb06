import ConnectionSniffer.Io.ChunkedInputStream

/-!
# `processRaw` is the decoder

`AtToken c d` relates the parser between two tokens to the plain decoder of
chunked coding.  What waits in `rawData` is then what the decoder reads
next.  `turn_spec` says that one turn of the loop takes a token from it, or
leaves it because no token is complete, or throws where the decoder meets
a fault; `processRaw_spec` says the same of the whole loop.

The error flag is set for each fault but one, a trailer line without a
colon.
-/

namespace ConnectionSniffer

universe u

open ChunkedCoding (CR LF Trailer Phase Fault Decoder)

namespace ChunkedInputStream

/-! ## Bytes and texts -/

/-- The size limit of `parseInt`. -/
abbrev limit : Nat := 2 ^ 31

private theorem forall_byte {P : UInt8 → Prop} (h : ∀ n < 256, P (UInt8.ofNat n)) (b : UInt8) :
    P b := by
  have hb := h b.toNat b.toNat_lt
  rwa [UInt8.ofNat_toNat] at hb

theorem digit16_asciiChar (b : UInt8) : digit16 (asciiChar b) = ChunkedCoding.hexDigit b :=
  forall_byte (P := fun b => digit16 (asciiChar b) = ChunkedCoding.hexDigit b)
    (by decide +kernel) b

theorem asciiChar_beq_colon (b : UInt8) : (asciiChar b == ':') = (b == ChunkedCoding.colon) :=
  forall_byte (P := fun b => (asciiChar b == ':') = (b == ChunkedCoding.colon))
    (by decide +kernel) b

/-- The size that `awaitChunkHeader` finds on a line. -/
theorem parseInt16_header (line : List UInt8) :
    parseInt16 ((usAscii (line ++ [LF])).takeWhile fun ch => (digit16 ch).isSome) =
      ChunkedCoding.sizeOf limit line := by
  have hpred : (fun ch => (digit16 ch).isSome) ∘ asciiChar = ChunkedCoding.isHexDigit := by
    funext b
    exact congrArg Option.isSome (digit16_asciiChar b)
  have hline : (line ++ [LF]).takeWhile ChunkedCoding.isHexDigit =
      line.takeWhile ChunkedCoding.isHexDigit := by
    rw [List.takeWhile_append]
    split
    · next hall =>
      rw [(List.takeWhile_prefix _).eq_of_length hall]
      exact List.append_nil _
    · rfl
  have hvalue : ∀ digits : List UInt8,
      (usAscii digits).foldl (fun n c => n * 16 + (digit16 c).getD 0) 0 =
        ChunkedCoding.hexValue digits := by
    intro digits
    rw [usAscii, List.foldl_map]
    simp only [digit16_asciiChar]
    rfl
  rw [usAscii, List.takeWhile_map, hpred, hline, ← usAscii]
  simp only [parseInt16, ChunkedCoding.sizeOf, hvalue, usAscii_eq_nil]

/-- The colon that `awaitTrailers` finds on a line. -/
theorem idxOf?_trailer (line : List UInt8) :
    (usAscii (line ++ [CR])).idxOf? ':' = line.idxOf? ChunkedCoding.colon := by
  induction line with
  | nil => rfl
  | cons b line ih =>
    rw [List.cons_append, usAscii, List.map_cons, List.idxOf?_cons, List.idxOf?_cons,
      asciiChar_beq_colon, ← usAscii, ih]

/-! ## The parser between two tokens -/

variable {σ : Type u} {stream : InputStream σ}

/-- What the decoder reads next. -/
def phase (c : ChunkedInputStream σ) : Phase :=
  match c.state with
  | .awaitingChunkHeader => .line .size []
  | .readingChunk => .data (c.chunkSize - c.chunkRead)
  | .awaitingChunkEol => .chunkEnd []
  | .awaitingTrailers => .line .trailer []
  | .done => .done

/-- The map that `processRaw` makes of trailer lines. -/
def table (trailers : List Trailer) : HashMap (List Char) (List Char) :=
  trailers.foldl (fun m t => m.put (trim (usAscii t.key)) (trim (usAscii t.value))) []

/-- The decoder `d` stands where the parser stands at `rawPos`. -/
structure AtToken (c : ChunkedInputStream σ) (d : Decoder) : Prop where
  phase : d.phase = c.phase
  trailers : c.trailers = table d.trailers
  reading : c.state = .readingChunk → c.chunkRead < c.chunkSize

/-- No token is complete in `rawData`. -/
def Settled (c : ChunkedInputStream σ) : Prop :=
  match c.state with
  | .awaitingChunkHeader => LF ∉ c.raw.pending
  | .readingChunk => c.raw.pending = []
  | .awaitingChunkEol => c.raw.pending.length ≤ 1
  | .awaitingTrailers => LF ∉ c.raw.pending
  | .done => True

/-- The decoder after the bytes in `rawData`. -/
def ahead (c : ChunkedInputStream σ) (d : Decoder) : Decoder := d.after limit c.raw.pending

/-- The bytes that are decoded but not delivered, counting those that the
decoder takes out of `rawData`. -/
def owed (c : ChunkedInputStream σ) (d : Decoder) : List UInt8 :=
  c.chunk.pending ++ d.outputs limit c.raw.pending

/-- What parsing does not enlarge. -/
structure Shrinks (c c' : ChunkedInputStream σ) : Prop where
  chunkPos : c'.chunk.pos ≤ c.chunk.pos
  rawUsed : c'.raw.used ≤ c.raw.used
  rawLength : c'.raw.data.length = c.raw.data.length

/-- From `c` the parser has got to `c'`, and no byte is lost on the way. -/
structure Parses (c : ChunkedInputStream σ) (d : Decoder) (c' : ChunkedInputStream σ)
    (d' : Decoder) : Prop where
  atToken : AtToken c' d'
  ahead : c'.ahead d' = c.ahead d
  owed : c'.owed d' = c.owed d
  error : c'.error = c.error
  closed : c'.closed = c.closed
  underlying : c'.state ≠ .done → c'.underlying = c.underlying
  shrinks : Shrinks c c'

variable {c c' c'' : ChunkedInputStream σ} {d d' d'' : Decoder}

theorem Shrinks.refl (c : ChunkedInputStream σ) : Shrinks c c := ⟨Nat.le_refl _, Nat.le_refl _, rfl⟩

theorem Shrinks.trans (h : Shrinks c c') (h' : Shrinks c' c'') : Shrinks c c'' :=
  ⟨h'.chunkPos.trans h.chunkPos, h'.rawUsed.trans h.rawUsed, h'.rawLength.trans h.rawLength⟩

/-- Bytes are taken out of `rawData`. -/
theorem Shrinks.advance {n : Nat} (hn : n ≤ c.raw.used) (hraw : c'.raw = c.raw.advance n hn)
    (hchunk : c'.chunk.pos ≤ c.chunk.pos) : Shrinks c c' where
  chunkPos := hchunk
  rawUsed := by
    rw [hraw, ← Window.length_pending, ← Window.length_pending, Window.pending_advance,
      List.length_drop]
    exact Nat.sub_le _ _
  rawLength := by rw [hraw, Window.length_advance]

theorem Parses.refl (h : AtToken c d) : Parses c d c d :=
  ⟨h, rfl, rfl, rfl, rfl, fun _ => rfl, .refl c⟩

/-- Between two tokens, the parser and the decoder are in the same phase. -/
theorem AtToken.eq (h : AtToken c d) : d = ⟨c.phase, d.trailers⟩ := by
  rw [← h.phase]

/-- A line in `rawData`, or none. -/
theorem lineLength_spec (c : ChunkedInputStream σ) :
    (c.lineLength + 1 ≤ c.raw.used → ∃ line rest, c.raw.pending = line ++ [LF] ++ rest ∧
      LF ∉ line ∧ line.length = c.lineLength) ∧
    (¬ c.lineLength + 1 ≤ c.raw.used → LF ∉ c.raw.pending) := by
  rw [← c.raw.length_pending]
  constructor
  · intro hlt
    have hget := List.findIdx_getElem (w := hlt)
    refine ⟨c.raw.pending.take c.lineLength, c.raw.pending.drop (c.lineLength + 1), ?_, ?_, ?_⟩
    · rw [← eq_of_beq hget, List.append_assoc, List.singleton_append]
      exact (List.take_append_drop _ _).symm.trans (by rw [List.drop_eq_getElem_cons hlt]; rfl)
    · intro hmem
      obtain ⟨i, hi, heq⟩ := List.mem_iff_getElem.mp hmem
      rw [List.length_take] at hi
      rw [List.getElem_take] at heq
      have hnot := List.not_of_lt_findIdx
        (show i < c.raw.pending.findIdx (· == LF) from show i < c.lineLength by omega)
      rw [heq] at hnot
      exact absurd hnot (by decide)
    · exact List.length_take_of_le (by omega)
  · intro hge hmem
    have hlt := List.findIdx_lt_length_of_exists (p := (· == LF)) ⟨_, hmem, by decide⟩
    exact hge hlt

/-! ## One turn -/

/-- The error flag after a fault. -/
def noted (c : ChunkedInputStream σ) (fault : Fault) : ChunkedInputStream σ :=
  { c with error := c.error || decide (fault ≠ .colon) }

/-- How a turn ends: with a token taken, with none complete, or at a fault. -/
def Ends (stream : InputStream σ) (c : ChunkedInputStream σ) (d : Decoder) : Turn σ → Prop
  | .goesOn c' => c'.raw.used < c.raw.used ∧ c'.state ≠ .done ∧ ∃ d', Parses c d c' d'
  | .leaves c' => Settled c' ∧ ∃ d', Parses c d c' d' ∧
      (c'.state = .done → c.state = .done ∨ stream.close c.underlying = .returned c'.underlying)
  | .throws e c' => ∃ (message : String) (fault : Fault), e = ioException message ∧
      c' = c.noted fault ∧ (c.ahead d).phase = .failed fault ∧ d.outputs limit c.raw.pending = []

theorem ends_fails {message : String} (fault : Fault) (hfault : fault ≠ .colon)
    (hphase : (c.ahead d).phase = .failed fault) (hout : d.outputs limit c.raw.pending = []) :
    Ends stream c d (fails message c) := by
  refine ⟨message, fault, rfl, ?_, hphase, hout⟩
  simp [noted, hfault]

/-- After a line, the decoder goes on behind it. -/
theorem ahead_of_line {kind : ChunkedCoding.LineKind} (hd : AtToken c d)
    (hphase : c.phase = .line kind []) {line rest : List UInt8}
    (hpending : c.raw.pending = line ++ [LF] ++ rest) (hlf : LF ∉ line) :
    c.ahead d =
        (Decoder.endLine limit ⟨.line kind line, d.trailers⟩ kind line).after limit rest ∧
      d.outputs limit c.raw.pending =
        (Decoder.endLine limit ⟨.line kind line, d.trailers⟩ kind line).outputs limit rest := by
  have hline := Decoder.after_wholeLine limit d.trailers kind hlf
  have hout := Decoder.outputs_wholeLine limit d.trailers kind hlf
  rw [hd.eq, hphase, ahead, hpending]
  constructor
  · rw [Decoder.after_append, ← hline]
  · rw [Decoder.outputs_append, ← hline]
    exact (congrArg (· ++ _) hout)

theorem ends_awaitChunkHeader (hd : AtToken c d) (hstate : c.state = .awaitingChunkHeader) :
    Ends stream c d c.awaitChunkHeader := by
  have hphase : c.phase = .line .size [] := by rw [phase, hstate]
  unfold awaitChunkHeader
  split
  · next h =>
    obtain ⟨line, rest, hpending, hlf, hlen⟩ := c.lineLength_spec.1 h
    obtain ⟨hahead, hout⟩ := ahead_of_line hd hphase hpending hlf
    have htake : c.raw.pending.take (c.lineLength + 1) = line ++ [LF] := by
      rw [hpending]
      exact List.take_left' (by simp [hlen])
    have hdrop : c.raw.pending.drop (c.lineLength + 1) = rest := by
      rw [hpending]
      exact List.drop_left' (by simp [hlen])
    simp only [htake, parseInt16_header]
    cases hsize : ChunkedCoding.sizeOf limit line with
    | none =>
      have hend : Decoder.endLine limit ⟨.line .size line, d.trailers⟩ .size line =
          ⟨.failed .size, d.trailers⟩ := by
        rw [Decoder.endLine, Decoder.endSize, hsize]
      rw [hend] at hahead hout
      refine ends_fails .size (by decide) ?_ (hout.trans Decoder.outputs_failed)
      rw [hahead, Decoder.after_failed]
    | some n =>
      have hend : Decoder.endLine limit ⟨.line .size line, d.trailers⟩ .size line =
          ⟨if 0 < n then .data n else .line .trailer [], d.trailers⟩ := by
        rw [Decoder.endLine, Decoder.endSize, hsize]
        cases n <;> rfl
      rw [hend] at hahead hout
      refine ⟨?_, by split_ifs <;> simp, ⟨if 0 < n then .data n else .line .trailer [], d.trailers⟩,
        ⟨?_, hd.trailers, ?_⟩, ?_, ?_, rfl, rfl, fun _ => rfl, .advance h rfl (Nat.le_refl _)⟩
      · rw [← Window.length_pending, Window.pending_advance, hdrop, ← Window.length_pending, hpending]
        simp only [List.length_append, List.length_singleton]
        omega
      · unfold phase
        by_cases hn : 0 < n <;> simp [hn]
      · intro hreading
        by_contra hn
        simp [show ¬ 0 < n by simpa using hn] at hreading
      · rw [hahead, ahead]
        simp only [Window.pending_advance, hdrop]
      · rw [owed, owed, hout]
        simp only [Window.pending_advance, hdrop]
  · next h =>
    refine ⟨?_, d, .refl hd, fun hdone => absurd hdone (by simp [hstate])⟩
    unfold Settled
    rw [hstate]
    exact c.lineLength_spec.2 h

theorem ends_readChunk (hd : AtToken c d) (hstate : c.state = .readingChunk) :
    Ends stream c d c.readChunk := by
  have hphase : c.phase = .data (c.chunkSize - c.chunkRead) := by rw [phase, hstate]
  have hread := hd.reading hstate
  unfold readChunk
  split_ifs with hnil hfull
  · refine ⟨?_, d, .refl hd, fun hdone => absurd hdone (by simp [hstate])⟩
    unfold Settled
    rw [hstate]
    rwa [← List.length_eq_zero_iff, Window.length_pending]
  all_goals
    set copyLen := min (c.chunkSize - c.chunkRead) c.raw.used with hcopy
    have hlen : (c.raw.pending.take copyLen).length = copyLen := by
      rw [List.length_take, Window.length_pending]
      omega
    have hfits : (c.raw.pending.take copyLen).length ≤ c.chunkSize - c.chunkRead := by omega
    obtain ⟨hafter, hout⟩ := Decoder.after_data limit d.trailers (by omega) hfits
    rw [hlen] at hafter
    have hsplit : c.raw.pending = c.raw.pending.take copyLen ++ c.raw.pending.drop copyLen :=
      (List.take_append_drop _ _).symm
    have hraw : c.copyChunk.raw.pending = c.raw.pending.drop copyLen := by
      rw [copyChunk, Window.pending_advance]
    have hchunk : c.copyChunk.chunk.pending = c.chunk.pending ++ c.raw.pending.take copyLen := by
      rw [copyChunk, Window.pending_append, Window.pending_ensure]
    have hpos : c.copyChunk.chunk.pos ≤ c.chunk.pos := Window.pos_ensure_le _ _ _
    have hcount : c.copyChunk.chunkRead = c.chunkRead + copyLen := rfl
    have hsize : c.copyChunk.chunkSize = c.chunkSize := rfl
    rw [hcount, hsize] at hfull
    have hahead : c.ahead d = Decoder.after limit
        ⟨if copyLen = c.chunkSize - c.chunkRead then .chunkEnd []
          else .data (c.chunkSize - c.chunkRead - copyLen), d.trailers⟩ c.copyChunk.raw.pending := by
      rw [hd.eq, hphase, ahead, hsplit, Decoder.after_append, hafter, hraw]
    have howed : c.owed d = c.copyChunk.chunk.pending ++ Decoder.outputs limit
        ⟨if copyLen = c.chunkSize - c.chunkRead then .chunkEnd []
          else .data (c.chunkSize - c.chunkRead - copyLen), d.trailers⟩ c.copyChunk.raw.pending := by
      conv_lhs =>
        rw [hd.eq, hphase, owed, hsplit, Decoder.outputs_append, hafter, hout, ← List.append_assoc,
          ← hchunk, ← hraw]
  · rw [if_pos (by omega)] at hahead howed
    refine ⟨?_, nofun, ⟨.chunkEnd [], d.trailers⟩, ⟨rfl, hd.trailers, nofun⟩, hahead.symm,
      howed.symm, rfl, rfl, fun _ => rfl, .advance (Nat.min_le_right _ _) rfl hpos⟩
    rw [← Window.length_pending, ← Window.length_pending]
    show c.copyChunk.raw.pending.length < _
    rw [hraw, List.length_drop, Window.length_pending]
    omega
  · rw [if_neg (by omega)] at hahead howed
    refine ⟨?_, ⟨.data (c.chunkSize - c.chunkRead - copyLen), d.trailers⟩,
      ⟨⟨?_, hd.trailers, fun _ => ?_⟩, hahead.symm, howed.symm, rfl, rfl, fun _ => rfl,
        .advance (Nat.min_le_right _ _) rfl hpos⟩,
      fun hdone => absurd hdone (by simp [copyChunk, hstate])⟩
    · have hsettled : c.copyChunk.raw.pending = [] := by
        rw [hraw, List.drop_eq_nil_iff, Window.length_pending]
        omega
      unfold Settled
      rwa [show c.copyChunk.state = .readingChunk from hstate]
    · rw [phase, show c.copyChunk.state = .readingChunk from hstate, hcount, hsize, Nat.sub_sub]
    · rw [hcount, hsize]
      omega

theorem ends_awaitChunkEol (hd : AtToken c d) (hstate : c.state = .awaitingChunkEol) :
    Ends stream c d c.awaitChunkEol := by
  have hphase : c.phase = .chunkEnd [] := by rw [phase, hstate]
  unfold awaitChunkEol
  split
  · next h =>
    obtain ⟨a, b, rest, hpending⟩ : ∃ a b rest, c.raw.pending = a :: b :: rest := by
      rw [← Window.length_pending] at h
      match hp : c.raw.pending, h with
      | a :: b :: rest, _ => exact ⟨a, b, rest, rfl⟩
    have hdec : d = ⟨.chunkEnd [], d.trailers⟩ := by rw [hd.eq, hphase]
    have hahead : c.ahead d = Decoder.after limit
        ⟨if a = CR ∧ b = LF then .line .size [] else .failed .chunkEnd, d.trailers⟩ rest := by
      rw [hdec, ahead, hpending]
      rfl
    have hout : d.outputs limit c.raw.pending = Decoder.outputs limit
        ⟨if a = CR ∧ b = LF then .line .size [] else .failed .chunkEnd, d.trailers⟩ rest := by
      rw [hdec, hpending]
      rfl
    simp only [hpending, List.getElem?_cons_zero, List.getElem?_cons_succ, ne_eq, Option.some.injEq]
    by_cases hcrlf : a = CR ∧ b = LF
    · obtain ⟨rfl, rfl⟩ := hcrlf
      rw [if_pos ⟨rfl, rfl⟩] at hahead hout
      rw [if_neg (by simp), if_neg (by simp)]
      have hdrop : c.raw.pending.drop 2 = rest := by rw [hpending]; rfl
      refine ⟨?_, nofun, ⟨.line .size [], d.trailers⟩, ⟨rfl, hd.trailers, nofun⟩, ?_, ?_, rfl, rfl,
        fun _ => rfl, .advance h rfl (Nat.le_refl _)⟩
      · rw [← Window.length_pending, Window.pending_advance, hdrop, ← Window.length_pending, hpending]
        simp only [List.length_cons]
        omega
      · rw [hahead, ahead]
        simp only [Window.pending_advance, hdrop]
      · rw [owed, owed, hout]
        simp only [Window.pending_advance, hdrop]
    · rw [if_neg hcrlf] at hahead hout
      have hfails : ∀ message, Ends stream c d (fails message c) := fun message =>
        ends_fails .chunkEnd (by decide) (by rw [hahead, Decoder.after_failed])
          (hout.trans Decoder.outputs_failed)
      by_cases ha : a = CR
      · rw [if_neg (by simp [ha]), if_pos fun hb => hcrlf ⟨ha, hb⟩]
        exact hfails _
      · rw [if_pos ha]
        exact hfails _
  · next h =>
    refine ⟨?_, d, .refl hd, fun hdone => absurd hdone (by simp [hstate])⟩
    unfold Settled
    rw [hstate]
    show c.raw.pending.length ≤ 1
    rw [Window.length_pending]
    omega

/-- A trailer line enters the map. -/
theorem table_concat (trailers : List Trailer) (trailer : Trailer) :
    table (trailers ++ [trailer]) =
      (table trailers).put (trim (usAscii trailer.key)) (trim (usAscii trailer.value)) :=
  List.foldl_concat ..

theorem ends_awaitTrailers (hd : AtToken c d) (hstate : c.state = .awaitingTrailers)
    (hclose : (c.ahead d).phase = .done → ∃ s, stream.close c.underlying = .returned s) :
    Ends stream c d (c.awaitTrailers stream) := by
  have hphase : c.phase = .line .trailer [] := by rw [phase, hstate]
  unfold awaitTrailers
  split
  · next h =>
    obtain ⟨line, rest, hpending, hlf, hlen⟩ := c.lineLength_spec.1 h
    obtain ⟨hahead, hout⟩ := ahead_of_line hd hphase hpending hlf
    have htake : c.raw.pending.take c.lineLength = line := by
      rw [hpending, List.append_assoc]
      exact List.take_left' hlen
    have hdrop : c.raw.pending.drop (c.lineLength + 1) = rest := by
      rw [hpending]
      exact List.drop_left' (by simp [hlen])
    have hlast : c.lineLength ≠ 0 → c.raw.pending[c.lineLength - 1]? = line.getLast? := by
      intro hne
      rw [List.getLast?_eq_getElem?, hpending, List.append_assoc,
        List.getElem?_append_left (by omega), hlen]
    have hbad : line.getLast? ≠ some CR → Ends stream c d (fails "LF should be proceeded by CR" c) := by
      intro hcr
      rw [Decoder.endLine, Decoder.endTrailer_of_ne hcr] at hahead hout
      exact ends_fails .lineEnd (by decide) (by rw [hahead, Decoder.after_failed])
        (hout.trans Decoder.outputs_failed)
    rw [htake]
    split_ifs with hzero hcr hone
    · refine hbad ?_
      rw [List.length_eq_zero_iff.mp (hlen.trans hzero)]
      exact Option.some_ne_none _ ∘ Eq.symm
    · exact hbad fun hcr' => hcr ((hlast hzero).trans hcr')
    all_goals
      obtain ⟨text, rfl⟩ : ∃ text, line = text ++ [CR] :=
        ⟨line.dropLast, (List.dropLast_append_getLast? CR
          ((hlast hzero).symm.trans (not_not.mp hcr))).symm⟩
      rw [List.length_append, List.length_singleton] at hlen
    · -- the empty line ends the body
      obtain rfl : text = [] := List.length_eq_zero_iff.mp (by omega)
      rw [Decoder.endLine, List.nil_append] at hahead hout
      have hdone : c.ahead d = ⟨.done, d.trailers⟩ := hahead.trans Decoder.after_done
      have hnone : d.outputs limit c.raw.pending = [] := hout.trans Decoder.outputs_done
      obtain ⟨s, hs⟩ := hclose (by rw [hdone])
      simp only [closeUnderlying, hs, Outcome.map_returned]
      refine ⟨trivial, ⟨.done, d.trailers⟩, ⟨⟨rfl, hd.trailers, fun h => absurd h (by simp)⟩, ?_, ?_, rfl, rfl,
        fun hne => absurd rfl hne, ⟨Nat.le_refl _, Nat.le_refl _, rfl⟩⟩, fun _ => Or.inr hs⟩
      · rw [hdone, ahead, Decoder.after_done]
      · rw [owed, owed, hnone, Decoder.outputs_done]
    · have hne : text ≠ [] := by
        rw [Ne, ← List.length_eq_zero_iff]
        omega
      rw [Decoder.endLine] at hahead hout
      have hend := Decoder.endTrailer_concat
        (d := ⟨.line .trailer (text ++ [CR]), d.trailers⟩) hne
      simp only [idxOf?_trailer]
      cases hcolon : text.idxOf? ChunkedCoding.colon with
      | none =>
        rw [hcolon] at hend
        refine ⟨_, .colon, rfl, ?_, ?_, ?_⟩
        · simp [noted]
        · rw [hahead, show Decoder.endTrailer _ (text ++ [CR]) = _ from hend, Decoder.after_failed]
        · rw [hout, show Decoder.endTrailer _ (text ++ [CR]) = _ from hend, Decoder.outputs_failed]
      | some i =>
        rw [hcolon] at hend
        obtain ⟨hi, -⟩ := List.idxOf?_eq_some_iff.mp hcolon
        have hkey : (usAscii (text ++ [CR])).take i = usAscii (text.take i) := by
          rw [usAscii_append, List.take_append_of_le_length (by rw [usAscii, List.length_map]; omega),
            usAscii, usAscii, List.map_take]
        have hvalue : trim ((usAscii (text ++ [CR])).drop (i + 1)) =
            trim (usAscii (text.drop (i + 1))) := by
          rw [usAscii_append, List.drop_append_of_le_length (by rw [usAscii, List.length_map]; omega)]
          exact (trim_concat_cr _).trans (by rw [usAscii, usAscii, List.map_drop])
        refine ⟨?_, by simp [hstate],
          ⟨.line .trailer [], d.trailers ++ [⟨text.take i, text.drop (i + 1)⟩]⟩,
          ⟨by rw [phase, hstate], ?_, fun hreading => absurd hreading (by simp [hstate])⟩,
          ?_, ?_, rfl, rfl, fun _ => rfl, .advance h rfl (Nat.le_refl _)⟩
        · rw [← Window.length_pending, Window.pending_advance, hdrop, ← Window.length_pending, hpending]
          simp only [List.length_append, List.length_singleton]
          omega
        · rw [table_concat, hd.trailers, hkey, hvalue]
        · rw [hahead, ahead, show Decoder.endTrailer _ (text ++ [CR]) = _ from hend]
          simp only [Window.pending_advance, hdrop]
        · rw [owed, owed, hout, show Decoder.endTrailer _ (text ++ [CR]) = _ from hend]
          simp only [Window.pending_advance, hdrop]
  · next h =>
    refine ⟨?_, d, .refl hd, fun hdone => absurd hdone (by simp [hstate])⟩
    unfold Settled
    rw [hstate]
    exact c.lineLength_spec.2 h

/-- One turn of the loop. -/
theorem turn_spec (hd : AtToken c d)
    (hclose : (c.ahead d).phase = .done → ∃ s, stream.close c.underlying = .returned s) :
    Ends stream c d (c.turn stream) := by
  unfold turn
  cases hstate : c.state with
  | awaitingChunkHeader => exact ends_awaitChunkHeader hd hstate
  | readingChunk => exact ends_readChunk hd hstate
  | awaitingChunkEol => exact ends_awaitChunkEol hd hstate
  | awaitingTrailers => exact ends_awaitTrailers hd hstate hclose
  | done =>
    refine ⟨?_, d, .refl hd, fun _ => Or.inl hstate⟩
    unfold Settled
    rw [hstate]
    trivial

/-! ## The loop -/

theorem Parses.trans (h : Parses c d c' d') (h' : Parses c' d' c'' d'') (hne : c'.state ≠ .done) :
    Parses c d c'' d'' where
  atToken := h'.atToken
  ahead := h'.ahead.trans h.ahead
  owed := h'.owed.trans h.owed
  error := h'.error.trans h.error
  closed := h'.closed.trans h.closed
  underlying hne' := (h'.underlying hne').trans (h.underlying hne)
  shrinks := h.shrinks.trans h'.shrinks

/-- The parser has stopped at a fault, and noted it. -/
structure Stops (c : ChunkedInputStream σ) (d : Decoder) (e : StreamError)
    (c' : ChunkedInputStream σ) : Prop where
  thrown : ∃ message, e = ioException message
  stops : ∃ (at_ : ChunkedInputStream σ) (d' : Decoder) (fault : Fault), Parses c d at_ d' ∧
    c' = at_.noted fault ∧ (at_.ahead d').phase = .failed fault ∧
      d'.outputs limit at_.raw.pending = []

/-- The parser has taken all complete tokens.  At the end of the body it has
closed the underlying stream. -/
def Settles (stream : InputStream σ) (c : ChunkedInputStream σ) (d : Decoder)
    (c' : ChunkedInputStream σ) : Prop :=
  Settled c' ∧ ∃ d', Parses c d c' d' ∧
    (c'.state = .done → c.state = .done ∨ stream.close c.underlying = .returned c'.underlying)

theorem processRawLoop_ends {bound : Nat} (hbound : c.raw.used < bound) (hd : AtToken c d)
    (hclose : (c.ahead d).phase = .done → ∃ s, stream.close c.underlying = .returned s) :
    (processRawLoop stream bound c).Ends (Settles stream c d) (Stops c d) := by
  induction bound generalizing c d with
  | zero => omega
  | succ bound ih =>
    have hturn := turn_spec hd hclose
    unfold processRawLoop
    cases ht : c.turn stream with
    | leaves c' =>
      rw [ht] at hturn
      exact hturn
    | throws e c' =>
      rw [ht] at hturn
      obtain ⟨message, fault, he, hc', hphase, hout⟩ := hturn
      exact ⟨⟨message, he⟩, c, d, fault, .refl hd, hc', hphase, hout⟩
    | goesOn c' =>
      rw [ht] at hturn
      obtain ⟨hlt, hne, d', hparses⟩ := hturn
      refine (ih (by omega) hparses.atToken ?_).mono ?_ ?_
      · rw [hparses.ahead, hparses.underlying hne]
        exact hclose
      · rintro c'' ⟨hsettled, d'', hparses', hdone⟩
        refine ⟨hsettled, d'', hparses.trans hparses' hne, fun hdone' => Or.inr ?_⟩
        rw [← hparses.underlying hne]
        exact (hdone hdone').resolve_left hne
      · rintro e c'' ⟨hthrown, at_, d'', fault, hparses', hrest⟩
        exact ⟨hthrown, at_, d'', fault, hparses.trans hparses' hne, hrest⟩

/-- `processRaw` takes all complete tokens, or stops at the first fault. -/
theorem processRaw_ends (hd : AtToken c d)
    (hclose : (c.ahead d).phase = .done → ∃ s, stream.close c.underlying = .returned s) :
    (processRaw stream c).Ends (Settles stream c d) (Stops c d) :=
  processRawLoop_ends (Nat.lt_succ_self _) hd hclose

/-- The phase of a settled parser tells whether the body has ended. -/
theorem Settled.ahead_phase (h : Settled c) (hd : AtToken c d) :
    ((c.ahead d).phase = .done ↔ c.state = .done) ∧ (∀ fault, (c.ahead d).phase ≠ .failed fault) ∧
      d.outputs limit c.raw.pending = [] := by
  unfold Settled at h
  rw [ahead, hd.eq, phase]
  cases hstate : c.state with
  | awaitingChunkHeader =>
    rw [hstate] at h
    dsimp only
    rw [Decoder.after_line h, Decoder.outputs_line h]
    simp
  | awaitingTrailers =>
    rw [hstate] at h
    dsimp only
    rw [Decoder.after_line h, Decoder.outputs_line h]
    simp
  | readingChunk =>
    rw [hstate] at h
    dsimp only
    rw [show c.raw.pending = [] from h]
    simp
  | awaitingChunkEol =>
    rw [hstate] at h
    dsimp only at h ⊢
    match hp : c.raw.pending, h with
    | [], _ => simp
    | [b], _ => exact ⟨by simp [Decoder.after_cons, Decoder.step], by simp [Decoder.after_cons, Decoder.step], rfl⟩
  | done =>
    dsimp only
    rw [Decoder.after_done, Decoder.outputs_done]
    simp

end ChunkedInputStream

end ConnectionSniffer
