import ConnectionSniffer.Io.ChunkedReading
import Mathlib.Algebra.Group.Nat.Defs

/-!
# Chunked bodies that are read call by call

The runs of a `ChunkedInputStream`: any calls, one after the other, on a
stream that splits its bytes in any way.

* On a whole body no call throws, the bytes delivered are the chunks in
  order, and `-1` comes exactly behind them.  This is so as long as
  `rawCount` and what `in.available()` says add up to an `int`
  (`Fits`); where the sum wraps around, `available()` throws.
* On bytes that start with no whole body no read returns `-1`, and a read
  that throws has set the error flag.  The one exception is a trailer line
  without a colon, for which `processRaw` throws without setting it.
-/

namespace ConnectionSniffer

universe u

open ChunkedCoding (LF Trailer Body Phase Fault Decoder Uncoloned)

namespace ChunkedInputStream

variable {σ : Type u} {stream : InputStream σ} {I : σ → Prop} {rest : σ → List UInt8}
variable {asks : Nat → Nat → Prop}
variable {total delivered consumed : List UInt8} {c c' : ChunkedInputStream σ} {d : Decoder}

/-! ## What the invariant says of a run -/

/-- The decoder is somewhere in the bytes of the stream. -/
def Decoding (stream : InputStream σ) (I : σ → Prop) (rest : σ → List UInt8)
    (asks : Nat → Nat → Prop) (total delivered : List UInt8) (c : ChunkedInputStream σ) : Prop :=
  ∃ d consumed, Decodes stream I rest asks total c delivered d consumed

theorem decoding_create {s : σ} (hserves : Serves stream I rest asks (rest s)) (hs : I s) :
    Decoding stream I rest asks (rest s) [] (create s) :=
  ⟨{}, [], decodes_create hs
    (hserves.mono hserves.asks_raw (Nat.le_add_left _ _) (Nat.le_add_left _ _))⟩

theorem serves_splitStream (bytes : List UInt8) :
    Serves SplitStream.inputStream (fun _ => True) SplitStream.rest (fun _ _ => True) bytes where
  toSupplies := SplitStream.supplies
  ends := Or.inr ⟨SplitStream.isFinite, fun _ _ => trivial⟩
  mono _ _ _ := trivial
  asks_raw := trivial
  asks_available _ := trivial
  asks_array _ _ := trivial

namespace Decoding

theorem delivered_isPrefix (h : Decoding stream I rest asks total delivered c) :
    delivered <+: Decoder.outputs limit {} total := by
  obtain ⟨d, consumed, h⟩ := h
  obtain ⟨bytes, rfl⟩ := h.consumed_isPrefix
  rw [Decoder.outputs_append, ← h.owed, List.append_assoc]
  exact List.prefix_append _ _

/-- At the end, the decoder has stopped for good. -/
theorem of_done (h : Decoding stream I rest asks total delivered c) (hstate : c.state = .done) :
    (Decoder.after limit {} total).phase = .done ∧
      c.trailers = table (Decoder.after limit {} total).trailers ∧
      delivered ++ c.chunk.pending = Decoder.outputs limit {} total := by
  obtain ⟨d, consumed, h⟩ := h
  have hd : d = ⟨.done, d.trailers⟩ := by rw [h.atToken.eq, phase, hstate]
  have hconsumed : Decoder.after limit {} consumed = d := by
    rw [← h.ahead, ahead, hd, Decoder.after_done]
  obtain ⟨bytes, rfl⟩ := h.consumed_isPrefix
  have htotal : Decoder.after limit {} (consumed ++ bytes) = d := by
    rw [Decoder.after_append, hconsumed, hd, Decoder.after_done]
  rw [htotal]
  refine ⟨congrArg Decoder.phase hd, h.atToken.trailers, ?_⟩
  rw [Decoder.outputs_append, hconsumed, hd, Decoder.outputs_done, List.append_nil, h.owed]

end Decoding

/-! ## One call -/

/-- How a call of a read ends. -/
def Answers (stream : InputStream σ) (I : σ → Prop) (rest : σ → List UInt8)
    (asks : Nat → Nat → Prop) (total delivered : List UInt8) (c : ChunkedInputStream σ) :
    Completion (ChunkedInputStream σ) Answer → Prop
  | .waits => False
  | .thrown e c' => Throws total c e c' ∧ Decoding stream I rest asks total delivered c'
  | .returned answer c' => (Settled c → Settled c') ∧ c'.error = c.error ∧
      Decoding stream I rest asks total (delivered ++ answer.bytes) c' ∧
      (answer = .result .endOfMessage ∧ c'.state = .done ∧ c'.chunk.pending = [] ∨
        answer.bytes ≠ [])

theorem Reads.answers {o : Completion (ChunkedInputStream σ) DynamicByteArrayInputStream.ReadResult}
    (h : Reads stream I rest asks total c delivered o) :
    Answers stream I rest asks total delivered c (answer .result o) := by
  cases o with
  | waits => exact h
  | thrown e c' => exact h
  | returned r c' =>
    obtain ⟨hsettled, herror, hdecodes, ⟨rfl, hend⟩ | hbytes⟩ := h
    · exact ⟨hsettled, herror, hdecodes, Or.inl ⟨rfl, hend⟩⟩
    · exact ⟨hsettled, herror, hdecodes, Or.inr hbytes⟩

theorem invoke_answers (hserves : Serves stream I rest asks total)
    (h : Decoding stream I rest asks total delivered c) {call : Call} (hread : call.isRead = true)
    (hlegal : call.Legal) : Answers stream I rest asks total delivered c (c.invoke stream call) := by
  obtain ⟨d, consumed, h⟩ := h
  cases call with
  | read => exact (read_ends hserves h).answers
  | readInto bLength off len => exact (readInto_ends hserves h hlegal).answers
  | available => exact absurd hread Bool.false_ne_true

/-- A call on a whole body. -/
theorem invoke_body (hserves : Serves stream I rest asks total)
    (hdone : (Decoder.after limit {} total).phase = .done)
    (h : Decoding stream I rest asks total delivered c) {call : Call} (hlegal : call.Legal)
    (hfits : Fits stream c call) :
    ∃ answer c', c.invoke stream call = .returned answer c' ∧
      Decoding stream I rest asks total (delivered ++ answer.bytes) c' ∧
      (call.isRead = true → answer = .result .endOfMessage ∧ c'.state = .done ∧ c'.chunk.pending = [] ∨
        answer.bytes ≠ []) := by
  cases hread : call.isRead with
  | true =>
    have hanswers := invoke_answers hserves h hread hlegal
    cases ho : c.invoke stream call with
    | waits =>
      rw [ho] at hanswers
      exact hanswers.elim
    | thrown e c' =>
      rw [ho] at hanswers
      exact absurd hdone hanswers.1.not_done
    | returned answer c' =>
      rw [ho] at hanswers
      obtain ⟨-, -, hdecoding, hend⟩ := hanswers
      exact ⟨answer, c', rfl, hdecoding, fun _ => hend⟩
  | false =>
    cases call with
    | read => exact absurd hread (by simp [Call.isRead])
    | readInto bLength off len => exact absurd hread (by simp [Call.isRead])
    | available =>
      obtain ⟨d, consumed, h⟩ := h
      obtain ⟨n, c', d', consumed', hreturned, h'⟩ := available_ends hserves hdone h hfits
      refine ⟨.count n, c', ?_, ⟨d', consumed', ?_⟩, fun hfalse => absurd hfalse Bool.false_ne_true⟩
      · rw [invoke, hreturned]
        rfl
      · rwa [Answer.bytes, List.append_nil]

/-! ## Runs over a whole body -/

theorem run_body (hserves : Serves stream I rest asks total)
    (hdone : (Decoder.after limit {} total).phase = .done)
    (h : Decoding stream I rest asks total delivered c) {calls : List Call}
    (hlegal : ∀ call ∈ calls, call.Legal) (hfits : Run.Along (next stream) (Fits stream) c calls) :
    Decoding stream I rest asks total (delivered ++ Run.outputs (next stream) (gives stream) c calls)
      (Run.after (next stream) c calls) := by
  induction calls generalizing c delivered with
  | nil => rwa [Run.outputs_nil, List.append_nil]
  | cons call calls ih =>
    obtain ⟨hfit, hfits⟩ := hfits
    obtain ⟨answer, c', hreturned, h', -⟩ := invoke_body hserves hdone h (hlegal call (by simp)) hfit
    have hnext : next stream c call = c' := by rw [next, hreturned]
    rw [hnext] at hfits
    rw [Run.outputs_cons, Run.after_cons, ← List.append_assoc,
      show gives stream c call = answer.bytes by rw [gives, hreturned], hnext]
    exact ih h' (fun call' hmem => hlegal call' (by simp [hmem])) hfits

/-- A size line with one digit and an extension that is no digit. -/
theorem valid_sizeLine {digit b : UInt8} {extension : List UInt8} {n : Nat} (hn : n < 16)
    (hdigit : ChunkedCoding.hexDigit digit = some n) (hlf : LF ∉ b :: extension)
    (hb : ChunkedCoding.isHexDigit b = false) :
    ChunkedCoding.SizeLine.Valid limit ⟨[digit], b :: extension⟩ n where
  digits_ne_nil := List.cons_ne_nil _ _
  digits := List.forall_mem_singleton.mpr (by rw [ChunkedCoding.isHexDigit, hdigit]; rfl)
  value := by simp [ChunkedCoding.hexValue, hdigit]
  limit := Nat.lt_trans hn (by unfold limit; omega)
  extension := hlf
  extension_head := by
    rintro b' ⟨⟩
    exact hb

/-- A read that is not the end of the body, and an `IOException` only with
the error flag set. -/
def Reported : Completion (ChunkedInputStream σ) Answer → Prop
  | .returned answer _ => answer ≠ .result .endOfMessage
  | .waits => False
  | .thrown e c => ∀ x, e = .checked x → c.hasError = true

theorem invoke_illegal (hclosed : c.closed = false) {bLength : Nat} {off len : Int}
    (hrange : (Call.readInto bLength off len).InRange)
    (hillegal : ¬ (Call.readInto bLength off len).Legal) :
    c.invoke stream (.readInto bLength off len) = .thrown (.unchecked .indexOutOfBoundsException) c := by
  obtain ⟨hLength, hlo, hhi, hlen, hlen'⟩ := hrange
  have hillegal' : ¬ (0 ≤ off ∧ 0 < len ∧ off + len ≤ bLength ∧ bLength < 2 ^ 31) := hillegal
  rw [invoke, readInto, ifOpen, hclosed, if_neg Bool.false_ne_true, if_pos]
  · rfl
  · by_cases hoff : off < 0 ∨ off > bLength
    · rcases hoff with hoff | hoff
      · exact Or.inl hoff
      · exact Or.inr (Or.inl hoff)
    · by_cases hsum : off + len < 2 ^ 31
      · rw [toInt_eq (by omega) hsum]
        omega
      · have hwrap : toInt (off + len) = off + len - 2 ^ 32 := toInt_eq_sub (by omega) (by omega)
        rw [hwrap]
        omega

/-- The bytes that start with a whole body. -/
theorem done_iff_body {bytes : List UInt8} :
    (Decoder.after limit {} bytes).phase = .done ↔
      ∃ body : Body, body.Valid limit ∧ body.encode <+: bytes := by
  refine ⟨ChunkedCoding.exists_body_of_done, ?_⟩
  rintro ⟨body, hbody, rest, rfl⟩
  rw [(ChunkedCoding.after_encode hbody rest).1]

/-- A call of a read, whatever its arguments. -/
theorem invoke_read (hserves : Serves stream I rest asks total)
    (h : Decoding stream I rest asks total delivered c) {call : Call} (hread : call.isRead = true)
    (hrange : call.InRange) :
    Decoding stream I rest asks total (delivered ++ gives stream c call) (next stream c call) ∧
      ((Decoder.after limit {} total).phase ≠ .done →
        (Decoder.after limit {} total).phase ≠ .failed .colon → Reported (c.invoke stream call)) := by
  by_cases hlegal : call.Legal
  · have hanswers := invoke_answers hserves h hread hlegal
    unfold gives next
    cases ho : c.invoke stream call with
    | waits =>
      rw [ho] at hanswers
      exact hanswers.elim
    | thrown e c' =>
      rw [ho] at hanswers
      obtain ⟨hthrows, hdecoding⟩ := hanswers
      exact ⟨by rwa [List.append_nil], fun _ hcolon _ _ => hthrows.noted hcolon⟩
    | returned answer c' =>
      rw [ho] at hanswers
      obtain ⟨-, -, hdecoding, hend⟩ := hanswers
      refine ⟨hdecoding, fun hdone _ hanswer => ?_⟩
      rcases hend with ⟨-, hstate, -⟩ | hbytes
      · exact hdone (hdecoding.of_done hstate).1
      · rw [hanswer] at hbytes
        exact hbytes rfl
  · have hclosed := h.choose_spec.choose_spec.closed
    cases call with
    | read => exact absurd trivial hlegal
    | available => exact absurd trivial hlegal
    | readInto bLength off len =>
      unfold gives next
      rw [invoke_illegal hclosed hrange hlegal]
      refine ⟨by rwa [List.append_nil], fun _ _ x hx => ?_⟩
      exact absurd hx nofun

theorem run_read (hserves : Serves stream I rest asks total)
    (h : Decoding stream I rest asks total delivered c) {calls : List Call}
    (hcalls : ∀ call ∈ calls, call.isRead = true ∧ call.InRange) :
    Decoding stream I rest asks total (delivered ++ Run.outputs (next stream) (gives stream) c calls)
      (Run.after (next stream) c calls) := by
  induction calls generalizing c delivered with
  | nil => rwa [Run.outputs_nil, List.append_nil]
  | cons call calls ih =>
    obtain ⟨hread, hrange⟩ := hcalls call (by simp)
    rw [Run.outputs_cons, Run.after_cons, ← List.append_assoc]
    exact ih (invoke_read hserves h hread hrange).1 fun call' hmem =>
      hcalls call' (by simp [hmem])

/-- Where only the colon is missing, `read()` goes on until it throws, and
the exception leaves the error flag alone. -/
theorem exists_unreported (hserves : Serves stream I rest asks total)
    (hcolon : (Decoder.after limit {} total).phase = .failed .colon)
    (h : Decoding stream I rest asks total delivered c) (hsettled : Settled c) (herror : c.error = false) :
    ∃ n, ¬ Reported ((Run.after (next stream) c (List.replicate n Call.read)).invoke stream .read) := by
  have hanswers : ∀ {c : ChunkedInputStream σ} {delivered : List UInt8},
      Decoding stream I rest asks total delivered c →
        Answers stream I rest asks total delivered c (c.invoke stream .read) := fun h =>
    invoke_answers hserves h rfl trivial
  -- what is still to come shrinks with each byte
  generalize hleft : (Decoder.outputs limit {} total).length - delivered.length = left
  induction left using Nat.strong_induction_on generalizing c delivered with
  | _ left ih =>
    have hfirst := hanswers h
    cases ho : c.invoke stream .read with
    | waits =>
      rw [ho] at hfirst
      exact hfirst.elim
    | thrown e c' =>
      rw [ho] at hfirst
      obtain ⟨hthrows, -⟩ := hfirst
      obtain ⟨message, rfl⟩ := hthrows.message
      refine ⟨0, fun hreported => ?_⟩
      rw [List.replicate_zero, Run.after_nil, ho] at hreported
      have hset := hreported _ rfl
      rw [hasError, hthrows.unnoted hsettled hcolon, herror] at hset
      exact absurd hset Bool.false_ne_true
    | returned answer c' =>
      rw [ho] at hfirst
      obtain ⟨hsettled', herror', h', ⟨-, hstate, -⟩ | hbytes⟩ := hfirst
      · have hdone := (h'.of_done hstate).1
        rw [hcolon] at hdone
        exact absurd hdone nofun
      · have hlen := h'.delivered_isPrefix.length_le
        have hpos := List.length_pos_iff.mpr hbytes
        rw [List.length_append] at hlen
        obtain ⟨n, hn⟩ := ih _ (by rw [← hleft, List.length_append]; omega) h' (hsettled' hsettled)
          (herror'.trans herror) rfl
        refine ⟨n + 1, ?_⟩
        rwa [List.replicate_succ, Run.after_cons, show next stream c .read = c' by rw [next, ho]]

/-- Bytes that start with no whole body are reported, unless the fault is a
trailer line without a colon. -/
theorem reported_iff {bytes : List UInt8}
    (hbody : ¬ ∃ body : Body, body.Valid limit ∧ body.encode <+: bytes) :
    (∀ (choices : List Nat) (calls : List Call) (call : Call),
      (∀ call' ∈ call :: calls, call'.isRead = true ∧ call'.InRange) →
      Reported ((Run.after (next SplitStream.inputStream)
        (create (⟨bytes, choices⟩ : SplitStream)) calls).invoke SplitStream.inputStream call)) ↔
    ¬ Uncoloned limit bytes := by
  have hdone : (Decoder.after limit {} bytes).phase ≠ .done := mt done_iff_body.mp hbody
  have hstart : ∀ choices : List Nat, Decoding SplitStream.inputStream (fun _ => True)
      SplitStream.rest (fun _ _ => True) bytes [] (create (⟨bytes, choices⟩ : SplitStream)) := fun choices =>
    decoding_create (s := (⟨bytes, choices⟩ : SplitStream)) (serves_splitStream _) trivial
  rw [← ChunkedCoding.failed_colon_iff]
  constructor
  · intro hreported hcolon
    obtain ⟨n, hn⟩ := exists_unreported (serves_splitStream bytes) hcolon (hstart [])
      List.not_mem_nil rfl
    refine hn (hreported [] (List.replicate n Call.read) .read fun call hmem => ?_)
    rw [← List.replicate_succ] at hmem
    rw [List.eq_of_mem_replicate hmem]
    exact ⟨rfl, trivial⟩
  · intro hcolon choices calls call hcalls
    have hrun := run_read (serves_splitStream bytes) (hstart choices)
      fun call' (hmem : call' ∈ calls) => hcalls call' (by simp [hmem])
    obtain ⟨hread, hrange⟩ := hcalls call (by simp)
    exact (invoke_read (serves_splitStream bytes) hrun hread hrange).2 hdone hcolon

/-- A chunk of five bytes that ends after two. -/
theorem reported_five :
    (∀ (choices : List Nat) (calls : List Call) (call : Call),
      (∀ call' ∈ call :: calls, call'.isRead = true ∧ call'.InRange) →
      Reported ((Run.after (next SplitStream.inputStream)
        (create (⟨[53, 13, 10, 104, 101], choices⟩ : SplitStream)) calls).invoke
          SplitStream.inputStream call)) ↔
    ¬ Uncoloned limit [53, 13, 10, 104, 101] :=
  have hbody : ¬ ∃ body : Body, body.Valid limit ∧ body.encode <+: [53, 13, 10, 104, 101] := by
    rw [← done_iff_body]
    decide +kernel
  reported_iff hbody

/-- `0` and then `x` where a trailer has to be. -/
theorem not_reported_x :
    ¬ ∀ bytes : List UInt8, (¬ ∃ body : Body, body.Valid limit ∧ body.encode <+: bytes) →
      ∀ (choices : List Nat) (calls : List Call) (call : Call),
        (∀ call' ∈ call :: calls, call'.isRead = true ∧ call'.InRange) →
        Reported ((Run.after (next SplitStream.inputStream)
          (create (⟨bytes, choices⟩ : SplitStream)) calls).invoke SplitStream.inputStream call) := by
  intro h
  have hbody : ¬ ∃ body : Body, body.Valid limit ∧ body.encode <+: [48, 13, 10, 120, 13, 10] := by
    rw [← done_iff_body]
    decide +kernel
  have hcall : ∀ call ∈ [Call.read], call.isRead = true ∧ call.InRange :=
    List.forall_mem_singleton.mpr ⟨rfl, trivial⟩
  have hreported := h _ hbody [5] [] .read hcall
  have hinvoke : ∃ message c', (create (⟨[48, 13, 10, 120, 13, 10], [5]⟩ : SplitStream)).invoke
      SplitStream.inputStream .read = .thrown (ioException message) c' ∧ c'.error = false :=
    ⟨_, _, rfl, rfl⟩
  obtain ⟨message, c', hthrown, herror⟩ := hinvoke
  rw [Run.after_nil, hthrown] at hreported
  exact absurd (herror.symm.trans (hreported _ rfl)) Bool.false_ne_true

end ChunkedInputStream

end ConnectionSniffer
