import ConnectionSniffer.Io.ChunkedDecoding
import ConnectionSniffer.Io.StreamCases
import ConnectionSniffer.Io.StreamFraming

/-!
# Chunked bodies in a combined stream

A `ChunkedInputStream` on a `DynamicByteArrayInputStream` that holds
several messages, the first of them a chunked body.  To close the combined
stream is to go on to its next message, and the decoder does so when it
reaches the end of the body.

`close()` on the decoder then does it a second time: the next message is
skipped.  So the messages behind the body stay unread exactly when
`close()` is not called after the end, or when there are none.
-/

namespace ConnectionSniffer

open ChunkedCoding (Body Decoder)
open ChunkedInputStream (Serves)

namespace DynamicByteArrayInputStream

variable {s : DynamicByteArrayInputStream} {m : List UInt8} {ms : List (List UInt8)}

/-- The combined stream as the stream under another one.  `available()` is
the one of `java.io.InputStream`.  A read puts no more into the array than
was asked for. -/
def inputStream : InputStream DynamicByteArrayInputStream where
  read s bLength off len :=
    match s.readInto bLength off len with
    | .waits => .waits
    | .thrown e s' => .thrown (.unchecked e) s'
    | .returned .endOfMessage s' => .returned none s'
    | .returned (.bytes data) s' => .returned (some ⟨data.take len, List.length_take_le _ _⟩) s'
  available s := (0, s)
  close s :=
    match s.finishCurrentInputStream with
    | .returned s' => .returned s'
    | .thrown e s' => .thrown (.unchecked e) s'
  remaining s := s.content.length

/-! ## Messages between end marks -/

theorem endPositions_nil_cons (pos : Int) (ms : List (List UInt8)) :
    endPositions pos ([] :: ms) = pos :: endPositions pos ms := by
  simp [endPositions]

/-- Of the current message `m` is unread, and `ms` are the messages behind
it.  An end mark stands behind each message; behind the last one it may be
still missing. -/
structure Holding (s : DynamicByteArrayInputStream) (m : List UInt8) (ms : List (List UInt8)) :
    Prop extends InRange s where
  unread_eq : s.unread = m ++ ms.flatten
  count : s.count = s.pos + m.length
  marks : s.newInputStreamMarks.map StreamMark.endPos = endPositions s.pos (m :: ms) ∨
    s.newInputStreamMarks.map StreamMark.endPos = endPositions s.pos (m :: ms).dropLast
  nonempty : ∀ m' ∈ ms, m' ≠ []

/-- The stream is at the start of the first of these messages. -/
def AtStart (s : DynamicByteArrayInputStream) : List (List UInt8) → Prop
  | [] => Holding s [] [] ∧ s.newInputStreamMarks = []
  | m :: ms => Holding s m ms

theorem AtStart.unread_eq (h : AtStart s ms) : s.unread = ms.flatten := by
  cases ms with
  | nil => exact h.1.unread_eq
  | cons m ms => exact Holding.unread_eq h

namespace Holding

/-- The bytes before the next end mark. -/
theorem rest_eq (h : Holding s m ms) : s.unread.take (s.count - s.pos).toNat = m := by
  have hcount := h.count
  rw [h.unread_eq]
  exact List.take_left' (by omega)

/-- A read of at most `len` bytes. -/
theorem readInto_eq (h : Holding s m ms) {bLength off len : Nat} (hm : m ≠ []) (hlen : 0 < len)
    (hfits : off + len ≤ bLength) (hLength : bLength < 2 ^ 31) (hsmall : len ≤ 2 ^ 30) :
    s.readInto bLength off len = .returned (.bytes (m.take len))
      { s with pos := s.pos + (min len m.length : Nat) } := by
  have hmax : MAX_BUFFER_SIZE = 2048000 := rfl
  have hcap := h.capacity
  have hpos := h.pos_nonneg
  have hle := h.pos_le
  have hcount := h.count
  have hcount_le := h.count_le
  have hmpos := List.length_pos_iff.mpr hm
  have hcut : (if toInt (s.pos + len) > s.count then s.count - s.pos else (len : Int)) =
      (min len m.length : Nat) := by
    rw [toInt_eq (by omega) (by omega)]
    split_ifs <;> omega
  have hcopy := arraycopy_readable h.toInRange (n := min len m.length) (by omega) (by omega)
  unfold readInto
  rw [toInt_eq (by omega) (by omega), if_neg (by omega), if_neg (by omega), hcut]
  dsimp only
  rw [if_neg (by omega), hcopy]
  dsimp only
  rw [h.unread_eq, List.take_append_of_le_length (Nat.min_le_right _ _), ← List.take_take,
    List.take_length]

theorem advance (h : Holding s m ms) {n : Nat} (hn : n ≤ m.length) :
    Holding { s with pos := s.pos + n } (m.drop n) ms where
  toInRange := by
    have hcount := h.count
    have hle := h.count_le
    exact inRange_advance h.toInRange (Int.natCast_nonneg n) (by omega)
  unread_eq := by
    rw [unread_advance h.toInRange (Int.natCast_nonneg n), Int.toNat_natCast, h.unread_eq,
      List.drop_append_of_le_length hn]
  count := by
    have hcount := h.count
    rw [List.length_drop]
    show s.count = s.pos + n + ((m.length - n : Nat) : Int)
    omega
  marks := by
    have hends : endPositions (s.pos + n) (m.drop n :: ms) = endPositions s.pos (m :: ms) ∧
        endPositions (s.pos + n) (m.drop n :: ms).dropLast = endPositions s.pos (m :: ms).dropLast := by
      have hlen : s.pos + (n : Int) + ((m.drop n).length : Int) = s.pos + m.length := by
        rw [List.length_drop]
        omega
      cases ms with
      | nil => exact ⟨by simp only [endPositions, hlen], rfl⟩
      | cons m' ms =>
        rw [List.dropLast_cons_cons, List.dropLast_cons_cons]
        exact ⟨by simp only [endPositions, hlen], by simp only [endPositions, hlen]⟩
    rw [hends.1, hends.2]
    exact h.marks
  nonempty := h.nonempty

/-- Behind the end of the current message. -/
theorem finished (h : Holding s m ms) : Holding { s with pos := s.count } [] ms := by
  have hend := h.advance (Nat.le_refl m.length)
  rw [List.drop_length, ← h.count] at hend
  exact hend

/-- Rolling over to a next message. -/
theorem rolledOver {m' : List UInt8} (h : Holding s [] (m' :: ms)) {mark : StreamMark}
    {marks : List StreamMark} (hmarks : s.newInputStreamMarks = mark :: marks) :
    Holding (s.rolledOver marks) m' ms := by
  have hshift : ∀ rest : List (List UInt8), marks.map StreamMark.endPos = endPositions s.pos rest →
      (s.rolledOver marks).newInputStreamMarks.map StreamMark.endPos = endPositions 0 rest := by
    intro rest hrest
    show (marks.map _).map StreamMark.endPos = _
    rw [List.map_map, show (0 : Int) = s.pos - s.pos by omega, ← map_sub_endPositions, ← hrest,
      List.map_map]
    rfl
  have hpositions : (s.rolledOver marks).newInputStreamMarks.map StreamMark.endPos =
        endPositions 0 (m' :: ms) ∨
      (s.rolledOver marks).newInputStreamMarks.map StreamMark.endPos =
        endPositions 0 (m' :: ms).dropLast := by
    have hall := h.marks
    rw [hmarks, List.map_cons, List.dropLast_cons_cons, endPositions_nil_cons, endPositions_nil_cons,
      List.cons.injEq, List.cons.injEq] at hall
    exact hall.imp (fun h => hshift _ h.2) fun h => hshift _ h.2
  have hunread : (s.rolledOver marks).unread = s.unread := List.drop_zero
  exact
    { toInRange := inRange_rolledOver h.toInRange hmarks
      unread_eq := by rw [hunread, h.unread_eq, List.nil_append, List.flatten_cons]
      count := by
        show ((s.rolledOver marks).newInputStreamMarks.head?.map StreamMark.endPos).getD
          s.unread.length = 0 + (m'.length : Int)
        rw [← List.head?_map, h.unread_eq]
        rcases hpositions with hall | hopen
        · rw [hall]
          rfl
        · rw [hopen]
          cases ms with
          | nil => simp [endPositions]
          | cons m'' ms => rfl
      marks := hpositions
      nonempty := fun m'' hmem => h.nonempty m'' (List.mem_cons_of_mem _ hmem) }

/-- `close()` goes on to the next message. -/
theorem finishCurrentInputStream (h : Holding s m ms) :
    ∃ s', s.finishCurrentInputStream = .returned s' ∧ AtStart s' ms := by
  have hend := h.finished
  unfold DynamicByteArrayInputStream.finishCurrentInputStream
  obtain ⟨s₁, hs₁⟩ : ∃ s₁, s₁ = { s with pos := s.count } := ⟨_, rfl⟩
  rw [← hs₁] at hend ⊢
  cases hmarks : s₁.newInputStreamMarks with
  | nil =>
    have hms : ms = [] := by
      have hpositions := hend.marks
      rw [hmarks] at hpositions
      cases ms with
      | nil => rfl
      | cons m' ms => exact absurd hpositions (by simp [endPositions])
    subst hms
    refine ⟨s₁, ?_, hend, hmarks⟩
    unfold shrinkToNextInputStream
    rw [hmarks]
  | cons mark marks =>
    refine ⟨s₁.rolledOver marks, shrinkToNextInputStream_eq hend.toInRange hmarks, ?_⟩
    cases ms with
    | nil =>
      have hnil : marks = [] := by
        have hpositions := hend.marks
        rw [hmarks] at hpositions
        rcases hpositions with hall | hopen
        · rw [List.map_cons, endPositions_nil_cons, List.cons.injEq] at hall
          exact List.map_eq_nil_iff.mp hall.2
        · exact absurd hopen (by simp [endPositions])
      have hunread : (s₁.rolledOver marks).unread = [] := List.drop_zero.trans hend.unread_eq
      subst hnil
      refine ⟨⟨inRange_rolledOver hend.toInRange hmarks, hunread, ?_, Or.inr rfl, by simp⟩, rfl⟩
      show (s₁.unread.length : Int) = 0 + ([] : List UInt8).length
      rw [hend.unread_eq]
      rfl
    | cons m' ms => exact hend.rolledOver hmarks

end Holding

theorem AtStart.finishCurrentInputStream (h : AtStart s ms) :
    ∃ s', s.finishCurrentInputStream = .returned s' ∧ AtStart s' ms.tail := by
  cases ms with
  | nil => exact h.1.finishCurrentInputStream
  | cons m ms => exact Holding.finishCurrentInputStream h

/-- The messages of a stream that is at their start. -/
theorem AtStart.tail_iff (h : AtStart s ms.tail) (hne : ∀ m ∈ ms, m ≠ []) :
    AtStart s ms ↔ ms = [] := by
  constructor
  · intro h'
    cases ms with
    | nil => rfl
    | cons m ms =>
      have hunread := congrArg List.length (h.unread_eq.symm.trans h'.unread_eq)
      have hpos := List.length_pos_iff.mpr (hne m (by simp))
      rw [List.tail_cons, List.flatten_cons, List.length_append] at hunread
      omega
  · rintro rfl
    exact h

/-! ## The decoder on a combined stream -/

/-- Reads of an `int` length that do not leave the `int` range. -/
def asks (bLength len : Nat) : Prop := bLength < 2 ^ 31 ∧ len ≤ 2 ^ 30

/-- The unread bytes of the current message. -/
def message (s : DynamicByteArrayInputStream) : List UInt8 := s.unread.take (s.count - s.pos).toNat

theorem supplies (ms : List (List UInt8)) :
    inputStream.Supplies (fun s => ∃ m, Holding s m ms) message asks where
  read := by
    rintro s bLength off len ⟨m, h⟩ hrest hlen hfits ⟨hLength, hsmall⟩
    have hm : message s = m := h.rest_eq
    rw [hm] at hrest ⊢
    have hnext := h.advance (Nat.min_le_right len m.length)
    refine ⟨⟨m.take len, List.length_take_le _ _⟩, _, ?_, ?_, ?_, _, hnext⟩
    · simp only [inputStream, h.readInto_eq hrest hlen hfits hLength hsmall, List.take_take,
        Nat.min_self]
    · rw [← List.length_pos_iff, List.length_take]
      exact Nat.lt_min.mpr ⟨hlen, List.length_pos_iff.mpr hrest⟩
    · rw [show message _ = _ from hnext.rest_eq]
      show m = m.take len ++ m.drop (min len m.length)
      rcases Nat.le_total len m.length with hle | hle
      · rw [Nat.min_eq_left hle, List.take_append_drop]
      · rw [Nat.min_eq_right hle, List.take_of_length_le hle, List.drop_length, List.append_nil]
  available h := ⟨h, rfl⟩
  close := by
    rintro s ⟨m, h⟩
    obtain ⟨s', hs', -⟩ := h.finishCurrentInputStream
    refine ⟨s', ?_⟩
    simp only [inputStream, hs']
  remaining := by
    rintro s ⟨m, h⟩
    exact (List.length_take_le' _ _).trans (List.drop_suffix _ _).length_le

/-- The unread bytes fit into the buffer. -/
theorem Holding.asks_body (h : Holding s m ms) (size : Nat) (hsize : size ≤ 32) :
    asks (m.length + size) (m.length + size) := by
  have hmax : MAX_BUFFER_SIZE = 2048000 := rfl
  have hcap := h.capacity
  have hpos := h.pos_nonneg
  have hcount := h.count
  have hcount_le := h.count_le
  exact ⟨by omega, by omega⟩

/-- A chunked body is all that the decoder reads. -/
theorem Holding.serves {body : Body} (hbody : body.Valid ChunkedInputStream.limit)
    (h : Holding s body.encode ms) :
    Serves inputStream (fun s => ∃ m, Holding s m ms) message asks body.encode where
  toSupplies := supplies ms
  ends := by
    have hafter := ChunkedCoding.after_encode hbody []
    rw [List.append_nil] at hafter
    exact Or.inl (by rw [hafter.1])
  mono hasks hLength hlen := ⟨Nat.lt_of_le_of_lt hLength hasks.1, hlen.trans hasks.2⟩
  asks_raw := h.asks_body 32 (by decide)
  asks_available _ := h.asks_body 0 (by decide)
  asks_array hLength hlen := ⟨hLength, hlen.trans ((h.asks_body 0 (by decide)).2)⟩

end DynamicByteArrayInputStream

namespace ChunkedInputStream

open DynamicByteArrayInputStream (AtStart Holding inputStream message asks)

variable {c c' : ChunkedInputStream DynamicByteArrayInputStream}
variable {s : DynamicByteArrayInputStream} {ms : List (List UInt8)}

/-- `close()`, some times over. -/
def closes : Nat → ChunkedInputStream DynamicByteArrayInputStream →
    Outcome StreamError (ChunkedInputStream DynamicByteArrayInputStream)
  | 0, c => .returned c
  | n + 1, c => (c.close inputStream).andThen (closes n)

theorem closes_of_closed (hclosed : c.closed = true) (n : Nat) : closes n c = .returned c := by
  induction n with
  | zero => rfl
  | succ n ih => rw [closes, close, if_pos hclosed, Outcome.andThen_returned, ih]

/-- The first `close()` goes on to the next message, and no other does. -/
theorem closes_ends (hstart : AtStart c.underlying ms) (hclosed : c.closed = false) (n : Nat) :
    ∃ c', closes n c = .returned c' ∧
      AtStart c'.underlying (if n = 0 then ms else ms.tail) := by
  cases n with
  | zero => exact ⟨c, rfl, hstart⟩
  | succ n =>
    obtain ⟨s', hs', hnext⟩ := hstart.finishCurrentInputStream
    refine ⟨{ c with underlying := s', closed := true }, ?_, hnext⟩
    have hclose : c.close inputStream = .returned { c with underlying := s', closed := true } := by
      rw [close, hclosed, if_neg Bool.false_ne_true, closeUnderlying]
      simp only [inputStream, hs', Outcome.map_returned, Outcome.andThen_returned]
    rw [closes, hclose, Outcome.andThen_returned]
    exact closes_of_closed rfl n

/-- `available()` of a combined stream is no reason to make room. -/
theorem fits_inputStream (c : ChunkedInputStream DynamicByteArrayInputStream) (call : Call) :
    Fits inputStream c call := by
  cases call with
  | available => exact fun _ _ hpos => absurd hpos (Nat.lt_irrefl 0)
  | read => trivial
  | readInto bLength off len => trivial

/-- When the decoder has reached the end, it has gone on to the next
message. -/
theorem atStart_of_end {total delivered : List UInt8}
    (h : Decoding inputStream (fun s => ∃ m, Holding s m ms) message asks total delivered c)
    (hstate : c.state = .done) : AtStart c.underlying ms := by
  obtain ⟨d, consumed, h⟩ := h
  obtain ⟨s, ⟨m, hs⟩, -, hclose⟩ := h.supply
  rw [if_pos hstate] at hclose
  obtain ⟨s', hs', hstart⟩ := hs.finishCurrentInputStream
  simp only [inputStream, hs', Outcome.returned.injEq] at hclose
  rwa [← hclose]

/-- A chunked body that is read to its end and then closed leaves the messages
behind it alone exactly where there is no `close()` or no message. -/
theorem closes_keeps_iff {body : Body} (hbody : body.Valid limit) (h : Holding s body.encode ms)
    {calls : List Call} {call : Call} (hlegal : ∀ call' ∈ call :: calls, call'.Legal)
    (hend : (Run.after (next inputStream) (create s) calls).invoke inputStream call =
      .returned (.result .endOfMessage) c') (n : Nat) :
    (∃ c'', closes n c' = .returned c'' ∧ AtStart c''.underlying ms) ↔ n = 0 ∨ ms = [] := by
  have hmessage : message s = body.encode := h.rest_eq
  have hserves := h.serves hbody
  have hdone : (Decoder.after limit {} body.encode).phase = .done :=
    hserves.ends.resolve_right fun hall => absurd (hall.2 (2 ^ 31) 0).1 (Nat.lt_irrefl _)
  have hstart : Decoding inputStream (fun s => ∃ m, Holding s m ms) message asks body.encode []
      (create s) := by
    rw [← hmessage] at hserves ⊢
    exact decoding_create hserves ⟨_, h⟩
  have hrun := run_body hserves hdone hstart
    (fun call' (hmem : call' ∈ calls) => hlegal call' (by simp [hmem]))
    (Run.along_always _ fits_inputStream _ _)
  obtain ⟨answer, c₁, hreturned, h', hread⟩ :=
    invoke_body hserves hdone hrun (hlegal call (by simp)) (fits_inputStream _ _)
  obtain ⟨rfl, rfl⟩ : answer = .result .endOfMessage ∧ c₁ = c' := by
    rw [hreturned, Completion.returned.injEq] at hend
    exact hend
  have hisRead : call.isRead = true := by
    cases call with
    | read => rfl
    | readInto bLength off len => rfl
    | available =>
      unfold invoke at hreturned
      cases ho : (Run.after (next inputStream) (create s) calls).available inputStream with
      | returned n c => simp [ho, answer] at hreturned
      | waits => simp [ho, answer] at hreturned
      | thrown e c => simp [ho, answer] at hreturned
  have hstate : c₁.state = .done := by
    rcases hread hisRead with ⟨-, hstate, -⟩ | hbytes
    · exact hstate
    · exact absurd rfl hbytes
  have hclosed : c₁.closed = false := h'.choose_spec.choose_spec.closed
  obtain ⟨c₂, hc₂, hunder⟩ := closes_ends (atStart_of_end h' hstate) hclosed n
  constructor
  · rintro ⟨c₃, hc₃, hkept⟩
    obtain rfl : c₂ = c₃ := by
      rw [hc₂, Outcome.returned.injEq] at hc₃
      exact hc₃
    by_cases hn : n = 0
    · exact Or.inl hn
    · rw [if_neg hn] at hunder
      exact Or.inr ((hunder.tail_iff h.nonempty).mp hkept)
  · rintro (rfl | rfl)
    · exact ⟨c₂, hc₂, hunder⟩
    · refine ⟨c₂, hc₂, ?_⟩
      split_ifs at hunder
      · exact hunder
      · exact hunder

/-- A body without chunks, and `x` behind it. -/
def bodyAndX : DynamicByteArrayInputStream where
  buf := some [48, 13, 10, 13, 10, 120]
  count := 5
  bufferSize := 6
  currentStreamStartTime := 0
  newInputStreamMarks := [⟨0, 0, 5⟩, ⟨0, 0, 6⟩]

theorem holding_bodyAndX : Holding bodyAndX (Body.encode ⟨[], ⟨[48], [13]⟩, []⟩) [[120]] where
  size := by decide
  pos_nonneg := by decide
  pos_le := by decide
  count_le := by decide
  marks_le := by simp [bodyAndX]
  buf_of_marks := fun _ => rfl
  capacity := by decide
  unread_eq := by decide
  count := by decide
  marks := Or.inl (by decide)
  nonempty := by decide

theorem valid_empty : Body.Valid limit ⟨[], ⟨[48], [13]⟩, []⟩ where
  chunks := List.forall_mem_nil _
  last := valid_sizeLine (by decide) (by decide) (by decide) (by decide)
  trailers := List.forall_mem_nil _

theorem closes_keeps_bodyAndX :
    ∃ c', (Run.after (next inputStream) (create bodyAndX) []).invoke inputStream .read =
        .returned (.result .endOfMessage) c' ∧
      ((∃ c'', closes 0 c' = .returned c'' ∧ AtStart c''.underlying [[120]]) ↔
        0 = 0 ∨ [[(120 : UInt8)]] = []) :=
  have hlegal : ∀ call' ∈ [Call.read], call'.Legal := List.forall_mem_singleton.mpr trivial
  ⟨_, rfl, closes_keeps_iff valid_empty holding_bodyAndX hlegal rfl 0⟩

/-- After one `close()`, `x` is lost. -/
theorem closes_skips_bodyAndX :
    ¬ ∀ (s : DynamicByteArrayInputStream) (body : Body) (ms : List (List UInt8)),
      body.Valid limit → Holding s body.encode ms →
      ∀ (calls : List Call) (call : Call) (c' : ChunkedInputStream DynamicByteArrayInputStream),
        (∀ call' ∈ call :: calls, call'.Legal) →
        (Run.after (next inputStream) (create s) calls).invoke inputStream call =
          .returned (.result .endOfMessage) c' →
        ∀ n, ∃ c'', closes n c' = .returned c'' ∧ AtStart c''.underlying ms := by
  intro h
  have hlegal : ∀ call' ∈ [Call.read], call'.Legal := List.forall_mem_singleton.mpr trivial
  obtain ⟨c', hread, c'', hclose, hunread⟩ : ∃ c',
      (Run.after (next inputStream) (create bodyAndX) []).invoke inputStream .read =
        .returned (.result .endOfMessage) c' ∧
      ∃ c'', closes 1 c' = .returned c'' ∧ c''.underlying.unread = [] := ⟨_, rfl, _, rfl, rfl⟩
  obtain ⟨c₁, hc₁, hstart⟩ := h _ _ _ valid_empty holding_bodyAndX [] .read c' hlegal hread 1
  obtain rfl : c'' = c₁ := by
    rw [hclose, Outcome.returned.injEq] at hc₁
    exact hc₁
  rw [hstart.unread_eq] at hunread
  exact absurd hunread (by decide)

end ChunkedInputStream

end ConnectionSniffer
