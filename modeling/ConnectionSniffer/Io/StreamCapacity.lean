import ConnectionSniffer.Io.StreamMarks

/-!
# What an append charges against the capacity

An append keeps the bytes from the cursor on, or the whole buffer while a
mark is set whose read limit is not exceeded: `kept`.  It throws
`BufferFullException` if and only if these and the new bytes are more than
the capacity, and then it has changed nothing: `append_charges`.

A mark does not outlive its bytes here: the runs are those of `KeepsMark`,
where no append drops the bytes before the cursor while a mark is set.
-/

namespace ConnectionSniffer

namespace DynamicByteArrayInputStream

/-- A stream in use, with no end mark.  A mark is not behind the cursor. -/
structure Charged (s : DynamicByteArrayInputStream) : Prop extends InRange s where
  marked : s.markedPos = -1 ∨ 0 ≤ s.markedPos ∧ s.markedPos ≤ s.pos
  unended : s.newInputStreamMarks = []
  unfinished : s.isFinished = false

theorem Charged.of_readOutcome {s : DynamicByteArrayInputStream} (h : Charged s) {len : Int}
    {o : Reading} (ho : ReadOutcome s len o) : Charged (o.left s) := by
  have hrange := ho.inRange h.toInRange
  cases ho with
  | @took n hpos hn =>
    refine { hrange with marked := ?_, unended := h.unended, unfinished := h.unfinished }
    have hmarked := h.marked
    show s.markedPos = -1 ∨ 0 ≤ s.markedPos ∧ s.markedPos ≤ s.pos + n
    omega
  | rolled hcount hmarks => simp [h.unended] at hmarks
  | nothing | waits | wrapped => exact h

/-! ## Runs -/

namespace StreamMethod

/-- A call of append, a read, `mark` or `reset` with arguments that Java has. -/
def Charges : StreamMethod → Prop
  | call (.append data) => data.length < 2 ^ 31
  | call (.finish _ _) => False
  | call .read => True
  | call (.readInto bLength _ len) => bLength < 2 ^ 31 ∧ len < 2 ^ 31
  | mark _ => True
  | reset => True
  | skip _ => False
  | finishCurrentInputStream => False
  | closeWholeStream => False

instance : ∀ m : StreamMethod, Decidable m.Charges
  | call (.append data) => inferInstanceAs (Decidable (data.length < 2 ^ 31))
  | call (.readInto bLength _ len) =>
    inferInstanceAs (Decidable (bLength < 2 ^ 31 ∧ len < 2 ^ 31))
  | call .read | mark _ | reset => .isTrue trivial
  | call (.finish _ _) | skip _ | finishCurrentInputStream | closeWholeStream => .isFalse id

variable {s : DynamicByteArrayInputStream} {m : StreamMethod}

/-- An append drops the bytes before the cursor only where no mark is set. -/
theorem charged_append (h : Charged s) {data : List UInt8} (hdata : data.length < 2 ^ 31)
    (hkeeps : KeepsMark s (call (.append data))) : Charged (s.append data).state := by
  have ho := append_outcome h.toInRange hdata
  have hrange := ho.inRange h.toInRange
  have hunset : ¬ s.Marked →
      s.kept + data.length ≤ MAX_BUFFER_SIZE ∨ 2 ^ 31 ≤ s.kept + data.length →
        s.markedPos = -1 := by
    intro hnot hsize
    rw [kept, if_neg hnot] at hsize
    rcases h.marked with hunset | ⟨hset, -⟩
    · exact hunset
    · rcases hkeeps with hunset | hlimit | hfinished | ⟨hfull, hint⟩
      · exact hunset
      · exact absurd ⟨hset, hlimit⟩ hnot
      · simp [h.unfinished] at hfinished
      · omega
  generalize s.append data = o at ho hrange
  cases ho with
  | finished | full | wrappedBehind => exact h
  | behind =>
    exact { hrange with marked := h.marked, unended := h.unended, unfinished := h.unfinished }
  | shrunk _ hmarked hroom =>
    exact { hrange with
      marked := Or.inl (hunset hmarked (Or.inl hroom))
      unended := List.map_eq_nil_iff.mpr h.unended
      unfinished := h.unfinished }
  | wrappedShrunk _ hmarked hwrap =>
    exact { hrange with
      marked := Or.inl (hunset hmarked (Or.inr hwrap))
      unended := List.map_eq_nil_iff.mpr h.unended
      unfinished := h.unfinished }

theorem charged_step (h : Charged s) (hcall : m.Charges) (hkeeps : KeepsMark s m) :
    Charged (m.step s) := by
  cases m with
  | call c =>
    cases c with
    | append data => exact charged_append h hcall hkeeps
    | finish => exact hcall.elim
    | read => exact h.of_readOutcome (read_outcome h.toInRange)
    | readInto bLength off len =>
      show Charged ((s.readInto bLength off len).left s)
      rcases readInto_cases h.toInRange off hcall.1 hcall.2 with ⟨hsame, -⟩ | ho
      · rwa [hsame]
      · exact h.of_readOutcome ho
  | mark n =>
    show Charged (s.mark n)
    unfold DynamicByteArrayInputStream.mark
    split
    · exact { h with marked := Or.inr ⟨h.pos_nonneg, le_refl s.pos⟩ }
    · exact h
  | reset =>
    show Charged s.reset.state
    unfold DynamicByteArrayInputStream.reset
    split
    · exact h
    · rename_i hset
      obtain ⟨hnonneg, hle⟩ := h.marked.resolve_left hset
      exact { h with
        pos_nonneg := hnonneg
        pos_le := hle.trans h.pos_le
        marked := Or.inl rfl }
  | skip | finishCurrentInputStream | closeWholeStream => exact hcall.elim

/-- A new stream. -/
theorem charged_create (startTime : Date) (blocking : Bool) :
    Charged (configureBlocking { currentStreamStartTime := startTime } blocking) :=
  { (sane_create startTime).inRange with
    marked := Or.inl rfl
    unended := rfl
    unfinished := rfl }

/-- An append charges the bytes that it keeps and those that it adds, and it
changes nothing when it throws. -/
theorem append_charges (startTime : Date) (blocking : Bool) (methods : List StreamMethod)
    (hmethods : ∀ m ∈ methods, m.Charges)
    (hkeeps : Run.Along step KeepsMark
      (configureBlocking { currentStreamStartTime := startTime } blocking) methods)
    (data : List UInt8) (hdata : data.length ≤ 65535) :
    let s := Run.after step (configureBlocking { currentStreamStartTime := startTime } blocking)
      methods
    s.isFinished = false ∧
      ((s.append data).error = some .bufferFullException ↔
        MAX_BUFFER_SIZE < s.kept + data.length) ∧
      ((s.append data).error ≠ none → (s.append data).state = s) := by
  intro s
  have h : Charged s := Run.invariant (I := Charged) (C := fun s m => m.Charges ∧ KeepsMark s m)
    (fun _ _ h hm => charged_step h hm.1 hm.2) (charged_create startTime blocking)
    (Run.along_and step (C := fun _ m => m.Charges) (Run.along_of_forall step _ hmethods) hkeeps)
  have hmax : MAX_BUFFER_SIZE = 2048000 := rfl
  have hcap := h.capacity
  have hnonneg := h.pos_nonneg
  have hkept : s.kept ≤ MAX_BUFFER_SIZE := by
    unfold kept
    split <;> omega
  have ho := append_outcome h.toInRange (show data.length < 2 ^ 31 by omega)
  refine ⟨h.unfinished, ?_⟩
  generalize s.append data = o at ho
  cases ho with
  | finished hfinished => simp [h.unfinished] at hfinished
  | behind _ _ hroom | shrunk _ _ hroom =>
    refine ⟨⟨fun herror => by simp [Outcome.error] at herror, fun hfull => by omega⟩, ?_⟩
    intro herror
    simp [Outcome.error] at herror
  | full _ hfull => exact ⟨⟨fun _ => hfull, fun _ => rfl⟩, fun _ => rfl⟩
  | wrappedBehind _ _ hwrap | wrappedShrunk _ _ hwrap => omega

/-- A mark whose limit is exceeded, and an append that then keeps the bytes from
the cursor on. -/
theorem append_charges_exceeded :
    let methods : List StreamMethod := [.call (.append [97, 98, 99]), .mark 1, .call .read,
      .call .read]
    let s := Run.after step (StreamCall.created 0) methods
    s.kept = 1 ∧ (s.append [100]).error ≠ some .bufferFullException := by
  intro methods s
  have hcharges := (append_charges 0 false methods (by decide) (by decide) [100] (by decide)).2.1
  have hkept : s.kept = 1 := by decide
  refine ⟨hkept, fun herror => ?_⟩
  exact absurd (hcharges.mp herror) (by decide)

/-- One byte of a full buffer is read, and the next one is marked: an append
of one byte throws, though the first byte need not be kept. -/
theorem full_with_room_before_mark :
    let big : List UInt8 := List.replicate 2048000 0
    let methods : List StreamMethod := [.call (.append big), .call .read, .mark 1]
    let s := Run.after step (StreamCall.created 0) methods
    (∀ m ∈ methods, m.Charges) ∧ s.isFinished = false ∧ s.Marked ∧
      s.bufferSize - s.markedPos + 1 ≤ MAX_BUFFER_SIZE ∧
      (s.append [1]).error = some .bufferFullException := by
  intro big
  have hbig : (big.length : Int) = 2048000 := by rw [List.length_replicate]; rfl
  -- nothing but the length of the array matters
  clear_value big
  intro methods s
  let filled : DynamicByteArrayInputStream :=
    { currentStreamStartTime := 0, blocking := false, buf := some big, count := big.length,
      bufferSize := big.length, appended := big }
  have happend : step (StreamCall.created 0) (.call (.append big)) = filled := by
    have hempty : InRange (StreamCall.created 0) := (StreamCall.readable_created 0).toInRange
    have hroom : (StreamCall.created 0).hasRoom big := by
      show (([] ++ big : List UInt8).length : Int) ≤ MAX_BUFFER_SIZE
      rw [List.nil_append, hbig]
      decide
    have hshrinks : (StreamCall.created 0).append big = (StreamCall.created 0).appendAndShrink big := by
      unfold append
      rw [if_neg (by decide), if_neg (by decide)]
    show ((StreamCall.created 0).append big).state = filled
    rw [hshrinks, hempty.appendAndShrink_eq hroom]
    rfl
  have hread : step filled (.call .read) = { filled with pos := 1 } := by
    show filled.read.left filled = _
    have hlt : filled.pos < filled.count := by
      show (0 : Int) < big.length
      omega
    have hcopy : arraycopy (some big) 0 1 = .ok (big.take 1) := if_pos (by omega)
    unfold read
    rw [if_pos hlt, show arraycopy filled.buf filled.pos 1 = _ from hcopy]
    rfl
  let last : DynamicByteArrayInputStream := { filled with pos := 1, readLimit := 1, markedPos := 1 }
  have hs : s = last := by
    show step (step (step (StreamCall.created 0) (.call (.append big))) (.call .read)) (.mark 1) = _
    rw [happend, hread]
    rfl
  have hcharges : ∀ m ∈ methods, m.Charges := by
    intro m hm
    simp only [methods, List.mem_cons, List.not_mem_nil, or_false] at hm
    rcases hm with rfl | rfl | rfl
    · show big.length < 2 ^ 31
      omega
    · trivial
    · trivial
  have hmarked : last.Marked := ⟨show (0 : Int) ≤ 1 by decide, show (1 - 1 : Int) ≤ 1 by decide⟩
  have hkept : last.kept = 2048000 := (if_pos hmarked).trans hbig
  have hrange : InRange last :=
    { size := rfl
      pos_nonneg := show (0 : Int) ≤ 1 by decide
      pos_le := show (1 : Int) ≤ big.length by omega
      count_le := le_refl _
      marks_le := fun mark hmem => absurd hmem List.not_mem_nil
      buf_of_marks := fun hne => absurd rfl hne
      capacity := hbig.le }
  have hfull : last.append [1] = .thrown .bufferFullException last :=
    append_full hrange rfl (by rw [hkept]; decide) (by rw [hkept]; decide)
  rw [hs]
  refine ⟨hcharges, rfl, hmarked, ?_, ?_⟩
  · show (big.length : Int) - 1 + 1 ≤ MAX_BUFFER_SIZE
    rw [hbig]
    decide
  · rw [hfull]
    rfl

end StreamMethod

end DynamicByteArrayInputStream

end ConnectionSniffer
