import ConnectionSniffer.Io.StreamInvariant

/-!
# What one call on a stream can do

`AppendOutcome` and `ReadOutcome` list the outcomes of an append and of a
read on a stream in range, each with everything that was tested on the way
to it.  A proof about runs of a stream that may be marked is a case
analysis on the two.

Among the outcomes are the two where an `int` sum leaves its range: the
new size of an append, and `pos + len` of a read.
-/

namespace ConnectionSniffer

namespace DynamicByteArrayInputStream

/-! ## Appending -/

/-- A mark is set, and its read limit is not exceeded. -/
def Marked (s : DynamicByteArrayInputStream) : Prop :=
  0 ≤ s.markedPos ∧ s.pos - s.markedPos ≤ s.readLimit

instance (s : DynamicByteArrayInputStream) : Decidable s.Marked :=
  inferInstanceAs (Decidable (_ ∧ _))

/-- The number of bytes that an append keeps in the buffer. -/
def kept (s : DynamicByteArrayInputStream) : Int :=
  if s.Marked then s.bufferSize else s.bufferSize - s.pos

/-- What an append leaves that keeps the whole buffer. -/
def appendedBehind (s : DynamicByteArrayInputStream) (data : List UInt8) :
    DynamicByteArrayInputStream :=
  { s with
    buf := some (s.content ++ data)
    bufferSize := (s.content ++ data).length
    count :=
      if s.count = 0 ∨ s.newInputStreamMarks = [] then ((s.content ++ data).length : Int)
      else s.count
    appended := s.appended ++ data }

/-- The stream with its positions shifted, but not its cursor: what an
append leaves that finds no array for its bytes. -/
def misplaced (s : DynamicByteArrayInputStream) : DynamicByteArrayInputStream :=
  shifted { s with count := s.count - s.pos } s.pos

/-- The outcomes of an append. -/
inductive AppendOutcome (s : DynamicByteArrayInputStream) (data : List UInt8) :
    Outcome Throwable DynamicByteArrayInputStream → Prop
  | finished (hfinished : s.isFinished = true) :
      AppendOutcome s data
        (.thrown (.alreadyFinishedStreamException "stream is already finished!") s)
  | behind (hopen : s.isFinished = false) (hmarked : s.Marked)
      (hroom : s.kept + data.length ≤ MAX_BUFFER_SIZE) :
      AppendOutcome s data (.returned (s.appendedBehind data))
  | shrunk (hopen : s.isFinished = false) (hmarked : ¬ s.Marked)
      (hroom : s.kept + data.length ≤ MAX_BUFFER_SIZE) :
      AppendOutcome s data (.returned (s.appendedWith data))
  | full (hopen : s.isFinished = false) (hfull : MAX_BUFFER_SIZE < s.kept + data.length)
      (hint : s.kept + data.length < 2 ^ 31) :
      AppendOutcome s data (.thrown .bufferFullException s)
  | wrappedBehind (hopen : s.isFinished = false) (hmarked : s.Marked)
      (hwrap : 2 ^ 31 ≤ s.kept + data.length) :
      AppendOutcome s data (.thrown .negativeArraySizeException s)
  | wrappedShrunk (hopen : s.isFinished = false) (hmarked : ¬ s.Marked)
      (hwrap : 2 ^ 31 ≤ s.kept + data.length) :
      AppendOutcome s data (.thrown .negativeArraySizeException s.misplaced)

section Append

variable {s : DynamicByteArrayInputStream} {data : List UInt8}

theorem inRange_appendedBehind (h : InRange s)
    (hroom : s.bufferSize + data.length ≤ MAX_BUFFER_SIZE) : InRange (s.appendedBehind data) := by
  have hsize := h.size
  have hpos := h.pos_le
  have hcount := h.count_le
  have hlength : ((s.content ++ data).length : Int) = s.bufferSize + data.length := by
    rw [List.length_append, hsize]
    omega
  exact
    { size := rfl
      pos_nonneg := h.pos_nonneg
      pos_le := by
        show s.pos ≤ ((s.content ++ data).length : Int)
        omega
      count_le := by
        simp only [appendedBehind]
        split <;> omega
      marks_le := by
        intro mark hmem
        have hmark : mark.endPos ≤ s.bufferSize := h.marks_le mark hmem
        show mark.endPos ≤ ((s.content ++ data).length : Int)
        omega
      buf_of_marks := fun _ => rfl
      capacity := by
        show ((s.content ++ data).length : Int) ≤ _
        omega }

theorem unread_appendedBehind (h : InRange s) :
    (s.appendedBehind data).unread = s.unread ++ data := by
  have hsize := h.size
  have hpos := h.pos_le
  have hnonneg := h.pos_nonneg
  show (s.content ++ data).drop s.pos.toNat = _
  rw [List.drop_append_of_le_length (by omega)]
  rfl

theorem inRange_misplaced (h : InRange s) : InRange s.misplaced := by
  have hpos := h.pos_nonneg
  refine { h with count_le := ?_, marks_le := ?_, buf_of_marks := ?_ }
  · have := h.count_le
    show s.count - s.pos ≤ s.bufferSize
    omega
  · intro mark hmem
    obtain ⟨mark', hmem', rfl⟩ := List.mem_map.mp hmem
    have : mark'.endPos ≤ s.bufferSize := h.marks_le mark' hmem'
    show mark'.endPos - s.pos ≤ s.bufferSize
    omega
  · intro hne
    exact h.buf_of_marks fun hnil => hne (by simp [misplaced, shifted, hnil])

/-- An append that keeps the whole buffer. -/
theorem appendOnly_outcome (hsize : s.bufferSize = s.content.length)
    (hcap : s.bufferSize ≤ MAX_BUFFER_SIZE) (hopen : s.isFinished = false) (hmarked : s.Marked)
    (hdata : data.length < 2 ^ 31) : AppendOutcome s data (s.appendOnly data) := by
  have hmax : MAX_BUFFER_SIZE = 2048000 := rfl
  have hkept : s.kept = s.bufferSize := if_pos hmarked
  by_cases hwrap : 2 ^ 31 ≤ s.kept + data.length
  · -- the sum wraps to a negative size, which passes the test for room
    convert AppendOutcome.wrappedBehind hopen hmarked hwrap using 1
    have hneg : toInt (s.bufferSize + data.length) < 0 := by
      rw [toInt_eq_sub (by omega) (by omega)]
      omega
    unfold appendOnly
    dsimp only
    rw [if_neg (by omega), newArray, if_pos hneg]
  · have hint : toInt (s.bufferSize + data.length) = s.bufferSize + data.length :=
      toInt_eq (by omega) (by omega)
    by_cases hroom : s.kept + data.length ≤ MAX_BUFFER_SIZE
    · convert AppendOutcome.behind hopen hmarked hroom using 1
      have hcopy : (if 0 < s.bufferSize then arraycopy s.buf 0 s.bufferSize else .ok []) =
          .ok s.content := by
        split
        · rename_i hnonempty
          obtain ⟨bytes, hb⟩ := Option.isSome_iff_exists.mp (buf_isSome_of_size hsize hnonempty)
          simp only [content, hb, Option.getD_some] at hsize ⊢
          simp [arraycopy, hsize]
        · have hnil : s.content = [] := List.length_eq_zero_iff.mp (by omega)
          rw [hnil]
      have hlength : ((s.content ++ data).length : Int) = s.bufferSize + data.length := by
        rw [List.length_append, hsize]
        omega
      unfold appendOnly
      dsimp only
      rw [hint, if_neg (by omega), newArray_eq (by omega), hcopy]
      simp only [extendCount, appendedBehind, hlength]
      split <;> rfl
    · have hfull : s.appendOnly data = .thrown .bufferFullException s := by
        unfold appendOnly
        dsimp only
        rw [hint, if_pos (by omega)]
      rw [hfull]
      exact .full hopen (by omega) (by omega)

/-- An append that drops the bytes before the cursor. -/
private theorem appendAndShrink_outcome (h : InRange s) (hopen : s.isFinished = false)
    (hmarked : ¬ s.Marked) (hdata : data.length < 2 ^ 31) :
    AppendOutcome s data (s.appendAndShrink data) := by
  have hmax : MAX_BUFFER_SIZE = 2048000 := rfl
  have hcap := h.capacity
  have hpos := h.pos_nonneg
  have hle := h.pos_le
  have hlen := h.unread_length
  have hkept : s.kept = s.bufferSize - s.pos := if_neg hmarked
  by_cases hroom : s.kept + data.length ≤ MAX_BUFFER_SIZE
  · have hroom' : s.hasRoom data := by
      unfold hasRoom
      rw [List.length_append]
      omega
    rw [h.appendAndShrink_eq hroom']
    exact .shrunk hopen hmarked hroom
  · rw [h.appendAndShrink_unfold]
    by_cases hwrap : 2 ^ 31 ≤ s.kept + data.length
    · convert AppendOutcome.wrappedShrunk hopen hmarked hwrap using 1
      have hneg : toInt (s.bufferSize - s.pos + data.length) < 0 := by
        rw [toInt_eq_sub (by omega) (by omega)]
        omega
      rw [if_neg (by omega), unreadBytes, if_pos (by omega), newArray, if_pos hneg]
      rfl
    · rw [toInt_eq (by omega) (by omega), if_pos (by omega)]
      exact .full hopen (by omega) (by omega)

/-- Each append of a Java array has one of the listed outcomes. -/
theorem append_outcome (h : InRange s) (hdata : data.length < 2 ^ 31) :
    AppendOutcome s data (s.append data) := by
  unfold append
  cases hfinished : s.isFinished with
  | true =>
    rw [if_pos rfl]
    exact .finished hfinished
  | false =>
    rw [if_neg (by simp)]
    split
    · rename_i hmarked
      exact appendOnly_outcome h.size h.capacity hfinished hmarked hdata
    · rename_i hmarked
      exact appendAndShrink_outcome h hfinished hmarked hdata

theorem AppendOutcome.inRange {o : Outcome Throwable DynamicByteArrayInputStream}
    (ho : AppendOutcome s data o) (h : InRange s) : InRange o.state := by
  cases ho with
  | finished | full | wrappedBehind => exact h
  | behind hopen hmarked hroom =>
    rw [kept, if_pos hmarked] at hroom
    exact inRange_appendedBehind h hroom
  | shrunk hopen hmarked hroom =>
    have hlen := h.unread_length
    rw [kept, if_neg hmarked] at hroom
    refine inRange_appendedWith h ?_
    unfold hasRoom
    rw [List.length_append]
    omega
  | wrappedShrunk => exact inRange_misplaced h

/-- An append whose new size is above the range of an `int`. -/
theorem append_wrapped (h : InRange s) (hopen : s.isFinished = false) (hmarked : ¬ s.Marked)
    (hdata : data.length < 2 ^ 31) (hwrap : 2 ^ 31 ≤ s.kept + data.length) :
    s.append data = .thrown .negativeArraySizeException s.misplaced := by
  have hmax : MAX_BUFFER_SIZE = 2048000 := rfl
  have ho := append_outcome h hdata
  generalize s.append data = o at ho
  cases ho with
  | finished hfinished => simp [hopen] at hfinished
  | behind _ h' | wrappedBehind _ h' => exact absurd h' hmarked
  | shrunk | full => omega
  | wrappedShrunk => rfl

/-- An append to a stream that is full. -/
theorem append_full (h : InRange s) (hopen : s.isFinished = false)
    (hfull : MAX_BUFFER_SIZE < s.kept + data.length) (hint : s.kept + data.length < 2 ^ 31) :
    s.append data = .thrown .bufferFullException s := by
  have hnonneg : 0 ≤ s.kept := by
    have hpos := h.pos_nonneg
    have hle := h.pos_le
    unfold kept
    split <;> omega
  have ho := append_outcome h (show data.length < 2 ^ 31 by omega)
  generalize s.append data = o at ho
  cases ho with
  | finished hfinished => simp [hopen] at hfinished
  | behind | shrunk | wrappedBehind | wrappedShrunk => omega
  | full => rfl

/-- The array that an append adds. -/
def accepted (data : List UInt8) : Outcome Throwable DynamicByteArrayInputStream → List UInt8
  | .returned _ => data
  | .thrown _ _ => []

/-- An append adds its whole array behind the unread bytes, or nothing. -/
theorem AppendOutcome.unread {o : Outcome Throwable DynamicByteArrayInputStream}
    (ho : AppendOutcome s data o) (h : InRange s) :
    o.state.unread = s.unread ++ accepted data o := by
  cases ho with
  | finished | full | wrappedBehind => exact (List.append_nil _).symm
  | wrappedShrunk => exact (List.append_nil _).symm
  | behind => exact unread_appendedBehind h
  | shrunk => exact unread_appendedWith s data

end Append

/-! ## Reading -/

/-- The outcomes of a read of at most `len` bytes. -/
inductive ReadOutcome (s : DynamicByteArrayInputStream) (len : Int) : Reading → Prop
  | took {n : Nat} (hpos : 0 < n) (hn : s.pos + n ≤ s.count) :
      ReadOutcome s len
        (.returned (.bytes (s.unread.take n)) { s with pos := s.pos + n })
  | rolled {mark : StreamMark} {marks : List StreamMark} (hcount : s.count ≤ s.pos)
      (hmarks : s.newInputStreamMarks = mark :: marks) (hend : mark.endPos ≤ s.pos) :
      ReadOutcome s len (.returned .endOfMessage (s.rolledOver marks))
  | nothing (hcount : s.count ≤ s.pos)
      (hmarks : ∀ mark ∈ s.newInputStreamMarks.head?, s.pos < mark.endPos) :
      ReadOutcome s len (.returned .endOfMessage s)
  | waits (hblocking : s.blocking = true) : ReadOutcome s len .waits
  | wrapped (hlt : s.pos < s.count) (hwrap : 2 ^ 31 ≤ s.pos + len) :
      ReadOutcome s len (.thrown .arrayIndexOutOfBoundsException s)

/-- The bytes that a reading gives. -/
def Reading.data : Reading → List UInt8
  | .returned (.bytes data) _ => data
  | .returned .endOfMessage _ => []
  | .waits => []
  | .thrown _ _ => []

section Read

variable {s : DynamicByteArrayInputStream}

private theorem readAtEnd_outcome (h : InRange s) (hcount : s.count ≤ s.pos) (len : Int) :
    ReadOutcome s len s.readAtEnd := by
  unfold readAtEnd isCurrentStreamFinished
  cases hm : s.newInputStreamMarks with
  | nil =>
    dsimp only
    split
    · rename_i hwaits
      exact .waits (by simpa using (Bool.and_eq_true_iff.mp hwaits).2)
    · exact .nothing hcount (by simp [hm])
  | cons mark marks =>
    by_cases hend : mark.endPos ≤ s.pos
    · simp only [ge_iff_le, if_pos hend, shrinkToNextInputStream_eq h hm, Outcome.map_returned]
      exact .rolled hcount hm hend
    · simp only [ge_iff_le, if_neg hend]
      split
      · rename_i hwaits
        exact .waits (by simpa using hwaits)
      · exact .nothing hcount (by simpa [hm] using hend)

/-- Copying readable bytes. -/
theorem arraycopy_readable (h : InRange s) {n : Nat} (hpos : 0 < n)
    (hn : s.pos + n ≤ s.count) : arraycopy s.buf s.pos n = .ok (s.unread.take n) := by
  have hsize := h.size
  have hcount := h.count_le
  have hnonneg := h.pos_nonneg
  have hcopy := arraycopy_eq hnonneg (Int.natCast_nonneg n) (by omega) (h.buf_isSome (by omega))
  rwa [Int.toNat_natCast] at hcopy

theorem read_outcome (h : InRange s) : ReadOutcome s 1 s.read := by
  unfold read
  split
  · rename_i hlt
    have hcopy := arraycopy_readable h (n := 1) Nat.one_pos (by omega)
    rw [show arraycopy s.buf s.pos 1 = _ from hcopy]
    exact .took (n := 1) Nat.one_pos (by omega)
  · exact readAtEnd_outcome h (by omega) 1

/-- A read into an array that it fits. -/
theorem readInto_outcome (h : InRange s) {bLength off len : Int} (hoff : 0 ≤ off)
    (hlen : 0 < len) (hend : off + len ≤ bLength) (hb : bLength < 2 ^ 31) :
    ReadOutcome s len (s.readInto bLength off len) := by
  have hmax : MAX_BUFFER_SIZE = 2048000 := rfl
  have hcap := h.capacity
  have hpos := h.pos_nonneg
  have hle := h.pos_le
  have hcount := h.count_le
  have hargs : ¬ (off < 0 ∨ off > bLength ∨ len < 0 ∨ toInt (off + len) > bLength ∨
      toInt (off + len) < 0) := by
    rw [toInt_eq (by omega) (by omega)]
    omega
  unfold readInto
  rw [if_neg hargs]
  split
  · exact readAtEnd_outcome h (by omega) len
  · rename_i hlt
    by_cases hwrap : 2 ^ 31 ≤ s.pos + len
    · -- the sum wraps to a negative number, and the length is not cut
      have hbuf := h.buf_isSome (by omega)
      obtain ⟨bytes, hbytes⟩ := Option.isSome_iff_exists.mp hbuf
      have hsize := h.size
      simp only [content, hbytes, Option.getD_some] at hsize
      have hcopy : arraycopy s.buf s.pos len = .error .arrayIndexOutOfBoundsException := by
        rw [hbytes, arraycopy, if_neg (by omega)]
      have huncut : ¬ toInt (s.pos + len) > s.count := by
        rw [toInt_eq_sub (by omega) (by omega)]
        omega
      rw [if_neg huncut, if_neg (by omega), hcopy]
      exact .wrapped (by omega) hwrap
    · obtain ⟨n, rfl⟩ := Int.eq_ofNat_of_zero_le hlen.le
      have hcut : (if toInt (s.pos + n) > s.count then s.count - s.pos else (n : Int)) =
          ((min n (s.count - s.pos).toNat : Nat) : Int) := by
        rw [toInt_eq (by omega) (by omega)]
        split <;> omega
      rw [hcut]
      dsimp only
      rw [if_neg (by omega), arraycopy_readable h (by omega) (by omega)]
      exact .took (by omega) (by omega)

/-- A read of no bytes. -/
theorem readInto_zero (h : InRange s) {bLength off : Int} (hoff : 0 ≤ off) (hend : off ≤ bLength)
    (hb : bLength < 2 ^ 31) : s.readInto bLength off 0 = .returned (.bytes []) s ∨
      ReadOutcome s 0 (s.readInto bLength off 0) := by
  have hmax : MAX_BUFFER_SIZE = 2048000 := rfl
  have hcap := h.capacity
  have hpos := h.pos_nonneg
  have hle := h.pos_le
  have hsum : toInt (off + 0) = off := by rw [toInt_eq (by omega) (by omega), add_zero]
  have hargs : ¬ (off < 0 ∨ off > bLength ∨ (0 : Int) < 0 ∨ toInt (off + 0) > bLength ∨
      toInt (off + 0) < 0) := by omega
  unfold readInto
  rw [if_neg hargs]
  split
  · exact Or.inr (readAtEnd_outcome h (by omega) 0)
  · have hcut : (if toInt (s.pos + 0) > s.count then s.count - s.pos else (0 : Int)) = 0 := by
      rw [toInt_eq (by omega) (by omega), if_neg (by omega)]
    rw [hcut]
    dsimp only
    rw [if_pos (le_refl 0)]
    exact Or.inl rfl

/-- A read with any arguments: a range that does not fit the array is
refused. -/
theorem readInto_cases (h : InRange s) (off : Int) {bLength len : Int} (hb : bLength < 2 ^ 31)
    (hlen : len < 2 ^ 31) :
    ((s.readInto bLength off len).left s = s ∧ (s.readInto bLength off len).data = []) ∨
      ReadOutcome s len (s.readInto bLength off len) := by
  by_cases hargs : off < 0 ∨ off > bLength ∨ len < 0 ∨ toInt (off + len) > bLength ∨
      toInt (off + len) < 0
  · left
    unfold readInto
    rw [if_pos hargs]
    exact ⟨rfl, rfl⟩
  · have hend : off + len ≤ bLength := by
      by_cases hwrap : 2 ^ 31 ≤ off + len
      · have := toInt_eq_sub hwrap (by omega)
        omega
      · have := toInt_eq (x := off + len) (by omega) (by omega)
        omega
    rcases (show 0 ≤ len by omega).eq_or_lt with hzero | hpos
    · subst hzero
      rcases readInto_zero h (show 0 ≤ off by omega) (by omega) hb with hread | ho
      · rw [hread]
        exact Or.inl ⟨rfl, rfl⟩
      · exact Or.inr ho
    · exact Or.inr (readInto_outcome h (by omega) hpos hend hb)

theorem ReadOutcome.inRange {len : Int} {o : Reading} (ho : ReadOutcome s len o)
    (h : InRange s) : InRange (o.left s) := by
  cases ho with
  | took hpos hn =>
    have := h.count_le
    exact inRange_advance h (by omega) (by omega)
  | rolled hcount hmarks => exact inRange_rolledOver h hmarks
  | nothing | waits | wrapped => exact h

/-- A read takes its bytes off the front of the unread ones. -/
theorem ReadOutcome.unread {len : Int} {o : Reading} (ho : ReadOutcome s len o)
    (h : InRange s) : s.unread = o.data ++ (o.left s).unread := by
  cases ho with
  | @took n hpos hn =>
    show s.unread = s.unread.take n ++
      DynamicByteArrayInputStream.unread { s with pos := s.pos + n }
    rw [unread_advance h (by omega), Int.toNat_natCast, List.take_append_drop]
  | rolled | nothing | waits | wrapped => rfl

end Read

end DynamicByteArrayInputStream

end ConnectionSniffer
