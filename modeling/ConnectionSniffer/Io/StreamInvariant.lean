import ConnectionSniffer.Io.DynamicByteArrayInputStream
import Mathlib.Data.List.Basic
import Mathlib.Tactic.Linarith

/-!
# The positions of a stream stay in range

`InRange` bounds the positions of a stream by the bytes it holds, and
`Sane` adds that no mark is set.  Every method keeps both, and in a sane
stream the exceptions of `arraycopy`, `newArray` and `moveForwardMarks` are
out of reach: an append throws only when the stream is finished or full,
and `append_eq` says what it does otherwise.
-/

namespace ConnectionSniffer

/-- Not one of the exceptions that the packet buffer and the checks of the
handshake throw. -/
def Throwable.isRefusal : Throwable → Bool
  | .packetsBufferFullException => false
  | .runtimeException _ => false
  | _ => true

def Throwable.isAlreadyFinished : Throwable → Bool
  | .alreadyFinishedStreamException _ => true
  | _ => false

namespace DynamicByteArrayInputStream

/-- The bytes in the buffer. -/
def content (s : DynamicByteArrayInputStream) : List UInt8 := s.buf.getD []

/-- The bytes after the cursor. -/
def unread (s : DynamicByteArrayInputStream) : List UInt8 := s.content.drop s.pos.toNat

/-- The positions are in range. -/
structure InRange (s : DynamicByteArrayInputStream) : Prop where
  size : s.bufferSize = s.content.length
  pos_nonneg : 0 ≤ s.pos
  pos_le : s.pos ≤ s.bufferSize
  count_le : s.count ≤ s.bufferSize
  marks_le : ∀ mark ∈ s.newInputStreamMarks, mark.endPos ≤ s.bufferSize
  buf_of_marks : s.newInputStreamMarks ≠ [] → s.buf.isSome
  capacity : s.bufferSize ≤ MAX_BUFFER_SIZE

/-- The positions are in range, and no mark is set.  Only `mark` sets
`markedPos`, and the connections never call it. -/
structure Sane (s : DynamicByteArrayInputStream) : Prop where
  size : s.bufferSize = s.content.length
  pos_nonneg : 0 ≤ s.pos
  pos_le : s.pos ≤ s.bufferSize
  count_le : s.count ≤ s.bufferSize
  marks_le : ∀ mark ∈ s.newInputStreamMarks, mark.endPos ≤ s.bufferSize
  buf_of_marks : s.newInputStreamMarks ≠ [] → s.buf.isSome
  markedPos : s.markedPos = -1
  capacity : s.bufferSize ≤ MAX_BUFFER_SIZE

theorem Sane.inRange {s : DynamicByteArrayInputStream} (h : Sane s) : InRange s := { h with }

theorem InRange.sane {s : DynamicByteArrayInputStream} (h : InRange s)
    (hmark : s.markedPos = -1) : Sane s :=
  { h with markedPos := hmark }

/-- A stream that has just been created. -/
theorem sane_create (startTime : Date) :
    Sane { currentStreamStartTime := startTime } where
  size := rfl
  pos_nonneg := le_refl _
  pos_le := le_refl _
  count_le := le_refl _
  marks_le := by simp
  buf_of_marks := by simp
  markedPos := rfl
  capacity := by
    show (0 : Int) ≤ 2000 * 1024
    decide

/-! ## The primitives do not throw -/

theorem newArray_eq {size : Int} (h : 0 ≤ size) : newArray size = .ok () :=
  if_neg (by omega)

/-- A copy of bytes that are there. -/
theorem arraycopy_eq {s : DynamicByteArrayInputStream} {len : Int} (hpos : 0 ≤ s.pos)
    (hlen : 0 ≤ len) (hend : s.pos + len ≤ s.content.length) (hbuf : s.buf.isSome) :
    arraycopy s.buf s.pos len = .ok (s.unread.take len.toNat) := by
  obtain ⟨bytes, hb⟩ := Option.isSome_iff_exists.mp hbuf
  have hend' : s.pos + len ≤ bytes.length := by simpa [content, hb] using hend
  simp [arraycopy, unread, content, hb, hpos, hlen, hend']

theorem lastEndPos_le {s : DynamicByteArrayInputStream} {bound endPos : Int}
    (h : ∀ mark ∈ s.newInputStreamMarks, mark.endPos ≤ bound)
    (hlast : s.lastEndPos = some endPos) : endPos ≤ bound := by
  obtain ⟨mark, hmark, rfl⟩ := Option.map_eq_some_iff.mp hlast
  exact h mark (List.mem_of_getLast? hmark)

/-- The stream with its end marks shifted. -/
def shifted (s : DynamicByteArrayInputStream) (pos : Int) : DynamicByteArrayInputStream :=
  { s with
    newInputStreamMarks :=
      s.newInputStreamMarks.map (fun mark : StreamMark => mark.moveEndPosForward pos) }

theorem moveForwardMarks_eq {s : DynamicByteArrayInputStream} {pos : Int}
    (h : ∀ mark ∈ s.newInputStreamMarks, mark.endPos - pos ≤ s.bufferSize) :
    s.moveForwardMarks pos = .returned (s.shifted pos) := by
  have hle : ∀ endPos, (s.shifted pos).lastEndPos = some endPos → ¬ endPos > s.bufferSize := by
    intro endPos hlast
    have hmarks : ∀ mark ∈ (s.shifted pos).newInputStreamMarks, mark.endPos ≤ s.bufferSize := by
      intro mark hmem
      obtain ⟨mark', hmem', rfl⟩ := List.mem_map.mp hmem
      exact h mark' hmem'
    have := lastEndPos_le hmarks hlast
    omega
  unfold moveForwardMarks
  dsimp only
  split
  · next endPos hlast => exact if_neg (hle endPos hlast)
  · rfl

/-! ## Appending -/

/-- What an append leaves: the unread bytes and the new ones. -/
def appendedWith (s : DynamicByteArrayInputStream) (data : List UInt8) :
    DynamicByteArrayInputStream :=
  { s with
    buf := some (s.unread ++ data)
    pos := 0
    count :=
      if s.count - s.pos = 0 ∨ s.newInputStreamMarks = [] then ((s.unread ++ data).length : Int)
      else s.count - s.pos
    bufferSize := (s.unread ++ data).length
    newInputStreamMarks :=
      s.newInputStreamMarks.map (fun mark : StreamMark => mark.moveEndPosForward s.pos)
    appended := s.appended ++ data }

/-- The number of bytes an append finds room for. -/
def hasRoom (s : DynamicByteArrayInputStream) (data : List UInt8) : Prop :=
  ((s.unread ++ data).length : Int) ≤ MAX_BUFFER_SIZE

instance (s : DynamicByteArrayInputStream) (data : List UInt8) : Decidable (s.hasRoom data) :=
  inferInstanceAs (Decidable (_ ≤ _))

/-- A buffer with bytes is an array. -/
theorem buf_isSome_of_size {s : DynamicByteArrayInputStream}
    (hsize : s.bufferSize = s.content.length) (hpos : 0 < s.bufferSize) : s.buf.isSome := by
  cases hb : s.buf with
  | none =>
    simp only [content, hb, Option.getD_none, List.length_nil] at hsize
    omega
  | some bytes => rfl

namespace InRange

variable {s : DynamicByteArrayInputStream}

theorem unread_length (h : InRange s) : (s.unread.length : Int) = s.bufferSize - s.pos := by
  have := h.size
  have := h.pos_nonneg
  have := h.pos_le
  rw [unread, List.length_drop]
  omega

/-- A buffer that is not empty is an array. -/
theorem buf_isSome (h : InRange s) (hsize : 0 < s.bufferSize) : s.buf.isSome :=
  buf_isSome_of_size h.size hsize

/-- Copying the unread bytes. -/
theorem arraycopy_unread (h : InRange s) (hbuf : s.buf.isSome) :
    arraycopy s.buf s.pos (s.bufferSize - s.pos) = .ok s.unread := by
  have hlen := h.unread_length
  have hsize := h.size
  rw [arraycopy_eq h.pos_nonneg (by omega) (by omega) hbuf, ← hlen]
  simp

/-- `appendAndShrink` with the checks left out that a stream in range
passes. -/
theorem appendAndShrink_unfold (h : InRange s) (data : List UInt8) :
    s.appendAndShrink data =
      if toInt (s.bufferSize - s.pos + data.length) > MAX_BUFFER_SIZE then
        .thrown .bufferFullException s
      else
        match s.unreadBytes (s.bufferSize - s.pos) (toInt (s.bufferSize - s.pos + data.length)) with
        | .error e => .thrown e (shifted { s with count := s.count - s.pos } s.pos)
        | .ok unread =>
          .returned ({ shifted { s with count := s.count - s.pos } s.pos with
            buf := some (unread ++ data)
            pos := 0
            bufferSize := (unread ++ data).length
            appended := s.appended ++ data }).extendCount := by
  have hmove : moveForwardMarks { s with count := s.count - s.pos } s.pos =
      .returned (shifted { s with count := s.count - s.pos } s.pos) := by
    refine moveForwardMarks_eq fun mark hmem => ?_
    have : mark.endPos ≤ s.bufferSize := h.marks_le mark hmem
    have := h.pos_nonneg
    show mark.endPos - s.pos ≤ s.bufferSize
    omega
  unfold appendAndShrink
  simp only [hmove, Outcome.andThen_returned]
  rfl

private theorem unreadBytes_eq (h : InRange s) {newSize : Int} (hsize : 0 ≤ newSize) :
    s.unreadBytes (s.bufferSize - s.pos) newSize = .ok s.unread := by
  have hlen := h.unread_length
  unfold unreadBytes
  by_cases hav : 0 < s.bufferSize - s.pos
  · have := h.pos_nonneg
    rw [if_pos hav, newArray_eq hsize]
    exact h.arraycopy_unread (h.buf_isSome (by omega))
  · have hnil : s.unread = [] := List.length_eq_zero_iff.mp (by omega)
    rw [if_neg hav, hnil]

/-- An append that finds room and drops the bytes before the cursor. -/
theorem appendAndShrink_eq (h : InRange s) {data : List UInt8} (hroom : s.hasRoom data) :
    s.appendAndShrink data = .returned (s.appendedWith data) := by
  have hlen := h.unread_length
  have hroom' : s.bufferSize - s.pos + data.length ≤ MAX_BUFFER_SIZE := by
    simpa [hasRoom, hlen] using hroom
  have hmax : MAX_BUFFER_SIZE = 2048000 := rfl
  have hle := h.pos_le
  rw [h.appendAndShrink_unfold, toInt_eq (by omega) (by omega), if_neg (by omega),
    h.unreadBytes_eq (by omega)]
  simp only [extendCount, appendedWith, shifted, List.map_eq_nil_iff]
  by_cases hcount : s.count - s.pos = 0 ∨ s.newInputStreamMarks = [] <;> simp [hcount]

end InRange

namespace Sane

variable {s : DynamicByteArrayInputStream}

theorem unread_length (h : Sane s) : (s.unread.length : Int) = s.bufferSize - s.pos :=
  h.inRange.unread_length

/-- `append` on a stream that is open and not marked. -/
theorem append_eq_appendAndShrink (h : Sane s) (hfin : s.isFinished = false)
    (data : List UInt8) : s.append data = s.appendAndShrink data := by
  have hmark : ¬ (0 ≤ s.markedPos ∧ s.pos - s.markedPos ≤ s.readLimit) := by
    rw [h.markedPos]
    omega
  unfold append
  rw [if_neg (by simp [hfin]), if_neg hmark]

private theorem append_unfold (h : Sane s) (hfin : s.isFinished = false) (data : List UInt8) :
    s.append data =
      if toInt (s.bufferSize - s.pos + data.length) > MAX_BUFFER_SIZE then
        .thrown .bufferFullException s
      else
        match s.unreadBytes (s.bufferSize - s.pos) (toInt (s.bufferSize - s.pos + data.length)) with
        | .error e => .thrown e (shifted { s with count := s.count - s.pos } s.pos)
        | .ok unread =>
          .returned ({ shifted { s with count := s.count - s.pos } s.pos with
            buf := some (unread ++ data)
            pos := 0
            bufferSize := (unread ++ data).length
            appended := s.appended ++ data }).extendCount :=
  (h.append_eq_appendAndShrink hfin data).trans (h.inRange.appendAndShrink_unfold data)

/-- An append to a stream that is neither finished nor full. -/
theorem append_eq (h : Sane s) (hfin : s.isFinished = false) {data : List UInt8}
    (hroom : s.hasRoom data) : s.append data = .returned (s.appendedWith data) :=
  (h.append_eq_appendAndShrink hfin data).trans (h.inRange.appendAndShrink_eq hroom)

/-- An append of a Java array that returned found room. -/
theorem hasRoom_of_append (h : Sane s) {data : List UInt8} (hdata : data.length < 2 ^ 31)
    (hret : (s.append data).isReturned = true) : s.isFinished = false ∧ s.hasRoom data := by
  have hfin : s.isFinished = false := by
    cases hf : s.isFinished with
    | true => simp [append, hf] at hret
    | false => rfl
  have hmax : MAX_BUFFER_SIZE = 2048000 := rfl
  have hpos := h.pos_nonneg
  have hle := h.pos_le
  have hcap := h.capacity
  have hlen := h.unread_length
  refine ⟨hfin, ?_⟩
  by_contra hroom
  have hbig : MAX_BUFFER_SIZE < s.bufferSize - s.pos + data.length := by
    simpa [hasRoom, hlen] using hroom
  rw [h.append_unfold hfin] at hret
  by_cases hwrap : s.bufferSize - s.pos + data.length < 2 ^ 31
  · rw [toInt_eq (by omega) hwrap, if_pos (by omega)] at hret
    simp at hret
  · -- the sum wraps to a negative size, and `new byte[newSize]` throws
    have hneg : toInt (s.bufferSize - s.pos + data.length) < 0 := by
      rw [toInt_eq_sub (by omega) (by omega)]
      omega
    have hav : 0 < s.bufferSize - s.pos := by omega
    rw [if_neg (by omega), unreadBytes, if_pos hav, newArray, if_pos hneg] at hret
    simp at hret

/-- An append that throws leaves the stream as it was, as long as the array
is no longer than a captured payload. -/
theorem append_thrown (h : Sane s) {data : List UInt8} (hdata : data.length < 2 ^ 16)
    (hno : s.isFinished = true ∨ ¬ s.hasRoom data) :
    ∃ e, s.append data = .thrown e s := by
  cases hfin : s.isFinished with
  | true => exact ⟨_, by simp only [append, hfin, if_true]; rfl⟩
  | false =>
    have hlen := h.unread_length
    have hmax : MAX_BUFFER_SIZE = 2048000 := rfl
    have hpos := h.pos_nonneg
    have hcap := h.capacity
    have hle := h.pos_le
    have hroom : MAX_BUFFER_SIZE < s.bufferSize - s.pos + data.length := by
      simpa [hasRoom, hlen] using hno.resolve_left (by simp [hfin])
    refine ⟨.bufferFullException, ?_⟩
    rw [h.append_unfold hfin, toInt_eq (by omega) (by omega), if_pos (by omega)]

end Sane

/-! ## Every method keeps the positions in range -/

section Keeps

variable {s : DynamicByteArrayInputStream}

@[simp] theorem unread_appendedWith (s : DynamicByteArrayInputStream) (data : List UInt8) :
    (s.appendedWith data).unread = s.unread ++ data := rfl

theorem inRange_appendedWith (h : InRange s) {data : List UInt8} (hroom : s.hasRoom data) :
    InRange (s.appendedWith data) where
  size := rfl
  pos_nonneg := le_refl _
  pos_le := Int.natCast_nonneg _
  count_le := by
    have hlen := h.unread_length
    have := h.count_le
    simp only [appendedWith, List.length_append, Nat.cast_add]
    split <;> omega
  marks_le := by
    have hlen := h.unread_length
    intro mark hmem
    obtain ⟨mark', hmem', rfl⟩ := List.mem_map.mp hmem
    have : mark'.endPos ≤ s.bufferSize := h.marks_le mark' hmem'
    simp only [appendedWith, StreamMark.moveEndPosForward, List.length_append, Nat.cast_add]
    omega
  buf_of_marks := fun _ => rfl
  capacity := hroom

theorem sane_appendedWith (h : Sane s) {data : List UInt8} (hroom : s.hasRoom data) :
    Sane (s.appendedWith data) :=
  (inRange_appendedWith h.inRange hroom).sane h.markedPos

theorem sane_append (h : Sane s) {data : List UInt8} (hdata : data.length < 2 ^ 16) :
    (s.append data).Sat Sane Sane := by
  by_cases hno : s.isFinished = true ∨ ¬ s.hasRoom data
  · obtain ⟨e, he⟩ := h.append_thrown hdata hno
    rw [he]
    exact h
  · obtain ⟨hopen, hroom⟩ := not_or.mp hno
    rw [h.append_eq (by simpa using hopen) (not_not.mp hroom)]
    exact sane_appendedWith h (not_not.mp hroom)

@[simp] theorem markedPos_finish (s : DynamicByteArrayInputStream) (markFinish : Bool)
    (endTime : Date) : (s.finish markFinish endTime).2.markedPos = s.markedPos := by
  unfold finish addMarkPos
  split_ifs <;> rfl

theorem inRange_addMarkPos (h : InRange s) (endTime : Date) :
    InRange (s.addMarkPos endTime).2 := by
  unfold addMarkPos
  split
  · rename_i hadd
    refine { h with marks_le := ?_, buf_of_marks := fun _ => h.buf_isSome hadd.1 }
    intro mark hmem
    rcases List.mem_append.mp hmem with hold | hnew
    · exact h.marks_le mark hold
    · obtain rfl := List.mem_singleton.mp hnew
      exact le_refl _
  · exact h

theorem inRange_finish (h : InRange s) (markFinish : Bool) (endTime : Date) :
    InRange (s.finish markFinish endTime).2 := by
  have hmark := inRange_addMarkPos h endTime
  unfold finish
  split_ifs
  · exact hmark
  · exact { hmark with }

theorem sane_addMarkPos (h : Sane s) (endTime : Date) : Sane (s.addMarkPos endTime).2 := by
  refine (inRange_addMarkPos h.inRange endTime).sane ?_
  rw [← h.markedPos]
  unfold addMarkPos
  split_ifs <;> rfl

theorem sane_finish (h : Sane s) (markFinish : Bool) (endTime : Date) :
    Sane (s.finish markFinish endTime).2 :=
  (inRange_finish h.inRange markFinish endTime).sane
    ((markedPos_finish s markFinish endTime).trans h.markedPos)

theorem sane_markStreamStartTime (h : Sane s) (startTime : Date) :
    Sane (s.markStreamStartTime startTime) := { h with }

/-- The stream after a roll-over. -/
def rolledOver (s : DynamicByteArrayInputStream) (marks : List StreamMark) :
    DynamicByteArrayInputStream :=
  let marks := marks.map (fun mark : StreamMark => mark.moveEndPosForward s.pos)
  { s with
    buf := some s.unread
    bufferSize := s.unread.length
    newInputStreamMarks := marks
    count := (marks.head?.map StreamMark.endPos).getD s.unread.length
    pos := 0
    markedPos := -1 }

/-- A roll-over does not throw. -/
theorem shrinkToNextInputStream_eq (h : InRange s) {mark : StreamMark} {marks : List StreamMark}
    (hmarks : s.newInputStreamMarks = mark :: marks) :
    s.shrinkToNextInputStream = .returned (s.rolledOver marks) := by
  have hlen := h.unread_length
  have hpos := h.pos_nonneg
  have hle := h.pos_le
  have hbuf := h.buf_of_marks (by simp [hmarks])
  have hcopy := h.arraycopy_unread hbuf
  have hmove : moveForwardMarks { s with
      buf := some s.unread
      bufferSize := s.unread.length
      newInputStreamMarks := marks } s.pos = .returned (shifted { s with
      buf := some s.unread
      bufferSize := s.unread.length
      newInputStreamMarks := marks } s.pos) := by
    refine moveForwardMarks_eq fun mark' hmem => ?_
    have : mark'.endPos ≤ s.bufferSize := h.marks_le mark' (by rw [hmarks]; simp [hmem])
    show mark'.endPos - s.pos ≤ (s.unread.length : Int)
    omega
  unfold shrinkToNextInputStream
  simp only [hmarks, newArray_eq (show 0 ≤ s.bufferSize - s.pos by omega), hcopy, hmove,
    Outcome.andThen_returned]
  rfl

theorem inRange_rolledOver (h : InRange s) {mark : StreamMark} {marks : List StreamMark}
    (hmarks : s.newInputStreamMarks = mark :: marks) : InRange (s.rolledOver marks) := by
  have hlen := h.unread_length
  have hpos := h.pos_nonneg
  have hmark : ∀ mark' ∈ marks.map (fun mark : StreamMark => mark.moveEndPosForward s.pos),
      mark'.endPos ≤ (s.unread.length : Int) := by
    intro mark' hmem
    obtain ⟨mark'', hmem'', rfl⟩ := List.mem_map.mp hmem
    have : mark''.endPos ≤ s.bufferSize := h.marks_le mark'' (by rw [hmarks]; simp [hmem''])
    simp only [StreamMark.moveEndPosForward]
    omega
  exact
    { size := rfl
      pos_nonneg := le_refl _
      pos_le := Int.natCast_nonneg _
      count_le := by
        show ((marks.map (fun mark : StreamMark => mark.moveEndPosForward s.pos)).head?.map
          StreamMark.endPos).getD s.unread.length ≤ _
        cases hh : (marks.map (fun mark : StreamMark => mark.moveEndPosForward s.pos)).head? with
        | none => exact le_refl _
        | some mark' => exact hmark mark' (List.mem_of_mem_head? hh)
      marks_le := hmark
      buf_of_marks := fun _ => rfl
      capacity := by
        have := h.capacity
        show (s.unread.length : Int) ≤ _
        omega }

theorem sane_rolledOver (h : Sane s) {mark : StreamMark} {marks : List StreamMark}
    (hmarks : s.newInputStreamMarks = mark :: marks) : Sane (s.rolledOver marks) :=
  (inRange_rolledOver h.inRange hmarks).sane rfl

private theorem isCurrentStreamFinished_sane (h : Sane s) :
    ∃ finished s', s.isCurrentStreamFinished = .returned (finished, s') ∧ Sane s' ∧
      s'.unread = s.unread := by
  unfold isCurrentStreamFinished
  cases hm : s.newInputStreamMarks with
  | nil => exact ⟨_, _, rfl, h, rfl⟩
  | cons mark marks =>
    by_cases hpos : s.pos ≥ mark.endPos
    · refine ⟨true, s.rolledOver marks, ?_, sane_rolledOver h hm, rfl⟩
      simp only [if_pos hpos, shrinkToNextInputStream_eq h.inRange hm, Outcome.map_returned]
    · exact ⟨false, s, by simp only [if_neg hpos], h, rfl⟩

/-! ## What the methods do to `appended` and `isFinished` -/

@[simp] theorem appended_finish (s : DynamicByteArrayInputStream) (markFinish : Bool)
    (endTime : Date) : (s.finish markFinish endTime).2.appended = s.appended := by
  unfold finish addMarkPos
  split_ifs <;> rfl

@[simp] theorem isFinished_finish (s : DynamicByteArrayInputStream) (markFinish : Bool)
    (endTime : Date) :
    (s.finish markFinish endTime).2.isFinished = (s.isFinished || !markFinish) := by
  unfold finish addMarkPos
  cases markFinish
  · simp
  · simp only [if_true]
    split_ifs <;> simp

@[simp] theorem unread_finish (s : DynamicByteArrayInputStream) (markFinish : Bool)
    (endTime : Date) : (s.finish markFinish endTime).2.unread = s.unread := by
  unfold finish addMarkPos
  split_ifs <;> rfl

@[simp] theorem appended_markStreamStartTime (s : DynamicByteArrayInputStream)
    (startTime : Date) : (s.markStreamStartTime startTime).appended = s.appended := rfl

@[simp] theorem isFinished_markStreamStartTime (s : DynamicByteArrayInputStream)
    (startTime : Date) : (s.markStreamStartTime startTime).isFinished = s.isFinished := rfl

private theorem extendCount_frame (s : DynamicByteArrayInputStream) :
    s.extendCount.appended = s.appended ∧ s.extendCount.isFinished = s.isFinished := by
  unfold extendCount
  split <;> exact ⟨rfl, rfl⟩

private theorem moveForwardMarks_frame (s : DynamicByteArrayInputStream) (pos : Int) :
    (s.moveForwardMarks pos).Sat
      (fun s' => s'.appended = s.appended ∧ s'.isFinished = s.isFinished)
      (fun s' => s'.appended = s.appended ∧ s'.isFinished = s.isFinished) := by
  unfold moveForwardMarks
  dsimp only
  split
  · split <;> exact ⟨rfl, rfl⟩
  · exact ⟨rfl, rfl⟩

/-- An append that returns was made to an open stream, and it adds its
bytes; one that throws adds none. -/
theorem append_frame (s : DynamicByteArrayInputStream) (data : List UInt8) :
    (s.append data).Sat
      (fun s' => s.isFinished = false ∧ s'.isFinished = false ∧
        s'.appended = s.appended ++ data)
      (fun s' => s'.isFinished = s.isFinished ∧ s'.appended = s.appended) := by
  unfold append
  cases hfin : s.isFinished with
  | true => exact ⟨hfin, rfl⟩
  | false =>
    simp only [Bool.false_eq_true, if_false]
    split
    · unfold appendOnly
      dsimp only
      split
      · exact ⟨hfin, rfl⟩
      · split
        · exact ⟨hfin, rfl⟩
        · split
          · exact ⟨hfin, rfl⟩
          · obtain ⟨happ, hf⟩ := extendCount_frame { s with
              buf := _, bufferSize := _, appended := s.appended ++ data }
            exact ⟨trivial, hf.trans hfin, happ⟩
    · unfold appendAndShrink
      dsimp only
      split
      · exact ⟨hfin, rfl⟩
      · refine Outcome.Sat.andThen
          (Q := fun s' => s'.appended = s.appended ∧ s'.isFinished = s.isFinished) ?_ ?_
        · refine (moveForwardMarks_frame _ _).mono (fun s' h => h) ?_
          rintro s' ⟨happ, hf⟩
          exact ⟨hf.trans hfin, happ⟩
        · rintro s' ⟨happ, hf⟩
          split
          · exact ⟨hf.trans hfin, happ⟩
          · obtain ⟨happ', hf'⟩ := extendCount_frame { s' with
              buf := _, pos := 0, bufferSize := _, appended := s'.appended ++ data }
            exact ⟨trivial, hf'.trans (hf.trans hfin), happ'.trans (by rw [happ])⟩

private theorem readAtEnd_frame (s : DynamicByteArrayInputStream) :
    (s.readAtEnd.left s).appended = s.appended ∧
      (s.readAtEnd.left s).isFinished = s.isFinished := by
  have hshrink : s.shrinkToNextInputStream.Sat
      (fun s' => s'.appended = s.appended ∧ s'.isFinished = s.isFinished)
      (fun s' => s'.appended = s.appended ∧ s'.isFinished = s.isFinished) := by
    unfold shrinkToNextInputStream
    split
    · exact ⟨rfl, rfl⟩
    · dsimp only
      split
      · exact ⟨rfl, rfl⟩
      · split
        · exact ⟨rfl, rfl⟩
        · exact Outcome.Sat.andThen (moveForwardMarks_frame _ _) (fun _ h => h)
  have hasked : s.isCurrentStreamFinished.Sat
      (fun r => r.2.appended = s.appended ∧ r.2.isFinished = s.isFinished)
      (fun r => r.2.appended = s.appended ∧ r.2.isFinished = s.isFinished) := by
    unfold isCurrentStreamFinished
    split
    · split
      · rw [Outcome.sat_map]
        exact hshrink
      · exact ⟨rfl, rfl⟩
    · exact ⟨rfl, rfl⟩
  unfold readAtEnd
  split
  · rename_i hr
    rw [hr] at hasked
    exact hasked
  · rename_i hr
    rw [hr] at hasked
    split
    · exact ⟨rfl, rfl⟩
    · exact hasked

theorem read_frame (s : DynamicByteArrayInputStream) :
    (s.read.left s).appended = s.appended ∧ (s.read.left s).isFinished = s.isFinished := by
  unfold read
  split
  · split <;> exact ⟨rfl, rfl⟩
  · exact readAtEnd_frame s

theorem readInto_frame (s : DynamicByteArrayInputStream) (bLength off len : Int) :
    ((s.readInto bLength off len).left s).appended = s.appended ∧
      ((s.readInto bLength off len).left s).isFinished = s.isFinished := by
  unfold readInto
  split
  · exact ⟨rfl, rfl⟩
  · split
    · exact readAtEnd_frame s
    · generalize (if toInt (s.pos + len) > s.count then s.count - s.pos else len) = n
      dsimp only
      split
      · exact ⟨rfl, rfl⟩
      · split <;> exact ⟨rfl, rfl⟩

/-! ## Reads keep the positions in range -/

/-- A sane stream with at most the unread bytes of `s`, up to the end. -/
def Leaves (s s' : DynamicByteArrayInputStream) : Prop := Sane s' ∧ s'.unread <:+ s.unread

private theorem readAtEnd_leaves (h : Sane s) : Leaves s (s.readAtEnd.left s) := by
  obtain ⟨finished, s', hs', hsane, hunread⟩ := isCurrentStreamFinished_sane h
  unfold readAtEnd
  rw [hs']
  dsimp only
  split
  · exact ⟨h, List.suffix_rfl⟩
  · exact ⟨hsane, hunread ▸ List.suffix_rfl⟩

theorem inRange_advance (h : InRange s) {len : Int} (hlen : 0 ≤ len)
    (hend : s.pos + len ≤ s.bufferSize) : InRange { s with pos := s.pos + len } := by
  have hpos := h.pos_nonneg
  exact { h with pos_nonneg := by show 0 ≤ s.pos + len; omega, pos_le := hend }

theorem unread_advance (h : InRange s) {len : Int} (hlen : 0 ≤ len) :
    DynamicByteArrayInputStream.unread { s with pos := s.pos + len } =
      s.unread.drop len.toNat := by
  have hpos := h.pos_nonneg
  have hdrop : (s.pos + len).toNat = s.pos.toNat + len.toNat := by omega
  show s.content.drop (s.pos + len).toNat = (s.content.drop s.pos.toNat).drop len.toNat
  rw [hdrop, List.drop_drop]

/-- Moving the cursor forward. -/
private theorem advance_leaves (h : Sane s) {len : Int} (hlen : 0 ≤ len)
    (hend : s.pos + len ≤ s.bufferSize) : Leaves s { s with pos := s.pos + len } := by
  refine ⟨(inRange_advance h.inRange hlen hend).sane h.markedPos, ?_⟩
  rw [unread_advance h.inRange hlen]
  exact List.drop_suffix _ _

theorem read_leaves (h : Sane s) : Leaves s (s.read.left s) := by
  unfold read
  split
  · rename_i hlt
    have hcount := h.count_le
    have hleaves := advance_leaves h Int.one_nonneg (by omega)
    cases arraycopy s.buf s.pos 1 with
    | error e => exact hleaves
    | ok data => exact hleaves
  · exact readAtEnd_leaves h

theorem readInto_leaves (h : Sane s) (bLength off len : Int) :
    Leaves s ((s.readInto bLength off len).left s) := by
  have hsame : Leaves s s := ⟨h, List.suffix_rfl⟩
  unfold readInto
  split
  · exact hsame
  split
  · exact readAtEnd_leaves h
  generalize (if toInt (s.pos + len) > s.count then s.count - s.pos else len) = n
  dsimp only
  split
  · exact hsame
  · rename_i hn
    cases hcopy : arraycopy s.buf s.pos n with
    | error e => exact hsame
    | ok data =>
      refine advance_leaves h (by omega) ?_
      have hsize := h.size
      unfold arraycopy at hcopy
      cases hb : s.buf with
      | none => simp [hb] at hcopy
      | some bytes =>
        rw [hb] at hcopy
        dsimp only at hcopy
        split at hcopy
        · rename_i hin
          simp only [content, hb, Option.getD_some] at hsize
          omega
        · exact absurd hcopy (by simp)

end Keeps

/-! ## What a stream throws -/

section Throws

/-- One of the exceptions of a stream, `alreadyFinishedStreamException` only
where the stream is finished. -/
def Refuses (s : DynamicByteArrayInputStream) (e : Throwable) : Prop :=
  e.isRefusal = true ∧ (e.isAlreadyFinished = true → s.isFinished = true)

variable (s : DynamicByteArrayInputStream)

private theorem refuses_of_array {e : Throwable} (h : e = .nullPointerException ∨
    e = .arrayIndexOutOfBoundsException ∨ e = .negativeArraySizeException) : s.Refuses e := by
  rcases h with rfl | rfl | rfl <;> exact ⟨rfl, by simp [Throwable.isAlreadyFinished]⟩

private theorem arraycopy_refuses {src : Option (List UInt8)} {srcPos length : Int} {e : Throwable}
    (h : arraycopy src srcPos length = .error e) : s.Refuses e := by
  unfold arraycopy at h
  split at h
  · exact s.refuses_of_array (Or.inl (Except.error.inj h).symm)
  · split at h
    · simp at h
    · exact s.refuses_of_array (Or.inr (Or.inl (Except.error.inj h).symm))

private theorem newArray_refuses {size : Int} {e : Throwable} (h : newArray size = .error e) :
    s.Refuses e := by
  unfold newArray at h
  split at h
  · exact s.refuses_of_array (Or.inr (Or.inr (Except.error.inj h).symm))
  · simp at h

theorem append_throws (newBytes : List UInt8) : (s.append newBytes).Throws s.Refuses := by
  have hother : s.Refuses .bufferFullException ∧ s.Refuses .indexOutOfBoundsException := by
    constructor <;> exact ⟨rfl, by simp [Throwable.isAlreadyFinished]⟩
  unfold append
  split
  · rename_i hfinished
    exact ⟨rfl, fun _ => hfinished⟩
  · split
    · unfold appendOnly
      dsimp only
      split
      · exact hother.1
      · split
        · exact s.newArray_refuses ‹_›
        · split
          · rename_i hcopy
            split at hcopy
            · exact s.arraycopy_refuses hcopy
            · simp at hcopy
          · trivial
    · unfold appendAndShrink
      dsimp only
      split
      · exact hother.1
      · refine Outcome.Throws.andThen ?_ fun s' => ?_
        · unfold moveForwardMarks
          dsimp only
          split
          · split
            · exact hother.2
            · trivial
          · trivial
        · split
          · rename_i hunread
            unfold unreadBytes at hunread
            split at hunread
            · split at hunread
              · obtain rfl := Except.error.inj hunread
                exact s.newArray_refuses ‹_›
              · exact s.arraycopy_refuses hunread
            · simp at hunread
          · trivial

end Throws

end DynamicByteArrayInputStream

end ConnectionSniffer
