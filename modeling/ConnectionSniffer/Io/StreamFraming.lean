import ConnectionSniffer.Io.StreamInvariant
import ConnectionSniffer.Library.MessageQueue
import Mathlib.Data.List.Induction

/-!
# A stream as a queue of messages

`Represents s q` relates a stream to the message queue it stands for: the
unread bytes are the unread parts of the messages, the end marks are where
these parts end, and `count` is the end of the first one.

Each method of the stream does what the queue does, with two exceptions:
an append that comes when the cursor stands exactly on the first end mark,
which makes `count` run over the mark, and a read whose `pos + len` leaves
the `int` range.  `reads_frame_messages` is the refinement of whole runs
without these two.
-/

namespace ConnectionSniffer

namespace DynamicByteArrayInputStream

/-- Where messages end that follow each other from `pos` on. -/
def endPositions (pos : Int) : List (List UInt8) → List Int
  | [] => []
  | m :: ms => (pos + m.length) :: endPositions (pos + m.length) ms

theorem endPositions_concat (pos : Int) (ms : List (List UInt8)) (m : List UInt8) :
    endPositions pos (ms ++ [m]) =
      endPositions pos ms ++ [pos + (ms.flatten.length : Int) + m.length] := by
  induction ms generalizing pos with
  | nil => simp [endPositions]
  | cons m' ms ih =>
    rw [List.cons_append, endPositions, ih, endPositions, List.cons_append]
    simp only [List.flatten_cons, List.length_append, Nat.cast_add, Int.add_assoc]

theorem map_sub_endPositions (pos delta : Int) (ms : List (List UInt8)) :
    (endPositions pos ms).map (fun endPos => endPos - delta) = endPositions (pos - delta) ms := by
  induction ms generalizing pos with
  | nil => rfl
  | cons m ms ih =>
    have hcomm : pos + (m.length : Int) - delta = pos - delta + m.length := by omega
    simp only [endPositions, List.map_cons, ih, hcomm]

theorem getLast?_endPositions (pos : Int) (ms : List (List UInt8)) :
    (endPositions pos ms).getLast? =
      if ms = [] then none else some (pos + (ms.flatten.length : Int)) := by
  induction ms using List.reverseRecOn with
  | nil => rfl
  | append_singleton ms m =>
    rw [endPositions_concat]
    simp [Int.add_assoc]

/-- The stream stands for the queue. -/
structure Represents (s : DynamicByteArrayInputStream) (q : MessageQueue UInt8) : Prop
    extends Sane s where
  blocking : s.blocking = true
  finished : s.isFinished = q.finished
  unread_eq : s.unread = q.messages.flatten ++ q.current
  marks : s.newInputStreamMarks.map StreamMark.endPos = endPositions s.pos q.messages
  nonempty : ∀ m ∈ q.messages.tail, m ≠ []
  first : ∀ m ∈ q.messages.head?, 0 < s.pos + (m.length : Int)
  count : s.count = s.pos + q.front.length
  begun : q.begun = true ↔ 0 < s.bufferSize ∧ (q.messages = [] ∨ q.current ≠ [])

/-- A new stream is an empty queue. -/
theorem represents_create (startTime : Date) :
    Represents { currentStreamStartTime := startTime } {} where
  toSane := sane_create startTime
  blocking := rfl
  finished := rfl
  unread_eq := rfl
  marks := rfl
  nonempty := by simp
  first := by simp
  count := rfl
  begun := by simp

namespace Represents

variable {s : DynamicByteArrayInputStream} {q : MessageQueue UInt8}

theorem marks_eq_nil (h : Represents s q) : s.newInputStreamMarks = [] ↔ q.messages = [] := by
  have hm := h.marks
  cases hq : q.messages with
  | nil => simpa [hq, endPositions] using hm
  | cons m ms =>
    rw [hq] at hm
    simp only [reduceCtorEq, iff_false]
    intro hnil
    simp [hnil, endPositions] at hm

theorem bufferSize_eq (h : Represents s q) :
    s.bufferSize = s.pos + (q.messages.flatten.length : Int) + q.current.length := by
  have hlen := h.unread_length
  rw [h.unread_eq, List.length_append] at hlen
  omega

theorem lastEndPos_eq (h : Represents s q) :
    s.lastEndPos =
      if q.messages = [] then none else some (s.pos + (q.messages.flatten.length : Int)) := by
  rw [lastEndPos, ← List.getLast?_map, h.marks, getLast?_endPositions]

/-- The bytes that a read may take are the first unread ones. -/
theorem front_prefix (h : Represents s q) : q.front <+: s.unread := by
  rw [h.unread_eq, MessageQueue.front]
  cases hq : q.messages with
  | nil => simp
  | cons m ms => simp [List.append_assoc]

/-! ## Writing -/

/-- An append writes to the message at the end, unless the cursor stands on
the first end mark. -/
theorem appendedWith (h : Represents s q) {data : List UInt8} (hdata : data ≠ [])
    (hroom : s.hasRoom data)
    (hmark : s.newInputStreamMarks.head?.map StreamMark.endPos ≠ some s.pos) :
    Represents (s.appendedWith data) (q.write data) where
  toSane := sane_appendedWith h.toSane hroom
  blocking := h.blocking
  finished := h.finished
  unread_eq := by
    show ((s.unread ++ data).drop 0) = q.messages.flatten ++ (q.current ++ data)
    rw [List.drop_zero, h.unread_eq, List.append_assoc]
  marks := by
    show (s.newInputStreamMarks.map _).map StreamMark.endPos = endPositions 0 q.messages
    rw [List.map_map, show (0 : Int) = s.pos - s.pos by omega, ← map_sub_endPositions, ← h.marks,
      List.map_map]
    rfl
  nonempty := h.nonempty
  first := by
    intro m hm
    have hne : m ≠ [] := by
      rintro rfl
      apply hmark
      obtain ⟨ms, hms⟩ := List.head?_eq_some_iff.mp hm
      rw [← List.head?_map, h.marks, show q.messages = [] :: ms from hms]
      simp [endPositions]
    have hpos := List.length_pos_iff.mpr hne
    show (0 : Int) < 0 + (m.length : Int)
    omega
  count := by
    have hcount := h.count
    show (if s.count - s.pos = 0 ∨ s.newInputStreamMarks = [] then _ else s.count - s.pos) =
      0 + ((q.write data).front.length : Int)
    cases hq : q.messages with
    | nil =>
      rw [if_pos (Or.inr (h.marks_eq_nil.mpr hq)), h.unread_eq]
      simp [MessageQueue.front, MessageQueue.write, hq]
    | cons m ms =>
      have hne : m ≠ [] := by
        rintro rfl
        apply hmark
        rw [← List.head?_map, h.marks, hq]
        simp [endPositions]
      have hpos := List.length_pos_iff.mpr hne
      have hfront : q.front = m := by simp [MessageQueue.front, hq]
      have hfront' : (q.write data).front = m := by
        simp [MessageQueue.front, MessageQueue.write, hq]
      have hmarks : s.newInputStreamMarks ≠ [] := fun hnil => by
        simp [h.marks_eq_nil.mp hnil] at hq
      rw [hfront] at hcount
      have hopen : ¬ (s.count - s.pos = 0 ∨ s.newInputStreamMarks = []) := by
        rintro (hz | hz)
        · omega
        · exact hmarks hz
      rw [hfront', if_neg hopen]
      omega
  begun := by
    have hpos := List.length_pos_iff.mpr hdata
    show true = true ↔ (0 : Int) < ((s.unread ++ data).length : Int) ∧
      (q.messages = [] ∨ q.current ++ data ≠ [])
    rw [List.length_append]
    simp only [true_iff]
    exact ⟨by omega, Or.inr (by simp [hdata])⟩

/-- An end mark is set exactly when the message has begun. -/
theorem addMark_iff (h : Represents s q) :
    (0 < s.bufferSize ∧ s.lastEndPos ≠ some s.bufferSize) ↔ q.begun = true := by
  rw [h.begun, h.lastEndPos_eq]
  refine and_congr Iff.rfl ?_
  have hsize := h.bufferSize_eq
  by_cases hq : q.messages = []
  · simp [hq]
  · rw [if_neg hq]
    constructor
    · intro hne
      refine Or.inr fun hcur => hne ?_
      rw [hsize, hcur]
      simp
    · rintro (hnil | hcur) heq
      · exact hq hnil
      · have := List.length_pos_iff.mpr hcur
        have := Option.some.inj heq
        omega

/-- `addMarkPos` ends the message. -/
theorem addMarkPos (h : Represents s q) (endTime : Date) :
    Represents (s.addMarkPos endTime).2 q.endMessage := by
  have hsane := sane_addMarkPos h.toSane endTime
  unfold DynamicByteArrayInputStream.addMarkPos MessageQueue.endMessage at *
  by_cases hb : q.begun = true
  · have hadd := h.addMark_iff.mpr hb
    obtain ⟨hsize, hcur⟩ := h.begun.mp hb
    rw [if_pos hb]
    rw [if_pos hadd] at hsane ⊢
    exact
      { toSane := hsane
        blocking := h.blocking
        finished := h.finished
        unread_eq := by
          show s.unread = (q.messages ++ [q.current]).flatten ++ []
          simpa using h.unread_eq
        marks := by
          show (s.newInputStreamMarks ++ [_]).map StreamMark.endPos = _
          rw [List.map_append, h.marks, endPositions_concat, ← h.bufferSize_eq]
          rfl
        nonempty := by
          intro m hm
          cases hq : q.messages with
          | nil => simp [hq] at hm
          | cons m' ms =>
            simp only [hq, List.cons_append, List.tail_cons, List.mem_append,
              List.mem_singleton] at hm
            rcases hm with hm | rfl
            · exact h.nonempty m (by rw [hq]; exact hm)
            · exact hcur.resolve_left (by simp [hq])
        first := by
          intro m hm
          cases hq : q.messages with
          | nil =>
            simp only [hq, List.nil_append, List.head?_cons, Option.mem_def,
              Option.some.injEq] at hm
            have hlen := h.bufferSize_eq
            simp only [hq, List.flatten_nil, List.length_nil, Nat.cast_zero] at hlen
            subst hm
            show 0 < s.pos + (q.current.length : Int)
            omega
          | cons m' ms =>
            simp only [hq, List.cons_append, List.head?_cons, Option.mem_def,
              Option.some.injEq] at hm
            subst hm
            exact h.first m' (by simp [hq])
        count := by
          have hcount := h.count
          unfold MessageQueue.front at hcount ⊢
          cases hq : q.messages with
          | nil => simpa [hq] using hcount
          | cons m' ms => simpa [hq] using hcount
        begun := by
          show false = true ↔ 0 < s.bufferSize ∧ (q.messages ++ [q.current] = [] ∨ [] ≠ [])
          simp }
  · have hadd : ¬ (0 < s.bufferSize ∧ s.lastEndPos ≠ some s.bufferSize) :=
      fun hadd => hb (h.addMark_iff.mp hadd)
    rw [if_neg hb, if_neg hadd]
    exact h

theorem finish_true (h : Represents s q) (endTime : Date) :
    Represents (s.finish true endTime).2 q.endMessage := h.addMarkPos endTime

theorem finish_false (h : Represents s q) (endTime : Date) :
    Represents (s.finish false endTime).2 q.finish := by
  have ha := h.addMarkPos endTime
  exact { toSane := sane_finish h.toSane false endTime, blocking := ha.blocking, finished := rfl,
          unread_eq := ha.unread_eq, marks := ha.marks, nonempty := ha.nonempty,
          first := ha.first, count := ha.count, begun := ha.begun }

theorem markStreamStartTime (h : Represents s q) (startTime : Date) :
    Represents (s.markStreamStartTime startTime) q :=
  { h with toSane := sane_markStreamStartTime h.toSane startTime }

/-! ## Reading -/

/-- The reading `o` is the answer of the queue to a read of at most `limit`
bytes.  The end of a message takes the cursor back to the start. -/
def Answers (o : Reading) (q : MessageQueue UInt8) (limit : Nat) : Prop :=
  match q.read limit with
  | none => o = .waits
  | some (none, q') => ∃ s', o = .returned .endOfMessage s' ∧ Represents s' q' ∧
      (q.messages ≠ [] → s'.pos = 0)
  | some (some data, q') => ∃ s', o = .returned (.bytes data) s' ∧ Represents s' q'

/-- Rolling over drops the message that has been read to its end. -/
theorem rolledOver (h : Represents s q) {mark : StreamMark} {marks : List StreamMark}
    (hmarks : s.newInputStreamMarks = mark :: marks) {rest : List (List UInt8)}
    (hq : q.messages = [] :: rest) :
    Represents (s.rolledOver marks) { q with messages := rest } where
  toSane := sane_rolledOver h.toSane hmarks
  blocking := h.blocking
  finished := h.finished
  unread_eq := by
    show s.unread.drop 0 = rest.flatten ++ q.current
    simpa [hq] using h.unread_eq
  marks := by
    have hm := h.marks
    rw [hmarks, hq, List.map_cons, endPositions, List.cons.injEq] at hm
    show (marks.map _).map StreamMark.endPos = endPositions 0 rest
    rw [List.map_map, show (0 : Int) = s.pos + ([] : List UInt8).length - s.pos by simp,
      ← map_sub_endPositions, ← hm.2, List.map_map]
    rfl
  nonempty := fun m hm => h.nonempty m (by rw [hq]; exact List.mem_of_mem_tail hm)
  first := by
    intro m hm
    have hne := h.nonempty m (by rw [hq]; exact List.mem_of_mem_head? hm)
    have := List.length_pos_iff.mpr hne
    show (0 : Int) < 0 + (m.length : Int)
    omega
  count := by
    have hm := h.marks
    rw [hmarks, hq, List.map_cons, endPositions, List.cons.injEq] at hm
    show ((marks.map (fun mark : StreamMark => mark.moveEndPosForward s.pos)).head?.map
      StreamMark.endPos).getD s.unread.length = 0 + _
    have hshift : ((marks.map (fun mark : StreamMark => mark.moveEndPosForward s.pos)).head?.map
        StreamMark.endPos) = (endPositions 0 rest).head? := by
      rw [← List.head?_map, List.map_map,
        show (0 : Int) = s.pos + ([] : List UInt8).length - s.pos by simp,
        ← map_sub_endPositions, ← hm.2, List.map_map]
      rfl
    rw [hshift, h.unread_eq, hq]
    cases rest with
    | nil => simp [endPositions, MessageQueue.front]
    | cons m ms => simp [endPositions, MessageQueue.front]
  begun := by
    have hfirst := h.first [] (by rw [hq]; rfl)
    have hsize := h.bufferSize_eq
    have hb : q.begun = true ↔ q.current ≠ [] := by
      have hbegun := h.begun
      rw [hq] at hbegun
      rw [hbegun]
      simp only [reduceCtorEq, false_or, and_iff_right_iff_imp]
      intro _
      simp only [List.length_nil, Nat.cast_zero] at hfirst
      omega
    show q.begun = true ↔ (0 : Int) < (s.unread.length : Int) ∧ (rest = [] ∨ q.current ≠ [])
    rw [hb, h.unread_eq, hq]
    constructor
    · intro hcur
      have := List.length_pos_iff.mpr hcur
      refine ⟨?_, Or.inr hcur⟩
      simp only [List.length_append]
      omega
    · rintro ⟨hlen, rfl | hcur⟩
      · rintro hnil
        simp [hnil] at hlen
      · exact hcur

/-- At the end of the readable bytes the stream ends the message, repeats
that it is finished, or waits. -/
theorem answers_readAtEnd (h : Represents s q) (hfront : q.front = []) (limit : Nat) :
    Answers s.readAtEnd q limit := by
  unfold Answers
  cases hq : q.messages with
  | nil =>
    have hmarks := h.marks_eq_nil.mpr hq
    rw [MessageQueue.read_of_messages_nil hfront hq]
    unfold readAtEnd isCurrentStreamFinished
    rw [hmarks]
    dsimp only
    cases hfin : q.finished with
    | true => exact ⟨s, by simp [h.finished, hfin], h, fun hne => absurd rfl hne⟩
    | false => simp [h.finished, hfin, h.blocking]
  | cons m rest =>
    obtain rfl : m = [] := (MessageQueue.front_of_messages_cons hq).symm.trans hfront
    rw [MessageQueue.read_of_messages_cons hq]
    obtain ⟨mark, marks, hmarks⟩ : ∃ mark marks, s.newInputStreamMarks = mark :: marks := by
      refine List.exists_cons_of_ne_nil fun hnil => ?_
      simp [h.marks_eq_nil.mp hnil] at hq
    have hend : s.pos ≥ mark.endPos := by
      have hm := h.marks
      rw [hmarks, hq, List.map_cons, endPositions, List.cons.injEq] at hm
      simp [hm.1]
    refine ⟨s.rolledOver marks, ?_, h.rolledOver hmarks hq, fun _ => rfl⟩
    unfold readAtEnd isCurrentStreamFinished
    rw [hmarks]
    simp [hend, shrinkToNextInputStream_eq h.toSane.inRange hmarks]

/-- Moving the cursor takes bytes off the front. -/
theorem advance (h : Represents s q) {n : Nat} (hn : n ≤ q.front.length) :
    Represents { s with pos := s.pos + n } (q.consume n) := by
  have hpos := h.pos_nonneg
  have hcount := h.count
  have hdrop : s.content.drop (s.pos + n).toNat = s.unread.drop n := by
    have hunread := unread_advance h.toSane.inRange (Int.natCast_nonneg n)
    rwa [Int.toNat_natCast] at hunread
  have hsane : Sane { s with pos := s.pos + n } := by
    have := h.count_le
    exact (inRange_advance h.toSane.inRange (by omega) (by omega)).sane h.markedPos
  cases hq : q.messages with
  | nil =>
    rw [MessageQueue.front_of_messages_nil hq] at hn hcount
    rw [MessageQueue.consume_of_messages_nil hq]
    exact
      { toSane := hsane
        blocking := h.blocking
        finished := h.finished
        unread_eq := by
          show s.content.drop (s.pos + n).toNat = q.messages.flatten ++ q.current.drop n
          rw [hdrop, h.unread_eq, hq]
          rfl
        marks := by
          show s.newInputStreamMarks.map StreamMark.endPos = endPositions _ q.messages
          rw [h.marks, hq]
          rfl
        nonempty := h.nonempty
        first := by simp [hq]
        count := by
          show s.count = s.pos + n + _
          simp only [MessageQueue.front, hq, List.length_drop]
          omega
        begun := by
          show q.begun = true ↔ 0 < s.bufferSize ∧ (q.messages = [] ∨ q.current.drop n ≠ [])
          rw [h.begun, hq]
          simp }
  | cons m rest =>
    rw [MessageQueue.front_of_messages_cons hq] at hn hcount
    rw [MessageQueue.consume_of_messages_cons hq]
    have hmid : s.pos + (n : Int) + ((m.drop n).length : Int) = s.pos + m.length := by
      rw [List.length_drop]
      omega
    exact
      { toSane := hsane
        blocking := h.blocking
        finished := h.finished
        unread_eq := by
          show s.content.drop (s.pos + n).toNat = (m.drop n :: rest).flatten ++ q.current
          rw [hdrop, h.unread_eq, hq, List.flatten_cons, List.append_assoc,
            List.drop_append_of_le_length hn, List.flatten_cons, List.append_assoc]
        marks := by
          show s.newInputStreamMarks.map StreamMark.endPos =
            endPositions (s.pos + n) (m.drop n :: rest)
          rw [h.marks, hq, endPositions, endPositions, hmid]
        nonempty := fun m' hm' => h.nonempty m' (by rw [hq]; exact hm')
        first := by
          intro m' hm'
          obtain rfl : m.drop n = m' := by simpa using hm'
          have := h.first m (by rw [hq]; rfl)
          show 0 < s.pos + n + _
          omega
        count := by
          show s.count = s.pos + n + ((m.drop n).length : Int)
          omega
        begun := by
          show q.begun = true ↔ 0 < s.bufferSize ∧ (m.drop n :: rest = [] ∨ q.current ≠ [])
          rw [h.begun, hq]
          simp }

/-- Copying the first readable bytes. -/
theorem arraycopy_front (h : Represents s q) {n : Nat} (hn : n ≤ q.front.length)
    (hfront : q.front ≠ []) : arraycopy s.buf s.pos n = .ok (q.front.take n) := by
  have hcount := h.count
  have hcle := h.count_le
  have hsize := h.size
  have hpos := h.pos_nonneg
  have hlen := List.length_pos_iff.mpr hfront
  have hbuf : s.buf.isSome := by
    cases hb : s.buf with
    | none =>
      simp only [content, hb, Option.getD_none, List.length_nil] at hsize
      omega
    | some bytes => rfl
  rw [arraycopy_eq hpos (Int.natCast_nonneg n) (by omega) hbuf, Int.toNat_natCast]
  obtain ⟨rest, hrest⟩ := h.front_prefix
  rw [← hrest, List.take_append_of_le_length hn]

theorem pos_lt_count (h : Represents s q) : s.pos < s.count ↔ q.front ≠ [] := by
  have hcount := h.count
  rw [← List.length_pos_iff]
  omega

theorem answers_read (h : Represents s q) : Answers s.read q 1 := by
  unfold read
  by_cases hfront : q.front = []
  · have hlt : ¬ s.pos < s.count := fun hlt => h.pos_lt_count.mp hlt hfront
    rw [if_neg hlt]
    exact h.answers_readAtEnd hfront 1
  · have hlen := List.length_pos_iff.mpr hfront
    have hcopy := h.arraycopy_front hlen hfront
    rw [if_pos (h.pos_lt_count.mpr hfront)]
    unfold Answers
    rw [MessageQueue.read_of_front hfront]
    exact ⟨{ s with pos := s.pos + 1 }, by simp [show arraycopy s.buf s.pos 1 = _ from hcopy],
      h.advance hlen⟩

/-- A read with valid arguments whose `pos + len` is an `int`. -/
theorem answers_readInto (h : Represents s q) {bLength off len : Int} (hoff : 0 ≤ off)
    (hlen : 0 < len) (hend : off + len ≤ bLength) (hb : bLength < 2 ^ 31)
    (hpos : s.pos < s.count → s.pos + len < 2 ^ 31) : Answers (s.readInto bLength off len) q len.toNat := by
  have hpos0 := h.pos_nonneg
  have hargs : ¬ (off < 0 ∨ off > bLength ∨ len < 0 ∨ toInt (off + len) > bLength ∨
      toInt (off + len) < 0) := by
    rw [toInt_eq (by omega) (by omega)]
    omega
  unfold readInto
  rw [if_neg hargs]
  by_cases hfront : q.front = []
  · have hge : s.pos ≥ s.count := by
      have := h.pos_lt_count.not.mpr (not_not.mpr hfront)
      omega
    rw [if_pos hge]
    exact h.answers_readAtEnd hfront _
  · have hlt := h.pos_lt_count.mpr hfront
    have hcount := h.count
    obtain ⟨n, rfl⟩ := Int.eq_ofNat_of_zero_le hlen.le
    have hcut : (if toInt (s.pos + n) > s.count then s.count - s.pos else (n : Int)) =
        ((min n q.front.length : Nat) : Int) := by
      rw [toInt_eq (by omega) (hpos hlt)]
      split <;> omega
    have htake : q.front.take (min n q.front.length) = q.front.take n :=
      (List.take_eq_take_min ..).symm
    have hfpos := List.length_pos_iff.mpr hfront
    have hcopy := h.arraycopy_front (n := min n q.front.length) (by omega) hfront
    rw [if_neg (by omega), hcut]
    dsimp only
    rw [if_neg (by omega), hcopy]
    unfold Answers
    rw [Int.toNat_natCast, MessageQueue.read_of_front hfront]
    refine ⟨{ s with pos := s.pos + ((min n q.front.length : Nat) : Int) }, by rw [htake], ?_⟩
    rw [← q.consume_min n]
    exact h.advance (by omega)

end Represents

/-! ## Runs -/

/-- A call on a stream. -/
inductive StreamCall where
  | append (data : List UInt8)
  | finish (markFinish : Bool) (endTime : Date)
  | read
  | readInto (bLength off len : Int)

namespace StreamCall

/-- The stream after a call. -/
def step (s : DynamicByteArrayInputStream) : StreamCall → DynamicByteArrayInputStream
  | append data => (s.append data).state
  | finish markFinish endTime => (s.finish markFinish endTime).2
  | read => s.read.left s
  | readInto bLength off len => (s.readInto bLength off len).left s

/-- The result of a reading as an answer: `none` for `-1`. -/
def answerOf : Reading → List (Option (List UInt8))
  | .returned .endOfMessage _ => [none]
  | .returned (.bytes data) _ => [some data]
  | .waits => []
  | .thrown _ _ => []

/-- The results that a call gives to the reader. -/
def result (s : DynamicByteArrayInputStream) : StreamCall → List (Option (List UInt8))
  | append _ => []
  | finish _ _ => []
  | read => answerOf s.read
  | readInto bLength off len => answerOf (s.readInto bLength off len)

/-- The same call on the queue. -/
def onQueue : StreamCall → MessageQueue.Call UInt8
  | append data => .write data
  | finish true _ => .endMessage
  | finish false _ => .finish
  | read => .read 1
  | readInto _ _ len => .read len.toNat

/-- A call that its caller may make: an append of a Java array of at least
one byte that does not throw, a read with a length above zero that fits
its array. -/
def Legal (s : DynamicByteArrayInputStream) : StreamCall → Prop
  | append data => data ≠ [] ∧ data.length < 2 ^ 31 ∧ (s.append data).isReturned = true
  | finish _ _ => True
  | read => True
  | readInto bLength off len => 0 ≤ off ∧ 0 < len ∧ off + len ≤ bLength ∧ bLength < 2 ^ 31

/-- No append while the cursor stands on the first end mark, and no read of
readable bytes that reaches past the largest `int`. -/
def KeepsMessages (s : DynamicByteArrayInputStream) : StreamCall → Prop
  | append _ => s.newInputStreamMarks.head?.map StreamMark.endPos ≠ some s.pos
  | finish _ _ => True
  | read => True
  | readInto _ _ len => s.pos < s.count → s.pos + len < 2 ^ 31

instance (s : DynamicByteArrayInputStream) : ∀ c : StreamCall, Decidable (Legal s c)
  | append data => inferInstanceAs (Decidable
      (data ≠ [] ∧ data.length < 2 ^ 31 ∧ (s.append data).isReturned = true))
  | readInto bLength off len => inferInstanceAs (Decidable
      (0 ≤ off ∧ 0 < len ∧ off + len ≤ bLength ∧ bLength < 2 ^ 31))
  | finish _ _ | read => .isTrue trivial

/-- What an answer means for the call that reads. -/
private theorem result_of_answers {s : DynamicByteArrayInputStream} {q : MessageQueue UInt8}
    {o : Reading} {limit : Nat} (hs : Represents s q) (h : Represents.Answers o q limit) :
    answerOf o = q.answer (.read limit) ∧ Represents (o.left s) (q.step (.read limit)) := by
  unfold Represents.Answers at h
  simp only [MessageQueue.answer, MessageQueue.step]
  cases hr : q.read limit with
  | none =>
    rw [hr] at h
    subst h
    exact ⟨rfl, hs⟩
  | some r =>
    obtain ⟨_ | data, q'⟩ := r
    · rw [hr] at h
      obtain ⟨s', rfl, hs', -⟩ := h
      exact ⟨rfl, hs'⟩
    · rw [hr] at h
      obtain ⟨s', rfl, hs'⟩ := h
      exact ⟨rfl, hs'⟩

/-- One call does to the stream what it does to the queue. -/
theorem step_refines {s : DynamicByteArrayInputStream} {q : MessageQueue UInt8} {c : StreamCall}
    (h : Represents s q) (hlegal : Legal s c) (hkeeps : KeepsMessages s c) :
    result s c = q.answer c.onQueue ∧ Represents (step s c) (q.step c.onQueue) := by
  cases c with
  | append data =>
    obtain ⟨hne, hlen, hret⟩ := hlegal
    obtain ⟨hfin, hroom⟩ := h.hasRoom_of_append hlen hret
    refine ⟨rfl, ?_⟩
    rw [step, h.append_eq hfin hroom]
    exact h.appendedWith hne hroom hkeeps
  | finish markFinish endTime =>
    cases markFinish with
    | true => exact ⟨rfl, h.finish_true endTime⟩
    | false => exact ⟨rfl, h.finish_false endTime⟩
  | read => exact result_of_answers h h.answers_read
  | readInto bLength off len =>
    obtain ⟨hoff, hlen, hend, hb⟩ := hlegal
    exact result_of_answers h (h.answers_readInto hoff hlen hend hb hkeeps)

/-- An append that does not throw is a write to a queue that takes it. -/
private theorem admits_onQueue {s : DynamicByteArrayInputStream} {q : MessageQueue UInt8}
    {c : StreamCall} (h : Represents s q) (hlegal : Legal s c) : q.Admits c.onQueue := by
  cases c with
  | append data =>
    have hfin := (h.hasRoom_of_append hlegal.2.1 hlegal.2.2).1
    exact h.finished.symm.trans hfin
  | finish markFinish endTime => cases markFinish <;> trivial
  | read => trivial
  | readInto bLength off len => trivial

private theorem along_onQueue {calls : List StreamCall} {s : DynamicByteArrayInputStream}
    {q : MessageQueue UInt8} (h : Represents s q) (hlegal : Run.Along step Legal s calls)
    (hkeeps : Run.Along step KeepsMessages s calls) :
    Run.Along MessageQueue.step MessageQueue.Admits q (calls.map onQueue) := by
  induction calls generalizing s q with
  | nil => trivial
  | cons c calls ih =>
    exact ⟨admits_onQueue h hlegal.1,
      ih (step_refines h hlegal.1 hkeeps.1).2 hlegal.2 hkeeps.2⟩

/-- The results of the reads are those of the message queue. -/
theorem run_refines {calls : List StreamCall} {s : DynamicByteArrayInputStream}
    {q : MessageQueue UInt8} (h : Represents s q) (hlegal : Run.Along step Legal s calls)
    (hkeeps : Run.Along step KeepsMessages s calls) :
    Run.outputs step result s calls =
        Run.outputs MessageQueue.step MessageQueue.answer q (calls.map onQueue) ∧
      Represents (Run.after step s calls)
        (Run.after MessageQueue.step q (calls.map onQueue)) := by
  have hboth : Run.Along step (fun s c => Legal s c ∧ KeepsMessages s c) s calls :=
    Run.along_and step hlegal hkeeps
  rw [Run.outputs_map, Run.after_map]
  exact Run.outputs_eq (C := fun s c => Legal s c ∧ KeepsMessages s c)
    (fun s q c h hc => step_refines (c := c) h hc.1 hc.2) h hboth

/-- In a run that keeps its messages apart, the reads give what a message
queue gives: the bytes and `-1`s are a prefix of the bytes appended and
the end marks set between them, or all of these and the `-1`s of the reads
after the stream has been finished. -/
theorem reads_frame_messages (startTime : Date) (calls : List StreamCall)
    (hlegal : Run.Along step Legal { currentStreamStartTime := startTime } calls)
    (hkeeps : Run.Along step KeepsMessages { currentStreamStartTime := startTime } calls) :
    let results := Run.outputs step result { currentStreamStartTime := startTime } calls
    let queue := Run.after MessageQueue.step {} (calls.map onQueue)
    let written := Run.outputs MessageQueue.step MessageQueue.written {} (calls.map onQueue)
    results = Run.outputs MessageQueue.step MessageQueue.answer {} (calls.map onQueue) ∧
      (results.flatMap MessageQueue.delivered <+: written ∨
        (queue.finished = true ∧ ∃ n, results.flatMap MessageQueue.delivered =
          written ++ List.replicate n .endMark)) := by
  intro results queue written
  have h := represents_create startTime
  have heq : results = _ := (run_refines h hlegal hkeeps).1
  refine ⟨heq, ?_⟩
  rw [heq]
  exact MessageQueue.delivered_prefix (along_onQueue h hlegal hkeeps)

/-- Two messages, the second read after the first has ended. -/
theorem reads_frame_messages_two :
    let calls : List StreamCall :=
      [.append [65, 66], .readInto 8 0 4, .finish true 1, .read, .append [67], .finish false 2,
        .read, .read, .read]
    Run.outputs step result { currentStreamStartTime := 0 } calls =
      [some [65, 66], none, some [67], none, none] := by
  intro calls
  have hlegal : Run.Along step Legal { currentStreamStartTime := 0 } calls := by
    refine ⟨by decide, by decide, by decide, by decide, by decide, by decide, by decide,
      by decide, by decide, trivial⟩
  have hkeeps : Run.Along step KeepsMessages { currentStreamStartTime := 0 } calls := by
    refine ⟨?_, ?_, trivial, trivial, ?_, trivial, trivial, trivial, trivial, trivial⟩
    · show _ ≠ _
      decide
    · intro _
      decide
    · show _ ≠ _
      decide
  exact (reads_frame_messages 0 calls hlegal hkeeps).1

/-- An append between the last byte of a message and its `-1`: the next
message is read before the `-1` of the first. -/
theorem append_at_mark_merges_messages :
    let calls : List StreamCall := [.append [65], .finish true 1, .read, .append [66], .read]
    Run.Along step Legal { currentStreamStartTime := 0 } calls ∧
      Run.outputs step result { currentStreamStartTime := 0 } calls = [some [65], some [66]] ∧
      Run.outputs MessageQueue.step MessageQueue.answer {} (calls.map onQueue) =
        [some [65], none] := by
  refine ⟨⟨by decide, by decide, by decide, by decide, by decide, trivial⟩, by decide, by decide⟩

end StreamCall

end DynamicByteArrayInputStream

end ConnectionSniffer
