import ConnectionSniffer.Io.StreamConservation

/-!
# The positions of an unmarked stream

`skip_exact` is the law of `skip`, which holds as long as `pos + n` is a
`long`.

`Bounded` is the invariant of a stream that is written, read, skipped and
rolled over, but not marked: the cursor is before `count`, the end marks
are in order, and the first of them is `count`.  One call breaks it, an
append while the cursor stands on the first end mark; `bounded_iff` says
that it is the only one.
-/

namespace ConnectionSniffer

/-- A sum above the range of a `long` wraps around once. -/
theorem toLong_eq_sub {x : Int} (hlo : 2 ^ 63 ≤ x) (hhi : x < 2 ^ 64 + 2 ^ 63) :
    toLong x = x - 2 ^ 64 := by
  have hsub : (x - (2 ^ 64 : Nat)).bmod (2 ^ 64) = x.bmod (2 ^ 64) := Int.sub_bmod_right x _
  have hrange : (x - 2 ^ 64).bmod (2 ^ 64) = x - 2 ^ 64 :=
    Int.bmod_eq_of_le (by omega) (by omega)
  unfold toLong
  rw [← hsub]
  exact_mod_cast hrange

namespace DynamicByteArrayInputStream

/-! ## `skip` -/

/-- `skip(n)` skips what it returns, at most `n` bytes and at most those of
the current message. -/
structure SkipsExactly (s : DynamicByteArrayInputStream) (n : Int) : Prop where
  returned : (s.skip n).1 = max 0 (min n (s.count - s.pos))
  skipped : (s.skip n).2 = { s with pos := s.pos + (s.skip n).1 }
  forwards : s.pos ≤ (s.skip n).2.pos
  inside : (s.skip n).2.pos ≤ s.count

section Skip

variable {s : DynamicByteArrayInputStream} {n : Int}

theorem skipsExactly (hpos : 0 ≤ s.pos) (hle : s.pos ≤ s.count) (hcount : s.count < 2 ^ 31)
    (hn : -(2 ^ 63) ≤ n) (hlong : s.pos + n < 2 ^ 63) : SkipsExactly s n := by
  have hsum : toLong (s.pos + n) = s.pos + n := toLong_eq (by omega) hlong
  have hrest : toInt (s.count - s.pos) = s.count - s.pos := toInt_eq (by omega) (by omega)
  have hskip : s.skip n = (max 0 (min n (s.count - s.pos)),
      { s with pos := s.pos + max 0 (min n (s.count - s.pos)) }) := by
    unfold skip
    dsimp only
    rw [hsum, hrest]
    by_cases hfar : s.pos + n > s.count
    · rw [if_pos hfar, if_neg (by omega), toInt_toLong, toInt_eq (by omega) (by omega),
        show max 0 (min n (s.count - s.pos)) = s.count - s.pos by omega]
    · rw [if_neg hfar]
      by_cases hneg : n < 0
      · rw [if_pos hneg, show max 0 (min n (s.count - s.pos)) = 0 by omega, Int.add_zero]
      · rw [if_neg hneg, hsum, toInt_eq (by omega) (by omega),
          show max 0 (min n (s.count - s.pos)) = n by omega]
  exact
    { returned := by rw [hskip]
      skipped := by rw [hskip]
      forwards := by
        rw [hskip]
        show s.pos ≤ s.pos + max 0 (min n (s.count - s.pos))
        omega
      inside := by
        rw [hskip]
        show s.pos + max 0 (min n (s.count - s.pos)) ≤ s.count
        omega }

/-- `skip` is exact if and only if `pos + n` does not leave the `long`
range. -/
theorem skip_exact (s : DynamicByteArrayInputStream) (n : Int) (hpos : 0 ≤ s.pos)
    (hle : s.pos ≤ s.count) (hcount : s.count < 2 ^ 31) (hn : -(2 ^ 63) ≤ n)
    (hn' : n < 2 ^ 63) : SkipsExactly s n ↔ s.pos + n < 2 ^ 63 := by
  refine ⟨fun h => ?_, skipsExactly hpos hle hcount hn⟩
  by_contra hlong
  have hsum : toLong (s.pos + n) = s.pos + n - 2 ^ 64 := toLong_eq_sub (by omega) (by omega)
  -- the wrapped sum passes the test, and `n` is returned as it came
  have hreturned : (s.skip n).1 = n := by
    unfold skip
    dsimp only
    rw [if_neg (by omega), if_neg (by omega)]
  have := h.returned
  omega

/-- Skipping more than there is. -/
theorem skip_exact_end :
    let s : DynamicByteArrayInputStream :=
      { currentStreamStartTime := 0, buf := some [65, 66, 67], bufferSize := 3, count := 3, pos := 1 }
    SkipsExactly s 9223372036854775806 :=
  (skip_exact _ 9223372036854775806 (by decide) (by decide) (by decide) (by decide)
    (by decide)).mpr (by decide)

/-- `skip(Long.MAX_VALUE)` with the cursor on the second byte: the cursor goes
back to the first one. -/
theorem skip_maxValue_goes_back :
    let s : DynamicByteArrayInputStream :=
      { currentStreamStartTime := 0, buf := some [65, 66, 67], bufferSize := 3, count := 3, pos := 1 }
    (s.skip 9223372036854775807).1 = 9223372036854775807 ∧
      (s.skip 9223372036854775807).2.pos = 0 ∧ ¬ SkipsExactly s 9223372036854775807 := by
  intro s
  refine ⟨by decide, by decide, fun h => ?_⟩
  exact absurd h.forwards (by decide)

end Skip

/-! ## All methods -/

/-- What a read throws. -/
def Reading.error : Reading → Option Throwable
  | .returned _ _ => none
  | .waits => none
  | .thrown e _ => some e

/-- A call of any method that changes the stream. -/
inductive StreamMethod where
  | call (c : StreamCall)
  | skip (n : Int)
  | finishCurrentInputStream
  | mark (readlimit : Int)
  | reset
  | closeWholeStream

namespace StreamMethod

/-- The stream after a call. -/
def step (s : DynamicByteArrayInputStream) : StreamMethod → DynamicByteArrayInputStream
  | call c => c.step s
  | skip n => (s.skip n).2
  | finishCurrentInputStream => s.finishCurrentInputStream.state
  | mark readlimit => s.mark readlimit
  | reset => s.reset.state
  | closeWholeStream => s.closeWholeStream

/-- What a call throws, besides the `IOException` of `reset`. -/
def error (s : DynamicByteArrayInputStream) : StreamMethod → Option Throwable
  | call (.append data) => (s.append data).error
  | call (.finish _ _) => none
  | call .read => s.read.error
  | call (.readInto bLength off len) => (s.readInto bLength off len).error
  | skip _ => none
  | finishCurrentInputStream => s.finishCurrentInputStream.error
  | mark _ => none
  | reset => none
  | closeWholeStream => none

end StreamMethod

/-! ## The invariant of an unmarked stream -/

/-- The cursor is before `count`, the end marks are in order, and the first
of them is `count`. -/
structure Bounded (s : DynamicByteArrayInputStream) : Prop extends Sane s where
  pos_le_count : s.pos ≤ s.count
  ordered : s.newInputStreamMarks.Pairwise fun mark mark' => mark.endPos < mark'.endPos
  count_eq : s.newInputStreamMarks = [] → s.count = s.bufferSize
  head_eq : ∀ mark ∈ s.newInputStreamMarks.head?, mark.endPos = s.count
  head_pos : ∀ mark ∈ s.newInputStreamMarks.head?, 0 < mark.endPos

theorem bounded_create (startTime : Date) :
    Bounded { currentStreamStartTime := startTime } where
  toSane := sane_create startTime
  pos_le_count := le_refl _
  ordered := List.Pairwise.nil
  count_eq := fun _ => rfl
  head_eq := by simp
  head_pos := by simp

namespace Bounded

variable {s : DynamicByteArrayInputStream}

/-- The cursor stands on the first end mark. -/
def OnMark (s : DynamicByteArrayInputStream) : Prop :=
  s.newInputStreamMarks.head?.map StreamMark.endPos = some s.pos

instance (s : DynamicByteArrayInputStream) : Decidable (OnMark s) :=
  inferInstanceAs (Decidable (_ = _))

theorem head_shifted {marks : List StreamMark} {delta : Int} {mark : StreamMark}
    (h : mark ∈ (marks.map (fun mark : StreamMark => mark.moveEndPosForward delta)).head?) :
    ∃ mark' ∈ marks.head?, mark = mark'.moveEndPosForward delta := by
  simp only [List.head?_map, Option.mem_def, Option.map_eq_some_iff] at h
  obtain ⟨mark', hhead, rfl⟩ := h
  exact ⟨mark', hhead, rfl⟩

theorem ordered_shifted {marks : List StreamMark} (delta : Int)
    (h : marks.Pairwise fun mark mark' => mark.endPos < mark'.endPos) :
    (marks.map (fun mark : StreamMark => mark.moveEndPosForward delta)).Pairwise
      fun mark mark' => mark.endPos < mark'.endPos := by
  refine List.pairwise_map.mpr (h.imp fun {mark mark'} hlt => ?_)
  show mark.endPos - delta < mark'.endPos - delta
  omega

theorem appendedWith (h : Bounded s) {data : List UInt8} (hroom : s.hasRoom data)
    (hmark : ¬ OnMark s) : Bounded (s.appendedWith data) := by
  have hle := h.pos_le_count
  have hlen := h.unread_length
  refine
    { toSane := sane_appendedWith h.toSane hroom, pos_le_count := ?_,
      ordered := ordered_shifted s.pos h.ordered, count_eq := ?_, head_eq := ?_, head_pos := ?_ }
  · simp only [DynamicByteArrayInputStream.appendedWith, List.length_append, Nat.cast_add]
    split <;> omega
  · intro hnil
    exact if_pos (Or.inr (List.map_eq_nil_iff.mp hnil))
  · intro mark hhead
    obtain ⟨mark', hhead', rfl⟩ := head_shifted hhead
    have heq := h.head_eq mark' hhead'
    have hne : ¬ (s.count - s.pos = 0 ∨ s.newInputStreamMarks = []) := by
      rintro (hzero | hnil)
      · refine hmark ?_
        rw [OnMark, Option.mem_def.mp hhead', Option.map_some, heq]
        exact congrArg some (by omega)
      · simp [hnil] at hhead'
    show mark'.endPos - s.pos =
      if s.count - s.pos = 0 ∨ s.newInputStreamMarks = [] then _ else s.count - s.pos
    rw [if_neg hne, heq]
  · intro mark hhead
    obtain ⟨mark', hhead', rfl⟩ := head_shifted hhead
    have heq := h.head_eq mark' hhead'
    have hne : mark'.endPos ≠ s.pos := fun hpos => hmark (by
      rw [OnMark, Option.mem_def.mp hhead', Option.map_some, hpos])
    show 0 < mark'.endPos - s.pos
    omega

theorem finish (h : Bounded s) (markFinish : Bool) (endTime : Date) :
    Bounded (s.finish markFinish endTime).2 := by
  have hmark : Bounded (s.addMarkPos endTime).2 := by
    have hsane := sane_addMarkPos h.toSane endTime
    unfold addMarkPos at hsane ⊢
    split at hsane
    · rename_i hadd
      obtain ⟨hsize, hlast⟩ := hadd
      rw [if_pos ⟨hsize, hlast⟩]
      have hbefore : ∀ mark ∈ s.newInputStreamMarks, mark.endPos < s.bufferSize := by
        intro mark hmem
        have hle := h.marks_le mark hmem
        refine lt_of_le_of_ne hle fun heq => ?_
        -- a mark at the end of the buffer would be the last one
        rcases List.eq_nil_or_concat s.newInputStreamMarks with hnil | ⟨marks, last, hconcat⟩
        · simp [hnil] at hmem
        · have hord := h.ordered
          rw [hconcat, List.concat_eq_append] at hord hmem
          have hlastle := h.marks_le last (by simp [hconcat])
          rcases List.mem_append.mp hmem with hin | hin
          · have := (List.pairwise_append.mp hord).2.2 mark hin last (by simp)
            omega
          · obtain rfl := List.mem_singleton.mp hin
            exact hlast (by simp [lastEndPos, hconcat, heq])
      refine
        { toSane := hsane, pos_le_count := h.pos_le_count, ordered := ?_, count_eq := by simp,
          head_eq := ?_, head_pos := ?_ }
      · refine List.pairwise_append.mpr ⟨h.ordered, List.pairwise_singleton _ _, ?_⟩
        intro mark hmem mark' hmem'
        obtain rfl := List.mem_singleton.mp hmem'
        exact hbefore mark hmem
      · intro mark hhead
        cases hm : s.newInputStreamMarks with
        | nil =>
          obtain rfl : (⟨s.currentStreamStartTime, endTime, s.bufferSize⟩ : StreamMark) = mark := by
            simpa [hm] using hhead
          exact (h.count_eq hm).symm
        | cons mark' marks =>
          obtain rfl : mark' = mark := by simpa [hm] using hhead
          exact h.head_eq mark' (by simp [hm])
      · intro mark hhead
        cases hm : s.newInputStreamMarks with
        | nil =>
          obtain rfl : (⟨s.currentStreamStartTime, endTime, s.bufferSize⟩ : StreamMark) = mark := by
            simpa [hm] using hhead
          exact hsize
        | cons mark' marks =>
          obtain rfl : mark' = mark := by simpa [hm] using hhead
          exact h.head_pos mark' (by simp [hm])
    · rename_i hadd
      rw [if_neg hadd]
      exact h
  unfold DynamicByteArrayInputStream.finish
  split_ifs
  · exact hmark
  · exact { hmark with }

/-- Moving the cursor, up to `count`. -/
theorem advance (h : Bounded s) {len : Int} (hlen : 0 ≤ len) (hend : s.pos + len ≤ s.count) :
    Bounded { s with pos := s.pos + len } := by
  have hcount := h.count_le
  exact
    { toSane := (inRange_advance h.inRange hlen (by omega)).sane h.markedPos
      pos_le_count := hend
      ordered := h.ordered
      count_eq := h.count_eq
      head_eq := h.head_eq
      head_pos := h.head_pos }

/-- Rolling over at the first end mark. -/
theorem rolledOver (h : Bounded s) {mark : StreamMark} {marks : List StreamMark}
    (hmarks : s.newInputStreamMarks = mark :: marks) (hend : mark.endPos ≤ s.pos) :
    Bounded (s.rolledOver marks) := by
  have hord := h.ordered
  rw [hmarks] at hord
  obtain ⟨hfirst, hrest⟩ := List.pairwise_cons.mp hord
  have heq := h.head_eq mark (by simp [hmarks])
  have hle := h.pos_le_count
  refine
    { toSane := sane_rolledOver h.toSane hmarks, pos_le_count := ?_,
      ordered := ordered_shifted s.pos hrest, count_eq := ?_, head_eq := ?_, head_pos := ?_ }
  · show 0 ≤ ((marks.map (fun mark : StreamMark => mark.moveEndPosForward s.pos)).head?.map
      StreamMark.endPos).getD s.unread.length
    cases marks with
    | nil => exact Int.natCast_nonneg _
    | cons mark' marks =>
      have := hfirst mark' (by simp)
      show 0 ≤ mark'.endPos - s.pos
      omega
  · intro hnil
    obtain rfl : marks = [] := List.map_eq_nil_iff.mp hnil
    rfl
  · intro mark' hhead
    simp only [DynamicByteArrayInputStream.rolledOver, Option.mem_def] at hhead ⊢
    rw [hhead]
    rfl
  · intro mark' hhead
    obtain ⟨mark'', hhead', rfl⟩ := head_shifted hhead
    have := hfirst mark'' (List.mem_of_mem_head? hhead')
    show 0 < mark''.endPos - s.pos
    omega

theorem of_readOutcome (h : Bounded s) {len : Int} {o : Reading} (ho : ReadOutcome s len o)
    (hlen : s.pos + len < 2 ^ 31) : Bounded (o.left s) ∧ o.error = none := by
  cases ho with
  | took hpos hn => exact ⟨h.advance (by omega) hn, rfl⟩
  | rolled hcount hmarks hend => exact ⟨h.rolledOver hmarks hend, rfl⟩
  | nothing | waits => exact ⟨h, rfl⟩
  | wrapped hlt hwrap => omega

theorem finishCurrentInputStream (h : Bounded s) :
    ∃ s', s.finishCurrentInputStream = .returned s' ∧ Bounded s' := by
  have hend : Bounded { s with pos := s.count } := by
    have hle := h.pos_le_count
    have hrest : s.pos + (s.count - s.pos) = s.count := by omega
    have hadvanced := h.advance (show 0 ≤ s.count - s.pos by omega) hrest.le
    rwa [hrest] at hadvanced
  unfold DynamicByteArrayInputStream.finishCurrentInputStream
  cases hm : s.newInputStreamMarks with
  | nil =>
    refine ⟨{ s with pos := s.count }, ?_, hend⟩
    unfold shrinkToNextInputStream
    simp [hm]
  | cons mark marks =>
    have heq := h.head_eq mark (by simp [hm])
    have hrolls := shrinkToNextInputStream_eq hend.inRange hm
    have hbounded : Bounded (DynamicByteArrayInputStream.rolledOver { s with pos := s.count } marks) :=
      hend.rolledOver hm heq.le
    refine ⟨_, ?_, hbounded⟩
    rw [← hrolls, hm]

end Bounded

/-! ## Runs of an unmarked stream -/

/-- The positions are in order, and the first message does not end before its
first byte. -/
structure InOrder (s : DynamicByteArrayInputStream) : Prop where
  pos_nonneg : 0 ≤ s.pos
  pos_le : s.pos ≤ s.count
  count_le : s.count ≤ s.bufferSize
  bufferSize_le : s.bufferSize ≤ s.content.length
  head_pos : ∀ mark ∈ s.newInputStreamMarks.head?, 0 < mark.endPos

theorem Bounded.inOrder {s : DynamicByteArrayInputStream} (h : Bounded s) : InOrder s :=
  ⟨h.pos_nonneg, h.pos_le_count, h.count_le, h.size.le, h.head_pos⟩

/-- An `ArrayIndexOutOfBoundsException`, an `IndexOutOfBoundsException` or a
`NegativeArraySizeException`. -/
def isInternal : Throwable → Bool
  | .arrayIndexOutOfBoundsException => true
  | .indexOutOfBoundsException => true
  | .negativeArraySizeException => true
  | _ => false

namespace StreamMethod

/-- A call on an unmarked stream, with arrays, ranges and distances of at most
65535 bytes. -/
def Small : StreamMethod → Prop
  | call (.append data) => data.length ≤ 65535
  | call (.finish _ _) => True
  | call .read => True
  | call (.readInto bLength off len) =>
    0 ≤ off ∧ 0 ≤ len ∧ len ≤ 65535 ∧ off + len ≤ bLength ∧ bLength < 2 ^ 31
  | skip n => 0 ≤ n ∧ n ≤ 65535
  | finishCurrentInputStream => True
  | mark _ => False
  | reset => False
  | closeWholeStream => False

instance : ∀ m : StreamMethod, Decidable m.Small
  | call (.append data) => inferInstanceAs (Decidable (data.length ≤ 65535))
  | call (.readInto bLength off len) => inferInstanceAs (Decidable
      (0 ≤ off ∧ 0 ≤ len ∧ len ≤ 65535 ∧ off + len ≤ bLength ∧ bLength < 2 ^ 31))
  | skip n => inferInstanceAs (Decidable (0 ≤ n ∧ n ≤ 65535))
  | call (.finish _ _) | call .read | finishCurrentInputStream => .isTrue trivial
  | mark _ | reset | closeWholeStream => .isFalse id

/-- No append that is taken comes while the cursor stands on the first end
mark. -/
def OffMark (s : DynamicByteArrayInputStream) : StreamMethod → Prop
  | call (.append data) => s.isFinished = true ∨
      MAX_BUFFER_SIZE < s.bufferSize - s.pos + data.length ∨ ¬ Bounded.OnMark s
  | _ => True

instance (s : DynamicByteArrayInputStream) : ∀ m : StreamMethod, Decidable (OffMark s m)
  | call (.append data) => inferInstanceAs (Decidable (s.isFinished = true ∨
      MAX_BUFFER_SIZE < s.bufferSize - s.pos + data.length ∨ ¬ Bounded.OnMark s))
  | call (.finish _ _) | call .read | call (.readInto _ _ _) => .isTrue trivial
  | skip _ | finishCurrentInputStream | mark _ | reset | closeWholeStream => .isTrue trivial

/-- No internal exception. -/
def Quiet (s : DynamicByteArrayInputStream) (m : StreamMethod) : Prop :=
  ∀ e ∈ m.error s, isInternal e = false

section Step

variable {s : DynamicByteArrayInputStream} {m : StreamMethod}

/-- An append to an unmarked stream. -/
private theorem append_cases (h : Bounded s) {data : List UInt8} (hdata : data.length ≤ 65535) :
    ((s.isFinished = true ∨ MAX_BUFFER_SIZE < s.bufferSize - s.pos + data.length) ∧
        (s.append data).state = s ∧ ∀ e ∈ (s.append data).error, isInternal e = false) ∨
      (s.isFinished = false ∧ s.bufferSize - s.pos + data.length ≤ MAX_BUFFER_SIZE ∧
        s.hasRoom data ∧ s.append data = .returned (s.appendedWith data)) := by
  have hmax : MAX_BUFFER_SIZE = 2048000 := rfl
  have hcap := h.capacity
  have hpos := h.pos_nonneg
  have hlen := h.unread_length
  have hunmarked : ¬ s.Marked := by
    rintro ⟨hset, -⟩
    have := h.markedPos
    omega
  have hkept : s.kept = s.bufferSize - s.pos := if_neg hunmarked
  have ho := append_outcome h.inRange (show data.length < 2 ^ 31 by omega)
  generalize s.append data = o at ho
  cases ho with
  | finished hfinished =>
    exact Or.inl ⟨Or.inl hfinished, rfl, by simp [Outcome.error, isInternal]⟩
  | behind _ hmarked | wrappedBehind _ hmarked => exact absurd hmarked hunmarked
  | shrunk hopen _ hroom =>
    refine Or.inr ⟨hopen, by omega, ?_, rfl⟩
    unfold hasRoom
    rw [List.length_append]
    omega
  | full _ hfull =>
    exact Or.inl ⟨Or.inr (by omega), rfl, by simp [Outcome.error, isInternal]⟩
  | wrappedShrunk _ _ hwrap => omega

theorem bounded_step (h : Bounded s) (hsmall : m.Small) (hoff : OffMark s m) :
    Bounded (m.step s) ∧ m.Quiet s := by
  have hmax : MAX_BUFFER_SIZE = 2048000 := rfl
  have hcap := h.capacity
  have hle := h.pos_le
  cases m with
  | call c =>
    cases c with
    | append data =>
      rcases append_cases h hsmall with ⟨-, hstate, herror⟩ | ⟨hopen, hfits, hroom, hreturned⟩
      · refine ⟨?_, herror⟩
        show Bounded (s.append data).state
        rwa [hstate]
      · have hmark : ¬ Bounded.OnMark s := by
          rcases hoff with hfin | hfull | hmark
          · simp [hopen] at hfin
          · omega
          · exact hmark
        refine ⟨?_, ?_⟩
        · show Bounded (s.append data).state
          rw [hreturned]
          exact h.appendedWith hroom hmark
        · show ∀ e ∈ (s.append data).error, isInternal e = false
          rw [hreturned]
          simp [Outcome.error]
    | finish markFinish endTime => exact ⟨h.finish markFinish endTime, by simp [Quiet, error]⟩
    | read =>
      obtain ⟨hleft, hnone⟩ := h.of_readOutcome (read_outcome h.inRange) (by omega)
      exact ⟨hleft, by simp [Quiet, error, hnone]⟩
    | readInto bLength off len =>
      obtain ⟨hoff0, hlen, hlimit, hend, hb⟩ := hsmall
      by_cases hzero : len = 0
      · subst hzero
        rcases readInto_zero h.inRange hoff0 (le_trans (by omega) hend) hb with hread | ho
        · refine ⟨?_, by simp [Quiet, error, hread, Reading.error]⟩
          show Bounded ((s.readInto bLength off 0).left s)
          rw [hread]
          exact h
        · obtain ⟨hleft, hnone⟩ := h.of_readOutcome ho (by omega)
          exact ⟨hleft, by simp [Quiet, error, hnone]⟩
      · have ho := readInto_outcome h.inRange hoff0 (show 0 < len by omega) hend hb
        obtain ⟨hleft, hnone⟩ := h.of_readOutcome ho (by omega)
        exact ⟨hleft, by simp [Quiet, error, hnone]⟩
  | skip n =>
    obtain ⟨hn, hlimit⟩ := hsmall
    have hcount := h.count_le
    have hbefore := h.pos_le_count
    have hskip := skipsExactly h.pos_nonneg hbefore (by omega) (by omega) (n := n) (by omega)
    refine ⟨?_, by simp [Quiet, error]⟩
    show Bounded (s.skip n).2
    rw [hskip.skipped, hskip.returned]
    exact h.advance (by omega) (by omega)
  | finishCurrentInputStream =>
    obtain ⟨s', hs', hbounded⟩ := h.finishCurrentInputStream
    refine ⟨?_, by simp [Quiet, error, hs', Outcome.error]⟩
    show Bounded s.finishCurrentInputStream.state
    rwa [hs']
  | mark | reset | closeWholeStream => exact hsmall.elim

/-- An append on the first end mark moves that mark to the start. -/
theorem offMark_of_inOrder (h : Bounded s) (hsmall : m.Small) (hafter : InOrder (m.step s)) :
    OffMark s m := by
  cases m with
  | call c =>
    cases c with
    | append data =>
      rcases append_cases h hsmall with ⟨hrefused, -⟩ | ⟨hopen, hfits, hroom, hreturned⟩
      · exact hrefused.imp id Or.inl
      · refine Or.inr (Or.inr fun hmark => ?_)
        obtain ⟨mark, hhead, hpos⟩ := Option.map_eq_some_iff.mp hmark
        replace hafter : InOrder (s.append data).state := hafter
        rw [hreturned] at hafter
        have hfirst := hafter.head_pos (mark.moveEndPosForward s.pos) (by
          simp [DynamicByteArrayInputStream.appendedWith, hhead])
        simp [StreamMark.moveEndPosForward, hpos] at hfirst
    | finish | read | readInto => trivial
  | skip | finishCurrentInputStream | mark | reset | closeWholeStream => trivial

end Step

theorem bounded_created (startTime : Date) : Bounded (StreamCall.created startTime) :=
  { bounded_create startTime with }

/-- In a run of such calls on a new stream, the positions stay in order and no
call throws an internal exception, if and only if no append that is taken
comes while the cursor stands on the first end mark. -/
theorem bounded_iff (startTime : Date) (methods : List StreamMethod)
    (hsmall : ∀ m ∈ methods, m.Small) :
    (Run.Throughout step InOrder (StreamCall.created startTime) methods ∧
        Run.Along step Quiet (StreamCall.created startTime) methods) ↔
      Run.Along step OffMark (StreamCall.created startTime) methods := by
  have hcreated := bounded_created startTime
  have halong := Run.along_of_forall step (StreamCall.created startTime) hsmall
  constructor
  · rintro ⟨hthroughout, -⟩
    exact Run.along_of_throughout (I := Bounded) (D := fun _ m => m.Small)
      (fun _ _ h hm hoff => (bounded_step h hm hoff).1)
      (fun _ _ h hm hafter => offMark_of_inOrder h hm hafter) hcreated halong hthroughout
  · intro hoff
    have hboth := Run.along_and step (C := fun _ m => m.Small) halong hoff
    exact ⟨(Run.throughout (I := Bounded)
        (fun _ _ h hm => (bounded_step h hm.1 hm.2).1) hcreated hboth).mono fun _ h => h.inOrder,
      Run.along_of_invariant (I := Bounded)
        (fun _ _ h hm => (bounded_step h hm.1 hm.2).symm) hcreated hboth⟩

/-- Two messages, the second one appended once the first one has ended. -/
theorem bounded_iff_two :
    let methods : List StreamMethod := [.call (.append [65, 66]), .call (.finish true 1), .skip 1,
      .call .read, .call .read, .call (.append [67]), .finishCurrentInputStream]
    Run.Throughout step InOrder (StreamCall.created 0) methods ∧
      Run.Along step Quiet (StreamCall.created 0) methods := by
  intro methods
  exact (bounded_iff 0 methods (by decide)).mpr (by decide)

/-- An append on the end mark, twice: `count` becomes negative, and
`finishCurrentInputStream` copies from a negative position. -/
theorem append_on_mark_breaks :
    let methods : List StreamMethod := [.call (.append [65]), .call (.finish true 1), .call .read,
      .call (.append [66]), .call (.finish true 2), .call .read, .call (.append [67]), .call .read,
      .call .read]
    let s := Run.after step (StreamCall.created 0) methods
    (∀ m ∈ methods, m.Small) ∧ s.count < s.pos ∧
      error s .finishCurrentInputStream = some .arrayIndexOutOfBoundsException := by
  decide

end StreamMethod

end DynamicByteArrayInputStream

end ConnectionSniffer
