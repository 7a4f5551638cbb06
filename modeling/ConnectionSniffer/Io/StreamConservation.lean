import ConnectionSniffer.Io.StreamCases
import ConnectionSniffer.Io.StreamFraming

/-!
# No byte is lost or made up

Whatever the calls, the bytes that the reads have returned and the bytes
from the cursor on are together the bytes of the arrays that were
accepted: `run_conserves`.

A reader also gets on to these bytes.  `Readable` says what it takes: the
first end mark is not behind `count`, and without an end mark `count` is
the end of the buffer.  Then each `-1` that a read gives before unread
bytes takes an end mark away.  One call breaks it: an append whose new
size is no `int` throws after it has moved `count` and the end marks.
-/

namespace ConnectionSniffer

namespace DynamicByteArrayInputStream

/-- `buf[pos..bufferSize)`. -/
def bufferRange (s : DynamicByteArrayInputStream) : List UInt8 :=
  (s.content.take s.bufferSize.toNat).drop s.pos.toNat

theorem InRange.bufferRange_eq {s : DynamicByteArrayInputStream} (h : InRange s) :
    s.bufferRange = s.unread := by
  unfold bufferRange unread
  rw [h.size, Int.toNat_natCast, List.take_length]

/-- The positions are in range, and a reader that has not reached the end of
the buffer can go on. -/
structure Readable (s : DynamicByteArrayInputStream) : Prop extends InRange s where
  count_eq : s.newInputStreamMarks = [] → s.count = s.bufferSize
  head_le : ∀ mark ∈ s.newInputStreamMarks.head?, mark.endPos ≤ s.count

theorem readable_create (startTime : Date) :
    Readable { currentStreamStartTime := startTime } where
  toInRange := (sane_create startTime).inRange
  count_eq := fun _ => rfl
  head_le := by simp

section Keeps

variable {s : DynamicByteArrayInputStream}

theorem Readable.configureBlocking (h : Readable s) (blocking : Bool) :
    Readable (s.configureBlocking blocking) :=
  { h with }

theorem Readable.finish (h : Readable s) (markFinish : Bool) (endTime : Date) :
    Readable (s.finish markFinish endTime).2 := by
  have hmark : Readable (s.addMarkPos endTime).2 := by
    have hrange := inRange_addMarkPos h.toInRange endTime
    unfold addMarkPos at hrange ⊢
    split at hrange
    · rename_i hadd
      rw [if_pos hadd]
      refine ⟨hrange, by simp, ?_⟩
      intro mark hhead
      cases hm : s.newInputStreamMarks with
      | nil =>
        obtain rfl : (⟨s.currentStreamStartTime, endTime, s.bufferSize⟩ : StreamMark) = mark := by
          simpa [hm] using hhead
        exact (h.count_eq hm).ge
      | cons mark' marks =>
        obtain rfl : mark' = mark := by simpa [hm] using hhead
        exact h.head_le mark' (by simp [hm])
    · rename_i hadd
      rw [if_neg hadd]
      exact h
  unfold DynamicByteArrayInputStream.finish
  split_ifs
  · exact hmark
  · exact { hmark with }

theorem AppendOutcome.readable {data : List UInt8}
    {o : Outcome Throwable DynamicByteArrayInputStream} (ho : AppendOutcome s data o)
    (h : Readable s) (hint : s.isFinished = true ∨ s.pos = 0 ∨ s.kept + data.length < 2 ^ 31) :
    Readable o.state := by
  refine { toInRange := ho.inRange h.toInRange, count_eq := ?_, head_le := ?_ }
  · cases ho with
    | finished | full | wrappedBehind => exact h.count_eq
    | behind => exact fun hnil => if_pos (Or.inr hnil)
    | shrunk =>
      intro hnil
      exact if_pos (Or.inr (List.map_eq_nil_iff.mp hnil))
    | wrappedShrunk hopen hmarked hwrap =>
      intro hnil
      have hpos : s.pos = 0 := by
        rcases hint with hfin | hpos | hint
        · simp [hopen] at hfin
        · exact hpos
        · omega
      have hcount := h.count_eq (List.map_eq_nil_iff.mp hnil)
      show s.count - s.pos = s.bufferSize
      omega
  · have hlen := h.unread_length
    have hsize := h.size
    cases ho with
    | finished | full | wrappedBehind => exact h.head_le
    | behind =>
      intro mark hhead
      have hmark := h.head_le mark hhead
      have hle := h.marks_le mark (List.mem_of_mem_head? hhead)
      simp only [Outcome.state_returned, appendedBehind, List.length_append, Nat.cast_add]
      split <;> omega
    | shrunk =>
      intro mark hhead
      simp only [Outcome.state_returned, appendedWith, List.head?_map, Option.mem_def,
        Option.map_eq_some_iff] at hhead
      obtain ⟨mark', hhead', rfl⟩ := hhead
      have hmark := h.head_le mark' hhead'
      have hle := h.marks_le mark' (List.mem_of_mem_head? hhead')
      simp only [Outcome.state_returned, appendedWith, StreamMark.moveEndPosForward,
        List.length_append, Nat.cast_add]
      split <;> omega
    | wrappedShrunk =>
      intro mark hhead
      simp only [Outcome.state_thrown, misplaced, shifted, List.head?_map, Option.mem_def,
        Option.map_eq_some_iff] at hhead
      obtain ⟨mark', hhead', rfl⟩ := hhead
      have hmark := h.head_le mark' hhead'
      show mark'.endPos - s.pos ≤ s.count - s.pos
      omega

theorem ReadOutcome.readable {len : Int} {o : Reading} (ho : ReadOutcome s len o)
    (h : Readable s) : Readable (o.left s) := by
  refine { toInRange := ho.inRange h.toInRange, count_eq := ?_, head_le := ?_ }
  · cases ho with
    | took | nothing | waits | wrapped => exact h.count_eq
    | @rolled mark marks hcount hmarks hend =>
      intro hnil
      obtain rfl : marks = [] := List.map_eq_nil_iff.mp hnil
      rfl
  · cases ho with
    | took | nothing | waits | wrapped => exact h.head_le
    | @rolled mark marks hcount hmarks hend =>
      intro mark' hhead
      simp only [Reading.left, rolledOver, Option.mem_def] at hhead ⊢
      rw [hhead]
      exact le_refl _

end Keeps

namespace StreamCall

/-! ## What calls return and add -/

/-- The arguments are those of a Java call: arrays have fewer than `2^31`
bytes, and the range of a read is not empty and fits its array. -/
def Callable : StreamCall → Prop
  | append data => data.length < 2 ^ 31
  | finish _ _ => True
  | read => True
  | readInto bLength off len => 0 ≤ off ∧ 0 < len ∧ off + len ≤ bLength ∧ bLength < 2 ^ 31

/-- The sums of the call are `int`s: the new size of an append behind a
cursor that has moved, and `pos + len` of a read of readable bytes. -/
def FitsInt (s : DynamicByteArrayInputStream) : StreamCall → Prop
  | append data => s.isFinished = true ∨ s.pos = 0 ∨ s.kept + data.length < 2 ^ 31
  | finish _ _ => True
  | read => True
  | readInto _ _ len => s.pos < s.count → s.pos + len < 2 ^ 31

instance : ∀ c : StreamCall, Decidable c.Callable
  | append data => inferInstanceAs (Decidable (data.length < 2 ^ 31))
  | readInto bLength off len => inferInstanceAs (Decidable
      (0 ≤ off ∧ 0 < len ∧ off + len ≤ bLength ∧ bLength < 2 ^ 31))
  | finish _ _ | read => .isTrue trivial

instance (s : DynamicByteArrayInputStream) : ∀ c : StreamCall, Decidable (FitsInt s c)
  | append data => inferInstanceAs (Decidable
      (s.isFinished = true ∨ s.pos = 0 ∨ s.kept + data.length < 2 ^ 31))
  | readInto _ _ len => inferInstanceAs (Decidable (s.pos < s.count → s.pos + len < 2 ^ 31))
  | finish _ _ | read => .isTrue trivial

/-- `read()` or `read(b, off, len)`. -/
def isRead : StreamCall → Bool
  | append _ => false
  | finish _ _ => false
  | read => true
  | readInto _ _ _ => true

/-- The bytes that a call returns. -/
def returned (s : DynamicByteArrayInputStream) (c : StreamCall) : List UInt8 :=
  (result s c).flatMap fun answer => answer.getD []

/-- The bytes that a call adds: the array of an append that returns. -/
def added (s : DynamicByteArrayInputStream) : StreamCall → List UInt8
  | append data => accepted data (s.append data)
  | finish _ _ => []
  | read => []
  | readInto _ _ _ => []

section Step

variable {s : DynamicByteArrayInputStream} {c : StreamCall}

/-- The most that a read asks for. -/
def limit : StreamCall → Int
  | append _ => 0
  | finish _ _ => 0
  | read => 1
  | readInto _ _ len => len

/-- A read call as a reading. -/
theorem reading_of_isRead (h : InRange s) (hcall : c.Callable) (hread : c.isRead = true) :
    ∃ o, ReadOutcome s c.limit o ∧ step s c = o.left s ∧ result s c = answerOf o := by
  cases c with
  | append | finish => exact absurd hread (by simp [isRead])
  | read => exact ⟨s.read, read_outcome h, rfl, rfl⟩
  | readInto bLength off len =>
    obtain ⟨hoff, hlen, hend, hb⟩ := hcall
    exact ⟨s.readInto bLength off len, readInto_outcome h hoff hlen hend hb, rfl, rfl⟩

theorem data_eq (o : Reading) : o.data = (answerOf o).flatMap fun answer => answer.getD [] := by
  cases o with
  | returned r s' => cases r <;> simp [Reading.data, answerOf]
  | waits | thrown => rfl

/-- A call takes bytes off the front and adds some behind. -/
theorem step_conserves (h : InRange s) (hcall : c.Callable) :
    s.unread ++ added s c = returned s c ++ (step s c).unread ∧ InRange (step s c) := by
  cases hread : c.isRead with
  | true =>
    obtain ⟨o, ho, hstep, hresult⟩ := reading_of_isRead h hcall hread
    have hadded : added s c = [] := by
      cases c with
      | append | finish => exact absurd hread (by simp [isRead])
      | read | readInto => rfl
    rw [hstep, returned, hresult, ← data_eq, hadded, List.append_nil]
    exact ⟨ho.unread h, ho.inRange h⟩
  | false =>
    cases c with
    | append data =>
      have ho := append_outcome h hcall
      exact ⟨(ho.unread h).symm, ho.inRange h⟩
    | finish markFinish endTime =>
      refine ⟨?_, inRange_finish h markFinish endTime⟩
      have hunread : (s.finish markFinish endTime).2.unread = s.unread := by
        unfold DynamicByteArrayInputStream.finish addMarkPos
        split_ifs <;> rfl
      show s.unread ++ [] = (s.finish markFinish endTime).2.unread
      rw [hunread, List.append_nil]
    | read | readInto => exact absurd hread (by simp [isRead])

/-- Calls whose sums are `int`s keep a stream readable. -/
theorem readable_step (h : Readable s) (hcall : c.Callable) (hint : FitsInt s c) :
    Readable (step s c) := by
  cases hread : c.isRead with
  | true =>
    obtain ⟨o, ho, hstep, -⟩ := reading_of_isRead h.toInRange hcall hread
    rw [hstep]
    exact ho.readable h
  | false =>
    cases c with
    | append data => exact (append_outcome h.toInRange hcall).readable h hint
    | finish markFinish endTime => exact h.finish markFinish endTime
    | read | readInto => exact absurd hread (by simp [isRead])

theorem blocking_step (h : InRange s) (hcall : c.Callable) :
    (step s c).blocking = s.blocking := by
  cases hread : c.isRead with
  | true =>
    obtain ⟨o, ho, hstep, -⟩ := reading_of_isRead h hcall hread
    rw [hstep]
    cases ho <;> rfl
  | false =>
    cases c with
    | append data =>
      have ho := append_outcome h hcall
      show (s.append data).state.blocking = s.blocking
      generalize s.append data = o at ho
      cases ho <;> rfl
    | finish markFinish endTime =>
      show (s.finish markFinish endTime).2.blocking = s.blocking
      unfold DynamicByteArrayInputStream.finish addMarkPos
      split_ifs <;> rfl
    | read | readInto => exact absurd hread (by simp [isRead])

/-- A read before unread bytes returns some, or it gives `-1` and takes an
end mark away. -/
theorem read_progress (h : Readable s) (hblocking : s.blocking = false) (hcall : c.Callable)
    (hread : c.isRead = true) (hint : FitsInt s c) (hunread : s.unread ≠ []) :
    (∃ data, data ≠ [] ∧ result s c = [some data] ∧
        (step s c).newInputStreamMarks = s.newInputStreamMarks) ∨
      (result s c = [none] ∧ (step s c).unread = s.unread ∧
        (step s c).newInputStreamMarks.length + 1 = s.newInputStreamMarks.length) := by
  obtain ⟨o, ho, hstep, hresult⟩ := reading_of_isRead h.toInRange hcall hread
  have hlen := h.unread_length
  have hrest := List.length_pos_iff.mpr hunread
  rw [hstep, hresult]
  cases ho with
  | @took n hpos hn =>
    refine Or.inl ⟨s.unread.take n, ?_, rfl, rfl⟩
    rw [Ne, List.take_eq_nil_iff, not_or]
    exact ⟨by omega, hunread⟩
  | @rolled mark marks hcount hmarks hend =>
    refine Or.inr ⟨rfl, rfl, ?_⟩
    simp [Reading.left, rolledOver, hmarks]
  | nothing hcount hmarks =>
    -- the end marks would be behind `count`
    cases hm : s.newInputStreamMarks with
    | nil =>
      have := h.count_eq hm
      omega
    | cons mark marks =>
      have hhead : mark ∈ s.newInputStreamMarks.head? := by simp [hm]
      have := h.head_le mark hhead
      have := hmarks mark hhead
      omega
  | waits hwaits => simp [hblocking] at hwaits
  | wrapped hlt hwrap =>
    have hmax : MAX_BUFFER_SIZE = 2048000 := rfl
    have hcap := h.capacity
    have hcount := h.count_le
    cases c with
    | append | finish => exact absurd hread (by simp [isRead])
    | read =>
      simp only [limit] at hwrap
      omega
    | readInto bLength off len =>
      have := hint hlt
      simp only [limit] at hwrap
      omega

end Step

/-! ## Runs -/

section Runs

variable {s : DynamicByteArrayInputStream} {calls : List StreamCall}

theorem run_conserves (h : InRange s) (hcalls : ∀ c ∈ calls, c.Callable) :
    s.unread ++ Run.outputs step added s calls =
        Run.outputs step returned s calls ++ (Run.after step s calls).unread :=
  Run.outputs_conserve (I := InRange) (C := fun _ c => c.Callable)
    (fun _ _ h hcall => step_conserves h hcall) h (Run.along_of_forall step s hcalls)

theorem run_inRange (h : InRange s) (hcalls : ∀ c ∈ calls, c.Callable) :
    InRange (Run.after step s calls) ∧ (Run.after step s calls).blocking = s.blocking :=
  Run.invariant (I := fun s' => InRange s' ∧ s'.blocking = s.blocking)
    (C := fun _ c => c.Callable)
    (fun _ _ h hcall => ⟨(step_conserves h.1 hcall).2, (blocking_step h.1 hcall).trans h.2⟩)
    ⟨h, rfl⟩ (Run.along_of_forall step s hcalls)

theorem run_readable (h : Readable s) (hcalls : ∀ c ∈ calls, c.Callable)
    (hint : Run.Along step FitsInt s calls) : Readable (Run.after step s calls) :=
  Run.invariant (I := Readable) (C := fun s c => c.Callable ∧ FitsInt s c)
    (fun _ _ h hc => readable_step h hc.1 hc.2) h
    (Run.along_and step (C := fun _ c => c.Callable) (Run.along_of_forall step s hcalls) hint)

/-- Reads that go on and on get to a byte, past no more `-1`s than there are
end marks. -/
theorem reads_reach_byte {reads : List StreamCall} (h : Readable s)
    (hblocking : s.blocking = false) (hunread : s.unread ≠ [])
    (hreads : ∀ c ∈ reads, c.isRead = true ∧ c.Callable)
    (hint : Run.Along step FitsInt s reads)
    (hlength : s.newInputStreamMarks.length < reads.length) :
    ∃ k data rest, k ≤ s.newInputStreamMarks.length ∧ data ≠ [] ∧
      Run.outputs step result s reads = List.replicate k none ++ some data :: rest := by
  induction reads generalizing s with
  | nil => exact absurd hlength (by simp)
  | cons c reads ih =>
    obtain ⟨hread, hcall⟩ := hreads c (by simp)
    rcases read_progress h hblocking hcall hread hint.1 hunread with
      ⟨data, hdata, hresult, -⟩ | ⟨hresult, hsame, hmarks⟩
    · refine ⟨0, data, Run.outputs step result (step s c) reads, Nat.zero_le _, hdata, ?_⟩
      rw [Run.outputs, hresult]
      rfl
    · obtain ⟨k, data, rest, hk, hdata, houtputs⟩ := ih
        (readable_step h hcall hint.1) ((blocking_step h.toInRange hcall).trans hblocking)
        (hsame ▸ hunread) (fun c' hc' => hreads c' (by simp [hc'])) hint.2
        (by simp only [List.length_cons] at hlength; omega)
      refine ⟨k + 1, data, rest, by omega, hdata, ?_⟩
      rw [Run.outputs, hresult, houtputs, List.replicate_succ]
      rfl

end Runs

/-- A new stream that does not block. -/
def created (startTime : Date) : DynamicByteArrayInputStream :=
  configureBlocking { currentStreamStartTime := startTime } false

theorem readable_created (startTime : Date) : Readable (created startTime) :=
  (readable_create startTime).configureBlocking false

/-- In every run, the bytes returned so far and those from the cursor to the
end of the buffer are the bytes of the arrays that were accepted.  If the
sums of the calls are `int`s, then reads that follow give a byte after at
most as many `-1`s as there are end marks, as long as bytes are unread. -/
theorem conserves_bytes (startTime : Date) (calls : List StreamCall)
    (hcalls : ∀ c ∈ calls, c.Callable) :
    let s := Run.after step (created startTime) calls
    Run.outputs step returned (created startTime) calls ++ s.bufferRange =
        Run.outputs step added (created startTime) calls ∧
      (Run.Along step FitsInt (created startTime) calls → s.bufferRange ≠ [] →
        ∀ reads : List StreamCall, (∀ c ∈ reads, c.isRead = true ∧ c.Callable) →
          Run.Along step FitsInt s reads → s.newInputStreamMarks.length < reads.length →
          ∃ k data rest, k ≤ s.newInputStreamMarks.length ∧ data ≠ [] ∧
            Run.outputs step result s reads = List.replicate k none ++ some data :: rest) := by
  intro s
  have hcreated := readable_created startTime
  obtain ⟨hrange, hblocking⟩ := run_inRange hcreated.toInRange hcalls
  rw [hrange.bufferRange_eq]
  constructor
  · exact (run_conserves hcreated.toInRange hcalls).symm
  · intro hint hunread reads hreads hints hlength
    exact reads_reach_byte (run_readable hcreated hcalls hint) hblocking hunread hreads hints
      hlength

/-- An append between the last byte of a message and its `-1`. -/
theorem conserves_bytes_at_mark :
    let calls : List StreamCall := [.append [65], .finish true 1, .read, .append [66, 67], .read]
    let s := Run.after step (created 0) calls
    s.bufferRange = [67] ∧
      Run.outputs step returned (created 0) calls ++ s.bufferRange = [65, 66, 67] ∧
      ∃ k data rest, k ≤ 1 ∧ data ≠ [] ∧
        Run.outputs step result s [.read, .read] = List.replicate k none ++ some data :: rest := by
  intro calls s
  obtain ⟨hconserves, hreads⟩ := conserves_bytes 0 calls (by decide)
  exact ⟨by decide, hconserves.trans (by decide),
    hreads (by decide) (by decide) [.read, .read] (by decide) (by decide) (by decide)⟩

/-- An append whose new size is no `int` throws, and takes `count` back
behind the cursor: the reads give `-1` from then on, with 16 bytes unread
and no end mark. -/
theorem unread_bytes_stuck :
    let big : List UInt8 := List.replicate 2147483639 0
    let calls : List StreamCall :=
      [.append (List.replicate 32 0), .readInto 16 0 16, .append big]
    let s := Run.after step (created 0) calls
    (∀ c ∈ calls, c.Callable) ∧ s.bufferRange ≠ [] ∧ s.newInputStreamMarks = [] ∧
      ∀ n, Run.outputs step result s (List.replicate n .read) = List.replicate n none := by
  intro big
  have hbig : big.length = 2147483639 := List.length_replicate
  -- nothing but the length of the array matters
  clear_value big
  intro calls s
  have hcalls : ∀ c ∈ calls, c.Callable := by
    intro c hc
    simp only [calls, List.mem_cons, List.not_mem_nil, or_false] at hc
    rcases hc with rfl | rfl | rfl
    · decide
    · decide
    · show big.length < 2 ^ 31
      omega
  let first : List StreamCall := [.append (List.replicate 32 0), .readInto 16 0 16]
  let half := Run.after step (created 0) first
  have hs : s = half.misplaced := by
    have hrange : InRange half := (run_inRange (readable_created 0).toInRange (by decide)).1
    have hkept : half.kept = 16 := by decide
    have hwrapped := append_wrapped hrange (by decide) (by decide)
      (show big.length < 2 ^ 31 by omega) (by omega)
    have hlast : ∀ s₀ : DynamicByteArrayInputStream, step s₀ (.append big) = (s₀.append big).state :=
      fun _ => rfl
    rw [show s = Run.after step (created 0) (first ++ [.append big]) from rfl, Run.after_append,
      Run.after_cons, Run.after_nil, hlast, hwrapped, Outcome.state_thrown]
  have hread : half.misplaced.read = .returned .endOfMessage half.misplaced := by rfl
  rw [hs]
  refine ⟨hcalls, by decide, by decide, fun n => ?_⟩
  induction n with
  | zero => rfl
  | succ n ih =>
    rw [List.replicate_succ, Run.outputs, result, step, hread, Reading.left, ih]
    rfl

end StreamCall

end DynamicByteArrayInputStream

end ConnectionSniffer
