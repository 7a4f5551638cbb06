import ConnectionSniffer.Io.StreamBounds

/-!
# `mark` and `reset`

While a mark is set, the bytes from `markedPos` to the end of the buffer
are those that were unread at the mark, followed by what was appended
since: `Held` is the invariant, and `reset` gives these bytes back.  A read
that ends the message takes the mark away, and `reset` throws from then on.

Two calls leave a `markedPos` behind that means nothing any more, because
they drop the bytes before the cursor and not the mark: an append once the
read limit is exceeded, and `closeWholeStream`.  `reset_reads_back` is
about the runs without them.
-/

namespace ConnectionSniffer

namespace DynamicByteArrayInputStream

/-! ## Reading back -/

namespace StreamCall

variable {s : DynamicByteArrayInputStream} {reads : List StreamCall}

theorem outputs_added_reads (hreads : ∀ c ∈ reads, c.isRead = true) :
    Run.outputs step added s reads = [] := by
  induction reads generalizing s with
  | nil => rfl
  | cons c reads ih =>
    have hadded : added s c = [] := by
      have hread := hreads c (by simp)
      cases c with
      | append | finish => simp [isRead] at hread
      | read | readInto => rfl
    rw [Run.outputs, hadded, ih fun c' hc' => hreads c' (by simp [hc'])]
    rfl

/-- Reads return what they take off the front. -/
theorem unread_reads (h : InRange s) (hreads : ∀ c ∈ reads, c.isRead = true ∧ c.Callable) :
    s.unread = Run.outputs step returned s reads ++ (Run.after step s reads).unread := by
  have hconserve := run_conserves h fun c hc => (hreads c hc).2
  rwa [outputs_added_reads fun c hc => (hreads c hc).1, List.append_nil] at hconserve

/-- With one read for each unread byte and each end mark, nothing is left. -/
theorem unread_eq_nil (h : Readable s) (hblocking : s.blocking = false)
    (hreads : ∀ c ∈ reads, c.isRead = true ∧ c.Callable) (hint : Run.Along step FitsInt s reads)
    (hlength : s.unread.length + s.newInputStreamMarks.length ≤ reads.length) :
    (Run.after step s reads).unread = [] := by
  induction reads generalizing s with
  | nil =>
    refine List.length_eq_zero_iff.mp ?_
    simp only [List.length_nil] at hlength
    show s.unread.length = 0
    omega
  | cons c reads ih =>
    by_cases hunread : s.unread = []
    · -- nothing is left from the start
      have hconserve := unread_reads h.toInRange hreads
      rw [hunread] at hconserve
      exact (List.append_eq_nil_iff.mp hconserve.symm).2
    · obtain ⟨hread, hcall⟩ := hreads c (by simp)
      have hfirst : ∀ c' ∈ [c], c'.isRead = true ∧ c'.Callable := fun c' hc' =>
        hreads c' (by simp [List.mem_singleton.mp hc'])
      have hone' : s.unread = returned s c ++ (step s c).unread := by
        simpa [Run.outputs, Run.after] using unread_reads h.toInRange hfirst
      refine ih (readable_step h hcall hint.1) ((blocking_step h.toInRange hcall).trans hblocking)
        (fun c' hc' => hreads c' (by simp [hc'])) hint.2 ?_
      rw [hone', List.length_append] at hlength
      simp only [List.length_cons] at hlength
      rcases read_progress h hblocking hcall hread hint.1 hunread with
        ⟨data, hdata, hresult, hmarks⟩ | ⟨hresult, -, hmarks⟩
      · have hsome : 0 < (returned s c).length := by
          rw [returned, hresult]
          simpa [List.length_pos_iff] using hdata
        rw [hmarks]
        omega
      · omega

end StreamCall

/-- The reads that follow return the bytes, and nothing else, and all of them
if there are enough reads. -/
def ReadsBack (s : DynamicByteArrayInputStream) (bytes : List UInt8) : Prop :=
  ∀ reads : List StreamCall, (∀ c ∈ reads, c.isRead = true ∧ c.Callable) →
    Run.Along StreamCall.step StreamCall.FitsInt s reads →
      Run.outputs StreamCall.step StreamCall.returned s reads <+: bytes ∧
      (bytes.length + s.newInputStreamMarks.length ≤ reads.length →
        Run.outputs StreamCall.step StreamCall.returned s reads = bytes)

theorem Readable.readsBack {s : DynamicByteArrayInputStream} (h : Readable s)
    (hblocking : s.blocking = false) : ReadsBack s s.unread := by
  intro reads hreads hint
  have hunread := StreamCall.unread_reads h.toInRange hreads
  refine ⟨⟨_, hunread.symm⟩, fun hlength => ?_⟩
  rw [StreamCall.unread_eq_nil h hblocking hreads hint hlength, List.append_nil] at hunread
  exact hunread.symm

/-! ## The bytes behind a mark -/

/-- The bytes from the marked position on. -/
def fromMark (s : DynamicByteArrayInputStream) : List UInt8 :=
  s.content.drop s.markedPos.toNat

/-- The mark is set, and it marks a byte of the buffer. -/
structure Held (s : DynamicByteArrayInputStream) : Prop extends Readable s where
  nonblocking : s.blocking = false
  marked_nonneg : 0 ≤ s.markedPos
  marked_le : s.markedPos ≤ s.pos

/-- No mark is set. -/
structure Unmarked (s : DynamicByteArrayInputStream) : Prop extends InRange s where
  markedPos : s.markedPos = -1

namespace StreamMethod

/-- The calls after a mark: append, finish, reads and `closeWholeStream`, with
arguments that Java has. -/
def FollowsMark : StreamMethod → Prop
  | call (.append data) => data.length < 2 ^ 31
  | call (.finish _ _) => True
  | call .read => True
  | call (.readInto bLength _ len) => bLength < 2 ^ 31 ∧ len < 2 ^ 31
  | closeWholeStream => True
  | skip _ => False
  | finishCurrentInputStream => False
  | mark _ => False
  | reset => False

instance : ∀ m : StreamMethod, Decidable m.FollowsMark
  | call (.append data) => inferInstanceAs (Decidable (data.length < 2 ^ 31))
  | call (.readInto bLength _ len) =>
    inferInstanceAs (Decidable (bLength < 2 ^ 31 ∧ len < 2 ^ 31))
  | call (.finish _ _) | call .read | closeWholeStream => .isTrue trivial
  | skip _ | finishCurrentInputStream | mark _ | reset => .isFalse id

/-- The bytes that a call adds. -/
def added (s : DynamicByteArrayInputStream) : StreamMethod → List UInt8
  | call c => c.added s
  | _ => []

/-- While a mark is set, no append comes when its read limit is exceeded
(unless the append is refused), and no `closeWholeStream`. -/
def KeepsMark (s : DynamicByteArrayInputStream) : StreamMethod → Prop
  | call (.append data) => s.markedPos = -1 ∨ s.pos - s.markedPos ≤ s.readLimit ∨
      s.isFinished = true ∨ MAX_BUFFER_SIZE < s.bufferSize - s.pos + data.length ∧
        s.bufferSize - s.pos + data.length < 2 ^ 31
  | closeWholeStream => s.markedPos = -1
  | _ => True

instance (s : DynamicByteArrayInputStream) : ∀ m : StreamMethod, Decidable (KeepsMark s m)
  | call (.append data) =>
    inferInstanceAs (Decidable (s.markedPos = -1 ∨ s.pos - s.markedPos ≤ s.readLimit ∨
      s.isFinished = true ∨ MAX_BUFFER_SIZE < s.bufferSize - s.pos + data.length ∧
        s.bufferSize - s.pos + data.length < 2 ^ 31))
  | closeWholeStream => inferInstanceAs (Decidable (s.markedPos = -1))
  | call (.finish _ _) | call .read | call (.readInto _ _ _) => .isTrue trivial
  | skip _ | finishCurrentInputStream | mark _ | reset => .isTrue trivial

/-- A read at or behind the end mark of the current message. -/
def EndsMessage (s : DynamicByteArrayInputStream) : StreamMethod → Prop
  | call c => c.isRead = true ∧ s.count ≤ s.pos ∧
      ∃ mark ∈ s.newInputStreamMarks.head?, mark.endPos ≤ s.pos
  | _ => False

instance (s : DynamicByteArrayInputStream) : ∀ m : StreamMethod, Decidable (EndsMessage s m)
  | call c => inferInstanceAs (Decidable (c.isRead = true ∧ s.count ≤ s.pos ∧
      ∃ mark ∈ s.newInputStreamMarks.head?, mark.endPos ≤ s.pos))
  | skip _ | finishCurrentInputStream | mark _ | reset | closeWholeStream => .isFalse id

section Step

variable {s : DynamicByteArrayInputStream} {m : StreamMethod}

/-- What a call leaves of a mark: it stays, with the bytes behind it, or a
read ends the message. -/
inductive MarkAfter (s : DynamicByteArrayInputStream) (m : StreamMethod) : Prop
  | held (hheld : Held (m.step s)) (hbytes : (m.step s).fromMark = s.fromMark ++ m.added s)
  | ended (hends : EndsMessage s m) (hunmarked : Unmarked (m.step s))

/-- A call that leaves the stream as it is. -/
theorem MarkAfter.same (h : Held s) (hstep : m.step s = s) (hadded : m.added s = []) :
    MarkAfter s m := by
  refine .held ?_ ?_
  · rwa [hstep]
  · rw [hstep, hadded, List.append_nil]

theorem fromMark_appendedBehind (h : Held s) (data : List UInt8) :
    (s.appendedBehind data).fromMark = s.fromMark ++ data := by
  have hsize := h.size
  have hle := h.marked_le
  have hpos := h.pos_le
  have hnonneg := h.marked_nonneg
  show (s.content ++ data).drop s.markedPos.toNat = _
  rw [List.drop_append_of_le_length (by omega)]
  rfl

theorem markAfter_append (h : Held s) {data : List UInt8} (hdata : data.length < 2 ^ 31)
    (hkeeps : KeepsMark s (call (.append data))) : MarkAfter s (call (.append data)) := by
  have hpos := h.pos_nonneg
  have hnonneg := h.marked_nonneg
  have ho := append_outcome h.toInRange hdata
  have hreadable := ho.readable h.toReadable
  have hstep : (call (.append data)).step s = (s.append data).state := rfl
  have hadded : (call (.append data)).added s = accepted data (s.append data) := rfl
  have hunmarked : ¬ s.Marked → s.isFinished = false →
      MAX_BUFFER_SIZE < s.bufferSize - s.pos + data.length ∧
        s.bufferSize - s.pos + data.length < 2 ^ 31 := by
    intro hnot hopen
    rcases hkeeps with hunset | hlimit | hfinished | hrefused
    · omega
    · exact absurd ⟨hnonneg, hlimit⟩ hnot
    · simp [hopen] at hfinished
    · exact hrefused
  generalize s.append data = o at ho hreadable hstep hadded
  cases ho with
  | finished | full | wrappedBehind => exact .same h hstep hadded
  | behind hopen hmarked hroom =>
    have hmax : MAX_BUFFER_SIZE = 2048000 := rfl
    have hbehind : Readable (s.appendedBehind data) := hreadable (Or.inr (Or.inr (by omega)))
    have hbytes := fromMark_appendedBehind h data
    refine .held ?_ ?_
    · rw [hstep]
      exact
        { toReadable := hbehind
          nonblocking := h.nonblocking
          marked_nonneg := h.marked_nonneg
          marked_le := h.marked_le }
    · rw [hstep, hadded]
      exact hbytes
  | shrunk hopen hmarked hroom =>
    have hrefused := hunmarked hmarked hopen
    rw [kept, if_neg hmarked] at hroom
    omega
  | wrappedShrunk hopen hmarked hwrap =>
    have hrefused := hunmarked hmarked hopen
    rw [kept, if_neg hmarked] at hwrap
    omega

theorem markAfter_reading (h : Held s) {c : StreamCall} (hread : c.isRead = true) {len : Int}
    {o : Reading} (ho : ReadOutcome s len o) (hleft : c.step s = o.left s) :
    MarkAfter s (call c) := by
  have hstep : (call c).step s = o.left s := hleft
  have hadded : (call c).added s = [] := by
    cases c with
    | append | finish => simp [StreamCall.isRead] at hread
    | read | readInto => rfl
  have hrange := ho.inRange h.toInRange
  have hreadable := ho.readable h.toReadable
  cases ho with
  | @took n hpos hn =>
    refine .held ?_ ?_
    · have hle := h.marked_le
      rw [hstep]
      exact
        { toReadable := hreadable
          nonblocking := h.nonblocking
          marked_nonneg := h.marked_nonneg
          marked_le := by
            show s.markedPos ≤ s.pos + n
            omega }
    · rw [hstep, hadded, List.append_nil]
      rfl
  | @rolled mark marks hcount hmarks hend =>
    refine .ended ⟨hread, hcount, mark, ?_, hend⟩ ?_
    · simp [hmarks]
    · rw [hstep]
      exact ⟨hrange, rfl⟩
  | nothing | waits | wrapped => exact .same h hstep hadded

/-- A mark that is set stays, unless a read ends the message. -/
theorem markAfter_step (h : Held s) (hcall : m.FollowsMark) (hkeeps : KeepsMark s m) :
    MarkAfter s m := by
  cases m with
  | call c =>
    cases c with
    | append data => exact markAfter_append h hcall hkeeps
    | finish markFinish endTime =>
      have hreadable := h.toReadable.finish markFinish endTime
      have hsame : (s.finish markFinish endTime).2.content = s.content ∧
          (s.finish markFinish endTime).2.markedPos = s.markedPos ∧
          (s.finish markFinish endTime).2.pos = s.pos ∧
          (s.finish markFinish endTime).2.blocking = s.blocking := by
        unfold DynamicByteArrayInputStream.finish addMarkPos
        split_ifs <;> exact ⟨rfl, rfl, rfl, rfl⟩
      obtain ⟨hcontent, hmarked, hpos, hblocking⟩ := hsame
      refine .held ?_ ?_
      · exact
          { toReadable := hreadable
            nonblocking := hblocking.trans h.nonblocking
            marked_nonneg := h.marked_nonneg.trans_eq hmarked.symm
            marked_le := hmarked.trans_le (h.marked_le.trans_eq hpos.symm) }
      · show (s.finish markFinish endTime).2.fromMark = s.fromMark ++ []
        rw [fromMark, hcontent, hmarked, List.append_nil]
        rfl
    | read => exact markAfter_reading h rfl (read_outcome h.toInRange) rfl
    | readInto bLength off len =>
      rcases readInto_cases h.toInRange off hcall.1 hcall.2 with ⟨hsame, -⟩ | ho
      · exact .same h hsame rfl
      · exact markAfter_reading h rfl ho rfl
  | closeWholeStream =>
    have hunset : s.markedPos = -1 := hkeeps
    have := h.marked_nonneg
    omega
  | skip | finishCurrentInputStream | mark | reset => exact hcall.elim

/-- None of the calls sets a mark. -/
theorem unmarked_step (h : Unmarked s) (hcall : m.FollowsMark) : Unmarked (m.step s) := by
  have hread : ∀ {len : Int} {o : Reading}, ReadOutcome s len o → Unmarked (o.left s) := by
    intro len o ho
    refine ⟨ho.inRange h.toInRange, ?_⟩
    cases ho with
    | rolled => rfl
    | took | nothing | waits | wrapped => exact h.markedPos
  cases m with
  | call c =>
    cases c with
    | append data =>
      have ho := append_outcome h.toInRange hcall
      refine ⟨ho.inRange h.toInRange, ?_⟩
      show (s.append data).state.markedPos = -1
      generalize s.append data = o at ho
      cases ho <;> exact h.markedPos
    | finish markFinish endTime =>
      exact ⟨inRange_finish h.toInRange markFinish endTime,
        (markedPos_finish s markFinish endTime).trans h.markedPos⟩
    | read => exact hread (read_outcome h.toInRange)
    | readInto bLength off len =>
      rcases readInto_cases h.toInRange off hcall.1 hcall.2 with ⟨hsame, -⟩ | ho
      · show Unmarked ((s.readInto bLength off len).left s)
        rwa [hsame]
      · exact hread ho
  | closeWholeStream =>
    have hmax : MAX_BUFFER_SIZE = 2048000 := rfl
    refine ⟨?_, h.markedPos⟩
    exact
      { size := rfl
        pos_nonneg := le_refl 0
        pos_le := le_refl 0
        count_le := le_refl 0
        marks_le := fun mark hmem => absurd hmem (List.not_mem_nil)
        buf_of_marks := fun hne => absurd rfl hne
        capacity := by
          show (0 : Int) ≤ MAX_BUFFER_SIZE
          omega }
  | skip | finishCurrentInputStream | mark | reset => exact hcall.elim

end Step

/-! ## Runs from a mark -/

section Runs

variable {s : DynamicByteArrayInputStream} {calls : List StreamMethod}

/-- Over a run the mark stays, with the bytes behind it, or a read ends the
message. -/
theorem run_keepsMark (h : Held s) (hcalls : ∀ m ∈ calls, m.FollowsMark)
    (hkeeps : Run.Along step KeepsMark s calls) :
    Unmarked (Run.after step s calls) ∧ ¬ Run.Along step (fun s m => ¬ EndsMessage s m) s calls ∨
      Held (Run.after step s calls) ∧
        (Run.after step s calls).fromMark = s.fromMark ++ Run.outputs step added s calls := by
  induction calls generalizing s with
  | nil => exact Or.inr ⟨h, (List.append_nil _).symm⟩
  | cons m calls ih =>
    have hrest : ∀ m' ∈ calls, m'.FollowsMark := fun m' hm' => hcalls m' (by simp [hm'])
    cases markAfter_step h (hcalls m (by simp)) hkeeps.1 with
    | held hheld hbytes =>
      rcases ih hheld hrest hkeeps.2 with ⟨hunmarked, hended⟩ | ⟨hafter, hall⟩
      · exact Or.inl ⟨hunmarked, fun halong => hended halong.2⟩
      · refine Or.inr ⟨hafter, ?_⟩
        rw [Run.after_cons, hall, hbytes, Run.outputs, List.append_assoc]
    | ended hends hunmarked =>
      refine Or.inl ⟨?_, fun halong => halong.1 hends⟩
      show Unmarked (Run.after step (m.step s) calls)
      exact Run.invariant (I := Unmarked) (C := fun _ m => m.FollowsMark)
        (fun _ _ h hm => unmarked_step h hm) hunmarked (Run.along_of_forall step _ hrest)

theorem held_mark (h : Readable s) (hblocking : s.blocking = false) {n : Int} (hn : 0 < n) :
    Held (s.mark n) ∧ (s.mark n).fromMark = s.unread := by
  unfold DynamicByteArrayInputStream.mark
  rw [if_pos hn]
  exact ⟨{ h with
      nonblocking := hblocking
      marked_nonneg := h.pos_nonneg
      marked_le := le_refl _ }, rfl⟩

/-- A reset to a mark that is held. -/
theorem reset_held (h : Held s) :
    ∃ s', s.reset = .returned s' ∧ ReadsBack s' s.fromMark := by
  have hnonneg := h.marked_nonneg
  have hle := h.marked_le
  have hpos := h.pos_le
  refine ⟨{ s with pos := s.markedPos, markedPos := -1 }, ?_, ?_⟩
  · unfold DynamicByteArrayInputStream.reset
    rw [if_neg (by omega)]
  · have hback : Readable { s with pos := s.markedPos, markedPos := -1 } :=
      { h with
        pos_nonneg := hnonneg
        pos_le := hle.trans hpos }
    exact hback.readsBack h.nonblocking

/-- In a run from a mark that keeps the mark, `reset` throws, or the reads
behind it return the bytes that were unread at the mark and then those
appended since.  It does not throw as long as no read has ended the message,
however many bytes were read. -/
theorem reset_reads_back (s : DynamicByteArrayInputStream) (h : Readable s)
    (hblocking : s.blocking = false) (n : Int) (hn : 0 < n) (calls : List StreamMethod)
    (hcalls : ∀ m ∈ calls, m.FollowsMark) (hkeeps : Run.Along step KeepsMark (s.mark n) calls) :
    let s' := Run.after step (s.mark n) calls
    (∀ s'', s'.reset = .returned s'' →
        ReadsBack s'' (s.unread ++ Run.outputs step added (s.mark n) calls)) ∧
      (Run.Along step (fun s m => ¬ EndsMessage s m) (s.mark n) calls →
        ∃ s'', s'.reset = .returned s'') := by
  intro s'
  obtain ⟨hmark, hbytes⟩ := held_mark h hblocking hn
  rcases run_keepsMark hmark hcalls hkeeps with ⟨hunmarked, hended⟩ | ⟨hafter, hall⟩
  · refine ⟨fun s'' hreset => ?_, fun halong => absurd halong hended⟩
    unfold DynamicByteArrayInputStream.reset at hreset
    rw [if_pos hunmarked.markedPos] at hreset
    simp at hreset
  · obtain ⟨s'', hreset, hback⟩ := reset_held hafter
    rw [hall, hbytes] at hback
    refine ⟨fun t ht => ?_, fun _ => ⟨s'', hreset⟩⟩
    obtain rfl : s'' = t := by simpa using hreset.symm.trans ht
    exact hback

/-- Reading within the limit, with an append in between. -/
theorem reset_reads_back_within :
    let s := Run.after step (StreamCall.created 0) [.call (.append [97, 98, 99]), .call .read]
    let calls : List StreamMethod := [.call .read, .call (.append [100]), .call .read]
    ∃ s'', (Run.after step (s.mark 1) calls).reset = .returned s'' ∧
      ReadsBack s'' [98, 99, 100] := by
  intro s calls
  have hs : Readable s ∧ s.blocking = false := by
    have hcalls : ∀ c ∈ [StreamCall.append [97, 98, 99], .read], c.Callable := by decide
    exact ⟨StreamCall.run_readable (StreamCall.readable_created 0) hcalls (by decide), by decide⟩
  obtain ⟨hback, hreturns⟩ := reset_reads_back s hs.1 hs.2 1 (by decide) calls (by decide) (by decide)
  obtain ⟨s'', hreset⟩ := hreturns (by decide)
  exact ⟨s'', hreset, hback s'' hreset⟩

/-- Two bytes are read with a limit of one, and a byte is appended: `reset`
goes to the marked position in a buffer that has dropped these two bytes. -/
theorem reset_to_stale_mark :
    let s := Run.after step (StreamCall.created 0) [.call (.append [97, 98, 99])]
    let calls : List StreamMethod := [.call .read, .call .read, .call (.append [100])]
    s.pos < s.count ∧ (∀ m ∈ calls, m.FollowsMark) ∧
      ∃ s'', (Run.after step (s.mark 1) calls).reset = .returned s'' ∧
        Run.outputs StreamCall.step StreamCall.returned s'' [.read, .read] = [99, 100] ∧
        ¬ ReadsBack s'' (s.unread ++ Run.outputs step added (s.mark 1) calls) := by
  intro s calls
  refine ⟨by decide, by decide, _, rfl, by decide, fun hback => ?_⟩
  have hreads := (hback [.read, .read] (by decide) (by decide)).1
  exact absurd hreads (by decide)

end Runs

end StreamMethod

end DynamicByteArrayInputStream

end ConnectionSniffer
