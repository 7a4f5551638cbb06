import ConnectionSniffer.Io.StreamFraming

/-!
# The documented read loop

The example in the class comment of `DynamicByteArrayInputStream` reads a
stream with two loops: as long as `hasMoreInputStream` answers `true`, read
into a buffer until `-1` comes.  `readMessages_eq` is what it gives on a
finished stream that nobody has read from: the messages, one for each `-1`.

The loops have a fuel argument.  A loop that runs out of fuel gives `none`,
and so does a read that would wait or throws.
-/

namespace ConnectionSniffer

namespace DynamicByteArrayInputStream

/-- The inner loop, with a buffer of `n` bytes: what it reads before `-1`. -/
def readMessage (n : Int) : Nat → DynamicByteArrayInputStream →
    Option (List UInt8 × DynamicByteArrayInputStream)
  | 0, _ => none
  | fuel + 1, s =>
    match s.readInto n 0 n with
    | .returned .endOfMessage s => some ([], s)
    | .returned (.bytes data) s =>
      (readMessage n fuel s).map fun (message, s) => (data ++ message, s)
    | .waits => none
    | .thrown _ _ => none

/-- The outer loop: what the inner loop read each time. -/
def readMessages (n : Int) : Nat → DynamicByteArrayInputStream → Option (List (List UInt8))
  | 0, _ => none
  | fuel + 1, s =>
    if s.hasMoreInputStream then
      match readMessage n fuel s with
      | none => none
      | some (message, s) => (readMessages n fuel s).map fun messages => message :: messages
    else some []

section ReadLoop

variable {s : DynamicByteArrayInputStream} {q : MessageQueue UInt8} {n : Nat}

/-- `read(b)` for a buffer of `n` bytes.  A buffer that is longer than the
stream empties it at once, so `pos + len` never leaves the `int` range. -/
private theorem answers_readBuffer (h : Represents s q) (hn : 0 < n) (hn' : (n : Int) < 2 ^ 31)
    (hcursor : s.pos = 0 ∨ (n : Int) ≤ MAX_BUFFER_SIZE ∨ q.front = []) :
    Represents.Answers (s.readInto n 0 n) q n := by
  have hrange : s.pos < s.count → s.pos + n < 2 ^ 31 := by
    intro hlt
    have hmax : MAX_BUFFER_SIZE = 2048000 := rfl
    have hpos := h.pos_le
    have hcap := h.capacity
    rcases hcursor with hzero | hsmall | hfront
    · omega
    · omega
    · exact absurd hfront (h.pos_lt_count.mp hlt)
  exact h.answers_readInto le_rfl (Int.natCast_pos.mpr hn) (Int.zero_add (n : Int)).le hn' hrange

/-- The inner loop reads one message. -/
theorem readMessage_eq (hn : 0 < n) (hn' : (n : Int) < 2 ^ 31) {message : List UInt8}
    {rest : List (List UInt8)} (h : Represents s q) (hq : q.messages = message :: rest)
    (hcursor : s.pos = 0 ∨ (n : Int) ≤ MAX_BUFFER_SIZE ∨ q.front = []) {fuel : Nat}
    (hfuel : message.length < fuel) :
    ∃ s', readMessage n fuel s = some (message, s') ∧
      Represents s' { q with messages := rest } ∧ s'.pos = 0 := by
  induction fuel generalizing s q message with
  | zero => omega
  | succ fuel ih =>
    have hread := answers_readBuffer h hn hn' hcursor
    have hfront := MessageQueue.front_of_messages_cons hq
    unfold Represents.Answers at hread
    rw [readMessage]
    by_cases hmessage : message = []
    · subst hmessage
      rw [MessageQueue.read_of_messages_cons hq] at hread
      obtain ⟨s', hs', h', hzero⟩ := hread
      exact ⟨s', by rw [hs'], h', hzero (by simp [hq])⟩
    · rw [MessageQueue.read_of_front (by rwa [hfront]), hfront,
        MessageQueue.consume_of_messages_cons hq] at hread
      obtain ⟨s', hs', h'⟩ := hread
      have hpos := List.length_pos_iff.mpr hmessage
      have hcursor' : (n : Int) ≤ MAX_BUFFER_SIZE ∨ message.drop n = [] := by
        rw [List.drop_eq_nil_iff]
        have hcount := h.count
        have hle := h.count_le
        have hcap := h.capacity
        have := h.pos_nonneg
        rw [hfront] at hcount
        omega
      obtain ⟨s'', hs'', h'', hzero⟩ := ih h' rfl (Or.inr hcursor')
        (by
          rw [List.length_drop]
          omega)
      refine ⟨s'', ?_, h'', hzero⟩
      rw [hs']
      simp only [hs'', Option.map_some, List.take_append_drop]

/-- The loop reads the messages of a finished stream. -/
theorem readMessages_eq (hn : 0 < n) (hn' : (n : Int) < 2 ^ 31) (h : Represents s q)
    (hcurrent : q.current = []) (hpos : s.pos = 0) {fuel : Nat}
    (hfuel : q.messages.length + q.messages.flatten.length < fuel) :
    readMessages n fuel s = some q.messages := by
  induction fuel generalizing s q with
  | zero => omega
  | succ fuel ih =>
    rw [readMessages, hasMoreInputStream]
    cases hq : q.messages with
    | nil =>
      have hempty : ¬ s.pos < s.bufferSize := by
        have := h.bufferSize_eq
        rw [hq, hcurrent] at this
        simp only [List.flatten_nil, List.length_nil, Nat.cast_zero] at this
        omega
      rw [if_neg]
      simpa [h.marks_eq_nil, hq] using hempty
    | cons message rest =>
      rw [hq, List.length_cons, List.flatten_cons, List.length_append] at hfuel
      have hlong : message.length < fuel := by omega
      obtain ⟨s', hs', h', hzero⟩ := readMessage_eq hn hn' h hq (Or.inl hpos) hlong
      rw [if_pos (by simp [h.marks_eq_nil, hq]), hs']
      simp only
      have hless : rest.length + rest.flatten.length < fuel := by omega
      rw [ih h' hcurrent hzero hless]
      rfl

end ReadLoop

end DynamicByteArrayInputStream

end ConnectionSniffer
