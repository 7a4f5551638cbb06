import ConnectionSniffer.Connection.Handlers
import ConnectionSniffer.Receiver.Drain

/-!
# What a packet does to the state and to the finished streams

`stateAfter` and `finishedAfter` say where one handled packet leaves the
state of a connection and the finished flags of its streams, and
`deliver_progressed` that `deliver` does so.  A throw comes from the check
of the handshake or from the stream that refuses the payload; `Halted` is
what can be said then.
-/

namespace ConnectionSniffer

namespace States

/-- The state after an ACK. -/
def acknowledged : Option TCPConnectionState → Option TCPConnectionState
  | some .synReceived => some .established
  | some .finishWait1 => some .closeWait
  | some .lastAck => some .closed
  | state => state

/-- The state after a packet. -/
def stateAfter (p : TCPPacket) (state : Option TCPConnectionState) :
    Option TCPConnectionState :=
  let state := if p.ack then acknowledged state else state
  if p.fin then TCPConnectionImpl.updateConnectionStateAfterReceivedFinishPacket state else state

/-- Whether the stream of `x` is finished after a packet, and whether it was
before. -/
def finishedAfter (p : TCPPacket) (x : Side) (finished : Bool) : Bool :=
  p.rst || (p.fin && p.side = x) || finished

/-- What a packet has done to the connection `c`. -/
structure Progressed (p : TCPPacket) (c c' : TCPConnectionImpl) : Prop where
  state : c'.state = stateAfter p c.state
  finished : ∀ x, (c'.inputStream.get x).isFinished =
    finishedAfter p x (c.inputStream.get x).isFinished
  counter : p.fin = true →
    (c'.counter.get p.side).seq = p.sequence + p.data.length + 1

/-- What it has done when `e` was thrown. -/
structure Halted (p : TCPPacket) (e : Throwable) (c c' : TCPConnectionImpl) : Prop where
  state : c'.state = c.state ∨ (p.ack = true ∧ c'.state = acknowledged c.state)
  finished : ∀ x, (c'.inputStream.get x).isFinished =
    (p.rst || (c.inputStream.get x).isFinished)
  alreadyFinished : e.isAlreadyFinished = true → p.isContainsData = true ∧
    (p.rst || (c.inputStream.get p.side).isFinished) = true

/-- Before the ACK part: a RST has finished both streams. -/
structure Reset (p : TCPPacket) (state : Option TCPConnectionState)
    (c c' : TCPConnectionImpl) : Prop where
  state : c'.state = state
  finished : ∀ x, (c'.inputStream.get x).isFinished =
    (p.rst || (c.inputStream.get x).isFinished)

section Deliver

variable {now : Date} {p : TCPPacket} {c c' : TCPConnectionImpl}

theorem reset_processAckPacket (h : Reset p c.state c c') :
    (c'.processAckPacket p).Ends (Reset p (acknowledged c.state) c)
      (fun e c'' => Halted p e c c'') := by
  have hhalted : ∀ e : Throwable, e.isAlreadyFinished = false → Halted p e c c' :=
    fun e he => ⟨Or.inl h.state, h.finished, fun he' => absurd (he.symm.trans he') (by decide)⟩
  have hsame : ∀ state, c'.state = state → acknowledged state = state →
      Reset p (acknowledged c.state) c c' := by
    intro state hstate hidle
    rw [← h.state, hstate, hidle]
    exact ⟨hstate, h.finished⟩
  unfold TCPConnectionImpl.processAckPacket
  split
  · exact hhalted _ rfl
  · rename_i hstate
    unfold TCPConnectionImpl.processHandshake3AckPacket
    split
    · exact hhalted _ rfl
    · exact ⟨by rw [← h.state, hstate]; rfl, h.finished⟩
  · rename_i hstate
    exact ⟨by rw [← h.state, hstate]; rfl, h.finished⟩
  · rename_i hstate
    exact ⟨by rw [← h.state, hstate]; rfl, h.finished⟩
  · rename_i state hreceived hwait hlast hstate
    refine hsame _ hstate ?_
    unfold acknowledged
    split <;> simp_all

theorem reset_processDataPacket {state : Option TCPConnectionState} (h : Reset p state c c')
    (hstate : state = c.state ∨ (p.ack = true ∧ state = acknowledged c.state))
    (hdata : p.isContainsData = true) :
    (c'.processDataPacket now p).Ends (Reset p state c) (fun e c'' => Halted p e c c'') := by
  refine ((TCPConnectionImpl.processDataPacket_sat now p c').ends
    (TCPConnectionImpl.processDataPacket_throws now p c')).mono ?_ ?_
  · intro c'' hd
    refine ⟨hd.state.trans h.state, BySide.forall_side p.side ?_ ?_⟩
    · rw [hd.is_open, ← h.finished, hd.was_open]
    · rw [hd.other_isFinished, h.finished]
  · intro e c'' ⟨hrefuses, hd⟩
    refine ⟨?_, fun x => (hd.sameBytes.isFinished x).trans (h.finished x), fun he => ⟨hdata, ?_⟩⟩
    · rw [hd.state, h.state]
      exact hstate
    · rw [← h.finished]
      exact hrefuses.2 he

/-- What one packet does. -/
theorem deliver_progressed (now : Date) (p : TCPPacket) (c : TCPConnectionImpl) (n : Nat) :
    (Delivery.deliver now p ⟨c, n⟩).Ends (fun t => Progressed p c t.connection)
      (fun e t => Halted p e c t.connection) := by
  set state := if p.ack then acknowledged c.state else c.state with hstate
  have hstate' : state = c.state ∨ (p.ack = true ∧ state = acknowledged c.state) := by
    cases hack : p.ack with
    | true => exact Or.inr ⟨rfl, by simp [hstate, hack]⟩
    | false => exact Or.inl (by simp [hstate, hack])
  refine Delivery.deliver_connection_ends (R := Reset p c.state c) (A := Reset p state c)
    (D := Reset p state c) (F := fun e c' => Halted p e c c') ?_ ?_ ?_ ?_ ?_ ?_
  · cases hrst : p.rst with
    | true =>
      refine ⟨rfl, fun x => ?_⟩
      rw [hrst, Bool.true_or]
      exact (TCPConnectionImpl.processRstPacket_streams now p c x).2
    | false => exact ⟨rfl, fun x => by rw [hrst, Bool.false_or]; rfl⟩
  · intro c' h hack
    rw [hstate, if_pos hack]
    exact reset_processAckPacket h
  · intro c' h hack
    rw [hstate, if_neg (by simp [hack])]
    exact h
  · intro c' h hdata
    exact reset_processDataPacket h hstate' hdata
  · intro c' h _
    exact h
  · intro c' h
    cases hfin : p.fin with
    | true =>
      obtain ⟨-, hown, hother⟩ := TCPConnectionImpl.processFinishPacket_streams now p c'
      refine ⟨?_, BySide.forall_side p.side ?_ ?_, fun _ => ?_⟩
      · show TCPConnectionImpl.updateConnectionStateAfterReceivedFinishPacket c'.state = _
        simp [stateAfter, hfin, h.state, hstate]
      · simp only [if_true]
        refine hown.trans ?_
        simp [finishedAfter, hfin]
      · simp only [if_true]
        show ((c'.processFinishPacket now p).inputStream.get p.side.other).isFinished = _
        rw [hother, h.finished]
        simp [finishedAfter]
      · show ((c'.processFinishPacket now p).counter.get p.side).seq = _
        rw [TCPConnectionImpl.processFinishPacket_counter, SequenceCounter.get_sequenceAddOne,
          SequenceCounter.get_update, updateCounter_seq]
    | false =>
      refine ⟨?_, fun x => ?_, fun h' => absurd (hfin.symm.trans h') (by decide)⟩
      · show c'.state = _
        simp [stateAfter, hfin, h.state, hstate]
      · show (c'.inputStream.get x).isFinished = _
        rw [h.finished, finishedAfter, hfin, Bool.false_and, Bool.or_false]

end Deliver

end States

end ConnectionSniffer
