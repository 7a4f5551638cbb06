import ConnectionSniffer.Receiver.Atomicity
import ConnectionSniffer.Receiver.Promotion

/-!
# When the handlers cannot throw

What the handlers of one packet do until they throw can be told beforehand.
`Stops` says that they throw, and `counterLeft` gives the counters that
they leave then; without a FIN these are also the counters after a return.

A drain handles many packets.  `Unrefused` is a condition on the
connection and the packets at hand under which none of them can be
refused: all payloads together fit into the streams, no RST is at hand, and
no payload starts behind a FIN of its side.  `going_drain` is the invariant
of such a drain, and it says that the drain never throws.
-/

namespace ConnectionSniffer

namespace Refusals

open Streams (SaneStreams)
open Waiting (Orderly Waits)

/-! ## Where the handlers of a packet stop -/

/-- The counters after the RST part of `handlePacket`. -/
def counterReset (p : TCPPacket) (c : TCPConnectionImpl) : SequenceCounter :=
  if p.rst then c.counter.update p.side p else c.counter

/-- The counters after the ACK part. -/
def counterAcknowledged (p : TCPPacket) (state : Option TCPConnectionState)
    (counter : SequenceCounter) : SequenceCounter :=
  match state with
  | some .synReceived => (counter.update .client p).sequenceAddOne .server
  | some .finishWait1 | some .lastAck => counter.update p.side p
  | _ => counter

/-- The third packet of a handshake is refused. -/
def StopsAtAck (p : TCPPacket) (c : TCPConnectionImpl) : Prop :=
  p.ack = true ∧ c.state = some .synReceived ∧ p.ackNum ≠ (counterReset p c).server.seq + 1

/-- The payload is refused: its stream has been finished, by the RST of the
same packet at the latest, or it has no room. -/
def StopsAtData (p : TCPPacket) (c : TCPConnectionImpl) : Prop :=
  p.isContainsData = true ∧ (p.rst = true ∨ (c.inputStream.get p.side).isFinished = true ∨
    ¬ (c.inputStream.get p.side).hasRoom p.data)

/-- A handler throws on the packet. -/
def Stops (p : TCPPacket) (c : TCPConnectionImpl) : Prop := StopsAtAck p c ∨ StopsAtData p c

instance (p : TCPPacket) (c : TCPConnectionImpl) : Decidable (StopsAtAck p c) :=
  inferInstanceAs (Decidable (_ ∧ _ ∧ _))

instance (p : TCPPacket) (c : TCPConnectionImpl) : Decidable (StopsAtData p c) :=
  inferInstanceAs (Decidable (_ ∧ (_ ∨ _ ∨ _)))

instance (p : TCPPacket) (c : TCPConnectionImpl) : Decidable (Stops p c) :=
  inferInstanceAs (Decidable (_ ∨ _))

/-- The counters that the handlers leave before the FIN part. -/
def counterLeft (p : TCPPacket) (c : TCPConnectionImpl) : SequenceCounter :=
  if StopsAtAck p c then counterReset p c
  else
    let counter :=
      if p.ack then counterAcknowledged p c.state (counterReset p c) else counterReset p c
    if p.isContainsData = true ∧ ¬ StopsAtData p c then counter.update p.side p else counter

section Deliver

variable {now : Date} {p : TCPPacket} {c c' : TCPConnectionImpl}

/-- The ACK handler throws exactly if it refuses the third packet of a
handshake. -/
theorem processAckPacket_ends (p : TCPPacket) (hstate : c.state ≠ none) :
    (c.processAckPacket p).Sat
      (fun c' => ¬ (c.state = some .synReceived ∧ p.ackNum ≠ c.counter.server.seq + 1) ∧
        c'.counter = counterAcknowledged p c.state c.counter ∧ c'.inputStream = c.inputStream)
      (fun c' => (c.state = some .synReceived ∧ p.ackNum ≠ c.counter.server.seq + 1) ∧
        c'.counter = c.counter) := by
  unfold TCPConnectionImpl.processAckPacket TCPConnectionImpl.processHandshake3AckPacket
    counterAcknowledged
  cases hs : c.state with
  | none => exact absurd hs hstate
  | some st =>
    cases st
    case synReceived =>
      dsimp only
      split
      · rename_i hne
        exact ⟨⟨rfl, hne⟩, rfl⟩
      · rename_i heq
        exact ⟨fun hstops => heq hstops.2, rfl, rfl⟩
    all_goals exact ⟨fun hstops => absurd hstops.1 (by simp), rfl, rfl⟩

/-- The data handler throws exactly if the stream is finished or has no
room. -/
theorem processDataPacket_ends (now : Date) (hsane : (c.inputStream.get p.side).Sane)
    (hfits : p.data.length < 2 ^ 16) :
    (c.processDataPacket now p).Sat
      (fun c' => ((c.inputStream.get p.side).isFinished = false ∧
        (c.inputStream.get p.side).hasRoom p.data) ∧ c'.counter = c.counter.update p.side p)
      (fun c' => ((c.inputStream.get p.side).isFinished = true ∨
        ¬ (c.inputStream.get p.side).hasRoom p.data) ∧ c'.counter = c.counter) := by
  have hsat := TCPConnectionImpl.processDataPacket_sat now p c
  by_cases htakes : (c.inputStream.get p.side).isFinished = false ∧
      (c.inputStream.get p.side).hasRoom p.data
  · obtain ⟨c', htaken⟩ := Atomicity.processDataPacket_taken now hsane htakes.1 htakes.2
    rw [htaken] at hsat ⊢
    exact ⟨htakes, hsat.counter⟩
  · have hno : (c.inputStream.get p.side).isFinished = true ∨
        ¬ (c.inputStream.get p.side).hasRoom p.data := by
      rw [not_and_or, Bool.not_eq_false] at htakes
      exact htakes
    obtain ⟨e, c', hthrown, -⟩ := Atomicity.processDataPacket_refused now hsane hfits hno
    rw [hthrown] at hsat ⊢
    exact ⟨hno, hsat.counter⟩

/-- The streams as the data handler finds them. -/
structure Streamed (p : TCPPacket) (c c' : TCPConnectionImpl) : Prop where
  sane : (c'.inputStream.get p.side).Sane
  reset : p.rst = true → (c'.inputStream.get p.side).isFinished = true
  same : p.rst = false → c'.inputStream = c.inputStream

theorem Streamed.congr (h : Streamed p c c') {c'' : TCPConnectionImpl}
    (hstreams : c''.inputStream = c'.inputStream) : Streamed p c c'' :=
  ⟨hstreams ▸ h.sane, fun hrst => hstreams ▸ h.reset hrst, fun hrst => hstreams.trans (h.same hrst)⟩

theorem Streamed.refuses_iff (h : Streamed p c c') (hdata : p.isContainsData = true) :
    ((c'.inputStream.get p.side).isFinished = true ∨
      ¬ (c'.inputStream.get p.side).hasRoom p.data) ↔ StopsAtData p c := by
  unfold StopsAtData
  cases hrst : p.rst with
  | true => simp [h.reset hrst, hdata]
  | false => simp [h.same hrst, hdata]

/-- The handlers throw exactly if the packet `Stops` them, and leave the
counters that `counterLeft` gives. -/
theorem deliver_left (now : Date) (hstate : c.state ≠ none)
    (hsane : ∀ x, (c.inputStream.get x).Sane) (hfits : p.data.length < 2 ^ 16) (n : Nat) :
    (Delivery.deliver now p ⟨c, n⟩).Leaves
      (fun c' => ¬ Stops p c ∧ (p.fin = false → c'.counter = counterLeft p c))
      (fun c' => Stops p c ∧ c'.counter = counterLeft p c) := by
  set acknowledged :=
    if p.ack then counterAcknowledged p c.state (counterReset p c) else counterReset p c
    with hacknowledged
  refine Delivery.deliver_leaves
    (R := fun c' => c'.counter = counterReset p c ∧ c'.state = c.state ∧ Streamed p c c')
    (A := fun c' => ¬ StopsAtAck p c ∧ c'.counter = acknowledged ∧ Streamed p c c')
    (D := fun c' => ¬ Stops p c ∧ c'.counter = counterLeft p c) ?_ ?_ ?_ ?_ ?_ ?_
  · unfold counterReset
    cases hrst : p.rst with
    | true =>
      refine ⟨rfl, rfl, ?_⟩
      exact ⟨Streams.sane_processRstPacket now p hsane p.side,
        fun _ => (TCPConnectionImpl.processRstPacket_streams now p c p.side).2,
        fun h => absurd (hrst.symm.trans h) (by decide)⟩
    | false =>
      exact ⟨rfl, rfl, hsane p.side, fun h => absurd (hrst.symm.trans h) (by decide), fun _ => rfl⟩
  · rintro c' ⟨hcounter, hsame, hstreams⟩ hack
    rw [hacknowledged, if_pos hack]
    refine (processAckPacket_ends p (hsame ▸ hstate)).mono ?_ ?_
    · rintro c'' ⟨hnot, hc'', hstreams'⟩
      rw [hsame, hcounter] at hnot hc''
      exact ⟨fun hstops => hnot hstops.2, hc'', hstreams.congr hstreams'⟩
    · rintro c'' ⟨hrefused, hc''⟩
      rw [hsame, hcounter] at hrefused
      have hstops : StopsAtAck p c := ⟨hack, hrefused⟩
      refine ⟨Or.inl hstops, ?_⟩
      rw [counterLeft, if_pos hstops, hc'', hcounter]
  · rintro c' ⟨hcounter, -, hstreams⟩ hack
    refine ⟨fun hstops => absurd (hack.symm.trans hstops.1) (by decide), ?_, hstreams⟩
    rw [hacknowledged, hcounter]
    simp [hack]
  · rintro c' ⟨hnot, hcounter, hstreams⟩ hdata
    have hiff := hstreams.refuses_iff hdata
    refine (processDataPacket_ends now hstreams.sane hfits).mono ?_ ?_
    · rintro c'' ⟨⟨hopen, hroom⟩, hc''⟩
      have htakes : ¬ StopsAtData p c := by
        rw [← hiff, hopen]
        simp [hroom]
      refine ⟨not_or_intro hnot htakes, ?_⟩
      rw [hc'', hcounter, counterLeft, if_neg hnot]
      dsimp only
      rw [if_pos ⟨hdata, htakes⟩]
    · rintro c'' ⟨hno, hc''⟩
      have hstops := hiff.mp hno
      refine ⟨Or.inr hstops, ?_⟩
      rw [hc'', hcounter, counterLeft, if_neg hnot]
      dsimp only
      rw [if_neg fun h => h.2 hstops]
  · rintro c' ⟨hnot, hcounter, -⟩ hdata
    have htakes : ¬ StopsAtData p c := fun h => absurd (hdata.symm.trans h.1) (by decide)
    refine ⟨not_or_intro hnot htakes, ?_⟩
    rw [hcounter, counterLeft, if_neg hnot]
    dsimp only
    rw [if_neg fun h => absurd (hdata.symm.trans h.1) (by decide)]
  · rintro c' ⟨hnot, hcounter⟩
    refine ⟨hnot, fun hfin => ?_⟩
    rw [if_neg (by simp [hfin])]
    exact hcounter

end Deliver

/-! ## A drain that refuses nothing -/

/-- The number of payload bytes. -/
def total (packets : List TCPPacket) : Nat := (packets.map fun q => q.data.length).sum

/-- A packet that is not old. -/
def Ahead (c : TCPConnectionImpl) (q : TCPPacket) : Prop :=
  (c.counter.get q.side).seq ≤ q.sequence

instance (c : TCPConnectionImpl) (q : TCPPacket) : Decidable (Ahead c q) :=
  inferInstanceAs (Decidable (_ ≤ _))

/-- The picked packet and those in the buffers. -/
def atHand (p : TCPPacket) (c : TCPConnectionImpl) : List TCPPacket :=
  p :: (c.packetsBuffer.client ++ c.packetsBuffer.server)

/-- None of the packets can be refused, in whatever order they are handled
from the counters of `c` on.  The handshake is over, all the payloads fit
into the streams, and a payload that is not old is for a stream that is
open, starts at the latest where a FIN of its side ends, and is not at hand
together with a RST. -/
structure Unrefused (c : TCPConnectionImpl) (packets : List TCPPacket) : Prop where
  state : c.state ≠ none ∧ c.state ≠ some .synReceived
  room : ∀ x ∈ [Side.client, Side.server], ((c.inputStream.get x).unread.length : Int) +
    total (packets.filter fun q => q.side = x) ≤ MAX_BUFFER_SIZE
  data : ∀ q ∈ packets, q.isContainsData = true → Ahead c q →
    (c.inputStream.get q.side).isFinished = false ∧ ∀ q' ∈ packets, Ahead c q' →
      q'.rst = false ∧
        (q'.fin = true → q'.side = q.side → q.sequence ≤ q'.sequence + q'.data.length)

theorem unrefused_iff {c : TCPConnectionImpl} {packets : List TCPPacket} :
    ((c.state ≠ none ∧ c.state ≠ some .synReceived) ∧
      (∀ x ∈ [Side.client, Side.server], ((c.inputStream.get x).unread.length : Int) +
        total (packets.filter fun q => q.side = x) ≤ MAX_BUFFER_SIZE) ∧
      ∀ q ∈ packets, ¬ (q.isContainsData = true ∧ Ahead c q) ∨
        (c.inputStream.get q.side).isFinished = false ∧ ∀ q' ∈ packets, ¬ Ahead c q' ∨
          q'.rst = false ∧ (¬ (q'.fin = true ∧ q'.side = q.side) ∨
            q.sequence ≤ q'.sequence + q'.data.length)) ↔ Unrefused c packets := by
  simp only [← imp_iff_not_or, and_imp]
  exact ⟨fun h => ⟨h.1, h.2.1, h.2.2⟩, fun h => ⟨h.state, h.room, h.data⟩⟩

instance (c : TCPConnectionImpl) (packets : List TCPPacket) : Decidable (Unrefused c packets) :=
  decidable_of_iff _ unrefused_iff

/-- The invariant of the drain: the counters have not gone back, a payload
that is still to come is for an open stream, and there is room for all. -/
structure Going (c : TCPConnectionImpl) (packets : List TCPPacket) (c' : TCPConnectionImpl) :
    Prop where
  streams : SaneStreams c'
  waits : ∀ x, ∀ q ∈ c'.packetsBuffer.get x, Waits c'.connectionDetail x q ∧ q ∈ packets
  state : c'.state ≠ none ∧ c'.state ≠ some .synReceived
  forward : ∀ x, (c.counter.get x).seq ≤ (c'.counter.get x).seq
  ended : ∀ q ∈ packets, q.isContainsData = true → Ahead c q →
    (c'.inputStream.get q.side).isFinished = true → q.sequence < (c'.counter.get q.side).seq
  room : ∀ x, ((c'.inputStream.get x).unread.length : Int) + total (c'.packetsBuffer.get x) ≤
    MAX_BUFFER_SIZE

section Drain

variable {now : Date} {p : TCPPacket} {c c' c'' : TCPConnectionImpl} {packets : List TCPPacket}

theorem total_cons (p : TCPPacket) (packets : List TCPPacket) :
    total (p :: packets) = p.data.length + total packets := rfl

/-- What the RST, the ACK and the data part do to a connection: no counter
goes back, only a RST finishes a stream, and `k` bytes have been appended. -/
structure Onward (p : TCPPacket) (k : Nat) (c c' : TCPConnectionImpl) : Prop where
  state : c'.state ≠ none ∧ c'.state ≠ some .synReceived
  forward : ∀ y, (c.counter.get y).seq ≤ (c'.counter.get y).seq
  ended : ∀ y, (c'.inputStream.get y).isFinished = true →
    (c.inputStream.get y).isFinished = true ∨ p.rst = true
  unread : ∀ y, (c'.inputStream.get y).unread.length ≤
    (c.inputStream.get y).unread.length + if y = p.side then k else 0

/-- What all of the handlers do: a FIN finishes the stream of its side. -/
structure Handled (p : TCPPacket) (c c' : TCPConnectionImpl) : Prop where
  state : c'.state ≠ none ∧ c'.state ≠ some .synReceived
  forward : ∀ y, (c.counter.get y).seq ≤ (c'.counter.get y).seq
  ended : ∀ y, (c'.inputStream.get y).isFinished = true →
    (c.inputStream.get y).isFinished = true ∨ p.rst = true ∨
      (p.fin = true ∧ y = p.side ∧ p.sequence + p.data.length < (c'.counter.get y).seq)
  unread : ∀ y, (c'.inputStream.get y).unread.length ≤
    (c.inputStream.get y).unread.length + if y = p.side then p.data.length else 0

theorem forward_update (hforward : ∀ y, (c.counter.get y).seq ≤ (c'.counter.get y).seq)
    (hseq : (c.counter.get p.side).seq = p.sequence) (y : Side) :
    (c.counter.get y).seq ≤ (BySide.get (c'.counter.update p.side p) y).seq := by
  refine BySide.forall_side (P := fun y => (c.counter.get y).seq ≤
    (BySide.get (c'.counter.update p.side p) y).seq) p.side ?_ ?_ y
  · rw [SequenceCounter.get_update, updateCounter_seq]
    omega
  · rw [SequenceCounter.get_other_update]
    exact hforward _

/-- The data handler adds at most the payload to what is unread. -/
theorem unread_processDataPacket (now : Date) (hsane : (c.inputStream.get p.side).Sane)
    (hfits : p.data.length < 2 ^ 16) :
    (c.processDataPacket now p).Sat
      (fun c' => ∀ y, (c'.inputStream.get y).unread.length ≤
        (c.inputStream.get y).unread.length + if y = p.side then p.data.length else 0)
      (fun _ => True) := by
  rw [TCPConnectionImpl.processDataPacket_eq]
  cases ha : (c.ownStream p).append p.data with
  | thrown e own => trivial
  | returned own =>
    have hret : ((c.ownStream p).append p.data).isReturned = true := by rw [ha]; rfl
    have hsane' := TCPConnectionImpl.sane_ownStream hsane
    obtain ⟨hopen, hroom⟩ := hsane'.hasRoom_of_append (by omega) hret
    rw [hsane'.append_eq hopen hroom, Outcome.returned.injEq] at ha
    subst ha
    refine BySide.forall_side p.side ?_ ?_
    · rw [TCPConnectionImpl.get_streamsAfter, DynamicByteArrayInputStream.unread_appendedWith,
        List.length_append, TCPConnectionImpl.unread_ownStream, if_pos rfl]
    · rw [TCPConnectionImpl.get_other_streamsAfter, TCPConnectionImpl.unread_otherStream]
      exact Nat.le_add_right _ _

/-- A handler that moves the counter of the packet's sender behind the
payload and leaves the streams alone. -/
theorem Onward.update {k : Nat} (h : Onward p k c c')
    (hseq : (c.counter.get p.side).seq = p.sequence)
    (hcounter : c''.counter = c'.counter.update p.side p)
    (hstreams : c''.inputStream = c'.inputStream)
    (hstate : c''.state ≠ none ∧ c''.state ≠ some .synReceived) : Onward p k c c'' where
  state := hstate
  forward := hcounter ▸ forward_update h.forward hseq
  ended := hstreams ▸ h.ended
  unread := hstreams ▸ h.unread

theorem onward_processRstPacket (now : Date)
    (hstate : c.state ≠ none ∧ c.state ≠ some .synReceived)
    (hseq : (c.counter.get p.side).seq = p.sequence) (hrst : p.rst = true) :
    Onward p 0 c (c.processRstPacket now p) where
  state := hstate
  forward := forward_update (fun _ => le_rfl) hseq
  ended := fun _ _ => Or.inr hrst
  unread := by
    intro y
    cases y <;> simp [TCPConnectionImpl.processRstPacket,
      TCPConnectionImpl.validateDataPacketsInBuffer]

theorem onward_processAckPacket (h : Onward p 0 c c')
    (hseq : (c.counter.get p.side).seq = p.sequence) :
    (c'.processAckPacket p).Sat (Onward p 0 c) (fun _ => True) := by
  have hopen := h.state
  unfold TCPConnectionImpl.processAckPacket
  split
  · trivial
  · exact absurd ‹_› hopen.2
  · exact h.update hseq rfl rfl (by simp [TCPConnectionImpl.processFinishWait1AckPacket])
  · exact h.update hseq rfl rfl (by simp [TCPConnectionImpl.processLastAckPacket])
  · exact h

theorem onward_processDataPacket (h : Onward p 0 c c')
    (hseq : (c.counter.get p.side).seq = p.sequence)
    (hsane : (c'.inputStream.get p.side).Sane) (hfits : p.data.length < 2 ^ 16) :
    (c'.processDataPacket now p).Sat (Onward p p.data.length c) (fun _ => True) := by
  refine ((unread_processDataPacket now hsane hfits).and
    (TCPConnectionImpl.processDataPacket_sat now p c')).mono ?_ fun _ _ => trivial
  rintro c'' ⟨hunread, hd⟩
  refine ⟨hd.state ▸ h.state, hd.counter ▸ forward_update h.forward hseq, ?_, fun y => ?_⟩
  · refine BySide.forall_side p.side (fun hfin => ?_) (fun hfin => ?_)
    · exact absurd (hfin.symm.trans hd.is_open) (by decide)
    · exact h.ended _ (hd.other_isFinished.symm.trans hfin)
  · have hbefore := h.unread y
    have hafter := hunread y
    split_ifs at * <;> omega

/-- A packet that starts at its sender's counter, handled behind the
handshake. -/
theorem deliver_handled (now : Date) (hstate : c.state ≠ none ∧ c.state ≠ some .synReceived)
    (hseq : (c.counter.get p.side).seq = p.sequence) (hsane : ∀ x, (c.inputStream.get x).Sane)
    (hfits : p.data.length < 2 ^ 16) (n : Nat) :
    (Delivery.deliver now p ⟨c, n⟩).Leaves (Handled p c) (fun _ => True) := by
  refine Delivery.deliver_leaves
    (R := fun c' => Onward p 0 c c' ∧ ∀ x, (c'.inputStream.get x).Sane)
    (A := fun c' => Onward p 0 c c' ∧ ∀ x, (c'.inputStream.get x).Sane)
    (D := Onward p p.data.length c) ?_ ?_ ?_ ?_ ?_ ?_
  · cases hrst : p.rst with
    | true =>
      exact ⟨onward_processRstPacket now hstate hseq hrst,
        Streams.sane_processRstPacket now p hsane⟩
    | false =>
      exact ⟨⟨hstate, fun _ => le_rfl, fun _ => Or.inl, fun _ => Nat.le_add_right _ _⟩, hsane⟩
  · rintro c' ⟨h, hs⟩ _
    exact ((onward_processAckPacket h hseq).and (Streams.sane_processAckPacket p hs)).mono
      (fun _ h' => h') fun _ _ => trivial
  · rintro c' h _
    exact h
  · rintro c' ⟨h, hs⟩ _
    exact onward_processDataPacket h hseq (hs _) hfits
  · rintro c' ⟨h, -⟩ _
    refine ⟨h.state, h.forward, h.ended, fun y => (h.unread y).trans ?_⟩
    split <;> omega
  · intro c' h
    cases hfin : p.fin with
    | false => exact ⟨h.state, h.forward, fun y hy => (h.ended y hy).imp_right Or.inl, h.unread⟩
    | true =>
      obtain ⟨-, -, hsame⟩ := TCPConnectionImpl.processFinishPacket_streams now p c'
      have hunread : ((c'.processFinishPacket now p).inputStream.get p.side).unread =
          (c'.inputStream.get p.side).unread := by
        show ((c'.inputStream.set p.side _).get p.side).unread = _
        rw [BySide.get_set, DynamicByteArrayInputStream.unread_finish]
      have hcounter : ((c'.processFinishPacket now p).counter.get p.side).seq =
          p.sequence + p.data.length + 1 := by
        rw [TCPConnectionImpl.processFinishPacket_counter, SequenceCounter.get_sequenceAddOne,
          SequenceCounter.get_update, updateCounter_seq]
      have hother : (c'.processFinishPacket now p).counter.get p.side.other =
          c'.counter.get p.side.other := by
        rw [TCPConnectionImpl.processFinishPacket_counter,
          SequenceCounter.get_other_sequenceAddOne, SequenceCounter.get_other_update]
      rw [if_pos rfl]
      refine ⟨?_, BySide.forall_side p.side ?_ ?_, BySide.forall_side p.side ?_ ?_,
        BySide.forall_side p.side ?_ ?_⟩
      · show TCPConnectionImpl.updateConnectionStateAfterReceivedFinishPacket c'.state ≠ none ∧
          TCPConnectionImpl.updateConnectionStateAfterReceivedFinishPacket c'.state ≠
            some .synReceived
        have hopen := h.state
        unfold TCPConnectionImpl.updateConnectionStateAfterReceivedFinishPacket
        split <;> simp_all
      · show _ ≤ ((c'.processFinishPacket now p).counter.get p.side).seq
        omega
      · show _ ≤ ((c'.processFinishPacket now p).counter.get p.side.other).seq
        rw [hother]
        exact h.forward _
      · intro _
        refine Or.inr (Or.inr ⟨hfin, rfl, ?_⟩)
        show _ < ((c'.processFinishPacket now p).counter.get p.side).seq
        omega
      · intro hy
        have hended := (congrArg DynamicByteArrayInputStream.isFinished hsame).symm.trans hy
        exact (h.ended _ hended).imp_right Or.inl
      · show ((c'.processFinishPacket now p).inputStream.get p.side).unread.length ≤ _
        rw [hunread]
        exact h.unread _
      · show ((c'.processFinishPacket now p).inputStream.get p.side.other).unread.length ≤ _
        rw [hsame]
        exact h.unread _

/-- Dropping packets from a buffer. -/
theorem Going.setBuffer (h : Going c packets c') {x : Side} {rest : List TCPPacket}
    (hb : c'.packetsBuffer.get x = p :: rest) : Going c packets (c'.setBuffer x rest) where
  streams := h.streams.setBuffer x (TCPConnectionImpl.buffer_cons h.streams.fits hb).2
  waits := BySide.forall_set (P := fun y (l : List TCPPacket) => ∀ q ∈ l,
    Waits c'.connectionDetail y q ∧ q ∈ packets) (TCPConnectionImpl.buffer_cons h.waits hb).2
    (h.waits _)
  state := h.state
  forward := h.forward
  ended := h.ended
  room := by
    refine BySide.forall_set (P := fun y (l : List TCPPacket) =>
      ((c'.inputStream.get y).unread.length : Int) + total l ≤ MAX_BUFFER_SIZE) ?_ (h.room _)
    have hx := h.room x
    rw [hb, total_cons] at hx
    omega

/-- A packet that has its turn is not refused. -/
theorem Going.not_stops (hunrefused : Unrefused c packets) (h : Going c packets c')
    (hp : p ∈ packets) (hseq : (c'.counter.get p.side).seq = p.sequence)
    (hroom : ((c'.inputStream.get p.side).unread.length : Int) + p.data.length ≤
      MAX_BUFFER_SIZE) : ¬ Stops p c' := by
  have hahead : Ahead c p := (h.forward p.side).trans_eq hseq
  rintro (hack | ⟨hdata, hrefused⟩)
  · exact h.state.2 hack.2.1
  · obtain ⟨-, hall⟩ := hunrefused.data p hp hdata hahead
    rcases hrefused with hrst | hfinished | hfull
    · exact absurd ((hall p hp hahead).1.symm.trans hrst) (by decide)
    · have hlt := h.ended p hp hdata hahead hfinished
      omega
    · refine hfull ?_
      unfold DynamicByteArrayInputStream.hasRoom
      rw [List.length_append]
      omega

theorem Going.take (now : Date) (hunrefused : Unrefused c packets) (h : Going c packets c')
    {x : Side} {rest : List TCPPacket} (hb : c'.packetsBuffer.get x = p :: rest)
    (hcan : c'.isCanProcessPacket p = .ok true) (n : Nat) :
    (Delivery.deliver now p ⟨c'.setBuffer x rest, n⟩).Leaves (Going c packets)
      fun _ => False := by
  obtain ⟨hwaits, hp⟩ := (TCPConnectionImpl.buffer_cons h.waits hb).1
  obtain rfl := hwaits.side
  have hfits := (TCPConnectionImpl.buffer_cons h.streams.fits hb).1
  have hseq := TCPConnectionImpl.sequence_of_isCanProcessPacket hwaits.direction hcan
  have hahead : Ahead c p := (h.forward p.side).trans_eq hseq
  have hroom := h.room p.side
  rw [hb, total_cons] at hroom
  have hrest := h.setBuffer hb
  have hnot := hrest.not_stops hunrefused hp hseq
    (show ((c'.inputStream.get p.side).unread.length : Int) + _ ≤ _ by omega)
  have hleft := deliver_left now h.state.1 hrest.streams.sane hfits n
    (c := c'.setBuffer p.side rest)
  have hhandled := deliver_handled now h.state hseq hrest.streams.sane hfits n
    (c := c'.setBuffer p.side rest)
  have hframe := Delivery.deliver_frame now p (c'.setBuffer p.side rest) n
  have hsane := Streams.saneStreams_deliver now hrest.streams hfits n
  cases hd : Delivery.deliver now p ⟨c'.setBuffer p.side rest, n⟩ with
  | thrown e t =>
    rw [hd] at hleft
    exact hnot hleft.1
  | returned t =>
    rw [hd] at hhandled hframe hsane
    replace hhandled : Handled p (c'.setBuffer p.side rest) t.connection := hhandled
    have hforward : ∀ y, (c'.counter.get y).seq ≤ (t.connection.counter.get y).seq :=
      hhandled.forward
    refine ⟨hsane, ?_, hhandled.state, fun y => (h.forward y).trans (hforward y), ?_, ?_⟩
    · rw [hframe.packetsBuffer, hframe.connectionDetail]
      exact hrest.waits
    · intro q hq hdata hahead' hfinished
      obtain ⟨-, hall⟩ := hunrefused.data q hq hdata hahead'
      obtain ⟨hrst, hfin⟩ := hall p hp hahead
      rcases hhandled.ended q.side hfinished with hold | hreset | ⟨hpfin, hside, hlt⟩
      · exact (h.ended q hq hdata hahead' hold).trans_le (hforward q.side)
      · exact absurd (hrst.symm.trans hreset) (by decide)
      · have := hfin hpfin hside.symm
        omega
    · intro y
      have hunread := hhandled.unread y
      have hy := hrest.room y
      have hsame : ((c'.setBuffer p.side rest).inputStream.get y) = c'.inputStream.get y := rfl
      rw [hframe.packetsBuffer]
      rw [hsame] at hunread hy
      by_cases hside : y = p.side
      · subst hside
        rw [if_pos rfl] at hunread
        rw [TCPConnectionImpl.packetsBuffer_setBuffer, BySide.get_set]
        omega
      · rw [if_neg hside] at hunread
        omega

/-- The drain never throws. -/
theorem going_drain (now : Date) (hunrefused : Unrefused c packets)
    (F : Throwable → Delivery → Prop) :
    Delivery.DeliveryRule now (fun t => Going c packets t.connection) F where
  thrown := by
    rintro t p e h herror ⟨x, hp⟩
    rw [(h.waits x p hp).1.isCanProcessPacket_eq] at herror
    exact absurd herror (by simp)
  drop := fun h hb _ => h.setBuffer hb
  take := fun h hb hcan => (Outcome.ends_const.mpr (h.take now hunrefused hb hcan _)).mono
    (fun _ ht => ht) fun _ _ => False.elim
  updated := fun h =>
    ⟨⟨h.streams.sane, h.streams.fits⟩, h.waits, h.state, h.forward, h.ended, h.room⟩

end Drain

/-! ## `process` and `promote` -/

section Process

variable {now : Date} {p : TCPPacket} {c : TCPConnectionImpl}

theorem mem_atHand_of_buffered {x : Side} {q : TCPPacket} (hq : q ∈ c.packetsBuffer.get x) :
    q ∈ atHand p c := by
  cases x with
  | client => exact List.mem_cons_of_mem _ (List.mem_append_left _ hq)
  | server => exact List.mem_cons_of_mem _ (List.mem_append_right _ hq)

/-- The packets at hand of one side are the picked one, if it is of this
side, and those in its buffer. -/
theorem total_atHand (hwaits : ∀ x, ∀ q ∈ c.packetsBuffer.get x, q.side = x) (x : Side) :
    total ((atHand p c).filter fun q => q.side = x) =
      (if p.side = x then p.data.length else 0) + total (c.packetsBuffer.get x) := by
  have hsame : (c.packetsBuffer.get x).filter (fun q => decide (q.side = x)) =
      c.packetsBuffer.get x :=
    List.filter_eq_self.mpr fun q hq => decide_eq_true (hwaits x q hq)
  have hother : (c.packetsBuffer.get x.other).filter (fun q => decide (q.side = x)) = [] := by
    refine List.filter_eq_nil_iff.mpr fun q hq => ?_
    rw [hwaits x.other q hq]
    simp
  have hboth : (c.packetsBuffer.client ++ c.packetsBuffer.server).filter
      (fun q => decide (q.side = x)) = c.packetsBuffer.get x := by
    rw [List.filter_append]
    cases x with
    | client => exact (congrArg₂ (· ++ ·) hsame hother).trans (List.append_nil _)
    | server => exact congrArg₂ (· ++ ·) hother hsame
  unfold atHand
  rw [List.filter_cons, hboth]
  by_cases hside : p.side = x <;> simp [hside, total_cons]

theorem total_add (p : TCPPacket) (packets : List TCPPacket) :
    total (TreeSet.add TCPPacket.compareTo p packets) ≤ p.data.length + total packets := by
  induction packets with
  | nil => exact le_rfl
  | cons b rest ih =>
    unfold TreeSet.add
    split_ifs
    · exact le_rfl
    · exact Nat.le_add_left _ _
    · rw [total_cons, total_cons]
      omega

theorem Unrefused.room_get {packets : List TCPPacket} (h : Unrefused c packets) (x : Side) :
    ((c.inputStream.get x).unread.length : Int) + total (packets.filter fun q => q.side = x) ≤
      MAX_BUFFER_SIZE :=
  h.room x (by cases x <;> simp)

/-- The drain starts with a picked packet in its place in a buffer. -/
theorem going_start (h : Orderly c) (hs : SaneStreams c) (hp : Waits c.connectionDetail p.side p)
    (hfits : p.data.length < 2 ^ 16) (hunrefused : Unrefused c (atHand p c))
    {packets : List TCPPacket} (hpackets : ∀ q ∈ packets, q = p ∨ q ∈ c.packetsBuffer.get p.side)
    (htotal : total packets ≤ p.data.length + total (c.packetsBuffer.get p.side)) :
    Going c (atHand p c) (c.setBuffer p.side packets) where
  streams := by
    refine hs.setBuffer p.side fun q hq => ?_
    rcases hpackets q hq with rfl | hq
    · exact hfits
    · exact hs.fits _ q hq
  waits := by
    refine BySide.forall_set (P := fun y (l : List TCPPacket) => ∀ q ∈ l,
      Waits c.connectionDetail y q ∧ q ∈ atHand p c) (fun q hq => ?_)
      fun q hq => ⟨h.waits _ q hq, mem_atHand_of_buffered hq⟩
    rcases hpackets q hq with rfl | hq
    · exact ⟨hp, List.mem_cons_self⟩
    · exact ⟨h.waits _ q hq, mem_atHand_of_buffered hq⟩
  state := hunrefused.state
  forward := fun _ => le_rfl
  ended := by
    intro q hq hdata hahead hfinished
    exact absurd ((hunrefused.data q hq hdata hahead).1.symm.trans hfinished) (by decide)
  room := by
    have hroom := hunrefused.room_get
    have hsides : ∀ x, ∀ q ∈ c.packetsBuffer.get x, q.side = x :=
      fun x q hq => (h.waits x q hq).side
    refine BySide.forall_set (P := fun y (l : List TCPPacket) =>
      ((c.inputStream.get y).unread.length : Int) + total l ≤ MAX_BUFFER_SIZE) ?_ ?_
    · have hown := hroom p.side
      rw [total_atHand hsides, if_pos rfl] at hown
      omega
    · have hother := hroom p.side.other
      rw [total_atHand hsides, if_neg (by simp)] at hother
      omega

/-- Where nothing can be refused, `process` throws for a full buffer only,
and before it has done anything. -/
theorem process_unrefused (now : Date) (h : Orderly c) (hs : SaneStreams c)
    (hp : Waits c.connectionDetail p.side p) (hfits : p.data.length < 2 ^ 16)
    (hunrefused : Unrefused c (atHand p c)) :
    (PacketReceiverImpl.process now p c).Ends (fun _ => True)
      fun e t => e = .packetsBufferFullException ∧ t = ⟨c, 0⟩ := by
  have hback : c.setBuffer p.side (c.packetsBuffer.get p.side) = c :=
    TCPConnectionImpl.setBuffer_get c p.side
  refine (PacketReceiverImpl.process_ends (going_drain now hunrefused _) ?_ ⟨rfl, rfl⟩ ?_
    ?_).mono (fun _ _ => trivial) fun _ _ ht => ht
  · intro e herror
    rw [hp.isCanProcessPacket_eq] at herror
    exact absurd herror (by simp)
  · intro hcan
    have hgoing : Going c (atHand p c) (c.setBuffer p.side (p :: c.packetsBuffer.get p.side)) :=
      going_start h hs hp hfits hunrefused (fun q hq => List.mem_cons.mp hq) le_rfl
    have hfront : (c.setBuffer p.side (p :: c.packetsBuffer.get p.side)).packetsBuffer.get p.side =
        p :: c.packetsBuffer.get p.side := by simp
    have htake := hgoing.take now hunrefused hfront (by simpa using hcan) 0
    rw [TCPConnectionImpl.setBuffer_setBuffer, hback] at htake
    exact (Outcome.ends_const.mpr htake).mono (fun _ ht => ht) fun _ _ => False.elim
  · intro _
    exact going_start h hs hp hfits hunrefused (fun q hq => TreeSet.mem_of_mem_add _ hq)
      (total_add p _)

/-- The connection that a promotion starts its drain with, as far as
counters and state go. -/
def started (t : TCPPacket) (c : TCPConnectionImpl) : TCPConnectionImpl :=
  { PacketReceiverImpl.primed t c with
    counter := (PacketReceiverImpl.primed t c).counter.update t.side t }

/-- Where nothing can be refused, a promotion returns. -/
theorem promote_unrefused (now : Date) (h : Promotion.Unheard c) (hs : SaneStreams c)
    (hfits : p.data.length < 2 ^ 16) (hunrefused : Unrefused (started p c) (atHand p c)) :
    (PacketReceiverImpl.promote now p c).isReturned = true := by
  have hsides : ∀ x, ∀ q ∈ c.packetsBuffer.get x, q.side = x :=
    fun x q hq => (h.waits x q hq).side
  have hroom : ∀ x, ((c.inputStream.get x).unread.length : Int) +
      ((if p.side = x then p.data.length else 0) + total (c.packetsBuffer.get x) : Nat) ≤
        MAX_BUFFER_SIZE := by
    intro x
    rw [← total_atHand hsides]
    exact hunrefused.room_get x
  have hown := hroom p.side
  rw [if_pos rfl] at hown
  have htakes : (c.inputStream.get p.side).hasRoom p.data := by
    unfold DynamicByteArrayInputStream.hasRoom
    rw [List.length_append]
    omega
  have hends : (PacketReceiverImpl.promote now p c).Ends (fun _ => True) fun _ _ => False := by
    refine (PacketReceiverImpl.promote_ends (going_drain now hunrefused fun _ _ => False) ?_).mono
      (fun _ _ => trivial) fun _ _ ht => ht
    have hsane := Streams.sane_processDataPacket (c := PacketReceiverImpl.primed p c) now hs.sane
      hfits
    have hunread := unread_processDataPacket (c := PacketReceiverImpl.primed p c) now
      (hs.sane p.side) hfits
    have hsat := TCPConnectionImpl.processDataPacket_sat now p (PacketReceiverImpl.primed p c)
    have hframe := Delivery.processDataPacket_frame now p (PacketReceiverImpl.primed p c)
    obtain ⟨c', hc'⟩ := Atomicity.processDataPacket_taken (c := PacketReceiverImpl.primed p c) now
      (hs.sane p.side) (h.isOpen p.side) htakes
    rw [hc'] at hsane hunread hsat hframe ⊢
    replace hsat : TCPConnectionImpl.DataProcessed p (PacketReceiverImpl.primed p c) c' := hsat
    have hbuffer : c'.packetsBuffer = c.packetsBuffer := hframe.packetsBuffer
    have hdetail : c'.connectionDetail = c.connectionDetail := hframe.connectionDetail
    have hcounter : c'.counter = (started p c).counter := hsat.counter
    have hstate : c'.state = some .established := hsat.state
    have hopen : ∀ y, (c'.inputStream.get y).isFinished = false :=
      BySide.forall_side p.side hsat.is_open (hsat.other_isFinished.trans (h.isOpen _))
    refine ⟨⟨hsane, ?_⟩, ?_, ?_, ?_, ?_, ?_⟩
    · exact (show ∀ x, ∀ q ∈ c'.packetsBuffer.get x, _ from hbuffer ▸ hs.fits)
    · intro x q hq
      have hq' : q ∈ c.packetsBuffer.get x := hbuffer ▸ hq
      exact ⟨hdetail ▸ h.waits x q hq', mem_atHand_of_buffered hq'⟩
    · show c'.state ≠ none ∧ c'.state ≠ some .synReceived
      simp [hstate]
    · exact fun x => le_of_eq (congrArg (fun counter => (BySide.get counter x).seq) hcounter.symm)
    · intro q _ _ _ hfinished
      exact absurd ((hopen q.side).symm.trans hfinished) (by decide)
    · intro x
      have hx := hroom x
      have hux := hunread x
      show ((c'.inputStream.get x).unread.length : Int) + total (c'.packetsBuffer.get x) ≤ _
      have hstreams : ((PacketReceiverImpl.primed p c).inputStream.get x) = c.inputStream.get x :=
        rfl
      rw [hstreams] at hux
      rw [hbuffer]
      by_cases hside : x = p.side
      · subst hside
        rw [if_pos rfl] at hx hux
        omega
      · rw [if_neg (Ne.symm hside)] at hx
        rw [if_neg hside] at hux
        omega
  cases ho : PacketReceiverImpl.promote now p c with
  | returned t => rfl
  | thrown e t =>
    rw [ho] at hends
    exact hends.elim

end Process

end Refusals

end ConnectionSniffer
