import ConnectionSniffer.Connection.Handlers
import ConnectionSniffer.Receiver.Run

/-!
# Retransmissions

A packet that a connection has processed is behind the counter of its
sender, and a second copy of it is old.  The exceptions are packets that
do not move the counter, which are the ones without payload and FIN: a
second copy of them is processed again.  `Retained` is the invariant that
says so about the history of a connection.

The handshake is different, since its packets set the counters of both
sides, so `Retained` speaks of the packets of the handshake itself and of
those processed after it.

`retransmission_idempotent` is the result about one more `pick`.
-/

namespace ConnectionSniffer

/-- The states of the handshake. -/
def Handshaking (state : Option TCPConnectionState) : Prop :=
  state = none ∨ state = some .synSent ∨ state = some .synReceived

instance (state : Option TCPConnectionState) : Decidable (Handshaking state) :=
  inferInstanceAs (Decidable (_ ∨ _ ∨ _))

@[simp] theorem handshaking_none : Handshaking none := Or.inl rfl

@[simp] theorem handshaking_some {state : TCPConnectionState} :
    Handshaking (some state) ↔ state = .synSent ∨ state = .synReceived := by
  simp [Handshaking]

/-- The packet ended the handshake or came after it. -/
def Settled (met : Option TCPConnectionState) (p : TCPPacket) : Prop :=
  (met = some .synReceived ∧ p.ack = true) ∨ ¬ Handshaking met

instance (met : Option TCPConnectionState) (p : TCPPacket) : Decidable (Settled met p) :=
  inferInstanceAs (Decidable (_ ∨ _))

namespace Retransmission

/-! ## What `deliver` does to counters and state -/

/-- Between the parts of `deliver`: `c` is the connection before the packet,
`c'` the connection now. -/
structure Passing (p : TCPPacket) (c c' : TCPConnectionImpl) : Prop where
  low : p.sequence ≤ (c'.counter.get p.side).seq
  other : ¬ Handshaking c.state →
    (c'.counter.get p.side.other).seq = (c.counter.get p.side.other).seq
  state : ¬ Handshaking c.state → ¬ Handshaking c'.state
  synSent : c'.state = some .synSent → c.state = some .synSent
  finished : c.isFinished = true → c'.isFinished = true
  rst : p.rst = true → c'.isFinished = true

/-- After the ACK part: the ACK of the handshake has ended the handshake. -/
structure Acknowledged (p : TCPPacket) (c c' : TCPConnectionImpl) : Prop
    extends Passing p c c' where
  settled : Settled c.state p → ¬ Handshaking c'.state

/-- After the data part, and also after a FIN: the counter has moved. -/
structure Moved (p : TCPPacket) (moves : Bool) (c c' : TCPConnectionImpl) : Prop
    extends Acknowledged p c c' where
  moved : moves = true → p.sequence < (c'.counter.get p.side).seq

section Parts

variable {now : Date} {p : TCPPacket} {c c' : TCPConnectionImpl}

theorem passing_refl (hseq : (c.counter.get p.side).seq = p.sequence) (hrst : p.rst = false) :
    Passing p c c :=
  ⟨hseq.ge, fun _ => rfl, id, id, id, fun h => by simp [hrst] at h⟩

theorem passing_processRstPacket : Passing p c (c.processRstPacket now p) where
  low := by simp [TCPConnectionImpl.processRstPacket_counter]
  other := fun _ => by simp [TCPConnectionImpl.processRstPacket_counter]
  state := fun h => by rwa [TCPConnectionImpl.processRstPacket_state]
  synSent := fun h => by rwa [TCPConnectionImpl.processRstPacket_state] at h
  finished := fun _ => TCPConnectionImpl.isFinished_processRstPacket now p c
  rst := fun _ => TCPConnectionImpl.isFinished_processRstPacket now p c

/-- A handler that moves the counter of the packet's sender, outside the
handshake. -/
private theorem Passing.update (h : Passing p c c') {c'' : TCPConnectionImpl}
    (hcounter : c''.counter = c'.counter.update p.side p)
    (hstate : ¬ Handshaking c''.state) (hfin : c''.isFinished = c'.isFinished) :
    Acknowledged p c c'' where
  low := by simp [hcounter]
  other := fun hc => by simpa [hcounter] using h.other hc
  state := fun _ => hstate
  synSent := fun hs => absurd (Or.inr (Or.inl hs)) hstate
  finished := fun hc => hfin.trans (h.finished hc)
  rst := fun hr => hfin.trans (h.rst hr)
  settled := fun _ => hstate

theorem acknowledged_processAckPacket (h : Passing p c c') (hsame : c'.state = c.state) :
    (c'.processAckPacket p).Sat (Acknowledged p c) (Passing p c) := by
  unfold TCPConnectionImpl.processAckPacket
  split
  · exact h
  · rename_i hstate
    unfold TCPConnectionImpl.processHandshake3AckPacket
    split
    · exact h
    · have hreceived : c.state = some .synReceived := hsame.symm.trans hstate
      have hopen : ¬ ¬ Handshaking c.state := by simp [hreceived]
      refine ⟨⟨?_, fun hc => absurd hc hopen, fun _ => by simp, by simp, h.finished, h.rst⟩,
        fun _ => by simp⟩
      have hlow := h.low
      cases hside : p.side with
      | client =>
        show p.sequence ≤ (updateCounter p).1.seq
        simp
      | server =>
        rw [hside] at hlow
        show p.sequence ≤ c'.counter.server.seq + 1
        simp only [BySide.get_server] at hlow
        omega
  · exact h.update rfl (by simp [TCPConnectionImpl.processFinishWait1AckPacket]) rfl
  · exact h.update rfl (by simp [TCPConnectionImpl.processLastAckPacket]) rfl
  · rename_i state hne _ _ hstate
    refine ⟨h, fun hsettled => h.state ?_⟩
    rcases hsettled with ⟨hs, -⟩ | hs
    · exact absurd (hsame.trans hs) (by rw [hstate]; simpa using hne)
    · exact hs

theorem acknowledged_of_noAck (h : Passing p c c') (hack : p.ack = false) :
    Acknowledged p c c' where
  toPassing := h
  settled := by
    rintro (⟨-, hp⟩ | hs)
    · simp [hack] at hp
    · exact h.state hs

theorem moved_processDataPacket (h : Acknowledged p c c') (hdata : p.isContainsData = true) :
    (c'.processDataPacket now p).Sat (Moved p p.isContainsData c) (Passing p c) := by
  have hlen : 0 < p.data.length := by
    have : p.data ≠ [] := by simpa [TCPPacket.isContainsData] using hdata
    exact List.length_pos_of_ne_nil this
  refine (TCPConnectionImpl.processDataPacket_sat now p c').mono ?_ ?_
  · intro c'' hd
    have hseq : (c''.counter.get p.side).seq = p.sequence + p.data.length := by
      simp [hd.counter]
    -- a finished connection would have refused the payload
    have hopen : c'.isFinished ≠ true := fun hf => by
      simpa [hd.was_open] using TCPConnectionImpl.isFinished_iff.mp hf p.side
    refine ⟨⟨⟨by omega, ?_, ?_, ?_, fun hf => absurd (h.finished hf) hopen,
      fun hr => absurd (h.rst hr) hopen⟩, ?_⟩, fun _ => by omega⟩
    · intro hc
      simpa [hd.counter] using h.other hc
    · rw [hd.state]
      exact h.state
    · rw [hd.state]
      exact h.synSent
    · rw [hd.state]
      exact h.settled
  · intro c'' hd
    refine ⟨?_, ?_, ?_, ?_, ?_, ?_⟩
    · rw [hd.counter]
      exact h.low
    · rw [hd.counter]
      exact h.other
    · rw [hd.state]
      exact h.state
    · rw [hd.state]
      exact h.synSent
    · rw [hd.sameBytes.isFinished_eq]
      exact h.finished
    · rw [hd.sameBytes.isFinished_eq]
      exact h.rst

theorem moved_processFinishPacket (now : Date) (h : Moved p p.isContainsData c c') :
    Moved p true c (c'.processFinishPacket now p) := by
  obtain ⟨-, hfin, hother⟩ := TCPConnectionImpl.processFinishPacket_streams now p c'
  have hcounter := TCPConnectionImpl.processFinishPacket_counter now p c'
  have hseq : ((c'.processFinishPacket now p).counter.get p.side).seq =
      p.sequence + p.data.length + 1 := by simp [hcounter]
  have hstate := TCPConnectionImpl.processFinishPacket_state now p c'
  have hhand : Handshaking (c'.processFinishPacket now p).state ↔ Handshaking c'.state := by
    rw [hstate]
    unfold TCPConnectionImpl.updateConnectionStateAfterReceivedFinishPacket
    split <;> simp_all
  have hkeeps : c'.isFinished = true → (c'.processFinishPacket now p).isFinished = true := by
    intro hf
    refine TCPConnectionImpl.isFinished_iff.mpr fun x => ?_
    rcases Side.eq_or_eq_other p.side x with rfl | rfl
    · exact hfin
    · rw [hother]
      exact TCPConnectionImpl.isFinished_iff.mp hf _
  refine ⟨⟨⟨by omega, ?_, ?_, ?_, fun hf => hkeeps (h.finished hf),
    fun hr => hkeeps (h.rst hr)⟩, ?_⟩, fun _ => by omega⟩
  · intro hc
    simpa [hcounter] using h.other hc
  · rw [hhand]
    exact h.state
  · intro hs
    rw [hstate] at hs
    refine h.synSent ?_
    unfold TCPConnectionImpl.updateConnectionStateAfterReceivedFinishPacket at hs
    split at hs <;> simp_all
  · rw [hhand]
    exact h.settled

/-- What `deliver` leaves, before the packet is in the history. -/
theorem deliver_moved (now : Date) (hseq : (c.counter.get p.side).seq = p.sequence) (n : Nat) :
    (Delivery.deliver now p ⟨c, n⟩).Leaves (Moved p (p.isContainsData || p.fin) c)
      (Passing p c) := by
  refine Delivery.deliver_leaves (R := fun c' => Passing p c c' ∧ c'.state = c.state)
    (A := Acknowledged p c) (D := Moved p p.isContainsData c) ?_ ?_ ?_ ?_ ?_ ?_
  · split
    · exact ⟨passing_processRstPacket, TCPConnectionImpl.processRstPacket_state now p c⟩
    · rename_i hrst
      exact ⟨passing_refl hseq (by simpa using hrst), rfl⟩
  · intro c' h _
    exact acknowledged_processAckPacket h.1 h.2
  · intro c' h hack
    exact acknowledged_of_noAck h.1 hack
  · intro c' h hdata
    exact moved_processDataPacket h hdata
  · intro c' h hdata
    exact ⟨h, fun hm => by simp [hdata] at hm⟩
  · intro c' h
    cases hfin : p.fin with
    | true =>
      have hm := moved_processFinishPacket now h
      rw [Bool.or_true]
      exact ⟨⟨⟨hm.low, hm.other, hm.state, hm.synSent, hm.finished, hm.rst⟩, hm.settled⟩,
        hm.moved⟩
    | false =>
      rw [Bool.or_false]
      exact ⟨⟨⟨h.low, h.other, h.state, h.synSent, h.finished, h.rst⟩, h.settled⟩, h.moved⟩

end Parts

/-! ## The invariant -/

/-- A packet of the pair of `d`, with its direction detected against `d`. -/
structure Detected (p : TCPPacket) (d : ConnectionDetail) : Prop where
  pair : (p.connectionDetail == d) = true
  direction : p.isSentByClient = p.connectionDetail.isTheSame d

/-- The counter of the sender is behind the packet, or the packet did not
move it. -/
def Behind (p : TCPPacket) (c : TCPConnectionImpl) : Prop :=
  p.sequence < (c.counter.get p.side).seq ∨
    (p.sequence = (c.counter.get p.side).seq ∧ p.isContainsData = false ∧ p.fin = false ∧
      (p.rst = true → c.isFinished = true))

structure Retained (c : TCPConnectionImpl) : Prop where
  pair : ∀ e ∈ c.handled, (e.2.connectionDetail == c.connectionDetail) = true
  detected : ∀ e ∈ c.handled, e.2.isHandsShake1Packet = false → Detected e.2 c.connectionDetail
  answered : ∀ e ∈ c.handled, e.2.isHandsShake2Packet = true → c.state ≠ some .synSent
  handshaking : Handshaking c.state → ∀ e ∈ c.handled, ¬ Settled e.1 e.2
  behind : ∀ e ∈ c.handled, Settled e.1 e.2 → Behind e.2 c
  buffered : ∀ x, ∀ p ∈ c.packetsBuffer.get x,
    Detected p c.connectionDetail ∧ (p.isHandsShake2Packet = true → ¬ Handshaking c.state)

/-- A half-way connection has handled nothing. -/
structure Fresh (c : TCPConnectionImpl) : Prop where
  handled : c.handled = []
  buffered : ∀ x, ∀ p ∈ c.packetsBuffer.get x, Detected p c.connectionDetail

/-- `c'` is `c` some handlers later. -/
structure Later (c c' : TCPConnectionImpl) : Prop where
  counter : ¬ Handshaking c.state → ∀ x, (c.counter.get x).seq ≤ (c'.counter.get x).seq
  state : ¬ Handshaking c.state → ¬ Handshaking c'.state
  synSent : c'.state = some .synSent → c.state = some .synSent
  finished : c.isFinished = true → c'.isFinished = true
  packetsBuffer : c'.packetsBuffer = c.packetsBuffer
  connectionDetail : c'.connectionDetail = c.connectionDetail

section Invariant

variable {now : Date} {p : TCPPacket} {c c' : TCPConnectionImpl}

theorem Passing.later (h : Passing p c c') (hseq : (c.counter.get p.side).seq = p.sequence)
    (hbuffer : c'.packetsBuffer = c.packetsBuffer)
    (hdetail : c'.connectionDetail = c.connectionDetail) : Later c c' where
  counter := by
    intro hc x
    rcases Side.eq_or_eq_other p.side x with rfl | rfl
    · rw [hseq]
      exact h.low
    · exact (h.other hc).ge
  state := h.state
  synSent := h.synSent
  finished := h.finished
  packetsBuffer := hbuffer
  connectionDetail := hdetail

theorem Behind.later (h : Behind p c) (hc : ¬ Handshaking c.state) (hlater : Later c c') :
    Behind p c' := by
  have hle := hlater.counter hc p.side
  rcases h with hlt | ⟨heq, hdata, hfin, hrst⟩
  · exact Or.inl (by omega)
  · rcases Nat.lt_or_ge p.sequence (c'.counter.get p.side).seq with hlt | hge
    · exact Or.inl hlt
    · exact Or.inr ⟨by omega, hdata, hfin, fun hr => hlater.finished (hrst hr)⟩

/-- The history grows by packets that the connection leaves behind. -/
theorem Retained.later (h : Retained c) (hlater : Later c c')
    {new : List (Option TCPConnectionState × TCPPacket)}
    (hhandled : c'.handled = c.handled ++ new)
    (hnew : ∀ e ∈ new, Detected e.2 c.connectionDetail ∧
      (e.2.isHandsShake2Packet = true → c'.state ≠ some .synSent) ∧
      (Settled e.1 e.2 → ¬ Handshaking c'.state ∧ Behind e.2 c')) : Retained c' := by
  refine ⟨?_, ?_, ?_, ?_, ?_, ?_⟩
  · intro e he
    rw [hhandled] at he
    rw [hlater.connectionDetail]
    rcases List.mem_append.mp he with hold | he
    · exact h.pair e hold
    · exact (hnew e he).1.pair
  · intro e he hsyn
    rw [hhandled] at he
    rw [hlater.connectionDetail]
    rcases List.mem_append.mp he with hold | he
    · exact h.detected e hold hsyn
    · exact (hnew e he).1
  · intro e he hsynAck hstate
    rw [hhandled] at he
    rcases List.mem_append.mp he with hold | he
    · exact h.answered e hold hsynAck (hlater.synSent hstate)
    · exact (hnew e he).2.1 hsynAck hstate
  · intro hstate e he hsettled
    rw [hhandled] at he
    rcases List.mem_append.mp he with hold | he
    · exact h.handshaking (by_contra fun hc => hlater.state hc hstate) e hold hsettled
    · exact ((hnew e he).2.2 hsettled).1 hstate
  · intro e he hsettled
    rw [hhandled] at he
    rcases List.mem_append.mp he with hold | he
    · exact (h.behind e hold hsettled).later (fun hc => h.handshaking hc e hold hsettled) hlater
    · exact ((hnew e he).2.2 hsettled).2
  · rw [hlater.packetsBuffer, hlater.connectionDetail]
    intro x q hq
    obtain ⟨hdetected, hsynAck⟩ := h.buffered x q hq
    exact ⟨hdetected, fun hq' => hlater.state (hsynAck hq')⟩

theorem Retained.setBuffer (h : Retained c) (x : Side) {packets : List TCPPacket}
    (hpackets : ∀ q ∈ packets, Detected q c.connectionDetail ∧
      (q.isHandsShake2Packet = true → ¬ Handshaking c.state)) :
    Retained (c.setBuffer x packets) where
  pair := h.pair
  detected := h.detected
  answered := h.answered
  handshaking := h.handshaking
  behind := h.behind
  buffered := BySide.forall_set (P := fun _ (l : List TCPPacket) => ∀ q ∈ l,
    Detected q c.connectionDetail ∧ (q.isHandsShake2Packet = true → ¬ Handshaking c.state))
    hpackets (h.buffered x.other)

/-- A delivered packet is retained. -/
theorem retained_deliver (now : Date) (h : Retained c) (hp : Detected p c.connectionDetail)
    (hsynAck : p.isHandsShake2Packet = true → ¬ Handshaking c.state)
    (hcan : c.isCanProcessPacket p = .ok true) (n : Nat) :
    (Delivery.deliver now p ⟨c, n⟩).Leaves Retained Retained := by
  have hseq := TCPConnectionImpl.sequence_of_isCanProcessPacket hp.direction hcan
  have hboth := (deliver_moved now hseq n).and (Delivery.deliver_frame now p c n)
  refine Outcome.Sat.mono hboth ?_ ?_
  · rintro t ⟨hmoved, hrec⟩
    refine h.later (hmoved.later hseq hrec.packetsBuffer hrec.connectionDetail) hrec.handled ?_
    intro e he
    obtain rfl := List.mem_singleton.mp he
    refine ⟨hp, fun hs hstate => hmoved.state (hsynAck hs) (Or.inr (Or.inl hstate)),
      fun hsettled => ⟨hmoved.settled hsettled, ?_⟩⟩
    cases hm : p.isContainsData || p.fin with
    | true => exact Or.inl (hmoved.moved hm)
    | false =>
      obtain ⟨hdata, hfin⟩ := Bool.or_eq_false_iff.mp hm
      have hlow := hmoved.low
      rcases Nat.lt_or_ge p.sequence (t.connection.counter.get p.side).seq with hlt | hge
      · exact Or.inl hlt
      · exact Or.inr ⟨Nat.le_antisymm hlow hge, hdata, hfin, hmoved.rst⟩
  · rintro t ⟨hpassing, hframe⟩
    refine h.later (hpassing.later hseq hframe.packetsBuffer hframe.connectionDetail)
      (hframe.handled.trans (List.append_nil _).symm) ?_
    intro e he
    simp at he

/-! ## Picks and runs -/

theorem retained_drain : Delivery.DrainInvariant now Retained Retained where
  thrown := fun _ h => h
  drop := by
    intro c x p rest h hb _
    exact h.setBuffer x (TCPConnectionImpl.buffer_cons h.buffered hb).2
  take := by
    intro c n x p rest h hb hcan
    obtain ⟨hp, hsynAck⟩ := (TCPConnectionImpl.buffer_cons h.buffered hb).1
    have hrest := h.setBuffer x (TCPConnectionImpl.buffer_cons h.buffered hb).2
    exact retained_deliver now hrest hp hsynAck (by simpa using hcan) n
  updated := fun h => ⟨h.pair, h.detected, h.answered, h.handshaking, h.behind, h.buffered⟩

theorem retained_synConnection (hsyn : p.isHandsShake1Packet = true) :
    Retained (PacketReceiverImpl.synConnection now p) := by
  have hhandled : ∀ e ∈ (PacketReceiverImpl.synConnection now p).handled, e = (none, p) := by
    intro e he
    simpa [PacketReceiverImpl.synConnection, TCPConnectionImpl.processSyncPacket,
      TCPConnectionImpl.record, TCPConnectionImpl.create] using he
  have hnotSettled : ¬ Settled none p := by
    simp [Settled]
  refine ⟨?_, ?_, ?_, ?_, ?_, ?_⟩
  · intro e he
    rw [hhandled e he]
    exact BEq.rfl
  · intro e he hne
    rw [hhandled e he, hsyn] at hne
    exact absurd hne (by simp)
  · intro e he hsynAck
    rw [hhandled e he] at hsynAck
    simp only [TCPPacket.isHandsShake1Packet, TCPPacket.isHandsShake2Packet, Bool.and_eq_true,
      Bool.not_eq_true'] at hsyn hsynAck
    simp [hsyn.2] at hsynAck
  · intro _ e he
    rw [hhandled e he]
    exact hnotSettled
  · intro e he hsettled
    rw [hhandled e he] at hsettled
    exact absurd hsettled hnotSettled
  · intro x q hq
    cases x <;> exact absurd hq (by simp [PacketReceiverImpl.synConnection,
      TCPConnectionImpl.processSyncPacket, TCPConnectionImpl.record, TCPConnectionImpl.create])

theorem retained_processSyncAckPacket (h : Retained c) (hp : Detected p c.connectionDetail)
    (hstate : c.state = some .synSent) :
    (c.processSyncAckPacket p).Sat Retained Retained := by
  have hhand : Handshaking c.state := Or.inr (Or.inl hstate)
  unfold TCPConnectionImpl.processSyncAckPacket
  split
  · exact h
  · refine h.later ⟨fun hc => absurd hhand hc, fun hc => absurd hhand hc, fun _ => hstate, id,
      rfl, rfl⟩ (show _ = c.handled ++ [(c.state, p)] from rfl) ?_
    intro e he
    obtain rfl := List.mem_singleton.mp he
    refine ⟨hp, fun _ => by simp [TCPConnectionImpl.record], fun hsettled => ?_⟩
    simp [Settled, hstate] at hsettled

/-- The packet of a promotion is the first one in the history. -/
theorem retained_promote (h : Fresh c) (hp : Detected p c.connectionDetail)
    (hdata : p.isContainsData = true) :
    (PacketReceiverImpl.promote now p c).Leaves Retained Retained := by
  have hlen : 0 < p.data.length := by
    have : p.data ≠ [] := by simpa [TCPPacket.isContainsData] using hdata
    exact List.length_pos_of_ne_nil this
  refine PacketReceiverImpl.promote_leaves retained_drain ?_
  have hboth := (TCPConnectionImpl.processDataPacket_sat now p (PacketReceiverImpl.primed p c)).and
    (Delivery.processDataPacket_frame now p (PacketReceiverImpl.primed p c))
  refine hboth.mono ?_ ?_
  · rintro c' ⟨hd, hframe⟩
    have hdetail : c'.connectionDetail = c.connectionDetail := hframe.connectionDetail
    have hstate : c'.state = some .established := hd.state
    have hhandled : ∀ e ∈ (c'.record (some .established) p).handled,
        e = (some .established, p) := by
      have hold : c'.handled = [] := hframe.handled.trans h.handled
      intro e he
      simpa [TCPConnectionImpl.record, hold] using he
    refine ⟨?_, ?_, ?_, ?_, ?_, ?_⟩
    · intro e he
      rw [hhandled e he]
      exact hdetail ▸ hp.pair
    · intro e he _
      rw [hhandled e he]
      exact hdetail ▸ hp
    · intro e _ _
      simp [TCPConnectionImpl.record, hstate]
    · intro hhand
      simp [TCPConnectionImpl.record, hstate] at hhand
    · intro e he _
      rw [hhandled e he]
      refine Or.inl ?_
      show p.sequence < (c'.counter.get p.side).seq
      rw [hd.counter, SequenceCounter.get_update, updateCounter_seq]
      omega
    · intro x q hq
      have hbuffer : c'.packetsBuffer = c.packetsBuffer := hframe.packetsBuffer
      refine ⟨?_, fun _ => by simp [TCPConnectionImpl.record, hstate]⟩
      exact hdetail ▸ h.buffered x q (hbuffer ▸ hq)
  · rintro c' ⟨hd, hframe⟩
    have hstate : c'.state = some .established := hd.state
    have hold : c'.handled = [] := hframe.handled.trans h.handled
    refine ⟨by simp [hold], by simp [hold], by simp [hold], by simp [hold], by simp [hold], ?_⟩
    rw [show c'.packetsBuffer = c.packetsBuffer from hframe.packetsBuffer,
      show c'.connectionDetail = c.connectionDetail from hframe.connectionDetail, hstate]
    exact fun x q hq => ⟨h.buffered x q hq, fun _ => by simp⟩

theorem detected_detect {d : ConnectionDetail} (hkey : (d == p.connectionDetail) = true) :
    Detected (p.detectPacketFlowDirection d) d :=
  ⟨BEq.symm hkey, rfl⟩

theorem pickInvariant (now : Date) (p : TCPPacket) :
    PacketReceiverImpl.PickInvariant now p Retained Fresh Retained where
  thrown := fun _ h => h
  opened := retained_synConnection
  candidate := by
    intro _ _
    refine ⟨rfl, ?_⟩
    intro x q hq
    cases x with
    | client =>
      obtain rfl := List.mem_singleton.mp hq
      exact detected_detect BEq.rfl
    | server => exact absurd hq (by simp [PacketReceiverImpl.halfWayConnection])
  buffered := by
    intro c h hkey _ _
    refine PacketReceiverImpl.bufferPacket_sat h ⟨h.handled, ?_⟩
    exact BySide.forall_set (P := fun _ (l : List TCPPacket) => ∀ q ∈ l,
      Detected q c.connectionDetail) (PacketReceiverImpl.forall_mem_add h.buffered (detected_detect hkey))
      (h.buffered _)
  promoted := fun h hkey _ hdata _ => retained_promote h (detected_detect hkey) hdata
  answered := by
    intro c h hkey hignored hsynAck
    exact retained_processSyncAckPacket h (detected_detect hkey)
      (PacketReceiverImpl.synSent_of_notIgnored hignored hsynAck)
  processed := by
    intro c h hkey _ _ hsynAck
    have hp : Detected (p.detectPacketFlowDirection c.connectionDetail) c.connectionDetail :=
      detected_detect hkey
    refine PacketReceiverImpl.process_leaves retained_drain h ?_ ?_
    · intro hcan
      exact retained_deliver now h hp (fun hs => by simp [hsynAck] at hs) hcan 0
    · intro _
      exact h.setBuffer _ (PacketReceiverImpl.forall_mem_add h.buffered
        ⟨hp, fun hs => by simp [hsynAck] at hs⟩)

theorem Retained.read (hread : PacketReceiverImpl.SameButRead c c') (h : Retained c) :
    Retained c' := by
  obtain ⟨streams, rfl, hsame, -⟩ := hread
  have hfin : ({ c with inputStream := streams } : TCPConnectionImpl).isFinished = c.isFinished :=
    hsame.isFinished_eq
  refine ⟨h.pair, h.detected, h.answered, h.handshaking, ?_, h.buffered⟩
  intro e he hsettled
  unfold Behind
  rw [hfin]
  exact h.behind e he hsettled

theorem Fresh.read (hread : PacketReceiverImpl.SameButRead c c') (h : Fresh c) : Fresh c' := by
  obtain ⟨streams, rfl, -⟩ := hread
  exact ⟨h.handled, h.buffered⟩

/-- Every reachable receiver is well-formed, and its active connections
retain what they have handled. -/
theorem retained_of_reachable {filter : ConnectionFilter} {r : PacketReceiverImpl}
    (h : PacketReceiverImpl.Reachable filter r) :
    PacketReceiverImpl.WellFormed r ∧ PacketReceiverImpl.Tables Retained Fresh r := by
  obtain ⟨calls, rfl⟩ := h
  refine Run.invariant_always (I := fun r => PacketReceiverImpl.WellFormed r ∧
      PacketReceiverImpl.Tables Retained Fresh r) ?_ calls
    ⟨PacketReceiverImpl.wellFormed_create filter, PacketReceiverImpl.tables_create _ _ filter⟩
  rintro r call ⟨hwf, htables⟩
  refine ⟨PacketReceiverImpl.step_wellFormed hwf call, ?_⟩
  cases call with
  | pick now packet => exact ((pickInvariant now _).pick_tables hwf htables).state
  | _ => exact htables.step_other Retained.read Fresh.read nofun

end Invariant

end Retransmission

namespace PacketReceiverImpl

open Retransmission

/-- The same endpoints, flags, numbers and payload, captured once more. -/
def IsCopy (q p : JpcapPacket) : Prop := q = { p with usec := q.usec }

instance (q p : JpcapPacket) : Decidable (IsCopy q p) := inferInstanceAs (Decidable (q = _))

/-- Everything that `pick` reads of a copy. -/
private theorem IsCopy.fields {q p : JpcapPacket} (h : IsCopy q p) :
    q.connectionDetail = p.connectionDetail ∧ q.sequence = p.sequence ∧ q.data = p.data ∧
      q.ack = p.ack ∧ q.rst = p.rst ∧ q.syn = p.syn ∧ q.fin = p.fin := by
  rw [h]
  exact ⟨rfl, rfl, rfl, rfl, rfl, rfl, rfl⟩

/-- A second copy of a packet that does not move the counter is processed
again and changes nothing. -/
private theorem process_again {now : Date} {p : TCPPacket} {c : TCPConnectionImpl}
    (hp : p.consumed = false) (hdirection : p.isSentByClient =
      p.connectionDetail.isTheSame c.connectionDetail)
    (hseq : p.sequence = (c.counter.get p.side).seq) (hdata : p.isContainsData = false)
    (hfin : p.fin = false) (hrst : p.rst = false)
    (hack : p.ack = true → c.processAckPacket p = .returned c) :
    process now p c = .returned ⟨(c.record c.state p).updated now, 0⟩ := by
  have hcan : c.isCanProcessPacket p = .ok true := by
    rw [TCPConnectionImpl.isCanProcessPacket_eq hdirection hp]
    simp [hseq, hdata, hfin, hrst]
  simp [process, hcan, Delivery.handlePacket, Delivery.deliver_of_idle now 0 hrst hfin hack,
    hdata, hfin, Delivery.update]

/-- A second copy of a packet that the connection has processed leaves it in
place and changes neither its state nor its counters nor its streams.  A SYN
is different, it always makes a new connection, and so are packets without
payload and FIN in the states that wait for an acknowledgement. -/
theorem retransmission_idempotent (filter : ConnectionFilter) {r : PacketReceiverImpl}
    (hr : Reachable filter r) {key : ConnectionDetail} {ref : Ref} {c : TCPConnectionImpl}
    (hactive : r.activeConnections.get key = some ref) (hc : r.deref ref = some c)
    {met : Option TCPConnectionState} {p : TCPPacket} (hp : (met, p) ∈ c.handled)
    (hsyn : p.isHandsShake1Packet = false)
    (hsettled : p.isHandsShake2Packet = true ∨ Settled met p)
    (hwaits : p.isContainsData = false → p.fin = false →
      c.state ≠ some .lastAck ∧ (p.ack = true → c.state ≠ some .finishWait1))
    (now : Date) {q : JpcapPacket} (hq : IsCopy q p.toJpcapPacket) :
    ∃ r' c', r.pick now (TCPPacketImpl q) = .returned r' ∧
      r'.activeConnections.get key = some ref ∧ r'.deref ref = some c' ∧
      c'.state = c.state ∧ c'.counter = c.counter ∧ c'.inputStream = c.inputStream := by
  obtain ⟨hwf, htables⟩ := retained_of_reachable hr
  have h := htables.active hactive hc
  have hdetected : Detected p c.connectionDetail := h.detected _ hp hsyn
  obtain ⟨hqpair, hqseq, hqdata, hqack, hqrst, hqsyn, hqfin⟩ := hq.fields
  have hsyn' : (TCPPacketImpl q).isHandsShake1Packet = false := by
    rw [← hsyn]
    simp [TCPPacket.isHandsShake1Packet, TCPPacketImpl, hqsyn, hqack]
  have hlookup : r.activeConnections.get (TCPPacketImpl q).connectionDetail = some ref := by
    rw [show (TCPPacketImpl q).connectionDetail = p.connectionDetail from hqpair,
      HashMap.get_congr _ (BEq.trans hdetected.pair (hwf.deref_active hactive hc))]
    exact hactive
  set q' := (TCPPacketImpl q).detectPacketFlowDirection c.connectionDetail with hq'
  have hside : q'.side = p.side := by
    unfold TCPPacket.side
    rw [hdetected.direction, ← hqpair]
    rfl
  cases hignored : isIgnored q' c with
  | true =>
    exact ⟨r, c, picked_iff.mp (.ignored hsyn' hlookup hc hignored), hactive, hc, rfl, rfl, rfl⟩
  | false =>
    have hignored' := hignored
    simp only [isIgnored, Bool.or_eq_false_iff, Bool.and_eq_false_iff] at hignored'
    obtain ⟨⟨hold, hfinished⟩, hsynSent⟩ := hignored'
    have hsynAck' : q'.isHandsShake2Packet = p.isHandsShake2Packet := by
      simp [TCPPacket.isHandsShake2Packet, hq', TCPPacket.detectPacketFlowDirection,
        TCPPacketImpl, hqsyn, hqack]
    have hsynAck : p.isHandsShake2Packet = false := by
      rw [hsynAck'] at hsynSent
      by_contra hne
      rcases hsynSent with hfalse | hstate
      · exact hne hfalse
      · exact h.answered _ hp (by simpa using hne) (by simpa using hstate)
    have hset : Settled met p := hsettled.resolve_left (by simp [hsynAck])
    have hhand : ¬ Handshaking c.state := fun hh => h.handshaking hh _ hp hset
    have hnotOld : ¬ p.sequence < (c.counter.get p.side).seq := by
      rw [← hside, ← show q'.sequence = p.sequence from hqseq]
      simpa only [TCPConnectionImpl.isOldPacket, decide_eq_false_iff_not] using hold
    obtain ⟨hseq, hdata, hfin, hrst⟩ := (h.behind _ hp hset).resolve_left hnotOld
    obtain ⟨hlast, hwait⟩ := hwaits hdata hfin
    have hopen : c.isFinished = false := hfinished.resolve_right (by simpa using hlast)
    have hnoRst : p.rst = false := by
      by_contra hne
      simp [hrst (by simpa using hne)] at hopen
    have hack : q'.ack = true → c.processAckPacket q' = .returned c := by
      intro ha
      unfold TCPConnectionImpl.processAckPacket
      split
      · rename_i hstate
        exact absurd (Or.inl hstate) hhand
      · rename_i hstate
        exact absurd (Or.inr (Or.inr hstate)) hhand
      · rename_i hstate
        exact absurd hstate (hwait (hqack.symm.trans ha))
      · rename_i hstate
        exact absurd hstate hlast
      · rfl
    have hdata' : q'.isContainsData = false := by
      rw [← hdata]
      simp [TCPPacket.isContainsData, hq', TCPPacket.detectPacketFlowDirection, TCPPacketImpl,
        hqdata]
    have hagain : process now q' c = .returned ⟨(c.record c.state q').updated now, 0⟩ :=
      process_again rfl rfl (by rw [hside, ← hseq]; exact hqseq) hdata' (hqfin.trans hfin)
        (hqrst.trans hnoRst) hack
    have hpick : r.pick now (TCPPacketImpl q) = _ :=
      picked_iff.mp (.processed hsyn' hlookup hc hignored (hsynAck'.trans hsynAck))
    rw [← hq', hagain] at hpick
    have hderef : (r.commit ref ⟨(c.record c.state q').updated now, 0⟩).deref ref =
        some ((c.record c.state q').updated now) := deref_store_self hc
    refine ⟨_, (c.record c.state q').updated now, hpick, ?_, ?_, rfl, rfl, rfl⟩
    · unfold removeIfFinished
      rw [hderef]
      dsimp only
      rw [if_neg]
      · exact hactive
      · show ¬ c.isFinished = true
        simp [hopen]
    · rw [deref_removeIfFinished]
      exact hderef

/-- The ACK of the handshake, captured once more after the first data. -/
theorem retransmission_idempotent_handshake :
    let client := InetAddress.inet4 10 0 0 1
    let server := InetAddress.inet4 10 0 0 2
    let ack : JpcapPacket :=
      ⟨client, server, 50000, 80, 101, 501, true, false, false, false, [], 0⟩
    let r := Run.after step (create {}) [
      .pick 0 ⟨client, server, 50000, 80, 100, 0, false, false, true, false, [], 0⟩,
      .pick 1 ⟨server, client, 80, 50000, 500, 101, true, false, true, false, [], 0⟩,
      .pick 2 ack,
      .pick 3 ⟨client, server, 50000, 80, 101, 501, true, false, false, false, [1], 0⟩]
    ∃ c r' c', r.deref 0 = some c ∧ r.pick 4 (TCPPacketImpl ack) = .returned r' ∧
      r'.activeConnections.get ack.connectionDetail = some 0 ∧ r'.deref 0 = some c' ∧
      c'.state = c.state ∧ c'.counter = c.counter ∧ c'.inputStream = c.inputStream := by
  intro client server ack r
  have hsome : (r.deref 0).isSome = true := by decide
  obtain ⟨r', c', h⟩ := @retransmission_idempotent {} r ⟨_, rfl⟩ ack.connectionDetail 0 _
    (by decide) (Option.some_get hsome).symm (some .synReceived)
    ((TCPPacketImpl ack).detectPacketFlowDirection ack.connectionDetail) (by decide +revert)
    (by decide) (by decide) (by decide +revert) 4 ack rfl
  exact ⟨_, r', c', (Option.some_get hsome).symm, h⟩

/-- A second SYN starts the connection anew.  A second copy of an ACK of the
server is taken for the ACK of the FIN.  And where the server ends the
handshake in place of the client, payload that came before is appended
twice. -/
theorem retransmissions_not_idempotent :
    let client := InetAddress.inet4 10 0 0 1
    let server := InetAddress.inet4 10 0 0 2
    let up (sequence ackNum : Nat) (ack syn fin : Bool) (data : List UInt8) : Call :=
      .pick 0 ⟨client, server, 50000, 80, sequence, ackNum, ack, false, syn, fin, data, 0⟩
    let down (sequence ackNum : Nat) (syn : Bool) : Call :=
      .pick 0 ⟨server, client, 80, 50000, sequence, ackNum, true, false, syn, false, [], 0⟩
    let active (calls : List Call) : Option TCPConnectionImpl :=
      let r := Run.after step (create {}) calls
      (r.activeConnections.get ⟨client, server, 50000, 80⟩).bind r.deref
    let opening := [up 100 0 false true false [], down 500 101 true, up 101 501 true false false []]
    let closing := opening ++ [down 501 101 false, up 101 501 true false true []]
    let reversed := [up 100 102 false true false [], down 101 101 true,
      up 101 102 false false false [1, 2], down 101 102 false]
    ((active opening).map (·.state) = some (some .established) ∧
      (active (opening ++ [up 100 0 false true false []])).map (·.state) =
        some (some .synSent)) ∧
    ((active closing).map (·.state) = some (some .finishWait1) ∧
      (active (closing ++ [down 501 101 false])).map (·.state) = some (some .closeWait)) ∧
    ((active reversed).map (·.inputStream.client.appended) = some [1, 2] ∧
      (active (reversed ++ [up 101 102 false false false [1, 2]])).map
        (·.inputStream.client.appended) = some [1, 2, 1, 2]) := by
  decide

end PacketReceiverImpl

end ConnectionSniffer
