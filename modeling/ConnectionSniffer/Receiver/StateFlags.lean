import ConnectionSniffer.Receiver.Retransmission
import ConnectionSniffer.Receiver.States

/-!
# States and finished streams

The state of a connection is moved by ACKs and FINs, the finished flags of
its streams by FINs alone.  `Agrees` says that the two go together: the
state tells how many streams are finished.

An `Exchange` is what is sent in each direction of each pair of endpoints:
an initial sequence number and at most one FIN.  `states_agree` says that
in every run over packets of an exchange, in any order and with any of them
missing or repeated, every active connection agrees, and no `pick` throws
an `AlreadyFinishedStreamException`.  This needs `Unmixed`: `equals` must
not hand a packet to the connection of another pair.  `states_disagree` is
a run in which it does.

`phase` is the number of finished streams that a state stands for.
`Settled` is the invariant: the phase is right, no FIN can be handled in
`SynSent`, and the counter of a finished stream is behind its FIN, so that
neither payload nor a second FIN can be handled any more.
-/

namespace ConnectionSniffer

namespace StateFlags

/-! ## Exchanges -/

/-- What is sent in one direction. -/
structure Direction where
  isn : Nat
  /-- The sequence number of the FIN, behind the last byte. -/
  fin : Option Nat := none

/-- What is sent from each source to each destination. -/
abbrev Exchange := ConnectionDetail → Direction

/-- A packet of the exchange: no RST, payload and FIN where the direction has
them, and every packet but SYN and SYN/ACK is an ACK that acknowledges the
other side's SYN at least. -/
structure Consistent (X : Exchange) (p : JpcapPacket) : Prop where
  rst : p.rst = false
  syn : p.syn = true → p.sequence = (X p.connectionDetail).isn ∧ p.fin = false
  ack : p.syn = false → p.ack = true ∧ (X p.connectionDetail).isn + 1 ≤ p.sequence ∧
    (X p.connectionDetail.swap).isn + 1 ≤ p.ackNum
  data : p.data ≠ [] → ∀ F ∈ (X p.connectionDetail).fin, p.sequence + p.data.length ≤ F
  fin : p.fin = true → (X p.connectionDetail).fin = some (p.sequence + p.data.length)

/-- `equals` hands the packet to no connection of another pair, and a SYN that
carries payload has nothing of the other side in its acknowledgement
field. -/
structure Unmixed (X : Exchange) (r : PacketReceiverImpl) (p : JpcapPacket) : Prop where
  own : ∀ c ∈ r.routed (TCPPacketImpl p),
    c.connectionDetail = p.connectionDetail ∨ c.connectionDetail = p.connectionDetail.swap
  syn : p.syn = true → p.ack = false → p.data ≠ [] →
    p.ackNum ≤ (X p.connectionDetail.swap).isn

instance (X : Exchange) (p : JpcapPacket) : Decidable (Consistent X p) :=
  decidable_of_iff (_ ∧ (_ → _) ∧ (_ → _) ∧ (_ → ∀ F ∈ _, _) ∧ (_ → _))
    ⟨fun h => ⟨h.1, h.2.1, h.2.2.1, h.2.2.2.1, h.2.2.2.2⟩,
      fun h => ⟨h.rst, h.syn, h.ack, h.data, h.fin⟩⟩

instance (X : Exchange) (r : PacketReceiverImpl) (p : JpcapPacket) : Decidable (Unmixed X r p) :=
  decidable_of_iff ((∀ c ∈ _, _ ∨ _) ∧ (_ → _ → _ → _))
    ⟨fun h => ⟨h.1, h.2⟩, fun h => ⟨h.own, h.syn⟩⟩

/-- The state tells how many streams are finished. -/
structure Agrees (c : TCPConnectionImpl) : Prop where
  neither : (∀ x, (c.inputStream.get x).isFinished = false) ↔
    c.state = some .synSent ∨ c.state = some .synReceived ∨ c.state = some .established
  one : (∃ x, (c.inputStream.get x).isFinished = true ∧
      (c.inputStream.get x.other).isFinished = false) ↔
    c.state = some .finishWait1 ∨ c.state = some .closeWait
  both : (∀ x, (c.inputStream.get x).isFinished = true) ↔
    c.state = some .lastAck ∨ c.state = some .closing ∨ c.state = some .closed

/-! ## Phases -/

/-- How many streams are finished in a state. -/
def phase : Option TCPConnectionState → Option Nat
  | some .synSent | some .synReceived | some .established => some 0
  | some .finishWait1 | some .closeWait => some 1
  | some .lastAck | some .closing | some .closed => some 2
  | _ => none

/-- How many streams are finished. -/
def finishedStreams (c : TCPConnectionImpl) : Nat :=
  c.inputStream.client.isFinished.toNat + c.inputStream.server.isFinished.toNat

section Phases

variable {c c' : TCPConnectionImpl} {state : Option TCPConnectionState} {p : TCPPacket} {n : Nat}

theorem finishedStreams_eq (x : Side) (c : TCPConnectionImpl) : finishedStreams c =
    (c.inputStream.get x).isFinished.toNat + (c.inputStream.get x.other).isFinished.toNat := by
  cases x with
  | client => rfl
  | server => exact Nat.add_comm ..

theorem finishedStreams_congr
    (h : ∀ x, (c'.inputStream.get x).isFinished = (c.inputStream.get x).isFinished) :
    finishedStreams c' = finishedStreams c := by
  rw [finishedStreams_eq .client, finishedStreams_eq .client, h, h]

theorem phase_eq_zero : phase state = some 0 ↔
    state = some .synSent ∨ state = some .synReceived ∨ state = some .established := by
  unfold phase
  split <;> simp_all

theorem phase_eq_one : phase state = some 1 ↔
    state = some .finishWait1 ∨ state = some .closeWait := by
  unfold phase
  split <;> simp_all

theorem phase_eq_two : phase state = some 2 ↔
    state = some .lastAck ∨ state = some .closing ∨ state = some .closed := by
  unfold phase
  split <;> simp_all

/-- The phase says the same as the three equivalences. -/
theorem agrees_iff : Agrees c ↔ phase c.state = some (finishedStreams c) := by
  have hboth : ∀ {P : Side → Prop}, (∀ x, P x) ↔ P .client ∧ P .server := by
    intro P
    exact ⟨fun hall => ⟨hall _, hall _⟩, fun hp => BySide.forall_side .client hp.1 hp.2⟩
  have heither : ∀ {P : Side → Prop}, (∃ x, P x) ↔ P .client ∨ P .server := by
    intro P
    constructor
    · intro ⟨x, hx⟩
      cases x with
      | client => exact Or.inl hx
      | server => exact Or.inr hx
    · intro hp
      exact hp.elim (fun hx => ⟨_, hx⟩) fun hx => ⟨_, hx⟩
  have hagrees : Agrees c ↔
      ((∀ x, (c.inputStream.get x).isFinished = false) ↔ phase c.state = some 0) ∧
      ((∃ x, (c.inputStream.get x).isFinished = true ∧
        (c.inputStream.get x.other).isFinished = false) ↔ phase c.state = some 1) ∧
      ((∀ x, (c.inputStream.get x).isFinished = true) ↔ phase c.state = some 2) := by
    rw [phase_eq_zero, phase_eq_one, phase_eq_two]
    exact ⟨fun h => ⟨h.neither, h.one, h.both⟩, fun h => ⟨h.1, h.2.1, h.2.2⟩⟩
  rw [hagrees, hboth, heither, hboth]
  unfold finishedStreams
  simp only [BySide.get_client, BySide.get_server, Side.other]
  generalize phase c.state = n
  cases c.inputStream.client.isFinished <;> cases c.inputStream.server.isFinished <;> grind

instance (c : TCPConnectionImpl) : Decidable (Agrees c) := decidable_of_iff' _ agrees_iff

/-- An ACK keeps the phase. -/
theorem phase_acknowledged (state : Option TCPConnectionState) :
    phase (States.acknowledged state) = phase state := by
  unfold States.acknowledged
  split <;> rfl

/-- A FIN with ACK moves on to the next phase, unless the state is `SynSent` or
both streams are finished. -/
theorem phase_stateAfter (hack : p.ack = true) (hphase : phase state = some n)
    (hsent : state ≠ some .synSent) (hn : p.fin = true → n ≤ 1) :
    phase (States.stateAfter p state) = some (if p.fin then n + 1 else n) := by
  unfold States.stateAfter
  simp only [hack, if_true]
  cases hfin : p.fin with
  | false =>
    simp only [Bool.false_eq_true, if_false]
    exact (phase_acknowledged state).trans hphase
  | true =>
    simp only [if_true]
    obtain rfl | rfl : n = 0 ∨ n = 1 := by
      have := hn hfin
      omega
    · rcases phase_eq_zero.mp hphase with h | h | h
      · exact absurd h hsent
      · rw [h]
        rfl
      · rw [h]
        rfl
    · rcases phase_eq_one.mp hphase with h | h
      · rw [h]
        rfl
      · rw [h]
        rfl

end Phases

/-! ## The invariant of a connection -/

/-- A packet of the exchange, with its direction detected against `d`. -/
structure Fits (S : BySide Direction) (d : ConnectionDetail) (p : TCPPacket) : Prop where
  direction : p.isSentByClient = p.connectionDetail.isTheSame d
  rst : p.rst = false
  ack : p.ack = true
  start : p.syn = false → (S.get p.side).isn + 1 ≤ p.sequence
  ackNum : p.syn = false → (S.get p.side.other).isn + 1 ≤ p.ackNum
  data : p.data ≠ [] → ∀ F ∈ (S.get p.side).fin, p.sequence + p.data.length ≤ F
  fin : p.fin = true → (S.get p.side).fin = some (p.sequence + p.data.length)

structure InPhase (S : BySide Direction) (c : TCPConnectionImpl) : Prop where
  phase : phase c.state = some (finishedStreams c)
  synSent : c.state = some .synSent → c.counter.server.seq = 0 ∧
    (c.counter.client.seq ≤ S.client.isn ∨ c.counter.client.ack ≤ S.server.isn)
  passed : ∀ x, (c.inputStream.get x).isFinished = true →
    ∃ F ∈ (S.get x).fin, F < (c.counter.get x).seq

section Invariant

variable {S : BySide Direction} {d : ConnectionDetail} {now : Date} {p : TCPPacket}
  {c c' : TCPConnectionImpl}

/-- In `SynSent` no payload and no FIN can be processed: nothing of the server
starts at 0, and what starts behind the SYN does not acknowledge what the
SYN did. -/
theorem InPhase.control_of_synSent (h : InPhase S c) (hd : c.connectionDetail = d)
    (hp : Fits S d p) (hsyn : p.syn = false) (hcan : c.isCanProcessPacket p = .ok true)
    (hstate : c.state = some .synSent) : p.isContainsData = false ∧ p.fin = false := by
  have hdirection : p.isSentByClient = p.connectionDetail.isTheSame c.connectionDetail := by
    rw [hd]
    exact hp.direction
  have hseq := TCPConnectionImpl.sequence_of_isCanProcessPacket hdirection hcan
  have hstart := hp.start hsyn
  have hacks := hp.ackNum hsyn
  obtain ⟨hserver, hclient⟩ := h.synSent hstate
  rw [← Bool.or_eq_false_iff]
  by_contra hkind
  have hmatch := TCPConnectionImpl.ackNum_of_isCanProcessPacket hdirection hcan
    (by rw [hp.rst, Bool.or_false]; exact (Bool.not_eq_false _).mp hkind)
  cases hside : p.side with
  | client =>
    rw [hside] at hseq hstart hacks hmatch
    simp only [BySide.get_client, BySide.get_server, Side.other] at hseq hstart hacks hmatch
    omega
  | server =>
    rw [hside] at hseq hstart
    simp only [BySide.get_server] at hseq hstart
    omega

/-- A stream whose FIN has been handled takes neither payload nor FIN. -/
theorem InPhase.open_of_kind (h : InPhase S c) (hp : Fits S d p)
    (hseq : (c.counter.get p.side).seq = p.sequence)
    (hkind : p.isContainsData = true ∨ p.fin = true) :
    (c.inputStream.get p.side).isFinished = false := by
  cases hfinished : (c.inputStream.get p.side).isFinished with
  | false => rfl
  | true =>
    obtain ⟨F, hF, hlt⟩ := h.passed _ hfinished
    rcases hkind with hdata | hfin
    · have := hp.data (by simpa [TCPPacket.isContainsData] using hdata) F hF
      omega
    · have := Option.some.inj ((hp.fin hfin).symm.trans hF)
      omega

/-- A connection with a finished stream is past the handshake. -/
theorem InPhase.not_handshaking (h : InPhase S c) {x : Side}
    (hfinished : (c.inputStream.get x).isFinished = true) :
    ¬ Handshaking c.state := by
  have hphase := h.phase
  have hpos : 0 < finishedStreams c := by
    rw [finishedStreams_eq x, hfinished]
    exact Nat.lt_add_right _ Nat.one_pos
  intro hstate
  rcases hstate with hstate | hstate | hstate
  · rw [hstate] at hphase
    cases hphase
  · have := Option.some.inj (hphase.symm.trans (congrArg StateFlags.phase hstate))
    omega
  · have := Option.some.inj (hphase.symm.trans (congrArg StateFlags.phase hstate))
    omega

/-- What a packet leaves behind, returned or thrown, where no counter has gone
back. -/
theorem InPhase.later (h : InPhase S c) (hphase : StateFlags.phase c'.state = some (finishedStreams c'))
    (hmoved : Retransmission.Passing p c c') (hseq : (c.counter.get p.side).seq = p.sequence)
    (hsent : c.state ≠ some .synSent)
    (hfinished : ∀ x, (c'.inputStream.get x).isFinished = true →
      (c.inputStream.get x).isFinished = true ∨
        ∃ F ∈ (S.get x).fin, F < (c'.counter.get x).seq) : InPhase S c' := by
  refine ⟨hphase, fun hstate => absurd (hmoved.synSent hstate) hsent, fun x hx => ?_⟩
  rcases hfinished x hx with hold | hnew
  · obtain ⟨F, hF, hlt⟩ := h.passed x hold
    refine ⟨F, hF, hlt.trans_le ?_⟩
    rcases Side.eq_or_eq_other p.side x with rfl | rfl
    · rw [hseq]
      exact hmoved.low
    · exact (hmoved.other (h.not_handshaking hold)).ge
  · exact hnew

/-- Handling a packet that can be processed keeps the invariant, whatever is
thrown, and never finds its stream finished. -/
theorem InPhase.deliver (h : InPhase S c) (hd : c.connectionDetail = d) (hp : Fits S d p)
    (hsyn : c.state = some .synSent → p.syn = false) (hcan : c.isCanProcessPacket p = .ok true)
    (n : Nat) : (Delivery.deliver now p ⟨c, n⟩).Ends (fun t => InPhase S t.connection)
      (fun e t => e.isAlreadyFinished = false ∧ InPhase S t.connection) := by
  have hseq := TCPConnectionImpl.sequence_of_isCanProcessPacket
    (by rw [hd]; exact hp.direction) hcan
  by_cases hstate : c.state = some .synSent
  · obtain ⟨hdata, hfin⟩ := h.control_of_synSent hd hp (hsyn hstate) hcan hstate
    rw [Delivery.deliver_of_idle now n hp.rst hfin fun _ => by
      simp [TCPConnectionImpl.processAckPacket, hstate], hdata]
    exact ⟨h.phase, h.synSent, h.passed⟩
  · have hmoved := Retransmission.deliver_moved now hseq n
    refine (((States.deliver_progressed now p c n).and hmoved)).mono ?_ ?_
    · rintro t ⟨hprogressed, hmoved⟩
      have hfinished : ∀ x, (t.connection.inputStream.get x).isFinished =
          ((p.fin && decide (p.side = x)) || (c.inputStream.get x).isFinished) := by
        intro x
        rw [hprogressed.finished, States.finishedAfter, hp.rst, Bool.false_or]
      refine h.later ?_ hmoved.toPassing hseq hstate ?_
      · rw [hprogressed.state, phase_stateAfter hp.ack h.phase hstate]
        · rw [finishedStreams_eq p.side t.connection, finishedStreams_eq p.side c, hfinished,
            hfinished]
          cases hfin : p.fin with
          | false => simp
          | true =>
            rw [h.open_of_kind hp hseq (Or.inr hfin)]
            simp [Nat.add_comm]
        · intro hfin
          rw [finishedStreams_eq p.side, h.open_of_kind hp hseq (Or.inr hfin), Bool.toNat_false,
            Nat.zero_add]
          exact Bool.toNat_le _
      · intro x hx
        rw [hfinished, Bool.or_eq_true, Bool.and_eq_true, decide_eq_true_eq] at hx
        rcases hx with ⟨hfin, rfl⟩ | hold
        · refine Or.inr ⟨_, hp.fin hfin, ?_⟩
          rw [hprogressed.counter hfin]
          exact Nat.lt_succ_self _
        · exact Or.inl hold
    · rintro e t ⟨hhalted, hmoved⟩
      have hfinished : ∀ x, (t.connection.inputStream.get x).isFinished =
          (c.inputStream.get x).isFinished := by
        intro x
        rw [hhalted.finished, hp.rst, Bool.false_or]
      refine ⟨?_, h.later ?_ hmoved hseq hstate fun x hx => Or.inl (hfinished x ▸ hx)⟩
      · cases he : e.isAlreadyFinished with
        | false => rfl
        | true =>
          obtain ⟨hdata, hclosed⟩ := hhalted.alreadyFinished he
          rw [hp.rst, Bool.false_or, h.open_of_kind hp hseq (Or.inl hdata)] at hclosed
          exact absurd hclosed (by decide)
      · rw [finishedStreams_congr hfinished, ← h.phase]
        rcases hhalted.state with hsame | ⟨-, hack⟩
        · rw [hsame]
        · rw [hack, phase_acknowledged]

end Invariant

/-! ## Connections of the exchange -/

/-- What the two sides of a connection with detail `d` send. -/
def Exchange.sides (X : Exchange) (d : ConnectionDetail) : BySide Direction := ⟨X d, X d.swap⟩

section Connections

variable {X : Exchange} {d : ConnectionDetail} {now : Date} {c : TCPConnectionImpl}

/-- What the drain keeps of an active connection with detail `d`. -/
structure Kept (X : Exchange) (d : ConnectionDetail) (c : TCPConnectionImpl) : Prop where
  detail : c.connectionDetail = d
  inPhase : InPhase (X.sides d) c
  buffered : ∀ x, ∀ p ∈ c.packetsBuffer.get x,
    Fits (X.sides d) d p ∧ (p.syn = true → c.state ≠ some .synSent)

/-- A half-way connection has handled nothing. -/
structure HalfWay (X : Exchange) (c : TCPConnectionImpl) : Prop where
  is_open : ∀ x, (c.inputStream.get x).isFinished = false
  buffered : ∀ x, ∀ p ∈ c.packetsBuffer.get x, Fits (X.sides c.connectionDetail)
    c.connectionDetail p

theorem Kept.setBuffer (h : Kept X d c) (x : Side) {packets : List TCPPacket}
    (hpackets : ∀ p ∈ packets, Fits (X.sides d) d p ∧ (p.syn = true → c.state ≠ some .synSent)) :
    Kept X d (c.setBuffer x packets) where
  detail := h.detail
  inPhase := ⟨h.inPhase.phase, h.inPhase.synSent, h.inPhase.passed⟩
  buffered := BySide.forall_set (P := fun _ (packets : List TCPPacket) => ∀ p ∈ packets,
    Fits (X.sides d) d p ∧ (p.syn = true → c.state ≠ some .synSent)) hpackets (h.buffered x.other)

theorem Kept.deliver (h : Kept X d c) {p : TCPPacket} (hp : Fits (X.sides d) d p)
    (hsyn : p.syn = true → c.state ≠ some .synSent) (hcan : c.isCanProcessPacket p = .ok true)
    (n : Nat) : (Delivery.deliver now p ⟨c, n⟩).Ends (fun t => Kept X d t.connection)
      (fun e t => e.isAlreadyFinished = false ∧ Kept X d t.connection) := by
  have hseq := TCPConnectionImpl.sequence_of_isCanProcessPacket
    (by rw [h.detail]; exact hp.direction) hcan
  have hphase : (Delivery.deliver now p ⟨c, n⟩).Ends _ _ := h.inPhase.deliver h.detail hp
    (fun hstate => by simpa using mt hsyn (not_not.mpr hstate)) hcan n
  have hboth := (Retransmission.deliver_moved now hseq n).and (Delivery.deliver_frame now p c n)
  refine (hphase.and hboth).mono ?_ ?_
  · intro t ⟨hphase, hmoved, hrec⟩
    refine ⟨hrec.connectionDetail.trans h.detail, hphase, ?_⟩
    rw [hrec.packetsBuffer]
    intro x q hq
    obtain ⟨hfits, hsent⟩ := h.buffered x q hq
    exact ⟨hfits, fun hqs hstate => hsent hqs (hmoved.synSent hstate)⟩
  · intro e t ⟨⟨hthrown, hphase⟩, hmoved, hframe⟩
    refine ⟨hthrown, hframe.connectionDetail.trans h.detail, hphase, ?_⟩
    rw [hframe.packetsBuffer]
    intro x q hq
    obtain ⟨hfits, hsent⟩ := h.buffered x q hq
    exact ⟨hfits, fun hqs hstate => hsent hqs (hmoved.synSent hstate)⟩

theorem kept_rule (X : Exchange) (d : ConnectionDetail) (now : Date) :
    Delivery.DeliveryRule now (fun t => Kept X d t.connection)
      (fun e t => e.isAlreadyFinished = false ∧ Kept X d t.connection) where
  thrown := by
    intro t p e h herror _
    obtain ⟨message, rfl⟩ := TCPConnectionImpl.error_of_isCanProcessPacket herror
    exact ⟨rfl, h⟩
  drop := by
    intro c n x p rest h hb _
    exact h.setBuffer x (TCPConnectionImpl.buffer_cons h.buffered hb).2
  take := by
    intro c n x p rest h hb hcan
    have hrest := h.setBuffer x (TCPConnectionImpl.buffer_cons h.buffered hb).2
    obtain ⟨hfits, hsent⟩ := (TCPConnectionImpl.buffer_cons h.buffered hb).1
    exact hrest.deliver hfits hsent (by simpa using hcan) n
  updated := fun h => ⟨h.detail, ⟨h.inPhase.phase, h.inPhase.synSent, h.inPhase.passed⟩,
    h.buffered⟩

/-! ## Picks -/

/-- A packet of the exchange that is not a SYN, once its direction is
detected against its own pair. -/
theorem fits_detect {p : JpcapPacket} (hp : Consistent X p)
    (hsyn : (TCPPacketImpl p).isHandsShake1Packet = false)
    (hd : d = p.connectionDetail ∨ d = p.connectionDetail.swap) :
    Fits (X.sides d) d ((TCPPacketImpl p).detectPacketFlowDirection d) := by
  set q := (TCPPacketImpl p).detectPacketFlowDirection d with hq
  have hside : q.side = if p.connectionDetail.isTheSame d then .client else .server := rfl
  obtain ⟨hown, hother⟩ : (X.sides d).get q.side = X p.connectionDetail ∧
      (X.sides d).get q.side.other = X p.connectionDetail.swap := by
    rw [hside]
    by_cases hsame : p.connectionDetail = d
    · rw [if_pos (ConnectionDetail.isTheSame_iff.mpr hsame), hsame]
      exact ⟨rfl, rfl⟩
    · obtain rfl := hd.resolve_left (Ne.symm hsame)
      rw [if_neg (mt ConnectionDetail.isTheSame_iff.mp hsame)]
      exact ⟨rfl, rfl⟩
  refine ⟨rfl, hp.rst, ?_, ?_, ?_, ?_, ?_⟩
  · show p.ack = true
    cases hsyn' : p.syn with
    | false => exact (hp.ack hsyn').1
    | true =>
      have hnot : (p.syn && !p.ack) = false := hsyn
      simpa [hsyn'] using hnot
  · rw [hown]
    exact fun h => (hp.ack h).2.1
  · rw [hother]
    exact fun h => (hp.ack h).2.2
  · rw [hown]
    exact hp.data
  · rw [hown]
    exact hp.fin

/-- An active connection of the exchange. -/
def Active (X : Exchange) (c : TCPConnectionImpl) : Prop := Kept X c.connectionDetail c

theorem Kept.active (h : Kept X d c) : Active X c := by
  obtain rfl := h.detail
  exact h

theorem active_synConnection {p : JpcapPacket} (hp : Consistent X p)
    (hsyn : (TCPPacketImpl p).isHandsShake1Packet = true)
    (hfield : p.data ≠ [] → p.ackNum ≤ (X p.connectionDetail.swap).isn) :
    Active X (PacketReceiverImpl.synConnection now (TCPPacketImpl p)) := by
  have hflags : (p.syn && !p.ack) = true := hsyn
  rw [Bool.and_eq_true] at hflags
  obtain ⟨hsequence, -⟩ := hp.syn hflags.1
  refine ⟨rfl, ⟨rfl, fun _ => ⟨rfl, ?_⟩, ?_⟩, ?_⟩
  · by_cases hdata : p.data = []
    · left
      show (updateCounter (TCPPacketImpl p)).1.seq ≤ (X p.connectionDetail).isn
      rw [updateCounter_seq]
      show p.sequence + p.data.length ≤ _
      rw [hdata, hsequence]
      exact le_rfl
    · exact Or.inr (hfield hdata)
  · intro x hx
    cases x <;> exact absurd hx Bool.false_ne_true
  · intro x q hq
    cases x <;> exact absurd hq (by simp [PacketReceiverImpl.synConnection,
      TCPConnectionImpl.processSyncPacket, TCPConnectionImpl.record, TCPConnectionImpl.create])

theorem halfWay_halfWayConnection {p : JpcapPacket} (hp : Consistent X p)
    (hsyn : (TCPPacketImpl p).isHandsShake1Packet = false) :
    HalfWay X (PacketReceiverImpl.halfWayConnection now (TCPPacketImpl p)) := by
  refine ⟨fun x => by cases x <;> rfl, ?_⟩
  intro x q hq
  cases x with
  | client =>
    obtain rfl := List.mem_singleton.mp hq
    exact fits_detect hp hsyn (Or.inl rfl)
  | server => exact absurd hq (by simp [PacketReceiverImpl.halfWayConnection])

/-- The SYN/ACK finds both streams open. -/
theorem active_processSyncAckPacket (h : Active X c) (hstate : c.state = some .synSent)
    (q : TCPPacket) : (c.processSyncAckPacket q).Ends (Active X)
      (fun e c' => e.isAlreadyFinished = false ∧ Active X c') := by
  have hzero : some (finishedStreams c) = some 0 := by
    rw [← h.inPhase.phase, hstate]
    rfl
  unfold TCPConnectionImpl.processSyncAckPacket
  split
  · exact ⟨rfl, h⟩
  · refine ⟨rfl, ⟨hzero.symm, fun hsent => absurd hsent (by simp [TCPConnectionImpl.record]), ?_⟩, ?_⟩
    · intro x hx
      exact absurd (Or.inr (Or.inl hstate)) (h.inPhase.not_handshaking hx)
    · exact fun x q hq => ⟨(h.buffered x q hq).1, fun _ => by simp [TCPConnectionImpl.record]⟩

/-- A promoted connection is established, with both streams open. -/
theorem kept_promoted (h : HalfWay X c) (q : TCPPacket) :
    ((PacketReceiverImpl.primed q c).processDataPacket now q).Ends
      (fun c' => Kept X c.connectionDetail (c'.record (some .established) q))
      (fun e c' => e.isAlreadyFinished = false ∧ Kept X c.connectionDetail c') := by
  have hopen : ∀ x, ((PacketReceiverImpl.primed q c).inputStream.get x).isFinished = false :=
    h.is_open
  have hkept : ∀ c' : TCPConnectionImpl, c'.state = some .established →
      (∀ x, (c'.inputStream.get x).isFinished = false) →
      Delivery.SameFrame (PacketReceiverImpl.primed q c) c' → Kept X c.connectionDetail c' := by
    intro c' hstate hfinished hframe
    refine ⟨hframe.connectionDetail, ⟨?_, by simp [hstate], by simp [hfinished]⟩, ?_⟩
    · rw [hstate, finishedStreams_eq .client, hfinished, hfinished]
      rfl
    · rw [hframe.packetsBuffer, hstate]
      exact fun x q hq => ⟨h.buffered x q hq, fun _ => by simp⟩
  refine (((TCPConnectionImpl.processDataPacket_sat now q _).and
    (Delivery.processDataPacket_frame now q _)).ends
    (TCPConnectionImpl.processDataPacket_throws now q _)).mono ?_ ?_
  · intro c' ⟨hdata, hframe⟩
    have hfinished : ∀ x, (c'.inputStream.get x).isFinished = false :=
      BySide.forall_side q.side hdata.is_open (hdata.other_isFinished.trans (hopen _))
    have := hkept c' hdata.state hfinished hframe
    exact ⟨this.detail, ⟨this.inPhase.phase, this.inPhase.synSent, this.inPhase.passed⟩,
      this.buffered⟩
  · intro e c' ⟨hrefuses, hdata, hframe⟩
    refine ⟨?_, hkept c' hdata.state (fun x => (hdata.sameBytes.isFinished x).trans (hopen x))
      hframe⟩
    cases he : e.isAlreadyFinished with
    | false => rfl
    | true => exact absurd ((hrefuses.2 he).symm.trans (hopen _)) (by decide)

theorem pickRule (X : Exchange) (now : Date) {p : JpcapPacket} (hp : Consistent X p)
    (hfield : (TCPPacketImpl p).isHandsShake1Packet = true → p.data ≠ [] →
      p.ackNum ≤ (X p.connectionDetail.swap).isn) :
    PacketReceiverImpl.PickRule now (TCPPacketImpl p)
      (fun c => c.connectionDetail = p.connectionDetail ∨
        c.connectionDetail = p.connectionDetail.swap) (Active X) (HalfWay X)
      (fun e => e.isAlreadyFinished = false) (fun _ => Active X) where
  weaken := fun h => h
  full := rfl
  opened := fun hsyn => active_synConnection hp hsyn (hfield hsyn)
  candidate := fun hsyn _ => halfWay_halfWayConnection hp hsyn
  buffered := by
    intro c h hM hsyn _ _
    refine PacketReceiverImpl.bufferPacket_sat h ⟨h.is_open, ?_⟩
    exact BySide.forall_set (P := fun _ (packets : List TCPPacket) => ∀ q ∈ packets,
      Fits (X.sides c.connectionDetail) c.connectionDetail q)
      (PacketReceiverImpl.forall_mem_add h.buffered (fits_detect hp hsyn hM)) (h.buffered _)
  promoted := by
    intro c h _ _ _ _
    refine (PacketReceiverImpl.promote_ends (kept_rule X c.connectionDetail now)
      (kept_promoted h _)).mono (fun _ ht => ht.active) ?_
    intro e t ht
    exact ⟨ht.1, ht.2.active⟩
  answered := by
    intro c h _ hignored hsynAck
    exact active_processSyncAckPacket h
      (PacketReceiverImpl.synSent_of_notIgnored hignored hsynAck) _
  processed := by
    intro c h hM _ hsyn hsynAck
    have hfits := fits_detect hp hsyn hM
    have hplain : p.syn = false := TCPPacket.syn_eq_false hsyn hsynAck
    have hnot : ∀ {P : Prop}, ((TCPPacketImpl p).detectPacketFlowDirection
        c.connectionDetail).syn = true → P := fun h' => absurd (hplain.symm.trans h') (by decide)
    refine (PacketReceiverImpl.process_ends (kept_rule X c.connectionDetail now)
      (I := fun t => Kept X c.connectionDetail t.connection) (fun _ herror => ?_) ⟨rfl, h⟩
      (fun hcan => Kept.deliver h hfits hnot hcan 0) ?_).mono (fun _ ht => ht.active) ?_
    · obtain ⟨message, rfl⟩ := TCPConnectionImpl.error_of_isCanProcessPacket herror
      exact ⟨rfl, h⟩
    · intro _
      exact Kept.setBuffer h _ (PacketReceiverImpl.forall_mem_add h.buffered ⟨hfits, hnot⟩)
    · intro e t ht
      exact ⟨ht.1, ht.2.active⟩

/-- Reading finishes no stream. -/
theorem Active.read {c' : TCPConnectionImpl} (hread : PacketReceiverImpl.SameButRead c c')
    (h : Active X c) : Active X c' := by
  obtain ⟨streams, rfl, hsame, -⟩ := hread
  refine ⟨rfl, ⟨?_, h.inPhase.synSent, ?_⟩, h.buffered⟩
  · exact h.inPhase.phase.trans (congrArg some (finishedStreams_congr hsame.isFinished).symm)
  · intro x hx
    exact h.inPhase.passed x ((hsame.isFinished x).symm.trans hx)

theorem HalfWay.read {c' : TCPConnectionImpl} (hread : PacketReceiverImpl.SameButRead c c')
    (h : HalfWay X c) : HalfWay X c' := by
  obtain ⟨streams, rfl, hsame, -⟩ := hread
  exact ⟨fun x => (hsame.isFinished x).trans (h.is_open x), h.buffered⟩

end Connections

/-! ## Runs -/

/-- A call that picks a packet of the exchange, for its own pair, or picks
nothing. -/
def Exchanged (X : Exchange) (r : PacketReceiverImpl) : Call → Prop
  | .pick _ packet => Consistent X packet ∧ Unmixed X r packet
  | _ => True

instance (X : Exchange) (r : PacketReceiverImpl) : ∀ call, Decidable (Exchanged X r call)
  | .pick _ packet => inferInstanceAs (Decidable (Consistent X packet ∧ Unmixed X r packet))
  | .poll => .isTrue trivial
  | .read _ _ => .isTrue trivial
  | .readInto _ _ _ _ _ => .isTrue trivial

/-- The invariant of the receiver. -/
structure Following (X : Exchange) (r : PacketReceiverImpl) : Prop where
  wellFormed : PacketReceiverImpl.WellFormed r
  tables : PacketReceiverImpl.Tables (Active X) (HalfWay X) r

theorem Following.pick {X : Exchange} {r : PacketReceiverImpl} (h : Following X r) (now : Date)
    {p : JpcapPacket} (hp : Consistent X p) (hunmixed : Unmixed X r p) :
    (r.pick now (TCPPacketImpl p)).Ends (PacketReceiverImpl.Tables (Active X) (HalfWay X))
      (fun e r' => e.isAlreadyFinished = false ∧
        PacketReceiverImpl.Tables (Active X) (HalfWay X) r') := by
  refine (pickRule X now hp fun hsyn hdata => ?_).pick_ends h.wellFormed hunmixed.own h.tables
  have hflags : (p.syn && !p.ack) = true := hsyn
  rw [Bool.and_eq_true, Bool.not_eq_true'] at hflags
  exact hunmixed.syn hflags.1 hflags.2 hdata

theorem following_step {X : Exchange} {r : PacketReceiverImpl} {call : Call}
    (h : Following X r) (hcall : Exchanged X r call) : Following X (r.step call) := by
  refine ⟨PacketReceiverImpl.step_wellFormed h.wellFormed call, ?_⟩
  cases call with
  | pick now packet =>
    have hends := h.pick now hcall.1 hcall.2
    show PacketReceiverImpl.Tables _ _ (r.pick now (TCPPacketImpl packet)).state
    cases ho : r.pick now (TCPPacketImpl packet) with
    | returned r' =>
      rw [ho] at hends
      exact hends
    | thrown e r' =>
      rw [ho] at hends
      exact hends.2
  | _ => exact h.tables.step_other Active.read HalfWay.read nofun

/-- No call throws an `AlreadyFinishedStreamException`. -/
theorem call_throws {X : Exchange} {r : PacketReceiverImpl} {call : Call}
    (h : Following X r) (hcall : Exchanged X r call) :
    (r.call call).Throws (·.isAlreadyFinished = false) := by
  cases call with
  | pick now packet =>
    have hends := h.pick now hcall.1 hcall.2
    show (r.pick now (TCPPacketImpl packet)).Throws _
    cases ho : r.pick now (TCPPacketImpl packet) with
    | returned r' => trivial
    | thrown e r' =>
      rw [ho] at hends
      exact hends.1
  | poll => trivial
  | read ref x => trivial
  | readInto ref x bLength off len => trivial

/-- In every run over packets of an exchange, in any order and with any of
them missing or repeated, the state of every active connection tells how
many streams are finished, and no call throws an
`AlreadyFinishedStreamException`. -/
theorem states_agree (filter : ConnectionFilter) (X : Exchange) (calls : List Call)
    (hcalls : Run.Along PacketReceiverImpl.step (Exchanged X)
      (PacketReceiverImpl.create filter) calls) :
    Run.Along PacketReceiverImpl.step
        (fun r call => (r.call call).Throws (·.isAlreadyFinished = false))
        (PacketReceiverImpl.create filter) calls ∧
      Run.Throughout PacketReceiverImpl.step
        (fun r => ∀ key ref c, r.activeConnections.get key = some ref → r.deref ref = some c →
          Agrees c) (PacketReceiverImpl.create filter) calls := by
  have hfirst : Following X (PacketReceiverImpl.create filter) :=
    ⟨PacketReceiverImpl.wellFormed_create filter, PacketReceiverImpl.tables_create _ _ filter⟩
  constructor
  · exact Run.along_of_invariant (I := Following X) (C := Exchanged X)
      (fun r call h hcall => ⟨call_throws h hcall, following_step h hcall⟩) hfirst hcalls
  · refine Run.Throughout.mono ?_ (Run.throughout (I := Following X) (C := Exchanged X)
      (fun r call h hcall => following_step h hcall) hfirst hcalls)
    intro r h key ref c hget hc
    exact agrees_iff.mpr (h.tables.active hget hc).inPhase.phase

/-- Two bytes and a FIN of the client, the FIN ahead of the bytes, and a FIN of
the server; the first byte comes once more behind everything. -/
theorem states_agree_reordered :
    let client := InetAddress.inet4 10 0 0 1
    let server := InetAddress.inet4 10 0 0 2
    let up (sequence ackNum : Nat) (ack syn fin : Bool) (data : List UInt8) : JpcapPacket :=
      ⟨client, server, 50000, 80, sequence, ackNum, ack, false, syn, fin, data, 0⟩
    let down (sequence ackNum : Nat) (syn fin : Bool) : JpcapPacket :=
      ⟨server, client, 80, 50000, sequence, ackNum, true, false, syn, fin, [], 0⟩
    let calls : List Call := [.pick 0 (up 100 0 false true false []),
      .pick 1 (down 500 101 true false), .pick 2 (up 101 501 true false false []),
      .pick 3 (up 103 501 true false true []), .pick 4 (up 102 501 true false false [2]),
      .pick 5 (up 101 501 true false false [1]), .pick 6 (down 501 101 false true),
      .pick 7 (up 101 501 true false false [1])]
    Run.Along PacketReceiverImpl.step
        (fun r call => (r.call call).Throws (·.isAlreadyFinished = false))
        (PacketReceiverImpl.create {}) calls ∧
      Run.Throughout PacketReceiverImpl.step
        (fun r => ∀ key ref c, r.activeConnections.get key = some ref → r.deref ref = some c →
          Agrees c) (PacketReceiverImpl.create {}) calls := by
  intro client server up down calls
  let X : Exchange := fun d => if d.clientPort = 50000 then ⟨100, some 103⟩ else ⟨500, some 501⟩
  exact states_agree {} X calls (by decide +kernel)

/-- Two connections that `equals` takes for one: the FIN of the second one's
client finishes the stream of the first one's server.  Then the server's own
FIN leads to `LastAck` while the client's stream is open, and its payload is
refused.  And a SYN with payload whose acknowledgement field is set lets a
FIN be handled in `SynSent`. -/
theorem states_disagree :
    let client := InetAddress.inet4 10 0 0 1
    let server := InetAddress.inet4 10 0 0 2
    let d : ConnectionDetail := ⟨client, server, 50001, 8080⟩
    let X (last : Nat) : Exchange := fun d =>
      if d.clientPort = 50001 then ⟨100, some 102⟩
      else if d.clientPort = 8080 then ⟨500, some last⟩
      else if d.clientPort = 50000 then ⟨400, some 501⟩
      else ⟨100, none⟩
    let up (sequence ackNum : Nat) (ack syn fin : Bool) (data : List UInt8) : JpcapPacket :=
      ⟨client, server, 50001, 8080, sequence, ackNum, ack, false, syn, fin, data, 0⟩
    let down (sequence ackNum : Nat) (syn fin : Bool) (data : List UInt8) : JpcapPacket :=
      ⟨server, client, 8080, 50001, sequence, ackNum, true, false, syn, fin, data, 0⟩
    let foreign : JpcapPacket :=
      ⟨client, server, 50000, 8081, 501, 101, true, false, false, true, [], 0⟩
    let opening := [up 100 0 false true false [], down 500 101 true false [],
      up 101 501 true false false [], foreign]
    let after (packets : List JpcapPacket) : PacketReceiverImpl :=
      Run.after PacketReceiverImpl.step (PacketReceiverImpl.create {}) (packets.map (.pick 0))
    let disagrees (X : Exchange) (packets : List JpcapPacket) : Prop :=
      (∀ p ∈ packets, Consistent X p) ∧
        Run.Along PacketReceiverImpl.step (fun r call => (r.call call).isReturned = true)
          (PacketReceiverImpl.create {}) (packets.map (.pick 0)) ∧
        (after packets).activeConnections.get d = some 0 ∧
        ∃ c ∈ (after packets).deref 0, ¬ Agrees c
    disagrees (X 502) (opening ++ [down 502 101 false true []]) ∧
      ((∀ p ∈ opening ++ [down 502 101 false false [7]], Consistent (X 503) p) ∧
        ¬ ((after opening).pick 0 (TCPPacketImpl (down 502 101 false false [7]))).Throws
          (·.isAlreadyFinished = false)) ∧
      disagrees (X 502) [up 100 501 false true false [1], up 101 501 true false true [1]] := by
  decide +kernel

end StateFlags

end ConnectionSniffer
