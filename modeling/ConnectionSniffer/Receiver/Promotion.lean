import ConnectionSniffer.Receiver.OldPackets
import ConnectionSniffer.Receiver.Waiting

/-!
# What a promotion loses

A half-way connection is promoted by a data packet that answers a buffered
one of the other side: it acknowledges the end of that packet.  The
promotion sets the other side's counter to this end, and from then on the
packet that was answered starts before its sender's counter.  It is the
evidence for the connection, and it is old.

`Past` is the invariant of the drain that follows: counters never go back,
so that no packet from before the end is handled any more.
-/

namespace ConnectionSniffer

namespace Promotion

open OldPackets (Moving AtEnd Delivered)
open Waiting (Orderly Candidate Waits)

/-- `packet` promotes the half-way connection `c` behind `ref`, as it
answers `p`, which the connection has in a buffer. -/
structure Promotes (r : PacketReceiverImpl) (packet : JpcapPacket) (ref : Ref)
    (c : TCPConnectionImpl) (p : TCPPacket) : Prop where
  notSyn : (TCPPacketImpl packet).isHandsShake1Packet = false
  inactive : r.activeConnections.get packet.connectionDetail = none
  data : (TCPPacketImpl packet).isContainsData = true
  halfWay : r.halfWayConnections.get packet.connectionDetail = some ref
  deref : r.deref ref = some c
  buffered : p ∈ c.packetsBuffer.get (packet.detected c.connectionDetail).side.other
  answers : PacketReceiverImpl.isPreviousAnotherDirectionPacket
    (packet.detected c.connectionDetail) p = true

/-- What a promotion is for: the payload of the packet `t` that was picked
is in the stream of its side, and so is that of the packet `p` that it
answers. -/
structure ExchangeKept (t p : TCPPacket) (c' : TCPConnectionImpl) : Prop where
  previous : Delivered c' p
  current : Delivered c' t

instance (t p : TCPPacket) (c' : TCPConnectionImpl) : Decidable (ExchangeKept t p c') :=
  decidable_of_iff (Delivered c' p ∧ Delivered c' t) ⟨fun h => ⟨h.1, h.2⟩, fun h => ⟨h.1, h.2⟩⟩

/-! ## Half-way connections -/

/-- A half-way connection has handled nothing, and what it has buffered is
data. -/
structure Unheard (c : TCPConnectionImpl) : Prop extends Candidate c where
  handled : c.handled = []
  appended : ∀ x, (c.inputStream.get x).appended = []
  isOpen : ∀ x, (c.inputStream.get x).isFinished = false
  data : ∀ x, ∀ p ∈ c.packetsBuffer.get x, p.isContainsData = true

section HalfWay

variable {now : Date} {p : TCPPacket}

theorem unheard_halfWayConnection (hfresh : p.consumed = false)
    (hsyn : p.isHandsShake1Packet = false) (hdata : p.isContainsData = true) :
    Unheard (PacketReceiverImpl.halfWayConnection now p) where
  toCandidate := (Waiting.pickInvariant now hfresh).candidate hsyn hdata
  handled := rfl
  appended := by
    intro x
    cases x <;> rfl
  isOpen := by
    intro x
    cases x <;> rfl
  data := by
    intro x q hq
    cases x with
    | client =>
      obtain rfl := List.mem_singleton.mp hq
      exact hdata
    | server => exact absurd hq (by simp [PacketReceiverImpl.halfWayConnection])

theorem unheard_buffer {c : TCPConnectionImpl} (h : Unheard c)
    (hkey : (c.connectionDetail == p.connectionDetail) = true) (hfresh : p.consumed = false)
    (hdata : p.isContainsData = true) :
    (PacketReceiverImpl.bufferPacket (p.detectPacketFlowDirection c.connectionDetail) c).Sat
      Unheard Unheard := by
  refine PacketReceiverImpl.bufferPacket_sat h ?_
  exact
    { state := h.state
      waits := Waiting.waits_add h.waits (Waiting.waits_detect hkey hfresh)
      handled := h.handled
      appended := h.appended
      isOpen := h.isOpen
      data := BySide.forall_set
        (P := fun _ (l : List TCPPacket) => ∀ q ∈ l, q.isContainsData = true)
        (PacketReceiverImpl.forall_mem_add h.data hdata) (h.data _) }

/-- Active connections are orderly, half-way ones are unheard. -/
theorem pickInvariant (now : Date) (hfresh : p.consumed = false) :
    PacketReceiverImpl.PickInvariant now p Orderly Unheard Orderly where
  thrown := fun _ h => h
  opened := (Waiting.pickInvariant now hfresh).opened
  candidate := unheard_halfWayConnection hfresh
  buffered := fun h hkey _ hdata => unheard_buffer h hkey hfresh hdata
  promoted := fun h => (Waiting.pickInvariant now hfresh).promoted h.toCandidate
  answered := (Waiting.pickInvariant now hfresh).answered
  processed := (Waiting.pickInvariant now hfresh).processed

theorem Unheard.read {c c' : TCPConnectionImpl} (hread : PacketReceiverImpl.SameButRead c c')
    (h : Unheard c) : Unheard c' := by
  obtain ⟨streams, rfl, hsame, -⟩ := hread
  exact
    { state := h.state
      waits := h.waits
      handled := h.handled
      appended := fun x => (hsame.appended x).trans (h.appended x)
      isOpen := fun x => (hsame.isFinished x).trans (h.isOpen x)
      data := h.data }

/-- The receiver is well-formed, and its half-way connections are
unheard. -/
structure Ready (r : PacketReceiverImpl) : Prop where
  wellFormed : PacketReceiverImpl.WellFormed r
  tables : PacketReceiverImpl.Tables Orderly Unheard r

theorem ready_create (filter : ConnectionFilter) : Ready (PacketReceiverImpl.create filter) :=
  ⟨PacketReceiverImpl.wellFormed_create filter, PacketReceiverImpl.tables_create _ _ filter⟩

theorem ready_step {r : PacketReceiverImpl} (h : Ready r) (call : Call) : Ready (r.step call) := by
  refine ⟨PacketReceiverImpl.step_wellFormed h.wellFormed call, ?_⟩
  cases call with
  | pick now packet =>
    have hpick := pickInvariant (p := TCPPacketImpl packet) now rfl
    exact (hpick.pick_tables h.wellFormed h.tables).state
  | _ =>
    refine h.tables.step_other ?_ Unheard.read nofun
    intro c c' ⟨_, hread, _⟩ hc
    subst hread
    exact ⟨hc.state, hc.waits⟩

theorem ready_of_run (filter : ConnectionFilter) (calls : List Call) :
    Ready (Run.after PacketReceiverImpl.step (PacketReceiverImpl.create filter) calls) :=
  Run.invariant_always (I := Ready) (fun _ call h => ready_step h call) calls
    (ready_create filter)

end HalfWay

/-! ## Counters never go back -/

section Deliver

variable {now : Date} {p : TCPPacket} {c c' c'' : TCPConnectionImpl}

theorem moving_mono {ends ends' : Nat → Prop} {bytes : List UInt8}
    (h : Moving p ends bytes c c') (hends : ∀ k, ends k → ends' k) : Moving p ends' bytes c c' :=
  ⟨hends _ h.own, h.other, h.synSent, h.synReceived, h.appended, h.other_appended⟩

/-- A handler that moves the counter of the packet's sender behind the
payload before the payload is appended. -/
theorem moving_update (h : Moving p (AtEnd p) [] c c')
    (hcounter : c''.counter = c'.counter.update p.side p) (hsent : c''.state ≠ some .synSent)
    (hreceived : c''.state ≠ some .synReceived)
    (happended : ∀ x, (c''.inputStream.get x).appended = (c'.inputStream.get x).appended) :
    Moving p (AtEnd p) [] c c'' where
  own := by
    rw [hcounter, SequenceCounter.get_update, updateCounter_seq]
    exact Or.inr rfl
  other := by
    rw [hcounter, SequenceCounter.get_other_update]
    exact h.other.imp_right fun ⟨hstate, _, hseq⟩ => ⟨hstate, hreceived, hseq⟩
  synSent := hsent
  synReceived := fun h' => absurd h' hreceived
  appended := (happended _).trans h.appended
  other_appended := (happended _).trans h.other_appended

/-- Once the handshake is over, an ACK moves at most the counter of its
sender. -/
theorem moving_acknowledged (h : Moving p (AtEnd p) [] c c')
    (hreceived : c.state ≠ some .synReceived) :
    (c'.processAckPacket p).Sat (Moving p (AtEnd p) [] c) (Moving p (AtEnd p) [] c) := by
  unfold TCPConnectionImpl.processAckPacket
  split
  · exact h
  · rename_i hstate
    exact absurd (h.synReceived hstate) hreceived
  · exact moving_update h rfl (by simp [TCPConnectionImpl.processFinishWait1AckPacket])
      (by simp [TCPConnectionImpl.processFinishWait1AckPacket]) fun _ => rfl
  · exact moving_update h rfl (by simp [TCPConnectionImpl.processLastAckPacket])
      (by simp [TCPConnectionImpl.processLastAckPacket]) fun _ => rfl
  · exact h

/-- Once the handshake is over, a packet that starts at its sender's counter
takes this counter forward, the other one stays, and what is appended is
the payload; after a throw, nothing. -/
theorem deliver_forward (now : Date) (hseq : (c.counter.get p.side).seq = p.sequence)
    (hsent : c.state ≠ some .synSent) (hreceived : c.state ≠ some .synReceived) (n : Nat) :
    (Delivery.deliver now p ⟨c, n⟩).Leaves (Moving p (p.sequence ≤ ·) p.data c)
      (Moving p (p.sequence ≤ ·) [] c) := by
  have hstill : Moving p (AtEnd p) [] c c :=
    OldPackets.Still.moving ⟨fun _ => rfl, rfl, fun _ => rfl⟩ hseq hsent
  have hforward : ∀ c', Moving p (AtEnd p) [] c c' → Moving p (p.sequence ≤ ·) [] c c' := by
    intro c' h
    refine moving_mono h fun k hk => ?_
    rcases hk with rfl | rfl <;> omega
  refine Delivery.deliver_leaves (R := Moving p (AtEnd p) [] c) (A := Moving p (AtEnd p) [] c)
    (D := Moving p (· = p.sequence + p.data.length) p.data c) ?_ ?_ ?_ ?_ ?_ ?_
  · split
    · exact moving_update hstill (TCPConnectionImpl.processRstPacket_counter now p c) hsent
        hreceived fun x => (TCPConnectionImpl.processRstPacket_streams now p c x).1
    · exact hstill
  · intro c' h _
    exact (moving_acknowledged h hreceived).mono (fun _ h' => h') hforward
  · intro c' h _
    exact h
  · intro c' h _
    refine (TCPConnectionImpl.processDataPacket_sat now p c').mono ?_ ?_
    · intro c'' hd
      refine ⟨?_, ?_, hd.state ▸ h.synSent, hd.state ▸ h.synReceived, ?_, ?_⟩
      · rw [hd.counter, SequenceCounter.get_update, updateCounter_seq]
      · rw [hd.counter, SequenceCounter.get_other_update, hd.state]
        exact h.other
      · rw [hd.appended, h.appended, List.append_nil]
      · rw [hd.other_appended, h.other_appended]
    · intro c'' hd
      refine hforward c'' ⟨hd.counter ▸ h.own, ?_, hd.state ▸ h.synSent, hd.state ▸ h.synReceived,
        (hd.sameBytes.appended _).trans h.appended,
        (hd.sameBytes.appended _).trans h.other_appended⟩
      rw [hd.counter, hd.state]
      exact h.other
  · intro c' h hdata
    exact OldPackets.moving_of_noData h hdata
  · intro c' h
    cases hfin : p.fin with
    | true =>
      have hm : Moving p (p.sequence ≤ ·) p.data c (c'.processFinishPacket now p) :=
        moving_mono (OldPackets.moving_processFinishPacket now h) fun k hk => by omega
      exact ⟨hm.own, hm.other, hm.synSent, hm.synReceived, hm.appended, hm.other_appended⟩
    | false =>
      have hm : Moving p (p.sequence ≤ ·) p.data c c' := moving_mono h fun k hk => by omega
      exact ⟨hm.own, hm.other, hm.synSent, hm.synReceived, hm.appended, hm.other_appended⟩

end Deliver

/-! ## The drain after the promotion -/

section Drain

variable {now : Date} {x : Side} {n : Nat} {c c' : TCPConnectionImpl} {p : TCPPacket}

/-- The counter of side `x` has passed `n`, and nothing of side `x` that
starts before `n` has been handled. -/
structure Past (x : Side) (n : Nat) (c : TCPConnectionImpl) : Prop where
  waits : ∀ y, ∀ q ∈ c.packetsBuffer.get y, Waits c.connectionDetail y q
  synSent : c.state ≠ some .synSent
  synReceived : c.state ≠ some .synReceived
  counter : n ≤ (c.counter.get x).seq
  handled : ∀ e ∈ c.handled, e.2.side = x → n ≤ e.2.sequence
  payloads : ∀ y, (c.inputStream.get y).appended = c.payloads y

/-- Counters that move forward stay past `n`. -/
theorem Past.counter_of_moving (h : Past x n c) {bytes : List UInt8}
    (hseq : (c.counter.get p.side).seq = p.sequence)
    (hmoving : Moving p (p.sequence ≤ ·) bytes c c') : n ≤ (c'.counter.get x).seq := by
  have hcounter := h.counter
  rcases Side.eq_or_eq_other p.side x with rfl | rfl
  · have hown := hmoving.own
    omega
  · rcases hmoving.other with hother | ⟨hstate, -, -⟩
    · exact hother ▸ hcounter
    · exact absurd hstate h.synReceived

theorem Past.deliver (h : Past x n c) {y : Side} (hp : Waits c.connectionDetail y p)
    (hcan : c.isCanProcessPacket p = .ok true) (m : Nat) :
    (Delivery.deliver now p ⟨c, m⟩).Leaves (Past x n) (Past x n) := by
  have hseq := TCPConnectionImpl.sequence_of_isCanProcessPacket hp.direction hcan
  have hboth := (deliver_forward now hseq h.synSent h.synReceived m).and
    (Delivery.deliver_frame now p c m)
  have hstate : ∀ {c' bytes}, Moving p (p.sequence ≤ ·) bytes c c' →
      c'.state ≠ some .synReceived :=
    fun hmoving hreceived => h.synReceived (hmoving.synReceived hreceived)
  refine Outcome.Sat.mono hboth ?_ ?_
  · rintro t ⟨hmoving, hframe⟩
    obtain ⟨hown, hother⟩ := OldPackets.payloads_record hframe.handled
    refine ⟨?_, hmoving.synSent, hstate hmoving, h.counter_of_moving hseq hmoving, ?_, ?_⟩
    · rw [hframe.packetsBuffer, hframe.connectionDetail]
      exact h.waits
    · intro e he hside
      rw [hframe.handled] at he
      rcases List.mem_append.mp he with hold | hnew
      · exact h.handled e hold hside
      · obtain rfl := List.mem_singleton.mp hnew
        obtain rfl : p.side = x := hside
        exact h.counter.trans_eq hseq
    · refine BySide.forall_side p.side ?_ ?_
      · rw [hmoving.appended, h.payloads, hown]
      · rw [hmoving.other_appended, h.payloads, hother]
  · rintro t ⟨hmoving, hframe⟩
    refine ⟨?_, hmoving.synSent, hstate hmoving, h.counter_of_moving hseq hmoving, ?_, ?_⟩
    · rw [hframe.packetsBuffer, hframe.connectionDetail]
      exact h.waits
    · rw [hframe.handled]
      exact h.handled
    · unfold TCPConnectionImpl.payloads
      rw [hframe.handled]
      refine BySide.forall_side p.side ?_ ?_
      · rw [hmoving.appended, List.append_nil]
        exact h.payloads _
      · rw [hmoving.other_appended]
        exact h.payloads _

theorem Past.setBuffer (h : Past x n c) (y : Side) {packets : List TCPPacket}
    (hpackets : ∀ q ∈ packets, Waits c.connectionDetail y q) :
    Past x n (c.setBuffer y packets) :=
  ⟨Waiting.waits_setBuffer h.waits y hpackets, h.synSent, h.synReceived, h.counter, h.handled,
    h.payloads⟩

theorem past_drain (now : Date) (x : Side) (n : Nat) :
    Delivery.DrainInvariant now (Past x n) (Past x n) where
  thrown := fun _ h => h
  drop := by
    intro c y p rest h hb _
    exact h.setBuffer y (TCPConnectionImpl.buffer_cons h.waits hb).2
  take := by
    intro c m y p rest h hb hcan
    have hrest : Past x n (c.setBuffer y rest) :=
      h.setBuffer y (TCPConnectionImpl.buffer_cons h.waits hb).2
    exact hrest.deliver (TCPConnectionImpl.buffer_cons h.waits hb).1 (by simpa using hcan) m
  updated := fun h => ⟨h.waits, h.synSent, h.synReceived, h.counter, h.handled, h.payloads⟩

/-- The promotion starts past the packet that is answered, and the drain
stays there. -/
theorem past_promote (now : Date) (h : Unheard c) (t : TCPPacket) :
    (PacketReceiverImpl.promote now t c).Leaves (Past t.side.other t.ackNum)
      (Past t.side.other t.ackNum) := by
  have hcounter : ((PacketReceiverImpl.primed t c).counter.get t.side.other).seq = t.ackNum := by
    simp [PacketReceiverImpl.primed]
  refine PacketReceiverImpl.promote_leaves (past_drain now _ _) ?_
  have hboth := (TCPConnectionImpl.processDataPacket_sat now t
    (PacketReceiverImpl.primed t c)).and (Delivery.processDataPacket_frame now t _)
  refine hboth.mono ?_ ?_
  · rintro c' ⟨hd, hframe⟩
    have hhandled : c'.handled = [] := hframe.handled.trans h.handled
    have hbuffer : c'.packetsBuffer = c.packetsBuffer := hframe.packetsBuffer
    have hdetail : c'.connectionDetail = c.connectionDetail := hframe.connectionDetail
    have hrecord : (c'.record (some .established) t).handled =
        c'.handled ++ [(some .established, t)] := rfl
    obtain ⟨hown, hother⟩ := OldPackets.payloads_record hrecord
    have hstart : ∀ y, c'.payloads y = [] := by
      intro y
      simp [TCPConnectionImpl.payloads, hhandled]
    refine ⟨?_, ?_, ?_, ?_, ?_, ?_⟩
    · show ∀ y, ∀ q ∈ c'.packetsBuffer.get y, Waits c'.connectionDetail y q
      rw [hbuffer, hdetail]
      exact h.waits
    · simp [TCPConnectionImpl.record, hd.state, PacketReceiverImpl.primed]
    · simp [TCPConnectionImpl.record, hd.state, PacketReceiverImpl.primed]
    · show t.ackNum ≤ (c'.counter.get t.side.other).seq
      rw [hd.counter, SequenceCounter.get_other_update, hcounter]
    · intro e he hside
      obtain rfl : e = (some .established, t) := by
        simpa [TCPConnectionImpl.record, hhandled] using he
      exact absurd hside (by simp)
    · refine BySide.forall_side t.side ?_ ?_
      · rw [hown, hstart, List.nil_append]
        exact hd.appended.trans (by simp [PacketReceiverImpl.primed, h.appended])
      · rw [hother, hstart]
        exact hd.other_appended.trans (h.appended _)
  · rintro c' ⟨hd, hframe⟩
    have hhandled : c'.handled = [] := hframe.handled.trans h.handled
    have hbuffer : c'.packetsBuffer = c.packetsBuffer := hframe.packetsBuffer
    have hdetail : c'.connectionDetail = c.connectionDetail := hframe.connectionDetail
    refine ⟨?_, ?_, ?_, ?_, ?_, ?_⟩
    · rw [hbuffer, hdetail]
      exact h.waits
    · simp [hd.state, PacketReceiverImpl.primed]
    · simp [hd.state, PacketReceiverImpl.primed]
    · rw [hd.counter, hcounter]
    · simp [hhandled]
    · intro y
      rw [show c'.payloads y = [] by simp [TCPConnectionImpl.payloads, hhandled]]
      exact (hd.sameBytes.appended y).trans (h.appended y)

end Drain

/-! ## The packet that is answered -/

/-- What `pick` makes of the connection that it promotes. -/
theorem deref_promoted {r : PacketReceiverImpl} {packet : JpcapPacket} {ref : Ref}
    {c : TCPConnectionImpl} {p : TCPPacket} (now : Date) (h : Promotes r packet ref c p) :
    (r.step (.pick now packet)).deref ref =
      some (PacketReceiverImpl.promote now (packet.detected c.connectionDetail)
        c).state.connection := by
  have hdone : PacketReceiverImpl.completesExchange (packet.detected c.connectionDetail) c =
      true := List.any_eq_true.mpr ⟨p, h.buffered, h.answers⟩
  have hpicked : PacketReceiverImpl.Picked now (TCPPacketImpl packet) r _ :=
    .promoted h.notSyn h.inactive h.data h.halfWay h.deref hdone
  show (r.pick now (TCPPacketImpl packet)).state.deref ref = _
  rw [PacketReceiverImpl.picked_iff.mp hpicked, Outcome.state_map,
    PacketReceiverImpl.deref_commit]
  exact PacketReceiverImpl.deref_store_self h.deref

/-- In every run, a packet that promotes a half-way connection leaves the
streams with the handled payloads, and not one byte of the packet that it
answers among them, although that packet has data. -/
theorem previous_lost (filter : ConnectionFilter) (calls : List Call) (now : Date)
    {packet : JpcapPacket} {ref : Ref} {c : TCPConnectionImpl} {p : TCPPacket}
    (h : Promotes (Run.after PacketReceiverImpl.step (PacketReceiverImpl.create filter) calls)
      packet ref c p) :
    ∃ c', ((Run.after PacketReceiverImpl.step (PacketReceiverImpl.create filter) calls).step
        (.pick now packet)).deref ref = some c' ∧
      (∀ x, (c'.inputStream.get x).appended = c'.payloads x) ∧
      p.data ≠ [] ∧ (∀ i < p.data.length, ¬ c'.Covers p.side (p.sequence + i)) ∧
      ¬ ExchangeKept (packet.detected c.connectionDetail) p c' := by
  have hready := ready_of_run filter calls
  have hunheard := hready.tables.halfWay h.halfWay h.deref
  have hpast := (past_promote now hunheard (packet.detected c.connectionDetail)).state
  have hside := (hunheard.waits _ p h.buffered).side
  have hdata : p.data ≠ [] := by
    simpa [TCPPacket.isContainsData] using hunheard.data _ p h.buffered
  have hend : (packet.detected c.connectionDetail).ackNum = p.sequence + p.data.length := by
    have hanswers := h.answers
    simp only [PacketReceiverImpl.isPreviousAnotherDirectionPacket, Bool.and_eq_true,
      beq_iff_eq] at hanswers
    exact hanswers.1
  have hlost : ∀ i < p.data.length, ¬ TCPConnectionImpl.Covers
      (PacketReceiverImpl.promote now (packet.detected c.connectionDetail) c).state.connection
      p.side (p.sequence + i) := by
    rintro i hi ⟨e, he, heside, hle, -⟩
    have hlate := hpast.handled e he (heside.trans hside)
    omega
  refine ⟨_, deref_promoted now h, hpast.payloads, hdata, hlost, fun hkept => ?_⟩
  have hpos := List.length_pos_of_ne_nil hdata
  exact hlost 0 hpos (hkept.previous 0 hpos)

/-- A request of two bytes and its answer of one. -/
theorem previous_lost_request :
    let client := InetAddress.inet4 10 0 0 1
    let server := InetAddress.inet4 10 0 0 2
    let request : JpcapPacket :=
      ⟨client, server, 50000, 80, 100, 500, true, false, false, false, [1, 2], 0⟩
    let answer : JpcapPacket :=
      ⟨server, client, 80, 50000, 500, 102, true, false, false, false, [3], 0⟩
    let r := PacketReceiverImpl.step (PacketReceiverImpl.create {}) (.pick 0 request)
    ∃ c, r.deref 0 = some c ∧
      ∃ c', (r.step (.pick 1 answer)).deref 0 = some c' ∧
        ¬ c'.Covers .client 100 ∧ ¬ c'.Covers .client 101 := by
  intro client server request answer r
  obtain ⟨c, hc, hdetail, hbuffer⟩ : ∃ c, r.deref 0 = some c ∧
      c.connectionDetail = ⟨client, server, 50000, 80⟩ ∧
      c.packetsBuffer.client = [request.detected ⟨client, server, 50000, 80⟩] :=
    ⟨_, rfl, rfl, rfl⟩
  have hpromotes : Promotes r answer 0 c (request.detected ⟨client, server, 50000, 80⟩) := by
    refine ⟨by decide, by decide, by decide, by decide, hc, ?_, ?_⟩
    · rw [hdetail]
      show _ ∈ c.packetsBuffer.client
      simp [hbuffer]
    · rw [hdetail]
      decide
  obtain ⟨c', hc', -, -, hlost, -⟩ := previous_lost {} [.pick 0 request] 1 hpromotes
  exact ⟨c, hc, c', hc', hlost 0 (by decide), hlost 1 (by decide)⟩

/-- The request is buffered, its answer promotes the connection, and the
request is thrown away as old: the client's stream stays empty. -/
theorem answered_request_lost :
    let client := InetAddress.inet4 10 0 0 1
    let server := InetAddress.inet4 10 0 0 2
    let d : ConnectionDetail := ⟨client, server, 50000, 80⟩
    let request : JpcapPacket :=
      ⟨client, server, 50000, 80, 100, 500, true, false, false, false, [1, 2], 0⟩
    let answer : JpcapPacket :=
      ⟨server, client, 80, 50000, 500, 102, true, false, false, false, [3], 0⟩
    let r := PacketReceiverImpl.step (PacketReceiverImpl.create {}) (.pick 0 request)
    (∃ c, Promotes r answer 0 c (request.detected d)) ∧
      (∃ lost ∈ r.discards 1 (TCPPacketImpl answer), lost.packet = request.detected d) ∧
      ∃ c' ∈ (r.step (.pick 1 answer)).deref 0,
        ¬ ExchangeKept (answer.detected d) (request.detected d) c' ∧
        (c'.inputStream.get .client).appended = [] ∧
        (c'.inputStream.get .server).appended = [3] := by
  intro client server d request answer r
  refine ⟨?_, by decide, by decide⟩
  exact ⟨_, by decide, by decide, by decide, by decide, rfl, by decide, by decide⟩

end Promotion

end ConnectionSniffer
