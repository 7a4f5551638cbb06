import ConnectionSniffer.Receiver.Coverage
import ConnectionSniffer.Receiver.Discards

/-!
# Old packets

A packet is old if its first byte is before its sender's counter.
`isOldPacket` does not look at the last byte, so that a segment that was
cut anew and reaches beyond the counter is thrown away with bytes that the
stream never got.

`Delivered` says that a packet brought nothing new: each of its bytes was
in a payload that has been appended.  `WhollyOld` is the condition for it,
and `old_delivered_iff` says that it is exact.
-/

namespace ConnectionSniffer

namespace OldPackets

/-- Each byte of the packet has been appended. -/
def Delivered (c : TCPConnectionImpl) (p : TCPPacket) : Prop :=
  ∀ i < p.data.length, c.Covers p.side (p.sequence + i)

instance (c : TCPConnectionImpl) (p : TCPPacket) : Decidable (Delivered c p) :=
  inferInstanceAs (Decidable (∀ i < _, _))

/-- The packet ends where the counter of its sender is, or before; and the
connection has seen its sender's bytes from the SYN on, or has handled
payload that starts no later than the packet. -/
def WhollyOld (c : TCPConnectionImpl) (p : TCPPacket) : Prop :=
  p.sequence + p.data.length ≤ (c.counter.get p.side).seq ∧
    (c.openedBySyn ∨ ∃ e ∈ c.handled, e.2.side = p.side ∧ e.2.isContainsData = true ∧
      e.2.sequence ≤ p.sequence)

instance (c : TCPConnectionImpl) (p : TCPPacket) : Decidable (WhollyOld c p) :=
  inferInstanceAs (Decidable (_ ∧ (_ ∨ ∃ e ∈ c.handled, _)))

/-! ## Connections of the conversation -/

section Connections

open Reassembly (Belongs)

variable {T : Conversation} {d : ConnectionDetail} {syn : Prop} {now : Date}

/-- A packet of the conversation, cut from the bytes of its side. -/
structure Cut (T : Conversation) (d : ConnectionDetail) (p : TCPPacket) : Prop
    extends Belongs T d p where
  segment : ((T.sentBy d).get p.side).Segment p.toJpcapPacket

/-- What the drain keeps of a connection with detail `d`. -/
structure Tracked (T : Conversation) (d : ConnectionDetail) (syn : Prop)
    (c : TCPConnectionImpl) : Prop where
  detail : c.connectionDetail = d
  opened : c.openedBySyn ↔ syn
  tracks : Tracks (T.sentBy d) syn c
  buffered : ∀ x, ∀ p ∈ c.packetsBuffer.get x, Cut T d p

theorem Tracked.setBuffer {c : TCPConnectionImpl} (h : Tracked T d syn c) (x : Side)
    {packets : List TCPPacket} (hpackets : ∀ p ∈ packets, Cut T d p) :
    Tracked T d syn (c.setBuffer x packets) where
  detail := h.detail
  opened := h.opened
  tracks := ⟨h.tracks.synSent, h.tracks.synReceived, h.tracks.covers, h.tracks.below,
    h.tracks.payloads⟩
  buffered := BySide.forall_set (P := fun _ packets => ∀ p ∈ packets, Cut T d p) hpackets
    (h.buffered x.other)

/-- Handling a packet that can be processed keeps everything, also where a
check of the handshake throws. -/
theorem Tracked.deliver {c : TCPConnectionImpl} (h : Tracked T d syn c) {p : TCPPacket}
    (hp : Cut T d p) (hcan : c.isCanProcessPacket p = .ok true) (n : Nat) :
    (Delivery.deliver now p ⟨c, n⟩).Ends (fun t => Tracked T d syn t.connection)
      (fun e t => e.isRefusal = false → Tracked T d syn t.connection) := by
  have hseq := TCPConnectionImpl.sequence_of_isCanProcessPacket
    (by rw [h.detail]; exact hp.direction) hcan
  obtain ⟨hsent, hclient⟩ := h.tracks.handshake hp.carries hseq
  refine ((deliver_moving now hseq hsent hclient hp.segment.2 n).and
    (Delivery.deliver_frame now p c n)).mono ?_ ?_
  · intro t ⟨hmoving, hrec⟩
    refine ⟨hrec.connectionDetail.trans h.detail, ?_,
      h.tracks.of_moving hp.carries hp.segment hseq hmoving hrec.handled, ?_⟩
    · exact (Reassembly.openedBySyn_record hp.notSyn hrec.handled).trans h.opened
    · rw [hrec.packetsBuffer]
      exact h.buffered
  · rintro e t ⟨⟨-, hstill⟩, hframe⟩ hrefusal
    refine ⟨hframe.connectionDetail.trans h.detail, ?_,
      h.tracks.of_still (hstill hrefusal) hframe.handled, ?_⟩
    · unfold TCPConnectionImpl.openedBySyn
      rw [hframe.handled]
      exact h.opened
    · rw [hframe.packetsBuffer]
      exact h.buffered

theorem tracked_rule (T : Conversation) (d : ConnectionDetail) (syn : Prop) (now : Date) :
    Delivery.DeliveryRule now (fun t => Tracked T d syn t.connection)
      (fun e t => e.isRefusal = false → Tracked T d syn t.connection) where
  thrown := fun h _ _ _ => h
  drop := by
    intro c n x p rest h hb _
    exact h.setBuffer x (TCPConnectionImpl.buffer_cons h.buffered hb).2
  take := by
    intro c n x p rest h hb hcan
    have hrest := h.setBuffer x (TCPConnectionImpl.buffer_cons h.buffered hb).2
    exact hrest.deliver (TCPConnectionImpl.buffer_cons h.buffered hb).1 (by simpa using hcan) n
  updated := fun h => ⟨h.detail, h.opened, ⟨h.tracks.synSent, h.tracks.synReceived,
    h.tracks.covers, h.tracks.below, h.tracks.payloads⟩, h.buffered⟩

/-- An active connection of the conversation. -/
structure Active (T : Conversation) (c : TCPConnectionImpl) : Prop where
  detail : c.connectionDetail = T.detail ∨ c.connectionDetail = T.detail.swap
  synDetail : c.openedBySyn → c.connectionDetail = T.detail
  tracked : Tracked T c.connectionDetail c.openedBySyn c

/-- A half-way connection of the conversation. -/
structure HalfWay (T : Conversation) (c : TCPConnectionImpl) : Prop where
  detail : c.connectionDetail = T.detail ∨ c.connectionDetail = T.detail.swap
  fresh : c.handled = []
  empty : ∀ x, (c.inputStream.get x).appended = []
  buffered : ∀ x, ∀ p ∈ c.packetsBuffer.get x, Cut T c.connectionDetail p

theorem Active.of_tracked {c' : TCPConnectionImpl}
    (hdetail : d = T.detail ∨ d = T.detail.swap) (hsyn : syn → d = T.detail)
    (h : Tracked T d syn c') : Active T c' := by
  obtain rfl := h.detail
  obtain rfl : c'.openedBySyn = syn := propext h.opened
  exact ⟨hdetail, hsyn, h⟩

/-- A captured packet, once its direction is detected. -/
theorem cut_detect {p : JpcapPacket} (hp : T.Cuts p)
    (hkey : (p.connectionDetail == T.detail) = true)
    (hsyn : (TCPPacketImpl p).isHandsShake1Packet = false)
    (hsynAck : (TCPPacketImpl p).isHandsShake2Packet = false)
    (hd : d = T.detail ∨ d = T.detail.swap) :
    Cut T d ((TCPPacketImpl p).detectPacketFlowDirection d) := by
  have hends := Reassembly.detail_of_captures hp.1 hkey
  obtain ⟨hclient, hserver⟩ := hp.2 hkey (TCPPacket.syn_eq_false hsyn hsynAck)
  exact ⟨Reassembly.belongs_detect hp.1 hkey hsyn hsynAck hd,
    Reassembly.sentBy_side (P := fun sent => sent.Segment p) (p := TCPPacketImpl p) hd hends
      hclient hserver⟩

/-! ## Picks -/

variable {p : JpcapPacket}

/-- A connection that has handled nothing but one packet without payload. -/
theorem covers_of_single {c : TCPConnectionImpl} {met : Option TCPConnectionState}
    {q : TCPPacket} (hhandled : c.handled = [(met, q)]) (hempty : q.data = []) :
    (∀ x k, ¬ c.Covers x k) ∧ ∀ x, c.payloads x = [] := by
  constructor
  · intro x k hcov
    obtain ⟨e, he, -, hlow, hhigh⟩ := hcov
    rw [hhandled, List.mem_singleton] at he
    rw [he, hempty, List.length_nil] at hhigh
    rw [he] at hlow
    omega
  · intro x
    unfold TCPConnectionImpl.payloads
    rw [hhandled]
    by_cases hx : q.side = x <;> simp [hx, hempty]

theorem active_synConnection (hp : T.Cuts p)
    (hkey : (p.connectionDetail == T.detail) = true)
    (hsyn : (TCPPacketImpl p).isHandsShake1Packet = true) :
    Active T (PacketReceiverImpl.synConnection now (TCPPacketImpl p)) := by
  have hp' := hp.1 hkey
  rw [if_pos (show (p.syn && !p.ack) = true from hsyn)] at hp'
  obtain ⟨hdetail, hseq, hempty⟩ := hp'
  set c := PacketReceiverImpl.synConnection now (TCPPacketImpl p) with hc
  have hcd : c.connectionDetail = T.detail := hdetail
  have hhandled : c.handled = [(none, TCPPacketImpl p)] := rfl
  have hopened : c.openedBySyn := ⟨(none, TCPPacketImpl p), by simp [hhandled], hsyn⟩
  obtain ⟨hcovers, hpayloads⟩ := covers_of_single hhandled hempty
  have hsent : T.sentBy c.connectionDetail = T.sent := by simp [Conversation.sentBy, hcd]
  have hclient : c.counter.client.seq = T.sent.client.isn := by
    have : c.counter.client.seq = p.sequence + p.data.length := updateCounter_seq (TCPPacketImpl p)
    rw [this, hempty, hseq]
    rfl
  have hle : ∀ x, (c.counter.get x).seq ≤ ((T.sentBy c.connectionDetail).get x).isn := by
    rw [hsent]
    intro x
    cases x
    · exact hclient.le
    · exact Nat.zero_le _
  refine ⟨Or.inl hcd, fun _ => hcd, rfl, Iff.rfl, ⟨fun _ => ⟨hopened, hle⟩, ?_, ?_, ?_, ?_⟩, ?_⟩
  · intro h
    exact absurd h (by simp [hc, PacketReceiverImpl.synConnection,
      TCPConnectionImpl.processSyncPacket, TCPConnectionImpl.record])
  · intro x k hlow _ hlt _
    have := hle x
    omega
  · intro x k h
    exact absurd h (hcovers x k)
  · intro x
    rw [hpayloads x]
    cases x <;> rfl
  · intro x q hq
    cases x <;> simp [hc, PacketReceiverImpl.synConnection,
      TCPConnectionImpl.processSyncPacket, TCPConnectionImpl.record, TCPConnectionImpl.create] at hq

theorem halfWay_halfWayConnection (hp : T.Cuts p)
    (hkey : (p.connectionDetail == T.detail) = true)
    (hsyn : (TCPPacketImpl p).isHandsShake1Packet = false)
    (hdata : (TCPPacketImpl p).isContainsData = true) :
    HalfWay T (PacketReceiverImpl.halfWayConnection now (TCPPacketImpl p)) := by
  have hd := Reassembly.detail_of_captures hp.1 hkey
  have hcut := cut_detect hp hkey hsyn
    (Reassembly.isHandsShake2Packet_of_isContainsData hp.1 hkey hdata) hd
  refine ⟨hd, rfl, fun x => by cases x <;> rfl, ?_⟩
  intro x q hq
  cases x
  · obtain rfl := List.mem_singleton.mp hq
    exact hcut
  · exact absurd hq (by simp [PacketReceiverImpl.halfWayConnection])

/-- The SYN/ACK starts the counter of the server, and covers nothing. -/
theorem active_processSyncAckPacket {c : TCPConnectionImpl} (h : Active T c)
    (hp : T.Cuts p) (hkey : (p.connectionDetail == T.detail) = true)
    (hstate : c.state = some .synSent)
    (hsynAck : (TCPPacketImpl p).isHandsShake2Packet = true) :
    (c.processSyncAckPacket ((TCPPacketImpl p).detectPacketFlowDirection c.connectionDetail)).Sat
      (Active T) (Active T) := by
  have hp' := hp.1 hkey
  obtain ⟨hs, ha⟩ : p.syn = true ∧ p.ack = true := by
    simpa [TCPPacket.isHandsShake2Packet, TCPPacketImpl] using hsynAck
  simp only [hs, ha, Bool.not_true, Bool.and_false, Bool.false_eq_true, if_false, if_true] at hp'
  obtain ⟨-, hseq, hempty⟩ := hp'
  have htracks := h.tracked.tracks
  obtain ⟨hopened, hle⟩ := htracks.synSent hstate
  have hsent : T.sentBy c.connectionDetail = T.sent := by
    simp [Conversation.sentBy, h.synDetail hopened]
  rw [hsent] at hle
  unfold TCPConnectionImpl.processSyncAckPacket
  split
  · exact h
  · set q := (TCPPacketImpl p).detectPacketFlowDirection c.connectionDetail with hq
    set c' := TCPConnectionImpl.record { c with
      counter := (c.counter.update .server q).sequenceAddOne .client
      state := some .synReceived } c.state q with hc'
    have hhandled : c'.handled = c.handled ++ [(c.state, q)] := rfl
    have hdata : q.data = [] := hempty
    have hserver : c'.counter.server.seq = T.sent.server.isn := by
      show (updateCounter q).1.seq = _
      rw [updateCounter_seq, hdata]
      exact hseq
    have hclient : c'.counter.client.seq = c.counter.client.seq + 1 := rfl
    have hcovers : ∀ x k, c'.Covers x k ↔ c.Covers x k := by
      intro x k
      rw [covers_record hhandled, hdata, List.length_nil]
      exact or_iff_left (by omega)
    refine Active.of_tracked h.detail h.synDetail
      ⟨rfl, Reassembly.openedBySyn_record ?_ hhandled, ⟨?_, ?_, ?_, ?_, ?_⟩, h.tracked.buffered⟩
    · simp [hq, TCPPacket.isHandsShake1Packet, TCPPacket.detectPacketFlowDirection,
        TCPPacketImpl, ha]
    · intro h'
      simp [hc', TCPConnectionImpl.record] at h'
    · intro _
      rw [hsent]
      exact hserver.le
    · intro x k hlow _ hlt _
      rw [hsent] at hlow
      have := hle x
      cases x
      · simp only [BySide.get_client] at hlow hlt this
        omega
      · simp only [BySide.get_server] at hlow hlt
        omega
    · intro x k hcov
      have hlt := htracks.below x k ((hcovers x k).mp hcov)
      have := hle x
      cases x
      · simp only [BySide.get_client] at hlt ⊢
        omega
      · simp only [BySide.get_server] at hlt this ⊢
        omega
    · obtain ⟨hpay, hpayOther⟩ := payloads_record hhandled
      rw [hdata, List.append_nil] at hpay
      refine BySide.forall_side q.side ?_ ?_
      · rw [hpay]
        exact htracks.payloads _
      · rw [hpayOther]
        exact htracks.payloads _

/-- A packet that completes an exchange is the first to be appended. -/
theorem tracked_promoted {c : TCPConnectionImpl} (h : HalfWay T c) {q : TCPPacket}
    (hq : Cut T c.connectionDetail q) :
    ((PacketReceiverImpl.primed q c).processDataPacket now q).Ends
      (fun c' => Tracked T c.connectionDetail c.openedBySyn (c'.record (some .established) q))
      (fun e c' => e.isRefusal = false → Tracked T c.connectionDetail c.openedBySyn c') := by
  have hnotOpened : ¬ c.openedBySyn := by simp [TCPConnectionImpl.openedBySyn, h.fresh]
  refine (((TCPConnectionImpl.processDataPacket_sat now q _).and
    (Delivery.processDataPacket_frame now q _)).ends
    (TCPConnectionImpl.processDataPacket_throws now q _)).mono ?_ ?_
  · rintro c' ⟨hdata, hframe⟩
    set c'' := c'.record (some .established) q with hc''
    have hfresh : c'.handled = [] := hframe.handled.trans h.fresh
    have hhandled : c''.handled = c'.handled ++ [(some .established, q)] := rfl
    have hempty : ∀ x, c'.payloads x = [] := by simp [TCPConnectionImpl.payloads, hfresh]
    have hcovers : ∀ x k, c''.Covers x k ↔
        (q.side = x ∧ q.sequence ≤ k ∧ k < q.sequence + q.data.length) := by
      intro x k
      rw [covers_record hhandled]
      exact or_iff_right (by simp [TCPConnectionImpl.Covers, hfresh])
    have hseq : (c''.counter.get q.side).seq = q.sequence + q.data.length := by
      show (c'.counter.get q.side).seq = _
      rw [hdata.counter, SequenceCounter.get_update, updateCounter_seq]
    have hstate : c''.state = some .established := hdata.state
    refine ⟨hframe.connectionDetail, ?_, ⟨?_, ?_, ?_, ?_, ?_⟩, ?_⟩
    · refine (Reassembly.openedBySyn_record hq.notSyn hhandled).trans ?_
      unfold TCPConnectionImpl.openedBySyn
      rw [hfresh, h.fresh]
    · intro h'
      simp [hstate] at h'
    · intro h'
      simp [hstate] at h'
    · intro x k _ _ hlt hfrom
      obtain ⟨j, hj, hcov⟩ := hfrom.resolve_left hnotOpened
      obtain ⟨rfl, hge, -⟩ := (hcovers x j).mp hcov
      exact (hcovers _ k).mpr ⟨rfl, by omega, by omega⟩
    · intro x k hcov
      obtain ⟨rfl, -, hlt⟩ := (hcovers x k).mp hcov
      omega
    · obtain ⟨hpay, hpayOther⟩ := payloads_record hhandled
      have hstreams : ∀ x, ((PacketReceiverImpl.primed q c).inputStream.get x).appended = [] :=
        h.empty
      refine BySide.forall_side q.side ?_ ?_
      · rw [hpay, hempty]
        show (c'.inputStream.get q.side).appended = _
        rw [hdata.appended, hstreams]
      · rw [hpayOther, hempty]
        show (c'.inputStream.get q.side.other).appended = _
        rw [hdata.other_appended, hstreams]
    · show ∀ x, ∀ p ∈ c'.packetsBuffer.get x, _
      rw [hframe.packetsBuffer]
      exact h.buffered
  · intro e c' hthrown hrefusal
    rw [hthrown.1.1] at hrefusal
    exact absurd hrefusal (by decide)

theorem HalfWay.buffer {c : TCPConnectionImpl} (h : HalfWay T c) {q : TCPPacket}
    (hq : Cut T c.connectionDetail q) : HalfWay T (c.setBuffer q.side
      (TreeSet.add TCPPacket.compareTo q (c.packetsBuffer.get q.side))) where
  detail := h.detail
  fresh := h.fresh
  empty := h.empty
  buffered := BySide.forall_set (P := fun _ packets => ∀ p ∈ packets, Cut T c.connectionDetail p)
    (PacketReceiverImpl.forall_mem_add h.buffered hq) (h.buffered _)

/-- A packet that is buffered keeps the invariant. -/
theorem Active.buffer {c : TCPConnectionImpl} (h : Active T c) {q : TCPPacket}
    (hq : Cut T c.connectionDetail q) : Tracked T c.connectionDetail c.openedBySyn
      (c.setBuffer q.side (TreeSet.add TCPPacket.compareTo q (c.packetsBuffer.get q.side))) :=
  h.tracked.setBuffer _ (PacketReceiverImpl.forall_mem_add h.tracked.buffered hq)

/-- The active connections of the conversation. -/
def Actives (T : Conversation) (c : TCPConnectionImpl) : Prop :=
  (c.connectionDetail == T.detail) = true → Active T c

/-- The half-way connections of the conversation. -/
def HalfWays (T : Conversation) (c : TCPConnectionImpl) : Prop :=
  (c.connectionDetail == T.detail) = true → HalfWay T c

/-- What is left where no stream has refused a packet of the conversation. -/
def Endures (T : Conversation) (p : JpcapPacket) (e : Throwable) (c : TCPConnectionImpl) : Prop :=
  (c.connectionDetail == T.detail) = true →
    ((p.connectionDetail == T.detail) = true → e.isRefusal = false) → Active T c

/-- A part of `pick` that keeps the endpoints and, on a connection of the
conversation, the invariant. -/
private theorem ends_of_detail {o : Outcome Throwable Delivery} {d : ConnectionDetail}
    (hdetail : o.Leaves (fun c => c.connectionDetail = d) (fun c => c.connectionDetail = d))
    (hkey : (d == p.connectionDetail) = true)
    (h : (d == T.detail) = true → o.Ends (fun t => Active T t.connection)
      (fun e t => e.isRefusal = false → Active T t.connection)) :
    o.Ends (fun t => Actives T t.connection)
      (fun e t => True ∧ Endures T p e t.connection) := by
  by_cases hd : (d == T.detail) = true
  · have hp := BEq.trans (BEq.symm hkey) hd
    exact (h hd).mono (fun _ hA _ => hA) fun _ _ hA => ⟨trivial, fun _ he => hA (he hp)⟩
  · refine (Outcome.ends_const.mpr hdetail).mono ?_ ?_
    · intro t ht hpair
      exact absurd (ht ▸ hpair) hd
    · intro e t ht
      exact ⟨trivial, fun hpair => absurd (ht ▸ hpair) hd⟩

/-- `process` on a packet of the conversation. -/
theorem active_process {c : TCPConnectionImpl} (h : Active T c) {q : TCPPacket}
    (hq : Cut T c.connectionDetail q) :
    (PacketReceiverImpl.process now q c).Ends (fun t => Active T t.connection)
      (fun e t => e.isRefusal = false → Active T t.connection) := by
  have hends := PacketReceiverImpl.process_ends (tracked_rule T _ _ now) (fun _ _ _ => h.tracked)
    (fun _ => h.tracked) (fun hcan => h.tracked.deliver hq hcan 0) (fun _ => h.buffer hq)
  exact hends.mono (fun t ht => Active.of_tracked h.detail h.synDetail ht)
    (fun e t ht he => Active.of_tracked h.detail h.synDetail (ht he))

theorem active_promote {c : TCPConnectionImpl} (h : HalfWay T c) {q : TCPPacket}
    (hq : Cut T c.connectionDetail q) :
    (PacketReceiverImpl.promote now q c).Ends (fun t => Active T t.connection)
      (fun e t => e.isRefusal = false → Active T t.connection) := by
  have hopened : c.openedBySyn → c.connectionDetail = T.detail := by
    simp [TCPConnectionImpl.openedBySyn, h.fresh]
  have hends := PacketReceiverImpl.promote_ends (tracked_rule T _ _ now) (tracked_promoted h hq)
  exact hends.mono (fun t ht => Active.of_tracked h.detail hopened ht)
    (fun e t ht he => Active.of_tracked h.detail hopened (ht he))

theorem pickRule (T : Conversation) (now : Date) (hp : T.Cuts p) :
    PacketReceiverImpl.PickRule now (TCPPacketImpl p)
      (fun c => (c.connectionDetail == p.connectionDetail) = true) (Actives T) (HalfWays T)
      (fun _ => True) (Endures T p) where
  weaken := fun hA hpair _ => hA hpair
  full := trivial
  opened := fun hsyn hkey => active_synConnection hp hkey hsyn
  candidate := fun hsyn hdata hkey => halfWay_halfWayConnection hp hkey hsyn hdata
  buffered := by
    intro c h hpair hsyn hdata _
    refine PacketReceiverImpl.bufferPacket_sat h fun hkey => ?_
    have hkey' := BEq.trans (BEq.symm hpair) hkey
    exact (h hkey).buffer (cut_detect hp hkey' hsyn
      (Reassembly.isHandsShake2Packet_of_isContainsData hp.1 hkey' hdata) (h hkey).detail)
  promoted := by
    intro c h hpair hsyn hdata _
    refine ends_of_detail (PacketReceiverImpl.promote_detail now _ c) hpair fun hkey => ?_
    have hkey' := BEq.trans (BEq.symm hpair) hkey
    exact active_promote (h hkey) (cut_detect hp hkey' hsyn
      (Reassembly.isHandsShake2Packet_of_isContainsData hp.1 hkey' hdata) (h hkey).detail)
  answered := by
    intro c h hpair hignored hsynAck
    have hstate : c.state = some .synSent :=
      PacketReceiverImpl.synSent_of_notIgnored hignored hsynAck
    by_cases hkey : (c.connectionDetail == T.detail) = true
    · have hkey' := BEq.trans (BEq.symm hpair) hkey
      exact (Outcome.ends_const.mpr (active_processSyncAckPacket (h hkey) hp hkey' hstate
        hsynAck)).mono (fun _ hA _ => hA) fun _ _ hA => ⟨trivial, fun _ _ => hA⟩
    · refine (Outcome.ends_const.mpr (PacketReceiverImpl.processSyncAckPacket_detail _ c)).mono
        ?_ ?_
      · intro c' hc' hkey'
        exact absurd (hc' ▸ hkey') hkey
      · intro e c' hc'
        exact ⟨trivial, fun hkey' => absurd (hc' ▸ hkey') hkey⟩
  processed := by
    intro c h hpair _ hsyn hsynAck
    refine ends_of_detail (PacketReceiverImpl.process_detail now _ c) hpair fun hkey => ?_
    have hkey' := BEq.trans (BEq.symm hpair) hkey
    exact active_process (h hkey) (cut_detect hp hkey' hsyn hsynAck (h hkey).detail)

/-- What `pick` discarded on a connection of the conversation. -/
structure Discarded (T : Conversation) (d : Discard) : Prop where
  tracked : ∃ syn, Tracked T d.connection.connectionDetail syn d.connection
  cut : Cut T d.connection.connectionDetail d.packet
  isOld : d.connection.isOldPacket d.packet = true

/-- What comes from the buffers of a connection of the conversation. -/
theorem discarded_of_tracked {c : TCPConnectionImpl} {q : TCPPacket}
    (h : Tracked T d syn c) (hmem : ∃ x, q ∈ c.packetsBuffer.get x)
    (hold : c.isOldPacket q = true) : Discarded T ⟨c, q⟩ := by
  obtain ⟨x, hmem⟩ := hmem
  obtain rfl := h.detail
  exact ⟨⟨syn, h⟩, h.buffered x q hmem, hold⟩

/-- Whatever `pick` discards on a connection of the conversation. -/
theorem discards_discarded {r : PacketReceiverImpl} (hwf : PacketReceiverImpl.WellFormed r)
    (h : PacketReceiverImpl.Tables (Actives T) (HalfWays T) r) (hp : T.Cuts p) :
    ∀ d ∈ r.discards now (TCPPacketImpl p),
      (d.connection.connectionDetail == T.detail) = true → d.packet.isContainsData = true →
      Discarded T d := by
  have hother := fun d => (Delivery.detailInvariant now d).deliveryInvariant.rule
  refine PacketReceiverImpl.discards_forall hwf h ?_ ?_ ?_
  · intro c hA hpair hsyn hold hkey hdata
    have hkey' := BEq.trans (BEq.symm hpair) hkey
    have hactive := hA hkey
    exact ⟨⟨_, hactive.tracked⟩, cut_detect hp hkey' hsyn
      (Reassembly.isHandsShake2Packet_of_isContainsData hp.1 hkey' hdata) hactive.detail, hold⟩
  · intro c hH hpair hsyn hdata
    by_cases hkey : (c.connectionDetail == T.detail) = true
    · have hkey' := BEq.trans (BEq.symm hpair) hkey
      have hcut := cut_detect hp hkey' hsyn
        (Reassembly.isHandsShake2Packet_of_isContainsData hp.1 hkey' hdata) (hH hkey).detail
      exact PacketReceiverImpl.promoteDiscards_forall (tracked_rule T _ _ now)
        (fun ht hmem hold _ _ => discarded_of_tracked ht hmem hold)
        (tracked_promoted (hH hkey) hcut)
    · refine PacketReceiverImpl.promoteDiscards_forall (hother c.connectionDetail)
        (fun ht _ _ hkey' _ => absurd (ht ▸ hkey') hkey) ?_
      exact Outcome.ends_const.mpr ((Delivery.processDataPacket_frame now _ _).mono
        (fun _ hframe => hframe.connectionDetail) (fun _ hframe => hframe.connectionDetail))
  · intro c hA hpair hsyn hsynAck
    by_cases hkey : (c.connectionDetail == T.detail) = true
    · have hkey' := BEq.trans (BEq.symm hpair) hkey
      have hactive := hA hkey
      have hcut := cut_detect hp hkey' hsyn hsynAck hactive.detail
      exact PacketReceiverImpl.processDiscards_forall (tracked_rule T _ _ now)
        (fun ht hmem hold _ _ => discarded_of_tracked ht hmem hold)
        (fun hcan => hactive.tracked.deliver hcut hcan 0) (fun _ => hactive.buffer hcut)
    · refine PacketReceiverImpl.processDiscards_forall (hother c.connectionDetail)
        (fun ht _ _ hkey' _ => absurd (ht ▸ hkey') hkey) ?_ (fun _ => rfl)
      intro _
      exact Outcome.ends_const.mpr ((Delivery.deliver_frame now _ c 0).mono
        (fun _ hframe => hframe.connectionDetail) (fun _ hframe => hframe.connectionDetail))

/-- An old packet is delivered exactly if the packet as a whole lies before
the counter, and not before the first byte of its side. -/
theorem Discarded.delivered_iff {d : Discard} (h : Discarded T d)
    (hdata : d.packet.isContainsData = true) :
    Delivered d.connection d.packet ↔ WhollyOld d.connection d.packet := by
  obtain ⟨syn, htracked⟩ := h.tracked
  have htracks := htracked.tracks
  have hlen : 0 < d.packet.data.length := by
    apply List.length_pos_of_ne_nil
    simpa [TCPPacket.isContainsData] using hdata
  constructor
  · intro hdelivered
    have hlast := htracks.below _ _ (hdelivered (d.packet.data.length - 1) (by omega))
    obtain ⟨e, he, hside, hle, hlt⟩ := hdelivered 0 hlen
    refine ⟨by omega, Or.inr ⟨e, he, hside, ?_, hle⟩⟩
    have hne : e.2.data ≠ [] := by
      intro hnil
      rw [hnil, List.length_nil] at hlt
      omega
    simpa [TCPPacket.isContainsData] using hne
  · rintro ⟨hend, hstart⟩ i hi
    have hbytes := h.cut.carries.2.length_le
    have hlow := h.cut.carries.1
    rw [List.length_drop] at hbytes
    apply htracks.covers _ _ (by omega) (by omega) (by omega)
    rcases hstart with hopened | ⟨e, he, hside, hedata, hle⟩
    · exact Or.inl (htracked.opened.mp hopened)
    · have hpos : 0 < e.2.data.length := by
        apply List.length_pos_of_ne_nil
        simpa [TCPPacket.isContainsData] using hedata
      exact Or.inr ⟨e.2.sequence, by omega, e, he, hside, le_rfl, by omega⟩

/-! ## Runs -/

/-- Reading changes no appended byte. -/
theorem Active.read {c c' : TCPConnectionImpl} (hread : PacketReceiverImpl.SameButRead c c')
    (h : Active T c) : Active T c' := by
  obtain ⟨streams, rfl, hsame, -⟩ := hread
  exact ⟨h.detail, h.synDetail, rfl, Iff.rfl,
    h.tracked.tracks.of_still ⟨fun _ => rfl, rfl, hsame.appended⟩ rfl, h.tracked.buffered⟩

theorem HalfWay.read {c c' : TCPConnectionImpl} (hread : PacketReceiverImpl.SameButRead c c')
    (h : HalfWay T c) : HalfWay T c' := by
  obtain ⟨streams, rfl, hsame, -⟩ := hread
  exact ⟨h.detail, h.fresh, fun y => (hsame.appended y).trans (h.empty y), h.buffered⟩

end Connections

/-- The call captures nothing but segments of the conversation and packets of
other pairs, and no stream of the conversation refuses its packet. -/
def Cutting (T : Conversation) (r : PacketReceiverImpl) : Call → Prop
  | .pick now packet => T.Cuts packet ∧ ((packet.connectionDetail == T.detail) = true →
      (r.pick now (TCPPacketImpl packet)).Throws (·.isRefusal = false))
  | _ => True

instance (T : Conversation) (r : PacketReceiverImpl) : ∀ c, Decidable (Cutting T r c)
  | .pick _ packet => inferInstanceAs (Decidable (T.Cuts packet ∧ (_ → _)))
  | .poll => .isTrue trivial
  | .read _ _ => .isTrue trivial
  | .readInto _ _ _ _ _ => .isTrue trivial

/-- The invariant of the receiver in a run of segments. -/
structure Following (T : Conversation) (r : PacketReceiverImpl) : Prop where
  wellFormed : PacketReceiverImpl.WellFormed r
  tables : PacketReceiverImpl.Tables (Actives T) (HalfWays T) r

theorem following_step {T : Conversation} {r : PacketReceiverImpl} {call : Call}
    (h : Following T r) (hcall : Cutting T r call) : Following T (r.step call) := by
  refine ⟨PacketReceiverImpl.step_wellFormed h.wellFormed call, ?_⟩
  cases call with
  | pick now packet =>
    obtain ⟨hcuts, hthrows⟩ := hcall
    have hends := (pickRule T now hcuts).pick_ends h.wellFormed
      (fun _ => h.wellFormed.pair_of_routed) h.tables
    show PacketReceiverImpl.Tables _ _ (r.pick now (TCPPacketImpl packet)).state
    cases ho : r.pick now (TCPPacketImpl packet) with
    | returned r' =>
      rw [ho] at hends
      exact hends
    | thrown e r' =>
      rw [ho] at hends hthrows
      exact hends.2.mono fun c hc hpair => hc hpair hthrows
  | _ =>
    refine h.tables.step_other ?_ ?_ nofun
    · intro c c' hread hc hkey
      exact (hc (hread.connectionDetail ▸ hkey)).read hread
    · intro c c' hread hc hkey
      exact (hc (hread.connectionDetail ▸ hkey)).read hread

theorem following_of_run (filter : ConnectionFilter) {T : Conversation} {calls : List Call}
    (hcalls : Run.Along PacketReceiverImpl.step (Cutting T)
      (PacketReceiverImpl.create filter) calls) :
    Following T (Run.after PacketReceiverImpl.step (PacketReceiverImpl.create filter) calls) :=
  Run.invariant (C := Cutting T) (I := Following T) (fun _ _ h hcall => following_step h hcall)
    ⟨PacketReceiverImpl.wellFormed_create filter, PacketReceiverImpl.tables_create _ _ filter⟩
    hcalls

/-- In every run of segments, whatever is lost, repeated, out of order or cut
anew, the streams hold the handled payloads, and a data packet that the
next `pick` throws away as old has been delivered exactly if it is wholly
old. -/
theorem old_delivered_iff (filter : ConnectionFilter) (T : Conversation) (calls : List Call)
    (hcalls : Run.Along PacketReceiverImpl.step (Cutting T)
      (PacketReceiverImpl.create filter) calls) (now : Date) {packet : JpcapPacket}
    (hpacket : T.Cuts packet) {d : Discard}
    (hd : d ∈ (Run.after PacketReceiverImpl.step (PacketReceiverImpl.create filter)
      calls).discards now (TCPPacketImpl packet))
    (hpair : (d.connection.connectionDetail == T.detail) = true)
    (hdata : d.packet.isContainsData = true) :
    (∀ x, (d.connection.inputStream.get x).appended = d.connection.payloads x) ∧
      (Delivered d.connection d.packet ↔ WhollyOld d.connection d.packet) := by
  have h := following_of_run filter hcalls
  have hdiscarded := discards_discarded h.wellFormed h.tables hpacket d hd hpair hdata
  obtain ⟨syn, htracked⟩ := hdiscarded.tracked
  exact ⟨htracked.tracks.payloads, hdiscarded.delivered_iff hdata⟩

/-- A byte that was delivered within a longer segment, captured once more. -/
theorem old_delivered_retransmitted :
    let client := InetAddress.inet4 10 0 0 1
    let server := InetAddress.inet4 10 0 0 2
    let up (sequence : Nat) (data : List UInt8) : JpcapPacket :=
      ⟨client, server, 50000, 80, sequence, 501, true, false, false, false, data, 0⟩
    let calls : List Call := [
      .pick 0 ⟨client, server, 50000, 80, 100, 0, false, false, true, false, [], 0⟩,
      .pick 1 ⟨server, client, 80, 50000, 500, 101, true, false, true, false, [], 0⟩,
      .pick 2 (up 101 []), .pick 3 (up 101 [1, 2, 3])]
    ∃ d ∈ (Run.after PacketReceiverImpl.step (PacketReceiverImpl.create {}) calls).discards 4
        (TCPPacketImpl (up 102 [2])),
      (∀ x, (d.connection.inputStream.get x).appended = d.connection.payloads x) ∧
        Delivered d.connection d.packet := by
  intro client server up calls
  let T : Conversation := ⟨⟨client, server, 50000, 80⟩, ⟨100, [1, 2, 3]⟩, ⟨500, []⟩⟩
  obtain ⟨d, hd, hpair, hdata, hold⟩ : ∃ d ∈ (Run.after PacketReceiverImpl.step
      (PacketReceiverImpl.create {}) calls).discards 4 (TCPPacketImpl (up 102 [2])),
      (d.connection.connectionDetail == T.detail) = true ∧ d.packet.isContainsData = true ∧
        WhollyOld d.connection d.packet := by decide
  obtain ⟨hpayloads, hiff⟩ := @old_delivered_iff {} T calls (by decide) 4 (up 102 [2])
    (by decide) d hd hpair hdata
  exact ⟨d, hd, hpayloads, hiff.mpr hold⟩

/-- The client's third byte is lost when its retransmission comes together
with two bytes that were delivered before, at once or out of the buffer.
And the packet that a half-way connection was found by is thrown away when
the connection is promoted. -/
theorem old_undelivered :
    let client := InetAddress.inet4 10 0 0 1
    let server := InetAddress.inet4 10 0 0 2
    let T : Conversation := ⟨⟨client, server, 50000, 80⟩, ⟨100, [1, 2, 3, 4]⟩, ⟨500, [9]⟩⟩
    let up (sequence : Nat) (data : List UInt8) : JpcapPacket :=
      ⟨client, server, 50000, 80, sequence, 501, true, false, false, false, data, 0⟩
    let opening : List Call := [
      .pick 0 ⟨client, server, 50000, 80, 100, 0, false, false, true, false, [], 0⟩,
      .pick 1 ⟨server, client, 80, 50000, 500, 101, true, false, true, false, [], 0⟩,
      .pick 2 (up 101 [])]
    let loses (calls : List Call) (packet lost : JpcapPacket) : Prop :=
      Run.Along PacketReceiverImpl.step (Cutting T) (PacketReceiverImpl.create {}) calls ∧
        T.Cuts packet ∧
        ∃ d ∈ (Run.after PacketReceiverImpl.step (PacketReceiverImpl.create {}) calls).discards 9
          (TCPPacketImpl packet), d.packet.toJpcapPacket = lost ∧ ¬ Delivered d.connection d.packet
    loses (opening ++ [.pick 3 (up 101 [1, 2])]) (up 101 [1, 2, 3]) (up 101 [1, 2, 3]) ∧
      loses (opening ++ [.pick 3 (up 102 [2, 3]), .pick 4 (up 101 [1, 2])]) (up 104 [4])
        (up 102 [2, 3]) ∧
      loses [.pick 0 (up 101 [1, 2])]
        ⟨server, client, 80, 50000, 501, 103, true, false, false, false, [9], 0⟩
        (up 101 [1, 2]) := by
  decide

end OldPackets

end ConnectionSniffer
