import ConnectionSniffer.Receiver.Atomicity

/-!
# Packets that the buffer does not take

The buffer of a side is a `TreeSet` that orders packets by their sequence
numbers alone.  A packet whose sequence number is already there is not
added, whatever the two packets carry: a pure ACK in the buffer shadows the
data packet that starts where it does.

In a run whose picks are `Narrow` a buffer is sorted and holds at most one
packet of each sequence number, and `buffering_keeps_iff` is about that one
packet.
-/

namespace ConnectionSniffer

namespace Shadowing

/-! ## Covering -/

/-- `b` carries all that `q` carries. -/
def Covers (b q : TCPPacket) : Prop :=
  b.sequence = q.sequence ∧ q.data <+: b.data ∧ (q.fin = true → b.fin = true)

instance (b q : TCPPacket) : Decidable (Covers b q) :=
  inferInstanceAs (Decidable (_ ∧ _ ∧ _))

theorem Covers.refl (q : TCPPacket) : Covers q q := ⟨rfl, List.prefix_rfl, id⟩

/-- After `q` was added to the buffers of `c`, which gave `c'`: it is there,
or a packet that carries as much was. -/
def Kept (q : TCPPacket) (c c' : TCPConnectionImpl) : Prop :=
  q ∈ c'.packetsBuffer.get q.side ∨ ∃ b ∈ c.packetsBuffer.get q.side, Covers b q

instance (q : TCPPacket) (c c' : TCPConnectionImpl) : Decidable (Kept q c c') :=
  inferInstanceAs (Decidable (_ ∨ _))

/-- `pick` adds the packet to a buffer of `c`: it is for an active
connection and can neither be ignored nor processed, or it is for a half-way
connection and does not complete an exchange; and the buffer has room. -/
inductive Buffers (p : TCPPacket) (r : PacketReceiverImpl) (c : TCPConnectionImpl) : Prop
  | active {ref : Ref} (hsyn : p.isHandsShake1Packet = false)
      (hactive : r.activeConnections.get p.connectionDetail = some ref)
      (hc : r.deref ref = some c)
      (hignored : PacketReceiverImpl.isIgnored
        (p.detectPacketFlowDirection c.connectionDetail) c = false)
      (hsynAck : p.isHandsShake2Packet = false)
      (hcan : c.isCanProcessPacket (p.detectPacketFlowDirection c.connectionDetail) = .ok false)
      (hroom : ¬ Atomicity.BufferFull (p.detectPacketFlowDirection c.connectionDetail) c)
  | halfWay {ref : Ref} (hsyn : p.isHandsShake1Packet = false)
      (hactive : r.activeConnections.get p.connectionDetail = none)
      (hdata : p.isContainsData = true)
      (hhalf : r.halfWayConnections.get p.connectionDetail = some ref)
      (hc : r.deref ref = some c)
      (hdone : PacketReceiverImpl.completesExchange
        (p.detectPacketFlowDirection c.connectionDetail) c = false)
      (hroom : ¬ Atomicity.BufferFull (p.detectPacketFlowDirection c.connectionDetail) c)

theorem Buffers.room {p : TCPPacket} {r : PacketReceiverImpl} {c : TCPConnectionImpl}
    (h : Buffers p r c) :
    ¬ Atomicity.BufferFull (p.detectPacketFlowDirection c.connectionDetail) c := by
  cases h <;> assumption

theorem Buffers.routed {p : TCPPacket} {r : PacketReceiverImpl} {c : TCPConnectionImpl}
    (h : Buffers p r c) : r.routed p = some c := by
  cases h with
  | active hsyn hactive hc => exact PacketReceiverImpl.routed_active hsyn hactive hc
  | halfWay hsyn hactive hdata hhalf hc =>
    exact PacketReceiverImpl.routed_halfWay hsyn hactive hdata hhalf hc

theorem Buffers.holds {p : TCPPacket} {r : PacketReceiverImpl} {c : TCPConnectionImpl}
    {I : TCPConnectionImpl → Prop} (h : Buffers p r c) (htables : PacketReceiverImpl.Tables I I r) :
    I c := by
  cases h with
  | active _ hactive hc => exact htables.active hactive hc
  | halfWay _ _ _ hhalf hc => exact htables.halfWay hhalf hc

/-- A buffer with room takes the packet as the set does. -/
theorem bufferPacket_eq {q : TCPPacket} {c : TCPConnectionImpl}
    (hroom : ¬ Atomicity.BufferFull q c) :
    PacketReceiverImpl.bufferPacket q c = .returned (c.setBuffer q.side
      (TreeSet.add TCPPacket.compareTo q (c.packetsBuffer.get q.side))) := by
  unfold Atomicity.BufferFull at hroom
  unfold PacketReceiverImpl.bufferPacket PacketsBuffer.addToTemporaryStoredDataPackets
  rw [if_neg hroom]
  rfl

/-- In a sorted buffer all depends on the packet with the same sequence
number, if there is one. -/
theorem kept_iff {q : TCPPacket} {c : TCPConnectionImpl} (h : Buffering.Ordered c)
    (hq : Buffering.NearWaiting q c) :
    Kept q c (c.setBuffer q.side
        (TreeSet.add TCPPacket.compareTo q (c.packetsBuffer.get q.side))) ↔
      ∀ b ∈ c.packetsBuffer.get q.side, b.sequence = q.sequence → Covers b q := by
  have hsorted := h q.side
  constructor
  · intro hkept b hb hseq
    rcases hkept with hin | ⟨b', hb', hcovers⟩
    · rw [TCPConnectionImpl.packetsBuffer_setBuffer, BySide.get_set] at hin
      have hsame := (hsorted.add hq).unique (TreeSet.mem_add_of_mem _ hb) hin hseq
      exact hsame ▸ .refl b
    · rwa [hsorted.unique hb hb' (hseq.trans hcovers.1.symm)]
  · intro hall
    by_cases hex : ∃ b ∈ c.packetsBuffer.get q.side, b.sequence = q.sequence
    · obtain ⟨b, hb, hseq⟩ := hex
      exact Or.inr ⟨b, hb, hall b hb hseq⟩
    · refine Or.inl ?_
      rw [TCPConnectionImpl.packetsBuffer_setBuffer, BySide.get_set]
      refine TreeSet.mem_add_self _ fun b hb heq => hex ⟨b, hb, ?_⟩
      rw [(hq b hb).compareTo_eq] at heq
      omega

/-! ## Buffering -/

/-- In a run whose picks are near to what waits, what `pick` buffers is kept
if and only if the packet with the same sequence number, where there is
one, covers it. -/
theorem buffering_keeps_iff (filter : ConnectionFilter) (calls : List Call) (now : Date)
    (packet : JpcapPacket)
    (hcalls : Run.Along PacketReceiverImpl.step Buffering.Narrow
      (PacketReceiverImpl.create filter) (calls ++ [.pick now packet]))
    {c : TCPConnectionImpl}
    (h : Buffers (TCPPacketImpl packet)
      (Run.after PacketReceiverImpl.step (PacketReceiverImpl.create filter) calls) c) :
    let q := packet.detected c.connectionDetail
    ∃ c', PacketReceiverImpl.bufferPacket q c = .returned c' ∧
      (Kept q c c' ↔
        ∀ b ∈ c.packetsBuffer.get q.side, b.sequence = q.sequence → Covers b q) := by
  intro q
  obtain ⟨hrun, hpick⟩ := (Run.along_append _ _ _ _ _).mp hcalls
  refine ⟨_, bufferPacket_eq h.room, ?_⟩
  exact kept_iff (h.holds (Buffering.sorted_of_run filter hrun)) (hpick.1 c h.routed)

/-- A data packet that waits for the bytes before it is kept. -/
theorem buffering_keeps_iff_gap :
    let client := InetAddress.inet4 10 0 0 1
    let server := InetAddress.inet4 10 0 0 2
    let calls : List Call := [
      .pick 0 ⟨client, server, 50000, 80, 100, 0, false, false, true, false, [], 0⟩,
      .pick 1 ⟨server, client, 80, 50000, 500, 101, true, false, true, false, [], 1⟩,
      .pick 2 ⟨client, server, 50000, 80, 101, 501, true, false, false, false, [], 2⟩]
    let packet : JpcapPacket :=
      ⟨client, server, 50000, 80, 103, 501, true, false, false, false, [3], 4⟩
    let r := Run.after PacketReceiverImpl.step (PacketReceiverImpl.create {}) calls
    ∃ c c', Buffers (TCPPacketImpl packet) r c ∧
      PacketReceiverImpl.bufferPacket (packet.detected c.connectionDetail) c = .returned c' ∧
      Kept (packet.detected c.connectionDetail) c c' := by
  intro client server calls packet r
  have hbuffers : Buffers (TCPPacketImpl packet) r ((r.deref 0).get (by decide)) := by
    refine @Buffers.active _ r _ 0 (by decide) (by decide) (Option.some_get _).symm (by decide)
      (by decide) (by decide) ?_
    unfold Atomicity.BufferFull
    decide
  obtain ⟨c', hbuffer, hkept⟩ := buffering_keeps_iff {} calls 4 packet (by decide) hbuffers
  exact ⟨_, c', hbuffers, hbuffer, hkept.mpr (by decide)⟩

/-- A pure ACK waits where a data packet starts, and the data packet is
dropped. -/
theorem data_packet_shadowed :
    let client := InetAddress.inet4 10 0 0 1
    let server := InetAddress.inet4 10 0 0 2
    let calls : List Call := [
      .pick 0 ⟨client, server, 50000, 80, 100, 0, false, false, true, false, [], 0⟩,
      .pick 1 ⟨server, client, 80, 50000, 500, 101, true, false, true, false, [], 1⟩,
      .pick 2 ⟨client, server, 50000, 80, 101, 501, true, false, false, false, [], 2⟩,
      .pick 3 ⟨client, server, 50000, 80, 103, 501, true, false, false, false, [], 3⟩]
    let packet : JpcapPacket :=
      ⟨client, server, 50000, 80, 103, 501, true, false, false, false, [3], 4⟩
    let r := Run.after PacketReceiverImpl.step (PacketReceiverImpl.create {}) calls
    ∃ c c', Buffers (TCPPacketImpl packet) r c ∧
      PacketReceiverImpl.bufferPacket (packet.detected c.connectionDetail) c = .returned c' ∧
      ¬ Kept (packet.detected c.connectionDetail) c c' := by
  intro client server calls packet r
  have hroom : ¬ Atomicity.BufferFull
      (packet.detected ((r.deref 0).get (by decide)).connectionDetail)
      ((r.deref 0).get (by decide)) := by
    unfold Atomicity.BufferFull
    decide
  refine ⟨(r.deref 0).get (by decide), _, ?_, bufferPacket_eq hroom, by decide⟩
  exact @Buffers.active _ r _ 0 (by decide) (by decide) (Option.some_get _).symm (by decide)
    (by decide) (by decide) hroom

end Shadowing

end ConnectionSniffer
