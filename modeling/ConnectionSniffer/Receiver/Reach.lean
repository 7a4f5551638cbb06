import ConnectionSniffer.Connection.Handlers
import ConnectionSniffer.Receiver.Pick

/-!
# What one `pick` can reach

A `pick` may handle many packets: the one that was picked and whatever the
drain takes out of the buffers.  `Reaches` collects, from the counters of
the connection and the packets at hand, what the counters may come to and
which packets may be handled.  `Counts` says of a connection that its
counters are at such places; each handler keeps it, for a packet that may
be handled.
-/

namespace ConnectionSniffer

namespace Reach

/-- `pick` hands the packet to `process` on the active connection `c`. -/
structure Processes (r : PacketReceiverImpl) (packet : JpcapPacket) (ref : Ref)
    (c : TCPConnectionImpl) : Prop where
  notSyn : (TCPPacketImpl packet).isHandsShake1Packet = false
  active : r.activeConnections.get packet.connectionDetail = some ref
  deref : r.deref ref = some c
  notIgnored : PacketReceiverImpl.isIgnored (packet.detected c.connectionDetail) c = false
  notSynAck : (TCPPacketImpl packet).isHandsShake2Packet = false

/-- The packets in the buffers. -/
def Buffered (c : TCPConnectionImpl) (q : TCPPacket) : Prop := ∃ x, q ∈ c.packetsBuffer.get x

/-- A place of a counter, or a packet. -/
inductive Place where
  | seq (x : Side) (n : Nat)
  | ack (x : Side) (n : Nat)
  | packet (q : TCPPacket)

/-- Starting from the counters of `c`, what they may come to and which of
the packets `P` may be handled, one after the other.  A packet has to start
at its sender's counter, and with data, RST or FIN it has to acknowledge
what the accept test asks for. -/
inductive Reaches (c : TCPConnectionImpl) (P : TCPPacket → Prop) : Place → Prop
  | seq (x : Side) : Reaches c P (.seq x (c.counter.get x).seq)
  | ack (x : Side) : Reaches c P (.ack x (c.counter.get x).ack)
  | control {q : TCPPacket} (hq : P q) (h : Reaches c P (.seq q.side q.sequence))
      (hkind : (q.isContainsData || q.rst || q.fin) = false) : Reaches c P (.packet q)
  | sameAck {q : TCPPacket} (hq : P q) (h : Reaches c P (.seq q.side q.sequence))
      (hack : Reaches c P (.ack q.side q.ackNum)) : Reaches c P (.packet q)
  | caughtUp {q : TCPPacket} (hq : P q) (h : Reaches c P (.seq q.side q.sequence))
      (hack : Reaches c P (.seq q.side.other q.ackNum)) : Reaches c P (.packet q)
  | behind {q : TCPPacket} (h : Reaches c P (.packet q)) :
      Reaches c P (.seq q.side (q.sequence + q.data.length))
  | finish {q : TCPPacket} (h : Reaches c P (.packet q)) (hfin : q.fin = true) :
      Reaches c P (.seq q.side (q.sequence + q.data.length + 1))
  | acked {q : TCPPacket} (h : Reaches c P (.packet q)) : Reaches c P (.ack q.side q.ackNum)
  -- the third packet of a handshake is taken for the client's, whoever sent it
  | handshake {q : TCPPacket} (hstate : c.state = some .synReceived)
      (h : Reaches c P (.packet q)) : Reaches c P (.seq .client (q.sequence + q.data.length))
  | handshakeAck {q : TCPPacket} (hstate : c.state = some .synReceived)
      (h : Reaches c P (.packet q)) : Reaches c P (.ack .client q.ackNum)
  | answered {n : Nat} (hstate : c.state = some .synReceived)
      (h : Reaches c P (.seq .server n)) : Reaches c P (.seq .server (n + 1))

theorem Reaches.mem {c : TCPConnectionImpl} {P : TCPPacket → Prop} {q : TCPPacket}
    (h : Reaches c P (.packet q)) : P q := by
  cases h with
  | control hq => exact hq
  | sameAck hq => exact hq
  | caughtUp hq => exact hq

/-- The counters of `c'` are where they may have come to. -/
structure Counts (c : TCPConnectionImpl) (P : TCPPacket → Prop) (c' : TCPConnectionImpl) :
    Prop where
  seq : ∀ x, Reaches c P (.seq x (c'.counter.get x).seq)
  ack : ∀ x, Reaches c P (.ack x (c'.counter.get x).ack)

namespace Counts

variable {c c' c'' : TCPConnectionImpl} {P : TCPPacket → Prop} {p : TCPPacket}

/-- At the start. -/
theorem start (h : c'.counter = c.counter) : Counts c P c' := by
  refine ⟨fun x => ?_, fun x => ?_⟩
  · rw [h]
    exact .seq x
  · rw [h]
    exact .ack x

theorem same (h : Counts c P c') (hcounter : c''.counter = c'.counter) : Counts c P c'' := by
  refine ⟨?_, ?_⟩
  · rw [hcounter]
    exact h.seq
  · rw [hcounter]
    exact h.ack

/-- A packet that passes the accept test may be handled. -/
theorem reaches (h : Counts c P c') (hp : P p)
    (hdirection : p.isSentByClient = p.connectionDetail.isTheSame c'.connectionDetail)
    (hcan : c'.isCanProcessPacket p = .ok true) : Reaches c P (.packet p) := by
  have hseq : Reaches c P (.seq p.side p.sequence) := by
    rw [← TCPConnectionImpl.sequence_of_isCanProcessPacket hdirection hcan]
    exact h.seq _
  cases hkind : (p.isContainsData || p.rst || p.fin) with
  | false => exact .control hp hseq hkind
  | true =>
    rcases TCPConnectionImpl.ackNum_of_isCanProcessPacket hdirection hcan hkind with hack | hack
    · exact .sameAck hp hseq (hack ▸ h.ack _)
    · exact .caughtUp hp hseq (hack ▸ h.seq _)

/-- A handler that moves the counter of the packet's sender behind the
payload. -/
theorem update (h : Counts c P c') (hp : Reaches c P (.packet p))
    (hcounter : c''.counter = c'.counter.update p.side p) : Counts c P c'' where
  seq := by
    rw [hcounter]
    exact BySide.forall_set (P := fun y (k : Counter) => Reaches c P (.seq y k.seq))
      (by rw [updateCounter_seq]; exact .behind hp) (h.seq _)
  ack := by
    rw [hcounter]
    exact BySide.forall_set (P := fun y (k : Counter) => Reaches c P (.ack y k.ack))
      (.acked hp) (h.ack _)

/-- A FIN. -/
theorem finish (h : Counts c P c') (hp : Reaches c P (.packet p)) (hfin : p.fin = true)
    (hcounter : c''.counter = (c'.counter.update p.side p).sequenceAddOne p.side) :
    Counts c P c'' where
  seq := by
    rw [hcounter]
    refine BySide.forall_side p.side ?_ ?_
    · rw [SequenceCounter.get_sequenceAddOne, SequenceCounter.get_update, updateCounter_seq]
      exact .finish hp hfin
    · rw [SequenceCounter.get_other_sequenceAddOne, SequenceCounter.get_other_update]
      exact h.seq _
  ack := by
    rw [hcounter]
    refine BySide.forall_side p.side ?_ ?_
    · rw [SequenceCounter.get_sequenceAddOne, SequenceCounter.get_update]
      exact .acked hp
    · rw [SequenceCounter.get_other_sequenceAddOne, SequenceCounter.get_other_update]
      exact h.ack _

/-- The third packet of a handshake. -/
theorem handshake (h : Counts c P c') (hp : Reaches c P (.packet p))
    (hstate : c.state = some .synReceived)
    (hcounter : c''.counter = (c'.counter.update .client p).sequenceAddOne .server) :
    Counts c P c'' where
  seq := by
    rw [hcounter]
    intro y
    cases y with
    | client =>
      have hclient := Reaches.handshake hstate hp
      rwa [← updateCounter_seq] at hclient
    | server => exact .answered hstate (h.seq .server)
  ack := by
    rw [hcounter]
    intro y
    cases y with
    | client => exact .handshakeAck hstate hp
    | server => exact h.ack .server

end Counts

end Reach

end ConnectionSniffer
