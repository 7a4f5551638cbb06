import ConnectionSniffer.Packet.ConnectionDetail
import ConnectionSniffer.Library.BySide
import Mathlib.Algebra.Group.Nat.Defs

/-!
# Packets

`JpcapPacket` is a packet as the capture library fills it in: 32-bit
sequence and acknowledgement numbers widened to `long`, which are `Nat`
here.  A missing payload array and an empty one are both `[]`, as every
reader of the payload treats them alike.

`TCPPacket` adds the two mutable fields of the class.  `isSentByClient` is
`null` in the source until `detectPacketFlowDirection` has run; each
method that reads it runs after that call, so the model starts it at
`false`.
-/

namespace ConnectionSniffer

/-- A captured packet. -/
structure JpcapPacket where
  srcIp : InetAddress
  dstIp : InetAddress
  srcPort : UInt16
  dstPort : UInt16
  sequence : Nat
  ackNum : Nat
  ack : Bool := false
  rst : Bool := false
  syn : Bool := false
  fin : Bool := false
  data : List UInt8 := []
  usec : Nat := 0
  deriving DecidableEq

structure TCPPacket extends JpcapPacket where
  consumed : Bool := false
  isSentByClient : Bool := false
  deriving DecidableEq

/-- `new TCPPacketImpl(packet)`. -/
def TCPPacketImpl (packet : JpcapPacket) : TCPPacket := { packet with }

/-- `getConnectionDetail`: from source to destination. -/
def JpcapPacket.connectionDetail (p : JpcapPacket) : ConnectionDetail :=
  ⟨p.srcIp, p.dstIp, p.srcPort, p.dstPort⟩

namespace TCPPacket

def isHandsShake1Packet (p : TCPPacket) : Bool := p.syn && !p.ack

def isHandsShake2Packet (p : TCPPacket) : Bool := p.syn && p.ack

def isContainsData (p : TCPPacket) : Bool := !p.data.isEmpty

def consumedPacket (p : TCPPacket) : TCPPacket := { p with consumed := true }

def detectPacketFlowDirection (p : TCPPacket) (connectionDetail : ConnectionDetail) : TCPPacket :=
  { p with isSentByClient := p.connectionDetail.isTheSame connectionDetail }

/-- The side that sent the packet. -/
def side (p : TCPPacket) : Side := if p.isSentByClient then .client else .server

/-- `compareTo`: the difference of the sequence numbers, cast to `int`. -/
def compareTo (p q : TCPPacket) : Int := ((p.sequence : Int) - q.sequence).bmod (2 ^ 32)

/-- A packet that is neither SYN nor SYN/ACK has no SYN flag. -/
theorem syn_eq_false {p : TCPPacket} (hsyn : p.isHandsShake1Packet = false)
    (hsynAck : p.isHandsShake2Packet = false) : p.syn = false := by
  unfold isHandsShake1Packet at hsyn
  unfold isHandsShake2Packet at hsynAck
  revert hsyn hsynAck
  cases p.syn <;> cases p.ack <;> simp

end TCPPacket

/-- The packet as `pick` hands it on. -/
def JpcapPacket.detected (p : JpcapPacket) (d : ConnectionDetail) : TCPPacket :=
  (TCPPacketImpl p).detectPacketFlowDirection d

namespace JpcapPacket

variable (p : JpcapPacket) (d : ConnectionDetail)

@[simp] theorem sequence_detected : (p.detected d).sequence = p.sequence := rfl

@[simp] theorem ackNum_detected : (p.detected d).ackNum = p.ackNum := rfl

@[simp] theorem ack_detected : (p.detected d).ack = p.ack := rfl

@[simp] theorem rst_detected : (p.detected d).rst = p.rst := rfl

@[simp] theorem fin_detected : (p.detected d).fin = p.fin := rfl

@[simp] theorem data_detected : (p.detected d).data = p.data := rfl

@[simp] theorem isContainsData_detected : (p.detected d).isContainsData = !p.data.isEmpty := rfl

end JpcapPacket

end ConnectionSniffer
