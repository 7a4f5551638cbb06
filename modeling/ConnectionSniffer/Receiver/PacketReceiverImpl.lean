import ConnectionSniffer.Connection.ConnectionFilter
import ConnectionSniffer.Library.HashMap
import ConnectionSniffer.Receiver.HandlePacket

/-!
# `PacketReceiverImpl`

The receiver routes captured packets to connections.  Connections are
objects with identity: the two tables and the queue of established
connections hold references, and a reference is an index into `heap`, the
list of every connection ever created.  A connection that has left the
tables is still there for whoever holds a reference.
-/

namespace ConnectionSniffer

/-- A reference to a `TCPConnectionImpl`. -/
abbrev Ref := Nat

structure PacketReceiverImpl where
  filter : ConnectionFilter
  heap : List TCPConnectionImpl := []
  activeConnections : HashMap ConnectionDetail Ref := []
  halfWayConnections : HashMap ConnectionDetail Ref := []
  establishedConnections : List Ref := []

namespace PacketReceiverImpl

/-- The connection behind a reference. -/
def deref (r : PacketReceiverImpl) (ref : Ref) : Option TCPConnectionImpl := r.heap[ref]?

/-- Assign to the fields of the connection behind `ref`. -/
def store (r : PacketReceiverImpl) (ref : Ref) (c : TCPConnectionImpl) : PacketReceiverImpl :=
  { r with heap := r.heap.set ref c }

/-- Store a delivery: the connection's fields, and the calls of
`establishedNewConnection`. -/
def commit (r : PacketReceiverImpl) (ref : Ref) (t : Delivery) : PacketReceiverImpl :=
  { r.store ref t.connection with
    establishedConnections := r.establishedConnections ++ List.replicate t.announced ref }

/-! ## `pick` on a SYN -/

/-- A SYN makes a new connection, if the filter accepts it. -/
def pickSyn (now : Date) (tcpPacket : TCPPacket) (r : PacketReceiverImpl) : PacketReceiverImpl :=
  let connectionDetail := tcpPacket.connectionDetail
  if r.filter.isAcceptable connectionDetail then
    { r with
      heap := r.heap ++
        [(TCPConnectionImpl.create now connectionDetail).processSyncPacket tcpPacket]
      activeConnections := r.activeConnections.put connectionDetail r.heap.length }
  else r

/-! ## `handleHalfWayConnectionPackets` -/

def isPreviousAnotherDirectionPacket (currentPacket previousPacket : TCPPacket) : Bool :=
  currentPacket.ackNum == previousPacket.sequence + previousPacket.data.length
    && currentPacket.sequence == previousPacket.ackNum

/-- The loop over the other direction's packets: whether one of them is
answered by `tcpPacket`. -/
def completesExchange (tcpPacket : TCPPacket) (c : TCPConnectionImpl) : Bool :=
  (c.packetsBuffer.get tcpPacket.side.other).any (isPreviousAnotherDirectionPacket tcpPacket)

/-- What the promotion does to the connection: set the other side's counter
by hand, then process the packet and the buffers. -/
def promote (now : Date) (tcpPacket : TCPPacket) (c : TCPConnectionImpl) :
    Outcome Throwable Delivery :=
  let other := tcpPacket.side.other
  let c := { c with
    counter := c.counter.set other
      { c.counter.get other with seq := tcpPacket.ackNum, ack := tcpPacket.sequence }
    state := some .established }
  (Delivery.apply ⟨c, 1⟩ (TCPConnectionImpl.processDataPacket now tcpPacket)).andThen fun t =>
    (t.update fun c => c.record (some .established) tcpPacket).tryToProcessPacketsInBuffer now

def handleHalfWayConnectionPackets (now : Date) (tcpPacket : TCPPacket)
    (r : PacketReceiverImpl) : Outcome Throwable PacketReceiverImpl :=
  if !tcpPacket.isContainsData then .returned r
  else
    match r.halfWayConnections.get tcpPacket.connectionDetail with
    | none =>
      let connectionDetail := tcpPacket.connectionDetail
      let c := TCPConnectionImpl.create now connectionDetail
      (c.packetsBuffer.addToTemporaryStoredDataPackets .client
        (tcpPacket.detectPacketFlowDirection connectionDetail)).map fun buffer =>
          { r with
            heap := r.heap ++ [{ c with packetsBuffer := buffer }]
            halfWayConnections := r.halfWayConnections.put connectionDetail r.heap.length }
    | some ref =>
      match r.deref ref with
      | none => .thrown .nullPointerException r
      | some c =>
        let tcpPacket := tcpPacket.detectPacketFlowDirection c.connectionDetail
        if completesExchange tcpPacket c then
          (promote now tcpPacket c).map fun t =>
            { r with
              halfWayConnections := r.halfWayConnections.remove c.connectionDetail
              activeConnections := r.activeConnections.put c.connectionDetail ref }.commit ref t
        else
          (c.packetsBuffer.addToTemporaryStoredDataPackets tcpPacket.side tcpPacket).map
            fun buffer => r.store ref { c with packetsBuffer := buffer }

/-! ## `pick` on a packet of an active connection -/

/-- Handle the packet if it can be processed, otherwise buffer it and
drain. -/
def process (now : Date) (tcpPacket : TCPPacket) (c : TCPConnectionImpl) :
    Outcome Throwable Delivery :=
  match c.isCanProcessPacket tcpPacket with
  | .error e => .thrown e ⟨c, 0⟩
  | .ok true =>
    Delivery.handlePacket now (Delivery.tryToProcessPacketsInBuffer now) tcpPacket ⟨c, 0⟩
  | .ok false =>
    ((c.packetsBuffer.addToTemporaryStoredDataPackets tcpPacket.side tcpPacket).map
      fun buffer => (⟨{ c with packetsBuffer := buffer }, 0⟩ : Delivery)).andThen
        (Delivery.tryToProcessPacketsInBuffer now)

/-- The last statement of `pick`: a finished connection leaves the table. -/
def removeIfFinished (ref : Ref) (r : PacketReceiverImpl) : PacketReceiverImpl :=
  match r.deref ref with
  | none => r
  | some c =>
    if c.isFinished then
      { r with activeConnections := r.activeConnections.remove c.connectionDetail }
    else r

/-- `pick` from `detectPacketFlowDirection` on. -/
def pickActive (now : Date) (ref : Ref) (tcpPacket : TCPPacket) (c : TCPConnectionImpl)
    (r : PacketReceiverImpl) : Outcome Throwable PacketReceiverImpl :=
  let tcpPacket := tcpPacket.detectPacketFlowDirection c.connectionDetail
  if c.isOldPacket tcpPacket then .returned r
  else if c.isFinished && c.state != some .lastAck then .returned r
  else if tcpPacket.isHandsShake2Packet then
    if c.state = some .synSent then
      (c.processSyncAckPacket tcpPacket).map (r.store ref)
    else .returned r
  else
    ((process now tcpPacket c).map (r.commit ref)).andThen fun r =>
      .returned (r.removeIfFinished ref)

/-- `pick`. -/
def pick (now : Date) (tcpPacket : TCPPacket) (r : PacketReceiverImpl) :
    Outcome Throwable PacketReceiverImpl :=
  if tcpPacket.isHandsShake1Packet then .returned (r.pickSyn now tcpPacket)
  else
    match r.activeConnections.get tcpPacket.connectionDetail with
    | none => r.handleHalfWayConnectionPackets now tcpPacket
    | some ref =>
      match r.deref ref with
      | none => .thrown .nullPointerException r
      | some c => r.pickActive now ref tcpPacket c

/-! ## Runs -/

/-- `poll`: the connection announced first. -/
def poll (r : PacketReceiverImpl) : Option Ref × PacketReceiverImpl :=
  (r.establishedConnections.head?,
    { r with establishedConnections := r.establishedConnections.tail })

end PacketReceiverImpl

end ConnectionSniffer
