import ConnectionSniffer.Connection.TCPConnectionImpl

/-!
# Handling one packet and draining the buffer

`handlePacket` and `tryToProcessPacketsInBuffer` call each other: a FIN
drains the buffer, and the drain handles what it takes out.  Each step of
the drain takes a packet out of the buffer, so the number of buffered
packets bounds the recursion; `tryToProcessPacketsInBuffer_eq` is the
equation of the source, without a bound.

Both work on one connection and on nothing else of the receiver, except
that a connection that becomes established is put into a queue.
`Delivery.announced` counts these calls of `establishedNewConnection`, and
`pick` performs them.
-/

namespace ConnectionSniffer

/-- A connection during a `pick`, and how often it was announced. -/
structure Delivery where
  connection : TCPConnectionImpl
  announced : Nat := 0

namespace Delivery

/-- Apply a handler that does not throw. -/
def update (t : Delivery) (f : TCPConnectionImpl → TCPConnectionImpl) : Delivery :=
  { t with connection := f t.connection }

/-- Apply a handler that may throw. -/
def apply (t : Delivery) (f : TCPConnectionImpl → Outcome Throwable TCPConnectionImpl) :
    Outcome Throwable Delivery :=
  (f t.connection).map fun c => { t with connection := c }

/-- The ACK part of `handlePacket`: a connection that leaves SynReceived for
Established is announced. -/
def acknowledge (packet : TCPPacket) (t : Delivery) : Outcome Throwable Delivery :=
  if packet.ack then
    (t.apply (TCPConnectionImpl.processAckPacket packet)).andThen fun t' =>
      if t.connection.state = some .synReceived ∧ t'.connection.state = some .established then
        .returned { t' with announced := t'.announced + 1 }
      else .returned t'
  else .returned t

/-- `handlePacket` up to the drain: RST, ACK, data, FIN. -/
def deliver (now : Date) (packet : TCPPacket) (t : Delivery) : Outcome Throwable Delivery :=
  let met := t.connection.state
  let t := if packet.rst then t.update (TCPConnectionImpl.processRstPacket now packet) else t
  (acknowledge packet t).andThen fun t =>
  (if packet.isContainsData then t.apply (TCPConnectionImpl.processDataPacket now packet)
    else .returned t).andThen fun t =>
  let t := if packet.fin then t.update (TCPConnectionImpl.processFinishPacket now packet) else t
  .returned (t.update fun c => c.record met packet)

/-- `handlePacket`, given what a FIN calls to drain the buffer. -/
def handlePacket (now : Date) (drain : Delivery → Outcome Throwable Delivery)
    (packet : TCPPacket) (t : Delivery) : Outcome Throwable Delivery :=
  (t.deliver now packet).andThen fun t =>
  (if packet.fin then drain t else .returned t).andThen fun t =>
  .returned (t.update (TCPConnectionImpl.updated now))

/-- The drain with a bound on the number of packets it takes out. -/
def drain (now : Date) : Nat → Delivery → Outcome Throwable Delivery
  | 0, t => .returned t
  | bound + 1, t =>
    match t.connection.pickupPacket with
    | .thrown e (_, c) => .thrown e { t with connection := c }
    | .returned (none, c) => .returned { t with connection := c }
    | .returned (some packet, c) =>
      (handlePacket now (drain now bound) packet { t with connection := c }).andThen
        (drain now bound)

/-- `tryToProcessPacketsInBuffer`. -/
def tryToProcessPacketsInBuffer (now : Date) (t : Delivery) : Outcome Throwable Delivery :=
  drain now t.connection.packetsBuffer.getPacketsCountInBuffer t

end Delivery

end ConnectionSniffer
