import ConnectionSniffer.Io.DynamicByteArrayInputStream
import ConnectionSniffer.Library.TreeSet
import ConnectionSniffer.Packet.TCPPacket

/-!
# `TCPConnectionImpl`

One reassembled connection: the sequence counters of its two sides, its
state, the combined stream and the packet buffer of each direction.  The
source keeps everything that exists once for each side in two fields and
often in two methods; here it is one `BySide` field and one definition
that takes the side, and the methods of the source are its instances.

`handled` is a history variable.  It collects each packet that one of the
handlers has worked through, with the state it met, and no method reads
it.

`now` is the value of `new Date()` during one `pick`.
-/

namespace ConnectionSniffer

/-! ## `TCPConnectionState` -/

inductive TCPConnectionState where
  | synSent
  | synReceived
  | established
  | finishWait1
  | closeWait
  | finishWait2
  | lastAck
  | closing
  | timeWait
  | closed
  deriving DecidableEq

/-! ## `SequenceCounter` -/

structure Counter where
  seq : Nat := 0
  ack : Nat := 0
  latestPacketUpdateTime : Date := 0

/-- `clientCounter` and `serverCounter`. -/
abbrev SequenceCounter := BySide Counter

/-- `updateCounter`: the counter after `packet`, and the packet marked
consumed. -/
def updateCounter (packet : TCPPacket) : Counter × TCPPacket :=
  ({ seq := packet.sequence + (if packet.isContainsData then packet.data.length else 0)
     ack := packet.ackNum
     latestPacketUpdateTime := packet.usec }, packet.consumedPacket)

namespace SequenceCounter

/-- `updateClientCounter` and `updateServerCounter`.  The packet marked
consumed is the one in hand; it is in no buffer by then, so the mark has
no other reader. -/
def update (counter : SequenceCounter) (x : Side) (packet : TCPPacket) : SequenceCounter :=
  counter.set x (updateCounter packet).1

/-- `clientSequenceAddOne` and `serverSequenceAddOne`. -/
def sequenceAddOne (counter : SequenceCounter) (x : Side) : SequenceCounter :=
  counter.set x { counter.get x with seq := (counter.get x).seq + 1 }

/-- `isMatchClientSeq` and `isMatchServerSeq`. -/
def isMatchSeq (counter : SequenceCounter) (x : Side) (packet : TCPPacket) :
    Except Throwable Bool :=
  if packet.consumed then
    .error (.runtimeException
      "This packet's sequence is already updated to current Counter, cannot do comparsion!")
  else .ok ((counter.get x).seq == packet.sequence)

end SequenceCounter

/-! ## `PacketsBuffer` -/

/-- `csTemporaryStoredPackets`, sent by the client, and
`scTemporaryStoredPackets`, sent by the server: two `TreeSet`s, in the order
of `compareTo`.  Where the numbers that wait on one side are less than `2 ^ 31`
apart, the lists change as the trees do (`SearchTree`). -/
abbrev PacketsBuffer := BySide (List TCPPacket)

def MAX_PACKETS_IN_BUFFER : Nat := 200

namespace PacketsBuffer

/-- `addToCSTemporaryStoredDataPackets` and
`addToSCTemporaryStoredDataPackets`. -/
def addToTemporaryStoredDataPackets (buffer : PacketsBuffer) (x : Side) (packet : TCPPacket) :
    Outcome Throwable PacketsBuffer :=
  if MAX_PACKETS_IN_BUFFER ≤ (buffer.get x).length then
    .thrown .packetsBufferFullException buffer
  else .returned (buffer.set x (TreeSet.add TCPPacket.compareTo packet (buffer.get x)))

def getPacketsCountInBuffer (buffer : PacketsBuffer) : Nat :=
  buffer.client.length + buffer.server.length

/-- `hasDataPackets`. -/
def hasDataPackets (buffer : List TCPPacket) : Bool := buffer.any TCPPacket.isContainsData

end PacketsBuffer

/-! ## The connection -/

structure TCPConnectionImpl where
  connectionDetail : ConnectionDetail
  counter : SequenceCounter := ⟨{}, {}⟩
  /-- `null` until the first packet has been processed. -/
  state : Option TCPConnectionState := none
  /-- `clientInputStream` and `serverInputStream`. -/
  inputStream : BySide DynamicByteArrayInputStream
  lastUpdated : Date
  maybeBroken : Bool := false
  packetsBuffer : PacketsBuffer := ⟨[], []⟩
  /-- History: the packets handled so far and the state each one met. -/
  handled : List (Option TCPConnectionState × TCPPacket) := []

namespace TCPConnectionImpl

/-- `new TCPConnectionImpl(connectionDetail)`. -/
def create (now : Date) (connectionDetail : ConnectionDetail) : TCPConnectionImpl where
  connectionDetail := connectionDetail
  inputStream :=
    ⟨{ currentStreamStartTime := now }, { currentStreamStartTime := now }⟩
  lastUpdated := now

/-- Both streams are finished. -/
def isFinished (c : TCPConnectionImpl) : Bool :=
  c.inputStream.client.isFinished && c.inputStream.server.isFinished

def updated (now : Date) (c : TCPConnectionImpl) : TCPConnectionImpl :=
  { c with lastUpdated := now }

/-- Enter a packet into the history. -/
def record (c : TCPConnectionImpl) (met : Option TCPConnectionState) (packet : TCPPacket) :
    TCPConnectionImpl :=
  { c with handled := c.handled ++ [(met, packet)] }

/-! ### The handshake -/

def processSyncPacket (syncPacket : TCPPacket) (c : TCPConnectionImpl) : TCPConnectionImpl :=
  { c with
    counter := c.counter.update .client syncPacket
    state := some .synSent }.record c.state syncPacket

def processSyncAckPacket (syncAckPacket : TCPPacket) (c : TCPConnectionImpl) :
    Outcome Throwable TCPConnectionImpl :=
  if syncAckPacket.ackNum ≠ c.counter.client.seq + 1 then
    .thrown (.runtimeException "sync packet ack number is incorrect!") c
  else
    .returned ({ c with
      counter := (c.counter.update .server syncAckPacket).sequenceAddOne .client
      state := some .synReceived }.record c.state syncAckPacket)

def processHandshake3AckPacket (ackPacket : TCPPacket) (c : TCPConnectionImpl) :
    Outcome Throwable TCPConnectionImpl :=
  if ackPacket.ackNum ≠ c.counter.server.seq + 1 then
    .thrown (.runtimeException
      ("syn packet ack number " ++ toString ackPacket.ackNum ++ " is incorrect!")) c
  else
    .returned { c with
      counter := (c.counter.update .client ackPacket).sequenceAddOne .server
      state := some .established }

/-! ### Acknowledgements while closing -/

def processFinishWait1AckPacket (ackPacket : TCPPacket) (c : TCPConnectionImpl) :
    TCPConnectionImpl :=
  { c with
    counter := c.counter.update ackPacket.side ackPacket
    state := some .closeWait }

def processLastAckPacket (ackPacket : TCPPacket) (c : TCPConnectionImpl) : TCPConnectionImpl :=
  { c with
    maybeBroken :=
      c.maybeBroken || ackPacket.ackNum == (c.counter.get ackPacket.side.other).seq + 1
    counter := c.counter.update ackPacket.side ackPacket
    state := some .closed }

/-- `processAckPacket`: the `switch` on the state.  Data acknowledgements
do nothing, and the states not listed have no case. -/
def processAckPacket (ackPacket : TCPPacket) (c : TCPConnectionImpl) :
    Outcome Throwable TCPConnectionImpl :=
  match c.state with
  | none => .thrown .nullPointerException c
  | some .synReceived => c.processHandshake3AckPacket ackPacket
  | some .finishWait1 => .returned (c.processFinishWait1AckPacket ackPacket)
  | some .lastAck => .returned (c.processLastAckPacket ackPacket)
  | some _ => .returned c

/-! ### Which packets can be processed -/

/-- `isMatchSequence`: the packet starts where its sender's counter is. -/
def isMatchSequence (c : TCPConnectionImpl) (packet : TCPPacket) : Except Throwable Bool :=
  let isSentByClient := c.connectionDetail.isTheSame packet.connectionDetail
  c.counter.isMatchSeq (if isSentByClient then .client else .server) packet

/-- `isCanProcessPacket`.  A packet with data, RST or FIN must also
acknowledge what its sender acknowledged last or all that the other side
has sent. -/
def isCanProcessPacket (c : TCPConnectionImpl) (packet : TCPPacket) : Except Throwable Bool :=
  match c.isMatchSequence packet with
  | .error e => .error e
  | .ok canProcess =>
    if canProcess && (packet.isContainsData || packet.rst || packet.fin) then
      .ok (packet.ackNum == (c.counter.get packet.side).ack
        || packet.ackNum == (c.counter.get packet.side.other).seq)
    else .ok canProcess

def isOldPacket (c : TCPConnectionImpl) (packet : TCPPacket) : Bool :=
  decide (packet.sequence < (c.counter.get packet.side).seq)

/-! ### Data -/

/-- What `processSCDataPacket` does to the client stream, and
`processCSDataPacket` to the server stream: a packet that starts where the
other side last acknowledged to ends the other side's message. -/
def finishOtherStream (now : Date) (dataPacket : TCPPacket) (c : TCPConnectionImpl) :
    TCPConnectionImpl :=
  let other := dataPacket.side.other
  if (c.counter.get other).ack = dataPacket.sequence then
    let (success, stream) := (c.inputStream.get other).finish true now
    { c with
      inputStream := c.inputStream.set other
        (if success then
          stream.markStreamStartTime (c.counter.get other).latestPacketUpdateTime
        else stream) }
  else c

/-- The first packet of a side starts the clock of its stream. -/
def markFirstPacket (dataPacket : TCPPacket) (c : TCPConnectionImpl) : TCPConnectionImpl :=
  if (c.counter.get dataPacket.side).seq = 0 then
    { c with
      inputStream := c.inputStream.set dataPacket.side
        ((c.inputStream.get dataPacket.side).markStreamStartTime dataPacket.usec) }
  else c

/-- Append the payload to the sender's stream and move its counter. -/
def appendData (dataPacket : TCPPacket) (c : TCPConnectionImpl) :
    Outcome Throwable TCPConnectionImpl :=
  match (c.inputStream.get dataPacket.side).append dataPacket.data with
  | .thrown e stream =>
    .thrown e { c with inputStream := c.inputStream.set dataPacket.side stream }
  | .returned stream =>
    .returned { c with
      inputStream := c.inputStream.set dataPacket.side stream
      counter := c.counter.update dataPacket.side dataPacket }

/-- `processDataPacket`: `processCSDataPacket` or `processSCDataPacket`,
by the side that sent the packet. -/
def processDataPacket (now : Date) (dataPacket : TCPPacket) (c : TCPConnectionImpl) :
    Outcome Throwable TCPConnectionImpl :=
  ((c.finishOtherStream now dataPacket).markFirstPacket dataPacket).appendData dataPacket

/-! ### FIN and RST -/

/-- `updateConnectionStateAfterReceivedFinishPacket`. -/
def updateConnectionStateAfterReceivedFinishPacket :
    Option TCPConnectionState → Option TCPConnectionState
  | some .established => some .finishWait1
  | some .closeWait => some .lastAck
  | some .finishWait1 => some .closing
  | state => state

/-- `validateDataPacketsInBuffer`: data left over for a finished stream. -/
def validateDataPacketsInBuffer (c : TCPConnectionImpl) : TCPConnectionImpl :=
  { c with
    maybeBroken := c.maybeBroken
      || (c.inputStream.client.isFinished && PacketsBuffer.hasDataPackets c.packetsBuffer.client)
      || (c.inputStream.server.isFinished
        && PacketsBuffer.hasDataPackets c.packetsBuffer.server) }

def processFinishPacket (now : Date) (packet : TCPPacket) (c : TCPConnectionImpl) :
    TCPConnectionImpl :=
  { c with
    inputStream := c.inputStream.set packet.side
      ((c.inputStream.get packet.side).finish false now).2
    state := updateConnectionStateAfterReceivedFinishPacket c.state
    counter := (c.counter.update packet.side packet).sequenceAddOne packet.side
  }.validateDataPacketsInBuffer

/-- `finish(false)` on a stream that is not finished yet. -/
def finishIfOpen (now : Date) (stream : DynamicByteArrayInputStream) :
    DynamicByteArrayInputStream :=
  if stream.isFinished then stream else (stream.finish false now).2

def processRstPacket (now : Date) (rstPacket : TCPPacket) (c : TCPConnectionImpl) :
    TCPConnectionImpl :=
  { c with
    counter := c.counter.update rstPacket.side rstPacket
    inputStream :=
      ⟨finishIfOpen now c.inputStream.client, finishIfOpen now c.inputStream.server⟩
  }.validateDataPacketsInBuffer

/-! ### `PacketsBuffer.pickupPacket` -/

/-- `pickupCSBuffer` and `pickupSCBuffer` on one direction's packets: drop
old packets from the front, and take the first one out if it can be
processed.  The second component is what stays in the buffer.  The source
says `remove(first())`, which on a tree whose numbers are wider apart than
`compareTo` can tell may miss the first packet. -/
def pickupBuffer (c : TCPConnectionImpl) :
    List TCPPacket → Outcome Throwable (Option TCPPacket × List TCPPacket)
  | [] => .returned (none, [])
  | packet :: rest =>
    match c.isCanProcessPacket packet with
    | .error e => .thrown e (none, packet :: rest)
    | .ok true => .returned (some packet, rest)
    | .ok false =>
      if c.isOldPacket packet then c.pickupBuffer rest
      else .returned (none, packet :: rest)

/-- The connection with other packets in the buffer of one side. -/
def setBuffer (c : TCPConnectionImpl) (x : Side) (packets : List TCPPacket) :
    TCPConnectionImpl :=
  { c with packetsBuffer := c.packetsBuffer.set x packets }

/-- `pickupCSBuffer` for the client and `pickupSCBuffer` for the server. -/
def pickupFrom (c : TCPConnectionImpl) (x : Side) :
    Outcome Throwable (Option TCPPacket × TCPConnectionImpl) :=
  (c.pickupBuffer (c.packetsBuffer.get x)).map fun picked => (picked.1, c.setBuffer x picked.2)

/-- `pickupPacket`: the client's packets first. -/
def pickupPacket (c : TCPConnectionImpl) :
    Outcome Throwable (Option TCPPacket × TCPConnectionImpl) :=
  (c.pickupFrom .client).andThen fun picked =>
    match picked.1 with
    | some p => .returned (some p, picked.2)
    | none => picked.2.pickupFrom .server

end TCPConnectionImpl

end ConnectionSniffer
