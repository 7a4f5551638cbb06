import ConnectionSniffer.Connection.JpcapFilter
import ConnectionSniffer.Io.DynamicByteArrayInputStream
import ConnectionSniffer.Library.Pointer

/-!
# The packet classes of jpcap

The Java objects that the native code fills in.  The number fields of
these classes are `Int` here, whatever their width: the conversions to `jbyte`,
`jshort` and `jint` stand where the native code makes them.  A field that
no setter has reached has its Java default, and an array that may be missing
is an `Option`.

An address is the byte array that the setter hands to
`InetAddress.getByAddress`.

The class of an object is fixed when the object is allocated, and
`Body` has the fields below `Packet` that the class brings.
-/

namespace ConnectionSniffer

namespace Jpcap

/-- The conversion to a `jbyte`. -/
def toByte (x : Int) : Int := x.bmod 256

structure EthernetPacket where
  dstMac : List UInt8
  srcMac : List UInt8
  frametype : Int
  deriving DecidableEq

structure PPPOEPacket extends EthernetPacket where
  version : Int
  type : Int
  code : Int
  sessionId : List UInt8
  payloadLen : Int
  deriving DecidableEq

/-- An object of the class `DatalinkPacket` or of one below it. -/
inductive DatalinkPacket where
  | datalink
  | ethernet (packet : EthernetPacket)
  | pppoe (packet : PPPOEPacket)
  deriving DecidableEq

structure IPv6Option where
  type : Int
  nextHeader : Int
  hlen : Int
  option : Option (List UInt8) := none
  routingType : Int := 0
  hopLeft : Int := 0
  addrs : Option (List (List UInt8)) := none
  offset : Int := 0
  mFlag : Bool := false
  identification : Int := 0
  spi : Int := 0
  sequence : Int := 0
  deriving DecidableEq

structure IPPacket where
  version : Int := 0
  priority : Int := 0
  dFlag : Bool := false
  tFlag : Bool := false
  rFlag : Bool := false
  rsvTos : Int := 0
  length : Int := 0
  rsvFrag : Bool := false
  dontFrag : Bool := false
  moreFrag : Bool := false
  offset : Int := 0
  hopLimit : Int := 0
  protocol : Int := 0
  ident : Int := 0
  flowLabel : Int := 0
  srcIp : Option (List UInt8) := none
  dstIp : Option (List UInt8) := none
  option : Option (List UInt8) := none
  options : List IPv6Option := []
  deriving DecidableEq

structure TCPPacket where
  srcPort : Int := 0
  dstPort : Int := 0
  sequence : Int := 0
  ackNum : Int := 0
  urg : Bool := false
  ack : Bool := false
  psh : Bool := false
  rst : Bool := false
  syn : Bool := false
  fin : Bool := false
  rsv1 : Bool := false
  rsv2 : Bool := false
  window : Int := 0
  urgentPointer : Int := 0
  option : Option (List UInt8) := none
  deriving DecidableEq

structure UDPPacket where
  srcPort : Int := 0
  dstPort : Int := 0
  length : Int := 0
  deriving DecidableEq

structure ICMPPacket where
  type : Int := 0
  code : Int := 0
  checksum : Int := 0
  id : Int := 0
  seq : Int := 0
  subnetmask : Int := 0
  origTimestamp : Int := 0
  recvTimestamp : Int := 0
  transTimestamp : Int := 0
  mtu : Int := 0
  ippacket : Option IPPacket := none
  redirIp : Option (List UInt8) := none
  deriving DecidableEq

structure ARPPacket where
  hardtype : Int := 0
  prototype : Int := 0
  hlen : Int := 0
  plen : Int := 0
  operation : Int := 0
  senderHardaddr : Option (List UInt8) := none
  senderProtoaddr : Option (List UInt8) := none
  targetHardaddr : Option (List UInt8) := none
  targetProtoaddr : Option (List UInt8) := none
  deriving DecidableEq

/-- The class of a packet object, with the fields that it adds to `Packet`;
`plain` is `Packet` itself. -/
inductive Body where
  | plain
  | arp (arp : ARPPacket)
  | ip (ip : IPPacket)
  | tcp (ip : IPPacket) (tcp : TCPPacket)
  | udp (ip : IPPacket) (udp : UDPPacket)
  | icmp (ip : IPPacket) (icmp : ICMPPacket)
  deriving DecidableEq

/-- A packet object; `data` stays `null` when the payload length came out
negative. -/
structure Packet where
  sec : Int
  usec : Int
  caplen : Int
  len : Int
  datalink : DatalinkPacket
  header : List UInt8
  data : Option (List UInt8)
  body : Body
  deriving DecidableEq

namespace Body

/-- A setter of `IPPacket`. -/
def mapIp (set : IPPacket → IPPacket) : Body → Body
  | plain => plain
  | arp a => arp a
  | ip i => ip (set i)
  | tcp i t => tcp (set i) t
  | udp i u => udp (set i) u
  | icmp i c => icmp (set i) c

/-- A setter of `TCPPacket`. -/
def mapTcp (set : TCPPacket → TCPPacket) : Body → Body
  | tcp i t => tcp i (set t)
  | other => other

/-- A setter of `UDPPacket`. -/
def mapUdp (set : UDPPacket → UDPPacket) : Body → Body
  | udp i u => udp i (set u)
  | other => other

/-- A setter of `ICMPPacket`. -/
def mapIcmp (set : ICMPPacket → ICMPPacket) : Body → Body
  | icmp i c => icmp i (set c)
  | other => other

/-- A setter of `ARPPacket`. -/
def mapArp (set : ARPPacket → ARPPacket) : Body → Body
  | arp a => arp (set a)
  | other => other

/-- `setOption`.  `TCPPacket` overrides the method of `IPPacket`, so on a
`TCPPacket` the options of both headers go to one field. -/
def setOption (option : List UInt8) : Body → Body
  | tcp i t => tcp i { t with option := some option }
  | other => other.mapIp fun i => { i with option := some option }

end Body

end Jpcap

end ConnectionSniffer
