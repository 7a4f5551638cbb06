import ConnectionSniffer.Jpcap.Analyze
import ConnectionSniffer.Library.OnesComplement

/-!
# Sending packets

The native sender writes a packet object into a buffer on the stack and
hands it to pcap.  One function for each `set_` function of the native code:
it gets a pointer to its header and gives the memory after its stores, so
what it does not store keeps what the stack happened to hold.

The result is `none` where a call of the JNI fails: for an array that is
missing or too short.

As in the rest of the native code the machine is little-endian.
-/

namespace ConnectionSniffer

namespace Jpcap

/-- `MAX_PACKET_SIZE`. -/
def maxPacketSize : Nat := 1600

/-- `GetByteArrayRegion(env,array,0,n,…)`. -/
def region (array : Option (List UInt8)) (n : Nat) : Option (List UInt8) :=
  array.bind fun bytes => if n ≤ bytes.length then some (bytes.take n) else none

/-- The conversion to a `u_char`. -/
def toUChar (x : Int) : Nat := (x % 256).toNat

/-- The conversion to a `u_short`. -/
def toUShort (x : Int) : Nat := (x % 65536).toNat

/-- The conversion to a `u_int`. -/
def toUInt (x : Int) : Nat := (x % 2 ^ 32).toNat

/-- `b ? v : 0`. -/
def flag (b : Bool) (v : Nat) : Nat := if b then v else 0

/-! ## Checksums -/

/-- The loop over the words: the sum, and what is left. -/
def addWords (sum : Nat) (data : Pointer) : Nat → Nat × Pointer × Nat
  | size + 2 => addWords (sum + data.u16 0) (data.add 2) size
  | size => (sum, data, size)

/-- `in_cksum`.  Of the last byte of an odd number it takes the one behind
it. -/
def inCksum (data : Pointer) (size : Nat) : Nat :=
  let (sum, data, size) := addWords 0 data size
  onesComplement (if 0 < size then sum + data.u16 0 / 256 * 256 else sum)

/-- The words of the IPv4 header that the checksum of a transport header
covers. -/
def pseudoSum (ip : Pointer) : Nat :=
  ip.u16 12 + ip.u16 14 + ip.u16 16 + ip.u16 18 + ntohs (ip 9).toNat

/-- `in_cksum2`. -/
def inCksum2 (ip : Pointer) (len : Nat) (data : Pointer) (size : Nat) : Nat :=
  let (sum, data, size) := addWords (pseudoSum ip + len) data size
  onesComplement (if 0 < size then sum + (data 0).toNat else sum)

/-! ## Headers -/

/-- `set_ether`; the result has the length of the header. -/
def setEther (packet : DatalinkPacket) (pointer : Pointer) : Option (Pointer × Int) :=
  let set (ether : EthernetPacket) : Option (Pointer × Int) := do
    let src ← region (some ether.srcMac) 6
    let dst ← region (some ether.dstMac) 6
    some (((pointer.write 6 src).write 0 dst).put16 12 (ntohs (toUShort ether.frametype)), 14)
  match packet with
  | .datalink => some (pointer, 0)
  | .ethernet ether => set ether
  | .pppoe pppoe => set pppoe.toEthernetPacket

/-- `set_ip`. -/
def setIp (ip : IPPacket) (pointer : Pointer) : Option Pointer := do
  let src ← region ip.srcIp 4
  let dst ← region ip.dstIp 4
  let ipOff := flag ip.rsvFrag 0x8000 + flag ip.dontFrag 0x4000 + flag ip.moreFrag 0x2000 +
    ntohs (toUShort ip.offset)
  let ipTos := ip.priority * 32 + ip.rsvTos + flag ip.dFlag 0x10 + flag ip.tFlag 0x08 +
    flag ip.rFlag 0x04
  let pointer := pointer.put8 0 0x45
  let pointer := pointer.put16 4 (ntohs (toUShort ip.ident))
  let pointer := pointer.put16 6 ipOff
  let pointer := pointer.put8 8 (toUChar ip.hopLimit)
  let pointer := pointer.put8 1 (toUChar ipTos)
  some ((pointer.write 12 src).write 16 dst)

/-- `set_ipv6`. -/
def setIpv6 (ip : IPPacket) (pointer : Pointer) : Option Pointer := do
  let src ← region ip.srcIp 16
  let dst ← region ip.dstIp 16
  let pointer := pointer.put32 0 0
  let pointer := pointer.put8 0 0x60
  let pointer := pointer.write 8 src
  let pointer := pointer.write 24 dst
  let ip6Flow := (toUInt (ip.priority * 2 ^ 20) ||| toUInt ip.flowLabel) % 2 ^ 28
  let pointer := pointer.put32 0 (pointer.u32 0 ||| ntohl ip6Flow)
  let pointer := pointer.put8 6 (toUChar ip.protocol)
  some (pointer.put8 7 (toUChar ip.hopLimit))

/-- `set_tcp`; `ip` is the IP header in front of it. -/
def setTcp (tcp : TCPPacket) (data : Option (List UInt8)) (ip pointer : Pointer) :
    Option Pointer := do
  let bytes ← data
  let thFlags := flag tcp.rsv1 128 + flag tcp.rsv2 64 + flag tcp.urg 32 + flag tcp.ack 16 +
    flag tcp.psh 8 + flag tcp.rst 4 + flag tcp.syn 2 + flag tcp.fin 1
  let pointer := pointer.put16 0 (ntohs (toUShort tcp.srcPort))
  let pointer := pointer.put16 2 (ntohs (toUShort tcp.dstPort))
  let pointer := pointer.put32 4 (ntohl (toUInt tcp.sequence))
  let pointer := pointer.put32 8 (ntohl (toUInt tcp.ackNum))
  let pointer := pointer.put8 12 (5 * 16 + (pointer 12).toNat % 16)
  let pointer := pointer.put8 13 thFlags
  let pointer := pointer.put16 14 (ntohs (toUShort tcp.window))
  let pointer := pointer.put16 18 (ntohs (toUShort tcp.urgentPointer))
  let length := min bytes.length (maxPacketSize - 20 - 20)
  let pointer := pointer.write 20 (bytes.take length)
  let pointer := pointer.put16 16 0
  some (pointer.put16 16 (inCksum2 ip (ntohs (length + 20)) pointer (length + 20)))

/-- `set_udp`. -/
def setUdp (udp : UDPPacket) (data : Option (List UInt8)) (ip pointer : Pointer) :
    Option Pointer := do
  let bytes ← data
  let pointer := pointer.put16 0 (ntohs (toUShort udp.srcPort))
  let pointer := pointer.put16 2 (ntohs (toUShort udp.dstPort))
  let length := min bytes.length (maxPacketSize - 20 - 8)
  let pointer := pointer.put16 4 (ntohs (length + 8))
  let pointer := pointer.write 8 (bytes.take length)
  let pointer := pointer.put16 6 0
  let sum := inCksum2 ip (pointer.u16 4) pointer (length + 8)
  some (pointer.put16 6 (if sum = 0 then 0xffff else sum))

/-- The checksum of an ICMP header and what follows it. -/
def setIcmpCksum (pointer : Pointer) (size : Nat) : Pointer :=
  let pointer := pointer.put16 2 0
  pointer.put16 2 (inCksum pointer size)

/-- `set_icmp`; the result has what it adds to the length. -/
def setIcmp (icmp : ICMPPacket) (data : Option (List UInt8)) (pointer : Pointer) :
    Option (Pointer × Int) :=
  let bytes := data.getD []
  let type := toUChar icmp.type
  let pointer := (pointer.put8 0 type).put8 1 (toUChar icmp.code)
  let identified := (pointer.put16 4 (ntohs (toUShort icmp.id))).put16 6 (ntohs (toUShort icmp.seq))
  if type = 0 ∨ type = 8 then
    some (setIcmpCksum (identified.write 8 bytes) (8 + bytes.length), 8)
  else if type = 5 ∨ type = 3 ∨ type = 4 ∨ type = 11 ∨ type = 12 then do
    -- a redirect falls through to the others
    let pointer ←
      if type = 5 then (region icmp.redirIp 4).map (pointer.write 4) else some pointer
    match icmp.ippacket with
    | none => some (setIcmpCksum pointer 12, 12 - bytes.length)
    | some ippacket => do
      let pointer ← pointer.within 8 (setIp ippacket)
      some (setIcmpCksum pointer 32, 32 - bytes.length)
  else if type = 13 ∨ type = 14 then
    let pointer := identified.put32 8 (ntohl (toUInt icmp.origTimestamp))
    let pointer := pointer.put32 12 (ntohl (toUInt icmp.recvTimestamp))
    let pointer := pointer.put32 16 (ntohl (toUInt icmp.transTimestamp))
    some (setIcmpCksum pointer 20, 20 - bytes.length)
  else if type = 17 ∨ type = 18 then
    let pointer := identified.put32 8 (ntohl (toUInt icmp.subnetmask))
    some (setIcmpCksum pointer 12, 12 - bytes.length)
  else some (pointer, 0)

/-- `set_arp`. -/
def setArp (arp : ARPPacket) (pointer : Pointer) : Option Pointer := do
  let hlen := toUChar arp.hlen
  let plen := toUChar arp.plen
  let sha ← region arp.senderHardaddr hlen
  let spa ← region arp.senderProtoaddr plen
  let tha ← region arp.targetHardaddr hlen
  let tpa ← region arp.targetProtoaddr plen
  let pointer := pointer.put16 0 (ntohs (toUShort arp.hardtype))
  let pointer := pointer.put16 2 (ntohs (toUShort arp.prototype))
  let pointer := pointer.put16 6 (ntohs (toUShort arp.operation))
  let pointer := pointer.put8 4 hlen
  let pointer := pointer.put8 5 plen
  -- the addresses have the places of Ethernet and IPv4, whatever their lengths
  some ((((pointer.write 8 sha).write 14 spa).write 18 tha).write 24 tpa)

/-! ## `set_packet` -/

/-- The number of bytes in `data`. -/
def dataLength (data : Option (List UInt8)) : Nat := (data.getD []).length

/-- The transport header behind an IP header of `hlen` bytes, and what
`set_packet` enters for it into that header through `enter`. -/
def setTransport (packet : Packet) (ip : IPPacket) (hlen : Nat)
    (enter : Nat → Int → Pointer → Pointer) (pointer : Pointer) : Option (Pointer × Int) :=
  let length : Int := dataLength packet.data + hlen
  match packet.body with
  | .tcp _ tcp =>
    let pointer := enter 6 (length + 20) pointer
    (pointer.within hlen (setTcp tcp packet.data pointer)).map fun p => (p, length + 20)
  | .udp _ udp =>
    let pointer := enter 17 (length + 8) pointer
    (pointer.within hlen (setUdp udp packet.data pointer)).map fun p => (p, length + 8)
  | .icmp _ icmp => do
    let (set, added) ← setIcmp icmp packet.data (pointer.add hlen)
    some (enter 1 (length + added) (set.add (-hlen)), length + added)
  | _ => do
    let bytes ← packet.data
    some ((enter (toUChar ip.protocol) length pointer).write hlen bytes, length)

/-- `ip_p` and `ip_len`. -/
def enterIp (protocol : Nat) (length : Int) (pointer : Pointer) : Pointer :=
  (pointer.put8 9 protocol).put16 2 (toUShort length)

/-- `ip6_nxt` and `ip6_plen`, which stays in the order of the machine. -/
def enterIpv6 (protocol : Nat) (length : Int) (pointer : Pointer) : Pointer :=
  (pointer.put8 6 protocol).put16 4 (toUShort length)

/-- The end of `set_packet` for IPv4: the byte order of `ip_len` and `ip_off`,
and the checksum. -/
def finishIp (pointer : Pointer) : Pointer :=
  let pointer := pointer.put16 2 (ntohs (pointer.u16 2))
  let pointer := pointer.put16 6 (ntohs (pointer.u16 6))
  let pointer := pointer.put16 10 0
  pointer.put16 10 (inCksum pointer 20)

/-- `set_packet` behind the datalink header. -/
def setIpPacket (packet : Packet) (ip : IPPacket) (pointer : Pointer) : Option (Pointer × Int) :=
  if ip.version = 4 then do
    let pointer ← setIp ip pointer
    let (pointer, length) ← setTransport packet ip 20 enterIp pointer
    some (finishIp pointer, length)
  else do
    let pointer ← setIpv6 ip pointer
    setTransport packet ip 40 enterIpv6 pointer

def setBody (packet : Packet) (pointer : Pointer) : Option (Pointer × Int) :=
  match packet.body with
  | .ip ip => setIpPacket packet ip pointer
  | .tcp ip _ => setIpPacket packet ip pointer
  | .udp ip _ => setIpPacket packet ip pointer
  | .icmp ip _ => setIpPacket packet ip pointer
  | .arp arp => (setArp arp pointer).map fun p => (p, dataLength packet.data + 28)
  | .plain => packet.data.map fun bytes => (pointer.write 0 bytes, (bytes.length : Int))

/-- `set_packet`; the result has the length of the frame. -/
def setPacket (packet : Packet) (includeDatalink : Bool) (pointer : Pointer) :
    Option (Pointer × Int) := do
  let (pointer, dthlen) ←
    if includeDatalink then setEther packet.datalink pointer else some (pointer, 0)
  let (set, length) ← setBody packet (pointer.add dthlen)
  some (set.add (-dthlen), length + dthlen)

/-- `nativeSendPacket`, up to the call of `pcap_sendpacket`: the buffer and
the number of bytes to send. -/
def nativeSendPacket (packet : Packet) (buf : Pointer) : Option (Pointer × Int) := do
  let (buf, length) ← setPacket packet true buf
  if length < 60 then
    some (buf.write length (List.replicate (60 - length + 1).toNat 0), 60)
  else some (buf, length)

end Jpcap

end ConnectionSniffer
