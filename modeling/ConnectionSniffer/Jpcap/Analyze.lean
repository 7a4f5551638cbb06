import ConnectionSniffer.Jpcap.PacketClasses

/-!
# Decoding the headers

One function for each `analyze_` function of the native code.  Each gets a
pointer to its header and the object to fill in, reads what it wants, and
none of them knows how many bytes were captured.

The machine is little-endian, and a bit field of the source is the part of
its byte that the header files of the repository give it.  `analyzeIp` tests
the fragment flags on `ip_off` as it was loaded, without `ntohs`.
-/

namespace ConnectionSniffer

namespace Jpcap

/-- `ETHERTYPE_PPPOE`. -/
def etherTypePppoe : Nat := 0x8864

/-- `analyze_ip`; the result is the length of the header. -/
def analyzeIp (data : Pointer) (packet : Body) : Body × Nat :=
  let ipTos := (data 1).toNat
  let ipOff := data.u16 6
  let packet := packet.mapIp fun ip =>
    { ip with
      version := 4
      priority := ipTos / 32
      dFlag := ipTos.testBit 4
      tFlag := ipTos.testBit 3
      rFlag := ipTos.testBit 2
      rsvTos := ipTos % 4
      rsvFrag := ipOff.testBit 15
      dontFrag := ipOff.testBit 14
      moreFrag := ipOff.testBit 13
      offset := ntohs ipOff % 8192
      length := toShort (ntohs (data.u16 2))
      ident := toShort (ntohs (data.u16 4))
      hopLimit := (data 8).toNat
      protocol := (data 9).toNat
      srcIp := some ((data.add 12).bytes 4)
      dstIp := some ((data.add 16).bytes 4) }
  let hdrlen := (data 0).toNat % 16 * 4
  if hdrlen > 20 then (packet.setOption ((data.add 20).bytes (hdrlen - 20)), hdrlen)
  else (packet, hdrlen)

/-- `analyze_tcp`. -/
def analyzeTcp (data : Pointer) (packet : Body) : Body × Nat :=
  let thFlags := (data 13).toNat
  let packet := packet.mapTcp fun tcp =>
    { tcp with
      srcPort := ntohs (data.u16 0)
      dstPort := ntohs (data.u16 2)
      sequence := ntohl (data.u32 4)
      ackNum := ntohl (data.u32 8)
      urg := thFlags.testBit 5
      ack := thFlags.testBit 4
      psh := thFlags.testBit 3
      rst := thFlags.testBit 2
      syn := thFlags.testBit 1
      fin := thFlags.testBit 0
      rsv1 := thFlags.testBit 7
      rsv2 := thFlags.testBit 6
      window := ntohs (data.u16 14)
      urgentPointer := toShort (ntohs (data.u16 18)) }
  let hdrlen := (data 12).toNat / 16 * 4
  if hdrlen > 20 then (packet.setOption ((data.add 20).bytes (hdrlen - 20)), hdrlen)
  else (packet, hdrlen)

/-- `analyze_udp`. -/
def analyzeUdp (data : Pointer) (packet : Body) : Body :=
  packet.mapUdp fun udp =>
    { udp with
      srcPort := ntohs (data.u16 0)
      dstPort := ntohs (data.u16 2)
      length := ntohs (data.u16 4) }

/-- `analyze_arp`. -/
def analyzeArp (data : Pointer) (packet : Body) : Body × Nat :=
  let hl := (data 4).toNat
  let pl := (data 5).toNat
  let packet := packet.mapArp fun arp =>
    { arp with
      hardtype := toShort (ntohs (data.u16 0))
      prototype := toShort (ntohs (data.u16 2))
      hlen := hl
      plen := pl
      operation := toShort (ntohs (data.u16 6))
      senderHardaddr := some ((data.add 8).bytes hl)
      senderProtoaddr := some ((data.add (8 + hl)).bytes pl)
      targetHardaddr := some ((data.add (8 + hl + pl)).bytes hl)
      targetProtoaddr := some ((data.add (8 + hl + pl + hl)).bytes pl) }
  (packet, 8 + hl * 2 + pl * 2)

/-- What an uninitialised variable and the arguments that a variadic call
leaves out happen to be. -/
structure Unset where
  tproto : UInt16
  icmpId : UInt16
  icmpSeq : UInt16
  deriving DecidableEq

/-- `analyze_icmp`.  `setICMPValueMID` takes five arguments and gets three. -/
def analyzeIcmp (unset : Unset) (data : Pointer) (clen : Int) (packet : Body) : Body :=
  let type := (data 0).toNat
  let packet := packet.mapIcmp fun icmp =>
    { icmp with
      type := toByte type
      code := toByte (data 1).toNat
      checksum := toShort (data.u16 2)
      id := toShort unset.icmpId.toNat
      seq := toShort unset.icmpSeq.toNat }
  let packet :=
    if type = 0 ∨ type = 8 ∨ type > 12 then
      packet.mapIcmp fun icmp =>
        { icmp with id := toShort (data.u16 4) / 256, seq := toShort (data.u16 6) / 256 }
    else packet
  let packet :=
    if type = 5 then
      packet.mapIcmp fun icmp => { icmp with redirIp := some ((data.add 4).bytes 4) }
    else packet
  -- a redirect falls through to the unreachable case, and both to the cases below
  let packet :=
    if type = 5 ∨ type = 3 then
      packet.mapIcmp fun icmp => { icmp with mtu := toShort (data.u16 6) }
    else packet
  if type = 5 ∨ type = 3 ∨ type = 4 ∨ type = 11 ∨ type = 12 then
    if clen % 65536 < 36 then packet
    else
      match (analyzeIp (data.add 8) (.ip {})).1 with
      | .ip ippacket => packet.mapIcmp fun icmp => { icmp with ippacket := some ippacket }
      | _ => packet
  else if type = 13 ∨ type = 14 then
    packet.mapIcmp fun icmp =>
      { icmp with
        origTimestamp := toInt (data.u32 8)
        recvTimestamp := toInt (data.u32 12)
        transTimestamp := toInt (data.u32 16) }
  else if type = 17 ∨ type = 18 then
    packet.mapIcmp fun icmp => { icmp with subnetmask := toInt (data.u32 8) }
  else packet

/-- The next headers that both loops over IPv6 extension headers stop for. -/
def isExtension (proto : Int) : Prop :=
  proto = 0 ∨ proto = 60 ∨ proto = 43 ∨ proto = 51 ∨ proto = 44

instance (proto : Int) : Decidable (isExtension proto) := instDecidableOr

/-- One turn of the loop of `analyze_ipv6`: the option object, how far the
pointer moves and what is added to `hlen`. -/
def analyzeExtension (proto : Int) (data : Pointer) : IPv6Option × Nat × Nat :=
  let len := (data 1).toNat
  let opt : IPv6Option :=
    { type := proto, nextHeader := toByte (data 0).toNat, hlen := toByte len }
  if proto = 0 ∨ proto = 60 then
    ({ opt with option := some ((data.add 4).bytes len) }, (len + 1) * 8, (len + 1) * 8)
  else if proto = 43 then
    -- the loop over the addresses moves `data`, and copies the first one every time
    ({ opt with
        routingType := toByte (data 2).toNat
        hopLeft := toByte (data 3).toNat
        addrs := some (List.replicate (len / 2) ((data.add 8).bytes 16)) },
      len / 2 * 16 + (len + 1) * 8, (len + 1) * 8)
  else if proto = 44 then
    ({ opt with
        offset := toShort (ntohs (data.u16 2) / 8 * 8 : Nat)
        mFlag := (data.u16 2).testBit 8
        identification := toInt (ntohl (data.u32 4)) }, 8, 8)
  else
    ({ opt with
        spi := toInt (ntohl (data.u32 4))
        sequence := toInt (ntohl (data.u32 8))
        option := some ((data.add 96).bytes len) }, (len + 2) * 4, (len + 2) * 4)

/-- The loop of `analyze_ipv6`; `none` if it has not ended after `bound`
turns. -/
def analyzeExtensions (bound : Nat) (proto : Int) (data : Pointer) (hlen : Nat) (packet : Body) :
    Option (Body × Nat) :=
  if isExtension proto then
    match bound with
    | 0 => none
    | bound + 1 =>
      let (opt, moved, length) := analyzeExtension proto data
      analyzeExtensions bound (toByte (data 0).toNat) (data.add moved) (hlen + length)
        (packet.mapIp fun ip => { ip with options := ip.options ++ [opt] })
  else some (packet, hlen)

/-- `analyze_ipv6`.  The traffic class is cut to a byte before it is shifted,
and nothing is left of it. -/
def analyzeIpv6 (bound : Nat) (data : Pointer) (packet : Body) : Option (Body × Nat) :=
  let packet := packet.mapIp fun ip =>
    { ip with
      version := 6
      priority := 0
      flowLabel := toInt (ntohl (data.u32 0 % 2 ^ 20))
      length := toShort (ntohs (data.u16 4))
      protocol := toByte (data 6).toNat
      hopLimit := (data 7).toNat
      srcIp := some ((data.add 8).bytes 16)
      dstIp := some ((data.add 24).bytes 16) }
  analyzeExtensions bound (toByte (data 6).toNat) (data.add 40) 40 packet

/-- `analyze_datalink`. -/
def analyzeDatalink (data : Pointer) (linktype linktypeExt : Nat) : DatalinkPacket :=
  if linktype = 1 then
    let ether : EthernetPacket :=
      { dstMac := data.bytes 6
        srcMac := (data.add 6).bytes 6
        frametype := toShort (ntohs (data.u16 12)) }
    if linktypeExt = etherTypePppoe then
      .pppoe
        { ether with
          version := (data 14).toNat / 16
          type := (data 14).toNat % 16
          -- `code` is a signed byte that `ntohs` takes for two bytes
          code := toByte (ntohs (toByte (data 15).toNat % 65536).toNat)
          sessionId := (data.add 16).bytes 2
          payloadLen := toShort (ntohs (data.u16 18)) }
    else .ethernet ether
  else .datalink

end Jpcap

end ConnectionSniffer
