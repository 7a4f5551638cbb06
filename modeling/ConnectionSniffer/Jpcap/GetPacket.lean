import ConnectionSniffer.Jpcap.Analyze

/-!
# `get_packet`

The native capture loop turns each frame into a packet object.  A frame is
the header that pcap gives and a pointer to the captured bytes; what lies
behind the captured bytes is part of the frame as well, because `get_packet`
does not always stay inside them.

An instance of the captor is an index into two global arrays: `linktypes`
is set when the device is opened, and `linktypes_ext` is written by
`get_packet` itself.  The frame before this one is thus visible in the
state, and nowhere else.

Lengths are `short`: every assignment to one goes through `toShort`.  The
comparison that clips the length is made on unsigned 32-bit values.  No
`JpcapFilter` is set; `JpcapFilter.doFilter` is the model of that part.

The result is `none` if the header length came out negative, for then the
array of the header cannot be made, and if the loop of `analyze_ipv6` has
not ended after `bound` turns.
-/

namespace ConnectionSniffer

namespace Jpcap

def etherTypeIp : Nat := 0x0800

def etherTypeIpPacket : Nat := 0x0021

def etherTypeArp : Nat := 0x0806

def etherTypeRevarp : Nat := 0x8035

def etherTypeIpv6 : Nat := 0x86dd

/-- `UNKNOWN_PROTO`, which is also what -1 is as a `u_short`. -/
def unknownProto : Nat := 0xffff

def dltEn10mb : Nat := 1

def dltIeee802 : Nat := 6

def dltRaw : Nat := 12

def offsetType : List Int := [0, 12, -1, -1, -1, -1, 20, -1, -1, 2, 19, 6, -1, -1, 5]

def offsetData : List Int := [4, 14, -1, -1, -1, -1, 22, -1, 16, 4, 21, 8, 0, 24, 24]

def pppoeOffset : Int := 8

/-- `struct pcap_pkthdr`. -/
structure PcapPkthdr where
  sec : Int
  usec : Int
  caplen : UInt32
  len : UInt32
  deriving DecidableEq

structure Frame where
  header : PcapPkthdr
  data : Pointer

/-- The entries of the global arrays for one captor. -/
structure Instance where
  linktype : Nat
  linktypeExt : Nat := 0
  deriving DecidableEq

/-- `datalink_hlen`. -/
def datalinkHlen (linktype : Nat) (offset : Int) : Int := offsetData.getD linktype 0 + offset

/-- `get_network_type`. -/
def getNetworkType (data : Pointer) (linktype : Nat) (offset : Int) : Nat :=
  ntohs (data.u16 (offsetType.getD linktype 0 + offset))

/-- `skip_datalink_header`. -/
def skipDatalinkHeader (data : Pointer) (linktype : Nat) (offset : Int) : Pointer :=
  data.add (datalinkHlen linktype offset)

/-- The local variables after the network protocol has been analyzed, and
`linktypes_ext[id]`. -/
structure Network where
  nproto : Nat
  offset : Int
  clen : Int
  linktypeExt : Nat
  deriving DecidableEq

/-- "Analyze network protocol". -/
def networkProtocol (i : Instance) (caplen : Nat) (data : Pointer) : Network :=
  let clen := toShort caplen
  if i.linktype = dltRaw then
    ⟨etherTypeIp, 0, toShort (clen - datalinkHlen i.linktype 0), i.linktypeExt⟩
  else if i.linktype = dltIeee802 ∨ i.linktype = dltEn10mb then
    let nproto := getNetworkType data i.linktype 0
    if nproto = etherTypePppoe then
      let nproto := getNetworkType data i.linktype pppoeOffset
      ⟨if nproto = etherTypeIpPacket then etherTypeIp else nproto, pppoeOffset,
        toShort (clen - datalinkHlen i.linktype pppoeOffset), etherTypePppoe⟩
    else ⟨nproto, 0, toShort (clen - datalinkHlen i.linktype 0), i.linktypeExt⟩
  else ⟨unknownProto, 0, clen, i.linktypeExt⟩

/-- The length that one turn of the loop over IPv6 extension headers skips. -/
def extensionLength (tproto : Nat) (dp : Pointer) : Nat :=
  if tproto = 51 then ((dp 1).toNat + 2) * 4
  else if tproto = 44 then 8
  else ((dp 1).toNat + 1) * 8

theorem extensionLength_pos (tproto : Nat) (dp : Pointer) : 0 < extensionLength tproto dp := by
  unfold extensionLength
  split_ifs <;> omega

theorem extensionLength_le (tproto : Nat) (dp : Pointer) : extensionLength tproto dp ≤ 2048 := by
  have hlen := (dp 1).toNat_lt
  unfold extensionLength
  split_ifs <;> omega

/-- The loop over IPv6 extension headers.  It starts at the IPv6 header
itself, and takes its first bytes for the first extension header. -/
def skipExtensions (tproto : Nat) (clen : Int) (dp : Pointer) : Nat × Int :=
  if _h : isExtension tproto ∧ 0 < clen ∧ clen < 32768 then
    let length := extensionLength tproto dp
    let next := (dp 0).toNat
    skipExtensions (if next = 50 ∨ next = 59 then unknownProto else next)
      (toShort (clen - length)) (dp.add length)
  else (tproto, clen)
termination_by clen.toNat
decreasing_by
  have hpos := extensionLength_pos tproto dp
  have hle := extensionLength_le tproto dp
  have hstep : toShort (clen - extensionLength tproto dp) = clen - extensionLength tproto dp :=
    Int.bmod_eq_of_le (by omega) (by omega)
  rw [hstep]
  omega

/-- The transport protocol and what is left of `clen`. -/
def transportProtocol (unset : Nat) (n : Network) (linktype : Nat) (data : Pointer) :
    Nat × Int :=
  if 0 < n.clen then
    let ip := skipDatalinkHeader data linktype n.offset
    if n.nproto = etherTypeIp then
      let clen := toShort (n.clen - (ip 0).toNat % 16 * 4)
      (if 0 < clen ∧ ntohs (ip.u16 6) % 8192 = 0 then (ip 9).toNat else etherTypeIp, clen)
    else if n.nproto = etherTypeIpv6 then
      let clen := toShort (n.clen - 40)
      if 0 < clen then skipExtensions (ip 6).toNat clen ip else (unset, clen)
    else if n.nproto = etherTypeArp then
      let clen := toShort (n.clen - 28)
      (if 0 < clen then etherTypeArp else unset, clen)
    else if n.nproto = unknownProto then (unknownProto, n.clen)
    else (getNetworkType data linktype n.offset, n.clen)
  else (unset, n.clen)

/-- "Check for truncated packet". -/
def checkTruncated (tproto : Nat) (clen : Int) : Nat :=
  if tproto = 6 ∧ clen < 20 ∨ tproto = 17 ∧ clen < 8 ∨ tproto = 1 ∧ clen < 8 then unknownProto
  else tproto

/-- "Create packet object". -/
def createPacket (tproto nproto : Nat) : Body :=
  if tproto = 6 then .tcp {} {}
  else if tproto = 17 then .udp {} {}
  else if tproto = 1 then .icmp {} {}
  else if nproto = etherTypeIp ∨ nproto = etherTypeIpv6 then .ip {}
  else if nproto = etherTypeArp ∨ nproto = etherTypeRevarp then .arp {}
  else .plain

/-- "Analyze Network": the object, `clen` and `hlen`. -/
def analyzeNetwork (bound nproto caplen : Nat) (dlHlen : Int) (data : Pointer) (packet : Body) :
    Option (Body × Int × Int) :=
  if nproto = etherTypeIp then
    let (packet, hlen) := analyzeIp data packet
    some (packet, toShort (ntohs (data.u16 2)), hlen)
  else if nproto = etherTypeIpv6 then
    (analyzeIpv6 bound data packet).map fun (packet, hlen) =>
      (packet, toShort (toShort (ntohs (data.u16 4)) + 40), toShort hlen)
  else if nproto = etherTypeArp then
    let (packet, hlen) := analyzeArp data packet
    some (packet, hlen, hlen)
  else if nproto = unknownProto then some (packet, toShort caplen, 0)
  else some (packet, toShort (caplen - dlHlen), 0)

/-- The length is clipped to the captured bytes. -/
def clip (nproto tproto caplen : Nat) (dlHlen clen : Int) : Int :=
  if nproto ≠ unknownProto ∧ tproto ≠ unknownProto ∧
      clen % 2 ^ 32 > (caplen - dlHlen) % 2 ^ 32 then toShort (caplen - dlHlen)
  else clen

/-- "Analyze Transport": the object and `hlen`. -/
def analyzeTransport (unset : Unset) (tproto : Nat) (data : Pointer) (clen : Int) (packet : Body) :
    Body × Int :=
  if tproto = 6 then
    let (packet, hlen) := analyzeTcp data packet
    (packet, hlen)
  else if tproto = 17 then (analyzeUdp data packet, 8)
  else if tproto = 1 then (analyzeIcmp unset data clen packet, 8)
  else (packet, 0)

/-- The second half of `get_packet`, from "Create packet object" on. -/
def buildPacket (bound : Nat) (unset : Unset) (linktype : Nat) (f : Frame) (n : Network)
    (tproto : Nat) : Option Packet :=
  let caplen := f.header.caplen.toNat
  let dlHlen := datalinkHlen linktype n.offset
  let start := if n.nproto ≠ unknownProto then dlHlen else 0
  match analyzeNetwork bound n.nproto caplen dlHlen (f.data.add start)
      (createPacket tproto n.nproto) with
  | none => none
  | some (body, clen, hlen) =>
    let clen := clip n.nproto tproto caplen dlHlen clen
    let data := start + hlen
    let clen := toShort (clen - hlen)
    let (body, hlen) := analyzeTransport unset tproto (f.data.add data) clen body
    let hlen := if hlen > clen then clen else hlen
    let clen := toShort (clen - hlen)
    let data := data + hlen
    let hlen := toShort data
    if hlen < 0 then none
    else some
      { sec := f.header.sec
        usec := f.header.usec
        caplen := toInt caplen
        len := toInt f.header.len.toNat
        datalink := analyzeDatalink f.data linktype n.linktypeExt
        header := f.data.bytes hlen.toNat
        data := if 0 ≤ clen then some ((f.data.add data).bytes clen.toNat) else none
        body := body }

/-- `get_packet`, without a `JpcapFilter`. -/
def getPacket (bound : Nat) (unset : Unset) (i : Instance) (f : Frame) :
    Option Packet × Instance :=
  let n := networkProtocol i f.header.caplen.toNat f.data
  let (tproto, clen) := transportProtocol unset.tproto.toNat n i.linktype f.data
  (buildPacket bound unset i.linktype f n (checkTruncated tproto clen),
    { i with linktypeExt := n.linktypeExt })

end Jpcap

end ConnectionSniffer
