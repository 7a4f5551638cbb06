import ConnectionSniffer.Jpcap.PppoeTransparency
import ConnectionSniffer.Jpcap.SentSegment

/-!
# Sent packets, captured again

A TCP packet with an Ethernet header that `nativeSendPacket` has written is
a whole TCP segment on the wire, and `get_packet` reads from it what was
sent, whatever the buffer held before and whatever the frame was padded to.

It is not the whole of the packet: options are not sent, `length` and
`protocol` are what the sender computed, and the fragment flags do not come
back.  The sender stores them in network order, and `analyze_ip` tests the
word as it was loaded.
-/

namespace ConnectionSniffer

namespace Jpcap

open Pointer

/-- A TCP packet over IPv4 and Ethernet that fits into the buffer. -/
structure Sendable (packet : Packet) (ether : EthernetPacket) (ip : IPPacket) (tcp : TCPPacket)
    (src dst bytes : List UInt8) : Prop where
  datalink : packet.datalink = .ethernet ether
  body : packet.body = .tcp ip tcp
  data : packet.data = some bytes
  version : ip.version = 4
  srcMac : ether.srcMac.length = 6
  dstMac : ether.dstMac.length = 6
  srcIp : ip.srcIp = some src
  dstIp : ip.dstIp = some dst
  srcLength : src.length = 4
  dstLength : dst.length = 4
  fits : 14 + 40 + bytes.length ≤ maxPacketSize

section Sent

variable {packet : Packet} {ether : EthernetPacket} {ip : IPPacket} {tcp : TCPPacket}
  {src dst bytes : List UInt8}

theorem Sendable.length_le (h : Sendable packet ether ip tcp src dst bytes) :
    bytes.length ≤ 1546 := by
  have hfits := h.fits
  unfold maxPacketSize at hfits
  omega

/-- What `set_packet` leaves. -/
theorem Sendable.setPacket (h : Sendable packet ether ip tcp src dst bytes) (buf : Pointer) :
    ∃ sent, setPacket packet true buf = some (sent, (54 + bytes.length : Int)) ∧
      EtherSet ether sent ∧ SentIp ip tcp src dst bytes (sent.add 14) := by
  obtain ⟨framed, hframed, hether⟩ := setEther_spec h.srcMac h.dstMac buf
  obtain ⟨q, hq, hsent, hout⟩ := setIpPacket_spec h.body h.data h.version h.srcIp h.dstIp
    h.srcLength h.dstLength (Nat.le_trans h.length_le (by decide)) (framed.add 14)
  have hbehind : (q.add (-14)).add 14 = q := by
    rw [add_add]
    exact Pointer.add_zero q
  refine ⟨q.add (-14), ?_, ?_, ?_⟩
  · have hbody : setBody packet (framed.add 14) = some (q, (40 + bytes.length : Int)) := by
      unfold setBody
      rw [h.body]
      exact hq
    unfold Jpcap.setPacket
    rw [if_pos rfl, h.datalink, hframed, Option.bind_eq_bind, Option.bind_some]
    dsimp only
    rw [hbody, show (54 + bytes.length : Int) = 40 + bytes.length + 14 by omega]
    rfl
  · refine hether.congr fun k hk hlt => ?_
    rw [add_apply, hout (-14 + k) (by omega), add_apply, show (14 + (-14 + k) : Int) = k by omega]
  · rw [hbehind]
    exact hsent

/-- What `nativeSendPacket` hands to pcap: padding is behind the packet. -/
theorem Sendable.nativeSendPacket (h : Sendable packet ether ip tcp src dst bytes)
    (buf : Pointer) :
    ∃ sent, nativeSendPacket packet buf = some (sent, ((max 60 (54 + bytes.length) : Nat) : Int)) ∧
      EtherSet ether sent ∧ SentIp ip tcp src dst bytes (sent.add 14) := by
  obtain ⟨sent, hset, hether, hip⟩ := h.setPacket buf
  unfold Jpcap.nativeSendPacket
  rw [hset, Option.bind_eq_bind, Option.bind_some]
  dsimp only
  split_ifs with hshort
  · refine ⟨_, congrArg some (Prod.ext rfl (by dsimp only; omega)), ?_, ?_⟩
    · exact hether.congr fun k _ hlt => (write_of_lt _ (by omega)).symm
    · refine hip.congr fun k hk hlt => ?_
      rw [add_apply, add_apply, write_of_lt _ (by omega)]
  · exact ⟨sent, congrArg some (Prod.ext rfl (by dsimp only; omega)), hether, hip⟩

/-- Every field fits into its part of the headers, and the packet is no later
fragment. -/
structure Representable (ether : EthernetPacket) (ip : IPPacket) (tcp : TCPPacket) : Prop where
  frametype : ether.frametype = 0x0800
  priority : 0 ≤ ip.priority ∧ ip.priority < 8
  rsvTos : 0 ≤ ip.rsvTos ∧ ip.rsvTos < 4
  offset : ip.offset = 0
  hopLimit : 0 ≤ ip.hopLimit ∧ ip.hopLimit < 256
  srcPort : 0 ≤ tcp.srcPort ∧ tcp.srcPort < 65536
  dstPort : 0 ≤ tcp.dstPort ∧ tcp.dstPort < 65536
  sequence : 0 ≤ tcp.sequence ∧ tcp.sequence < 2 ^ 32
  ackNum : 0 ≤ tcp.ackNum ∧ tcp.ackNum < 2 ^ 32
  window : 0 ≤ tcp.window ∧ tcp.window < 65536
  urgentPointer : -32768 ≤ tcp.urgentPointer ∧ tcp.urgentPointer < 32768

/-- The fields of an IP packet after it has been sent with `payload` bytes
and captured. -/
def IPPacket.arriving (ip : IPPacket) (payload : Nat) : IPPacket :=
  { ip with
    version := 4
    length := 40 + payload
    ident := toShort ip.ident
    rsvFrag := false
    dontFrag := false
    moreFrag := false
    protocol := 6
    flowLabel := 0
    option := none
    options := [] }

/-- The fields of a TCP packet after it has been sent and captured. -/
def TCPPacket.arriving (tcp : TCPPacket) : TCPPacket := { tcp with option := none }

/-- The type of service comes apart into its fields again. -/
theorem tos_fields {priority rsvTos : Int} (hpriority : 0 ≤ priority ∧ priority < 8)
    (hrsvTos : 0 ≤ rsvTos ∧ rsvTos < 4) (d t r : Bool) {v : Nat}
    (hv : v = toUChar (priority * 32 + rsvTos + flag d 0x10 + flag t 0x08 + flag r 0x04)) :
    (v : Int) / 32 = priority ∧ v.testBit 4 = d ∧ v.testBit 3 = t ∧ v.testBit 2 = r ∧
      (v : Int) % 4 = rsvTos := by
  have hall : ∀ (i : Fin 8) (j : Fin 4) (d t r : Bool),
      let v := toUChar (i.val * 32 + j.val + flag d 0x10 + flag t 0x08 + flag r 0x04)
      v / 32 = i.val ∧ v.testBit 4 = d ∧ v.testBit 3 = t ∧ v.testBit 2 = r ∧ v % 4 = j.val := by
    decide +kernel
  obtain ⟨i, rfl⟩ := Int.eq_ofNat_of_zero_le hpriority.1
  obtain ⟨j, rfl⟩ := Int.eq_ofNat_of_zero_le hrsvTos.1
  have hfields := hall ⟨i, by omega⟩ ⟨j, by omega⟩ d t r
  dsimp only at hfields
  rw [← hv] at hfields
  obtain ⟨hi, h4, h3, h2, hj⟩ := hfields
  exact ⟨by omega, h4, h3, h2, by omega⟩

/-- The fragment word of a packet without an offset: as it is loaded, none
of the flags is where `analyze_ip` looks for them. -/
theorem fragment_fields (r d m : Bool) :
    let v := ntohs ((flag r 0x8000 + flag d 0x4000 + flag m 0x2000 + ntohs (toUShort 0)) % 65536)
    v.testBit 15 = false ∧ v.testBit 14 = false ∧ v.testBit 13 = false ∧ ntohs v % 8192 = 0 := by
  revert r d m
  decide

theorem tcpFlags_fields (tcp : TCPPacket) :
    (tcpFlags tcp).testBit 5 = tcp.urg ∧ (tcpFlags tcp).testBit 4 = tcp.ack ∧
      (tcpFlags tcp).testBit 3 = tcp.psh ∧ (tcpFlags tcp).testBit 2 = tcp.rst ∧
      (tcpFlags tcp).testBit 1 = tcp.syn ∧ (tcpFlags tcp).testBit 0 = tcp.fin ∧
      (tcpFlags tcp).testBit 7 = tcp.rsv1 ∧ (tcpFlags tcp).testBit 6 = tcp.rsv2 := by
  have hall : ∀ rsv1 rsv2 urg ack psh rst syn fin : Bool,
      let v := flag rsv1 128 + flag rsv2 64 + flag urg 32 + flag ack 16 + flag psh 8 +
        flag rst 4 + flag syn 2 + flag fin 1
      v.testBit 5 = urg ∧ v.testBit 4 = ack ∧ v.testBit 3 = psh ∧ v.testBit 2 = rst ∧
        v.testBit 1 = syn ∧ v.testBit 0 = fin ∧ v.testBit 7 = rsv1 ∧ v.testBit 6 = rsv2 := by
    decide +kernel
  exact hall _ _ _ _ _ _ _ _

section Received

variable {p : Pointer}

theorem SentIp.ipHlen (h : SentIp ip tcp src dst bytes p) : ipHlen p = 20 := by
  unfold Jpcap.ipHlen
  rw [h.version]
  rfl

theorem SentIp.tcpHlen (h : SentIp ip tcp src dst bytes p) : tcpHlen p = 20 := by
  have hoffset := h.tcp.offset
  rw [add_apply] at hoffset
  unfold Jpcap.tcpHlen
  rw [h.ipHlen]
  exact congrArg (· * 4) hoffset

theorem SentIp.ipLen (h : SentIp ip tcp src dst bytes p) (hfit : bytes.length ≤ 1546) :
    ipLen p = 40 + bytes.length := by
  unfold Jpcap.ipLen
  rw [h.length]
  exact ntohs_ntohs _ (by omega)

theorem SentIp.segmentData (h : SentIp ip tcp src dst bytes p) (hfit : bytes.length ≤ 1546) :
    segmentData p = bytes := by
  unfold Jpcap.segmentData
  rw [h.ipHlen, h.tcpHlen, h.ipLen hfit, show 40 + bytes.length - 20 - 20 = bytes.length by omega]
  have hdata := h.tcp.data
  rwa [add_add] at hdata

theorem SentIp.segment (h : SentIp ip tcp src dst bytes p) (hoffset : ip.offset = 0)
    (hfit : bytes.length ≤ 1546) {room : Int} (hroom : 40 + bytes.length ≤ room) :
    Segment p room where
  protocol := h.protocol
  first := by
    rw [h.offset, hoffset]
    exact (fragment_fields _ _ _).2.2.2
  le_ipHlen := Nat.le_of_eq h.ipHlen.symm
  le_tcpHlen := Nat.le_of_eq h.tcpHlen.symm
  le_ipLen := by
    rw [h.ipHlen, h.tcpHlen, h.ipLen hfit]
    omega
  ipLen_le := by
    rw [h.ipLen hfit]
    omega

/-- `analyze_ip` reads back what `set_ip` and `set_packet` have stored. -/
theorem SentIp.analyzeIp (h : SentIp ip tcp src dst bytes p) (hrange : Representable ether ip tcp)
    (hsrc : ip.srcIp = some src) (hdst : ip.dstIp = some dst) (hfit : bytes.length ≤ 1546) :
    analyzeIp p (.tcp {} {}) = (.tcp (ip.arriving bytes.length) {}, 20) := by
  obtain ⟨hpriority, hd, ht, hr, hrsvTos⟩ := tos_fields hrange.priority hrange.rsvTos _ _ _ h.tos
  obtain ⟨hrsv, hdont, hmore, hfirst⟩ := fragment_fields ip.rsvFrag ip.dontFrag ip.moreFrag
  have hword := h.offset
  rw [hrange.offset] at hword
  rw [← hword] at hrsv hdont hmore hfirst
  have hoffset : (ntohs (p.u16 6) : Int) % 8192 = ip.offset := by
    rw [hrange.offset]
    omega
  have hlength : toShort (ntohs (p.u16 2)) = 40 + bytes.length := by
    have hlen := h.ipLen hfit
    unfold Jpcap.ipLen at hlen
    rw [hlen, toShort_eq (by omega) (by omega)]
    rfl
  have hident : toShort (ntohs (p.u16 4)) = toShort ip.ident := by
    rw [h.ident, ntohs_ntohs _ (by unfold toUShort; omega), toShort_toUShort]
  have httl : ((p 8).toNat : Int) = ip.hopLimit := by
    have hrangeTtl := hrange.hopLimit
    rw [h.ttl]
    unfold toUChar
    omega
  have hhlen : (p 0).toNat % 16 * 4 = 20 := h.ipHlen
  have hprotocol : ((p 9).toNat : Int) = 6 := congrArg Nat.cast h.protocol
  unfold Jpcap.analyzeIp
  dsimp only
  rw [if_neg (by omega), hhlen]
  simp only [Body.mapIp, hpriority, hd, ht, hr, hrsvTos, hlength, hident, httl, hrsv, hdont,
    hmore, hoffset, hprotocol, h.src, h.dst, ← hsrc, ← hdst]
  rfl

/-- `analyze_tcp` reads back what `set_tcp` has stored. -/
theorem TcpSet.analyzeTcp (h : TcpSet tcp bytes p) (hrange : Representable ether ip tcp)
    (i : IPPacket) : analyzeTcp p (.tcp i {}) = (.tcp i tcp.arriving, 20) := by
  obtain ⟨hurg, hack, hpsh, hrst, hsyn, hfin, hrsv1, hrsv2⟩ := tcpFlags_fields tcp
  have hsrcPort : (ntohs (p.u16 0) : Int) = tcp.srcPort := by
    rw [h.srcPort]
    exact ntohs_toUShort hrange.srcPort.1 hrange.srcPort.2
  have hdstPort : (ntohs (p.u16 2) : Int) = tcp.dstPort := by
    rw [h.dstPort]
    exact ntohs_toUShort hrange.dstPort.1 hrange.dstPort.2
  have hsequence : (ntohl (p.u32 4) : Int) = tcp.sequence := by
    rw [h.sequence]
    exact ntohl_toUInt hrange.sequence.1 hrange.sequence.2
  have hackNum : (ntohl (p.u32 8) : Int) = tcp.ackNum := by
    rw [h.ackNum]
    exact ntohl_toUInt hrange.ackNum.1 hrange.ackNum.2
  have hwindow : (ntohs (p.u16 14) : Int) = tcp.window := by
    rw [h.window]
    exact ntohs_toUShort hrange.window.1 hrange.window.2
  have hurgent : toShort (ntohs (p.u16 18)) = tcp.urgentPointer := by
    rw [h.urgentPointer, ntohs_ntohs _ (by unfold toUShort; omega), toShort_toUShort]
    exact toShort_eq hrange.urgentPointer.1 hrange.urgentPointer.2
  have hhlen : (p 12).toNat / 16 * 4 = 20 := congrArg (· * 4) h.offset
  unfold Jpcap.analyzeTcp
  dsimp only
  rw [if_neg (by omega), hhlen]
  simp only [Body.mapTcp, h.flags, hurg, hack, hpsh, hrst, hsyn, hfin, hrsv1, hrsv2, hsrcPort,
    hdstPort, hsequence, hackNum, hwindow, hurgent]
  rfl

theorem SentIp.segmentBody (h : SentIp ip tcp src dst bytes p)
    (hrange : Representable ether ip tcp) (hsrc : ip.srcIp = some src) (hdst : ip.dstIp = some dst)
    (hfit : bytes.length ≤ 1546) :
    segmentBody p = .tcp (ip.arriving bytes.length) tcp.arriving := by
  unfold Jpcap.segmentBody
  rw [h.analyzeIp hrange hsrc hdst hfit, h.ipHlen]
  exact congrArg Prod.fst (h.tcp.analyzeTcp hrange _)

end Received

/-- The checksums of both headers verify. -/
theorem nativeSendPacket_cksums (h : Sendable packet ether ip tcp src dst bytes) (buf : Pointer) :
    ∃ sent, nativeSendPacket packet buf = some (sent, ((max 60 (54 + bytes.length) : Nat) : Int)) ∧
      ipLen (sent.add 14) = 40 + bytes.length ∧ inCksum (sent.add 14) 20 = 0 ∧
      inCksum2 (sent.add 14) (ntohs (20 + bytes.length)) (sent.add 34) (20 + bytes.length) = 0 := by
  obtain ⟨sent, hsend, -, hip⟩ := h.nativeSendPacket buf
  have hsegment := hip.segmentCksum
  rw [add_add, Nat.add_comm bytes.length] at hsegment
  exact ⟨sent, hsend, hip.ipLen h.length_le, hip.headerCksum, hsegment⟩

/-- The frame that arrives where all of what has been sent is captured. -/
def arrivingFrame (sec usec : Int) (sent : Pointer) (length : Nat) : Frame :=
  ⟨⟨sec, usec, UInt32.ofNat length, UInt32.ofNat length⟩, sent⟩

theorem datalink_getPacket {bound : Nat} {unset : Unset} {i : Instance} {f : Frame} {p : Packet}
    (hp : (getPacket bound unset i f).1 = some p) :
    p.datalink = analyzeDatalink f.data i.linktype
      (networkProtocol i f.header.caplen.toNat f.data).linktypeExt := by
  unfold getPacket buildPacket at hp
  dsimp only at hp
  split at hp
  · exact absurd hp (Option.some_ne_none p).symm
  · obtain ⟨-, hp⟩ := Option.ite_none_left_eq_some.mp hp
    obtain rfl := Option.some.inj hp
    rfl

theorem EtherSet.getNetworkType {p : Pointer} (h : EtherSet ether p)
    (htype : ether.frametype = 0x0800) : getNetworkType p dltEn10mb 0 = etherTypeIp := by
  change ntohs (p.u16 12) = _
  rw [h.frametype, htype]
  decide

/-- `analyze_datalink` reads back what `set_ether` has stored. -/
theorem EtherSet.analyzeDatalink {p : Pointer} (h : EtherSet ether p)
    (htype : ether.frametype = 0x0800) {ext : Nat} (hext : ext ≠ etherTypePppoe) :
    analyzeDatalink p dltEn10mb ext = .ethernet ether := by
  have hframetype : toShort (ntohs (p.u16 12)) = ether.frametype := by
    rw [h.frametype, htype]
    decide
  unfold Jpcap.analyzeDatalink
  rw [if_pos (show dltEn10mb = 1 from rfl)]
  dsimp only
  rw [if_neg hext, hframetype, h.dstMac, h.srcMac]

/-- The round trip: a captor that has not seen PPPoE gets back what was sent,
whatever the stack held. -/
theorem getPacket_nativeSendPacket (h : Sendable packet ether ip tcp src dst bytes)
    (hrange : Representable ether ip tcp) (buf : Pointer) (bound : Nat) (unset : Unset)
    {i : Instance} (hlink : i.linktype = dltEn10mb) (hext : i.linktypeExt ≠ etherTypePppoe)
    (sec usec : Int) :
    ∃ (sent : Pointer) (length : Nat) (p : Packet),
      nativeSendPacket packet buf = some (sent, (length : Int)) ∧
      (getPacket bound unset i (arrivingFrame sec usec sent length)).1 = some p ∧
      p.datalink = .ethernet ether ∧
      p.body = .tcp (ip.arriving bytes.length) tcp.arriving ∧ p.data = some bytes := by
  have hfit := h.length_le
  obtain ⟨sent, hsend, hether, hip⟩ := h.nativeSendPacket buf
  set length := max 60 (54 + bytes.length) with hlength
  have htype := hether.getNetworkType hrange.frametype
  have hcaplen : (arrivingFrame sec usec sent length).header.caplen.toNat = length := by
    change (UInt32.ofNat length).toNat = length
    rw [UInt32.toNat_ofNat']
    omega
  have hwhole : (arrivingFrame sec usec sent length).WholeTcp := by
    refine ⟨htype, hip.segment hrange.offset hfit ?_, ?_⟩
    · rw [hcaplen]
      omega
    · rw [hcaplen]
      omega
  obtain ⟨p, hp, hbody, hdata⟩ := getPacket_carries hwhole.carries bound unset hlink
  refine ⟨sent, length, p, hsend, hp, ?_, ?_, ?_⟩
  · have hplain : ¬(arrivingFrame sec usec sent length).isPppoe := by
      unfold Frame.isPppoe
      rw [hwhole.type]
      decide
    rw [datalink_getPacket hp, networkProtocol_eq hlink, if_neg hplain, hlink]
    exact hether.analyzeDatalink hrange.frametype hext
  · exact hbody.trans (hip.segmentBody hrange h.srcIp h.dstIp hfit)
  · rw [hdata]
    exact congrArg some (hip.segmentData hfit)

end Sent

/-! ## A packet to send -/

def greetingEther : EthernetPacket :=
  { dstMac := [1, 2, 3, 4, 5, 6], srcMac := [7, 8, 9, 10, 11, 12], frametype := 0x0800 }

def greetingIp : IPPacket :=
  { version := 4, dontFrag := true, hopLimit := 64, ident := 513
    srcIp := some [10, 0, 0, 1], dstIp := some [10, 0, 0, 2] }

def greetingTcp : TCPPacket :=
  { srcPort := 80, dstPort := 40000, sequence := 4294967295, ackNum := 7, ack := true
    psh := true, window := 8192 }

/-- Three bytes of payload. -/
def greetingPacket : Packet :=
  { sec := 0, usec := 0, caplen := 0, len := 0, datalink := .ethernet greetingEther
    header := [], data := some [72, 105, 33], body := .tcp greetingIp greetingTcp }

theorem sendable_greeting : Sendable greetingPacket greetingEther greetingIp greetingTcp
    [10, 0, 0, 1] [10, 0, 0, 2] [72, 105, 33] where
  datalink := rfl
  body := rfl
  data := rfl
  version := rfl
  srcMac := rfl
  dstMac := rfl
  srcIp := rfl
  dstIp := rfl
  srcLength := rfl
  dstLength := rfl
  fits := by decide

theorem representable_greeting : Representable greetingEther greetingIp greetingTcp := by
  constructor <;> decide

/-- Sent from a stack that is full of ones. -/
theorem nativeSendPacket_cksums_greeting :
    ∃ sent, nativeSendPacket greetingPacket (fun _ => 255) = some (sent, 60) ∧
      ipLen (sent.add 14) = 43 ∧ inCksum (sent.add 14) 20 = 0 ∧
      inCksum2 (sent.add 14) (ntohs 23) (sent.add 34) 23 = 0 :=
  nativeSendPacket_cksums sendable_greeting fun _ => 255

theorem getPacket_nativeSendPacket_greeting :
    ∃ (sent : Pointer) (length : Nat) (p : Packet),
      nativeSendPacket greetingPacket (fun _ => 255) = some (sent, (length : Int)) ∧
      (getPacket 0 ⟨0, 0, 0⟩ { linktype := dltEn10mb } (arrivingFrame 1 2 sent length)).1 =
        some p ∧
      p.datalink = .ethernet greetingEther ∧
      p.body = .tcp (greetingIp.arriving 3) greetingTcp.arriving ∧ p.data = some [72, 105, 33] :=
  getPacket_nativeSendPacket sendable_greeting representable_greeting (fun _ => 255) 0 ⟨0, 0, 0⟩
    rfl (by decide) 1 2

end Jpcap

end ConnectionSniffer
