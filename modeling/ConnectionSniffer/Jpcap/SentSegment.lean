import ConnectionSniffer.Jpcap.Segment
import ConnectionSniffer.Jpcap.Sender

/-!
# What a sent segment looks like

Reading back what `set_ether`, `set_ip`, `set_tcp` and `set_packet` have
stored, each header by itself (`EtherSet`, `IpSet`, `TcpSet`), and the frame
that they make together.  A store of one header is outside the others.
-/

namespace ConnectionSniffer

namespace Jpcap

open Pointer

/-! ## Numbers -/

theorem ntohs_toUShort {x : Int} (hpos : 0 ≤ x) (hlt : x < 65536) :
    (ntohs (ntohs (toUShort x)) : Int) = x := by
  have hshort : toUShort x < 65536 := by
    unfold toUShort
    omega
  rw [ntohs_ntohs _ hshort]
  unfold toUShort
  omega

theorem ntohl_ntohl {x : Nat} (h : x < 2 ^ 32) : ntohl (ntohl x) = x := by
  have hlow := ntohs_lt (x % 65536)
  have hhigh := ntohs_lt (x / 65536)
  unfold ntohl
  have hmod : (ntohs (x % 65536) * 65536 + ntohs (x / 65536)) % 65536 = ntohs (x / 65536) := by
    omega
  have hdiv : (ntohs (x % 65536) * 65536 + ntohs (x / 65536)) / 65536 = ntohs (x % 65536) := by
    omega
  rw [hmod, hdiv, ntohs_ntohs _ (by omega), ntohs_ntohs _ (by omega)]
  omega

theorem toUInt_lt (x : Int) : toUInt x < 2 ^ 32 := by
  unfold toUInt
  omega

theorem ntohl_toUInt {x : Int} (hpos : 0 ≤ x) (hlt : x < 2 ^ 32) :
    (ntohl (ntohl (toUInt x)) : Int) = x := by
  rw [ntohl_ntohl (toUInt_lt x)]
  unfold toUInt
  omega

theorem toShort_toUShort (x : Int) : toShort (toUShort x) = toShort x := by
  have hcast : (toUShort x : Int) = x % 65536 := by
    unfold toUShort
    omega
  rw [hcast]
  exact Int.emod_bmod x (2 ^ 16)

/-! ## Checksums -/

/-- The loop over the words adds them up, and leaves a last byte. -/
theorem addWords_eq (m : Nat) {r : Nat} (hr : r < 2) :
    ∀ (sum : Nat) (data : Pointer),
      addWords sum data (2 * m + r) = (sum + wordSum data m, data.add (2 * m : Nat), r) := by
  induction m with
  | zero =>
    intro sum data
    rw [Nat.mul_zero, Nat.zero_add]
    unfold addWords
    split
    · exact absurd hr (by omega)
    · exact congrArg (fun q => (sum, q, r)) (Pointer.add_zero data).symm
  | succ m ih =>
    intro sum data
    rw [show 2 * (m + 1) + r = 2 * m + r + 2 by omega]
    unfold addWords
    rw [ih, wordSum_succ, add_add, Nat.add_assoc,
      show (2 + (2 * m : Nat) : Int) = (2 * (m + 1) : Nat) by omega]

theorem inCksum_even (data : Pointer) (m : Nat) :
    inCksum data (2 * m) = onesComplement (wordSum data m) := by
  unfold inCksum
  rw [← Nat.add_zero (2 * m), addWords_eq m Nat.two_pos, Nat.zero_add]
  rfl

/-- The checksum of a transport header and its payload, with the words of
the IP header and the last byte of an odd number. -/
theorem inCksum2_eq (ip : Pointer) (len : Nat) (data : Pointer) (size : Nat) :
    inCksum2 ip len data size = onesComplement (pseudoSum ip + len + wordSum data (size / 2) +
      if size % 2 = 1 then (data (size - 1)).toNat else 0) := by
  have hloop := addWords_eq (size / 2) (Nat.mod_lt size Nat.two_pos) (pseudoSum ip + len) data
  rw [Nat.div_add_mod] at hloop
  unfold inCksum2
  rw [hloop]
  dsimp only
  rcases Nat.mod_two_eq_zero_or_one size with hsize | hsize
  · rw [hsize, if_neg (Nat.lt_irrefl 0), if_neg (by decide), Nat.add_zero]
  · rw [hsize, if_pos Nat.zero_lt_one, if_pos rfl, add_apply,
      show ((2 * (size / 2) : Nat) + 0 : Int) = size - 1 by omega]

/-- The checksum of an even number of bytes verifies once it has been
stored. -/
theorem inCksum_put16 (data : Pointer) {i m : Nat} (h : i < m) (hm : m ≤ 32768)
    (hzero : data.u16 (2 * i) = 0) :
    inCksum (data.put16 (2 * i) (inCksum data (2 * m))) (2 * m) = 0 := by
  have hsum := wordSum_put16 data h (inCksum data (2 * m))
  have hlt : inCksum data (2 * m) < 65536 := by
    rw [inCksum_even]
    exact onesComplement_lt _
  have hle := wordSum_le data m
  rw [hzero, Nat.add_zero, Nat.mod_eq_of_lt hlt] at hsum
  rw [inCksum_even (data.put16 _ _), hsum, inCksum_even]
  exact onesComplement_add (by omega)

theorem pseudoSum_le (ip : Pointer) : pseudoSum ip ≤ 5 * 65535 := by
  have h₁ := ip.u16_lt 12
  have h₂ := ip.u16_lt 14
  have h₃ := ip.u16_lt 16
  have h₄ := ip.u16_lt 18
  have h₅ := ntohs_lt (ip 9).toNat
  unfold pseudoSum
  omega

/-- The same for a transport header of any length. -/
theorem inCksum2_put16 (ip data : Pointer) {len i size : Nat} (hlen : len < 65536)
    (h : i < size / 2) (hsize : size ≤ 32768) (hzero : data.u16 (2 * i) = 0) :
    inCksum2 ip len (data.put16 (2 * i) (inCksum2 ip len data size)) size = 0 := by
  have hsum := wordSum_put16 data h (inCksum2 ip len data size)
  have hlt : inCksum2 ip len data size < 65536 := by
    rw [inCksum2_eq]
    exact onesComplement_lt _
  have hle := wordSum_le data (size / 2)
  have hpseudo := pseudoSum_le ip
  rw [hzero, Nat.add_zero, Nat.mod_eq_of_lt hlt] at hsum
  rw [inCksum2_eq ip len (data.put16 _ _), hsum, inCksum2_eq ip len data]
  rcases Nat.mod_two_eq_zero_or_one size with heven | hodd
  · rw [heven, if_neg (by decide), if_neg (by decide), Nat.add_zero, Nat.add_zero, ← Nat.add_assoc]
    exact onesComplement_add (by omega)
  · have hbyte := (data (size - 1)).toNat_lt
    rw [hodd, if_pos rfl, if_pos rfl, put16_of_out _ (by omega)]
    generalize (data (size - 1)).toNat = last at *
    rw [show ∀ a b c d : Nat, a + (b + c) + d = a + b + d + c by omega]
    exact onesComplement_add (by omega)

/-! ## Headers -/

/-- An IPv4 header as `set_ip` stores it. -/
structure IpSet (ip : IPPacket) (src dst : List UInt8) (p : Pointer) : Prop where
  version : p 0 = 0x45
  tos : (p 1).toNat = toUChar (ip.priority * 32 + ip.rsvTos + flag ip.dFlag 0x10 +
    flag ip.tFlag 0x08 + flag ip.rFlag 0x04)
  ident : p.u16 4 = ntohs (toUShort ip.ident)
  offset : p.u16 6 = (flag ip.rsvFrag 0x8000 + flag ip.dontFrag 0x4000 + flag ip.moreFrag 0x2000 +
    ntohs (toUShort ip.offset)) % 65536
  ttl : (p 8).toNat = toUChar ip.hopLimit
  src : (p.add 12).bytes 4 = src
  dst : (p.add 16).bytes 4 = dst

theorem toNat_ofNat_lt {v : Nat} (h : v < 256) : (UInt8.ofNat v).toNat = v := by
  rw [UInt8.toNat_ofNat']
  exact Nat.mod_eq_of_lt h

theorem toUChar_lt (x : Int) : toUChar x < 256 := by
  unfold toUChar
  omega

theorem setIp_spec {ip : IPPacket} {src dst : List UInt8} (hsrc : ip.srcIp = some src)
    (hdst : ip.dstIp = some dst) (hsrcLength : src.length = 4) (hdstLength : dst.length = 4)
    (p : Pointer) : ∃ q, setIp ip p = some q ∧ IpSet ip src dst q ∧ ∀ k < 0, q k = p k := by
  have hregion : ∀ l : List UInt8, l.length = 4 → region (some l) 4 = some l := by
    intro l hl
    unfold region
    rw [Option.bind_some, if_pos (Nat.le_of_eq hl.symm), ← hl, List.take_length]
  unfold setIp
  rw [hsrc, hdst, hregion src hsrcLength, hregion dst hdstLength]
  refine ⟨_, rfl, ?_, ?_⟩
  · constructor
    · simp (disch := omega) only [write_of_out, put8_of_ne, put16_of_out, put8_self]
      rfl
    · simp (disch := omega) only [write_of_out, put8_self]
      exact toNat_ofNat_lt (toUChar_lt _)
    · simp (disch := omega) only [u16_write_of_out, u16_put8_of_out, u16_put16_of_out, u16_put16]
      exact Nat.mod_eq_of_lt (ntohs_lt _)
    · simp (disch := omega) only [u16_write_of_out, u16_put8_of_out, u16_put16]
    · simp (disch := omega) only [write_of_out, put8_of_ne, put8_self]
      exact toNat_ofNat_lt (toUChar_lt _)
    · rw [bytes_write_of_out (by omega)]
      exact hsrcLength ▸ bytes_write _ 12 src
    · exact hdstLength ▸ bytes_write _ 16 dst
  · intro k hk
    simp (disch := omega) only [write_of_out, put8_of_ne, put16_of_out]

/-- The flags byte of a TCP header. -/
def tcpFlags (tcp : TCPPacket) : Nat :=
  flag tcp.rsv1 128 + flag tcp.rsv2 64 + flag tcp.urg 32 + flag tcp.ack 16 +
    flag tcp.psh 8 + flag tcp.rst 4 + flag tcp.syn 2 + flag tcp.fin 1

theorem tcpFlags_lt (tcp : TCPPacket) : tcpFlags tcp < 256 := by
  unfold tcpFlags flag
  split_ifs <;> decide

/-- A TCP header without options and its payload as `set_tcp` stores them. -/
structure TcpSet (tcp : TCPPacket) (bytes : List UInt8) (p : Pointer) : Prop where
  srcPort : p.u16 0 = ntohs (toUShort tcp.srcPort)
  dstPort : p.u16 2 = ntohs (toUShort tcp.dstPort)
  sequence : p.u32 4 = ntohl (toUInt tcp.sequence)
  ackNum : p.u32 8 = ntohl (toUInt tcp.ackNum)
  offset : (p 12).toNat / 16 = 5
  flags : (p 13).toNat = tcpFlags tcp
  window : p.u16 14 = ntohs (toUShort tcp.window)
  urgentPointer : p.u16 18 = ntohs (toUShort tcp.urgentPointer)
  data : (p.add 20).bytes bytes.length = bytes

theorem setTcp_spec (tcp : TCPPacket) {bytes : List UInt8} (hfit : bytes.length ≤ 1560)
    (ip p : Pointer) :
    ∃ q, setTcp tcp (some bytes) ip p = some q ∧ TcpSet tcp bytes q ∧ ∀ k < 0, q k = p k := by
  have hlength : min bytes.length (maxPacketSize - 20 - 20) = bytes.length := Nat.min_eq_left hfit
  unfold setTcp
  rw [Option.bind_eq_bind, Option.bind_some, hlength]
  dsimp only
  rw [List.take_length]
  refine ⟨_, rfl, ?_, ?_⟩
  · constructor
    · simp (disch := omega) only [u16_write_of_out, u16_put8_of_out, u16_put16_of_out,
        u16_put32_of_out, u16_put16]
      exact Nat.mod_eq_of_lt (ntohs_lt _)
    · simp (disch := omega) only [u16_write_of_out, u16_put8_of_out, u16_put16_of_out,
        u16_put32_of_out, u16_put16]
      exact Nat.mod_eq_of_lt (ntohs_lt _)
    · simp (disch := omega) only [u32_write_of_out, u32_put8_of_out, u32_put16_of_out,
        u32_put32_of_out]
      exact u32_put32 _ _ (ntohl_lt _)
    · simp (disch := omega) only [u32_write_of_out, u32_put8_of_out, u32_put16_of_out]
      exact u32_put32 _ _ (ntohl_lt _)
    · simp (disch := omega) only [write_of_out, put8_of_ne, put16_of_out, put8_self]
      rw [toNat_ofNat_lt (by omega)]
      omega
    · simp (disch := omega) only [write_of_out, put16_of_out, put8_self]
      exact toNat_ofNat_lt (tcpFlags_lt tcp)
    · simp (disch := omega) only [u16_write_of_out, u16_put16_of_out, u16_put16]
      exact Nat.mod_eq_of_lt (ntohs_lt _)
    · simp (disch := omega) only [u16_write_of_out, u16_put16_of_out, u16_put16]
      exact Nat.mod_eq_of_lt (ntohs_lt _)
    · rw [bytes_put16_of_out _ (by omega), bytes_put16_of_out _ (by omega)]
      exact bytes_write _ 20 bytes
  · intro k hk
    simp (disch := omega) only [write_of_out, put8_of_ne, put16_of_out, put32_of_out]

theorem TcpSet.congr {tcp : TCPPacket} {bytes : List UInt8} {p q : Pointer} (h : TcpSet tcp bytes p)
    (hagree : Agree (20 + bytes.length) p q) : TcpSet tcp bytes q where
  srcPort := (hagree.u16 (by omega) (by omega)).symm.trans h.srcPort
  dstPort := (hagree.u16 (by omega) (by omega)).symm.trans h.dstPort
  sequence := (hagree.u32 (by omega) (by omega)).symm.trans h.sequence
  ackNum := (hagree.u32 (by omega) (by omega)).symm.trans h.ackNum
  offset := by
    rw [← hagree 12 (by omega) (by omega)]
    exact h.offset
  flags := by
    rw [← hagree 13 (by omega) (by omega)]
    exact h.flags
  window := (hagree.u16 (by omega) (by omega)).symm.trans h.window
  urgentPointer := (hagree.u16 (by omega) (by omega)).symm.trans h.urgentPointer
  data := (hagree.bytes_add (by omega) (by omega)).symm.trans h.data

/-- The checksum that `set_tcp` stores verifies. -/
theorem setTcp_cksum {tcp : TCPPacket} {bytes : List UInt8} (hfit : bytes.length ≤ 1560)
    {ip p q : Pointer} (hset : setTcp tcp (some bytes) ip p = some q) :
    inCksum2 ip (ntohs (bytes.length + 20)) q (bytes.length + 20) = 0 := by
  have hlength : min bytes.length (maxPacketSize - 20 - 20) = bytes.length := Nat.min_eq_left hfit
  unfold setTcp at hset
  rw [Option.bind_eq_bind, Option.bind_some, hlength] at hset
  obtain rfl := Option.some.inj hset
  refine inCksum2_put16 ip _ (i := 8) (ntohs_lt _) (by omega) (by omega) ?_
  exact u16_put16 _ 16 0

/-- An Ethernet header as `set_ether` stores it. -/
structure EtherSet (ether : EthernetPacket) (p : Pointer) : Prop where
  dstMac : p.bytes 6 = ether.dstMac
  srcMac : (p.add 6).bytes 6 = ether.srcMac
  frametype : p.u16 12 = ntohs (toUShort ether.frametype)

theorem setEther_spec {ether : EthernetPacket} (hsrc : ether.srcMac.length = 6)
    (hdst : ether.dstMac.length = 6) (p : Pointer) :
    ∃ q, setEther (.ethernet ether) p = some (q, 14) ∧ EtherSet ether q := by
  have hregion : ∀ l : List UInt8, l.length = 6 → region (some l) 6 = some l := by
    intro l hl
    unfold region
    rw [Option.bind_some, if_pos (Nat.le_of_eq hl.symm), ← hl, List.take_length]
  unfold setEther
  dsimp only
  rw [hregion _ hsrc, hregion _ hdst]
  refine ⟨_, rfl, ?_, ?_, ?_⟩
  · rw [← Pointer.add_zero (put16 _ _ _), bytes_put16_of_out _ (by omega)]
    exact hdst ▸ bytes_write _ 0 ether.dstMac
  · rw [bytes_put16_of_out _ (by omega), bytes_write_of_out (by omega)]
    exact hsrc ▸ bytes_write _ 6 ether.srcMac
  · rw [u16_put16]
    exact Nat.mod_eq_of_lt (ntohs_lt _)

theorem EtherSet.congr {ether : EthernetPacket} {p q : Pointer} (h : EtherSet ether p)
    (hagree : Agree 14 p q) : EtherSet ether q where
  dstMac := (hagree.bytes (m := 6) (by omega)).symm.trans h.dstMac
  srcMac := (hagree.bytes_add (by omega) (by omega)).symm.trans h.srcMac
  frametype := (hagree.u16 (by omega) (by omega)).symm.trans h.frametype

/-! ## `set_packet` -/

/-- The IPv4 packet that `set_packet` leaves for a segment. -/
structure SentIp (ip : IPPacket) (tcp : TCPPacket) (src dst bytes : List UInt8) (p : Pointer) :
    Prop where
  version : p 0 = 0x45
  tos : (p 1).toNat = toUChar (ip.priority * 32 + ip.rsvTos + flag ip.dFlag 0x10 +
    flag ip.tFlag 0x08 + flag ip.rFlag 0x04)
  length : p.u16 2 = ntohs (40 + bytes.length)
  ident : p.u16 4 = ntohs (toUShort ip.ident)
  offset : p.u16 6 = ntohs ((flag ip.rsvFrag 0x8000 + flag ip.dontFrag 0x4000 +
    flag ip.moreFrag 0x2000 + ntohs (toUShort ip.offset)) % 65536)
  ttl : (p 8).toNat = toUChar ip.hopLimit
  protocol : (p 9).toNat = 6
  src : (p.add 12).bytes 4 = src
  dst : (p.add 16).bytes 4 = dst
  headerCksum : inCksum p 20 = 0
  tcp : TcpSet tcp bytes (p.add 20)
  segmentCksum :
    inCksum2 p (ntohs (bytes.length + 20)) (p.add 20) (bytes.length + 20) = 0

theorem pseudoSum_congr {p q : Pointer} (h : ∀ k : Int, k = 9 ∨ 12 ≤ k ∧ k < 20 → p k = q k) :
    pseudoSum p = pseudoSum q := by
  unfold pseudoSum u16
  rw [h 12 (by omega), h (12 + 1) (by omega), h 14 (by omega), h (14 + 1) (by omega),
    h 16 (by omega), h (16 + 1) (by omega), h 18 (by omega), h (18 + 1) (by omega),
    h 9 (by omega)]

theorem inCksum2_congr {ip ip' p q : Pointer} {len size : Nat}
    (hip : ∀ k : Int, k = 9 ∨ 12 ≤ k ∧ k < 20 → ip k = ip' k) (hagree : Agree size p q) :
    inCksum2 ip len p size = inCksum2 ip' len q size := by
  have hwords : wordSum p (size / 2) = wordSum q (size / 2) :=
    wordSum_congr fun k hk hlt => hagree k hk (by omega)
  rw [inCksum2_eq, inCksum2_eq, pseudoSum_congr hip, hwords]
  split_ifs with hodd
  · rw [hagree (size - 1) (by omega) (by omega)]
  · rfl

theorem SentIp.congr {ip : IPPacket} {tcp : TCPPacket} {src dst bytes : List UInt8} {p q : Pointer}
    (h : SentIp ip tcp src dst bytes p) (hagree : Agree (40 + bytes.length) p q) :
    SentIp ip tcp src dst bytes q where
  version := (hagree 0 (by omega) (by omega)).symm.trans h.version
  tos := by
    rw [← hagree 1 (by omega) (by omega)]
    exact h.tos
  length := (hagree.u16 (by omega) (by omega)).symm.trans h.length
  ident := (hagree.u16 (by omega) (by omega)).symm.trans h.ident
  offset := (hagree.u16 (by omega) (by omega)).symm.trans h.offset
  ttl := by
    rw [← hagree 8 (by omega) (by omega)]
    exact h.ttl
  protocol := by
    rw [← hagree 9 (by omega) (by omega)]
    exact h.protocol
  src := (hagree.bytes_add (by omega) (by omega)).symm.trans h.src
  dst := (hagree.bytes_add (by omega) (by omega)).symm.trans h.dst
  headerCksum := by
    have hwords : wordSum p 10 = wordSum q 10 :=
      wordSum_congr fun k hk hlt => hagree k hk (by omega)
    rw [inCksum_even q 10, ← hwords, ← inCksum_even]
    exact h.headerCksum
  tcp := by
    refine h.tcp.congr fun k hk hlt => ?_
    rw [add_apply, add_apply]
    exact hagree (20 + k) (by omega) (by omega)
  segmentCksum := by
    refine (inCksum2_congr ?_ ?_).symm.trans h.segmentCksum
    · exact fun k hk => hagree k (by omega) (by omega)
    · intro k hk hlt
      rw [add_apply, add_apply]
      exact hagree (20 + k) (by omega) (by omega)

/-- `finishIp` stores three words of the header. -/
theorem finishIp_of_out (p : Pointer) {k : Int} (h : k < 2 ∨ k = 4 ∨ k = 5 ∨ k = 8 ∨ k = 9 ∨ 12 ≤ k) :
    finishIp p k = p k := by
  unfold finishIp
  simp (disch := omega) only [put16_of_out]

theorem finishIp_cksum (p : Pointer) : inCksum (finishIp p) 20 = 0 := by
  unfold finishIp
  exact inCksum_put16 _ (i := 5) (m := 10) (by decide) (by decide) (u16_put16 _ 10 0)

theorem finishIp_length (p : Pointer) : (finishIp p).u16 2 = ntohs (p.u16 2) := by
  unfold finishIp
  simp (disch := omega) only [u16_put16_of_out, u16_put16]
  exact Nat.mod_eq_of_lt (ntohs_lt _)

theorem finishIp_offset (p : Pointer) : (finishIp p).u16 6 = ntohs (p.u16 6) := by
  unfold finishIp
  simp (disch := omega) only [u16_put16_of_out, u16_put16]
  exact Nat.mod_eq_of_lt (ntohs_lt _)

theorem setIpPacket_spec {packet : Packet} {ip : IPPacket} {tcp : TCPPacket}
    {src dst bytes : List UInt8} (hbody : packet.body = .tcp ip tcp)
    (hdata : packet.data = some bytes) (hversion : ip.version = 4) (hsrc : ip.srcIp = some src)
    (hdst : ip.dstIp = some dst) (hsrcLength : src.length = 4) (hdstLength : dst.length = 4)
    (hfit : bytes.length ≤ 1560) (p : Pointer) :
    ∃ q, setIpPacket packet ip p = some (q, (40 + bytes.length : Int)) ∧
      SentIp ip tcp src dst bytes q ∧ ∀ k < 0, q k = p k := by
  obtain ⟨header, hheader, hip, hheaderOut⟩ := setIp_spec hsrc hdst hsrcLength hdstLength p
  set entered := enterIp 6 (bytes.length + 20 + 20) header with hentered
  obtain ⟨segment, hsegment, htcp, hsegmentOut⟩ :=
    setTcp_spec tcp hfit entered (entered.add 20)
  have hcksum := setTcp_cksum hfit hsegment
  -- the packet before `finishIp`
  set whole := segment.add (-20) with hwhole
  have hbehind : whole.add 20 = segment := by
    rw [hwhole, add_add]
    exact Pointer.add_zero segment
  have hfront : ∀ k < 20, whole k = entered k := by
    intro k hk
    rw [hwhole, add_apply, hsegmentOut (-20 + k) (by omega), add_apply,
      show 20 + (-20 + k) = k by omega]
  have hkept : ∀ k : Int, k < 2 ∨ k = 4 ∨ k = 5 ∨ k = 6 ∨ k = 7 ∨ k = 8 ∨ 10 ≤ k →
      entered k = header k := by
    intro k hk
    rw [hentered]
    unfold enterIp
    rw [put16_of_out _ (by omega), put8_of_ne _ (by omega)]
  have hbehindFinish : ∀ k : Int, 0 ≤ k → (finishIp whole).add 20 k = segment k := by
    intro k hk
    rw [add_apply, finishIp_of_out _ (by omega), ← hbehind, add_apply]
  have hset : setIpPacket packet ip p = some (finishIp whole, (40 + bytes.length : Int)) := by
    have hwithin : within 20 (setTcp tcp (some bytes) entered) entered = some whole := by
      unfold within
      rw [hsegment]
      rfl
    have htransport : setTransport packet ip 20 enterIp header =
        some (whole, (bytes.length + 20 + 20 : Int)) := by
      unfold setTransport dataLength
      rw [hbody, hdata]
      dsimp only
      change (within 20 (setTcp tcp (some bytes) entered) entered).map _ = _
      rw [hwithin]
      rfl
    unfold setIpPacket
    rw [if_pos hversion, hheader, Option.bind_eq_bind, Option.bind_some, htransport,
      show (40 + bytes.length : Int) = bytes.length + 20 + 20 by omega]
    rfl
  have hsame : ∀ k : Int, 0 ≤ k ∧ k < 2 ∨ k = 4 ∨ k = 5 ∨ k = 8 ∨ 12 ≤ k ∧ k < 20 →
      finishIp whole k = header k := by
    intro k hk
    rw [finishIp_of_out _ (by omega), hfront k (by omega), hkept k (by omega)]
  have hsameBytes : ∀ n : Nat, n = 12 ∨ n = 16 →
      ((finishIp whole).add n).bytes 4 = (header.add n).bytes 4 := by
    intro n hn
    refine List.map_congr_left ?_
    intro i hi
    have hlt : i < 4 := List.mem_range.mp hi
    exact hsame (n + i) (by omega)
  refine ⟨finishIp whole, hset, ?_, ?_⟩
  · constructor
    · exact (hsame 0 (by omega)).trans hip.version
    · rw [hsame 1 (by omega)]
      exact hip.tos
    · rw [finishIp_length]
      unfold u16
      rw [hfront _ (by omega), hfront _ (by omega)]
      change ntohs (entered.u16 2) = _
      rw [hentered]
      unfold enterIp toUShort
      rw [u16_put16]
      congr 1
      omega
    · unfold u16
      rw [hsame 4 (by omega), hsame (4 + 1) (by omega)]
      exact hip.ident
    · rw [finishIp_offset, ← hip.offset]
      unfold u16
      rw [hfront 6 (by omega), hfront (6 + 1) (by omega), hkept 6 (by omega),
        hkept (6 + 1) (by omega)]
    · rw [hsame 8 (by omega)]
      exact hip.ttl
    · rw [finishIp_of_out _ (by omega), hfront _ (by omega), hentered]
      unfold enterIp
      rw [put16_of_out _ (by omega), put8_self]
      rfl
    · exact (hsameBytes 12 (Or.inl rfl)).trans hip.src
    · exact (hsameBytes 16 (Or.inr rfl)).trans hip.dst
    · exact finishIp_cksum whole
    · exact htcp.congr fun k hk _ => (hbehindFinish k hk).symm
    · rw [← hcksum]
      refine inCksum2_congr ?_ fun k hk _ => hbehindFinish k hk
      intro k hk
      rw [finishIp_of_out _ (by omega), hfront k (by omega)]
  · intro k hk
    rw [finishIp_of_out _ (by omega), hfront k (by omega), hkept k (by omega), hheaderOut k hk]

end Jpcap

end ConnectionSniffer
