import ConnectionSniffer.Jpcap.GetPacket

/-!
# Frames with a whole TCP segment

A frame carries a whole TCP segment if the IP header, the TCP header and the
payload that their length fields announce lie inside the captured bytes.
`buildPacket_segment` follows `get_packet` for such a frame, wherever the
datalink header ends: the lengths are reduced to see whether the packet is
truncated, reset from the IP header and clipped, and what comes out is
exactly the payload.  The bytes behind the IP packet, which an Ethernet card
adds to reach the smallest frame, are not part of it.

`Segment` speaks of the bytes behind a pointer to the IP header and of the
`room` between this pointer and the last captured byte.
-/

namespace ConnectionSniffer

namespace Jpcap

/-- The length of the IP header. -/
def ipHlen (ip : Pointer) : Nat := (ip 0).toNat % 16 * 4

/-- The total length of the IP packet. -/
def ipLen (ip : Pointer) : Nat := ntohs (ip.u16 2)

/-- The length of the TCP header behind the IP header. -/
def tcpHlen (ip : Pointer) : Nat := (ip (ipHlen ip + 12)).toNat / 16 * 4

/-- The payload of the segment. -/
def segmentData (ip : Pointer) : List UInt8 :=
  (ip.add (ipHlen ip + tcpHlen ip)).bytes (ipLen ip - ipHlen ip - tcpHlen ip)

/-- An unfragmented IPv4 packet with a TCP segment, whole within `room`
bytes. -/
structure Segment (ip : Pointer) (room : Int) : Prop where
  protocol : (ip 9).toNat = 6
  first : ntohs (ip.u16 6) % 8192 = 0
  le_ipHlen : 20 ≤ ipHlen ip
  le_tcpHlen : 20 ≤ tcpHlen ip
  le_ipLen : ipHlen ip + tcpHlen ip ≤ ipLen ip
  ipLen_le : ipLen ip ≤ room

theorem toShort_eq {x : Int} (hlo : -32768 ≤ x) (hhi : x < 32768) : toShort x = x :=
  Int.bmod_eq_of_le (by omega) (by omega)

theorem ipHlen_le (ip : Pointer) : ipHlen ip ≤ 60 := by
  unfold ipHlen
  omega

theorem tcpHlen_le (ip : Pointer) : tcpHlen ip ≤ 60 := by
  have hlt := (ip (ipHlen ip + 12)).toNat_lt
  unfold tcpHlen
  omega

theorem analyzeIp_snd (data : Pointer) (b : Body) : (analyzeIp data b).2 = ipHlen data := by
  unfold analyzeIp ipHlen
  dsimp only
  split_ifs <;> rfl

theorem analyzeTcp_snd (data : Pointer) (b : Body) :
    (analyzeTcp data b).2 = (data 12).toNat / 16 * 4 := by
  unfold analyzeTcp
  dsimp only
  split_ifs <;> rfl

/-- The object that `get_packet` fills in for a segment. -/
def segmentBody (ip : Pointer) : Body :=
  (analyzeTcp (ip.add (ipHlen ip)) (analyzeIp ip (.tcp {} {})).1).1

/-- It is a `TCPPacket`. -/
theorem segmentBody_tcp (ip : Pointer) : ∃ i t, segmentBody ip = .tcp i t := by
  unfold segmentBody analyzeTcp analyzeIp
  simp only [Body.mapIp]
  split_ifs
  · exact ⟨_, _, rfl⟩
  · exact ⟨_, _, rfl⟩
  · exact ⟨_, _, rfl⟩
  · exact ⟨_, _, rfl⟩

section

variable {linktype : Nat} {f : Frame} {n : Network} {ip : Pointer} {room : Int}

theorem transportProtocol_segment (hip : ip = skipDatalinkHeader f.data linktype n.offset)
    (hn : n.nproto = etherTypeIp) (hclen : n.clen = room) (hroom : room < 32760)
    (h : Segment ip room) (unset : Nat) :
    transportProtocol unset n linktype f.data = (6, room - ipHlen ip) := by
  have hhdr := ipHlen_le ip
  have hfit := h.le_ipLen
  have htcp := h.le_tcpHlen
  have hinside := h.ipLen_le
  have hstep : toShort (room - ((ip 0).toNat : Int) % 16 * 4) = room - ipHlen ip := by
    have hcast : ((ip 0).toNat : Int) % 16 * 4 = ipHlen ip := by
      unfold ipHlen
      omega
    rw [hcast, toShort_eq (by omega) (by omega)]
  have hpos : 0 < room := by omega
  have hleft : 0 < room - (ipHlen ip : Int) ∧ ntohs (ip.u16 6) % 8192 = 0 :=
    ⟨by omega, h.first⟩
  unfold transportProtocol
  simp only [hclen, if_pos hpos, if_pos hn, ← hip, hstep, if_pos hleft, h.protocol]

/-- `get_packet` on a whole segment. -/
theorem buildPacket_segment (hip : ip = skipDatalinkHeader f.data linktype n.offset)
    (hn : n.nproto = etherTypeIp)
    (hcaplen : (f.header.caplen.toNat : Int) = datalinkHlen linktype n.offset + room)
    (hdl : 0 ≤ datalinkHlen linktype n.offset)
    (hroom : datalinkHlen linktype n.offset + room < 32768)
    (h : Segment ip room) (bound : Nat) (unset : Unset) :
    buildPacket bound unset linktype f n 6 = some
      { sec := f.header.sec
        usec := f.header.usec
        caplen := toInt f.header.caplen.toNat
        len := toInt f.header.len.toNat
        datalink := analyzeDatalink f.data linktype n.linktypeExt
        header :=
          f.data.bytes (datalinkHlen linktype n.offset + ipHlen ip + tcpHlen ip).toNat
        data := some (segmentData ip)
        body := segmentBody ip } := by
  have hhdr := ipHlen_le ip
  have hoff := tcpHlen_le ip
  have hfit := h.le_ipLen
  have hinside := h.ipLen_le
  have hknown : n.nproto ≠ unknownProto := by rw [hn]; decide
  have hadd : f.data.add (datalinkHlen linktype n.offset) = ip := hip.symm
  have hlen : toShort (ntohs (ip.u16 2)) = ipLen ip := by
    unfold ipLen
    unfold ipLen at hinside
    exact toShort_eq (by omega) (by omega)
  -- the announced length is inside the captured bytes, so it is not clipped
  have hclip : clip n.nproto 6 f.header.caplen.toNat (datalinkHlen linktype n.offset) (ipLen ip) =
      ipLen ip := by
    unfold clip
    refine if_neg ?_
    rintro ⟨-, -, hgt⟩
    rw [hcaplen] at hgt
    omega
  have hsub : toShort ((ipLen ip : Int) - ipHlen ip) = ipLen ip - ipHlen ip :=
    toShort_eq (by omega) (by omega)
  have hthl : ((ip.add (ipHlen ip)) 12).toNat / 16 * 4 = tcpHlen ip := rfl
  have hrest : toShort ((ipLen ip : Int) - ipHlen ip - tcpHlen ip) =
      ipLen ip - ipHlen ip - tcpHlen ip :=
    toShort_eq (by omega) (by omega)
  have hpos : toShort (datalinkHlen linktype n.offset + ipHlen ip + tcpHlen ip) =
      datalinkHlen linktype n.offset + ipHlen ip + tcpHlen ip :=
    toShort_eq (by omega) (by omega)
  have hcut : ¬(tcpHlen ip : Int) > ipLen ip - ipHlen ip := by omega
  have hheader : ¬datalinkHlen linktype n.offset + ipHlen ip + tcpHlen ip < 0 := by omega
  have hdata : 0 ≤ (ipLen ip : Int) - ipHlen ip - tcpHlen ip := by omega
  have hcount : ((ipLen ip : Int) - ipHlen ip - tcpHlen ip).toNat =
      ipLen ip - ipHlen ip - tcpHlen ip := by omega
  have hnet : analyzeNetwork bound n.nproto f.header.caplen.toNat
      (datalinkHlen linktype n.offset) ip (createPacket 6 n.nproto) =
      some ((analyzeIp ip (.tcp {} {})).1, (ipLen ip : Int), (ipHlen ip : Int)) := by
    unfold analyzeNetwork
    rw [if_pos hn]
    simp only [analyzeIp_snd, hlen]
    rfl
  have htrans : ∀ (clen : Int) (b : Body),
      analyzeTransport unset 6 (ip.add (ipHlen ip)) clen b =
        ((analyzeTcp (ip.add (ipHlen ip)) b).1, (tcpHlen ip : Int)) := by
    intro clen b
    unfold analyzeTransport
    rw [if_pos rfl]
    simp only [analyzeTcp_snd, hthl]
  have hfront : f.data.add (datalinkHlen linktype n.offset + ipHlen ip) = ip.add (ipHlen ip) := by
    rw [← hadd, Pointer.add_add]
  have hback : f.data.add (datalinkHlen linktype n.offset + ipHlen ip + tcpHlen ip) =
      ip.add (ipHlen ip + tcpHlen ip) := by
    rw [← hadd, Pointer.add_add, Int.add_assoc]
  unfold buildPacket
  simp only [if_pos hknown, hadd, hnet, hclip, hsub, hfront, htrans, if_neg hcut, hrest, hpos,
    if_neg hheader, if_pos hdata, hcount, hback]
  rfl

end

end Jpcap

end ConnectionSniffer
