import ConnectionSniffer.Jpcap.CaptureHistory
import ConnectionSniffer.Jpcap.Segment

/-!
# PPPoE is transparent for TCP

A PPPoE session frame has eight bytes more in front of the IP packet: the
session header and the PPP protocol.  `InsertsPppoe` relates a plain frame to
such a frame; it says nothing about what lies behind the captured bytes of
either of them.

The decoders read the IP packet and nothing behind it (`analyzeIp_congr`,
`analyzeTcp_congr`), and both frames carry the same IP packet, so
`getPacket_pppoe` finds the same fields and the same payload in both.
-/

namespace ConnectionSniffer

namespace Jpcap

/-! ## Decoders read the packet only -/

section

variable {n : Int} {p q : Pointer}

theorem ipHlen_congr (h : Pointer.Agree n p q) (hn : 20 ≤ n) : ipHlen p = ipHlen q := by
  unfold ipHlen
  rw [h 0 (by omega) (by omega)]

theorem ipLen_congr (h : Pointer.Agree n p q) (hn : 20 ≤ n) : ipLen p = ipLen q := by
  unfold ipLen
  rw [h.u16 (by omega) (by omega)]

theorem tcpHlen_congr (h : Pointer.Agree n p q) (hn : ipHlen p + 20 ≤ n) :
    tcpHlen p = tcpHlen q := by
  unfold tcpHlen
  rw [← ipHlen_congr h (by omega), h (ipHlen p + 12) (by omega) (by omega)]

theorem analyzeIp_congr (h : Pointer.Agree n p q) (hn : 20 ≤ n) (hhlen : ipHlen p ≤ n)
    (b : Body) : analyzeIp p b = analyzeIp q b := by
  unfold ipHlen at hhlen
  have h0 := h 0 (by omega) (by omega)
  have h1 := h 1 (by omega) (by omega)
  have h8 := h 8 (by omega) (by omega)
  have h9 := h 9 (by omega) (by omega)
  have hlen : p.u16 2 = q.u16 2 := h.u16 (by omega) (by omega)
  have hid : p.u16 4 = q.u16 4 := h.u16 (by omega) (by omega)
  have hoff : p.u16 6 = q.u16 6 := h.u16 (by omega) (by omega)
  have hsrc : (p.add 12).bytes 4 = (q.add 12).bytes 4 := h.bytes_add (by omega) (by omega)
  have hdst : (p.add 16).bytes 4 = (q.add 16).bytes 4 := h.bytes_add (by omega) (by omega)
  have hopt : (q 0).toNat % 16 * 4 > 20 →
      (p.add 20).bytes ((q 0).toNat % 16 * 4 - 20) =
        (q.add 20).bytes ((q 0).toNat % 16 * 4 - 20) := by
    intro hgt
    rw [h0] at hhlen
    exact h.bytes_add (by omega) (by omega)
  unfold analyzeIp
  simp only [h0, h1, h8, h9, hlen, hid, hoff, hsrc, hdst]
  split_ifs with hgt
  · rw [hopt hgt]
  · rfl

theorem analyzeTcp_congr (h : Pointer.Agree n p q) (hn : 20 ≤ n)
    (hhlen : ((p 12).toNat / 16 * 4 : Nat) ≤ n) (b : Body) : analyzeTcp p b = analyzeTcp q b := by
  have h12 := h 12 (by omega) (by omega)
  have h13 := h 13 (by omega) (by omega)
  have hsport : p.u16 0 = q.u16 0 := h.u16 (by omega) (by omega)
  have hdport : p.u16 2 = q.u16 2 := h.u16 (by omega) (by omega)
  have hseq : p.u32 4 = q.u32 4 := h.u32 (by omega) (by omega)
  have hack : p.u32 8 = q.u32 8 := h.u32 (by omega) (by omega)
  have hwin : p.u16 14 = q.u16 14 := h.u16 (by omega) (by omega)
  have hurp : p.u16 18 = q.u16 18 := h.u16 (by omega) (by omega)
  have hopt : (q 12).toNat / 16 * 4 > 20 →
      (p.add 20).bytes ((q 12).toNat / 16 * 4 - 20) =
        (q.add 20).bytes ((q 12).toNat / 16 * 4 - 20) := by
    intro hgt
    rw [h12] at hhlen
    exact h.bytes_add (by omega) (by omega)
  unfold analyzeTcp
  simp only [h12, h13, hsport, hdport, hseq, hack, hwin, hurp]
  split_ifs with hgt
  · rw [hopt hgt]
  · rfl

/-- A segment is a matter of its own bytes. -/
theorem Segment.congr {room : Int} (h : Pointer.Agree (ipLen p) p q) (hp : Segment p room) :
    Segment q room := by
  have hfit := hp.le_ipLen
  have hip := hp.le_ipHlen
  have htcp := hp.le_tcpHlen
  have hihl := ipHlen_congr h (by omega)
  have hthl := tcpHlen_congr h (by omega)
  have hlen := ipLen_congr h (by omega)
  have hoff : p.u16 6 = q.u16 6 := h.u16 (by omega) (by omega)
  constructor
  · rw [← h 9 (by omega) (by omega)]
    exact hp.protocol
  · rw [← hoff]
    exact hp.first
  · rw [← hihl]
    exact hip
  · rw [← hthl]
    exact htcp
  · rw [← hihl, ← hthl, ← hlen]
    exact hfit
  · rw [← hlen]
    exact hp.ipLen_le

theorem segmentBody_congr {room : Int} (h : Pointer.Agree (ipLen p) p q) (hp : Segment p room) :
    segmentBody p = segmentBody q := by
  have hfit := hp.le_ipLen
  have hip := hp.le_ipHlen
  have htcp := hp.le_tcpHlen
  have hthl : ((p.add (ipHlen p)) 12).toNat / 16 * 4 = tcpHlen p := rfl
  unfold segmentBody
  rw [analyzeIp_congr h (by omega) (by omega), ← ipHlen_congr h (by omega),
    analyzeTcp_congr (h.add (by omega)) (by omega) (by omega)]

theorem segmentData_congr {room : Int} (h : Pointer.Agree (ipLen p) p q) (hp : Segment p room) :
    segmentData p = segmentData q := by
  have hfit := hp.le_ipLen
  have hip := hp.le_ipHlen
  have htcp := hp.le_tcpHlen
  unfold segmentData
  rw [← ipHlen_congr h (by omega), ← tcpHlen_congr h (by omega), ← ipLen_congr h (by omega)]
  exact h.bytes_add (by omega) (by omega)

end

/-! ## Both framings -/

/-- A plain Ethernet frame with a whole TCP segment, and maybe padding. -/
structure Frame.WholeTcp (f : Frame) : Prop where
  type : getNetworkType f.data dltEn10mb 0 = etherTypeIp
  segment : Segment (f.data.add 14) (f.header.caplen.toNat - 14)
  caplen_lt : f.header.caplen.toNat < 32760

/-- `g` is `f` with a PPPoE session header and the PPP protocol of IP in
front of the IP packet. -/
structure InsertsPppoe (f g : Frame) : Prop where
  macs : ∀ k : Int, 0 ≤ k → k < 12 → g.data k = f.data k
  type : getNetworkType g.data dltEn10mb 0 = etherTypePppoe
  protocol : getNetworkType g.data dltEn10mb pppoeOffset = etherTypeIpPacket
  caplen : g.header.caplen.toNat = f.header.caplen.toNat + 8
  payload : ∀ k : Int, 14 ≤ k → k < f.header.caplen.toNat → g.data (k + 8) = f.data k

/-- `get_packet` finds the IP packet behind `ip`, with `room` bytes for it. -/
structure Frame.Carries (f : Frame) (n : Network) (ip : Pointer) (room : Int) : Prop where
  network : ∀ i : Instance, i.linktype = dltEn10mb →
    ∃ ext, networkProtocol i f.header.caplen.toNat f.data = { n with linktypeExt := ext }
  nproto : n.nproto = etherTypeIp
  clen : n.clen = room
  room_lt : room < 32760
  skip : ip = skipDatalinkHeader f.data dltEn10mb n.offset
  hlen : 0 ≤ datalinkHlen dltEn10mb n.offset
  caplen : (f.header.caplen.toNat : Int) = datalinkHlen dltEn10mb n.offset + room
  caplen_lt : f.header.caplen.toNat < 32768
  segment : Segment ip room

/-- The body and the payload that `get_packet` finds in such a frame. -/
theorem getPacket_carries {f : Frame} {n : Network} {ip : Pointer} {room : Int}
    (h : f.Carries n ip room) (bound : Nat) (unset : Unset) {i : Instance}
    (hlink : i.linktype = dltEn10mb) :
    ∃ p, (getPacket bound unset i f).1 = some p ∧ p.body = segmentBody ip ∧
      p.data = some (segmentData ip) := by
  obtain ⟨ext, hnetwork⟩ := h.network i hlink
  have htransport := transportProtocol_segment (f := f)
    (n := { n with linktypeExt := ext }) h.skip h.nproto h.clen h.room_lt h.segment
    unset.tproto.toNat
  have hcheck : checkTruncated 6 (room - ipHlen ip) = 6 := by
    have hfit := h.segment.le_ipLen
    have htcp := h.segment.le_tcpHlen
    have hinside := h.segment.ipLen_le
    unfold checkTruncated
    refine if_neg ?_
    omega
  have hcaplen := h.caplen
  have hroom : datalinkHlen dltEn10mb n.offset + room < 32768 := by
    have hlt := h.caplen_lt
    omega
  have hbuild := buildPacket_segment (f := f) (n := { n with linktypeExt := ext }) h.skip h.nproto
    hcaplen h.hlen hroom h.segment bound unset
  have hfirst : (getPacket bound unset i f).1 =
      buildPacket bound unset dltEn10mb f { n with linktypeExt := ext } 6 := by
    unfold getPacket
    simp only [hlink, hnetwork, htransport, hcheck]
  exact ⟨_, hfirst.trans hbuild, rfl, rfl⟩

theorem Frame.WholeTcp.carries {f : Frame} (h : f.WholeTcp) :
    f.Carries ⟨etherTypeIp, 0, f.header.caplen.toNat - 14, 0⟩ (f.data.add 14)
      (f.header.caplen.toNat - 14) := by
  have hcaplen := h.caplen_lt
  have hplain : ¬f.isPppoe := by
    unfold Frame.isPppoe
    rw [h.type]
    decide
  have hnotPppoe : ¬etherTypeIp = etherTypePppoe := by decide
  have hshort : toShort (toShort f.header.caplen.toNat - 14) = f.header.caplen.toNat - 14 := by
    rw [toShort_eq (x := f.header.caplen.toNat) (by omega) (by omega),
      toShort_eq (by omega) (by omega)]
  refine ⟨?_, rfl, rfl, by omega, rfl, ?_, ?_, by omega, h.segment⟩
  · intro i hlink
    refine ⟨i.linktypeExt, ?_⟩
    have hraw : ¬dltEn10mb = dltRaw := by decide
    have hdl : datalinkHlen dltEn10mb 0 = 14 := rfl
    unfold networkProtocol
    simp only [hlink, if_neg hraw, or_true, if_true, h.type, if_neg hnotPppoe, hdl, hshort]
  · change (0 : Int) ≤ 14
    decide
  · change _ = (14 : Int) + _
    omega

theorem InsertsPppoe.agree {f g : Frame} (h : InsertsPppoe f g) :
    Pointer.Agree (f.header.caplen.toNat - 14) (f.data.add 14) (g.data.add 22) := by
  intro k hpos hlt
  have hbyte := h.payload (14 + k) (by omega) (by omega)
  rw [Pointer.add_apply, Pointer.add_apply, ← hbyte]
  congr 1
  omega

theorem InsertsPppoe.carries {f g : Frame} (h : InsertsPppoe f g) (hf : f.WholeTcp) :
    g.Carries ⟨etherTypeIp, pppoeOffset, f.header.caplen.toNat - 14, 0⟩ (g.data.add 22)
      (f.header.caplen.toNat - 14) := by
  have hcaplen := hf.caplen_lt
  have hinside := hf.segment.ipLen_le
  have hshort : toShort (toShort (f.header.caplen.toNat + 8 : Nat) - 22) =
      f.header.caplen.toNat - 14 := by
    rw [toShort_eq (x := (f.header.caplen.toNat + 8 : Nat)) (by omega) (by omega),
      toShort_eq (by omega) (by omega)]
    omega
  have hcommon : Pointer.Agree (ipLen (f.data.add 14)) (f.data.add 14) (g.data.add 22) :=
    fun k hpos hlt => h.agree k hpos (by omega)
  refine ⟨?_, rfl, rfl, by omega, rfl, ?_, ?_, ?_, hf.segment.congr hcommon⟩
  · intro i hlink
    refine ⟨etherTypePppoe, ?_⟩
    have hraw : ¬dltEn10mb = dltRaw := by decide
    have hdl : datalinkHlen dltEn10mb pppoeOffset = 22 := rfl
    unfold networkProtocol
    simp only [hlink, if_neg hraw, or_true, if_true, h.type, h.protocol, h.caplen, hdl, hshort]
  · change (0 : Int) ≤ 22
    decide
  · rw [h.caplen]
    change _ = (22 : Int) + _
    omega
  · rw [h.caplen]
    omega

/-- A TCP segment is decoded alike with and without PPPoE, by whatever
captors: the IP and TCP fields and the options of the plain segment, and
exactly the payload that the length fields announce. -/
theorem getPacket_pppoe {f g : Frame} (hf : f.WholeTcp) (hg : InsertsPppoe f g) (bound : Nat)
    (u v : Unset) {i j : Instance} (hi : i.linktype = dltEn10mb) (hj : j.linktype = dltEn10mb) :
    ∃ p q ip tcp,
      (getPacket bound u i f).1 = some p ∧ (getPacket bound v j g).1 = some q ∧
      p.body = .tcp ip tcp ∧ q.body = .tcp ip tcp ∧
      segmentBody (f.data.add 14) = .tcp ip tcp ∧ p.data = q.data ∧
      p.data = some ((f.data.add (14 + (ipHlen (f.data.add 14) + tcpHlen (f.data.add 14)))).bytes
        (ipLen (f.data.add 14) - ipHlen (f.data.add 14) - tcpHlen (f.data.add 14))) := by
  have hinside := hf.segment.ipLen_le
  have hcommon : Pointer.Agree (ipLen (f.data.add 14)) (f.data.add 14) (g.data.add 22) :=
    fun k hpos hlt => hg.agree k hpos (by omega)
  obtain ⟨p, hp, hpbody, hpdata⟩ := getPacket_carries hf.carries bound u hi
  obtain ⟨q, hq, hqbody, hqdata⟩ := getPacket_carries (hg.carries hf) bound v hj
  obtain ⟨ip, tcp, hbody⟩ := segmentBody_tcp (f.data.add 14)
  have hbody' : segmentBody (g.data.add 22) = .tcp ip tcp := by
    rw [← segmentBody_congr hcommon hf.segment, hbody]
  refine ⟨p, q, ip, tcp, hp, hq, hpbody.trans hbody, hqbody.trans hbody', hbody, ?_, ?_⟩
  · rw [hpdata, hqdata]
    exact congrArg some (segmentData_congr hcommon hf.segment)
  · rw [hpdata, segmentData, Pointer.add_add]

theorem wholeTcp_ackFrame : ackFrame.WholeTcp :=
  ⟨by decide +kernel, ⟨by decide +kernel, by decide +kernel, by decide +kernel,
    by decide +kernel, by decide +kernel, by decide +kernel⟩, by decide +kernel⟩

theorem insertsPppoe_ackFrame : InsertsPppoe ackFrame pppoeAckFrame := by
  have hcaplen : ackFrame.header.caplen.toNat = 56 := by decide +kernel
  have hbytes : ∀ k : Nat, k < 56 →
      (k < 12 → pppoeAckFrame.data k = ackFrame.data k) ∧
        (14 ≤ k → pppoeAckFrame.data (k + 8 : Nat) = ackFrame.data k) := by decide +kernel
  refine ⟨?_, by decide +kernel, by decide +kernel, by decide +kernel, ?_⟩
  · intro k hpos hlt
    obtain ⟨m, rfl⟩ := Int.eq_ofNat_of_zero_le hpos
    exact (hbytes m (by omega)).1 (by omega)
  · intro k hle hlt
    obtain ⟨m, rfl⟩ := Int.eq_ofNat_of_zero_le (show 0 ≤ k by omega)
    exact (hbytes m (by omega)).2 (by omega)

/-- The ACK with its two bytes, once plain and once over PPPoE. -/
theorem getPacket_pppoe_ack :
    ∃ p q ip tcp,
      (getPacket 0 ⟨0, 0, 0⟩ { linktype := dltEn10mb } ackFrame).1 = some p ∧
      (getPacket 0 ⟨7, 8, 9⟩ { linktype := dltEn10mb } pppoeAckFrame).1 = some q ∧
      p.body = .tcp ip tcp ∧ q.body = .tcp ip tcp ∧
      segmentBody (ackFrame.data.add 14) = .tcp ip tcp ∧ p.data = q.data ∧
      p.data = some [72, 105] :=
  getPacket_pppoe wholeTcp_ackFrame insertsPppoe_ackFrame 0 ⟨0, 0, 0⟩ ⟨7, 8, 9⟩ rfl rfl

end Jpcap

end ConnectionSniffer
