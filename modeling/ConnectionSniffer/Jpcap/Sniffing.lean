import ConnectionSniffer.Jpcap.PppoeTransparency
import ConnectionSniffer.Receiver.Run

/-!
# From the frames to the receiver

`TCPConnectionSniffer` gives each packet object of the captor to `pick`,
after a cast to `TCPPacket`; an object of another class fails the cast, and
the failure is logged.  `Sniffer.step` is this loop body with the captor in
front of it, and a call of the application that reads the streams.  The
captor has no `JpcapFilter` here.

`receiver_eq_of_sameTraffic` compares two sniffers on one conversation, of
which each sees every segment either in a plain Ethernet frame or in a PPPoE
session frame, among whatever frames of other protocols its side of the
network carries (the link control frames of PPP, for one).  The two see a
segment at the same time, by the clock and by the time stamp of pcap.  Their
receivers go through the same states, with the same connections, buffers and
streams: what the captor remembers of PPPoE never gets that far.
-/

namespace ConnectionSniffer

namespace Jpcap

/-! ## The cast -/

/-- Two bytes in network order. -/
def group (a b : UInt8) : UInt16 := (a.toNat * 256 + b.toNat).toUInt16

/-- `InetAddress.getByAddress`, which takes an IPv4 address that is mapped to
IPv6 for the IPv4 address. -/
def getByAddress : List UInt8 → Option InetAddress
  | [a, b, c, d] => some (.inet4 a b c d)
  | [a, b, c, d, e, f, g, h, i, j, k, l, m, n, o, p] =>
    if [a, b, c, d, e, f, g, h, i, j] = List.replicate 10 0 ∧ k = 255 ∧ l = 255 then
      some (.inet4 m n o p)
    else
      some (.inet6 (group a b) (group c d) (group e f) (group g h) (group i j) (group k l)
        (group m n) (group o p))
  | _ => none

/-- `(jpcap.packet.TCPPacket) packet`, with the fields that `TCPPacketImpl`
reads; `none` if the cast fails.  It is also `none` for a `TCPPacket` whose
addresses are `null`: `pick` throws a `NullPointerException` for the hash code
of its `ConnectionDetail`, or a filter turns it down, before anything has
changed. -/
def Packet.toTCPPacket (p : Packet) : Option JpcapPacket :=
  match p.body with
  | .tcp ip tcp =>
    match ip.srcIp.bind getByAddress, ip.dstIp.bind getByAddress with
    | some srcIp, some dstIp =>
      some
        { srcIp := srcIp
          dstIp := dstIp
          srcPort := tcp.srcPort.toNat.toUInt16
          dstPort := tcp.dstPort.toNat.toUInt16
          sequence := tcp.sequence.toNat
          ackNum := tcp.ackNum.toNat
          ack := tcp.ack
          rst := tcp.rst
          syn := tcp.syn
          fin := tcp.fin
          data := p.data.getD []
          usec := p.usec.toNat }
    | _, _ => none
  | _ => none

/-! ## The sniffer -/

/-- The captor and the receiver behind it. -/
structure Sniffer where
  captor : Instance
  receiver : PacketReceiverImpl

/-- A captured frame, or a call of the application. -/
inductive Event where
  | frame (now : Date) (unset : Unset) (f : Frame)
  | call (c : Call)

/-- `receivePacket` behind the captor. -/
def Sniffer.step (bound : Nat) (s : Sniffer) : Event → Sniffer
  | .frame now unset f =>
    let (packet, captor) := getPacket bound unset s.captor f
    { captor := captor
      receiver :=
        match packet.bind Packet.toTCPPacket with
        | none => s.receiver
        | some p => s.receiver.step (.pick now p) }
  | .call c => { s with receiver := s.receiver.step c }

/-! ## Frames of other protocols -/

/-- A frame that is not IP. -/
def Frame.Foreign (f : Frame) : Prop :=
  f.network.nproto ≠ etherTypeIp ∧ f.network.nproto ≠ etherTypeIpv6

/-- `src_ip` of a `TCPPacket`. -/
def Body.tcpSource : Body → Option (List UInt8)
  | .tcp i _ => i.srcIp
  | _ => none

@[simp] theorem Body.tcpSource_mapTcp (set : TCPPacket → TCPPacket) (b : Body) :
    (b.mapTcp set).tcpSource = b.tcpSource := by
  cases b <;> rfl

@[simp] theorem Body.tcpSource_mapUdp (set : UDPPacket → UDPPacket) (b : Body) :
    (b.mapUdp set).tcpSource = b.tcpSource := by
  cases b <;> rfl

@[simp] theorem Body.tcpSource_mapIcmp (set : ICMPPacket → ICMPPacket) (b : Body) :
    (b.mapIcmp set).tcpSource = b.tcpSource := by
  cases b <;> rfl

@[simp] theorem Body.tcpSource_mapArp (set : ARPPacket → ARPPacket) (b : Body) :
    (b.mapArp set).tcpSource = b.tcpSource := by
  cases b <;> rfl

@[simp] theorem Body.tcpSource_setOption (option : List UInt8) (b : Body) :
    (b.setOption option).tcpSource = b.tcpSource := by
  cases b <;> rfl

@[simp] theorem tcpSource_analyzeIcmp (unset : Unset) (data : Pointer) (clen : Int) (b : Body) :
    (analyzeIcmp unset data clen b).tcpSource = b.tcpSource := by
  unfold analyzeIcmp
  dsimp only
  repeat' split
  all_goals simp only [Body.tcpSource_mapIcmp]

/-- No transport header has an address. -/
@[simp] theorem tcpSource_analyzeTransport (unset : Unset) (tproto : Nat) (data : Pointer)
    (clen : Int) (b : Body) :
    (analyzeTransport unset tproto data clen b).1.tcpSource = b.tcpSource := by
  unfold analyzeTransport
  split_ifs
  · unfold analyzeTcp
    dsimp only
    split_ifs
    · rw [Body.tcpSource_setOption, Body.tcpSource_mapTcp]
    · rw [Body.tcpSource_mapTcp]
  · exact Body.tcpSource_mapUdp _ _
  · exact tcpSource_analyzeIcmp _ _ _ _
  · rfl

/-- Nor has the network header of a foreign frame. -/
theorem tcpSource_analyzeNetwork {bound nproto caplen : Nat} {dlHlen : Int} {data : Pointer}
    {b : Body} (hip : nproto ≠ etherTypeIp) (hipv6 : nproto ≠ etherTypeIpv6)
    {parts : Body × Int × Int}
    (h : analyzeNetwork bound nproto caplen dlHlen data b = some parts) :
    parts.1.tcpSource = b.tcpSource := by
  unfold analyzeNetwork at h
  rw [if_neg hip, if_neg hipv6] at h
  split_ifs at h
  · obtain rfl := Option.some.inj h
    exact Body.tcpSource_mapArp _ _
  · obtain rfl := Option.some.inj h
    rfl
  · obtain rfl := Option.some.inj h
    rfl

/-- A new object has no addresses. -/
theorem tcpSource_createPacket (tproto nproto : Nat) :
    (createPacket tproto nproto).tcpSource = none := by
  unfold createPacket
  split_ifs <;> rfl

/-- A foreign frame may name TCP in the place of its network protocol, and
then it is made a `TCPPacket`, but one without addresses. -/
theorem tcpSource_buildPacket {bound : Nat} {unset : Unset} {linktype : Nat} {f : Frame}
    {n : Network} {tproto : Nat} (hip : n.nproto ≠ etherTypeIp) (hipv6 : n.nproto ≠ etherTypeIpv6)
    {p : Packet} (hp : buildPacket bound unset linktype f n tproto = some p) :
    p.body.tcpSource = none := by
  unfold buildPacket at hp
  dsimp only at hp
  split at hp
  · exact absurd hp (Option.some_ne_none p).symm
  · rename_i parts hparts
    have hkeep := tcpSource_analyzeNetwork hip hipv6 hparts
    obtain ⟨-, hp⟩ := Option.ite_none_left_eq_some.mp hp
    obtain rfl := Option.some.inj hp
    exact (tcpSource_analyzeTransport _ _ _ _ _).trans
      (hkeep.trans (tcpSource_createPacket _ _))

/-- No foreign frame reaches the tables. -/
theorem toTCPPacket_foreign {f : Frame} (hforeign : f.Foreign) (bound : Nat) (unset : Unset)
    {i : Instance} (hlink : i.linktype = dltEn10mb) :
    (getPacket bound unset i f).1.bind Packet.toTCPPacket = none := by
  cases hp : (getPacket bound unset i f).1 with
  | none => rfl
  | some p =>
    have hsource : p.body.tcpSource = none := by
      unfold getPacket at hp
      simp only [networkProtocol_eq hlink, hlink] at hp
      exact tcpSource_buildPacket (n := { f.network with
        linktypeExt := if f.isPppoe then etherTypePppoe else i.linktypeExt })
        hforeign.1 hforeign.2 hp
    show p.toTCPPacket = none
    unfold Packet.toTCPPacket
    cases hbody : p.body with
    | tcp ip tcp =>
      rw [hbody] at hsource
      have hnone : ip.srcIp = none := hsource
      simp only [hnone, Option.bind_none]
    | _ => rfl

/-! ## Two views of one conversation -/

/-- `f` carries the segment of the plain frame `plain`. -/
def Frame.Frames (f plain : Frame) : Prop :=
  (f = plain ∨ InsertsPppoe plain f) ∧ f.header.usec = plain.header.usec

/-- Two series of events that differ in the framing of the segments and in
the foreign frames among them. -/
inductive SameTraffic : List Event → List Event → Prop
  | nil : SameTraffic [] []
  | segment {es es' : List Event} {now : Date} {u v : Unset} {plain f g : Frame}
      (hwhole : plain.WholeTcp) (hf : f.Frames plain) (hg : g.Frames plain)
      (hrest : SameTraffic es es') :
      SameTraffic (.frame now u f :: es) (.frame now v g :: es')
  | left {es es' : List Event} {now : Date} {u : Unset} {f : Frame} (hf : f.Foreign)
      (hrest : SameTraffic es es') : SameTraffic (.frame now u f :: es) es'
  | right {es es' : List Event} {now : Date} {v : Unset} {g : Frame} (hg : g.Foreign)
      (hrest : SameTraffic es es') : SameTraffic es (.frame now v g :: es')
  | call {es es' : List Event} (c : Call) (hrest : SameTraffic es es') :
      SameTraffic (.call c :: es) (.call c :: es')

theorem usec_getPacket {bound : Nat} {unset : Unset} {i : Instance} {f : Frame} {p : Packet}
    (hp : (getPacket bound unset i f).1 = some p) : p.usec = f.header.usec := by
  unfold getPacket buildPacket at hp
  dsimp only at hp
  split at hp
  · exact absurd hp (Option.some_ne_none p).symm
  · obtain ⟨-, hp⟩ := Option.ite_none_left_eq_some.mp hp
    obtain rfl := Option.some.inj hp
    rfl

/-- What is found in either frame. -/
theorem getPacket_frames {plain f : Frame} (hwhole : plain.WholeTcp) (hf : f.Frames plain)
    (bound : Nat) (unset : Unset) {i : Instance} (hlink : i.linktype = dltEn10mb) :
    ∃ p, (getPacket bound unset i f).1 = some p ∧
      p.body = segmentBody (plain.data.add 14) ∧
      p.data = some (segmentData (plain.data.add 14)) ∧ p.usec = plain.header.usec := by
  obtain ⟨hframing, husec⟩ := hf
  rcases hframing with rfl | hpppoe
  · obtain ⟨p, hp, hbody, hdata⟩ := getPacket_carries hwhole.carries bound unset hlink
    exact ⟨p, hp, hbody, hdata, usec_getPacket hp⟩
  · have hinside := hwhole.segment.ipLen_le
    have hcommon : Pointer.Agree (ipLen (plain.data.add 14)) (plain.data.add 14)
        (f.data.add 22) :=
      fun k hpos hlt => hpppoe.agree k hpos (by omega)
    obtain ⟨p, hp, hbody, hdata⟩ := getPacket_carries (hpppoe.carries hwhole) bound unset hlink
    refine ⟨p, hp, ?_, ?_, (usec_getPacket hp).trans husec⟩
    · rw [hbody, segmentBody_congr hcommon hwhole.segment]
    · rw [hdata, segmentData_congr hcommon hwhole.segment]

/-- A packet object is cast by its body, its data and its time stamp. -/
theorem toTCPPacket_congr {p q : Packet} (hbody : p.body = q.body) (hdata : p.data = q.data)
    (husec : p.usec = q.usec) : p.toTCPPacket = q.toTCPPacket := by
  unfold Packet.toTCPPacket
  rw [hbody, hdata, husec]

/-- The receivers of two sniffers on one conversation are the same after
every such series of events. -/
theorem receiver_eq_of_sameTraffic (bound : Nat) {es es' : List Event} (h : SameTraffic es es') :
    ∀ {s s' : Sniffer}, s.captor.linktype = dltEn10mb → s'.captor.linktype = dltEn10mb →
      s.receiver = s'.receiver →
      (Run.after (Sniffer.step bound) s es).receiver =
        (Run.after (Sniffer.step bound) s' es').receiver := by
  induction h with
  | nil =>
    intro s s' _ _ hreceiver
    exact hreceiver
  | @segment es es' now u v plain f g hwhole hf hg _ ih =>
    intro s s' hs hs' hreceiver
    obtain ⟨p, hp, hpbody, hpdata, hpusec⟩ := getPacket_frames hwhole hf bound u hs
    obtain ⟨q, hq, hqbody, hqdata, hqusec⟩ := getPacket_frames hwhole hg bound v hs'
    have hcast : p.toTCPPacket = q.toTCPPacket :=
      toTCPPacket_congr (hpbody.trans hqbody.symm) (hpdata.trans hqdata.symm)
        (hpusec.trans hqusec.symm)
    refine ih hs hs' ?_
    simp only [Sniffer.step, hp, hq, Option.bind_some, hcast, hreceiver]
  | @left es es' now u f hf _ ih =>
    intro s s' hs hs' hreceiver
    refine ih hs hs' ?_
    simp only [Sniffer.step, toTCPPacket_foreign hf bound u hs, hreceiver]
  | @right es es' now v g hg _ ih =>
    intro s s' hs hs' hreceiver
    refine ih hs hs' ?_
    simp only [Sniffer.step, toTCPPacket_foreign hg bound v hs', hreceiver]
  | call c _ ih =>
    intro s s' hs hs' hreceiver
    refine ih hs hs' ?_
    simp only [Sniffer.step, hreceiver]

/-- The segment once plain, and once over PPPoE behind a link control frame. -/
theorem receiver_eq_of_sameTraffic_ack :
    let lcp := Frame.ofList
      (macBytes ++ [0x88, 0x64, 0x11, 0, 0, 1, 0, 6, 0xc0, 0x21, 9, 1, 0, 4])
    let s : Sniffer := ⟨{ linktype := dltEn10mb }, PacketReceiverImpl.create {}⟩
    (Run.after (Sniffer.step 0) s [.frame 1 ⟨0, 0, 0⟩ ackFrame, .call .poll]).receiver =
      (Run.after (Sniffer.step 0) s
        [.frame 0 ⟨1, 1, 1⟩ lcp, .frame 1 ⟨2, 2, 2⟩ pppoeAckFrame, .call .poll]).receiver := by
  intro lcp s
  have hlcp : lcp.Foreign := ⟨by decide +kernel, by decide +kernel⟩
  exact receiver_eq_of_sameTraffic 0
    (.right hlcp (.segment wholeTcp_ackFrame ⟨Or.inl rfl, rfl⟩
      ⟨Or.inr insertsPppoe_ackFrame, rfl⟩ (.call .poll .nil))) rfl rfl rfl

end Jpcap

end ConnectionSniffer
