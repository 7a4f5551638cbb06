import ConnectionSniffer.Jpcap.CaptureHistory
import ConnectionSniffer.Jpcap.Segment

/-!
# Which bytes end up in a packet

`get_packet` cuts a frame in two arrays, `header` and `data`.
`buildPacket_copies` says that the cut loses nothing and repeats nothing: the
two together are a piece of memory that starts at the frame, and its length
is the datalink header and the length that the network header announces.
Where the header lengths do not fit into the announced length, the transport
header is cut so that this stays true.

The announced length is clipped to the captured bytes, but not for a packet
whose transport header is truncated: for that packet `tproto` is set to a
value that the clipping takes for an unknown network protocol.
`getPacket_overruns_iff` says that this is the only way to copy memory that
was never captured.
-/

namespace ConnectionSniffer

namespace Jpcap

/-- The pointer to the network header. -/
def Frame.networkHeader (f : Frame) : Pointer :=
  skipDatalinkHeader f.data dltEn10mb f.network.offset

/-- The number of captured bytes behind the datalink header. -/
def Frame.room (f : Frame) : Int :=
  f.header.caplen.toNat - datalinkHlen dltEn10mb f.network.offset

/-- The transport protocol after the check for truncated packets. -/
def Frame.protocol (f : Frame) (unset : Unset) : Nat :=
  let (tproto, clen) := transportProtocol unset.tproto.toNat f.network dltEn10mb f.data
  checkTruncated tproto clen

/-- The length that the network header announces; other protocols announce
what was captured. -/
def Frame.announced (f : Frame) : Int :=
  if f.network.nproto = etherTypeIp then ipLen f.networkHeader
  else if f.network.nproto = etherTypeArp then
    8 + (f.networkHeader 4).toNat * 2 + (f.networkHeader 5).toNat * 2
  else f.room

/-- A truncated packet that announces more than was captured. -/
def Frame.Overruns (f : Frame) (unset : Unset) : Prop :=
  f.network.nproto ≠ unknownProto ∧ f.protocol unset = unknownProto ∧ f.room < f.announced

instance (f : Frame) (unset : Unset) : Decidable (f.Overruns unset) :=
  inferInstanceAs (Decidable (_ ∧ _ ∧ _))

theorem analyzeTransport_snd (unset : Unset) (tproto : Nat) (data : Pointer) (clen : Int)
    (b : Body) : 0 ≤ (analyzeTransport unset tproto data clen b).2 ∧
      (analyzeTransport unset tproto data clen b).2 ≤ 60 := by
  have hlt := (data 12).toNat_lt
  unfold analyzeTransport
  split_ifs
  · simp only [analyzeTcp_snd]
    omega
  · dsimp only
    omega
  · dsimp only
    omega
  · dsimp only
    omega

/-- Cutting a piece of memory in two. -/
theorem bytes_append_bytes (p : Pointer) {m n : Int} (hm : 0 ≤ m) (hn : 0 ≤ n) :
    p.bytes m.toNat ++ (p.add m).bytes n.toNat = p.bytes (m + n).toNat := by
  have hsum : (m + n).toNat = m.toNat + n.toNat := by omega
  rw [hsum, Pointer.bytes_add, Int.toNat_of_nonneg hm]

/-- Header and data together are the frame up to the announced length. -/
theorem buildPacket_copies {bound : Nat} {unset : Unset} {f : Frame} {n : Network} {tproto : Nat}
    {parts : Body × Int × Int} {start : Int}
    (hstart : start = if n.nproto ≠ unknownProto then datalinkHlen dltEn10mb n.offset else 0)
    (hnetwork : analyzeNetwork bound n.nproto f.header.caplen.toNat
      (datalinkHlen dltEn10mb n.offset) (f.data.add start) (createPacket tproto n.nproto) =
        some parts)
    (hpos : 0 ≤ start) (hlt : start < 100) (hhlen : 0 ≤ parts.2.2) (hhlenLt : parts.2.2 < 2000)
    {len : Int}
    (hlen : clip n.nproto tproto f.header.caplen.toNat (datalinkHlen dltEn10mb n.offset)
      parts.2.1 = len)
    (hlenPos : 0 ≤ len) (hlenLt : len < 32768) {p : Packet}
    (hp : buildPacket bound unset dltEn10mb f n tproto = some p) :
    ∃ data, p.data = some data ∧ p.header ++ data = f.data.bytes (start + len).toNat := by
  obtain ⟨body, clen, hlen'⟩ := parts
  dsimp only at hhlen hhlenLt hlen
  have hrest : toShort (len - hlen') = len - hlen' := toShort_eq (by omega) (by omega)
  obtain ⟨htpos, htle⟩ :=
    analyzeTransport_snd unset tproto (f.data.add (start + hlen')) (len - hlen') body
  unfold buildPacket at hp
  simp only [← hstart, hnetwork, hlen, hrest] at hp
  generalize analyzeTransport unset tproto (f.data.add (start + hlen')) (len - hlen') body = t
    at htpos htle hp
  -- the transport header is cut to what is left
  obtain ⟨cut, hcut, hcutLe, hcutLo, hcutHi⟩ : ∃ cut,
      (if t.2 > len - hlen' then len - hlen' else t.2) = cut ∧ cut ≤ len - hlen' ∧
        -2000 ≤ cut ∧ cut ≤ 60 := by
    split_ifs with hgt
    · exact ⟨_, rfl, by omega, by omega, by omega⟩
    · exact ⟨_, rfl, by omega, by omega, by omega⟩
  have hdata : toShort (len - hlen' - cut) = len - hlen' - cut := toShort_eq (by omega) (by omega)
  have hheader : toShort (start + hlen' + cut) = start + hlen' + cut :=
    toShort_eq (by omega) (by omega)
  simp only [hcut, hdata, hheader] at hp
  have hdataPos : 0 ≤ len - hlen' - cut := by omega
  split_ifs at hp with hneg
  obtain rfl := Option.some.inj hp
  refine ⟨_, rfl, ?_⟩
  rw [bytes_append_bytes f.data (by omega) hdataPos]
  congr 2
  omega

/-! ## Ethernet frames -/

theorem datalinkHlen_network (f : Frame) :
    0 ≤ datalinkHlen dltEn10mb f.network.offset ∧ datalinkHlen dltEn10mb f.network.offset < 100 := by
  have hoffset : f.network.offset = 0 ∨ f.network.offset = pppoeOffset := by
    have hraw : ¬dltEn10mb = dltRaw := by decide
    unfold Frame.network networkProtocol
    by_cases hpppoe : getNetworkType f.data dltEn10mb 0 = etherTypePppoe
    · simp only [if_neg hraw, or_true, if_true, if_pos hpppoe]
    · simp only [if_neg hraw, or_true, if_true, if_neg hpppoe, true_or]
  rcases hoffset with hoffset | hoffset
  · rw [hoffset]
    exact ⟨by decide, by decide⟩
  · rw [hoffset]
    exact ⟨by decide, by decide⟩

/-- What is found in the network header, apart from IPv6. -/
theorem analyzeNetwork_announced {f : Frame} (hipv6 : f.network.nproto ≠ etherTypeIpv6)
    (hcaplen : f.header.caplen.toNat < 32768) (hroom : 0 ≤ f.room)
    (hannounced : f.announced < 32768) (bound : Nat) (b : Body) {start : Int}
    (hstart : start = if f.network.nproto ≠ unknownProto then
      datalinkHlen dltEn10mb f.network.offset else 0) :
    ∃ parts, analyzeNetwork bound f.network.nproto f.header.caplen.toNat
        (datalinkHlen dltEn10mb f.network.offset) (f.data.add start) b = some parts ∧
      0 ≤ parts.2.2 ∧ parts.2.2 < 2000 ∧
      start + parts.2.1 =
        if f.network.nproto ≠ unknownProto then
          datalinkHlen dltEn10mb f.network.offset + f.announced
        else f.header.caplen.toNat := by
  obtain ⟨hdlPos, hdlLt⟩ := datalinkHlen_network f
  unfold analyzeNetwork
  by_cases hip : f.network.nproto = etherTypeIp
  · have hknown : f.network.nproto ≠ unknownProto := by rw [hip]; decide
    rw [if_pos hknown] at hstart ⊢
    have hnet : f.data.add start = f.networkHeader := by rw [hstart]; rfl
    have hshort : toShort (ipLen f.networkHeader) = ipLen f.networkHeader := by
      rw [Frame.announced, if_pos hip] at hannounced
      exact toShort_eq (by omega) (by omega)
    rw [if_pos hip, hnet]
    have hhlen := ipHlen_le f.networkHeader
    refine ⟨((analyzeIp f.networkHeader b).1, toShort (ipLen f.networkHeader),
      ((analyzeIp f.networkHeader b).2 : Int)), rfl, ?_, ?_, ?_⟩
    · exact Int.natCast_nonneg _
    · dsimp only
      rw [analyzeIp_snd]
      omega
    · dsimp only
      rw [hshort, hstart, Frame.announced, if_pos hip]
  by_cases harp : f.network.nproto = etherTypeArp
  · have hknown : f.network.nproto ≠ unknownProto := by rw [harp]; decide
    rw [if_pos hknown] at hstart ⊢
    have hnet : f.data.add start = f.networkHeader := by rw [hstart]; rfl
    have hhl := (f.networkHeader 4).toNat_lt
    have hpl := (f.networkHeader 5).toNat_lt
    rw [if_neg hip, if_neg hipv6, if_pos harp, hnet]
    have hsnd : (analyzeArp f.networkHeader b).2 =
        8 + (f.networkHeader 4).toNat * 2 + (f.networkHeader 5).toNat * 2 := rfl
    refine ⟨((analyzeArp f.networkHeader b).1, ((analyzeArp f.networkHeader b).2 : Int),
      ((analyzeArp f.networkHeader b).2 : Int)), rfl, ?_, ?_, ?_⟩
    · exact Int.natCast_nonneg _
    · dsimp only
      rw [hsnd]
      omega
    · dsimp only
      rw [hsnd]
      rw [hstart, Frame.announced, if_neg hip, if_pos harp]
      push_cast
      rfl
  have hshort : toShort f.header.caplen.toNat = f.header.caplen.toNat :=
    toShort_eq (by omega) (by omega)
  rw [if_neg hip, if_neg hipv6, if_neg harp]
  by_cases hknown : f.network.nproto = unknownProto
  · rw [if_neg (not_not_intro hknown)] at hstart ⊢
    rw [if_pos hknown]
    refine ⟨(b, toShort f.header.caplen.toNat, 0), rfl, le_rfl, Int.ofNat_lt.mpr (by omega : 0 < 2000), ?_⟩
    dsimp only
    rw [hshort, hstart, Int.zero_add]
  · rw [if_pos hknown] at hstart ⊢
    rw [if_neg hknown]
    have hrest : toShort f.room = f.room := by
      unfold Frame.room at hroom ⊢
      exact toShort_eq (by omega) (by omega)
    refine ⟨(b, toShort f.room, 0), rfl, le_rfl, Int.ofNat_lt.mpr (by omega : 0 < 2000), ?_⟩
    dsimp only
    rw [hrest, hstart, Frame.announced, if_neg hip, if_neg harp]

/-- What `get_packet` keeps of an Ethernet frame is a piece of memory that
starts at the frame, and it ends inside the captured bytes unless a truncated
packet announces more than was captured. -/
theorem getPacket_overruns_iff {f : Frame} (hipv6 : f.network.nproto ≠ etherTypeIpv6)
    (hcaplen : f.header.caplen.toNat < 32768) (hroom : 0 ≤ f.room)
    (hannounced : f.announced < 32768) (bound : Nat) (unset : Unset) {i : Instance}
    (hlink : i.linktype = dltEn10mb) {p : Packet} (hp : (getPacket bound unset i f).1 = some p) :
    ∃ (data : List UInt8) (n : Nat), p.data = some data ∧ p.header ++ data = f.data.bytes n ∧
      (f.header.caplen.toNat < n ↔ f.Overruns unset) := by
  obtain ⟨hdlPos, hdlLt⟩ := datalinkHlen_network f
  unfold getPacket at hp
  simp only [networkProtocol_eq hlink, hlink] at hp
  generalize hext : (if f.isPppoe then etherTypePppoe else i.linktypeExt) = ext at hp
  have hproto : checkTruncated
      (transportProtocol unset.tproto.toNat f.network dltEn10mb f.data).1
      (transportProtocol unset.tproto.toNat f.network dltEn10mb f.data).2 =
      f.protocol unset := rfl
  have hsame : transportProtocol unset.tproto.toNat { f.network with linktypeExt := ext }
      dltEn10mb f.data = transportProtocol unset.tproto.toNat f.network dltEn10mb f.data := rfl
  rw [hsame, hproto] at hp
  obtain ⟨start, hstart⟩ : ∃ start, start = if f.network.nproto ≠ unknownProto then
      datalinkHlen dltEn10mb f.network.offset else 0 := ⟨_, rfl⟩
  obtain ⟨parts, hnetwork, hhlen, hhlenLt, hend⟩ := analyzeNetwork_announced hipv6 hcaplen hroom
    hannounced bound (createPacket (f.protocol unset) f.network.nproto) hstart
  have hbounds : 0 ≤ start ∧ start < 100 := by
    rw [hstart]
    split_ifs
    · exact ⟨hdlPos, hdlLt⟩
    · exact ⟨by decide, by decide⟩
  have hannouncedPos : 0 ≤ f.announced := by
    unfold Frame.announced
    split_ifs
    · exact Int.natCast_nonneg _
    · omega
    · exact hroom
  -- either the announced length is clipped to the room, or it is kept
  obtain ⟨len, hclip, hlenPos, hlenLt, hover⟩ : ∃ len,
      clip f.network.nproto (f.protocol unset) f.header.caplen.toNat
        (datalinkHlen dltEn10mb f.network.offset) parts.2.1 = len ∧
      0 ≤ len ∧ len < 32768 ∧ (f.header.caplen.toNat < start + len ↔ f.Overruns unset) := by
    have hroomEq : f.room = f.header.caplen.toNat - datalinkHlen dltEn10mb f.network.offset := rfl
    unfold clip Frame.Overruns
    rw [← hroomEq]
    by_cases hknown : f.network.nproto = unknownProto
    · rw [if_neg (not_not_intro hknown)] at hstart hend
      refine ⟨parts.2.1, if_neg fun h => h.1 hknown, by omega, by omega, ?_⟩
      constructor
      · intro h
        omega
      · rintro ⟨h, -⟩
        exact absurd hknown h
    rw [if_pos hknown] at hstart hend
    have hparts : parts.2.1 = f.announced := by omega
    rw [hparts]
    have hshort : toShort f.room = f.room := toShort_eq (by omega) (by omega)
    by_cases hcond : f.network.nproto ≠ unknownProto ∧ f.protocol unset ≠ unknownProto ∧
        f.announced % 2 ^ 32 > f.room % 2 ^ 32
    · refine ⟨f.room, ?_, hroom, by omega, ?_⟩
      · rw [if_pos hcond, hshort]
      · constructor
        · intro h
          omega
        · rintro ⟨-, h, -⟩
          exact absurd h hcond.2.1
    · refine ⟨f.announced, if_neg hcond, hannouncedPos, hannounced, ?_⟩
      constructor
      · intro h
        have hgt : f.announced % 2 ^ 32 > f.room % 2 ^ 32 := by omega
        refine ⟨hknown, ?_, by omega⟩
        by_contra htproto
        exact hcond ⟨hknown, htproto, hgt⟩
      · rintro ⟨-, -, h⟩
        omega
  obtain ⟨data, hdata, hcopies⟩ := buildPacket_copies
    (n := { f.network with linktypeExt := ext }) hstart hnetwork hbounds.1 hbounds.2 hhlen hhlenLt
    hclip hlenPos hlenLt hp
  refine ⟨data, (start + len).toNat, hdata, hcopies, ?_⟩
  rw [← hover]
  omega

/-- Of a TCP packet whose header was not captured as a whole, the copy runs
past the captured bytes. -/
theorem getPacket_overruns_truncated :
    let f := Frame.ofList ((macBytes ++ [0x08, 0] ++ ackBytes).take 50)
    ∃ p, (getPacket 0 ⟨0, 0, 0⟩ { linktype := dltEn10mb } f).1 = some p ∧
      ∃ (data : List UInt8) (n : Nat), p.data = some data ∧ p.header ++ data = f.data.bytes n ∧
        f.header.caplen.toNat < n := by
  intro f
  obtain ⟨p, hp⟩ := Option.isSome_iff_exists.mp
    (show (getPacket 0 ⟨0, 0, 0⟩ { linktype := dltEn10mb } f).1.isSome by decide +kernel)
  obtain ⟨data, n, hdata, hcopies, hover⟩ := getPacket_overruns_iff (f := f) (by decide +kernel)
    (by decide +kernel) (by decide +kernel) (by decide +kernel) 0 ⟨0, 0, 0⟩ rfl hp
  exact ⟨p, hp, data, n, hdata, hcopies, hover.mpr (by decide +kernel)⟩

end Jpcap

end ConnectionSniffer
