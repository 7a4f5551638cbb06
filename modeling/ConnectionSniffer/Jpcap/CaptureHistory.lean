import ConnectionSniffer.Jpcap.GetPacket

/-!
# What a captor remembers

`get_packet` writes one thing that outlives the frame: a PPPoE frame sets
`linktypes_ext`, and no frame resets it.  `analyze_datalink` reads it for
every frame, so the first PPPoE frame turns the datalink part of all later
frames into a `PPPOEPacket`, although the rest of the packet stays right.

`captured` is the captor after a series of frames.  `marked_captured` says
what it remembers of them, and `getPacket_eq_iff` says when two histories
lead to the same packet for the frame that follows.

A frame is `Settled` if `get_packet` assigns everything that it reads later.
Otherwise the packet also depends on what the stack happens to hold: a frame
whose length is used up leaves `tproto` without a value, and an ICMP message
without an identifier gets one that nobody passed.
-/

namespace ConnectionSniffer

namespace Jpcap

/-- A PPPoE session frame. -/
def Frame.isPppoe (f : Frame) : Prop := getNetworkType f.data dltEn10mb 0 = etherTypePppoe

instance (f : Frame) : Decidable f.isPppoe := instDecidableEqNat _ _

/-- The last frame that had anything to do with PPPoE is still remembered. -/
def Instance.Marked (i : Instance) : Prop := i.linktypeExt = etherTypePppoe

/-- The captor after a series of frames. -/
def captured (bound : Nat) (i : Instance) (history : List (Unset × Frame)) : Instance :=
  history.foldl (fun i step => (getPacket bound step.1 i step.2).2) i

/-- What "Analyze network protocol" finds out about an Ethernet frame. -/
def Frame.network (f : Frame) : Network :=
  networkProtocol { linktype := dltEn10mb } f.header.caplen.toNat f.data

/-- `tproto` is assigned. -/
def Network.Assigns (n : Network) : Prop :=
  0 < n.clen ∧ (n.nproto = etherTypeIpv6 → 0 < toShort (n.clen - 40)) ∧
    (n.nproto = etherTypeArp → 0 < toShort (n.clen - 28))

/-- The ICMP messages for which `analyze_icmp` sets the identifier. -/
def identified (type : Nat) : Prop := type = 0 ∨ type = 8 ∨ type > 12

/-- The ICMP type of a frame that is decoded as an ICMP message. -/
def Frame.icmpType (bound : Nat) (f : Frame) : Option Nat :=
  let dlHlen := datalinkHlen dltEn10mb f.network.offset
  let start := if f.network.nproto ≠ unknownProto then dlHlen else 0
  let (tproto, clen) := transportProtocol 0 f.network dltEn10mb f.data
  if checkTruncated tproto clen = 1 then
    (analyzeNetwork bound f.network.nproto f.header.caplen.toNat dlHlen (f.data.add start)
      (.icmp {} {})).map fun (_, _, hlen) => (f.data (start + hlen)).toNat
  else none

/-- Everything that `get_packet` reads, it has assigned before. -/
def Frame.Settled (bound : Nat) (f : Frame) : Prop :=
  f.network.Assigns ∧ ∀ type, f.icmpType bound = some type → identified type

/-! ## What one frame does to the captor -/

theorem networkProtocol_eq {i : Instance} (hlink : i.linktype = dltEn10mb) (f : Frame) :
    networkProtocol i f.header.caplen.toNat f.data =
      { f.network with linktypeExt := if f.isPppoe then etherTypePppoe else i.linktypeExt } := by
  obtain ⟨linktype, linktypeExt⟩ := i
  obtain rfl : linktype = dltEn10mb := hlink
  have hraw : ¬dltEn10mb = dltRaw := by decide
  unfold Frame.network networkProtocol
  by_cases hpppoe : f.isPppoe
  · have htype : getNetworkType f.data dltEn10mb 0 = etherTypePppoe := hpppoe
    simp only [if_neg hraw, or_true, if_true, if_pos htype, if_pos hpppoe]
  · have htype : ¬getNetworkType f.data dltEn10mb 0 = etherTypePppoe := hpppoe
    simp only [if_neg hraw, or_true, if_true, if_neg htype, if_neg hpppoe]

theorem getPacket_snd (bound : Nat) (unset : Unset) {i : Instance}
    (hlink : i.linktype = dltEn10mb) (f : Frame) :
    (getPacket bound unset i f).2 =
      { i with linktypeExt := if f.isPppoe then etherTypePppoe else i.linktypeExt } := by
  unfold getPacket
  simp only [networkProtocol_eq hlink]

/-- The mark of a PPPoE frame is never taken away. -/
theorem marked_getPacket (bound : Nat) (unset : Unset) {i : Instance}
    (hlink : i.linktype = dltEn10mb) (f : Frame) :
    (getPacket bound unset i f).2.Marked ↔ i.Marked ∨ f.isPppoe := by
  rw [getPacket_snd bound unset hlink]
  by_cases hpppoe : f.isPppoe
  · simp [Instance.Marked, hpppoe]
  · simp [Instance.Marked, hpppoe]

theorem linktype_captured (bound : Nat) (history : List (Unset × Frame)) :
    ∀ i : Instance, i.linktype = dltEn10mb → (captured bound i history).linktype = dltEn10mb := by
  induction history with
  | nil => intro i hlink; exact hlink
  | cons step history ih =>
    intro i hlink
    refine ih (getPacket bound step.1 i step.2).2 ?_
    rw [getPacket_snd bound step.1 hlink]
    exact hlink

/-- What a captor remembers of a series of frames. -/
theorem marked_captured (bound : Nat) (history : List (Unset × Frame)) :
    ∀ i : Instance, i.linktype = dltEn10mb →
      ((captured bound i history).Marked ↔ i.Marked ∨ ∃ step ∈ history, step.2.isPppoe) := by
  induction history with
  | nil => intro i _; simp [captured]
  | cons step history ih =>
    intro i hlink
    have hnext : (getPacket bound step.1 i step.2).2.linktype = dltEn10mb :=
      linktype_captured bound [step] i hlink
    have hrest := ih (getPacket bound step.1 i step.2).2 hnext
    rw [marked_getPacket bound step.1 hlink] at hrest
    simp only [List.mem_cons, exists_eq_or_imp, ← or_assoc]
    exact hrest

/-! ## What one packet depends on -/

theorem transportProtocol_unset {n : Network} (hassigns : n.Assigns) (u v linktype : Nat)
    (data : Pointer) : transportProtocol u n linktype data = transportProtocol v n linktype data := by
  obtain ⟨hclen, hipv6, harp⟩ := hassigns
  unfold transportProtocol
  rw [if_pos hclen, if_pos hclen]
  by_cases hip : n.nproto = etherTypeIp
  · simp only [if_pos hip]
  by_cases h6 : n.nproto = etherTypeIpv6
  · simp only [if_neg hip, if_pos h6, if_pos (hipv6 h6)]
  by_cases ha : n.nproto = etherTypeArp
  · simp only [if_neg hip, if_neg h6, if_pos ha, if_pos (harp ha)]
  · simp only [if_neg hip, if_neg h6, if_neg ha]

theorem Body.mapIcmp_mapIcmp (b : Body) (set set' : ICMPPacket → ICMPPacket) :
    (b.mapIcmp set).mapIcmp set' = b.mapIcmp (set' ∘ set) := by
  cases b <;> rfl

theorem analyzeIcmp_unset (u v : Unset) (data : Pointer) (clen : Int) (b : Body)
    (htype : identified (data 0).toNat) :
    analyzeIcmp u data clen b = analyzeIcmp v data clen b := by
  unfold analyzeIcmp
  simp only [if_pos (show (data 0).toNat = 0 ∨ (data 0).toNat = 8 ∨ (data 0).toNat > 12 from htype),
    Body.mapIcmp_mapIcmp, Function.comp_def]

theorem analyzeTransport_unset (u v : Unset) (tproto : Nat) (data : Pointer) (clen : Int)
    (b : Body) (htype : tproto = 1 → identified (data 0).toNat) :
    analyzeTransport u tproto data clen b = analyzeTransport v tproto data clen b := by
  unfold analyzeTransport
  split_ifs with _ _ hicmp
  · rfl
  · rfl
  · rw [analyzeIcmp_unset u v data clen b (htype hicmp)]
  · rfl

/-- The packet depends on `linktypes_ext` in its datalink part only. -/
theorem buildPacket_ext (bound : Nat) (unset : Unset) (linktype : Nat) (f : Frame) (n : Network)
    (tproto linktypeExt : Nat) :
    buildPacket bound unset linktype f { n with linktypeExt := linktypeExt } tproto =
      (buildPacket bound unset linktype f n tproto).map fun p =>
        { p with datalink := analyzeDatalink f.data linktype linktypeExt } := by
  unfold buildPacket
  dsimp only
  cases analyzeNetwork bound n.nproto f.header.caplen.toNat (datalinkHlen linktype n.offset)
    (f.data.add (if n.nproto ≠ unknownProto then datalinkHlen linktype n.offset else 0))
    (createPacket tproto n.nproto) with
  | none => rfl
  | some parts => simp only [apply_ite (Option.map _), Option.map_none, Option.map_some]

theorem buildPacket_unset (bound : Nat) (u v : Unset) (linktype : Nat) (f : Frame) (n : Network)
    (tproto : Nat)
    (htype : tproto = 1 → ∀ parts,
      analyzeNetwork bound n.nproto f.header.caplen.toNat (datalinkHlen linktype n.offset)
        (f.data.add (if n.nproto ≠ unknownProto then datalinkHlen linktype n.offset else 0))
        (.icmp {} {}) = some parts →
      identified (f.data ((if n.nproto ≠ unknownProto then datalinkHlen linktype n.offset else 0) +
        parts.2.2)).toNat) :
    buildPacket bound u linktype f n tproto = buildPacket bound v linktype f n tproto := by
  unfold buildPacket
  cases hparts : analyzeNetwork bound n.nproto f.header.caplen.toNat
    (datalinkHlen linktype n.offset)
    (f.data.add (if n.nproto ≠ unknownProto then datalinkHlen linktype n.offset else 0))
    (createPacket tproto n.nproto) with
  | none => simp only [hparts]
  | some parts =>
    simp only [hparts]
    rw [analyzeTransport_unset u v tproto]
    intro hicmp
    subst hicmp
    rw [Pointer.add_apply, Int.add_zero]
    exact htype rfl parts hparts

/-- For a settled frame the captor's past shows in `linktypes_ext` only. -/
theorem getPacket_settled {bound : Nat} {f : Frame} (hsettled : f.Settled bound) (u v : Unset)
    {i j : Instance} (hi : i.linktype = dltEn10mb) (hj : j.linktype = dltEn10mb) :
    (getPacket bound u i f).1 =
      (getPacket bound v j f).1.map fun p =>
        { p with
          datalink := analyzeDatalink f.data dltEn10mb
            (if f.isPppoe then etherTypePppoe else i.linktypeExt) } := by
  obtain ⟨hassigns, hicmp⟩ := hsettled
  unfold getPacket
  simp only [networkProtocol_eq hi, networkProtocol_eq hj, hi, hj]
  have htransport : ∀ (w e : Nat),
      transportProtocol w { f.network with linktypeExt := e } dltEn10mb f.data =
        transportProtocol 0 f.network dltEn10mb f.data :=
    fun w e => transportProtocol_unset (n := f.network) hassigns w 0 dltEn10mb f.data
  simp only [htransport]
  rw [buildPacket_ext, buildPacket_ext bound v, Option.map_map]
  rw [buildPacket_unset bound u v dltEn10mb f f.network]
  · rfl
  · intro hone parts hparts
    refine hicmp _ ?_
    unfold Frame.icmpType
    dsimp only
    rw [if_pos hone, hparts]
    rfl

/-! ## Two histories -/

theorem analyzeDatalink_inj (data : Pointer) (e e' : Nat) :
    analyzeDatalink data dltEn10mb e = analyzeDatalink data dltEn10mb e' ↔
      (e = etherTypePppoe ↔ e' = etherTypePppoe) := by
  unfold analyzeDatalink dltEn10mb
  by_cases he : e = etherTypePppoe
  · by_cases he' : e' = etherTypePppoe
    · simp [he, he']
    · simp [he, he']
  · by_cases he' : e' = etherTypePppoe
    · simp [he, he']
    · simp [he, he']

/-- Two histories lead to the same packet exactly if the next frame is a
PPPoE frame, or the captor was marked to begin with, or both histories have a
PPPoE frame or neither has one. -/
theorem getPacket_eq_iff {bound : Nat} {i : Instance} (hlink : i.linktype = dltEn10mb)
    {f : Frame} (hsettled : f.Settled bound) (u v : Unset)
    (history history' : List (Unset × Frame))
    (hbuilt : (getPacket bound u (captured bound i history) f).1.isSome) :
    (getPacket bound u (captured bound i history) f).1 =
        (getPacket bound v (captured bound i history') f).1 ↔
      f.isPppoe ∨ i.Marked ∨
        ((∃ step ∈ history, step.2.isPppoe) ↔ ∃ step ∈ history', step.2.isPppoe) := by
  have hi := linktype_captured bound history i hlink
  have hj := linktype_captured bound history' i hlink
  have hmarked := marked_captured bound history i hlink
  have hmarked' := marked_captured bound history' i hlink
  have heq := getPacket_settled hsettled u v hi hj
  have hself := getPacket_settled hsettled v v hj hj
  obtain ⟨p, hp⟩ : ∃ p, (getPacket bound v (captured bound i history') f).1 = some p := by
    rw [heq, Option.isSome_map] at hbuilt
    exact Option.isSome_iff_exists.mp hbuilt
  rw [hp] at heq hself
  have hdatalink : p.datalink = analyzeDatalink f.data dltEn10mb
      (if f.isPppoe then etherTypePppoe else (captured bound i history').linktypeExt) :=
    congrArg Packet.datalink (Option.some.inj hself)
  rw [heq, hp, Option.map_some, Option.some_inj]
  have hsame : ({ p with
      datalink := analyzeDatalink f.data dltEn10mb
        (if f.isPppoe then etherTypePppoe else (captured bound i history).linktypeExt) } : Packet) =
        p ↔
      analyzeDatalink f.data dltEn10mb
        (if f.isPppoe then etherTypePppoe else (captured bound i history).linktypeExt) =
        p.datalink := by
    constructor
    · intro h
      exact congrArg Packet.datalink h
    · intro h
      rw [h]
  rw [hsame, hdatalink]
  by_cases hpppoe : f.isPppoe
  · simp only [hpppoe, if_true, true_or]
  · rw [if_neg hpppoe, if_neg hpppoe, analyzeDatalink_inj]
    have hboth : ((captured bound i history).linktypeExt = etherTypePppoe ↔
        (captured bound i history').linktypeExt = etherTypePppoe) ↔
        ((i.Marked ∨ ∃ step ∈ history, step.2.isPppoe) ↔
          (i.Marked ∨ ∃ step ∈ history', step.2.isPppoe)) :=
      iff_congr hmarked hmarked'
    rw [hboth]
    by_cases hmark : i.Marked
    · simp only [hmark, true_or, or_true]
    · simp only [hpppoe, hmark, false_or]

/-! ## A PPPoE frame is remembered -/

/-- A captured frame, with nothing behind its bytes. -/
def Frame.ofList (l : List UInt8) : Frame where
  header := { sec := 0, usec := 0, caplen := l.length.toUInt32, len := l.length.toUInt32 }
  data := .ofList l

/-- An IPv4 packet with a TCP ACK and two bytes of data. -/
def ackBytes : List UInt8 :=
  [0x45, 0, 0, 42, 0, 1, 0, 0, 64, 6, 0, 0, 10, 0, 0, 1, 10, 0, 0, 2,
    4, 210, 0, 80, 0, 0, 0, 7, 0, 0, 0, 9, 0x50, 0x10, 1, 0, 0, 0, 0, 0, 72, 105]

def macBytes : List UInt8 := [0, 1, 2, 3, 4, 5, 0, 1, 2, 3, 4, 6]

/-- The packet in an Ethernet frame. -/
def ackFrame : Frame := .ofList (macBytes ++ [0x08, 0] ++ ackBytes)

/-- The packet in a PPPoE session frame. -/
def pppoeAckFrame : Frame :=
  .ofList (macBytes ++ [0x88, 0x64, 0x11, 0, 0, 1, 0, 44, 0, 0x21] ++ ackBytes)

/-- After a PPPoE frame, `get_packet` builds another packet for the frame
than it does without. -/
theorem getPacket_ne_after_pppoe :
    (getPacket 0 ⟨0, 0, 0⟩ (captured 0 { linktype := dltEn10mb } []) ackFrame).1 ≠
      (getPacket 0 ⟨0, 0, 0⟩
        (captured 0 { linktype := dltEn10mb } [(⟨0, 0, 0⟩, pppoeAckFrame)]) ackFrame).1 := by
  decide +kernel

theorem settled_ackFrame : ackFrame.Settled 0 := by
  have hassigns : ackFrame.network.Assigns := by
    unfold Network.Assigns
    decide +kernel
  have hicmp : ackFrame.icmpType 0 = none := by decide +kernel
  refine ⟨hassigns, fun type htype => ?_⟩
  rw [hicmp] at htype
  exact absurd htype (Option.some_ne_none type).symm

/-- One PPPoE frame more or less makes no difference after the first. -/
theorem getPacket_eq_after_second_pppoe :
    (getPacket 0 ⟨0, 0, 0⟩
        (captured 0 { linktype := dltEn10mb } [(⟨0, 0, 0⟩, pppoeAckFrame)]) ackFrame).1 =
      (getPacket 0 ⟨1, 2, 3⟩
        (captured 0 { linktype := dltEn10mb }
          [(⟨0, 0, 0⟩, ackFrame), (⟨0, 0, 0⟩, pppoeAckFrame)]) ackFrame).1 := by
  refine (getPacket_eq_iff rfl settled_ackFrame ⟨0, 0, 0⟩ ⟨1, 2, 3⟩
    [(⟨0, 0, 0⟩, pppoeAckFrame)] [(⟨0, 0, 0⟩, ackFrame), (⟨0, 0, 0⟩, pppoeAckFrame)]
    (by decide +kernel)).mpr (Or.inr (Or.inr ?_))
  decide +kernel

end Jpcap

end ConnectionSniffer
