import ConnectionSniffer.Library.SearchTree
import ConnectionSniffer.Receiver.Streams

/-!
# When the buffers are sorted

A buffer is a `TreeSet` under `TCPPacket.compareTo`, which casts the
difference of two sequence numbers to `int`.  As long as the numbers in one
buffer lie less than half of the number space apart this is an order.
`Narrow` says of a call that it takes no packet to a buffer with a packet
farther away, and `sorted_of_run` that a run of such calls leaves all
buffers `Sorted`.

There the lists of the model are what the source has: whatever the shape of
the red-black tree, `add` and `remove(first())` do to its elements what
`TreeSet.add` and `List.tail` do to the list (`Sorted.onTrees`).
-/

namespace ConnectionSniffer

namespace Buffering

/-! ## Packets that are near to each other -/

/-- The difference of the sequence numbers is an `int`. -/
def Near (p q : TCPPacket) : Prop :=
  p.sequence < q.sequence + 2 ^ 31 ∧ q.sequence < p.sequence + 2 ^ 31

instance (p q : TCPPacket) : Decidable (Near p q) := inferInstanceAs (Decidable (_ ∧ _))

theorem Near.refl (p : TCPPacket) : Near p p := ⟨by omega, by omega⟩

theorem Near.symm {p q : TCPPacket} (h : Near p q) : Near q p := ⟨h.2, h.1⟩

theorem Near.compareTo_eq {p q : TCPPacket} (h : Near p q) :
    TCPPacket.compareTo p q = p.sequence - q.sequence := by
  obtain ⟨hp, hq⟩ := h
  unfold TCPPacket.compareTo
  exact Int.bmod_eq_of_le (by omega) (by omega)

/-- One packet of each sequence number, in their order, near to each
other. -/
structure Sorted (packets : List TCPPacket) : Prop where
  ascending : packets.Pairwise fun p q => p.sequence < q.sequence
  near : ∀ p ∈ packets, ∀ q ∈ packets, Near p q

section Sorted

variable {p q : TCPPacket} {packets : List TCPPacket}

theorem sorted_nil : Sorted [] := ⟨List.Pairwise.nil, by simp⟩

theorem sorted_singleton (p : TCPPacket) : Sorted [p] := by
  refine ⟨List.pairwise_singleton _ _, fun q hq q' hq' => ?_⟩
  rw [List.mem_singleton.mp hq, List.mem_singleton.mp hq']
  exact .refl p

theorem Sorted.sublist {packets' : List TCPPacket} (h : Sorted packets)
    (hsub : packets'.Sublist packets) : Sorted packets' :=
  ⟨h.ascending.sublist hsub, fun p hp q hq => h.near p (hsub.subset hp) q (hsub.subset hq)⟩

theorem Sorted.tail (h : Sorted (p :: packets)) : Sorted packets :=
  h.sublist (List.sublist_cons_self p packets)

/-- The first packet is the one with the least sequence number. -/
theorem Sorted.head_lt (h : Sorted (p :: packets)) (hq : q ∈ packets) :
    p.sequence < q.sequence :=
  (List.pairwise_cons.mp h.ascending).1 q hq

theorem Sorted.unique (h : Sorted packets) (hp : p ∈ packets) (hq : q ∈ packets)
    (hseq : p.sequence = q.sequence) : p = q := by
  induction packets with
  | nil => exact absurd hp (by simp)
  | cons b rest ih =>
    rcases List.mem_cons.mp hp with rfl | hin
    · rcases List.mem_cons.mp hq with rfl | hin'
      · rfl
      · exact absurd hseq (h.head_lt hin').ne
    · rcases List.mem_cons.mp hq with rfl | hin'
      · exact absurd hseq (h.head_lt hin).ne'
      · exact ih h.tail hin hin'

/-- A packet that is near to all of them is added in its place. -/
theorem Sorted.add (h : Sorted packets) (hp : ∀ q ∈ packets, Near p q) :
    Sorted (TreeSet.add TCPPacket.compareTo p packets) := by
  have hmem : ∀ {packets : List TCPPacket}, ∀ q ∈ TreeSet.add TCPPacket.compareTo p packets,
      q = p ∨ q ∈ packets := fun q => TreeSet.mem_of_mem_add _
  refine ⟨?_, fun q hq q' hq' => ?_⟩
  · induction packets with
    | nil => exact List.pairwise_singleton _ _
    | cons b rest ih =>
      have hb := (hp b (by simp)).compareTo_eq
      have hrest := ih h.tail fun q hq => hp q (by simp [hq])
      unfold TreeSet.add
      split_ifs with hlt heq
      · refine List.pairwise_cons.mpr ⟨fun q hq => ?_, h.ascending⟩
        rcases List.mem_cons.mp hq with rfl | hq
        · omega
        · exact lt_trans (by omega) (h.head_lt hq)
      · exact h.ascending
      · refine List.pairwise_cons.mpr ⟨fun q hq => ?_, hrest⟩
        rcases hmem q hq with rfl | hq
        · omega
        · exact h.head_lt hq
  · rcases hmem q hq with rfl | hin <;> rcases hmem q' hq' with rfl | hin'
    · exact .refl _
    · exact hp q' hin'
    · exact (hp q hin).symm
    · exact h.near q hin q' hin'

/-! ## The tree of a buffer -/

/-- The trees with these elements in order, whatever their shape, change
under `add` and `remove(first())` as the list does.  The elements are packets
or stand for packets. -/
structure OnTrees {α : Type*} (packet : α → TCPPacket) (elements : List α) : Prop where
  add : ∀ {t : SearchTree α} {a : α}, t.inorder = elements →
    (∀ b ∈ elements, Near (packet a) (packet b)) →
    (t.put (fun a b => TCPPacket.compareTo (packet a) (packet b)) a).inorder =
      TreeSet.add (fun a b => TCPPacket.compareTo (packet a) (packet b)) a elements
  removeFirst : ∀ {t : SearchTree α} {a : α} {rest : List α}, t.inorder = elements →
    elements = a :: rest →
    (t.remove (fun a b => TCPPacket.compareTo (packet a) (packet b)) a).inorder = rest

section OnTrees

variable {α : Type*} {packet : α → TCPPacket} {elements : List α}

/-- Among packets that are near to each other `compareTo` is the order of
their sequence numbers. -/
theorem ranks_of_near (h : ∀ a ∈ elements, ∀ b ∈ elements, Near (packet a) (packet b)) :
    TreeSet.Ranks (fun a b => TCPPacket.compareTo (packet a) (packet b))
      (fun a => ((packet a).sequence : Int)) elements := by
  intro a ha b hb
  dsimp only
  rw [(h a ha b hb).compareTo_eq]
  exact ⟨sub_neg, sub_eq_zero⟩

theorem Sorted.compareTo_ascending (h : Sorted (elements.map packet)) :
    TreeSet.Ascending (fun a b => TCPPacket.compareTo (packet a) (packet b)) elements := by
  refine (List.pairwise_map.mp h.ascending).imp_of_mem fun {a b} ha hb hlt => ?_
  dsimp only
  rw [(h.near _ (List.mem_map_of_mem ha) _ (List.mem_map_of_mem hb)).compareTo_eq]
  omega

theorem Sorted.onTrees (h : Sorted (elements.map packet)) : OnTrees packet elements where
  add := by
    intro t a ht hnear
    subst ht
    refine SearchTree.inorder_put (ranks_of_near ?_) h.compareTo_ascending
    intro b hb c hc
    rcases List.mem_cons.mp hb with rfl | hin <;> rcases List.mem_cons.mp hc with rfl | hin'
    · exact .refl _
    · exact hnear c hin'
    · exact (hnear b hin).symm
    · exact h.near _ (List.mem_map_of_mem hin) _ (List.mem_map_of_mem hin')
  removeFirst := by
    intro t a rest ht helements
    subst ht
    refine SearchTree.inorder_remove_first (ranks_of_near fun b hb c hc => ?_)
      h.compareTo_ascending helements
    exact h.near _ (List.mem_map_of_mem hb) _ (List.mem_map_of_mem hc)

end OnTrees

end Sorted

/-! ## Runs -/

/-- The packets that wait on the side of `p` are near to it. -/
def NearWaiting (p : TCPPacket) (c : TCPConnectionImpl) : Prop :=
  ∀ q ∈ c.packetsBuffer.get p.side, Near p q

instance (p : TCPPacket) (c : TCPConnectionImpl) : Decidable (NearWaiting p c) :=
  inferInstanceAs (Decidable (∀ q ∈ c.packetsBuffer.get p.side, _))

/-- A packet that is picked is near to those that wait on its side of the
connection it is for. -/
def Narrow (r : PacketReceiverImpl) : Call → Prop
  | .pick _ packet => ∀ c ∈ r.routed (TCPPacketImpl packet),
      NearWaiting (packet.detected c.connectionDetail) c
  | _ => True

instance (r : PacketReceiverImpl) : ∀ call, Decidable (Narrow r call)
  | .pick _ packet =>
    inferInstanceAs (Decidable (∀ c ∈ r.routed (TCPPacketImpl packet), _))
  | .poll => .isTrue trivial
  | .read _ _ => .isTrue trivial
  | .readInto _ _ _ _ _ => .isTrue trivial

/-- What `pick` gets in ordinary traffic: a packet that is near to what
waits, with a payload that fits into an IP packet. -/
def Ordinary (r : PacketReceiverImpl) (call : Call) : Prop := call.Fits ∧ Narrow r call

instance (r : PacketReceiverImpl) (call : Call) : Decidable (Ordinary r call) :=
  inferInstanceAs (Decidable (_ ∧ _))

section Ordinary

variable {r : PacketReceiverImpl} {calls : List Call}

theorem fits_of_ordinary (h : Run.Along PacketReceiverImpl.step Ordinary r calls) :
    ∀ call ∈ calls, call.Fits :=
  Run.forall_of_along (h.mono fun _ _ hcall => hcall.1)

end Ordinary

/-- Both buffers are sorted. -/
def Ordered (c : TCPConnectionImpl) : Prop := ∀ x, Sorted (c.packetsBuffer.get x)

section Invariant

variable {now : Date} {p : TCPPacket} {c : TCPConnectionImpl}

theorem Ordered.congr (h : Ordered c) {c' : TCPConnectionImpl}
    (hbuffer : c'.packetsBuffer = c.packetsBuffer) : Ordered c' := by
  unfold Ordered
  rw [hbuffer]
  exact h

theorem Ordered.setBuffer (h : Ordered c) (x : Side) {packets : List TCPPacket}
    (hpackets : Sorted packets) : Ordered (c.setBuffer x packets) :=
  BySide.forall_set (P := fun _ l => Sorted l) hpackets (h x.other)

theorem Ordered.tail (h : Ordered c) {x : Side} {rest : List TCPPacket}
    (hb : c.packetsBuffer.get x = p :: rest) : Ordered (c.setBuffer x rest) :=
  h.setBuffer x (hb ▸ h x).tail

theorem Ordered.add (h : Ordered c) (hp : NearWaiting p c) : Ordered (c.setBuffer p.side
    (TreeSet.add TCPPacket.compareTo p (c.packetsBuffer.get p.side))) :=
  h.setBuffer _ ((h _).add hp)

theorem ordered_drain (now : Date) : Delivery.DrainInvariant now Ordered Ordered where
  thrown := fun _ h => h
  drop := fun h hb _ => h.tail hb
  take := fun h hb _ => Delivery.deliver_packetsBuffer now _
    (P := fun b => ∀ x, Sorted (b.get x)) (h.tail hb) _
  updated := fun h => h

theorem ordered_process (now : Date) (h : Ordered c) (hp : NearWaiting p c) :
    (PacketReceiverImpl.process now p c).Leaves Ordered Ordered :=
  PacketReceiverImpl.process_leaves (ordered_drain now) h
    (fun _ => Delivery.deliver_packetsBuffer now p (P := fun b => ∀ x, Sorted (b.get x)) h 0)
    fun _ => h.add hp

theorem ordered_promote (now : Date) (p : TCPPacket) (h : Ordered c) :
    (PacketReceiverImpl.promote now p c).Leaves Ordered Ordered := by
  refine PacketReceiverImpl.promote_leaves (ordered_drain now) ?_
  have hframe := Delivery.processDataPacket_frame now p (PacketReceiverImpl.primed p c)
  exact hframe.mono (fun _ hc => h.congr hc.packetsBuffer) fun _ hc => h.congr hc.packetsBuffer

theorem pickRule (now : Date) (p : TCPPacket) :
    PacketReceiverImpl.PickRule now p
      (fun c => NearWaiting (p.detectPacketFlowDirection c.connectionDetail) c) Ordered Ordered
      (fun _ => True) (fun _ => Ordered) where
  weaken := fun h => h
  full := trivial
  opened := by
    intro _ x
    cases x <;> exact sorted_nil
  candidate := by
    intro _ _ x
    cases x with
    | client => exact sorted_singleton _
    | server => exact sorted_nil
  buffered := fun h hnear _ _ _ => PacketReceiverImpl.bufferPacket_sat h (h.add hnear)
  promoted := fun h _ _ _ _ => (Outcome.ends_const.mpr (ordered_promote now _ h)).mono
    (fun _ ht => ht) fun _ _ ht => ⟨trivial, ht⟩
  answered := by
    intro c h _ _ _
    unfold TCPConnectionImpl.processSyncAckPacket
    split
    · exact ⟨trivial, h⟩
    · exact h
  processed := fun h hnear _ _ _ => (Outcome.ends_const.mpr (ordered_process now h hnear)).mono
    (fun _ ht => ht) fun _ _ ht => ⟨trivial, ht⟩

theorem ordered_step {r : PacketReceiverImpl} (hwf : PacketReceiverImpl.WellFormed r)
    (h : PacketReceiverImpl.Tables Ordered Ordered r) {call : Call} (hcall : Narrow r call) :
    PacketReceiverImpl.Tables Ordered Ordered (r.step call) := by
  cases call with
  | pick now packet =>
    exact (Outcome.ends_const.mp (((pickRule now (TCPPacketImpl packet)).pick_ends hwf
      (fun c hc => hcall c hc) h).mono (fun _ h' => h') fun _ _ h' => h'.2)).state
  | _ =>
    have hread : ∀ {c c'}, PacketReceiverImpl.SameButRead c c' → Ordered c → Ordered c' := by
      intro c c' ⟨_, hread, _⟩ hc
      subst hread
      exact hc
    exact h.step_other hread hread nofun

theorem sorted_of_run (filter : ConnectionFilter) {calls : List Call}
    (hcalls : Run.Along PacketReceiverImpl.step Narrow (PacketReceiverImpl.create filter) calls) :
    PacketReceiverImpl.Tables Ordered Ordered
      (Run.after PacketReceiverImpl.step (PacketReceiverImpl.create filter) calls) := by
  refine (Run.invariant (C := Narrow) (I := fun r => PacketReceiverImpl.WellFormed r ∧
      PacketReceiverImpl.Tables Ordered Ordered r) ?_
    ⟨PacketReceiverImpl.wellFormed_create filter, PacketReceiverImpl.tables_create _ _ filter⟩
    hcalls).2
  rintro r call ⟨hwf, h⟩ hcall
  exact ⟨PacketReceiverImpl.step_wellFormed hwf call, ordered_step hwf h hcall⟩

end Invariant

end Buffering

end ConnectionSniffer
