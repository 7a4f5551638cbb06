import ConnectionSniffer.Connection.Handlers
import ConnectionSniffer.Receiver.Run

/-!
# The streams of all connections are sane

`Sane` is kept by every method of a stream, so it holds of the streams of
every connection that a run leads to.  The one condition is on the
payloads: a captured packet is at most as long as the 16-bit length field
of its IP header says, and an array of that size never takes the new size
of the buffer out of the `int` range.
-/

namespace ConnectionSniffer

/-- The payload of the packet fits into an IP packet. -/
def Call.Fits : Call → Prop
  | .pick _ p => p.data.length < 2 ^ 16
  | _ => True

instance : ∀ c, Decidable (Call.Fits c)
  | .pick _ p => inferInstanceAs (Decidable (p.data.length < 2 ^ 16))
  | .poll => .isTrue trivial
  | .read _ _ => .isTrue trivial
  | .readInto _ _ _ _ _ => .isTrue trivial

namespace Streams

/-- Both streams are sane, and so are the payloads still to come. -/
structure SaneStreams (c : TCPConnectionImpl) : Prop where
  sane : ∀ x, (c.inputStream.get x).Sane
  fits : ∀ x, ∀ p ∈ c.packetsBuffer.get x, p.data.length < 2 ^ 16

section Invariant

variable {now : Date} {p : TCPPacket} {c : TCPConnectionImpl}

theorem sane_processDataPacket (now : Date) (h : ∀ x, (c.inputStream.get x).Sane)
    (hp : p.data.length < 2 ^ 16) :
    (c.processDataPacket now p).Sat (fun c' => ∀ x, (c'.inputStream.get x).Sane)
      (fun c' => ∀ x, (c'.inputStream.get x).Sane) := by
  have happend := DynamicByteArrayInputStream.sane_append
    (TCPConnectionImpl.sane_ownStream (h p.side)) hp
  have hstreams : ∀ own : DynamicByteArrayInputStream, own.Sane →
      ∀ x, ((c.streamsAfter now p own).get x).Sane := by
    intro own hown
    refine BySide.forall_side p.side ?_ ?_
    · rw [TCPConnectionImpl.get_streamsAfter]
      exact hown
    · rw [TCPConnectionImpl.get_other_streamsAfter]
      exact TCPConnectionImpl.sane_otherStream now (h _)
  rw [TCPConnectionImpl.processDataPacket_eq]
  cases ha : (c.ownStream p).append p.data with
  | thrown e own =>
    rw [ha] at happend
    exact hstreams own happend
  | returned own =>
    rw [ha] at happend
    exact hstreams own happend

theorem sane_processRstPacket (now : Date) (p : TCPPacket)
    (h : ∀ x, (c.inputStream.get x).Sane) :
    ∀ x, ((c.processRstPacket now p).inputStream.get x).Sane := by
  have hfinish : ∀ s : DynamicByteArrayInputStream, s.Sane →
      (TCPConnectionImpl.finishIfOpen now s).Sane := by
    intro s hs
    unfold TCPConnectionImpl.finishIfOpen
    split
    · exact hs
    · exact DynamicByteArrayInputStream.sane_finish hs false now
  intro x
  cases x
  · exact hfinish _ (h .client)
  · exact hfinish _ (h .server)

theorem sane_processFinishPacket (now : Date) (p : TCPPacket)
    (h : ∀ x, (c.inputStream.get x).Sane) :
    ∀ x, ((c.processFinishPacket now p).inputStream.get x).Sane :=
  BySide.forall_set (P := fun _ s => DynamicByteArrayInputStream.Sane s)
    (DynamicByteArrayInputStream.sane_finish (h _) false now) (h _)

theorem sane_processAckPacket (p : TCPPacket) (h : ∀ x, (c.inputStream.get x).Sane) :
    (c.processAckPacket p).Sat (fun c' => ∀ x, (c'.inputStream.get x).Sane)
      (fun c' => ∀ x, (c'.inputStream.get x).Sane) := by
  unfold TCPConnectionImpl.processAckPacket TCPConnectionImpl.processHandshake3AckPacket
  split
  · exact h
  · split
    · exact h
    · exact h
  · exact h
  · exact h
  · exact h

theorem saneStreams_deliver (now : Date) (h : SaneStreams c) (hp : p.data.length < 2 ^ 16)
    (n : Nat) : (Delivery.deliver now p ⟨c, n⟩).Leaves SaneStreams SaneStreams := by
  have hsane : (Delivery.deliver now p ⟨c, n⟩).Leaves
      (fun c' => ∀ x, (c'.inputStream.get x).Sane)
      (fun c' => ∀ x, (c'.inputStream.get x).Sane) := by
    refine Delivery.deliver_leaves (R := fun c' => ∀ x, (c'.inputStream.get x).Sane)
      (A := fun c' => ∀ x, (c'.inputStream.get x).Sane)
      (D := fun c' => ∀ x, (c'.inputStream.get x).Sane) ?_ ?_ ?_ ?_ ?_ ?_
    · split
      · exact sane_processRstPacket now p h.sane
      · exact h.sane
    · intro c' h' _
      exact sane_processAckPacket p h'
    · intro c' h' _
      exact h'
    · intro c' h' _
      exact sane_processDataPacket now h' hp
    · intro c' h' _
      exact h'
    · intro c' h'
      split
      · exact sane_processFinishPacket now p h'
      · exact h'
  refine Outcome.Sat.mono (hsane.and (Delivery.deliver_frame now p c n)) ?_ ?_
  · rintro t ⟨hs, hframe⟩
    refine ⟨hs, ?_⟩
    rw [hframe.packetsBuffer]
    exact h.fits
  · rintro t ⟨hs, hframe⟩
    refine ⟨hs, ?_⟩
    rw [hframe.packetsBuffer]
    exact h.fits

theorem SaneStreams.setBuffer (h : SaneStreams c) (x : Side) {packets : List TCPPacket}
    (hpackets : ∀ q ∈ packets, q.data.length < 2 ^ 16) : SaneStreams (c.setBuffer x packets) where
  sane := h.sane
  fits := BySide.forall_set (P := fun _ (l : List TCPPacket) => ∀ q ∈ l, q.data.length < 2 ^ 16)
    hpackets (h.fits _)

theorem saneStreams_drain : Delivery.DrainInvariant now SaneStreams SaneStreams where
  thrown := fun _ h => h
  drop := by
    intro c x p rest h hb _
    exact h.setBuffer x (TCPConnectionImpl.buffer_cons h.fits hb).2
  take := by
    intro c n x p rest h hb _
    have hrest := h.setBuffer x (TCPConnectionImpl.buffer_cons h.fits hb).2
    exact saneStreams_deliver now hrest (TCPConnectionImpl.buffer_cons h.fits hb).1 n
  updated := fun h => ⟨h.sane, h.fits⟩

theorem saneStreams_create (now : Date) (d : ConnectionDetail) (x : Side) :
    ((TCPConnectionImpl.create now d).inputStream.get x).Sane := by
  cases x <;> exact DynamicByteArrayInputStream.sane_create now

theorem pickInvariant (now : Date) (hp : p.data.length < 2 ^ 16) :
    PacketReceiverImpl.PickInvariant now p SaneStreams SaneStreams SaneStreams where
  thrown := fun _ h => h
  opened := fun _ => ⟨saneStreams_create now p.connectionDetail, fun x q hq => by
    cases x <;> exact absurd hq (by simp [PacketReceiverImpl.synConnection,
      TCPConnectionImpl.processSyncPacket, TCPConnectionImpl.record, TCPConnectionImpl.create])⟩
  candidate := by
    intro _ _
    refine ⟨saneStreams_create now p.connectionDetail, ?_⟩
    intro x q hq
    cases x with
    | client =>
      rw [List.mem_singleton.mp hq]
      exact hp
    | server => exact absurd hq (by simp [PacketReceiverImpl.halfWayConnection])
  buffered := fun h _ _ _ => PacketReceiverImpl.bufferPacket_sat h
    (h.setBuffer _ (PacketReceiverImpl.forall_mem_add h.fits hp))
  promoted := by
    intro c h _ _ _ _
    refine PacketReceiverImpl.promote_leaves saneStreams_drain ?_
    set q := p.detectPacketFlowDirection c.connectionDetail
    have hboth := (sane_processDataPacket (p := q) (c := PacketReceiverImpl.primed q c) now
      h.sane hp).and (Delivery.processDataPacket_frame now _ _)
    refine hboth.mono ?_ ?_
    · rintro c' ⟨hs, hframe⟩
      refine ⟨hs, ?_⟩
      show ∀ x, ∀ q ∈ c'.packetsBuffer.get x, _
      rw [hframe.packetsBuffer]
      exact h.fits
    · rintro c' ⟨hs, hframe⟩
      refine ⟨hs, ?_⟩
      rw [hframe.packetsBuffer]
      exact h.fits
  answered := by
    intro c h _ _ _
    unfold TCPConnectionImpl.processSyncAckPacket
    split
    · exact h
    · exact ⟨h.sane, h.fits⟩
  processed := fun h _ _ _ _ => PacketReceiverImpl.process_leaves saneStreams_drain h
    (fun _ => saneStreams_deliver (p := p.detectPacketFlowDirection _) now h hp 0)
    (fun _ => h.setBuffer _ (PacketReceiverImpl.forall_mem_add h.fits hp))

/-- Reading keeps the streams sane. -/
theorem SaneStreams.read {c c' : TCPConnectionImpl} (hread : PacketReceiverImpl.SameButRead c c')
    (h : SaneStreams c) : SaneStreams c' := by
  obtain ⟨streams, rfl, -, hleaves⟩ := hread
  exact ⟨fun x => (hleaves x (h.sane x)).1, h.fits⟩

theorem saneStreams_step {r : PacketReceiverImpl} (hwf : PacketReceiverImpl.WellFormed r)
    (h : PacketReceiverImpl.Tables SaneStreams SaneStreams r) {call : Call} (hcall : call.Fits) :
    PacketReceiverImpl.Tables SaneStreams SaneStreams (r.step call) := by
  cases call with
  | pick now packet =>
    exact ((pickInvariant (p := TCPPacketImpl packet) now hcall).pick_tables hwf h).state
  | _ => exact h.step_other SaneStreams.read SaneStreams.read nofun

theorem saneTables_of_run {filter : ConnectionFilter} {calls : List Call}
    (hfits : ∀ call ∈ calls, call.Fits) :
    PacketReceiverImpl.Tables SaneStreams SaneStreams
      (Run.after PacketReceiverImpl.step (PacketReceiverImpl.create filter) calls) := by
  refine (Run.invariant (C := fun _ call => Call.Fits call)
    (I := fun r => PacketReceiverImpl.WellFormed r ∧
      PacketReceiverImpl.Tables SaneStreams SaneStreams r) ?_
    ⟨PacketReceiverImpl.wellFormed_create filter, PacketReceiverImpl.tables_create _ _ filter⟩
    (Run.along_of_forall PacketReceiverImpl.step (PacketReceiverImpl.create filter) hfits)).2
  rintro r call ⟨hwf, htables⟩ hcall
  exact ⟨PacketReceiverImpl.step_wellFormed hwf call, saneStreams_step hwf htables hcall⟩

/-- The streams of every active connection are sane. -/
theorem sane_of_run {filter : ConnectionFilter} {calls : List Call}
    (hfits : ∀ call ∈ calls, call.Fits) {key : ConnectionDetail} {ref : Ref}
    (hactive : (Run.after PacketReceiverImpl.step (PacketReceiverImpl.create filter)
      calls).activeConnections.get key = some ref)
    (hc : (Run.after PacketReceiverImpl.step (PacketReceiverImpl.create filter) calls).deref ref =
      some c) (x : Side) : (c.inputStream.get x).Sane :=
  ((saneTables_of_run hfits).active hactive hc).sane x

end Invariant

end Streams

end ConnectionSniffer
