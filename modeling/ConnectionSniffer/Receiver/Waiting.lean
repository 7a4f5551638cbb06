import ConnectionSniffer.Connection.Handlers
import ConnectionSniffer.Receiver.Run

/-!
# What waits in the buffers of a reachable receiver

`Waits d x p` says what the code relies on for a packet `p` in the buffer
of side `x`: it belongs to the pair of `d`, its direction has been detected
against `d` and found to be `x`, and no counter has consumed it.

`Orderly` and `Candidate` put this together with the one thing the tables
say about the state: an active connection has one, and a half-way
connection has none.
-/

namespace ConnectionSniffer

namespace Waiting

structure Waits (d : ConnectionDetail) (x : Side) (p : TCPPacket) : Prop where
  pair : (p.connectionDetail == d) = true
  direction : p.isSentByClient = p.connectionDetail.isTheSame d
  side : p.side = x
  fresh : p.consumed = false

/-- An active connection. -/
structure Orderly (c : TCPConnectionImpl) : Prop where
  state : c.state ≠ none
  waits : ∀ x, ∀ p ∈ c.packetsBuffer.get x, Waits c.connectionDetail x p

/-- A half-way connection. -/
structure Candidate (c : TCPConnectionImpl) : Prop where
  state : c.state = none
  waits : ∀ x, ∀ p ∈ c.packetsBuffer.get x, Waits c.connectionDetail x p

/-- What `pick` hands on can wait in the buffer of its side. -/
theorem waits_detect {p : TCPPacket} {d : ConnectionDetail}
    (hkey : (d == p.connectionDetail) = true) (hfresh : p.consumed = false) :
    Waits d (p.detectPacketFlowDirection d).side (p.detectPacketFlowDirection d) :=
  ⟨BEq.symm hkey, rfl, rfl, hfresh⟩

/-- The accept test never throws on a packet that can wait. -/
theorem Waits.isCanProcessPacket_eq {c : TCPConnectionImpl} {x : Side} {p : TCPPacket}
    (h : Waits c.connectionDetail x p) :
    c.isCanProcessPacket p = .ok ((c.counter.get x).seq == p.sequence &&
      (!(p.isContainsData || p.rst || p.fin) || (p.ackNum == (c.counter.get x).ack ||
        p.ackNum == (c.counter.get x.other).seq))) := by
  rw [TCPConnectionImpl.isCanProcessPacket_eq h.direction h.fresh, h.side]

section Invariant

variable {now : Date} {p : TCPPacket} {c : TCPConnectionImpl}

theorem state_deliver (now : Date) (p : TCPPacket) (h : c.state ≠ none) (n : Nat) :
    (Delivery.deliver now p ⟨c, n⟩).Leaves (fun c' => c'.state ≠ none)
      (fun c' => c'.state ≠ none) := by
  refine Delivery.deliver_leaves (R := fun c' => c'.state ≠ none) (A := fun c' => c'.state ≠ none)
    (D := fun c' => c'.state ≠ none) ?_ ?_ ?_ ?_ ?_ ?_
  · split
    · exact h
    · exact h
  · intro c' h' _
    unfold TCPConnectionImpl.processAckPacket TCPConnectionImpl.processHandshake3AckPacket
    split
    · exact h'
    · split
      · exact h'
      · simp
    · simp [TCPConnectionImpl.processFinishWait1AckPacket]
    · simp [TCPConnectionImpl.processLastAckPacket]
    · exact h'
  · intro c' h' _
    exact h'
  · intro c' h' _
    exact (TCPConnectionImpl.processDataPacket_sat now p c').mono (fun _ hd => hd.state ▸ h')
      (fun _ hd => hd.state ▸ h')
  · intro c' h' _
    exact h'
  · intro c' h'
    split
    · show TCPConnectionImpl.updateConnectionStateAfterReceivedFinishPacket c'.state ≠ none
      unfold TCPConnectionImpl.updateConnectionStateAfterReceivedFinishPacket
      split <;> simp_all
    · exact h'

theorem orderly_deliver (now : Date) (p : TCPPacket) (h : Orderly c) (n : Nat) :
    (Delivery.deliver now p ⟨c, n⟩).Leaves Orderly Orderly := by
  have hboth := (state_deliver now p h.state n).and (Delivery.deliver_frame now p c n)
  refine Outcome.Sat.mono hboth ?_ ?_
  · rintro t ⟨hs, hframe⟩
    refine ⟨hs, ?_⟩
    rw [hframe.packetsBuffer, hframe.connectionDetail]
    exact h.waits
  · rintro t ⟨hs, hframe⟩
    refine ⟨hs, ?_⟩
    rw [hframe.packetsBuffer, hframe.connectionDetail]
    exact h.waits

theorem waits_setBuffer (h : ∀ x, ∀ q ∈ c.packetsBuffer.get x, Waits c.connectionDetail x q)
    (x : Side) {packets : List TCPPacket}
    (hpackets : ∀ q ∈ packets, Waits c.connectionDetail x q) :
    ∀ y, ∀ q ∈ (c.setBuffer x packets).packetsBuffer.get y, Waits c.connectionDetail y q :=
  BySide.forall_set (P := fun y (l : List TCPPacket) => ∀ q ∈ l, Waits c.connectionDetail y q)
    hpackets (h x.other)

/-- One more packet in the buffer of its side. -/
theorem waits_add (h : ∀ x, ∀ q ∈ c.packetsBuffer.get x, Waits c.connectionDetail x q)
    (hp : Waits c.connectionDetail p.side p) :
    ∀ x, ∀ q ∈ (c.setBuffer p.side (TreeSet.add TCPPacket.compareTo p
      (c.packetsBuffer.get p.side))).packetsBuffer.get x, Waits c.connectionDetail x q :=
  waits_setBuffer h p.side (PacketReceiverImpl.forall_mem_add h hp)

theorem orderly_drain (now : Date) : Delivery.DrainInvariant now Orderly Orderly where
  thrown := fun _ h => h
  drop := by
    intro c x p rest h hb _
    exact ⟨h.state, waits_setBuffer h.waits x (TCPConnectionImpl.buffer_cons h.waits hb).2⟩
  take := by
    intro c n x p rest h hb _
    have hrest : Orderly (c.setBuffer x rest) :=
      ⟨h.state, waits_setBuffer h.waits x (TCPConnectionImpl.buffer_cons h.waits hb).2⟩
    exact orderly_deliver now p hrest n
  updated := fun h => ⟨h.state, h.waits⟩

theorem pickInvariant (now : Date) (hfresh : p.consumed = false) :
    PacketReceiverImpl.PickInvariant now p Orderly Candidate Orderly where
  thrown := fun _ h => h
  opened := by
    intro _
    refine ⟨by simp [PacketReceiverImpl.synConnection, TCPConnectionImpl.processSyncPacket,
      TCPConnectionImpl.record], ?_⟩
    intro x q hq
    cases x <;> exact absurd hq (by simp [PacketReceiverImpl.synConnection,
      TCPConnectionImpl.processSyncPacket, TCPConnectionImpl.record, TCPConnectionImpl.create])
  candidate := by
    intro _ _
    refine ⟨rfl, ?_⟩
    intro x q hq
    cases x with
    | client =>
      obtain rfl := List.mem_singleton.mp hq
      have hw := waits_detect (p := p) (d := p.connectionDetail) BEq.rfl hfresh
      have hside : (p.detectPacketFlowDirection p.connectionDetail).side = .client := by
        simp [TCPPacket.side, TCPPacket.detectPacketFlowDirection, ConnectionDetail.isTheSame_iff]
      rwa [hside] at hw
    | server => exact absurd hq (by simp [PacketReceiverImpl.halfWayConnection])
  buffered := by
    intro c h hkey _ _
    exact PacketReceiverImpl.bufferPacket_sat h
      ⟨h.state, waits_add h.waits (waits_detect hkey hfresh)⟩
  promoted := by
    intro c h _ _ _ _
    refine PacketReceiverImpl.promote_leaves (orderly_drain now) ?_
    set q := p.detectPacketFlowDirection c.connectionDetail
    have hboth := (TCPConnectionImpl.processDataPacket_sat now q
      (PacketReceiverImpl.primed q c)).and (Delivery.processDataPacket_frame now q _)
    have hkeep : ∀ c', c'.state = (PacketReceiverImpl.primed q c).state →
        Delivery.SameFrame (PacketReceiverImpl.primed q c) c' → Orderly c' := by
      intro c' hstate hframe
      have hbuffer : c'.packetsBuffer = c.packetsBuffer := hframe.packetsBuffer
      have hdetail : c'.connectionDetail = c.connectionDetail := hframe.connectionDetail
      refine ⟨by simp [hstate, PacketReceiverImpl.primed], ?_⟩
      rw [hbuffer, hdetail]
      exact h.waits
    refine hboth.mono ?_ ?_
    · rintro c' ⟨hd, hframe⟩
      have hc' := hkeep c' hd.state hframe
      exact ⟨hc'.state, hc'.waits⟩
    · rintro c' ⟨hd, hframe⟩
      exact hkeep c' hd.state hframe
  answered := by
    intro c h _ _ _
    unfold TCPConnectionImpl.processSyncAckPacket
    split
    · exact h
    · exact ⟨by simp [TCPConnectionImpl.record], h.waits⟩
  processed := by
    intro c h hkey _ _ _
    refine PacketReceiverImpl.process_leaves (orderly_drain now) h
      (fun _ => orderly_deliver now _ h 0) fun _ => ?_
    exact ⟨h.state, waits_add h.waits (waits_detect hkey hfresh)⟩

end Invariant

/-! ## Runs -/

theorem tables_step {r : PacketReceiverImpl} (hwf : PacketReceiverImpl.WellFormed r)
    (h : PacketReceiverImpl.Tables Orderly Candidate r) (call : Call) :
    PacketReceiverImpl.Tables Orderly Candidate (r.step call) := by
  cases call with
  | pick now packet =>
    exact ((pickInvariant (p := TCPPacketImpl packet) now rfl).pick_tables hwf h).state
  | _ =>
    refine h.step_other ?_ ?_ nofun
    · intro c c' ⟨_, hread, _⟩ hc
      subst hread
      exact ⟨hc.state, hc.waits⟩
    · intro c c' ⟨_, hread, _⟩ hc
      subst hread
      exact ⟨hc.state, hc.waits⟩

/-- The receiver is well-formed, and its connections are orderly. -/
structure Sound (r : PacketReceiverImpl) : Prop where
  wellFormed : PacketReceiverImpl.WellFormed r
  tables : PacketReceiverImpl.Tables Orderly Candidate r

theorem sound_create (filter : ConnectionFilter) : Sound (PacketReceiverImpl.create filter) :=
  ⟨PacketReceiverImpl.wellFormed_create filter, PacketReceiverImpl.tables_create _ _ filter⟩

theorem sound_step {r : PacketReceiverImpl} (h : Sound r) (call : Call) : Sound (r.step call) :=
  ⟨PacketReceiverImpl.step_wellFormed h.wellFormed call, tables_step h.wellFormed h.tables call⟩

theorem sound_of_run (filter : ConnectionFilter) (calls : List Call) :
    Sound (Run.after PacketReceiverImpl.step (PacketReceiverImpl.create filter) calls) :=
  Run.invariant_always (I := Sound) (fun _ call h => sound_step h call) calls
    (sound_create filter)

end Waiting

end ConnectionSniffer
