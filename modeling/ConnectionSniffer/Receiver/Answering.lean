import ConnectionSniffer.Receiver.Handlings
import ConnectionSniffer.Receiver.Reach
import ConnectionSniffer.Receiver.Waiting

/-!
# Who ends a handshake

In SynReceived `processAckPacket` takes every packet for the third packet
of the handshake.  It tests the acknowledgement number against the counter
of the server and not the direction, so a packet of the server that
acknowledges one beyond its own sequence number passes: that number is
the counter of the server, or the packet could not have been processed.

`answers_handling_iff` says which packets a connection leaves SynReceived
with, `Receiving` follows the counters through the drain as long as the
connection stays there, and `answeredByClient_handlings` is about one
`pick`.
-/

namespace ConnectionSniffer

namespace Answering

open Reach (Buffered Counts Processes Reaches)
open Waiting (Waits)

/-- The packet has taken the connection out of SynReceived. -/
def Answers (d : Handling) : Prop :=
  d.met.state = some .synReceived ∧ d.outcome.state.state ≠ some .synReceived

instance (d : Handling) : Decidable (Answers d) := inferInstanceAs (Decidable (_ ∧ _))

/-- Of the packets that a `pick` handles, only those of the client take a
connection out of SynReceived. -/
def AnsweredByClient (r : PacketReceiverImpl) : Call → Prop
  | .pick now packet =>
    ∀ d ∈ r.handlings now (TCPPacketImpl packet), Answers d → d.packet.side = .client
  | _ => True

instance (r : PacketReceiverImpl) : ∀ call, Decidable (AnsweredByClient r call)
  | .pick now packet => inferInstanceAs (Decidable (∀ d ∈ r.handlings now (TCPPacketImpl packet), _))
  | .poll => .isTrue trivial
  | .read _ _ => .isTrue trivial
  | .readInto _ _ _ _ _ => .isTrue trivial

/-- A packet of the server that acknowledges one beyond its own number.  A
RST has moved the counter behind its payload by then. -/
def Misleads (q : TCPPacket) : Prop :=
  q.side = .server ∧ q.ack = true ∧
    q.ackNum = q.sequence + (if q.rst then q.data.length else 0) + 1

/-- The connection without its state, where no place of `Reaches` is behind
the handshake. -/
def counted (c : TCPConnectionImpl) : TCPConnectionImpl := { c with state := none }

/-- In SynReceived, none of the packets that the `pick` may handle
misleads. -/
def Unmisled (r : PacketReceiverImpl) : Call → Prop
  | .pick _ packet =>
    ∀ ref c, Processes r packet ref c → c.state = some .synReceived →
      ∀ q, Reaches (counted c) (fun q => q = packet.detected c.connectionDetail ∨ Buffered c q)
        (.packet q) → ¬ Misleads q
  | _ => True

/-! ## One packet -/

section Packet

variable {now : Date} {p : TCPPacket} {c c' : TCPConnectionImpl} {P : TCPPacket → Prop}

/-- The counters that `processAckPacket` finds. -/
def acknowledging (p : TCPPacket) (c : TCPConnectionImpl) : SequenceCounter :=
  if p.rst then c.counter.update p.side p else c.counter

theorem rst_acknowledging (now : Date) (p : TCPPacket) (c : TCPConnectionImpl) :
    (if p.rst then c.processRstPacket now p else c).state = c.state ∧
      (if p.rst then c.processRstPacket now p else c).counter = acknowledging p c := by
  unfold acknowledging
  cases p.rst <;> exact ⟨rfl, rfl⟩

/-- Any other packet leaves the connection in SynReceived. -/
theorem deliver_stays (hstate : c.state = some .synReceived)
    (hno : p.ack = true → p.ackNum ≠ (acknowledging p c).server.seq + 1) (now : Date) (n : Nat) :
    (Delivery.deliver now p ⟨c, n⟩).Leaves (fun c' => c'.state = some .synReceived)
      (fun c' => c'.state = some .synReceived) := by
  obtain ⟨hsame, hcounter⟩ := rst_acknowledging now p c
  refine Delivery.deliver_leaves
    (R := fun c' => c'.state = some .synReceived ∧ c'.counter = acknowledging p c)
    (A := fun c' => c'.state = some .synReceived) (D := fun c' => c'.state = some .synReceived)
    ⟨hsame.trans hstate, hcounter⟩ ?_ (fun _ h _ => h.1) ?_ (fun _ h _ => h) ?_
  · intro c' h hack
    have hnum : p.ackNum ≠ c'.counter.server.seq + 1 := by
      rw [h.2]
      exact hno hack
    simp [TCPConnectionImpl.processAckPacket, TCPConnectionImpl.processHandshake3AckPacket,
      h.1, hnum]
  · intro c' h _
    exact (TCPConnectionImpl.processDataPacket_sat now p c').mono
      (fun _ hd => hd.state.trans h) fun _ hd => hd.state.trans h
  · intro c' h
    cases p.fin with
    | false => exact h
    | true =>
      show TCPConnectionImpl.updateConnectionStateAfterReceivedFinishPacket c'.state = _
      rw [show c'.state = some .synReceived from h]
      rfl

/-- The third packet moves it to Established, and with FIN beyond. -/
theorem deliver_answers (hstate : c.state = some .synReceived) (hack : p.ack = true)
    (hackNum : p.ackNum = (acknowledging p c).server.seq + 1) (now : Date) (n : Nat) :
    (Delivery.deliver now p ⟨c, n⟩).Leaves (fun c' => c'.state ≠ some .synReceived)
      (fun c' => c'.state ≠ some .synReceived) := by
  obtain ⟨hsame, hcounter⟩ := rst_acknowledging now p c
  refine Delivery.deliver_leaves
    (R := fun c' => c'.state = some .synReceived ∧ c'.counter = acknowledging p c)
    (A := fun c' => c'.state = some .established) (D := fun c' => c'.state = some .established)
    ⟨hsame.trans hstate, hcounter⟩ ?_ ?_ ?_ (fun _ h _ => h) ?_
  · intro c' h _
    have hnum : p.ackNum = c'.counter.server.seq + 1 := by rw [h.2, hackNum]
    simp [TCPConnectionImpl.processAckPacket, TCPConnectionImpl.processHandshake3AckPacket,
      h.1, hnum]
  · intro _ _ hnoack
    exact absurd hack (by simp [hnoack])
  · intro c' h _
    exact (TCPConnectionImpl.processDataPacket_sat now p c').mono
      (fun _ hd => hd.state.trans h) fun _ hd => by simp [hd.state.trans h]
  · intro c' h
    cases p.fin with
    | false =>
      show c'.state ≠ _
      simp [show c'.state = some .established from h]
    | true =>
      show TCPConnectionImpl.updateConnectionStateAfterReceivedFinishPacket c'.state ≠ _
      rw [show c'.state = some .established from h]
      decide

/-- Only the third packet of the handshake takes a connection out of
SynReceived, whoever sent it. -/
theorem answers_handling_iff (now : Date) (p : TCPPacket) (c : TCPConnectionImpl) (n : Nat) :
    Answers (Delivery.handling now p ⟨c, n⟩) ↔
      c.state = some .synReceived ∧ p.ack = true ∧
        p.ackNum = (acknowledging p c).server.seq + 1 := by
  show c.state = _ ∧ ((Delivery.deliver now p ⟨c, n⟩).map Delivery.connection).state.state ≠ _ ↔ _
  rw [Outcome.state_map]
  refine and_congr_right fun hstate => ⟨fun hleft => ?_, fun ⟨hack, hackNum⟩ => ?_⟩
  · by_contra hno
    exact hleft (deliver_stays hstate (fun hack hnum => hno ⟨hack, hnum⟩) now n).state
  · exact (deliver_answers hstate hack hackNum now n).state

/-- As long as the connection is in SynReceived, it has been there from the
start, its counters are where they may have come to, and the packets of `P`
wait in the buffers. -/
def Receiving (c : TCPConnectionImpl) (P : TCPPacket → Prop) (c' : TCPConnectionImpl) : Prop :=
  c'.state = some .synReceived → c.state = some .synReceived ∧ Counts (counted c) P c' ∧
    ∀ y, ∀ q ∈ c'.packetsBuffer.get y, P q ∧ Waits c'.connectionDetail y q

/-- What takes a connection out of SynReceived comes from the client, if no
packet misleads. -/
theorem Receiving.answers (h : Receiving c P c')
    (hcond : c.state = some .synReceived → ∀ q, Reaches (counted c) P (.packet q) → ¬ Misleads q)
    (hp : c'.state = some .synReceived → P p ∧ Waits c'.connectionDetail p.side p)
    (hcan : c'.isCanProcessPacket p = .ok true) (n : Nat)
    (hanswers : Answers (Delivery.handling now p ⟨c', n⟩)) : p.side = .client := by
  obtain ⟨hstate', hack, hackNum⟩ := (answers_handling_iff ..).mp hanswers
  obtain ⟨hstate, hcounts, -⟩ := h hstate'
  obtain ⟨hmem, hwaits⟩ := hp hstate'
  have hreaches := hcounts.reaches hmem hwaits.direction hcan
  by_contra hside
  have hserver : p.side = .server := Side.eq_other_of_ne hside
  have hseq := TCPConnectionImpl.sequence_of_isCanProcessPacket hwaits.direction hcan
  rw [hserver] at hseq
  refine hcond hstate p hreaches ⟨hserver, hack, hackNum.trans (congrArg (· + 1) ?_)⟩
  unfold acknowledging
  cases p.rst with
  | false => exact hseq
  | true =>
    show (BySide.get (c'.counter.update p.side p) .server).seq = _
    rw [← hserver, SequenceCounter.get_update, updateCounter_seq]
    rfl

/-- A packet that may be handled. -/
theorem Receiving.deliver (h : Receiving c P c')
    (hp : c'.state = some .synReceived → P p ∧ Waits c'.connectionDetail p.side p)
    (hcan : c'.isCanProcessPacket p = .ok true) (now : Date) (n : Nat) :
    (Delivery.deliver now p ⟨c', n⟩).Leaves (Receiving c P) fun _ => True := by
  have hreaches : c'.state = some .synReceived → Reaches (counted c) P (.packet p) :=
    fun hstate => (h hstate).2.1.reaches (hp hstate).1 (hp hstate).2.direction hcan
  have hcounts : (Delivery.deliver now p ⟨c', n⟩).Leaves
      (fun c₁ => c₁.state = some .synReceived →
        c'.state = some .synReceived ∧ Counts (counted c) P c₁) fun _ => True := by
    let K := fun c₁ : TCPConnectionImpl => c₁.state = some .synReceived →
      c'.state = some .synReceived ∧ Counts (counted c) P c₁
    refine Delivery.deliver_leaves (R := K) (A := K) (D := K) ?_ ?_ (fun _ h₁ _ => h₁) ?_
      (fun _ h₁ _ => h₁) ?_
    · cases p.rst with
      | false => exact fun hstate => ⟨hstate, (h hstate).2.1⟩
      | true => exact fun hstate => ⟨hstate, (h hstate).2.1.update (hreaches hstate) rfl⟩
    · intro c₁ h₁ _
      unfold TCPConnectionImpl.processAckPacket TCPConnectionImpl.processHandshake3AckPacket
      split
      · trivial
      · split
        · trivial
        · exact fun hstate => absurd hstate (by simp)
      · exact fun hstate => absurd hstate (by simp [TCPConnectionImpl.processFinishWait1AckPacket])
      · exact fun hstate => absurd hstate (by simp [TCPConnectionImpl.processLastAckPacket])
      · exact h₁
    · intro c₁ h₁ _
      refine (TCPConnectionImpl.processDataPacket_sat now p c₁).mono ?_ fun _ _ => trivial
      intro c₂ hd hstate
      obtain ⟨hstate', hcounts⟩ := h₁ (hd.state ▸ hstate)
      exact ⟨hstate', hcounts.update (hreaches hstate') hd.counter⟩
    · intro c₁ h₁
      cases hfin : p.fin with
      | false =>
        intro hstate
        obtain ⟨hstate', hcounts⟩ := h₁ hstate
        exact ⟨hstate', hcounts.same rfl⟩
      | true =>
        intro (hstate : TCPConnectionImpl.updateConnectionStateAfterReceivedFinishPacket
          c₁.state = some .synReceived)
        have hstate₁ : c₁.state = some .synReceived := by
          unfold TCPConnectionImpl.updateConnectionStateAfterReceivedFinishPacket at hstate
          split at hstate <;> simp_all
        obtain ⟨hstate', hcounts⟩ := h₁ hstate₁
        exact ⟨hstate', hcounts.finish (hreaches hstate') hfin rfl⟩
  refine Outcome.Sat.mono (hcounts.and (Delivery.deliver_frame now p c' n)) ?_ fun _ _ => trivial
  rintro t ⟨ht, hframe⟩ hstate
  obtain ⟨hstate', hcounts⟩ := ht hstate
  rw [hframe.packetsBuffer, hframe.connectionDetail]
  exact ⟨(h hstate').1, hcounts, (h hstate').2.2⟩

theorem Receiving.setBuffer (h : Receiving c P c') (y : Side) {packets : List TCPPacket}
    (hpackets : c'.state = some .synReceived →
      ∀ q ∈ packets, P q ∧ Waits c'.connectionDetail y q) :
    Receiving c P (c'.setBuffer y packets) := by
  intro hstate
  obtain ⟨hstate', hcounts, hwaits⟩ := h hstate
  exact ⟨hstate', hcounts.same rfl, BySide.forall_set
    (P := fun y (l : List TCPPacket) => ∀ q ∈ l, P q ∧ Waits c'.connectionDetail y q)
    (hpackets hstate) (hwaits _)⟩

/-- The drain follows the counters. -/
theorem receiving_drain (now : Date) (c : TCPConnectionImpl) (P : TCPPacket → Prop) :
    Delivery.DeliveryRule now (fun t => Receiving c P t.connection) fun _ _ => True where
  thrown := fun _ _ _ => trivial
  drop := by
    intro c' n y q rest h hb _
    exact h.setBuffer y fun hstate => (TCPConnectionImpl.buffer_cons (h hstate).2.2 hb).2
  take := by
    intro c' n y q rest h hb hcan
    have hrest := h.setBuffer y fun hstate => (TCPConnectionImpl.buffer_cons (h hstate).2.2 hb).2
    refine Outcome.ends_const.mpr (hrest.deliver (fun hstate => ?_) (by simpa using hcan) now n)
    obtain ⟨hq, hwaits⟩ := (TCPConnectionImpl.buffer_cons (h hstate).2.2 hb).1
    exact ⟨hq, hwaits.side.symm ▸ hwaits⟩
  updated := by
    intro t h hstate
    obtain ⟨hstate', hcounts, hwaits⟩ := h hstate
    exact ⟨hstate', hcounts.same rfl, hwaits⟩

end Packet

/-! ## Runs -/

section Runs

variable {r : PacketReceiverImpl} {packet : JpcapPacket}

theorem answeredByClient_handlings (hsound : Waiting.Sound r) {now : Date}
    (hcall : Unmisled r (.pick now packet)) :
    ∀ d ∈ r.handlings now (TCPPacketImpl packet), Answers d → d.packet.side = .client := by
  -- what the drain takes from a buffer
  have hbuffered : ∀ {c : TCPConnectionImpl} {P : TCPPacket → Prop},
      (c.state = some .synReceived → ∀ q, Reaches (counted c) P (.packet q) → ¬ Misleads q) →
      ∀ {c' n y p rest}, Receiving c P c' → c'.packetsBuffer.get y = p :: rest →
        c'.isCanProcessPacket p = .ok true →
        Answers (Delivery.handling now p ⟨c'.setBuffer y rest, n⟩) → p.side = .client := by
    intro c P hcond c' n y p rest h hb hcan
    have hrest := h.setBuffer y fun hstate => (TCPConnectionImpl.buffer_cons (h hstate).2.2 hb).2
    refine hrest.answers hcond (fun hstate => ?_) (by simpa using hcan) n
    obtain ⟨hp, hwaits⟩ := (TCPConnectionImpl.buffer_cons (h hstate).2.2 hb).1
    exact ⟨hp, hwaits.side.symm ▸ hwaits⟩
  refine PacketReceiverImpl.handlings_forall ?_ ?_
  · -- a half-way connection is promoted to Established right away
    intro ref c _ _ _ hhalf hc _
    have hnone := (hsound.tables.halfWay hhalf hc).state
    refine PacketReceiverImpl.promoteHandlings_forall
      (receiving_drain now c fun _ => False)
      (hbuffered fun hstate => absurd (hnone.symm.trans hstate) nofun) ?_ ?_
    · exact fun hanswers => absurd hanswers.1 (by simp [PacketReceiverImpl.primed])
    · refine Outcome.ends_const.mpr ((TCPConnectionImpl.processDataPacket_sat now _
        (PacketReceiverImpl.primed _ c)).mono ?_ fun _ _ => trivial)
      intro c' hd hstate
      exact absurd (hd.state.symm.trans hstate) (by simp [PacketReceiverImpl.primed])
  · intro ref c hsyn hactive hc hignored hsynAck
    have hcond := hcall ref c ⟨hsyn, hactive, hc, hignored, hsynAck⟩
    have hwaits := Waiting.waits_detect (p := TCPPacketImpl packet)
      (hsound.wellFormed.deref_active hactive hc) rfl
    have horderly := hsound.tables.active hactive hc
    have hstart : Receiving c (fun q => q = packet.detected c.connectionDetail ∨ Buffered c q) c :=
      fun hstate => ⟨hstate, .start rfl, fun y q hq => ⟨Or.inr ⟨y, hq⟩, horderly.waits y q hq⟩⟩
    refine PacketReceiverImpl.processHandlings_forall (receiving_drain now c _)
      (hbuffered hcond) (fun hcan => ⟨?_, ?_⟩) fun _ => ?_
    · exact hstart.answers hcond (fun _ => ⟨Or.inl rfl, hwaits⟩) hcan 0
    · exact Outcome.ends_const.mpr
        (hstart.deliver (fun _ => ⟨Or.inl rfl, hwaits⟩) hcan now 0)
    · exact hstart.setBuffer _ fun hstate =>
        PacketReceiverImpl.forall_mem_add (hstart hstate).2.2 ⟨Or.inl rfl, hwaits⟩

/-- In a run in which no packet misleads, only packets of the client end a
handshake. -/
theorem answeredByClient_of_unmisled {filter : ConnectionFilter} {calls : List Call}
    (hcalls : Run.Along PacketReceiverImpl.step Unmisled (PacketReceiverImpl.create filter) calls) :
    Run.Along PacketReceiverImpl.step AnsweredByClient (PacketReceiverImpl.create filter) calls := by
  refine Run.along_of_invariant (I := Waiting.Sound) (fun r call h hcall =>
    ⟨?_, Waiting.sound_step h call⟩) (Waiting.sound_create filter) hcalls
  cases call with
  | pick now packet => exact answeredByClient_handlings h hcall
  | _ => trivial

end Runs

end Answering

end ConnectionSniffer
