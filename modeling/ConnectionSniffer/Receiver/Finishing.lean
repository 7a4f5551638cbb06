import ConnectionSniffer.Receiver.Handlings
import ConnectionSniffer.Receiver.Reach
import ConnectionSniffer.Receiver.Refusals

/-!
# Finished streams and finished connections

A packet with data and FIN ends the stream of its direction and moves its
counter by one beyond the payload, and a connection with both streams ended
leaves the table.  `handlePacket` does the first and the last statement of
`pick` the second.  The promotion of a half-way connection does neither: it
hands its packet to the data handler alone, and it returns without that
last statement, although its drain may have ended both streams.  A handler
that throws skips the last statement, too.

`StaysOpen` says that none of the packets that may be handled ends the
stream of one side, and `within_drain` that this side's stream is open,
however the drain ends.  Outside a promotion it is enough that the drain
can refuse nothing, for then it returns and `pick` comes to its last
statement.
-/

namespace ConnectionSniffer

namespace Finishing

open Promotion (Promotes Unheard Ready)
open Reach (Buffered Counts Processes Reaches)
open Refusals (Stops Unrefused atHand started)
open Waiting (Waits)

/-! ## What finishing means -/

/-- A packet with data and FIN that was appended has ended its direction. -/
def Settled (d : Handling) : Prop :=
  d.outcome.isReturned = true → d.packet.isContainsData = true → d.packet.fin = true →
    (d.outcome.state.inputStream.get d.packet.side).isFinished = true ∧
      (d.outcome.state.counter.get d.packet.side).seq =
        d.packet.sequence + d.packet.data.length + 1

instance (d : Handling) : Decidable (Settled d) := inferInstanceAs (Decidable (_ → _ → _ → _))

/-- No active connection has both streams finished. -/
def NoneFinished (r : PacketReceiverImpl) : Prop :=
  PacketReceiverImpl.Tables (fun c => c.isFinished = false) (fun _ => True) r

/-- A `pick` that returns leaves no finished connection in the table, and
has ended the direction of each data packet with FIN that it handled. -/
def Finishes (r : PacketReceiverImpl) : Call → Prop
  | .pick now packet =>
    (r.pick now (TCPPacketImpl packet)).isReturned = true →
      NoneFinished (r.step (.pick now packet)) ∧
        ∀ d ∈ r.handlings now (TCPPacketImpl packet), Settled d
  | _ => True

/-! ## What keeps a connection open -/

/-- The stream of side `x` is open, and neither a FIN of this side nor a RST
is among the packets that may be handled. -/
structure StaysOpen (c : TCPConnectionImpl) (P : TCPPacket → Prop) (x : Side) : Prop where
  isOpen : (c.inputStream.get x).isFinished = false
  fin : ∀ q, Reaches c P (.packet q) → q.side = x → q.fin = false
  rst : ∀ q, Reaches c P (.packet q) → q.rst = false

/-- No throw out of `process` skips the removal of a connection with both
streams finished: a RST that is handled at once is not refused by a later
handler, and where a drain follows it can refuse nothing or leaves a side
open. -/
structure KeepsRemoval (p : TCPPacket) (c : TCPConnectionImpl) : Prop where
  rst : c.isCanProcessPacket p = .ok true → p.rst = true → ¬ Stops p c
  drain : (c.isCanProcessPacket p = .ok true → p.fin = true) →
    Unrefused c (atHand p c) ∨ ∃ x, StaysOpen c (fun q => q = p ∨ Buffered c q) x

/-- A promoting packet has no FIN, a side stays open in each promotion, and
no throw skips the removal of a finished connection. -/
def KeepsOpen (r : PacketReceiverImpl) (call : Call) : Prop :=
  Buffering.Ordinary r call ∧
    match call with
    | .pick _ packet =>
      (∀ ref c p, Promotes r packet ref c p → packet.fin = false ∧
        ∃ x, StaysOpen (started (packet.detected c.connectionDetail) c) (Buffered c) x) ∧
      ∀ ref c, Processes r packet ref c → KeepsRemoval (packet.detected c.connectionDetail) c
    | _ => True

/-! ## The drain of a connection that stays open -/

section Drain

variable {now : Date} {p : TCPPacket} {c c' c'' : TCPConnectionImpl} {P : TCPPacket → Prop}
  {x : Side}

/-- Counters and state are where they may have come to, and the stream of
side `x` is open. -/
structure Going (c : TCPConnectionImpl) (P : TCPPacket → Prop) (x : Side)
    (c' : TCPConnectionImpl) : Prop extends Counts c P c' where
  state : c'.state = some .synReceived → c.state = some .synReceived
  isOpen : (c'.inputStream.get x).isFinished = false

/-- A handler that moves the counter of the packet's sender behind the
payload. -/
theorem Going.update (h : Going c P x c') (hp : Reaches c P (.packet p))
    (hcounter : c''.counter = c'.counter.update p.side p)
    (hstate : c''.state = some .synReceived → c'.state = some .synReceived)
    (hopen : (c''.inputStream.get x).isFinished = false) : Going c P x c'' :=
  ⟨h.toCounts.update hp hcounter, fun h' => h.state (hstate h'), hopen⟩

theorem going_processAckPacket (h : Going c P x c') (hp : Reaches c P (.packet p)) :
    (c'.processAckPacket p).Sat (Going c P x) (Going c P x) := by
  unfold TCPConnectionImpl.processAckPacket
  split
  · exact h
  · rename_i hstate
    unfold TCPConnectionImpl.processHandshake3AckPacket
    split
    · exact h
    · exact ⟨h.toCounts.handshake hp (h.state hstate) rfl, by simp, h.isOpen⟩
  · exact h.update hp rfl (by simp [TCPConnectionImpl.processFinishWait1AckPacket]) h.isOpen
  · exact h.update hp rfl (by simp [TCPConnectionImpl.processLastAckPacket]) h.isOpen
  · exact h

theorem going_processDataPacket (h : Going c P x c') (hp : Reaches c P (.packet p)) :
    (c'.processDataPacket now p).Sat (Going c P x) (Going c P x) := by
  refine (TCPConnectionImpl.processDataPacket_sat now p c').mono ?_ ?_
  · intro c'' hd
    refine h.update hp hd.counter (fun h' => hd.state ▸ h') ?_
    rcases Side.eq_or_eq_other p.side x with rfl | rfl
    · exact hd.is_open
    · exact hd.other_isFinished.trans h.isOpen
  · intro c'' hd
    exact ⟨h.toCounts.same hd.counter, fun h' => h.state (hd.state ▸ h'),
      (hd.sameBytes.isFinished x).trans h.isOpen⟩

theorem going_processFinishPacket (now : Date) (h : Going c P x c')
    (hp : Reaches c P (.packet p)) (hfin : p.fin = true) (hside : p.side ≠ x) :
    Going c P x (c'.processFinishPacket now p) where
  toCounts := h.toCounts.finish hp hfin (TCPConnectionImpl.processFinishPacket_counter ..)
  state := by
    intro h'
    refine h.state ?_
    rw [TCPConnectionImpl.processFinishPacket_state] at h'
    unfold TCPConnectionImpl.updateConnectionStateAfterReceivedFinishPacket at h'
    split at h' <;> simp_all
  isOpen := by
    obtain rfl := Side.eq_other_of_ne (Ne.symm hside)
    rw [(TCPConnectionImpl.processFinishPacket_streams now p c').2.2]
    exact h.isOpen

/-- The handlers of a packet leave the side open. -/
theorem going_deliver (now : Date) (hstays : StaysOpen c P x) (h : Going c P x c')
    (hp : Reaches c P (.packet p)) (n : Nat) :
    (Delivery.deliver now p ⟨c', n⟩).Leaves (Going c P x) (Going c P x) := by
  refine Delivery.deliver_leaves (R := Going c P x) (A := Going c P x) (D := Going c P x)
    ?_ ?_ ?_ ?_ ?_ ?_
  · rw [hstays.rst p hp]
    exact h
  · intro c₁ h₁ _
    exact going_processAckPacket h₁ hp
  · intro c₁ h₁ _
    exact h₁
  · intro c₁ h₁ _
    exact going_processDataPacket h₁ hp
  · intro c₁ h₁ _
    exact h₁
  · intro c₁ h₁
    cases hfin : p.fin with
    | true =>
      have hside : p.side ≠ x := fun hside => by
        rw [hstays.fin p hp hside] at hfin
        exact absurd hfin (by decide)
      have hf := going_processFinishPacket now h₁ hp hfin hside
      exact ⟨hf.toCounts.same rfl, hf.state, hf.isOpen⟩
    | false => exact ⟨h₁.toCounts.same rfl, h₁.state, h₁.isOpen⟩

/-- The packets of `P` wait in the buffers, and the connection goes where it
may. -/
structure Within (c : TCPConnectionImpl) (P : TCPPacket → Prop) (x : Side)
    (c' : TCPConnectionImpl) : Prop extends Going c P x c' where
  waits : ∀ y, ∀ q ∈ c'.packetsBuffer.get y, P q ∧ Waits c'.connectionDetail y q

theorem Within.deliver (now : Date) (hstays : StaysOpen c P x) (h : Within c P x c') (hp : P p)
    {y : Side} (hwaits : Waits c'.connectionDetail y p)
    (hcan : c'.isCanProcessPacket p = .ok true) (n : Nat) :
    (Delivery.deliver now p ⟨c', n⟩).Leaves (Within c P x)
      fun c'' => (c''.inputStream.get x).isFinished = false := by
  have hreaches := h.toCounts.reaches hp hwaits.direction hcan
  have hboth := (going_deliver now hstays h.toGoing hreaches n).and
    (Delivery.deliver_frame now p c' n)
  refine Outcome.Sat.mono hboth ?_ fun _ hgoing => hgoing.1.isOpen
  rintro t ⟨hgoing, hframe⟩
  refine ⟨hgoing, ?_⟩
  rw [hframe.packetsBuffer, hframe.connectionDetail]
  exact h.waits

theorem Within.setBuffer (h : Within c P x c') (y : Side) {packets : List TCPPacket}
    (hpackets : ∀ q ∈ packets, P q ∧ Waits c'.connectionDetail y q) :
    Within c P x (c'.setBuffer y packets) :=
  ⟨⟨h.toCounts.same rfl, h.state, h.isOpen⟩, BySide.forall_set
    (P := fun y (l : List TCPPacket) => ∀ q ∈ l, P q ∧ Waits c'.connectionDetail y q)
    hpackets (h.waits _)⟩

/-- Whatever the drain handles, and whether it returns or throws, the side
stays open. -/
theorem within_drain (now : Date) (hstays : StaysOpen c P x) :
    Delivery.DrainInvariant now (Within c P x)
      fun c' => (c'.inputStream.get x).isFinished = false where
  thrown := fun _ h => h.isOpen
  drop := by
    intro c' y q rest h hb _
    exact h.setBuffer y (TCPConnectionImpl.buffer_cons h.waits hb).2
  take := by
    intro c' n y q rest h hb hcan
    have hrest : Within c P x (c'.setBuffer y rest) :=
      h.setBuffer y (TCPConnectionImpl.buffer_cons h.waits hb).2
    obtain ⟨hq, hwaits⟩ := (TCPConnectionImpl.buffer_cons h.waits hb).1
    exact hrest.deliver now hstays hq hwaits (by simpa using hcan) n
  updated := fun h => ⟨⟨h.toCounts.same rfl, h.state, h.isOpen⟩, h.waits⟩

theorem promote_staysOpen (now : Date) {t : TCPPacket} (h : Unheard c)
    (hstays : StaysOpen (started t c) (Buffered c) x) :
    (PacketReceiverImpl.promote now t c).Leaves
      (fun c' => (c'.inputStream.get x).isFinished = false)
      fun c' => (c'.inputStream.get x).isFinished = false := by
  have hpromote := PacketReceiverImpl.promote_leaves (p := t) (c := c)
    (within_drain now hstays) ?_
  · exact Outcome.Sat.mono hpromote (fun _ ht => ht.isOpen) fun _ ht => ht
  have hboth := (TCPConnectionImpl.processDataPacket_sat now t
    (PacketReceiverImpl.primed t c)).and (Delivery.processDataPacket_frame now t _)
  refine hboth.mono ?_ fun _ hd => (hd.1.sameBytes.isFinished x).trans (h.isOpen x)
  rintro c' ⟨hd, hframe⟩
  have hcounter : c'.counter = (started t c).counter := hd.counter
  refine ⟨⟨.start hcounter, ?_, ?_⟩, ?_⟩
  · intro hstate
    exact hd.state.symm.trans hstate
  · show (c'.inputStream.get x).isFinished = false
    rcases Side.eq_or_eq_other t.side x with rfl | rfl
    · exact hd.is_open
    · exact hd.other_isFinished.trans (h.isOpen _)
  · intro y q hq
    have hbuffer : q ∈ c.packetsBuffer.get y := by
      rw [← show c'.packetsBuffer = c.packetsBuffer from hframe.packetsBuffer]
      exact hq
    have hdetail : c'.connectionDetail = c.connectionDetail := hframe.connectionDetail
    exact ⟨⟨y, hbuffer⟩, hdetail ▸ h.waits y q hbuffer⟩

theorem process_staysOpen (now : Date) {t : TCPPacket} (h : Waiting.Orderly c)
    (ht : Waits c.connectionDetail t.side t)
    (hstays : StaysOpen c (fun q => q = t ∨ Buffered c q) x) :
    (PacketReceiverImpl.process now t c).Leaves
      (fun c' => (c'.inputStream.get x).isFinished = false)
      fun c' => (c'.inputStream.get x).isFinished = false := by
  have hwithin : Within c (fun q => q = t ∨ Buffered c q) x c :=
    ⟨⟨.start rfl, fun hstate => hstate, hstays.isOpen⟩,
      fun y q hq => ⟨Or.inr ⟨y, hq⟩, h.waits y q hq⟩⟩
  have hprocess := PacketReceiverImpl.process_leaves (p := t) (within_drain now hstays) hwithin
    (fun hcan => hwithin.deliver now hstays (Or.inl rfl) ht hcan 0) fun _ => ?_
  · exact Outcome.Sat.mono hprocess (fun _ hc' => hc'.isOpen) fun _ hc' => hc'
  exact hwithin.setBuffer t.side
    (PacketReceiverImpl.forall_mem_add hwithin.waits ⟨Or.inl rfl, ht⟩)

theorem not_isFinished_of_isOpen {c : TCPConnectionImpl} {x : Side}
    (h : (c.inputStream.get x).isFinished = false) : c.isFinished = false := by
  by_contra hfinished
  have hx := TCPConnectionImpl.isFinished_iff.mp (by simpa using hfinished) x
  rw [h] at hx
  exact absurd hx (by decide)

/-- A handler that throws on a packet without RST has finished no stream. -/
theorem isFinished_of_thrown (now : Date) (hrst : p.rst = false) (n : Nat) :
    (Delivery.deliver now p ⟨c, n⟩).Leaves (fun _ => True)
      fun c' => c'.isFinished = c.isFinished := by
  refine Delivery.deliver_leaves (R := fun c' => c'.inputStream = c.inputStream)
    (A := fun c' => c'.inputStream = c.inputStream) (D := fun _ => True) ?_ ?_ (fun _ h _ => h) ?_
    (fun _ _ _ => trivial) fun _ _ => trivial
  · rw [hrst]
    rfl
  · intro c' h _
    have hsame : c'.isFinished = c.isFinished := by
      unfold TCPConnectionImpl.isFinished
      rw [h]
    unfold TCPConnectionImpl.processAckPacket TCPConnectionImpl.processHandshake3AckPacket
    split
    · exact hsame
    · split
      · exact hsame
      · exact h
    all_goals exact h
  · intro c' h _
    refine (TCPConnectionImpl.processDataPacket_sat now p c').mono (fun _ _ => trivial) ?_
    intro c'' hd
    have hsame := hd.sameBytes
    rw [h] at hsame
    exact hsame.isFinished_eq

/-- After a throw the connection is not finished, if it was not before. -/
theorem process_keepsRemoval (now : Date) (h : Waiting.Orderly c) (hs : Streams.SaneStreams c)
    (hp : Waits c.connectionDetail p.side p) (hfits : p.data.length < 2 ^ 16)
    (hopen : c.isFinished = false) (hkeep : KeepsRemoval p c) :
    (PacketReceiverImpl.process now p c).Sat (fun _ => True)
      fun t => t.connection.isFinished = false := by
  by_cases hdrain : c.isCanProcessPacket p = .ok true → p.fin = true
  · rcases hkeep.drain hdrain with hunrefused | ⟨x, hstays⟩
    · refine Outcome.ends_const.mp
        ((Refusals.process_unrefused now h hs hp hfits hunrefused).mono (fun _ ht => ht) ?_)
      rintro e t ⟨-, rfl⟩
      exact hopen
    · exact (process_staysOpen now h hp hstays).mono (fun _ _ => trivial)
        fun _ ht => not_isFinished_of_isOpen ht
  · rw [Classical.not_imp, Bool.not_eq_true] at hdrain
    obtain ⟨hcan, hfin⟩ := hdrain
    have hleft := Refusals.deliver_left now h.state hs.sane hfits 0
    unfold PacketReceiverImpl.process Delivery.handlePacket
    rw [hcan]
    dsimp only
    cases hrst : p.rst with
    | true =>
      cases hd : Delivery.deliver now p ⟨c, 0⟩ with
      | returned t => simp [hfin]
      | thrown e t =>
        rw [hd] at hleft
        exact absurd hleft.1 (hkeep.rst hcan hrst)
    | false =>
      have hthrown := isFinished_of_thrown (c := c) now hrst 0
      cases hd : Delivery.deliver now p ⟨c, 0⟩ with
      | returned t => simp [hfin]
      | thrown e t =>
        rw [hd] at hthrown
        exact hthrown.trans hopen

end Drain

/-! ## The packet with data and FIN -/

section Settled

variable {now : Date}

/-- `handlePacket` sees to it. -/
theorem settled_handling (p : TCPPacket) (t : Delivery) : Settled (t.handling now p) := by
  intro hreturned _ hfin
  have hdeliver : (Delivery.deliver now p t).Leaves (fun c' =>
      (c'.inputStream.get p.side).isFinished = true ∧
        (c'.counter.get p.side).seq = p.sequence + p.data.length + 1) fun _ => True := by
    refine Delivery.deliver_leaves (R := fun _ => True) (A := fun _ => True) (D := fun _ => True)
      (c := t.connection) (n := t.announced) trivial ?_ (fun _ _ _ => trivial) ?_
      (fun _ _ _ => trivial) ?_
    · intro c _ _
      cases c.processAckPacket p <;> trivial
    · intro c _ _
      cases c.processDataPacket now p <;> trivial
    · intro c _
      rw [if_pos (show p.fin = true from hfin)]
      refine ⟨(TCPConnectionImpl.processFinishPacket_streams now p c).2.1, ?_⟩
      show ((c.processFinishPacket now p).counter.get p.side).seq = _
      rw [TCPConnectionImpl.processFinishPacket_counter, SequenceCounter.get_sequenceAddOne,
        SequenceCounter.get_update, updateCounter_seq]
  unfold Delivery.handling at hreturned ⊢
  rw [Outcome.isReturned_map] at hreturned
  rw [Outcome.state_map]
  exact hdeliver.of_isReturned hreturned

/-- The data handler alone does it exactly for a packet without FIN. -/
theorem settled_processDataPacket_iff {p : TCPPacket} {c : TCPConnectionImpl}
    (hreturned : (c.processDataPacket now p).isReturned = true)
    (hdata : p.isContainsData = true) :
    Settled ⟨p, c, c.processDataPacket now p⟩ ↔ p.fin = false := by
  have hopen := ((TCPConnectionImpl.processDataPacket_sat now p c).of_isReturned hreturned).is_open
  constructor
  · intro hsettled
    by_contra hfin
    have hfinished := (hsettled hreturned hdata (by simpa using hfin)).1
    rw [hopen] at hfinished
    exact absurd hfinished (by decide)
  · intro hfin _ _ hfin'
    rw [show p.fin = true from hfin'] at hfin
    exact absurd hfin (by decide)

end Settled

/-! ## Runs -/

section Runs

variable {r : PacketReceiverImpl} {packet : JpcapPacket}

/-- The last statement of `pick`. -/
theorem noneFinished_removeIfFinished (hwf : PacketReceiverImpl.WellFormed r)
    (h : NoneFinished r) {ref : Ref} {c : TCPConnectionImpl} {t : Delivery}
    (hc : r.deref ref = some c) (hdetail : t.connection.connectionDetail = c.connectionDetail) :
    NoneFinished ((r.commit ref t).removeIfFinished ref) := by
  have hself : (r.commit ref t).deref ref = some t.connection :=
    PacketReceiverImpl.deref_store_self hc
  refine ⟨?_, fun _ _ => trivial⟩
  intro key ref' c' hget hc'
  rw [PacketReceiverImpl.deref_removeIfFinished] at hc'
  unfold PacketReceiverImpl.removeIfFinished at hget
  simp only [hself] at hget
  by_cases hne : ref = ref'
  · subst hne
    obtain rfl := Option.some.inj (hself.symm.trans hc')
    by_contra hfinished
    rw [if_pos (by simpa using hfinished)] at hget
    simp only [HashMap.get_remove] at hget
    split at hget
    · exact absurd hget (by simp)
    · rename_i hkey
      exact hkey ((hwf.commit hc hdetail).deref_active hget hself)
  · have hold : r.deref ref' = some c' := by
      rwa [PacketReceiverImpl.deref_commit, PacketReceiverImpl.deref_store_ne hne] at hc'
    have hget' : r.activeConnections.get key = some ref' := by
      split at hget
      · simp only [HashMap.get_remove] at hget
        split at hget
        · exact absurd hget (by simp)
        · exact hget
      · exact hget
    exact h.active hget' hold

/-- The invariant of the run. -/
structure Unfinished (r : PacketReceiverImpl) : Prop where
  ready : Ready r
  streams : PacketReceiverImpl.Tables Streams.SaneStreams Streams.SaneStreams r
  none : NoneFinished r

theorem unfinished_create (filter : ConnectionFilter) :
    Unfinished (PacketReceiverImpl.create filter) :=
  ⟨Promotion.ready_create filter, PacketReceiverImpl.tables_create _ _ filter,
    PacketReceiverImpl.tables_create _ _ filter⟩

theorem noneFinished_pick (hinv : Unfinished r) {now : Date}
    (hcall : KeepsOpen r (.pick now packet)) : NoneFinished (r.step (.pick now packet)) := by
  obtain ⟨hordinary, hpromotes, hprocesses⟩ := hcall
  have hready := hinv.ready
  have h := hinv.none
  have hwf := hready.wellFormed
  have hp := PacketReceiverImpl.picked_pick now (TCPPacketImpl packet) r
  show NoneFinished (r.pick now (TCPPacketImpl packet)).state
  generalize r.pick now (TCPPacketImpl packet) = o at hp
  cases hp with
  | rejected => exact h
  | opened hsyn =>
    exact h.open_active hwf (c := PacketReceiverImpl.synConnection now (TCPPacketImpl packet)) rfl
  | noPayload => exact h
  | candidate =>
    exact h.open_halfWay hwf
      (c := PacketReceiverImpl.halfWayConnection now (TCPPacketImpl packet)) trivial
  | @promoted ref c hsyn hactive hdata hhalf hc hdone =>
    obtain ⟨p, hp, hanswers⟩ := List.any_eq_true.mp hdone
    obtain ⟨-, x, hstays⟩ := hpromotes ref c p ⟨hsyn, hactive, hdata, hhalf, hc, hp, hanswers⟩
    have hleft := (promote_staysOpen now (hready.tables.halfWay hhalf hc) hstays).state
    rw [Outcome.state_map]
    have hstored := h.store_moved hwf (fun _ hA => hA) hc (not_isFinished_of_isOpen hleft)
    exact ⟨hstored.active, hstored.halfWay⟩
  | buffered hsyn hactive hdata hhalf hc hdone =>
    rw [Outcome.state_map]
    exact h.store_halfWay hwf hhalf hc trivial
  | danglingHalfWay => exact h
  | danglingActive => exact h
  | ignored => exact h
  | answered hsyn hactive hc hignored hsynAck =>
    rw [Outcome.state_map]
    refine h.store_active hwf (fun _ hA => hA) hactive hc ?_
    have hfinished := h.active hactive hc
    unfold TCPConnectionImpl.processSyncAckPacket
    split <;> exact hfinished
  | @processed ref c hsyn hactive hc hignored hsynAck =>
    have hdetail := PacketReceiverImpl.process_detail now
      ((TCPPacketImpl packet).detectPacketFlowDirection c.connectionDetail) c
    have hwaits := Waiting.waits_detect (p := TCPPacketImpl packet) (hwf.deref_active hactive hc) rfl
    have hleft := process_keepsRemoval now (hready.tables.active hactive hc)
      (hinv.streams.active hactive hc) hwaits hordinary.1 (h.active hactive hc)
      (hprocesses ref c ⟨hsyn, hactive, hc, hignored, hsynAck⟩)
    cases ho : PacketReceiverImpl.process now
        ((TCPPacketImpl packet).detectPacketFlowDirection c.connectionDetail) c with
    | returned t =>
      rw [ho] at hdetail
      exact noneFinished_removeIfFinished hwf h hc hdetail
    | thrown e t =>
      rw [ho] at hleft
      have hstored := h.store_active hwf (fun _ hA => hA) hactive hc hleft
      exact ⟨hstored.active, hstored.halfWay⟩

theorem unfinished_step (h : Unfinished r) {call : Call} (hcall : KeepsOpen r call) :
    Unfinished (r.step call) := by
  refine ⟨Promotion.ready_step h.ready call,
    Streams.saneStreams_step h.ready.wellFormed h.streams hcall.1.1, ?_⟩
  cases call with
  | pick now packet => exact noneFinished_pick h hcall
  | _ =>
    refine h.none.step_other ?_ (fun _ _ => trivial) nofun
    intro c c' ⟨_, hread, hsame, _⟩ hc
    subst hread
    exact (TCPConnectionImpl.SameBytes.isFinished_eq hsame).trans hc

theorem settled_handlings {now : Date} (hcall : KeepsOpen r (.pick now packet)) :
    ∀ d ∈ r.handlings now (TCPPacketImpl packet), Settled d := by
  have hrule : Delivery.DeliveryRule now (fun _ => True) fun _ _ => True :=
    { thrown := fun _ _ _ => trivial
      drop := fun _ _ _ => trivial
      take := fun {c n x p rest} _ _ _ => by
        cases Delivery.deliver now p ⟨c.setBuffer x rest, n⟩ <;> trivial
      updated := fun _ => trivial }
  refine PacketReceiverImpl.handlings_forall ?_ ?_
  · intro ref c hsyn hactive hdata hhalf hc hdone
    obtain ⟨p, hp, hanswers⟩ := List.any_eq_true.mp hdone
    obtain ⟨hfin, -⟩ := hcall.2.1 ref c p ⟨hsyn, hactive, hdata, hhalf, hc, hp, hanswers⟩
    refine PacketReceiverImpl.promoteHandlings_forall hrule
      (fun _ _ _ => settled_handling _ _) ?_ ?_
    · exact fun hreturned => (settled_processDataPacket_iff hreturned hdata).mpr hfin hreturned
    · cases (PacketReceiverImpl.primed _ c).processDataPacket now _ <;> trivial
  · intro ref c _ _ _ _ _
    refine PacketReceiverImpl.processHandlings_forall hrule
      (fun _ _ _ => settled_handling _ _) (fun _ => ⟨settled_handling _ _, ?_⟩) fun _ => trivial
    cases Delivery.deliver now _ ⟨c, 0⟩ <;> trivial

/-- In every run in which the promoting packets have no FIN, a side stays
open in each promotion and no throw skips the removal, each `pick` that
returns does what it should, and no active connection is ever finished. -/
theorem finishes_of_keepsOpen (filter : ConnectionFilter) {calls : List Call}
    (hcalls : Run.Along PacketReceiverImpl.step KeepsOpen (PacketReceiverImpl.create filter)
      calls) :
    Run.Along PacketReceiverImpl.step Finishes (PacketReceiverImpl.create filter) calls ∧
      Run.Throughout PacketReceiverImpl.step NoneFinished (PacketReceiverImpl.create filter)
        calls := by
  have hstep : ∀ r call, Unfinished r → KeepsOpen r call → Unfinished (r.step call) :=
    fun _ _ h hcall => unfinished_step h hcall
  have hcreate := unfinished_create filter
  refine ⟨?_, (Run.throughout hstep hcreate hcalls).mono fun _ h => h.none⟩
  refine Run.along_of_invariant (fun r call h hcall => ⟨?_, hstep r call h hcall⟩) hcreate hcalls
  cases call with
  | pick now packet => exact fun _ => ⟨(hstep r _ h hcall).none, settled_handlings hcall⟩
  | _ => trivial

/-- A half-way connection is promoted without a FIN, and both sides end it
afterwards. -/
theorem finishes_of_keepsOpen_halfWay :
    let client := InetAddress.inet4 10 0 0 1
    let server := InetAddress.inet4 10 0 0 2
    let up (sequence ackNum : Nat) (fin : Bool) (data : List UInt8) : JpcapPacket :=
      ⟨client, server, 50000, 80, sequence, ackNum, true, false, false, fin, data, 0⟩
    let down (sequence ackNum : Nat) (fin : Bool) (data : List UInt8) : JpcapPacket :=
      ⟨server, client, 80, 50000, sequence, ackNum, true, false, false, fin, data, 0⟩
    let calls : List Call := [.pick 0 (up 100 500 false [1, 2]), .pick 1 (down 500 102 false [3]),
      .pick 2 (up 102 501 true [4]), .pick 3 (down 501 104 true [5])]
    Run.Along PacketReceiverImpl.step Finishes (PacketReceiverImpl.create {}) calls ∧
      Run.Throughout PacketReceiverImpl.step NoneFinished (PacketReceiverImpl.create {}) calls := by
  intro client server up down calls
  have hprocesses : ∀ {r : PacketReceiverImpl} {packet : JpcapPacket},
      r.activeConnections.get packet.connectionDetail = some 0 →
      (∀ c ∈ r.deref 0, (packet.detected c.connectionDetail).rst = false ∧
        Unrefused c (atHand (packet.detected c.connectionDetail) c)) →
      ∀ ref c, Processes r packet ref c → KeepsRemoval (packet.detected c.connectionDetail) c := by
    intro r packet hactive hall ref c h
    obtain rfl := Option.some.inj (hactive.symm.trans h.active)
    obtain ⟨hrst, hunrefused⟩ := hall c h.deref
    exact ⟨fun _ hrst' => absurd (hrst.symm.trans hrst') (by decide), fun _ => Or.inl hunrefused⟩
  refine @finishes_of_keepsOpen {} calls ⟨⟨by decide, ?_, ?_⟩, ⟨by decide, ?_, ?_⟩,
    ⟨by decide, ?_, ?_⟩, ⟨by decide, ?_, ?_⟩, trivial⟩
  · exact fun ref c p h => absurd h.halfWay (by simp [PacketReceiverImpl.create])
  · exact fun ref c h => absurd h.active (by simp [PacketReceiverImpl.create])
  · -- the buffers hold the first packet alone, which has no flags
    intro ref c p h
    have hhalf : (PacketReceiverImpl.step (PacketReceiverImpl.create {})
        (.pick 0 (up 100 500 false [1, 2]))).halfWayConnections.get
        (down 500 102 false [3]).connectionDetail = some 0 := by decide
    have hplain : ∀ c ∈ (PacketReceiverImpl.step (PacketReceiverImpl.create {})
        (.pick 0 (up 100 500 false [1, 2]))).deref 0,
        (c.inputStream.get .server).isFinished = false ∧
          (∀ q ∈ c.packetsBuffer.client, q.fin = false ∧ q.rst = false) ∧
          c.packetsBuffer.server = [] := by decide
    obtain rfl := Option.some.inj (hhalf.symm.trans h.halfWay)
    obtain ⟨hopen, hclient, hserver⟩ := hplain c h.deref
    have hflags : ∀ q, Buffered c q → q.fin = false ∧ q.rst = false := by
      rintro q ⟨x, hx⟩
      cases x with
      | client => exact hclient q hx
      | server => exact absurd hx (by simp [hserver])
    exact ⟨rfl, .server, hopen, fun q hq _ => (hflags q hq.mem).1, fun q hq => (hflags q hq.mem).2⟩
  · intro ref c h
    have hnone : (PacketReceiverImpl.step (PacketReceiverImpl.create {})
        (.pick 0 (up 100 500 false [1, 2]))).activeConnections.get
        (down 500 102 false [3]).connectionDetail = none := by decide
    exact absurd (hnone.symm.trans h.active) (by simp)
  · exact fun ref c p h => absurd h.inactive (by decide)
  · exact hprocesses (by decide) (by decide)
  · exact fun ref c p h => absurd h.inactive (by decide)
  · exact hprocesses (by decide) (by decide)

/-- Three runs after which a `pick` returns and has not done what it should:
the promoting packet has a FIN, which nobody looks at; the drain of the
promotion ends both streams, and the connection stays; a RST with payload
has ended both streams and thrown. -/
theorem promotion_skips_finish :
    let client := InetAddress.inet4 10 0 0 1
    let server := InetAddress.inet4 10 0 0 2
    let up (sequence ackNum : Nat) (rst fin : Bool) (data : List UInt8) : JpcapPacket :=
      ⟨client, server, 50000, 80, sequence, ackNum, true, rst, false, fin, data, 0⟩
    let down (sequence ackNum : Nat) (fin : Bool) (data : List UInt8) : JpcapPacket :=
      ⟨server, client, 80, 50000, sequence, ackNum, true, false, false, fin, data, 0⟩
    let after (calls : List Call) : PacketReceiverImpl :=
      Run.after PacketReceiverImpl.step (PacketReceiverImpl.create {}) calls
    ¬ Finishes (after [.pick 0 (up 100 500 false false [1, 2])]) (.pick 1 (down 500 102 true [3])) ∧
      ¬ Finishes (after [.pick 0 (up 100 500 false false [1, 2]),
        .pick 1 (up 102 501 false true [4]), .pick 2 (down 501 102 true [5])])
        (.pick 3 (down 500 102 false [3])) ∧
      ¬ Finishes (after [.pick 0 (up 100 500 false false [1, 2]), .pick 1 (down 500 102 false [3]),
        .pick 2 (up 102 501 true false [4])]) (.pick 3 (up 100 500 false false [])) := by
  intro client server up down after
  have hstays : ∀ {r : PacketReceiverImpl}, NoneFinished r →
      r.activeConnections.get ⟨client, server, 50000, 80⟩ = some 0 →
      ∀ c ∈ r.deref 0, c.isFinished = false := fun h hactive c hc => h.active hactive hc
  refine ⟨fun h => ?_, fun h => ?_, fun h => ?_⟩
  · exact absurd (h (by decide)).2 (by decide)
  · exact absurd (hstays (h (by decide)).1 (by decide)) (by decide)
  · exact absurd (hstays (h (by decide)).1 (by decide)) (by decide)

end Runs

end Finishing

end ConnectionSniffer
