import ConnectionSniffer.Receiver.Buffering
import ConnectionSniffer.Receiver.Coverage
import ConnectionSniffer.Receiver.Gaps
import ConnectionSniffer.Receiver.States

/-!
# A drain that finds no payload, RST or FIN

Where every packet that waits at a counter is `Idle`, the drain takes these
packets and no others.  They move no counter and end no stream, but an ACK
among them may change the state.  `Drained` is the invariant, and
`idle_drain` says that such a drain never throws and that nothing is left at
the counters.
-/

namespace ConnectionSniffer

namespace IdleDrain

open Refusals (Stops deliver_left)
open Streams (SaneStreams)
open Waiting (Orderly)

/-- A packet without payload, RST and FIN. -/
def Idle (q : TCPPacket) : Prop := q.isContainsData = false ∧ q.rst = false ∧ q.fin = false

instance (q : TCPPacket) : Decidable (Idle q) := inferInstanceAs (Decidable (_ ∧ _ ∧ _))

/-- A connection whose drain takes only idle packets. -/
structure Quiescent (c : TCPConnectionImpl) : Prop where
  orderly : Orderly c
  streams : SaneStreams c
  ordered : Buffering.Ordered c
  state : c.state ≠ some .synSent ∧ c.state ≠ some .synReceived
  idle : ∀ x, ∀ q ∈ c.packetsBuffer.get x, q.sequence = (c.counter.get x).seq → Idle q

/-- An ACK waits at a counter. -/
def Acked (c : TCPConnectionImpl) : Prop :=
  ∃ x, ∃ q ∈ c.packetsBuffer.get x, q.sequence = (c.counter.get x).seq ∧ q.ack = true

/-- The drain that began at `c` has come to `c'`: it has taken nothing that
lies before the counters, and the state has changed if it has taken an
ACK. -/
structure Drained (c c' : TCPConnectionImpl) : Prop where
  detail : c'.connectionDetail = c.connectionDetail
  next : ∀ x, (c'.counter.get x).seq = (c.counter.get x).seq
  finished : ∀ x, (c'.inputStream.get x).isFinished = (c.inputStream.get x).isFinished
  streams : SaneStreams c'
  left : ∀ x, (c'.packetsBuffer.get x).Sublist (c.packetsBuffer.get x)
  kept : ∀ x, ∀ q ∈ c.packetsBuffer.get x, (c.counter.get x).seq < q.sequence →
    q ∈ c'.packetsBuffer.get x
  state : (c'.state = c.state ∧ ∀ x, ∀ q ∈ c.packetsBuffer.get x,
      q.sequence = (c.counter.get x).seq → q.ack = true → q ∈ c'.packetsBuffer.get x) ∨
    c'.state = States.acknowledged c.state ∧ Acked c

section Drain

variable {now : Date} {c c' : TCPConnectionImpl} {q : TCPPacket} {x : Side}
  {rest : List TCPPacket}

theorem acknowledged_acknowledged (state : Option TCPConnectionState) :
    States.acknowledged (States.acknowledged state) = States.acknowledged state := by
  cases state with
  | none => rfl
  | some state => cases state <;> rfl

theorem acknowledged_late {state : Option TCPConnectionState}
    (h : state ≠ none ∧ state ≠ some .synSent ∧ state ≠ some .synReceived) :
    States.acknowledged state ≠ none ∧ States.acknowledged state ≠ some .synSent ∧
      States.acknowledged state ≠ some .synReceived := by
  unfold States.acknowledged
  split <;> simp_all

theorem Drained.late (h : Drained c c') (hc : Quiescent c) :
    c'.state ≠ none ∧ c'.state ≠ some .synSent ∧ c'.state ≠ some .synReceived := by
  have hlate := And.intro hc.orderly.state hc.state
  rcases h.state with ⟨hstate, -⟩ | ⟨hstate, -⟩
  · rw [hstate]
    exact hlate
  · rw [hstate]
    exact acknowledged_late hlate

theorem Drained.orderly (h : Drained c c') (hc : Quiescent c) : Orderly c' := by
  refine ⟨(h.late hc).1, fun x q hq => ?_⟩
  rw [h.detail]
  exact hc.orderly.waits x q ((h.left x).subset hq)

/-- What is taken from the front of a buffer was in no other place of it. -/
theorem mem_rest_of_ne {q' : TCPPacket} (hb : c'.packetsBuffer.get x = q :: rest) {y : Side}
    (hq' : q' ∈ c'.packetsBuffer.get y) (hne : y = x → q' ≠ q) :
    q' ∈ (c'.setBuffer x rest).packetsBuffer.get y := by
  rw [TCPConnectionImpl.packetsBuffer_setBuffer]
  rcases Side.eq_or_eq_other x y with rfl | rfl
  · rw [BySide.get_set]
    rw [hb] at hq'
    exact (List.mem_cons.mp hq').resolve_left (hne rfl)
  · rwa [BySide.get_other_set]

theorem sublist_setBuffer (hb : c'.packetsBuffer.get x = q :: rest) (y : Side) :
    ((c'.setBuffer x rest).packetsBuffer.get y).Sublist (c'.packetsBuffer.get y) := by
  rw [TCPConnectionImpl.packetsBuffer_setBuffer]
  rcases Side.eq_or_eq_other x y with rfl | rfl
  · rw [BySide.get_set, hb]
    exact List.sublist_cons_self q rest
  · rw [BySide.get_other_set]

/-- An old packet is dropped. -/
theorem Drained.drop (h : Drained c c') (hc : Quiescent c)
    (hb : c'.packetsBuffer.get x = q :: rest) (hold : c'.isOldPacket q = true) :
    Drained c (c'.setBuffer x rest) := by
  have hside : q.side = x :=
    (TCPConnectionImpl.buffer_cons (h.orderly hc).waits hb).1.side
  have hlt : q.sequence < (c.counter.get x).seq := by
    rw [← h.next x, ← hside]
    exact of_decide_eq_true hold
  refine ⟨h.detail, h.next, h.finished,
    h.streams.setBuffer x (TCPConnectionImpl.buffer_cons h.streams.fits hb).2,
    fun y => (sublist_setBuffer hb y).trans (h.left y), fun y q' hq' hseq => ?_, ?_⟩
  · refine mem_rest_of_ne hb (h.kept y q' hq' hseq) ?_
    rintro rfl rfl
    omega
  · refine h.state.imp_left fun ⟨hstate, hstill⟩ => ⟨hstate, fun y q' hq' hseq hack => ?_⟩
    refine mem_rest_of_ne hb (hstill y q' hq' hseq hack) ?_
    rintro rfl rfl
    omega

/-- What is taken is idle. -/
theorem Drained.take (h : Drained c c') (hc : Quiescent c)
    (hb : c'.packetsBuffer.get x = q :: rest) (hcan : c'.isCanProcessPacket q = .ok true)
    (n : Nat) :
    (Delivery.deliver now q ⟨c'.setBuffer x rest, n⟩).Leaves (Drained c) fun _ => False := by
  have horderly := h.orderly hc
  have hlate := h.late hc
  have hwaits := (TCPConnectionImpl.buffer_cons horderly.waits hb).1
  have hseq : (c'.counter.get x).seq = q.sequence := by
    rw [← hwaits.side]
    exact TCPConnectionImpl.sequence_of_isCanProcessPacket hwaits.direction hcan
  have hmem : q ∈ c.packetsBuffer.get x := (h.left x).subset (by simp [hb])
  have hat : q.sequence = (c.counter.get x).seq := by rw [← hseq, h.next]
  obtain ⟨hdata, hrst, hfin⟩ := hc.idle x q hmem hat
  have hempty : q.data = [] := by simpa [TCPPacket.isContainsData] using hdata
  have hrest := TCPConnectionImpl.buffer_cons h.streams.fits hb
  have hnot : ¬ Stops q (c'.setBuffer x rest) := by
    rintro (hstops | hstops)
    · exact hlate.2.2 hstops.2.1
    · exact absurd (hdata.symm.trans hstops.1) (by decide)
  have hleft := deliver_left (c := c'.setBuffer x rest) now hlate.1 h.streams.sane hrest.1 n
  have hprogressed := States.deliver_progressed now q (c'.setBuffer x rest) n
  have hmoving := OldPackets.deliver_moving (c := c'.setBuffer x rest) (p := q) now
    (by rw [hwaits.side]; exact hseq) hlate.2.1 (fun hstate => absurd hstate hlate.2.2)
    (fun _ => hempty) n
  have hframe := Delivery.deliver_frame now q (c'.setBuffer x rest) n
  have hstreams := Streams.saneStreams_deliver now (h.streams.setBuffer x hrest.2) hrest.1 n
  cases ho : Delivery.deliver now q ⟨c'.setBuffer x rest, n⟩ with
  | thrown e t =>
    rw [ho] at hleft
    exact hnot hleft.1
  | returned t =>
    rw [ho] at hprogressed hmoving hframe hstreams
    replace hprogressed : States.Progressed q (c'.setBuffer x rest) t.connection := hprogressed
    replace hmoving : OldPackets.Moving q _ _ (c'.setBuffer x rest) t.connection := hmoving
    replace hframe : Delivery.Recorded q (c'.setBuffer x rest) t.connection := hframe
    have hstate : t.connection.state =
        if q.ack then States.acknowledged c'.state else c'.state := by
      rw [hprogressed.state, States.stateAfter, hfin]
      rfl
    refine ⟨hframe.connectionDetail.trans h.detail, fun y => ?_, fun y => ?_, hstreams,
      fun y => ?_, fun y q' hq' hlt => ?_, ?_⟩
    · rw [← h.next y]
      refine BySide.forall_side (P := fun y => (t.connection.counter.get y).seq =
        (c'.counter.get y).seq) x ?_ ?_ y
      · have hown := hmoving.own
        rw [hwaits.side, hempty, hfin] at hown
        rw [hown, hseq]
        rfl
      · have hother := hmoving.other.resolve_right fun hsyn => hlate.2.2 hsyn.1
        rwa [hwaits.side] at hother
    · rw [hprogressed.finished, States.finishedAfter, hrst, hfin]
      exact h.finished y
    · rw [hframe.packetsBuffer]
      exact (sublist_setBuffer hb y).trans (h.left y)
    · rw [hframe.packetsBuffer]
      refine mem_rest_of_ne hb (h.kept y q' hq' hlt) ?_
      rintro rfl rfl
      omega
    · cases hack : q.ack with
      | true =>
        refine Or.inr ⟨?_, x, q, hmem, hat, hack⟩
        rw [hstate, if_pos hack]
        rcases h.state with ⟨hsame, -⟩ | ⟨hsame, -⟩
        · rw [hsame]
        · rw [hsame, acknowledged_acknowledged]
      | false =>
        rw [hstate, hack, if_neg (by simp), hframe.packetsBuffer]
        refine h.state.imp_left fun hopen => ⟨hopen.1, fun y q' hq' hseq' hack' => ?_⟩
        refine mem_rest_of_ne hb (hopen.2 y q' hq' hseq' hack') ?_
        rintro - rfl
        exact absurd (hack.symm.trans hack') (by decide)

theorem drainRule (now : Date) (hc : Quiescent c) :
    Delivery.DeliveryRule now (fun t => Drained c t.connection) fun _ _ => False where
  thrown := by
    intro t p e h herror hp
    obtain ⟨x, hx⟩ := hp
    have hcan := ((h.orderly hc).waits x p hx).isCanProcessPacket_eq
    rw [herror] at hcan
    exact absurd hcan (by simp)
  drop := fun h hb hold => h.drop hc hb hold
  take := fun h hb hcan => Outcome.ends_const.mpr (h.take hc hb hcan _)
  updated := fun h => ⟨h.detail, h.next, h.finished, ⟨h.streams.sane, h.streams.fits⟩, h.left,
    h.kept, h.state⟩

theorem drained_refl (hc : Quiescent c) : Drained c c :=
  ⟨rfl, fun _ => rfl, fun _ => rfl, hc.streams, fun _ => .refl _, fun _ _ hq _ => hq,
    Or.inl ⟨rfl, fun _ _ hq _ _ => hq⟩⟩

/-- In a sorted buffer that is stuck nothing idle waits at the counter. -/
theorem not_idle_of_stuck {packets : List TCPPacket} (h : Gaps.Stuck c packets)
    (hsorted : Buffering.Sorted packets)
    (hwaits : ∀ q ∈ packets, Waiting.Waits c.connectionDetail x q) (hq : q ∈ packets)
    (hseq : q.sequence = (c.counter.get x).seq) : ¬ Idle q := by
  rintro ⟨hdata, hrst, hfin⟩
  induction packets with
  | nil => exact absurd hq (by simp)
  | cons p packets ih =>
    obtain ⟨hcan, hrest⟩ := Gaps.stuck_cons_iff.mp h
    rcases List.mem_cons.mp hq with rfl | hin
    · rw [(hwaits q (by simp)).isCanProcessPacket_eq] at hcan
      simp [hseq, hdata, hrst, hfin] at hcan
    · have hlt := hsorted.head_lt hin
      have hold : c.isOldPacket p = true := by
        unfold TCPConnectionImpl.isOldPacket
        rw [(hwaits p (by simp)).side]
        exact decide_eq_true (by omega)
      exact ih (hrest hold) hsorted.tail (fun q hq => hwaits q (by simp [hq])) hin

/-- The drain returns, and takes every packet at the counters. -/
theorem idle_drain (now : Date) {t : Delivery} (hc : Quiescent t.connection) :
    ∃ t', Delivery.tryToProcessPacketsInBuffer now t = .returned t' ∧
      Drained t.connection t'.connection ∧
      (∀ x, ∀ q ∈ t'.connection.packetsBuffer.get x,
        q.sequence ≠ (t.connection.counter.get x).seq) ∧
      (Acked t.connection → t'.connection.state = States.acknowledged t.connection.state) ∧
      (¬ Acked t.connection → t'.connection.state = t.connection.state) := by
  have hends := (drainRule now hc).tryToProcessPacketsInBuffer_ends (drained_refl hc)
  cases ho : Delivery.tryToProcessPacketsInBuffer now t with
  | thrown e t' =>
    rw [ho] at hends
    exact hends.elim
  | returned t' =>
    rw [ho] at hends
    have hdrained : Drained t.connection t'.connection := hends
    have hblocked := Gaps.blocked_iff.mp (Gaps.blocked_of_drain ho)
    have hpassed : ∀ x, ∀ q ∈ t'.connection.packetsBuffer.get x,
        q.sequence ≠ (t.connection.counter.get x).seq := by
      intro x q hq hseq
      refine not_idle_of_stuck (hblocked x) ((hc.ordered x).sublist (hdrained.left x))
        ((hdrained.orderly hc).waits x) hq (hseq.trans (hdrained.next x).symm) ?_
      exact hc.idle x q ((hdrained.left x).subset hq) hseq
    refine ⟨t', rfl, hdrained, hpassed, ?_, fun hnot => ?_⟩
    · rintro ⟨x, q, hq, hseq, hack⟩
      rcases hdrained.state with ⟨-, hstill⟩ | ⟨hstate, -⟩
      · exact absurd hseq (hpassed x q (hstill x q hq hseq hack))
      · exact hstate
    · rcases hdrained.state with ⟨hstate, -⟩ | ⟨-, hacked⟩
      · exact hstate
      · exact absurd hacked hnot

end Drain

end IdleDrain

end ConnectionSniffer
