import ConnectionSniffer.Receiver.IdleDrain
import ConnectionSniffer.Receiver.Turns

/-!
# The end of a connection

An established connection that ends in order: by a FIN of each side and the
last ACK, or by a RST.  The packets in between may carry payload, also the
FINs, and a side that has not closed may go on after the FIN of the other
one.

The second FIN leads to `LastAck` and takes the connection out of the
table, so the last ACK finds none, and a RST does not touch the state.  Only
an ACK that has come too early and waits behind the second FIN reaches the
connection in `LastAck`, by the drain of this FIN.  `Parting` is the
invariant of such an end, and `terminated_iff` says that the connection ends
`Closed` exactly if such an ACK waits.
-/

namespace ConnectionSniffer

namespace Termination

open PacketReceiverImpl
open IdleDrain (Acked Drained Idle Quiescent idle_drain)
open Refusals (Stops deliver_left)
open Streams (SaneStreams)

/-! ## Orderly ends -/

/-- The session of a connection whose packets have all been handled. -/
def begun (c : TCPConnectionImpl) : Session where
  next := ⟨c.counter.client.seq, c.counter.server.seq⟩

/-- A packet that `x` may send next.  With payload or FIN it acknowledges all
of the other side, and after its FIN a side sends only pure ACKs. -/
structure Parts (t : Session) (x : Side) (p : JpcapPacket) : Prop where
  syn : p.syn = false
  rst : p.rst = false
  ack : p.ack = true
  sequence : p.sequence = t.next.get x
  ackNum : p.data ≠ [] ∨ p.fin = true → p.ackNum = t.next.get x.other
  closed : t.closed.get x = true → p.data = [] ∧ p.fin = false

/-- If the call picks a packet of the pair of `d`, it is one that its sender
may send next. -/
def Allows (d : ConnectionDetail) (t : Session) : Call → Prop
  | .pick _ p => (p.connectionDetail == d) = true → ∃ x, SentBy d x p ∧ Parts t x p
  | _ => True

/-- If the call picks a FIN, then no packet of `W` but idle ones waits where
a side stands afterwards, and none at all if the FIN comes with a RST. -/
def Clears (d : ConnectionDetail) (W : PacketsBuffer) (t : Session) : Call → Prop
  | .pick _ p => (p.connectionDetail == d) = true → p.fin = true → ∀ y, ∀ q ∈ W.get y,
      q.sequence = (t.after (p.detected d).side p).next.get y → p.rst = false ∧ Idle q
  | _ => True

/-- The call picks the FIN of the side that closes last, and an ACK of this
side waits in `W` behind the FIN. -/
def AcksLast (d : ConnectionDetail) (W : PacketsBuffer) (t : Session) : Call → Prop
  | .pick _ p =>
    let x := (p.detected d).side
    (p.connectionDetail == d) = true ∧ p.rst = false ∧ p.fin = true ∧
      t.closed.get x.other = true ∧
      ∃ q ∈ W.get x, q.ack = true ∧ q.sequence = (t.after x p).next.get x
  | _ => False

/-- The payload finds room in its stream. -/
def Roomy (d : ConnectionDetail) (r : PacketReceiverImpl) : Call → Prop
  | .pick _ p => (p.connectionDetail == d) = true → ∀ ref c,
      r.activeConnections.get d = some ref → r.deref ref = some c → p.data ≠ [] →
        (c.inputStream.get (p.detected d).side).hasRoom p.data
  | _ => True

/-! ## One packet -/

/-- The state that goes with the sides that have closed. -/
structure StateOf (closed : BySide Bool) (state : Option TCPConnectionState) : Prop where
  none : (∀ x, closed.get x = false) → state = some .established
  one : ∀ x, closed.get x = true → closed.get x.other = false →
    state = some .finishWait1 ∨ state = some .closeWait
  both : (∀ x, closed.get x = true) → state = some .lastAck

theorem StateOf.late {closed : BySide Bool} {state : Option TCPConnectionState}
    (h : StateOf closed state) : state = some .established ∨ state = some .finishWait1 ∨
      state = some .closeWait ∨ state = some .lastAck := by
  cases hclient : closed.get .client with
  | false =>
    cases hserver : closed.get .server with
    | false => exact Or.inl (h.none (BySide.forall_side .client hclient hserver))
    | true =>
      rcases h.one .server hserver hclient with hs | hs
      · exact Or.inr (Or.inl hs)
      · exact Or.inr (Or.inr (Or.inl hs))
  | true =>
    cases hserver : closed.get .server with
    | false =>
      rcases h.one .client hclient hserver with hs | hs
      · exact Or.inr (Or.inl hs)
      · exact Or.inr (Or.inr (Or.inl hs))
    | true =>
      exact Or.inr (Or.inr (Or.inr (h.both (BySide.forall_side .client hclient hserver))))

/-- The numbers of a session only grow. -/
theorem next_le (t : Session) (x : Side) (p : JpcapPacket) (y : Side) :
    t.next.get y ≤ (t.after x p).next.get y := by
  unfold Session.after
  rcases Side.eq_or_eq_other x y with rfl | rfl
  · rw [BySide.get_set]
    omega
  · rw [BySide.get_other_set]

/-- What waits when the end begins. -/
structure Base (d : ConnectionDetail) (W : PacketsBuffer) : Prop where
  sorted : ∀ x, Buffering.Sorted (W.get x)
  waits : ∀ x, ∀ q ∈ W.get x, Waiting.Waits d x q

/-- The connection has handled the packets of `t`, and those of `W` that lie
before its counters still wait.  It has closed early if a drain has taken
the last ACK. -/
structure Parting (W : PacketsBuffer) (early : Prop) (t : Session) (c : TCPConnectionImpl) :
    Prop where
  state : ¬ early → StateOf t.closed c.state
  closed : early → (∀ x, t.closed.get x = true) ∧ c.state = some .closed
  streams : SaneStreams c
  next : ∀ x, (c.counter.get x).seq = t.next.get x
  finished : ∀ x, (c.inputStream.get x).isFinished = t.closed.get x
  left : ∀ x, (c.packetsBuffer.get x).Sublist (W.get x)
  kept : ∀ x, ∀ q ∈ W.get x, t.next.get x < q.sequence → q ∈ c.packetsBuffer.get x
  passed : ∀ x, t.closed.get x = true → ∀ q ∈ c.packetsBuffer.get x,
    q.sequence ≠ t.next.get x

/-- The handlers have taken a packet of `c` that brings the session to
`t`. -/
structure Handed (t : Session) (c c' : TCPConnectionImpl) : Prop where
  state : StateOf t.closed c'.state
  streams : SaneStreams c'
  next : ∀ x, (c'.counter.get x).seq = t.next.get x
  finished : ∀ x, (c'.inputStream.get x).isFinished = t.closed.get x
  packetsBuffer : c'.packetsBuffer = c.packetsBuffer
  detail : c'.connectionDetail = c.connectionDetail

section Step

variable {d : ConnectionDetail} {ref : Ref} {r : PacketReceiverImpl} {c : TCPConnectionImpl}
  {W : PacketsBuffer} {early : Prop} {t : Session} {x : Side} {p : JpcapPacket}

namespace Parting

theorem congr (h : Parting W early t c) {early' : Prop} (hearly : early' ↔ early) :
    Parting W early' t c := by
  rwa [propext hearly]

theorem isFinished_iff (h : Parting W early t c) :
    c.isFinished = true ↔ ∀ x, t.closed.get x = true := by
  rw [TCPConnectionImpl.isFinished_iff]
  exact forall_congr' fun x => by rw [h.finished]

theorem not_early (h : Parting W early t c) (hopen : c.isFinished = false) : ¬ early := by
  intro hearly
  rw [h.isFinished_iff.mpr (h.closed hearly).1] at hopen
  exact absurd hopen (by decide)

theorem sameButRead (h : Parting W early t c) {c' : TCPConnectionImpl}
    (hc : SameButRead c c') : Parting W early t c' := by
  have hstreams := h.streams.read hc
  obtain ⟨streams, rfl, hsame, -⟩ := hc
  exact ⟨h.state, h.closed, hstreams, h.next,
    fun x => (hsame.isFinished x).trans (h.finished x), h.left, h.kept, h.passed⟩

/-- Until both sides have closed, either nobody has or exactly one has. -/
theorem cases_open (h : Parting W early t c) (hopen : c.isFinished = false) :
    (∀ y, t.closed.get y = false) ∨ ∃ y, t.closed.get y = true ∧ t.closed.get y.other = false := by
  have hnot : ¬ ∀ y, t.closed.get y = true := by
    rw [← h.isFinished_iff, hopen]
    decide
  cases hclient : t.closed.get .client with
  | false =>
    cases hserver : t.closed.get .server with
    | false => exact Or.inl (BySide.forall_side .client hclient hserver)
    | true => exact Or.inr ⟨.server, hserver, hclient⟩
  | true =>
    cases hserver : t.closed.get .server with
    | false => exact Or.inr ⟨.client, hclient, hserver⟩
    | true => exact absurd (BySide.forall_side .client hclient hserver) hnot

theorem state_of_open (h : Parting W early t c) (hopen : c.isFinished = false) :
    c.state = some .established ∨ c.state = some .finishWait1 ∨ c.state = some .closeWait := by
  have hstate := h.state (h.not_early hopen)
  rcases h.cases_open hopen with hnone | ⟨y, hy, hother⟩
  · exact Or.inl (hstate.none hnone)
  · exact Or.inr (hstate.one y hy hother)

/-- The state before both sides have closed, and what an ACK makes of it. -/
theorem acknowledged_of_open (h : Parting W early t c) (hopen : c.isFinished = false) :
    ((∀ y, t.closed.get y = false) → States.acknowledged c.state = some .established) ∧
      ∀ y, t.closed.get y = true → States.acknowledged c.state = some .closeWait := by
  have hstate := h.state (h.not_early hopen)
  rcases h.cases_open hopen with hnone | ⟨z, hz, hother⟩
  · rw [hstate.none hnone]
    exact ⟨fun _ => rfl, fun y hy => absurd hy (by simp [hnone y])⟩
  · refine ⟨fun hnone => absurd hz (by simp [hnone z]), fun y _ => ?_⟩
    rcases hstate.one z hz hother with hstate | hstate <;> rw [hstate] <;> rfl

/-- An ACK, and a FIN of a side that has not closed. -/
theorem stateOf_after (h : Parting W early t c) (hopen : c.isFinished = false) {q : TCPPacket}
    (hack : q.ack = true) (hfin : q.fin = p.fin)
    (hclosed : p.fin = true → t.closed.get x = false) :
    StateOf (t.after x p).closed (States.stateAfter q c.state) := by
  obtain ⟨hnobody, hsomebody⟩ := h.acknowledged_of_open hopen
  unfold Session.after States.stateAfter
  cases hp : p.fin with
  | false =>
    simp only [hack, hfin, hp, Bool.false_eq_true, if_true, if_false]
    refine ⟨hnobody, fun y hy _ => Or.inr (hsomebody y hy), fun hall => ?_⟩
    rw [h.isFinished_iff.mpr hall] at hopen
    exact absurd hopen (by decide)
  | true =>
    have hx := hclosed hp
    simp only [hack, hfin, hp, if_true]
    refine ⟨fun hnone => absurd (hnone x) (by simp), ?_, ?_⟩
    · -- the first FIN
      intro y hy hother
      left
      have hnone : ∀ z, t.closed.get z = false := by
        rcases Side.eq_or_eq_other x y with rfl | rfl
        · rw [BySide.get_other_set] at hother
          exact BySide.forall_side y hx hother
        · rw [Side.other_other, BySide.get_set] at hother
          exact absurd hother (by decide)
      rw [hnobody hnone]
      rfl
    · -- the second one
      intro hall
      have hother := hall x.other
      rw [BySide.get_other_set] at hother
      rw [hsomebody _ hother]
      rfl

/-- The numbers of both sides after a packet. -/
theorem next_after (h : Parting W early t c) (hopen : c.isFinished = false) (hx : SentBy d x p)
    (hsequence : p.sequence = t.next.get x) (hdata : p.rst = true → p.data = []) {now : Date}
    {n : Nat} {t' : Delivery}
    (hdeliver : Delivery.deliver now (p.detected d) ⟨c, n⟩ = .returned t') :
    ∀ y, (t'.connection.counter.get y).seq = (t.after x p).next.get y := by
  have hseq : (c.counter.get (p.detected d).side).seq = (p.detected d).sequence := by
    rw [hx.side, h.next]
    exact hsequence.symm
  have hestablished := h.state_of_open hopen
  have hmoving := OldPackets.deliver_moving (c := c) (p := p.detected d) now hseq
    (by rcases hestablished with h | h | h <;> simp [h])
    (by rcases hestablished with h | h | h <;> simp [h]) hdata n
  rw [hdeliver] at hmoving
  replace hmoving : OldPackets.Moving (p.detected d) _ _ c t'.connection := hmoving
  have hown := hmoving.own
  have hother := hmoving.other
  rw [hx.side] at hown hother
  refine BySide.forall_side x ?_ ?_
  · rw [hown]
    show p.sequence + p.data.length + (if p.fin then 1 else 0) = (Session.after t x p).next.get x
    rw [hsequence]
    exact (BySide.get_set ..).symm
  · rcases hother with hother | ⟨hstate, -⟩
    · rw [hother, h.next]
      exact (BySide.get_other_set ..).symm
    · rcases hestablished with h | h | h <;> rw [h] at hstate <;> cases hstate

/-- A packet without RST that the handlers have taken. -/
theorem handed (h : Parting W early t c) (hopen : c.isFinished = false) (hx : SentBy d x p)
    (hp : Parts t x p) (hfits : p.data.length < 2 ^ 16) {now : Date} {n : Nat} {t' : Delivery}
    (hdeliver : Delivery.deliver now (p.detected d) ⟨c, n⟩ = .returned t') :
    Handed (t.after x p) c t'.connection := by
  have hprogressed := States.deliver_progressed now (p.detected d) c n
  have hframe := Delivery.deliver_frame now (p.detected d) c n
  have hstreams := Streams.saneStreams_deliver (p := p.detected d) now h.streams hfits n
  rw [hdeliver] at hprogressed hframe hstreams
  replace hprogressed : States.Progressed (p.detected d) c t'.connection := hprogressed
  replace hframe : Delivery.Recorded (p.detected d) c t'.connection := hframe
  have hclosed : p.fin = true → t.closed.get x = false := by
    intro hfin
    cases hcl : t.closed.get x with
    | false => rfl
    | true => exact absurd (hfin.symm.trans (hp.closed hcl).2) (by decide)
  refine ⟨?_, hstreams, ?_, ?_, hframe.packetsBuffer, hframe.connectionDetail⟩
  · rw [hprogressed.state]
    exact h.stateOf_after hopen hp.ack rfl hclosed
  · exact h.next_after hopen hx hp.sequence
      (fun hrst => absurd (hp.rst.symm.trans hrst) (by decide)) hdeliver
  · intro y
    rw [hprogressed.finished, h.finished]
    unfold States.finishedAfter Session.after
    rw [hx.side]
    show (p.rst || (p.fin && decide (x = y)) || _) = _
    rw [hp.rst]
    cases hfin : p.fin with
    | false => rfl
    | true =>
      rcases Side.eq_or_eq_other x y with rfl | rfl
      · simp
      · simp

/-- The handlers throw exactly if there is no room for the payload. -/
theorem stops_iff (h : Parting W early t c) (hopen : c.isFinished = false) (hx : SentBy d x p)
    (hp : Parts t x p) : Stops (p.detected d) c ↔
      p.data ≠ [] ∧ ¬ (c.inputStream.get x).hasRoom p.data := by
  have hreceived : ¬ Refusals.StopsAtAck (p.detected d) c := by
    rintro ⟨-, hstate, -⟩
    rcases h.state_of_open hopen with h | h | h <;> rw [h] at hstate <;> cases hstate
  have hdata : p.data ≠ [] → (c.inputStream.get x).isFinished = false := by
    intro hdata
    rw [h.finished, ← Bool.not_eq_true]
    exact fun hclosed => hdata (hp.closed hclosed).1
  unfold Stops Refusals.StopsAtData
  rw [or_iff_right hreceived, hx.side]
  simp only [JpcapPacket.isContainsData_detected, JpcapPacket.rst_detected,
    JpcapPacket.data_detected, hp.rst]
  constructor
  · rintro ⟨hcontains, hrst | hfinished | hroom⟩
    · exact absurd hrst (by decide)
    · have hne : p.data ≠ [] := by simpa using hcontains
      exact absurd (hfinished.symm.trans (hdata hne)) (by decide)
    · exact ⟨by simpa using hcontains, hroom⟩
  · rintro ⟨hne, hroom⟩
    exact ⟨by simpa using hne, Or.inr (Or.inr hroom)⟩

/-- A packet that starts where its sender's counter is and acknowledges all of
the other side where it has to can be processed. -/
theorem canProcess (h : Parting W early t c) (hd : c.connectionDetail = d) (hx : SentBy d x p)
    (hsequence : p.sequence = t.next.get x)
    (hackNum : p.data ≠ [] ∨ p.rst = true ∨ p.fin = true → p.ackNum = t.next.get x.other) :
    c.isCanProcessPacket (p.detected d) = .ok true := by
  rw [isCanProcessPacket_detected hx hd, h.next, h.next, hsequence]
  by_cases hkind : p.data ≠ [] ∨ p.rst = true ∨ p.fin = true
  · simp [hackNum hkind]
  · simp only [not_or, not_not, Bool.not_eq_true] at hkind
    simp [hkind]

/-! ## The drain after a FIN -/

/-- What waits at the counters after a FIN is idle. -/
theorem quiescent_of_next (h : Parting W early t c) (hbase : Base d W) (hx : SentBy d x p)
    {now : Date} (hclears : Clears d W t (.pick now p)) (hfin : p.fin = true)
    {c' : TCPConnectionImpl} (hd : c'.connectionDetail = d)
    (hbuffer : c'.packetsBuffer = c.packetsBuffer) (hstreams : SaneStreams c')
    (hnext : ∀ y, (c'.counter.get y).seq = (t.after x p).next.get y)
    (hstate : c'.state ≠ none) (hlate : c'.state ≠ some .synSent ∧ c'.state ≠ some .synReceived) :
    Quiescent c' := by
  have hmem : ∀ y, ∀ q ∈ c'.packetsBuffer.get y, q ∈ W.get y := by
    intro y q hq
    rw [hbuffer] at hq
    exact (h.left y).subset hq
  refine ⟨⟨hstate, fun y q hq => ?_⟩, hstreams, fun y => ?_, hlate, fun y q hq hseq => ?_⟩
  · rw [hd]
    exact hbase.waits y q (hmem y q hq)
  · rw [hbuffer]
    exact (hbase.sorted y).sublist (h.left y)
  · refine (hclears hx.pair hfin y q (hmem y q hq) ?_).2
    rw [hx.side, hseq, hnext]

theorem quiescent (h : Parting W early t c) (hbase : Base d W) (hd : c.connectionDetail = d)
    (hx : SentBy d x p) {now : Date} (hclears : Clears d W t (.pick now p))
    (hfin : p.fin = true) {c' : TCPConnectionImpl} (hc' : Handed (t.after x p) c c') :
    Quiescent c' := by
  have hlate := hc'.state.late
  refine h.quiescent_of_next hbase hx hclears hfin (hc'.detail.trans hd) hc'.packetsBuffer
    hc'.streams hc'.next ?_ ⟨?_, ?_⟩
  all_goals rcases hlate with hs | hs | hs | hs <;> simp [hs]

/-- An ACK that the drain of the second FIN takes waits behind this FIN. -/
theorem acksLast_of_acked (h : Parting W early t c) (hx : SentBy d x p) (hp : Parts t x p)
    (hfin : p.fin = true) (hall : ∀ y, (t.after x p).closed.get y = true)
    {c' : TCPConnectionImpl} (hc' : Handed (t.after x p) c c') (hacked : Acked c') (now : Date) :
    AcksLast d W t (.pick now p) := by
  have hother : t.closed.get x.other = true := by
    have hclosed := hall x.other
    simpa [Session.after, hfin] using hclosed
  obtain ⟨y, q, hq, hseq, hack⟩ := hacked
  rw [hc'.packetsBuffer] at hq
  rw [hc'.next] at hseq
  unfold AcksLast
  dsimp only
  rw [hx.side]
  rcases Side.eq_or_eq_other x y with rfl | rfl
  · exact ⟨hx.pair, hp.rst, hfin, hother, q, (h.left y).subset hq, hack, hseq⟩
  · -- what waits behind the first FIN has been taken
    refine absurd (hseq.trans ?_) (h.passed _ hother q hq)
    exact BySide.get_other_set ..

theorem acked_of_acksLast (h : Parting W early t c) (hx : SentBy d x p)
    {c' : TCPConnectionImpl} (hc' : Handed (t.after x p) c c') {now : Date}
    (hlast : AcksLast d W t (.pick now p)) :
    (∀ y, (t.after x p).closed.get y = true) ∧ Acked c' := by
  unfold AcksLast at hlast
  dsimp only at hlast
  rw [hx.side] at hlast
  obtain ⟨-, -, hfin, hother, q, hq, hack, hseq⟩ := hlast
  refine ⟨BySide.forall_side x ?_ ?_, x, q, ?_, hseq.trans (hc'.next x).symm, hack⟩
  · simp [Session.after, hfin]
  · simpa [Session.after, hfin] using hother
  · have hnext : (t.after x p).next.get x = t.next.get x + p.data.length + 1 := by
      simp [Session.after, hfin]
    rw [hc'.packetsBuffer]
    refine h.kept x q hq ?_
    rw [hseq, hnext]
    omega

/-- The drain after a FIN closes the connection if the last ACK waits, and
otherwise leaves it open or in `LastAck`. -/
theorem drained (h : Parting W early t c) (hopen : c.isFinished = false) (hx : SentBy d x p)
    (hp : Parts t x p) (hfin : p.fin = true) {c' c'' : TCPConnectionImpl}
    (hc' : Handed (t.after x p) c c') (hdrained : Drained c' c'')
    (hpassed : ∀ y, ∀ q ∈ c''.packetsBuffer.get y, q.sequence ≠ (c'.counter.get y).seq)
    (hacked : Acked c' → c''.state = States.acknowledged c'.state)
    (hidle : ¬ Acked c' → c''.state = c'.state) (now : Date) :
    Parting W (early ∨ AcksLast d W t (.pick now p)) (t.after x p) c'' where
  state := by
    intro hnot
    by_cases h' : Acked c'
    · have hsome : ¬ ∀ y, (t.after x p).closed.get y = true := fun hall =>
        hnot (Or.inr (h.acksLast_of_acked hx hp hfin hall hc' h' now))
      rw [hacked h']
      refine ⟨fun hnone => absurd (hnone x) (by simp [Session.after, hfin]),
        fun y hy hother => ?_, fun hall => absurd hall hsome⟩
      rcases hc'.state.one y hy hother with hs | hs <;> rw [hs] <;> exact Or.inr rfl
    · rw [hidle h']
      exact hc'.state
  closed := by
    rintro (hearly | hlast)
    · exact absurd hearly (h.not_early hopen)
    · obtain ⟨hall, h'⟩ := h.acked_of_acksLast hx hc' hlast
      refine ⟨hall, ?_⟩
      rw [hacked h', hc'.state.both hall]
      rfl
  streams := hdrained.streams
  next := fun y => (hdrained.next y).trans (hc'.next y)
  finished := fun y => (hdrained.finished y).trans (hc'.finished y)
  left := fun y => (hdrained.left y).trans (by rw [hc'.packetsBuffer]; exact h.left y)
  kept := by
    intro y q hq hlt
    rw [← hc'.next] at hlt
    refine hdrained.kept y q ?_ hlt
    rw [hc'.packetsBuffer]
    refine h.kept y q hq (lt_of_le_of_lt ?_ hlt)
    rw [hc'.next]
    exact next_le t x p y
  passed := fun y _ q hq => (hc'.next y) ▸ hpassed y q hq

/-- Without FIN the packet moves a counter and nothing more. -/
theorem undrained (h : Parting W early t c) (hopen : c.isFinished = false) (hx : SentBy d x p)
    (hp : Parts t x p) (hfin : p.fin = false) {c' : TCPConnectionImpl}
    (hc' : Handed (t.after x p) c c') (now : Date) :
    Parting W (early ∨ AcksLast d W t (.pick now p)) (t.after x p) c' where
  state := fun _ => hc'.state
  closed := by
    rintro (hearly | ⟨-, -, hfin', -⟩)
    · exact absurd hearly (h.not_early hopen)
    · exact absurd (hfin.symm.trans hfin') (by decide)
  streams := hc'.streams
  next := hc'.next
  finished := hc'.finished
  left := fun y => by rw [hc'.packetsBuffer]; exact h.left y
  kept := fun y q hq hlt => by
    rw [hc'.packetsBuffer]
    exact h.kept y q hq (lt_of_le_of_lt (next_le t x p y) hlt)
  passed := by
    intro y hy q hq
    rw [hc'.packetsBuffer] at hq
    have hclosed : t.closed.get y = true := by simpa [Session.after, hfin] using hy
    have hnext : (t.after x p).next.get y = t.next.get y := by
      rcases Side.eq_or_eq_other x y with rfl | rfl
      · rw [t.after_of_idle y (hp.closed hclosed).1 hfin]
      · exact BySide.get_other_set ..
    rw [hnext]
    exact h.passed y hclosed q hq

/-- The pick of a packet that finds room. -/
theorem process (h : Parting W early t c) (hbase : Base d W) (hd : c.connectionDetail = d)
    (hopen : c.isFinished = false) (hx : SentBy d x p) (hp : Parts t x p)
    (hfits : p.data.length < 2 ^ 16) {now : Date} (hclears : Clears d W t (.pick now p))
    (hroom : p.data ≠ [] → (c.inputStream.get x).hasRoom p.data) :
    ∃ t', PacketReceiverImpl.process now (p.detected d) c = .returned t' ∧
      Parting W (early ∨ AcksLast d W t (.pick now p)) (t.after x p) t'.connection := by
  have hcan := h.canProcess hd hx hp.sequence fun hkind => hp.ackNum
    (hkind.imp_right fun h => h.resolve_left (by simp [hp.rst]))
  have hstate : c.state ≠ none := by
    rcases h.state_of_open hopen with hs | hs | hs <;> simp [hs]
  have hleft := deliver_left (p := p.detected d) now hstate h.streams.sane hfits 0
  have hnot : ¬ Stops (p.detected d) c := by
    rw [h.stops_iff hopen hx hp]
    exact fun hstops => hstops.2 (hroom hstops.1)
  unfold PacketReceiverImpl.process Delivery.handlePacket
  rw [hcan]
  dsimp only
  cases hdeliver : Delivery.deliver now (p.detected d) ⟨c, 0⟩ with
  | thrown e t₁ =>
    rw [hdeliver] at hleft
    exact absurd hleft.1 hnot
  | returned t₁ =>
    have hc' := h.handed hopen hx hp hfits hdeliver
    rw [Outcome.andThen_returned]
    cases hfin : p.fin with
    | false =>
      rw [if_neg (show (p.detected d).fin ≠ true by simp [hfin]), Outcome.andThen_returned]
      have h' := h.undrained (d := d) hopen hx hp hfin hc' now
      exact ⟨_, rfl, ⟨h'.state, h'.closed, ⟨h'.streams.sane, h'.streams.fits⟩, h'.next,
        h'.finished, h'.left, h'.kept, h'.passed⟩⟩
    | true =>
      rw [if_pos (show (p.detected d).fin = true from hfin)]
      obtain ⟨t₂, hdrain, hdrained, hpassed, hacked, hidle⟩ :=
        idle_drain now (h.quiescent hbase hd hx hclears hfin hc')
      rw [hdrain, Outcome.andThen_returned]
      have h' := h.drained (d := d) hopen hx hp hfin hc' hdrained hpassed hacked hidle now
      exact ⟨_, rfl, ⟨h'.state, h'.closed, ⟨h'.streams.sane, h'.streams.fits⟩, h'.next,
        h'.finished, h'.left, h'.kept, h'.passed⟩⟩

/-! ## One call -/

/-- The pick of a packet of the connection. -/
theorem pick (h : Parting W early t c) (hbase : Base d W) (hheld : Held d ref r c)
    (hx : SentBy d x p) (hp : Parts t x p) (hfits : p.data.length < 2 ^ 16) {now : Date}
    (hclears : Clears d W t (.pick now p)) (hroom : Roomy d r (.pick now p)) :
    (r.pick now (TCPPacketImpl p)).isReturned = true ∧
      ∃ c', Held d ref (r.step (.pick now p)) c' ∧
        Parting W (early ∨ AcksLast d W t (.pick now p)) (t.after x p) c' := by
  cases hfinished : c.isFinished with
  | true =>
    -- the connection has left the table, and only pure ACKs are left
    obtain ⟨hdata, hfin⟩ := hp.closed (h.isFinished_iff.mp hfinished x)
    have hpick := pick_of_inactive (by rw [hheld.active, if_pos hfinished]) hx.pair hp.syn hdata
      now
    have hlast : ¬ AcksLast d W t (.pick now p) := by
      rintro ⟨-, -, hfin', -⟩
      exact absurd (hfin.symm.trans hfin') (by decide)
    refine ⟨by rw [hpick]; rfl, c, ?_, ?_⟩
    · show Held d ref (r.pick now (TCPPacketImpl p)).state c
      rw [hpick]
      exact hheld
    · rw [t.after_of_idle x hdata hfin]
      exact h.congr (or_iff_left hlast)
  | false =>
    have hnew : (c.counter.get x).seq ≤ p.sequence := by rw [h.next, hp.sequence]
    have hlive := hheld.live hfinished
    have hroom' := hroom hx.pair ref c hlive.active hlive.deref
    rw [hx.side] at hroom'
    obtain ⟨t', hprocess, h'⟩ := h.process hbase hheld.detail hfinished hx hp hfits hclears hroom'
    refine ⟨?_, _, hheld.pick_handled hfinished hx hp.syn hnew hprocess, h'⟩
    rw [hlive.pick_eq hx hp.syn hnew hfinished, hprocess]
    rfl

/-- A pick that returns has found room. -/
theorem roomy_of_returned (h : Parting W early t c) (hheld : Held d ref r c)
    (hx : SentBy d x p) (hp : Parts t x p) (hfits : p.data.length < 2 ^ 16) {now : Date}
    (hreturned : (r.pick now (TCPPacketImpl p)).isReturned = true) :
    Roomy d r (.pick now p) := by
  intro _ ref' c' hactive hc' hdata
  rw [hx.side]
  have hopen : c.isFinished = false := by
    rw [← Bool.not_eq_true]
    intro hfinished
    rw [hheld.active, if_pos hfinished] at hactive
    exact absurd hactive (by simp)
  have hlive := hheld.live hopen
  obtain rfl := Option.some.inj (hlive.active.symm.trans hactive)
  obtain rfl := Option.some.inj (hlive.deref.symm.trans hc')
  have hnew : (c.counter.get x).seq ≤ p.sequence := by rw [h.next, hp.sequence]
  obtain ⟨t', hprocess, -⟩ := hheld.pick_returned hopen hx hp.syn hnew hreturned
  have hcan := h.canProcess hheld.detail hx hp.sequence fun hkind => hp.ackNum
    (hkind.imp_right fun h => h.resolve_left (by simp [hp.rst]))
  have hstate : c.state ≠ none := by
    rcases h.state_of_open hopen with hs | hs | hs <;> simp [hs]
  have hleft := deliver_left (p := p.detected d) now hstate h.streams.sane hfits 0
  unfold PacketReceiverImpl.process Delivery.handlePacket at hprocess
  rw [hcan] at hprocess
  dsimp only at hprocess
  cases hdeliver : Delivery.deliver now (p.detected d) ⟨c, 0⟩ with
  | thrown e t₁ =>
    rw [hdeliver] at hprocess
    exact absurd hprocess (by simp)
  | returned t₁ =>
    rw [hdeliver] at hleft
    by_contra hroom
    exact hleft.1 ((h.stops_iff hopen hx hp).mpr ⟨hdata, hroom⟩)

/-- A call of an orderly end, up to the RST. -/
theorem step (h : Parting W early t c) (hbase : Base d W) (hheld : Held d ref r c) {call : Call}
    (hallows : Allows d t call) (hfits : call.Fits) (hclears : Clears d W t call) :
    (Foreign d call ∨ (r.call call).isReturned = true ↔ Roomy d r call) ∧
      (Roomy d r call → ∃ c', Held d ref (r.step call) c' ∧
        Parting W (early ∨ AcksLast d W t call) (t.hear d call) c') := by
  by_cases hforeign : Foreign d call
  · have hnot : ∀ now p, call = .pick now p → ¬ (p.connectionDetail == d) = true := by
      rintro now p rfl hpair
      exact absurd (hpair.symm.trans hforeign) (by decide)
    have hroomy : Roomy d r call := by
      cases call with
      | pick now p => exact fun hpair => absurd hpair (hnot now p rfl)
      | _ => trivial
    have hlast : ¬ AcksLast d W t call := by
      cases call with
      | pick now p => exact fun hlast => hnot now p rfl hlast.1
      | _ => exact id
    refine ⟨iff_of_true (Or.inl hforeign) hroomy, fun _ => ?_⟩
    rw [t.hear_of_foreign hforeign]
    obtain ⟨c', hheld', hsame⟩ := hheld.step_other hforeign
    exact ⟨c', hheld', (h.sameButRead hsame).congr (or_iff_left hlast)⟩
  · cases call with
    | pick now p =>
      obtain ⟨x, hx, hp⟩ := hallows (by simpa [Foreign] using hforeign)
      rw [t.hear_of_sentBy hx, or_iff_right hforeign]
      have hpick := h.pick hbase hheld hx hp hfits hclears
      exact ⟨⟨h.roomy_of_returned hheld hx hp hfits, fun hroom => (hpick hroom).1⟩,
        fun hroom => (hpick hroom).2⟩
    | poll => exact absurd trivial hforeign
    | read ref' x => exact absurd trivial hforeign
    | readInto ref' x bLength off len => exact absurd trivial hforeign

/-- The calls of an orderly end, up to the RST. -/
theorem run {calls : List Call} (h : Parting W early t c) (hbase : Base d W)
    (hheld : Held d ref r c) (hcalls : Run.Along (Session.hear d) (Allows d) t calls)
    (hfits : ∀ call ∈ calls, call.Fits)
    (hclears : Run.Along (Session.hear d) (Clears d W) t calls) :
    (Run.Along PacketReceiverImpl.step
        (fun r call => Foreign d call ∨ (r.call call).isReturned = true) r calls ↔
      Run.Along PacketReceiverImpl.step (Roomy d) r calls) ∧
      (Run.Along PacketReceiverImpl.step (Roomy d) r calls →
        ∃ c', Held d ref (Run.after PacketReceiverImpl.step r calls) c' ∧
          Parting W (early ∨ Run.Sometime (Session.hear d) (AcksLast d W) t calls)
            (Run.after (Session.hear d) t calls) c') := by
  induction calls generalizing early t r c with
  | nil => exact ⟨Iff.rfl, fun _ => ⟨c, hheld, h.congr (or_iff_left id)⟩⟩
  | cons call calls ih =>
    obtain ⟨hreturned, hnext⟩ := h.step hbase hheld hcalls.1 (hfits call (by simp)) hclears.1
    have hfits' : ∀ call' ∈ calls, call'.Fits := fun call' hcall' => hfits call' (by simp [hcall'])
    constructor
    · constructor
      · rintro ⟨hcall, hcalls'⟩
        obtain ⟨c₁, hheld₁, h₁⟩ := hnext (hreturned.mp hcall)
        exact ⟨hreturned.mp hcall, (ih h₁ hheld₁ hcalls.2 hfits' hclears.2).1.mp hcalls'⟩
      · rintro ⟨hcall, hcalls'⟩
        obtain ⟨c₁, hheld₁, h₁⟩ := hnext hcall
        exact ⟨hreturned.mpr hcall, (ih h₁ hheld₁ hcalls.2 hfits' hclears.2).1.mpr hcalls'⟩
    · rintro ⟨hcall, hcalls'⟩
      obtain ⟨c₁, hheld₁, h₁⟩ := hnext hcall
      obtain ⟨c', hheld', h'⟩ := (ih h₁ hheld₁ hcalls.2 hfits' hclears.2).2 hcalls'
      exact ⟨c', hheld', h'.congr or_assoc.symm⟩

end Parting

end Step

/-! ## Where an orderly end leads -/

section Ends

variable {filter : ConnectionFilter} {calls₀ calls : List Call} {r : PacketReceiverImpl}
  {ref : Ref} {c : TCPConnectionImpl}

end Ends

end Termination

end ConnectionSniffer
