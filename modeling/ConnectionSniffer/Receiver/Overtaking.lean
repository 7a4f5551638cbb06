import ConnectionSniffer.Receiver.Buffering
import ConnectionSniffer.Receiver.OldPackets
import ConnectionSniffer.Receiver.States

/-!
# Packets that are overtaken while they wait

A packet waits in a buffer until the counter of its side gets to it.  In
between another copy of its bytes may be handled, and then it waits for
nothing, and looks like data that is missing.  In the same way an ACK that
waits may be out of date when its turn comes.

`Untangled` is a condition on a packet at the moment it is picked and on
the packets that wait then: neither of two of them makes the other one
superfluous, and an ACK from behind a FIN acknowledges the FIN of the other
side.  `Level` is what it keeps up, through drains and throws: each
buffered payload ends behind all that have been handled, or starts before
them.
-/

namespace ConnectionSniffer

/-- The number behind the FIN. -/
def Sent.finished (sent : Sent) : Nat := sent.isn + 1 + sent.bytes.length + 1

namespace Overtaking

open OldPackets (Cut Moving Halts)
open States (stateAfter acknowledged)

/-! ## The condition -/

/-- The number behind the payload. -/
def ending (p : TCPPacket) : Nat := p.sequence + p.data.length

/-- The packet is handled when it is picked: it completes the exchange that a
half-way connection waits for, or an active one can process it. -/
def AtOnce (p : TCPPacket) (c : TCPConnectionImpl) : Prop :=
  if c.state = none then PacketReceiverImpl.completesExchange p c = true
  else c.isCanProcessPacket p = .ok true

instance (p : TCPPacket) (c : TCPConnectionImpl) : Decidable (AtOnce p c) :=
  inferInstanceAs (Decidable (ite (c.state = none) _ _))

/-- The packet reaches beyond all payloads of side `x` that have been
handled. -/
def Beyond (x : Side) (q : TCPPacket) (c : TCPConnectionImpl) : Prop :=
  ∀ e ∈ c.handled, e.2.side = x → e.2.isContainsData = true → ending e.2 < ending q

/-- The packet starts before all payloads of side `x` that have been
handled. -/
def Before (x : Side) (q : TCPPacket) (c : TCPConnectionImpl) : Prop :=
  ∀ e ∈ c.handled, e.2.side = x → e.2.isContainsData = true → q.sequence < e.2.sequence

instance (x : Side) (q : TCPPacket) (c : TCPConnectionImpl) : Decidable (Before x q c) :=
  inferInstanceAs (Decidable (∀ e ∈ c.handled, _))

/-- Of the packet `p` and of `q`, which waits, none makes the other one
superfluous: if `p` is handled at once, then `q` reaches beyond it or comes
before all that is handled, and if `p` has to wait, none of the two lies
within the other. -/
def Apart (p q : TCPPacket) (c : TCPConnectionImpl) : Prop :=
  if AtOnce p c then ending p < ending q ∨ (q.sequence < p.sequence ∧ Before p.side q c)
  else (q.sequence < p.sequence → ending q < ending p) ∧
    (p.sequence < q.sequence → ending p < ending q)

instance (p q : TCPPacket) (c : TCPConnectionImpl) : Decidable (Apart p q c) :=
  inferInstanceAs (Decidable (ite (AtOnce p c) _ _))

/-- None of the payloads that wait on the side of the packet overtakes it or is
overtaken.  And an ACK from behind a FIN acknowledges the FIN of the other
side, unless it is handled at once and before `LastAck`. -/
structure Untangled (S : BySide Sent) (p : TCPPacket) (c : TCPConnectionImpl) : Prop where
  payload : p.isContainsData = true → ∀ q ∈ c.packetsBuffer.get p.side,
    q.isContainsData = true → Apart p q c
  answer : p.ack = true → p.sequence = (S.get p.side).finished →
    (AtOnce p c → c.state = some .lastAck) → p.ackNum = (S.get p.side.other).finished

instance (S : BySide Sent) (p : TCPPacket) (c : TCPConnectionImpl) :
    Decidable (Untangled S p c) :=
  decidable_of_iff ((p.isContainsData = true → ∀ q ∈ c.packetsBuffer.get p.side,
        q.isContainsData = true → Apart p q c) ∧
      (p.ack = true → p.sequence = (S.get p.side).finished →
        (AtOnce p c → c.state = some .lastAck) → p.ackNum = (S.get p.side.other).finished))
    ⟨fun h => ⟨h.1, h.2⟩, fun h => ⟨h.payload, h.answer⟩⟩

/-- The call captures a segment of the conversation or a packet of another
pair.  It is near to the packets that wait on its side, and untangled from
them unless it is thrown away. -/
def Clean (T : Conversation) (r : PacketReceiverImpl) : Call → Prop
  | .pick now packet => T.Cuts packet ∧ Buffering.Narrow r (.pick now packet) ∧
      ∀ c ∈ r.routed (TCPPacketImpl packet), (c.connectionDetail == T.detail) = true →
        c.state = none ∨
            PacketReceiverImpl.isIgnored (packet.detected c.connectionDetail) c = false →
          Untangled (T.sentBy c.connectionDetail) (packet.detected c.connectionDetail) c
  | _ => True

instance (T : Conversation) (r : PacketReceiverImpl) : ∀ call, Decidable (Clean T r call)
  | .pick now packet => inferInstanceAs (Decidable (T.Cuts packet ∧
      Buffering.Narrow r (.pick now packet) ∧
      ∀ c ∈ r.routed (TCPPacketImpl packet), _ → _ ∨ _ → Untangled _ _ c))
  | .poll => .isTrue trivial
  | .read _ _ => .isTrue trivial
  | .readInto _ _ _ _ _ => .isTrue trivial

/-! ## The buffers -/

section Tidy

variable {T : Conversation} {d : ConnectionDetail} {p : TCPPacket} {c c' : TCPConnectionImpl}

/-- Segments of the conversation wait, each on its side, in their order, none
within another one, and the ACKs from behind a FIN are up to date. -/
structure Tidy (T : Conversation) (d : ConnectionDetail) (c : TCPConnectionImpl) : Prop where
  ordered : Buffering.Ordered c
  cut : ∀ x, ∀ q ∈ c.packetsBuffer.get x, Cut T d q ∧ q.side = x
  staggered : ∀ x, ∀ q ∈ c.packetsBuffer.get x, ∀ q' ∈ c.packetsBuffer.get x,
    q.isContainsData = true → q'.isContainsData = true → q.sequence < q'.sequence →
      ending q < ending q'
  answers : ∀ x, ∀ q ∈ c.packetsBuffer.get x, q.ack = true →
    q.sequence = ((T.sentBy d).get x).finished → q.ackNum = ((T.sentBy d).get x.other).finished

theorem Tidy.congr (h : Tidy T d c) (hbuffer : c'.packetsBuffer = c.packetsBuffer) :
    Tidy T d c' := by
  obtain ⟨hordered, hcut, hstaggered, hanswers⟩ := h
  refine ⟨hordered.congr hbuffer, ?_, ?_, ?_⟩
  · rwa [hbuffer]
  · rwa [hbuffer]
  · rwa [hbuffer]

theorem tidy_of_empty (h : ∀ x, c.packetsBuffer.get x = []) : Tidy T d c := by
  refine ⟨fun x => ?_, ?_, ?_, ?_⟩
  · rw [h x]
    exact Buffering.sorted_nil
  all_goals
    intro x q hq
    rw [h x] at hq
    exact absurd hq (by simp)

/-- Packets that leave a buffer leave it tidy. -/
theorem Tidy.tail (h : Tidy T d c) {x : Side} {rest : List TCPPacket}
    (hb : c.packetsBuffer.get x = p :: rest) : Tidy T d (c.setBuffer x rest) := by
  have hsub : ∀ q ∈ rest, q ∈ c.packetsBuffer.get x := by
    intro q hq
    rw [hb]
    exact List.mem_cons_of_mem p hq
  refine ⟨h.ordered.tail hb, ?_, ?_, ?_⟩
  · exact BySide.forall_set (P := fun x (l : List TCPPacket) => ∀ q ∈ l, Cut T d q ∧ q.side = x)
      (fun q hq => h.cut x q (hsub q hq)) (h.cut _)
  · exact BySide.forall_set (P := fun _ (l : List TCPPacket) => ∀ q ∈ l, ∀ q' ∈ l,
      q.isContainsData = true → q'.isContainsData = true → q.sequence < q'.sequence →
        ending q < ending q')
      (fun q hq q' hq' => h.staggered x q (hsub q hq) q' (hsub q' hq')) (h.staggered _)
  · exact BySide.forall_set (P := fun x (l : List TCPPacket) => ∀ q ∈ l, q.ack = true →
      q.sequence = ((T.sentBy d).get x).finished →
        q.ackNum = ((T.sentBy d).get x.other).finished)
      (fun q hq => h.answers x q (hsub q hq)) (h.answers _)

/-- A packet that has to wait is added. -/
theorem Tidy.add (h : Tidy T d c) (hp : Cut T d p) (hnear : Buffering.NearWaiting p c)
    (huntangled : Untangled (T.sentBy d) p c) (hwaits : ¬ AtOnce p c) :
    Tidy T d (c.setBuffer p.side
      (TreeSet.add TCPPacket.compareTo p (c.packetsBuffer.get p.side))) := by
  have hpayload : p.isContainsData = true → ∀ q ∈ c.packetsBuffer.get p.side,
      q.isContainsData = true → (q.sequence < p.sequence → ending q < ending p) ∧
        (p.sequence < q.sequence → ending p < ending q) := by
    intro hdata q hq hqdata
    have hapart := huntangled.payload hdata q hq hqdata
    rwa [Apart, if_neg hwaits] at hapart
  refine ⟨h.ordered.add hnear, ?_, ?_, ?_⟩
  · exact BySide.forall_set (P := fun x (l : List TCPPacket) => ∀ q ∈ l, Cut T d q ∧ q.side = x)
      (PacketReceiverImpl.forall_mem_add h.cut ⟨hp, rfl⟩) (h.cut _)
  · refine BySide.forall_set (P := fun _ (l : List TCPPacket) => ∀ q ∈ l, ∀ q' ∈ l,
      q.isContainsData = true → q'.isContainsData = true → q.sequence < q'.sequence →
        ending q < ending q') ?_ (h.staggered _)
    intro q hq q' hq' hdata hdata' hlt
    rcases TreeSet.mem_of_mem_add _ hq with rfl | hin
    · rcases TreeSet.mem_of_mem_add _ hq' with rfl | hin'
      · exact absurd hlt (lt_irrefl _)
      · exact (hpayload hdata q' hin' hdata').2 hlt
    · rcases TreeSet.mem_of_mem_add _ hq' with rfl | hin'
      · exact (hpayload hdata' q hin hdata).1 hlt
      · exact h.staggered _ q hin q' hin' hdata hdata' hlt
  · exact BySide.forall_set (P := fun x (l : List TCPPacket) => ∀ q ∈ l, q.ack = true →
      q.sequence = ((T.sentBy d).get x).finished →
        q.ackNum = ((T.sentBy d).get x.other).finished)
      (PacketReceiverImpl.forall_mem_add h.answers
        fun hack hseq => huntangled.answer hack hseq fun hnow => absurd hnow hwaits)
      (h.answers _)

/-- Behind the FIN there are neither data nor another FIN. -/
theorem empty_of_finished (hp : Cut T d p)
    (hseq : p.sequence = ((T.sentBy d).get p.side).finished) : p.data = [] ∧ p.fin = false := by
  unfold Sent.finished at hseq
  constructor
  · have hle := hp.carries.2.length_le
    rw [List.length_drop] at hle
    exact List.length_eq_zero_iff.mp (by omega)
  · rw [Bool.eq_false_iff]
    intro hfin
    have hend := hp.segment.1 hfin
    omega

end Tidy

/-! ## One packet -/

section Level

variable {T : Conversation} {d : ConnectionDetail} {now : Date} {p q : TCPPacket}
  {c c' : TCPConnectionImpl}

/-- Counters, streams and buffers of an active connection of the
conversation. -/
structure Level (T : Conversation) (d : ConnectionDetail) (c : TCPConnectionImpl) : Prop where
  detail : c.connectionDetail = d
  started : c.state ≠ none
  synSent : c.state = some .synSent →
    d = T.detail ∧ ∀ x, (c.counter.get x).seq ≤ ((T.sentBy d).get x).isn
  synReceived : c.state = some .synReceived → c.counter.server.seq ≤ (T.sentBy d).server.isn
  /-- From the first FIN on one side is at its end. -/
  closing : c.state = some .finishWait1 ∨ c.state = some .closeWait →
    ∃ x, (c.counter.get x).seq = ((T.sentBy d).get x).finished
  lastAck : c.state = some .lastAck → ∀ x, (c.counter.get x).seq = ((T.sentBy d).get x).finished
  payloads : ∀ x, (c.inputStream.get x).appended = c.payloads x
  below : ∀ e ∈ c.handled, e.2.isContainsData = true →
    ending e.2 ≤ (c.counter.get e.2.side).seq
  /-- What waits does not lie within what has been handled. -/
  outside : ∀ x, ∀ q ∈ c.packetsBuffer.get x, q.isContainsData = true →
    Beyond x q c ∨ Before x q c
  tidy : Tidy T d c

theorem length_pos (h : p.isContainsData = true) : 0 < p.data.length := by
  apply List.length_pos_of_ne_nil
  simpa [TCPPacket.isContainsData] using h

/-- So the first or the last byte of a buffered payload has not been
appended. -/
theorem Level.not_delivered (h : Level T d c) {x : Side} (hq : q ∈ c.packetsBuffer.get x)
    (hdata : q.isContainsData = true) : ¬ OldPackets.Delivered c q := by
  intro hdelivered
  have hlen := length_pos hdata
  have hcovers : ∀ k, c.Covers q.side k → ∃ e ∈ c.handled, e.2.side = x ∧
      e.2.isContainsData = true ∧ e.2.sequence ≤ k ∧ k < ending e.2 := by
    rintro k ⟨e, he, hside, hlow, hhigh⟩
    have hne : e.2.data ≠ [] := by
      intro hnil
      rw [hnil, List.length_nil] at hhigh
      omega
    exact ⟨e, he, hside.trans (h.tidy.cut x q hq).2, by simpa [TCPPacket.isContainsData] using hne,
      hlow, hhigh⟩
  rcases h.outside x q hq hdata with hbeyond | hbefore
  · obtain ⟨e, he, hside, hedata, -, hhigh⟩ := hcovers _ (hdelivered (q.data.length - 1) (by omega))
    have hlt := hbeyond e he hside hedata
    unfold ending at hlt hhigh
    omega
  · obtain ⟨e, he, hside, hedata, hlow, -⟩ := hcovers _ (hdelivered 0 hlen)
    have hlt := hbefore e he hside hedata
    omega

theorem Level.tail (h : Level T d c) {x : Side} {rest : List TCPPacket}
    (hb : c.packetsBuffer.get x = p :: rest) : Level T d (c.setBuffer x rest) where
  detail := h.detail
  started := h.started
  synSent := h.synSent
  synReceived := h.synReceived
  closing := h.closing
  lastAck := h.lastAck
  payloads := h.payloads
  below := h.below
  outside := by
    refine BySide.forall_set (P := fun x (l : List TCPPacket) => ∀ q ∈ l,
      q.isContainsData = true → Beyond x q c ∨ Before x q c) (fun q hq => h.outside x q ?_)
      (h.outside _)
    rw [hb]
    exact List.mem_cons_of_mem p hq
  tidy := h.tidy.tail hb

/-- What waits starts at the counter or behind it, and so ends behind it. -/
theorem Level.add (h : Level T d c) (hp : Cut T d p) (hold : c.isOldPacket p = false)
    (hnear : Buffering.NearWaiting p c) (huntangled : Untangled (T.sentBy d) p c)
    (hwaits : ¬ AtOnce p c) : Level T d (c.setBuffer p.side
      (TreeSet.add TCPPacket.compareTo p (c.packetsBuffer.get p.side))) where
  detail := h.detail
  started := h.started
  synSent := h.synSent
  synReceived := h.synReceived
  closing := h.closing
  lastAck := h.lastAck
  payloads := h.payloads
  below := h.below
  outside := by
    refine BySide.forall_set (P := fun x (l : List TCPPacket) => ∀ q ∈ l,
      q.isContainsData = true → Beyond x q c ∨ Before x q c)
      (PacketReceiverImpl.forall_mem_add h.outside fun hdata => Or.inl ?_) (h.outside _)
    intro e he hside hedata
    have hle := h.below e he hedata
    have hge : (c.counter.get p.side).seq ≤ p.sequence := by
      simpa [TCPConnectionImpl.isOldPacket] using hold
    have hlen := length_pos hdata
    rw [hside] at hle
    unfold ending at hle ⊢
    omega
  tidy := h.tidy.add hp hnear huntangled hwaits

/-- A packet at hand that can be processed. -/
structure Ready (T : Conversation) (d : ConnectionDetail) (p : TCPPacket)
    (c : TCPConnectionImpl) : Prop where
  level : Level T d c
  cut : Cut T d p
  can : c.isCanProcessPacket p = .ok true
  first : p.isContainsData = true → ∀ q ∈ c.packetsBuffer.get p.side,
    q.isContainsData = true → ending p < ending q ∨ (q.sequence < p.sequence ∧ Before p.side q c)
  answer : p.ack = true → p.sequence = ((T.sentBy d).get p.side).finished →
    c.state = some .lastAck → p.ackNum = ((T.sentBy d).get p.side.other).finished

/-- The one that the drain takes from the front of a buffer. -/
theorem ready_of_head (h : Level T d c) {x : Side} {rest : List TCPPacket}
    (hb : c.packetsBuffer.get x = p :: rest) (hcan : c.isCanProcessPacket p = .ok true) :
    Ready T d p (c.setBuffer x rest) := by
  have hin : p ∈ c.packetsBuffer.get x := by simp [hb]
  obtain ⟨hcut, hside⟩ := h.tidy.cut x p hin
  refine ⟨h.tail hb, hcut, hcan, fun hdata q hq hqdata => ?_, fun hack hseq _ => ?_⟩
  · rw [hside, TCPConnectionImpl.packetsBuffer_setBuffer, BySide.get_set] at hq
    have hlt := (hb ▸ h.tidy.ordered x).head_lt hq
    exact Or.inl (h.tidy.staggered x p hin q (by rw [hb]; exact List.mem_cons_of_mem p hq) hdata
      hqdata hlt)
  · rw [hside] at hseq ⊢
    exact h.tidy.answers x p hin hack hseq

theorem not_atOnce (hstarted : c.state ≠ none) (hcan : c.isCanProcessPacket p = .ok false) :
    ¬ AtOnce p c := by
  rw [AtOnce, if_neg hstarted, hcan]
  simp

/-- And the one that is picked. -/
theorem ready_of_pick (h : Level T d c) (hp : Cut T d p)
    (huntangled : Untangled (T.sentBy d) p c) (hcan : c.isCanProcessPacket p = .ok true) :
    Ready T d p c := by
  have hnow : AtOnce p c := by rwa [AtOnce, if_neg h.started]
  refine ⟨h, hp, hcan, fun hdata q hq hqdata => ?_, fun hack hseq hlast => ?_⟩
  · have hapart := huntangled.payload hdata q hq hqdata
    rwa [Apart, if_pos hnow] at hapart
  · exact huntangled.answer hack hseq fun _ => hlast

theorem Ready.seq (h : Ready T d p c) : (c.counter.get p.side).seq = p.sequence :=
  TCPConnectionImpl.sequence_of_isCanProcessPacket
    (by rw [h.level.detail]; exact h.cut.direction) h.can

theorem Ready.handshake (h : Ready T d p c) :
    c.state ≠ some .synSent ∧ (c.state = some .synReceived → p.side = .client) :=
  OldPackets.handshake_of_carries (fun hstate => (h.level.synSent hstate).2) h.level.synReceived
    h.cut.carries h.seq

/-- How a state gets to those of the shutdown; `fin` says that there was a
FIN. -/
structure Steps (fin : Bool) (s s' : Option TCPConnectionState) : Prop where
  started : s ≠ none → s' ≠ none
  closing : s' = some .finishWait1 ∨ s' = some .closeWait →
    fin = true ∨ s = some .finishWait1 ∨ s = some .closeWait
  lastAck : s' = some .lastAck →
    s = some .lastAck ∨ (fin = true ∧ (s = some .finishWait1 ∨ s = some .closeWait))

theorem Steps.refl (fin : Bool) (s : Option TCPConnectionState) : Steps fin s s :=
  ⟨fun h => h, Or.inr, Or.inl⟩

theorem Steps.trans {fin : Bool} {s s' s'' : Option TCPConnectionState} (h : Steps false s s')
    (h' : Steps fin s' s'') : Steps fin s s'' := by
  have hclosing : s' = some .finishWait1 ∨ s' = some .closeWait →
      s = some .finishWait1 ∨ s = some .closeWait :=
    fun hs => (h.closing hs).resolve_left (by decide)
  refine ⟨fun hs => h'.started (h.started hs), fun hs => (h'.closing hs).imp_right hclosing,
    fun hs => ?_⟩
  rcases h'.lastAck hs with hlast | ⟨hf, hs⟩
  · exact Or.inl ((h.lastAck hlast).resolve_right fun hs => absurd hs.1 (by decide))
  · exact Or.inr ⟨hf, hclosing hs⟩

theorem steps_acknowledged (s : Option TCPConnectionState) : Steps false s (acknowledged s) := by
  unfold acknowledged
  split
  · exact ⟨by simp, by simp, by simp⟩
  · exact ⟨by simp, fun _ => Or.inr (Or.inl rfl), by simp⟩
  · exact ⟨by simp, by simp, by simp⟩
  · exact .refl false s

theorem steps_finish (s : Option TCPConnectionState) :
    Steps true s (TCPConnectionImpl.updateConnectionStateAfterReceivedFinishPacket s) := by
  unfold TCPConnectionImpl.updateConnectionStateAfterReceivedFinishPacket
  split
  · exact ⟨by simp, fun _ => Or.inl rfl, by simp⟩
  · exact ⟨by simp, by simp, fun _ => Or.inr ⟨rfl, Or.inr rfl⟩⟩
  · exact ⟨by simp, by simp, by simp⟩
  · exact .refl true s

theorem steps_stateAfter (p : TCPPacket) (s : Option TCPConnectionState) :
    Steps p.fin s (stateAfter p s) := by
  have hack : Steps false s (if p.ack then acknowledged s else s) := by
    split
    · exact steps_acknowledged s
    · exact .refl false s
  unfold stateAfter
  cases p.fin with
  | true => exact hack.trans (steps_finish _)
  | false => exact hack

theorem steps_halted {s s' : Option TCPConnectionState}
    (h : s' = s ∨ (p.ack = true ∧ s' = acknowledged s)) : Steps false s s' := by
  rcases h with rfl | ⟨-, rfl⟩
  · exact .refl false s'
  · exact steps_acknowledged s

/-- A side that is at its end stays there: it sends nothing any more. -/
theorem Ready.stays (h : Ready T d p c) {ends : Nat → Prop} {bytes : List UInt8}
    (hmoving : Moving p ends bytes c c')
    (hlow : p.sequence ≤ (c'.counter.get p.side).seq)
    (hhigh : (c'.counter.get p.side).seq ≤ p.sequence + p.data.length + if p.fin then 1 else 0) :
    ∀ x, (c.counter.get x).seq = ((T.sentBy d).get x).finished →
      (c'.counter.get x).seq = ((T.sentBy d).get x).finished := by
  have hseq := h.seq
  refine BySide.forall_side p.side (fun hend => ?_) fun hend => ?_
  · obtain ⟨hdata, hnofin⟩ := empty_of_finished h.cut (hseq.symm.trans hend)
    rw [hdata, hnofin] at hhigh
    simp only [List.length_nil, Bool.false_eq_true, if_false] at hhigh
    omega
  · rcases hmoving.other with hother | ⟨hstate, -, -⟩
    · exact hother.trans hend
    · have hserver := h.level.synReceived hstate
      rw [h.handshake.2 hstate] at hend
      simp only [Side.other, BySide.get_server, Sent.finished] at hend
      omega

/-- So only the side other than the one of a FIN can be at its end before
it. -/
theorem Ready.finished_other (h : Ready T d p c) (hfin : p.fin = true) {x : Side}
    (hend : (c.counter.get x).seq = ((T.sentBy d).get x).finished) : x = p.side.other := by
  rcases Side.eq_or_eq_other p.side x with rfl | rfl
  · have hnofin := (empty_of_finished h.cut (h.seq.symm.trans hend)).2
    rw [hfin] at hnofin
    exact absurd hnofin (by decide)
  · rfl

theorem Beyond.handle {x : Side} (h : Beyond x q c)
    (hhandled : ∀ e ∈ c'.handled, e ∈ c.handled ∨ e.2 = p)
    (hp : p.side = x → p.isContainsData = true → ending p < ending q) : Beyond x q c' := by
  intro e he hside hdata
  rcases hhandled e he with hold | heq
  · exact h e hold hside hdata
  · rw [heq] at hside hdata ⊢
    exact hp hside hdata

theorem Before.handle {x : Side} (h : Before x q c)
    (hhandled : ∀ e ∈ c'.handled, e ∈ c.handled ∨ e.2 = p)
    (hp : p.side = x → p.isContainsData = true → q.sequence < p.sequence) : Before x q c' := by
  intro e he hside hdata
  rcases hhandled e he with hold | heq
  · exact h e hold hside hdata
  · rw [heq] at hside hdata ⊢
    exact hp hside hdata

/-- A packet before a payload that has been handled starts before the
counter. -/
theorem Level.before_lt (h : Level T d c) {x : Side} (hbefore : Before x q c)
    (hbeyond : ¬ Beyond x q c) : q.sequence < (c.counter.get x).seq := by
  simp only [Beyond, not_forall] at hbeyond
  obtain ⟨e, he, hside, hdata, -⟩ := hbeyond
  have hle := h.below e he hdata
  have hstart := hbefore e he hside hdata
  have hlen := length_pos hdata
  rw [hside] at hle
  unfold ending at hle
  omega

/-- What waits is not within the packet at hand either. -/
theorem Ready.outside (h : Ready T d p c)
    (hhandled : ∀ e ∈ c'.handled, e ∈ c.handled ∨ e.2 = p) {x : Side}
    (hq : q ∈ c.packetsBuffer.get x) (hqdata : q.isContainsData = true) :
    Beyond x q c' ∨ Before x q c' := by
  by_cases hown : p.side = x ∧ p.isContainsData = true
  · obtain ⟨rfl, hpdata⟩ := hown
    rcases h.first hpdata q hq hqdata with hlt | ⟨hlt, hearlier⟩
    · by_cases hbeyond : Beyond p.side q c
      · exact Or.inl (hbeyond.handle hhandled fun _ _ => hlt)
      · have hbefore := (h.level.outside _ q hq hqdata).resolve_left hbeyond
        have hbehind := h.level.before_lt hbefore hbeyond
        rw [h.seq] at hbehind
        exact Or.inr (hbefore.handle hhandled fun _ _ => hbehind)
    · exact Or.inr (hearlier.handle hhandled fun _ _ => hlt)
  · rw [not_and] at hown
    exact (h.level.outside x q hq hqdata).imp
      (fun hout => hout.handle hhandled fun hside hdata => absurd hdata (hown hside))
      (fun hout => hout.handle hhandled fun hside hdata => absurd hdata (hown hside))

/-- What a packet leaves, whether or not it was handled to its end. -/
theorem Ready.left (h : Ready T d p c) {ends : Nat → Prop} {bytes : List UInt8} (fin : Bool)
    (hmoving : Moving p ends bytes c c')
    (hlow : p.sequence ≤ (c'.counter.get p.side).seq)
    (hhigh : (c'.counter.get p.side).seq ≤ p.sequence + p.data.length + if p.fin then 1 else 0)
    (hfin : fin = true → p.fin = true ∧
      (c'.counter.get p.side).seq = ((T.sentBy d).get p.side).finished)
    (hsteps : Steps fin c.state c'.state) (hdetail : c'.connectionDetail = c.connectionDetail)
    (hbuffer : c'.packetsBuffer = c.packetsBuffer)
    (hhandled : ∀ e ∈ c'.handled, e ∈ c.handled ∨
      (e.2 = p ∧ ending p ≤ (c'.counter.get p.side).seq))
    (hpayloads : ∀ x, (c'.inputStream.get x).appended = c'.payloads x) : Level T d c' := by
  have hmono : ∀ x, (c.counter.get x).seq ≤ (c'.counter.get x).seq := by
    refine BySide.forall_side p.side (h.seq.trans_le hlow) ?_
    rcases hmoving.other with hother | ⟨-, -, hother⟩ <;> omega
  have hstays := h.stays hmoving hlow hhigh
  refine ⟨hdetail.trans h.level.detail, hsteps.started h.level.started,
    fun hstate => absurd hstate hmoving.synSent,
    hmoving.synReceived_le h.handshake.2 h.level.synReceived, fun hstate => ?_, fun hstate => ?_,
    hpayloads, fun e he hdata => ?_, fun x q hq hqdata => ?_, h.level.tidy.congr hbuffer⟩
  · rcases hsteps.closing hstate with hf | hclosing
    · exact ⟨p.side, (hfin hf).2⟩
    · obtain ⟨x, hend⟩ := h.level.closing hclosing
      exact ⟨x, hstays x hend⟩
  · rcases hsteps.lastAck hstate with hlast | ⟨hf, hclosing⟩
    · exact fun x => hstays x (h.level.lastAck hlast x)
    · obtain ⟨hpfin, hown⟩ := hfin hf
      obtain ⟨x, hend⟩ := h.level.closing hclosing
      obtain rfl := h.finished_other hpfin hend
      exact BySide.forall_side p.side hown (hstays _ hend)
  · rcases hhandled e he with hold | ⟨hp, hle⟩
    · exact (h.level.below e hold hdata).trans (hmono _)
    · rwa [hp]
  · rw [hbuffer] at hq
    exact h.outside (fun e he => (hhandled e he).imp_right And.left) hq hqdata

/-- Handling the packet keeps everything, also where it throws. -/
theorem Ready.deliver (h : Ready T d p c) (n : Nat) :
    (Delivery.deliver now p ⟨c, n⟩).Leaves (Level T d) (Level T d) := by
  obtain ⟨hsent, hclient⟩ := h.handshake
  have hmoving := OldPackets.deliver_moving now h.seq hsent hclient h.cut.segment.2 n
  have hframe := Delivery.deliver_frame now p c n
  have hstate := States.deliver_progressed now p c n
  cases hd : Delivery.deliver now p ⟨c, n⟩ with
  | returned t =>
    rw [hd] at hmoving hframe hstate
    have hown : (t.connection.counter.get p.side).seq = _ := hmoving.own
    refine h.left p.fin hmoving (by omega) hown.le (fun hfin => ⟨hfin, ?_⟩) ?_
      hframe.connectionDetail hframe.packetsBuffer ?_
      (hmoving.payloads h.level.payloads hframe.handled)
    · have hend := h.cut.segment.1 hfin
      rw [hfin, if_pos rfl] at hown
      unfold Sent.finished
      omega
    · rw [hstate.state]
      exact steps_stateAfter p c.state
    · intro e he
      rw [hframe.handled, List.mem_append, List.mem_singleton] at he
      rcases he with hold | rfl
      · exact Or.inl hold
      · exact Or.inr ⟨rfl, by unfold ending; omega⟩
  | thrown e t =>
    rw [hd] at hmoving hframe hstate
    obtain ⟨hmoving, -⟩ := hmoving
    have hown := hmoving.own
    unfold OldPackets.AtEnd at hown
    refine h.left false hmoving (by omega) (by omega) (fun hfin => absurd hfin (by decide))
      (steps_halted hstate.state) hframe.connectionDetail hframe.packetsBuffer
      (fun e he => Or.inl (hframe.handled ▸ he)) fun x => ?_
    have hsame : t.connection.payloads x = c.payloads x := by
      unfold TCPConnectionImpl.payloads
      rw [hframe.handled]
    rw [hsame, ← h.level.payloads]
    exact BySide.forall_side (P := fun x => (t.connection.inputStream.get x).appended =
      (c.inputStream.get x).appended) p.side (by simpa using hmoving.appended)
      hmoving.other_appended x

theorem level_drain (T : Conversation) (d : ConnectionDetail) (now : Date) :
    Delivery.DrainInvariant now (Level T d) (Level T d) where
  thrown := fun _ h => h
  drop := fun h hb _ => h.tail hb
  take := fun h hb hcan => (ready_of_head h hb hcan).deliver _
  updated := fun h => ⟨h.detail, h.started, h.synSent, h.synReceived, h.closing, h.lastAck,
    h.payloads, h.below, h.outside, h.tidy.congr rfl⟩

end Level

/-! ## Picks -/

section Picks

open OldPackets (cut_detect)

variable {T : Conversation} {now : Date} {p : JpcapPacket} {q : TCPPacket}
  {c c' : TCPConnectionImpl}

/-- An active connection of the conversation. -/
structure Active (T : Conversation) (c : TCPConnectionImpl) : Prop where
  detail : c.connectionDetail = T.detail ∨ c.connectionDetail = T.detail.swap
  level : Level T c.connectionDetail c

/-- A half-way connection of the conversation. -/
structure HalfWay (T : Conversation) (c : TCPConnectionImpl) : Prop where
  detail : c.connectionDetail = T.detail ∨ c.connectionDetail = T.detail.swap
  unstarted : c.state = none
  fresh : c.handled = []
  empty : ∀ x, (c.inputStream.get x).appended = []
  tidy : Tidy T c.connectionDetail c

theorem Active.of_level {d : ConnectionDetail} (hdetail : d = T.detail ∨ d = T.detail.swap)
    (h : Level T d c) : Active T c := by
  obtain rfl := h.detail
  exact ⟨hdetail, h⟩

theorem active_synConnection (hp : T.Cuts p) (hkey : (p.connectionDetail == T.detail) = true)
    (hsyn : (TCPPacketImpl p).isHandsShake1Packet = true) :
    Active T (PacketReceiverImpl.synConnection now (TCPPacketImpl p)) := by
  have hp' := hp.1 hkey
  rw [if_pos (show (p.syn && !p.ack) = true from hsyn)] at hp'
  obtain ⟨hdetail, hseq, hempty⟩ := hp'
  set c := PacketReceiverImpl.synConnection now (TCPPacketImpl p) with hc
  have hcd : c.connectionDetail = T.detail := hdetail
  have hstate : c.state = some .synSent := rfl
  have hhandled : c.handled = [(none, TCPPacketImpl p)] := rfl
  have hnodata : ∀ e ∈ c.handled, e.2.isContainsData = false := by
    intro e he
    rw [hhandled, List.mem_singleton] at he
    rw [he]
    simp [TCPPacket.isContainsData, TCPPacketImpl, hempty]
  have hbuffer : ∀ x, c.packetsBuffer.get x = [] := by
    intro x
    cases x <;> rfl
  have hclient : c.counter.client.seq = T.sent.client.isn := by
    have hcounter : c.counter.client.seq = p.sequence + p.data.length :=
      updateCounter_seq (TCPPacketImpl p)
    rw [hcounter, hempty, hseq]
    rfl
  refine ⟨Or.inl hcd, rfl, by simp [hstate], fun _ => ⟨hcd, fun x => ?_⟩, by simp [hstate],
    by simp [hstate], by simp [hstate], fun x => ?_, fun e he hdata => ?_, fun x q hq => ?_,
    tidy_of_empty hbuffer⟩
  · rw [show T.sentBy c.connectionDetail = T.sent by simp [Conversation.sentBy, hcd]]
    cases x
    · exact hclient.le
    · exact Nat.zero_le _
  · rw [(OldPackets.covers_of_single hhandled hempty).2 x]
    cases x <;> rfl
  · simp [hnodata e he] at hdata
  · rw [hbuffer x] at hq
    exact absurd hq (by simp)

theorem halfWay_halfWayConnection (hp : T.Cuts p)
    (hkey : (p.connectionDetail == T.detail) = true)
    (hsyn : (TCPPacketImpl p).isHandsShake1Packet = false)
    (hdata : (TCPPacketImpl p).isContainsData = true) :
    HalfWay T (PacketReceiverImpl.halfWayConnection now (TCPPacketImpl p)) := by
  have hd := Reassembly.detail_of_captures hp.1 hkey
  have hcut := cut_detect hp hkey hsyn
    (Reassembly.isHandsShake2Packet_of_isContainsData hp.1 hkey hdata) hd
  set q := (TCPPacketImpl p).detectPacketFlowDirection p.connectionDetail with hq
  have hside : q.side = .client := by
    simp [hq, TCPPacket.side, TCPPacket.detectPacketFlowDirection, TCPPacketImpl,
      ConnectionDetail.isTheSame_iff]
  refine ⟨hd, rfl, rfl, fun x => by cases x <;> rfl, ?_, ?_, ?_, ?_⟩
  · intro x
    cases x with
    | client => exact Buffering.sorted_singleton _
    | server => exact Buffering.sorted_nil
  · intro x q' hq'
    cases x with
    | client =>
      obtain rfl := List.mem_singleton.mp hq'
      exact ⟨hcut, hside⟩
    | server => exact absurd hq' (by simp [PacketReceiverImpl.halfWayConnection])
  · intro x q' hq' q'' hq'' _ _ hlt
    cases x with
    | client =>
      rw [List.mem_singleton.mp hq', List.mem_singleton.mp hq''] at hlt
      exact absurd hlt (lt_irrefl _)
    | server => exact absurd hq' (by simp [PacketReceiverImpl.halfWayConnection])
  · intro x q' hq' _ hseq
    cases x with
    | client =>
      obtain rfl := List.mem_singleton.mp hq'
      rw [← hside] at hseq
      have hempty : p.data = [] := (empty_of_finished hcut hseq).1
      simp [TCPPacket.isContainsData, TCPPacketImpl, hempty] at hdata
    | server => exact absurd hq' (by simp [PacketReceiverImpl.halfWayConnection])

/-- The SYN/ACK starts the counter of the server. -/
theorem active_processSyncAckPacket (h : Active T c) (hp : T.Cuts p)
    (hkey : (p.connectionDetail == T.detail) = true) (hstate : c.state = some .synSent)
    (hsynAck : (TCPPacketImpl p).isHandsShake2Packet = true) :
    (c.processSyncAckPacket ((TCPPacketImpl p).detectPacketFlowDirection c.connectionDetail)).Sat
      (Active T) (Active T) := by
  have hp' := hp.1 hkey
  obtain ⟨hs, ha⟩ : p.syn = true ∧ p.ack = true := by
    simpa [TCPPacket.isHandsShake2Packet, TCPPacketImpl] using hsynAck
  simp only [hs, ha, Bool.not_true, Bool.and_false, Bool.false_eq_true, if_false, if_true] at hp'
  obtain ⟨-, hseq, hempty⟩ := hp'
  obtain ⟨hcd, hle⟩ := h.level.synSent hstate
  have hsent : T.sentBy c.connectionDetail = T.sent := by simp [Conversation.sentBy, hcd]
  rw [hsent] at hle
  unfold TCPConnectionImpl.processSyncAckPacket
  split
  · exact h
  · set q := (TCPPacketImpl p).detectPacketFlowDirection c.connectionDetail with hq
    set c' := TCPConnectionImpl.record { c with
      counter := (c.counter.update .server q).sequenceAddOne .client
      state := some .synReceived } c.state q with hc'
    have hhandled : c'.handled = c.handled ++ [(c.state, q)] := rfl
    have hstate' : c'.state = some .synReceived := rfl
    have hdata : q.data = [] := hempty
    have hserver : c'.counter.server.seq = T.sent.server.isn := by
      show (updateCounter q).1.seq = _
      rw [updateCounter_seq, hdata]
      exact hseq
    have hclient : c'.counter.client.seq = c.counter.client.seq + 1 := rfl
    have hold : ∀ e ∈ c'.handled, e.2.isContainsData = true → e ∈ c.handled := by
      intro e he hedata
      rw [hhandled, List.mem_append, List.mem_singleton] at he
      rcases he with hin | rfl
      · exact hin
      · simp [TCPPacket.isContainsData, hdata] at hedata
    refine Active.of_level h.detail ⟨rfl, by simp [hstate'], by simp [hstate'], fun _ => ?_,
      by simp [hstate'], by simp [hstate'], ?_, fun e he hedata => ?_, fun x q' hq' hqdata => ?_,
      h.level.tidy.congr rfl⟩
    · rw [hsent]
      exact hserver.le
    · obtain ⟨hpay, hpayOther⟩ := OldPackets.payloads_record hhandled
      rw [hdata, List.append_nil] at hpay
      refine BySide.forall_side q.side ?_ ?_
      · rw [hpay]
        exact h.level.payloads _
      · rw [hpayOther]
        exact h.level.payloads _
    · have hbelow := h.level.below e (hold e he hedata) hedata
      have hisn := hle e.2.side
      cases hside : e.2.side with
      | client =>
        rw [hside] at hbelow
        simp only [BySide.get_client] at hbelow ⊢
        omega
      | server =>
        rw [hside] at hbelow hisn
        simp only [BySide.get_server] at hbelow hisn ⊢
        omega
    · exact (h.level.outside x q' hq' hqdata).imp
        (fun hout e he hside hedata => hout e (hold e he hedata) hside hedata)
        (fun hout e he hside hedata => hout e (hold e he hedata) hside hedata)

/-- A packet that completes an exchange is the first to be handled. -/
theorem level_promoted (now : Date) (h : HalfWay T c) (hdata : q.isContainsData = true)
    (hdone : PacketReceiverImpl.completesExchange q c = true)
    (huntangled : Untangled (T.sentBy c.connectionDetail) q c) :
    ((PacketReceiverImpl.primed q c).processDataPacket now q).Sat
      (fun c' => Level T c.connectionDetail (c'.record (some .established) q))
      (Level T c.connectionDetail) := by
  have hnow : AtOnce q c := by rwa [AtOnce, if_pos h.unstarted]
  have hempty : ∀ c' : TCPConnectionImpl, c'.handled = c.handled → ∀ x, c'.payloads x = [] := by
    intro c' hhandled x
    simp [TCPConnectionImpl.payloads, hhandled, h.fresh]
  refine ((TCPConnectionImpl.processDataPacket_sat now q _).and
    (Delivery.processDataPacket_frame now q _)).mono ?_ ?_
  · rintro c' ⟨hprocessed, hframe⟩
    set c'' := c'.record (some .established) q with hc''
    have hstate : c''.state = some .established := hprocessed.state
    have hfresh : c'.handled = c.handled := hframe.handled
    have hhandled : c''.handled = c'.handled ++ [(some .established, q)] := rfl
    have hone : ∀ e ∈ c''.handled, e.2 = q := by
      intro e he
      rw [hhandled, hfresh, h.fresh, List.nil_append, List.mem_singleton] at he
      rw [he]
    have hseq : (c''.counter.get q.side).seq = ending q := by
      show (c'.counter.get q.side).seq = _
      rw [hprocessed.counter, SequenceCounter.get_update, updateCounter_seq]
      rfl
    refine ⟨hframe.connectionDetail, by simp [hstate], by simp [hstate], by simp [hstate],
      by simp [hstate], by simp [hstate], ?_, fun e he _ => ?_, fun x q' hq' hqdata => ?_,
      h.tidy.congr hframe.packetsBuffer⟩
    · obtain ⟨hpay, hpayOther⟩ := OldPackets.payloads_record hhandled
      refine BySide.forall_side q.side ?_ ?_
      · rw [hpay, hempty c' hfresh]
        exact hprocessed.appended.trans (congrArg (· ++ q.data) (h.empty q.side))
      · rw [hpayOther, hempty c' hfresh]
        exact hprocessed.other_appended.trans (h.empty q.side.other)
    · rw [hone e he, hseq]
    · by_cases hside : q.side = x
      · subst hside
        have hin : q' ∈ c.packetsBuffer.get q.side := hframe.packetsBuffer ▸ hq'
        have hapart := huntangled.payload hdata q' hin hqdata
        rw [Apart, if_pos hnow] at hapart
        refine hapart.imp (fun hlt e he _ _ => ?_) fun hlt e he _ _ => ?_
        · rwa [hone e he]
        · rw [hone e he]
          exact hlt.1
      · exact Or.inl fun e he hside' _ => absurd (hone e he ▸ hside') hside
  · rintro c' ⟨hrefused, hframe⟩
    have hstate : c'.state = some .established := hrefused.state
    have hfresh : c'.handled = c.handled := hframe.handled
    have hnone : ∀ e, e ∉ c'.handled := by
      intro e
      rw [hfresh, h.fresh]
      simp
    refine ⟨hframe.connectionDetail, by simp [hstate], by simp [hstate], by simp [hstate],
      by simp [hstate], by simp [hstate], fun x => ?_, fun e he => absurd he (hnone e),
      fun x q' _ _ => Or.inl fun e he => absurd he (hnone e), h.tidy.congr hframe.packetsBuffer⟩
    rw [hempty c' hfresh]
    exact (hrefused.sameBytes.appended x).trans (h.empty x)

/-- `process` on a packet of the conversation. -/
theorem level_process (now : Date) (h : Level T c.connectionDetail c)
    (hq : Cut T c.connectionDetail q) (hold : c.isOldPacket q = false)
    (hnear : Buffering.NearWaiting q c)
    (huntangled : Untangled (T.sentBy c.connectionDetail) q c) :
    (PacketReceiverImpl.process now q c).Leaves (Level T c.connectionDetail)
      (Level T c.connectionDetail) := by
  refine PacketReceiverImpl.process_leaves (level_drain T _ now) h
    (fun hcan => (ready_of_pick h hq huntangled hcan).deliver 0) fun hcan => ?_
  exact h.add hq hold hnear huntangled (not_atOnce h.started hcan)

/-- The active connections of the conversation. -/
def Actives (T : Conversation) (c : TCPConnectionImpl) : Prop :=
  (c.connectionDetail == T.detail) = true → Active T c

/-- The half-way connections of the conversation. -/
def HalfWays (T : Conversation) (c : TCPConnectionImpl) : Prop :=
  (c.connectionDetail == T.detail) = true → HalfWay T c

/-- A part of `pick` that keeps the endpoints and, on a connection of the
conversation, the invariant. -/
private theorem ends_of_actives {o : Outcome Throwable Delivery} {d : ConnectionDetail}
    (hdetail : o.Leaves (fun c => c.connectionDetail = d) (fun c => c.connectionDetail = d))
    (h : (d == T.detail) = true → o.Leaves (Active T) (Active T)) :
    o.Ends (fun t => Actives T t.connection) (fun _ t => True ∧ Actives T t.connection) := by
  have hleaves := PacketReceiverImpl.leaves_of_detail (K := fun d => (d == T.detail) = true)
    hdetail h
  exact (Outcome.ends_const.mpr hleaves).mono (fun _ ht => ht) fun _ _ ht => ⟨trivial, ht⟩

/-- What `Clean` says of the connection that a packet is for. -/
structure Meets (T : Conversation) (p : JpcapPacket) (c : TCPConnectionImpl) : Prop where
  pair : (c.connectionDetail == p.connectionDetail) = true
  near : Buffering.NearWaiting (p.detected c.connectionDetail) c
  untangled : (c.connectionDetail == T.detail) = true →
    c.state = none ∨ PacketReceiverImpl.isIgnored (p.detected c.connectionDetail) c = false →
      Untangled (T.sentBy c.connectionDetail) (p.detected c.connectionDetail) c

theorem meets_of_clean {r : PacketReceiverImpl} (hwf : PacketReceiverImpl.WellFormed r)
    (hclean : Clean T r (.pick now p)) (hrouted : r.routed (TCPPacketImpl p) = some c) :
    Meets T p c :=
  ⟨hwf.pair_of_routed hrouted, hclean.2.1 c hrouted, hclean.2.2 c hrouted⟩

/-- A packet for a connection of the conversation is a segment of it. -/
theorem Meets.cut (h : Meets T p c) (hp : T.Cuts p)
    (hkey : (c.connectionDetail == T.detail) = true)
    (hdetail : c.connectionDetail = T.detail ∨ c.connectionDetail = T.detail.swap)
    (hsyn : (TCPPacketImpl p).isHandsShake1Packet = false)
    (hsynAck : (TCPPacketImpl p).isHandsShake2Packet = false) :
    Cut T c.connectionDetail (p.detected c.connectionDetail) :=
  cut_detect hp (BEq.trans (BEq.symm h.pair) hkey) hsyn hsynAck hdetail

/-- One with data is no SYN/ACK. -/
theorem Meets.notSynAck (h : Meets T p c) (hp : T.Cuts p)
    (hkey : (c.connectionDetail == T.detail) = true)
    (hdata : (TCPPacketImpl p).isContainsData = true) :
    (TCPPacketImpl p).isHandsShake2Packet = false :=
  Reassembly.isHandsShake2Packet_of_isContainsData hp.1 (BEq.trans (BEq.symm h.pair) hkey) hdata

theorem pickRule (T : Conversation) (now : Date) (hp : T.Cuts p) :
    PacketReceiverImpl.PickRule now (TCPPacketImpl p) (Meets T p) (Actives T) (HalfWays T)
      (fun _ => True) (fun _ => Actives T) where
  weaken := fun h => h
  full := trivial
  opened := fun hsyn hkey => active_synConnection hp hkey hsyn
  candidate := fun hsyn hdata hkey => halfWay_halfWayConnection hp hkey hsyn hdata
  buffered := by
    intro c h hmeets hsyn hdata hdone
    refine PacketReceiverImpl.bufferPacket_sat h fun hkey => ?_
    have hhalf := h hkey
    have hcut := hmeets.cut hp hkey hhalf.detail hsyn (hmeets.notSynAck hp hkey hdata)
    have hwaits : ¬ AtOnce (p.detected c.connectionDetail) c := by
      rw [AtOnce, if_pos hhalf.unstarted]
      exact Bool.eq_false_iff.mp hdone
    exact ⟨hhalf.detail, hhalf.unstarted, hhalf.fresh, hhalf.empty, hhalf.tidy.add hcut hmeets.near
      (hmeets.untangled hkey (Or.inl hhalf.unstarted)) hwaits⟩
  promoted := by
    intro c h hmeets hsyn hdata hdone
    refine ends_of_actives (PacketReceiverImpl.promote_detail now _ c) fun hkey => ?_
    have hhalf := h hkey
    have hlevel := PacketReceiverImpl.promote_leaves (level_drain T _ now)
      (level_promoted now (q := p.detected c.connectionDetail) hhalf hdata hdone
        (hmeets.untangled hkey (Or.inl hhalf.unstarted)))
    exact hlevel.mono (fun _ => Active.of_level hhalf.detail)
      (fun _ => Active.of_level hhalf.detail)
  answered := by
    intro c h hmeets hignored hsynAck
    have hstate : c.state = some .synSent :=
      PacketReceiverImpl.synSent_of_notIgnored hignored hsynAck
    refine (Outcome.ends_const.mpr ?_).mono (fun _ hc => hc) fun _ _ hc => ⟨trivial, hc⟩
    by_cases hkey : (c.connectionDetail == T.detail) = true
    · exact (active_processSyncAckPacket (h hkey) hp (BEq.trans (BEq.symm hmeets.pair) hkey) hstate
        hsynAck).mono (fun _ hc _ => hc) fun _ hc _ => hc
    · refine (PacketReceiverImpl.processSyncAckPacket_detail _ c).mono ?_ ?_
      · intro c' hc' hkey'
        exact absurd (hc' ▸ hkey') hkey
      · intro c' hc' hkey'
        exact absurd (hc' ▸ hkey') hkey
  processed := by
    intro c h hmeets hignored hsyn hsynAck
    refine ends_of_actives (PacketReceiverImpl.process_detail now _ c) fun hkey => ?_
    have hactive := h hkey
    exact (level_process now hactive.level (hmeets.cut hp hkey hactive.detail hsyn hsynAck)
      (PacketReceiverImpl.notOld_of_notIgnored hignored) hmeets.near
      (hmeets.untangled hkey (Or.inr hignored))).mono
      (fun _ => Active.of_level hactive.detail) (fun _ => Active.of_level hactive.detail)

end Picks

/-! ## Runs -/

section Runs

variable {T : Conversation} {c c' : TCPConnectionImpl} {r : PacketReceiverImpl}

/-- Reading changes no appended byte. -/
theorem Active.read (hread : PacketReceiverImpl.SameButRead c c') (h : Active T c) :
    Active T c' := by
  obtain ⟨streams, rfl, hsame, -⟩ := hread
  obtain ⟨hdetail, hlevel⟩ := h
  exact ⟨hdetail, rfl, hlevel.started, hlevel.synSent, hlevel.synReceived, hlevel.closing,
    hlevel.lastAck, fun x => (hsame.appended x).trans (hlevel.payloads x), hlevel.below,
    hlevel.outside, hlevel.tidy.congr rfl⟩

theorem HalfWay.read (hread : PacketReceiverImpl.SameButRead c c') (h : HalfWay T c) :
    HalfWay T c' := by
  obtain ⟨streams, rfl, hsame, -⟩ := hread
  exact ⟨h.detail, h.unstarted, h.fresh, fun x => (hsame.appended x).trans (h.empty x),
    h.tidy.congr rfl⟩

/-- The invariant of the receiver in a run of such packets. -/
structure Following (T : Conversation) (r : PacketReceiverImpl) : Prop where
  wellFormed : PacketReceiverImpl.WellFormed r
  tables : PacketReceiverImpl.Tables (Actives T) (HalfWays T) r

theorem following_create (T : Conversation) (filter : ConnectionFilter) :
    Following T (PacketReceiverImpl.create filter) :=
  ⟨PacketReceiverImpl.wellFormed_create filter, PacketReceiverImpl.tables_create _ _ filter⟩

theorem following_step {call : Call} (h : Following T r) (hcall : Clean T r call) :
    Following T (r.step call) := by
  refine ⟨PacketReceiverImpl.step_wellFormed h.wellFormed call, ?_⟩
  cases call with
  | pick now packet =>
    exact (Outcome.ends_const.mp (((pickRule T now hcall.1).pick_ends h.wellFormed
      (fun c hc => meets_of_clean h.wellFormed hcall hc) h.tables).mono (fun _ h' => h')
      fun _ _ h' => h'.2)).state
  | _ =>
    refine h.tables.step_other ?_ ?_ nofun
    · intro c c' hread hc hkey
      exact (hc (hread.connectionDetail ▸ hkey)).read hread
    · intro c c' hread hc hkey
      exact (hc (hread.connectionDetail ▸ hkey)).read hread

end Runs

end Overtaking

end ConnectionSniffer
