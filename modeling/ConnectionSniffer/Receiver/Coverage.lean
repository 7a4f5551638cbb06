import ConnectionSniffer.Receiver.Reassembly

/-!
# The bytes that have been handled

`Covers` says that a byte was in a payload that has been handled, and
`payloads` puts these payloads one after the other.  `Tracks` is the
invariant that ties both to the counters and the streams.  On a connection
made by a SYN the handled payloads cover the bytes up to the counter; on
one found half-way they do so from the first handled byte on.

`deliver_moving` says what one packet does, and `Tracks.of_moving` that the
invariant holds again after it.  A check of the handshake that throws
leaves everything where it was; `Still` is this case.  A stream that
refuses a payload comes after the ACK, so the counter may have moved.
-/

namespace ConnectionSniffer

/-- A FIN stands at the end of the bytes, and a RST carries none of them. -/
def Sent.Segment (sent : Sent) (p : JpcapPacket) : Prop :=
  (p.fin = true → p.sequence + p.data.length = sent.isn + 1 + sent.bytes.length) ∧
    (p.rst = true → p.data = [])

instance (sent : Sent) (p : JpcapPacket) : Decidable (sent.Segment p) :=
  inferInstanceAs (Decidable (_ ∧ _))

/-- A captured packet that is cut from the bytes of its sender. -/
def Conversation.Cuts (T : Conversation) (p : JpcapPacket) : Prop :=
  T.Captures p ∧ ((p.connectionDetail == T.detail) = true → p.syn = false →
    (p.connectionDetail = T.detail → T.sent.client.Segment p) ∧
      (p.connectionDetail = T.detail.swap → T.sent.server.Segment p))

instance (T : Conversation) (p : JpcapPacket) : Decidable (T.Cuts p) :=
  inferInstanceAs (Decidable (_ ∧ (_ → _ → _)))

namespace TCPConnectionImpl

/-- The byte with number `k` of side `x` was in a payload that has been
handled. -/
def Covers (c : TCPConnectionImpl) (x : Side) (k : Nat) : Prop :=
  ∃ e ∈ c.handled, e.2.side = x ∧ e.2.sequence ≤ k ∧ k < e.2.sequence + e.2.data.length

instance (c : TCPConnectionImpl) (x : Side) (k : Nat) : Decidable (c.Covers x k) :=
  inferInstanceAs (Decidable (∃ e ∈ c.handled, _))

/-- The payloads of side `x` that have been handled, one after the other. -/
def payloads (c : TCPConnectionImpl) (x : Side) : List UInt8 :=
  (c.handled.filter fun e => e.2.side = x).flatMap fun e => e.2.data

instance (c : TCPConnectionImpl) : Decidable c.openedBySyn :=
  inferInstanceAs (Decidable (∃ h ∈ c.handled, _))

end TCPConnectionImpl

namespace OldPackets

/-! ## What `deliver` does to counters and streams -/

section Deliver

variable {now : Date} {p : TCPPacket} {c c' c'' : TCPConnectionImpl}

/-- Nothing has moved that the invariant looks at. -/
structure Still (c c' : TCPConnectionImpl) : Prop where
  seq : ∀ x, (c'.counter.get x).seq = (c.counter.get x).seq
  state : c'.state = c.state
  appended : ∀ x, (c'.inputStream.get x).appended = (c.inputStream.get x).appended

/-- Between the parts of `deliver`: the sender's counter has got to one of
`ends`, and `bytes` have been appended. -/
structure Moving (p : TCPPacket) (ends : Nat → Prop) (bytes : List UInt8)
    (c c' : TCPConnectionImpl) : Prop where
  own : ends (c'.counter.get p.side).seq
  other : (c'.counter.get p.side.other).seq = (c.counter.get p.side.other).seq ∨
    (c.state = some .synReceived ∧ c'.state ≠ some .synReceived ∧
      (c'.counter.get p.side.other).seq = (c.counter.get p.side.other).seq + 1)
  synSent : c'.state ≠ some .synSent
  synReceived : c'.state = some .synReceived → c.state = some .synReceived
  appended : (c'.inputStream.get p.side).appended = (c.inputStream.get p.side).appended ++ bytes
  other_appended : (c'.inputStream.get p.side.other).appended =
    (c.inputStream.get p.side.other).appended

/-- The two places of a counter while its packet is being handled. -/
def AtEnd (p : TCPPacket) (seq : Nat) : Prop :=
  seq = p.sequence ∨ seq = p.sequence + p.data.length

theorem still_processRstPacket (hseq : (c.counter.get p.side).seq = p.sequence)
    (hdata : p.data = []) : Still c (c.processRstPacket now p) where
  seq := by
    have hcounter := TCPConnectionImpl.processRstPacket_counter now p c
    refine BySide.forall_side p.side ?_ ?_
    · rw [hcounter, SequenceCounter.get_update, updateCounter_seq, hdata, hseq]
      rfl
    · rw [hcounter, SequenceCounter.get_other_update]
  state := rfl
  appended := fun x => (TCPConnectionImpl.processRstPacket_streams now p c x).1

/-- A handler that moves the counter of the packet's sender behind the
packet and leaves the streams alone. -/
private theorem Still.update (h : Still c c') {s : TCPConnectionState}
    (hsent : s ≠ .synSent) (hreceived : s ≠ .synReceived)
    (hcounter : c''.counter = c'.counter.update p.side p) (hstate : c''.state = some s)
    (hstreams : c''.inputStream = c'.inputStream) : Moving p (AtEnd p) [] c c'' where
  own := by
    rw [hcounter, SequenceCounter.get_update, updateCounter_seq]
    exact Or.inr rfl
  other := by
    rw [hcounter, SequenceCounter.get_other_update]
    exact Or.inl (h.seq _)
  synSent := by simpa [hstate] using hsent
  synReceived := fun h' => absurd (Option.some.inj (hstate.symm.trans h')) hreceived
  appended := by rw [hstreams, h.appended, List.append_nil]
  other_appended := by rw [hstreams, h.appended]

theorem Still.moving (h : Still c c') (hseq : (c.counter.get p.side).seq = p.sequence)
    (hsent : c.state ≠ some .synSent) : Moving p (AtEnd p) [] c c' where
  own := Or.inl ((h.seq _).trans hseq)
  other := Or.inl (h.seq _)
  synSent := h.state ▸ hsent
  synReceived := fun h' => h.state ▸ h'
  appended := by rw [h.appended, List.append_nil]
  other_appended := h.appended _

/-- What is left when `e` was thrown: no byte has been appended, and nothing
has moved if it was not the stream that threw. -/
def Halts (p : TCPPacket) (c : TCPConnectionImpl) (e : Throwable) (c' : TCPConnectionImpl) :
    Prop :=
  Moving p (AtEnd p) [] c c' ∧ (e.isRefusal = false → Still c c')

theorem moving_processAckPacket (h : Still c c')
    (hseq : (c.counter.get p.side).seq = p.sequence) (hsent : c.state ≠ some .synSent)
    (hclient : c.state = some .synReceived → p.side = .client) :
    (c'.processAckPacket p).Ends (Moving p (AtEnd p) [] c) (Halts p c) := by
  have hhalts : ∀ e, Halts p c e c' := fun _ => ⟨h.moving hseq hsent, fun _ => h⟩
  unfold TCPConnectionImpl.processAckPacket
  split
  · exact hhalts _
  · rename_i hstate
    have hside := hclient (h.state.symm.trans hstate)
    unfold TCPConnectionImpl.processHandshake3AckPacket
    split
    · exact hhalts _
    · refine ⟨?_, ?_, by simp, by simp, ?_, ?_⟩
      · rw [hside]
        exact Or.inr (updateCounter_seq p)
      · refine Or.inr ⟨h.state.symm.trans hstate, by simp, ?_⟩
        rw [hside]
        show c'.counter.server.seq + 1 = _
        exact congrArg (· + 1) (h.seq .server)
      · rw [List.append_nil]
        exact h.appended _
      · exact h.appended _
  · exact h.update (s := .closeWait) (by decide) (by decide) rfl rfl rfl
  · exact h.update (s := .closed) (by decide) (by decide) rfl rfl rfl
  · exact h.moving hseq hsent

theorem moving_processDataPacket (h : Moving p (AtEnd p) [] c c') :
    (c'.processDataPacket now p).Ends (Moving p (· = p.sequence + p.data.length) p.data c)
      (Halts p c) := by
  refine ((TCPConnectionImpl.processDataPacket_sat now p c').ends
    (TCPConnectionImpl.processDataPacket_throws now p c')).mono ?_ ?_
  · intro c'' hd
    refine ⟨?_, ?_, hd.state ▸ h.synSent, hd.state ▸ h.synReceived, ?_, ?_⟩
    · rw [hd.counter, SequenceCounter.get_update, updateCounter_seq]
    · rw [hd.counter, SequenceCounter.get_other_update, hd.state]
      exact h.other
    · rw [hd.appended, h.appended, List.append_nil]
    · rw [hd.other_appended, h.other_appended]
  · rintro e c'' ⟨hrefuses, hd⟩
    refine ⟨⟨?_, ?_, hd.state ▸ h.synSent, hd.state ▸ h.synReceived, ?_, ?_⟩, fun hrefusal => ?_⟩
    · rw [hd.counter]
      exact h.own
    · rw [hd.counter, hd.state]
      exact h.other
    · rw [hd.sameBytes.appended, h.appended]
    · rw [hd.sameBytes.appended, h.other_appended]
    · rw [hrefuses.1] at hrefusal
      exact absurd hrefusal (by decide)

theorem moving_of_noData (h : Moving p (AtEnd p) [] c c') (hdata : p.isContainsData = false) :
    Moving p (· = p.sequence + p.data.length) p.data c c' := by
  have hempty : p.data = [] := by simpa [TCPPacket.isContainsData] using hdata
  have hown := h.own
  refine ⟨?_, h.other, h.synSent, h.synReceived, ?_, h.other_appended⟩
  · simpa [AtEnd, hempty] using hown
  · rw [hempty]
    exact h.appended

theorem moving_processFinishPacket (now : Date)
    (h : Moving p (· = p.sequence + p.data.length) p.data c c') :
    Moving p (· = p.sequence + p.data.length + 1) p.data c (c'.processFinishPacket now p) := by
  obtain ⟨happ, -, -⟩ := TCPConnectionImpl.processFinishPacket_streams now p c'
  have hcounter := TCPConnectionImpl.processFinishPacket_counter now p c'
  have hstate := TCPConnectionImpl.processFinishPacket_state now p c'
  have hfrom : ∀ s, (s = .synSent ∨ s = .synReceived) →
      ((c'.processFinishPacket now p).state = some s ↔ c'.state = some s) := by
    intro s hs
    rw [hstate]
    unfold TCPConnectionImpl.updateConnectionStateAfterReceivedFinishPacket
    split <;> rcases hs with rfl | rfl <;> simp_all
  refine ⟨?_, ?_, ?_, ?_, (happ _).trans h.appended, (happ _).trans h.other_appended⟩
  · rw [hcounter, SequenceCounter.get_sequenceAddOne, SequenceCounter.get_update,
      updateCounter_seq]
  · rw [hcounter, SequenceCounter.get_other_sequenceAddOne, SequenceCounter.get_other_update,
      ne_eq, hfrom _ (Or.inr rfl)]
    exact h.other
  · rw [ne_eq, hfrom _ (Or.inl rfl)]
    exact h.synSent
  · rw [hfrom _ (Or.inr rfl)]
    exact h.synReceived

/-- A packet that starts at its sender's counter moves the counter behind
its payload and its FIN, and the payload is appended. -/
theorem deliver_moving (now : Date) (hseq : (c.counter.get p.side).seq = p.sequence)
    (hsent : c.state ≠ some .synSent) (hclient : c.state = some .synReceived → p.side = .client)
    (hrst : p.rst = true → p.data = []) (n : Nat) :
    (Delivery.deliver now p ⟨c, n⟩).Ends
      (fun t => Moving p (· = p.sequence + p.data.length + if p.fin then 1 else 0) p.data c
        t.connection)
      (fun e t => Halts p c e t.connection) := by
  refine Delivery.deliver_connection_ends (R := Still c) (A := Moving p (AtEnd p) [] c)
    (D := Moving p (· = p.sequence + p.data.length) p.data c) (F := Halts p c) ?_ ?_ ?_ ?_ ?_ ?_
  · split
    · rename_i hr
      exact still_processRstPacket hseq (hrst hr)
    · exact ⟨fun _ => rfl, rfl, fun _ => rfl⟩
  · intro c' h _
    exact moving_processAckPacket h hseq hsent hclient
  · intro c' h _
    exact h.moving hseq hsent
  · intro c' h _
    exact moving_processDataPacket h
  · intro c' h hdata
    exact moving_of_noData h hdata
  · intro c' h
    cases hfin : p.fin with
    | true =>
      have hm := moving_processFinishPacket now h
      exact ⟨hm.own, hm.other, hm.synSent, hm.synReceived, hm.appended, hm.other_appended⟩
    | false => exact ⟨h.own, h.other, h.synSent, h.synReceived, h.appended, h.other_appended⟩

end Deliver

/-! ## The invariant -/

/-- Counters and streams agree with what has been handled. -/
structure Tracks (S : BySide Sent) (syn : Prop) (c : TCPConnectionImpl) : Prop where
  synSent : c.state = some .synSent → syn ∧ ∀ x, (c.counter.get x).seq ≤ (S.get x).isn
  synReceived : c.state = some .synReceived → c.counter.server.seq ≤ S.server.isn
  /-- The appended payloads have no gap before the counter. -/
  covers : ∀ x k, (S.get x).isn + 1 ≤ k → k < (S.get x).isn + 1 + (S.get x).bytes.length →
    k < (c.counter.get x).seq → (syn ∨ ∃ j ≤ k, c.Covers x j) → c.Covers x k
  below : ∀ x k, c.Covers x k → k < (c.counter.get x).seq
  payloads : ∀ x, (c.inputStream.get x).appended = c.payloads x

section Invariant

variable {S : BySide Sent} {syn : Prop} {now : Date} {p : TCPPacket} {c c' : TCPConnectionImpl}

/-- A packet that has been handled covers its own bytes. -/
theorem covers_record {met : Option TCPConnectionState}
    (hhandled : c'.handled = c.handled ++ [(met, p)]) (x : Side) (k : Nat) :
    c'.Covers x k ↔ c.Covers x k ∨
      (p.side = x ∧ p.sequence ≤ k ∧ k < p.sequence + p.data.length) := by
  unfold TCPConnectionImpl.Covers
  simp [hhandled, or_and_right, exists_or]

theorem payloads_record {met : Option TCPConnectionState}
    (hhandled : c'.handled = c.handled ++ [(met, p)]) :
    c'.payloads p.side = c.payloads p.side ++ p.data ∧
      c'.payloads p.side.other = c.payloads p.side.other := by
  unfold TCPConnectionImpl.payloads
  simp [hhandled, List.filter_append]

theorem Tracks.of_still (h : Tracks S syn c) (hstill : Still c c')
    (hhandled : c'.handled = c.handled) : Tracks S syn c' := by
  have hcovers : ∀ x k, c'.Covers x k ↔ c.Covers x k := by
    intro x k
    unfold TCPConnectionImpl.Covers
    rw [hhandled]
  refine ⟨?_, ?_, ?_, ?_, ?_⟩
  · intro hstate
    obtain ⟨hsyn, hle⟩ := h.synSent (hstill.state ▸ hstate)
    exact ⟨hsyn, fun x => (hstill.seq x).trans_le (hle x)⟩
  · intro hstate
    have hseq := hstill.seq .server
    simp only [BySide.get_server] at hseq
    rw [hseq]
    exact h.synReceived (hstill.state ▸ hstate)
  · intro x k
    simp only [hcovers, hstill.seq]
    exact h.covers x k
  · intro x k
    simp only [hcovers, hstill.seq]
    exact h.below x k
  · intro x
    rw [hstill.appended, h.payloads]
    unfold TCPConnectionImpl.payloads
    rw [hhandled]

/-- A packet of the bytes starts behind the SYN of its sender, so none is
handled in `SynSent`, and only the client's in `SynReceived`. -/
theorem handshake_of_carries
    (hsent : c.state = some .synSent → ∀ x, (c.counter.get x).seq ≤ (S.get x).isn)
    (hreceived : c.state = some .synReceived → c.counter.server.seq ≤ S.server.isn)
    (hcarries : (S.get p.side).Carries p.toJpcapPacket)
    (hseq : (c.counter.get p.side).seq = p.sequence) :
    c.state ≠ some .synSent ∧ (c.state = some .synReceived → p.side = .client) := by
  have hstart := hcarries.1
  constructor
  · intro hstate
    have := hsent hstate p.side
    omega
  · intro hstate
    have := hreceived hstate
    cases hside : p.side with
    | client => rfl
    | server =>
      rw [hside] at hseq hstart
      simp only [BySide.get_server] at hseq hstart
      omega

theorem Tracks.handshake (h : Tracks S syn c)
    (hcarries : (S.get p.side).Carries p.toJpcapPacket)
    (hseq : (c.counter.get p.side).seq = p.sequence) :
    c.state ≠ some .synSent ∧ (c.state = some .synReceived → p.side = .client) :=
  handshake_of_carries (fun hstate => (h.synSent hstate).2) h.synReceived hcarries hseq

/-- The counter of the server waits for the ACK of the handshake. -/
theorem Moving.synReceived_le {ends : Nat → Prop} {bytes : List UInt8} {isn : Nat}
    (h : Moving p ends bytes c c') (hclient : c.state = some .synReceived → p.side = .client)
    (hreceived : c.state = some .synReceived → c.counter.server.seq ≤ isn) :
    c'.state = some .synReceived → c'.counter.server.seq ≤ isn := by
  intro hstate
  have hside := hclient (h.synReceived hstate)
  rcases h.other with hother | ⟨-, hne, -⟩
  · rw [hside] at hother
    exact hother.trans_le (hreceived (h.synReceived hstate))
  · exact absurd hstate hne

/-- The payload that is appended is the one that is entered into the
history. -/
theorem Moving.payloads {ends : Nat → Prop} {met : Option TCPConnectionState}
    (h : Moving p ends p.data c c')
    (hpayloads : ∀ x, (c.inputStream.get x).appended = c.payloads x)
    (hhandled : c'.handled = c.handled ++ [(met, p)]) :
    ∀ x, (c'.inputStream.get x).appended = c'.payloads x := by
  obtain ⟨hpay, hpayOther⟩ := payloads_record hhandled
  refine BySide.forall_side p.side ?_ ?_
  · rw [h.appended, hpayloads, hpay]
  · rw [h.other_appended, hpayloads, hpayOther]

/-- The payload closes up with what is covered, and a FIN moves the counter
out of the bytes. -/
theorem Tracks.of_moving (h : Tracks S syn c)
    (hcarries : (S.get p.side).Carries p.toJpcapPacket)
    (hsegment : (S.get p.side).Segment p.toJpcapPacket)
    (hseq : (c.counter.get p.side).seq = p.sequence)
    (hmoving : Moving p (· = p.sequence + p.data.length + if p.fin then 1 else 0) p.data c c')
    (hhandled : c'.handled = c.handled ++ [(c.state, p)]) : Tracks S syn c' := by
  have hcovers := covers_record hhandled
  have hown := hmoving.own
  have hclient := (h.handshake hcarries hseq).2
  refine ⟨fun hstate => absurd hstate hmoving.synSent, hmoving.synReceived_le hclient h.synReceived,
    ?_, ?_, hmoving.payloads h.payloads hhandled⟩
  · intro x k hlow hhigh hlt hfrom
    rw [hcovers]
    rcases Side.eq_or_eq_other p.side x with rfl | rfl
    · rcases Nat.lt_or_ge k p.sequence with hold | hnew
      · -- before the packet everything was covered already
        refine Or.inl (h.covers _ k hlow hhigh (by omega) ?_)
        rcases hfrom with hsyn | ⟨j, hj, hcov⟩
        · exact Or.inl hsyn
        · rcases (hcovers _ j).mp hcov with hcov | ⟨-, hge, -⟩
          · exact Or.inr ⟨j, hj, hcov⟩
          · omega
      · refine Or.inr ⟨rfl, hnew, ?_⟩
        cases hfin : p.fin with
        | true =>
          have hend := hsegment.1 hfin
          omega
        | false =>
          simp only [hfin, Bool.false_eq_true, if_false] at hown
          omega
    · refine Or.inl (h.covers _ k hlow hhigh ?_ ?_)
      · rcases hmoving.other with hother | ⟨hstate, -, hother⟩
        · omega
        · have hserver := h.synReceived hstate
          rw [hclient hstate] at hlow hlt hother ⊢
          simp only [Side.other, BySide.get_server] at hlow hlt hother ⊢
          omega
      · refine hfrom.imp_right ?_
        rintro ⟨j, hj, hcov⟩
        exact ⟨j, hj, ((hcovers _ j).mp hcov).resolve_right fun h' => by simp at h'⟩
  · intro x k hcov
    rcases Side.eq_or_eq_other p.side x with rfl | rfl
    · rcases (hcovers _ k).mp hcov with hcov | ⟨-, -, hlt⟩
      · have := h.below _ k hcov
        omega
      · omega
    · have := h.below _ k (((hcovers _ k).mp hcov).resolve_right fun h' => by simp at h')
      rcases hmoving.other with hother | ⟨-, -, hother⟩ <;> omega

end Invariant

end OldPackets

end ConnectionSniffer
