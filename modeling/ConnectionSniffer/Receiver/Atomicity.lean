import ConnectionSniffer.Receiver.Buffering
import ConnectionSniffer.Receiver.Waiting

/-!
# What a throw out of `pick` leaves behind

`pick` undoes nothing.  A throw leaves the receiver as it was exactly when
nothing had been assigned before it, and `Refused` lists these throws: a
SYN/ACK or a third handshake packet with a wrong acknowledgement, a packet
for a full buffer, and a payload that its stream does not take, all of
them without an assignment on the way.

Every other throw leaves a trace.  For one out of the drain the trace is
the packet it has taken out of the buffer (`drain_loses`); for one out of
`deliver` it is the state, a finished flag, a counter or an end mark.
-/

namespace ConnectionSniffer

namespace Atomicity

/-! ## What has to be the same -/

/-- The same stream, but for the time at which its current message began. -/
def SameStream (s s' : DynamicByteArrayInputStream) : Prop :=
  ∃ startTime, s' = s.markStreamStartTime startTime

structure SameConnection (c c' : TCPConnectionImpl) : Prop where
  connectionDetail : c'.connectionDetail = c.connectionDetail
  state : c'.state = c.state
  counter : c'.counter = c.counter
  streams : ∀ x, SameStream (c.inputStream.get x) (c'.inputStream.get x)
  packetsBuffer : c'.packetsBuffer = c.packetsBuffer

/-- The tables hold the same connections, and every connection is the same. -/
structure Unchanged (r r' : PacketReceiverImpl) : Prop where
  active : ∀ key, r'.activeConnections.get key = r.activeConnections.get key
  halfWay : ∀ key, r'.halfWayConnections.get key = r.halfWayConnections.get key
  connections : ∀ ref c, r.deref ref = some c →
    ∃ c', r'.deref ref = some c' ∧ SameConnection c c'

theorem SameStream.refl (s : DynamicByteArrayInputStream) : SameStream s s :=
  ⟨s.currentStreamStartTime, rfl⟩

theorem SameConnection.refl (c : TCPConnectionImpl) : SameConnection c c :=
  ⟨rfl, rfl, rfl, fun _ => .refl _, rfl⟩

/-! ## The refusals -/

/-- The ACK part of `handlePacket` assigns to the connection. -/
def Acknowledges (p : TCPPacket) (c : TCPConnectionImpl) : Prop :=
  p.ack = true ∧
    (c.state = some .synReceived ∨ c.state = some .finishWait1 ∨ c.state = some .lastAck)

/-- The data part of `handlePacket` adds an end mark to the other side's
stream. -/
def EndsMessage (p : TCPPacket) (c : TCPConnectionImpl) : Prop :=
  let stream := c.inputStream.get p.side.other
  (c.counter.get p.side.other).ack = p.sequence ∧
    0 < stream.bufferSize ∧ stream.lastEndPos ≠ some stream.bufferSize

/-- The third packet of a handshake is refused. -/
def RefusesAck (p : TCPPacket) (c : TCPConnectionImpl) : Prop :=
  p.ack = true ∧ c.state = some .synReceived ∧ p.ackNum ≠ c.counter.server.seq + 1

/-- The payload is refused before anything has been assigned. -/
def RefusesData (p : TCPPacket) (c : TCPConnectionImpl) : Prop :=
  p.isContainsData = true ∧ ¬ Acknowledges p c ∧ ¬ EndsMessage p c ∧
    ((c.inputStream.get p.side).isFinished = true ∨
      ¬ (c.inputStream.get p.side).hasRoom p.data)

/-- The buffer of the packet's side is full. -/
def BufferFull (p : TCPPacket) (c : TCPConnectionImpl) : Prop :=
  MAX_PACKETS_IN_BUFFER ≤ (c.packetsBuffer.get p.side).length

/-- `process` throws before it assigns anything. -/
def Refuses (p : TCPPacket) (c : TCPConnectionImpl) : Prop :=
  (c.isCanProcessPacket p = .ok false ∧ BufferFull p c) ∨
    (c.isCanProcessPacket p = .ok true ∧ p.rst = false ∧ (RefusesAck p c ∨ RefusesData p c))

/-- `pick` throws before it assigns anything. -/
inductive Refused (p : TCPPacket) (r : PacketReceiverImpl) : Prop
  | halfWay {ref : Ref} {c : TCPConnectionImpl} (hsyn : p.isHandsShake1Packet = false)
      (hactive : r.activeConnections.get p.connectionDetail = none)
      (hdata : p.isContainsData = true)
      (hhalf : r.halfWayConnections.get p.connectionDetail = some ref)
      (hc : r.deref ref = some c)
      (hdone : PacketReceiverImpl.completesExchange
        (p.detectPacketFlowDirection c.connectionDetail) c = false)
      (hfull : BufferFull (p.detectPacketFlowDirection c.connectionDetail) c)
  | synAck {ref : Ref} {c : TCPConnectionImpl} (hsyn : p.isHandsShake1Packet = false)
      (hactive : r.activeConnections.get p.connectionDetail = some ref)
      (hc : r.deref ref = some c)
      (hignored : PacketReceiverImpl.isIgnored
        (p.detectPacketFlowDirection c.connectionDetail) c = false)
      (hsynAck : p.isHandsShake2Packet = true) (hackNum : p.ackNum ≠ c.counter.client.seq + 1)
  | active {ref : Ref} {c : TCPConnectionImpl} (hsyn : p.isHandsShake1Packet = false)
      (hactive : r.activeConnections.get p.connectionDetail = some ref)
      (hc : r.deref ref = some c)
      (hignored : PacketReceiverImpl.isIgnored
        (p.detectPacketFlowDirection c.connectionDetail) c = false)
      (hsynAck : p.isHandsShake2Packet = false)
      (hrefuses : Refuses (p.detectPacketFlowDirection c.connectionDetail) c)

/-! ## The drain -/

/-- Nothing enters a buffer during the drain. -/
theorem countInvariant (now : Date) (x : Side) (q : TCPPacket) (k : Nat) :
    Delivery.DrainInvariant now (fun c => (c.packetsBuffer.get x).count q ≤ k)
      (fun c => (c.packetsBuffer.get x).count q ≤ k) := by
  have hdrop : ∀ {c : TCPConnectionImpl} {y : Side} {p : TCPPacket} {rest : List TCPPacket},
      (c.packetsBuffer.get x).count q ≤ k → c.packetsBuffer.get y = p :: rest →
      ((c.setBuffer y rest).packetsBuffer.get x).count q ≤ k := by
    intro c y p rest h hb
    rw [TCPConnectionImpl.packetsBuffer_setBuffer]
    by_cases hxy : x = y
    · subst hxy
      rw [BySide.get_set]
      rw [hb] at h
      exact (List.Sublist.count_le q (List.sublist_cons_self p rest)).trans h
    · rwa [BySide.get_set_of_ne _ _ hxy]
  exact
    { thrown := fun _ h => h
      drop := fun h hb _ => hdrop h hb
      take := by
        intro c n y p rest h hb _
        exact Delivery.deliver_packetsBuffer now p (P := fun b => (b.get x).count q ≤ k)
          (hdrop h hb) n
      updated := fun h => h }

/-- A drain that throws has taken a packet out of a buffer for good. -/
theorem drain_loses {now : Date} {t t' : Delivery} {e : Throwable}
    (hwaits : ∀ x, ∀ q ∈ t.connection.packetsBuffer.get x,
      Waiting.Waits t.connection.connectionDetail x q)
    (ht : Delivery.tryToProcessPacketsInBuffer now t = .thrown e t') :
    ∃ x q, t.connection.isCanProcessPacket q = .ok true ∧
      (t'.connection.packetsBuffer.get x).count q <
        (t.connection.packetsBuffer.get x).count q := by
  have hpick := Delivery.pickupPacket_sat (c := t.connection)
    (I := fun c => (∀ q, c.isCanProcessPacket q = t.connection.isCanProcessPacket q) ∧
      ∀ x, c.packetsBuffer.get x <:+ t.connection.packetsBuffer.get x)
    (E := fun _ => False) ?_ ?_ ⟨fun _ => rfl, fun _ => List.suffix_rfl⟩
  · rw [Delivery.tryToProcessPacketsInBuffer_eq] at ht
    cases hp : t.connection.pickupPacket with
    | thrown e picked =>
      rw [hp] at hpick
      exact absurd hpick id
    | returned picked =>
      rw [hp] at ht hpick
      obtain ⟨_ | q, c'⟩ := picked
      · exact absurd ht (by simp)
      · obtain ⟨c, x, rest, ⟨hcan, hsuffix⟩, hb, hq, rfl⟩ := hpick
        refine ⟨x, q, hcan q ▸ hq, ?_⟩
        have hless : ((c.setBuffer x rest).packetsBuffer.get x).count q <
            (t.connection.packetsBuffer.get x).count q := by
          have hle := (hsuffix x).sublist.count_le q
          rw [hb, List.count_cons_self] at hle
          rw [TCPConnectionImpl.packetsBuffer_setBuffer, BySide.get_set]
          omega
        have hinv := countInvariant now x q (((c.setBuffer x rest).packetsBuffer.get x).count q)
        have hdeliver := Delivery.deliver_packetsBuffer now q (c := c.setBuffer x rest)
          (P := fun b => (b.get x).count q ≤ ((c.setBuffer x rest).packetsBuffer.get x).count q)
          le_rfl t.announced
        have hrest := Outcome.Sat.andThen (hinv.handlePacket_leaves
          (fun t ht => hinv.tryToProcessPacketsInBuffer_leaves ht) hdeliver)
          fun t ht => hinv.tryToProcessPacketsInBuffer_leaves ht
        simp only at ht
        rw [ht] at hrest
        exact lt_of_le_of_lt hrest hless
  · rintro c p e ⟨hcan, hsuffix⟩ herror ⟨x, hp⟩
    rw [hcan, (hwaits x p ((hsuffix x).mem hp)).isCanProcessPacket_eq] at herror
    exact absurd herror (by simp)
  · rintro c x p rest ⟨hcan, hsuffix⟩ hb _
    refine ⟨hcan, ?_⟩
    rw [TCPConnectionImpl.packetsBuffer_setBuffer]
    refine BySide.forall_set (P := fun y (l : List TCPPacket) =>
      l <:+ t.connection.packetsBuffer.get y) ?_ (hsuffix _)
    exact (hb ▸ List.suffix_cons p rest).trans (hsuffix x)

/-! ## The parts of `deliver` -/

section Parts

variable {now : Date} {p : TCPPacket} {c c' : TCPConnectionImpl}

theorem SameConnection.isFinished_eq (h : SameConnection c c') : c'.isFinished = c.isFinished := by
  have hside : ∀ x, (c'.inputStream.get x).isFinished = (c.inputStream.get x).isFinished := by
    intro x
    obtain ⟨_, hx⟩ := h.streams x
    rw [hx]
    rfl
  have hc := hside .client
  have hs := hside .server
  simp only [BySide.get_client, BySide.get_server] at hc hs
  simp only [TCPConnectionImpl.isFinished, hc, hs]

/-- The ACK part that does nothing. -/
theorem acknowledge_idle (hstate : c.state ≠ none) (h : ¬ Acknowledges p c) (n : Nat) :
    Delivery.acknowledge p ⟨c, n⟩ = .returned ⟨c, n⟩ := by
  unfold Delivery.acknowledge Delivery.apply
  split
  · rename_i hack
    have hidle : c.processAckPacket p = .returned c := by
      unfold TCPConnectionImpl.processAckPacket
      split
      · exact absurd ‹_› hstate
      · exact absurd ⟨hack, Or.inl ‹_›⟩ h
      · exact absurd ⟨hack, Or.inr (Or.inl ‹_›)⟩ h
      · exact absurd ⟨hack, Or.inr (Or.inr ‹_›)⟩ h
      · rfl
    have hsame : ¬ (c.state = some .synReceived ∧ c.state = some .established) := by
      rintro ⟨h₁, h₂⟩
      simp [h₁] at h₂
    simp only [hidle, Outcome.map_returned, Outcome.andThen_returned]
    rw [if_neg hsame]
  · rfl

/-- The ACK part that throws. -/
theorem acknowledge_refused (h : RefusesAck p c) (n : Nat) :
    ∃ e, Delivery.acknowledge p ⟨c, n⟩ = .thrown e ⟨c, n⟩ := by
  obtain ⟨hack, hstate, hackNum⟩ := h
  unfold Delivery.acknowledge Delivery.apply TCPConnectionImpl.processAckPacket
    TCPConnectionImpl.processHandshake3AckPacket
  rw [if_pos hack, hstate]
  simp only [if_pos hackNum]
  exact ⟨_, rfl⟩

/-- The ACK part that moves the connection to another state. -/
theorem acknowledge_assigns (h : Acknowledges p c) (hok : ¬ RefusesAck p c) (n : Nat) :
    ∃ t, Delivery.acknowledge p ⟨c, n⟩ = .returned t ∧ t.connection.state ≠ c.state := by
  obtain ⟨hack, hstate⟩ := h
  unfold Delivery.acknowledge Delivery.apply TCPConnectionImpl.processAckPacket
  rw [if_pos hack]
  rcases hstate with hstate | hstate | hstate
  · have hackNum : ¬ p.ackNum ≠ c.counter.server.seq + 1 := fun hne => hok ⟨hack, hstate, hne⟩
    unfold TCPConnectionImpl.processHandshake3AckPacket
    rw [hstate]
    simp only [if_neg hackNum]
    exact ⟨_, rfl, by simp⟩
  · rw [hstate]
    exact ⟨_, rfl, by simp [TCPConnectionImpl.processFinishWait1AckPacket]⟩
  · rw [hstate]
    exact ⟨_, rfl, by simp [TCPConnectionImpl.processLastAckPacket]⟩

/-- The other side's stream stays the same unless its message ends. -/
theorem sameStream_otherStream (now : Date) (p : TCPPacket) (c : TCPConnectionImpl) :
    SameStream (c.inputStream.get p.side.other) (c.otherStream now p) ↔ ¬ EndsMessage p c := by
  unfold TCPConnectionImpl.otherStream EndsMessage
  dsimp only
  by_cases hack : (c.counter.get p.side.other).ack = p.sequence
  · rw [if_pos hack]
    unfold DynamicByteArrayInputStream.finish DynamicByteArrayInputStream.addMarkPos
    by_cases hmark : 0 < (c.inputStream.get p.side.other).bufferSize ∧
        (c.inputStream.get p.side.other).lastEndPos ≠
          some (c.inputStream.get p.side.other).bufferSize
    · simp only [if_pos hmark, if_true]
      refine iff_of_false ?_ (not_not_intro ⟨hack, hmark⟩)
      rintro ⟨_, h⟩
      have hmarks := congrArg DynamicByteArrayInputStream.newInputStreamMarks h
      simp [DynamicByteArrayInputStream.markStreamStartTime] at hmarks
    · simp only [if_neg hmark, if_true, Bool.false_eq_true, if_false]
      exact iff_of_true (.refl _) fun h => hmark h.2
  · rw [if_neg hack]
    exact iff_of_true (.refl _) fun h => hack h.1

/-- The data part throws when the stream is finished or full, and then it
has assigned nothing but an end mark. -/
theorem processDataPacket_refused (now : Date) (hsane : (c.inputStream.get p.side).Sane)
    (hfits : p.data.length < 2 ^ 16)
    (hno : (c.inputStream.get p.side).isFinished = true ∨
      ¬ (c.inputStream.get p.side).hasRoom p.data) :
    ∃ e c', c.processDataPacket now p = .thrown e c' ∧
      (SameConnection c c' ↔ ¬ EndsMessage p c) := by
  obtain ⟨e, happend⟩ := (TCPConnectionImpl.sane_ownStream hsane).append_thrown hfits
    (by simpa using hno)
  rw [TCPConnectionImpl.processDataPacket_eq, happend]
  refine ⟨e, _, rfl, ?_⟩
  rw [← sameStream_otherStream now p c]
  constructor
  · intro h
    simpa using h.streams p.side.other
  · intro h
    refine ⟨rfl, rfl, rfl, BySide.forall_side p.side ?_ ?_, rfl⟩
    · simp only [TCPConnectionImpl.get_streamsAfter]
      unfold TCPConnectionImpl.ownStream
      split
      · exact ⟨_, rfl⟩
      · exact .refl _
    · simpa using h

/-- The data part returns when the stream is open and has room. -/
theorem processDataPacket_taken (now : Date) (hsane : (c.inputStream.get p.side).Sane)
    (hopen : (c.inputStream.get p.side).isFinished = false)
    (hroom : (c.inputStream.get p.side).hasRoom p.data) :
    ∃ c', c.processDataPacket now p = .returned c' := by
  have hroom' : (c.ownStream p).hasRoom p.data := by simpa using hroom
  have happend := (TCPConnectionImpl.sane_ownStream hsane).append_eq (by simpa using hopen) hroom'
  rw [TCPConnectionImpl.processDataPacket_eq, happend]
  exact ⟨_, rfl⟩

/-- After an RST nothing is the same when a later part throws. -/
theorem deliver_rst (now : Date) (hrst : p.rst = true) (hseq : (c.counter.get p.side).seq = p.sequence)
    (hlast : c.isFinished = true → c.state = some .lastAck) (n : Nat) :
    (Delivery.deliver now p ⟨c, n⟩).Leaves (fun _ => True) (fun c' => ¬ SameConnection c c') := by
  have hfinished := TCPConnectionImpl.isFinished_processRstPacket now p c
  refine Delivery.deliver_leaves (R := fun c' => c' = c.processRstPacket now p)
    (A := fun c' => c'.isFinished = true ∧ (c.state = some .lastAck → c'.state = c.state →
      c'.counter = c.counter.update p.side p))
    (D := fun _ => True) ?_ ?_ ?_ ?_ (fun _ _ _ => trivial) (fun _ _ => trivial)
  · rw [if_pos hrst]
  · rintro _ rfl _
    have hthrown : ∀ st, st ≠ some TCPConnectionState.lastAck → c.state = st →
        ¬ SameConnection c (c.processRstPacket now p) := by
      intro st hst hstate hsame
      rw [hsame.isFinished_eq] at hfinished
      exact hst (hstate.symm.trans (hlast hfinished))
    unfold TCPConnectionImpl.processAckPacket TCPConnectionImpl.processHandshake3AckPacket
    split
    · exact hthrown none (by simp) ‹_›
    · split
      · exact hthrown (some .synReceived) (by simp) ‹_›
      · rename_i hstate _
        exact ⟨hfinished, fun h => by simp [TCPConnectionImpl.processRstPacket_state, h] at hstate⟩
    · rename_i hstate
      exact ⟨hfinished, fun h => by simp [TCPConnectionImpl.processRstPacket_state, h] at hstate⟩
    · refine ⟨hfinished, fun h h' => ?_⟩
      simp [TCPConnectionImpl.processLastAckPacket, h] at h'
    · exact ⟨hfinished, fun _ _ => rfl⟩
  · rintro _ rfl _
    exact ⟨hfinished, fun _ _ => rfl⟩
  · rintro c' ⟨hfin, hcounter⟩ hdata
    refine (TCPConnectionImpl.processDataPacket_sat now p c').mono (fun _ _ => trivial) ?_
    intro c'' hd hsame
    have hstate := hlast (by rw [← hsame.isFinished_eq, hd.sameBytes.isFinished_eq, hfin])
    have hmoved := hcounter hstate (hd.state.symm.trans hsame.state)
    rw [← hd.counter, hsame.counter] at hmoved
    have hlen : 0 < p.data.length := by
      have : p.data ≠ [] := by simpa [TCPPacket.isContainsData] using hdata
      exact List.length_pos_of_ne_nil this
    have hself := congrArg (fun counter => (BySide.get counter p.side).seq) hmoved
    simp only [SequenceCounter.get_update, updateCounter_seq] at hself
    omega

/-- Without an RST, `deliver` throws and leaves everything the same exactly
when it refuses the packet. -/
theorem deliver_refuses_iff (now : Date) (hrst : p.rst = false) (hstate : c.state ≠ none)
    (hsane : (c.inputStream.get p.side).Sane) (hfits : p.data.length < 2 ^ 16) (n : Nat) :
    ((Delivery.deliver now p ⟨c, n⟩).isReturned = false ∧
      SameConnection c (Delivery.deliver now p ⟨c, n⟩).state.connection) ↔
        RefusesAck p c ∨ RefusesData p c := by
  unfold Delivery.deliver
  simp only [hrst, Bool.false_eq_true, if_false]
  by_cases hrefuses : RefusesAck p c
  · obtain ⟨e, hack⟩ := acknowledge_refused hrefuses n
    rw [hack]
    exact iff_of_true ⟨rfl, .refl c⟩ (Or.inl hrefuses)
  by_cases hassigns : Acknowledges p c
  · obtain ⟨t, hack, hne⟩ := acknowledge_assigns hassigns hrefuses n
    have hdata : (t.apply (TCPConnectionImpl.processDataPacket now p)).Leaves (fun _ => True)
        (fun c' => ¬ SameConnection c c') := by
      unfold Delivery.apply Outcome.Leaves
      rw [Outcome.sat_map]
      refine (TCPConnectionImpl.processDataPacket_sat now p t.connection).mono
        (fun _ _ => trivial) fun c' hd hsame => ?_
      exact hne (hd.state.symm.trans hsame.state)
    rw [hack]
    refine iff_of_false ?_ (not_or_intro hrefuses fun h => h.2.1 hassigns)
    rintro ⟨hret, hsame⟩
    cases hd : p.isContainsData with
    | false => simp [hd] at hret
    | true =>
      rw [hd] at hret hsame
      cases ha : t.apply (TCPConnectionImpl.processDataPacket now p) with
      | returned t' => simp [ha] at hret
      | thrown e t' =>
        rw [ha] at hdata
        simp only [if_true, ha, Outcome.andThen_returned, Outcome.andThen_thrown,
          Outcome.state_thrown] at hsame
        exact hdata hsame
  · rw [acknowledge_idle hstate hassigns n, Outcome.andThen_returned]
    cases hd : p.isContainsData with
    | false =>
      refine iff_of_false (by simp) (not_or_intro hrefuses fun h => ?_)
      exact absurd (hd.symm.trans h.1) (by simp)
    | true =>
      by_cases hno : (c.inputStream.get p.side).isFinished = true ∨
          ¬ (c.inputStream.get p.side).hasRoom p.data
      · obtain ⟨e, c', hthrown, hsame⟩ := processDataPacket_refused now hsane hfits hno
        simp only [if_true, Delivery.apply, hthrown, Outcome.map_thrown, Outcome.andThen_thrown,
          Outcome.isReturned_thrown, Outcome.state_thrown, hsame, true_and]
        constructor
        · intro hends
          exact Or.inr ⟨hd, hassigns, hends, hno⟩
        · rintro (h | h)
          · exact absurd h hrefuses
          · exact h.2.2.1
      · rw [not_or, not_not, Bool.not_eq_true] at hno
        obtain ⟨c', htaken⟩ := processDataPacket_taken now hsane hno.1 hno.2
        refine iff_of_false (by simp [Delivery.apply, htaken]) (not_or_intro hrefuses fun h => ?_)
        rcases h.2.2.2 with hfin | hfull
        · simp [hno.1] at hfin
        · exact hfull hno.2

/-! ## `process` -/

/-- Once the packet is delivered, only a drain can throw. -/
theorem handlePacket_changes
    (hwaits : ∀ x, ∀ q ∈ c.packetsBuffer.get x, Waiting.Waits c.connectionDetail x q)
    {n : Nat} {t t' : Delivery} {e : Throwable} (hdeliver : Delivery.deliver now p ⟨c, n⟩ = .returned t)
    (ht : Delivery.handlePacket now (Delivery.tryToProcessPacketsInBuffer now) p ⟨c, n⟩ =
      .thrown e t') : ¬ SameConnection c t'.connection := by
  have hframe := Delivery.deliver_frame now p c n
  unfold Delivery.handlePacket at ht
  rw [hdeliver] at hframe ht
  rw [Outcome.andThen_returned] at ht
  cases hfin : p.fin with
  | false => simp [hfin] at ht
  | true =>
    rw [hfin, if_pos rfl] at ht
    cases hdrain : Delivery.tryToProcessPacketsInBuffer now t with
    | returned t'' => simp [hdrain] at ht
    | thrown e' t'' =>
      rw [hdrain, Outcome.andThen_thrown, Outcome.thrown.injEq] at ht
      obtain ⟨x, q, -, hless⟩ := drain_loses
        (by rw [hframe.packetsBuffer, hframe.connectionDetail]; exact hwaits) hdrain
      intro hsame
      rw [ht.2, hsame.packetsBuffer, hframe.packetsBuffer] at hless
      exact absurd hless (lt_irrefl _)

/-- `process` throws and leaves everything the same exactly when it refuses
the packet. -/
theorem process_refuses_iff (now : Date) (hc : Waiting.Orderly c)
    (hsane : ∀ x, (c.inputStream.get x).Sane)
    (hp : Waiting.Waits c.connectionDetail p.side p) (hfits : p.data.length < 2 ^ 16)
    (hlast : c.isFinished = true → c.state = some .lastAck) :
    ((PacketReceiverImpl.process now p c).isReturned = false ∧
      SameConnection c (PacketReceiverImpl.process now p c).state.connection) ↔
        Refuses p c := by
  unfold PacketReceiverImpl.process
  cases hcan : c.isCanProcessPacket p with
  | error e => simp [hp.isCanProcessPacket_eq] at hcan
  | ok b =>
    cases b with
    | true =>
      have hseq := TCPConnectionImpl.sequence_of_isCanProcessPacket hp.direction hcan
      have hdirect : Refuses p c ↔ p.rst = false ∧ (RefusesAck p c ∨ RefusesData p c) := by
        simp [Refuses, hcan]
      rw [hdirect]
      dsimp only
      cases hdeliver : Delivery.deliver now p ⟨c, 0⟩ with
      | returned t =>
        refine iff_of_false ?_ ?_
        · rintro ⟨hret, hsame⟩
          cases hh : Delivery.handlePacket now (Delivery.tryToProcessPacketsInBuffer now) p
              ⟨c, 0⟩ with
          | returned t' => simp [hh] at hret
          | thrown e t' =>
            rw [hh] at hsame
            exact handlePacket_changes hc.waits hdeliver hh hsame
        · rintro ⟨hrst, href⟩
          have hiff := (deliver_refuses_iff now hrst hc.state (hsane _) hfits 0).mpr href
          simp [hdeliver] at hiff
      | thrown e t =>
        have hh : Delivery.handlePacket now (Delivery.tryToProcessPacketsInBuffer now) p ⟨c, 0⟩ =
            .thrown e t := by
          unfold Delivery.handlePacket
          rw [hdeliver]
          rfl
        rw [hh]
        cases hrst : p.rst with
        | true =>
          have hchanged := deliver_rst now hrst hseq hlast 0
          rw [hdeliver] at hchanged
          exact iff_of_false (fun h => hchanged h.2) (by simp)
        | false =>
          have hiff := deliver_refuses_iff now hrst hc.state (hsane _) hfits 0
          rw [hdeliver] at hiff
          simpa using hiff
    | false =>
      have hbuffer : Refuses p c ↔ BufferFull p c := by
        simp [Refuses, hcan]
      rw [hbuffer]
      dsimp only
      unfold PacketsBuffer.addToTemporaryStoredDataPackets BufferFull
      split
      · rename_i hfull
        exact iff_of_true ⟨rfl, .refl c⟩ hfull
      · rename_i hroom
        refine iff_of_false ?_ hroom
        rintro ⟨hret, hsame⟩
        simp only [Outcome.map_returned, Outcome.andThen_returned] at hret hsame
        cases hdrain : Delivery.tryToProcessPacketsInBuffer now ⟨c.setBuffer p.side
            (TreeSet.add TCPPacket.compareTo p (c.packetsBuffer.get p.side)), 0⟩ with
        | returned t =>
          unfold TCPConnectionImpl.setBuffer at hdrain
          rw [hdrain] at hret
          simp at hret
        | thrown e t =>
          obtain ⟨x, q, hq, hless⟩ := drain_loses (Waiting.waits_add hc.waits hp) hdrain
          unfold TCPConnectionImpl.setBuffer at hdrain
          rw [hdrain, Outcome.state_thrown] at hsame
          rw [hsame.packetsBuffer] at hless
          -- `p` cannot be processed, so it is not what the drain took first
          have hne : q ≠ p := by
            rintro rfl
            rw [TCPConnectionImpl.isCanProcessPacket_setBuffer, hcan] at hq
            simp at hq
          rcases Side.eq_or_eq_other p.side x with rfl | rfl
          · rw [TCPConnectionImpl.packetsBuffer_setBuffer, BySide.get_set,
              TreeSet.count_add_of_ne _ _ hne] at hless
            exact absurd hless (lt_irrefl _)
          · rw [TCPConnectionImpl.packetsBuffer_setBuffer, BySide.get_other_set] at hless
            exact absurd hless (lt_irrefl _)

end Parts

/-! ## `pick` -/

section Pick

variable {now : Date} {p : TCPPacket} {r : PacketReceiverImpl} {ref : Ref}
  {c : TCPConnectionImpl}

/-- Storing a connection changes nothing if it is the same one. -/
theorem unchanged_commit_iff {t : Delivery} (hc : r.deref ref = some c) :
    Unchanged r (r.commit ref t) ↔ SameConnection c t.connection := by
  have hself : (r.commit ref t).deref ref = some t.connection :=
    PacketReceiverImpl.deref_store_self hc
  constructor
  · intro h
    obtain ⟨c', hc', hsame⟩ := h.connections ref c hc
    rw [hself] at hc'
    rwa [Option.some.inj hc']
  · intro h
    refine ⟨fun _ => rfl, fun _ => rfl, fun ref' c₀ hc₀ => ?_⟩
    by_cases href : ref = ref'
    · subst href
      obtain rfl := Option.some.inj (hc.symm.trans hc₀)
      exact ⟨t.connection, hself, h⟩
    · refine ⟨c₀, ?_, .refl c₀⟩
      rw [PacketReceiverImpl.deref_commit, PacketReceiverImpl.deref_store_ne href]
      exact hc₀

theorem unchanged_store (hc : r.deref ref = some c) : Unchanged r (r.store ref c) := by
  have h := (unchanged_commit_iff (t := ⟨c, 0⟩) hc).mpr (.refl c)
  exact ⟨h.active, h.halfWay, h.connections⟩

/-- `pick` throws and leaves everything the same exactly when it refuses the
packet. -/
theorem pick_refused_iff (hsound : Waiting.Sound r) (hfresh : p.consumed = false)
    (hfits : p.data.length < 2 ^ 16)
    (hsane : ∀ key ref c, r.activeConnections.get key = some ref → r.deref ref = some c →
      ∀ x, (c.inputStream.get x).Sane) :
    ((r.pick now p).isReturned = false ∧ Unchanged r (r.pick now p).state) ↔ Refused p r := by
  have hpicked := PacketReceiverImpl.picked_pick now p r
  generalize r.pick now p = o at hpicked
  cases hpicked with
  | rejected | opened | noPayload | candidate | ignored =>
    refine iff_of_false (by simp) ?_
    rintro (_ | _ | _) <;> simp_all
  | @promoted ref c hsyn hactive hdata hhalf hc hdone =>
    refine iff_of_false ?_ ?_
    · rintro ⟨-, h⟩
      have hkey := hsound.wellFormed.deref_halfWay hhalf hc
      have hgone := h.halfWay p.connectionDetail
      rw [Outcome.state_map] at hgone
      simp only [PacketReceiverImpl.commit, PacketReceiverImpl.store, PacketReceiverImpl.moved,
        HashMap.get_remove, hkey, if_true, hhalf] at hgone
      exact absurd hgone (by simp)
    · rintro (_ | _ | _) <;> simp_all
  | @buffered ref c hsyn hactive hdata hhalf hc hdone =>
    have hrefused : Refused p r ↔
        BufferFull (p.detectPacketFlowDirection c.connectionDetail) c := by
      refine ⟨?_, .halfWay hsyn hactive hdata hhalf hc hdone⟩
      rintro (_ | _ | _) <;> simp_all
    rw [hrefused]
    unfold PacketReceiverImpl.bufferPacket PacketsBuffer.addToTemporaryStoredDataPackets
      BufferFull
    split
    · exact iff_of_true ⟨rfl, unchanged_store hc⟩ ‹_›
    · exact iff_of_false (by simp) ‹_›
  | danglingHalfWay hsyn hactive hdata hhalf hc =>
    obtain ⟨c, hc', -⟩ := hsound.wellFormed.halfWay hhalf
    simp [hc] at hc'
  | danglingActive hsyn hactive hc =>
    obtain ⟨c, hc', -⟩ := hsound.wellFormed.active hactive
    simp [hc] at hc'
  | @answered ref c hsyn hactive hc hignored hsynAck =>
    have hrefused : Refused p r ↔ p.ackNum ≠ c.counter.client.seq + 1 := by
      refine ⟨?_, .synAck hsyn hactive hc hignored hsynAck⟩
      rintro (_ | _ | _) <;> simp_all
    rw [hrefused]
    unfold TCPConnectionImpl.processSyncAckPacket
    split
    · exact iff_of_true ⟨rfl, unchanged_store hc⟩ ‹_›
    · exact iff_of_false (by simp) ‹_›
  | @processed ref c hsyn hactive hc hignored hsynAck =>
    have hrefused : Refused p r ↔
        Refuses (p.detectPacketFlowDirection c.connectionDetail) c := by
      refine ⟨?_, .active hsyn hactive hc hignored hsynAck⟩
      rintro (_ | _ | _) <;> simp_all
    have hkey := hsound.wellFormed.deref_active hactive hc
    have hlast : c.isFinished = true → c.state = some .lastAck :=
      PacketReceiverImpl.lastAck_of_notIgnored hignored
    rw [hrefused, ← process_refuses_iff now (hsound.tables.active hactive hc)
      (hsane _ _ _ hactive hc) (Waiting.waits_detect hkey hfresh) hfits hlast]
    generalize PacketReceiverImpl.process now (p.detectPacketFlowDirection c.connectionDetail) c =
      o
    cases o with
    | returned t => exact iff_of_false (by simp) (by simp)
    | thrown e t =>
      simp only [Outcome.map_thrown, Outcome.andThen_thrown, Outcome.isReturned_thrown,
        Outcome.state_thrown, unchanged_commit_iff hc]

end Pick

/-- In every run of ordinary traffic, a pick throws and leaves the tables and
the connections as they were if and only if it refuses the packet. -/
theorem refused_iff_atomic (filter : ConnectionFilter) (calls : List Call) (now : Date)
    (packet : JpcapPacket)
    (hcalls : Run.Along PacketReceiverImpl.step Buffering.Ordinary
      (PacketReceiverImpl.create filter) (calls ++ [.pick now packet])) :
    let r := Run.after PacketReceiverImpl.step (PacketReceiverImpl.create filter) calls
    ((r.pick now (TCPPacketImpl packet)).isReturned = false ∧
        Unchanged r (r.pick now (TCPPacketImpl packet)).state) ↔
      Refused (TCPPacketImpl packet) r := by
  have hfits := Buffering.fits_of_ordinary hcalls
  have hrun : ∀ call ∈ calls, call.Fits := fun call h => hfits call (by simp [h])
  have hpacket : Call.Fits (.pick now packet) := hfits _ (by simp)
  exact pick_refused_iff (Waiting.sound_of_run filter calls) rfl hpacket
    fun key ref c hactive hc x => Streams.sane_of_run hrun hactive hc x

/-- A SYN/ACK that acknowledges too much is refused, and nothing changes. -/
theorem refused_iff_atomic_synAck :
    let client := InetAddress.inet4 10 0 0 1
    let server := InetAddress.inet4 10 0 0 2
    let calls : List Call :=
      [.pick 0 ⟨client, server, 50000, 80, 100, 0, false, false, true, false, [], 0⟩]
    let packet : JpcapPacket :=
      ⟨server, client, 80, 50000, 500, 105, true, false, true, false, [], 1⟩
    let r := Run.after PacketReceiverImpl.step (PacketReceiverImpl.create {}) calls
    (r.pick 1 (TCPPacketImpl packet)).isReturned = false ∧
      Unchanged r (r.pick 1 (TCPPacketImpl packet)).state := by
  intro client server calls packet r
  refine (refused_iff_atomic {} calls 1 packet (by decide)).mpr ?_
  exact @Refused.synAck _ r 0 ((r.deref 0).get (by decide)) (by decide) (by decide)
    (Option.some_get _).symm (by decide) (by decide) (by decide)

/-- An RST with a payload finishes both streams before its payload throws. -/
theorem rst_with_payload_not_atomic :
    let client := InetAddress.inet4 10 0 0 1
    let server := InetAddress.inet4 10 0 0 2
    let calls : List Call := [
      .pick 0 ⟨client, server, 50000, 80, 100, 0, false, false, true, false, [], 0⟩,
      .pick 1 ⟨server, client, 80, 50000, 500, 101, true, false, true, false, [], 1⟩,
      .pick 2 ⟨client, server, 50000, 80, 101, 501, true, false, false, false, [], 2⟩]
    let packet : JpcapPacket :=
      ⟨client, server, 50000, 80, 101, 501, true, true, false, false, [1], 3⟩
    let r := Run.after PacketReceiverImpl.step (PacketReceiverImpl.create {}) calls
    (r.pick 3 (TCPPacketImpl packet)).isReturned = false ∧
      ¬ Unchanged r (r.pick 3 (TCPPacketImpl packet)).state := by
  intro client server calls packet r
  have hbefore : (r.deref 0).map (·.isFinished) = some false := by decide
  have hafter : ((r.pick 3 (TCPPacketImpl packet)).state.deref 0).map (·.isFinished) =
      some true := by decide
  refine ⟨by decide, fun h => ?_⟩
  obtain ⟨c, hc, hopen⟩ := Option.map_eq_some_iff.mp hbefore
  obtain ⟨c', hc', hsame⟩ := h.connections 0 c hc
  rw [hc', Option.map_some, hsame.isFinished_eq, hopen] at hafter
  exact absurd hafter (by simp)

end Atomicity

end ConnectionSniffer
