import ConnectionSniffer.Connection.Handlers
import ConnectionSniffer.Receiver.Run

/-!
# Reassembly safety

A `Conversation` is what the two sides of a connection really send: for
each side an initial sequence number and a byte string.  `Captures` says
that a packet may be captured from it: a packet with payload carries the
bytes that the string has at the packet's place.

`Flow` is the invariant of a connection.  The bytes appended to a stream
are a piece of the string of its side, and as long as the stream is open
the counter of the side points to the end of this piece.  Two states are
different: in `SynSent` and `SynReceived` the counters still wait for the
handshake.

While a packet is being handled its counter may have moved before its
bytes are appended.  `Held` is the invariant between the parts of
`deliver`: the packet starts where the piece ends.
-/

namespace ConnectionSniffer

/-- What one side sends. -/
structure Sent where
  isn : Nat
  bytes : List UInt8

/-- The packet starts behind the SYN and carries the bytes of its place. -/
def Sent.Carries (sent : Sent) (p : JpcapPacket) : Prop :=
  sent.isn + 1 ≤ p.sequence ∧ p.data <+: sent.bytes.drop (p.sequence - sent.isn - 1)

instance (sent : Sent) (p : JpcapPacket) : Decidable (sent.Carries p) :=
  inferInstanceAs (Decidable (_ ∧ _))

/-- A connection and what its sides send. -/
structure Conversation where
  /-- From the client to the server. -/
  detail : ConnectionDetail
  sent : BySide Sent

namespace Conversation

/-- A packet that `equals` takes for one of the conversation's is one: the
SYN, the SYN/ACK, or a packet that carries bytes of its sender. -/
def Captures (T : Conversation) (p : JpcapPacket) : Prop :=
  (p.connectionDetail == T.detail) = true →
    if p.syn && !p.ack then
      p.connectionDetail = T.detail ∧ p.sequence = T.sent.client.isn ∧ p.data = []
    else if p.syn then
      p.connectionDetail = T.detail.swap ∧ p.sequence = T.sent.server.isn ∧ p.data = []
    else
      (p.connectionDetail = T.detail ∨ p.connectionDetail = T.detail.swap) ∧
        (p.connectionDetail = T.detail → T.sent.client.Carries p) ∧
        (p.connectionDetail = T.detail.swap → T.sent.server.Carries p)

instance (T : Conversation) (p : JpcapPacket) : Decidable (T.Captures p) := by
  unfold Captures
  infer_instance

/-- What the sides of a connection with detail `d` send.  A connection that
was found half-way may have the sides the other way round. -/
def sentBy (T : Conversation) (d : ConnectionDetail) : BySide Sent :=
  if d = T.detail then T.sent else T.sent.swap

end Conversation

/-- Whether a SYN made the connection. -/
def TCPConnectionImpl.openedBySyn (c : TCPConnectionImpl) : Prop :=
  ∃ h ∈ c.handled, h.2.isHandsShake1Packet = true

namespace Reassembly

/-! ## The invariant of the counters and streams -/

section Flow

variable (S : BySide Sent) (syn : Prop)

/-- The piece of the bytes of `x` from `offset` on. -/
def Piece (x : Side) (offset : Nat) (bytes : List UInt8) : Prop :=
  bytes <+: (S.get x).bytes.drop offset ∧ (syn → offset = 0)

/-- The next packet of `x` at `seq` continues the stream: the stream is
closed, or the appended bytes end at `seq`, or nothing has been appended
and the piece may start anywhere. -/
def Continues (x : Side) (seq : Nat) (stream : DynamicByteArrayInputStream) : Prop :=
  stream.isFinished = true ∨
    (∃ offset, seq = (S.get x).isn + 1 + offset + stream.appended.length ∧
      Piece S syn x offset stream.appended) ∨
    (stream.appended = [] ∧ ¬ syn)

structure Flow (c : TCPConnectionImpl) : Prop where
  piece : ∀ x, ∃ offset, Piece S syn x offset (c.inputStream.get x).appended
  synSent : c.state = some .synSent → syn ∧ c.counter.client.seq = S.client.isn ∧
    c.counter.server.seq = 0 ∧ c.inputStream.client.appended = [] ∧
    c.inputStream.server.appended = []
  synReceived : c.state = some .synReceived → c.counter.server.seq = S.server.isn ∧
    c.inputStream.server.appended = [] ∧
    Continues S syn .client c.counter.client.seq c.inputStream.client
  continues : c.state ≠ some .synSent → c.state ≠ some .synReceived →
    ∀ x, Continues S syn x (c.counter.get x).seq (c.inputStream.get x)

/-- The invariant between the parts of `deliver`. -/
structure Held (p : TCPPacket) (c : TCPConnectionImpl) : Prop where
  piece : ∀ x, ∃ offset, Piece S syn x offset (c.inputStream.get x).appended
  notSent : c.state ≠ some .synSent
  synReceived : c.state = some .synReceived → p.side = .client ∧
    c.counter.server.seq = S.server.isn ∧ c.inputStream.server.appended = []
  other : c.state ≠ some .synReceived →
    Continues S syn p.side.other (c.counter.get p.side.other).seq
      (c.inputStream.get p.side.other)
  continues : Continues S syn p.side p.sequence (c.inputStream.get p.side)

/-- The counter of the sender is at the start or at the end of the packet. -/
def AtPacket (p : TCPPacket) (c : TCPConnectionImpl) : Prop :=
  (c.counter.get p.side).seq = p.sequence ∨
    (c.counter.get p.side).seq = p.sequence + p.data.length

end Flow

section Steps

variable {S : BySide Sent} {syn : Prop} {now : Date} {p : TCPPacket} {c : TCPConnectionImpl}

/-- A piece followed by what comes next is a piece. -/
theorem Piece.append {x : Side} {offset : Nat} {bytes data : List UInt8}
    (h : Piece S syn x offset bytes)
    (hdata : data <+: (S.get x).bytes.drop (offset + bytes.length)) :
    Piece S syn x offset (bytes ++ data) := by
  refine ⟨?_, h.2⟩
  obtain ⟨rest, hrest⟩ := h.1
  have hdrop : (S.get x).bytes.drop (offset + bytes.length) = rest := by
    rw [← List.drop_drop, ← hrest, List.drop_left]
  rw [hdrop] at hdata
  rw [← hrest]
  exact (List.prefix_append_right_inj bytes).mpr hdata

/-- A packet starts to be handled. -/
theorem held_of_flow (h : Flow S syn c) (hcarries : (S.get p.side).Carries p.toJpcapPacket)
    (hseq : (c.counter.get p.side).seq = p.sequence) : Held S syn p c ∧ AtPacket p c := by
  have hstart := hcarries.1
  have hnotSent : c.state ≠ some .synSent := by
    intro hstate
    obtain ⟨-, hclient, hserver, -⟩ := h.synSent hstate
    cases hs : p.side <;> rw [hs] at hseq hstart
    · simp only [BySide.get_client] at hseq hstart
      omega
    · simp only [BySide.get_server] at hseq hstart
      omega
  have hclient : c.state = some .synReceived → p.side = .client := by
    intro hstate
    obtain ⟨hserver, -, -⟩ := h.synReceived hstate
    cases hs : p.side with
    | client => rfl
    | server =>
      rw [hs] at hseq hstart
      simp only [BySide.get_server] at hseq hstart
      omega
  refine ⟨⟨h.piece, hnotSent, ?_, ?_, ?_⟩, Or.inl hseq⟩
  · intro hstate
    obtain ⟨hserver, hempty, -⟩ := h.synReceived hstate
    exact ⟨hclient hstate, hserver, hempty⟩
  · intro hstate
    exact h.continues hnotSent hstate _
  · rw [← hseq]
    by_cases hstate : c.state = some .synReceived
    · have := (h.synReceived hstate).2.2
      rw [hclient hstate]
      exact this
    · exact h.continues hnotSent hstate _

/-- A handler that moves the counter of the packet's sender behind the
packet and leaves the streams alone, outside the handshake. -/
private theorem Held.moved (h : Held S syn p c) (hstate : c.state ≠ some .synReceived)
    {c' : TCPConnectionImpl} (hcounter : c'.counter = c.counter.update p.side p)
    (hstreams : c'.inputStream = c.inputStream) (hsent : c'.state ≠ some .synSent)
    (hreceived : c'.state ≠ some .synReceived) : Held S syn p c' ∧ AtPacket p c' := by
  refine ⟨⟨?_, hsent, fun h' => absurd h' hreceived, fun _ => ?_, ?_⟩, Or.inr ?_⟩
  · rw [hstreams]
    exact h.piece
  · rw [hcounter, hstreams, SequenceCounter.get_other_update]
    exact h.other hstate
  · rw [hstreams]
    exact h.continues
  · rw [hcounter, SequenceCounter.get_update, updateCounter_seq]

/-- RST closes both streams and moves the counter of its sender. -/
theorem held_processRstPacket (h : Held S syn p c) :
    Held S syn p (c.processRstPacket now p) ∧ AtPacket p (c.processRstPacket now p) := by
  have hstreams := TCPConnectionImpl.processRstPacket_streams now p c
  have hcounter := TCPConnectionImpl.processRstPacket_counter now p c
  have hstate := TCPConnectionImpl.processRstPacket_state now p c
  refine ⟨⟨?_, ?_, ?_, fun _ => Or.inl (hstreams _).2, Or.inl (hstreams _).2⟩, Or.inr ?_⟩
  · intro x
    rw [(hstreams x).1]
    exact h.piece x
  · rw [hstate]
    exact h.notSent
  · intro h'
    rw [hstate] at h'
    obtain ⟨hside, hserver, hempty⟩ := h.synReceived h'
    refine ⟨hside, ?_, (hstreams .server).1.trans hempty⟩
    rw [hcounter, hside]
    exact hserver
  · rw [hcounter, SequenceCounter.get_update, updateCounter_seq]

/-- The ACK of the handshake opens the server's side; the other
acknowledgements move the counter of their sender. -/
theorem held_processAckPacket (h : Held S syn p c) (hat : AtPacket p c) :
    (c.processAckPacket p).Sat (fun c' => Held S syn p c' ∧ AtPacket p c') (fun _ => True) := by
  unfold TCPConnectionImpl.processAckPacket
  split
  · trivial
  · rename_i hstate
    unfold TCPConnectionImpl.processHandshake3AckPacket
    split
    · trivial
    · obtain ⟨hside, hserver, hempty⟩ := h.synReceived hstate
      have hcontinues := h.continues
      have hpiece := h.piece
      refine ⟨⟨hpiece, by simp, by simp, fun _ => ?_, hcontinues⟩, Or.inr ?_⟩
      · refine Or.inr (Or.inl ⟨0, ?_, ?_⟩)
        · rw [hside]
          show c.counter.server.seq + 1 = S.server.isn + 1 + 0 + c.inputStream.server.appended.length
          simp [hserver, hempty]
        · rw [hside]
          show Piece S syn .server 0 c.inputStream.server.appended
          rw [hempty]
          exact ⟨List.nil_prefix, fun _ => rfl⟩
      · rw [hside]
        exact updateCounter_seq p
  · rename_i hstate
    exact h.moved (by simp [hstate]) rfl rfl (by simp [TCPConnectionImpl.processFinishWait1AckPacket])
      (by simp [TCPConnectionImpl.processFinishWait1AckPacket])
  · rename_i hstate
    exact h.moved (by simp [hstate]) rfl rfl (by simp [TCPConnectionImpl.processLastAckPacket])
      (by simp [TCPConnectionImpl.processLastAckPacket])
  · exact ⟨h, hat⟩

/-- What holds between data and FIN. -/
structure Behind (S : BySide Sent) (syn : Prop) (p : TCPPacket) (c : TCPConnectionImpl) :
    Prop where
  flow : Flow S syn c
  notSent : c.state ≠ some .synSent
  synReceived : c.state = some .synReceived → p.side = .client

/-- The counter of the sender has come to the end of a stream that still
continues. -/
private theorem Held.behind (h : Held S syn p c) {c' : TCPConnectionImpl}
    (hstate : c'.state = c.state)
    (hcounter : (c'.counter.get p.side.other).seq = (c.counter.get p.side.other).seq)
    (hfin : (c'.inputStream.get p.side.other).isFinished =
      (c.inputStream.get p.side.other).isFinished)
    (happ : (c'.inputStream.get p.side.other).appended =
      (c.inputStream.get p.side.other).appended)
    (hpiece : ∃ offset, Piece S syn p.side offset (c'.inputStream.get p.side).appended)
    (hcontinues : Continues S syn p.side (c'.counter.get p.side).seq (c'.inputStream.get p.side)) :
    Behind S syn p c' := by
  have hother : c.state ≠ some .synReceived →
      Continues S syn p.side.other (c'.counter.get p.side.other).seq
        (c'.inputStream.get p.side.other) := by
    intro hne
    have := h.other hne
    unfold Continues at this ⊢
    rwa [hcounter, hfin, happ]
  refine ⟨⟨?_, ?_, ?_, ?_⟩, hstate ▸ h.notSent, fun h' => (h.synReceived (hstate ▸ h')).1⟩
  · intro x
    rcases Side.eq_or_eq_other p.side x with rfl | rfl
    · exact hpiece
    · rw [happ]
      exact h.piece _
  · intro h'
    exact absurd (hstate ▸ h') h.notSent
  · intro h'
    obtain ⟨hside, hserver, hempty⟩ := h.synReceived (hstate ▸ h')
    rw [hside] at hcounter happ hcontinues
    exact ⟨hcounter.trans hserver, happ.trans hempty, hcontinues⟩
  · intro _ h' x
    rw [hstate] at h'
    rcases Side.eq_or_eq_other p.side x with rfl | rfl
    · exact hcontinues
    · exact hother h'

/-- The payload continues the piece of its side. -/
theorem behind_of_dataProcessed (h : Held S syn p c)
    (hcarries : (S.get p.side).Carries p.toJpcapPacket) {c' : TCPConnectionImpl}
    (hdata : TCPConnectionImpl.DataProcessed p c c') : Behind S syn p c' := by
  obtain ⟨hstart, hbytes⟩ := hcarries
  have hseq : (c'.counter.get p.side).seq = p.sequence + p.data.length := by
    rw [hdata.counter, SequenceCounter.get_update, updateCounter_seq]
  obtain ⟨offset, hoffset, hpiece⟩ : ∃ offset,
      p.sequence + p.data.length = (S.get p.side).isn + 1 + offset +
        (c'.inputStream.get p.side).appended.length ∧
      Piece S syn p.side offset (c'.inputStream.get p.side).appended := by
    rcases h.continues with hfin | ⟨offset, hoffset, hpiece⟩ | ⟨hempty, hsyn⟩
    · rw [hdata.was_open] at hfin
      exact absurd hfin (by simp)
    · refine ⟨offset, ?_, ?_⟩
      · rw [hdata.appended, List.length_append]
        omega
      · rw [hdata.appended]
        refine hpiece.append ?_
        convert hbytes using 2
        omega
    · -- the first bytes of a connection found half-way set the offset
      refine ⟨p.sequence - (S.get p.side).isn - 1, ?_, ?_⟩
      · rw [hdata.appended, hempty, List.nil_append]
        omega
      · rw [hdata.appended, hempty, List.nil_append]
        exact ⟨hbytes, fun hs => absurd hs hsyn⟩
  refine h.behind hdata.state ?_ hdata.other_isFinished hdata.other_appended ⟨offset, hpiece⟩ ?_
  · rw [hdata.counter, SequenceCounter.get_other_update]
  · rw [hseq]
    exact Or.inr (Or.inl ⟨offset, hoffset, hpiece⟩)

/-- A packet without payload ends where it starts. -/
theorem behind_of_noData (h : Held S syn p c) (hat : AtPacket p c)
    (hdata : p.isContainsData = false) : Behind S syn p c := by
  have hempty : p.data = [] := by simpa [TCPPacket.isContainsData] using hdata
  have hseq : (c.counter.get p.side).seq = p.sequence := by
    simpa [AtPacket, hempty] using hat
  refine h.behind rfl rfl rfl rfl (h.piece _) ?_
  rw [hseq]
  exact h.continues

/-- FIN closes the stream of its sender. -/
theorem flow_processFinishPacket (now : Date) (h : Behind S syn p c) :
    Flow S syn (c.processFinishPacket now p) := by
  obtain ⟨happ, hfin, hother⟩ := TCPConnectionImpl.processFinishPacket_streams now p c
  have hcounter := TCPConnectionImpl.processFinishPacket_counter now p c
  have hstate := TCPConnectionImpl.processFinishPacket_state now p c
  have hsent : (c.processFinishPacket now p).state ≠ some .synSent := by
    rw [hstate]
    have := h.notSent
    unfold TCPConnectionImpl.updateConnectionStateAfterReceivedFinishPacket
    split <;> simp_all
  have hreceived : (c.processFinishPacket now p).state = some .synReceived ↔
      c.state = some .synReceived := by
    rw [hstate]
    unfold TCPConnectionImpl.updateConnectionStateAfterReceivedFinishPacket
    split <;> simp_all
  refine ⟨?_, fun h' => absurd h' hsent, ?_, ?_⟩
  · intro x
    rw [happ x]
    exact h.flow.piece x
  · intro h'
    have hside := h.synReceived (hreceived.mp h')
    obtain ⟨hserver, hempty, -⟩ := h.flow.synReceived (hreceived.mp h')
    refine ⟨?_, (happ .server).trans hempty, Or.inl ?_⟩
    · rw [hcounter, hside]
      exact hserver
    · rw [hside] at hfin
      exact hfin
  · intro _ h' x
    rcases Side.eq_or_eq_other p.side x with rfl | rfl
    · exact Or.inl hfin
    · have := h.flow.continues h.notSent (fun hr => h' (hreceived.mpr hr)) p.side.other
      rw [hother, hcounter, SequenceCounter.get_other_sequenceAddOne,
        SequenceCounter.get_other_update]
      exact this

/-- `deliver` keeps `Flow`. -/
theorem flow_deliver (now : Date) (h : Flow S syn c) (hcarries : (S.get p.side).Carries p.toJpcapPacket)
    (hseq : (c.counter.get p.side).seq = p.sequence) (n : Nat) :
    (Delivery.deliver now p ⟨c, n⟩).Leaves (Flow S syn) (fun _ => True) := by
  have hheld := held_of_flow h hcarries hseq
  refine Delivery.deliver_leaves (R := fun c => Held S syn p c ∧ AtPacket p c)
    (A := fun c => Held S syn p c ∧ AtPacket p c) (D := Behind S syn p) ?_ ?_ ?_ ?_ ?_ ?_
  · split
    · exact held_processRstPacket hheld.1
    · exact hheld
  · intro c' h' _
    exact held_processAckPacket h'.1 h'.2
  · intro c' h' _
    exact h'
  · intro c' h' _
    exact (TCPConnectionImpl.processDataPacket_sat now p c').mono
      (fun c'' hdata => behind_of_dataProcessed h'.1 hcarries hdata) (fun _ _ => trivial)
  · intro c' h' hdata
    exact behind_of_noData h'.1 h'.2 hdata
  · intro c' h'
    split
    · have := flow_processFinishPacket now h'
      exact ⟨this.piece, this.synSent, this.synReceived, this.continues⟩
    · exact ⟨h'.flow.piece, h'.flow.synSent, h'.flow.synReceived, h'.flow.continues⟩

end Steps

/-! ## The invariant of a connection of the conversation -/

section Connections

variable {T : Conversation} {d : ConnectionDetail} {syn : Prop} {now : Date}

/-- A packet of the conversation whose direction was detected against
`d`. -/
structure Belongs (T : Conversation) (d : ConnectionDetail) (p : TCPPacket) : Prop where
  direction : p.isSentByClient = p.connectionDetail.isTheSame d
  notSyn : p.isHandsShake1Packet = false
  carries : ((T.sentBy d).get p.side).Carries p.toJpcapPacket

/-- What the drain keeps of a connection with detail `d`. -/
structure Kept (T : Conversation) (d : ConnectionDetail) (syn : Prop) (c : TCPConnectionImpl) :
    Prop where
  detail : c.connectionDetail = d
  opened : c.openedBySyn ↔ syn
  flow : Flow (T.sentBy d) syn c
  buffered : ∀ x, ∀ p ∈ c.packetsBuffer.get x, Belongs T d p

theorem Kept.setBuffer {c : TCPConnectionImpl} (h : Kept T d syn c) (x : Side)
    {packets : List TCPPacket} (hpackets : ∀ p ∈ packets, Belongs T d p) :
    Kept T d syn (c.setBuffer x packets) where
  detail := h.detail
  opened := h.opened
  flow := ⟨h.flow.piece, h.flow.synSent, h.flow.synReceived, h.flow.continues⟩
  buffered := BySide.forall_set (P := fun _ packets => ∀ p ∈ packets, Belongs T d p) hpackets
    (h.buffered x.other)

theorem openedBySyn_record {c c' : TCPConnectionImpl} {met : Option TCPConnectionState}
    {p : TCPPacket} (hp : p.isHandsShake1Packet = false)
    (hhandled : c'.handled = c.handled ++ [(met, p)]) :
    c'.openedBySyn ↔ c.openedBySyn := by
  simp [TCPConnectionImpl.openedBySyn, hhandled, or_and_right, exists_or, hp]

/-- Handling a packet that can be processed keeps everything. -/
theorem Kept.deliver {c : TCPConnectionImpl} (h : Kept T d syn c) {p : TCPPacket}
    (hp : Belongs T d p) (hcan : c.isCanProcessPacket p = .ok true) (n : Nat) :
    (Delivery.deliver now p ⟨c, n⟩).Leaves (Kept T d syn) (fun _ => True) := by
  have hseq := TCPConnectionImpl.sequence_of_isCanProcessPacket
    (by rw [h.detail]; exact hp.direction) hcan
  have hboth := (flow_deliver now h.flow hp.carries hseq n).and
    (Delivery.deliver_frame now p c n)
  refine Outcome.Sat.mono hboth ?_ (fun _ _ => trivial)
  rintro t ⟨hflow, hrec⟩
  refine ⟨hrec.connectionDetail.trans h.detail, ?_, hflow, ?_⟩
  · exact (openedBySyn_record hp.notSyn hrec.handled).trans h.opened
  · rw [hrec.packetsBuffer]
    exact h.buffered

theorem kept_drain (T : Conversation) (d : ConnectionDetail) (syn : Prop) (now : Date) :
    Delivery.DrainInvariant now (Kept T d syn) (fun _ => True) where
  thrown := fun _ _ => trivial
  drop := by
    intro c x p rest h hb _
    exact h.setBuffer x (TCPConnectionImpl.buffer_cons h.buffered hb).2
  take := by
    intro c n x p rest h hb hcan
    have hp : Belongs T d p := (TCPConnectionImpl.buffer_cons h.buffered hb).1
    have hrest := h.setBuffer x (TCPConnectionImpl.buffer_cons h.buffered hb).2
    exact hrest.deliver hp (by simpa using hcan) n
  updated := fun h => ⟨h.detail, h.opened, ⟨h.flow.piece, h.flow.synSent, h.flow.synReceived,
    h.flow.continues⟩, h.buffered⟩

/-- An active connection of the conversation. -/
structure Active (T : Conversation) (c : TCPConnectionImpl) : Prop where
  detail : c.connectionDetail = T.detail ∨ c.connectionDetail = T.detail.swap
  synDetail : c.openedBySyn → c.connectionDetail = T.detail
  kept : Kept T c.connectionDetail c.openedBySyn c

/-- A half-way connection of the conversation. -/
structure HalfWay (T : Conversation) (c : TCPConnectionImpl) : Prop where
  detail : c.connectionDetail = T.detail ∨ c.connectionDetail = T.detail.swap
  fresh : c.handled = []
  empty : ∀ x, (c.inputStream.get x).appended = []
  buffered : ∀ x, ∀ p ∈ c.packetsBuffer.get x, Belongs T c.connectionDetail p

/-- What the drain keeps makes an active connection again. -/
theorem Active.of_kept {c' : TCPConnectionImpl}
    (hdetail : d = T.detail ∨ d = T.detail.swap) (hsyn : syn → d = T.detail)
    (h : Kept T d syn c') : Active T c' := by
  obtain rfl := h.detail
  obtain rfl : c'.openedBySyn = syn := propext h.opened
  exact ⟨hdetail, hsyn, h⟩

/-- What holds of the sender of a packet holds of its side, once its direction
is detected. -/
theorem sentBy_side {P : Sent → Prop} {p : TCPPacket}
    (hd : d = T.detail ∨ d = T.detail.swap)
    (hends : p.connectionDetail = T.detail ∨ p.connectionDetail = T.detail.swap)
    (hclient : p.connectionDetail = T.detail → P T.sent.client)
    (hserver : p.connectionDetail = T.detail.swap → P T.sent.server) :
    P ((T.sentBy d).get (p.detectPacketFlowDirection d).side) := by
  show P ((T.sentBy d).get (if p.connectionDetail.isTheSame d then .client else .server))
  unfold Conversation.sentBy
  by_cases hpd : p.connectionDetail = d
  · rw [if_pos (ConnectionDetail.isTheSame_iff.mpr hpd)]
    split
    · rename_i h
      exact hclient (hpd.trans h)
    · rename_i h
      exact hserver (hpd.trans (hd.resolve_left h))
  · rw [if_neg (fun h => hpd (ConnectionDetail.isTheSame_iff.mp h))]
    split
    · rename_i h
      exact hserver (hends.resolve_left fun h' => hpd (h'.trans h.symm))
    · rename_i h
      have hswap := hd.resolve_left h
      exact hclient (hends.resolve_right fun h' => hpd (h'.trans hswap.symm))

/-- A captured packet that is neither SYN nor SYN/ACK, once its direction is
detected. -/
theorem belongs_detect {p : JpcapPacket} (hp : T.Captures p)
    (hkey : (p.connectionDetail == T.detail) = true)
    (hsyn : (TCPPacketImpl p).isHandsShake1Packet = false)
    (hsynAck : (TCPPacketImpl p).isHandsShake2Packet = false)
    (hd : d = T.detail ∨ d = T.detail.swap) :
    Belongs T d ((TCPPacketImpl p).detectPacketFlowDirection d) := by
  have hp' := hp hkey
  have hns : (p.syn && !p.ack) = false := hsyn
  have hns2 : p.syn = false := TCPPacket.syn_eq_false hsyn hsynAck
  rw [if_neg (by simp [hns]), if_neg (by simp [hns2])] at hp'
  obtain ⟨hends, hclient, hserver⟩ := hp'
  exact ⟨rfl, hsyn, sentBy_side (P := fun sent => sent.Carries p) (p := TCPPacketImpl p)
    hd hends hclient hserver⟩

/-- A packet of the pair with payload is neither SYN nor SYN/ACK. -/
theorem isHandsShake2Packet_of_isContainsData {p : JpcapPacket} (hp : T.Captures p)
    (hkey : (p.connectionDetail == T.detail) = true)
    (hdata : (TCPPacketImpl p).isContainsData = true) :
    (TCPPacketImpl p).isHandsShake2Packet = false := by
  by_contra hne
  have hsynAck : p.syn = true ∧ p.ack = true := by
    simpa [TCPPacket.isHandsShake2Packet, TCPPacketImpl] using hne
  have hp' := hp hkey
  simp only [hsynAck.1, hsynAck.2, Bool.not_true, Bool.and_false, Bool.false_eq_true, if_false,
    if_true] at hp'
  simp [TCPPacket.isContainsData, TCPPacketImpl, hp'.2.2] at hdata

/-- A packet of the pair is between the conversation's endpoints. -/
theorem detail_of_captures {p : JpcapPacket} (hp : T.Captures p)
    (hkey : (p.connectionDetail == T.detail) = true) :
    p.connectionDetail = T.detail ∨ p.connectionDetail = T.detail.swap := by
  have hp' := hp hkey
  split at hp'
  · exact Or.inl hp'.1
  · split at hp'
    · exact Or.inr hp'.1
    · exact hp'.1

/-! ## Picks -/

variable {p : JpcapPacket}

/-- A SYN makes a connection of the conversation. -/
theorem active_synConnection (hp : T.Captures p)
    (hkey : (p.connectionDetail == T.detail) = true)
    (hsyn : (TCPPacketImpl p).isHandsShake1Packet = true) :
    Active T (PacketReceiverImpl.synConnection now (TCPPacketImpl p)) := by
  have hp' := hp hkey
  rw [if_pos (show (p.syn && !p.ack) = true from hsyn)] at hp'
  obtain ⟨hdetail, hseq, hempty⟩ := hp'
  set c := PacketReceiverImpl.synConnection now (TCPPacketImpl p) with hc
  have hcd : c.connectionDetail = T.detail := hdetail
  have hopened : c.openedBySyn := ⟨(none, TCPPacketImpl p), by simp [hc, PacketReceiverImpl.synConnection,
    TCPConnectionImpl.processSyncPacket, TCPConnectionImpl.record, TCPConnectionImpl.create], hsyn⟩
  have happ : ∀ x, (c.inputStream.get x).appended = [] := by
    intro x
    cases x <;> rfl
  have hstate : c.state = some .synSent := rfl
  refine ⟨Or.inl hcd, fun _ => hcd, rfl, Iff.rfl, ⟨?_, ?_, ?_, ?_⟩, ?_⟩
  · intro x
    exact ⟨0, by rw [happ x]; exact List.nil_prefix, fun _ => rfl⟩
  · intro _
    refine ⟨hopened, ?_, rfl, rfl, rfl⟩
    have hclient : c.counter.client.seq = p.sequence + p.data.length :=
      updateCounter_seq (TCPPacketImpl p)
    rw [hclient, hcd, hempty, hseq]
    simp [Conversation.sentBy]
  · intro h
    simp [hstate] at h
  · intro h
    exact absurd hstate h
  · intro x q hq
    cases x <;> simp [hc, PacketReceiverImpl.synConnection,
      TCPConnectionImpl.processSyncPacket, TCPConnectionImpl.record, TCPConnectionImpl.create] at hq

/-- The first data packet makes a half-way connection of the
conversation. -/
theorem halfWay_halfWayConnection (hp : T.Captures p)
    (hkey : (p.connectionDetail == T.detail) = true)
    (hsyn : (TCPPacketImpl p).isHandsShake1Packet = false)
    (hdata : (TCPPacketImpl p).isContainsData = true) :
    HalfWay T (PacketReceiverImpl.halfWayConnection now (TCPPacketImpl p)) := by
  have hd := detail_of_captures hp hkey
  refine ⟨hd, rfl, fun x => by cases x <;> rfl, ?_⟩
  have hb := belongs_detect hp hkey hsyn
    (isHandsShake2Packet_of_isContainsData hp hkey hdata) hd
  intro x q hq
  cases x
  · obtain rfl := List.mem_singleton.mp hq
    exact hb
  · exact absurd hq (by simp [PacketReceiverImpl.halfWayConnection])

/-- The SYN/ACK starts the counter of the server. -/
theorem active_processSyncAckPacket {c : TCPConnectionImpl} (h : Active T c)
    (hp : T.Captures p) (hkey : (p.connectionDetail == T.detail) = true)
    (hstate : c.state = some .synSent)
    (hsynAck : (TCPPacketImpl p).isHandsShake2Packet = true) :
    (c.processSyncAckPacket ((TCPPacketImpl p).detectPacketFlowDirection c.connectionDetail)).Sat
      (Active T) (fun _ => True) := by
  have hp' := hp hkey
  obtain ⟨hs, ha⟩ : p.syn = true ∧ p.ack = true := by
    simpa [TCPPacket.isHandsShake2Packet, TCPPacketImpl] using hsynAck
  simp only [hs, ha, Bool.not_true, Bool.and_false, Bool.false_eq_true, if_false, if_true] at hp'
  obtain ⟨-, hseq, hempty⟩ := hp'
  obtain ⟨hopened, hclient, -, happc, happs⟩ := h.kept.flow.synSent hstate
  have hcd := h.synDetail hopened
  unfold TCPConnectionImpl.processSyncAckPacket
  split
  · trivial
  · set q := (TCPPacketImpl p).detectPacketFlowDirection c.connectionDetail with hq
    refine Active.of_kept h.detail h.synDetail
      ⟨rfl, openedBySyn_record ?_ rfl, ⟨h.kept.flow.piece, ?_, ?_, ?_⟩, h.kept.buffered⟩
    · simp [hq, TCPPacket.isHandsShake1Packet, TCPPacket.detectPacketFlowDirection,
        TCPPacketImpl, ha]
    · intro h'
      simp [TCPConnectionImpl.record] at h'
    · intro _
      refine ⟨?_, happs, Or.inr (Or.inl ⟨0, ?_, ?_⟩)⟩
      · show (updateCounter q).1.seq = _
        rw [updateCounter_seq, hcd]
        show p.sequence + p.data.length = _
        simp [hempty, hseq, Conversation.sentBy]
      · show c.counter.client.seq + 1 = _ + 1 + 0 + c.inputStream.client.appended.length
        rw [hclient, happc]
        rfl
      · show Piece _ _ .client 0 c.inputStream.client.appended
        rw [happc]
        exact ⟨List.nil_prefix, fun _ => rfl⟩
    · intro _ h'
      simp [TCPConnectionImpl.record] at h'

/-- A packet that completes an exchange starts the connection where it
found it. -/
theorem active_promote {c : TCPConnectionImpl} (h : HalfWay T c) {q : TCPPacket}
    (hq : Belongs T c.connectionDetail q) :
    (PacketReceiverImpl.promote now q c).Leaves (Active T) (fun _ => True) := by
  have hnotOpened : ¬ c.openedBySyn := by
    simp [TCPConnectionImpl.openedBySyn, h.fresh]
  have hempty : ∀ x, Continues (T.sentBy c.connectionDetail) c.openedBySyn x
      (((PacketReceiverImpl.primed q c).counter.get x).seq)
      ((PacketReceiverImpl.primed q c).inputStream.get x) :=
    fun x => Or.inr (Or.inr ⟨h.empty x, hnotOpened⟩)
  have hheld : Held (T.sentBy c.connectionDetail) c.openedBySyn q
      (PacketReceiverImpl.primed q c) := by
    refine ⟨?_, by simp [PacketReceiverImpl.primed], by simp [PacketReceiverImpl.primed],
      fun _ => hempty _, Or.inr (Or.inr ⟨h.empty _, hnotOpened⟩)⟩
    intro x
    refine ⟨0, ?_, fun _ => rfl⟩
    show (c.inputStream.get x).appended <+: _
    rw [h.empty x]
    exact List.nil_prefix
  have hpromote : (PacketReceiverImpl.promote now q c).Leaves
      (Kept T c.connectionDetail c.openedBySyn) (fun _ => True) := by
    refine PacketReceiverImpl.promote_leaves (kept_drain T _ _ now) ?_
    have hboth := (TCPConnectionImpl.processDataPacket_sat now q (PacketReceiverImpl.primed q c)).and
      (Delivery.processDataPacket_frame now q (PacketReceiverImpl.primed q c))
    refine Outcome.Sat.mono hboth ?_ (fun _ _ => trivial)
    rintro c' ⟨hdata, hframe⟩
    have hflow := (behind_of_dataProcessed hheld hq.carries hdata).flow
    refine ⟨hframe.connectionDetail, ?_, ⟨hflow.piece, hflow.synSent, hflow.synReceived,
      hflow.continues⟩, ?_⟩
    · exact openedBySyn_record hq.notSyn
        (congrArg (· ++ [(some TCPConnectionState.established, q)]) hframe.handled)
    · show ∀ x, ∀ p ∈ c'.packetsBuffer.get x, _
      rw [hframe.packetsBuffer]
      exact h.buffered
  exact hpromote.mono (fun t ht => Active.of_kept h.detail (fun hs => absurd hs hnotOpened) ht)
    (fun _ _ => trivial)

theorem HalfWay.buffer {c : TCPConnectionImpl} (h : HalfWay T c) {q : TCPPacket}
    (hq : Belongs T c.connectionDetail q) : HalfWay T (c.setBuffer q.side
      (TreeSet.add TCPPacket.compareTo q (c.packetsBuffer.get q.side))) where
  detail := h.detail
  fresh := h.fresh
  empty := h.empty
  buffered := BySide.forall_set (P := fun _ packets => ∀ p ∈ packets, Belongs T c.connectionDetail p)
    (PacketReceiverImpl.forall_mem_add h.buffered hq) (h.buffered _)

/-- `process` on a packet of the conversation. -/
theorem active_process {c : TCPConnectionImpl} (h : Active T c) {q : TCPPacket}
    (hq : Belongs T c.connectionDetail q) :
    (PacketReceiverImpl.process now q c).Leaves (Active T) (fun _ => True) := by
  have hkept : (PacketReceiverImpl.process now q c).Leaves
      (Kept T c.connectionDetail c.openedBySyn) (fun _ => True) := by
    refine PacketReceiverImpl.process_leaves (kept_drain T _ _ now) h.kept ?_ ?_
    · intro hcan
      exact h.kept.deliver hq hcan 0
    · intro _
      exact h.kept.setBuffer _ (PacketReceiverImpl.forall_mem_add h.kept.buffered hq)
  exact hkept.mono (fun t ht => Active.of_kept h.detail h.synDetail ht) (fun _ _ => trivial)

/-! ## Runs -/

/-- The invariants of the connections of the conversation; others are not
looked at. -/
theorem pickInvariant (T : Conversation) (now : Date) (hp : T.Captures p) :
    PacketReceiverImpl.PickInvariant now (TCPPacketImpl p)
      (fun c => (c.connectionDetail == T.detail) = true → Active T c)
      (fun c => (c.connectionDetail == T.detail) = true → HalfWay T c) (fun _ => True) where
  thrown := fun _ _ => trivial
  opened := fun hsyn hkey => active_synConnection hp hkey hsyn
  candidate := fun hsyn hdata hkey => halfWay_halfWayConnection hp hkey hsyn hdata
  buffered := by
    intro c h hpair hsyn hdata
    refine PacketReceiverImpl.bufferPacket_sat h fun hkey => ?_
    have hkey' := BEq.trans (BEq.symm hpair) hkey
    exact (h hkey).buffer (belongs_detect hp hkey' hsyn
      (isHandsShake2Packet_of_isContainsData hp hkey' hdata) (h hkey).detail)
  promoted := by
    intro c h hpair hsyn hdata _
    by_cases hkey : (c.connectionDetail == T.detail) = true
    · have hkey' := BEq.trans (BEq.symm hpair) hkey
      have hb := belongs_detect hp hkey' hsyn
        (isHandsShake2Packet_of_isContainsData hp hkey' hdata) (h hkey).detail
      exact (active_promote (h hkey) hb).mono (fun _ h' _ => h') (fun _ _ => trivial)
    · refine (PacketReceiverImpl.promote_detail now _ c).mono ?_ (fun _ _ => trivial)
      intro t ht hkey'
      exact absurd (ht ▸ hkey') hkey
  answered := by
    intro c h hpair hignored hsynAck
    by_cases hkey : (c.connectionDetail == T.detail) = true
    · have hkey' := BEq.trans (BEq.symm hpair) hkey
      have hstate : c.state = some .synSent :=
        PacketReceiverImpl.synSent_of_notIgnored hignored hsynAck
      exact (active_processSyncAckPacket (h hkey) hp hkey' hstate hsynAck).mono
        (fun _ h' _ => h') (fun _ _ => trivial)
    · refine (PacketReceiverImpl.processSyncAckPacket_detail _ c).mono ?_ (fun _ _ => trivial)
      intro c' hc' hkey'
      exact absurd (hc' ▸ hkey') hkey
  processed := by
    intro c h hpair _ hsyn hsynAck
    by_cases hkey : (c.connectionDetail == T.detail) = true
    · have hkey' := BEq.trans (BEq.symm hpair) hkey
      have hb := belongs_detect hp hkey' hsyn hsynAck (h hkey).detail
      exact (active_process (h hkey) hb).mono (fun _ h' _ => h') (fun _ _ => trivial)
    · refine (PacketReceiverImpl.process_detail now _ c).mono ?_ (fun _ _ => trivial)
      intro t ht hkey'
      exact absurd (ht ▸ hkey') hkey

/-- Reading changes no appended byte and closes no stream. -/
theorem Flow.sameBytes {S : BySide Sent} {c : TCPConnectionImpl} (h : Flow S syn c)
    {streams : BySide DynamicByteArrayInputStream}
    (hsame : TCPConnectionImpl.SameBytes c.inputStream streams) :
    Flow S syn { c with inputStream := streams } := by
  have hcontinues : ∀ x seq, Continues S syn x seq (c.inputStream.get x) →
      Continues S syn x seq (streams.get x) := by
    intro x seq h'
    unfold Continues at h' ⊢
    rwa [hsame.appended, hsame.isFinished]
  have happ : ∀ x, (c.inputStream.get x).appended = [] → (streams.get x).appended = [] :=
    fun x h' => (hsame.appended x).trans h'
  refine ⟨?_, ?_, ?_, ?_⟩
  · intro x
    show ∃ offset, Piece S syn x offset (streams.get x).appended
    rw [hsame.appended]
    exact h.piece x
  · intro hstate
    obtain ⟨hsyn, hclient, hserver, hc, hs⟩ := h.synSent hstate
    exact ⟨hsyn, hclient, hserver, happ .client hc, happ .server hs⟩
  · intro hstate
    obtain ⟨hserver, hempty, hc⟩ := h.synReceived hstate
    exact ⟨hserver, happ .server hempty, hcontinues .client _ hc⟩
  · intro hsent hreceived x
    exact hcontinues x _ (h.continues hsent hreceived x)

/-- Reading a stream keeps the invariants of both tables. -/
theorem Active.read {c c' : TCPConnectionImpl} (hread : PacketReceiverImpl.SameButRead c c')
    (h : Active T c) : Active T c' := by
  obtain ⟨streams, rfl, hsame, -⟩ := hread
  exact ⟨h.detail, h.synDetail, rfl, Iff.rfl, h.kept.flow.sameBytes hsame, h.kept.buffered⟩

theorem HalfWay.read {c c' : TCPConnectionImpl} (hread : PacketReceiverImpl.SameButRead c c')
    (h : HalfWay T c) : HalfWay T c' := by
  obtain ⟨streams, rfl, hsame, -⟩ := hread
  exact ⟨h.detail, h.fresh, fun y => (hsame.appended y).trans (h.empty y), h.buffered⟩

end Connections

end Reassembly

namespace PacketReceiverImpl

/-- The call captures nothing but packets of the conversation and of other
pairs, and it does not throw. -/
def Follows (T : Conversation) (r : PacketReceiverImpl) (c : Call) : Prop :=
  (match c with
    | .pick _ packet => T.Captures packet
    | _ => True) ∧ (r.call c).isReturned = true

instance (T : Conversation) (r : PacketReceiverImpl) : ∀ c, Decidable (Follows T r c)
  | .pick _ packet => inferInstanceAs (Decidable (T.Captures packet ∧ _))
  | .poll => inferInstanceAs (Decidable (True ∧ _))
  | .read _ _ => inferInstanceAs (Decidable (True ∧ _))
  | .readInto _ _ _ _ _ => inferInstanceAs (Decidable (True ∧ _))

/-- In every run that follows the conversation and does not throw, whatever
is lost, repeated or out of order, the bytes appended to each stream of an
active connection are one piece of the bytes of its side.  On a connection
made by a SYN the piece starts with the first byte. -/
theorem reassembly_safe (filter : ConnectionFilter) (T : Conversation) (calls : List Call)
    (hcalls : Run.Along step (Follows T) (create filter) calls) {key : ConnectionDetail}
    {ref : Ref} {c : TCPConnectionImpl}
    (hactive : (Run.after step (create filter) calls).activeConnections.get key = some ref)
    (hc : (Run.after step (create filter) calls).deref ref = some c)
    (hpair : (c.connectionDetail == T.detail) = true) :
    (c.connectionDetail = T.detail ∨ c.connectionDetail = T.detail.swap) ∧
      ∀ x, ∃ offset, (c.inputStream.get x).appended <+:
          ((T.sentBy c.connectionDetail).get x).bytes.drop offset ∧
        (c.openedBySyn → c.connectionDetail = T.detail ∧ offset = 0) := by
  have hrun := Run.invariant (C := Follows T)
    (I := fun r => WellFormed r ∧ Tables
      (fun c => (c.connectionDetail == T.detail) = true → Reassembly.Active T c)
      (fun c => (c.connectionDetail == T.detail) = true → Reassembly.HalfWay T c) r)
    ?_ ⟨wellFormed_create filter, tables_create _ _ filter⟩ hcalls
  · have hfinal := hrun.2.active hactive hc hpair
    refine ⟨hfinal.detail, fun x => ?_⟩
    obtain ⟨offset, hpiece, hoffset⟩ := hfinal.kept.flow.piece x
    exact ⟨offset, hpiece, fun hopened => ⟨hfinal.synDetail hopened, hoffset hopened⟩⟩
  · rintro r call ⟨hwf, htables⟩ ⟨hcaptured, hreturned⟩
    refine ⟨step_wellFormed hwf call, ?_⟩
    cases call with
    | pick now packet =>
      exact ((Reassembly.pickInvariant T now hcaptured).pick_tables hwf htables).of_isReturned
        hreturned
    | _ =>
      refine htables.step_other ?_ ?_ nofun
      · intro c c' hread hc hkey
        exact (hc (hread.connectionDetail ▸ hkey)).read hread
      · intro c c' hread hc hkey
        exact (hc (hread.connectionDetail ▸ hkey)).read hread

/-- A handshake, two segments in the wrong order, and the first one once
more. -/
theorem reassembly_safe_reordered :
    let client := InetAddress.inet4 10 0 0 1
    let server := InetAddress.inet4 10 0 0 2
    let T : Conversation :=
      ⟨⟨client, server, 50000, 80⟩, ⟨100, [1, 2, 3, 4]⟩, ⟨500, [9]⟩⟩
    let up (sequence : Nat) (data : List UInt8) : JpcapPacket :=
      ⟨client, server, 50000, 80, sequence, 501, true, false, false, false, data, 0⟩
    let calls : List Call := [
      .pick 0 ⟨client, server, 50000, 80, 100, 0, false, false, true, false, [], 0⟩,
      .pick 1 ⟨server, client, 80, 50000, 500, 101, true, false, true, false, [], 0⟩,
      .pick 2 (up 101 []), .pick 3 (up 103 [3, 4]), .pick 4 (up 101 [1, 2]),
      .pick 5 (up 101 [1, 2])]
    ∃ c, (Run.after step (create {}) calls).deref 0 = some c ∧
      ∀ x, ∃ offset, (c.inputStream.get x).appended <+:
          ((T.sentBy c.connectionDetail).get x).bytes.drop offset ∧
        (c.openedBySyn → c.connectionDetail = T.detail ∧ offset = 0) := by
  intro client server T up calls
  have hsome : ((Run.after step (create {}) calls).deref 0).isSome = true := by decide
  refine ⟨_, (Option.some_get hsome).symm, ?_⟩
  exact (@reassembly_safe {} T calls (by decide) T.detail 0 _ (by decide)
    (Option.some_get hsome).symm (by decide +revert)).2

end PacketReceiverImpl

end ConnectionSniffer
