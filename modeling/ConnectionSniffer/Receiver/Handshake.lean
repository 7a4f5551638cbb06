import ConnectionSniffer.Receiver.Announcements
import ConnectionSniffer.Receiver.Answering
import ConnectionSniffer.Receiver.InOrder

/-!
# The third packet of a handshake

The counter of the server is one short until the third packet has been
checked, and the accept test comes before the check.  A third packet
without payload and FIN passes the accept test unseen; any other one has to
acknowledge what the client acknowledged with its SYN, or the counter of
the server that is one short.  So it waits in the buffer, unless the SYN
has carried the number that nobody could know.

`Quiet` is a connection between two packets of its handshake: nothing of
what the server sends in the meantime moves counters and state, as long as
it is `Harmless`.  `Between.run` follows it through other calls, and
`completed_third` and `not_completed_third` take the third packet.
-/

namespace ConnectionSniffer

namespace Handshake

open Answering (AnsweredByClient Unmisled)
open PacketReceiverImpl (Foreign Live SameButRead)

/-! ## The handshake -/

/-- The three packets of a handshake, each with any payload, and the third
one with or without FIN. -/
structure Opening (d : ConnectionDetail) (isn : BySide Nat) (syn synAck third : JpcapPacket) :
    Prop where
  syn_sent : SentBy d .client syn
  syn_flags : syn.syn = true ∧ syn.ack = false
  syn_sequence : syn.sequence = isn.client
  synAck_sent : SentBy d .server synAck
  synAck_flags : synAck.syn = true ∧ synAck.ack = true
  synAck_sequence : synAck.sequence = isn.server
  synAck_ackNum : synAck.ackNum = isn.client + 1
  third_sent : SentBy d .client third
  third_flags : third.syn = false ∧ third.ack = true ∧ third.rst = false
  third_sequence : third.sequence = isn.client + 1
  third_ackNum : third.ackNum = isn.server + 1
  third_fits : third.data.length < 2 ^ 16

/-- From `r` to `r'` the connection was announced, its counters moved behind
the third packet, and the payload was appended. -/
structure Completed (isn : BySide Nat) (third : JpcapPacket) (ref : Ref)
    (r r' : PacketReceiverImpl) : Prop where
  announced : r'.establishedConnections = r.establishedConnections ++ [ref]
  taken : ∃ c c', r.deref ref = some c ∧ r'.deref ref = some c' ∧
    c'.counter.client.seq =
      isn.client + 1 + third.data.length + (if third.fin then 1 else 0) ∧
    c'.counter.server.seq = isn.server + 1 ∧
    c'.inputStream.client.appended = c.inputStream.client.appended ++ third.data

/-- The third packet has neither payload nor FIN, or the SYN already
acknowledged the SYN of the server. -/
def Passes (isn : BySide Nat) (syn third : JpcapPacket) : Prop :=
  (third.data = [] ∧ third.fin = false) ∨ syn.ackNum = isn.server + 1

instance (isn : BySide Nat) (syn third : JpcapPacket) : Decidable (Passes isn syn third) :=
  inferInstanceAs (Decidable (_ ∨ _))

/-- Neither SYN carries payload, which would count like that of any other
packet. -/
def Bare (syn synAck : JpcapPacket) : Prop :=
  syn.data = [] ∧ synAck.data = []

instance (syn synAck : JpcapPacket) : Decidable (Bare syn synAck) :=
  inferInstanceAs (Decidable (_ ∧ _))

/-- The packet cannot be processed, or it is thrown out for its
acknowledgement number, or there is nothing in it. -/
def Harmless (c : TCPConnectionImpl) (q : TCPPacket) : Prop :=
  c.isCanProcessPacket q = .ok true → q.rst = false ∧
    (q.ack = true ∧ c.state = some .synReceived ∧ q.ackNum ≠ c.counter.server.seq + 1 ∨
      q.isContainsData = false ∧ q.fin = false ∧ (q.ack = true → c.state = some .synSent))

instance (c : TCPConnectionImpl) (q : TCPPacket) : Decidable (Harmless c q) :=
  inferInstanceAs (Decidable (_ → _))

/-- The call picks no packet of the pair, or one of the server that is
harmless, as those in the buffer are.  A SYN/ACK does not acknowledge the
SYN, or nobody waits for it. -/
def Undisturbed (d : ConnectionDetail) (r : PacketReceiverImpl) : Call → Prop
  | .pick now p =>
    Foreign d (.pick now p) ∨
      SentBy d .server p ∧ (TCPPacketImpl p).isHandsShake1Packet = false ∧
        ∀ ref c, r.activeConnections.get d = some ref → r.deref ref = some c →
          if (TCPPacketImpl p).isHandsShake2Packet then
            c.state = some .synSent → p.ackNum ≠ c.counter.client.seq + 1
          else Harmless c (p.detected d) ∧ ∀ q ∈ c.packetsBuffer.server, Harmless c q
  | _ => True

/-! ## Between two packets of a handshake -/

/-- A stream that nothing was appended to. -/
structure Blank (s : DynamicByteArrayInputStream) : Prop where
  sane : s.Sane
  isOpen : s.isFinished = false
  appended : s.appended = []
  unread : s.unread = []

theorem blank_create (now : Date) : Blank { currentStreamStartTime := now } :=
  ⟨DynamicByteArrayInputStream.sane_create now, rfl, rfl, rfl⟩

theorem Blank.hasRoom {s : DynamicByteArrayInputStream} (h : Blank s) {data : List UInt8}
    (hfits : data.length < 2 ^ 16) : s.hasRoom data := by
  have hmax : MAX_BUFFER_SIZE = 2048000 := rfl
  unfold DynamicByteArrayInputStream.hasRoom
  rw [h.unread, List.nil_append, hmax]
  omega

/-- The connection of `d` in the state `s` and with the counters `k`, its
streams blank, and the packets of `H` in its buffers. -/
structure Quiet (d : ConnectionDetail) (s : TCPConnectionState) (k : SequenceCounter)
    (H : Side → TCPPacket → Prop) (c : TCPConnectionImpl) : Prop where
  detail : c.connectionDetail = d
  state : c.state = some s
  counter : c.counter = k
  blank : ∀ x, Blank (c.inputStream.get x)
  buffered : ∀ x, ∀ q ∈ c.packetsBuffer.get x, H x q

section Quiet

variable {d : ConnectionDetail} {s : TCPConnectionState} {k : SequenceCounter}
  {H H' : Side → TCPPacket → Prop} {c c' : TCPConnectionImpl} {p : TCPPacket} {now : Date}

theorem Quiet.mono (h : Quiet d s k H c) (hH : ∀ x, ∀ q ∈ c.packetsBuffer.get x, H' x q) :
    Quiet d s k H' c :=
  ⟨h.detail, h.state, h.counter, h.blank, hH⟩

theorem Quiet.isFinished (h : Quiet d s k H c) : c.isFinished = false := by
  unfold TCPConnectionImpl.isFinished
  rw [show c.inputStream.client.isFinished = false from (h.blank .client).isOpen]
  rfl

/-- Reading from a blank stream finds nothing. -/
theorem Quiet.sameButRead (h : Quiet d s k H c) (hc : SameButRead c c') : Quiet d s k H c' := by
  obtain ⟨streams, rfl, hsame, hleaves⟩ := hc
  refine ⟨h.detail, h.state, h.counter, fun x => ?_, h.buffered⟩
  obtain ⟨hsane, hunread⟩ := hleaves x (h.blank x).sane
  refine ⟨hsane, (hsame.isFinished x).trans (h.blank x).isOpen,
    (hsame.appended x).trans (h.blank x).appended, ?_⟩
  rw [(h.blank x).unread] at hunread
  exact List.suffix_nil.mp hunread

theorem Quiet.setBuffer (h : Quiet d s k H c) (x : Side) {packets : List TCPPacket}
    (hpackets : ∀ q ∈ packets, H x q) : Quiet d s k H (c.setBuffer x packets) :=
  ⟨h.detail, h.state, h.counter, h.blank, BySide.forall_set
    (P := fun y (l : List TCPPacket) => ∀ q ∈ l, H y q) hpackets (h.buffered _)⟩

theorem isCanProcessPacket_congr (hdetail : c'.connectionDetail = c.connectionDetail)
    (hcounter : c'.counter = c.counter) (q : TCPPacket) :
    c'.isCanProcessPacket q = c.isCanProcessPacket q := by
  simp only [TCPConnectionImpl.isCanProcessPacket, TCPConnectionImpl.isMatchSequence, hdetail,
    hcounter]

/-- What is harmless depends on endpoints, state and counters alone. -/
theorem Harmless.congr {q : TCPPacket} (hq : Harmless c q) (h : Quiet d s k H c)
    (h' : Quiet d s k H' c') : Harmless c' q := by
  intro hcan
  rw [isCanProcessPacket_congr (h'.detail.trans h.detail.symm) (h'.counter.trans h.counter.symm)]
    at hcan
  rw [h'.state, h'.counter, ← h.state, ← h.counter]
  exact hq hcan

/-- A harmless packet that can be processed changes nothing. -/
theorem Quiet.deliver (h : Quiet d s k H c) (hp : Harmless c p)
    (hcan : c.isCanProcessPacket p = .ok true) (n : Nat) :
    (Delivery.deliver now p ⟨c, n⟩).Leaves (Quiet d s k H) (Quiet d s k H) := by
  obtain ⟨hrst, ⟨hack, hstate, hnum⟩ | ⟨hdata, hfin, hack⟩⟩ := hp hcan
  · have hthrown : Delivery.deliver now p ⟨c, n⟩ = .thrown (.runtimeException
        ("syn packet ack number " ++ toString p.ackNum ++ " is incorrect!")) ⟨c, n⟩ := by
      simp [Delivery.deliver, Delivery.acknowledge, Delivery.apply, hrst, hack,
        TCPConnectionImpl.processAckPacket, TCPConnectionImpl.processHandshake3AckPacket,
        hstate, hnum]
    rw [hthrown]
    exact h
  · have hidle : p.ack = true → c.processAckPacket p = .returned c := by
      intro hp
      simp [TCPConnectionImpl.processAckPacket, hack hp]
    rw [Delivery.deliver_of_idle now n hrst hfin hidle]
    simp only [hdata, Bool.false_eq_true, if_false, Outcome.map_returned, Outcome.andThen_returned]
    exact ⟨h.detail, h.state, h.counter, h.blank, h.buffered⟩

/-- Harmless packets, picked and buffered, change nothing. -/
theorem Quiet.process (now : Date) (h : Quiet d s k H c) (hH : ∀ x q, H x q → Harmless c q)
    (hp : H p.side p) :
    (PacketReceiverImpl.process now p c).Leaves (Quiet d s k H) (Quiet d s k H) := by
  have hdrain : Delivery.DrainInvariant now (Quiet d s k H) (Quiet d s k H) :=
    { thrown := fun _ h' => h'
      drop := by
        intro c' x q rest h' hb _
        exact h'.setBuffer x (TCPConnectionImpl.buffer_cons h'.buffered hb).2
      take := by
        intro c' n x q rest h' hb hcan
        have hrest : Quiet d s k H (c'.setBuffer x rest) :=
          h'.setBuffer x (TCPConnectionImpl.buffer_cons h'.buffered hb).2
        have hq := hH x q (TCPConnectionImpl.buffer_cons h'.buffered hb).1
        exact hrest.deliver (hq.congr h hrest) (by simpa using hcan) n
      updated := fun h' => ⟨h'.detail, h'.state, h'.counter, h'.blank, h'.buffered⟩ }
  exact PacketReceiverImpl.process_leaves hdrain h
    (fun hcan => h.deliver (hH _ _ hp) hcan 0)
    fun _ => h.setBuffer _ (PacketReceiverImpl.forall_mem_add h.buffered hp)

end Quiet

/-! ## The calls in between -/

section Between

variable {d : ConnectionDetail} {ref : Ref} {r : PacketReceiverImpl} {c : TCPConnectionImpl}
  {s : TCPConnectionState} {k : SequenceCounter}

/-- Between two packets of its handshake the connection has heard the server
at most. -/
def Between (d : ConnectionDetail) (ref : Ref) (s : TCPConnectionState) (k : SequenceCounter)
    (r : PacketReceiverImpl) : Prop :=
  ∃ c, Live d ref r c ∧ Quiet d s k (fun x _ => x = .server) c

theorem Between.step (h : Between d ref s k r) {call : Call} (hcall : Undisturbed d r call) :
    Between d ref s k (r.step call) := by
  obtain ⟨c, hlive, hquiet⟩ := h
  by_cases hforeign : Foreign d call
  · obtain ⟨c', hlive', hread⟩ := hlive.step_other hforeign
    exact ⟨c', hlive', hquiet.sameButRead hread⟩
  cases call with
  | pick now p =>
    obtain ⟨hx, hsyn, hcond⟩ := hcall.resolve_left hforeign
    have hactive := hlive.get_active hx
    have hcond := hcond ref c hlive.active hlive.deref
    show Between d ref s k (r.pick now (TCPPacketImpl p)).state
    cases hignored : PacketReceiverImpl.isIgnored (p.detected c.connectionDetail) c with
    | true =>
      rw [PacketReceiverImpl.picked_iff.mp (.ignored hsyn hactive hlive.deref hignored)]
      exact ⟨c, hlive, hquiet⟩
    | false =>
      cases hsynAck : (TCPPacketImpl p).isHandsShake2Packet with
      | true =>
        -- somebody waits for a SYN/ACK, but this one does not acknowledge the SYN
        rw [PacketReceiverImpl.picked_iff.mp (.answered hsyn hactive hlive.deref hignored hsynAck)]
        rw [if_pos hsynAck] at hcond
        have hnum := hcond (PacketReceiverImpl.synSent_of_notIgnored hignored hsynAck)
        have hthrown : c.processSyncAckPacket (p.detected c.connectionDetail) =
            .thrown (.runtimeException "sync packet ack number is incorrect!") c := by
          simp [TCPConnectionImpl.processSyncAckPacket, hnum]
        change Between d ref s k ((c.processSyncAckPacket (p.detected c.connectionDetail)).map
          (r.store ref)).state
        rw [hthrown]
        exact ⟨c, ⟨hlive.wellFormed.store hlive.deref rfl, hlive.active,
          PacketReceiverImpl.deref_store_self hlive.deref, hlive.detail⟩, hquiet⟩
      | false =>
        rw [PacketReceiverImpl.picked_iff.mp
          (.processed hsyn hactive hlive.deref hignored hsynAck)]
        rw [if_neg (by simp [hsynAck]), ← hlive.detail] at hcond
        rw [← hlive.detail] at hx
        have hdetail := PacketReceiverImpl.process_detail now (p.detected c.connectionDetail) c
        have hharmless : Quiet d s k (fun x q => x = .server ∧ Harmless c q) c := by
          refine hquiet.mono fun x q hq => ?_
          obtain rfl := hquiet.buffered x q hq
          exact ⟨rfl, hcond.2 q hq⟩
        have hprocess := hharmless.process now (fun _ _ hq => hq.2) ⟨hx.side, hcond.1⟩
        change Between d ref s k (((PacketReceiverImpl.process now
          (p.detected c.connectionDetail) c).map (r.commit ref)).andThen
            fun r => .returned (r.removeIfFinished ref)).state
        cases ho : PacketReceiverImpl.process now (p.detected c.connectionDetail) c with
        | returned t =>
          rw [ho] at hdetail hprocess
          have hlive' := hlive.commit hdetail
          rw [Outcome.map_returned, Outcome.andThen_returned,
            PacketReceiverImpl.removeIfFinished_of_open hlive'.deref (Quiet.isFinished hprocess)]
          exact ⟨_, hlive', Quiet.mono hprocess fun x q hq => (hprocess.buffered x q hq).1⟩
        | thrown e t =>
          rw [ho] at hdetail hprocess
          exact ⟨_, hlive.commit hdetail, Quiet.mono hprocess fun x q hq =>
            (hprocess.buffered x q hq).1⟩
  | _ => exact absurd trivial hforeign

theorem Between.run (h : Between d ref s k r) {calls : List Call}
    (hcalls : Run.Along PacketReceiverImpl.step (Undisturbed d) r calls) :
    Between d ref s k (Run.after PacketReceiverImpl.step r calls) :=
  Run.invariant (I := Between d ref s k) (fun _ _ h hcall => h.step hcall) h hcalls

end Between

/-! ## The third packet -/

/-- What the third packet leaves, with the packets of `H` in the buffers. -/
structure Taken (d : ConnectionDetail) (isn : BySide Nat) (p : JpcapPacket)
    (H : Side → TCPPacket → Prop) (t : Delivery) : Prop where
  announced : t.announced = 1
  detail : t.connection.connectionDetail = d
  client : t.connection.counter.client.seq =
    isn.client + 1 + p.data.length + (if p.fin then 1 else 0)
  server : t.connection.counter.server.seq = isn.server + 1
  appended : t.connection.inputStream.client.appended = p.data
  buffered : ∀ x, ∀ q ∈ t.connection.packetsBuffer.get x, H x q

section Third

variable {d : ConnectionDetail} {isn : BySide Nat} {syn synAck p : JpcapPacket}
  {k : SequenceCounter} {H : Side → TCPPacket → Prop} {c : TCPConnectionImpl}

/-- The third packet changes the counters twice and the state up to twice,
and the payload goes to the stream in between. -/
theorem deliver_third (now : Date) (hopening : Opening d isn syn synAck p) (h : Quiet d .synReceived k H c)
    (hserver : k.server.seq = isn.server) :
    (Delivery.deliver now (p.detected d) ⟨c, 0⟩).Sat (Taken d isn p H) fun _ => False := by
  obtain ⟨-, hack, hrst⟩ := hopening.third_flags
  have hside : (p.detected d).side = .client := hopening.third_sent.side
  have hseq : (updateCounter (p.detected d)).1.seq = isn.client + 1 + p.data.length := by
    rw [updateCounter_seq]
    exact congrArg (· + p.data.length) hopening.third_sequence
  have hdeliver : (Delivery.deliver now (p.detected d) ⟨c, 0⟩).Sat
      (fun t => t.announced = 1 ∧
        t.connection.counter.client.seq =
          isn.client + 1 + p.data.length + (if p.fin then 1 else 0) ∧
        t.connection.counter.server.seq = isn.server + 1 ∧
        t.connection.inputStream.client.appended = p.data) fun _ => False := by
    refine Delivery.deliver_sat (R := fun t => t = ⟨c, 0⟩)
      (A := fun t => t.announced = 1 ∧
        t.connection.counter = (c.counter.update .client (p.detected d)).sequenceAddOne .server ∧
        t.connection.inputStream = c.inputStream)
      (D := fun t => t.announced = 1 ∧
        t.connection.counter.client.seq = isn.client + 1 + p.data.length ∧
        t.connection.counter.server.seq = isn.server + 1 ∧
        t.connection.inputStream.client.appended = p.data) ?_ ?_ ?_ ?_ ?_
    · simp [hrst]
    · rintro _ rfl
      have hnum : p.ackNum = c.counter.server.seq + 1 := by
        rw [h.counter, hserver, hopening.third_ackNum]
      simp [Delivery.acknowledge, Delivery.apply, hack, TCPConnectionImpl.processAckPacket,
        TCPConnectionImpl.processHandshake3AckPacket, h.state, hnum]
    · rintro ⟨c₁, n⟩ ⟨hn, hcounter, hstreams⟩ _
      have hblank : Blank (c₁.inputStream.get (p.detected d).side) := by
        rw [show c₁.inputStream = c.inputStream from hstreams]
        exact h.blank _
      have happend := (TCPConnectionImpl.sane_ownStream hblank.sane).append_eq
        (by simpa using hblank.isOpen) (by simpa using hblank.hasRoom hopening.third_fits)
      have hreturned : (c₁.processDataPacket now (p.detected d)).isReturned = true := by
        rw [TCPConnectionImpl.processDataPacket_eq, JpcapPacket.data_detected, happend]
        rfl
      have hd := (TCPConnectionImpl.processDataPacket_sat now (p.detected d) c₁).of_isReturned
        hreturned
      have happended := hd.appended
      rw [hblank.appended, hside, List.nil_append] at happended
      have hmoved := hd.counter
      rw [hside, show c₁.counter = _ from hcounter] at hmoved
      unfold Delivery.apply
      rw [Outcome.eq_returned hreturned]
      refine ⟨hn, ?_, ?_, happended⟩
      · show (c₁.processDataPacket now (p.detected d)).state.counter.client.seq = _
        rw [hmoved]
        exact hseq
      · show (c₁.processDataPacket now (p.detected d)).state.counter.server.seq = _
        rw [hmoved, ← hserver, ← h.counter]
        rfl
    · rintro ⟨c₁, n⟩ ⟨hn, hcounter, hstreams⟩ hnodata
      refine ⟨hn, ?_, ?_, ?_⟩
      · rw [hcounter]
        exact hseq
      · rw [hcounter, ← hserver, ← h.counter]
        rfl
      · rw [hstreams, show p.data = [] by simpa using hnodata]
        exact (h.blank .client).appended
    · rintro ⟨c₁, n⟩ ⟨hn, hclient, hserver', happended⟩
      cases hfin : p.fin with
      | false =>
        rw [if_neg (show (p.detected d).fin ≠ true by simp [hfin]), if_neg (by simp)]
        exact ⟨hn, hclient, hserver', happended⟩
      | true =>
        rw [if_pos (show (p.detected d).fin = true from hfin), if_pos rfl]
        have hmoved := TCPConnectionImpl.processFinishPacket_counter now (p.detected d) c₁
        rw [hside] at hmoved
        refine ⟨hn, ?_, ?_, ?_⟩
        · show (c₁.processFinishPacket now (p.detected d)).counter.client.seq = _
          rw [hmoved]
          exact congrArg (· + 1) hseq
        · show (c₁.processFinishPacket now (p.detected d)).counter.server.seq = _
          rw [hmoved]
          exact hserver'
        · exact ((TCPConnectionImpl.processFinishPacket_streams now (p.detected d) c₁).1
            .client).trans happended
  refine (hdeliver.and (Delivery.deliver_frame now (p.detected d) c 0)).mono ?_ fun _ h => h.1
  rintro t ⟨⟨hn, hclient, hserver', happended⟩, hframe⟩
  refine ⟨hn, hframe.connectionDetail.trans h.detail, hclient, hserver', happended, ?_⟩
  rw [hframe.packetsBuffer]
  exact h.buffered

/-- The accept test on the third packet. -/
theorem isCanProcessPacket_third (hopening : Opening d isn syn synAck p)
    (h : Quiet d .synReceived k H c) (hclient : k.client.seq = isn.client + 1)
    (hclientAck : k.client.ack = syn.ackNum) (hserver : k.server.seq = isn.server) :
    c.isCanProcessPacket (p.detected d) = .ok (decide (Passes isn syn p)) := by
  have hcan := PacketReceiverImpl.isCanProcessPacket_detected hopening.third_sent h.detail
  obtain ⟨-, -, hrst⟩ := hopening.third_flags
  have hseq : (c.counter.get .client).seq = p.sequence := by
    rw [h.counter, hopening.third_sequence]
    exact hclient
  have hack : (p.ackNum == (c.counter.get .client).ack) = (syn.ackNum == isn.server + 1) := by
    rw [h.counter, hopening.third_ackNum]
    exact (BEq.comm).trans (congrArg (· == isn.server + 1) hclientAck)
  have hother : (p.ackNum == (c.counter.get Side.client.other).seq) = false := by
    rw [h.counter, hopening.third_ackNum]
    have hne : isn.server + 1 ≠ k.server.seq := by omega
    exact beq_false_of_ne hne
  rw [hcan, hack, hother, hseq, hrst]
  refine congrArg Except.ok (Bool.eq_iff_iff.mpr ?_)
  rw [decide_eq_true_iff]
  simp [Passes]

/-- After the third packet nothing buffered can be processed. -/
theorem stalled_drain (now : Date) (d : ConnectionDetail) (isn : BySide Nat) (p : JpcapPacket) :
    Delivery.DeliveryInvariant now
      (Taken d isn p fun x q => x = .server ∧ Waiting.Waits d x q ∧ q.sequence ≠ isn.server + 1)
      (Taken d isn p fun _ _ => True) where
  thrown := fun _ h => ⟨h.announced, h.detail, h.client, h.server, h.appended, fun _ _ _ => trivial⟩
  drop := fun {c n x q rest} h hb _ => ⟨h.announced, h.detail, h.client, h.server, h.appended,
    BySide.forall_set (P := fun x (l : List TCPPacket) =>
      ∀ q ∈ l, x = .server ∧ Waiting.Waits d x q ∧ q.sequence ≠ isn.server + 1)
      ((TCPConnectionImpl.buffer_cons h.buffered hb).2) (h.buffered _)⟩
  take := by
    intro c n x q rest h hb hcan
    obtain ⟨rfl, hwaits, hnext⟩ := (TCPConnectionImpl.buffer_cons h.buffered hb).1
    have hdirection := hwaits.direction
    rw [← h.detail] at hdirection
    have hseq := TCPConnectionImpl.sequence_of_isCanProcessPacket hdirection hcan
    rw [hwaits.side] at hseq
    exact absurd (hseq.symm.trans h.server) hnext
  updated := fun h => ⟨h.announced, h.detail, h.client, h.server, h.appended, h.buffered⟩

/-- A third packet that passes the accept test. -/
theorem process_third (now : Date) (hopening : Opening d isn syn synAck p) (h : Quiet d .synReceived k H c)
    (hserver : k.server.seq = isn.server)
    (hcan : c.isCanProcessPacket (p.detected d) = .ok true)
    (hH : p.fin = true → ∀ x q, H x q →
      x = .server ∧ Waiting.Waits d x q ∧ q.sequence ≠ isn.server + 1) :
    (PacketReceiverImpl.process now (p.detected d) c).Sat (Taken d isn p fun _ _ => True)
      (Taken d isn p fun _ _ => True) := by
  have hdeliver := deliver_third now hopening h hserver
  have hupdated : ∀ {H' : Side → TCPPacket → Prop} {t : Delivery}, Taken d isn p H' t →
      Taken d isn p (fun _ _ => True) (t.update (TCPConnectionImpl.updated now)) :=
    fun ht => ⟨ht.announced, ht.detail, ht.client, ht.server, ht.appended, fun _ _ _ => trivial⟩
  unfold PacketReceiverImpl.process Delivery.handlePacket
  rw [hcan]
  refine Outcome.Sat.andThen (hdeliver.mono (fun _ ht => ht) fun _ => False.elim) fun t ht => ?_
  refine Outcome.Sat.andThen (Q := Taken d isn p fun _ _ => True) ?_ fun t' ht' => hupdated ht'
  cases hfin : p.fin with
  | false =>
    rw [if_neg (show (p.detected d).fin ≠ true by simp [hfin])]
    exact ⟨ht.announced, ht.detail, ht.client, ht.server, ht.appended, fun _ _ _ => trivial⟩
  | true =>
    rw [if_pos (show (p.detected d).fin = true from hfin)]
    have hstalled := (stalled_drain now d isn p).drain_sat
      t.connection.packetsBuffer.getPacketsCountInBuffer (t := t)
      ⟨ht.announced, ht.detail, ht.client, ht.server, ht.appended,
        fun x q hq => hH hfin x q (ht.buffered x q hq)⟩
    exact hstalled.mono (fun t' ht' => (stalled_drain now d isn p).thrown t' ht') fun _ ht' => ht'

end Third

/-! ## The receiver after the third packet -/

section Receiver

variable {d : ConnectionDetail} {ref : Ref} {r : PacketReceiverImpl} {c : TCPConnectionImpl}

/-- An old packet is not looked at. -/
theorem step_old (h : Live d ref r c) {x : Side} {p : JpcapPacket} (hx : SentBy d x p)
    (hsyn : p.syn = false) (hold : p.sequence < (c.counter.get x).seq) (now : Date) :
    r.step (.pick now p) = r := by
  have hsyn1 : (TCPPacketImpl p).isHandsShake1Packet = false := by
    simp [TCPPacket.isHandsShake1Packet, TCPPacketImpl, hsyn]
  have hold' : c.isOldPacket (p.detected d) = true := by
    unfold TCPConnectionImpl.isOldPacket
    rw [hx.side]
    exact decide_eq_true hold
  have hignored : PacketReceiverImpl.isIgnored (p.detected c.connectionDetail) c = true := by
    rw [h.detail, PacketReceiverImpl.isIgnored, hold']
    rfl
  show (r.pick now (TCPPacketImpl p)).state = r
  rw [PacketReceiverImpl.picked_iff.mp (.ignored hsyn1 (h.get_active hx) h.deref hignored)]
  rfl

/-- A `pick` that hands its packet to `process`. -/
theorem step_processed (h : Live d ref r c) {x : Side} {p : JpcapPacket} (hx : SentBy d x p)
    (hsyn : p.syn = false) (hnew : (c.counter.get x).seq ≤ p.sequence)
    (hopen : c.isFinished = false) (now : Date) :
    (r.step (.pick now p)).deref ref =
        some (PacketReceiverImpl.process now (p.detected d) c).state.connection ∧
      (r.step (.pick now p)).establishedConnections = r.establishedConnections ++
        List.replicate (PacketReceiverImpl.process now (p.detected d) c).state.announced ref := by
  have hstep : r.step (.pick now p) = (r.pick now (TCPPacketImpl p)).state := rfl
  rw [hstep, h.pick_eq hx hsyn hnew hopen]
  cases PacketReceiverImpl.process now (p.detected d) c with
  | returned t =>
    rw [Outcome.map_returned, Outcome.andThen_returned, Outcome.state_returned,
      PacketReceiverImpl.deref_removeIfFinished,
      PacketReceiverImpl.establishedConnections_removeIfFinished]
    exact ⟨PacketReceiverImpl.deref_store_self h.deref, rfl⟩
  | thrown e t => exact ⟨PacketReceiverImpl.deref_store_self h.deref, rfl⟩

end Receiver

/-! ## Runs -/

section Runs

variable {d : ConnectionDetail} {isn : BySide Nat} {syn synAck third : JpcapPacket} {ref : Ref}
  {r : PacketReceiverImpl} {k : SequenceCounter}

theorem between_syn (hopening : Opening d isn syn synAck third)
    (hwf : PacketReceiverImpl.WellFormed r) (hfilter : r.filter.isAcceptable d = true)
    (now : Date) : Between d r.heap.length .synSent
      (PacketReceiverImpl.synConnection now (TCPPacketImpl syn)).counter
      (r.step (.pick now syn)) := by
  obtain ⟨r', hpick, hlive⟩ := PacketReceiverImpl.live_opened hwf hopening.syn_sent
    hopening.syn_flags.1 hopening.syn_flags.2 hfilter now
  show Between _ _ _ _ (r.pick now (TCPPacketImpl syn)).state
  rw [hpick]
  refine ⟨_, hlive, hlive.detail, rfl, rfl, fun x => ?_, fun x q hq => ?_⟩
  · cases x <;> exact blank_create now
  · cases x <;> exact absurd hq (by simp [PacketReceiverImpl.synConnection,
      TCPConnectionImpl.processSyncPacket, TCPConnectionImpl.record, TCPConnectionImpl.create])

theorem between_synAck (hopening : Opening d isn syn synAck third)
    (h : Between d ref .synSent k r) (hclient : k.client.seq = isn.client)
    (hserver : k.server.seq = 0) (now : Date) :
    Between d ref .synReceived ((k.update .server (synAck.detected d)).sequenceAddOne .client)
      (r.step (.pick now synAck)) := by
  obtain ⟨c, hlive, hquiet⟩ := h
  obtain ⟨r', hpick, hlive'⟩ := hlive.pick_answered hopening.synAck_sent hopening.synAck_flags.1
    hopening.synAck_flags.2 hquiet.state hquiet.isFinished
    (by rw [hquiet.counter, hserver]; exact Nat.zero_le _)
    (by rw [hquiet.counter, hclient]; exact hopening.synAck_ackNum) now
  show Between _ _ _ _ (r.pick now (TCPPacketImpl synAck)).state
  rw [hpick]
  exact ⟨_, hlive', hlive'.detail, rfl, by rw [← hquiet.counter]; rfl, hquiet.blank,
    hquiet.buffered⟩

/-- The numbers that the SYN leaves. -/
theorem synConnection_client (hopening : Opening d isn syn synAck third) (now : Date) :
    (PacketReceiverImpl.synConnection now (TCPPacketImpl syn)).counter.client.seq =
      isn.client + syn.data.length := by
  show (updateCounter (TCPPacketImpl syn)).1.seq = _
  rw [updateCounter_seq]
  exact congrArg (· + syn.data.length) hopening.syn_sequence

/-- The connection that the third packet finds after a SYN without
payload. -/
theorem between_third (hopening : Opening d isn syn synAck third) (hbare : syn.data = [])
    (hwf : PacketReceiverImpl.WellFormed r) (hfilter : r.filter.isAcceptable d = true)
    {calls₁ calls₂ : List Call} (now now' : Date)
    (hcalls₁ : Run.Along PacketReceiverImpl.step (Undisturbed d) (r.step (.pick now syn)) calls₁)
    (hcalls₂ : Run.Along PacketReceiverImpl.step (Undisturbed d)
      ((Run.after PacketReceiverImpl.step (r.step (.pick now syn)) calls₁).step
        (.pick now' synAck)) calls₂) :
    ∃ k : SequenceCounter, k.client.seq = isn.client + 1 ∧ k.client.ack = syn.ackNum ∧
      k.server.seq = isn.server + synAck.data.length ∧ Between d r.heap.length .synReceived k
        (Run.after PacketReceiverImpl.step ((Run.after PacketReceiverImpl.step
          (r.step (.pick now syn)) calls₁).step (.pick now' synAck)) calls₂) := by
  have hclient := synConnection_client hopening now
  rw [hbare, List.length_nil, Nat.add_zero] at hclient
  have hserver : (updateCounter (synAck.detected d)).1.seq =
      isn.server + synAck.data.length := by
    rw [updateCounter_seq]
    exact congrArg (· + synAck.data.length) hopening.synAck_sequence
  have hbetween := (between_syn hopening hwf hfilter now).run hcalls₁
  exact ⟨_, congrArg (· + 1) hclient, rfl, hserver,
    (between_synAck hopening hbetween hclient rfl now').run hcalls₂⟩

/-- After a SYN with payload the SYN/ACK acknowledges too little, and the
connection is still in SynSent when the third packet comes. -/
theorem between_unanswered (hopening : Opening d isn syn synAck third) (hdata : syn.data ≠ [])
    (hwf : PacketReceiverImpl.WellFormed r) (hfilter : r.filter.isAcceptable d = true)
    {calls₁ calls₂ : List Call} (now now' : Date)
    (hcalls₁ : Run.Along PacketReceiverImpl.step (Undisturbed d) (r.step (.pick now syn)) calls₁)
    (hcalls₂ : Run.Along PacketReceiverImpl.step (Undisturbed d)
      ((Run.after PacketReceiverImpl.step (r.step (.pick now syn)) calls₁).step
        (.pick now' synAck)) calls₂) :
    ∃ k : SequenceCounter, Between d r.heap.length .synSent k
      (Run.after PacketReceiverImpl.step ((Run.after PacketReceiverImpl.step
        (r.step (.pick now syn)) calls₁).step (.pick now' synAck)) calls₂) := by
  obtain ⟨c, hlive, hquiet⟩ := (between_syn hopening hwf hfilter now).run hcalls₁
  obtain ⟨hsyn, hack⟩ := hopening.synAck_flags
  have hsynAck : (TCPPacketImpl synAck).isHandsShake2Packet = true := by
    simp [TCPPacket.isHandsShake2Packet, TCPPacketImpl, hsyn, hack]
  have hundisturbed : Undisturbed d (Run.after PacketReceiverImpl.step
      (r.step (.pick now syn)) calls₁) (.pick now' synAck) := by
    refine Or.inr ⟨hopening.synAck_sent, ?_, fun ref' c' hactive hc' => ?_⟩
    · simp [TCPPacket.isHandsShake1Packet, TCPPacketImpl, hack]
    · rw [if_pos hsynAck]
      obtain rfl := Option.some.inj (hlive.active.symm.trans hactive)
      obtain rfl := Option.some.inj (hlive.deref.symm.trans hc')
      intro _ hnum
      rw [hquiet.counter, synConnection_client hopening now, hopening.synAck_ackNum] at hnum
      have hlength := List.length_pos_iff.mpr hdata
      omega
  exact ⟨_, (Between.step ⟨c, hlive, hquiet⟩ hundisturbed).run hcalls₂⟩

section Third

variable {c : TCPConnectionImpl} (hopening : Opening d isn syn synAck third)
  (hquiet : Quiet d .synReceived k (fun x _ => x = .server) c)
  (hclient : k.client.seq = isn.client + 1) (hack : k.client.ack = syn.ackNum)
  (hserver : k.server.seq = isn.server)

include hopening hquiet hclient hack hserver

theorem completed_third (hlive : Live d ref r c)
    (hwaits : ∀ x, ∀ q ∈ c.packetsBuffer.get x, Waiting.Waits d x q)
    (hpasses : Passes isn syn third)
    (hstalled : third.fin = true → ∀ q ∈ c.packetsBuffer.server, q.sequence ≠ isn.server + 1)
    (now : Date) : Completed isn third ref r (r.step (.pick now third)) := by
  have hcan := isCanProcessPacket_third hopening hquiet hclient hack hserver
  rw [decide_eq_true hpasses] at hcan
  have hbuffered : Quiet d .synReceived k (fun x q => x = .server ∧ Waiting.Waits d x q ∧
      (third.fin = true → q.sequence ≠ isn.server + 1)) c := by
    refine hquiet.mono fun x q hq => ?_
    obtain rfl := hquiet.buffered x q hq
    exact ⟨rfl, hwaits _ q hq, fun hfin => hstalled hfin q hq⟩
  have htaken := (process_third now hopening hbuffered hserver hcan
    fun hfin x q hq => ⟨hq.1, hq.2.1, hq.2.2 hfin⟩).state
  obtain ⟨hderef, hannounced⟩ := step_processed hlive hopening.third_sent hopening.third_flags.1
    (by rw [hquiet.counter, hopening.third_sequence]; exact hclient.le) hquiet.isFinished now
  refine ⟨by rw [hannounced, htaken.announced]; rfl, c, _, hlive.deref, hderef, htaken.client,
    htaken.server, ?_⟩
  rw [htaken.appended, show c.inputStream.client.appended = [] from
    (hquiet.blank .client).appended, List.nil_append]

/-- A third packet that does not pass waits. -/
theorem harmless_third (hpasses : ¬ Passes isn syn third) : Harmless c (third.detected d) := by
  have hcan := isCanProcessPacket_third hopening hquiet hclient hack hserver
  rw [decide_eq_false hpasses] at hcan
  exact fun hcan' => absurd (hcan.symm.trans hcan') (by simp)

end Third

section NotCompleted

variable {c : TCPConnectionImpl} {s : TCPConnectionState}
  (hopening : Opening d isn syn synAck third) (hlive : Live d ref r c)
  (hquiet : Quiet d s k (fun x _ => x = .server) c)

/-- In SynSent no packet of the connection announces it. -/
theorem process_synSent (now : Date) (p : TCPPacket) (hstate : c.state = some .synSent) :
    (PacketReceiverImpl.process now p c).state.announced = 0 := by
  let Unsent : Delivery → Prop := fun t => t.announced = 0 ∧ t.connection.state = some .synSent
  have hdeliver : ∀ p t, Unsent t → (Delivery.deliver now p t).Sat Unsent Unsent := by
    intro p t ht
    refine Delivery.deliver_sat (R := Unsent) (A := Unsent) (D := Unsent) ?_ ?_ ?_ ?_ ?_
    · split <;> exact ht
    · intro t ht
      unfold Delivery.acknowledge Delivery.apply TCPConnectionImpl.processAckPacket
      rw [ht.2]
      split <;> exact ht
    · intro t ht _
      unfold Delivery.apply
      rw [Outcome.sat_map]
      exact (TCPConnectionImpl.processDataPacket_sat now p t.connection).mono
        (fun c hc => ⟨ht.1, hc.state.trans ht.2⟩) fun c hc => ⟨ht.1, hc.state.trans ht.2⟩
    · exact fun _ ht _ => ht
    · intro t ht
      split
      · exact ⟨ht.1, congrArg
          TCPConnectionImpl.updateConnectionStateAfterReceivedFinishPacket ht.2⟩
      · exact ht
  have hinvariant : Delivery.DeliveryInvariant now Unsent Unsent :=
    { thrown := fun _ ht => ht
      drop := fun ht _ _ => ht
      take := fun ht _ _ => hdeliver _ _ ht
      updated := fun ht => ht }
  exact (PacketReceiverImpl.process_sat hinvariant ⟨rfl, hstate⟩
    (fun _ => hdeliver _ _ ⟨rfl, hstate⟩) fun _ => ⟨rfl, hstate⟩).state.1

include hopening hlive hquiet

/-- A third packet that leaves the connection in SynReceived does not
complete the handshake, whatever its numbers are. -/
theorem not_completed_of_harmless (hs : s = .synReceived)
    (hnew : k.client.seq = isn.client + 1) (hp : Harmless c (third.detected d))
    (hharmless : ∀ q ∈ c.packetsBuffer.server, Harmless c q) (now : Date) :
    ¬ Completed isn third ref r (r.step (.pick now third)) := by
  subst hs
  intro hcompleted
  have hannounced := hcompleted.announced
  rw [(step_processed hlive hopening.third_sent hopening.third_flags.1
    (by rw [hquiet.counter, hopening.third_sequence]; exact hnew.le) hquiet.isFinished now).2]
    at hannounced
  have hH : ∀ x, ∀ q ∈ c.packetsBuffer.get x, Harmless c q := by
    intro x q hq
    obtain rfl := hquiet.buffered x q hq
    exact hharmless q hq
  have hprocess := (Quiet.process now (hquiet.mono hH) (fun _ _ hq => hq) hp).state
  have hvisits := TCPConnectionState.moves_visits
    (PacketReceiverImpl.process_tracked now (third.detected d) c).state
  rw [hquiet.state, hprocess.state] at hvisits
  have hnone : (PacketReceiverImpl.process now (third.detected d) c).state.announced = 0 := by
    simpa [TCPConnectionState.hasBeenEstablished] using hvisits
  rw [hnone] at hannounced
  simp at hannounced

/-- A connection in SynSent ignores the third packet as old, or handles it
like any other. -/
theorem not_completed_synSent (hs : s = .synSent) (now : Date) :
    ¬ Completed isn third ref r (r.step (.pick now third)) := by
  subst hs
  intro hcompleted
  have hannounced := hcompleted.announced
  rcases Nat.lt_or_ge third.sequence (c.counter.get .client).seq with hold | hnew
  · rw [step_old hlive hopening.third_sent hopening.third_flags.1 hold] at hannounced
    simp at hannounced
  · rw [(step_processed hlive hopening.third_sent hopening.third_flags.1 hnew
      hquiet.isFinished now).2, process_synSent now _ hquiet.state] at hannounced
    simp at hannounced

end NotCompleted

/-- After SYN and SYN/ACK, where nothing of the server disturbs the
handshake: a third packet that passes completes it if neither SYN carried
payload, unless its FIN drains what the server sent behind its SYN; one
that does not pass, and any after a SYN with payload, does not.  And where
no packet misleads, only packets of the client end a handshake. -/
theorem completed_of_passes (filter : ConnectionFilter) :
    (∀ {d : ConnectionDetail} {isn : BySide Nat} {syn synAck third : JpcapPacket}
      (calls calls₁ calls₂ : List Call) (now now' now'' : Date),
      Opening d isn syn synAck third →
      let r := Run.after PacketReceiverImpl.step (PacketReceiverImpl.create filter) calls
      r.filter.isAcceptable d = true →
      let r₁ := r.step (.pick now syn)
      Run.Along PacketReceiverImpl.step (Undisturbed d) r₁ calls₁ →
      let r₂ := (Run.after PacketReceiverImpl.step r₁ calls₁).step (.pick now' synAck)
      Run.Along PacketReceiverImpl.step (Undisturbed d) r₂ calls₂ →
      let r₃ := Run.after PacketReceiverImpl.step r₂ calls₂
      ∃ ref c, r₃.activeConnections.get d = some ref ∧ r₃.deref ref = some c ∧
        (Bare syn synAck ∧ Passes isn syn third →
          (third.fin = true → ∀ q ∈ c.packetsBuffer.server, q.sequence ≠ isn.server + 1) →
          Completed isn third ref r₃ (r₃.step (.pick now'' third))) ∧
        (¬ (Bare syn synAck ∧ Passes isn syn third) →
          (∀ q ∈ c.packetsBuffer.server, Harmless c q) →
          ¬ Completed isn third ref r₃ (r₃.step (.pick now'' third)))) ∧
    ∀ calls, Run.Along PacketReceiverImpl.step Unmisled (PacketReceiverImpl.create filter) calls →
      Run.Along PacketReceiverImpl.step AnsweredByClient (PacketReceiverImpl.create filter)
        calls := by
  refine ⟨?_, fun _ => Answering.answeredByClient_of_unmisled⟩
  intro d isn syn synAck third calls calls₁ calls₂ now now' now'' hopening r hfilter r₁ hcalls₁
    r₂ hcalls₂ r₃
  have hsound : ∀ {r calls}, Waiting.Sound r →
      Waiting.Sound (Run.after PacketReceiverImpl.step r calls) := fun {_ calls} h =>
    Run.invariant_always (I := Waiting.Sound) (fun _ call h => Waiting.sound_step h call) calls h
  have hsound₀ : Waiting.Sound r := Waiting.sound_of_run filter calls
  have hsound₃ : Waiting.Sound r₃ :=
    hsound (Waiting.sound_step (hsound (Waiting.sound_step hsound₀ _)) _)
  by_cases hsyn : syn.data = []
  · obtain ⟨k, hclient, hack, hserver, c, hlive, hquiet⟩ :=
      between_third hopening hsyn hsound₀.wellFormed hfilter now now' hcalls₁ hcalls₂
    have hwaits := (hsound₃.tables.active hlive.active hlive.deref).waits
    rw [hlive.detail] at hwaits
    refine ⟨_, c, hlive.active, hlive.deref, ?_, ?_⟩
    · rintro ⟨⟨-, hsynAck⟩, hpasses⟩ hstalled
      rw [hsynAck, List.length_nil, Nat.add_zero] at hserver
      exact completed_third hopening hquiet hclient hack hserver hlive hwaits hpasses hstalled now''
    · intro hnot hharmless
      refine not_completed_of_harmless hopening hlive hquiet rfl hclient ?_ hharmless now''
      by_cases hsynAck : synAck.data = []
      · rw [hsynAck, List.length_nil, Nat.add_zero] at hserver
        exact harmless_third hopening hquiet hclient hack hserver
          fun hpasses => hnot ⟨⟨hsyn, hsynAck⟩, hpasses⟩
      · -- the payload of the SYN/ACK has moved the counter that the check reads
        have hlength := List.length_pos_iff.mpr hsynAck
        have hnum : third.ackNum ≠ c.counter.server.seq + 1 := by
          rw [hquiet.counter, hserver, hopening.third_ackNum]
          omega
        exact fun _ => ⟨hopening.third_flags.2.2, Or.inl
          ⟨hopening.third_flags.2.1, hquiet.state, hnum⟩⟩
  · obtain ⟨k, c, hlive, hquiet⟩ :=
      between_unanswered hopening hsyn hsound₀.wellFormed hfilter now now' hcalls₁ hcalls₂
    exact ⟨_, c, hlive.active, hlive.deref, fun h => absurd h.1.1 hsyn,
      fun _ _ => not_completed_synSent hopening hlive hquiet rfl now''⟩

/-- Before a third packet without payload the server already sends data. -/
theorem completed_of_passes_bare :
    let client := InetAddress.inet4 10 0 0 1
    let server := InetAddress.inet4 10 0 0 2
    let syn : JpcapPacket :=
      ⟨client, server, 50000, 80, 100, 0, false, false, true, false, [], 0⟩
    let synAck : JpcapPacket :=
      ⟨server, client, 80, 50000, 500, 101, true, false, true, false, [], 0⟩
    let early : JpcapPacket :=
      ⟨server, client, 80, 50000, 501, 101, true, false, false, false, [1], 0⟩
    let third : JpcapPacket :=
      ⟨client, server, 50000, 80, 101, 501, true, false, false, false, [], 0⟩
    let calls : List Call := [.pick 0 syn, .pick 1 synAck, .pick 2 early]
    let r := Run.after PacketReceiverImpl.step (PacketReceiverImpl.create {}) calls
    (∃ ref, Completed ⟨100, 500⟩ third ref r (r.step (.pick 3 third))) ∧
      Run.Along PacketReceiverImpl.step AnsweredByClient (PacketReceiverImpl.create {})
        [.pick 0 syn, .pick 1 synAck, .pick 3 third] := by
  intro client server syn synAck early third calls r
  have hopening : Opening ⟨client, server, 50000, 80⟩ ⟨100, 500⟩ syn synAck third := by
    constructor <;> decide
  let answered : PacketReceiverImpl :=
    Run.after PacketReceiverImpl.step (PacketReceiverImpl.create {}) [.pick 0 syn, .pick 1 synAck]
  have hactive : answered.activeConnections.get ⟨client, server, 50000, 80⟩ = some 0 := by decide
  have hearly : Undisturbed ⟨client, server, 50000, 80⟩ answered (.pick 2 early) := by
    have hharmless : ∀ c ∈ answered.deref 0,
        Harmless c (early.detected ⟨client, server, 50000, 80⟩) ∧
          ∀ q ∈ c.packetsBuffer.server, Harmless c q := by decide
    refine Or.inr ⟨by decide, rfl, fun ref c hactive' hc => ?_⟩
    obtain rfl := Option.some.inj (hactive.symm.trans hactive')
    exact hharmless c hc
  constructor
  · obtain ⟨ref, c, -, -, hcompleted, -⟩ := (completed_of_passes {}).1 [] [] [.pick 2 early] 0 1 3
      hopening rfl trivial ⟨hearly, trivial⟩
    exact ⟨ref, hcompleted ⟨⟨rfl, rfl⟩, Or.inl ⟨rfl, rfl⟩⟩ nofun⟩
  · refine (completed_of_passes {}).2 _ ⟨?_, ?_, ?_, trivial⟩
    · exact fun ref c h => absurd h.notSyn (by decide)
    · exact fun ref c h => absurd h.notSynAck (by decide)
    · -- nothing is buffered, and the third packet comes from the client
      intro ref c h _ q hq hmisleads
      have hempty : ∀ c ∈ answered.deref 0, c.packetsBuffer.client = [] ∧
          c.packetsBuffer.server = [] ∧
          (third.detected c.connectionDetail).side = .client := by decide
      obtain rfl := Option.some.inj (hactive.symm.trans h.active)
      obtain ⟨hclient, hserver, hside⟩ := hempty c h.deref
      rcases hq.mem with rfl | ⟨x, hx⟩
      · exact absurd (hside.symm.trans hmisleads.1) nofun
      · cases x with
        | client => exact absurd hx (by simp [hclient])
        | server => exact absurd hx (by simp [hserver])

/-- A third packet with payload waits in the buffer, although nothing was
lost; and a packet of the server that acknowledges one beyond its own
number ends the handshake. -/
theorem payload_waits :
    let client := InetAddress.inet4 10 0 0 1
    let server := InetAddress.inet4 10 0 0 2
    let syn : JpcapPacket :=
      ⟨client, server, 50000, 80, 100, 0, false, false, true, false, [], 0⟩
    let synAck : JpcapPacket :=
      ⟨server, client, 80, 50000, 100, 101, true, false, true, false, [], 0⟩
    let third : JpcapPacket :=
      ⟨client, server, 50000, 80, 101, 101, true, false, false, false, [1, 2], 0⟩
    let keepAlive : JpcapPacket :=
      ⟨server, client, 80, 50000, 100, 101, true, false, false, false, [], 0⟩
    let r := Run.after PacketReceiverImpl.step (PacketReceiverImpl.create {})
      [.pick 0 syn, .pick 1 synAck]
    Opening ⟨client, server, 50000, 80⟩ ⟨100, 100⟩ syn synAck third ∧
      (∀ ref, ¬ Completed ⟨100, 100⟩ third ref r (r.step (.pick 2 third))) ∧
      ¬ AnsweredByClient r (.pick 2 keepAlive) := by
  intro client server syn synAck third keepAlive r
  refine ⟨by constructor <;> decide, fun ref h => ?_, by decide⟩
  have hqueue : (r.step (.pick 2 third)).establishedConnections = [] := by decide
  have hannounced := h.announced
  rw [hqueue] at hannounced
  exact absurd hannounced.symm (by simp)

end Runs

end Handshake

end ConnectionSniffer
