import ConnectionSniffer.Io.ReadLoop
import ConnectionSniffer.Library.Dialogue
import ConnectionSniffer.Receiver.InOrder

/-!
# Conversations in turns

A whole connection captured in order: a handshake, a conversation in which
the two sides take turns, and a FIN of each side, with pure ACKs anywhere.
Nobody reads before the end.

A `Session` is what the packets captured so far say.  `Conversing` relates
it to the connection: each stream stands for the message queue that the
`Dialogue` of what has been said gives to its side.  So a FIN of each side
leaves each stream with the turns of its side, and the read loop gives them
back.
-/

namespace ConnectionSniffer

namespace DynamicByteArrayInputStream

@[simp] theorem pos_finish (s : DynamicByteArrayInputStream) (markFinish : Bool)
    (endTime : Date) : (s.finish markFinish endTime).2.pos = s.pos := by
  unfold finish addMarkPos
  split_ifs <;> rfl

/-- In a stream that nobody has read from, the cursor stands on no end
mark. -/
theorem Represents.mark_ne_pos {s : DynamicByteArrayInputStream} {q : MessageQueue UInt8}
    (h : Represents s q) (hpos : s.pos = 0) :
    s.newInputStreamMarks.head?.map StreamMark.endPos ≠ some s.pos := by
  rw [← List.head?_map, h.marks]
  cases hq : q.messages with
  | nil => simp [endPositions]
  | cons m ms =>
    have hfirst := h.first m (by simp [hq])
    simp only [endPositions, List.head?_cons, ne_eq, Option.some.injEq]
    omega

end DynamicByteArrayInputStream

namespace TCPConnectionImpl

open DynamicByteArrayInputStream

variable {p : TCPPacket} {c : TCPConnectionImpl} {q : MessageQueue UInt8}

theorem represents_ownStream (h : Represents (c.inputStream.get p.side) q) :
    Represents (c.ownStream p) q := by
  unfold ownStream
  split
  · exact h.markStreamStartTime _
  · exact h

/-- The message of the other side has ended, provided that the other side
acknowledged the packet's first byte last if it has begun a message. -/
theorem represents_otherStream (h : Represents (c.inputStream.get p.side.other) q)
    (hack : q.begun = true → (c.counter.get p.side.other).ack = p.sequence) (now : Date) :
    Represents (c.otherStream now p) q.endMessage := by
  unfold otherStream
  dsimp only
  split
  · split
    · exact (h.finish_true now).markStreamStartTime _
    · exact h.finish_true now
  · rename_i hne
    rw [MessageQueue.endMessage_of_not_begun (by simpa using mt hack hne)]
    exact h

@[simp] theorem pos_ownStream (p : TCPPacket) (c : TCPConnectionImpl) :
    (c.ownStream p).pos = (c.inputStream.get p.side).pos := by
  unfold ownStream
  split_ifs <;> rfl

@[simp] theorem pos_otherStream (now : Date) (p : TCPPacket) (c : TCPConnectionImpl) :
    (c.otherStream now p).pos = (c.inputStream.get p.side.other).pos := by
  unfold otherStream
  dsimp only
  split_ifs <;> simp [markStreamStartTime]

end TCPConnectionImpl

namespace PacketReceiverImpl

open DynamicByteArrayInputStream Dialogue

/-! ## Sessions -/

/-- What the packets captured so far say. -/
structure Session where
  /-- The next sequence number of each side, counting its SYN and FIN. -/
  next : BySide Nat
  /-- Which sides have sent their FIN. -/
  closed : BySide Bool := ⟨false, false⟩
  /-- The payloads so far, each with the side that sent it. -/
  said : List (Side × List UInt8) := []

namespace Session

/-- After the handshake. -/
def opened (isn : BySide Nat) : Session where
  next := ⟨isn.client + 1, isn.server + 1⟩

/-- After one more packet of `x`. -/
def after (t : Session) (x : Side) (p : JpcapPacket) : Session where
  next := t.next.set x (t.next.get x + p.data.length + if p.fin then 1 else 0)
  closed := if p.fin then t.closed.set x true else t.closed
  said := if p.data = [] then t.said else t.said ++ [(x, p.data)]

/-- The three kinds of packets that `x` may send next: payload while nobody
has closed, a pure ACK, and the FIN of `x`. -/
inductive Says (t : Session) (x : Side) (p : JpcapPacket) : Prop
  | data (hdata : p.data ≠ []) (hfin : p.fin = false) (hackNum : p.ackNum = t.next.get x.other)
      (hopen : ∀ y, t.closed.get y = false)
  | ack (hdata : p.data = []) (hfin : p.fin = false) (hack : p.ack = true)
  | fin (hdata : p.data = []) (hfin : p.fin = true) (hack : p.ack = true)
      (hackNum : p.ackNum = t.next.get x.other) (hopen : t.closed.get x = false)

/-- The packet is one that `x` may send next, with the next number of `x`. -/
structure Admits (t : Session) (x : Side) (p : JpcapPacket) : Prop where
  syn : p.syn = false
  rst : p.rst = false
  sequence : p.sequence = t.next.get x
  kind : t.Says x p

/-- What a call adds to the session of `d`. -/
def hear (d : ConnectionDetail) (t : Session) : Call → Session
  | .pick _ p => if p.connectionDetail == d then t.after (p.detected d).side p else t
  | _ => t

/-- If the call picks a packet of the pair of `d`, it is one that its sender
may send next. -/
def Allows (d : ConnectionDetail) (t : Session) : Call → Prop
  | .pick _ p => (p.connectionDetail == d) = true → ∃ x, SentBy d x p ∧ t.Admits x p
  | _ => True

/-- The queue that the stream of `x` stands for. -/
def queue (t : Session) (x : Side) : MessageQueue UInt8 :=
  if t.closed.get x then ((heard t.said).get x).finish else (heard t.said).get x

theorem finished_queue (t : Session) (x : Side) : (t.queue x).finished = t.closed.get x := by
  unfold queue
  cases t.closed.get x with
  | true => rfl
  | false => exact finished_heard ..

theorem queue_of_open {t : Session} {x : Side} (h : t.closed.get x = false) :
    t.queue x = (heard t.said).get x := by
  rw [queue, h]
  rfl

/-- A pure ACK says nothing. -/
theorem after_of_idle (t : Session) (x : Side) {p : JpcapPacket} (hdata : p.data = [])
    (hfin : p.fin = false) : t.after x p = t := by
  simp [after, hdata, hfin]

theorem hear_of_foreign {d : ConnectionDetail} {call : Call} (t : Session)
    (h : Foreign d call) : t.hear d call = t := by
  cases call with
  | pick now p => exact if_neg (by simp [show (p.connectionDetail == d) = false from h])
  | poll => rfl
  | read ref x => rfl
  | readInto ref x bLength off len => rfl

theorem hear_of_sentBy {d : ConnectionDetail} {x : Side} {p : JpcapPacket} (t : Session)
    (h : SentBy d x p) (now : Date) : t.hear d (.pick now p) = t.after x p := by
  show (if p.connectionDetail == d then _ else _) = _
  rw [if_pos h.pair, h.side]

/-- What has been said stays said. -/
theorem said_prefix (d : ConnectionDetail) (t : Session) (call : Call) :
    t.said <+: (t.hear d call).said := by
  unfold hear after
  split
  · split
    · dsimp only
      split
      · exact List.prefix_rfl
      · exact List.prefix_append ..
    · exact List.prefix_rfl
  · exact List.prefix_rfl

end Session

/-! ## The connection and the session -/

/-- The connection has seen the packets of `t`, and nobody has read from its
streams. -/
structure Conversing (t : Session) (c : TCPConnectionImpl) : Prop where
  established : (∀ x, t.closed.get x = false) → c.state = some .established
  closing : ∀ x, t.closed.get x = true → t.closed.get x.other = false →
    c.state = some .finishWait1 ∨ c.state = some .closeWait
  packetsBuffer : c.packetsBuffer = ⟨[], []⟩
  next : ∀ x, (c.counter.get x).seq = t.next.get x
  /-- Where a side has begun a message, it acknowledged all of the other side
  with its last packet. -/
  acked : (∀ x, t.closed.get x = false) → ∀ x, ((heard t.said).get x).begun = true →
    (c.counter.get x).ack = t.next.get x.other
  represents : ∀ x, Represents (c.inputStream.get x) (t.queue x)
  pos : ∀ x, (c.inputStream.get x).pos = 0

namespace Conversing

variable {t : Session} {c : TCPConnectionImpl} {d : ConnectionDetail} {x : Side} {p : JpcapPacket}

theorem isFinished_stream (h : Conversing t c) (x : Side) :
    (c.inputStream.get x).isFinished = t.closed.get x :=
  (h.represents x).finished.trans (t.finished_queue x)

theorem isFinished (h : Conversing t c) :
    c.isFinished = (t.closed.client && t.closed.server) := by
  unfold TCPConnectionImpl.isFinished
  rw [show c.inputStream.client.isFinished = _ from h.isFinished_stream .client,
    show c.inputStream.server.isFinished = _ from h.isFinished_stream .server]
  rfl

/-- The history and the time stamp do not count. -/
theorem recorded (h : Conversing t c) (met : Option TCPConnectionState) (q : TCPPacket)
    (now : Date) : Conversing t ((c.record met q).updated now) :=
  ⟨h.established, h.closing, h.packetsBuffer, h.next, h.acked, h.represents, h.pos⟩

/-- The stream of a side that has not closed has room for what the side says
next. -/
theorem hasRoom (h : Conversing t c) (hopen : t.closed.get x = false) {data : List UInt8}
    (hroom : ((textOf x t.said ++ data).length : Int) ≤ MAX_BUFFER_SIZE) :
    (c.inputStream.get x).hasRoom data := by
  unfold DynamicByteArrayInputStream.hasRoom
  rw [(h.represents x).unread_eq, Session.queue_of_open hopen,
    show ((heard t.said).get x).messages.flatten ++ ((heard t.said).get x).current = textOf x t.said
      from content_heard ..]
  exact hroom

/-- A data packet. -/
theorem dataTaken (h : Conversing t c) (hx : SentBy d x p) (hsequence : p.sequence = t.next.get x)
    (hdata : p.data ≠ []) (hfin : p.fin = false) (hackNum : p.ackNum = t.next.get x.other)
    (hopen : ∀ y, t.closed.get y = false) (hroom : (c.inputStream.get x).hasRoom p.data)
    (now : Date) : Conversing (t.after x p) (dataTaken now (p.detected d) c) := by
  have hclosed : (t.after x p).closed = t.closed := by simp [Session.after, hfin]
  have hnext : (t.after x p).next = t.next.set x (t.next.get x + p.data.length) := by
    simp [Session.after, hfin]
  have hheard : heard (t.after x p).said = hear (heard t.said) (x, p.data) := by
    simp only [Session.after, hdata, if_false, heard_concat]
  have hqueue : ∀ y, (t.after x p).queue y = (hear (heard t.said) (x, p.data)).get y := by
    intro y
    rw [Session.queue_of_open (by rw [hclosed, hopen]), hheard]
  have hown : Represents (c.ownStream (p.detected d)) ((heard t.said).get x) := by
    have hrep := h.represents x
    rw [Session.queue_of_open (hopen x)] at hrep
    exact TCPConnectionImpl.represents_ownStream (by rw [hx.side]; exact hrep)
  have hother : Represents (c.otherStream now (p.detected d))
      ((heard t.said).get x.other).endMessage := by
    have hrep := h.represents x.other
    rw [Session.queue_of_open (hopen x.other)] at hrep
    refine TCPConnectionImpl.represents_otherStream (by rw [hx.side]; exact hrep) ?_ now
    intro hbegun
    rw [hx.side, h.acked hopen x.other hbegun, Side.other_other]
    exact hsequence.symm
  exact
    { established := fun _ => h.established hopen
      closing := fun y hy => absurd hy (by simp [hclosed, hopen])
      packetsBuffer := h.packetsBuffer
      next := by
        rw [hnext]
        refine BySide.forall_side x ?_ ?_
        · rw [counter_dataTaken hx, updateCounter_seq, BySide.get_set, ← hsequence]
          rfl
        · rw [counter_other_dataTaken hx, BySide.get_other_set]
          exact h.next _
      acked := by
        intro _
        rw [hheard, hnext]
        refine BySide.forall_side x ?_ ?_
        · intro _
          rw [counter_dataTaken hx, updateCounter_ack, BySide.get_other_set]
          exact hackNum
        · rw [get_other_hear, MessageQueue.begun_endMessage]
          exact fun hbegun => absurd hbegun (by simp)
      represents := by
        refine BySide.forall_side x ?_ ?_
        · rw [hqueue, get_hear, inputStream_dataTaken hx]
          exact hown.appendedWith hdata
            ((TCPConnectionImpl.hasRoom_ownStream ..).mpr (by rwa [hx.side]))
            (hown.mark_ne_pos ((TCPConnectionImpl.pos_ownStream ..).trans (h.pos _)))
        · rw [hqueue, get_other_hear, inputStream_other_dataTaken hx]
          exact hother
      pos := by
        refine BySide.forall_side x ?_ ?_
        · rw [inputStream_dataTaken hx]
          rfl
        · rw [inputStream_other_dataTaken hx, TCPConnectionImpl.pos_otherStream]
          exact h.pos _ }

/-- An ACK without payload: the first one after a FIN changes the state, the
others do nothing. -/
theorem acknowledge (h : Conversing t c) (hx : SentBy d x p)
    (hsequence : p.sequence = t.next.get x) (hdata : p.data = [])
    (hover : ¬ (t.closed.get x = true ∧ t.closed.get x.other = true)) :
    ∃ c', c.processAckPacket (p.detected d) = .returned c' ∧ Conversing t c' ∧
      c'.connectionDetail = c.connectionDetail ∧ c.state ≠ some .synReceived ∧
      ((∀ y, t.closed.get y = false) → c'.state = some .established) ∧
      ∀ y, t.closed.get y = true → c'.state = some .closeWait := by
  by_cases hopen : ∀ y, t.closed.get y = false
  · have hstate := h.established hopen
    refine ⟨c, by simp [TCPConnectionImpl.processAckPacket, hstate], h, rfl, by simp [hstate],
      h.established, fun y hy => absurd hy (by simp [hopen])⟩
  · obtain ⟨y, hy⟩ := not_forall.mp hopen
    have hclosed : t.closed.get y = true := by simpa using hy
    have hother : t.closed.get y.other = false := by
      rcases Side.eq_or_eq_other x y with rfl | rfl
      · simpa [hclosed] using hover
      · simpa [hclosed] using hover
    rcases h.closing y hclosed hother with hstate | hstate
    · have hcounter : ∀ z, ((c.counter.update x (p.detected d)).get z).seq = t.next.get z := by
        refine BySide.forall_side x ?_ ?_
        · rw [SequenceCounter.get_update, updateCounter_seq, ← hsequence]
          show p.sequence + p.data.length = p.sequence
          rw [hdata]
          rfl
        · rw [SequenceCounter.get_other_update]
          exact h.next _
      refine ⟨c.processFinishWait1AckPacket (p.detected d),
        by simp [TCPConnectionImpl.processAckPacket, hstate],
        ⟨fun ho => absurd (ho y) hy, fun _ _ _ => Or.inr rfl, h.packetsBuffer, ?_,
          fun ho => absurd (ho y) hy, h.represents, h.pos⟩, rfl, by simp [hstate],
        fun ho => absurd (ho y) hy, fun _ _ => rfl⟩
      rw [← hx.side (d := d)] at hcounter
      exact hcounter
    · exact ⟨c, by simp [TCPConnectionImpl.processAckPacket, hstate], h, rfl, by simp [hstate],
        fun ho => absurd (ho y) hy, fun _ _ => hstate⟩

/-- A FIN, when its ACK has been taken. -/
theorem finish (h : Conversing t c) (hx : SentBy d x p) (hsequence : p.sequence = t.next.get x)
    (hdata : p.data = []) (hfin : p.fin = true) (hopen : t.closed.get x = false)
    (hstate : (∀ y, t.closed.get y = false) → c.state = some .established) (now : Date) :
    Conversing (t.after x p) (c.processFinishPacket now (p.detected d)) := by
  have hclosed : (t.after x p).closed = t.closed.set x true := by simp [Session.after, hfin]
  have hsaid : (t.after x p).said = t.said := by simp [Session.after, hdata]
  have hstreams : (c.processFinishPacket now (p.detected d)).inputStream =
      c.inputStream.set x ((c.inputStream.get x).finish false now).2 := by
    rw [← hx.side (d := d)]
    rfl
  have hnot : ¬ ∀ y, (t.after x p).closed.get y = false := fun ho => by
    have hx' := ho x
    rw [hclosed, BySide.get_set] at hx'
    exact absurd hx' (by simp)
  refine ⟨fun ho => absurd ho hnot, ?_, h.packetsBuffer, ?_, fun ho => absurd ho hnot, ?_, ?_⟩
  · -- the first FIN finds the state established
    intro y hy hother
    rw [hclosed] at hy hother
    have hfirst : ∀ z, t.closed.get z = false := by
      rcases Side.eq_or_eq_other x y with rfl | rfl
      · rw [BySide.get_other_set] at hother
        exact BySide.forall_side y hopen hother
      · rw [Side.other_other, BySide.get_set] at hother
        exact absurd hother (by simp)
    left
    rw [TCPConnectionImpl.processFinishPacket_state, hstate hfirst]
    rfl
  · refine BySide.forall_side x ?_ ?_
    · rw [TCPConnectionImpl.processFinishPacket_counter, hx.side,
        SequenceCounter.get_sequenceAddOne, SequenceCounter.get_update]
      simp [Session.after, hfin, hsequence]
    · rw [TCPConnectionImpl.processFinishPacket_counter, hx.side,
        SequenceCounter.get_other_sequenceAddOne, SequenceCounter.get_other_update, h.next]
      simp [Session.after]
  · rw [hstreams]
    refine BySide.forall_side x ?_ ?_
    · have hrep := (h.represents x).finish_false now
      rw [Session.queue_of_open hopen] at hrep
      rw [BySide.get_set, Session.queue, hclosed, BySide.get_set, hsaid]
      exact hrep
    · rw [BySide.get_other_set, Session.queue, hclosed, BySide.get_other_set, hsaid]
      exact h.represents x.other
  · rw [hstreams]
    refine BySide.forall_set (P := fun _ (s : DynamicByteArrayInputStream) => s.pos = 0) ?_
      (h.pos _)
    rw [DynamicByteArrayInputStream.pos_finish]
    exact h.pos x

end Conversing

/-! ## One call -/

/-- The call reads no stream of the connection behind `ref`. -/
def Quiet (ref : Ref) : Call → Prop
  | .read ref' _ => ref' ≠ ref
  | .readInto ref' _ _ _ _ => ref' ≠ ref
  | _ => True

instance (ref : Ref) : ∀ call, Decidable (Quiet ref call)
  | .read ref' _ => inferInstanceAs (Decidable (ref' ≠ ref))
  | .readInto ref' _ _ _ _ => inferInstanceAs (Decidable (ref' ≠ ref))
  | .pick _ _ => .isTrue trivial
  | .poll => .isTrue trivial

/-- The receiver `r` holds the connection `c` of the session `t`, in the
table until both sides have closed. -/
structure Following (d : ConnectionDetail) (ref : Ref) (t : Session) (r : PacketReceiverImpl)
    (c : TCPConnectionImpl) : Prop where
  wellFormed : WellFormed r
  deref : r.deref ref = some c
  detail : c.connectionDetail = d
  active : r.activeConnections.get d = if c.isFinished then none else some ref
  conversing : Conversing t c

section Following

variable {d : ConnectionDetail} {ref : Ref} {t : Session} {r : PacketReceiverImpl}
  {c : TCPConnectionImpl}

theorem Following.held (h : Following d ref t r c) : Held d ref r c :=
  ⟨h.wellFormed, h.active, h.deref, h.detail⟩

theorem onStream_quiet {ref' : Ref} (hne : ref' ≠ ref) (r : PacketReceiverImpl) (x : Side)
    (f : DynamicByteArrayInputStream → DynamicByteArrayInputStream) :
    (r.onStream ref' x f).deref ref = r.deref ref ∧
      (r.onStream ref' x f).activeConnections = r.activeConnections := by
  unfold PacketReceiverImpl.onStream
  split
  · exact ⟨rfl, rfl⟩
  · exact ⟨deref_store_ne hne, rfl⟩

/-- Other calls that do not read leave the connection as it is. -/
theorem Following.step_other (h : Following d ref t r c) {call : Call} (hforeign : Foreign d call)
    (hquiet : Quiet ref call) : Following d ref t (r.step call) c := by
  have hwf := step_wellFormed h.wellFormed call
  cases call with
  | pick now p =>
    have hu := pick_untouched now (p := TCPPacketImpl p) h.wellFormed hforeign
    exact ⟨hwf, hu.deref h.deref (h.detail ▸ BEq.rfl), h.detail, hu.active.trans h.active,
      h.conversing⟩
  | poll => exact ⟨hwf, h.deref, h.detail, h.active, h.conversing⟩
  | read ref' x =>
    obtain ⟨hderef, hactive⟩ := onStream_quiet hquiet r x fun s => s.read.left s
    exact ⟨hwf, hderef.trans h.deref, h.detail, hactive ▸ h.active, h.conversing⟩
  | readInto ref' x bLength off len =>
    obtain ⟨hderef, hactive⟩ :=
      onStream_quiet hquiet r x fun s => (s.readInto bLength off len).left s
    exact ⟨hwf, hderef.trans h.deref, h.detail, hactive ▸ h.active, h.conversing⟩

/-- The packet is handled; a connection that is finished by it leaves the
table. -/
theorem Following.pick_handled (h : Following d ref t r c) (hopen : c.isFinished = false)
    {x : Side} {p : JpcapPacket} (hx : SentBy d x p) (hsyn : p.syn = false)
    (hnew : (c.counter.get x).seq ≤ p.sequence) {now : Date} {t' : Session}
    {c' : TCPConnectionImpl} {n : Nat}
    (hprocess : process now (p.detected d) c = .returned ⟨c', n⟩) (h' : Conversing t' c') :
    Following d ref t' (r.step (.pick now p)) c' := by
  have hheld := h.held.pick_handled hopen hx hsyn hnew hprocess
  exact ⟨hheld.wellFormed, hheld.deref, hheld.detail, hheld.active, h'⟩

/-- A packet without payload for a pair that is not in the table is ignored,
unless it is a SYN. -/
theorem pick_of_inactive {p : JpcapPacket} (hactive : r.activeConnections.get d = none)
    (hpair : (p.connectionDetail == d) = true) (hsyn : p.syn = false) (hdata : p.data = [])
    (now : Date) : r.pick now (TCPPacketImpl p) = .returned r := by
  have hsyn1 : (TCPPacketImpl p).isHandsShake1Packet = false := by
    simp [TCPPacket.isHandsShake1Packet, TCPPacketImpl, hsyn]
  have hnone : r.activeConnections.get (TCPPacketImpl p).connectionDetail = none := by
    rw [HashMap.get_congr _ (show (TCPPacketImpl p).connectionDetail == d from hpair), hactive]
  have hcontains : (TCPPacketImpl p).isContainsData = false := by
    simp [TCPPacket.isContainsData, TCPPacketImpl, hdata]
  unfold pick
  rw [hsyn1, hnone]
  simp [handleHalfWayConnectionPackets, hcontains]

/-- A packet of the session. -/
theorem Following.step_own (h : Following d ref t r c) {x : Side} {p : JpcapPacket}
    (hx : SentBy d x p) (hp : t.Admits x p)
    (hroom : ∀ y, ((textOf y (t.after x p).said).length : Int) ≤ MAX_BUFFER_SIZE) (now : Date) :
    ∃ c', Following d ref (t.after x p) (r.step (.pick now p)) c' := by
  have hseq : (c.counter.get x).seq = p.sequence := (h.conversing.next x).trans hp.sequence.symm
  have hfinished := h.conversing.isFinished
  have hopen_of : t.closed.get x = false ∨ t.closed.get x.other = false →
      c.isFinished = false := by
    rw [hfinished]
    cases x <;> simp only [BySide.get_client, BySide.get_server, Side.other] <;>
      rintro (ho | ho) <;> simp [ho]
  cases hp.kind with
  | data hdata hfin hackNum hopen =>
    have hfit : (c.inputStream.get x).hasRoom p.data := by
      refine h.conversing.hasRoom (hopen x) ?_
      have hx' := hroom x
      simpa [Session.after, hdata, textOf] using hx'
    have hprocess := process_data hx h.detail hseq
      (Or.inr (by rw [h.conversing.next, hackNum])) hdata hp.rst hfin
      (h.conversing.established hopen) (h.conversing.represents x).toSane
      ((h.conversing.isFinished_stream x).trans (hopen x)) hfit now
    exact ⟨_, h.pick_handled (hopen_of (Or.inl (hopen x))) hx hp.syn hseq.le hprocess
      (h.conversing.dataTaken hx hp.sequence hdata hfin hackNum hopen hfit now)⟩
  | ack hdata hfin hack =>
    rw [t.after_of_idle x hdata hfin]
    cases hover : c.isFinished with
    | true =>
      have hpick := pick_of_inactive (by rw [h.active, if_pos hover]) hx.pair hp.syn hdata now
      refine ⟨c, ?_⟩
      show Following d ref t (r.pick now (TCPPacketImpl p)).state c
      rw [hpick]
      exact h
    | false =>
      obtain ⟨c₁, hprocess, h₁, -, hstate, -⟩ := h.conversing.acknowledge hx hp.sequence hdata
        (fun hboth => by
          rw [hfinished] at hover
          cases x <;> simp_all [Side.other])
      have hcontrol := process_control hx h.detail hseq hdata hp.rst hack (by simp [hfin]) hstate
        hprocess h.conversing.packetsBuffer now
      rw [hfin] at hcontrol
      exact ⟨_, h.pick_handled hover hx hp.syn hseq.le hcontrol (h₁.recorded _ _ now)⟩
  | fin hdata hfin hack hackNum hopen =>
    obtain ⟨c₁, hprocess, h₁, -, hstate, hestablished, -⟩ :=
      h.conversing.acknowledge hx hp.sequence hdata (by simp [hopen])
    have hcontrol := process_control hx h.detail hseq hdata hp.rst hack
      (fun _ => by rw [h.conversing.next, hackNum]) hstate hprocess h.conversing.packetsBuffer now
    rw [hfin] at hcontrol
    exact ⟨_, h.pick_handled (hopen_of (Or.inl hopen)) hx hp.syn hseq.le hcontrol
      ((h₁.finish hx hp.sequence hdata hfin hopen hestablished now).recorded _ _ now)⟩

theorem Following.step (h : Following d ref t r c) {call : Call} (hallows : t.Allows d call)
    (hquiet : Quiet ref call)
    (hroom : ∀ y, ((textOf y (t.hear d call).said).length : Int) ≤ MAX_BUFFER_SIZE) :
    ∃ c', Following d ref (t.hear d call) (r.step call) c' := by
  by_cases hforeign : Foreign d call
  · rw [t.hear_of_foreign hforeign]
    exact ⟨c, h.step_other hforeign hquiet⟩
  · cases call with
    | pick now p =>
      obtain ⟨x, hx, hp⟩ := hallows (by simpa [Foreign] using hforeign)
      rw [t.hear_of_sentBy hx] at hroom ⊢
      exact h.step_own hx hp hroom now
    | poll => exact absurd trivial hforeign
    | read ref' x => exact absurd trivial hforeign
    | readInto ref' x bLength off len => exact absurd trivial hforeign

end Following

/-! ## Runs -/

section Runs

variable {d : ConnectionDetail}

/-- What has been said in the end has room for what has been said on the
way. -/
theorem Session.length_textOf_le (t : Session) (calls : List Call) (x : Side) :
    (textOf x t.said).length ≤ (textOf x (Run.after (Session.hear d) t calls).said).length := by
  have hprefix : t.said <+: (Run.after (Session.hear d) t calls).said :=
    Run.invariant_always (I := fun t' : Session => t.said <+: t'.said)
      (fun t' call h => h.trans (t'.said_prefix d call)) calls List.prefix_rfl
  obtain ⟨rest, hrest⟩ := hprefix
  rw [← hrest, textOf_append, List.length_append]
  omega

theorem Following.run {ref : Ref} {t : Session} {r : PacketReceiverImpl} {c : TCPConnectionImpl}
    {calls : List Call} (h : Following d ref t r c)
    (hcalls : Run.Along (Session.hear d) (Session.Allows d) t calls)
    (hquiet : ∀ call ∈ calls, Quiet ref call)
    (hroom : ∀ x, ((textOf x (Run.after (Session.hear d) t calls).said).length : Int) ≤
      MAX_BUFFER_SIZE) :
    ∃ c', Following d ref (Run.after (Session.hear d) t calls)
      (Run.after PacketReceiverImpl.step r calls) c' := by
  induction calls generalizing t r c with
  | nil => exact ⟨c, h⟩
  | cons call calls ih =>
    have hroom' : ∀ x, ((textOf x (t.hear d call).said).length : Int) ≤ MAX_BUFFER_SIZE := by
      intro x
      have hle := (t.hear d call).length_textOf_le (d := d) calls x
      have hlast := hroom x
      rw [Run.after_cons] at hlast
      omega
    obtain ⟨c₁, h₁⟩ := h.step hcalls.1 (hquiet call (by simp)) hroom'
    exact ih h₁ hcalls.2 (fun call' hmem => hquiet call' (by simp [hmem])) hroom

/-- The connection of a handshake. -/
theorem Flowing.conversing {isn : BySide Nat} {c : TCPConnectionImpl} {now : Date}
    (h : Flowing (Talk.opened isn) c) (hfresh : c.inputStream = freshStreams now) :
    Conversing (Session.opened isn) c where
  established := fun _ => h.state
  closing := by
    intro x hx
    cases x <;> exact absurd hx (by simp [Session.opened])
  packetsBuffer := h.packetsBuffer
  next := h.next
  acked := by
    intro _ x hbegun
    cases x <;> exact absurd hbegun (by simp [Session.opened, heard])
  represents := by
    intro x
    rw [hfresh]
    cases x <;> exact represents_create now
  pos := by
    intro x
    rw [hfresh]
    cases x <;> rfl

/-- After a handshake, a conversation in turns and a FIN of each side, with
pure ACKs anywhere, the read loop gives each side's turns. -/
theorem turns_read_back {filter : ConnectionFilter} {r : PacketReceiverImpl}
    (hr : Reachable filter r) {isn : BySide Nat} {syn synAck ack : JpcapPacket}
    (h : IsHandshake d isn (Talk.opened isn).next syn synAck ack)
    (hfilter : r.filter.isAcceptable d = true) (now now' now'' : Date) {calls : List Call}
    (hcalls : Run.Along (Session.hear d) (Session.Allows d) (Session.opened isn) calls)
    (hquiet : ∀ call ∈ calls, Quiet r.heap.length call)
    {turns : List (Turn UInt8)} (hturns : Turn.Alternating turns)
    (hsaid : (Run.after (Session.hear d) (Session.opened isn) calls).said =
      turns.flatMap Turn.said)
    (hclosed : ∀ x, (Run.after (Session.hear d) (Session.opened isn) calls).closed.get x = true)
    (hroom : ∀ x, ((textOf x (turns.flatMap Turn.said)).length : Int) ≤ MAX_BUFFER_SIZE)
    (x : Side) {n : Nat} (hn : 0 < n) (hn' : (n : Int) < 2 ^ 31) :
    ∃ c fuel₀, (Run.after step r (handshakeCalls syn synAck ack now now' now'' ++ calls)).deref
        r.heap.length = some c ∧
      ∀ fuel, fuel₀ ≤ fuel →
        (c.inputStream.get x).readMessages n fuel = some (Turn.textsOf x turns) := by
  have hwf := wellFormed_of_reachable hr
  obtain ⟨-, c, hlive, hflow, hfresh⟩ := handshake_run h hwf hfilter now now' now''
  have hfollow : Following d r.heap.length (Session.opened isn)
      (Run.after step r (handshakeCalls syn synAck ack now now' now'')) c :=
    ⟨hlive.wellFormed, hlive.deref, hlive.detail, by rw [hlive.active, if_neg (by simp [hflow.isFinished])],
      hflow.conversing hfresh⟩
  obtain ⟨c', hfollow'⟩ := hfollow.run hcalls hquiet (by rwa [hsaid])
  have hqueue := finish_heard_turns hturns x
  have hrep := hfollow'.conversing.represents x
  rw [Session.queue, if_pos (hclosed x), hsaid, hqueue] at hrep
  refine ⟨c', _, ?_, fun fuel hfuel => readMessages_eq hn hn' hrep rfl
    (hfollow'.conversing.pos x) (Nat.lt_of_succ_le hfuel)⟩
  rw [Run.after_append]
  exact hfollow'.deref

/-- The client speaks in two packets, the server answers, and the client
closes first.  The server's last ACK comes when the connection has left the
table. -/
theorem turns_read_back_exchange :
    let client := InetAddress.inet4 10 0 0 1
    let server := InetAddress.inet4 10 0 0 2
    let up (sequence ackNum : Nat) (ack syn fin : Bool) (data : List UInt8) : JpcapPacket :=
      ⟨client, server, 50000, 80, sequence, ackNum, ack, false, syn, fin, data, 0⟩
    let down (sequence ackNum : Nat) (syn fin : Bool) (data : List UInt8) : JpcapPacket :=
      ⟨server, client, 80, 50000, sequence, ackNum, true, false, syn, fin, data, 0⟩
    let calls : List Call := [
      .pick 3 (up 101 501 true false false [1]), .pick 4 (down 501 102 false false []),
      .pick 5 (up 102 501 true false false [2]), .poll,
      .pick 6 (down 501 103 false false [7]), .pick 7 (up 103 502 true false false []),
      .pick 8 (up 103 502 true false true []), .pick 9 (down 502 104 false true []),
      .pick 10 (up 104 503 true false false [])]
    ∃ c fuel₀, (Run.after step (create {}) (handshakeCalls (up 100 0 false true false [])
        (down 500 101 true false []) (up 101 501 true false false []) 0 1 2 ++ calls)).deref 0 =
          some c ∧
      ∀ fuel, fuel₀ ≤ fuel → (c.inputStream.get .client).readMessages 4 fuel = some [[1, 2]] := by
  intro client server up down calls
  let turns : List (Turn UInt8) :=
    [⟨.client, [[1], [2]], by decide, by decide⟩, ⟨.server, [[7]], by decide, by decide⟩]
  refine @turns_read_back ⟨client, server, 50000, 80⟩ {} (create {}) ⟨[], rfl⟩ ⟨100, 500⟩
    (up 100 0 false true false []) (down 500 101 true false []) (up 101 501 true false false [])
    (by constructor <;> decide) rfl 0 1 2 calls ⟨?_, ?_, ?_, ?_, ?_, ?_, ?_, ?_, ?_, trivial⟩
    (by decide) turns (by simp [Turn.Alternating, turns, Side.other]) (by decide)
    (BySide.forall_side .client (by decide) (by decide))
    (BySide.forall_side .client (by decide) (by decide)) .client 4 (by decide) (by decide)
  · exact fun _ => ⟨.client, by decide, by decide, by decide, by decide,
      .data (by decide) rfl (by decide) (BySide.forall_side .client (by decide) (by decide))⟩
  · exact fun _ => ⟨.server, by decide, by decide, by decide, by decide, .ack rfl rfl rfl⟩
  · exact fun _ => ⟨.client, by decide, by decide, by decide, by decide,
      .data (by decide) rfl (by decide) (BySide.forall_side .client (by decide) (by decide))⟩
  · trivial
  · exact fun _ => ⟨.server, by decide, by decide, by decide, by decide,
      .data (by decide) rfl (by decide) (BySide.forall_side .client (by decide) (by decide))⟩
  · exact fun _ => ⟨.client, by decide, by decide, by decide, by decide, .ack rfl rfl rfl⟩
  · exact fun _ => ⟨.client, by decide, by decide, by decide, by decide,
      .fin rfl rfl rfl (by decide) (by decide)⟩
  · exact fun _ => ⟨.server, by decide, by decide, by decide, by decide,
      .fin rfl rfl rfl (by decide) (by decide)⟩
  · exact fun _ => ⟨.client, by decide, by decide, by decide, by decide, .ack rfl rfl rfl⟩

end Runs

end PacketReceiverImpl

end ConnectionSniffer
