import ConnectionSniffer.Connection.TCPConnectionImpl
import ConnectionSniffer.Io.StreamInvariant

/-!
# What the handlers of a connection do

One lemma a handler, about the counters, the state and the streams, where
a stream counts by its appended bytes and by whether it is finished.
-/

namespace ConnectionSniffer

@[simp] theorem updateCounter_seq (p : TCPPacket) :
    (updateCounter p).1.seq = p.sequence + p.data.length := by
  unfold updateCounter TCPPacket.isContainsData
  cases p.data <;> simp

@[simp] theorem updateCounter_ack (p : TCPPacket) : (updateCounter p).1.ack = p.ackNum := rfl

namespace SequenceCounter

@[simp] theorem get_update (counter : SequenceCounter) (p : TCPPacket) (x : Side) :
    BySide.get (counter.update x p) x = (updateCounter p).1 :=
  BySide.get_set ..

@[simp] theorem get_other_update (counter : SequenceCounter) (p : TCPPacket) (x : Side) :
    BySide.get (counter.update x p) x.other = counter.get x.other :=
  BySide.get_other_set ..

@[simp] theorem get_sequenceAddOne (counter : SequenceCounter) (x : Side) :
    BySide.get (counter.sequenceAddOne x) x =
      { counter.get x with seq := (counter.get x).seq + 1 } :=
  BySide.get_set ..

@[simp] theorem get_other_sequenceAddOne (counter : SequenceCounter) (x : Side) :
    BySide.get (counter.sequenceAddOne x) x.other = counter.get x.other :=
  BySide.get_other_set ..

end SequenceCounter

namespace TCPConnectionImpl

variable {now : Date} {p : TCPPacket} {c : TCPConnectionImpl}

/-- Streams that differ at most in their end marks and positions. -/
structure SameBytes (streams streams' : BySide DynamicByteArrayInputStream) : Prop where
  appended : ∀ x, (streams'.get x).appended = (streams.get x).appended
  isFinished : ∀ x, (streams'.get x).isFinished = (streams.get x).isFinished

theorem SameBytes.refl (streams : BySide DynamicByteArrayInputStream) :
    SameBytes streams streams :=
  ⟨fun _ => rfl, fun _ => rfl⟩

theorem isFinished_iff {c : TCPConnectionImpl} :
    c.isFinished = true ↔ ∀ x, (c.inputStream.get x).isFinished = true := by
  constructor
  · intro h x
    unfold isFinished at h
    rw [Bool.and_eq_true] at h
    cases x
    · exact h.1
    · exact h.2
  · intro h
    exact Bool.and_eq_true_iff.mpr ⟨h .client, h .server⟩

theorem SameBytes.isFinished_eq {c c' : TCPConnectionImpl}
    (h : SameBytes c.inputStream c'.inputStream) : c'.isFinished = c.isFinished := by
  have hc := h.isFinished .client
  have hs := h.isFinished .server
  simp only [BySide.get_client, BySide.get_server] at hc hs
  simp only [TCPConnectionImpl.isFinished, hc, hs]

/-- Replacing one stream by one with the same bytes. -/
theorem sameBytes_set (streams : BySide DynamicByteArrayInputStream) (x : Side)
    {stream : DynamicByteArrayInputStream} (happ : stream.appended = (streams.get x).appended)
    (hfin : stream.isFinished = (streams.get x).isFinished) :
    SameBytes streams (streams.set x stream) :=
  ⟨BySide.forall_set (P := fun y (s : DynamicByteArrayInputStream) => s.appended = (streams.get y).appended) happ rfl,
    BySide.forall_set (P := fun y (s : DynamicByteArrayInputStream) => s.isFinished = (streams.get y).isFinished) hfin rfl⟩

/-! ## Data -/

/-- The other side's stream when the payload is appended: its message has
ended if the packet starts where that side acknowledged to. -/
def otherStream (now : Date) (p : TCPPacket) (c : TCPConnectionImpl) :
    DynamicByteArrayInputStream :=
  let other := p.side.other
  if (c.counter.get other).ack = p.sequence then
    let (success, stream) := (c.inputStream.get other).finish true now
    if success then stream.markStreamStartTime (c.counter.get other).latestPacketUpdateTime
    else stream
  else c.inputStream.get other

/-- The sender's stream when the payload is appended: the first packet has
started its clock. -/
def ownStream (p : TCPPacket) (c : TCPConnectionImpl) : DynamicByteArrayInputStream :=
  if (c.counter.get p.side).seq = 0 then (c.inputStream.get p.side).markStreamStartTime p.usec
  else c.inputStream.get p.side

@[simp] theorem appended_otherStream (now : Date) (p : TCPPacket) (c : TCPConnectionImpl) :
    (c.otherStream now p).appended = (c.inputStream.get p.side.other).appended := by
  unfold otherStream
  dsimp only
  split_ifs <;> simp

@[simp] theorem isFinished_otherStream (now : Date) (p : TCPPacket) (c : TCPConnectionImpl) :
    (c.otherStream now p).isFinished = (c.inputStream.get p.side.other).isFinished := by
  unfold otherStream
  dsimp only
  split_ifs <;> simp

@[simp] theorem appended_ownStream (p : TCPPacket) (c : TCPConnectionImpl) :
    (c.ownStream p).appended = (c.inputStream.get p.side).appended := by
  unfold ownStream
  split_ifs <;> simp

@[simp] theorem isFinished_ownStream (p : TCPPacket) (c : TCPConnectionImpl) :
    (c.ownStream p).isFinished = (c.inputStream.get p.side).isFinished := by
  unfold ownStream
  split_ifs <;> simp

@[simp] theorem unread_otherStream (now : Date) (p : TCPPacket) (c : TCPConnectionImpl) :
    (c.otherStream now p).unread = (c.inputStream.get p.side.other).unread := by
  have hmark : ∀ (s : DynamicByteArrayInputStream) time, (s.markStreamStartTime time).unread =
      s.unread := fun _ _ => rfl
  unfold otherStream
  dsimp only
  split_ifs
  · rw [hmark, DynamicByteArrayInputStream.unread_finish]
  · rw [DynamicByteArrayInputStream.unread_finish]
  · rfl

@[simp] theorem unread_ownStream (p : TCPPacket) (c : TCPConnectionImpl) :
    (c.ownStream p).unread = (c.inputStream.get p.side).unread := by
  unfold ownStream
  split_ifs <;> rfl

@[simp] theorem hasRoom_ownStream (p : TCPPacket) (c : TCPConnectionImpl) (data : List UInt8) :
    (c.ownStream p).hasRoom data ↔ (c.inputStream.get p.side).hasRoom data := by
  simp [DynamicByteArrayInputStream.hasRoom]

theorem sane_ownStream (h : (c.inputStream.get p.side).Sane) : (c.ownStream p).Sane := by
  unfold ownStream
  split_ifs
  · exact DynamicByteArrayInputStream.sane_markStreamStartTime h _
  · exact h

theorem sane_otherStream (now : Date) (h : (c.inputStream.get p.side.other).Sane) :
    (c.otherStream now p).Sane := by
  have hfinish := DynamicByteArrayInputStream.sane_finish h true now
  unfold otherStream
  dsimp only
  split_ifs
  · exact DynamicByteArrayInputStream.sane_markStreamStartTime hfinish _
  · exact hfinish
  · exact h

/-- The streams after a data packet, given what the append left. -/
def streamsAfter (now : Date) (p : TCPPacket) (c : TCPConnectionImpl)
    (own : DynamicByteArrayInputStream) : BySide DynamicByteArrayInputStream :=
  (c.inputStream.set p.side.other (c.otherStream now p)).set p.side own

@[simp] theorem get_streamsAfter (now : Date) (p : TCPPacket) (c : TCPConnectionImpl)
    (own : DynamicByteArrayInputStream) : (c.streamsAfter now p own).get p.side = own :=
  BySide.get_set ..

@[simp] theorem get_other_streamsAfter (now : Date) (p : TCPPacket) (c : TCPConnectionImpl)
    (own : DynamicByteArrayInputStream) :
    (c.streamsAfter now p own).get p.side.other = c.otherStream now p := by
  simp [streamsAfter]

/-- Ending the other side's message and starting the clock touch nothing but
the streams. -/
theorem prepared_eq (now : Date) (p : TCPPacket) (c : TCPConnectionImpl) :
    (c.finishOtherStream now p).markFirstPacket p =
      { c with inputStream := c.streamsAfter now p (c.ownStream p) } := by
  have hfinish : c.finishOtherStream now p =
      { c with inputStream := c.inputStream.set p.side.other (c.otherStream now p) } := by
    unfold finishOtherStream otherStream
    dsimp only
    split
    · rfl
    · rw [BySide.set_get]
  rw [hfinish]
  unfold markFirstPacket ownStream streamsAfter
  dsimp only
  rw [BySide.get_set_other]
  split
  · rfl
  · have hget : (c.inputStream.set p.side.other (c.otherStream now p)).get p.side =
        c.inputStream.get p.side := BySide.get_set_other ..
    rw [← hget, BySide.set_get]

/-- `processDataPacket` is one append. -/
theorem processDataPacket_eq (now : Date) (p : TCPPacket) (c : TCPConnectionImpl) :
    c.processDataPacket now p =
      match (c.ownStream p).append p.data with
      | .thrown e own => .thrown e { c with inputStream := c.streamsAfter now p own }
      | .returned own => .returned { c with
          inputStream := c.streamsAfter now p own
          counter := c.counter.update p.side p } := by
  have hset : ∀ own, (c.streamsAfter now p (c.ownStream p)).set p.side own =
      c.streamsAfter now p own := fun own => BySide.set_set ..
  unfold processDataPacket
  rw [prepared_eq]
  unfold appendData
  dsimp only
  rw [get_streamsAfter]
  cases (c.ownStream p).append p.data with
  | thrown e own => simp only [hset]
  | returned own => simp only [hset]

/-- What a data packet does to a connection that takes it. -/
structure DataProcessed (p : TCPPacket) (c c' : TCPConnectionImpl) : Prop where
  state : c'.state = c.state
  handled : c'.handled = c.handled
  counter : c'.counter = c.counter.update p.side p
  was_open : (c.inputStream.get p.side).isFinished = false
  is_open : (c'.inputStream.get p.side).isFinished = false
  appended : (c'.inputStream.get p.side).appended =
    (c.inputStream.get p.side).appended ++ p.data
  other_isFinished : (c'.inputStream.get p.side.other).isFinished =
    (c.inputStream.get p.side.other).isFinished
  other_appended : (c'.inputStream.get p.side.other).appended =
    (c.inputStream.get p.side.other).appended

/-- What a data packet does to a connection that throws. -/
structure DataRefused (c c' : TCPConnectionImpl) : Prop where
  state : c'.state = c.state
  handled : c'.handled = c.handled
  counter : c'.counter = c.counter
  sameBytes : SameBytes c.inputStream c'.inputStream

theorem processDataPacket_sat (now : Date) (p : TCPPacket) (c : TCPConnectionImpl) :
    (c.processDataPacket now p).Sat (DataProcessed p c) (DataRefused c) := by
  have happend := DynamicByteArrayInputStream.append_frame (c.ownStream p) p.data
  rw [processDataPacket_eq]
  cases ha : (c.ownStream p).append p.data with
  | thrown e own =>
    rw [ha] at happend
    obtain ⟨hfin, happ⟩ := happend
    refine ⟨rfl, rfl, rfl, ⟨?_, ?_⟩⟩
    · exact BySide.forall_side p.side (by simpa using happ) (by simp)
    · exact BySide.forall_side p.side (by simpa using hfin) (by simp)
  | returned own =>
    rw [ha] at happend
    obtain ⟨hopen, hopen', happ⟩ := happend
    exact
      { state := rfl
        handled := rfl
        counter := rfl
        was_open := by simpa using hopen
        is_open := by simpa using hopen'
        appended := by simpa using happ
        other_isFinished := by simp
        other_appended := by simp }

/-- Only the stream can refuse a data packet. -/
theorem processDataPacket_throws (now : Date) (p : TCPPacket) (c : TCPConnectionImpl) :
    (c.processDataPacket now p).Throws (c.inputStream.get p.side).Refuses := by
  have happend := DynamicByteArrayInputStream.append_throws (c.ownStream p) p.data
  rw [processDataPacket_eq]
  cases ha : (c.ownStream p).append p.data with
  | thrown e own =>
    rw [ha] at happend
    exact ⟨happend.1, fun he => (isFinished_ownStream p c).symm.trans (happend.2 he)⟩
  | returned own => trivial

/-! ## RST and FIN -/

@[simp] theorem appended_finishIfOpen (now : Date) (stream : DynamicByteArrayInputStream) :
    (finishIfOpen now stream).appended = stream.appended := by
  unfold finishIfOpen
  split <;> simp

@[simp] theorem unread_finishIfOpen (now : Date) (stream : DynamicByteArrayInputStream) :
    (finishIfOpen now stream).unread = stream.unread := by
  unfold finishIfOpen
  split <;> simp

@[simp] theorem isFinished_finishIfOpen (now : Date) (stream : DynamicByteArrayInputStream) :
    (finishIfOpen now stream).isFinished = true := by
  unfold finishIfOpen
  split
  · assumption
  · simp

theorem processRstPacket_streams (now : Date) (p : TCPPacket) (c : TCPConnectionImpl) (x : Side) :
    ((c.processRstPacket now p).inputStream.get x).appended = (c.inputStream.get x).appended ∧
      ((c.processRstPacket now p).inputStream.get x).isFinished = true := by
  cases x
  · exact ⟨appended_finishIfOpen now _, isFinished_finishIfOpen now _⟩
  · exact ⟨appended_finishIfOpen now _, isFinished_finishIfOpen now _⟩

theorem processRstPacket_counter (now : Date) (p : TCPPacket) (c : TCPConnectionImpl) :
    (c.processRstPacket now p).counter = c.counter.update p.side p := rfl

theorem processRstPacket_state (now : Date) (p : TCPPacket) (c : TCPConnectionImpl) :
    (c.processRstPacket now p).state = c.state := rfl

theorem isFinished_processRstPacket (now : Date) (p : TCPPacket) (c : TCPConnectionImpl) :
    (c.processRstPacket now p).isFinished = true :=
  isFinished_iff.mpr fun x => (processRstPacket_streams now p c x).2

theorem processFinishPacket_streams (now : Date) (p : TCPPacket) (c : TCPConnectionImpl) :
    (∀ x, ((c.processFinishPacket now p).inputStream.get x).appended =
      (c.inputStream.get x).appended) ∧
    ((c.processFinishPacket now p).inputStream.get p.side).isFinished = true ∧
    ((c.processFinishPacket now p).inputStream.get p.side.other) =
      c.inputStream.get p.side.other := by
  have hstreams : (c.processFinishPacket now p).inputStream = c.inputStream.set p.side
      ((c.inputStream.get p.side).finish false now).2 := rfl
  rw [hstreams]
  refine ⟨?_, ?_, BySide.get_other_set ..⟩
  · exact BySide.forall_set (P := fun x (s : DynamicByteArrayInputStream) => s.appended = (c.inputStream.get x).appended)
      (by simp) rfl
  · simp

theorem processFinishPacket_counter (now : Date) (p : TCPPacket) (c : TCPConnectionImpl) :
    (c.processFinishPacket now p).counter =
      (c.counter.update p.side p).sequenceAddOne p.side := rfl

theorem processFinishPacket_state (now : Date) (p : TCPPacket) (c : TCPConnectionImpl) :
    (c.processFinishPacket now p).state =
      updateConnectionStateAfterReceivedFinishPacket c.state := rfl

/-! ## The accept test -/

/-- The accept test on a packet whose direction has been detected. -/
theorem isCanProcessPacket_eq
    (hside : p.isSentByClient = p.connectionDetail.isTheSame c.connectionDetail)
    (hconsumed : p.consumed = false) :
    c.isCanProcessPacket p = .ok ((c.counter.get p.side).seq == p.sequence &&
      (!(p.isContainsData || p.rst || p.fin) || (p.ackNum == (c.counter.get p.side).ack ||
        p.ackNum == (c.counter.get p.side.other).seq))) := by
  have hdir : c.connectionDetail.isTheSame p.connectionDetail = p.isSentByClient := by
    rw [hside, Bool.eq_iff_iff, ConnectionDetail.isTheSame_iff, ConnectionDetail.isTheSame_iff]
    exact eq_comm
  have hmatch : c.isMatchSequence p = .ok ((c.counter.get p.side).seq == p.sequence) := by
    unfold isMatchSequence SequenceCounter.isMatchSeq
    rw [hdir, if_neg (by simp [hconsumed])]
    rfl
  unfold isCanProcessPacket
  rw [hmatch]
  dsimp only
  cases (c.counter.get p.side).seq == p.sequence <;>
    cases p.isContainsData || p.rst || p.fin <;> simp

/-- A packet that `isCanProcessPacket` lets through starts at its sender's
counter. -/
theorem sequence_of_isCanProcessPacket
    (hside : p.isSentByClient = p.connectionDetail.isTheSame c.connectionDetail)
    (h : c.isCanProcessPacket p = .ok true) : (c.counter.get p.side).seq = p.sequence := by
  cases hconsumed : p.consumed with
  | true =>
    simp [isCanProcessPacket, isMatchSequence, SequenceCounter.isMatchSeq, hconsumed] at h
  | false =>
    rw [isCanProcessPacket_eq hside hconsumed, Except.ok.injEq, Bool.and_eq_true] at h
    simpa using h.1

/-- With payload, RST or FIN it acknowledges what its sender acknowledged last
or all of the other side. -/
theorem ackNum_of_isCanProcessPacket
    (hside : p.isSentByClient = p.connectionDetail.isTheSame c.connectionDetail)
    (h : c.isCanProcessPacket p = .ok true)
    (hkind : (p.isContainsData || p.rst || p.fin) = true) :
    p.ackNum = (c.counter.get p.side).ack ∨ p.ackNum = (c.counter.get p.side.other).seq := by
  cases hconsumed : p.consumed with
  | true =>
    simp [isCanProcessPacket, isMatchSequence, SequenceCounter.isMatchSeq, hconsumed] at h
  | false =>
    rw [isCanProcessPacket_eq hside hconsumed, Except.ok.injEq, Bool.and_eq_true, hkind] at h
    simpa using h.2

/-- The accept test throws nothing but a `RuntimeException`. -/
theorem error_of_isCanProcessPacket {e : Throwable} (h : c.isCanProcessPacket p = .error e) :
    ∃ message, e = .runtimeException message := by
  unfold isCanProcessPacket isMatchSequence SequenceCounter.isMatchSeq at h
  cases hconsumed : p.consumed with
  | true =>
    rw [hconsumed] at h
    exact ⟨_, (Except.error.inj h).symm⟩
  | false =>
    rw [hconsumed] at h
    dsimp only at h
    split at h
    · rename_i heq
      exact absurd heq (by simp)
    · split at h <;> exact absurd h (by simp)

end TCPConnectionImpl

end ConnectionSniffer
