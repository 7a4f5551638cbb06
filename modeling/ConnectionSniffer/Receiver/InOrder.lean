import ConnectionSniffer.Connection.Handlers
import ConnectionSniffer.Receiver.Isolation

/-!
# Packets captured in order

`Live d ref r c` says that the receiver `r` routes the packets of `d` to
the connection `c` behind `ref`.  The lemmas of this module say what one
call does to a live connection.

* `Live.step_other`: calls that pick no packet of the pair change at most
  the position of a stream.
* `Live.pick_processed` and `Live.pick_finished`: a pick that is not
  ignored does what `process` does.
* `process_data` and `process_idle`: `process` on a data packet that
  starts at its sender's counter, and on a packet without payload, RST
  and FIN.
* `handshake_live`: three packets make a live connection.
-/

namespace ConnectionSniffer

/-! ## The sender of a packet -/

/-- The packet travels from side `x` of the connection `d`. -/
def SentBy (d : ConnectionDetail) : Side → JpcapPacket → Prop
  | .client, p => p.connectionDetail = d
  | .server, p => p.connectionDetail = d.swap ∧ d.swap ≠ d

instance (d : ConnectionDetail) : ∀ x p, Decidable (SentBy d x p)
  | .client, p => inferInstanceAs (Decidable (p.connectionDetail = d))
  | .server, p => inferInstanceAs (Decidable (p.connectionDetail = d.swap ∧ d.swap ≠ d))

namespace SentBy

variable {d : ConnectionDetail} {x : Side} {p : JpcapPacket}

theorem side (h : SentBy d x p) : (p.detected d).side = x := by
  unfold TCPPacket.side
  cases x with
  | client => exact if_pos (ConnectionDetail.isTheSame_iff.mpr h)
  | server =>
    exact if_neg fun hs => h.2 (h.1.symm.trans (ConnectionDetail.isTheSame_iff.mp hs))

theorem pair (h : SentBy d x p) : (p.connectionDetail == d) = true := by
  cases x with
  | client => exact (show p.connectionDetail = d from h) ▸ BEq.rfl
  | server =>
    rw [h.1]
    exact d.swap_beq

end SentBy

namespace PacketReceiverImpl

/-! ## Live connections -/

structure Live (d : ConnectionDetail) (ref : Ref) (r : PacketReceiverImpl)
    (c : TCPConnectionImpl) : Prop where
  wellFormed : WellFormed r
  active : r.activeConnections.get d = some ref
  deref : r.deref ref = some c
  detail : c.connectionDetail = d

/-- The call picks no packet of the pair of `d`. -/
def Foreign (d : ConnectionDetail) : Call → Prop
  | .pick _ p => (p.connectionDetail == d) = false
  | .poll => True
  | .read _ _ => True
  | .readInto _ _ _ _ _ => True

section Live

variable {d : ConnectionDetail} {ref : Ref} {r : PacketReceiverImpl} {c : TCPConnectionImpl}

private theorem kept_onStream (hc : r.deref ref = some c) (ref' : Ref) (x : Side)
    {f : DynamicByteArrayInputStream → DynamicByteArrayInputStream}
    (hf : ∀ s, (f s).appended = s.appended ∧ (f s).isFinished = s.isFinished)
    (hleaves : ∀ s : DynamicByteArrayInputStream, s.Sane → s.Leaves (f s)) :
    (r.onStream ref' x f).activeConnections = r.activeConnections ∧
      ∃ c', (r.onStream ref' x f).deref ref = some c' ∧ SameButRead c c' := by
  by_cases hne : ref' = ref
  · subst hne
    refine ⟨?_, _, ?_, sameButRead_set c x hf hleaves⟩
    · unfold PacketReceiverImpl.onStream
      rw [hc]
      rfl
    · unfold PacketReceiverImpl.onStream
      rw [hc]
      exact deref_store_self hc
  · unfold PacketReceiverImpl.onStream
    split
    · exact ⟨rfl, c, hc, .refl c⟩
    · exact ⟨rfl, c, (deref_store_ne hne).trans hc, .refl c⟩

/-- Other calls leave the connection and the table entry where they are. -/
theorem kept_other (hwf : WellFormed r) (hc : r.deref ref = some c)
    (hd : c.connectionDetail = d) {call : Call} (hcall : Foreign d call) :
    (r.step call).activeConnections.get d = r.activeConnections.get d ∧
      ∃ c', (r.step call).deref ref = some c' ∧ SameButRead c c' := by
  cases call with
  | pick now p =>
    have hu := pick_untouched now (p := TCPPacketImpl p) hwf hcall
    exact ⟨hu.active, c, hu.deref hc (hd ▸ BEq.rfl), .refl c⟩
  | poll => exact ⟨rfl, c, hc, .refl c⟩
  | read ref' x =>
    obtain ⟨hactive, hkept⟩ := kept_onStream (f := fun s => s.read.left s) hc ref' x
      DynamicByteArrayInputStream.read_frame fun s => DynamicByteArrayInputStream.read_leaves
    exact ⟨congrArg (fun table => table.get d) hactive, hkept⟩
  | readInto ref' x bLength off len =>
    obtain ⟨hactive, hkept⟩ := kept_onStream
      (f := fun s => (s.readInto bLength off len).left s) hc ref' x
      (fun s => DynamicByteArrayInputStream.readInto_frame s bLength off len)
      fun s hs => DynamicByteArrayInputStream.readInto_leaves hs bLength off len
    exact ⟨congrArg (fun table => table.get d) hactive, hkept⟩

/-- Other calls leave a live connection alive. -/
theorem Live.step_other (h : Live d ref r c) {call : Call} (hcall : Foreign d call) :
    ∃ c', Live d ref (r.step call) c' ∧ SameButRead c c' := by
  obtain ⟨hactive, c', hderef, hsame⟩ := kept_other h.wellFormed h.deref h.detail hcall
  exact ⟨c', ⟨step_wellFormed h.wellFormed call, hactive.trans h.active, hderef,
    hsame.connectionDetail.trans h.detail⟩, hsame⟩

/-- The packets of the pair are routed to the connection. -/
theorem Live.get_active (h : Live d ref r c) {x : Side} {p : JpcapPacket} (hx : SentBy d x p) :
    r.activeConnections.get (TCPPacketImpl p).connectionDetail = some ref := by
  rw [HashMap.get_congr _ (show (TCPPacketImpl p).connectionDetail == d from hx.pair)]
  exact h.active

/-- A pick that is not ignored does what `process` does. -/
theorem Live.pick_eq (h : Live d ref r c) {x : Side} {p : JpcapPacket}
    (hx : SentBy d x p) (hsyn : p.syn = false)
    (hnew : (c.counter.get x).seq ≤ p.sequence) (hopen : c.isFinished = false) (now : Date) :
    r.pick now (TCPPacketImpl p) = ((process now (p.detected d) c).map (r.commit ref)).andThen
      fun r => .returned (r.removeIfFinished ref) := by
  have hactive := h.get_active hx
  have hsyn1 : (TCPPacketImpl p).isHandsShake1Packet = false := by
    simp [TCPPacket.isHandsShake1Packet, TCPPacketImpl, hsyn]
  have hsyn2 : (TCPPacketImpl p).isHandsShake2Packet = false := by
    simp [TCPPacket.isHandsShake2Packet, TCPPacketImpl, hsyn]
  have hnotOld : c.isOldPacket (p.detected d) = false := by
    unfold TCPConnectionImpl.isOldPacket
    rw [hx.side]
    exact decide_eq_false (Nat.not_lt.mpr hnew)
  have hignored : isIgnored ((TCPPacketImpl p).detectPacketFlowDirection c.connectionDetail) c =
      false := by
    rw [h.detail]
    show (c.isOldPacket (p.detected d) || (c.isFinished && _) ||
      ((TCPPacketImpl p).isHandsShake2Packet && _)) = false
    rw [hnotOld, hopen, hsyn2]
    rfl
  have hpick : r.pick now (TCPPacketImpl p) = _ :=
    picked_iff.mp (.processed hsyn1 hactive h.deref hignored hsyn2)
  rw [hpick, h.detail]
  rfl

theorem Live.commit (h : Live d ref r c) {t : Delivery}
    (hdetail : t.connection.connectionDetail = c.connectionDetail) :
    Live d ref (r.commit ref t) t.connection :=
  ⟨h.wellFormed.commit h.deref hdetail, h.active, deref_store_self h.deref,
    hdetail.trans h.detail⟩

/-- The packet is handled, and the connection stays open. -/
theorem Live.pick_processed (h : Live d ref r c) {x : Side} {p : JpcapPacket}
    (hx : SentBy d x p) (hsyn : p.syn = false)
    (hnew : (c.counter.get x).seq ≤ p.sequence) (hopen : c.isFinished = false) {now : Date}
    {t : Delivery} (hprocess : process now (p.detected d) c = .returned t)
    (hstays : t.connection.isFinished = false) :
    r.pick now (TCPPacketImpl p) = .returned (r.commit ref t) ∧
      Live d ref (r.commit ref t) t.connection := by
  have hdetail := (process_detail now (p.detected d) c).state
  rw [hprocess] at hdetail
  have hlive := h.commit (t := t) hdetail
  refine ⟨?_, hlive⟩
  rw [h.pick_eq hx hsyn hnew hopen, hprocess, Outcome.map_returned, Outcome.andThen_returned,
    removeIfFinished_of_open hlive.deref hstays]

/-- The packet is handled and finishes the connection. -/
theorem Live.pick_finished (h : Live d ref r c) {x : Side} {p : JpcapPacket}
    (hx : SentBy d x p) (hsyn : p.syn = false)
    (hnew : (c.counter.get x).seq ≤ p.sequence) (hopen : c.isFinished = false) {now : Date}
    {t : Delivery} (hprocess : process now (p.detected d) c = .returned t)
    (hfinished : t.connection.isFinished = true) :
    ∃ r', r.pick now (TCPPacketImpl p) = .returned r' ∧ r'.activeConnections.get d = none ∧
      r'.deref ref = some t.connection := by
  have hdetail := (process_detail now (p.detected d) c).state
  rw [hprocess] at hdetail
  have hderef : (r.commit ref t).deref ref = some t.connection := deref_store_self h.deref
  refine ⟨(r.commit ref t).removeIfFinished ref, ?_, ?_, ?_⟩
  · rw [h.pick_eq hx hsyn hnew hopen, hprocess]
    rfl
  · unfold removeIfFinished
    rw [hderef]
    simp only [hfinished, if_true, HashMap.get_remove]
    rw [show t.connection.connectionDetail = d from hdetail.trans h.detail]
    simp
  · rw [deref_removeIfFinished]
    exact hderef

/-- The connection of `d` behind `ref`, in the table until it is finished. -/
structure Held (d : ConnectionDetail) (ref : Ref) (r : PacketReceiverImpl)
    (c : TCPConnectionImpl) : Prop where
  wellFormed : WellFormed r
  active : r.activeConnections.get d = if c.isFinished then none else some ref
  deref : r.deref ref = some c
  detail : c.connectionDetail = d

theorem Held.live (h : Held d ref r c) (hopen : c.isFinished = false) : Live d ref r c :=
  ⟨h.wellFormed, by simpa [hopen] using h.active, h.deref, h.detail⟩

theorem Live.held (h : Live d ref r c) (hopen : c.isFinished = false) : Held d ref r c :=
  ⟨h.wellFormed, by rw [h.active, hopen]; rfl, h.deref, h.detail⟩

theorem SameButRead.isFinished {c' : TCPConnectionImpl} (h : SameButRead c c') :
    c'.isFinished = c.isFinished := by
  obtain ⟨streams, rfl, hsame, -⟩ := h
  unfold TCPConnectionImpl.isFinished
  exact congrArg₂ (· && ·) (hsame.isFinished .client) (hsame.isFinished .server)

theorem Held.step_other (h : Held d ref r c) {call : Call} (hcall : Foreign d call) :
    ∃ c', Held d ref (r.step call) c' ∧ SameButRead c c' := by
  obtain ⟨hactive, c', hderef, hsame⟩ := kept_other h.wellFormed h.deref h.detail hcall
  refine ⟨c', ⟨step_wellFormed h.wellFormed call, ?_, hderef,
    hsame.connectionDetail.trans h.detail⟩, hsame⟩
  rw [hactive, h.active, hsame.isFinished]

/-- The packet is handled; a connection that is finished by it leaves the
table. -/
theorem Held.pick_handled (h : Held d ref r c) (hopen : c.isFinished = false) {x : Side}
    {p : JpcapPacket} (hx : SentBy d x p) (hsyn : p.syn = false)
    (hnew : (c.counter.get x).seq ≤ p.sequence) {now : Date} {t : Delivery}
    (hprocess : process now (p.detected d) c = .returned t) :
    Held d ref (r.step (.pick now p)) t.connection := by
  have hwf := step_wellFormed h.wellFormed (.pick now p)
  have hdetail : t.connection.connectionDetail = c.connectionDetail := by
    have hframe := (process_detail now (p.detected d) c).state
    rwa [hprocess] at hframe
  have hstep : r.step (.pick now p) = (r.pick now (TCPPacketImpl p)).state := rfl
  rw [hstep] at hwf ⊢
  cases hfinished : t.connection.isFinished with
  | false =>
    obtain ⟨hpick, hlive⟩ :=
      (h.live hopen).pick_processed hx hsyn hnew hopen hprocess hfinished
    rw [hpick]
    exact hlive.held hfinished
  | true =>
    obtain ⟨r', hpick, hactive, hderef⟩ :=
      (h.live hopen).pick_finished hx hsyn hnew hopen hprocess hfinished
    rw [hpick] at hwf ⊢
    exact ⟨hwf, by simpa [hfinished] using hactive, hderef, hdetail.trans h.detail⟩

/-- If the pick returns, then so did `process`. -/
theorem Held.pick_returned (h : Held d ref r c) (hopen : c.isFinished = false) {x : Side}
    {p : JpcapPacket} (hx : SentBy d x p) (hsyn : p.syn = false)
    (hnew : (c.counter.get x).seq ≤ p.sequence) {now : Date}
    (hreturned : (r.pick now (TCPPacketImpl p)).isReturned = true) :
    ∃ t, process now (p.detected d) c = .returned t ∧
      Held d ref (r.step (.pick now p)) t.connection := by
  rw [(h.live hopen).pick_eq hx hsyn hnew hopen] at hreturned
  cases hprocess : process now (p.detected d) c with
  | thrown e t =>
    rw [hprocess] at hreturned
    exact absurd hreturned (by simp)
  | returned t => exact ⟨t, rfl, h.pick_handled hopen hx hsyn hnew hprocess⟩

/-- A SYN that the filter accepts makes a live connection. -/
theorem live_opened {d : ConnectionDetail} {r : PacketReceiverImpl} (hwf : WellFormed r)
    {p : JpcapPacket} (hx : SentBy d .client p) (hsyn : p.syn = true) (hack : p.ack = false)
    (hfilter : r.filter.isAcceptable d = true) (now : Date) :
    ∃ r', r.pick now (TCPPacketImpl p) = .returned r' ∧
      Live d r.heap.length r' (synConnection now (TCPPacketImpl p)) := by
  obtain rfl : p.connectionDetail = d := hx
  have hsyn1 : (TCPPacketImpl p).isHandsShake1Packet = true := by
    simp [TCPPacket.isHandsShake1Packet, TCPPacketImpl, hsyn, hack]
  exact ⟨_, picked_iff.mp (.opened hsyn1 hfilter),
    hwf.open_active (c := synConnection now (TCPPacketImpl p)), HashMap.get_put_self _ _ _,
    deref_allocate_self r _, rfl⟩

/-- The SYN/ACK of a connection that waits for it. -/
theorem Live.pick_answered (h : Live d ref r c) {p : JpcapPacket} (hx : SentBy d .server p)
    (hsyn : p.syn = true) (hack : p.ack = true) (hstate : c.state = some .synSent)
    (hopen : c.isFinished = false) (hnew : c.counter.server.seq ≤ p.sequence)
    (hackNum : p.ackNum = c.counter.client.seq + 1) (now : Date) :
    ∃ r', r.pick now (TCPPacketImpl p) = .returned r' ∧ Live d ref r' ({ c with
      counter := (c.counter.update .server (p.detected d)).sequenceAddOne .client
      state := some .synReceived }.record c.state (p.detected d)) := by
  have hactive := h.get_active hx
  have hsyn1 : (TCPPacketImpl p).isHandsShake1Packet = false := by
    simp [TCPPacket.isHandsShake1Packet, TCPPacketImpl, hack]
  have hsyn2 : (TCPPacketImpl p).isHandsShake2Packet = true := by
    simp [TCPPacket.isHandsShake2Packet, TCPPacketImpl, hsyn, hack]
  have hnotOld : c.isOldPacket (p.detected d) = false := by
    unfold TCPConnectionImpl.isOldPacket
    rw [hx.side]
    exact decide_eq_false (Nat.not_lt.mpr hnew)
  have hignored : isIgnored ((TCPPacketImpl p).detectPacketFlowDirection c.connectionDetail) c =
      false := by
    rw [h.detail]
    show (c.isOldPacket (p.detected d) || (c.isFinished && _) ||
      (_ && c.state != some .synSent)) = false
    rw [hnotOld, hopen, hstate]
    simp
  have hanswer : c.processSyncAckPacket (p.detected d) = .returned ({ c with
      counter := (c.counter.update .server (p.detected d)).sequenceAddOne .client
      state := some .synReceived }.record c.state (p.detected d)) := by
    simp [TCPConnectionImpl.processSyncAckPacket, hackNum]
  have hpick : r.pick now (TCPPacketImpl p) = _ :=
    picked_iff.mp (.answered hsyn1 hactive h.deref hignored hsyn2)
  rw [h.detail] at hpick
  change _ = (c.processSyncAckPacket (p.detected d)).map (r.store ref) at hpick
  rw [hanswer] at hpick
  exact ⟨_, hpick, h.wellFormed.store h.deref rfl, h.active, deref_store_self h.deref, h.detail⟩

end Live

/-! ## `process` on a packet in order -/

section Process

variable {d : ConnectionDetail} {x : Side} {p : JpcapPacket} {c : TCPConnectionImpl}

/-- The connection after a data packet. -/
def dataTaken (now : Date) (p : TCPPacket) (c : TCPConnectionImpl) : TCPConnectionImpl :=
  ({ c with
    inputStream := c.streamsAfter now p ((c.ownStream p).appendedWith p.data)
    counter := c.counter.update p.side p }.record c.state p).updated now

theorem counter_dataTaken (hx : SentBy d x p) (now : Date) (c : TCPConnectionImpl) :
    (dataTaken now (p.detected d) c).counter.get x = (updateCounter (p.detected d)).1 := by
  rw [← hx.side]
  exact SequenceCounter.get_update ..

theorem counter_other_dataTaken (hx : SentBy d x p) (now : Date) (c : TCPConnectionImpl) :
    (dataTaken now (p.detected d) c).counter.get x.other = c.counter.get x.other := by
  rw [← hx.side]
  exact SequenceCounter.get_other_update ..

theorem inputStream_dataTaken (hx : SentBy d x p) (now : Date) (c : TCPConnectionImpl) :
    (dataTaken now (p.detected d) c).inputStream.get x =
      (c.ownStream (p.detected d)).appendedWith p.data := by
  rw [← hx.side]
  exact TCPConnectionImpl.get_streamsAfter ..

theorem inputStream_other_dataTaken (hx : SentBy d x p) (now : Date) (c : TCPConnectionImpl) :
    (dataTaken now (p.detected d) c).inputStream.get x.other =
      c.otherStream now (p.detected d) := by
  rw [← hx.side]
  exact TCPConnectionImpl.get_other_streamsAfter ..

theorem isCanProcessPacket_detected (hx : SentBy d x p) (hd : c.connectionDetail = d) :
    c.isCanProcessPacket (p.detected d) = .ok ((c.counter.get x).seq == p.sequence &&
      (!((p.detected d).isContainsData || p.rst || p.fin) ||
        (p.ackNum == (c.counter.get x).ack || p.ackNum == (c.counter.get x.other).seq))) := by
  have h := TCPConnectionImpl.isCanProcessPacket_eq (p := p.detected d) (c := c)
    (by rw [hd]; rfl) rfl
  rw [hx.side] at h
  exact h

/-- A data packet of an established connection, with room for the
payload. -/
theorem handlePacket_data (hx : SentBy d x p) (hdata : p.data ≠ []) (hrst : p.rst = false)
    (hfin : p.fin = false) (hstate : c.state = some .established)
    (hsane : (c.inputStream.get x).Sane) (hopen : (c.inputStream.get x).isFinished = false)
    (hroom : (c.inputStream.get x).hasRoom p.data) (now : Date)
    (drain : Delivery → Outcome Throwable Delivery) (n : Nat) :
    Delivery.handlePacket now drain (p.detected d) ⟨c, n⟩ =
      .returned ⟨dataTaken now (p.detected d) c, n⟩ := by
  have hcontains : (p.detected d).isContainsData = true := by simp [hdata]
  have hack : (p.detected d).ack = true →
      c.processAckPacket (p.detected d) = .returned c := by
    intro _
    simp [TCPConnectionImpl.processAckPacket, hstate]
  have happend : (c.ownStream (p.detected d)).append (p.detected d).data =
      .returned ((c.ownStream (p.detected d)).appendedWith (p.detected d).data) := by
    rw [← hx.side (d := d)] at hsane hopen hroom
    exact (TCPConnectionImpl.sane_ownStream hsane).append_eq (by simpa using hopen)
      (by simpa using hroom)
  have hprocess : c.processDataPacket now (p.detected d) = .returned { c with
      inputStream := c.streamsAfter now (p.detected d)
        ((c.ownStream (p.detected d)).appendedWith (p.detected d).data)
      counter := c.counter.update (p.detected d).side (p.detected d) } := by
    rw [TCPConnectionImpl.processDataPacket_eq, happend]
  simp only [Delivery.handlePacket, Delivery.deliver_of_idle now n hrst hfin hack, hcontains,
    if_true, hprocess, JpcapPacket.fin_detected, hfin, Bool.false_eq_true, if_false,
    Outcome.map_returned, Outcome.andThen_returned]
  rfl

/-- A data packet that starts at its sender's counter and acknowledges what
its sender acknowledged last, or all of the other side. -/
theorem process_data (hx : SentBy d x p) (hd : c.connectionDetail = d)
    (hseq : (c.counter.get x).seq = p.sequence)
    (hacks : p.ackNum = (c.counter.get x).ack ∨ p.ackNum = (c.counter.get x.other).seq)
    (hdata : p.data ≠ []) (hrst : p.rst = false) (hfin : p.fin = false)
    (hstate : c.state = some .established) (hsane : (c.inputStream.get x).Sane)
    (hopen : (c.inputStream.get x).isFinished = false)
    (hroom : (c.inputStream.get x).hasRoom p.data) (now : Date) :
    process now (p.detected d) c = .returned ⟨dataTaken now (p.detected d) c, 0⟩ := by
  have hcan : c.isCanProcessPacket (p.detected d) = .ok true := by
    rw [isCanProcessPacket_detected hx hd]
    simpa [hseq] using Or.inr hacks
  unfold process
  simp only [hcan]
  exact handlePacket_data hx hdata hrst hfin hstate hsane hopen hroom now _ 0

/-- A packet without payload, RST and FIN whose ACK does nothing. -/
theorem process_idle (hx : SentBy d x p) (hd : c.connectionDetail = d)
    (hseq : (c.counter.get x).seq = p.sequence) (hdata : p.data = []) (hrst : p.rst = false)
    (hfin : p.fin = false)
    (hack : p.ack = true → c.processAckPacket (p.detected d) = .returned c) (now : Date) :
    process now (p.detected d) c =
      .returned ⟨(c.record c.state (p.detected d)).updated now, 0⟩ := by
  have hcan : c.isCanProcessPacket (p.detected d) = .ok true := by
    rw [isCanProcessPacket_detected hx hd]
    simp [hseq, hdata, hrst, hfin]
  have hdeliver : Delivery.deliver now (p.detected d) ⟨c, 0⟩ =
      .returned ⟨c.record c.state (p.detected d), 0⟩ := by
    rw [Delivery.deliver_of_idle (p := p.detected d) now 0 hrst hfin hack]
    simp [hdata, Delivery.update]
  unfold process
  simp [hcan, Delivery.handlePacket, hdeliver, hfin, Delivery.update]

/-- With nothing buffered, a packet that can be processed is delivered, and
that is all. -/
theorem process_of_empty {q : TCPPacket} (hbuffer : c.packetsBuffer = ⟨[], []⟩)
    (hcan : c.isCanProcessPacket q = .ok true) (now : Date) :
    process now q c = (Delivery.deliver now q ⟨c, 0⟩).andThen fun t =>
      .returned (t.update (TCPConnectionImpl.updated now)) := by
  unfold process
  simp only [hcan]
  exact Delivery.handlePacket_of_buffered_eq_zero
    (congrArg PacketsBuffer.getPacketsCountInBuffer hbuffer)

/-- An ACK without payload that does not end the handshake, with or without
FIN. -/
theorem process_control (hx : SentBy d x p) (hd : c.connectionDetail = d)
    (hseq : (c.counter.get x).seq = p.sequence) (hdata : p.data = []) (hrst : p.rst = false)
    (hack : p.ack = true) (hacks : p.fin = true → p.ackNum = (c.counter.get x.other).seq)
    (hstate : c.state ≠ some .synReceived) {c' : TCPConnectionImpl}
    (hprocess : c.processAckPacket (p.detected d) = .returned c')
    (hbuffer : c.packetsBuffer = ⟨[], []⟩) (now : Date) :
    process now (p.detected d) c = .returned
      ⟨((if p.fin then c'.processFinishPacket now (p.detected d) else c').record c.state
        (p.detected d)).updated now, 0⟩ := by
  have hcan : c.isCanProcessPacket (p.detected d) = .ok true := by
    rw [isCanProcessPacket_detected hx hd]
    cases hfin : p.fin with
    | false => simp [hseq, hdata, hrst]
    | true => simp [hseq, hacks hfin]
  have hacknowledge : Delivery.acknowledge (p.detected d) ⟨c, 0⟩ = .returned ⟨c', 0⟩ := by
    simp [Delivery.acknowledge, hack, Delivery.apply, hprocess, hstate]
  have hdeliver : Delivery.deliver now (p.detected d) ⟨c, 0⟩ = .returned
      ⟨(if p.fin then c'.processFinishPacket now (p.detected d) else c').record c.state
        (p.detected d), 0⟩ := by
    cases hfin : p.fin <;>
      simp [Delivery.deliver, hrst, hacknowledge, hdata, hfin, Delivery.update]
  rw [process_of_empty hbuffer hcan, hdeliver]
  rfl

/-- The ACK of the handshake. -/
theorem process_handshake3 (hx : SentBy d .client p) (hd : c.connectionDetail = d)
    (hstate : c.state = some .synReceived) (hseq : c.counter.client.seq = p.sequence)
    (hdata : p.data = []) (hrst : p.rst = false) (hfin : p.fin = false) (hack : p.ack = true)
    (hackNum : p.ackNum = c.counter.server.seq + 1) (now : Date) :
    process now (p.detected d) c = .returned ⟨({ c with
      counter := (c.counter.update .client (p.detected d)).sequenceAddOne .server
      state := some .established }.record c.state (p.detected d)).updated now, 1⟩ := by
  have hcan : c.isCanProcessPacket (p.detected d) = .ok true := by
    rw [isCanProcessPacket_detected hx hd]
    simp [hseq, hdata, hrst, hfin]
  have hprocess : c.processAckPacket (p.detected d) = .returned { c with
      counter := (c.counter.update .client (p.detected d)).sequenceAddOne .server
      state := some .established } := by
    simp [TCPConnectionImpl.processAckPacket, TCPConnectionImpl.processHandshake3AckPacket,
      hstate, hackNum]
  have hacknowledge : Delivery.acknowledge (p.detected d) ⟨c, 0⟩ = .returned ⟨{ c with
      counter := (c.counter.update .client (p.detected d)).sequenceAddOne .server
      state := some .established }, 1⟩ := by
    simp [Delivery.acknowledge, hack, Delivery.apply, hprocess, hstate]
  have hdeliver : Delivery.deliver now (p.detected d) ⟨c, 0⟩ = .returned ⟨{ c with
      counter := (c.counter.update .client (p.detected d)).sequenceAddOne .server
      state := some .established }.record c.state (p.detected d), 1⟩ := by
    simp [Delivery.deliver, hrst, hacknowledge, hdata, hfin, Delivery.update]
  unfold process
  simp [hcan, Delivery.handlePacket, hdeliver, hfin, Delivery.update]

end Process

/-! ## A conversation in order -/

/-- What the packets captured so far say about a conversation. -/
structure Talk where
  /-- The next sequence number of each side. -/
  next : BySide Nat
  /-- What each side acknowledged with its last data packet. -/
  acked : BySide Nat

namespace Talk

/-- After the handshake. -/
def opened (isn : BySide Nat) : Talk where
  next := ⟨isn.client + 1, isn.server + 1⟩
  acked := ⟨isn.server + 1, isn.client + 1⟩

/-- After one more packet. -/
def after (t : Talk) (x : Side) (p : JpcapPacket) : Talk :=
  if p.data = [] then t
  else ⟨t.next.set x (t.next.get x + p.data.length), t.acked.set x p.ackNum⟩

end Talk

/-- An established connection that has nothing buffered and has seen the
packets of `t`. -/
structure Flowing (t : Talk) (c : TCPConnectionImpl) : Prop where
  state : c.state = some .established
  packetsBuffer : c.packetsBuffer = ⟨[], []⟩
  next : ∀ x, (c.counter.get x).seq = t.next.get x
  acked : ∀ x, (c.counter.get x).ack = t.acked.get x
  sane : ∀ x, (c.inputStream.get x).Sane
  is_open : ∀ x, (c.inputStream.get x).isFinished = false

namespace Flowing

variable {t : Talk} {c : TCPConnectionImpl} {d : ConnectionDetail} {x : Side} {p : JpcapPacket}

theorem isFinished (h : Flowing t c) : c.isFinished = false := by
  unfold TCPConnectionImpl.isFinished
  rw [show c.inputStream.client.isFinished = false from h.is_open .client]
  rfl

theorem sameButRead (h : Flowing t c) {c' : TCPConnectionImpl} (hc : SameButRead c c') :
    Flowing t c' := by
  obtain ⟨streams, rfl, hsame, hleaves⟩ := hc
  exact ⟨h.state, h.packetsBuffer, h.next, h.acked, fun x => (hleaves x (h.sane x)).1,
    fun x => (hsame.isFinished x).trans (h.is_open x)⟩

/-- A data packet in order. -/
theorem dataTaken (h : Flowing t c) (hx : SentBy d x p) (hseq : p.sequence = t.next.get x)
    (hdata : p.data ≠ []) (hroom : (c.inputStream.get x).hasRoom p.data) (now : Date) :
    Flowing (t.after x p) (dataTaken now (p.detected d) c) where
  state := h.state
  packetsBuffer := h.packetsBuffer
  next := by
    simp only [Talk.after, hdata, if_false]
    refine BySide.forall_side x ?_ ?_
    · rw [counter_dataTaken hx, updateCounter_seq, BySide.get_set, ← hseq]
      rfl
    · rw [counter_other_dataTaken hx, BySide.get_other_set]
      exact h.next _
  acked := by
    simp only [Talk.after, hdata, if_false]
    refine BySide.forall_side x ?_ ?_
    · rw [counter_dataTaken hx, updateCounter_ack, BySide.get_set]
      rfl
    · rw [counter_other_dataTaken hx, BySide.get_other_set]
      exact h.acked _
  sane := by
    refine BySide.forall_side x ?_ ?_
    · rw [inputStream_dataTaken hx]
      exact DynamicByteArrayInputStream.sane_appendedWith
        (TCPConnectionImpl.sane_ownStream (h.sane _))
        ((TCPConnectionImpl.hasRoom_ownStream ..).mpr (by rwa [hx.side]))
    · rw [inputStream_other_dataTaken hx]
      exact TCPConnectionImpl.sane_otherStream now (h.sane _)
  is_open := by
    refine BySide.forall_side x ?_ ?_
    · rw [inputStream_dataTaken hx]
      exact (TCPConnectionImpl.isFinished_ownStream _ c).trans (h.is_open _)
    · rw [inputStream_other_dataTaken hx, TCPConnectionImpl.isFinished_otherStream]
      exact h.is_open _

/-- A packet without payload changes nothing that counts. -/
theorem idle (h : Flowing t c) (now : Date) (q : TCPPacket) :
    Flowing t ((c.record c.state q).updated now) :=
  ⟨h.state, h.packetsBuffer, h.next, h.acked, h.sane, h.is_open⟩

end Flowing

/-- A packet of `x` without SYN, RST and FIN that comes next.  With payload,
it acknowledges what its sender acknowledged last, or all of the other
side. -/
structure Talk.Admits (t : Talk) (x : Side) (p : JpcapPacket) : Prop where
  syn : p.syn = false
  rst : p.rst = false
  fin : p.fin = false
  sequence : p.sequence = t.next.get x
  ackNum : p.data ≠ [] → p.ackNum = t.acked.get x ∨ p.ackNum = t.next.get x.other

/-- A packet in order is processed at once. -/
theorem pick_inOrder {d : ConnectionDetail} {ref : Ref} {r : PacketReceiverImpl}
    {c : TCPConnectionImpl} {t : Talk} {x : Side} {p : JpcapPacket} (hlive : Live d ref r c)
    (h : Flowing t c) (hx : SentBy d x p) (hp : t.Admits x p)
    (hroom : (c.inputStream.get x).hasRoom p.data) (now : Date) :
    ∃ r' c', r.pick now (TCPPacketImpl p) = .returned r' ∧ Live d ref r' c' ∧
      Flowing (t.after x p) c' ∧
      (c'.inputStream.get x).appended = (c.inputStream.get x).appended ++ p.data ∧
      (c'.inputStream.get x.other).appended = (c.inputStream.get x.other).appended := by
  have hseq : (c.counter.get x).seq = p.sequence := (h.next x).trans hp.sequence.symm
  by_cases hdata : p.data = []
  · have hack : p.ack = true → c.processAckPacket (p.detected d) = .returned c := by
      intro _
      simp [TCPConnectionImpl.processAckPacket, h.state]
    obtain ⟨hpick, hlive'⟩ := hlive.pick_processed hx hp.syn hseq.le h.isFinished
      (process_idle hx hlive.detail hseq hdata hp.rst hp.fin hack now)
      (h.idle now _).isFinished
    refine ⟨_, _, hpick, hlive', ?_, ?_, rfl⟩
    · rw [Talk.after, if_pos hdata]
      exact h.idle now _
    · rw [hdata, List.append_nil]
      rfl
  · have hacks : p.ackNum = (c.counter.get x).ack ∨ p.ackNum = (c.counter.get x.other).seq := by
      rw [h.acked, h.next]
      exact hp.ackNum hdata
    have htaken := h.dataTaken hx hp.sequence hdata hroom now
    obtain ⟨hpick, hlive'⟩ := hlive.pick_processed hx hp.syn hseq.le h.isFinished
      (process_data hx hlive.detail hseq hacks hdata hp.rst hp.fin h.state (h.sane x)
        (h.is_open x) hroom now) htaken.isFinished
    refine ⟨_, _, hpick, hlive', htaken, ?_, ?_⟩
    · rw [inputStream_dataTaken hx]
      show (c.ownStream (p.detected d)).appended ++ p.data = _
      rw [TCPConnectionImpl.appended_ownStream, hx.side]
    · rw [inputStream_other_dataTaken hx, TCPConnectionImpl.appended_otherStream, hx.side]

/-! ## The handshake -/

/-- The three packets of a handshake without payload.  `next` are the
numbers they give for the first byte behind the SYN of each side. -/
structure IsHandshake (d : ConnectionDetail) (isn next : BySide Nat)
    (syn synAck ack : JpcapPacket) : Prop where
  syn_sent : SentBy d .client syn
  syn_flags : syn.syn = true ∧ syn.ack = false
  syn_sequence : syn.sequence = isn.client
  syn_data : syn.data = []
  synAck_sent : SentBy d .server synAck
  synAck_flags : synAck.syn = true ∧ synAck.ack = true
  synAck_sequence : synAck.sequence = isn.server
  synAck_ackNum : synAck.ackNum = next.client
  synAck_data : synAck.data = []
  ack_sent : SentBy d .client ack
  ack_flags : ack.syn = false ∧ ack.ack = true ∧ ack.rst = false ∧ ack.fin = false
  ack_sequence : ack.sequence = next.client
  ack_ackNum : ack.ackNum = next.server
  ack_data : ack.data = []

/-- The two fresh streams of a connection made at `now`. -/
def freshStreams (now : Date) : BySide DynamicByteArrayInputStream :=
  ⟨{ currentStreamStartTime := now }, { currentStreamStartTime := now }⟩

/-- A handshake makes a live connection. -/
theorem handshake_live {d : ConnectionDetail} {isn : BySide Nat} {r : PacketReceiverImpl}
    {syn synAck ack : JpcapPacket} (h : IsHandshake d isn (Talk.opened isn).next syn synAck ack) (hwf : WellFormed r)
    (hfilter : r.filter.isAcceptable d = true) (now now' now'' : Date) :
    ∃ r₁ r₂ r₃ c, r.pick now (TCPPacketImpl syn) = .returned r₁ ∧
      r₁.pick now' (TCPPacketImpl synAck) = .returned r₂ ∧
      r₂.pick now'' (TCPPacketImpl ack) = .returned r₃ ∧
      Live d r.heap.length r₃ c ∧ Flowing (Talk.opened isn) c ∧
      c.inputStream = freshStreams now := by
  obtain ⟨r₁, hpick₁, hlive₁⟩ :=
    live_opened hwf h.syn_sent h.syn_flags.1 h.syn_flags.2 hfilter now
  have hclient : (synConnection now (TCPPacketImpl syn)).counter.client.seq = isn.client := by
    show (updateCounter (TCPPacketImpl syn)).1.seq = _
    rw [updateCounter_seq]
    show syn.sequence + syn.data.length = _
    rw [h.syn_data, h.syn_sequence]
    rfl
  obtain ⟨r₂, hpick₂, hlive₂⟩ := hlive₁.pick_answered h.synAck_sent h.synAck_flags.1
    h.synAck_flags.2 rfl rfl (Nat.zero_le _) (by rw [hclient]; exact h.synAck_ackNum) now'
  have hserver : (updateCounter (synAck.detected d)).1.seq = isn.server := by
    rw [updateCounter_seq]
    show synAck.sequence + synAck.data.length = _
    rw [h.synAck_data, h.synAck_sequence]
    rfl
  obtain ⟨hsyn, hack, hrst, hfin⟩ := h.ack_flags
  have hseq : (synConnection now (TCPPacketImpl syn)).counter.client.seq + 1 = ack.sequence := by
    rw [hclient, h.ack_sequence]
    rfl
  obtain ⟨hpick₃, hlive₃⟩ := hlive₂.pick_processed h.ack_sent hsyn hseq.le rfl
    (process_handshake3 h.ack_sent hlive₂.detail rfl hseq h.ack_data hrst hfin hack
      (h.ack_ackNum.trans (congrArg (· + 1) hserver.symm)) now'') rfl
  refine ⟨r₁, r₂, _, _, hpick₁, hpick₂, hpick₃, hlive₃, ⟨rfl, rfl, ?_, ?_, ?_, ?_⟩, rfl⟩
  · intro x
    cases x with
    | client =>
      show (updateCounter (ack.detected d)).1.seq = _
      rw [updateCounter_seq]
      show ack.sequence + ack.data.length = isn.client + 1
      rw [h.ack_data, h.ack_sequence]
      rfl
    | server => exact congrArg (· + 1) hserver
  · intro x
    cases x with
    | client => exact h.ack_ackNum
    | server => exact h.synAck_ackNum
  · intro x
    cases x <;> exact DynamicByteArrayInputStream.sane_create now
  · intro x
    cases x <;> rfl

/-- The calls of a handshake. -/
def handshakeCalls (syn synAck ack : JpcapPacket) (now now' now'' : Date) : List Call :=
  [.pick now syn, .pick now' synAck, .pick now'' ack]

/-- The run of a handshake. -/
theorem handshake_run {d : ConnectionDetail} {isn : BySide Nat} {r : PacketReceiverImpl}
    {syn synAck ack : JpcapPacket}
    (h : IsHandshake d isn (Talk.opened isn).next syn synAck ack) (hwf : WellFormed r)
    (hfilter : r.filter.isAcceptable d = true) (now now' now'' : Date) :
    Run.Along step (fun r call => (r.call call).isReturned = true) r
        (handshakeCalls syn synAck ack now now' now'') ∧
      ∃ c, Live d r.heap.length (Run.after step r (handshakeCalls syn synAck ack now now' now'')) c ∧
        Flowing (Talk.opened isn) c ∧ c.inputStream = freshStreams now := by
  obtain ⟨r₁, r₂, r₃, c, hpick₁, hpick₂, hpick₃, hlive, hflow, hfresh⟩ :=
    handshake_live h hwf hfilter now now' now''
  have hafter : Run.after step r (handshakeCalls syn synAck ack now now' now'') = r₃ := by
    simp [handshakeCalls, step, call, hpick₁, hpick₂, hpick₃]
  refine ⟨by simp [handshakeCalls, step, call, hpick₁, hpick₂, hpick₃], c, ?_, hflow, hfresh⟩
  rw [hafter]
  exact hlive

end PacketReceiverImpl

end ConnectionSniffer
