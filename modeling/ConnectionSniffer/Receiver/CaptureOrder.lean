import ConnectionSniffer.Library.Reorder
import ConnectionSniffer.Receiver.InOrder
import ConnectionSniffer.Receiver.Streams
import Mathlib.Tactic.IntervalCases

/-!
# Segments captured out of order

One side sends a transfer in segments, and they are captured in any order.
`Reordering` relates the connection to a `Reorder`, the abstract buffer
that puts numbered pieces back in order: the stream holds the segments
before `expected`, the packet buffer holds those in `pending`.

* `Reordering.release`: the drain of the packet buffer is
  `Reorder.release`.
* `Reordering.process`: `process` on a segment is `Reorder.capture`.
* `reordering_run`: a run is a sequence of captures.

Like the abstract buffer, `pick` handles a packet that can be processed
without draining the buffer.  `capture_order` says for which orders the
whole transfer arrives all the same.
-/

namespace ConnectionSniffer

namespace PacketReceiverImpl

/-! ## Transfers -/

/-- The bytes of the first `n` segments. -/
def transfer (segment : Nat → JpcapPacket) (n : Nat) : List UInt8 :=
  (List.range n).flatMap fun i => (segment i).data

@[simp] theorem transfer_zero (segment : Nat → JpcapPacket) : transfer segment 0 = [] := rfl

theorem transfer_succ (segment : Nat → JpcapPacket) (n : Nat) :
    transfer segment (n + 1) = transfer segment n ++ (segment n).data := by
  simp [transfer, List.range_succ]

/-- Segment `i` of a transfer that side `x` of `c` sends: it starts where
the segments before it end, and it acknowledges all of the other side. -/
structure IsSegment (c : TCPConnectionImpl) (x : Side) (segment : Nat → JpcapPacket) (i : Nat) :
    Prop where
  sent : SentBy c.connectionDetail x (segment i)
  syn : (segment i).syn = false
  rst : (segment i).rst = false
  fin : (segment i).fin = false
  sequence : (segment i).sequence = (c.counter.get x).seq + (transfer segment i).length
  ackNum : (segment i).ackNum = (c.counter.get x.other).seq
  data : (segment i).data ≠ []

/-- A transfer in at most `200` segments that fits into the stream. -/
structure IsTransfer (c : TCPConnectionImpl) (x : Side) (segment : Nat → JpcapPacket) (n : Nat) :
    Prop where
  segments : ∀ i < n, IsSegment c x segment i
  few : n ≤ MAX_PACKETS_IN_BUFFER
  room : (c.inputStream.get x).hasRoom (transfer segment n)

namespace IsTransfer

variable {base : TCPConnectionImpl} {x : Side} {segment : Nat → JpcapPacket} {n : Nat}

theorem length_lt (h : IsTransfer base x segment n) {i j : Nat} (hij : i < j) (hj : j ≤ n) :
    (transfer segment i).length < (transfer segment j).length := by
  induction j, hij using Nat.le_induction with
  | base =>
    have := List.length_pos_iff.mpr (h.segments i (by omega)).data
    rw [transfer_succ, List.length_append]
    omega
  | succ j hij ih =>
    have := ih (by omega)
    rw [transfer_succ, List.length_append]
    omega

theorem length_le (h : IsTransfer base x segment n) {i : Nat} (hi : i ≤ n) :
    (transfer segment i).length ≤ (transfer segment n).length := by
  rcases Nat.eq_or_lt_of_le hi with rfl | hlt
  · exact le_rfl
  · exact (h.length_lt hlt le_rfl).le

/-- The comparator of the packet buffer orders the segments by their
numbers: two of them are less than `2 ^ 31` apart. -/
theorem compareTo_eq (h : IsTransfer base x segment n) {i j : Nat} (hi : i < n) (hj : j < n)
    (d : ConnectionDetail) :
    TCPPacket.compareTo ((segment j).detected d) ((segment i).detected d) =
      ((transfer segment j).length : Int) - (transfer segment i).length := by
  have hroom : ((base.inputStream.get x).unread ++ transfer segment n).length ≤
      (2000 * 1024 : Int) := h.room
  have hi' := h.length_le hi.le
  have hj' := h.length_le hj.le
  rw [List.length_append] at hroom
  unfold TCPPacket.compareTo
  rw [JpcapPacket.sequence_detected, JpcapPacket.sequence_detected, (h.segments i hi).sequence,
    (h.segments j hj).sequence]
  push_cast at hroom ⊢
  rw [show ((base.counter.get x).seq : Int) + (transfer segment j).length -
      ((base.counter.get x).seq + (transfer segment i).length) =
      (transfer segment j).length - (transfer segment i).length by omega]
  exact Int.bmod_eq_of_le (by omega) (by omega)

/-- Buffering a segment is ordered insertion. -/
theorem add_segment (h : IsTransfer base x segment n) {j : Nat} {pending : List Nat}
    (hj : j < n) (hnot : j ∉ pending) (hpending : ∀ i ∈ pending, i < n) (d : ConnectionDetail) :
    TreeSet.add TCPPacket.compareTo ((segment j).detected d)
        (pending.map fun i => (segment i).detected d) =
      (pending.orderedInsert (· ≤ ·) j).map fun i => (segment i).detected d := by
  refine TreeSet.add_map TCPPacket.compareTo (f := fun i => (segment i).detected d) hnot ?_ ?_
  · intro i hi
    rw [h.compareTo_eq (hpending i hi) hj d]
    constructor
    · intro hlt
      by_contra hle
      rcases Nat.eq_or_lt_of_le (Nat.not_lt.mp hle) with rfl | hij
      · omega
      · have := h.length_lt hij hj.le
        omega
    · intro hji
      have := h.length_lt hji (hpending i hi).le
      omega
  · intro i hi
    rw [h.compareTo_eq (hpending i hi) hj d]
    constructor
    · intro heq
      rcases Nat.lt_trichotomy j i with hlt | heq' | hgt
      · have := h.length_lt hlt (hpending i hi).le
        omega
      · exact heq'
      · have := h.length_lt hgt hj.le
        omega
    · rintro rfl
      omega

theorem room_segment (h : IsTransfer base x segment n) {s : DynamicByteArrayInputStream} {i : Nat}
    (hi : i < n) (hs : s.unread.length ≤
      (base.inputStream.get x).unread.length + (transfer segment i).length) :
    s.hasRoom (segment i).data := by
  have hroom : ((base.inputStream.get x).unread ++ transfer segment n).length ≤
      MAX_BUFFER_SIZE := h.room
  have hle := h.length_le (Nat.succ_le_of_lt hi)
  rw [transfer_succ, List.length_append] at hle
  unfold DynamicByteArrayInputStream.hasRoom
  rw [List.length_append] at hroom ⊢
  push_cast at hroom ⊢
  omega

end IsTransfer

/-! ## The connection and the abstract buffer -/

/-- Since `base`, side `x` of the connection has taken the segments before
`s.expected`, and those in `s.pending` are in the packet buffer. -/
structure Reordering (base : TCPConnectionImpl) (x : Side) (segment : Nat → JpcapPacket)
    (s : Reorder) (c : TCPConnectionImpl) : Prop where
  state : c.state = some .established
  detail : c.connectionDetail = base.connectionDetail
  seq : (c.counter.get x).seq = (base.counter.get x).seq + (transfer segment s.expected).length
  other_seq : (c.counter.get x.other).seq = (base.counter.get x.other).seq
  buffer : c.packetsBuffer.get x =
    s.pending.map fun i => (segment i).detected base.connectionDetail
  other_buffer : c.packetsBuffer.get x.other = []
  sane : (c.inputStream.get x).Sane
  is_open : (c.inputStream.get x).isFinished = false
  unread : (c.inputStream.get x).unread.length ≤
    (base.inputStream.get x).unread.length + (transfer segment s.expected).length
  appended : (c.inputStream.get x).appended =
    (base.inputStream.get x).appended ++ transfer segment s.expected

namespace Reordering

variable {base c : TCPConnectionImpl} {x : Side} {segment : Nat → JpcapPacket} {n e : Nat}
  {pending : List Nat}

theorem isFinished {s : Reorder} (h : Reordering base x segment s c) : c.isFinished = false := by
  have hopen := h.is_open
  unfold TCPConnectionImpl.isFinished
  cases x <;> simp only [BySide.get_client, BySide.get_server] at hopen <;> simp [hopen]

/-- Reading leaves the segments where they are. -/
theorem sameButRead {s : Reorder} (h : Reordering base x segment s c) {c' : TCPConnectionImpl}
    (hc : SameButRead c c') : Reordering base x segment s c' := by
  obtain ⟨streams, rfl, hsame, hleaves⟩ := hc
  obtain ⟨hsane, hsuffix⟩ := hleaves x h.sane
  exact { h with
    sane := hsane
    is_open := (hsame.isFinished x).trans h.is_open
    unread := hsuffix.length_le.trans h.unread
    appended := (hsame.appended x).trans h.appended }

/-- The next segment can be processed, a later one cannot and is not old
either. -/
theorem isCanProcessPacket (ht : IsTransfer base x segment n)
    (h : Reordering base x segment ⟨e, pending⟩ c) {i : Nat} (hi : i < n) (hle : e ≤ i) :
    c.isCanProcessPacket ((segment i).detected base.connectionDetail) = .ok (decide (i = e)) ∧
      c.isOldPacket ((segment i).detected base.connectionDetail) = false := by
  have hseg := ht.segments i hi
  have hseq : (c.counter.get x).seq = (base.counter.get x).seq + (transfer segment e).length :=
    h.seq
  have hlen : (transfer segment e).length ≤ (transfer segment i).length := by
    rcases Nat.eq_or_lt_of_le hle with rfl | hlt
    · exact le_rfl
    · exact (ht.length_lt hlt hi.le).le
  constructor
  · rw [isCanProcessPacket_detected hseg.sent h.detail, hseq, h.other_seq, hseg.sequence,
      hseg.ackNum]
    rcases Nat.eq_or_lt_of_le hle with rfl | hlt
    · simp
    · have := ht.length_lt hlt hi.le
      have hne : (transfer segment e).length ≠ (transfer segment i).length := by omega
      simp [hne, Nat.ne_of_gt hlt]
  · unfold TCPConnectionImpl.isOldPacket
    rw [hseg.sent.side, JpcapPacket.sequence_detected, hseg.sequence, hseq]
    exact decide_eq_false (by omega)

/-- The next segment is taken. -/
theorem dataTaken (ht : IsTransfer base x segment n)
    (h : Reordering base x segment ⟨e, pending⟩ c) (he : e < n) (now : Date) :
    Reordering base x segment ⟨e + 1, pending⟩
      (dataTaken now ((segment e).detected base.connectionDetail) c) := by
  have hseg := ht.segments e he
  have happ := inputStream_dataTaken hseg.sent now c
  exact
    { state := h.state
      detail := h.detail
      seq := by
        rw [counter_dataTaken hseg.sent, updateCounter_seq, JpcapPacket.sequence_detected,
          JpcapPacket.data_detected, hseg.sequence, transfer_succ, List.length_append]
        omega
      other_seq := by
        rw [counter_other_dataTaken hseg.sent]
        exact h.other_seq
      buffer := h.buffer
      other_buffer := h.other_buffer
      sane := by
        rw [happ]
        refine DynamicByteArrayInputStream.sane_appendedWith
          (TCPConnectionImpl.sane_ownStream ?_) ?_
        · rw [hseg.sent.side]
          exact h.sane
        · rw [TCPConnectionImpl.hasRoom_ownStream, hseg.sent.side]
          exact ht.room_segment he h.unread
      is_open := by
        rw [happ]
        show (c.ownStream _).isFinished = false
        rw [TCPConnectionImpl.isFinished_ownStream, hseg.sent.side]
        exact h.is_open
      unread := by
        have hunread : (c.inputStream.get x).unread.length ≤
          (base.inputStream.get x).unread.length + (transfer segment e).length := h.unread
        rw [happ, DynamicByteArrayInputStream.unread_appendedWith,
          TCPConnectionImpl.unread_ownStream, hseg.sent.side, transfer_succ, List.length_append,
          List.length_append]
        omega
      appended := by
        have happended : (c.inputStream.get x).appended =
          (base.inputStream.get x).appended ++ transfer segment e := h.appended
        rw [happ]
        show (c.ownStream _).appended ++ (segment e).data = _
        rw [TCPConnectionImpl.appended_ownStream, hseg.sent.side, happended, transfer_succ,
          List.append_assoc] }

theorem setBuffer {s : Reorder} (h : Reordering base x segment s c) (pending : List Nat) :
    Reordering base x segment ⟨s.expected, pending⟩
      (c.setBuffer x (pending.map fun i => (segment i).detected base.connectionDetail)) :=
  { h with
    buffer := by simp
    other_buffer := by simpa using h.other_buffer }

/-- What `pickupPacket` finds: the front segment, if it is the next one. -/
theorem pickupPacket_cons (ht : IsTransfer base x segment n) {i : Nat} {rest : List Nat}
    (h : Reordering base x segment ⟨e, i :: rest⟩ c) (hi : i < n) (hle : e ≤ i) :
    c.pickupPacket =
      if i = e then
        .returned (some ((segment i).detected base.connectionDetail),
          c.setBuffer x (rest.map fun i => (segment i).detected base.connectionDetail))
      else .returned (none, c) := by
  obtain ⟨hcan, hold⟩ := h.isCanProcessPacket ht hi hle
  have hbuffer : c.packetsBuffer.get x = (segment i).detected base.connectionDetail ::
      rest.map fun i => (segment i).detected base.connectionDetail := h.buffer
  have hset := c.setBuffer_get x
  rw [hbuffer] at hset
  rw [TCPConnectionImpl.pickupPacket_eq h.other_buffer, TCPConnectionImpl.pickupFrom, hbuffer,
    TCPConnectionImpl.pickupBuffer, hcan]
  by_cases hie : i = e
  · rw [if_pos hie, decide_eq_true hie]
    rfl
  · rw [if_neg hie, decide_eq_false hie, hold]
    simp only [Bool.false_eq_true, if_false, Outcome.map_returned, hset]

/-- The drain is `Reorder.release`. -/
theorem release (ht : IsTransfer base x segment n) {l : List Nat} (hl : l.Pairwise (· < ·))
    (hmem : ∀ i ∈ l, e ≤ i ∧ i < n) (h : Reordering base x segment ⟨e, l⟩ c) (now : Date)
    (m : Nat) :
    ∃ c', Delivery.tryToProcessPacketsInBuffer now ⟨c, m⟩ = .returned ⟨c', m⟩ ∧
      Reordering base x segment (Reorder.release e l) c' := by
  -- every segment that the drain takes is one less in the buffer
  induction l generalizing e c with
  | nil =>
    refine ⟨c, ?_, h⟩
    rw [Delivery.tryToProcessPacketsInBuffer_eq, TCPConnectionImpl.pickupPacket_eq h.other_buffer,
      TCPConnectionImpl.pickupFrom_of_nil h.buffer]
  | cons i rest ih =>
    obtain ⟨hi, hrest⟩ := List.pairwise_cons.mp hl
    obtain ⟨hle, hlt⟩ := hmem i (by simp)
    rw [Delivery.tryToProcessPacketsInBuffer_eq, h.pickupPacket_cons ht hlt hle]
    unfold Reorder.release
    by_cases hie : i = e
    · subst hie
      have hset : Reordering base x segment ⟨i, rest⟩ _ := h.setBuffer rest
      have hseg := ht.segments i hlt
      have hhandle := handlePacket_data hseg.sent hseg.data hseg.rst hseg.fin hset.state hset.sane
        hset.is_open (ht.room_segment hlt hset.unread) now
        (Delivery.tryToProcessPacketsInBuffer now) m
      obtain ⟨c', hdrain, h'⟩ := ih hrest (e := i + 1) (fun j hj => by
        have := hi j hj
        have := (hmem j (by simp [hj])).2
        omega) (hset.dataTaken ht hlt now)
      rw [if_pos rfl, if_pos rfl]
      refine ⟨c', ?_, h'⟩
      dsimp only
      rw [hhandle, Outcome.andThen_returned, hdrain]
    · rw [if_neg hie, if_neg hie]
      exact ⟨c, rfl, h⟩

/-- A segment that is new is captured. -/
theorem process (ht : IsTransfer base x segment n)
    (h : Reordering base x segment ⟨e, pending⟩ c) (hasc : pending.Pairwise (· < ·))
    (hmem : ∀ i ∈ pending, e ≤ i ∧ i < n) {j : Nat} (hj : j < n)
    (hle : e ≤ j) (hnot : j ∉ pending) (now : Date) :
    ∃ c', PacketReceiverImpl.process now ((segment j).detected base.connectionDetail) c =
        .returned ⟨c', 0⟩ ∧ Reordering base x segment (Reorder.capture ⟨e, pending⟩ j) c' := by
  have hseg := ht.segments j hj
  unfold PacketReceiverImpl.process Reorder.capture
  rw [(h.isCanProcessPacket ht hj hle).1]
  by_cases hje : j = e
  · subst hje
    rw [if_pos rfl, decide_eq_true rfl]
    refine ⟨_, ?_, h.dataTaken ht hj now⟩
    exact handlePacket_data hseg.sent hseg.data hseg.rst hseg.fin h.state h.sane h.is_open
      (ht.room_segment hj h.unread) now _ 0
  · have hnodup : (j :: pending).Nodup := List.nodup_cons.mpr ⟨hnot, hasc.imp Nat.ne_of_lt⟩
    have hlength : (j :: pending).length ≤ (List.range n).length := by
      refine (List.subperm_of_subset hnodup ?_).length_le
      intro i hi
      rcases List.mem_cons.mp hi with rfl | hi
      · exact List.mem_range.mpr hj
      · exact List.mem_range.mpr (hmem i hi).2
    have hfree : ¬ MAX_PACKETS_IN_BUFFER ≤ (c.packetsBuffer.get x).length := by
      have hfew := ht.few
      rw [List.length_range, List.length_cons] at hlength
      rw [h.buffer, List.length_map]
      show ¬ MAX_PACKETS_IN_BUFFER ≤ pending.length
      omega
    have hbuffered : Reordering base x segment ⟨e, pending.orderedInsert (· ≤ ·) j⟩ _ :=
      h.setBuffer (pending.orderedInsert (· ≤ ·) j)
    obtain ⟨c', hdrain, h'⟩ := hbuffered.release ht
      (Reorder.ascending_orderedInsert hasc hnot) (fun i hi => by
        rcases (List.mem_orderedInsert _).mp hi with rfl | hi
        · exact ⟨hle, hj⟩
        · exact hmem i hi) now 0
    rw [if_neg hje, decide_eq_false hje, hseg.sent.side]
    refine ⟨c', ?_, h'⟩
    dsimp only
    rw [PacketsBuffer.addToTemporaryStoredDataPackets, if_neg hfree, h.buffer,
      ht.add_segment hj hnot (fun i hi => (hmem i hi).2)]
    exact hdrain

end Reordering

/-! ## Runs -/

/-- The packet of the pair of `d` that the call picks. -/
def ownPacket (d : ConnectionDetail) : Call → Option JpcapPacket
  | .pick _ p => if p.connectionDetail == d then some p else none
  | _ => none

theorem foreign_of_ownPacket {d : ConnectionDetail} {call : Call} (h : ownPacket d call = none) :
    Foreign d call := by
  cases call with
  | pick now p =>
    cases hpair : p.connectionDetail == d with
    | true => simp [ownPacket, hpair] at h
    | false => exact hpair
  | poll => trivial
  | read ref x => trivial
  | readInto ref x bLength off len => trivial

theorem eq_pick_of_ownPacket {d : ConnectionDetail} {call : Call} {p : JpcapPacket}
    (h : ownPacket d call = some p) : ∃ now, call = .pick now p := by
  cases call with
  | pick now q =>
    simp only [ownPacket, Option.ite_none_right_eq_some, Option.some.injEq] at h
    exact ⟨now, by rw [h.2]⟩
  | poll => simp [ownPacket] at h
  | read ref x => simp [ownPacket] at h
  | readInto ref x bLength off len => simp [ownPacket] at h

section Runs

variable {base : TCPConnectionImpl} {x : Side} {segment : Nat → JpcapPacket} {n : Nat} {ref : Ref}

/-- One capture. -/
theorem reordering_step (ht : IsTransfer base x segment n) {r : PacketReceiverImpl}
    {c : TCPConnectionImpl} {s : Reorder} {captured : List Nat}
    (hlive : Live base.connectionDetail ref r c) (h : Reordering base x segment s c)
    (hreceived : Reorder.Received captured s) (hcaptured : ∀ i ∈ captured, i < n) {j : Nat}
    (hj : j < n) (hnot : j ∉ captured) (now : Date) :
    ∃ c', Live base.connectionDetail ref (step r (.pick now (segment j))) c' ∧
      Reordering base x segment (s.capture j) c' := by
  have hseg := ht.segments j hj
  have hle : s.expected ≤ j := by
    by_contra hlt
    exact hnot (hreceived.taken j (by omega))
  have hmem : ∀ i ∈ s.pending, s.expected ≤ i ∧ i < n := by
    intro i hi
    obtain ⟨hi, hexpected⟩ := (hreceived.mem_pending i).mp hi
    exact ⟨hexpected, hcaptured i hi⟩
  obtain ⟨c', hprocess, h'⟩ := h.process ht hreceived.ascending hmem hj hle
    (fun hp => hnot ((hreceived.mem_pending j).mp hp).1) now
  have hnew : (c.counter.get x).seq ≤ (segment j).sequence := by
    have hold := (h.isCanProcessPacket ht hj hle).2
    unfold TCPConnectionImpl.isOldPacket at hold
    rw [hseg.sent.side] at hold
    exact Nat.not_lt.mp (of_decide_eq_false hold)
  obtain ⟨hpick, hlive'⟩ :=
    hlive.pick_processed hseg.sent hseg.syn hnew h.isFinished hprocess h'.isFinished
  refine ⟨c', ?_, h'⟩
  show Live _ ref (r.pick now (TCPPacketImpl (segment j))).state c'
  rw [hpick]
  exact hlive'

/-- A run in which the segments of `order` are captured. -/
theorem reordering_run (ht : IsTransfer base x segment n) {calls : List Call}
    {r : PacketReceiverImpl} {c : TCPConnectionImpl} {s : Reorder} {order captured : List Nat}
    (hlive : Live base.connectionDetail ref r c) (h : Reordering base x segment s c)
    (hreceived : Reorder.Received captured s) (hcaptured : ∀ i ∈ captured, i < n)
    (hcalls : calls.filterMap (ownPacket base.connectionDetail) = order.map segment)
    (horder : ∀ i ∈ order, i < n) (hnodup : (order ++ captured).Nodup) :
    ∃ s' c', Live base.connectionDetail ref (Run.after step r calls) c' ∧
      Reordering base x segment s' c' ∧ Reorder.Received (order.reverse ++ captured) s' := by
  induction calls generalizing r c s order captured with
  | nil =>
    obtain rfl : order = [] := by simpa using hcalls.symm
    exact ⟨s, c, hlive, h, hreceived⟩
  | cons call calls ih =>
    cases hown : ownPacket base.connectionDetail call with
    | none =>
      rw [List.filterMap_cons_none hown] at hcalls
      obtain ⟨c', hlive', hread⟩ := hlive.step_other (foreign_of_ownPacket hown)
      exact ih hlive' (h.sameButRead hread) hreceived hcaptured hcalls horder hnodup
    | some p =>
      rw [List.filterMap_cons_some hown] at hcalls
      obtain ⟨j, rest, rfl⟩ : ∃ j rest, order = j :: rest := by
        cases order with
        | nil => simp at hcalls
        | cons j rest => exact ⟨j, rest, rfl⟩
      rw [List.map_cons, List.cons.injEq] at hcalls
      obtain ⟨now, rfl⟩ := eq_pick_of_ownPacket hown
      obtain ⟨rfl, hrest⟩ := hcalls
      have hj : j < n := horder j (by simp)
      have hnot : j ∉ captured := fun hj =>
        (List.nodup_append.mp hnodup).2.2 j (by simp) j hj rfl
      obtain ⟨c', hlive', h'⟩ := reordering_step ht hlive h hreceived hcaptured hj hnot now
      have hperm : (j :: rest ++ captured).Perm (rest ++ j :: captured) := List.perm_middle.symm
      obtain ⟨s'', c'', hlive'', h'', hreceived''⟩ := ih hlive' h' (hreceived.capture hnot)
        (by simpa [hj] using hcaptured) hrest (fun i hi => horder i (by simp [hi]))
        (hperm.nodup_iff.mp hnodup)
      exact ⟨s'', c'', hlive'', h'', by simpa using hreceived''⟩

end Runs

/-! ## Capture order -/

/-- The connection is established, nothing waits in its buffers, and side `x`
has not finished its stream. -/
structure IsIdle (c : TCPConnectionImpl) (x : Side) : Prop where
  state : c.state = some .established
  packetsBuffer : c.packetsBuffer = ⟨[], []⟩
  is_open : (c.inputStream.get x).isFinished = false

/-- The abstract buffer of an idle connection is empty. -/
theorem IsIdle.reordering {c : TCPConnectionImpl} {x : Side} (h : IsIdle c x)
    (hsane : (c.inputStream.get x).Sane) (segment : Nat → JpcapPacket) :
    Reordering c x segment {} c where
  state := h.state
  detail := rfl
  seq := rfl
  other_seq := rfl
  buffer := by
    rw [h.packetsBuffer]
    cases x <;> rfl
  other_buffer := by
    rw [h.packetsBuffer]
    cases x <;> rfl
  sane := hsane
  is_open := h.is_open
  unread := le_rfl
  appended := (List.append_nil _).symm

/-- A transfer whose segments are captured in the order `order` has arrived
after the last pick exactly when the last capture was not direct or was the
last segment. -/
theorem capture_order {filter : ConnectionFilter} {before calls : List Call}
    (hfits : ∀ call ∈ before, call.Fits) {ref : Ref} {c : TCPConnectionImpl}
    (hactive : (Run.after step (create filter) before).activeConnections.get c.connectionDetail =
      some ref)
    (hderef : (Run.after step (create filter) before).deref ref = some c) {x : Side}
    (hidle : IsIdle c x) {segment : Nat → JpcapPacket} {n : Nat}
    (htransfer : IsTransfer c x segment n) {order : List Nat} (horder : order.Perm (List.range n))
    (hcalls : calls.filterMap (ownPacket c.connectionDetail) = order.map segment) :
    (∃ c', (Run.after step (create filter) (before ++ calls)).deref ref = some c' ∧
      (c'.inputStream.get x).appended = (c.inputStream.get x).appended ++ transfer segment n ∧
      c'.packetsBuffer.get x = []) ↔
    (Reorder.Direct order.reverse → order.getLast? = some (n - 1)) := by
  have hlive : Live c.connectionDetail ref (Run.after step (create filter) before) c :=
    ⟨wellFormed_of_reachable ⟨before, rfl⟩, hactive, hderef, rfl⟩
  have hsane := Streams.sane_of_run hfits hactive hderef x
  have hmem : ∀ i, i ∈ order ↔ i < n := fun i => by rw [horder.mem_iff, List.mem_range]
  obtain ⟨s, c', hlive', h, hreceived⟩ := reordering_run htransfer hlive
    (hidle.reordering hsane segment) Reorder.received_nil (by simp) hcalls
    (fun i hi => (hmem i).mp hi) (by simpa using horder.nodup_iff.mpr List.nodup_range)
  rw [List.append_nil] at hreceived
  have hmem' : ∀ i, i ∈ order.reverse ↔ i < n := fun i => by rw [List.mem_reverse, hmem]
  rw [← List.head?_reverse, ← hreceived.expected_eq_iff hmem', Run.after_append]
  constructor
  · rintro ⟨c'', hderef'', happended, -⟩
    obtain rfl : c' = c'' := Option.some.inj (hlive'.deref.symm.trans hderef'')
    have heq : transfer segment s.expected = transfer segment n :=
      List.append_cancel_left (h.appended.symm.trans happended)
    have hle : s.expected ≤ n := by
      by_contra hgt
      exact absurd ((hmem' n).mp (hreceived.taken n (by omega))) (Nat.lt_irrefl n)
    by_contra hne
    have := htransfer.length_lt (lt_of_le_of_ne hle hne) le_rfl
    rw [heq] at this
    omega
  · intro hexpected
    refine ⟨c', hlive'.deref, ?_, ?_⟩
    · rw [h.appended, hexpected]
    · rw [h.buffer, hreceived.pending_eq_nil hmem' hexpected]
      rfl

/-- The second of three segments comes first.  The first one is then handled
without a drain, but the third one drains the buffer. -/
theorem capture_order_drained :
    let client := InetAddress.inet4 10 0 0 1
    let server := InetAddress.inet4 10 0 0 2
    let before : List Call := [
      .pick 0 ⟨client, server, 50000, 80, 100, 0, false, false, true, false, [], 0⟩,
      .pick 1 ⟨server, client, 80, 50000, 500, 101, true, false, true, false, [], 0⟩,
      .pick 2 ⟨client, server, 50000, 80, 101, 501, true, false, false, false, [], 0⟩]
    let segment (i : Nat) : JpcapPacket :=
      ⟨client, server, 50000, 80, 101 + i, 501, true, false, false, false, [UInt8.ofNat i], 0⟩
    let calls : List Call := [.pick 3 (segment 1), .poll, .pick 4 (segment 0), .pick 5 (segment 2)]
    ∃ c c', (Run.after step (create {}) before).deref 0 = some c ∧
      (Run.after step (create {}) (before ++ calls)).deref 0 = some c' ∧
      (c'.inputStream.get .client).appended =
        (c.inputStream.get .client).appended ++ transfer segment 3 ∧
      c'.packetsBuffer.get .client = [] := by
  intro client server before segment calls
  have hsegments : ∀ i < 3, IsSegment
      (((Run.after step (create {}) before).deref 0).get (by decide)) .client segment i := by
    intro i hi
    interval_cases i <;> constructor <;> decide
  obtain ⟨c', h⟩ := (@capture_order {} before calls (by decide) 0
    (((Run.after step (create {}) before).deref 0).get (by decide)) (by decide)
    (Option.some_get _).symm .client ⟨by decide, BySide.ext (by decide) (by decide), by decide⟩
    segment 3 ⟨hsegments, by decide, by decide⟩ [1, 0, 2] (by decide) (by decide)).mpr (by decide)
  exact ⟨_, c', (Option.some_get _).symm, h⟩

/-- Two segments, the second one first.  The first one is handled without a
drain, and nothing comes after it. -/
theorem reversed_segments_not_delivered :
    let client := InetAddress.inet4 10 0 0 1
    let server := InetAddress.inet4 10 0 0 2
    let before : List Call := [
      .pick 0 ⟨client, server, 50000, 80, 100, 0, false, false, true, false, [], 0⟩,
      .pick 1 ⟨server, client, 80, 50000, 500, 101, true, false, true, false, [], 0⟩,
      .pick 2 ⟨client, server, 50000, 80, 101, 501, true, false, false, false, [], 0⟩]
    let up (sequence : Nat) (data : List UInt8) : JpcapPacket :=
      ⟨client, server, 50000, 80, sequence, 501, true, false, false, false, data, 0⟩
    let calls : List Call := [.pick 3 (up 103 [3]), .pick 4 (up 101 [1, 2])]
    ((Run.after step (create {}) before).deref 0).map (fun c =>
      (c.state, c.packetsBuffer.client, c.packetsBuffer.server, c.inputStream.client.appended)) =
        some (some .established, [], [], []) ∧
    ((Run.after step (create {}) (before ++ calls)).deref 0).map (fun c =>
      (c.state, c.packetsBuffer.client.length, c.inputStream.client.appended)) =
        some (some .established, 1, [1, 2]) := by
  decide

end PacketReceiverImpl

end ConnectionSniffer
