import ConnectionSniffer.Receiver.Refusals

/-!
# When the buffers hold nothing but gaps

`Blocked c` says that `pickupPacket` would return `null`: no packet at the
front of a buffer can be processed.  The drain runs until the connection is
blocked, and a packet that is added to the buffers of a blocked connection
leaves it blocked.

Some branches of `pick` move the counters without a drain: the SYN/ACK, a
packet without FIN that can be processed at once, and a packet on which a
handler throws.  `KeepsGaps` asks of these that they release no packet, and
of a FIN and of a promotion that the drain that follows can refuse none.  A
run of such picks reaches blocked connections only.  `process_full` adds
that nothing but the size check throws for a full buffer, so that a packet
is refused only for a gap.
-/

namespace ConnectionSniffer

namespace Gaps

open Refusals (Stops Unrefused atHand counterLeft deliver_left process_unrefused promote_unrefused
  started)

/-! ## Blocked connections -/

/-- `pickupBuffer` would return `null`. -/
def Stuck (c : TCPConnectionImpl) (packets : List TCPPacket) : Prop :=
  match c.pickupBuffer packets with
  | .returned (none, _) => True
  | _ => False

instance (c : TCPConnectionImpl) (packets : List TCPPacket) : Decidable (Stuck c packets) := by
  unfold Stuck
  split
  · exact .isTrue trivial
  · exact .isFalse id

/-- `pickupPacket` would return `null`. -/
def Blocked (c : TCPConnectionImpl) : Prop :=
  Stuck c c.packetsBuffer.client ∧ Stuck c c.packetsBuffer.server

instance (c : TCPConnectionImpl) : Decidable (Blocked c) := inferInstanceAs (Decidable (_ ∧ _))

section Stuck

variable {c c' : TCPConnectionImpl} {p : TCPPacket} {packets : List TCPPacket}

theorem blocked_iff : Blocked c ↔ ∀ x, Stuck c (c.packetsBuffer.get x) := by
  constructor
  · rintro ⟨hc, hs⟩ x
    cases x
    · exact hc
    · exact hs
  · intro h
    exact ⟨h .client, h .server⟩

theorem stuck_nil : Stuck c [] := trivial

theorem stuck_cons_iff : Stuck c (p :: packets) ↔
    c.isCanProcessPacket p = .ok false ∧ (c.isOldPacket p = true → Stuck c packets) := by
  unfold Stuck
  rw [TCPConnectionImpl.pickupBuffer]
  cases c.isCanProcessPacket p with
  | error e => simp
  | ok b =>
    cases b with
    | true => simp
    | false => cases c.isOldPacket p <;> simp

/-- The accept test and the test for old packets look at the counters and
the endpoints alone. -/
theorem stuck_congr (hcounter : c'.counter = c.counter)
    (hdetail : c'.connectionDetail = c.connectionDetail) : Stuck c' packets ↔ Stuck c packets := by
  have hcan : ∀ p, c'.isCanProcessPacket p = c.isCanProcessPacket p := by
    intro p
    simp only [TCPConnectionImpl.isCanProcessPacket, TCPConnectionImpl.isMatchSequence, hcounter,
      hdetail]
  have hold : ∀ p, c'.isOldPacket p = c.isOldPacket p := by
    intro p
    simp only [TCPConnectionImpl.isOldPacket, hcounter]
  induction packets with
  | nil => exact Iff.rfl
  | cons p rest ih => simp only [stuck_cons_iff, hcan, hold, ih]

theorem stuck_setBuffer {x : Side} {l : List TCPPacket} :
    Stuck (c.setBuffer x l) packets ↔ Stuck c packets :=
  stuck_congr rfl rfl

theorem Blocked.congr (h : Blocked c) (hcounter : c'.counter = c.counter)
    (hdetail : c'.connectionDetail = c.connectionDetail)
    (hbuffer : c'.packetsBuffer = c.packetsBuffer) : Blocked c' := by
  unfold Blocked at h ⊢
  rwa [hbuffer, stuck_congr hcounter hdetail, stuck_congr hcounter hdetail]

/-- A packet that cannot be processed and is not old opens no gap. -/
theorem Stuck.add (h : Stuck c packets) (hcan : c.isCanProcessPacket p = .ok false)
    (hold : c.isOldPacket p = false) : Stuck c (TreeSet.add TCPPacket.compareTo p packets) := by
  have hp : ∀ l, Stuck c (p :: l) := fun l => stuck_cons_iff.mpr ⟨hcan, by simp [hold]⟩
  induction packets with
  | nil => exact hp []
  | cons b rest ih =>
    obtain ⟨hb, hrest⟩ := stuck_cons_iff.mp h
    unfold TreeSet.add
    split_ifs
    · exact hp _
    · exact h
    · exact stuck_cons_iff.mpr ⟨hb, fun hbold => ih (hrest hbold)⟩

/-- What a fruitless pick-up leaves is stuck. -/
theorem stuck_of_pickupBuffer {rest : List TCPPacket}
    (h : c.pickupBuffer packets = .returned (none, rest)) : Stuck c packets ∧ Stuck c rest := by
  refine ⟨by unfold Stuck; rw [h]; trivial, ?_⟩
  induction packets with
  | nil =>
    simp only [TCPConnectionImpl.pickupBuffer, Outcome.returned.injEq, Prod.mk.injEq] at h
    rw [← h.2]
    exact stuck_nil
  | cons p packets ih =>
    rw [TCPConnectionImpl.pickupBuffer] at h
    cases hcan : c.isCanProcessPacket p with
    | error e => simp [hcan] at h
    | ok b =>
      cases b with
      | true => simp [hcan] at h
      | false =>
        cases hold : c.isOldPacket p with
        | true =>
          simp only [hcan, hold, if_true] at h
          exact ih h
        | false =>
          simp only [hcan, hold, Bool.false_eq_true, if_false, Outcome.returned.injEq,
            Prod.mk.injEq] at h
          rw [← h.2]
          exact stuck_cons_iff.mpr ⟨hcan, by simp [hold]⟩

theorem pickupFrom_of_stuck {x : Side} (h : Stuck c (c.packetsBuffer.get x)) :
    ∃ rest, c.pickupFrom x = .returned (none, c.setBuffer x rest) := by
  unfold Stuck at h
  unfold TCPConnectionImpl.pickupFrom
  cases hp : c.pickupBuffer (c.packetsBuffer.get x) with
  | thrown e picked => simp [hp] at h
  | returned picked =>
    obtain ⟨_ | p, rest⟩ := picked
    · exact ⟨rest, rfl⟩
    · simp [hp] at h

theorem stuck_of_pickupFrom {x : Side} (h : c.pickupFrom x = .returned (none, c')) :
    ∃ rest, c' = c.setBuffer x rest ∧ Stuck c (c.packetsBuffer.get x) ∧ Stuck c rest := by
  unfold TCPConnectionImpl.pickupFrom at h
  cases hp : c.pickupBuffer (c.packetsBuffer.get x) with
  | thrown e picked => simp [hp] at h
  | returned picked =>
    obtain ⟨picked, rest⟩ := picked
    rw [hp, Outcome.map_returned, Outcome.returned.injEq, Prod.mk.injEq] at h
    obtain ⟨rfl, rfl⟩ := h
    exact ⟨rest, rfl, stuck_of_pickupBuffer hp⟩

/-- `Blocked` is what it says. -/
theorem pickupPacket_iff : (∃ c', c.pickupPacket = .returned (none, c')) ↔ Blocked c := by
  constructor
  · rintro ⟨c', h⟩
    unfold TCPConnectionImpl.pickupPacket at h
    cases hp : c.pickupFrom .client with
    | thrown e picked => simp [hp] at h
    | returned picked =>
      obtain ⟨_ | p, c₁⟩ := picked
      · rw [hp] at h
        obtain ⟨rest, rfl, hclient, -⟩ := stuck_of_pickupFrom hp
        obtain ⟨_, -, hserver, -⟩ := stuck_of_pickupFrom (x := .server) h
        exact ⟨hclient, stuck_setBuffer.mp hserver⟩
      · simp [hp] at h
  · rintro ⟨hclient, hserver⟩
    obtain ⟨rest, hp⟩ := pickupFrom_of_stuck (x := .client) hclient
    have hserver' : Stuck (c.setBuffer .client rest)
        ((c.setBuffer .client rest).packetsBuffer.get .server) := stuck_setBuffer.mpr hserver
    obtain ⟨rest', hp'⟩ := pickupFrom_of_stuck hserver'
    refine ⟨(c.setBuffer .client rest).setBuffer .server rest', ?_⟩
    unfold TCPConnectionImpl.pickupPacket
    rw [hp]
    exact hp'

theorem blocked_of_pickupPacket (h : c.pickupPacket = .returned (none, c')) : Blocked c' := by
  unfold TCPConnectionImpl.pickupPacket at h
  cases hp : c.pickupFrom .client with
  | thrown e picked => simp [hp] at h
  | returned picked =>
    obtain ⟨_ | p, c₁⟩ := picked
    · rw [hp] at h
      obtain ⟨rest, rfl, -, hclient⟩ := stuck_of_pickupFrom hp
      obtain ⟨rest', rfl, -, hserver⟩ := stuck_of_pickupFrom (x := .server) h
      exact ⟨stuck_setBuffer.mpr (stuck_setBuffer.mpr hclient), stuck_setBuffer.mpr hserver⟩
    · simp [hp] at h

/-- A drain that returns leaves a blocked connection. -/
theorem blocked_of_drain {now : Date} {t t' : Delivery}
    (h : Delivery.tryToProcessPacketsInBuffer now t = .returned t') : Blocked t'.connection := by
  -- each round takes a packet out, so the induction is on the buffered ones
  generalize hn : Delivery.buffered t.connection = n
  induction n using Nat.strong_induction_on generalizing t with
  | _ n ih =>
    rw [Delivery.tryToProcessPacketsInBuffer_eq] at h
    cases hp : t.connection.pickupPacket with
    | thrown e picked => simp [hp] at h
    | returned picked =>
      obtain ⟨_ | p, c⟩ := picked
      · simp only [hp, Outcome.returned.injEq] at h
        rw [← h]
        exact blocked_of_pickupPacket hp
      · have hlt := Delivery.buffered_of_pickupPacket now hp
        have hinv := Delivery.bufferedInvariant now (Delivery.buffered c)
        have hdeliver := Delivery.deliver_packetsBuffer now p (c := c)
          (P := fun b => b.getPacketsCountInBuffer ≤ Delivery.buffered c) le_rfl t.announced
        have hhandle := hinv.handlePacket_leaves
          (fun t ht => hinv.tryToProcessPacketsInBuffer_leaves ht)
          (hdeliver.mono (fun _ ht => ht) (fun _ _ => trivial))
        simp only [hp] at h
        cases hh : Delivery.handlePacket now (Delivery.tryToProcessPacketsInBuffer now) p
            ⟨c, t.announced⟩ with
        | thrown e t₁ => simp [hh] at h
        | returned t₁ =>
          rw [hh, Outcome.andThen_returned] at h
          rw [hh] at hhandle
          have hle : Delivery.buffered t₁.connection ≤ Delivery.buffered c := hhandle
          exact ih _ (by omega) h rfl

end Stuck

/-! ## `process` -/

section Process

variable {now : Date} {p : TCPPacket} {c : TCPConnectionImpl}

/-- The steps without a drain release no packet, and the drain that follows
a FIN can refuse none. -/
def KeepsBlocked (p : TCPPacket) (c : TCPConnectionImpl) : Prop :=
  PacketReceiverImpl.isIgnored p c = false →
    if p.isHandsShake2Packet then
      p.ackNum = c.counter.client.seq + 1 →
        Blocked { c with counter := (c.counter.update .server p).sequenceAddOne .client }
    else c.isCanProcessPacket p = .ok true →
      if p.fin = true ∧ ¬ Stops p c then Unrefused c (atHand p c)
      else Blocked { c with counter := counterLeft p c }

instance (p : TCPPacket) (c : TCPConnectionImpl) : Decidable (KeepsBlocked p c) := by
  unfold KeepsBlocked
  infer_instance

/-- A packet that can be processed leaves the connection blocked. -/
theorem blocked_direct (now : Date) (h : Waiting.Orderly c) (hs : Streams.SaneStreams c)
    (hb : Blocked c) (hp : Waiting.Waits c.connectionDetail p.side p)
    (hfits : p.data.length < 2 ^ 16) (hcan : c.isCanProcessPacket p = .ok true)
    (hkeep : if p.fin = true ∧ ¬ Stops p c then Unrefused c (atHand p c)
      else Blocked { c with counter := counterLeft p c }) :
    Blocked (PacketReceiverImpl.process now p c).state.connection := by
  have hleft := deliver_left now h.state hs.sane hfits 0
  have hframe := Delivery.deliver_frame now p c 0
  by_cases hdrains : p.fin = true ∧ ¬ Stops p c
  · rw [if_pos hdrains] at hkeep
    have hends := process_unrefused now h hs hp hfits hkeep
    cases ho : PacketReceiverImpl.process now p c with
    | thrown e t =>
      rw [ho] at hends
      rw [Outcome.state_thrown, hends.2]
      exact hb
    | returned t =>
      unfold PacketReceiverImpl.process Delivery.handlePacket at ho
      rw [hcan] at ho
      dsimp only at ho
      cases hd : Delivery.deliver now p ⟨c, 0⟩ with
      | thrown e t₁ => simp [hd] at ho
      | returned t₁ =>
        rw [hd, Outcome.andThen_returned, if_pos hdrains.1] at ho
        cases hdrain : Delivery.tryToProcessPacketsInBuffer now t₁ with
        | thrown e t₂ => simp [hdrain] at ho
        | returned t₂ =>
          rw [hdrain, Outcome.andThen_returned, Outcome.returned.injEq] at ho
          have hblocked : Blocked t₂.connection := blocked_of_drain hdrain
          rw [Outcome.state_returned, ← ho]
          exact hblocked.congr rfl rfl rfl
  · rw [if_neg hdrains] at hkeep
    unfold PacketReceiverImpl.process Delivery.handlePacket
    rw [hcan]
    dsimp only
    cases hd : Delivery.deliver now p ⟨c, 0⟩ with
    | thrown e t =>
      rw [hd] at hleft hframe
      exact hkeep.congr hleft.2 hframe.connectionDetail hframe.packetsBuffer
    | returned t =>
      rw [hd] at hleft hframe
      have hfin : p.fin = false := by
        rw [not_and_not_right] at hdrains
        simpa using mt hdrains hleft.1
      rw [Outcome.andThen_returned, hfin, if_neg (by simp), Outcome.andThen_returned]
      exact hkeep.congr (hleft.2 hfin) hframe.connectionDetail hframe.packetsBuffer

/-- A packet that `process` adds to the buffers of a blocked connection
stays there. -/
theorem blocked_setBuffer (hb : Blocked c) (hcan : c.isCanProcessPacket p = .ok false)
    (hold : c.isOldPacket p = false) : Blocked (c.setBuffer p.side
      (TreeSet.add TCPPacket.compareTo p (c.packetsBuffer.get p.side))) := by
  rw [blocked_iff] at hb ⊢
  exact BySide.forall_set (P := fun _ (l : List TCPPacket) => Stuck (c.setBuffer _ _) l)
    (stuck_setBuffer.mpr ((hb p.side).add hcan hold)) (stuck_setBuffer.mpr (hb _))

/-- `process` leaves a blocked connection blocked. -/
theorem process_blocked (now : Date) (h : Waiting.Orderly c) (hs : Streams.SaneStreams c)
    (hb : Blocked c) (hp : Waiting.Waits c.connectionDetail p.side p)
    (hfits : p.data.length < 2 ^ 16) (hold : c.isOldPacket p = false)
    (hdirect : c.isCanProcessPacket p = .ok true →
      if p.fin = true ∧ ¬ Stops p c then Unrefused c (atHand p c)
      else Blocked { c with counter := counterLeft p c }) :
    Blocked (PacketReceiverImpl.process now p c).state.connection := by
  cases hcan : c.isCanProcessPacket p with
  | error e => simp [hp.isCanProcessPacket_eq] at hcan
  | ok b =>
    cases b with
    | true => exact blocked_direct now h hs hb hp hfits hcan (hdirect hcan)
    | false =>
      unfold PacketReceiverImpl.process
      rw [hcan]
      dsimp only
      unfold PacketsBuffer.addToTemporaryStoredDataPackets
      split
      · exact hb
      · obtain ⟨c', hpick⟩ := pickupPacket_iff.mpr (blocked_setBuffer hb hcan hold)
        have hdrain : Delivery.tryToProcessPacketsInBuffer now ⟨c.setBuffer p.side
            (TreeSet.add TCPPacket.compareTo p (c.packetsBuffer.get p.side)), 0⟩ =
              .returned ⟨c', 0⟩ := by
          rw [Delivery.tryToProcessPacketsInBuffer_eq]
          simp only [hpick]
        unfold TCPConnectionImpl.setBuffer at hdrain
        simp only [Outcome.map_returned, Outcome.andThen_returned, hdrain, Outcome.state_returned]
        exact blocked_of_pickupPacket hpick

end Process

/-! ## The size check -/

/-- The error is not that of a full packet buffer. -/
def NotFull (e : Throwable) : Prop := e ≠ .packetsBufferFullException

section NotFull

variable {now : Date} {p : TCPPacket} {c : TCPConnectionImpl}

theorem notFull_of_isRefusal {e : Throwable} (h : e.isRefusal = true) : NotFull e := by
  intro he
  rw [he] at h
  exact absurd h (by decide)

theorem processDataPacket_notFull (now : Date) (p : TCPPacket) (c : TCPConnectionImpl) :
    (c.processDataPacket now p).Throws NotFull :=
  (TCPConnectionImpl.processDataPacket_throws now p c).mono fun _ h => notFull_of_isRefusal h.1

theorem deliver_notFull (now : Date) (p : TCPPacket) (t : Delivery) :
    (Delivery.deliver now p t).Throws NotFull := by
  have hack : ∀ t, (Delivery.acknowledge p t).Throws NotFull := by
    intro t
    unfold Delivery.acknowledge Delivery.apply
    split
    · refine Outcome.Throws.andThen ?_ fun t' => ?_
      · rw [Outcome.throws_map]
        unfold TCPConnectionImpl.processAckPacket TCPConnectionImpl.processHandshake3AckPacket
        split
        · simp [Outcome.Throws, NotFull]
        · split
          · simp [Outcome.Throws, NotFull]
          · trivial
        all_goals trivial
      · split <;> trivial
    · trivial
  unfold Delivery.deliver
  refine (hack _).andThen fun t => Outcome.Throws.andThen ?_ fun t => ?_
  · split
    · unfold Delivery.apply
      rw [Outcome.throws_map]
      exact processDataPacket_notFull now p _
    · trivial
  · trivial

theorem isCanProcessPacket_notFull {e : Throwable} (h : c.isCanProcessPacket p = .error e) :
    NotFull e := by
  unfold TCPConnectionImpl.isCanProcessPacket TCPConnectionImpl.isMatchSequence
    SequenceCounter.isMatchSeq at h
  dsimp only at h
  split at h
  · rename_i hmatch
    obtain rfl := Except.error.inj h
    split at hmatch
    · obtain rfl := Except.error.inj hmatch
      simp [NotFull]
    · simp at hmatch
  · split at h <;> simp at h

theorem pickupFrom_notFull (c : TCPConnectionImpl) (x : Side) :
    (c.pickupFrom x).Throws NotFull := by
  unfold TCPConnectionImpl.pickupFrom
  rw [Outcome.throws_map]
  induction c.packetsBuffer.get x with
  | nil => trivial
  | cons p rest ih =>
    unfold TCPConnectionImpl.pickupBuffer
    split
    · exact isCanProcessPacket_notFull ‹_›
    · trivial
    · split
      · exact ih
      · trivial

theorem pickupPacket_notFull (c : TCPConnectionImpl) : c.pickupPacket.Throws NotFull := by
  unfold TCPConnectionImpl.pickupPacket
  refine (pickupFrom_notFull c .client).andThen fun picked => ?_
  split
  · trivial
  · exact pickupFrom_notFull _ .server

theorem handlePacket_notFull (now : Date) {drain : Delivery → Outcome Throwable Delivery}
    (hdrain : ∀ t, (drain t).Throws NotFull) (p : TCPPacket) (t : Delivery) :
    (Delivery.handlePacket now drain p t).Throws NotFull := by
  unfold Delivery.handlePacket
  refine (deliver_notFull now p t).andThen fun t => Outcome.Throws.andThen ?_ fun t => ?_
  · split
    · exact hdrain t
    · trivial
  · trivial

theorem drain_notFull (now : Date) (bound : Nat) (t : Delivery) :
    (Delivery.drain now bound t).Throws NotFull := by
  induction bound generalizing t with
  | zero => trivial
  | succ bound ih =>
    have hpick := pickupPacket_notFull t.connection
    unfold Delivery.drain
    split
    · rename_i hp
      rw [hp] at hpick
      exact hpick
    · trivial
    · exact (handlePacket_notFull now ih _ _).andThen ih

/-- `process` throws for a full buffer only where it has assigned nothing. -/
theorem process_full {t : Delivery}
    (h : PacketReceiverImpl.process now p c = .thrown .packetsBufferFullException t) :
    t = ⟨c, 0⟩ := by
  have hdrain : ∀ t, (Delivery.tryToProcessPacketsInBuffer now t).Throws NotFull :=
    fun t => drain_notFull now _ t
  unfold PacketReceiverImpl.process at h
  split at h
  · rename_i hcan
    obtain ⟨rfl, -⟩ := Outcome.thrown.inj h
    exact absurd rfl (isCanProcessPacket_notFull hcan)
  · have hhandle := handlePacket_notFull now hdrain p ⟨c, 0⟩
    rw [h] at hhandle
    exact absurd rfl hhandle
  · unfold PacketsBuffer.addToTemporaryStoredDataPackets at h
    split at h
    · obtain ⟨-, rfl⟩ := Outcome.thrown.inj h
      rfl
    · rw [Outcome.map_returned, Outcome.andThen_returned] at h
      have hfree := hdrain ⟨c.setBuffer p.side
        (TreeSet.add TCPPacket.compareTo p (c.packetsBuffer.get p.side)), 0⟩
      unfold TCPConnectionImpl.setBuffer at hfree
      rw [h] at hfree
      exact absurd rfl hfree

end NotFull

/-! ## Runs -/

/-- What keeps the active connections blocked when `p` is picked: the
connection it is for stays blocked, and the drain of a promotion can refuse
nothing. -/
def PickKeeps (p : TCPPacket) (r : PacketReceiverImpl) : Prop :=
  p.isHandsShake1Packet = false →
    (∀ ref ∈ r.activeConnections.get p.connectionDetail, ∀ c ∈ r.deref ref,
      KeepsBlocked (p.detectPacketFlowDirection c.connectionDetail) c) ∧
    (r.activeConnections.get p.connectionDetail = none →
      ∀ ref ∈ r.halfWayConnections.get p.connectionDetail, ∀ c ∈ r.deref ref,
        PacketReceiverImpl.completesExchange (p.detectPacketFlowDirection c.connectionDetail) c →
          Unrefused (started (p.detectPacketFlowDirection c.connectionDetail) c)
            (atHand (p.detectPacketFlowDirection c.connectionDetail) c))

/-- The condition on a call of a run. -/
def KeepsGaps (r : PacketReceiverImpl) (call : Call) : Prop :=
  Buffering.Ordinary r call ∧
    match call with
    | .pick _ packet => PickKeeps (TCPPacketImpl packet) r
    | _ => True

instance (r : PacketReceiverImpl) (call : Call) : Decidable (KeepsGaps r call) := by
  cases call <;> unfold KeepsGaps <;> try unfold PickKeeps
  all_goals infer_instance

section Runs

variable {now : Date} {p : TCPPacket} {r : PacketReceiverImpl}

theorem blocked_of_promote {c : TCPConnectionImpl} {t : Delivery}
    (h : PacketReceiverImpl.promote now p c = .returned t) : Blocked t.connection := by
  unfold PacketReceiverImpl.promote at h
  dsimp only at h
  generalize Delivery.apply _ (TCPConnectionImpl.processDataPacket now p) = o at h
  cases o with
  | thrown e t₁ => simp at h
  | returned t₁ => exact blocked_of_drain h

/-- The invariant of the run. -/
structure Gapped (r : PacketReceiverImpl) : Prop where
  ready : Promotion.Ready r
  streams : PacketReceiverImpl.Tables Streams.SaneStreams Streams.SaneStreams r
  blocked : PacketReceiverImpl.Tables Blocked (fun _ => True) r

theorem gapped_create (filter : ConnectionFilter) : Gapped (PacketReceiverImpl.create filter) :=
  ⟨Promotion.ready_create filter, PacketReceiverImpl.tables_create _ _ filter,
    PacketReceiverImpl.tables_create _ _ filter⟩

/-- A pick that meets the condition keeps the active connections blocked. -/
theorem pick_blocked (hinv : Gapped r) (hfresh : p.consumed = false)
    (hfits : p.data.length < 2 ^ 16) (hkeep : PickKeeps p r) :
    PacketReceiverImpl.Tables Blocked (fun _ => True) (r.pick now p).state := by
  have hwf := hinv.ready.wellFormed
  have h := hinv.blocked
  have hpicked := PacketReceiverImpl.picked_pick now p r
  unfold PickKeeps at hkeep
  generalize r.pick now p = o at hpicked
  cases hpicked with
  | rejected | noPayload | danglingHalfWay | danglingActive | ignored => exact h
  | opened => exact h.open_active hwf (c := PacketReceiverImpl.synConnection now p) ⟨trivial, trivial⟩
  | candidate => exact h.open_halfWay hwf (c := PacketReceiverImpl.halfWayConnection now p) trivial
  | @promoted ref c hsyn hactive hdata hhalf hc hdone =>
    have hret := promote_unrefused (p := p.detectPacketFlowDirection c.connectionDetail) now
      (hinv.ready.tables.halfWay hhalf hc)
      (hinv.streams.halfWay hhalf hc) hfits ((hkeep hsyn).2 hactive ref hhalf c hc hdone)
    have hblocked := blocked_of_promote (Outcome.eq_returned hret)
    have htables := h.store_moved hwf (fun _ hA => hA) hc hblocked
    rw [Outcome.state_map]
    exact ⟨htables.active, htables.halfWay⟩
  | @buffered ref c hsyn hactive hdata hhalf hc hdone =>
    rw [Outcome.state_map]
    exact h.store_halfWay hwf hhalf hc trivial
  | @answered ref c hsyn hactive hc hignored hsynAck =>
    have hk := (hkeep hsyn).1 ref hactive c hc hignored
    rw [PacketReceiverImpl.isHandsShake2Packet_detect, if_pos hsynAck] at hk
    rw [Outcome.state_map]
    refine h.store_active hwf (fun _ hA => hA) hactive hc ?_
    unfold TCPConnectionImpl.processSyncAckPacket
    split
    · exact h.active hactive hc
    · rename_i hackNum
      exact (hk (not_not.mp hackNum)).congr rfl rfl rfl
  | @processed ref c hsyn hactive hc hignored hsynAck =>
    have hk := (hkeep hsyn).1 ref hactive c hc hignored
    rw [PacketReceiverImpl.isHandsShake2Packet_detect, if_neg (by simp [hsynAck])] at hk
    have hold : c.isOldPacket (p.detectPacketFlowDirection c.connectionDetail) = false :=
      PacketReceiverImpl.notOld_of_notIgnored hignored
    have hwaits := Waiting.waits_detect (hwf.deref_active hactive hc) hfresh
    have hblocked := process_blocked now (hinv.ready.tables.active hactive hc)
      (hinv.streams.active hactive hc) (h.active hactive hc) hwaits hfits hold hk
    generalize PacketReceiverImpl.process now (p.detectPacketFlowDirection c.connectionDetail) c =
      o at hblocked
    cases o with
    | thrown e t =>
      have htables := h.store_active hwf (fun _ hA => hA) hactive hc hblocked
      exact ⟨htables.active, htables.halfWay⟩
    | returned t =>
      have htables := h.store_active hwf (fun _ hA => hA) hactive hc hblocked
      have hcommit : PacketReceiverImpl.Tables Blocked (fun _ => True) (r.commit ref t) :=
        ⟨htables.active, htables.halfWay⟩
      exact hcommit.removeIfFinished ref

/-- A pick for an active connection that throws for a full buffer leaves the
connection as it was. -/
theorem deref_of_full {ref : Ref} {c : TCPConnectionImpl}
    (hactive : r.activeConnections.get p.connectionDetail = some ref)
    (hfull : (r.pick now p).error = some .packetsBufferFullException)
    (hc : (r.pick now p).state.deref ref = some c) : r.deref ref = some c := by
  have hpicked := PacketReceiverImpl.picked_pick now p r
  rw [Outcome.eq_thrown hfull] at hpicked
  generalize (r.pick now p).state = s at hpicked hc
  generalize ho : Outcome.thrown Throwable.packetsBufferFullException s = o at hpicked
  cases hpicked with
  | rejected | opened | ignored => simp at ho
  | noPayload _ hnone | candidate _ hnone | promoted _ hnone | buffered _ hnone
  | danglingHalfWay _ hnone => simp [hactive] at hnone
  | danglingActive => simp at ho
  | @answered ref' c₀ _ _ _ _ _ =>
    unfold TCPConnectionImpl.processSyncAckPacket at ho
    split at ho <;> simp at ho
  | @processed ref' c₀ hsyn hactive' hc₀ _ _ =>
    obtain rfl := Option.some.inj (hactive.symm.trans hactive')
    cases hprocess : PacketReceiverImpl.process now
        (p.detectPacketFlowDirection c₀.connectionDetail) c₀ with
    | returned t => simp [hprocess] at ho
    | thrown e t =>
      rw [hprocess, Outcome.map_thrown, Outcome.andThen_thrown] at ho
      obtain ⟨rfl, rfl⟩ := Outcome.thrown.inj ho
      obtain rfl := process_full hprocess
      rwa [PacketReceiverImpl.deref_commit, PacketReceiverImpl.deref_store_self hc₀, ← hc₀] at hc

theorem gapped_step (h : Gapped r) {call : Call} (hkeep : KeepsGaps r call) :
    Gapped (r.step call) := by
  refine ⟨Promotion.ready_step h.ready call,
    Streams.saneStreams_step h.ready.wellFormed h.streams hkeep.1.1, ?_⟩
  cases call with
  | pick now packet => exact pick_blocked h rfl hkeep.1.1 hkeep.2
  | _ =>
    refine h.blocked.step_other ?_ (fun _ hc => hc) nofun
    intro c c' ⟨_, hread, _⟩ hc
    subst hread
    exact hc.congr rfl rfl rfl

/-- In a run that keeps the active connections blocked, a packet is refused
for a full buffer only where no buffered packet can be processed. -/
theorem full_only_for_gaps (filter : ConnectionFilter) (calls : List Call)
    (hcalls : Run.Along PacketReceiverImpl.step KeepsGaps (PacketReceiverImpl.create filter) calls)
    (now : Date) (packet : JpcapPacket) :
    let r := Run.after PacketReceiverImpl.step (PacketReceiverImpl.create filter) calls
    ∀ ref c, r.activeConnections.get packet.connectionDetail = some ref →
      (r.pick now (TCPPacketImpl packet)).error = some .packetsBufferFullException →
      (r.pick now (TCPPacketImpl packet)).state.deref ref = some c →
      ∃ c', c.pickupPacket = .returned (none, c') := by
  intro r ref c hactive hfull hc
  have hsame : r.deref ref = some c := deref_of_full (p := TCPPacketImpl packet) hactive hfull hc
  have hinv : Gapped r := Run.invariant (C := KeepsGaps) (I := Gapped)
    (fun _ _ h hkeep => gapped_step h hkeep) (gapped_create filter) hcalls
  exact pickupPacket_iff.mpr (hinv.blocked.active hactive hsame)

/-- 200 segments wait for the one at 101, and the next one is refused. -/
theorem full_only_for_gaps_waiting :
    let client := InetAddress.inet4 10 0 0 1
    let server := InetAddress.inet4 10 0 0 2
    let segment (sequence : Nat) : JpcapPacket :=
      ⟨client, server, 50000, 80, sequence, 501, true, false, false, false, [1], 3⟩
    let calls : List Call := [
      .pick 0 ⟨client, server, 50000, 80, 100, 0, false, false, true, false, [], 0⟩,
      .pick 1 ⟨server, client, 80, 50000, 500, 101, true, false, true, false, [], 1⟩,
      .pick 2 ⟨client, server, 50000, 80, 101, 501, true, false, false, false, [], 2⟩] ++
      (List.range 200).map fun i => .pick 3 (segment (301 - i))
    let r := Run.after PacketReceiverImpl.step (PacketReceiverImpl.create {}) calls
    (r.pick 3 (TCPPacketImpl (segment 400))).error = some .packetsBufferFullException ∧
      ∃ c c', (r.pick 3 (TCPPacketImpl (segment 400))).state.deref 0 = some c ∧
        c.pickupPacket = .returned (none, c') := by
  intro client server segment calls r
  obtain ⟨hfull, hsome, hactive⟩ :
      (r.pick 3 (TCPPacketImpl (segment 400))).error = some .packetsBufferFullException ∧
        ((r.pick 3 (TCPPacketImpl (segment 400))).state.deref 0).isSome = true ∧
        r.activeConnections.get (segment 400).connectionDetail = some 0 := by decide +kernel
  obtain ⟨c, hc⟩ := Option.isSome_iff_exists.mp hsome
  obtain ⟨c', hpick⟩ :=
    full_only_for_gaps {} calls (by decide +kernel) 3 (segment 400) 0 c hactive hfull hc
  exact ⟨hfull, c, c', hc, hpick⟩

/-- The segment at 101 arrives and is processed at once, the 200 segments
behind it stay in the buffer, and the next one is refused. -/
theorem full_without_gap :
    let client := InetAddress.inet4 10 0 0 1
    let server := InetAddress.inet4 10 0 0 2
    let segment (sequence : Nat) : JpcapPacket :=
      ⟨client, server, 50000, 80, sequence, 501, true, false, false, false, [1], 3⟩
    let calls : List Call := [
      .pick 0 ⟨client, server, 50000, 80, 100, 0, false, false, true, false, [], 0⟩,
      .pick 1 ⟨server, client, 80, 50000, 500, 101, true, false, true, false, [], 1⟩,
      .pick 2 ⟨client, server, 50000, 80, 101, 501, true, false, false, false, [], 2⟩] ++
      (List.range 200).map (fun i => .pick 3 (segment (301 - i))) ++ [.pick 4 (segment 101)]
    let r := Run.after PacketReceiverImpl.step (PacketReceiverImpl.create {}) calls
    (r.pick 5 (TCPPacketImpl (segment 302))).error = some .packetsBufferFullException ∧
      ∃ c, (r.pick 5 (TCPPacketImpl (segment 302))).state.deref 0 = some c ∧
        r.activeConnections.get c.connectionDetail = some 0 ∧
        ¬ ∃ c', c.pickupPacket = .returned (none, c') := by
  intro client server segment calls r
  obtain ⟨hfull, hsome, hopen⟩ :
      (r.pick 5 (TCPPacketImpl (segment 302))).error = some .packetsBufferFullException ∧
        ((r.pick 5 (TCPPacketImpl (segment 302))).state.deref 0).isSome = true ∧
        ∀ c ∈ (r.pick 5 (TCPPacketImpl (segment 302))).state.deref 0,
          r.activeConnections.get c.connectionDetail = some 0 ∧ ¬ Blocked c := by decide +kernel
  obtain ⟨c, hc⟩ := Option.isSome_iff_exists.mp hsome
  obtain ⟨hactive, hblocked⟩ := hopen c hc
  exact ⟨hfull, c, hc, hactive, fun hpick => hblocked (pickupPacket_iff.mp hpick)⟩

end Runs

end Gaps

end ConnectionSniffer
