import ConnectionSniffer.Library.Walk
import ConnectionSniffer.Receiver.Waiting

/-!
# Each connection is announced once

`Transition` lists the assignments the code makes to the state of a
connection.  Two of them lead into Established: the third packet of a
handshake, and the promotion of a half-way connection.

The drain keeps a count: `Tracked s t` says that the state went from `s`
to where it is along transitions and entered Established as often as the
connection was announced.  From there the count goes up to `pick`, to a
call and to a run.  As no transition leads back to a state before
Established, it never exceeds one.
-/

namespace ConnectionSniffer

namespace TCPConnectionState

/-- The assignments to the state, `none` being the state of a new
connection. -/
inductive Transition : Option TCPConnectionState → Option TCPConnectionState → Prop
  | syn : Transition none (some .synSent)
  | synAck : Transition (some .synSent) (some .synReceived)
  | handshake3 : Transition (some .synReceived) (some .established)
  | promotion : Transition none (some .established)
  | finish : Transition (some .established) (some .finishWait1)
  | finishAck : Transition (some .finishWait1) (some .closeWait)
  | crossedFinish : Transition (some .finishWait1) (some .closing)
  | otherFinish : Transition (some .closeWait) (some .lastAck)
  | lastAck : Transition (some .lastAck) (some .closed)

/-- `Moves s n s'`: transitions lead from `s` to `s'`, and `n` of them into
Established. -/
abbrev Moves := Walk Transition (some .established)

/-- Established, or a state that follows it. -/
def hasBeenEstablished : Option TCPConnectionState → Bool
  | none | some .synSent | some .synReceived => false
  | _ => true

theorem moves_visits {s s' : Option TCPConnectionState} {n : Nat} (h : Moves s n s') :
    n + (hasBeenEstablished s).toNat = (hasBeenEstablished s').toNat := by
  refine h.visits rfl ?_ ?_
  · intro s hs
    cases hs <;> rfl
  · intro s s' hs hne
    cases hs <;> first | rfl | exact absurd rfl hne

end TCPConnectionState

open TCPConnectionState

/-! ## One delivery -/

namespace Delivery

variable {now : Date} {s : Option TCPConnectionState}

/-- The announcements made so far count how often the state has entered
Established since it was `s`. -/
def Tracked (s : Option TCPConnectionState) (t : Delivery) : Prop :=
  Moves s t.announced t.connection.state

theorem tracked_of_state {s' : Option TCPConnectionState} {n : Nat} {c : TCPConnectionImpl}
    (h : Moves s n s') (hstate : c.state = s') : Tracked s ⟨c, n⟩ :=
  show Moves s n c.state from hstate ▸ h

theorem acknowledge_tracked (p : TCPPacket) {t : Delivery} (h : Tracked s t) :
    (acknowledge p t).Sat (Tracked s) (Tracked s) := by
  unfold Tracked at h
  unfold acknowledge apply TCPConnectionImpl.processAckPacket
  split
  · cases hs : t.connection.state with
    | none => exact h
    | some st =>
      rw [hs] at h
      cases st with
      | synReceived =>
        dsimp only
        unfold TCPConnectionImpl.processHandshake3AckPacket
        split
        · simpa [Tracked, hs] using h
        · simpa [Tracked] using h.enter .handshake3
      | finishWait1 =>
        simpa [Tracked, TCPConnectionImpl.processFinishWait1AckPacket] using
          h.pass .finishAck (by simp)
      | lastAck =>
        simpa [Tracked, TCPConnectionImpl.processLastAckPacket] using
          h.pass .lastAck (by simp)
      | synSent | established | closeWait | finishWait2 | closing | timeWait | closed =>
        simpa [Tracked, hs] using h
  · exact h

theorem moves_finish {n : Nat} {s' : Option TCPConnectionState} (h : Moves s n s') :
    Moves s n (TCPConnectionImpl.updateConnectionStateAfterReceivedFinishPacket s') := by
  unfold TCPConnectionImpl.updateConnectionStateAfterReceivedFinishPacket
  split
  · exact h.pass .finish (by simp)
  · exact h.pass .otherFinish (by simp)
  · exact h.pass .crossedFinish (by simp)
  · exact h

theorem deliver_tracked (p : TCPPacket) {t : Delivery} (h : Tracked s t) :
    (deliver now p t).Sat (Tracked s) (Tracked s) := by
  refine deliver_sat (R := Tracked s) (A := Tracked s) (D := Tracked s) ?_ ?_ ?_ ?_ ?_
  · split
    · exact h
    · exact h
  · intro t ht
    exact acknowledge_tracked p ht
  · intro t ht _
    unfold apply
    rw [Outcome.sat_map]
    refine (TCPConnectionImpl.processDataPacket_sat now p t.connection).mono ?_ ?_
    · intro c hc
      exact tracked_of_state ht hc.state
    · intro c hc
      exact tracked_of_state ht hc.state
  · intro t ht _
    exact ht
  · intro t' ht'
    split
    · exact moves_finish ht'
    · exact ht'

/-- The drain keeps the count. -/
theorem trackedInvariant (now : Date) (s : Option TCPConnectionState) :
    DeliveryInvariant now (Tracked s) (Tracked s) where
  thrown := fun _ h => h
  drop := fun h _ _ => h
  take := fun h _ _ => deliver_tracked _ h
  updated := fun h => h

end Delivery

namespace PacketReceiverImpl

theorem process_tracked (now : Date) (p : TCPPacket) (c : TCPConnectionImpl) :
    (process now p c).Sat (Delivery.Tracked c.state) (Delivery.Tracked c.state) := by
  have hstart : Delivery.Tracked c.state ⟨c, 0⟩ := .refl _
  exact process_sat (Delivery.trackedInvariant now c.state) hstart
    (fun _ => Delivery.deliver_tracked p hstart) fun _ => .refl _

/-- A promotion is an announcement of its own. -/
theorem promote_tracked (now : Date) (p : TCPPacket) (c : TCPConnectionImpl) :
    (promote now p c).Sat (Delivery.Tracked none) (Delivery.Tracked none) := by
  have hstart : Moves none 1 (some .established) := (Walk.refl none).enter .promotion
  refine promote_sat (Delivery.trackedInvariant now none) ?_
  refine (TCPConnectionImpl.processDataPacket_sat now p (primed p c)).mono ?_ ?_
  · intro c' hc'
    exact Delivery.tracked_of_state hstart hc'.state
  · intro c' hc'
    exact Delivery.tracked_of_state hstart hc'.state

/-! ## One call -/

/-- The state of the connection behind a reference, and `none` while there
is no connection. -/
def stateOf (r : PacketReceiverImpl) (ref : Ref) : Option TCPConnectionState :=
  (r.deref ref).bind TCPConnectionImpl.state

/-- `r'` follows `r`, and `added` went into the queue meanwhile, each
connection as often as its state entered Established. -/
structure Announces (r : PacketReceiverImpl) (added : List Ref) (r' : PacketReceiverImpl) :
    Prop where
  queue : r'.establishedConnections = r.establishedConnections ++ added
  moves : ∀ ref, Moves (r.stateOf ref) (added.count ref) (r'.stateOf ref)

namespace Announces

variable {r r' : PacketReceiverImpl} {ref : Ref} {c c' : TCPConnectionImpl}

theorem refl (r : PacketReceiverImpl) : Announces r [] r :=
  ⟨by simp, fun _ => .refl _⟩

theorem commit {t : Delivery} (hc : r.deref ref = some c)
    (ht : Moves c.state t.announced t.connection.state) :
    Announces r (List.replicate t.announced ref) (r.commit ref t) := by
  refine ⟨rfl, fun ref' => ?_⟩
  unfold stateOf
  rw [deref_commit]
  by_cases href : ref = ref'
  · subst href
    rw [deref_store_self hc, hc, List.count_replicate_self]
    exact ht
  · rw [deref_store_ne href, List.count_replicate, if_neg (by simpa using href)]
    exact .refl _

theorem store (hc : r.deref ref = some c) (hstate : Moves c.state 0 c'.state) :
    Announces r [] (r.store ref c') := by
  have h := commit (t := ⟨c', 0⟩) hc hstate
  exact ⟨by simp [PacketReceiverImpl.store], h.moves⟩

theorem allocate (r : PacketReceiverImpl) (hstate : Moves none 0 c.state) :
    Announces r [] (r.allocate c) := by
  refine ⟨by simp [PacketReceiverImpl.allocate], fun ref => ?_⟩
  unfold stateOf
  cases hd : (r.allocate c).deref ref with
  | none =>
    cases hold : r.deref ref with
    | none => exact .refl _
    | some c' => simp [deref_allocate_of_some hold] at hd
  | some c' =>
    rcases deref_allocate hd with hold | ⟨rfl, rfl⟩
    · rw [hold]
      exact .refl _
    · have hnone : r.deref r.heap.length = none := by simp [deref]
      rw [hnone]
      exact hstate

theorem removeIfFinished {added : List Ref} (h : Announces r added r') (ref : Ref) :
    Announces r added (r'.removeIfFinished ref) :=
  ⟨by rw [establishedConnections_removeIfFinished, h.queue],
    fun ref' => by
      have := h.moves ref'
      unfold stateOf at this ⊢
      rwa [deref_removeIfFinished]⟩

end Announces

/-- A pick announces the connections that become established in it. -/
theorem pick_announces (now : Date) (p : TCPPacket) {r : PacketReceiverImpl}
    (h : Waiting.Sound r) : ∃ added, Announces r added (r.pick now p).state := by
  have hp := picked_pick now p r
  generalize r.pick now p = o at hp
  cases hp with
  | rejected | noPayload | danglingHalfWay | danglingActive | ignored =>
    exact ⟨_, Announces.refl r⟩
  | opened =>
    have hmoves : Moves none 0 (some .synSent) := (Walk.refl none).pass .syn (by simp)
    have hsyn := Announces.allocate r (c := synConnection now p) hmoves
    exact ⟨_, hsyn.queue, hsyn.moves⟩
  | candidate =>
    have hnew := Announces.allocate r (c := halfWayConnection now p) (.refl none)
    exact ⟨_, hnew.queue, hnew.moves⟩
  | @promoted ref c hsyn hactive hdata hhalf hc hdone =>
    have ht := (promote_tracked now (p.detectPacketFlowDirection c.connectionDetail) c).state
    rw [Outcome.state_map]
    have hmoved := Announces.commit (r := r.moved ref c) hc ((h.tables.halfWay hhalf hc).state.symm ▸ ht)
    exact ⟨_, hmoved.queue, hmoved.moves⟩
  | @buffered ref c hsyn hactive hdata hhalf hc hdone =>
    have hb : (bufferPacket (p.detectPacketFlowDirection c.connectionDetail) c).Sat
      (fun c' => c'.state = c.state) (fun c' => c'.state = c.state) := bufferPacket_sat rfl rfl
    rw [Outcome.state_map]
    exact ⟨_, Announces.store hc (hb.state ▸ .refl _)⟩
  | @answered ref c hsyn hactive hc hignored hsynAck =>
    have hstate : c.state = some .synSent := synSent_of_notIgnored hignored hsynAck
    have hmoves : (c.processSyncAckPacket (p.detectPacketFlowDirection c.connectionDetail)).Sat
        (fun c' => Moves c.state 0 c'.state) (fun c' => Moves c.state 0 c'.state) := by
      unfold TCPConnectionImpl.processSyncAckPacket
      split
      · exact .refl _
      · have hmoves : Moves (some .synSent) 0 (some .synReceived) :=
          (Walk.refl _).pass .synAck (by simp)
        rw [hstate]
        exact hmoves
    rw [Outcome.state_map]
    exact ⟨_, Announces.store hc hmoves.state⟩
  | @processed ref c hsyn hactive hc hignored hsynAck =>
    have ht := process_tracked now (p.detectPacketFlowDirection c.connectionDetail) c
    generalize process now (p.detectPacketFlowDirection c.connectionDetail) c = o at ht
    have hcommit := Announces.commit hc ht.state
    cases o with
    | thrown e t => exact ⟨_, hcommit⟩
    | returned t => exact ⟨_, hcommit.removeIfFinished ref⟩

/-- The connections a call adds to `establishedConnections`. -/
def added (r : PacketReceiverImpl) : Call → List Ref
  | .pick now packet =>
    (r.step (.pick now packet)).establishedConnections.drop r.establishedConnections.length
  | .poll => []
  | .read _ _ => []
  | .readInto _ _ _ _ _ => []

/-- The connection a call of `poll` returns. -/
def polled (r : PacketReceiverImpl) : Call → List Ref
  | .pick _ _ => []
  | .poll => r.poll.1.toList
  | .read _ _ => []
  | .readInto _ _ _ _ _ => []

/-- A call adds each connection as often as it makes it Established. -/
def AnnouncesEstablished (r : PacketReceiverImpl) (call : Call) : Prop :=
  ∀ ref, Moves (r.stateOf ref) ((r.added call).count ref) ((r.step call).stateOf ref)

theorem onStream_announces (r : PacketReceiverImpl) (ref : Ref) (x : Side)
    (f : DynamicByteArrayInputStream → DynamicByteArrayInputStream) :
    Announces r [] (r.onStream ref x f) := by
  unfold onStream
  split
  · exact .refl r
  · rename_i c hc
    exact .store hc (.refl _)

/-- What a call takes from the front of the queue and adds to its end. -/
theorem step_announces {r : PacketReceiverImpl} (h : Waiting.Sound r) (call : Call) :
    r.AnnouncesEstablished call ∧
      r.polled call ++ (r.step call).establishedConnections =
        r.establishedConnections ++ r.added call := by
  cases call with
  | pick now packet =>
    obtain ⟨l, hl⟩ := pick_announces now (TCPPacketImpl packet) h
    have hadded : r.added (.pick now packet) = l := by
      have hqueue : (r.step (.pick now packet)).establishedConnections =
        r.establishedConnections ++ l := hl.queue
      rw [added, hqueue, List.drop_left]
    rw [AnnouncesEstablished, hadded]
    exact ⟨hl.moves, hl.queue⟩
  | poll =>
    refine ⟨fun ref => .refl _, ?_⟩
    cases hq : r.establishedConnections <;> simp [polled, added, poll, step, call, hq]
  | read ref x =>
    have hr := onStream_announces r ref x fun s => s.read.left s
    exact ⟨hr.moves, hr.queue⟩
  | readInto ref x bLength off len =>
    have hr := onStream_announces r ref x fun s => (s.readInto bLength off len).left s
    exact ⟨hr.moves, hr.queue⟩

/-! ## Runs -/

/-- The queue of a run: what was polled and what still waits is what was
added, in this order. -/
theorem run_queue {r : PacketReceiverImpl} (h : Waiting.Sound r) (calls : List Call) :
    Run.outputs step polled r calls ++ (Run.after step r calls).establishedConnections =
      r.establishedConnections ++ Run.outputs step added r calls := by
  induction calls generalizing r with
  | nil => simp [Run.outputs]
  | cons call calls ih =>
    simp only [Run.outputs, Run.after_cons, List.append_assoc]
    rw [ih (Waiting.sound_step h call), ← List.append_assoc, (step_announces h call).2,
      List.append_assoc]

/-- In every run each connection is added to `establishedConnections` at
most once, and by the call in which its state becomes Established; `poll`
returns the connections in the order in which they were added, and none of
them twice. -/
theorem announced_once (filter : ConnectionFilter) (calls : List Call) :
    (Run.outputs step added (create filter) calls).Nodup ∧
      Run.Along step AnnouncesEstablished (create filter) calls ∧
      Run.outputs step polled (create filter) calls ++
          (Run.after step (create filter) calls).establishedConnections =
        Run.outputs step added (create filter) calls := by
  have hstart := Waiting.sound_create filter
  refine ⟨?_, ?_, run_queue hstart calls⟩
  · have hmoves := Run.outputs_invariant added (I := Waiting.Sound)
      (R := fun r l r' => ∀ ref, Moves (r.stateOf ref) (l.count ref) (r'.stateOf ref))
      (fun _ _ => .refl _)
      (fun h h' ref => by
        rw [List.count_append]
        exact (h ref).trans (h' ref))
      (fun r call h => ⟨(step_announces h call).1, Waiting.sound_step h call⟩) calls hstart
    rw [List.nodup_iff_count_le_one]
    intro ref
    have hvisits := moves_visits (hmoves ref)
    have hle := Bool.toNat_le
      (hasBeenEstablished ((Run.after step (create filter) calls).stateOf ref))
    omega
  · exact Run.along_of_invariant (I := Waiting.Sound) (C := fun _ _ => True)
      (fun r call h _ => ⟨(step_announces h call).1, Waiting.sound_step h call⟩) hstart
      (Run.along_of_forall step (P := fun _ => True) _ fun _ _ => trivial)

end PacketReceiverImpl

end ConnectionSniffer
