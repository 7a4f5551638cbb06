import ConnectionSniffer.Receiver.Run

/-!
# Where the filter is enforced

`Enforced r` says that the filter accepts every connection that is active
or waits for `poll`.  A SYN that the filter rejects makes no connection,
but the promotion of a half-way connection does not ask the filter.
`enforced_iff` states the exact condition: every state of a run is
`Enforced` if and only if each promotion of the run is of a connection
that the filter accepts.
-/

namespace ConnectionSniffer

namespace PacketReceiverImpl

/-- Active, or announced and not yet polled. -/
def Listed (r : PacketReceiverImpl) (ref : Ref) : Prop :=
  ref ∈ r.establishedConnections ∨ ∃ key, r.activeConnections.get key = some ref

/-- The filter accepts every listed connection. -/
def Enforced (r : PacketReceiverImpl) : Prop :=
  ∀ ref c, r.Listed ref → r.deref ref = some c →
    r.filter.isAcceptable c.connectionDetail = true

/-- The packet promotes the half-way connection `c`. -/
def Promotes (r : PacketReceiverImpl) (p : TCPPacket) (c : TCPConnectionImpl) : Prop :=
  p.isHandsShake1Packet = false ∧ r.activeConnections.get p.connectionDetail = none ∧
    p.isContainsData = true ∧
    ∃ ref, r.halfWayConnections.get p.connectionDetail = some ref ∧ r.deref ref = some c ∧
      completesExchange (p.detectPacketFlowDirection c.connectionDetail) c = true

/-- If the call promotes a connection, the filter accepts it. -/
def PromotesAccepted (r : PacketReceiverImpl) : Call → Prop
  | .pick _ packet => ∀ c, r.Promotes (TCPPacketImpl packet) c →
      r.filter.isAcceptable c.connectionDetail = true
  | .poll => True
  | .read _ _ => True
  | .readInto _ _ _ _ _ => True

namespace Enforced

variable {r : PacketReceiverImpl}

theorem create (filter : ConnectionFilter) : Enforced (create filter) := by
  intro ref c _ hc
  simp [PacketReceiverImpl.create, PacketReceiverImpl.deref] at hc

/-- Announcing a connection that the filter accepts. -/
theorem commit (h : Enforced r) {ref : Ref} {c : TCPConnectionImpl} {t : Delivery}
    (hc : r.deref ref = some c) (hdetail : t.connection.connectionDetail = c.connectionDetail)
    (hacc : r.filter.isAcceptable c.connectionDetail = true) : Enforced (r.commit ref t) := by
  intro ref' c' hlisted hc'
  rw [deref_commit] at hc'
  by_cases href : ref = ref'
  · subst href
    rw [deref_store_self hc] at hc'
    rw [← Option.some.inj hc', hdetail]
    exact hacc
  · rw [deref_store_ne href] at hc'
    refine h _ _ ?_ hc'
    rcases hlisted with hest | hactive
    · rcases List.mem_append.mp hest with hold | hnew
      · exact Or.inl hold
      · exact absurd (List.eq_of_mem_replicate hnew).symm href
    · exact Or.inr hactive

/-- Storing a listed connection that kept its endpoints. -/
theorem store (h : Enforced r) {ref : Ref} {c c' : TCPConnectionImpl}
    (hc : r.deref ref = some c) (hdetail : c'.connectionDetail = c.connectionDetail) :
    Enforced (r.store ref c') := by
  intro ref' c₀ hlisted hc₀
  by_cases href : ref = ref'
  · subst href
    rw [deref_store_self hc] at hc₀
    rw [← Option.some.inj hc₀, hdetail]
    exact h _ _ hlisted hc
  · rw [deref_store_ne href] at hc₀
    exact h _ _ hlisted hc₀

theorem moved (h : Enforced r) {ref : Ref} {c : TCPConnectionImpl} (hc : r.deref ref = some c)
    (hacc : r.filter.isAcceptable c.connectionDetail = true) : Enforced (r.moved ref c) := by
  rintro ref' c' (hest | ⟨key, hactive⟩) hc'
  · exact h _ _ (Or.inl hest) hc'
  · simp only [PacketReceiverImpl.moved, HashMap.get_put] at hactive
    split at hactive
    · obtain rfl := Option.some.inj hactive
      obtain rfl := Option.some.inj (hc.symm.trans hc')
      exact hacc
    · exact h _ _ (Or.inr ⟨key, hactive⟩) hc'

theorem removeIfFinished (h : Enforced r) (ref : Ref) : Enforced (r.removeIfFinished ref) := by
  intro ref' c hlisted hc
  rw [deref_removeIfFinished] at hc
  rw [filter_removeIfFinished]
  refine h _ _ ?_ hc
  rcases hlisted with hest | ⟨key, hactive⟩
  · exact Or.inl (by simpa using hest)
  · refine Or.inr ⟨key, ?_⟩
    unfold PacketReceiverImpl.removeIfFinished at hactive
    split at hactive
    · exact hactive
    · split at hactive
      · simp only [HashMap.get_remove] at hactive
        split at hactive
        · exact absurd hactive (by simp)
        · exact hactive
      · exact hactive

theorem open_active (h : Enforced r) {c : TCPConnectionImpl}
    (hacc : r.filter.isAcceptable c.connectionDetail = true) : Enforced { r.allocate c with
      activeConnections := r.activeConnections.put c.connectionDetail r.heap.length } := by
  intro ref c' hlisted hc'
  rcases deref_allocate hc' with hold | ⟨rfl, rfl⟩
  · refine h _ _ ?_ hold
    rcases hlisted with hest | ⟨key, hactive⟩
    · exact Or.inl hest
    · simp only [HashMap.get_put] at hactive
      split at hactive
      · obtain rfl := Option.some.inj hactive
        exact absurd (deref_lt hold) (lt_irrefl _)
      · exact Or.inr ⟨key, hactive⟩
  · exact hacc

theorem open_halfWay (h : Enforced r) (hwf : WellFormed r) (c : TCPConnectionImpl) :
    Enforced { r.allocate c with
      halfWayConnections := r.halfWayConnections.put c.connectionDetail r.heap.length } := by
  intro ref c' hlisted hc'
  rcases deref_allocate hc' with hold | ⟨rfl, rfl⟩
  · exact h _ _ hlisted hold
  · rcases hlisted with hest | ⟨key, hactive⟩
    · exact absurd (hwf.established hest) (lt_irrefl _)
    · obtain ⟨c₀, hc₀, -⟩ := hwf.active hactive
      exact absurd (deref_lt hc₀) (lt_irrefl _)

end Enforced

/-- A pick keeps the filter enforced, if a connection it promotes is
accepted. -/
theorem pick_enforced {now : Date} {p : TCPPacket} {r : PacketReceiverImpl} (hwf : WellFormed r)
    (h : Enforced r)
    (hp : ∀ c, r.Promotes p c → r.filter.isAcceptable c.connectionDetail = true) :
    Enforced (r.pick now p).state := by
  have hpicked := picked_pick now p r
  generalize r.pick now p = o at hpicked
  cases hpicked with
  | rejected => exact h
  | opened hsyn hfilter => exact h.open_active (c := synConnection now p) hfilter
  | noPayload => exact h
  | candidate => exact h.open_halfWay hwf (halfWayConnection now p)
  | @promoted ref c hsyn hactive hdata hhalf hc hdone =>
    have hacc := hp c ⟨hsyn, hactive, hdata, ref, hhalf, hc, hdone⟩
    have hdetail := (promote_detail now (p.detectPacketFlowDirection c.connectionDetail) c).state
    rw [Outcome.state_map]
    exact (h.moved hc hacc).commit hc hdetail hacc
  | @buffered ref c hsyn hactive hdata hhalf hc hdone =>
    have hdetail := (bufferPacket_detail (p.detectPacketFlowDirection c.connectionDetail) c).state
    rw [Outcome.state_map]
    exact h.store hc hdetail
  | danglingHalfWay => exact h
  | danglingActive => exact h
  | ignored => exact h
  | @answered ref c hsyn hactive hc hignored hsynAck =>
    have hdetail :=
      (processSyncAckPacket_detail (p.detectPacketFlowDirection c.connectionDetail) c).state
    rw [Outcome.state_map]
    exact h.store hc hdetail
  | @processed ref c hsyn hactive hc hignored hsynAck =>
    have hdetail := (process_detail now (p.detectPacketFlowDirection c.connectionDetail) c).state
    generalize process now (p.detectPacketFlowDirection c.connectionDetail) c = o at hdetail
    have hcommit := h.commit hc hdetail (h _ _ (Or.inr ⟨_, hactive⟩) hc)
    cases o with
    | thrown e t => exact hcommit
    | returned t => exact hcommit.removeIfFinished ref

/-- Where the filter is enforced after a pick, it accepts the connection
that the pick promoted. -/
theorem accepted_of_pick {now : Date} {p : TCPPacket} {r : PacketReceiverImpl}
    (h : Enforced (r.pick now p).state) (c : TCPConnectionImpl) (hp : r.Promotes p c) :
    r.filter.isAcceptable c.connectionDetail = true := by
  obtain ⟨hsyn, hactive, hdata, ref, hhalf, hc, hdone⟩ := hp
  have hpick : r.pick now p = _ := picked_iff.mp (.promoted hsyn hactive hdata hhalf hc hdone)
  have hdetail := (promote_detail now (p.detectPacketFlowDirection c.connectionDetail) c).state
  rw [hpick, Outcome.state_map] at h
  rw [← show _ = c.connectionDetail from hdetail]
  refine h ref _ (Or.inr ⟨c.connectionDetail, ?_⟩) (deref_store_self hc)
  simp [PacketReceiverImpl.commit, PacketReceiverImpl.store, moved]

theorem enforced_step {r : PacketReceiverImpl} {c : Call} (hwf : WellFormed r) (h : Enforced r)
    (hc : r.PromotesAccepted c) : Enforced (r.step c) := by
  have hstream : ∀ ref x f, Enforced (r.onStream ref x f) := by
    intro ref x f
    unfold onStream
    split
    · exact h
    · rename_i c hc
      exact h.store hc rfl
  cases c with
  | pick now packet => exact pick_enforced hwf h hc
  | poll =>
    rintro ref c (hest | hactive) hc
    · exact h _ _ (Or.inl (List.mem_of_mem_tail hest)) hc
    · exact h _ _ (Or.inr hactive) hc
  | read ref x => exact hstream ref x fun s => s.read.left s
  | readInto ref x bLength off len =>
    exact hstream ref x fun s => (s.readInto bLength off len).left s

/-- The filter is enforced throughout a run exactly when it accepts every
connection that the run promotes from half-way. -/
theorem enforced_iff (filter : ConnectionFilter) (calls : List Call) :
    Run.Throughout step Enforced (create filter) calls ↔
      Run.Along step PromotesAccepted (create filter) calls := by
  constructor
  · refine Run.along_of_throughout (I := WellFormed) (D := fun _ _ => True)
      (fun r c hwf _ _ => step_wellFormed hwf c) ?_ (wellFormed_create filter)
      (Run.along_of_forall step _ fun _ _ => trivial)
    intro r c _ _ hafter
    cases c with
    | pick now packet => exact fun c hp => accepted_of_pick hafter c hp
    | poll => trivial
    | read ref x => trivial
    | readInto ref x bLength off len => trivial
  · intro halong
    refine Run.Throughout.mono (fun r h => h.2) (Run.throughout
      (I := fun r => WellFormed r ∧ Enforced r) (C := PromotesAccepted) ?_
      ⟨wellFormed_create filter, Enforced.create filter⟩ halong)
    rintro r c ⟨hwf, h⟩ hc
    exact ⟨step_wellFormed hwf c, enforced_step hwf h hc⟩

/-- Only port 80 is wanted.  A connection to port 25, whose SYN is rejected,
is delivered after one exchange of data. -/
theorem rejected_connection_delivered :
    let filter : ConnectionFilter := { filters := [{ serverPort := 80 }] }
    let client := InetAddress.inet4 10 0 0 1
    let server := InetAddress.inet4 10 0 0 2
    let calls : List Call := [
      .pick 0 ⟨client, server, 50000, 25, 100, 0, false, false, true, false, [], 0⟩,
      .pick 1 ⟨client, server, 50000, 25, 101, 501, true, false, false, false, [1], 1⟩,
      .pick 2 ⟨server, client, 25, 50000, 501, 102, true, false, false, false, [2], 2⟩]
    let r := Run.after step (create filter) calls
    (r.poll.1.bind r.deref).map (fun c => filter.isAcceptable c.connectionDetail) =
      some false := by
  decide

end PacketReceiverImpl

end ConnectionSniffer
