import ConnectionSniffer.Connection.Handlers
import ConnectionSniffer.Library.Run
import ConnectionSniffer.Receiver.Pick

/-!
# Runs of the receiver

A run is a list of calls from outside: the capture thread picks packets,
and consumers poll for connections and read their streams.  A call is
atomic, as the capture thread is the only caller of `pick` and the methods
of a stream are synchronized.

`WellFormed` says that the two tables and the queue hold what the code
takes for granted: every reference leads to a connection, a connection is
stored under its own endpoints, and no connection is in both tables.

`Tables A H` says that every active connection has `A` and every half-way
connection has `H`.  `PickRule` lists what `A` and `H` have to survive, and
`pick_ends` concludes that `pick` keeps them.  `PickInvariant` and
`pick_tables` are the same where it does not matter what was thrown.
-/

namespace ConnectionSniffer

/-- A call from outside. -/
inductive Call where
  | pick (now : Date) (packet : JpcapPacket)
  | poll
  | read (ref : Ref) (x : Side)
  | readInto (ref : Ref) (x : Side) (bLength off len : Int)

namespace PacketReceiverImpl

/-- `new PacketReceiverImpl(filter)`. -/
def create (filter : ConnectionFilter) : PacketReceiverImpl := { filter }

/-- Change one stream of one connection. -/
def onStream (r : PacketReceiverImpl) (ref : Ref) (x : Side)
    (f : DynamicByteArrayInputStream → DynamicByteArrayInputStream) : PacketReceiverImpl :=
  match r.deref ref with
  | none => r
  | some c =>
    r.store ref { c with inputStream := c.inputStream.set x (f (c.inputStream.get x)) }

/-- What a call does. -/
def call (r : PacketReceiverImpl) : Call → Outcome Throwable PacketReceiverImpl
  | .pick now packet => r.pick now (TCPPacketImpl packet)
  | .poll => .returned r.poll.2
  | .read ref x => .returned (r.onStream ref x fun s => s.read.left s)
  | .readInto ref x bLength off len =>
    .returned (r.onStream ref x fun s => (s.readInto bLength off len).left s)

/-- The receiver after a call, whether or not it threw. -/
def step (r : PacketReceiverImpl) (c : Call) : PacketReceiverImpl := (r.call c).state

/-- The receivers that some run leads to. -/
def Reachable (filter : ConnectionFilter) (r : PacketReceiverImpl) : Prop :=
  ∃ calls, Run.after step (create filter) calls = r

/-! ## Well-formed receivers -/

structure WellFormed (r : PacketReceiverImpl) : Prop where
  active : ∀ {key ref}, r.activeConnections.get key = some ref →
    ∃ c, r.deref ref = some c ∧ (c.connectionDetail == key) = true
  halfWay : ∀ {key ref}, r.halfWayConnections.get key = some ref →
    ∃ c, r.deref ref = some c ∧ (c.connectionDetail == key) = true
  apart : ∀ {key key' ref}, r.activeConnections.get key = some ref →
    r.halfWayConnections.get key' ≠ some ref
  established : ∀ {ref}, ref ∈ r.establishedConnections → ref < r.heap.length

theorem wellFormed_create (filter : ConnectionFilter) : WellFormed (create filter) where
  active := by simp [create]
  halfWay := by simp [create]
  apart := by simp [create]
  established := by simp [create]

namespace WellFormed

variable {r : PacketReceiverImpl}

/-- The connection behind an active entry. -/
theorem deref_active (h : WellFormed r) {key : ConnectionDetail} {ref : Ref}
    {c : TCPConnectionImpl} (hactive : r.activeConnections.get key = some ref)
    (hc : r.deref ref = some c) : (c.connectionDetail == key) = true := by
  obtain ⟨c', hc', hkey⟩ := h.active hactive
  rw [hc] at hc'
  rwa [Option.some.inj hc']

theorem deref_halfWay (h : WellFormed r) {key : ConnectionDetail} {ref : Ref}
    {c : TCPConnectionImpl} (hhalf : r.halfWayConnections.get key = some ref)
    (hc : r.deref ref = some c) : (c.connectionDetail == key) = true := by
  obtain ⟨c', hc', hkey⟩ := h.halfWay hhalf
  rw [hc] at hc'
  rwa [Option.some.inj hc']

/-- Storing a connection that kept its endpoints. -/
theorem store (h : WellFormed r) {ref : Ref} {c c' : TCPConnectionImpl}
    (hc : r.deref ref = some c) (hdetail : c'.connectionDetail = c.connectionDetail) :
    WellFormed (r.store ref c') := by
  have hderef : ∀ {key ref'}, (∃ c, r.deref ref' = some c ∧ (c.connectionDetail == key) = true) →
      ∃ c, (r.store ref c').deref ref' = some c ∧ (c.connectionDetail == key) = true := by
    rintro key ref' ⟨c₀, hc₀, hkey⟩
    by_cases hne : ref = ref'
    · subst hne
      rw [hc] at hc₀
      obtain rfl := Option.some.inj hc₀
      exact ⟨c', deref_store_self hc, by rwa [hdetail]⟩
    · exact ⟨c₀, by rwa [deref_store_ne hne], hkey⟩
  exact
    { active := fun hget => hderef (h.active hget)
      halfWay := fun hget => hderef (h.halfWay hget)
      apart := h.apart
      established := fun hmem => by
        have := h.established hmem
        simpa [PacketReceiverImpl.store] using this }

/-- Announcing a stored connection. -/
theorem commit (h : WellFormed r) {ref : Ref} {c : TCPConnectionImpl} {t : Delivery}
    (hc : r.deref ref = some c) (hdetail : t.connection.connectionDetail = c.connectionDetail) :
    WellFormed (r.commit ref t) := by
  have hs := h.store hc hdetail
  refine ⟨hs.active, hs.halfWay, hs.apart, ?_⟩
  intro ref' hmem
  rcases List.mem_append.mp hmem with hold | hnew
  · exact hs.established hold
  · obtain rfl := List.eq_of_mem_replicate hnew
    have := deref_lt hc
    simpa [PacketReceiverImpl.commit, PacketReceiverImpl.store] using this

theorem removeIfFinished (h : WellFormed r) (ref : Ref) : WellFormed (r.removeIfFinished ref) := by
  unfold PacketReceiverImpl.removeIfFinished
  split
  · exact h
  · rename_i c hc
    split
    · have hsub : ∀ {key ref'},
          (r.activeConnections.remove c.connectionDetail).get key = some ref' →
          r.activeConnections.get key = some ref' := by
        intro key ref' hget
        rw [HashMap.get_remove] at hget
        split at hget
        · exact absurd hget (by simp)
        · exact hget
      exact ⟨fun hget => h.active (hsub hget), h.halfWay, fun hget => h.apart (hsub hget),
        h.established⟩
    · exact h

/-- A new connection in the table of active connections. -/
theorem open_active (h : WellFormed r) {c : TCPConnectionImpl} :
    WellFormed { r.allocate c with
      activeConnections := r.activeConnections.put c.connectionDetail r.heap.length } := by
  refine ⟨?_, ?_, ?_, ?_⟩
  · intro key ref hget
    simp only [HashMap.get_put] at hget
    split at hget
    · rename_i hkey
      obtain rfl := Option.some.inj hget
      exact ⟨c, deref_allocate_self r c, hkey⟩
    · obtain ⟨c', hc', hkey⟩ := h.active hget
      exact ⟨c', deref_allocate_of_some hc', hkey⟩
  · intro key ref hget
    obtain ⟨c', hc', hkey⟩ := h.halfWay hget
    exact ⟨c', deref_allocate_of_some hc', hkey⟩
  · intro key key' ref hget hhalf
    obtain ⟨c', hc', -⟩ := h.halfWay hhalf
    simp only [HashMap.get_put] at hget
    split at hget
    · obtain rfl := Option.some.inj hget
      exact absurd (deref_lt hc') (lt_irrefl _)
    · exact h.apart hget hhalf
  · intro ref hmem
    have := h.established hmem
    simp only [allocate, List.length_append, List.length_singleton]
    exact Nat.lt_succ_of_lt this

/-- A new connection in the table of half-way connections. -/
theorem open_halfWay (h : WellFormed r) {c : TCPConnectionImpl} :
    WellFormed { r.allocate c with
      halfWayConnections := r.halfWayConnections.put c.connectionDetail r.heap.length } := by
  refine ⟨?_, ?_, ?_, ?_⟩
  · intro key ref hget
    obtain ⟨c', hc', hkey⟩ := h.active hget
    exact ⟨c', deref_allocate_of_some hc', hkey⟩
  · intro key ref hget
    simp only [HashMap.get_put] at hget
    split at hget
    · rename_i hkey
      obtain rfl := Option.some.inj hget
      exact ⟨c, deref_allocate_self r c, hkey⟩
    · obtain ⟨c', hc', hkey⟩ := h.halfWay hget
      exact ⟨c', deref_allocate_of_some hc', hkey⟩
  · intro key key' ref hget hhalf
    obtain ⟨c', hc', -⟩ := h.active hget
    simp only [HashMap.get_put] at hhalf
    split at hhalf
    · obtain rfl := Option.some.inj hhalf
      exact absurd (deref_lt hc') (lt_irrefl _)
    · exact h.apart hget hhalf
  · intro ref hmem
    have := h.established hmem
    simp only [allocate, List.length_append, List.length_singleton]
    exact Nat.lt_succ_of_lt this

/-- A half-way connection moves to the active ones. -/
theorem moved (h : WellFormed r) {ref : Ref} {c : TCPConnectionImpl}
    (hc : r.deref ref = some c) : WellFormed (r.moved ref c) := by
  refine ⟨?_, ?_, ?_, h.established⟩
  · intro key' ref' hget
    simp only [PacketReceiverImpl.moved, HashMap.get_put] at hget
    split at hget
    · rename_i hkey
      obtain rfl := Option.some.inj hget
      exact ⟨c, hc, hkey⟩
    · exact h.active hget
  · intro key' ref' hget
    simp only [PacketReceiverImpl.moved, HashMap.get_remove] at hget
    split at hget
    · exact absurd hget (by simp)
    · exact h.halfWay hget
  · intro key' key'' ref' hget hget'
    simp only [PacketReceiverImpl.moved, HashMap.get_put] at hget
    simp only [PacketReceiverImpl.moved, HashMap.get_remove] at hget'
    split at hget'
    · exact absurd hget' (by simp)
    · rename_i hne
      split at hget
      · obtain rfl := Option.some.inj hget
        exact hne (h.deref_halfWay hget' hc)
      · exact h.apart hget hget'

end WellFormed

/-! ## Rules for the parts of `pick` -/

section Rules

variable {now : Date} {I E : TCPConnectionImpl → Prop}

/-- The buffer of one side takes a packet, or it is full and nothing
happens. -/
theorem bufferPacket_sat {p : TCPPacket} {c : TCPConnectionImpl} (hthrown : E c)
    (hreturned : I (c.setBuffer p.side
      (TreeSet.add TCPPacket.compareTo p (c.packetsBuffer.get p.side)))) :
    (bufferPacket p c).Sat I E := by
  unfold bufferPacket PacketsBuffer.addToTemporaryStoredDataPackets
  split
  · exact hthrown
  · exact hreturned

/-- What holds of the buffered packets and of one more holds of all of them
together. -/
theorem forall_mem_add {P : Side → TCPPacket → Prop} {p : TCPPacket} {c : TCPConnectionImpl}
    (h : ∀ x, ∀ q ∈ c.packetsBuffer.get x, P x q) (hp : P p.side p) :
    ∀ q ∈ TreeSet.add TCPPacket.compareTo p (c.packetsBuffer.get p.side), P p.side q := by
  intro q hq
  rcases TreeSet.mem_of_mem_add _ hq with rfl | hq
  · exact hp
  · exact h _ q hq

/-- The rule of `process`: handle the packet, or buffer it and drain. -/
theorem process_ends {I : Delivery → Prop} {F : Throwable → Delivery → Prop}
    (h : Delivery.DeliveryRule now I F) {p : TCPPacket} {c : TCPConnectionImpl}
    (herror : ∀ e, c.isCanProcessPacket p = .error e → F e ⟨c, 0⟩)
    (hfull : F .packetsBufferFullException ⟨c, 0⟩)
    (hdirect : c.isCanProcessPacket p = .ok true → (Delivery.deliver now p ⟨c, 0⟩).Ends I F)
    (hbuffer : c.isCanProcessPacket p = .ok false → I ⟨c.setBuffer p.side
      (TreeSet.add TCPPacket.compareTo p (c.packetsBuffer.get p.side)), 0⟩) :
    (process now p c).Ends I F := by
  unfold process
  split
  · rename_i hcan
    exact herror _ hcan
  · rename_i hcan
    exact h.handlePacket_ends (fun t ht => h.tryToProcessPacketsInBuffer_ends ht) (hdirect hcan)
  · rename_i hcan
    refine Outcome.Ends.andThen (Q := I) ?_ fun t ht => h.tryToProcessPacketsInBuffer_ends ht
    rw [Outcome.ends_map]
    unfold PacketsBuffer.addToTemporaryStoredDataPackets
    split
    · exact hfull
    · exact hbuffer hcan

/-- `process_ends` where it does not matter what was thrown. -/
theorem process_sat {I E : Delivery → Prop} (h : Delivery.DeliveryInvariant now I E)
    {p : TCPPacket} {c : TCPConnectionImpl} (hI : I ⟨c, 0⟩)
    (hdirect : c.isCanProcessPacket p = .ok true → (Delivery.deliver now p ⟨c, 0⟩).Sat I E)
    (hbuffer : c.isCanProcessPacket p = .ok false → I ⟨c.setBuffer p.side
      (TreeSet.add TCPPacket.compareTo p (c.packetsBuffer.get p.side)), 0⟩) :
    (process now p c).Sat I E :=
  Outcome.ends_const.mp (process_ends h.rule (fun _ _ => h.thrown _ hI) (h.thrown _ hI)
    (fun hcan => Outcome.ends_const.mpr (hdirect hcan)) hbuffer)

/-- `process_sat` for properties of the connection alone. -/
theorem process_leaves (h : Delivery.DrainInvariant now I E) {p : TCPPacket}
    {c : TCPConnectionImpl} (hI : I c)
    (hdirect : c.isCanProcessPacket p = .ok true → (Delivery.deliver now p ⟨c, 0⟩).Leaves I E)
    (hbuffer : c.isCanProcessPacket p = .ok false → I (c.setBuffer p.side
      (TreeSet.add TCPPacket.compareTo p (c.packetsBuffer.get p.side)))) :
    (process now p c).Leaves I E :=
  process_sat h.deliveryInvariant hI hdirect hbuffer

/-- The connection `promote` starts from: the other side's counter as the
packet tells it. -/
def primed (p : TCPPacket) (c : TCPConnectionImpl) : TCPConnectionImpl :=
  { c with
    counter := c.counter.set p.side.other
      { c.counter.get p.side.other with seq := p.ackNum, ack := p.sequence }
    state := some .established }

/-- The rule of `promote`: take the packet, then drain. -/
theorem promote_ends {I : Delivery → Prop} {F : Throwable → Delivery → Prop}
    (h : Delivery.DeliveryRule now I F) {p : TCPPacket} {c : TCPConnectionImpl}
    (hdata : ((primed p c).processDataPacket now p).Ends
      (fun c' => I ⟨c'.record (some .established) p, 1⟩) (fun e c' => F e ⟨c', 1⟩)) :
    (promote now p c).Ends I F := by
  unfold promote Delivery.apply
  refine Outcome.Ends.andThen
    (Q := fun t => I ⟨t.connection.record (some .established) p, t.announced⟩) ?_
    fun t ht => h.tryToProcessPacketsInBuffer_ends ht
  rw [Outcome.ends_map]
  exact hdata

/-- `promote_ends` where it does not matter what was thrown. -/
theorem promote_sat {I E : Delivery → Prop} (h : Delivery.DeliveryInvariant now I E)
    {p : TCPPacket} {c : TCPConnectionImpl}
    (hdata : ((primed p c).processDataPacket now p).Sat
      (fun c' => I ⟨c'.record (some .established) p, 1⟩) (fun c' => E ⟨c', 1⟩)) :
    (promote now p c).Sat I E :=
  Outcome.ends_const.mp (promote_ends h.rule (Outcome.ends_const.mpr hdata))

/-- `promote_sat` for properties of the connection alone. -/
theorem promote_leaves (h : Delivery.DrainInvariant now I E) {p : TCPPacket}
    {c : TCPConnectionImpl}
    (hdata : ((primed p c).processDataPacket now p).Sat
      (fun c' => I (c'.record (some .established) p)) E) : (promote now p c).Leaves I E :=
  promote_sat h.deliveryInvariant hdata

end Rules

section Detail

variable (now : Date) (p : TCPPacket) (c : TCPConnectionImpl)

theorem process_detail : (process now p c).Leaves
    (fun c' => c'.connectionDetail = c.connectionDetail)
    (fun c' => c'.connectionDetail = c.connectionDetail) := by
  refine process_leaves (Delivery.detailInvariant now c.connectionDetail) rfl ?_ (fun _ => rfl)
  intro _
  exact (Delivery.deliver_frame now p c 0).mono (fun _ h => h.connectionDetail)
    (fun _ h => h.connectionDetail)

theorem promote_detail : (promote now p c).Leaves
    (fun c' => c'.connectionDetail = c.connectionDetail)
    (fun c' => c'.connectionDetail = c.connectionDetail) := by
  refine promote_leaves (Delivery.detailInvariant now c.connectionDetail) ?_
  exact (Delivery.processDataPacket_frame now p (primed p c)).mono (fun _ h => h.connectionDetail)
    (fun _ h => h.connectionDetail)

theorem processSyncAckPacket_detail : (c.processSyncAckPacket p).Sat
    (fun c' => c'.connectionDetail = c.connectionDetail)
    (fun c' => c'.connectionDetail = c.connectionDetail) := by
  unfold TCPConnectionImpl.processSyncAckPacket
  split <;> rfl

theorem bufferPacket_detail : (bufferPacket p c).Sat
    (fun c' => c'.connectionDetail = c.connectionDetail)
    (fun c' => c'.connectionDetail = c.connectionDetail) :=
  bufferPacket_sat rfl rfl

/-- A part of `pick` that keeps the endpoints keeps what is said of the
connections with endpoints in `K`, if it does so for these. -/
theorem leaves_of_detail {K : ConnectionDetail → Prop} {I E : TCPConnectionImpl → Prop}
    {d : ConnectionDetail} {o : Outcome Throwable Delivery}
    (hdetail : o.Leaves (fun c => c.connectionDetail = d) (fun c => c.connectionDetail = d))
    (h : K d → o.Leaves I E) :
    o.Leaves (fun c => K c.connectionDetail → I c) (fun c => K c.connectionDetail → E c) := by
  by_cases hd : K d
  · exact (h hd).mono (fun _ hI _ => hI) (fun _ hE _ => hE)
  · refine hdetail.mono ?_ ?_
    · intro t ht hK
      exact absurd (ht ▸ hK) hd
    · intro t ht hK
      exact absurd (ht ▸ hK) hd

end Detail

/-- `pick` keeps the receiver well-formed, also when it throws. -/
theorem pick_wellFormed (now : Date) (p : TCPPacket) {r : PacketReceiverImpl}
    (h : WellFormed r) : (r.pick now p).Sat WellFormed WellFormed := by
  have hp := picked_pick now p r
  generalize r.pick now p = o at hp
  cases hp with
  | rejected => exact h
  | opened => exact h.open_active (c := synConnection now p)
  | noPayload => exact h
  | candidate => exact h.open_halfWay (c := halfWayConnection now p)
  | promoted hsyn hactive hdata hhalf hc hdone =>
    rw [Outcome.sat_map]
    exact (promote_detail now _ _).mono (fun t ht => (h.moved hc).commit hc ht)
      (fun t ht => (h.moved hc).commit hc ht)
  | buffered hsyn hactive hdata hhalf hc hdone =>
    rw [Outcome.sat_map]
    exact (bufferPacket_detail _ _).mono (fun _ h' => h.store hc h') (fun _ h' => h.store hc h')
  | danglingHalfWay => exact h
  | danglingActive => exact h
  | ignored => exact h
  | answered hsyn hactive hc hignored hsynAck =>
    rw [Outcome.sat_map]
    exact (processSyncAckPacket_detail _ _).mono (fun _ h' => h.store hc h')
      (fun _ h' => h.store hc h')
  | processed hsyn hactive hc hignored hsynAck =>
    refine Outcome.Sat.andThen (Q := WellFormed) ?_ (fun r' h' => h'.removeIfFinished _)
    rw [Outcome.sat_map]
    exact (process_detail now _ _).mono (fun t ht => h.commit hc ht) (fun t ht => h.commit hc ht)

theorem onStream_wellFormed {r : PacketReceiverImpl} (h : WellFormed r) (ref : Ref) (x : Side)
    (f : DynamicByteArrayInputStream → DynamicByteArrayInputStream) :
    WellFormed (r.onStream ref x f) := by
  unfold onStream
  split
  · exact h
  · rename_i c hc
    exact h.store hc rfl

/-- Every call keeps the receiver well-formed. -/
theorem step_wellFormed {r : PacketReceiverImpl} (h : WellFormed r) (c : Call) :
    WellFormed (r.step c) := by
  cases c with
  | pick now packet => exact (pick_wellFormed now _ h).state
  | poll =>
    exact ⟨h.active, h.halfWay, h.apart, fun hmem => h.established (List.mem_of_mem_tail hmem)⟩
  | read ref x => exact onStream_wellFormed h ref x fun s => s.read.left s
  | readInto ref x bLength off len =>
    exact onStream_wellFormed h ref x fun s => (s.readInto bLength off len).left s

theorem wellFormed_of_reachable {filter : ConnectionFilter} {r : PacketReceiverImpl}
    (h : Reachable filter r) : WellFormed r := by
  obtain ⟨calls, rfl⟩ := h
  exact Run.invariant_always (I := WellFormed) (fun _ call hr => step_wellFormed hr call) calls
    (wellFormed_create filter)

/-! ## Invariants of the connections in the tables -/

/-- Every active connection has `A`, every half-way connection has `H`. -/
structure Tables (A H : TCPConnectionImpl → Prop) (r : PacketReceiverImpl) : Prop where
  active : ∀ {key ref c}, r.activeConnections.get key = some ref → r.deref ref = some c → A c
  halfWay : ∀ {key ref c}, r.halfWayConnections.get key = some ref → r.deref ref = some c → H c

theorem tables_create (A H : TCPConnectionImpl → Prop) (filter : ConnectionFilter) :
    Tables A H (create filter) where
  active := by simp [create]
  halfWay := by simp [create]

namespace Tables

variable {A A' H : TCPConnectionImpl → Prop} {r : PacketReceiverImpl}

theorem mono (h : Tables A H r) (hA : ∀ c, A c → A' c) : Tables A' H r :=
  ⟨fun hget hc => hA _ (h.active hget hc), h.halfWay⟩

/-- Storing an active connection. -/
theorem store_active (h : Tables A H r) (hwf : WellFormed r) (hA : ∀ c, A c → A' c)
    {key : ConnectionDetail} {ref : Ref} {c c' : TCPConnectionImpl}
    (hactive : r.activeConnections.get key = some ref) (hc : r.deref ref = some c)
    (hc' : A' c') : Tables A' H (r.store ref c') := by
  constructor
  · intro key' ref' c₀ hget hc₀
    by_cases hne : ref = ref'
    · subst hne
      rw [deref_store_self hc] at hc₀
      rwa [← Option.some.inj hc₀]
    · rw [deref_store_ne hne] at hc₀
      exact hA _ (h.active hget hc₀)
  · intro key' ref' c₀ hget hc₀
    have hne : ref ≠ ref' := by
      rintro rfl
      exact hwf.apart hactive hget
    rw [deref_store_ne hne] at hc₀
    exact h.halfWay hget hc₀

/-- Storing a half-way connection. -/
theorem store_halfWay (h : Tables A H r) (hwf : WellFormed r)
    {key : ConnectionDetail} {ref : Ref} {c c' : TCPConnectionImpl}
    (hhalf : r.halfWayConnections.get key = some ref) (hc : r.deref ref = some c)
    (hc' : H c') : Tables A H (r.store ref c') := by
  constructor
  · intro key' ref' c₀ hget hc₀
    have hne : ref ≠ ref' := by
      rintro rfl
      exact hwf.apart hget hhalf
    rw [deref_store_ne hne] at hc₀
    exact h.active hget hc₀
  · intro key' ref' c₀ hget hc₀
    by_cases hne : ref = ref'
    · subst hne
      rw [deref_store_self hc] at hc₀
      rwa [← Option.some.inj hc₀]
    · rw [deref_store_ne hne] at hc₀
      exact h.halfWay hget hc₀

/-- Storing a connection that has just moved to the active ones. -/
theorem store_moved (h : Tables A H r) (hwf : WellFormed r) (hA : ∀ c, A c → A' c)
    {ref : Ref} {c c' : TCPConnectionImpl} (hc : r.deref ref = some c)
    (hc' : A' c') : Tables A' H ((r.moved ref c).store ref c') := by
  have hmoved : (r.moved ref c).deref ref = some c := hc
  constructor
  · intro key' ref' c₀ hget hc₀
    by_cases hne : ref = ref'
    · subst hne
      rw [deref_store_self hmoved] at hc₀
      rwa [← Option.some.inj hc₀]
    · rw [deref_store_ne hne] at hc₀
      have hget' : r.activeConnections.get key' = some ref' := by
        simp only [store, moved, HashMap.get_put] at hget
        split at hget
        · exact absurd (Option.some.inj hget) hne
        · exact hget
      exact hA _ (h.active hget' hc₀)
  · intro key' ref' c₀ hget hc₀
    have hget' : r.halfWayConnections.get key' = some ref' ∧
        (c.connectionDetail == key') = false := by
      simp only [store, moved, HashMap.get_remove] at hget
      split at hget
      · exact absurd hget (by simp)
      · rename_i hkey
        exact ⟨hget, by simpa using hkey⟩
    have hne : ref ≠ ref' := by
      rintro rfl
      have := hwf.deref_halfWay hget'.1 hc
      rw [hget'.2] at this
      exact absurd this (by simp)
    rw [deref_store_ne hne] at hc₀
    exact h.halfWay hget'.1 hc₀

theorem removeIfFinished (h : Tables A H r) (ref : Ref) : Tables A H (r.removeIfFinished ref) := by
  constructor
  · intro key ref' c hget hc
    rw [deref_removeIfFinished] at hc
    unfold PacketReceiverImpl.removeIfFinished at hget
    split at hget
    · exact h.active hget hc
    · split at hget
      · simp only [HashMap.get_remove] at hget
        split at hget
        · exact absurd hget (by simp)
        · exact h.active hget hc
      · exact h.active hget hc
  · intro key ref' c hget hc
    rw [deref_removeIfFinished] at hc
    rw [halfWayConnections_removeIfFinished] at hget
    exact h.halfWay hget hc

theorem open_active (h : Tables A H r) (hwf : WellFormed r) {c : TCPConnectionImpl} (hc : A c) :
    Tables A H { r.allocate c with
      activeConnections := r.activeConnections.put c.connectionDetail r.heap.length } := by
  constructor
  · intro key ref c' hget hc'
    rcases deref_allocate hc' with hold | ⟨rfl, rfl⟩
    · simp only [HashMap.get_put] at hget
      split at hget
      · obtain rfl := Option.some.inj hget
        exact absurd (deref_lt hold) (lt_irrefl _)
      · exact h.active hget hold
    · exact hc
  · intro key ref c' hget hc'
    rcases deref_allocate hc' with hold | ⟨rfl, rfl⟩
    · exact h.halfWay hget hold
    · obtain ⟨c₀, hc₀, -⟩ := hwf.halfWay hget
      exact absurd (deref_lt hc₀) (lt_irrefl _)

theorem open_halfWay (h : Tables A H r) (hwf : WellFormed r) {c : TCPConnectionImpl} (hc : H c) :
    Tables A H { r.allocate c with
      halfWayConnections := r.halfWayConnections.put c.connectionDetail r.heap.length } := by
  constructor
  · intro key ref c' hget hc'
    rcases deref_allocate hc' with hold | ⟨rfl, rfl⟩
    · exact h.active hget hold
    · obtain ⟨c₀, hc₀, -⟩ := hwf.active hget
      exact absurd (deref_lt hc₀) (lt_irrefl _)
  · intro key ref c' hget hc'
    rcases deref_allocate hc' with hold | ⟨rfl, rfl⟩
    · simp only [HashMap.get_put] at hget
      split at hget
      · obtain rfl := Option.some.inj hget
        exact absurd (deref_lt hold) (lt_irrefl _)
      · exact h.halfWay hget hold
    · exact hc

end Tables

/-- The connection that `pick` hands a packet to. -/
def routed (r : PacketReceiverImpl) (p : TCPPacket) : Option TCPConnectionImpl :=
  if p.isHandsShake1Packet then none
  else
    match r.activeConnections.get p.connectionDetail with
    | some ref => r.deref ref
    | none =>
      if p.isContainsData then (r.halfWayConnections.get p.connectionDetail).bind r.deref
      else none

section Routed

variable {r : PacketReceiverImpl} {p : TCPPacket} {ref : Ref} {c : TCPConnectionImpl}

theorem routed_active (hsyn : p.isHandsShake1Packet = false)
    (hactive : r.activeConnections.get p.connectionDetail = some ref)
    (hc : r.deref ref = some c) : r.routed p = some c := by
  simp [routed, hsyn, hactive, hc]

theorem routed_halfWay (hsyn : p.isHandsShake1Packet = false)
    (hactive : r.activeConnections.get p.connectionDetail = none)
    (hdata : p.isContainsData = true)
    (hhalf : r.halfWayConnections.get p.connectionDetail = some ref)
    (hc : r.deref ref = some c) : r.routed p = some c := by
  simp [routed, hsyn, hactive, hdata, hhalf, hc]

/-- `equals` takes it for the connection of the packet. -/
theorem WellFormed.pair_of_routed (hwf : WellFormed r) (h : r.routed p = some c) :
    (c.connectionDetail == p.connectionDetail) = true := by
  unfold routed at h
  split at h
  · exact absurd h (by simp)
  · split at h
    · rename_i hactive
      exact hwf.deref_active hactive h
    · split at h
      · obtain ⟨ref, hhalf, hc⟩ := Option.bind_eq_some_iff.mp h
        exact hwf.deref_halfWay hhalf hc
      · exact absurd h (by simp)

end Routed

/-- What a property `A` of active and a property `H` of half-way connections
have to survive when `p` is picked, given `M` of the connection that it is
handed to.  A throw of `e` has `P e`, and after it the connection that was
in hand need only have `F e`. -/
structure PickRule (now : Date) (p : TCPPacket) (M A H : TCPConnectionImpl → Prop)
    (P : Throwable → Prop) (F : Throwable → TCPConnectionImpl → Prop) : Prop where
  weaken : ∀ {e c}, A c → F e c
  full : P .packetsBufferFullException
  opened : p.isHandsShake1Packet = true → A (synConnection now p)
  candidate : p.isHandsShake1Packet = false → p.isContainsData = true →
    H (halfWayConnection now p)
  buffered : ∀ {c}, H c → M c → p.isHandsShake1Packet = false → p.isContainsData = true →
    completesExchange (p.detectPacketFlowDirection c.connectionDetail) c = false →
    (bufferPacket (p.detectPacketFlowDirection c.connectionDetail) c).Sat H H
  promoted : ∀ {c}, H c → M c → p.isHandsShake1Packet = false → p.isContainsData = true →
    completesExchange (p.detectPacketFlowDirection c.connectionDetail) c = true →
    (promote now (p.detectPacketFlowDirection c.connectionDetail) c).Ends
      (fun t => A t.connection) (fun e t => P e ∧ F e t.connection)
  answered : ∀ {c}, A c → M c →
    isIgnored (p.detectPacketFlowDirection c.connectionDetail) c = false →
    p.isHandsShake2Packet = true →
    (c.processSyncAckPacket (p.detectPacketFlowDirection c.connectionDetail)).Ends A
      (fun e c => P e ∧ F e c)
  processed : ∀ {c}, A c → M c →
    isIgnored (p.detectPacketFlowDirection c.connectionDetail) c = false →
    p.isHandsShake1Packet = false → p.isHandsShake2Packet = false →
    (process now (p.detectPacketFlowDirection c.connectionDetail) c).Ends
      (fun t => A t.connection) (fun e t => P e ∧ F e t.connection)

theorem bufferPacket_full (p : TCPPacket) (c : TCPConnectionImpl) :
    (bufferPacket p c).Throws (· = .packetsBufferFullException) := by
  unfold bufferPacket PacketsBuffer.addToTemporaryStoredDataPackets
  rw [Outcome.throws_map]
  split
  · rfl
  · trivial

/-- `pick` keeps what its parts keep. -/
theorem PickRule.pick_ends {now : Date} {p : TCPPacket} {M A H : TCPConnectionImpl → Prop}
    {P : Throwable → Prop} {F : Throwable → TCPConnectionImpl → Prop}
    (hrule : PickRule now p M A H P F) {r : PacketReceiverImpl} (hwf : WellFormed r)
    (hM : ∀ c, r.routed p = some c → M c) (h : Tables A H r) :
    (r.pick now p).Ends (Tables A H) (fun e r' => P e ∧ Tables (F e) H r') := by
  have hp := picked_pick now p r
  generalize r.pick now p = o at hp
  cases hp with
  | rejected => exact h
  | opened hsyn => exact h.open_active hwf (c := synConnection now p) (hrule.opened hsyn)
  | noPayload => exact h
  | candidate hsyn hactive hdata =>
    exact h.open_halfWay hwf (c := halfWayConnection now p) (hrule.candidate hsyn hdata)
  | promoted hsyn hactive hdata hhalf hc hdone =>
    have hM := hM _ (routed_halfWay hsyn hactive hdata hhalf hc)
    rw [Outcome.ends_map]
    refine (hrule.promoted (h.halfWay hhalf hc) hM hsyn hdata hdone).mono ?_ ?_
    · intro t ht
      have := h.store_moved hwf (fun _ hA => hA) hc ht
      exact ⟨this.active, this.halfWay⟩
    · intro e t ht
      have := h.store_moved hwf (fun _ hA => hrule.weaken hA) hc ht.2
      exact ⟨ht.1, this.active, this.halfWay⟩
  | @buffered ref c hsyn hactive hdata hhalf hc hdone =>
    have hM := hM _ (routed_halfWay hsyn hactive hdata hhalf hc)
    have hfull := bufferPacket_full (p.detectPacketFlowDirection c.connectionDetail) c
    have hsat := hrule.buffered (h.halfWay hhalf hc) hM hsyn hdata hdone
    cases hb : bufferPacket (p.detectPacketFlowDirection c.connectionDetail) c with
    | returned c' =>
      rw [hb] at hsat
      exact h.store_halfWay hwf hhalf hc hsat
    | thrown e c' =>
      rw [hb] at hsat hfull
      obtain rfl := hfull
      exact ⟨hrule.full, (h.store_halfWay hwf hhalf hc hsat).mono fun _ hA => hrule.weaken hA⟩
  | danglingHalfWay hsyn hactive hdata hhalf hc =>
    obtain ⟨c, hc', -⟩ := hwf.halfWay hhalf
    simp [hc] at hc'
  | danglingActive hsyn hactive hc =>
    obtain ⟨c, hc', -⟩ := hwf.active hactive
    simp [hc] at hc'
  | ignored => exact h
  | answered hsyn hactive hc hignored hsynAck =>
    have hM := hM _ (routed_active hsyn hactive hc)
    rw [Outcome.ends_map]
    refine (hrule.answered (h.active hactive hc) hM hignored hsynAck).mono ?_ ?_
    · intro c' hc'
      exact h.store_active hwf (fun _ hA => hA) hactive hc hc'
    · intro e c' hc'
      exact ⟨hc'.1, h.store_active hwf (fun _ hA => hrule.weaken hA) hactive hc hc'.2⟩
  | processed hsyn hactive hc hignored hsynAck =>
    have hM := hM _ (routed_active hsyn hactive hc)
    refine Outcome.Ends.andThen (Q := Tables A H) ?_ (fun r' h' => h'.removeIfFinished _)
    rw [Outcome.ends_map]
    refine (hrule.processed (h.active hactive hc) hM hignored hsyn hsynAck).mono ?_ ?_
    · intro t ht
      have := h.store_active hwf (fun _ hA => hA) hactive hc ht
      exact ⟨this.active, this.halfWay⟩
    · intro e t ht
      have := h.store_active hwf (fun _ hA => hrule.weaken hA) hactive hc ht.2
      exact ⟨ht.1, this.active, this.halfWay⟩

/-- A `PickRule` that does not ask what was thrown. -/
structure PickInvariant (now : Date) (p : TCPPacket) (A H E : TCPConnectionImpl → Prop) :
    Prop where
  thrown : ∀ c, A c → E c
  opened : p.isHandsShake1Packet = true → A (synConnection now p)
  candidate : p.isHandsShake1Packet = false → p.isContainsData = true →
    H (halfWayConnection now p)
  buffered : ∀ {c}, H c → (c.connectionDetail == p.connectionDetail) = true →
    p.isHandsShake1Packet = false → p.isContainsData = true →
    (bufferPacket (p.detectPacketFlowDirection c.connectionDetail) c).Sat H H
  promoted : ∀ {c}, H c → (c.connectionDetail == p.connectionDetail) = true →
    p.isHandsShake1Packet = false → p.isContainsData = true →
    completesExchange (p.detectPacketFlowDirection c.connectionDetail) c = true →
    (promote now (p.detectPacketFlowDirection c.connectionDetail) c).Leaves A E
  answered : ∀ {c}, A c → (c.connectionDetail == p.connectionDetail) = true →
    isIgnored (p.detectPacketFlowDirection c.connectionDetail) c = false →
    p.isHandsShake2Packet = true →
    (c.processSyncAckPacket (p.detectPacketFlowDirection c.connectionDetail)).Sat A E
  processed : ∀ {c}, A c → (c.connectionDetail == p.connectionDetail) = true →
    isIgnored (p.detectPacketFlowDirection c.connectionDetail) c = false →
    p.isHandsShake1Packet = false → p.isHandsShake2Packet = false →
    (process now (p.detectPacketFlowDirection c.connectionDetail) c).Leaves A E

namespace PickInvariant

variable {now : Date} {p : TCPPacket} {A H E : TCPConnectionImpl → Prop}

theorem rule (h : PickInvariant now p A H E) :
    PickRule now p (fun c => (c.connectionDetail == p.connectionDetail) = true) A H
      (fun _ => True) (fun _ => E) where
  weaken := h.thrown _
  full := trivial
  opened := h.opened
  candidate := h.candidate
  buffered := fun hc hkey hsyn hdata _ => h.buffered hc hkey hsyn hdata
  promoted := fun hc hkey hsyn hdata hdone =>
    (Outcome.ends_const.mpr (h.promoted hc hkey hsyn hdata hdone)).mono (fun _ ht => ht)
      (fun _ _ ht => ⟨trivial, ht⟩)
  answered := fun hc hkey hignored hsynAck =>
    (Outcome.ends_const.mpr (h.answered hc hkey hignored hsynAck)).mono (fun _ hc' => hc')
      (fun _ _ hc' => ⟨trivial, hc'⟩)
  processed := fun hc hkey hignored hsyn hsynAck =>
    (Outcome.ends_const.mpr (h.processed hc hkey hignored hsyn hsynAck)).mono (fun _ ht => ht)
      (fun _ _ ht => ⟨trivial, ht⟩)

theorem pick_tables (hinv : PickInvariant now p A H E) {r : PacketReceiverImpl}
    (hwf : WellFormed r) (h : Tables A H r) :
    (r.pick now p).Sat (Tables A H) (Tables E H) :=
  Outcome.ends_const.mp ((hinv.rule.pick_ends hwf (fun _ => hwf.pair_of_routed) h).mono
    (fun _ h' => h') (fun _ _ h' => h'.2))

end PickInvariant

/-- Storing a connection, whatever table it is in. -/
theorem Tables.store {A H : TCPConnectionImpl → Prop} {r : PacketReceiverImpl}
    (h : Tables A H r) {ref : Ref} {c c' : TCPConnectionImpl} (hc : r.deref ref = some c)
    (hA : A c → A c') (hH : H c → H c') : Tables A H (r.store ref c') := by
  constructor
  · intro key ref' c₀ hget hc₀
    by_cases hne : ref = ref'
    · subst hne
      rw [deref_store_self hc] at hc₀
      obtain rfl := Option.some.inj hc₀
      exact hA (h.active hget hc)
    · rw [deref_store_ne hne] at hc₀
      exact h.active hget hc₀
  · intro key ref' c₀ hget hc₀
    by_cases hne : ref = ref'
    · subst hne
      rw [deref_store_self hc] at hc₀
      obtain rfl := Option.some.inj hc₀
      exact hH (h.halfWay hget hc)
    · rw [deref_store_ne hne] at hc₀
      exact h.halfWay hget hc₀

/-! ## Calls that pick nothing -/

/-- Connections that differ at most in what has been read from the
streams. -/
def SameButRead (c c' : TCPConnectionImpl) : Prop :=
  ∃ streams, c' = { c with inputStream := streams } ∧
    TCPConnectionImpl.SameBytes c.inputStream streams ∧
    ∀ x, (c.inputStream.get x).Sane → (c.inputStream.get x).Leaves (streams.get x)

theorem SameButRead.refl (c : TCPConnectionImpl) : SameButRead c c :=
  ⟨c.inputStream, rfl, .refl _, fun _ h => ⟨h, List.suffix_rfl⟩⟩

theorem SameButRead.connectionDetail {c c' : TCPConnectionImpl} (h : SameButRead c c') :
    c'.connectionDetail = c.connectionDetail := by
  obtain ⟨streams, rfl, -⟩ := h
  rfl

theorem sameButRead_set (c : TCPConnectionImpl) (x : Side)
    {f : DynamicByteArrayInputStream → DynamicByteArrayInputStream}
    (hf : ∀ s, (f s).appended = s.appended ∧ (f s).isFinished = s.isFinished)
    (hleaves : ∀ s : DynamicByteArrayInputStream, s.Sane → s.Leaves (f s)) :
    SameButRead c { c with inputStream := c.inputStream.set x (f (c.inputStream.get x)) } := by
  refine ⟨_, rfl, TCPConnectionImpl.sameBytes_set _ _ (hf _).1 (hf _).2, ?_⟩
  exact BySide.forall_set (P := fun y (s : DynamicByteArrayInputStream) =>
    (c.inputStream.get y).Sane → (c.inputStream.get y).Leaves s) (hleaves _)
    fun hs => ⟨hs, List.suffix_rfl⟩

/-- A call that picks nothing keeps what reading keeps. -/
theorem Tables.step_other {A H : TCPConnectionImpl → Prop} {r : PacketReceiverImpl}
    (h : Tables A H r) (hA : ∀ {c c'}, SameButRead c c' → A c → A c')
    (hH : ∀ {c c'}, SameButRead c c' → H c → H c') {call : Call}
    (hcall : ∀ now p, call ≠ .pick now p) : Tables A H (r.step call) := by
  have honStream : ∀ (ref : Ref) (x : Side)
      (f : DynamicByteArrayInputStream → DynamicByteArrayInputStream),
      (∀ s, (f s).appended = s.appended ∧ (f s).isFinished = s.isFinished) →
      (∀ s : DynamicByteArrayInputStream, s.Sane → s.Leaves (f s)) →
      Tables A H (r.onStream ref x f) := by
    intro ref x f hf hleaves
    unfold PacketReceiverImpl.onStream
    split
    · exact h
    · rename_i c hc
      have hread := sameButRead_set c x hf hleaves
      exact h.store hc (hA hread) (hH hread)
  cases call with
  | pick now p => exact absurd rfl (hcall now p)
  | poll => exact ⟨h.active, h.halfWay⟩
  | read ref x =>
    exact honStream ref x _ DynamicByteArrayInputStream.read_frame
      fun s => DynamicByteArrayInputStream.read_leaves
  | readInto ref x bLength off len =>
    exact honStream ref x _ (fun s => DynamicByteArrayInputStream.readInto_frame s bLength off len)
      fun s hs => DynamicByteArrayInputStream.readInto_leaves hs bLength off len

/-- Entries may leave the table of active connections. -/
theorem WellFormed.shrink {r : PacketReceiverImpl} (h : WellFormed r)
    {m : HashMap ConnectionDetail Ref}
    (hsub : ∀ {key ref}, m.get key = some ref → r.activeConnections.get key = some ref) :
    WellFormed { r with activeConnections := m } :=
  ⟨fun hget => h.active (hsub hget), h.halfWay, fun hget => h.apart (hsub hget), h.established⟩

theorem Tables.shrink {A H : TCPConnectionImpl → Prop} {r : PacketReceiverImpl}
    (h : Tables A H r) {m : HashMap ConnectionDetail Ref}
    (hsub : ∀ {key ref}, m.get key = some ref → r.activeConnections.get key = some ref) :
    Tables A H { r with activeConnections := m } :=
  ⟨fun hget hc => h.active (hsub hget) hc, h.halfWay⟩

end PacketReceiverImpl

end ConnectionSniffer
