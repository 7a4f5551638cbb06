import ConnectionSniffer.Receiver.Buffering
import ConnectionSniffer.Receiver.PacketObjects
import ConnectionSniffer.Receiver.Waiting

/-!
# The receiver on packet objects

`ObjectReceiver` is `PacketReceiverImpl` with packet objects: every `pick`
makes a new object (`new TCPPacketImpl(packet)`), marks it, and puts a
reference into at most one buffer.  Its methods are those of the source on
references, and `value` reads the packets behind them.

`Separate` is the invariant that the value model takes for granted: no object
is in two buffers, nor twice in one.  `pick_spec` shows that a `pick` keeps
it and is, on the values, the `pick` of `PacketReceiverImpl`, so that
everything proved of `PacketReceiverImpl` holds of the objects as well
(`value_after`).  The buffers are lists here too; `objects_refine` adds that
in a run of picks that are near to what waits, a list is what the tree of
the source has.
-/

namespace ConnectionSniffer

namespace Objects

/-! ## The methods that use the drain -/

/-- `addToCSTemporaryStoredDataPackets` and
`addToSCTemporaryStoredDataPackets`. -/
def addToTemporaryStoredDataPackets (x : Side) (k : PacketRef) (o : Objects) :
    Outcome Throwable Objects :=
  if MAX_PACKETS_IN_BUFFER ≤ (o.buffers.get x).length then
    .thrown .packetsBufferFullException o
  else
    .returned { o with
      buffers := o.buffers.set x
        (TreeSet.add (fun i j => TCPPacket.compareTo (o.packets i) (o.packets j)) k
          (o.buffers.get x)) }

/-- Handle the packet if it can be processed, otherwise buffer it and
drain. -/
def process (now : Date) (k : PacketRef) (o : Objects) : Outcome Throwable Objects :=
  match o.connection.isCanProcessPacket (o.packets k) with
  | .error e => .thrown e o
  | .ok true => handlePacket now (tryToProcessPacketsInBuffer now) k o
  | .ok false =>
    (o.addToTemporaryStoredDataPackets (o.packets k).side k).andThen
      (tryToProcessPacketsInBuffer now)

/-- `processDataPacket`, which marks the packet when its payload has been
appended. -/
def processDataPacket (now : Date) (k : PacketRef) (o : Objects) : Outcome Throwable Objects :=
  match o.value.apply (TCPConnectionImpl.processDataPacket now (o.packets k)) with
  | .thrown e t => .thrown e { o with connection := t.connection }
  | .returned t =>
    .returned { o with
      packets := Function.update o.packets k (o.packets k).consumedPacket
      connection := t.connection }

/-- What the promotion does to the connection. -/
def promote (now : Date) (k : PacketRef) (o : Objects) : Outcome Throwable Objects :=
  let other := (o.packets k).side.other
  let packet := o.packets k
  ({ o with
      connection := { o.connection with
        counter := o.connection.counter.set other
          { o.connection.counter.get other with seq := packet.ackNum, ack := packet.sequence }
        state := some .established }
      announced := 1 }.processDataPacket now k).andThen fun o =>
    tryToProcessPacketsInBuffer now
      { o with connection := o.connection.record (some .established) packet }

/-! ## What they leave -/

/-- Only `k` may have come to the buffers, and only it and the objects that
were in them may have changed. -/
structure Within (k : PacketRef) (o o' : Objects) : Prop where
  distinct : Distinct o'.buffers
  buffered : ∀ j, o'.Buffered j → o.Buffered j ∨ j = k
  kept : ∀ j, ¬ o.Buffered j → j ≠ k → o'.packets j = o.packets j

theorem Within.refl {k : PacketRef} {o : Objects} (hd : Distinct o.buffers) : Within k o o :=
  ⟨hd, fun _ h => Or.inl h, fun _ _ _ => rfl⟩

/-- A step that changes one object and no buffer. -/
theorem Within.of_same {k : PacketRef} {o o' : Objects} (hd : Distinct o.buffers)
    (hbuffers : o'.buffers = o.buffers) (hkept : ∀ j, j ≠ k → o'.packets j = o.packets j) :
    Within k o o' := by
  refine ⟨hbuffers ▸ hd, ?_, fun j _ hne => hkept j hne⟩
  rintro j ⟨x, hx⟩
  exact Or.inl ⟨x, hbuffers ▸ hx⟩

/-- The drain after such a step. -/
theorem Within.uses {k : PacketRef} {o o' o'' : Objects} {l : List PacketRef}
    (h : Within k o o') (huses : Uses o' l o'') : Within k o o'' where
  distinct := huses.shrinks.distinct h.distinct
  buffered := fun j hj => h.buffered j (huses.shrinks.buffered hj)
  kept := by
    intro j hj hne
    have hnot : j ∉ l := by
      intro hl
      rcases h.buffered j (huses.buffered j hl) with hb | rfl
      · exact hj hb
      · exact hne rfl
    exact (huses.kept j hnot).trans (h.kept j hj hne)

section Specs

variable {now : Date} {k : PacketRef} {o : Objects}

/-- The drain, on the values and on the objects. -/
theorem tryToProcessPacketsInBuffer_spec (now : Date) {o : Objects} (hd : Distinct o.buffers) :
    (tryToProcessPacketsInBuffer now o).map value =
        Delivery.tryToProcessPacketsInBuffer now o.value ∧
      ∃ l, Uses o l (tryToProcessPacketsInBuffer now o).state := by
  obtain ⟨handled, hdrains⟩ := drains_tryToProcessPacketsInBuffer now hd
  exact ⟨hdrains.value_eq hd, handled, hdrains.uses hd⟩

theorem deliver_within (now : Date) (k : PacketRef) {o : Objects} (hd : Distinct o.buffers) :
    Within k o (o.deliver now k).state :=
  .of_same hd (buffers_deliver now k o) fun _ hne => packets_deliver hne

theorem handlePacket_spec (now : Date) (hd : Distinct o.buffers) (hk : ¬ o.Buffered k) :
    (handlePacket now (tryToProcessPacketsInBuffer now) k o).map value =
        Delivery.handlePacket now (Delivery.tryToProcessPacketsInBuffer now) (o.packets k)
          o.value ∧
      Within k o (handlePacket now (tryToProcessPacketsInBuffer now) k o).state := by
  have hdeliver := map_deliver now hk
  have hwithin := deliver_within now k hd
  unfold handlePacket Delivery.handlePacket
  rw [← hdeliver]
  cases hdel : o.deliver now k with
  | thrown e o' =>
    rw [hdel] at hwithin
    exact ⟨rfl, hwithin⟩
  | returned o' =>
    rw [hdel, Outcome.state_returned] at hwithin
    rw [Outcome.map_returned, Outcome.andThen_returned, Outcome.andThen_returned]
    cases (o.packets k).fin with
    | false => exact ⟨rfl, hwithin.distinct, hwithin.buffered, hwithin.kept⟩
    | true =>
      obtain ⟨hvalue, l, huses⟩ := tryToProcessPacketsInBuffer_spec now hwithin.distinct
      have hafter := hwithin.uses huses
      rw [if_pos rfl, if_pos rfl, ← hvalue]
      cases hdrain : tryToProcessPacketsInBuffer now o' with
      | thrown e o'' =>
        rw [hdrain] at hafter
        exact ⟨rfl, hafter⟩
      | returned o'' =>
        rw [hdrain] at hafter
        exact ⟨rfl, hafter.distinct, hafter.buffered, hafter.kept⟩

theorem map_add (packets : PacketRef → TCPPacket) (k : PacketRef) (refs : List PacketRef) :
    (TreeSet.add (fun i j => TCPPacket.compareTo (packets i) (packets j)) k refs).map packets =
      TreeSet.add TCPPacket.compareTo (packets k) (refs.map packets) := by
  induction refs with
  | nil => rfl
  | cons j rest ih =>
    unfold TreeSet.add
    rw [List.map_cons]
    dsimp only
    split_ifs
    · rfl
    · rfl
    · rw [List.map_cons, ih]

theorem nodup_add (compareTo : PacketRef → PacketRef → Int) {k : PacketRef} {refs : List PacketRef}
    (hnodup : refs.Nodup) (hk : k ∉ refs) : (TreeSet.add compareTo k refs).Nodup := by
  induction refs with
  | nil => exact List.nodup_singleton k
  | cons j rest ih =>
    obtain ⟨hj, hrest⟩ := List.nodup_cons.mp hnodup
    rw [List.mem_cons, not_or] at hk
    unfold TreeSet.add
    split_ifs
    · refine List.nodup_cons.mpr ⟨?_, hnodup⟩
      rw [List.mem_cons, not_or]
      exact hk
    · exact hnodup
    · refine List.nodup_cons.mpr ⟨?_, ih hrest hk.2⟩
      intro hmem
      rcases TreeSet.mem_of_mem_add _ hmem with rfl | hmem
      · exact hk.1 rfl
      · exact hj hmem

theorem addToTemporaryStoredDataPackets_spec (x : Side) (hd : Distinct o.buffers)
    (hk : ¬ o.Buffered k) :
    (o.addToTemporaryStoredDataPackets x k).map value =
        (o.value.connection.packetsBuffer.addToTemporaryStoredDataPackets x (o.packets k)).map
          (fun buffer => (⟨{ o.value.connection with packetsBuffer := buffer }, o.announced⟩ :
            Delivery)) ∧
      Within k o (o.addToTemporaryStoredDataPackets x k).state := by
  have hget : o.value.connection.packetsBuffer.get x = (o.buffers.get x).map o.packets :=
    get_load o.packets o.buffers x
  unfold addToTemporaryStoredDataPackets PacketsBuffer.addToTemporaryStoredDataPackets
  rw [hget, List.length_map]
  split_ifs
  · exact ⟨rfl, .refl hd⟩
  · have hmem : ∀ j, j ∈ TreeSet.add (fun i j => TCPPacket.compareTo (o.packets i) (o.packets j)) k
        (o.buffers.get x) → j = k ∨ j ∈ o.buffers.get x := fun j => TreeSet.mem_of_mem_add _
    constructor
    · rw [Outcome.map_returned, Outcome.map_returned, ← map_add]
      unfold value
      dsimp only
      rw [load_set]
    · refine ⟨⟨?_, ?_⟩, ?_, fun _ _ _ => rfl⟩
      · refine BySide.forall_set (P := fun _ (l : List PacketRef) => l.Nodup) ?_ (hd.nodup x.other)
        exact nodup_add _ (hd.nodup x) fun h => hk ⟨x, h⟩
      · refine BySide.forall_side x ?_ ?_
        · intro j hj hother
          dsimp only [Outcome.state_returned] at hj hother
          rw [BySide.get_set] at hj
          rw [BySide.get_other_set] at hother
          rcases hmem j hj with rfl | hj
          · exact hk ⟨x.other, hother⟩
          · exact hd.apart x j hj hother
        · intro j hj hother
          dsimp only [Outcome.state_returned] at hj hother
          rw [BySide.get_other_set] at hj
          rw [Side.other_other, BySide.get_set] at hother
          rcases hmem j hother with rfl | hother
          · exact hk ⟨x.other, hj⟩
          · exact hd.apart x j hother hj
      · rintro j ⟨y, hy⟩
        dsimp only [Outcome.state_returned] at hy
        rcases Side.eq_or_eq_other x y with rfl | rfl
        · rw [BySide.get_set] at hy
          rcases hmem j hy with rfl | hy
          · exact Or.inr rfl
          · exact Or.inl ⟨y, hy⟩
        · rw [BySide.get_other_set] at hy
          exact Or.inl ⟨x.other, hy⟩

theorem process_spec (now : Date) (hd : Distinct o.buffers) (hk : ¬ o.Buffered k)
    (hannounced : o.announced = 0) :
    (o.process now k).map value =
        PacketReceiverImpl.process now (o.packets k) o.value.connection ∧
      Within k o (o.process now k).state := by
  have hstart : o.value = ⟨o.value.connection, 0⟩ := by
    rw [← hannounced]
    rfl
  have hcan : o.connection.isCanProcessPacket (o.packets k) =
      o.value.connection.isCanProcessPacket (o.packets k) := rfl
  unfold process PacketReceiverImpl.process
  rw [hcan]
  cases o.value.connection.isCanProcessPacket (o.packets k) with
  | error e => exact ⟨congrArg (Outcome.thrown e) hstart, .refl hd⟩
  | ok can =>
    cases can with
    | true =>
      obtain ⟨hvalue, hwithin⟩ := handlePacket_spec now hd hk
      rw [hstart] at hvalue
      exact ⟨hvalue, hwithin⟩
    | false =>
      obtain ⟨hvalue, hwithin⟩ := addToTemporaryStoredDataPackets_spec (o.packets k).side hd hk
      rw [hannounced] at hvalue
      dsimp only
      rw [← hvalue]
      cases hadd : o.addToTemporaryStoredDataPackets (o.packets k).side k with
      | thrown e o' =>
        rw [hadd] at hwithin
        exact ⟨rfl, hwithin⟩
      | returned o' =>
        rw [hadd] at hwithin
        obtain ⟨hdrain, l, huses⟩ := tryToProcessPacketsInBuffer_spec now hwithin.distinct
        exact ⟨hdrain, hwithin.uses huses⟩

/-- An update of the object in hand is not seen from the buffers. -/
theorem load_update {packets : PacketRef → TCPPacket} {buffers : BySide (List PacketRef)}
    {k : PacketRef} (hk : ∀ x, k ∉ buffers.get x) (p : TCPPacket) :
    load (Function.update packets k p) buffers = load packets buffers := by
  refine load_congr ?_
  intro x j hj
  refine Function.update_of_ne ?_ _ _
  rintro rfl
  exact hk x hj

theorem processDataPacket_spec (now : Date) (hd : Distinct o.buffers) (hk : ¬ o.Buffered k) :
    (o.processDataPacket now k).map value =
        o.value.apply (TCPConnectionImpl.processDataPacket now (o.packets k)) ∧
      Within k o (o.processDataPacket now k).state := by
  have hframe := Delivery.processDataPacket_frame now (o.packets k) o.value.connection
  have hload : load (Function.update o.packets k (o.packets k).consumedPacket) o.buffers =
      load o.packets o.buffers := load_update (fun x hx => hk ⟨x, hx⟩) _
  unfold processDataPacket Delivery.apply
  cases hdata : o.value.connection.processDataPacket now (o.packets k) with
  | thrown e c =>
    rw [hdata] at hframe
    refine ⟨?_, .of_same hd rfl fun _ _ => rfl⟩
    simp only [Outcome.map_thrown]
    unfold value
    dsimp only
    rw [show load o.packets o.buffers = c.packetsBuffer from hframe.packetsBuffer.symm]
  | returned c =>
    rw [hdata] at hframe
    refine ⟨?_, .of_same hd rfl fun _ hne => Function.update_of_ne hne _ _⟩
    simp only [Outcome.map_returned]
    unfold value
    dsimp only
    rw [hload, show load o.packets o.buffers = c.packetsBuffer from hframe.packetsBuffer.symm]

theorem promote_spec (now : Date) (hd : Distinct o.buffers) (hk : ¬ o.Buffered k) :
    (o.promote now k).map value =
        PacketReceiverImpl.promote now (o.packets k) o.value.connection ∧
      Within k o (o.promote now k).state := by
  let o₁ : Objects :=
    { o with
      connection := { o.connection with
        counter := o.connection.counter.set (o.packets k).side.other
          { o.connection.counter.get (o.packets k).side.other with
            seq := (o.packets k).ackNum, ack := (o.packets k).sequence }
        state := some .established }
      announced := 1 }
  obtain ⟨hvalue, hwithin⟩ := processDataPacket_spec (o := o₁) now hd hk
  have hpromote : o.promote now k = (o₁.processDataPacket now k).andThen fun o' =>
      tryToProcessPacketsInBuffer now
        { o' with connection := o'.connection.record (some .established) (o.packets k) } := rfl
  have hvalues : PacketReceiverImpl.promote now (o.packets k) o.value.connection =
      (o₁.value.apply (TCPConnectionImpl.processDataPacket now (o₁.packets k))).andThen fun t =>
        (t.update fun c => c.record (some .established)
          (o.packets k)).tryToProcessPacketsInBuffer now := rfl
  rw [hpromote, hvalues, ← hvalue]
  cases hdata : o₁.processDataPacket now k with
  | thrown e o' =>
    rw [hdata] at hwithin
    exact ⟨rfl, hwithin.distinct, hwithin.buffered, hwithin.kept⟩
  | returned o' =>
    rw [hdata] at hwithin
    have hd' : Distinct o'.buffers := hwithin.distinct
    obtain ⟨hdrain, l, huses⟩ := tryToProcessPacketsInBuffer_spec now
      (o := { o' with connection := o'.connection.record (some .established) (o.packets k) }) hd'
    have hrecorded : Within k o
        { o' with connection := o'.connection.record (some .established) (o.packets k) } :=
      ⟨hwithin.distinct, hwithin.buffered, hwithin.kept⟩
    exact ⟨hdrain, hrecorded.uses huses⟩

end Specs

end Objects

/-! ## The receiver -/

/-- The receiver, the heap of packet objects and the buffers of each
connection.  The buffers inside the connections have no meaning. -/
structure ObjectReceiver where
  packets : PacketRef → TCPPacket
  created : Nat := 0
  receiver : PacketReceiverImpl
  buffers : Ref → BySide (List PacketRef)

namespace ObjectReceiver

open PacketReceiverImpl (isIgnored completesExchange)

/-- The connection behind a reference with the packets in its buffers. -/
def loaded (w : ObjectReceiver) (ref : Ref) (c : TCPConnectionImpl) : TCPConnectionImpl :=
  { c with packetsBuffer := Objects.load w.packets (w.buffers ref) }

/-- The receiver with the packets in the buffers. -/
def value (w : ObjectReceiver) : PacketReceiverImpl :=
  { w.receiver with heap := w.receiver.heap.mapIdx w.loaded }

/-- The object `k` with other contents. -/
def assign (w : ObjectReceiver) (k : PacketRef) (p : TCPPacket) : ObjectReceiver :=
  { w with packets := Function.update w.packets k p }

/-- `detectPacketFlowDirection` on the object. -/
def detect (w : ObjectReceiver) (k : PacketRef) (d : ConnectionDetail) : ObjectReceiver :=
  w.assign k ((w.packets k).detectPacketFlowDirection d)

/-- `consumedPacket` on the object. -/
def mark (w : ObjectReceiver) (k : PacketRef) : ObjectReceiver :=
  w.assign k (w.packets k).consumedPacket

/-- The connection behind `ref` with its buffers. -/
def objects (w : ObjectReceiver) (ref : Ref) (c : TCPConnectionImpl) : Objects where
  packets := w.packets
  connection := c
  buffers := w.buffers ref

/-- What a method did to the connection behind `ref`. -/
def commit (w : ObjectReceiver) (ref : Ref) (o : Objects) : ObjectReceiver :=
  { w with
    packets := o.packets
    receiver := w.receiver.commit ref ⟨o.connection, o.announced⟩
    buffers := Function.update w.buffers ref o.buffers }

/-- A new connection. -/
def allocate (w : ObjectReceiver) (c : TCPConnectionImpl) (buffers : BySide (List PacketRef)) :
    ObjectReceiver :=
  { w with
    receiver := w.receiver.allocate c
    buffers := Function.update w.buffers w.receiver.heap.length buffers }

/-- `pick` on a SYN. -/
def pickSyn (now : Date) (k : PacketRef) (w : ObjectReceiver) : ObjectReceiver :=
  let connectionDetail := (w.packets k).connectionDetail
  if w.receiver.filter.isAcceptable connectionDetail then
    let w' := (w.allocate (PacketReceiverImpl.synConnection now (w.packets k)) ⟨[], []⟩).mark k
    { w' with
      receiver := { w'.receiver with
        activeConnections := w.receiver.activeConnections.put connectionDetail
          w.receiver.heap.length } }
  else w

def handleHalfWayConnectionPackets (now : Date) (k : PacketRef) (w : ObjectReceiver) :
    Outcome Throwable ObjectReceiver :=
  let connectionDetail := (w.packets k).connectionDetail
  if !(w.packets k).isContainsData then .returned w
  else
    match w.receiver.halfWayConnections.get connectionDetail with
    | none =>
      let w' := (w.detect k connectionDetail).allocate
        (TCPConnectionImpl.create now connectionDetail) ⟨[k], []⟩
      .returned { w' with
        receiver := { w'.receiver with
          halfWayConnections := w.receiver.halfWayConnections.put connectionDetail
            w.receiver.heap.length } }
    | some ref =>
      match w.receiver.deref ref with
      | none => .thrown .nullPointerException w
      | some c =>
        let w := w.detect k c.connectionDetail
        if completesExchange (w.packets k) (w.loaded ref c) then
          ((w.objects ref c).promote now k).map
            ({ w with receiver := w.receiver.moved ref c }.commit ref)
        else
          ((w.objects ref c).addToTemporaryStoredDataPackets (w.packets k).side k).map
            (w.commit ref)

/-- `pick` from `detectPacketFlowDirection` on. -/
def pickActive (now : Date) (ref : Ref) (k : PacketRef) (c : TCPConnectionImpl)
    (w : ObjectReceiver) : Outcome Throwable ObjectReceiver :=
  let w := w.detect k c.connectionDetail
  let packet := w.packets k
  if c.isOldPacket packet then .returned w
  else if c.isFinished && c.state != some .lastAck then .returned w
  else if packet.isHandsShake2Packet then
    if c.state = some .synSent then
      match c.processSyncAckPacket packet with
      | .thrown e c => .thrown e { w with receiver := w.receiver.store ref c }
      | .returned c => .returned ({ w with receiver := w.receiver.store ref c }.mark k)
    else .returned w
  else
    (((w.objects ref c).process now k).map (w.commit ref)).andThen fun w =>
      .returned { w with receiver := w.receiver.removeIfFinished ref }

/-- `pick`. -/
def pick (now : Date) (k : PacketRef) (w : ObjectReceiver) : Outcome Throwable ObjectReceiver :=
  if (w.packets k).isHandsShake1Packet then .returned (w.pickSyn now k)
  else
    match w.receiver.activeConnections.get (w.packets k).connectionDetail with
    | none => w.handleHalfWayConnectionPackets now k
    | some ref =>
      match w.receiver.deref ref with
      | none => .thrown .nullPointerException w
      | some c => w.pickActive now ref k c

/-- `new TCPPacketImpl(packet)`: the next object. -/
def newPacket (w : ObjectReceiver) (packet : JpcapPacket) : ObjectReceiver :=
  { w.assign w.created (TCPPacketImpl packet) with created := w.created + 1 }

/-- A packet is captured. -/
def receivePacket (now : Date) (packet : JpcapPacket) (w : ObjectReceiver) :
    Outcome Throwable ObjectReceiver :=
  (w.newPacket packet).pick now w.created

/-- What a call does.  A consumer has no access to packets. -/
def call (w : ObjectReceiver) : Call → Outcome Throwable ObjectReceiver
  | .pick now packet => w.receivePacket now packet
  | call => (w.receiver.call call).map fun r => { w with receiver := r }

/-- The receiver after a call, whether or not it threw. -/
def step (w : ObjectReceiver) (c : Call) : ObjectReceiver := (w.call c).state

/-- `new PacketReceiverImpl(filter)`. -/
def create (filter : ConnectionFilter) : ObjectReceiver where
  packets := fun _ =>
    { srcIp := .inet4 0 0 0 0, dstIp := .inet4 0 0 0 0, srcPort := 0, dstPort := 0,
      sequence := 0, ackNum := 0 }
  receiver := PacketReceiverImpl.create filter
  buffers := fun _ => ⟨[], []⟩

/-! ## The invariant -/

/-- The object is in a buffer of the connection behind `ref`. -/
def InBuffer (w : ObjectReceiver) (ref : Ref) (k : PacketRef) : Prop :=
  ∃ x, k ∈ (w.buffers ref).get x

/-- No object is in two buffers, nor twice in one. -/
structure Separate (w : ObjectReceiver) : Prop where
  distinct : ∀ ref, Objects.Distinct (w.buffers ref)
  apart : ∀ {ref ref' k}, ref ≠ ref' → w.InBuffer ref k → ¬ w.InBuffer ref' k
  created : ∀ {ref k}, w.InBuffer ref k → k < w.created

section Values

variable {w : ObjectReceiver}

theorem deref_value (w : ObjectReceiver) (ref : Ref) :
    w.value.deref ref = (w.receiver.deref ref).map (w.loaded ref) := by
  unfold PacketReceiverImpl.deref value
  exact List.getElem?_mapIdx

/-- Two receivers whose connections are the same with their packets. -/
theorem value_ext {w : ObjectReceiver} {r : PacketReceiverImpl}
    (hfilter : w.receiver.filter = r.filter)
    (hactive : w.receiver.activeConnections = r.activeConnections)
    (hhalf : w.receiver.halfWayConnections = r.halfWayConnections)
    (hqueue : w.receiver.establishedConnections = r.establishedConnections)
    (hheap : ∀ ref, (w.receiver.deref ref).map (w.loaded ref) = r.deref ref) : w.value = r := by
  have hheap' : w.receiver.heap.mapIdx w.loaded = r.heap := by
    refine List.ext_getElem? fun ref => ?_
    rw [List.getElem?_mapIdx]
    exact hheap ref
  obtain ⟨filter, heap, active, half, queue⟩ := r
  unfold value
  dsimp only at hfilter hactive hhalf hqueue hheap' ⊢
  rw [hfilter, hactive, hhalf, hqueue, hheap']

/-- An object in no buffer may change. -/
theorem loaded_assign {k : PacketRef} (hk : ∀ ref, ¬ w.InBuffer ref k) (p : TCPPacket) (ref : Ref)
    (c : TCPConnectionImpl) : (w.assign k p).loaded ref c = w.loaded ref c := by
  unfold loaded
  rw [show (w.assign k p).buffers = w.buffers from rfl,
    show (w.assign k p).packets = Function.update w.packets k p from rfl,
    Objects.load_update fun x hx => hk ref ⟨x, hx⟩]

theorem value_assign {k : PacketRef} (hk : ∀ ref, ¬ w.InBuffer ref k) (p : TCPPacket) :
    (w.assign k p).value = w.value := by
  refine value_ext rfl rfl rfl rfl fun ref => ?_
  rw [deref_value]
  congr 1
  funext c
  exact loaded_assign hk p ref c

theorem value_objects (w : ObjectReceiver) (ref : Ref) (c : TCPConnectionImpl) :
    (w.objects ref c).value = ⟨w.loaded ref c, 0⟩ := rfl

/-- A method on one connection is not seen from the others. -/
theorem value_commit {ref : Ref} {o : Objects}
    (hkept : ∀ ref', ref' ≠ ref → ∀ k, w.InBuffer ref' k → o.packets k = w.packets k) :
    (w.commit ref o).value = w.value.commit ref o.value := by
  refine value_ext rfl rfl rfl rfl fun ref' => ?_
  rw [PacketReceiverImpl.deref_commit, PacketReceiverImpl.deref_store, deref_value, deref_value]
  unfold commit loaded
  dsimp only
  rw [PacketReceiverImpl.deref_commit, PacketReceiverImpl.deref_store]
  by_cases href : ref = ref'
  · subst href
    rw [if_pos rfl, if_pos rfl, Function.update_self, Option.map_map, Option.map_map]
    rfl
  · rw [if_neg href, if_neg href, Function.update_of_ne (Ne.symm href)]
    congr 1
    funext c
    rw [Objects.load_congr fun x k hk => hkept ref' (Ne.symm href) k ⟨x, hk⟩]

theorem value_moved (w : ObjectReceiver) (ref : Ref) (c : TCPConnectionImpl) :
    ({ w with receiver := w.receiver.moved ref c } : ObjectReceiver).value =
      w.value.moved ref (w.loaded ref c) := rfl

theorem value_removeIfFinished (w : ObjectReceiver) (ref : Ref) :
    ({ w with receiver := w.receiver.removeIfFinished ref } : ObjectReceiver).value =
      w.value.removeIfFinished ref := by
  unfold PacketReceiverImpl.removeIfFinished
  rw [deref_value]
  cases w.receiver.deref ref with
  | none => rfl
  | some c =>
    dsimp only [Option.map_some]
    rw [show (w.loaded ref c).isFinished = c.isFinished from rfl]
    split_ifs <;> rfl

theorem value_store (w : ObjectReceiver) (ref : Ref) (c : TCPConnectionImpl) :
    ({ w with receiver := w.receiver.store ref c } : ObjectReceiver).value =
      w.value.store ref (w.loaded ref c) := by
  refine value_ext rfl rfl rfl rfl fun ref' => ?_
  dsimp only
  rw [PacketReceiverImpl.deref_store, PacketReceiverImpl.deref_store]
  by_cases href : ref = ref'
  · subst href
    rw [if_pos rfl, if_pos rfl, deref_value, Option.map_map, Option.map_map]
    rfl
  · rw [if_neg href, if_neg href, deref_value]
    rfl

theorem length_heap_value (w : ObjectReceiver) :
    w.value.heap.length = w.receiver.heap.length :=
  List.length_mapIdx

/-- A new connection, with its buffers read. -/
theorem value_allocate (w : ObjectReceiver) (c : TCPConnectionImpl)
    (buffers : BySide (List PacketRef)) :
    (w.allocate c buffers).value =
      w.value.allocate { c with packetsBuffer := Objects.load w.packets buffers } := by
  refine value_ext rfl rfl rfl rfl fun ref => ?_
  unfold PacketReceiverImpl.deref PacketReceiverImpl.allocate allocate loaded
  dsimp only [PacketReceiverImpl.allocate]
  rw [List.getElem?_append, List.getElem?_append, length_heap_value]
  by_cases hlt : ref < w.receiver.heap.length
  · rw [if_pos hlt, if_pos hlt, Function.update_of_ne (Nat.ne_of_lt hlt)]
    exact (deref_value w ref).symm
  · rw [if_neg hlt, if_neg hlt]
    by_cases heq : ref = w.receiver.heap.length
    · subst heq
      rw [Nat.sub_self, Function.update_self]
      rfl
    · have hone : 1 ≤ ref - w.receiver.heap.length :=
        Nat.sub_pos_of_lt (Nat.lt_of_le_of_ne (Nat.not_lt.mp hlt) (Ne.symm heq))
      rw [List.getElem?_eq_none (l := [c]) hone, List.getElem?_eq_none hone]
      rfl

end Values

section Invariant

variable {w w' : ObjectReceiver} {k : PacketRef}

theorem Separate.congr (hs : Separate w) (hbuffers : w'.buffers = w.buffers)
    (hcreated : w'.created = w.created) : Separate w' := by
  obtain ⟨packets, created, receiver, buffers⟩ := w
  obtain ⟨packets', created', receiver', buffers'⟩ := w'
  obtain rfl : buffers' = buffers := hbuffers
  obtain rfl : created' = created := hcreated
  exact ⟨hs.distinct, hs.apart, hs.created⟩

/-- The packet in hand, an object that is in no buffer. -/
structure InHand (w : ObjectReceiver) (k : PacketRef) : Prop where
  separate : Separate w
  fresh : ∀ ref, ¬ w.InBuffer ref k
  created : k < w.created

theorem InHand.assign (h : InHand w k) (p : TCPPacket) : InHand (w.assign k p) k :=
  ⟨h.separate.congr rfl rfl, h.fresh, h.created⟩

/-- From `w` to `w'` only the packet in hand may have come to a buffer. -/
structure Keeps (k : PacketRef) (w w' : ObjectReceiver) : Prop where
  separate : Separate w'
  inBuffer : ∀ {ref j}, w'.InBuffer ref j → w.InBuffer ref j ∨ j = k
  created : w'.created = w.created

/-- A step that changes no buffer. -/
theorem Keeps.of_same (hs : Separate w) (hbuffers : w'.buffers = w.buffers)
    (hcreated : w'.created = w.created) : Keeps k w w' := by
  refine ⟨hs.congr hbuffers hcreated, ?_, hcreated⟩
  rintro ref j ⟨x, hx⟩
  exact Or.inl ⟨x, hbuffers ▸ hx⟩

theorem Keeps.congr {w'' : ObjectReceiver} (h : Keeps k w w') (hbuffers : w''.buffers = w'.buffers)
    (hcreated : w''.created = w'.created) : Keeps k w w'' := by
  refine ⟨h.separate.congr hbuffers hcreated, ?_, hcreated.trans h.created⟩
  rintro ref j ⟨x, hx⟩
  exact h.inBuffer ⟨x, hbuffers ▸ hx⟩

/-- A step from the packet in hand with other contents. -/
theorem Keeps.of_assign {p : TCPPacket} (h : Keeps k (w.assign k p) w') : Keeps k w w' :=
  ⟨h.separate, h.inBuffer, h.created⟩

/-- New buffers for one connection, with nothing new in them but the packet
in hand. -/
theorem InHand.update (h : InHand w k) (ref : Ref) {buffers : BySide (List PacketRef)}
    (hd : Objects.Distinct buffers)
    (hnew : ∀ x, ∀ j ∈ buffers.get x, w.InBuffer ref j ∨ j = k)
    (hbuffers : w'.buffers = Function.update w.buffers ref buffers)
    (hcreated : w'.created = w.created) : Keeps k w w' := by
  have hself : w'.buffers ref = buffers := by rw [hbuffers, Function.update_self]
  have hother : ∀ ref', ref' ≠ ref → w'.buffers ref' = w.buffers ref' := by
    intro ref' hne
    rw [hbuffers, Function.update_of_ne hne]
  -- where an object of the new buffers was before
  have hold : ∀ {ref' j}, w'.InBuffer ref' j → w.InBuffer ref' j ∨ (ref' = ref ∧ j = k) := by
    rintro ref' j ⟨x, hx⟩
    by_cases hne : ref' = ref
    · subst hne
      rw [hself] at hx
      exact (hnew x j hx).imp_right fun hj => ⟨rfl, hj⟩
    · rw [hother ref' hne] at hx
      exact Or.inl ⟨x, hx⟩
  refine ⟨⟨?_, ?_, ?_⟩, fun hj => (hold hj).imp_right And.right, hcreated⟩
  · intro ref'
    by_cases hne : ref' = ref
    · rw [hne, hself]
      exact hd
    · rw [hother ref' hne]
      exact h.separate.distinct ref'
  · intro ref₁ ref₂ j hne h₁ h₂
    rcases hold h₁ with h₁ | ⟨rfl, rfl⟩
    · rcases hold h₂ with h₂ | ⟨rfl, rfl⟩
      · exact h.separate.apart hne h₁ h₂
      · exact h.fresh _ h₁
    · rcases hold h₂ with h₂ | ⟨rfl, -⟩
      · exact h.fresh _ h₂
      · exact hne rfl
  · intro ref' j hj
    rw [hcreated]
    rcases hold hj with hj | ⟨-, rfl⟩
    · exact h.separate.created hj
    · exact h.created

/-- What a method did to one connection, on the values and on the objects. -/
theorem commit_spec (h : InHand w k) {ref : Ref} {c : TCPConnectionImpl} {o : Objects}
    (hwithin : Objects.Within k (w.objects ref c) o) :
    (w.commit ref o).value = w.value.commit ref o.value ∧ Keeps k w (w.commit ref o) := by
  constructor
  · refine value_commit ?_
    intro ref' hne j hj
    refine hwithin.kept j ?_ ?_
    · exact fun hb => h.separate.apart hne hj hb
    · rintro rfl
      exact h.fresh ref' hj
  · exact h.update ref hwithin.distinct (fun x j hj => hwithin.buffered j ⟨x, hj⟩) rfl rfl

/-- `commit_spec` after a method that may throw. -/
theorem map_commit (h : InHand w k) {ref : Ref} {c : TCPConnectionImpl}
    {out : Outcome Throwable Objects} (hwithin : Objects.Within k (w.objects ref c) out.state) :
    (out.map (w.commit ref)).map value = (out.map Objects.value).map (w.value.commit ref) ∧
      Keeps k w (out.map (w.commit ref)).state := by
  obtain ⟨hvalue, hkeeps⟩ := commit_spec h hwithin
  rw [Outcome.state_map]
  refine ⟨?_, hkeeps⟩
  cases out with
  | returned o => exact congrArg Outcome.returned hvalue
  | thrown e o => exact congrArg (Outcome.thrown e) hvalue

end Invariant

/-! ## `pick` -/

section Pick

variable {w : ObjectReceiver} {k : PacketRef}

/-- On the values the outcome is `out'`, and only the packet in hand may have
come to a buffer. -/
structure Simulates (k : PacketRef) (w : ObjectReceiver) (out : Outcome Throwable ObjectReceiver)
    (out' : Outcome Throwable PacketReceiverImpl) : Prop where
  value : out.map value = out'
  keeps : Keeps k w out.state

/-- A new connection whose buffers hold at most the packet in hand. -/
theorem InHand.allocate (h : InHand w k) (c : TCPConnectionImpl) {refs : List PacketRef}
    (hnodup : refs.Nodup) (hrefs : ∀ j ∈ refs, j = k) : Keeps k w (w.allocate c ⟨refs, []⟩) := by
  refine h.update w.receiver.heap.length ⟨?_, ?_⟩ ?_ rfl rfl
  · intro x
    cases x with
    | client => exact hnodup
    | server => exact List.nodup_nil
  · intro x j hj
    cases x with
    | client => exact List.not_mem_nil
    | server => exact absurd hj List.not_mem_nil
  · intro x j hj
    cases x with
    | client => exact Or.inr (hrefs j hj)
    | server => exact absurd hj List.not_mem_nil

theorem pickSyn_spec (now : Date) (h : InHand w k)
    (hsyn : (w.packets k).isHandsShake1Packet = true) :
    Simulates k w (.returned (w.pickSyn now k)) (w.value.pick now (w.packets k)) := by
  cases hfilter : w.receiver.filter.isAcceptable (w.packets k).connectionDetail with
  | false =>
    have hpick := PacketReceiverImpl.picked_iff.mp
      (show PacketReceiverImpl.Picked now _ w.value _ from
          .rejected hsyn hfilter)
    have hskip : w.pickSyn now k = w := by
      unfold pickSyn
      simp [hfilter]
    rw [hpick, hskip]
    exact ⟨rfl, .of_same h.separate rfl rfl⟩
  | true =>
    have hpick := PacketReceiverImpl.picked_iff.mp
      (show PacketReceiverImpl.Picked now _ w.value _ from
          .opened hsyn hfilter)
    set c := PacketReceiverImpl.synConnection now (w.packets k)
    have hopen : w.pickSyn now k = { (w.allocate c ⟨[], []⟩).mark k with
        receiver := { (w.allocate c ⟨[], []⟩).receiver with
          activeConnections := w.receiver.activeConnections.put (w.packets k).connectionDetail
            w.receiver.heap.length } } := by
      unfold pickSyn
      exact if_pos hfilter
    have hkeeps : Keeps k w (w.allocate c ⟨[], []⟩) :=
      h.allocate c List.nodup_nil fun j hj => absurd hj List.not_mem_nil
    have hfresh : ∀ ref, ¬ (w.allocate c ⟨[], []⟩).InBuffer ref k := by
      rintro ref ⟨x, hx⟩
      change k ∈ (Function.update w.buffers w.receiver.heap.length ⟨[], []⟩ ref).get x at hx
      by_cases href : ref = w.receiver.heap.length
      · rw [href, Function.update_self] at hx
        cases x <;> exact absurd hx List.not_mem_nil
      · rw [Function.update_of_ne href] at hx
        exact h.fresh ref ⟨x, hx⟩
    have hvalue := (value_assign hfresh (w.packets k).consumedPacket).trans
      (value_allocate w c ⟨[], []⟩)
    rw [hpick, hopen, length_heap_value]
    refine ⟨congrArg Outcome.returned ?_, hkeeps.congr rfl rfl⟩
    exact congrArg (fun r : PacketReceiverImpl => { r with
      activeConnections := w.receiver.activeConnections.put (w.packets k).connectionDetail
        w.receiver.heap.length }) hvalue

/-- Storing a connection that was not announced. -/
theorem commit_bufferPacket (r : PacketReceiverImpl) (ref : Ref) (p : TCPPacket)
    (c : TCPConnectionImpl) :
    ((c.packetsBuffer.addToTemporaryStoredDataPackets p.side p).map fun buffer =>
        (⟨{ c with packetsBuffer := buffer }, 0⟩ : Delivery)).map (r.commit ref) =
      (PacketReceiverImpl.bufferPacket p c).map (r.store ref) := by
  have hcommit : ∀ c', r.commit ref ⟨c', 0⟩ = r.store ref c' := by
    intro c'
    unfold PacketReceiverImpl.commit
    rw [List.replicate_zero, List.append_nil]
    rfl
  unfold PacketReceiverImpl.bufferPacket
  cases c.packetsBuffer.addToTemporaryStoredDataPackets p.side p with
  | returned buffer => exact congrArg Outcome.returned (hcommit _)
  | thrown e buffer => exact congrArg (Outcome.thrown e) (hcommit _)

theorem handleHalfWayConnectionPackets_spec (now : Date) (h : InHand w k)
    (hsyn : (w.packets k).isHandsShake1Packet = false)
    (hactive : w.receiver.activeConnections.get (w.packets k).connectionDetail = none) :
    Simulates k w (w.handleHalfWayConnectionPackets now k) (w.value.pick now (w.packets k)) := by
  unfold handleHalfWayConnectionPackets
  cases hdata : (w.packets k).isContainsData with
  | false =>
    rw [PacketReceiverImpl.picked_iff.mp (show PacketReceiverImpl.Picked now _ w.value _ from
          .noPayload hsyn hactive hdata)]
    exact ⟨rfl, .of_same h.separate rfl rfl⟩
  | true =>
    rw [Bool.not_true, if_neg Bool.false_ne_true]
    dsimp only
    cases hhalf : w.receiver.halfWayConnections.get (w.packets k).connectionDetail with
    | none =>
      rw [PacketReceiverImpl.picked_iff.mp
        (show PacketReceiverImpl.Picked now _ w.value _ from
          .candidate hsyn hactive hdata hhalf), length_heap_value]
      set d := (w.packets k).connectionDetail
      have hdetect : InHand (w.detect k d) k := h.assign _
      have hvalue : ((w.detect k d).allocate (TCPConnectionImpl.create now d) ⟨[k], []⟩).value =
          w.value.allocate (PacketReceiverImpl.halfWayConnection now (w.packets k)) := by
        rw [value_allocate]
        refine congrArg₂ PacketReceiverImpl.allocate (value_assign h.fresh _) ?_
        have hload : Objects.load (w.detect k d).packets ⟨[k], []⟩ =
            ⟨[(w.packets k).detectPacketFlowDirection d], []⟩ :=
          congrArg (fun p : TCPPacket => (⟨[p], []⟩ : PacketsBuffer)) (Function.update_self ..)
        rw [hload]
        rfl
      have hkeeps : Keeps k (w.detect k d) _ := hdetect.allocate (TCPConnectionImpl.create now d)
        (List.nodup_singleton k) fun j hj => List.mem_singleton.mp hj
      refine ⟨congrArg Outcome.returned ?_, hkeeps.of_assign.congr rfl rfl⟩
      exact congrArg (fun r : PacketReceiverImpl => { r with
        halfWayConnections := w.receiver.halfWayConnections.put d w.receiver.heap.length }) hvalue
    | some ref =>
      dsimp only
      have hderef := deref_value w ref
      cases hc : w.receiver.deref ref with
      | none =>
        rw [hc] at hderef
        rw [PacketReceiverImpl.picked_iff.mp
          (show PacketReceiverImpl.Picked now _ w.value _ from
          .danglingHalfWay hsyn hactive hdata hhalf hderef)]
        exact ⟨rfl, .of_same h.separate rfl rfl⟩
      | some c =>
        rw [hc] at hderef
        dsimp only
        set w₁ := w.detect k c.connectionDetail
        have hin : InHand w₁ k := h.assign _
        have hpacket : w₁.packets k =
            (w.packets k).detectPacketFlowDirection (w.loaded ref c).connectionDetail :=
          Function.update_self k _ w.packets
        have hloaded : w₁.loaded ref c = w.loaded ref c := loaded_assign h.fresh _ ref c
        have hvalue : w₁.value = w.value := value_assign h.fresh _
        have hnot : ¬ (w₁.objects ref c).Buffered k := hin.fresh ref
        have hd : Objects.Distinct (w₁.objects ref c).buffers := hin.separate.distinct ref
        rw [hloaded, hpacket]
        cases hdone : completesExchange ((w.packets k).detectPacketFlowDirection
            (w.loaded ref c).connectionDetail) (w.loaded ref c) with
        | true =>
          rw [if_pos rfl, PacketReceiverImpl.picked_iff.mp
            (show PacketReceiverImpl.Picked now _ w.value _ from
          .promoted hsyn hactive hdata hhalf hderef hdone)]
          obtain ⟨hpromote, hwithin⟩ := Objects.promote_spec (o := w₁.objects ref c) now hd hnot
          have hmoved : InHand { w₁ with receiver := w₁.receiver.moved ref c } k :=
            ⟨hin.separate.congr rfl rfl, hin.fresh, hin.created⟩
          obtain ⟨hcommit, hkeeps⟩ := map_commit hmoved (c := c) hwithin
          refine ⟨hcommit.trans ?_, hkeeps.separate, hkeeps.inBuffer, hkeeps.created⟩
          rw [hpromote, value_moved, hvalue, hloaded]
          congr 2
        | false =>
          rw [if_neg Bool.false_ne_true, PacketReceiverImpl.picked_iff.mp
            (show PacketReceiverImpl.Picked now _ w.value _ from
          .buffered hsyn hactive hdata hhalf hderef hdone)]
          obtain ⟨hadd, hwithin⟩ := Objects.addToTemporaryStoredDataPackets_spec
            (o := w₁.objects ref c) (w₁.packets k).side hd hnot
          rw [← hpacket]
          obtain ⟨hcommit, hkeeps⟩ := map_commit hin hwithin
          refine ⟨hcommit.trans ?_, hkeeps.of_assign⟩
          rw [hadd, hvalue, value_objects, hloaded]
          exact commit_bufferPacket w.value ref (w₁.packets k) (w.loaded ref c)

/-- `pickActive` on a packet that is ignored. -/
theorem pickActive_ignored (now : Date) (ref : Ref) {c : TCPConnectionImpl}
    (h : isIgnored ((w.packets k).detectPacketFlowDirection c.connectionDetail) c = true) :
    w.pickActive now ref k c = .returned (w.detect k c.connectionDetail) := by
  have hpacket : (w.detect k c.connectionDetail).packets k =
      (w.packets k).detectPacketFlowDirection c.connectionDetail := Function.update_self ..
  simp only [isIgnored, Bool.or_eq_true, Bool.and_eq_true] at h
  unfold pickActive
  dsimp only
  rw [hpacket]
  rcases h with (hold | hfin) | ⟨hs2, hstate⟩
  · simp [hold]
  · simp [hfin]
  · have hne : ¬ c.state = some .synSent := by simpa using hstate
    simp [hne, show (w.packets k).isHandsShake2Packet = true from hs2]

/-- `pickActive` on a packet that is not ignored. -/
theorem pickActive_processed (now : Date) (ref : Ref) {c : TCPConnectionImpl}
    (h : isIgnored ((w.packets k).detectPacketFlowDirection c.connectionDetail) c = false) :
    w.pickActive now ref k c =
      let w := w.detect k c.connectionDetail
      if (w.packets k).isHandsShake2Packet then
        match c.processSyncAckPacket (w.packets k) with
        | .thrown e c => .thrown e { w with receiver := w.receiver.store ref c }
        | .returned c => .returned ({ w with receiver := w.receiver.store ref c }.mark k)
      else
        (((w.objects ref c).process now k).map (w.commit ref)).andThen fun w =>
          .returned { w with receiver := w.receiver.removeIfFinished ref } := by
  have hpacket : (w.detect k c.connectionDetail).packets k =
      (w.packets k).detectPacketFlowDirection c.connectionDetail := Function.update_self ..
  unfold pickActive
  dsimp only
  rw [← hpacket] at h
  rw [PacketReceiverImpl.notOld_of_notIgnored h, if_neg Bool.false_ne_true]
  have hfinished : (c.isFinished && c.state != some .lastAck) = false := by
    simp only [isIgnored, Bool.or_eq_false_iff] at h
    exact h.1.2
  rw [hfinished, if_neg Bool.false_ne_true]
  split_ifs with hs2 hstate
  · rfl
  · exact absurd (PacketReceiverImpl.synSent_of_notIgnored h hs2) hstate
  · rfl

theorem processSyncAckPacket_loaded (w : ObjectReceiver) (ref : Ref) (c : TCPConnectionImpl)
    (p : TCPPacket) : (w.loaded ref c).processSyncAckPacket p =
      (c.processSyncAckPacket p).map (w.loaded ref) := by
  have hcounter : (w.loaded ref c).counter = c.counter := rfl
  unfold TCPConnectionImpl.processSyncAckPacket
  rw [hcounter]
  split_ifs
  · rfl
  · rfl

theorem isHandsShake2Packet_detect (w : ObjectReceiver) (k : PacketRef) (d : ConnectionDetail) :
    ((w.detect k d).packets k).isHandsShake2Packet = (w.packets k).isHandsShake2Packet := by
  have hpacket : (w.detect k d).packets k = (w.packets k).detectPacketFlowDirection d :=
    Function.update_self ..
  rw [hpacket, PacketReceiverImpl.isHandsShake2Packet_detect]

theorem pickActive_spec (now : Date) (h : InHand w k) {ref : Ref} {c : TCPConnectionImpl}
    (hsyn : (w.packets k).isHandsShake1Packet = false)
    (hactive : w.receiver.activeConnections.get (w.packets k).connectionDetail = some ref)
    (hc : w.receiver.deref ref = some c) :
    Simulates k w (w.pickActive now ref k c) (w.value.pick now (w.packets k)) := by
  have hderef := deref_value w ref
  rw [hc] at hderef
  set w₁ := w.detect k c.connectionDetail
  have hin : InHand w₁ k := h.assign _
  have hpacket : w₁.packets k =
      (w.packets k).detectPacketFlowDirection (w.loaded ref c).connectionDetail :=
    Function.update_self k _ w.packets
  have hloaded : w₁.loaded ref c = w.loaded ref c := loaded_assign h.fresh _ ref c
  have hvalue : w₁.value = w.value := value_assign h.fresh _
  have hnot : ¬ (w₁.objects ref c).Buffered k := hin.fresh ref
  have hd : Objects.Distinct (w₁.objects ref c).buffers := hin.separate.distinct ref
  cases hignored : isIgnored ((w.packets k).detectPacketFlowDirection
      (w.loaded ref c).connectionDetail) (w.loaded ref c) with
  | true =>
    rw [PacketReceiverImpl.picked_iff.mp
        (show PacketReceiverImpl.Picked now _ w.value _ from
          .ignored hsyn hactive hderef hignored),
      pickActive_ignored (c := c) now ref hignored]
    exact ⟨congrArg Outcome.returned hvalue, .of_same h.separate rfl rfl⟩
  | false =>
    rw [pickActive_processed (c := c) now ref hignored]
    dsimp only
    rw [isHandsShake2Packet_detect w k c.connectionDetail]
    cases hs2 : (w.packets k).isHandsShake2Packet with
    | true =>
      rw [if_pos rfl, PacketReceiverImpl.picked_iff.mp
        (show PacketReceiverImpl.Picked now _ w.value _ from
          .answered hsyn hactive hderef hignored hs2), ← hpacket]
      rw [processSyncAckPacket_loaded]
      have hload : ∀ c', w₁.loaded ref c' = w.loaded ref c' := loaded_assign h.fresh _ ref
      have hstore : ∀ c', ({ w₁ with receiver := w₁.receiver.store ref c' } : ObjectReceiver).value =
          w.value.store ref (w.loaded ref c') := by
        intro c'
        rw [value_store, hvalue, hload]
      cases c.processSyncAckPacket (w₁.packets k) with
      | thrown e c' =>
        exact ⟨congrArg (Outcome.thrown e) (hstore c'), Keeps.of_same h.separate rfl rfl⟩
      | returned c' =>
        refine ⟨congrArg Outcome.returned ?_, .of_same h.separate rfl rfl⟩
        exact (value_assign (w := { w₁ with receiver := w₁.receiver.store ref c' }) hin.fresh _).trans
          (hstore c')
    | false =>
      rw [if_neg Bool.false_ne_true, PacketReceiverImpl.picked_iff.mp
        (show PacketReceiverImpl.Picked now _ w.value _ from
          .processed hsyn hactive hderef hignored hs2), ← hpacket]
      obtain ⟨hprocess, hwithin⟩ :=
        Objects.process_spec (o := w₁.objects ref c) now hd hnot rfl
      obtain ⟨hcommit, hkeeps⟩ := map_commit hin hwithin
      rw [hprocess, hvalue, value_objects, hloaded] at hcommit
      rw [show (w₁.objects ref c).packets k = w₁.packets k from rfl] at hcommit
      rw [← hcommit]
      cases hout : ((w₁.objects ref c).process now k).map (w₁.commit ref) with
      | thrown e w' =>
        rw [hout] at hkeeps
        exact ⟨rfl, hkeeps.of_assign⟩
      | returned w' =>
        rw [hout] at hkeeps
        exact ⟨congrArg Outcome.returned (value_removeIfFinished w' ref),
          hkeeps.of_assign.congr rfl rfl⟩

theorem pick_spec (now : Date) (h : InHand w k) :
    Simulates k w (w.pick now k) (w.value.pick now (w.packets k)) := by
  unfold pick
  cases hsyn : (w.packets k).isHandsShake1Packet with
  | true => exact pickSyn_spec now h hsyn
  | false =>
    rw [if_neg Bool.false_ne_true]
    cases hactive : w.receiver.activeConnections.get (w.packets k).connectionDetail with
    | none => exact handleHalfWayConnectionPackets_spec now h hsyn hactive
    | some ref =>
      dsimp only
      cases hc : w.receiver.deref ref with
      | none =>
        have hderef := deref_value w ref
        rw [hc] at hderef
        rw [PacketReceiverImpl.picked_iff.mp
          (show PacketReceiverImpl.Picked now _ w.value _ from
          .danglingActive hsyn hactive hderef)]
        exact ⟨rfl, .of_same h.separate rfl rfl⟩
      | some c => exact pickActive_spec now h hsyn hactive hc

end Pick

/-! ## Runs -/

section Runs

variable {w : ObjectReceiver}

/-- A new object is in no buffer. -/
theorem inHand_newPacket (h : Separate w) (packet : JpcapPacket) :
    InHand (w.newPacket packet) w.created where
  separate := ⟨h.distinct, h.apart, fun hj => Nat.lt_succ_of_lt (h.created hj)⟩
  fresh := fun _ hj => absurd (h.created hj) (Nat.lt_irrefl _)
  created := Nat.lt_succ_self _

theorem value_newPacket (h : Separate w) (packet : JpcapPacket) :
    (w.newPacket packet).value = w.value :=
  value_assign (fun _ hj => absurd (h.created hj) (Nat.lt_irrefl _)) _

theorem packets_newPacket (w : ObjectReceiver) (packet : JpcapPacket) :
    (w.newPacket packet).packets w.created = TCPPacketImpl packet :=
  Function.update_self ..

theorem value_onStream (w : ObjectReceiver) (ref : Ref) (x : Side)
    (f : DynamicByteArrayInputStream → DynamicByteArrayInputStream) :
    ({ w with receiver := w.receiver.onStream ref x f } : ObjectReceiver).value =
      w.value.onStream ref x f := by
  unfold PacketReceiverImpl.onStream
  rw [deref_value]
  cases w.receiver.deref ref with
  | none => rfl
  | some c => exact value_store w ref _

/-- A call does to the objects what it does to the values. -/
theorem call_value (h : Separate w) (c : Call) : (w.call c).map value = w.value.call c := by
  cases c with
  | pick now packet =>
    have hspec := pick_spec now (inHand_newPacket h packet)
    rw [value_newPacket h, packets_newPacket] at hspec
    exact hspec.value
  | poll => rfl
  | read ref x => exact congrArg Outcome.returned (value_onStream w ref x _)
  | readInto ref x bLength off len => exact congrArg Outcome.returned (value_onStream w ref x _)

theorem value_step (h : Separate w) (c : Call) : (w.step c).value = w.value.step c := by
  unfold step PacketReceiverImpl.step
  rw [← call_value h c, Outcome.state_map]

/-- Only an object that did not exist before may have come to a buffer. -/
structure Grows (w w' : ObjectReceiver) : Prop where
  separate : Separate w'
  inBuffer : ∀ {ref j}, w'.InBuffer ref j → w.InBuffer ref j ∨ w.created ≤ j
  created : w.created ≤ w'.created

theorem step_grows (h : Separate w) (c : Call) : Grows w (w.step c) := by
  have hsame : ∀ r, Grows w { w with receiver := r } := fun r =>
    ⟨h.congr rfl rfl, fun hj => Or.inl hj, Nat.le_refl _⟩
  cases c with
  | pick now packet =>
    have hkeeps := (pick_spec now (inHand_newPacket h packet)).keeps
    refine ⟨hkeeps.separate, ?_, hkeeps.created ▸ Nat.le_succ w.created⟩
    exact fun hj => (hkeeps.inBuffer hj).imp_right fun heq => Nat.le_of_eq heq.symm
  | poll => exact hsame _
  | read ref x => exact hsame _
  | readInto ref x bLength off len => exact hsame _

theorem separate_create (filter : ConnectionFilter) : Separate (create filter) := by
  have hnone : ∀ ref k, ¬ (create filter).InBuffer ref k := by
    rintro ref k ⟨x, hx⟩
    cases x <;> exact absurd hx List.not_mem_nil
  refine ⟨?_, fun _ hk => absurd hk (hnone _ _), fun hk => absurd hk (hnone _ _)⟩
  intro ref
  refine ⟨?_, fun x k hk => absurd ⟨x, hk⟩ (hnone ref k)⟩
  intro x
  cases x <;> exact List.nodup_nil

theorem separate_after (filter : ConnectionFilter) (calls : List Call) :
    Separate (Run.after step (create filter) calls) :=
  Run.invariant_always (I := Separate) (fun _ c h => (step_grows h c).separate) calls
    (separate_create filter)

/-- An object that has left the buffers never comes back. -/
theorem gone_after (h : Separate w) {k : PacketRef} (hlt : k < w.created)
    (hgone : ∀ ref, ¬ w.InBuffer ref k) (calls : List Call) (ref : Ref) :
    ¬ (Run.after step w calls).InBuffer ref k := by
  have hstep : ∀ (w : ObjectReceiver) (c : Call),
      Separate w ∧ k < w.created ∧ (∀ ref, ¬ w.InBuffer ref k) →
      Separate (w.step c) ∧ k < (w.step c).created ∧ ∀ ref, ¬ (w.step c).InBuffer ref k := by
    rintro w c ⟨h, hlt, hgone⟩
    have hgrows := step_grows h c
    refine ⟨hgrows.separate, Nat.lt_of_lt_of_le hlt hgrows.created, ?_⟩
    intro ref hk
    rcases hgrows.inBuffer hk with hk | hk
    · exact hgone ref hk
    · exact absurd hlt (Nat.not_lt.mpr hk)
  exact (Run.invariant_always hstep calls ⟨h, hlt, hgone⟩).2.2 ref

/-- Every run of the receiver on objects is a run of the receiver on
values. -/
theorem value_after (filter : ConnectionFilter) (calls : List Call) :
    (Run.after step (create filter) calls).value =
      Run.after PacketReceiverImpl.step (PacketReceiverImpl.create filter) calls := by
  have hrun : ∀ {w : ObjectReceiver}, Separate w →
      (Run.after step w calls).value = Run.after PacketReceiverImpl.step w.value calls := by
    induction calls with
    | nil => exact fun _ => rfl
    | cons c calls ih =>
      intro w h
      rw [Run.after_cons, Run.after_cons, ← value_step h]
      exact ih (step_grows h c).separate
  exact hrun (separate_create filter)

theorem onTrees_of_ordered {ref : Ref} {c : TCPConnectionImpl} (hc : w.value.deref ref = some c)
    (h : Buffering.Ordered c) (x : Side) :
    Buffering.OnTrees w.packets ((w.buffers ref).get x) := by
  rw [deref_value, Option.map_eq_some_iff] at hc
  obtain ⟨c₀, -, rfl⟩ := hc
  refine Buffering.Sorted.onTrees ?_
  cases x with
  | client => exact h .client
  | server => exact h .server

/-- In a run of picks that are near to what waits, the receiver on objects
refines the receiver on values: the same state behind the references, the
same outcome of the next call, and no object in two places.  Its buffers are
those of the trees of the source. -/
theorem objects_refine (filter : ConnectionFilter) (calls : List Call)
    (hcalls : Run.Along PacketReceiverImpl.step Buffering.Narrow
      (PacketReceiverImpl.create filter) calls) :
    let w := Run.after step (create filter) calls
    let r := Run.after PacketReceiverImpl.step (PacketReceiverImpl.create filter) calls
    w.value = r ∧
      (∀ call, Buffering.Narrow r call → (w.call call).map value = r.call call) ∧
      Separate w ∧
      ∀ key ref, r.activeConnections.get key = some ref ∨
          r.halfWayConnections.get key = some ref →
        ∀ x, Buffering.OnTrees w.packets ((w.buffers ref).get x) := by
  intro w r
  have hseparate := separate_after filter calls
  have hvalue : w.value = r := value_after filter calls
  refine ⟨hvalue, ?_, hseparate, ?_⟩
  · intro call _
    rw [← hvalue]
    exact call_value hseparate call
  · intro key ref hkey x
    have htables := Buffering.sorted_of_run filter hcalls
    have hwf := PacketReceiverImpl.wellFormed_of_reachable (r := r) ⟨calls, rfl⟩
    rcases hkey with hactive | hhalf
    · obtain ⟨c, hc, -⟩ := hwf.active hactive
      exact onTrees_of_ordered (hvalue ▸ hc) (htables.active hactive hc) x
    · obtain ⟨c, hc, -⟩ := hwf.halfWay hhalf
      exact onTrees_of_ordered (hvalue ▸ hc) (htables.halfWay hhalf hc) x

/-- Two segments of the client wait in the wrong order: the tree of the
buffer has the later one as its root. -/
theorem objects_refine_reordered :
    let client := InetAddress.inet4 10 0 0 1
    let server := InetAddress.inet4 10 0 0 2
    let calls : List Call := [
      .pick 0 ⟨client, server, 50000, 80, 100, 0, false, false, true, false, [], 0⟩,
      .pick 1 ⟨server, client, 80, 50000, 500, 101, true, false, true, false, [], 1⟩,
      .pick 2 ⟨client, server, 50000, 80, 101, 501, true, false, false, false, [], 2⟩,
      .pick 3 ⟨client, server, 50000, 80, 105, 501, true, false, false, false, [5], 3⟩,
      .pick 4 ⟨client, server, 50000, 80, 103, 501, true, false, false, false, [3], 4⟩]
    let w := Run.after step (create {}) calls
    (SearchTree.remove (fun i j => TCPPacket.compareTo (w.packets i) (w.packets j)) 4
      (.node (.node .nil 4 .nil) 3 .nil)).inorder = [3] := by
  intro client server calls w
  obtain ⟨-, -, -, htrees⟩ := objects_refine {} calls (by decide)
  exact (htrees ((TCPPacketImpl ⟨client, server, 50000, 80, 101, 501, true, false, false, false,
    [], 2⟩).connectionDetail) 0 (Or.inl (by decide)) .client).removeFirst
    (t := .node (.node .nil 4 .nil) 3 .nil) (by decide) (by decide)

end Runs

end ObjectReceiver

end ConnectionSniffer
