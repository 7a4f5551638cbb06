import ConnectionSniffer.Receiver.Drain
import ConnectionSniffer.Receiver.PacketReceiverImpl

/-!
# What one `pick` can do

`Picked` lists the outcomes of a `pick`, each with everything that was
tested on the way to it, and `picked_iff` says that the list is exact.  A
proof about `pick` is a case analysis on `Picked`; no later module unfolds
`pick`.

The first section says what the heap operations do to `deref`.
-/

namespace ConnectionSniffer

namespace PacketReceiverImpl

/-! ## The heap -/

theorem deref_lt {r : PacketReceiverImpl} {ref : Ref} {c : TCPConnectionImpl}
    (h : r.deref ref = some c) : ref < r.heap.length :=
  (List.getElem?_eq_some_iff.mp h).1

theorem deref_store (r : PacketReceiverImpl) (ref ref' : Ref) (c : TCPConnectionImpl) :
    (r.store ref c).deref ref' =
      if ref = ref' then (r.deref ref).map (fun _ => c) else r.deref ref' := by
  unfold deref store
  rw [List.getElem?_set]
  by_cases h : ref = ref'
  · subst h
    by_cases hlt : ref < r.heap.length <;> simp [hlt]
  · simp [h]

@[simp] theorem deref_store_ne {r : PacketReceiverImpl} {ref ref' : Ref}
    {c : TCPConnectionImpl} (h : ref ≠ ref') :
    (r.store ref c).deref ref' = r.deref ref' := by
  rw [deref_store, if_neg h]

theorem deref_store_self {r : PacketReceiverImpl} {ref : Ref} {c c' : TCPConnectionImpl}
    (h : r.deref ref = some c') : (r.store ref c).deref ref = some c := by
  simp [deref_store, h]

@[simp] theorem deref_commit (r : PacketReceiverImpl) (ref ref' : Ref) (t : Delivery) :
    (r.commit ref t).deref ref' = (r.store ref t.connection).deref ref' := rfl

@[simp] theorem deref_removeIfFinished (r : PacketReceiverImpl) (ref ref' : Ref) :
    (r.removeIfFinished ref).deref ref' = r.deref ref' := by
  unfold removeIfFinished
  split
  · rfl
  · split <;> rfl

/-- A connection that is not finished stays. -/
theorem removeIfFinished_of_open {r : PacketReceiverImpl} {ref : Ref} {c : TCPConnectionImpl}
    (hc : r.deref ref = some c) (hopen : c.isFinished = false) : r.removeIfFinished ref = r := by
  unfold removeIfFinished
  simp [hc, hopen]

@[simp] theorem halfWayConnections_removeIfFinished (r : PacketReceiverImpl) (ref : Ref) :
    (r.removeIfFinished ref).halfWayConnections = r.halfWayConnections := by
  unfold removeIfFinished
  split
  · rfl
  · split <;> rfl

@[simp] theorem establishedConnections_removeIfFinished (r : PacketReceiverImpl) (ref : Ref) :
    (r.removeIfFinished ref).establishedConnections = r.establishedConnections := by
  unfold removeIfFinished
  split
  · rfl
  · split <;> rfl

@[simp] theorem filter_removeIfFinished (r : PacketReceiverImpl) (ref : Ref) :
    (r.removeIfFinished ref).filter = r.filter := by
  unfold removeIfFinished
  split
  · rfl
  · split <;> rfl

@[simp] theorem heap_removeIfFinished (r : PacketReceiverImpl) (ref : Ref) :
    (r.removeIfFinished ref).heap = r.heap := by
  unfold removeIfFinished
  split
  · rfl
  · split <;> rfl

/-- A new object, at the next free reference. -/
def allocate (r : PacketReceiverImpl) (c : TCPConnectionImpl) : PacketReceiverImpl :=
  { r with heap := r.heap ++ [c] }

theorem deref_allocate_of_some {r : PacketReceiverImpl} {ref : Ref} {c c' : TCPConnectionImpl}
    (h : r.deref ref = some c') : (r.allocate c).deref ref = some c' := by
  have hlt := deref_lt h
  unfold deref allocate at *
  rwa [List.getElem?_append_left hlt]

@[simp] theorem deref_allocate_self (r : PacketReceiverImpl) (c : TCPConnectionImpl) :
    (r.allocate c).deref r.heap.length = some c := by
  simp [deref, allocate]

theorem deref_allocate {r : PacketReceiverImpl} {ref : Ref} {c c' : TCPConnectionImpl}
    (h : (r.allocate c).deref ref = some c') :
    r.deref ref = some c' ∨ (ref = r.heap.length ∧ c' = c) := by
  unfold deref allocate at *
  rw [List.getElem?_append] at h
  split at h
  · exact Or.inl h
  · rename_i hlt
    right
    have hlen := (List.getElem?_eq_some_iff.mp h).1
    have hz : ref - r.heap.length = 0 := by simpa using hlen
    rw [hz] at h
    refine ⟨Nat.le_antisymm (Nat.le_of_sub_eq_zero hz) (Nat.not_lt.mp hlt), ?_⟩
    simpa using h.symm

/-! ## The receivers a `pick` leaves -/

/-- The connection a SYN makes. -/
def synConnection (now : Date) (p : TCPPacket) : TCPConnectionImpl :=
  (TCPConnectionImpl.create now p.connectionDetail).processSyncPacket p

/-- The half-way connection the first data packet makes. -/
def halfWayConnection (now : Date) (p : TCPPacket) : TCPConnectionImpl :=
  { TCPConnectionImpl.create now p.connectionDetail with
    packetsBuffer := ⟨[p.detectPacketFlowDirection p.connectionDetail], []⟩ }

/-- A half-way connection moves to the active ones. -/
def moved (r : PacketReceiverImpl) (ref : Ref) (c : TCPConnectionImpl) : PacketReceiverImpl :=
  { r with
    halfWayConnections := r.halfWayConnections.remove c.connectionDetail
    activeConnections := r.activeConnections.put c.connectionDetail ref }

/-- Why a packet of an active connection is ignored: it is old, or both
streams are finished, or it is a SYN/ACK that nobody waits for. -/
def isIgnored (p : TCPPacket) (c : TCPConnectionImpl) : Bool :=
  c.isOldPacket p || (c.isFinished && c.state != some .lastAck)
    || (p.isHandsShake2Packet && c.state != some .synSent)

section NotIgnored

variable {p : TCPPacket} {c : TCPConnectionImpl}

theorem notOld_of_notIgnored (h : isIgnored p c = false) : c.isOldPacket p = false := by
  simp only [isIgnored, Bool.or_eq_false_iff] at h
  exact h.1.1

theorem lastAck_of_notIgnored (h : isIgnored p c = false) (hfinished : c.isFinished = true) :
    c.state = some .lastAck := by
  simp only [isIgnored, Bool.or_eq_false_iff] at h
  simpa [hfinished] using h.1.2

theorem synSent_of_notIgnored (h : isIgnored p c = false)
    (hsynAck : p.isHandsShake2Packet = true) : c.state = some .synSent := by
  simp only [isIgnored, Bool.or_eq_false_iff] at h
  simpa [hsynAck] using h.2

end NotIgnored

/-- The buffer of the sender's side takes the packet. -/
def bufferPacket (p : TCPPacket) (c : TCPConnectionImpl) : Outcome Throwable TCPConnectionImpl :=
  (c.packetsBuffer.addToTemporaryStoredDataPackets p.side p).map fun buffer =>
    { c with packetsBuffer := buffer }

/-- The outcomes of a `pick`. -/
inductive Picked (now : Date) (p : TCPPacket) (r : PacketReceiverImpl) :
    Outcome Throwable PacketReceiverImpl → Prop
  | rejected (hsyn : p.isHandsShake1Packet = true)
      (hfilter : r.filter.isAcceptable p.connectionDetail = false) : Picked now p r (.returned r)
  | opened (hsyn : p.isHandsShake1Packet = true)
      (hfilter : r.filter.isAcceptable p.connectionDetail = true) :
      Picked now p r (.returned { r.allocate (synConnection now p) with
        activeConnections := r.activeConnections.put p.connectionDetail r.heap.length })
  | noPayload (hsyn : p.isHandsShake1Packet = false)
      (hactive : r.activeConnections.get p.connectionDetail = none)
      (hdata : p.isContainsData = false) : Picked now p r (.returned r)
  | candidate (hsyn : p.isHandsShake1Packet = false)
      (hactive : r.activeConnections.get p.connectionDetail = none)
      (hdata : p.isContainsData = true)
      (hhalf : r.halfWayConnections.get p.connectionDetail = none) :
      Picked now p r (.returned { r.allocate (halfWayConnection now p) with
        halfWayConnections := r.halfWayConnections.put p.connectionDetail r.heap.length })
  | promoted {ref : Ref} {c : TCPConnectionImpl} (hsyn : p.isHandsShake1Packet = false)
      (hactive : r.activeConnections.get p.connectionDetail = none)
      (hdata : p.isContainsData = true)
      (hhalf : r.halfWayConnections.get p.connectionDetail = some ref)
      (hc : r.deref ref = some c)
      (hdone : completesExchange (p.detectPacketFlowDirection c.connectionDetail) c = true) :
      Picked now p r ((promote now (p.detectPacketFlowDirection c.connectionDetail) c).map
        ((r.moved ref c).commit ref))
  | buffered {ref : Ref} {c : TCPConnectionImpl} (hsyn : p.isHandsShake1Packet = false)
      (hactive : r.activeConnections.get p.connectionDetail = none)
      (hdata : p.isContainsData = true)
      (hhalf : r.halfWayConnections.get p.connectionDetail = some ref)
      (hc : r.deref ref = some c)
      (hdone : completesExchange (p.detectPacketFlowDirection c.connectionDetail) c = false) :
      Picked now p r ((bufferPacket (p.detectPacketFlowDirection c.connectionDetail) c).map
        (r.store ref))
  | danglingHalfWay {ref : Ref} (hsyn : p.isHandsShake1Packet = false)
      (hactive : r.activeConnections.get p.connectionDetail = none)
      (hdata : p.isContainsData = true)
      (hhalf : r.halfWayConnections.get p.connectionDetail = some ref)
      (hc : r.deref ref = none) : Picked now p r (.thrown .nullPointerException r)
  | danglingActive {ref : Ref} (hsyn : p.isHandsShake1Packet = false)
      (hactive : r.activeConnections.get p.connectionDetail = some ref)
      (hc : r.deref ref = none) : Picked now p r (.thrown .nullPointerException r)
  | ignored {ref : Ref} {c : TCPConnectionImpl} (hsyn : p.isHandsShake1Packet = false)
      (hactive : r.activeConnections.get p.connectionDetail = some ref)
      (hc : r.deref ref = some c)
      (hignored : isIgnored (p.detectPacketFlowDirection c.connectionDetail) c = true) :
      Picked now p r (.returned r)
  | answered {ref : Ref} {c : TCPConnectionImpl} (hsyn : p.isHandsShake1Packet = false)
      (hactive : r.activeConnections.get p.connectionDetail = some ref)
      (hc : r.deref ref = some c)
      (hignored : isIgnored (p.detectPacketFlowDirection c.connectionDetail) c = false)
      (hsynAck : p.isHandsShake2Packet = true) :
      Picked now p r
        ((c.processSyncAckPacket (p.detectPacketFlowDirection c.connectionDetail)).map
          (r.store ref))
  | processed {ref : Ref} {c : TCPConnectionImpl} (hsyn : p.isHandsShake1Packet = false)
      (hactive : r.activeConnections.get p.connectionDetail = some ref)
      (hc : r.deref ref = some c)
      (hignored : isIgnored (p.detectPacketFlowDirection c.connectionDetail) c = false)
      (hsynAck : p.isHandsShake2Packet = false) :
      Picked now p r (((process now (p.detectPacketFlowDirection c.connectionDetail) c).map
        (r.commit ref)).andThen fun r => .returned (r.removeIfFinished ref))

@[simp] theorem isHandsShake2Packet_detect (p : TCPPacket) (d : ConnectionDetail) :
    (p.detectPacketFlowDirection d).isHandsShake2Packet = p.isHandsShake2Packet := rfl

@[simp] theorem connectionDetail_detect (p : TCPPacket) (d : ConnectionDetail) :
    (p.detectPacketFlowDirection d).connectionDetail = p.connectionDetail := rfl

@[simp] theorem isContainsData_detect (p : TCPPacket) (d : ConnectionDetail) :
    (p.detectPacketFlowDirection d).isContainsData = p.isContainsData := rfl

/-- `pickActive` on a packet that is ignored. -/
private theorem pickActive_ignored (now : Date) (ref : Ref) {p : TCPPacket}
    {c : TCPConnectionImpl} (r : PacketReceiverImpl)
    (h : isIgnored (p.detectPacketFlowDirection c.connectionDetail) c = true) :
    r.pickActive now ref p c = .returned r := by
  simp only [isIgnored, Bool.or_eq_true, Bool.and_eq_true] at h
  unfold pickActive
  rcases h with (hold | hfin) | ⟨hs2, hstate⟩
  · simp [hold]
  · simp [hfin]
  · have hne : ¬ c.state = some .synSent := by simpa using hstate
    simp [hs2, hne]

/-- `pickActive` on a packet that is not ignored. -/
private theorem pickActive_processed (now : Date) (ref : Ref) {p : TCPPacket}
    {c : TCPConnectionImpl} (r : PacketReceiverImpl)
    (h : isIgnored (p.detectPacketFlowDirection c.connectionDetail) c = false) :
    r.pickActive now ref p c =
      if p.isHandsShake2Packet then
        (c.processSyncAckPacket (p.detectPacketFlowDirection c.connectionDetail)).map
          (r.store ref)
      else ((process now (p.detectPacketFlowDirection c.connectionDetail) c).map
        (r.commit ref)).andThen fun r => .returned (r.removeIfFinished ref) := by
  simp only [isIgnored, Bool.or_eq_false_iff] at h
  obtain ⟨⟨hold, hfin⟩, hs2⟩ := h
  unfold pickActive
  simp only [hold, hfin, Bool.false_eq_true, if_false]
  cases hp : p.isHandsShake2Packet with
  | false => simp [hp]
  | true =>
    have hstate : c.state = some .synSent := by simpa [hp] using hs2
    simp [hp, hstate]

/-- Each `pick` has one of the listed outcomes. -/
theorem picked_pick (now : Date) (p : TCPPacket) (r : PacketReceiverImpl) :
    Picked now p r (r.pick now p) := by
  cases hsyn : p.isHandsShake1Packet with
  | true =>
    cases hfilter : r.filter.isAcceptable p.connectionDetail with
    | true =>
      have h : Picked now p r _ := .opened hsyn hfilter
      convert h using 1
      simp only [pick, hsyn, if_true, pickSyn, hfilter, allocate, synConnection]
    | false =>
      have h : r.pick now p = .returned r := by
        simp [pick, hsyn, pickSyn, hfilter]
      exact h ▸ .rejected hsyn hfilter
  | false =>
    cases hactive : r.activeConnections.get p.connectionDetail with
    | none =>
      have h : r.pick now p = r.handleHalfWayConnectionPackets now p := by
        simp [pick, hsyn, hactive]
      rw [h]
      unfold handleHalfWayConnectionPackets
      cases hdata : p.isContainsData with
      | false => exact .noPayload hsyn hactive hdata
      | true =>
        simp only [Bool.not_true, Bool.false_eq_true, if_false]
        cases hhalf : r.halfWayConnections.get p.connectionDetail with
        | none => exact .candidate hsyn hactive hdata hhalf
        | some ref =>
          simp only []
          cases hc : r.deref ref with
          | none => exact .danglingHalfWay hsyn hactive hdata hhalf hc
          | some c =>
            simp only []
            cases hdone : completesExchange (p.detectPacketFlowDirection c.connectionDetail) c with
            | true => exact .promoted hsyn hactive hdata hhalf hc hdone
            | false =>
              have hb : Picked now p r _ := .buffered hsyn hactive hdata hhalf hc hdone
              simp only [bufferPacket] at hb
              simp only [Bool.false_eq_true, if_false]
              convert hb using 1
              generalize c.packetsBuffer.addToTemporaryStoredDataPackets
                (p.detectPacketFlowDirection c.connectionDetail).side
                (p.detectPacketFlowDirection c.connectionDetail) = o
              cases o <;> rfl
    | some ref =>
      cases hc : r.deref ref with
      | none =>
        have h : r.pick now p = .thrown .nullPointerException r := by
          simp [pick, hsyn, hactive, hc]
        exact h ▸ .danglingActive hsyn hactive hc
      | some c =>
        have h : r.pick now p = r.pickActive now ref p c := by
          simp [pick, hsyn, hactive, hc]
        rw [h]
        cases hig : isIgnored (p.detectPacketFlowDirection c.connectionDetail) c with
        | true =>
          rw [pickActive_ignored now ref r hig]
          exact .ignored hsyn hactive hc hig
        | false =>
          rw [pickActive_processed now ref r hig]
          cases hs2 : p.isHandsShake2Packet with
          | true => exact .answered hsyn hactive hc hig hs2
          | false => exact .processed hsyn hactive hc hig hs2

/-- The listed outcomes exclude each other. -/
theorem Picked.unique {now : Date} {p : TCPPacket} {r : PacketReceiverImpl}
    {o o' : Outcome Throwable PacketReceiverImpl} (h : Picked now p r o)
    (h' : Picked now p r o') : o = o' := by
  cases h <;> cases h' <;> simp_all

/-- The listed outcomes are exactly what `pick` does. -/
theorem picked_iff {now : Date} {p : TCPPacket} {r : PacketReceiverImpl}
    {o : Outcome Throwable PacketReceiverImpl} : Picked now p r o ↔ r.pick now p = o :=
  ⟨fun h => (picked_pick now p r).unique h, fun h => h ▸ picked_pick now p r⟩

end PacketReceiverImpl

end ConnectionSniffer
