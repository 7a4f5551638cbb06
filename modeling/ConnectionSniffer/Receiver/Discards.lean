import ConnectionSniffer.Receiver.Run

/-!
# What is thrown away as old

`pick` returns at once on a packet that starts before its sender's counter,
and `pickupCSBuffer` and `pickupSCBuffer` remove such packets from the
front of a buffer.  `discards` follows `pick` through the same branches and
lists these packets, each with the connection that threw it away.

`pickupBuffer_split` ties the list to the code: a pick-up splits a buffer
into what it discards, the packet it takes out and what stays.
`discards_forall` is the rule for runs.
-/

namespace ConnectionSniffer

/-- A packet that was thrown away as old, and the connection that did it. -/
structure Discard where
  connection : TCPConnectionImpl
  packet : TCPPacket

namespace TCPConnectionImpl

/-- What `pickupBuffer` removes from the front. -/
def pickupBufferDiscards (c : TCPConnectionImpl) : List TCPPacket → List TCPPacket
  | [] => []
  | packet :: rest =>
    match c.isCanProcessPacket packet with
    | .ok false => if c.isOldPacket packet then packet :: c.pickupBufferDiscards rest else []
    | _ => []

/-- What `pickupPacket` removes: from the server's packets only where the
client's gave none. -/
def pickupDiscards (c : TCPConnectionImpl) : List TCPPacket :=
  c.pickupBufferDiscards c.packetsBuffer.client ++
    match c.pickupBuffer c.packetsBuffer.client with
    | .returned (none, _) => c.pickupBufferDiscards c.packetsBuffer.server
    | _ => []

/-- A pick-up splits the buffer. -/
theorem pickupBuffer_split {c : TCPConnectionImpl} {packets rest : List TCPPacket}
    {picked : Option TCPPacket} (h : c.pickupBuffer packets = .returned (picked, rest)) :
    packets = c.pickupBufferDiscards packets ++ picked.toList ++ rest := by
  induction packets with
  | nil =>
    simp only [pickupBuffer, Outcome.returned.injEq, Prod.mk.injEq] at h
    obtain ⟨rfl, rfl⟩ := h
    rfl
  | cons p packets ih =>
    rw [pickupBuffer] at h
    rw [pickupBufferDiscards]
    cases hcan : c.isCanProcessPacket p with
    | error e => simp [hcan] at h
    | ok b =>
      cases b with
      | true =>
        simp only [hcan, Outcome.returned.injEq, Prod.mk.injEq] at h
        obtain ⟨rfl, rfl⟩ := h
        rfl
      | false =>
        cases hold : c.isOldPacket p with
        | true =>
          simp only [hcan, hold, if_true] at h
          simpa using ih h
        | false =>
          simp only [hcan, hold, Bool.false_eq_true, if_false, Outcome.returned.injEq,
            Prod.mk.injEq] at h
          obtain ⟨rfl, rfl⟩ := h
          simp

theorem of_mem_pickupBufferDiscards {c : TCPConnectionImpl} {packets : List TCPPacket}
    {p : TCPPacket} (h : p ∈ c.pickupBufferDiscards packets) :
    p ∈ packets ∧ c.isOldPacket p = true := by
  induction packets with
  | nil => simp [pickupBufferDiscards] at h
  | cons q packets ih =>
    rw [pickupBufferDiscards] at h
    split at h
    · split at h
      · rename_i hold
        rcases List.mem_cons.mp h with rfl | hrest
        · exact ⟨by simp, hold⟩
        · obtain ⟨hmem, hp⟩ := ih hrest
          exact ⟨List.mem_cons_of_mem _ hmem, hp⟩
      · simp at h
    · simp at h

theorem of_mem_pickupDiscards {c : TCPConnectionImpl} {p : TCPPacket}
    (h : p ∈ c.pickupDiscards) :
    (∃ x, p ∈ c.packetsBuffer.get x) ∧ c.isOldPacket p = true := by
  rcases List.mem_append.mp h with hclient | hserver
  · obtain ⟨hmem, hold⟩ := of_mem_pickupBufferDiscards hclient
    exact ⟨⟨.client, hmem⟩, hold⟩
  · split at hserver
    · obtain ⟨hmem, hold⟩ := of_mem_pickupBufferDiscards hserver
      exact ⟨⟨.server, hmem⟩, hold⟩
    · simp at hserver

end TCPConnectionImpl

namespace Delivery

/-- What `handlePacket` discards, given what the drain does. -/
def handleDiscards (now : Date) (drainDiscards : Delivery → List Discard) (packet : TCPPacket)
    (t : Delivery) : List Discard :=
  match t.deliver now packet with
  | .returned t => if packet.fin then drainDiscards t else []
  | .thrown _ _ => []

/-- What the drain discards. -/
def drainDiscards (now : Date) : Nat → Delivery → List Discard
  | 0, _ => []
  | bound + 1, t =>
    t.connection.pickupDiscards.map (Discard.mk t.connection) ++
      match t.connection.pickupPacket with
      | .returned (some packet, c) =>
        handleDiscards now (drainDiscards now bound) packet { t with connection := c } ++
          match handlePacket now (drain now bound) packet { t with connection := c } with
          | .returned t => drainDiscards now bound t
          | .thrown _ _ => []
      | _ => []

/-- What `tryToProcessPacketsInBuffer` discards. -/
def bufferDiscards (now : Date) (t : Delivery) : List Discard :=
  drainDiscards now t.connection.packetsBuffer.getPacketsCountInBuffer t

variable {now : Date} {I : Delivery → Prop} {F : Throwable → Delivery → Prop}
  {Q : Discard → Prop}

theorem handleDiscards_forall {drainDiscards : Delivery → List Discard}
    (hdrain : ∀ t, I t → ∀ d ∈ drainDiscards t, Q d) {p : TCPPacket} {t : Delivery}
    (hdeliver : (deliver now p t).Ends I F) :
    ∀ d ∈ handleDiscards now drainDiscards p t, Q d := by
  intro d hd
  unfold handleDiscards at hd
  split at hd
  · rename_i hreturned
    rw [hreturned] at hdeliver
    split at hd
    · exact hdrain _ hdeliver d hd
    · simp at hd
  · simp at hd

/-- What the drain discards waited, with the invariant, in a buffer of its
connection. -/
theorem drainDiscards_forall (h : DeliveryRule now I F)
    (hQ : ∀ {c n p}, I ⟨c, n⟩ → (∃ x, p ∈ c.packetsBuffer.get x) → c.isOldPacket p = true →
      Q ⟨c, p⟩) (bound : Nat) {t : Delivery} (hI : I t) :
    ∀ d ∈ drainDiscards now bound t, Q d := by
  induction bound generalizing t with
  | zero =>
    intro d hd
    simp [drainDiscards] at hd
  | succ bound ih =>
    intro d hd
    have hpick := h.pickupPacket_ends hI
    unfold drainDiscards at hd
    rcases List.mem_append.mp hd with hfront | hd
    · obtain ⟨p, hp, rfl⟩ := List.mem_map.mp hfront
      obtain ⟨hmem, hold⟩ := TCPConnectionImpl.of_mem_pickupDiscards hp
      exact hQ (n := t.announced) hI hmem hold
    · split at hd
      · rename_i hp
        rw [hp] at hpick
        obtain ⟨c, x, rest, hc, hb, hcan, rfl⟩ := hpick
        have hdeliver := h.take hc hb hcan
        rcases List.mem_append.mp hd with hhandle | hd
        · exact handleDiscards_forall (fun t ht => ih ht) hdeliver d hhandle
        · have hends := h.handlePacket_ends (fun t ht => h.drain_ends bound ht) hdeliver
          split at hd
          · rename_i hreturned
            rw [hreturned] at hends
            exact ih hends d hd
          · simp at hd
      · simp at hd

end Delivery

namespace PacketReceiverImpl

/-- What `promote` discards. -/
def promoteDiscards (now : Date) (tcpPacket : TCPPacket) (c : TCPConnectionImpl) :
    List Discard :=
  match (primed tcpPacket c).processDataPacket now tcpPacket with
  | .returned c => Delivery.bufferDiscards now ⟨c.record (some .established) tcpPacket, 1⟩
  | .thrown _ _ => []

/-- What `process` discards. -/
def processDiscards (now : Date) (tcpPacket : TCPPacket) (c : TCPConnectionImpl) :
    List Discard :=
  match c.isCanProcessPacket tcpPacket with
  | .error _ => []
  | .ok true => Delivery.handleDiscards now (Delivery.bufferDiscards now) tcpPacket ⟨c, 0⟩
  | .ok false =>
    match bufferPacket tcpPacket c with
    | .returned c => Delivery.bufferDiscards now ⟨c, 0⟩
    | .thrown _ _ => []

/-- What `handleHalfWayConnectionPackets` discards. -/
def halfWayDiscards (now : Date) (tcpPacket : TCPPacket) (r : PacketReceiverImpl) :
    List Discard :=
  if !tcpPacket.isContainsData then []
  else
    match (r.halfWayConnections.get tcpPacket.connectionDetail).bind r.deref with
    | none => []
    | some c =>
      let tcpPacket := tcpPacket.detectPacketFlowDirection c.connectionDetail
      if completesExchange tcpPacket c then promoteDiscards now tcpPacket c else []

/-- What `pick` discards. -/
def discards (now : Date) (tcpPacket : TCPPacket) (r : PacketReceiverImpl) : List Discard :=
  if tcpPacket.isHandsShake1Packet then []
  else
    match r.activeConnections.get tcpPacket.connectionDetail with
    | none => r.halfWayDiscards now tcpPacket
    | some ref =>
      match r.deref ref with
      | none => []
      | some c =>
        let tcpPacket := tcpPacket.detectPacketFlowDirection c.connectionDetail
        if c.isOldPacket tcpPacket then [⟨c, tcpPacket⟩]
        else if isIgnored tcpPacket c || tcpPacket.isHandsShake2Packet then []
        else processDiscards now tcpPacket c

section Rules

variable {now : Date} {I : Delivery → Prop} {F : Throwable → Delivery → Prop}
  {Q : Discard → Prop}

theorem promoteDiscards_forall (h : Delivery.DeliveryRule now I F)
    (hQ : ∀ {c n p}, I ⟨c, n⟩ → (∃ x, p ∈ c.packetsBuffer.get x) → c.isOldPacket p = true →
      Q ⟨c, p⟩) {p : TCPPacket} {c : TCPConnectionImpl}
    (hdata : ((primed p c).processDataPacket now p).Ends
      (fun c' => I ⟨c'.record (some .established) p, 1⟩) (fun e c' => F e ⟨c', 1⟩)) :
    ∀ d ∈ promoteDiscards now p c, Q d := by
  intro d hd
  unfold promoteDiscards at hd
  split at hd
  · rename_i hreturned
    rw [hreturned] at hdata
    exact Delivery.drainDiscards_forall h hQ _ hdata d hd
  · simp at hd

theorem processDiscards_forall (h : Delivery.DeliveryRule now I F)
    (hQ : ∀ {c n p}, I ⟨c, n⟩ → (∃ x, p ∈ c.packetsBuffer.get x) → c.isOldPacket p = true →
      Q ⟨c, p⟩) {p : TCPPacket} {c : TCPConnectionImpl}
    (hdirect : c.isCanProcessPacket p = .ok true → (Delivery.deliver now p ⟨c, 0⟩).Ends I F)
    (hbuffer : c.isCanProcessPacket p = .ok false → I ⟨c.setBuffer p.side
      (TreeSet.add TCPPacket.compareTo p (c.packetsBuffer.get p.side)), 0⟩) :
    ∀ d ∈ processDiscards now p c, Q d := by
  have hdrain : ∀ t, I t → ∀ d ∈ Delivery.bufferDiscards now t, Q d :=
    fun t ht => Delivery.drainDiscards_forall h hQ _ ht
  intro d hd
  unfold processDiscards at hd
  split at hd
  · simp at hd
  · rename_i hcan
    exact Delivery.handleDiscards_forall hdrain (hdirect hcan) d hd
  · rename_i hcan
    have hadded := bufferPacket_sat (I := fun c => I ⟨c, 0⟩) (E := fun _ => True) trivial
      (hbuffer hcan)
    split at hd
    · rename_i hreturned
      rw [hreturned] at hadded
      exact hdrain _ hadded d hd
    · simp at hd

/-- What `pick` discards is the packet itself, or comes from the buffers of
the connection that handles it. -/
theorem discards_forall {p : TCPPacket} {A H : TCPConnectionImpl → Prop} {r : PacketReceiverImpl}
    (hwf : WellFormed r) (htables : Tables A H r)
    (hold : ∀ {c}, A c → (c.connectionDetail == p.connectionDetail) = true →
      p.isHandsShake1Packet = false →
      c.isOldPacket (p.detectPacketFlowDirection c.connectionDetail) = true →
      Q ⟨c, p.detectPacketFlowDirection c.connectionDetail⟩)
    (hpromote : ∀ {c}, H c → (c.connectionDetail == p.connectionDetail) = true →
      p.isHandsShake1Packet = false → p.isContainsData = true →
      ∀ d ∈ promoteDiscards now (p.detectPacketFlowDirection c.connectionDetail) c, Q d)
    (hprocess : ∀ {c}, A c → (c.connectionDetail == p.connectionDetail) = true →
      p.isHandsShake1Packet = false → p.isHandsShake2Packet = false →
      ∀ d ∈ processDiscards now (p.detectPacketFlowDirection c.connectionDetail) c, Q d) :
    ∀ d ∈ r.discards now p, Q d := by
  intro d hd
  unfold discards at hd
  split at hd
  · simp at hd
  · rename_i hsyn
    have hsyn' : p.isHandsShake1Packet = false := by simpa using hsyn
    split at hd
    · unfold halfWayDiscards at hd
      split at hd
      · simp at hd
      · rename_i hdata
        split at hd
        · simp at hd
        · rename_i c hc
          obtain ⟨ref, hhalf, hderef⟩ := Option.bind_eq_some_iff.mp hc
          dsimp only at hd
          split at hd
          · exact hpromote (htables.halfWay hhalf hderef) (hwf.deref_halfWay hhalf hderef) hsyn'
              (by simpa using hdata) d hd
          · simp at hd
    · rename_i ref hactive
      split at hd
      · simp at hd
      · rename_i c hderef
        have hA := htables.active hactive hderef
        have hkey := hwf.deref_active hactive hderef
        dsimp only at hd
        split at hd
        · rename_i hisOld
          obtain rfl := List.mem_singleton.mp hd
          exact hold hA hkey hsyn' hisOld
        · split at hd
          · simp at hd
          · rename_i hskip
            have hsynAck : p.isHandsShake2Packet = false := by
              simpa using (Bool.or_eq_false_iff.mp (by simpa using hskip)).2
            exact hprocess hA hkey hsyn' hsynAck d hd

end Rules

end PacketReceiverImpl

end ConnectionSniffer
