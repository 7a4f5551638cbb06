import ConnectionSniffer.Receiver.Run

/-!
# The packets that one `pick` handles

`handlings` follows `pick` through its branches and lists the packets that
it hands to the handlers, each with the connection that it met and what the
handlers made of it.  There are three ways to get there: `handlePacket` on
the packet that was picked, `handlePacket` on one that the drain took out
of a buffer, and the promotion, which calls the data handler alone.

`drain_history`, `process_history` and `promote_history` tie the list to
the code: the packets whose handlers returned are what the history of the
connection has grown by, also when the `pick` throws.  `handlings_forall`
is the rule for runs.
-/

namespace ConnectionSniffer

/-- A packet that was handed to the handlers, the connection that it met,
and how they ended. -/
structure Handling where
  packet : TCPPacket
  met : TCPConnectionImpl
  outcome : Outcome Throwable TCPConnectionImpl

/-- The packets whose handlers returned. -/
def Handling.completed (handlings : List Handling) : List TCPPacket :=
  (handlings.filter fun d => d.outcome.isReturned).map Handling.packet

/-- The packets in the history of a connection. -/
def TCPConnectionImpl.history (c : TCPConnectionImpl) : List TCPPacket := c.handled.map Prod.snd

namespace Delivery

/-- What `deliver` does to a packet. -/
def handling (now : Date) (packet : TCPPacket) (t : Delivery) : Handling :=
  ⟨packet, t.connection, (t.deliver now packet).map Delivery.connection⟩

/-- What `handlePacket` handles, given what the drain does. -/
def handleHandlings (now : Date) (drainHandlings : Delivery → List Handling)
    (packet : TCPPacket) (t : Delivery) : List Handling :=
  t.handling now packet ::
    match t.deliver now packet with
    | .returned t => if packet.fin then drainHandlings t else []
    | .thrown _ _ => []

/-- What the drain handles. -/
def drainHandlings (now : Date) : Nat → Delivery → List Handling
  | 0, _ => []
  | bound + 1, t =>
    match t.connection.pickupPacket with
    | .returned (some packet, c) =>
      handleHandlings now (drainHandlings now bound) packet { t with connection := c } ++
        match handlePacket now (drain now bound) packet { t with connection := c } with
        | .returned t => drainHandlings now bound t
        | .thrown _ _ => []
    | _ => []

/-- What `tryToProcessPacketsInBuffer` handles. -/
def bufferHandlings (now : Date) (t : Delivery) : List Handling :=
  drainHandlings now t.connection.packetsBuffer.getPacketsCountInBuffer t

section Rules

variable {now : Date} {I : Delivery → Prop} {F : Throwable → Delivery → Prop}
  {Q : Handling → Prop}

theorem handleHandlings_forall {drainHandlings : Delivery → List Handling}
    (hdrain : ∀ t, I t → ∀ d ∈ drainHandlings t, Q d) {p : TCPPacket} {t : Delivery}
    (hdeliver : (deliver now p t).Ends I F) (hQ : Q (t.handling now p)) :
    ∀ d ∈ handleHandlings now drainHandlings p t, Q d := by
  intro d hd
  unfold handleHandlings at hd
  rcases List.mem_cons.mp hd with rfl | hd
  · exact hQ
  · split at hd
    · rename_i hreturned
      rw [hreturned] at hdeliver
      split at hd
      · exact hdrain _ hdeliver d hd
      · simp at hd
    · simp at hd

/-- What the drain handles could be processed and was taken, with the
invariant, from the front of a buffer. -/
theorem drainHandlings_forall (h : DeliveryRule now I F)
    (hQ : ∀ {c n x p rest}, I ⟨c, n⟩ → c.packetsBuffer.get x = p :: rest →
      c.isCanProcessPacket p = .ok true → Q (handling now p ⟨c.setBuffer x rest, n⟩))
    (bound : Nat) {t : Delivery} (hI : I t) : ∀ d ∈ drainHandlings now bound t, Q d := by
  induction bound generalizing t with
  | zero =>
    intro d hd
    simp [drainHandlings] at hd
  | succ bound ih =>
    intro d hd
    have hpick := h.pickupPacket_ends hI
    unfold drainHandlings at hd
    split at hd
    · rename_i hp
      rw [hp] at hpick
      obtain ⟨c, x, rest, hc, hb, hcan, rfl⟩ := hpick
      have hdeliver := h.take hc hb hcan
      rcases List.mem_append.mp hd with hhandle | hd
      · exact handleHandlings_forall (fun t ht => ih ht) hdeliver (hQ hc hb hcan) d hhandle
      · have hends := h.handlePacket_ends (fun t ht => h.drain_ends bound ht) hdeliver
        split at hd
        · rename_i hreturned
          rw [hreturned] at hends
          exact ih hends d hd
        · simp at hd
    · simp at hd

end Rules

/-! ## The list and the history -/

section History

variable {now : Date}

/-- The history of the connection has grown by the packets of `handlings`
whose handlers returned. -/
def Grown (t : Delivery) (handlings : List Handling) (t' : Delivery) : Prop :=
  t'.connection.history = t.connection.history ++ Handling.completed handlings

theorem grown_nil {t t' : Delivery} (h : t'.connection.handled = t.connection.handled) :
    Grown t [] t' := by
  simp [Grown, Handling.completed, TCPConnectionImpl.history, h]

theorem grown_returned {t t' : Delivery} {p : TCPPacket} {met c : TCPConnectionImpl}
    {s : Option TCPConnectionState}
    (h : t'.connection.handled = t.connection.handled ++ [(s, p)]) :
    Grown t [⟨p, met, .returned c⟩] t' := by
  unfold Grown TCPConnectionImpl.history
  rw [h, List.map_append]
  rfl

theorem grown_thrown {t t' : Delivery} {p : TCPPacket} {met c : TCPConnectionImpl}
    {e : Throwable} (h : t'.connection.handled = t.connection.handled) :
    Grown t [⟨p, met, .thrown e c⟩] t' := by
  simp [Grown, Handling.completed, TCPConnectionImpl.history, h]

theorem Grown.trans {t t' t'' : Delivery} {l l' : List Handling} (h : Grown t l t')
    (h' : Grown t' l' t'') : Grown t (l ++ l') t'' := by
  unfold Grown Handling.completed at *
  rw [h', h, List.filter_append, List.map_append, List.append_assoc]

/-- A pick-up handles nothing. -/
theorem pickupPacket_history (c : TCPConnectionImpl) :
    c.pickupPacket.Sat (fun picked => picked.2.handled = c.handled)
      (fun picked => picked.2.handled = c.handled) := by
  have hpick := pickupPacket_sat (I := fun c' => c'.handled = c.handled)
    (E := fun c' => c'.handled = c.handled) (fun h _ _ => h) (fun h _ _ => h) (c := c) rfl
  refine hpick.mono ?_ fun _ h => h
  rintro ⟨picked, c'⟩ h
  cases picked with
  | none => exact h
  | some p =>
    obtain ⟨c₀, x, rest, h₀, -, -, rfl⟩ := h
    exact h₀

theorem handle_history {drain : Delivery → Outcome Throwable Delivery}
    {drainHandlings : Delivery → List Handling}
    (hdrain : ∀ t, (drain t).Sat (Grown t (drainHandlings t)) (Grown t (drainHandlings t)))
    (p : TCPPacket) (t : Delivery) :
    (handlePacket now drain p t).Sat (Grown t (handleHandlings now drainHandlings p t))
      (Grown t (handleHandlings now drainHandlings p t)) := by
  have hframe : (deliver now p t).Leaves (Recorded p t.connection) (SameFrame t.connection) :=
    deliver_frame now p t.connection t.announced
  unfold handlePacket handleHandlings handling
  cases hd : deliver now p t with
  | thrown e t' =>
    rw [hd] at hframe
    exact grown_thrown hframe.handled
  | returned t' =>
    rw [hd] at hframe
    have hone : Grown t [⟨p, t.connection, .returned t'.connection⟩] t' :=
      grown_returned hframe.handled
    rw [Outcome.andThen_returned]
    dsimp only [Outcome.map_returned]
    refine Outcome.Sat.andThen (Q := Grown t (⟨p, t.connection, .returned t'.connection⟩ ::
      if p.fin then drainHandlings t' else [])) ?_ fun t'' h => h
    cases p.fin with
    | true => exact (hdrain t').mono (fun _ h => hone.trans h) fun _ h => hone.trans h
    | false => exact hone

/-- What the drain handles is what the history grows by. -/
theorem drain_history (bound : Nat) (t : Delivery) :
    (drain now bound t).Sat (Grown t (drainHandlings now bound t))
      (Grown t (drainHandlings now bound t)) := by
  induction bound generalizing t with
  | zero => exact grown_nil rfl
  | succ bound ih =>
    have hpick := pickupPacket_history t.connection
    unfold drain drainHandlings
    cases hp : t.connection.pickupPacket with
    | thrown e picked =>
      rw [hp] at hpick
      exact grown_nil hpick
    | returned picked =>
      rw [hp] at hpick
      obtain ⟨_ | p, c⟩ := picked
      · exact grown_nil hpick
      · have hstart : Grown t [] { t with connection := c } := grown_nil hpick
        have hhandle : (handlePacket now (drain now bound) p { t with connection := c }).Sat _ _ :=
          handle_history (fun t => ih t) p { t with connection := c }
        dsimp only
        cases hh : handlePacket now (drain now bound) p { t with connection := c } with
        | thrown e t' =>
          rw [hh] at hhandle
          simpa using hstart.trans hhandle
        | returned t' =>
          rw [hh] at hhandle
          have hfirst := hstart.trans hhandle
          rw [List.nil_append] at hfirst
          exact (ih t').mono (fun _ h => hfirst.trans h) fun _ h => hfirst.trans h

end History

end Delivery

namespace PacketReceiverImpl

/-- What `promote` handles: the packet itself, by the data handler alone, and
then what the drain handles. -/
def promoteHandlings (now : Date) (tcpPacket : TCPPacket) (c : TCPConnectionImpl) :
    List Handling :=
  ⟨tcpPacket, primed tcpPacket c, (primed tcpPacket c).processDataPacket now tcpPacket⟩ ::
    match (primed tcpPacket c).processDataPacket now tcpPacket with
    | .returned c => Delivery.bufferHandlings now ⟨c.record (some .established) tcpPacket, 1⟩
    | .thrown _ _ => []

/-- What `process` handles. -/
def processHandlings (now : Date) (tcpPacket : TCPPacket) (c : TCPConnectionImpl) :
    List Handling :=
  match c.isCanProcessPacket tcpPacket with
  | .error _ => []
  | .ok true => Delivery.handleHandlings now (Delivery.bufferHandlings now) tcpPacket ⟨c, 0⟩
  | .ok false =>
    match bufferPacket tcpPacket c with
    | .returned c => Delivery.bufferHandlings now ⟨c, 0⟩
    | .thrown _ _ => []

/-- What `handleHalfWayConnectionPackets` handles. -/
def halfWayHandlings (now : Date) (tcpPacket : TCPPacket) (r : PacketReceiverImpl) :
    List Handling :=
  if !tcpPacket.isContainsData then []
  else
    match (r.halfWayConnections.get tcpPacket.connectionDetail).bind r.deref with
    | none => []
    | some c =>
      let tcpPacket := tcpPacket.detectPacketFlowDirection c.connectionDetail
      if completesExchange tcpPacket c then promoteHandlings now tcpPacket c else []

/-- What `pick` handles.  SYN and SYN/ACK have handlers of their own, which
append nothing. -/
def handlings (now : Date) (tcpPacket : TCPPacket) (r : PacketReceiverImpl) : List Handling :=
  if tcpPacket.isHandsShake1Packet then []
  else
    match r.activeConnections.get tcpPacket.connectionDetail with
    | none => r.halfWayHandlings now tcpPacket
    | some ref =>
      match r.deref ref with
      | none => []
      | some c =>
        let tcpPacket := tcpPacket.detectPacketFlowDirection c.connectionDetail
        if isIgnored tcpPacket c || tcpPacket.isHandsShake2Packet then []
        else processHandlings now tcpPacket c

section Rules

variable {now : Date} {p : TCPPacket} {c : TCPConnectionImpl}

/-- What `promote` handles is what the history grows by. -/
theorem promote_history (now : Date) (p : TCPPacket) (c : TCPConnectionImpl) :
    (promote now p c).Sat (Delivery.Grown ⟨c, 0⟩ (promoteHandlings now p c))
      (Delivery.Grown ⟨c, 0⟩ (promoteHandlings now p c)) := by
  have hframe := Delivery.processDataPacket_frame now p (primed p c)
  show (((primed p c).processDataPacket now p).map _ |>.andThen _).Sat _ _
  unfold promoteHandlings
  cases hd : (primed p c).processDataPacket now p with
  | thrown e c' =>
    rw [hd] at hframe
    exact Delivery.grown_thrown hframe.handled
  | returned c' =>
    rw [hd] at hframe
    have hone : Delivery.Grown ⟨c, 0⟩ [⟨p, primed p c, .returned c'⟩]
        ⟨c'.record (some .established) p, 1⟩ := by
      refine Delivery.grown_returned (s := some .established) ?_
      show c'.handled ++ _ = _
      rw [show c'.handled = c.handled from hframe.handled]
    exact (Delivery.drain_history _ _).mono (fun _ h => hone.trans h) fun _ h => hone.trans h

/-- What `process` handles is what the history grows by. -/
theorem process_history (now : Date) (p : TCPPacket) (c : TCPConnectionImpl) :
    (process now p c).Sat (Delivery.Grown ⟨c, 0⟩ (processHandlings now p c))
      (Delivery.Grown ⟨c, 0⟩ (processHandlings now p c)) := by
  unfold process processHandlings
  cases c.isCanProcessPacket p with
  | error e => exact Delivery.grown_nil rfl
  | ok b =>
    cases b with
    | true => exact Delivery.handle_history (fun t => Delivery.drain_history _ t) p ⟨c, 0⟩
    | false =>
      unfold bufferPacket
      cases c.packetsBuffer.addToTemporaryStoredDataPackets p.side p with
      | thrown e buffer => exact Delivery.grown_nil rfl
      | returned buffer => exact Delivery.drain_history _ ⟨{ c with packetsBuffer := buffer }, 0⟩

/-- What the promotion handles is the packet itself, or comes from a
buffer. -/
theorem promoteHandlings_forall {I : Delivery → Prop} {F : Throwable → Delivery → Prop}
    {Q : Handling → Prop} (h : Delivery.DeliveryRule now I F)
    (hQ : ∀ {c n x p rest}, I ⟨c, n⟩ → c.packetsBuffer.get x = p :: rest →
      c.isCanProcessPacket p = .ok true → Q (Delivery.handling now p ⟨c.setBuffer x rest, n⟩))
    (hfirst : Q ⟨p, primed p c, (primed p c).processDataPacket now p⟩)
    (hdata : ((primed p c).processDataPacket now p).Ends
      (fun c' => I ⟨c'.record (some .established) p, 1⟩) (fun e c' => F e ⟨c', 1⟩)) :
    ∀ d ∈ promoteHandlings now p c, Q d := by
  intro d hd
  unfold promoteHandlings at hd
  rcases List.mem_cons.mp hd with rfl | hd
  · exact hfirst
  · split at hd
    · rename_i hreturned
      rw [hreturned] at hdata
      exact Delivery.drainHandlings_forall h hQ _ hdata d hd
    · simp at hd

/-- What `process` handles is the packet itself, or comes from a buffer. -/
theorem processHandlings_forall {I : Delivery → Prop} {F : Throwable → Delivery → Prop}
    {Q : Handling → Prop} (h : Delivery.DeliveryRule now I F)
    (hQ : ∀ {c n x p rest}, I ⟨c, n⟩ → c.packetsBuffer.get x = p :: rest →
      c.isCanProcessPacket p = .ok true → Q (Delivery.handling now p ⟨c.setBuffer x rest, n⟩))
    (hdirect : c.isCanProcessPacket p = .ok true →
      Q (Delivery.handling now p ⟨c, 0⟩) ∧ (Delivery.deliver now p ⟨c, 0⟩).Ends I F)
    (hbuffer : c.isCanProcessPacket p = .ok false → I ⟨c.setBuffer p.side
      (TreeSet.add TCPPacket.compareTo p (c.packetsBuffer.get p.side)), 0⟩) :
    ∀ d ∈ processHandlings now p c, Q d := by
  have hdrain : ∀ t, I t → ∀ d ∈ Delivery.bufferHandlings now t, Q d :=
    fun t ht => Delivery.drainHandlings_forall h hQ _ ht
  intro d hd
  unfold processHandlings at hd
  split at hd
  · simp at hd
  · rename_i hcan
    obtain ⟨hfirst, hdeliver⟩ := hdirect hcan
    exact Delivery.handleHandlings_forall hdrain hdeliver hfirst d hd
  · rename_i hcan
    have hadded := bufferPacket_sat (I := fun c => I ⟨c, 0⟩) (E := fun _ => True) trivial
      (hbuffer hcan)
    split at hd
    · rename_i hreturned
      rw [hreturned] at hadded
      exact hdrain _ hadded d hd
    · simp at hd

/-- What `pick` handles is handled by `promote` or by `process`. -/
theorem handlings_forall {r : PacketReceiverImpl} {Q : Handling → Prop}
    (hpromote : ∀ {ref c}, p.isHandsShake1Packet = false →
      r.activeConnections.get p.connectionDetail = none → p.isContainsData = true →
      r.halfWayConnections.get p.connectionDetail = some ref → r.deref ref = some c →
      completesExchange (p.detectPacketFlowDirection c.connectionDetail) c = true →
      ∀ d ∈ promoteHandlings now (p.detectPacketFlowDirection c.connectionDetail) c, Q d)
    (hprocess : ∀ {ref c}, p.isHandsShake1Packet = false →
      r.activeConnections.get p.connectionDetail = some ref → r.deref ref = some c →
      isIgnored (p.detectPacketFlowDirection c.connectionDetail) c = false →
      p.isHandsShake2Packet = false →
      ∀ d ∈ processHandlings now (p.detectPacketFlowDirection c.connectionDetail) c, Q d) :
    ∀ d ∈ r.handlings now p, Q d := by
  intro d hd
  unfold handlings at hd
  split at hd
  · simp at hd
  · rename_i hsyn
    split at hd
    · rename_i hactive
      unfold halfWayHandlings at hd
      split at hd
      · simp at hd
      · rename_i hdata
        split at hd
        · simp at hd
        · rename_i c hc
          obtain ⟨ref, hhalf, hderef⟩ := Option.bind_eq_some_iff.mp hc
          dsimp only at hd
          split at hd
          · rename_i hdone
            exact hpromote (by simpa using hsyn) hactive (by simpa using hdata) hhalf hderef hdone
              d hd
          · simp at hd
    · rename_i hactive
      split at hd
      · simp at hd
      · rename_i c hc
        dsimp only at hd
        split at hd
        · simp at hd
        · rename_i hskip
          have hkinds := Bool.or_eq_false_iff.mp (by simpa using hskip)
          exact hprocess (by simpa using hsyn) hactive hc hkinds.1 hkinds.2 d hd

end Rules

end PacketReceiverImpl

end ConnectionSniffer
