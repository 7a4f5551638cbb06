import ConnectionSniffer.Receiver.HandlePacket

/-!
# Rules for `deliver` and for the drain

`deliver_ends` takes the four parts of `deliver` in turn: RST, ACK, data,
FIN.  `DeliveryRule` says what a property has to survive to survive the
whole drain, and `drain_ends` is the induction over the drain.  The proofs
about runs use these two and never unfold the drain again.  Most of them
do not ask what was thrown, and are about the connection alone:
`DeliveryInvariant` and `deliver_sat` are the rules for the first kind,
`DrainInvariant` and `deliver_leaves` for both together.

The last section removes the bound: `drain_eq_of_le` shows that the bound
does not matter once it covers the buffered packets, and
`tryToProcessPacketsInBuffer_eq` is the `while` loop of the source.
-/

namespace ConnectionSniffer

namespace TCPConnectionImpl

/-! ## `setBuffer` -/

@[simp] theorem isCanProcessPacket_setBuffer (c : TCPConnectionImpl) (x : Side)
    (packets : List TCPPacket) (p : TCPPacket) :
    (c.setBuffer x packets).isCanProcessPacket p = c.isCanProcessPacket p := rfl

@[simp] theorem isOldPacket_setBuffer (c : TCPConnectionImpl) (x : Side)
    (packets : List TCPPacket) (p : TCPPacket) :
    (c.setBuffer x packets).isOldPacket p = c.isOldPacket p := rfl

@[simp] theorem pickupBuffer_setBuffer (c : TCPConnectionImpl) (x : Side)
    (packets l : List TCPPacket) :
    (c.setBuffer x packets).pickupBuffer l = c.pickupBuffer l := by
  induction l with
  | nil => rfl
  | cons p rest ih =>
    simp only [pickupBuffer, isCanProcessPacket_setBuffer, isOldPacket_setBuffer, ih]

@[simp] theorem packetsBuffer_setBuffer (c : TCPConnectionImpl) (x : Side)
    (packets : List TCPPacket) :
    (c.setBuffer x packets).packetsBuffer = c.packetsBuffer.set x packets := rfl

@[simp] theorem setBuffer_setBuffer (c : TCPConnectionImpl) (x : Side)
    (packets packets' : List TCPPacket) :
    (c.setBuffer x packets).setBuffer x packets' = c.setBuffer x packets' := by
  simp [setBuffer]

@[simp] theorem setBuffer_get (c : TCPConnectionImpl) (x : Side) :
    c.setBuffer x (c.packetsBuffer.get x) = c := by
  simp [setBuffer]

/-- What holds of the buffered packets holds of the first one of a buffer and
of the rest. -/
theorem buffer_cons {P : Side → TCPPacket → Prop} {c : TCPConnectionImpl}
    (h : ∀ x, ∀ p ∈ c.packetsBuffer.get x, P x p) {x : Side} {p : TCPPacket}
    {rest : List TCPPacket} (hb : c.packetsBuffer.get x = p :: rest) :
    P x p ∧ ∀ q ∈ rest, P x q := by
  have hx := h x
  rw [hb] at hx
  exact List.forall_mem_cons.mp hx

/-- An empty buffer gives no packet. -/
theorem pickupFrom_of_nil {c : TCPConnectionImpl} {x : Side} (h : c.packetsBuffer.get x = []) :
    c.pickupFrom x = .returned (none, c) := by
  have hset : c.setBuffer x [] = c := by rw [← h, setBuffer_get]
  simp [pickupFrom, h, pickupBuffer, hset]

theorem get_other_of_pickupFrom {c c' : TCPConnectionImpl} {x : Side}
    {picked : Option TCPPacket} (h : c.pickupFrom x = .returned (picked, c')) :
    c'.packetsBuffer.get x.other = c.packetsBuffer.get x.other := by
  unfold pickupFrom at h
  cases hb : c.pickupBuffer (c.packetsBuffer.get x) with
  | thrown e left =>
    rw [hb] at h
    exact absurd h (by simp)
  | returned left =>
    rw [hb, Outcome.map_returned, Outcome.returned.injEq, Prod.mk.injEq] at h
    rw [← h.2, packetsBuffer_setBuffer, BySide.get_other_set]

/-- With an empty buffer on one side, the packets come from the other one. -/
theorem pickupPacket_eq {c : TCPConnectionImpl} {x : Side}
    (h : c.packetsBuffer.get x.other = []) : c.pickupPacket = c.pickupFrom x := by
  unfold pickupPacket
  cases x with
  | client =>
    cases hp : c.pickupFrom .client with
    | thrown e picked => rfl
    | returned picked =>
      obtain ⟨_ | p, c'⟩ := picked
      · exact pickupFrom_of_nil (x := .server) ((get_other_of_pickupFrom hp).trans h)
      · rfl
  | server =>
    rw [pickupFrom_of_nil (x := .client) h]
    rfl

end TCPConnectionImpl

/-- The connection that is left has `I` after a return and `E` after a
throw. -/
def Outcome.Leaves (I E : TCPConnectionImpl → Prop) (o : Outcome Throwable Delivery) : Prop :=
  o.Sat (fun t => I t.connection) (fun t => E t.connection)

namespace Delivery

section Rules

variable {now : Date}

/-! ## The parts of `deliver` -/

section Deliver

/-- The rule of `deliver`: `R` holds after the RST, `A` after the ACK, `D`
after the data, and `I` at the end, when the packet is in the history. -/
theorem deliver_ends {R A D I : Delivery → Prop} {F : Throwable → Delivery → Prop}
    {p : TCPPacket} {t : Delivery}
    (hrst : R (if p.rst then t.update (TCPConnectionImpl.processRstPacket now p) else t))
    (hack : ∀ t, R t → (acknowledge p t).Ends A F)
    (hdata : ∀ t, A t → p.isContainsData = true →
      (t.apply (TCPConnectionImpl.processDataPacket now p)).Ends D F)
    (hnodata : ∀ t, A t → p.isContainsData = false → D t)
    (hfin : ∀ t', D t' →
      I ((if p.fin then t'.update (TCPConnectionImpl.processFinishPacket now p) else t').update
        fun c => c.record t.connection.state p)) :
    (deliver now p t).Ends I F := by
  unfold deliver
  refine Outcome.Ends.andThen (hack _ hrst) fun t hA => ?_
  refine Outcome.Ends.andThen (Q := D) ?_ fun t hD => hfin t hD
  split
  · rename_i hd
    exact hdata _ hA hd
  · rename_i hd
    exact hnodata _ hA (by simpa using hd)

/-- `deliver_ends` where it does not matter what was thrown. -/
theorem deliver_sat {R A D I E : Delivery → Prop} {p : TCPPacket} {t : Delivery}
    (hrst : R (if p.rst then t.update (TCPConnectionImpl.processRstPacket now p) else t))
    (hack : ∀ t, R t → (acknowledge p t).Sat A E)
    (hdata : ∀ t, A t → p.isContainsData = true →
      (t.apply (TCPConnectionImpl.processDataPacket now p)).Sat D E)
    (hnodata : ∀ t, A t → p.isContainsData = false → D t)
    (hfin : ∀ t', D t' →
      I ((if p.fin then t'.update (TCPConnectionImpl.processFinishPacket now p) else t').update
        fun c => c.record t.connection.state p)) :
    (deliver now p t).Sat I E :=
  Outcome.ends_const.mp (deliver_ends hrst (fun t ht => Outcome.ends_const.mpr (hack t ht))
    (fun t ht hd => Outcome.ends_const.mpr (hdata t ht hd)) hnodata hfin)

variable {I E : TCPConnectionImpl → Prop} {F : Throwable → TCPConnectionImpl → Prop}

private theorem acknowledge_ends {R A : TCPConnectionImpl → Prop} {p : TCPPacket}
    {t : Delivery} (ht : R t.connection)
    (hack : ∀ c, R c → p.ack = true → (c.processAckPacket p).Ends A F)
    (hnoack : ∀ c, R c → p.ack = false → A c) :
    (acknowledge p t).Ends (fun t => A t.connection) (fun e t => F e t.connection) := by
  unfold acknowledge
  split
  · rename_i h
    have hA : (t.apply (TCPConnectionImpl.processAckPacket p)).Ends (fun t => A t.connection)
        (fun e t => F e t.connection) := by
      unfold apply
      rw [Outcome.ends_map]
      exact hack _ ht h
    refine hA.andThen fun t' ht' => ?_
    split
    · exact ht'
    · exact ht'
  · rename_i h
    exact hnoack _ ht (by simpa using h)

/-- `deliver_ends` for properties of the connection alone. -/
theorem deliver_connection_ends {R A D : TCPConnectionImpl → Prop} {p : TCPPacket}
    {c : TCPConnectionImpl} {n : Nat}
    (hrst : R (if p.rst then c.processRstPacket now p else c))
    (hack : ∀ c, R c → p.ack = true → (c.processAckPacket p).Ends A F)
    (hnoack : ∀ c, R c → p.ack = false → A c)
    (hdata : ∀ c, A c → p.isContainsData = true → (c.processDataPacket now p).Ends D F)
    (hnodata : ∀ c, A c → p.isContainsData = false → D c)
    (hfin : ∀ c', D c' →
      I ((if p.fin then c'.processFinishPacket now p else c').record c.state p)) :
    (deliver now p ⟨c, n⟩).Ends (fun t => I t.connection) (fun e t => F e t.connection) := by
  refine deliver_ends (R := fun t => R t.connection) (A := fun t => A t.connection)
    (D := fun t => D t.connection) ?_ (fun t ht => acknowledge_ends ht hack hnoack) ?_ ?_ ?_
  · cases hr : p.rst <;> simpa [hr, Delivery.update] using hrst
  · intro t ht hd
    unfold apply
    rw [Outcome.ends_map]
    exact hdata _ ht hd
  · intro t ht hd
    exact hnodata _ ht hd
  · intro t ht
    have hF := hfin _ ht
    cases hf : p.fin <;> simpa [hf, Delivery.update] using hF

/-- `deliver_sat` for properties of the connection alone. -/
theorem deliver_leaves {R A D : TCPConnectionImpl → Prop} {p : TCPPacket}
    {c : TCPConnectionImpl} {n : Nat}
    (hrst : R (if p.rst then c.processRstPacket now p else c))
    (hack : ∀ c, R c → p.ack = true → (c.processAckPacket p).Sat A E)
    (hnoack : ∀ c, R c → p.ack = false → A c)
    (hdata : ∀ c, A c → p.isContainsData = true → (c.processDataPacket now p).Sat D E)
    (hnodata : ∀ c, A c → p.isContainsData = false → D c)
    (hfin : ∀ c', D c' →
      I ((if p.fin then c'.processFinishPacket now p else c').record c.state p)) :
    (deliver now p ⟨c, n⟩).Leaves I E :=
  Outcome.ends_const.mp (deliver_connection_ends (F := fun _ => E) hrst
    (fun c hc ha => Outcome.ends_const.mpr (hack c hc ha)) hnoack
    (fun c hc hd => Outcome.ends_const.mpr (hdata c hc hd)) hnodata hfin)

/-- A packet without RST and FIN whose ACK does nothing: only the payload
counts. -/
theorem deliver_of_idle (now : Date) {p : TCPPacket} {c : TCPConnectionImpl} (n : Nat)
    (hrst : p.rst = false) (hfin : p.fin = false)
    (hack : p.ack = true → c.processAckPacket p = .returned c) :
    deliver now p ⟨c, n⟩ =
      ((if p.isContainsData then c.processDataPacket now p else .returned c).map
        fun c' => (⟨c', n⟩ : Delivery)).andThen fun t =>
          .returned (t.update fun c' => c'.record c.state p) := by
  have hacknowledge : acknowledge p ⟨c, n⟩ = .returned ⟨c, n⟩ := by
    unfold acknowledge apply
    split
    · rename_i h
      have hstate : ¬ (c.state = some .synReceived ∧ c.state = some .established) := by
        rintro ⟨h, h'⟩
        rw [h] at h'
        exact absurd h' (by simp)
      simp [hack h, hstate]
    · rfl
  unfold deliver
  simp only [hrst, hfin, hacknowledge, Bool.false_eq_true, if_false, Outcome.andThen_returned]
  cases p.isContainsData with
  | false => rfl
  | true => rfl

end Deliver

/-! ## The drain -/

/-- What a pick-up leaves: the invariant, or a connection that kept the
invariant while the packet was still at the front of its buffer. -/
def Picked (I : TCPConnectionImpl → Prop) : Option TCPPacket × TCPConnectionImpl → Prop
  | (none, c) => I c
  | (some p, c') => ∃ c x rest, I c ∧ c.packetsBuffer.get x = p :: rest ∧
      c.isCanProcessPacket p = .ok true ∧ c' = c.setBuffer x rest

section PickUp

variable {I E : TCPConnectionImpl → Prop} {F : Throwable → TCPConnectionImpl → Prop}

private theorem pickupFrom_ends
    (hthrown : ∀ {c p e}, I c → c.isCanProcessPacket p = .error e →
      (∃ x, p ∈ c.packetsBuffer.get x) → F e c)
    (hdrop : ∀ {c x p rest}, I c → c.packetsBuffer.get x = p :: rest →
      c.isOldPacket p = true → I (c.setBuffer x rest))
    {c : TCPConnectionImpl} (x : Side) (hI : I c) :
    (c.pickupFrom x).Ends (Picked I) (fun e picked => F e picked.2) := by
  unfold TCPConnectionImpl.pickupFrom
  generalize hb : c.packetsBuffer.get x = packets
  induction packets generalizing c with
  | nil =>
    have hc : c.setBuffer x [] = c := by rw [← hb, TCPConnectionImpl.setBuffer_get]
    simpa [TCPConnectionImpl.pickupBuffer, Outcome.Ends, Picked, hc] using hI
  | cons p rest ih =>
    have hc : c.setBuffer x (p :: rest) = c := by rw [← hb, TCPConnectionImpl.setBuffer_get]
    unfold TCPConnectionImpl.pickupBuffer
    split
    · rename_i herror
      simpa [Outcome.Ends, hc] using hthrown hI herror ⟨x, by simp [hb]⟩
    · rename_i hcan
      exact ⟨c, x, rest, hI, hb, hcan, rfl⟩
    · split
      · rename_i hcan hold
        simpa using ih (hdrop hI hb hold) (by simp)
      · simpa [Outcome.Ends, Picked, hc] using hI

/-- The rule of `pickupPacket`: it throws only where the accept test does,
and drops only old packets. -/
theorem pickupPacket_ends
    (hthrown : ∀ {c p e}, I c → c.isCanProcessPacket p = .error e →
      (∃ x, p ∈ c.packetsBuffer.get x) → F e c)
    (hdrop : ∀ {c x p rest}, I c → c.packetsBuffer.get x = p :: rest →
      c.isOldPacket p = true → I (c.setBuffer x rest))
    {c : TCPConnectionImpl} (hI : I c) :
    c.pickupPacket.Ends (Picked I) (fun e picked => F e picked.2) := by
  unfold TCPConnectionImpl.pickupPacket
  refine (pickupFrom_ends hthrown hdrop .client hI).andThen ?_
  rintro ⟨picked, c'⟩ hp
  cases picked with
  | none => exact pickupFrom_ends hthrown hdrop .server hp
  | some p => exact hp

/-- `pickupPacket_ends` where it does not matter what was thrown. -/
theorem pickupPacket_sat
    (hthrown : ∀ {c p e}, I c → c.isCanProcessPacket p = .error e →
      (∃ x, p ∈ c.packetsBuffer.get x) → E c)
    (hdrop : ∀ {c x p rest}, I c → c.packetsBuffer.get x = p :: rest →
      c.isOldPacket p = true → I (c.setBuffer x rest))
    {c : TCPConnectionImpl} (hI : I c) :
    c.pickupPacket.Sat (Picked I) (fun picked => E picked.2) :=
  Outcome.ends_const.mp (pickupPacket_ends (F := fun _ => E) hthrown hdrop hI)

end PickUp

/-- What an invariant `I` of the drain has to survive: dropping an old
packet, delivering a packet that can be processed, and the time stamp.
After a throw of `e` there need only be `F e`. -/
structure DeliveryRule (now : Date) (I : Delivery → Prop) (F : Throwable → Delivery → Prop) :
    Prop where
  thrown : ∀ {t p e}, I t → t.connection.isCanProcessPacket p = .error e →
    (∃ x, p ∈ t.connection.packetsBuffer.get x) → F e t
  drop : ∀ {c n x p rest}, I ⟨c, n⟩ → c.packetsBuffer.get x = p :: rest →
    c.isOldPacket p = true → I ⟨c.setBuffer x rest, n⟩
  take : ∀ {c n x p rest}, I ⟨c, n⟩ → c.packetsBuffer.get x = p :: rest →
    c.isCanProcessPacket p = .ok true →
    (deliver now p ⟨c.setBuffer x rest, n⟩).Ends I F
  updated : ∀ {t}, I t → I (t.update (TCPConnectionImpl.updated now))

namespace DeliveryRule

variable {I : Delivery → Prop} {F : Throwable → Delivery → Prop}

/-- `handlePacket` keeps the invariant as soon as `deliver` and the drain
do. -/
theorem handlePacket_ends (h : DeliveryRule now I F)
    {drain : Delivery → Outcome Throwable Delivery}
    (hdrain : ∀ t, I t → (drain t).Ends I F) {p : TCPPacket} {t : Delivery}
    (hdeliver : (deliver now p t).Ends I F) : (handlePacket now drain p t).Ends I F := by
  unfold handlePacket
  refine Outcome.Ends.andThen hdeliver fun t ht => ?_
  refine Outcome.Ends.andThen (Q := I) ?_ fun t ht => h.updated ht
  split
  · exact hdrain t ht
  · exact ht

/-- What a pick-up finds: the packet stood in a buffer of a connection with
the invariant, and it could be processed. -/
theorem pickupPacket_ends (h : DeliveryRule now I F) {t : Delivery} (hI : I t) :
    t.connection.pickupPacket.Ends (Picked fun c => I ⟨c, t.announced⟩)
      (fun e picked => F e ⟨picked.2, t.announced⟩) :=
  Delivery.pickupPacket_ends (I := fun c => I ⟨c, t.announced⟩)
    (F := fun e c => F e ⟨c, t.announced⟩) h.thrown h.drop hI

/-- The drain keeps the invariant, by induction on the bound. -/
theorem drain_ends (h : DeliveryRule now I F) (bound : Nat) {t : Delivery} (hI : I t) :
    (drain now bound t).Ends I F := by
  induction bound generalizing t with
  | zero => exact hI
  | succ bound ih =>
    have hpick := h.pickupPacket_ends hI
    unfold drain
    split
    · rename_i hp
      rw [hp] at hpick
      exact hpick
    · rename_i hp
      rw [hp] at hpick
      exact hpick
    · rename_i hp
      rw [hp] at hpick
      obtain ⟨c, x, rest, hc, hb, hcan, rfl⟩ := hpick
      exact Outcome.Ends.andThen
        (h.handlePacket_ends (fun t ht => ih ht) (h.take hc hb hcan)) fun t ht => ih ht

theorem tryToProcessPacketsInBuffer_ends (h : DeliveryRule now I F) {t : Delivery}
    (hI : I t) : (tryToProcessPacketsInBuffer now t).Ends I F :=
  h.drain_ends _ hI

end DeliveryRule

/-- A `DeliveryRule` that does not ask what was thrown. -/
structure DeliveryInvariant (now : Date) (I E : Delivery → Prop) : Prop where
  thrown : ∀ t, I t → E t
  drop : ∀ {c n x p rest}, I ⟨c, n⟩ → c.packetsBuffer.get x = p :: rest →
    c.isOldPacket p = true → I ⟨c.setBuffer x rest, n⟩
  take : ∀ {c n x p rest}, I ⟨c, n⟩ → c.packetsBuffer.get x = p :: rest →
    c.isCanProcessPacket p = .ok true →
    (deliver now p ⟨c.setBuffer x rest, n⟩).Sat I E
  updated : ∀ {t}, I t → I (t.update (TCPConnectionImpl.updated now))

namespace DeliveryInvariant

variable {I E : Delivery → Prop}

theorem rule (h : DeliveryInvariant now I E) : DeliveryRule now I (fun _ => E) where
  thrown := fun hI _ _ => h.thrown _ hI
  drop := h.drop
  take := fun hI hb hcan => Outcome.ends_const.mpr (h.take hI hb hcan)
  updated := h.updated

theorem handlePacket_sat (h : DeliveryInvariant now I E)
    {drain : Delivery → Outcome Throwable Delivery}
    (hdrain : ∀ t, I t → (drain t).Sat I E) {p : TCPPacket} {t : Delivery}
    (hdeliver : (deliver now p t).Sat I E) : (handlePacket now drain p t).Sat I E :=
  Outcome.ends_const.mp (h.rule.handlePacket_ends
    (fun t ht => Outcome.ends_const.mpr (hdrain t ht)) (Outcome.ends_const.mpr hdeliver))

theorem drain_sat (h : DeliveryInvariant now I E) (bound : Nat) {t : Delivery} (hI : I t) :
    (drain now bound t).Sat I E :=
  Outcome.ends_const.mp (h.rule.drain_ends bound hI)

end DeliveryInvariant

/-- A `DeliveryInvariant` of the connection alone. -/
structure DrainInvariant (now : Date) (I E : TCPConnectionImpl → Prop) : Prop where
  thrown : ∀ c, I c → E c
  drop : ∀ {c x p rest}, I c → c.packetsBuffer.get x = p :: rest →
    c.isOldPacket p = true → I (c.setBuffer x rest)
  take : ∀ {c n x p rest}, I c → c.packetsBuffer.get x = p :: rest →
    c.isCanProcessPacket p = .ok true →
    (deliver now p ⟨c.setBuffer x rest, n⟩).Leaves I E
  updated : ∀ {c}, I c → I (c.updated now)

namespace DrainInvariant

variable {I E : TCPConnectionImpl → Prop}

theorem deliveryInvariant (h : DrainInvariant now I E) :
    DeliveryInvariant now (fun t => I t.connection) (fun t => E t.connection) where
  thrown := fun _ hI => h.thrown _ hI
  drop := h.drop
  take := h.take
  updated := h.updated

theorem handlePacket_leaves (h : DrainInvariant now I E)
    {drain : Delivery → Outcome Throwable Delivery}
    (hdrain : ∀ t, I t.connection → (drain t).Leaves I E) {p : TCPPacket} {t : Delivery}
    (hdeliver : (deliver now p t).Leaves I E) :
    (handlePacket now drain p t).Leaves I E :=
  h.deliveryInvariant.handlePacket_sat hdrain hdeliver

theorem drain_leaves (h : DrainInvariant now I E) (bound : Nat) {t : Delivery}
    (hI : I t.connection) : (drain now bound t).Leaves I E :=
  h.deliveryInvariant.drain_sat bound hI

theorem tryToProcessPacketsInBuffer_leaves (h : DrainInvariant now I E) {t : Delivery}
    (hI : I t.connection) : (tryToProcessPacketsInBuffer now t).Leaves I E :=
  h.drain_leaves _ hI

end DrainInvariant

end Rules

/-! ## What no handler touches -/

/-- The parts of a connection that no handler writes. -/
structure SameFrame (c c' : TCPConnectionImpl) : Prop where
  packetsBuffer : c'.packetsBuffer = c.packetsBuffer
  connectionDetail : c'.connectionDetail = c.connectionDetail
  handled : c'.handled = c.handled

theorem SameFrame.trans {c c' c'' : TCPConnectionImpl} (h : SameFrame c c')
    (h' : SameFrame c' c'') : SameFrame c c'' :=
  ⟨h'.packetsBuffer.trans h.packetsBuffer, h'.connectionDetail.trans h.connectionDetail,
    h'.handled.trans h.handled⟩

/-- What `deliver` does besides the handlers: the packet enters the
history. -/
structure Recorded (p : TCPPacket) (c c' : TCPConnectionImpl) : Prop where
  packetsBuffer : c'.packetsBuffer = c.packetsBuffer
  connectionDetail : c'.connectionDetail = c.connectionDetail
  handled : c'.handled = c.handled ++ [(c.state, p)]

section Frame

variable (now : Date) (p : TCPPacket)

private theorem processAckPacket_frame (c : TCPConnectionImpl) :
    (c.processAckPacket p).Sat (SameFrame c) (SameFrame c) := by
  unfold TCPConnectionImpl.processAckPacket TCPConnectionImpl.processHandshake3AckPacket
  split
  · exact ⟨rfl, rfl, rfl⟩
  · split
    · exact ⟨rfl, rfl, rfl⟩
    · exact ⟨rfl, rfl, rfl⟩
  · exact ⟨rfl, rfl, rfl⟩
  · exact ⟨rfl, rfl, rfl⟩
  · exact ⟨rfl, rfl, rfl⟩

theorem processDataPacket_frame (c : TCPConnectionImpl) :
    (c.processDataPacket now p).Sat (SameFrame c) (SameFrame c) := by
  have hf : SameFrame c (c.finishOtherStream now p) := by
    simp only [TCPConnectionImpl.finishOtherStream]
    split <;> exact ⟨rfl, rfl, rfl⟩
  have hm : SameFrame c ((c.finishOtherStream now p).markFirstPacket p) := by
    refine hf.trans ?_
    unfold TCPConnectionImpl.markFirstPacket
    split <;> exact ⟨rfl, rfl, rfl⟩
  unfold TCPConnectionImpl.processDataPacket TCPConnectionImpl.appendData
  split
  · exact hm.trans ⟨rfl, rfl, rfl⟩
  · exact hm.trans ⟨rfl, rfl, rfl⟩

/-- `deliver` leaves the buffers alone, never moves the connection to other
endpoints, and enters its packet into the history. -/
theorem deliver_frame (c : TCPConnectionImpl) (n : Nat) :
    (deliver now p ⟨c, n⟩).Leaves (Recorded p c) (SameFrame c) := by
  refine deliver_leaves (R := SameFrame c) (A := SameFrame c) (D := SameFrame c)
    ?_ ?_ ?_ ?_ ?_ ?_
  · split <;> exact ⟨rfl, rfl, rfl⟩
  · intro c' h _
    exact (processAckPacket_frame p c').mono (fun _ => h.trans) (fun _ => h.trans)
  · intro c' h _
    exact h
  · intro c' h _
    exact (processDataPacket_frame now p c').mono (fun _ => h.trans) (fun _ => h.trans)
  · intro c' h _
    exact h
  · intro c' h
    split <;>
      exact ⟨h.packetsBuffer, h.connectionDetail, congrArg (· ++ [(c.state, p)]) h.handled⟩

/-- What holds of the buffers before `deliver` holds after it. -/
theorem deliver_packetsBuffer {P : PacketsBuffer → Prop} {c : TCPConnectionImpl}
    (h : P c.packetsBuffer) (n : Nat) :
    (deliver now p ⟨c, n⟩).Leaves (fun c' => P c'.packetsBuffer)
      (fun c' => P c'.packetsBuffer) := by
  refine (deliver_frame now p c n).mono ?_ ?_
  · intro t ht
    simpa only [ht.packetsBuffer] using h
  · intro t ht
    simpa only [ht.packetsBuffer] using h

/-- The drain keeps the endpoints, also when it throws. -/
theorem detailInvariant (d : ConnectionDetail) :
    DrainInvariant now (fun c => c.connectionDetail = d) (fun c => c.connectionDetail = d) where
  thrown := fun _ h => h
  drop := fun h _ _ => h
  take := by
    intro c n x p rest h _ _
    refine (deliver_frame now p (c.setBuffer x rest) n).mono ?_ ?_
    · intro t ht
      exact ht.connectionDetail.trans h
    · intro t ht
      exact ht.connectionDetail.trans h
  updated := fun h => h

/-- The number of buffered packets. -/
def buffered (c : TCPConnectionImpl) : Nat := c.packetsBuffer.getPacketsCountInBuffer

theorem buffered_setBuffer {c : TCPConnectionImpl} {x : Side} {p : TCPPacket}
    {rest : List TCPPacket} (h : c.packetsBuffer.get x = p :: rest) :
    buffered (c.setBuffer x rest) + 1 = buffered c := by
  cases x <;>
    simp only [BySide.get_client, BySide.get_server] at h <;>
    simp [buffered, PacketsBuffer.getPacketsCountInBuffer, TCPConnectionImpl.setBuffer,
      BySide.set, h] <;> omega

/-- The drain never buffers a packet. -/
theorem bufferedInvariant (bound : Nat) :
    DrainInvariant now (fun c => buffered c ≤ bound) (fun _ => True) where
  thrown := fun _ _ => trivial
  drop := by
    intro c x p rest h hb _
    have := buffered_setBuffer hb
    omega
  take := by
    intro c n x p rest h hb _
    have := buffered_setBuffer hb
    refine (deliver_frame now p (c.setBuffer x rest) n).mono ?_ (fun _ _ => trivial)
    intro t ht
    have hsame : buffered t.connection = buffered (c.setBuffer x rest) := by
      simp only [buffered, ht.packetsBuffer]
    omega
  updated := fun h => h

end Frame

/-! ## The bound does not matter -/

section Bound

variable {now : Date}

/-- A pick-up that finds a packet takes it out of a buffer. -/
theorem buffered_of_pickupPacket (now : Date) {c c' : TCPConnectionImpl} {p : TCPPacket}
    (h : c.pickupPacket = .returned (some p, c')) : buffered c' + 1 ≤ buffered c := by
  have hp := pickupPacket_sat (E := fun _ => True) (fun _ _ _ => trivial)
    (bufferedInvariant now (buffered c)).drop le_rfl
  rw [h] at hp
  obtain ⟨c₀, x, rest, hle, hb, _, rfl⟩ := hp
  have := buffered_setBuffer hb
  omega

/-- A pick-up from empty buffers finds nothing. -/
theorem pickupPacket_of_buffered_eq_zero {c : TCPConnectionImpl} (h : buffered c = 0) :
    c.pickupPacket = .returned (none, c) := by
  unfold buffered PacketsBuffer.getPacketsCountInBuffer at h
  have hc : c.packetsBuffer.client = [] := List.length_eq_zero_iff.mp (by omega)
  have hs : c.packetsBuffer.server = [] := List.length_eq_zero_iff.mp (by omega)
  simp [TCPConnectionImpl.pickupPacket, TCPConnectionImpl.pickupFrom_of_nil (x := .client) hc,
    TCPConnectionImpl.pickupFrom_of_nil (x := .server) hs]

/-- A drain of empty buffers does nothing. -/
theorem tryToProcessPacketsInBuffer_of_buffered_eq_zero {t : Delivery}
    (h : buffered t.connection = 0) : tryToProcessPacketsInBuffer now t = .returned t := by
  unfold tryToProcessPacketsInBuffer
  rw [show t.connection.packetsBuffer.getPacketsCountInBuffer = 0 from h]
  rfl

/-- With nothing buffered, `handlePacket` is `deliver` and the time stamp. -/
theorem handlePacket_of_buffered_eq_zero {p : TCPPacket} {t : Delivery}
    (h : buffered t.connection = 0) :
    handlePacket now (tryToProcessPacketsInBuffer now) p t =
      (deliver now p t).andThen fun t' =>
        .returned (t'.update (TCPConnectionImpl.updated now)) := by
  have hdeliver : (deliver now p t).Leaves (fun c => buffered c = 0) (fun _ => True) :=
    deliver_packetsBuffer (P := fun b => b.getPacketsCountInBuffer = 0) now p h t.announced
      |>.mono (fun _ ht => ht) (fun _ _ => trivial)
  unfold handlePacket
  cases hd : deliver now p t with
  | thrown e t' => rfl
  | returned t' =>
    rw [hd] at hdeliver
    rw [Outcome.andThen_returned, tryToProcessPacketsInBuffer_of_buffered_eq_zero hdeliver]
    split <;> rfl

/-- `deliver` keeps the number of buffered packets. -/
private theorem deliver_buffered {bound : Nat} {p : TCPPacket} {t : Delivery}
    (ht : buffered t.connection ≤ bound) :
    (deliver now p t).Leaves (fun c => buffered c ≤ bound) (fun _ => True) := by
  refine (deliver_frame now p t.connection t.announced).mono ?_ (fun _ _ => trivial)
  intro t' ht'
  simpa only [buffered, ht'.packetsBuffer] using ht

/-- Two drains that agree on at most `bound` packets and buffer none agree
after any packet is handled. -/
private theorem handlePacket_congr {drain drain' : Delivery → Outcome Throwable Delivery}
    (bound : Nat) (hdrain : ∀ t, buffered t.connection ≤ bound → drain t = drain' t)
    (hkeep : ∀ t, buffered t.connection ≤ bound →
      (drain' t).Leaves (fun c => buffered c ≤ bound) (fun _ => True))
    {p : TCPPacket} {t : Delivery} (ht : buffered t.connection ≤ bound) :
    (handlePacket now drain p t).andThen drain =
      (handlePacket now drain' p t).andThen drain' := by
  have hdeliver : (deliver now p t).Leaves _ _ := deliver_buffered ht
  have hhandle : handlePacket now drain p t = handlePacket now drain' p t := by
    unfold handlePacket
    cases hd : deliver now p t with
    | thrown e t' => rfl
    | returned t' =>
      rw [hd] at hdeliver
      simp only [Outcome.andThen_returned, hdrain t' hdeliver]
  have hleaves := (bufferedInvariant now bound).handlePacket_leaves hkeep hdeliver
  rw [hhandle]
  cases hh : handlePacket now drain' p t with
  | thrown e t' => rfl
  | returned t' =>
    rw [hh] at hleaves
    exact hdrain t' hleaves

private theorem drain_irrelevant (bound bound' : Nat) {t : Delivery}
    (h : buffered t.connection ≤ bound) (h' : buffered t.connection ≤ bound') :
    drain now bound t = drain now bound' t := by
  -- every pick-up shrinks the buffers, so the induction is on one bound
  induction bound generalizing bound' t with
  | zero =>
    have hp := pickupPacket_of_buffered_eq_zero (c := t.connection) (by omega)
    cases bound' with
    | zero => rfl
    | succ bound' => simp [drain, hp]
  | succ bound ih =>
    cases bound' with
    | zero =>
      have hp := pickupPacket_of_buffered_eq_zero (c := t.connection) (by omega)
      simp [drain, hp]
    | succ bound' =>
      unfold drain
      cases hp : t.connection.pickupPacket with
      | thrown e picked => rfl
      | returned picked =>
        obtain ⟨_ | p, c⟩ := picked
        · rfl
        · have hlt := buffered_of_pickupPacket now hp
          exact handlePacket_congr (buffered c)
            (fun t' ht' => ih bound' (by omega) (by omega))
            (fun t' ht' => (bufferedInvariant now _).drain_leaves bound' ht') le_rfl

/-- A bound that covers the buffered packets is as good as their number. -/
theorem drain_eq_of_le {bound : Nat} {t : Delivery} (h : buffered t.connection ≤ bound) :
    drain now bound t = tryToProcessPacketsInBuffer now t :=
  drain_irrelevant bound _ h le_rfl

/-- The `while` loop of `tryToProcessPacketsInBuffer`. -/
theorem tryToProcessPacketsInBuffer_eq (t : Delivery) :
    tryToProcessPacketsInBuffer now t =
      match t.connection.pickupPacket with
      | .thrown e (_, c) => .thrown e { t with connection := c }
      | .returned (none, c) => .returned { t with connection := c }
      | .returned (some packet, c) =>
        (handlePacket now (tryToProcessPacketsInBuffer now) packet
          { t with connection := c }).andThen (tryToProcessPacketsInBuffer now) := by
  rw [← drain_eq_of_le (Nat.le_succ (buffered t.connection)), drain]
  cases hp : t.connection.pickupPacket with
  | thrown e picked => rfl
  | returned picked =>
    obtain ⟨_ | p, c⟩ := picked
    · rfl
    · have hlt := buffered_of_pickupPacket now hp
      exact handlePacket_congr (buffered c)
        (fun t' ht' => drain_eq_of_le (by omega))
        (fun t' ht' => (bufferedInvariant now _).tryToProcessPacketsInBuffer_leaves ht') le_rfl

end Bound

end Delivery

end ConnectionSniffer
