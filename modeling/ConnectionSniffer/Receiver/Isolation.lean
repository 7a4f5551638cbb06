import ConnectionSniffer.Receiver.Run

/-!
# Connections do not disturb each other

`Embeds key ρ all alone` says that the receiver `all` holds everything the
receiver `alone` holds for the endpoint pair of `key`: the same table
entries, connections with the same contents, and the same announcements.
The references differ, as `all` has connections of other pairs too; `ρ`
translates them.

* `pick_untouched`: a `pick` for another pair changes nothing of this pair.
* `pick_embeds`: a `pick` for this pair does the same on both sides.

`picks_isolated` is the two-run result: a run in which packets of other
pairs come between embeds the run in which they do not.
-/

namespace ConnectionSniffer

namespace PacketReceiverImpl

/-- Whether the connection behind a reference is one of `key`'s pair. -/
def belongs (key : ConnectionDetail) (r : PacketReceiverImpl) (ref : Ref) : Bool :=
  (r.deref ref).any fun c => c.connectionDetail == key

section Belongs

variable {key : ConnectionDetail} {r : PacketReceiverImpl}

theorem belongs_of_deref {ref : Ref} {c : TCPConnectionImpl} (hc : r.deref ref = some c) :
    r.belongs key ref = (c.connectionDetail == key) := by
  simp [belongs, hc]

theorem belongs_commit {ref : Ref} {c : TCPConnectionImpl} {t : Delivery}
    (hc : r.deref ref = some c) (hdetail : t.connection.connectionDetail = c.connectionDetail) :
    (r.commit ref t).belongs key = r.belongs key := by
  funext ref'
  unfold belongs
  rw [deref_commit, deref_store]
  split
  · rename_i he
    subst he
    simp [hc, hdetail]
  · rfl

theorem belongs_allocate {ref : Ref} (c : TCPConnectionImpl) (hlt : ref < r.heap.length) :
    (r.allocate c).belongs key ref = r.belongs key ref := by
  obtain ⟨c', hc'⟩ : ∃ c', r.deref ref = some c' := ⟨_, List.getElem?_eq_getElem hlt⟩
  rw [belongs_of_deref hc', belongs_of_deref (deref_allocate_of_some hc')]

theorem commit_of_announced_zero (ref : Ref) (c : TCPConnectionImpl) :
    r.commit ref ⟨c, 0⟩ = r.store ref c := by
  simp [commit, store]

end Belongs

/-! ## Picks for another pair -/

/-- Nothing of `key`'s pair differs. -/
structure Untouched (key : ConnectionDetail) (r r' : PacketReceiverImpl) : Prop where
  filter : r'.filter = r.filter
  active : r'.activeConnections.get key = r.activeConnections.get key
  halfWay : r'.halfWayConnections.get key = r.halfWayConnections.get key
  deref : ∀ {ref c}, r.deref ref = some c → (c.connectionDetail == key) = true →
    r'.deref ref = some c
  established : r'.establishedConnections.filter (r'.belongs key) =
    r.establishedConnections.filter (r.belongs key)

namespace Untouched

variable {key : ConnectionDetail} {r r' r'' : PacketReceiverImpl}

theorem refl (key : ConnectionDetail) (r : PacketReceiverImpl) : Untouched key r r :=
  ⟨rfl, rfl, rfl, fun hc _ => hc, rfl⟩

theorem trans (h : Untouched key r r') (h' : Untouched key r' r'') : Untouched key r r'' :=
  ⟨h'.filter.trans h.filter, h'.active.trans h.active, h'.halfWay.trans h.halfWay,
    fun hc hkey => h'.deref (h.deref hc hkey) hkey, h'.established.trans h.established⟩

private theorem filter_belongs_allocate (hwf : WellFormed r) (c : TCPConnectionImpl) :
    r.establishedConnections.filter ((r.allocate c).belongs key) =
      r.establishedConnections.filter (r.belongs key) :=
  List.filter_congr fun _ hmem => belongs_allocate c (hwf.established hmem)

theorem open_active (hwf : WellFormed r) {c : TCPConnectionImpl}
    (hne : (c.connectionDetail == key) = false) : Untouched key r { r.allocate c with
      activeConnections := r.activeConnections.put c.connectionDetail r.heap.length } where
  filter := rfl
  active := by simp [HashMap.get_put, hne]
  halfWay := rfl
  deref := fun hc _ => deref_allocate_of_some hc
  established := filter_belongs_allocate hwf c

theorem open_halfWay (hwf : WellFormed r) {c : TCPConnectionImpl}
    (hne : (c.connectionDetail == key) = false) : Untouched key r { r.allocate c with
      halfWayConnections := r.halfWayConnections.put c.connectionDetail r.heap.length } where
  filter := rfl
  active := rfl
  halfWay := by simp [HashMap.get_put, hne]
  deref := fun hc _ => deref_allocate_of_some hc
  established := filter_belongs_allocate hwf c

theorem commit {ref : Ref} {c : TCPConnectionImpl} {t : Delivery}
    (hc : r.deref ref = some c) (hdetail : t.connection.connectionDetail = c.connectionDetail)
    (hne : (c.connectionDetail == key) = false) : Untouched key r (r.commit ref t) where
  filter := rfl
  active := rfl
  halfWay := rfl
  deref := by
    intro ref' c' hc' hkey
    have href : ref ≠ ref' := by
      rintro rfl
      rw [hc] at hc'
      rw [← Option.some.inj hc', hne] at hkey
      exact absurd hkey (by simp)
    rwa [deref_commit, deref_store_ne href]
  established := by
    rw [belongs_commit hc hdetail]
    show (r.establishedConnections ++ List.replicate t.announced ref).filter _ = _
    have hnew : r.belongs key ref = false := by rw [belongs_of_deref hc, hne]
    rw [List.filter_append, List.filter_replicate, hnew]
    simp

theorem store {ref : Ref} {c c' : TCPConnectionImpl} (hc : r.deref ref = some c)
    (hdetail : c'.connectionDetail = c.connectionDetail)
    (hne : (c.connectionDetail == key) = false) : Untouched key r (r.store ref c') := by
  rw [← commit_of_announced_zero]
  exact commit hc hdetail hne

theorem moved {ref : Ref} {c : TCPConnectionImpl}
    (hne : (c.connectionDetail == key) = false) : Untouched key r (r.moved ref c) where
  filter := rfl
  active := by simp [PacketReceiverImpl.moved, HashMap.get_put, hne]
  halfWay := by simp [PacketReceiverImpl.moved, HashMap.get_remove, hne]
  deref := fun hc _ => hc
  established := rfl

theorem removeIfFinished {ref : Ref} {c : TCPConnectionImpl} (hc : r.deref ref = some c)
    (hne : (c.connectionDetail == key) = false) :
    Untouched key r (r.removeIfFinished ref) where
  filter := by simp
  active := by
    unfold PacketReceiverImpl.removeIfFinished
    rw [hc]
    dsimp only
    split
    · simp [HashMap.get_remove, hne]
    · rfl
  halfWay := by simp
  deref := fun hc' _ => by rwa [deref_removeIfFinished]
  established := by
    have hb : (r.removeIfFinished ref).belongs key = r.belongs key := by
      funext ref'
      simp [belongs]
    rw [hb, establishedConnections_removeIfFinished]

end Untouched

/-- A pick for other endpoints leaves everything of `key`'s pair alone, also
when it throws. -/
theorem pick_untouched {key : ConnectionDetail} (now : Date) {p : TCPPacket}
    {r : PacketReceiverImpl} (hwf : WellFormed r) (hp : (p.connectionDetail == key) = false) :
    Untouched key r (r.pick now p).state := by
  have hrefl := Untouched.refl key r
  have hother : ∀ {c : TCPConnectionImpl}, (c.connectionDetail == p.connectionDetail) = true →
      (c.connectionDetail == key) = false := by
    intro c hc
    rw [BEq.congr_left hc, hp]
  have hpicked := picked_pick now p r
  generalize r.pick now p = o at hpicked
  cases hpicked with
  | rejected => exact hrefl
  | opened => exact .open_active hwf (c := synConnection now p) hp
  | noPayload => exact hrefl
  | candidate => exact .open_halfWay hwf (c := halfWayConnection now p) hp
  | @promoted ref c hsyn hactive hdata hhalf hc hdone =>
    have hne := hother (hwf.deref_halfWay hhalf hc)
    have hdetail := (promote_detail now (p.detectPacketFlowDirection c.connectionDetail) c).state
    rw [Outcome.state_map]
    exact (Untouched.moved hne).trans (.commit hc hdetail hne)
  | @buffered ref c hsyn hactive hdata hhalf hc hdone =>
    have hdetail := (bufferPacket_detail (p.detectPacketFlowDirection c.connectionDetail) c).state
    rw [Outcome.state_map]
    exact .store hc hdetail (hother (hwf.deref_halfWay hhalf hc))
  | danglingHalfWay => exact hrefl
  | danglingActive => exact hrefl
  | ignored => exact hrefl
  | @answered ref c hsyn hactive hc hignored hsynAck =>
    have hdetail :=
      (processSyncAckPacket_detail (p.detectPacketFlowDirection c.connectionDetail) c).state
    rw [Outcome.state_map]
    exact .store hc hdetail (hother (hwf.deref_active hactive hc))
  | @processed ref c hsyn hactive hc hignored hsynAck =>
    have hne := hother (hwf.deref_active hactive hc)
    have hdetail := (process_detail now (p.detectPacketFlowDirection c.connectionDetail) c).state
    generalize process now (p.detectPacketFlowDirection c.connectionDetail) c = o at hdetail
    have hcommit := Untouched.commit hc hdetail hne
    cases o with
    | thrown e t => exact hcommit
    | returned t =>
      refine hcommit.trans (.removeIfFinished (c := t.connection) ?_ ?_)
      · exact deref_store_self hc
      · rw [show t.connection.connectionDetail = _ from hdetail, hne]

/-! ## Picks for the same pair -/

/-- `all` holds what `alone` holds for the pair of `key`, under the
references `ρ` gives. -/
structure Embeds (key : ConnectionDetail) (ρ : Ref → Ref) (all alone : PacketReceiverImpl) :
    Prop where
  filter : all.filter = alone.filter
  own : ∀ {ref c}, alone.deref ref = some c → (c.connectionDetail == key) = true
  injective : ∀ {ref ref'}, ref < alone.heap.length → ref' < alone.heap.length →
    ρ ref = ρ ref' → ref = ref'
  deref : ∀ {ref c}, alone.deref ref = some c → all.deref (ρ ref) = some c
  active : all.activeConnections.get key = (alone.activeConnections.get key).map ρ
  halfWay : all.halfWayConnections.get key = (alone.halfWayConnections.get key).map ρ
  established : all.establishedConnections.filter (all.belongs key) =
    alone.establishedConnections.map ρ

namespace Embeds

variable {key : ConnectionDetail} {ρ : Ref → Ref} {all alone : PacketReceiverImpl}

theorem untouched (h : Embeds key ρ all alone) {all' : PacketReceiverImpl}
    (hu : Untouched key all all') : Embeds key ρ all' alone where
  filter := hu.filter.trans h.filter
  own := h.own
  injective := h.injective
  deref := fun hc => hu.deref (h.deref hc) (h.own hc)
  active := hu.active.trans h.active
  halfWay := hu.halfWay.trans h.halfWay
  established := hu.established.trans h.established

/-- The translation of references after an allocation on both sides. -/
private theorem allocate_aux (h : Embeds key ρ all alone) (hwf : WellFormed alone)
    (c : TCPConnectionImpl) :
    let ρ' := Function.update ρ alone.heap.length all.heap.length
    (∀ {ref}, ref < alone.heap.length → ρ' ref = ρ ref) ∧
    (∀ {ref ref'}, ref < (alone.allocate c).heap.length →
      ref' < (alone.allocate c).heap.length → ρ' ref = ρ' ref' → ref = ref') ∧
    (∀ {ref c'}, (alone.allocate c).deref ref = some c' →
      (all.allocate c).deref (ρ' ref) = some c') ∧
    (alone.activeConnections.get key).map ρ' = (alone.activeConnections.get key).map ρ ∧
    (alone.halfWayConnections.get key).map ρ' = (alone.halfWayConnections.get key).map ρ ∧
    alone.establishedConnections.map ρ' = alone.establishedConnections.map ρ := by
  intro ρ'
  have hold : ∀ {ref}, ref < alone.heap.length → ρ' ref = ρ ref :=
    fun hlt => Function.update_of_ne (Nat.ne_of_lt hlt) _ _
  have hnew : ρ' alone.heap.length = all.heap.length := Function.update_self ..
  have hbound : ∀ {ref}, ref < alone.heap.length → ρ ref < all.heap.length :=
    fun hlt => deref_lt (h.deref (List.getElem?_eq_getElem hlt))
  have htable : ∀ {entry : Option Ref}, (∀ ref ∈ entry, ref < alone.heap.length) →
      entry.map ρ' = entry.map ρ := by
    intro entry hentry
    cases entry with
    | none => rfl
    | some ref => exact congrArg some (hold (hentry ref rfl))
  refine ⟨hold, ?_, ?_, htable ?_, htable ?_, ?_⟩
  · intro ref ref' hlt hlt' heq
    simp only [allocate, List.length_append, List.length_singleton] at hlt hlt'
    rcases Nat.lt_succ_iff_lt_or_eq.mp hlt with hlt | rfl
    · rcases Nat.lt_succ_iff_lt_or_eq.mp hlt' with hlt' | rfl
      · rw [hold hlt, hold hlt'] at heq
        exact h.injective hlt hlt' heq
      · rw [hold hlt, hnew] at heq
        exact absurd (hbound hlt) (heq ▸ lt_irrefl _)
    · rcases Nat.lt_succ_iff_lt_or_eq.mp hlt' with hlt' | rfl
      · rw [hold hlt', hnew] at heq
        exact absurd (hbound hlt') (heq ▸ lt_irrefl _)
      · rfl
  · intro ref c' hc'
    rcases deref_allocate hc' with hc' | ⟨rfl, rfl⟩
    · rw [hold (deref_lt hc')]
      exact deref_allocate_of_some (h.deref hc')
    · rw [hnew]
      exact deref_allocate_self _ _
  · intro ref href
    obtain ⟨c', hc', -⟩ := hwf.active href
    exact deref_lt hc'
  · intro ref href
    obtain ⟨c', hc', -⟩ := hwf.halfWay href
    exact deref_lt hc'
  · exact List.map_congr_left fun ref hmem => hold (hwf.established hmem)

private theorem own_allocate (h : Embeds key ρ all alone) {c : TCPConnectionImpl}
    (hkey : (c.connectionDetail == key) = true) {ref : Ref} {c' : TCPConnectionImpl}
    (hc' : (alone.allocate c).deref ref = some c') : (c'.connectionDetail == key) = true := by
  rcases deref_allocate hc' with hc' | ⟨rfl, rfl⟩
  · exact h.own hc'
  · exact hkey

private theorem filter_belongs_allocate (h : Embeds key ρ all alone) (hall : WellFormed all)
    (c : TCPConnectionImpl) :
    all.establishedConnections.filter ((all.allocate c).belongs key) =
      alone.establishedConnections.map ρ := by
  rw [← h.established]
  exact List.filter_congr fun _ hmem => belongs_allocate c (hall.established hmem)

/-- A new active connection on both sides. -/
theorem open_active (h : Embeds key ρ all alone) (hall : WellFormed all)
    (halone : WellFormed alone) {c : TCPConnectionImpl}
    (hkey : (c.connectionDetail == key) = true) :
    ∃ ρ', Embeds key ρ' { all.allocate c with
        activeConnections := all.activeConnections.put c.connectionDetail all.heap.length }
      { alone.allocate c with
        activeConnections := alone.activeConnections.put c.connectionDetail alone.heap.length } := by
  obtain ⟨-, hinj, hderef, -, hhalf, hest⟩ := h.allocate_aux halone c
  refine ⟨_, h.filter, h.own_allocate hkey, hinj, hderef, ?_, h.halfWay.trans hhalf.symm,
    (h.filter_belongs_allocate hall c).trans hest.symm⟩
  simp [HashMap.get_put, hkey]

/-- A new half-way connection on both sides. -/
theorem open_halfWay (h : Embeds key ρ all alone) (hall : WellFormed all)
    (halone : WellFormed alone) {c : TCPConnectionImpl}
    (hkey : (c.connectionDetail == key) = true) :
    ∃ ρ', Embeds key ρ' { all.allocate c with
        halfWayConnections := all.halfWayConnections.put c.connectionDetail all.heap.length }
      { alone.allocate c with
        halfWayConnections :=
          alone.halfWayConnections.put c.connectionDetail alone.heap.length } := by
  obtain ⟨-, hinj, hderef, hactive, -, hest⟩ := h.allocate_aux halone c
  refine ⟨_, h.filter, h.own_allocate hkey, hinj, hderef, h.active.trans hactive.symm, ?_,
    (h.filter_belongs_allocate hall c).trans hest.symm⟩
  simp [HashMap.get_put, hkey]

/-- The same delivery on both sides. -/
theorem commit (h : Embeds key ρ all alone) {ref : Ref} {c : TCPConnectionImpl} {t : Delivery}
    (hc : alone.deref ref = some c) (hkey : (c.connectionDetail == key) = true)
    (hdetail : t.connection.connectionDetail = c.connectionDetail) :
    Embeds key ρ (all.commit (ρ ref) t) (alone.commit ref t) where
  filter := h.filter
  own := by
    intro ref' c' hc'
    rw [deref_commit, deref_store] at hc'
    split at hc'
    · rw [hc] at hc'
      rw [← Option.some.inj hc', hdetail, hkey]
    · exact h.own hc'
  injective := by
    intro ref' ref'' hlt hlt'
    simp only [PacketReceiverImpl.commit, PacketReceiverImpl.store, List.length_set] at hlt hlt'
    exact h.injective hlt hlt'
  deref := by
    intro ref' c' hc'
    rw [deref_commit] at hc' ⊢
    by_cases href : ref = ref'
    · subst href
      rw [deref_store_self hc] at hc'
      rw [deref_store_self (h.deref hc), hc']
    · rw [deref_store_ne href] at hc'
      have hρ : ρ ref ≠ ρ ref' := fun heq =>
        href (h.injective (deref_lt hc) (deref_lt hc') heq)
      rw [deref_store_ne hρ]
      exact h.deref hc'
  active := h.active
  halfWay := h.halfWay
  established := by
    rw [belongs_commit (h.deref hc) hdetail]
    show (all.establishedConnections ++ List.replicate t.announced (ρ ref)).filter _ =
      (alone.establishedConnections ++ List.replicate t.announced ref).map ρ
    have hnew : all.belongs key (ρ ref) = true := by rw [belongs_of_deref (h.deref hc), hkey]
    rw [List.filter_append, List.filter_replicate, hnew, h.established]
    simp

theorem store (h : Embeds key ρ all alone) {ref : Ref} {c c' : TCPConnectionImpl}
    (hc : alone.deref ref = some c) (hkey : (c.connectionDetail == key) = true)
    (hdetail : c'.connectionDetail = c.connectionDetail) :
    Embeds key ρ (all.store (ρ ref) c') (alone.store ref c') := by
  rw [← commit_of_announced_zero, ← commit_of_announced_zero]
  exact h.commit hc hkey hdetail

/-- The same promotion on both sides. -/
theorem moved (h : Embeds key ρ all alone) {ref : Ref} {c : TCPConnectionImpl}
    (hkey : (c.connectionDetail == key) = true) :
    Embeds key ρ (all.moved (ρ ref) c) (alone.moved ref c) where
  filter := h.filter
  own := h.own
  injective := h.injective
  deref := h.deref
  active := by simp [PacketReceiverImpl.moved, HashMap.get_put, hkey]
  halfWay := by simp [PacketReceiverImpl.moved, HashMap.get_remove, hkey]
  established := h.established

/-- The same removal on both sides. -/
theorem removeIfFinished (h : Embeds key ρ all alone) {ref : Ref} {c : TCPConnectionImpl}
    (hc : alone.deref ref = some c) (hkey : (c.connectionDetail == key) = true) :
    Embeds key ρ (all.removeIfFinished (ρ ref)) (alone.removeIfFinished ref) where
  filter := by simp [h.filter]
  own := by
    intro ref' c' hc'
    rw [deref_removeIfFinished] at hc'
    exact h.own hc'
  injective := by
    intro ref' ref'' hlt hlt'
    rw [heap_removeIfFinished] at hlt hlt'
    exact h.injective hlt hlt'
  deref := by
    intro ref' c' hc'
    rw [deref_removeIfFinished] at hc' ⊢
    exact h.deref hc'
  active := by
    unfold PacketReceiverImpl.removeIfFinished
    rw [hc, h.deref hc]
    dsimp only
    split
    · simp [HashMap.get_remove, hkey]
    · exact h.active
  halfWay := by simp [h.halfWay]
  established := by
    have hb : (all.removeIfFinished (ρ ref)).belongs key = all.belongs key := by
      funext ref'
      simp [belongs]
    rw [hb, establishedConnections_removeIfFinished, establishedConnections_removeIfFinished,
      h.established]

end Embeds

/-- A pick for the pair of `key` does the same on both sides. -/
theorem pick_embeds {key : ConnectionDetail} {ρ : Ref → Ref} {all alone : PacketReceiverImpl}
    {now : Date} {p : TCPPacket} (h : Embeds key ρ all alone) (hall : WellFormed all)
    (halone : WellFormed alone) (hp : (p.connectionDetail == key) = true) :
    ∃ ρ', Embeds key ρ' (all.pick now p).state (alone.pick now p).state := by
  have hown : ∀ {c : TCPConnectionImpl}, (c.connectionDetail == p.connectionDetail) = true →
      (c.connectionDetail == key) = true := by
    intro c hc
    rw [BEq.congr_left hc, hp]
  -- the tests that `pick` makes have the same answer on both sides
  have hactive : all.activeConnections.get p.connectionDetail =
      (alone.activeConnections.get p.connectionDetail).map ρ := by
    rw [HashMap.get_congr _ hp, HashMap.get_congr _ hp, h.active]
  have hhalfWay : all.halfWayConnections.get p.connectionDetail =
      (alone.halfWayConnections.get p.connectionDetail).map ρ := by
    rw [HashMap.get_congr _ hp, HashMap.get_congr _ hp, h.halfWay]
  have hpicked := picked_pick now p alone
  generalize alone.pick now p = o at hpicked
  cases hpicked with
  | rejected hsyn hfilter =>
    rw [← h.filter] at hfilter
    rw [picked_iff.mp (.rejected hsyn hfilter)]
    exact ⟨ρ, h⟩
  | opened hsyn hfilter =>
    rw [← h.filter] at hfilter
    rw [picked_iff.mp (.opened hsyn hfilter)]
    exact h.open_active hall halone (c := synConnection now p) hp
  | noPayload hsyn hnone hdata =>
    rw [hnone] at hactive
    rw [picked_iff.mp (.noPayload hsyn hactive hdata)]
    exact ⟨ρ, h⟩
  | candidate hsyn hnone hdata hhalf =>
    rw [hnone] at hactive
    rw [hhalf] at hhalfWay
    rw [picked_iff.mp (.candidate hsyn hactive hdata hhalfWay)]
    exact h.open_halfWay hall halone (c := halfWayConnection now p) hp
  | @promoted ref c hsyn hnone hdata hhalf hc hdone =>
    have hkey := hown (halone.deref_halfWay hhalf hc)
    rw [hnone] at hactive
    rw [hhalf] at hhalfWay
    rw [picked_iff.mp (.promoted hsyn hactive hdata hhalfWay (h.deref hc) hdone)]
    have hdetail := (promote_detail now (p.detectPacketFlowDirection c.connectionDetail) c).state
    rw [Outcome.state_map, Outcome.state_map]
    exact ⟨ρ, (h.moved hkey).commit hc hkey hdetail⟩
  | @buffered ref c hsyn hnone hdata hhalf hc hdone =>
    have hkey := hown (halone.deref_halfWay hhalf hc)
    rw [hnone] at hactive
    rw [hhalf] at hhalfWay
    rw [picked_iff.mp (.buffered hsyn hactive hdata hhalfWay (h.deref hc) hdone)]
    have hdetail := (bufferPacket_detail (p.detectPacketFlowDirection c.connectionDetail) c).state
    rw [Outcome.state_map, Outcome.state_map]
    exact ⟨ρ, h.store hc hkey hdetail⟩
  | danglingHalfWay hsyn hnone hdata hhalf hc =>
    obtain ⟨c, hc', -⟩ := halone.halfWay hhalf
    exact absurd (hc.symm.trans hc') (by simp)
  | danglingActive hsyn hsome hc =>
    obtain ⟨c, hc', -⟩ := halone.active hsome
    exact absurd (hc.symm.trans hc') (by simp)
  | @ignored ref c hsyn hsome hc hignored =>
    rw [hsome] at hactive
    rw [picked_iff.mp (.ignored hsyn hactive (h.deref hc) hignored)]
    exact ⟨ρ, h⟩
  | @answered ref c hsyn hsome hc hignored hsynAck =>
    have hkey := hown (halone.deref_active hsome hc)
    rw [hsome] at hactive
    rw [picked_iff.mp (.answered hsyn hactive (h.deref hc) hignored hsynAck)]
    have hdetail :=
      (processSyncAckPacket_detail (p.detectPacketFlowDirection c.connectionDetail) c).state
    rw [Outcome.state_map, Outcome.state_map]
    exact ⟨ρ, h.store hc hkey hdetail⟩
  | @processed ref c hsyn hsome hc hignored hsynAck =>
    have hkey := hown (halone.deref_active hsome hc)
    rw [hsome] at hactive
    rw [picked_iff.mp (.processed hsyn hactive (h.deref hc) hignored hsynAck)]
    have hdetail := (process_detail now (p.detectPacketFlowDirection c.connectionDetail) c).state
    generalize process now (p.detectPacketFlowDirection c.connectionDetail) c = o at hdetail
    have hcommit := h.commit hc hkey hdetail
    cases o with
    | thrown e t => exact ⟨ρ, hcommit⟩
    | returned t =>
      refine ⟨ρ, hcommit.removeIfFinished (c := t.connection) (deref_store_self hc) ?_⟩
      rw [show t.connection.connectionDetail = _ from hdetail, hkey]

/-! ## The two runs -/

/-- One pick, whether or not it throws. -/
def pickStep (r : PacketReceiverImpl) (x : Date × JpcapPacket) : PacketReceiverImpl :=
  (r.pick x.1 (TCPPacketImpl x.2)).state

/-- Whatever other packets come between, the packets of one endpoint pair
lead to the same table entries, the same connections and the same
announcements as without them. -/
theorem picks_isolated (filter : ConnectionFilter) (key : ConnectionDetail)
    (picks : List (Date × JpcapPacket)) :
    ∃ ρ, Embeds key ρ (Run.after pickStep (create filter) picks)
      (Run.after pickStep (create filter)
        (picks.filter fun x => x.2.connectionDetail == key)) := by
  have hstart : ∃ ρ, Embeds key ρ (create filter) (create filter) :=
    ⟨id, ⟨rfl, by simp [create, deref], fun _ _ h => h, fun h => h, by simp [create],
      by simp [create], by simp [create]⟩⟩
  have hwf := wellFormed_create filter
  refine (Run.simulation_filter
    (R := fun all alone => WellFormed all ∧ WellFormed alone ∧ ∃ ρ, Embeds key ρ all alone)
    ?_ ?_ ⟨hwf, hwf, hstart⟩).2.2
  · rintro all alone x ⟨hall, halone, ρ, h⟩ hown
    exact ⟨(pick_wellFormed _ _ hall).state, (pick_wellFormed _ _ halone).state,
      pick_embeds h hall halone hown⟩
  · rintro all alone x ⟨hall, halone, ρ, h⟩ hother
    exact ⟨(pick_wellFormed _ _ hall).state, halone,
      ρ, h.untouched (pick_untouched _ hall hother)⟩

end PacketReceiverImpl

end ConnectionSniffer
