import ConnectionSniffer.Receiver.Announcements

/-!
# `ObsoleteConnectionCleaner`

The cleaner goes through the active connections from time to time.  It
removes the ones that were idle for too long, and closes the ones that are
past Established.  It finishes no stream: whoever reads from a connection
that was timed out waits for the timeout of `read`.

`Departs` lists how a connection can leave the table of active ones, and
`departs_of_leaves` says that the list is complete for every connection
that was ever announced: both streams are finished, or a SYN replaced the
connection, or the cleaner timed it out.
-/

namespace ConnectionSniffer

namespace TCPConnectionState

/-- The order of the states, in tenths. -/
def seq : TCPConnectionState → Nat
  | synSent => 10
  | synReceived => 20
  | established => 30
  | finishWait1 => 40
  | closeWait => 50
  | finishWait2 => 55
  | lastAck => 60
  | closing => 45
  | timeWait => 57
  | closed => 70

def isGreaterThan (state state' : TCPConnectionState) : Bool := state.seq > state'.seq

def isLessThan (state state' : TCPConnectionState) : Bool := state.seq < state'.seq

/-- What was Established is not before Established. -/
theorem isLessThan_of_hasBeenEstablished {state : TCPConnectionState}
    (h : hasBeenEstablished (some state) = true) : state.isLessThan .established = false := by
  cases state <;> first | rfl | exact absurd h (by decide)

/-- Neither before nor behind Established. -/
theorem eq_established {state : TCPConnectionState}
    (hless : state.isLessThan .established = false)
    (hgreater : state.isGreaterThan .established = false) : state = .established := by
  cases state <;> first | rfl | exact absurd hless (by decide) | exact absurd hgreater (by decide)

end TCPConnectionState

namespace ObsoleteConnectionCleaner

/-! ## One pass -/

def TCP_CONNECTION_TIME_OUT : Int := 120 * 1000

def HALF_CLOSED_TIMEOUT : Int := 30 * 1000

def BROKEN_TIMEOUT : Int := 20 * 1000

/-- `TCPConnectionImpl.close`. -/
def close (c : TCPConnectionImpl) : TCPConnectionImpl := { c with state := some .closed }

def connectionTimeout (ref : Ref) (r : PacketReceiverImpl) : PacketReceiverImpl :=
  { r with activeConnections := r.activeConnections.removeValue ref }

/-- How long the connection was idle. -/
def duration (now : Date) (c : TCPConnectionImpl) : Int := (now : Int) - c.lastUpdated

/-- The body of the loop over `getActiveConnections()`. -/
def visit (now : Date) (ref : Ref) (r : PacketReceiverImpl) :
    Outcome Throwable PacketReceiverImpl :=
  match r.deref ref with
  | none => .thrown .nullPointerException r
  | some c =>
    if c.maybeBroken && duration now c ≥ BROKEN_TIMEOUT then .returned (connectionTimeout ref r)
    else
      match c.state with
      | none => .thrown .nullPointerException r
      | some state =>
        if state.isGreaterThan .established && duration now c ≥ HALF_CLOSED_TIMEOUT then
          .returned (r.store ref (close c))
        else if state.isLessThan .established then .returned (connectionTimeout ref r)
        else if duration now c ≥ TCP_CONNECTION_TIME_OUT then .returned (connectionTimeout ref r)
        else .returned r

/-- The loop. -/
def visitAll (now : Date) : List Ref → PacketReceiverImpl → Outcome Throwable PacketReceiverImpl
  | [], r => .returned r
  | ref :: refs, r => (visit now ref r).andThen (visitAll now refs)

/-- One traversal of the active connections, at one clock value. -/
def clean (now : Date) (r : PacketReceiverImpl) : Outcome Throwable PacketReceiverImpl :=
  visitAll now r.activeConnections.values r

/-- The connection has not been heard of for too long: 20 seconds if it may
be broken, and 120 seconds while it is Established. -/
def TimedOut (now : Date) (c : TCPConnectionImpl) : Prop :=
  (c.maybeBroken = true ∧ BROKEN_TIMEOUT ≤ duration now c) ∨
    (c.state = some .established ∧ TCP_CONNECTION_TIME_OUT ≤ duration now c)

/-! ## Runs with a cleaner -/

/-- What can happen next: a call, or a pass of the cleaner. -/
inductive Activity where
  | call (call : Call)
  | clean (now : Date)

def act (r : PacketReceiverImpl) : Activity → PacketReceiverImpl
  | .call call => r.step call
  | .clean now => (clean now r).state

/-- The connection has been in `establishedConnections` at some time. -/
def Announced (filter : ConnectionFilter) (activities : List Activity) (ref : Ref) : Prop :=
  ∃ before after, activities = before ++ after ∧
    ref ∈ (Run.after act (PacketReceiverImpl.create filter) before).establishedConnections

/-- How an announced connection `c` leaves the table; `c'` is the connection
afterwards. -/
inductive Departs (r : PacketReceiverImpl) (c c' : TCPConnectionImpl) : Activity → Prop
  | finished {now : Date} {packet : JpcapPacket} (hfin : c'.isFinished = true) :
      Departs r c c' (.call (.pick now packet))
  | replaced {now : Date} {packet : JpcapPacket}
      (hsyn : (TCPPacketImpl packet).isHandsShake1Packet = true)
      (hfilter : r.filter.isAcceptable packet.connectionDetail = true)
      (hkey : (c.connectionDetail == packet.connectionDetail) = true) :
      Departs r c c' (.call (.pick now packet))
  | timedOut {now : Date} (h : TimedOut now c) : Departs r c c' (.clean now)

/-! ## The invariant -/

structure Inv (r : PacketReceiverImpl) : Prop where
  sound : Waiting.Sound r
  distinct : r.activeConnections.Distinct
  announced : ∀ ref ∈ r.establishedConnections,
    TCPConnectionState.hasBeenEstablished (r.stateOf ref) = true

theorem inv_create (filter : ConnectionFilter) : Inv (PacketReceiverImpl.create filter) where
  sound := Waiting.sound_create filter
  distinct := HashMap.distinct_nil
  announced := by simp [PacketReceiverImpl.create]

/-! ### A pass of the cleaner -/

/-- What a visit does. -/
inductive Visited (now : Date) (ref : Ref) (r : PacketReceiverImpl) : PacketReceiverImpl → Prop
  | kept : Visited now ref r r
  | closed {c : TCPConnectionImpl} (hc : r.deref ref = some c) (hstate : c.state ≠ none) :
      Visited now ref r (r.store ref (close c))
  | removed {c : TCPConnectionImpl} (hc : r.deref ref = some c)
      (hold : TCPConnectionState.hasBeenEstablished c.state = true → TimedOut now c) :
      Visited now ref r (connectionTimeout ref r)

theorem visited_visit (now : Date) (ref : Ref) (r : PacketReceiverImpl) :
    Visited now ref r (visit now ref r).state := by
  unfold visit
  split
  · exact .kept
  · rename_i c hc
    split
    · rename_i hbroken
      rw [Bool.and_eq_true, decide_eq_true_eq] at hbroken
      exact .removed hc fun _ => Or.inl hbroken
    · split
      · exact .kept
      · rename_i state hstate
        split
        · exact .closed hc (by simp [hstate])
        · rename_i hhalf
          split
          · rename_i hless
            refine .removed hc fun hbeen => ?_
            rw [hstate] at hbeen
            simp [TCPConnectionState.isLessThan_of_hasBeenEstablished hbeen] at hless
          · rename_i hless
            split
            · rename_i hlong
              refine .removed hc fun _ => Or.inr ⟨?_, hlong⟩
              rw [hstate]
              refine congrArg some (TCPConnectionState.eq_established (by simpa using hless) ?_)
              -- past Established, 30 seconds are enough for the case before
              have hhalfClosed : HALF_CLOSED_TIMEOUT ≤ duration now c :=
                Int.le_trans (by decide) hlong
              simpa [hhalfClosed] using hhalf
            · exact .kept

section Clean

variable {now : Date} {r r' : PacketReceiverImpl} {ref : Ref}

theorem Visited.establishedConnections (h : Visited now ref r r') :
    r'.establishedConnections = r.establishedConnections := by
  cases h <;> rfl

/-- A visit leaves each connection as it is, or closes it. -/
theorem Visited.deref (h : Visited now ref r r') {ref' : Ref} {c : TCPConnectionImpl}
    (hc : r.deref ref' = some c) :
    ∃ c', r'.deref ref' = some c' ∧ (c' = c ∨ (c' = close c ∧ c.state ≠ none)) := by
  cases h with
  | kept => exact ⟨c, hc, Or.inl rfl⟩
  | @closed c₀ hc₀ hstate =>
    by_cases href : ref = ref'
    · subst href
      obtain rfl := Option.some.inj (hc₀.symm.trans hc)
      exact ⟨_, PacketReceiverImpl.deref_store_self hc, Or.inr ⟨rfl, hstate⟩⟩
    · exact ⟨c, by rwa [PacketReceiverImpl.deref_store_ne href], Or.inl rfl⟩
  | removed => exact ⟨c, hc, Or.inl rfl⟩

theorem Visited.hasBeenEstablished (h : Visited now ref r r') {ref' : Ref}
    (hbeen : TCPConnectionState.hasBeenEstablished (r.stateOf ref') = true) :
    TCPConnectionState.hasBeenEstablished (r'.stateOf ref') = true := by
  unfold PacketReceiverImpl.stateOf at hbeen ⊢
  cases hc : r.deref ref' with
  | none => simp [hc, TCPConnectionState.hasBeenEstablished] at hbeen
  | some c =>
    obtain ⟨c', hc', rfl | ⟨rfl, -⟩⟩ := h.deref hc
    · rwa [hc', ← hc]
    · rw [hc']
      rfl

theorem Visited.sound (h : Visited now ref r r') (hsound : Waiting.Sound r) :
    Waiting.Sound r' := by
  cases h with
  | kept => exact hsound
  | @closed c hc hstate =>
    refine ⟨hsound.wellFormed.store hc rfl, hsound.tables.store hc ?_ ?_⟩
    · intro horderly
      exact ⟨by simp [close], horderly.waits⟩
    · intro hcandidate
      exact absurd hcandidate.state hstate
  | removed =>
    exact ⟨hsound.wellFormed.shrink HashMap.get_of_get_removeValue,
      hsound.tables.shrink HashMap.get_of_get_removeValue⟩

theorem Visited.inv (h : Visited now ref r r') (hinv : Inv r) : Inv r' where
  sound := h.sound hinv.sound
  distinct := by
    cases h with
    | kept | closed => exact hinv.distinct
    | removed => exact hinv.distinct.removeValue ref
  announced := by
    intro ref' hmem
    rw [h.establishedConnections] at hmem
    exact h.hasBeenEstablished (hinv.announced ref' hmem)

/-- What the visits of a pass keep, the pass keeps. -/
theorem visitAll_induct (now : Date) {P : PacketReceiverImpl → Prop}
    (hvisit : ∀ ref r r', Visited now ref r r' → P r → P r') (refs : List Ref) (h : P r) :
    P (visitAll now refs r).state := by
  induction refs generalizing r with
  | nil => exact h
  | cons ref refs ih =>
    have hfirst := hvisit ref r _ (visited_visit now ref r) h
    unfold visitAll
    cases hv : visit now ref r with
    | thrown e r' => simpa [hv] using hfirst
    | returned r' =>
      rw [hv] at hfirst
      exact ih hfirst

/-- In a pass, an announced connection stays in the table unless it is timed
out. -/
theorem clean_keeps (hdistinct : r.activeConnections.Distinct) {key : ConnectionDetail}
    {c : TCPConnectionImpl} (hactive : r.activeConnections.get key = some ref)
    (hc : r.deref ref = some c)
    (hbeen : TCPConnectionState.hasBeenEstablished c.state = true) :
    (clean now r).state.activeConnections.get key = some ref ∨ TimedOut now c := by
  have hpass : (clean now r).state.activeConnections.Distinct ∧
      ((clean now r).state.activeConnections.get key = some ref ∨ TimedOut now c) ∧
      ∃ c', (clean now r).state.deref ref = some c' ∧ (c' = c ∨ c' = close c) := by
    refine visitAll_induct now (P := fun r' => r'.activeConnections.Distinct ∧
      (r'.activeConnections.get key = some ref ∨ TimedOut now c) ∧
      ∃ c', r'.deref ref = some c' ∧ (c' = c ∨ c' = close c)) ?_ _
      ⟨hdistinct, Or.inl hactive, c, hc, Or.inl rfl⟩
    rintro ref' r₁ r₂ hv ⟨hd, hor, c₁, hc₁, hsame⟩
    refine ⟨?_, ?_, ?_⟩
    · cases hv with
      | kept | closed => exact hd
      | removed => exact hd.removeValue ref'
    · rcases hor with hget | hout
      · cases hv with
        | kept | closed => exact Or.inl hget
        | @removed c₂ hc₂ hold =>
          by_cases href : ref = ref'
          · subst href
            obtain rfl := Option.some.inj (hc₁.symm.trans hc₂)
            rcases hsame with rfl | rfl
            · exact Or.inr (hold hbeen)
            · -- closed by this very pass, and then broken and old enough
              rcases hold rfl with hbroken | ⟨hstate, -⟩
              · exact Or.inr (Or.inl hbroken)
              · simp [close] at hstate
          · exact Or.inl (hd.get_removeValue hget href)
      · exact Or.inr hout
    · obtain ⟨c₂, hc₂, rfl | ⟨rfl, -⟩⟩ := hv.deref hc₁
      · exact ⟨c₂, hc₂, hsame⟩
      · refine ⟨_, hc₂, Or.inr ?_⟩
        rcases hsame with rfl | rfl <;> rfl
  exact hpass.2.1

end Clean

/-! ### A call -/

section Call

variable {r : PacketReceiverImpl} {ref : Ref}

/-- Once Established, a connection does not go back. -/
theorem hasBeenEstablished_step (h : Waiting.Sound r) (call : Call)
    (hbeen : TCPConnectionState.hasBeenEstablished (r.stateOf ref) = true) :
    TCPConnectionState.hasBeenEstablished ((r.step call).stateOf ref) = true := by
  have hvisits := TCPConnectionState.moves_visits ((PacketReceiverImpl.step_announces h call).1 ref)
  rw [hbeen] at hvisits
  cases hafter : TCPConnectionState.hasBeenEstablished ((r.step call).stateOf ref) with
  | true => rfl
  | false => simp [hafter] at hvisits

/-- What a call adds to the queue is Established. -/
theorem hasBeenEstablished_of_added (h : Waiting.Sound r) {call : Call}
    (hmem : ref ∈ r.added call) :
    TCPConnectionState.hasBeenEstablished ((r.step call).stateOf ref) = true := by
  have hvisits := TCPConnectionState.moves_visits ((PacketReceiverImpl.step_announces h call).1 ref)
  have hcount := List.count_pos_iff.mpr hmem
  cases hafter : TCPConnectionState.hasBeenEstablished ((r.step call).stateOf ref) with
  | true => rfl
  | false =>
    rw [hafter, Bool.toNat_false] at hvisits
    omega

theorem activeConnections_onStream (r : PacketReceiverImpl) (ref : Ref) (x : Side)
    (f : DynamicByteArrayInputStream → DynamicByteArrayInputStream) :
    (r.onStream ref x f).activeConnections = r.activeConnections := by
  unfold PacketReceiverImpl.onStream
  split <;> rfl

theorem distinct_step (h : r.activeConnections.Distinct) (call : Call) :
    (r.step call).activeConnections.Distinct := by
  have honStream : ∀ ref x f, (r.onStream ref x f).activeConnections.Distinct := by
    intro ref x f
    rw [activeConnections_onStream]
    exact h
  cases call with
  | pick now packet =>
    show (r.pick now (TCPPacketImpl packet)).state.activeConnections.Distinct
    have hp := PacketReceiverImpl.picked_pick now (TCPPacketImpl packet) r
    generalize r.pick now (TCPPacketImpl packet) = o at hp
    cases hp with
    | rejected | noPayload | candidate | danglingHalfWay | danglingActive | ignored => exact h
    | opened => exact h.put _ _
    | promoted =>
      rw [Outcome.state_map]
      exact h.put _ _
    | buffered | answered =>
      rw [Outcome.state_map]
      exact h
    | @processed ref c =>
      generalize PacketReceiverImpl.process now
        ((TCPPacketImpl packet).detectPacketFlowDirection c.connectionDetail) c = o
      cases o with
      | thrown e t => exact h
      | returned t =>
        show (PacketReceiverImpl.removeIfFinished ref (r.commit ref t)).activeConnections.Distinct
        unfold PacketReceiverImpl.removeIfFinished
        split
        · exact h
        · split
          · exact h.remove _
          · exact h
  | poll => exact h
  | read ref x => exact honStream ref x fun s => s.read.left s
  | readInto ref x bLength off len =>
    exact honStream ref x fun s => (s.readInto bLength off len).left s

theorem inv_step (h : Inv r) (call : Call) : Inv (r.step call) where
  sound := Waiting.sound_step h.sound call
  distinct := distinct_step h.distinct call
  announced := by
    intro ref hmem
    have hqueue := (PacketReceiverImpl.step_announces h.sound call).2
    have hin : ref ∈ r.establishedConnections ++ r.added call := by
      rw [← hqueue]
      exact List.mem_append_right _ hmem
    rcases List.mem_append.mp hin with hold | hnew
    · exact hasBeenEstablished_step h.sound call (h.announced ref hold)
    · exact hasBeenEstablished_of_added h.sound hnew

/-- A connection leaves the table in a pick only if it is finished or
replaced. -/
theorem pick_keeps (hwf : PacketReceiverImpl.WellFormed r) (now : Date) (packet : JpcapPacket)
    {key : ConnectionDetail} {c : TCPConnectionImpl}
    (hactive : r.activeConnections.get key = some ref) (hc : r.deref ref = some c)
    (hleaves : (r.step (.pick now packet)).activeConnections.get key ≠ some ref) :
    ∃ c', (r.step (.pick now packet)).deref ref = some c' ∧
      Departs r c c' (.call (.pick now packet)) := by
  have hckey := hwf.deref_active hactive hc
  have hstep : r.step (.pick now packet) = (r.pick now (TCPPacketImpl packet)).state := rfl
  rw [hstep] at hleaves ⊢
  have hp := PacketReceiverImpl.picked_pick now (TCPPacketImpl packet) r
  generalize r.pick now (TCPPacketImpl packet) = o at hp hleaves
  cases hp with
  | rejected | noPayload | candidate | danglingHalfWay | danglingActive | ignored =>
    exact absurd hactive hleaves
  | opened hsyn hfilter =>
    refine ⟨c, PacketReceiverImpl.deref_allocate_of_some hc, .replaced hsyn hfilter ?_⟩
    simp only [Outcome.state_returned, HashMap.get_put] at hleaves
    split at hleaves
    · rename_i hkey
      exact BEq.trans hckey (BEq.symm hkey)
    · exact absurd hactive hleaves
  | promoted hsyn hnone hdata hhalf hc₀ hdone =>
    rw [Outcome.state_map] at hleaves
    simp only [PacketReceiverImpl.commit, PacketReceiverImpl.store, PacketReceiverImpl.moved,
      HashMap.get_put] at hleaves
    split at hleaves
    · -- the pair of the packet has no active connection, but `ref` is one
      rename_i hkey
      have hpair := BEq.trans (BEq.symm hkey) (hwf.deref_halfWay hhalf hc₀)
      rw [HashMap.get_congr _ hpair, hnone] at hactive
      exact absurd hactive (by simp)
    · exact absurd hactive hleaves
  | buffered | answered =>
    rw [Outcome.state_map] at hleaves
    exact absurd hactive hleaves
  | @processed ref' c₀ hsyn hactive' hc₀ hignored hsynAck =>
    have hdetail := PacketReceiverImpl.process_detail now
      ((TCPPacketImpl packet).detectPacketFlowDirection c₀.connectionDetail) c₀
    generalize PacketReceiverImpl.process now
      ((TCPPacketImpl packet).detectPacketFlowDirection c₀.connectionDetail) c₀ = o
      at hleaves hdetail
    cases o with
    | thrown e t => exact absurd hactive hleaves
    | returned t =>
      have hself : (r.commit ref' t).deref ref' = some t.connection :=
        PacketReceiverImpl.deref_store_self hc₀
      have hkeeps : t.connection.connectionDetail = c₀.connectionDetail := hdetail
      simp only [Outcome.map_returned, Outcome.andThen_returned, Outcome.state_returned,
        PacketReceiverImpl.removeIfFinished, hself] at hleaves
      split at hleaves
      · rename_i hfin
        simp only [HashMap.get_remove] at hleaves
        split at hleaves
        · -- the entry that was removed is the one of the packet's connection
          rename_i hkey
          rw [hkeeps] at hkey
          have hpair := BEq.trans (BEq.symm hkey) (hwf.deref_active hactive' hc₀)
          rw [HashMap.get_congr _ hpair, hactive', Option.some.injEq] at hactive
          subst hactive
          exact ⟨t.connection, by simpa using hself, .finished hfin⟩
        · exact absurd hactive hleaves
      · exact absurd hactive hleaves

end Call

/-! ## Runs -/

section Runs

variable {r : PacketReceiverImpl} {ref : Ref}

theorem inv_act (h : Inv r) (a : Activity) : Inv (act r a) := by
  cases a with
  | call call => exact inv_step h call
  | clean now => exact visitAll_induct now (fun _ _ _ hv hr => hv.inv hr) _ h

theorem hasBeenEstablished_act (h : Inv r) (a : Activity)
    (hbeen : TCPConnectionState.hasBeenEstablished (r.stateOf ref) = true) :
    TCPConnectionState.hasBeenEstablished ((act r a).stateOf ref) = true := by
  cases a with
  | call call => exact hasBeenEstablished_step h.sound call hbeen
  | clean now =>
    exact visitAll_induct now (P := fun r => TCPConnectionState.hasBeenEstablished (r.stateOf ref) = true)
      (fun _ _ _ hv hr => hv.hasBeenEstablished hr) _ hbeen

theorem inv_of_run (filter : ConnectionFilter) (activities : List Activity) :
    Inv (Run.after act (PacketReceiverImpl.create filter) activities) :=
  Run.invariant_always (I := Inv) (fun _ a h => inv_act h a) activities (inv_create filter)

/-- Whatever was announced has been Established ever since. -/
theorem Announced.hasBeenEstablished {filter : ConnectionFilter} {activities : List Activity}
    (h : Announced filter activities ref) :
    TCPConnectionState.hasBeenEstablished
      ((Run.after act (PacketReceiverImpl.create filter) activities).stateOf ref) = true := by
  obtain ⟨before, after, rfl, hmem⟩ := h
  have hinv := inv_of_run filter before
  rw [Run.after_append]
  refine (Run.invariant_always (I := fun r => Inv r ∧
    TCPConnectionState.hasBeenEstablished (r.stateOf ref) = true) ?_ after
    ⟨hinv, hinv.announced ref hmem⟩).2
  rintro r a ⟨hr, hbeen⟩
  exact ⟨inv_act hr a, hasBeenEstablished_act hr a hbeen⟩

/-- A pass of the cleaner announces nothing. -/
theorem Announced.of_clean {filter : ConnectionFilter} {activities : List Activity} {now : Date}
    (h : Announced filter (activities ++ [.clean now]) ref) : Announced filter activities ref := by
  obtain ⟨before, after, heq, hmem⟩ := h
  rcases List.eq_nil_or_concat after with rfl | ⟨after', a, rfl⟩
  · rw [List.append_nil] at heq
    rw [← heq, Run.after_append] at hmem
    refine ⟨activities, [], by simp, ?_⟩
    have hqueue := visitAll_induct now (P := fun r' => r'.establishedConnections =
        (Run.after act (PacketReceiverImpl.create filter) activities).establishedConnections)
      (fun _ _ _ hv hr => hv.establishedConnections.trans hr)
      (Run.after act (PacketReceiverImpl.create filter) activities).activeConnections.values rfl
    exact hqueue ▸ hmem
  · rw [List.concat_eq_append, ← List.append_assoc] at heq
    exact ⟨before, after', (List.append_inj' heq rfl).1, hmem⟩

/-- In every run of calls and cleaner passes, a connection that was announced
leaves the table of active connections only with both streams finished,
or replaced by a SYN for an equal pair, or timed out by the cleaner. -/
theorem departs_of_leaves (filter : ConnectionFilter) (activities : List Activity) (a : Activity)
    (ref : Ref) (key : ConnectionDetail) (hannounced : Announced filter (activities ++ [a]) ref)
    (hactive : (Run.after act (PacketReceiverImpl.create filter) activities).activeConnections.get
      key = some ref)
    (hleaves : (Run.after act (PacketReceiverImpl.create filter)
      (activities ++ [a])).activeConnections.get key ≠ some ref) :
    let r := Run.after act (PacketReceiverImpl.create filter) activities
    ∃ c c', r.deref ref = some c ∧ (act r a).deref ref = some c' ∧ Departs r c c' a := by
  intro r
  have hinv : Inv r := inv_of_run filter activities
  rw [Run.after_append] at hleaves
  obtain ⟨c, hc, -⟩ := hinv.sound.wellFormed.active hactive
  cases a with
  | call call =>
    cases call with
    | pick now packet =>
      obtain ⟨c', hc', hdeparts⟩ :=
        pick_keeps hinv.sound.wellFormed now packet hactive hc hleaves
      exact ⟨c, c', hc, hc', hdeparts⟩
    | poll => exact absurd hactive hleaves
    | read ref' x =>
      have hsame : (r.step (.read ref' x)).activeConnections = r.activeConnections :=
        activeConnections_onStream r ref' x fun s => s.read.left s
      exact absurd (hsame ▸ hactive) hleaves
    | readInto ref' x bLength off len =>
      have hsame : (r.step (.readInto ref' x bLength off len)).activeConnections =
          r.activeConnections :=
        activeConnections_onStream r ref' x fun s => (s.readInto bLength off len).left s
      exact absurd (hsame ▸ hactive) hleaves
  | clean now =>
    have hbeen := hannounced.of_clean.hasBeenEstablished
    rw [show (Run.after act (PacketReceiverImpl.create filter) activities).stateOf ref = c.state by
      unfold PacketReceiverImpl.stateOf; rw [show _ = some c from hc]; rfl] at hbeen
    have hc' := visitAll_induct now (P := fun r' => ∃ c', r'.deref ref = some c')
      (fun _ _ _ hv ⟨c, hc⟩ => let ⟨c', hc', _⟩ := hv.deref hc; ⟨c', hc'⟩)
      r.activeConnections.values ⟨c, hc⟩
    obtain ⟨c', hc'⟩ := hc'
    refine ⟨c, c', hc, hc', .timedOut ?_⟩
    exact (clean_keeps hinv.distinct hactive hc hbeen).resolve_left hleaves

/-- An RST finishes both streams, and the connection leaves. -/
theorem departs_of_leaves_reset :
    let client := InetAddress.inet4 10 0 0 1
    let server := InetAddress.inet4 10 0 0 2
    let activities : List Activity := [
      .call (.pick 0 ⟨client, server, 50000, 80, 100, 0, false, false, true, false, [], 0⟩),
      .call (.pick 1 ⟨server, client, 80, 50000, 500, 101, true, false, true, false, [], 1⟩),
      .call (.pick 2 ⟨client, server, 50000, 80, 101, 501, true, false, false, false, [], 2⟩)]
    let reset : Activity :=
      .call (.pick 3 ⟨client, server, 50000, 80, 101, 501, true, true, false, false, [], 3⟩)
    let r := Run.after act (PacketReceiverImpl.create {}) activities
    ∃ c c', r.deref 0 = some c ∧ (act r reset).deref 0 = some c' ∧ Departs r c c' reset := by
  intro client server activities reset r
  exact departs_of_leaves {} activities reset 0 ⟨client, server, 50000, 80⟩
    ⟨activities, [reset], rfl, by decide⟩ (by decide) (by decide)

/-- An idle connection is timed out, or a SYN replaces it, and in both cases
its streams stay open. -/
theorem reader_stranded :
    let client := InetAddress.inet4 10 0 0 1
    let server := InetAddress.inet4 10 0 0 2
    let key : ConnectionDetail := ⟨client, server, 50000, 80⟩
    let activities : List Activity := [
      .call (.pick 0 ⟨client, server, 50000, 80, 100, 0, false, false, true, false, [], 0⟩),
      .call (.pick 1 ⟨server, client, 80, 50000, 500, 101, true, false, true, false, [], 1⟩),
      .call (.pick 2 ⟨client, server, 50000, 80, 101, 501, true, false, false, false, [], 2⟩)]
    let timeout : Activity := .clean 120002
    let syn : Activity :=
      .call (.pick 3 ⟨client, server, 50000, 80, 900, 0, false, false, true, false, [], 3⟩)
    let r := Run.after act (PacketReceiverImpl.create {}) activities
    Announced {} activities 0 ∧ r.activeConnections.get key = some 0 ∧
      ((act r timeout).activeConnections.get key = none ∧
        ((act r timeout).deref 0).map (·.isFinished) = some false) ∧
      ((act r syn).activeConnections.get key = some 1 ∧
        ((act r syn).deref 0).map (·.isFinished) = some false) := by
  intro client server key activities timeout syn r
  exact ⟨⟨activities, [], rfl, by decide⟩, by decide, ⟨by decide, by decide⟩,
    ⟨by decide, by decide⟩⟩

end Runs

end ObsoleteConnectionCleaner

end ConnectionSniffer
