import ConnectionSniffer.Receiver.ObsoleteConnectionCleaner

/-!
# Which connections a pass of the cleaner takes

Each class of connections has a documented limit: 20 seconds if it may be
broken, 30 past Established, 10 before it, and 120 in it.  A pass should
remove the connections that have been idle for the limit of their class,
and leave the others as they are.

`visitAll_swept` says what a pass does to each connection, by its
`verdict`.  Two verdicts differ from the limits: past Established the
connection is closed and stays in the table, and before Established nobody
asks for the time.  `clean_exact_iff` says that these are the only ones.
-/

namespace ConnectionSniffer

namespace ObsoleteConnectionCleaner

/-! ## Limits and verdicts -/

/-- The limit that is documented for half-open connections; no line of the
source reads it. -/
def HALF_HANDSHAKE_TIMEOUT : Int := 10 * 1000

/-- The documented limit of a class of connections. -/
def limit (maybeBroken : Bool) (state : TCPConnectionState) : Int :=
  if maybeBroken then BROKEN_TIMEOUT
  else if state.isGreaterThan .established then HALF_CLOSED_TIMEOUT
  else if state.isLessThan .established then HALF_HANDSHAKE_TIMEOUT
  else TCP_CONNECTION_TIME_OUT

/-- The connection has been idle for the limit of its class. -/
def Obsolete (now : Date) (c : TCPConnectionImpl) : Prop :=
  ∃ state ∈ c.state, limit c.maybeBroken state ≤ duration now c

instance (now : Date) (c : TCPConnectionImpl) : Decidable (Obsolete now c) :=
  inferInstanceAs (Decidable (∃ state ∈ c.state, _ ≤ _))

/-- What the cleaner does to a connection. -/
inductive Verdict where
  | removed
  | closed
  | kept
  deriving DecidableEq

def verdict (now : Date) (c : TCPConnectionImpl) : Verdict :=
  match c.state with
  | none => .kept
  | some state =>
    if c.maybeBroken = true ∧ BROKEN_TIMEOUT ≤ duration now c then .removed
    else if state.isGreaterThan .established = true ∧ HALF_CLOSED_TIMEOUT ≤ duration now c then
      .closed
    else if state.isLessThan .established = true then .removed
    else if TCP_CONNECTION_TIME_OUT ≤ duration now c then .removed
    else .kept

/-- What a verdict does to the receiver. -/
def Verdict.carryOut (ref : Ref) (c : TCPConnectionImpl) (r : PacketReceiverImpl) :
    Verdict → PacketReceiverImpl
  | removed => connectionTimeout ref r
  | closed => r.store ref (close c)
  | kept => r

theorem visit_eq {now : Date} {ref : Ref} {r : PacketReceiverImpl} {c : TCPConnectionImpl}
    (hc : r.deref ref = some c) (hstate : c.state ≠ none) :
    visit now ref r = .returned ((verdict now c).carryOut ref c r) := by
  obtain ⟨state, hs⟩ := Option.ne_none_iff_exists'.mp hstate
  unfold visit verdict
  simp only [hc, hs, Bool.and_eq_true, decide_eq_true_eq, ge_iff_le]
  split_ifs <;> rfl

/-- The verdict is the one of the limits unless the connection is past
Established, not broken and old enough to be closed, or before Established
and not old enough to go. -/
def Timely (now : Date) (c : TCPConnectionImpl) : Prop :=
  ∀ state ∈ c.state,
    (state.isGreaterThan .established = true →
      c.maybeBroken = true ∨ duration now c < HALF_CLOSED_TIMEOUT) ∧
    (state.isLessThan .established = true → limit c.maybeBroken state ≤ duration now c)

instance (now : Date) (c : TCPConnectionImpl) : Decidable (Timely now c) :=
  inferInstanceAs (Decidable (∀ state ∈ c.state, _ ∧ _))

theorem timely_iff {now : Date} {c : TCPConnectionImpl} (hstate : c.state ≠ none) :
    Timely now c ↔ (Obsolete now c → verdict now c = .removed) ∧
      (¬ Obsolete now c → verdict now c = .kept) := by
  obtain ⟨state, hs⟩ := Option.ne_none_iff_exists'.mp hstate
  have hbroken : BROKEN_TIMEOUT = 20000 := rfl
  have hclosed : HALF_CLOSED_TIMEOUT = 30000 := rfl
  have hhandshake : HALF_HANDSHAKE_TIMEOUT = 10000 := rfl
  have hlong : TCP_CONNECTION_TIME_OUT = 120000 := rfl
  have hone : ¬ (state.isGreaterThan .established = true ∧ state.isLessThan .established = true) := by
    cases state <;> decide
  simp only [Timely, Obsolete, verdict, limit, hs, Option.mem_def, Option.some.injEq, forall_eq',
    exists_eq_left', hbroken, hclosed, hhandshake, hlong]
  split_ifs <;> simp_all <;> omega

/-- What is closed should have been removed. -/
theorem obsolete_of_closed {now : Date} {c : TCPConnectionImpl} (h : verdict now c = .closed) :
    Obsolete now c := by
  have hbroken : BROKEN_TIMEOUT = 20000 := rfl
  have hclosed : HALF_CLOSED_TIMEOUT = 30000 := rfl
  cases hs : c.state with
  | none => simp [verdict, hs] at h
  | some state =>
    simp only [verdict, hs, hbroken, hclosed] at h
    simp only [Obsolete, limit, hs, Option.mem_def, Option.some.injEq, exists_eq_left', hbroken,
      hclosed]
    split_ifs at h with hold hlong
    · split_ifs <;> simp_all
      omega

/-! ## The loop -/

/-- Each of the connections is there and has a state. -/
def Stateful (r : PacketReceiverImpl) (refs : List Ref) : Prop :=
  ∀ ref ∈ refs, ∃ c, r.deref ref = some c ∧ c.state ≠ none

/-- The connections whose verdict is `removed` are gone, the others are still
in the table, and those whose verdict is `closed` are closed. -/
structure Swept (now : Date) (refs : List Ref) (r r' : PacketReceiverImpl) : Prop where
  get_of_get : ∀ {key ref}, r'.activeConnections.get key = some ref →
    r.activeConnections.get key = some ref
  gone : ∀ {ref c}, ref ∈ refs → r.deref ref = some c → verdict now c = .removed →
    ∀ key, r'.activeConnections.get key ≠ some ref
  stays : ∀ {key ref c}, r.activeConnections.get key = some ref → r.deref ref = some c →
    (ref ∈ refs → verdict now c ≠ .removed) → r'.activeConnections.get key = some ref
  left : ∀ {ref c}, r.deref ref = some c →
    r'.deref ref = some (if ref ∈ refs ∧ verdict now c = .closed then close c else c)

section Sweep

variable {now : Date} {ref : Ref} {refs : List Ref} {r r₁ r' : PacketReceiverImpl}
  {c : TCPConnectionImpl}

theorem swept_nil : Swept now [] r r where
  get_of_get := id
  gone := fun hmem => absurd hmem List.not_mem_nil
  stays := fun hget _ _ => hget
  left := fun hc => by simpa using hc

theorem swept_single (now : Date) (hdistinct : r.activeConnections.Distinct)
    (hnodup : r.activeConnections.values.Nodup) (hc : r.deref ref = some c) :
    Swept now [ref] r ((verdict now c).carryOut ref c r) := by
  have hsame : ∀ {ref' c'}, ref' ∈ [ref] → r.deref ref' = some c' → ref' = ref ∧ c' = c := by
    intro ref' c' hmem hc'
    obtain rfl := List.mem_singleton.mp hmem
    exact ⟨rfl, Option.some.inj (hc'.symm.trans hc)⟩
  cases hv : verdict now c with
  | removed =>
    refine ⟨HashMap.get_of_get_removeValue, ?_, ?_, ?_⟩
    · intro ref' c' hmem hc' _ key
      obtain ⟨rfl, -⟩ := hsame hmem hc'
      exact HashMap.get_removeValue_ne hnodup key ref'
    · intro key ref' c' hget hc' hkeep
      refine hdistinct.get_removeValue hget fun heq => ?_
      obtain ⟨-, rfl⟩ := hsame (List.mem_singleton.mpr heq) hc'
      exact hkeep (List.mem_singleton.mpr heq) hv
    · intro ref' c' hc'
      rw [if_neg]
      · exact hc'
      · rintro ⟨hmem, hclosed⟩
        obtain ⟨-, rfl⟩ := hsame hmem hc'
        simp [hv] at hclosed
  | closed =>
    refine ⟨id, ?_, fun hget _ _ => hget, ?_⟩
    · intro ref' c' hmem hc' hremoved
      obtain ⟨-, rfl⟩ := hsame hmem hc'
      simp [hv] at hremoved
    · intro ref' c' hc'
      by_cases href : ref = ref'
      · subst href
        obtain rfl := Option.some.inj (hc'.symm.trans hc)
        rw [if_pos ⟨List.mem_singleton_self ref, hv⟩]
        exact PacketReceiverImpl.deref_store_self hc'
      · rw [if_neg fun h => href (List.mem_singleton.mp h.1).symm]
        exact (PacketReceiverImpl.deref_store_ne href).trans hc'
  | kept =>
    refine ⟨id, ?_, fun hget _ _ => hget, ?_⟩
    · intro ref' c' hmem hc' hremoved
      obtain ⟨-, rfl⟩ := hsame hmem hc'
      simp [hv] at hremoved
    · intro ref' c' hc'
      rw [if_neg]
      · exact hc'
      · rintro ⟨hmem, hclosed⟩
        obtain ⟨-, rfl⟩ := hsame hmem hc'
        simp [hv] at hclosed

/-- One visit, and the visits of other connections. -/
theorem Swept.cons (h : Swept now [ref] r r₁) (h' : Swept now refs r₁ r') (hne : ref ∉ refs) :
    Swept now (ref :: refs) r r' := by
  -- the first visit leaves the other connections as they are
  have hother : ∀ {ref' c'}, ref' ∈ refs → r.deref ref' = some c' → r₁.deref ref' = some c' := by
    intro ref' c' hmem hc'
    have hleft := h.left hc'
    rwa [if_neg] at hleft
    rintro ⟨heq, -⟩
    exact hne (List.mem_singleton.mp heq ▸ hmem)
  refine ⟨fun hget => h.get_of_get (h'.get_of_get hget), ?_, ?_, ?_⟩
  · intro ref' c' hmem hc' hremoved key hget
    rcases List.mem_cons.mp hmem with rfl | hmem
    · exact h.gone (List.mem_singleton_self _) hc' hremoved key (h'.get_of_get hget)
    · exact h'.gone hmem (hother hmem hc') hremoved key hget
  · intro key ref' c' hget hc' hkeep
    have hfirst := h.stays hget hc' fun hmem =>
      hkeep (List.mem_cons.mpr (Or.inl (List.mem_singleton.mp hmem)))
    refine h'.stays hfirst (h.left hc') fun hmem => ?_
    have hleft := (h.left hc').symm.trans (hother hmem hc')
    rw [Option.some.inj hleft]
    exact hkeep (List.mem_cons_of_mem _ hmem)
  · intro ref' c' hc'
    have hleft := h'.left (h.left hc')
    rw [hleft]
    by_cases hmem : ref' ∈ refs
    · have hsame := Option.some.inj ((h.left hc').symm.trans (hother hmem hc'))
      rw [hsame]
      simp [hmem]
    · have hiff : ref' ∈ ref :: refs ↔ ref' ∈ [ref] := by simp [hmem]
      simp only [hmem, false_and, if_false, hiff]

/-- What the loop does. -/
theorem visitAll_swept (now : Date) (hrefs : refs.Nodup) (hdistinct : r.activeConnections.Distinct)
    (hnodup : r.activeConnections.values.Nodup) (hstateful : Stateful r refs) :
    ∃ r', visitAll now refs r = .returned r' ∧ Swept now refs r r' := by
  induction refs generalizing r with
  | nil => exact ⟨r, rfl, swept_nil⟩
  | cons ref refs ih =>
    obtain ⟨hne, hrefs⟩ := List.nodup_cons.mp hrefs
    obtain ⟨c, hc, hstate⟩ := hstateful ref (by simp)
    have hfirst := swept_single now hdistinct hnodup hc
    have htable : ((verdict now c).carryOut ref c r).activeConnections.Distinct ∧
        ((verdict now c).carryOut ref c r).activeConnections.values.Nodup := by
      cases verdict now c with
      | removed => exact ⟨hdistinct.removeValue ref, HashMap.nodup_values_removeValue hnodup ref⟩
      | closed | kept => exact ⟨hdistinct, hnodup⟩
    have hrest : Stateful ((verdict now c).carryOut ref c r) refs := by
      intro ref' hmem
      obtain ⟨c', hc', hstate'⟩ := hstateful ref' (by simp [hmem])
      refine ⟨c', ?_, hstate'⟩
      rw [hfirst.left hc', if_neg]
      rintro ⟨heq, -⟩
      exact hne (List.mem_singleton.mp heq ▸ hmem)
    obtain ⟨r', hreturns, hswept⟩ := ih hrefs htable.1 htable.2 hrest
    refine ⟨r', ?_, hfirst.cons hswept hne⟩
    rw [visitAll, visit_eq hc hstate, Outcome.andThen_returned, hreturns]

end Sweep

/-! ## The pass -/

/-- The table holds each connection once. -/
structure Sweepable (r : PacketReceiverImpl) : Prop where
  distinct : r.activeConnections.Distinct
  nodup : r.activeConnections.values.Nodup
  stateful : Stateful r r.activeConnections.values

/-- A pass has removed the obsolete connections, and left the others as they
are. -/
structure PassExact (now : Date) (r r' : PacketReceiverImpl) : Prop where
  nothing_new : ∀ {key ref}, r'.activeConnections.get key = some ref →
    r.activeConnections.get key = some ref
  obsolete : ∀ {key ref c}, r.activeConnections.get key = some ref → r.deref ref = some c →
    Obsolete now c → r'.activeConnections.get key = none
  others : ∀ {key ref c}, r.activeConnections.get key = some ref → r.deref ref = some c →
    ¬ Obsolete now c → r'.activeConnections.get key = some ref ∧ r'.deref ref = some c

section Pass

variable {now : Date} {r r' : PacketReceiverImpl}

/-- A pass that went by the verdicts was exact if and only if these are the
ones of the limits. -/
theorem Swept.passExact_iff (hsweepable : Sweepable r)
    (h : Swept now r.activeConnections.values r r') :
    PassExact now r r' ↔
      ∀ ref ∈ r.activeConnections.values, ∀ c, r.deref ref = some c → Timely now c := by
  have hstate : ∀ {key ref c}, r.activeConnections.get key = some ref → r.deref ref = some c →
      ref ∈ r.activeConnections.values ∧ c.state ≠ none := by
    intro key ref c hget hc
    have hmem := HashMap.mem_values_of_get hget
    obtain ⟨c', hc', hstate⟩ := hsweepable.stateful ref hmem
    obtain rfl := Option.some.inj (hc'.symm.trans hc)
    exact ⟨hmem, hstate⟩
  constructor
  · intro hexact ref hmem c hc
    obtain ⟨entry, hentry, rfl⟩ := List.mem_map.mp hmem
    have hget : r.activeConnections.get entry.1 = some entry.2 :=
      hsweepable.distinct.get_iff.mpr ⟨entry, hentry, BEq.refl entry.1, rfl⟩
    refine (timely_iff (hstate hget hc).2).mpr ⟨fun hobsolete => ?_, fun hcurrent => ?_⟩
    · by_contra hv
      have hstays := h.stays hget hc fun _ => hv
      rw [hexact.obsolete hget hc hobsolete] at hstays
      exact absurd hstays (by simp)
    · cases hv : verdict now c with
      | removed => exact absurd (hexact.others hget hc hcurrent).1 (h.gone hmem hc hv entry.1)
      | closed => exact absurd (obsolete_of_closed hv) hcurrent
      | kept => rfl
  · intro htimely
    refine ⟨h.get_of_get, ?_, ?_⟩
    · intro key ref c hget hc hobsolete
      obtain ⟨hmem, hs⟩ := hstate hget hc
      have hremoved := ((timely_iff hs).mp (htimely ref hmem c hc)).1 hobsolete
      by_contra hsome
      obtain ⟨ref', hget'⟩ := Option.ne_none_iff_exists'.mp hsome
      have hsame : ref' = ref := Option.some.inj ((h.get_of_get hget').symm.trans hget)
      exact h.gone hmem hc hremoved key (hsame ▸ hget')
    · intro key ref c hget hc hcurrent
      obtain ⟨hmem, hs⟩ := hstate hget hc
      have hkept := ((timely_iff hs).mp (htimely ref hmem c hc)).2 hcurrent
      refine ⟨h.stays hget hc fun _ => by simp [hkept], ?_⟩
      rw [h.left hc, if_neg]
      simp [hkept]

end Pass

/-- In every pass over active connections, the cleaner reaches the end of the
table, and it removes those that have been idle for the limit of their
class, and leaves the others as they are, if and only if each of them is
timely. -/
theorem clean_exact_iff (now : Date) (r : PacketReceiverImpl) (hsweepable : Sweepable r) :
    (clean now r).isReturned = true ∧
      (PassExact now r (clean now r).state ↔
        ∀ ref ∈ r.activeConnections.values, ∀ c, r.deref ref = some c → Timely now c) := by
  obtain ⟨r', hreturns, hswept⟩ := visitAll_swept now hsweepable.nodup
    hsweepable.distinct hsweepable.nodup hsweepable.stateful
  rw [show clean now r = .returned r' from hreturns]
  exact ⟨rfl, hswept.passExact_iff hsweepable⟩

/-- The table of every receiver that was reached can be swept. -/
theorem sweepable_of_run (filter : ConnectionFilter) (activities : List Activity) :
    Sweepable (Run.after act (PacketReceiverImpl.create filter) activities) := by
  have hinv := inv_of_run filter activities
  generalize Run.after act (PacketReceiverImpl.create filter) activities = r at hinv
  have hget : ∀ {entry}, entry ∈ r.activeConnections →
      r.activeConnections.get entry.1 = some entry.2 := fun hentry =>
    hinv.distinct.get_iff.mpr ⟨_, hentry, BEq.refl _, rfl⟩
  refine ⟨hinv.distinct, ?_, ?_⟩
  · refine List.pairwise_map.mpr (hinv.distinct.imp_of_mem fun {entry entry'} hm hm' hne hsame => ?_)
    -- both keys would be equal to the detail of the connection
    obtain ⟨c, hc, hkey⟩ := hinv.sound.wellFormed.active (hget hm)
    have hkey' := hinv.sound.wellFormed.deref_active (hget hm') (hsame ▸ hc)
    rw [BEq.trans (BEq.symm hkey) hkey'] at hne
    exact absurd hne (by simp)
  · intro ref hmem
    obtain ⟨entry, hentry, rfl⟩ := List.mem_map.mp hmem
    obtain ⟨c, hc, -⟩ := hinv.sound.wellFormed.active (hget hentry)
    exact ⟨c, hc, (hinv.sound.tables.active (hget hentry) hc).state⟩

/-- An Established connection and one that a RST may have broken, after 30
seconds. -/
theorem clean_exact_iff_established :
    let client := InetAddress.inet4 10 0 0 1
    let server := InetAddress.inet4 10 0 0 2
    let activities : List Activity := [
      .call (.pick 0 ⟨client, server, 50000, 80, 100, 0, false, false, true, false, [], 0⟩),
      .call (.pick 1 ⟨server, client, 80, 50000, 500, 101, true, false, true, false, [], 1⟩),
      .call (.pick 2 ⟨client, server, 50000, 80, 101, 501, true, false, false, false, [], 2⟩)]
    let r := Run.after act (PacketReceiverImpl.create {}) activities
    PassExact 30000 r (clean 30000 r).state := by
  intro client server activities r
  refine (clean_exact_iff 30000 r (sweepable_of_run {} activities)).2.mpr ?_
  show ∀ ref ∈ r.activeConnections.values, ∀ c ∈ r.deref ref, Timely 30000 c
  decide

/-- A connection is removed one millisecond after its SYN, and another one
stays in the table 30 seconds after its client's FIN. -/
theorem pass_misses_limits :
    let client := InetAddress.inet4 10 0 0 1
    let server := InetAddress.inet4 10 0 0 2
    let key : ConnectionDetail := ⟨client, server, 50000, 80⟩
    let syn : List Activity := [
      .call (.pick 0 ⟨client, server, 50000, 80, 100, 0, false, false, true, false, [], 0⟩)]
    let fin : List Activity := syn ++ [
      .call (.pick 1 ⟨server, client, 80, 50000, 500, 101, true, false, true, false, [], 1⟩),
      .call (.pick 2 ⟨client, server, 50000, 80, 101, 501, true, false, false, false, [], 2⟩),
      .call (.pick 3 ⟨client, server, 50000, 80, 101, 501, true, false, false, true, [], 3⟩)]
    let halfOpen := Run.after act (PacketReceiverImpl.create {}) syn
    let halfClosed := Run.after act (PacketReceiverImpl.create {}) fin
    ((∃ c ∈ halfOpen.deref 0, ¬ Obsolete 1 c) ∧
        halfOpen.activeConnections.get key = some 0 ∧
        (clean 1 halfOpen).state.activeConnections.get key = none) ∧
      (∃ c ∈ halfClosed.deref 0, Obsolete 30003 c) ∧
        halfClosed.activeConnections.get key = some 0 ∧
        (clean 30003 halfClosed).state.activeConnections.get key = some 0 := by
  decide

end ObsoleteConnectionCleaner

end ConnectionSniffer
