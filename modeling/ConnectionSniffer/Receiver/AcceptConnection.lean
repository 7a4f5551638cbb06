import ConnectionSniffer.Library.Run
import ConnectionSniffer.Receiver.PacketReceiverImpl

/-!
# `acceptConnection` and `establishedNewConnection`

The thread that picks packets announces connections: it adds one to the
queue and then, holding the monitor of the receiver, notifies.  Any number
of threads call `acceptConnection`: poll the queue; if that gave `null`,
enter the monitor and wait; then poll again.

`Enabled` and `fire` are the atomic steps on the queue and on the monitor.
A thread that waits has left the monitor and gets it back after it was
notified.  There are no spurious wake-ups and no interrupts.

Nothing makes the two polls and the wait one step, so two things can go
wrong: a notify comes between a poll that gave `null` and the wait that
follows it, or another call takes the connection a notified thread was
woken for.  `Careful` forbids these two, and `no_lost_wakeup` says that a
run of careful steps is safe in every state.
-/

namespace ConnectionSniffer

namespace AcceptConnection

/-- Where a thread is in `acceptConnection`. -/
inductive Phase where
  /-- Outside the method. -/
  | idle
  /-- The first poll gave `null`. -/
  | missed
  /-- In the `synchronized` block, before `wait`. -/
  | entered
  | waiting
  /-- Notified, and the monitor has to be entered again. -/
  | notified
  /-- Back from `wait`, with the monitor. -/
  | resumed
  /-- Behind the `synchronized` block, before the second poll. -/
  | left
  deriving DecidableEq

/-- Where the packet thread is in `establishedNewConnection`. -/
inductive Announcing where
  | idle
  /-- The connection is in the queue. -/
  | added
  /-- In the `synchronized` block, before `notify`. -/
  | entered
  | notified
  deriving DecidableEq

/-- Who holds the monitor. -/
inductive Holder where
  | packetThread
  | acceptor (i : Nat)
  deriving DecidableEq

structure State where
  /-- `establishedConnections`. -/
  queue : List Ref := []
  monitor : Option Holder := none
  packetThread : Announcing := .idle
  threads : List Phase
  /-- History: the connections added to the queue. -/
  announced : List Ref := []
  /-- History: what the calls of `acceptConnection` returned. -/
  returned : List (Option Ref) := []

/-- `n` threads that will call `acceptConnection`. -/
def create (n : Nat) : State := { threads := List.replicate n .idle }

inductive Event where
  | add (c : Ref)
  | enterNotify
  /-- `notify`, and the thread it picks from the waiting ones. -/
  | notify (woken : Option Nat)
  | exitNotify
  | poll (i : Nat)
  | enter (i : Nat)
  | wait (i : Nat)
  | reenter (i : Nat)
  | exit (i : Nat)
  | pollAgain (i : Nat)

/-- Whether a step can be taken.  A connection is announced at most once
(`announced_once`). -/
def Enabled (s : State) : Event → Prop
  | .add c => s.packetThread = .idle ∧ c ∉ s.announced
  | .enterNotify => s.packetThread = .added ∧ s.monitor = none
  | .notify (some i) => s.packetThread = .entered ∧ s.threads[i]? = some .waiting
  | .notify none => s.packetThread = .entered ∧ .waiting ∉ s.threads
  | .exitNotify => s.packetThread = .notified
  | .poll i => s.threads[i]? = some .idle
  | .enter i => s.threads[i]? = some .missed ∧ s.monitor = none
  | .wait i => s.threads[i]? = some .entered
  | .reenter i => s.threads[i]? = some .notified ∧ s.monitor = none
  | .exit i => s.threads[i]? = some .resumed
  | .pollAgain i => s.threads[i]? = some .left

instance (s : State) (e : Event) : Decidable (Enabled s e) := by
  cases e with
  | notify woken => cases woken <;> unfold Enabled <;> infer_instance
  | _ => unfold Enabled; infer_instance

/-- Thread `i` goes on. -/
def State.move (s : State) (i : Nat) (phase : Phase) : State :=
  { s with threads := s.threads.set i phase }

/-- A call of thread `i` returns what `poll` gives. -/
def State.answer (s : State) (i : Nat) : State :=
  { s.move i .idle with
    queue := s.queue.tail
    returned := s.returned ++ [s.queue.head?] }

def fire (s : State) : Event → State
  | .add c =>
    { s with queue := s.queue ++ [c], announced := s.announced ++ [c], packetThread := .added }
  | .enterNotify => { s with packetThread := .entered, monitor := some .packetThread }
  | .notify (some i) => { s.move i .notified with packetThread := .notified }
  | .notify none => { s with packetThread := .notified }
  | .exitNotify => { s with packetThread := .idle, monitor := none }
  | .poll i => if s.queue = [] then s.move i .missed else s.answer i
  | .enter i => { s.move i .entered with monitor := some (.acceptor i) }
  | .wait i => { s.move i .waiting with monitor := none }
  | .reenter i => { s.move i .resumed with monitor := some (.acceptor i) }
  | .exit i => { s.move i .left with monitor := none }
  | .pollAgain i => s.answer i

/-! ## What is asked for -/

/-- A notified thread that has yet to poll. -/
def Phase.isWoken : Phase → Bool
  | notified | resumed | left => true
  | _ => false

/-- A thread that polled `null` and has not been notified since. -/
def Phase.isSleepy : Phase → Bool
  | missed | entered | waiting => true
  | _ => false

/-- A notify is still to come from an add already done. -/
def Announcing.isPending : Announcing → Bool
  | added | entered => true
  | _ => false

/-- A thread waits only while there is nothing to take, or somebody is on the
way; and every call that returned has returned a connection of its own. -/
structure Safe (s : State) : Prop where
  awake : .waiting ∈ s.threads → s.queue = [] ∨ s.packetThread.isPending = true ∨
    ∃ phase ∈ s.threads, phase.isWoken = true
  found : none ∉ s.returned
  once : s.returned.Nodup

/-- The notified threads that have yet to poll. -/
def State.woken (s : State) : Nat := s.threads.countP Phase.isWoken

/-- The threads between a poll that gave `null` and the notify they need. -/
def State.sleepy (s : State) : Nat := s.threads.countP Phase.isSleepy

/-- No notify goes by while a thread is about to wait for it, and what a
notified thread was woken for is left for it. -/
def Careful (s : State) : Event → Prop
  | .notify none => s.sleepy = 0 ∨ s.queue.length ≤ s.woken
  | .notify (some _) => s.woken < s.queue.length
  | .poll _ => s.queue = [] ∨ s.woken < s.queue.length
  | _ => True

instance (s : State) (e : Event) : Decidable (Careful s e) := by
  cases e with
  | notify woken => cases woken <;> unfold Careful <;> infer_instance
  | _ => unfold Careful; infer_instance

/-! ## The invariant -/

/-- One connection for each notified thread, and at most one more for the
notify that is still to come while a thread needs it. -/
structure Inv (s : State) : Prop where
  covered : 0 < s.sleepy →
    s.queue.length ≤ s.woken + (if s.packetThread.isPending then 1 else 0)
  kept : s.woken ≤ s.queue.length
  history : s.announced.map some = s.returned ++ s.queue.map some
  distinct : s.announced.Nodup

theorem inv_create (n : Nat) : Inv (create n) where
  covered := by simp [create, State.sleepy, Phase.isSleepy, List.countP_replicate]
  kept := by simp [create, State.woken, Phase.isWoken, List.countP_replicate]
  history := rfl
  distinct := List.nodup_nil

theorem Inv.safe {s : State} (h : Inv s) : Safe s where
  awake := by
    intro hwaiting
    have hsleepy : 0 < s.sleepy := List.countP_pos_iff.mpr ⟨_, hwaiting, rfl⟩
    have hcovered := h.covered hsleepy
    by_cases hqueue : s.queue = []
    · exact Or.inl hqueue
    · right
      have hpos := List.length_pos_iff.mpr hqueue
      cases hpending : s.packetThread.isPending with
      | true => exact Or.inl rfl
      | false =>
        rw [hpending, if_neg (by simp)] at hcovered
        exact Or.inr (List.countP_pos_iff.mp (by unfold State.woken at hcovered; omega))
  found := by
    intro hnone
    have hmem : none ∈ s.announced.map some := by
      rw [h.history]
      exact List.mem_append_left _ hnone
    simp at hmem
  once := by
    have hdistinct : (s.announced.map some).Nodup :=
      List.Nodup.map (Option.some_injective _) h.distinct
    rw [h.history] at hdistinct
    exact (List.nodup_append.mp hdistinct).1

/-! ## Steps -/

section Step

variable {s : State} {i : Nat} {phase phase' : Phase}

theorem countP_set_of_getElem? (f : Phase → Bool) (h : s.threads[i]? = some phase) :
    (s.threads.set i phase').countP f + (if f phase then 1 else 0) =
      s.threads.countP f + (if f phase' then 1 else 0) := by
  obtain ⟨hlt, hget⟩ := List.getElem?_eq_some_iff.mp h
  have hcount := List.countP_set (p := f) (a := phase') hlt
  have hpos : (if f phase then 1 else 0) ≤ s.threads.countP f := by
    split
    · rename_i hf
      exact List.countP_pos_iff.mpr ⟨phase, hget ▸ List.getElem_mem hlt, hf⟩
    · exact Nat.zero_le _
  rw [hget] at hcount
  omega

theorem woken_move (h : s.threads[i]? = some phase) (phase' : Phase) :
    (s.move i phase').woken + (if phase.isWoken then 1 else 0) =
      s.woken + (if phase'.isWoken then 1 else 0) :=
  countP_set_of_getElem? _ h

theorem sleepy_move (h : s.threads[i]? = some phase) (phase' : Phase) :
    (s.move i phase').sleepy + (if phase.isSleepy then 1 else 0) =
      s.sleepy + (if phase'.isSleepy then 1 else 0) :=
  countP_set_of_getElem? _ h

/-- A thread goes on without having polled or having been notified. -/
theorem Inv.move (h : Inv s) (hphase : s.threads[i]? = some phase)
    (hwoken : phase'.isWoken = phase.isWoken) (hsleepy : phase'.isSleepy = phase.isSleepy) :
    Inv (s.move i phase') := by
  have hw : (s.move i phase').woken = s.woken := by
    have := woken_move (hphase : s.threads[i]? = some phase) phase'
    rwa [hwoken, Nat.add_right_cancel_iff] at this
  have hs : (s.move i phase').sleepy = s.sleepy := by
    have := sleepy_move (hphase : s.threads[i]? = some phase) phase'
    rwa [hsleepy, Nat.add_right_cancel_iff] at this
  refine ⟨?_, ?_, h.history, h.distinct⟩
  · rw [hs, hw]
    exact h.covered
  · rw [hw]
    exact h.kept

/-- A call returns the connection at the front of the queue: the one kept
for it, or one that is kept for nobody. -/
theorem Inv.answer (h : Inv s) (hphase : s.threads[i]? = some phase)
    (hsleepy : phase.isSleepy = false)
    (hlt : s.woken < s.queue.length + (if phase.isWoken then 1 else 0))
    (hne : s.queue ≠ []) : Inv (s.answer i) := by
  have hw : (s.move i .idle).woken + (if phase.isWoken then 1 else 0) = s.woken :=
    woken_move hphase .idle
  have hs : (s.move i .idle).sleepy + (if phase.isSleepy then 1 else 0) = s.sleepy :=
    sleepy_move hphase .idle
  rw [hsleepy, if_neg (by simp), Nat.add_zero] at hs
  have hwoken : (s.answer i).woken = (s.move i .idle).woken := rfl
  have hsleepy' : (s.answer i).sleepy = (s.move i .idle).sleepy := rfl
  obtain ⟨c, rest, hqueue⟩ := List.exists_cons_of_ne_nil hne
  have htail : (s.answer i).queue.length + 1 = s.queue.length := by
    simp [State.answer, hqueue]
  refine ⟨?_, ?_, ?_, h.distinct⟩
  · intro hpos
    rw [hsleepy', hs] at hpos
    have hcovered := h.covered hpos
    show (s.answer i).queue.length ≤
      (s.answer i).woken + (if s.packetThread.isPending then 1 else 0)
    rw [hwoken]
    split at hw <;> omega
  · rw [hwoken]
    split at hw
    · rename_i hphase
      rw [if_pos hphase] at hlt
      omega
    · rename_i hphase
      rw [if_neg hphase] at hlt
      omega
  · have hhistory := h.history
    rw [hqueue] at hhistory
    simp [State.answer, State.move, hqueue, hhistory]

/-- A careful step keeps the invariant. -/
theorem inv_fire {e : Event} (h : Inv s) (henabled : Enabled s e) (hcareful : Careful s e) :
    Inv (fire s e) := by
  cases e with
  | add c =>
    obtain ⟨hidle, hfresh⟩ := henabled
    refine ⟨fun hpos => ?_, Nat.le_trans h.kept (by simp [fire]), ?_, ?_⟩
    · have hcovered := h.covered hpos
      rw [hidle] at hcovered
      show (s.queue ++ [c]).length ≤ s.woken + 1
      rw [List.length_append]
      exact Nat.succ_le_succ hcovered
    · simp [fire, h.history]
    · exact List.nodup_append.mpr ⟨h.distinct, List.nodup_singleton c, by
        rintro x hx y hy rfl
        exact hfresh (List.mem_singleton.mp hy ▸ hx)⟩
  | enterNotify =>
    obtain ⟨hadded, -⟩ := henabled
    refine ⟨fun hpos => ?_, h.kept, h.history, h.distinct⟩
    have hcovered := h.covered hpos
    rwa [hadded] at hcovered
  | notify woken =>
    cases woken with
    | some i =>
      obtain ⟨hentered, hwaiting⟩ := henabled
      have hw : (s.move i .notified).woken = s.woken + 1 := woken_move hwaiting .notified
      have hs : (s.move i .notified).sleepy + 1 = s.sleepy := sleepy_move hwaiting .notified
      have hcovered := h.covered (by omega)
      rw [hentered] at hcovered
      refine ⟨fun _ => ?_, ?_, h.history, h.distinct⟩
      · show s.queue.length ≤ (s.move i .notified).woken + 0
        rw [hw]
        exact hcovered
      · show (s.move i .notified).woken ≤ s.queue.length
        rw [hw]
        exact hcareful
    | none =>
      refine ⟨fun hpos => ?_, h.kept, h.history, h.distinct⟩
      rcases hcareful with hnobody | hcovered
      · exact absurd hpos (by show ¬ 0 < s.sleepy; omega)
      · exact Nat.le_trans hcovered (Nat.le_add_right _ _)
  | exitNotify =>
    refine ⟨fun hpos => ?_, h.kept, h.history, h.distinct⟩
    have hcovered := h.covered hpos
    rwa [show s.packetThread = .notified from henabled] at hcovered
  | poll i =>
    show Inv (if s.queue = [] then s.move i .missed else s.answer i)
    split
    · rename_i hempty
      have hw : (s.move i .missed).woken = s.woken := woken_move henabled .missed
      refine ⟨fun _ => ?_, ?_, h.history, h.distinct⟩
      · show s.queue.length ≤ _
        simp [hempty]
      · rw [hw]
        exact h.kept
    · rename_i hne
      refine h.answer henabled rfl ?_ hne
      exact hcareful.resolve_left hne
  | enter i =>
    have hmoved := Inv.move h henabled.1 (rfl : Phase.isWoken .entered = _) rfl
    exact ⟨hmoved.covered, hmoved.kept, hmoved.history, hmoved.distinct⟩
  | wait i =>
    have hmoved := Inv.move h henabled (rfl : Phase.isWoken .waiting = _) rfl
    exact ⟨hmoved.covered, hmoved.kept, hmoved.history, hmoved.distinct⟩
  | reenter i =>
    have hmoved := Inv.move h henabled.1 (rfl : Phase.isWoken .resumed = _) rfl
    exact ⟨hmoved.covered, hmoved.kept, hmoved.history, hmoved.distinct⟩
  | exit i =>
    have hmoved := Inv.move h henabled (rfl : Phase.isWoken .left = _) rfl
    exact ⟨hmoved.covered, hmoved.kept, hmoved.history, hmoved.distinct⟩
  | pollAgain i =>
    have hpos : 0 < s.woken := by
      obtain ⟨hlt, hget⟩ := List.getElem?_eq_some_iff.mp henabled
      exact List.countP_pos_iff.mpr ⟨_, hget ▸ List.getElem_mem hlt, rfl⟩
    have hne : s.queue ≠ [] := List.length_pos_iff.mp (Nat.lt_of_lt_of_le hpos h.kept)
    exact h.answer henabled rfl (Nat.lt_succ_of_le h.kept) hne

end Step

/-! ## Runs -/

/-- However the careful steps of a packet thread and of any number of
accepting threads are interleaved, every state is safe. -/
theorem no_lost_wakeup (n : Nat) (events : List Event)
    (h : Run.Along fire (fun s e => Enabled s e ∧ Careful s e) (create n) events) :
    Run.Throughout fire Safe (create n) events :=
  (Run.throughout (I := Inv) (fun _ _ hs hC => inv_fire hs hC.1 hC.2) (inv_create n) h).mono
    fun _ hs => hs.safe

/-- One thread waits, is notified, and takes the connection. -/
theorem no_lost_wakeup_single :
    Run.Throughout fire Safe (create 1)
      [.poll 0, .enter 0, .wait 0, .add 7, .enterNotify, .notify (some 0), .exitNotify,
        .reenter 0, .exit 0, .pollAgain 0] :=
  no_lost_wakeup 1 _ (by decide)

/-- The notify comes between the poll that gave `null` and the wait: the
thread waits beside a connection. -/
theorem wakeup_lost :
    let events : List Event :=
      [.poll 0, .add 7, .enterNotify, .notify none, .exitNotify, .enter 0, .wait 0]
    Run.Along fire Enabled (create 1) events ∧ ¬ Safe (Run.after fire (create 1) events) := by
  intro events
  exact ⟨by decide, fun h => absurd (h.awake (by decide)) (by decide)⟩

end AcceptConnection

end ConnectionSniffer
