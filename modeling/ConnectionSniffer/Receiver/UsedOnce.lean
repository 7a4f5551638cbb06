import ConnectionSniffer.Receiver.ObjectReceiver

/-!
# The drain uses each packet once

`AllWait` says that every packet in a buffer waits there (`Waits`): it is on
the side its direction says, and no counter has consumed it.  It holds of
every connection that was ever made, in every run (`everywhere_after`), and
while it holds the accept test never meets a consumed packet.

On the objects this gives the end of the drain: from every connection on
which a `pick` calls it (`CallsDrain`) it returns or throws, after it has
called `handlePacket` at most once with each object, and never with the
exception for a consumed packet (`drain_usedOnce`).
-/

namespace ConnectionSniffer

/-- What `checkWhetherPakcetSeqUpdatedToCounter` throws. -/
def alreadyUpdated : Throwable :=
  .runtimeException
    "This packet's sequence is already updated to current Counter, cannot do comparsion!"

namespace Waiting

/-! ## The packets in the buffers wait -/

def AllWait (c : TCPConnectionImpl) : Prop :=
  ∀ x, ∀ p ∈ c.packetsBuffer.get x, Waits c.connectionDetail x p

section AllWait

variable {now : Date} {p : TCPPacket} {c : TCPConnectionImpl}

theorem AllWait.congr {c' : TCPConnectionImpl} (h : AllWait c)
    (hbuffer : c'.packetsBuffer = c.packetsBuffer)
    (hdetail : c'.connectionDetail = c.connectionDetail) : AllWait c' := by
  unfold AllWait
  rw [hbuffer, hdetail]
  exact h

theorem allWait_deliver (now : Date) (p : TCPPacket) (h : AllWait c) (n : Nat) :
    (Delivery.deliver now p ⟨c, n⟩).Leaves AllWait AllWait :=
  Outcome.Sat.mono (Delivery.deliver_frame now p c n)
    (fun _ hframe => h.congr hframe.packetsBuffer hframe.connectionDetail)
    (fun _ hframe => h.congr hframe.packetsBuffer hframe.connectionDetail)

theorem allWait_processDataPacket (now : Date) (p : TCPPacket) (h : AllWait c) :
    (c.processDataPacket now p).Sat AllWait AllWait :=
  (Delivery.processDataPacket_frame now p c).mono
    (fun _ hframe => h.congr hframe.packetsBuffer hframe.connectionDetail)
    (fun _ hframe => h.congr hframe.packetsBuffer hframe.connectionDetail)

theorem allWait_drain (now : Date) : Delivery.DrainInvariant now AllWait AllWait where
  thrown := fun _ h => h
  drop := fun h hb _ => waits_setBuffer h _ (TCPConnectionImpl.buffer_cons h hb).2
  take := by
    intro c n x p rest h hb _
    have hrest : AllWait (c.setBuffer x rest) :=
      waits_setBuffer h x (TCPConnectionImpl.buffer_cons h hb).2
    exact allWait_deliver now p hrest n
  updated := fun h => h

/-- The accept test throws for no packet that waits. -/
theorem pickupPacket_returns (h : AllWait c) :
    c.pickupPacket.Ends (Delivery.Picked AllWait) fun _ _ => False := by
  refine Delivery.pickupPacket_ends (F := fun _ _ => False) ?_ ?_ h
  · rintro c p e hc he ⟨x, hx⟩
    rw [(hc x p hx).isCanProcessPacket_eq] at he
    exact absurd he (by simp)
  · intro c x p rest hc hb _
    exact waits_setBuffer hc x (TCPConnectionImpl.buffer_cons hc hb).2

end AllWait

/-! ## In every run -/

/-- Every connection that was ever made has `P`. -/
def Everywhere (P : TCPConnectionImpl → Prop) (r : PacketReceiverImpl) : Prop :=
  ∀ ref c, r.deref ref = some c → P c

section Everywhere

variable {P : TCPConnectionImpl → Prop} {r : PacketReceiverImpl} {ref : Ref}
  {c c' : TCPConnectionImpl}

theorem Everywhere.store (h : Everywhere P r) (hc' : P c') : Everywhere P (r.store ref c') := by
  intro ref' c₀ hc₀
  rw [PacketReceiverImpl.deref_store] at hc₀
  split at hc₀
  · obtain ⟨_, -, rfl⟩ := Option.map_eq_some_iff.mp hc₀
    exact hc'
  · exact h ref' c₀ hc₀

theorem Everywhere.allocate (h : Everywhere P r) (hc : P c) : Everywhere P (r.allocate c) := by
  intro ref' c₀ hc₀
  rcases PacketReceiverImpl.deref_allocate hc₀ with hold | ⟨-, rfl⟩
  · exact h ref' c₀ hold
  · exact hc

end Everywhere

variable {p : TCPPacket} {r : PacketReceiverImpl}

/-- A packet that has just been made comes to no buffer but its own. -/
theorem everywhere_pick (now : Date) (hfresh : p.consumed = false)
    (hwf : PacketReceiverImpl.WellFormed r) (h : Everywhere AllWait r) :
    (r.pick now p).Sat (Everywhere AllWait) (Everywhere AllWait) := by
  have hp := PacketReceiverImpl.picked_pick now p r
  generalize r.pick now p = out at hp
  cases hp with
  | rejected => exact h
  | opened hsyn =>
    have hc : AllWait (PacketReceiverImpl.synConnection now p) := by
      intro x q hq
      cases x <;> exact absurd hq List.not_mem_nil
    exact h.allocate hc
  | noPayload => exact h
  | candidate hsyn hactive hdata =>
    have hc : AllWait (PacketReceiverImpl.halfWayConnection now p) :=
      ((pickInvariant now hfresh).candidate hsyn hdata).waits
    exact h.allocate hc
  | @promoted ref c hsyn hactive hdata hhalf hc hdone =>
    rw [Outcome.sat_map]
    have hwaits : AllWait (PacketReceiverImpl.primed
        (p.detectPacketFlowDirection c.connectionDetail) c) := h ref c hc
    refine Outcome.Sat.mono (PacketReceiverImpl.promote_leaves (allWait_drain now)
      ((allWait_processDataPacket now _ hwaits).mono (fun _ h' => h') fun _ h' => h')) ?_ ?_
    · exact fun t ht => Everywhere.store (r := r.moved ref c) h ht
    · exact fun t ht => Everywhere.store (r := r.moved ref c) h ht
  | @buffered ref c hsyn hactive hdata hhalf hc =>
    rw [Outcome.sat_map]
    have hwaits := waits_detect (hwf.deref_halfWay hhalf hc) hfresh
    exact (PacketReceiverImpl.bufferPacket_sat (I := AllWait) (E := AllWait) (h ref c hc)
      (waits_add (h ref c hc) hwaits)).mono (fun _ h' => h.store h') fun _ h' => h.store h'
  | danglingHalfWay => exact h
  | danglingActive => exact h
  | ignored => exact h
  | @answered ref c hsyn hactive hc =>
    rw [Outcome.sat_map]
    have hc' := h ref c hc
    unfold TCPConnectionImpl.processSyncAckPacket
    split
    · exact h.store hc'
    · exact h.store (show AllWait (TCPConnectionImpl.record _ _ _) from hc')
  | @processed ref c hsyn hactive hc =>
    have hc' := h ref c hc
    have hwaits := waits_detect (hwf.deref_active hactive hc) hfresh
    refine Outcome.Sat.andThen (Q := Everywhere AllWait) ?_ ?_
    · rw [Outcome.sat_map]
      exact Outcome.Sat.mono (PacketReceiverImpl.process_leaves (allWait_drain now) hc'
        (fun _ => allWait_deliver now _ hc' 0) fun _ => waits_add hc' hwaits)
        (fun t ht => h.store ht) fun t ht => h.store ht
    · intro r' h' ref' c₀ hc₀
      rw [PacketReceiverImpl.deref_removeIfFinished] at hc₀
      exact h' ref' c₀ hc₀

theorem everywhere_step (hwf : PacketReceiverImpl.WellFormed r) (h : Everywhere AllWait r)
    (call : Call) : Everywhere AllWait (r.step call) := by
  have honStream : ∀ (ref : Ref) (x : Side)
      (f : DynamicByteArrayInputStream → DynamicByteArrayInputStream),
      Everywhere AllWait (r.onStream ref x f) := by
    intro ref x f
    unfold PacketReceiverImpl.onStream
    split
    · exact h
    · rename_i c hc
      exact h.store (h ref c hc)
  cases call with
  | pick now packet => exact (everywhere_pick now rfl hwf h).state
  | poll => exact h
  | read ref x => exact honStream ref x fun s => s.read.left s
  | readInto ref x bLength off len =>
    exact honStream ref x fun s => (s.readInto bLength off len).left s

theorem everywhere_after (filter : ConnectionFilter) (calls : List Call) :
    Everywhere AllWait
      (Run.after PacketReceiverImpl.step (PacketReceiverImpl.create filter) calls) := by
  have hstep : ∀ r call, PacketReceiverImpl.WellFormed r ∧ Everywhere AllWait r →
      PacketReceiverImpl.WellFormed (r.step call) ∧ Everywhere AllWait (r.step call) :=
    fun r call h => ⟨PacketReceiverImpl.step_wellFormed h.1 call, everywhere_step h.1 h.2 call⟩
  have hstart : Everywhere AllWait (PacketReceiverImpl.create filter) := by
    intro ref c hc
    exact absurd hc (by simp [PacketReceiverImpl.create, PacketReceiverImpl.deref])
  have hinv := Run.invariant_always hstep calls ⟨PacketReceiverImpl.wellFormed_create filter, hstart⟩
  exact hinv.2

end Waiting

/-! ## What is thrown -/

/-- Not the exception for a consumed packet. -/
def Fresh (e : Throwable) : Prop := e ≠ alreadyUpdated

theorem fresh_of_isRefusal {e : Throwable} (h : e.isRefusal = true) : Fresh e := by
  intro he
  rw [he] at h
  exact absurd h (by decide)

theorem processDataPacket_fresh (now : Date) (p : TCPPacket) (c : TCPConnectionImpl) :
    (c.processDataPacket now p).Throws Fresh :=
  (TCPConnectionImpl.processDataPacket_throws now p c).mono fun _ h => fresh_of_isRefusal h.1

/-- The message of the handshake begins with another letter. -/
theorem processAckPacket_fresh (p : TCPPacket) (c : TCPConnectionImpl) :
    (c.processAckPacket p).Throws Fresh := by
  unfold TCPConnectionImpl.processAckPacket TCPConnectionImpl.processHandshake3AckPacket
  split
  · exact fresh_of_isRefusal rfl
  · split
    · intro he
      have hmessage := Throwable.runtimeException.inj he
      have hletter := congrArg (fun message : String => message.toList.head?) hmessage
      simp at hletter
    · trivial
  all_goals trivial

/-- The handlers throw what they throw without comparing sequence
numbers. -/
theorem deliver_fresh (now : Date) (p : TCPPacket) (t : Delivery) :
    (Delivery.deliver now p t).Throws Fresh := by
  have hack : ∀ t, (Delivery.acknowledge p t).Throws Fresh := by
    intro t
    unfold Delivery.acknowledge Delivery.apply
    split
    · refine Outcome.Throws.andThen ?_ fun t' => ?_
      · rw [Outcome.throws_map]
        exact processAckPacket_fresh p _
      · split <;> trivial
    · trivial
  unfold Delivery.deliver
  refine (hack _).andThen fun t => Outcome.Throws.andThen ?_ fun t => ?_
  · split
    · unfold Delivery.apply
      rw [Outcome.throws_map]
      exact processDataPacket_fresh now p _
    · trivial
  · trivial

namespace Objects

open Waiting (AllWait)

/-! ## The drain -/

section Drain

variable {now : Date} {o : Objects}

theorem Rests.allWait {o' : Objects} (h : Rests o o') (hwait : AllWait o.value.connection) :
    AllWait o'.value.connection := by
  intro x p hp
  have hp' : p ∈ (o'.buffers.get x).map o'.packets := get_load o'.packets o'.buffers x ▸ hp
  obtain ⟨k, hk, rfl⟩ := List.mem_map.mp hp'
  have hmem : o.packets k ∈ o.value.connection.packetsBuffer.get x :=
    get_load o.packets o.buffers x ▸ List.mem_map_of_mem ((h.shrinks x).subset hk)
  have hwaits := hwait x (o.packets k) hmem
  have hdetail : o'.value.connection.connectionDetail = o.value.connection.connectionDetail := by
    change o'.connection.connectionDetail = o.connection.connectionDetail
    rw [h.connection]
  rw [h.packets, hdetail]
  exact hwaits

/-- The packets that are left wait after the handlers as before. -/
theorem allWait_deliver (now : Date) {k : PacketRef} (hk : ¬ o.Buffered k) (h : AllWait o.value.connection) :
    AllWait (o.deliver now k).state.value.connection := by
  have hsat : (o.value.deliver now (o.packets k)).Leaves AllWait AllWait :=
    Waiting.allWait_deliver now _ h o.value.announced
  rw [← map_deliver now hk] at hsat
  have hstate := Outcome.Sat.state hsat
  rwa [Outcome.state_map] at hstate

/-- The pick-up compares no consumed packet. -/
theorem pickupPacket_returned (h : AllWait o.value.connection) {e : Throwable}
    {picked : Option PacketRef × Objects} : o.pickupPacket ≠ .thrown e picked := by
  intro hpick
  have hends := Waiting.pickupPacket_returns h
  rw [← map_pickupPacket, hpick] at hends
  exact hends

theorem deliver_throws_fresh (now : Date) (k : PacketRef) (o : Objects) :
    (o.deliver now k).Throws Fresh := by
  unfold deliver
  rw [Outcome.throws_map]
  exact deliver_fresh now _ _

/-- The drain never throws the exception for a consumed packet. -/
theorem Drains.fresh {handled : List PacketRef} {out : Outcome Throwable Objects}
    (h : Drains now o handled out) : Distinct o.buffers → AllWait o.value.connection →
      out.Throws Fresh ∧ AllWait out.state.value.connection := by
  -- what is left after one turn waits, for the rest of the drain
  have hturn : ∀ {o o₁ o₂ : Objects} {k : PacketRef}, Distinct o.buffers →
      AllWait o.value.connection → o.pickupPacket = .returned (some k, o₁) →
      o₁.deliver now k = .returned o₂ → Distinct o₂.buffers ∧ AllWait o₂.value.connection := by
    intro o o₁ o₂ k hd hwait hpick hdeliver
    obtain ⟨hrests, htaken⟩ := pickupPacket_found hd hpick
    have hone := uses_one now hrests htaken
    have hafter := allWait_deliver now htaken.gone (hrests.allWait hwait)
    rw [hdeliver] at hone hafter
    exact ⟨hone.shrinks.distinct hd, hafter⟩
  induction h with
  | done hpick =>
    intro hd hwait
    have hspec := pickupPacket_spec hd
    rw [hpick] at hspec
    exact ⟨trivial, hspec.1.allWait hwait⟩
  | compareThrows hpick =>
    intro _ hwait
    exact absurd hpick (pickupPacket_returned hwait)
  | @handlerThrows o o₁ o₂ k e hpick hdeliver =>
    intro hd hwait
    obtain ⟨hrests, htaken⟩ := pickupPacket_found hd hpick
    have hafter := allWait_deliver now htaken.gone (hrests.allWait hwait)
    have hthrows := deliver_throws_fresh now k o₁
    rw [hdeliver] at hafter hthrows
    exact ⟨hthrows, hafter⟩
  | plain hpick hdeliver _ _ ih =>
    intro hd hwait
    obtain ⟨hd₂, hwait₂⟩ := hturn hd hwait hpick hdeliver
    exact ih hd₂ hwait₂
  | finish hpick hdeliver _ hnested _ ihnested ih =>
    intro hd hwait
    obtain ⟨hd₂, hwait₂⟩ := hturn hd hwait hpick hdeliver
    exact ih ((hnested.uses hd₂).shrinks.distinct hd₂) (ihnested hd₂ hwait₂).2
  | finishThrows hpick hdeliver _ _ ihnested =>
    intro hd hwait
    obtain ⟨hd₂, hwait₂⟩ := hturn hd hwait hpick hdeliver
    exact ihnested hd₂ hwait₂

/-- There is one way to go through the buffers. -/
theorem Drains.unique {handled handled' : List PacketRef} {out out' : Outcome Throwable Objects}
    (h : Drains now o handled out) (h' : Drains now o handled' out') :
    handled = handled' ∧ out = out' := by
  induction h generalizing handled' out' with
  | done hpick => cases h' <;> simp_all
  | compareThrows hpick => cases h' <;> simp_all
  | handlerThrows hpick hdeliver => cases h' <;> simp_all
  | plain hpick hdeliver hfin _ ih =>
    cases h' with
    | plain hpick' hdeliver' _ hrest =>
      obtain ⟨rfl, rfl⟩ : _ ∧ _ := by simpa using hpick.symm.trans hpick'
      obtain rfl := Outcome.returned.inj (hdeliver.symm.trans hdeliver')
      obtain ⟨rfl, rfl⟩ := ih hrest
      exact ⟨rfl, rfl⟩
    | _ => simp_all
  | finish hpick hdeliver hfin _ _ ihnested ih =>
    cases h' with
    | finish hpick' hdeliver' _ hnested hrest =>
      obtain ⟨rfl, rfl⟩ : _ ∧ _ := by simpa using hpick.symm.trans hpick'
      obtain rfl := Outcome.returned.inj (hdeliver.symm.trans hdeliver')
      obtain ⟨rfl, hout⟩ := ihnested hnested
      obtain rfl := Outcome.returned.inj hout
      obtain ⟨rfl, rfl⟩ := ih hrest
      exact ⟨rfl, rfl⟩
    | finishThrows hpick' hdeliver' _ hnested =>
      obtain ⟨rfl, rfl⟩ : _ ∧ _ := by simpa using hpick.symm.trans hpick'
      obtain rfl := Outcome.returned.inj (hdeliver.symm.trans hdeliver')
      exact absurd (ihnested hnested).2 (by simp)
    | _ => simp_all
  | finishThrows hpick hdeliver hfin _ ihnested =>
    cases h' with
    | finish hpick' hdeliver' _ hnested =>
      obtain ⟨rfl, rfl⟩ : _ ∧ _ := by simpa using hpick.symm.trans hpick'
      obtain rfl := Outcome.returned.inj (hdeliver.symm.trans hdeliver')
      exact absurd (ihnested hnested).2 (by simp)
    | finishThrows hpick' hdeliver' _ hnested =>
      obtain ⟨rfl, rfl⟩ : _ ∧ _ := by simpa using hpick.symm.trans hpick'
      obtain rfl := Outcome.returned.inj (hdeliver.symm.trans hdeliver')
      obtain ⟨rfl, hout⟩ := ihnested hnested
      obtain ⟨rfl, rfl⟩ : _ ∧ _ := by simpa using hout
      exact ⟨rfl, rfl⟩
    | _ => simp_all

end Drain

/-- From `o` the drain ends with `out` after the calls of `handlePacket` for
`handled`. -/
structure DrainsOnce (now : Date) (o : Objects) (handled : List PacketRef)
    (out : Outcome Throwable Objects) : Prop where
  drains : Drains now o handled out
  unique : ∀ {handled' out'}, Drains now o handled' out' → handled' = handled ∧ out' = out
  nodup : handled.Nodup
  buffered : ∀ k ∈ handled, o.Buffered k ∧ ¬ out.state.Buffered k
  fresh : out.Throws Fresh

/-- Each object stands in the buffers once, and all of them wait. -/
structure Ready (o : Objects) : Prop where
  distinct : Distinct o.buffers
  wait : AllWait o.value.connection

/-- `tryToProcessPacketsInBuffer` from such a connection. -/
theorem Ready.drainsOnce {o : Objects} (h : Ready o) (now : Date) :
    ∃ handled, DrainsOnce now o handled (tryToProcessPacketsInBuffer now o) := by
  obtain ⟨handled, hdrains⟩ := drains_tryToProcessPacketsInBuffer now h.distinct
  have huses := hdrains.uses h.distinct
  exact ⟨handled,
    { drains := hdrains
      unique := fun h' => h'.unique hdrains
      nodup := huses.nodup
      buffered := fun k hk => ⟨huses.buffered k hk, huses.gone k hk⟩
      fresh := (hdrains.fresh h.distinct h.wait).1 }⟩

theorem Ready.tryToProcessPacketsInBuffer_fresh {o : Objects} (h : Ready o) (now : Date) :
    (tryToProcessPacketsInBuffer now o).Throws Fresh := by
  obtain ⟨_, honce⟩ := h.drainsOnce now
  exact honce.fresh

/-! ## Where a `pick` calls the drain -/

/-- `process` calls `tryToProcessPacketsInBuffer` on `o'`: behind a FIN, or
when the packet has been buffered. -/
inductive ProcessDrains (now : Date) (k : PacketRef) (o : Objects) : Objects → Prop
  | finish {o' : Objects} (hcan : o.connection.isCanProcessPacket (o.packets k) = .ok true)
      (hdeliver : o.deliver now k = .returned o') (hfin : (o.packets k).fin = true) :
      ProcessDrains now k o o'
  | buffered {o' : Objects} (hcan : o.connection.isCanProcessPacket (o.packets k) = .ok false)
      (hadd : o.addToTemporaryStoredDataPackets (o.packets k).side k = .returned o') :
      ProcessDrains now k o o'

/-- What `promote` processes the packet on. -/
def primed (k : PacketRef) (o : Objects) : Objects :=
  let other := (o.packets k).side.other
  let packet := o.packets k
  { o with
    connection := { o.connection with
      counter := o.connection.counter.set other
        { o.connection.counter.get other with seq := packet.ackNum, ack := packet.sequence }
      state := some .established }
    announced := 1 }

/-- `promote` calls it when the packet has been processed. -/
inductive PromoteDrains (now : Date) (k : PacketRef) (o : Objects) : Objects → Prop
  | processed {o' : Objects} (hdata : (o.primed k).processDataPacket now k = .returned o') :
      PromoteDrains now k o
        { o' with connection := o'.connection.record (some .established) (o.packets k) }

section Calls

variable {now : Date} {k : PacketRef} {o o' : Objects}

/-- The drain is the last that touches the buffers. -/
theorem ProcessDrains.buffers (h : ProcessDrains now k o o') :
    (o.process now k).state.buffers = (tryToProcessPacketsInBuffer now o').state.buffers := by
  unfold process
  cases h with
  | finish hcan hdeliver hfin =>
    rw [hcan]
    dsimp only
    unfold handlePacket
    rw [hdeliver, Outcome.andThen_returned, hfin, if_pos rfl]
    cases tryToProcessPacketsInBuffer now o' <;> rfl
  | buffered hcan hadd =>
    rw [hcan]
    dsimp only
    rw [hadd, Outcome.andThen_returned]

theorem promote_eq (now : Date) (k : PacketRef) (o : Objects) :
    o.promote now k = ((o.primed k).processDataPacket now k).andThen fun o' =>
      tryToProcessPacketsInBuffer now
        { o' with connection := o'.connection.record (some .established) (o.packets k) } := rfl

theorem PromoteDrains.buffers (h : PromoteDrains now k o o') :
    (o.promote now k).state.buffers = (tryToProcessPacketsInBuffer now o').state.buffers := by
  cases h with
  | processed hdata => rw [promote_eq, hdata, Outcome.andThen_returned]

/-- Only the packet in hand may have come to the buffers by then. -/
theorem ProcessDrains.within (hd : Distinct o.buffers) (hk : ¬ o.Buffered k)
    (h : ProcessDrains now k o o') : Within k o o' := by
  cases h with
  | finish hcan hdeliver hfin =>
    have hwithin := deliver_within now k hd
    rwa [hdeliver] at hwithin
  | buffered hcan hadd =>
    obtain ⟨-, hwithin⟩ := addToTemporaryStoredDataPackets_spec (o.packets k).side hd hk
    rwa [hadd] at hwithin

theorem PromoteDrains.within (hd : Distinct o.buffers) (hk : ¬ o.Buffered k)
    (h : PromoteDrains now k o o') : Within k o o' := by
  cases h with
  | processed hdata =>
    obtain ⟨-, hwithin⟩ := processDataPacket_spec (o := o.primed k) now hd hk
    rw [hdata] at hwithin
    exact ⟨hwithin.distinct, hwithin.buffered, hwithin.kept⟩

theorem Ready.deliver (h : Ready o) (hk : ¬ o.Buffered k) (hdeliver : o.deliver now k = .returned o') :
    Ready o' := by
  have hwithin := deliver_within now k h.distinct
  have hwait := allWait_deliver now hk h.wait
  rw [hdeliver] at hwithin hwait
  exact ⟨hwithin.distinct, hwait⟩

theorem Ready.add (h : Ready o) (hk : ¬ o.Buffered k)
    (hwaits : Waiting.Waits o.connection.connectionDetail (o.packets k).side (o.packets k))
    (hadd : o.addToTemporaryStoredDataPackets (o.packets k).side k = .returned o') : Ready o' := by
  obtain ⟨hvalue, hwithin⟩ := addToTemporaryStoredDataPackets_spec (o.packets k).side h.distinct hk
  rw [hadd] at hvalue hwithin
  refine ⟨hwithin.distinct, ?_⟩
  unfold PacketsBuffer.addToTemporaryStoredDataPackets at hvalue
  split_ifs at hvalue
  · exact absurd hvalue (by simp)
  · rw [Outcome.map_returned, Outcome.map_returned] at hvalue
    rw [Outcome.returned.inj hvalue]
    exact Waiting.waits_add h.wait hwaits

theorem Ready.processDrains (h : Ready o) (hk : ¬ o.Buffered k)
    (hwaits : Waiting.Waits o.connection.connectionDetail (o.packets k).side (o.packets k))
    (hcalls : ProcessDrains now k o o') : Ready o' := by
  cases hcalls with
  | finish hcan hdeliver hfin => exact h.deliver hk hdeliver
  | buffered hcan hadd => exact h.add hk hwaits hadd

theorem Ready.promoteDrains (h : Ready o) (hk : ¬ o.Buffered k)
    (hcalls : PromoteDrains now k o o') : Ready o' := by
  cases hcalls with
  | @processed o' hdata =>
    obtain ⟨hvalue, hwithin⟩ := processDataPacket_spec (o := o.primed k) now h.distinct hk
    have hsat : ((o.primed k).value.apply
        (TCPConnectionImpl.processDataPacket now (o.packets k))).Sat
          (fun t => AllWait t.connection) (fun t => AllWait t.connection) := by
      unfold Delivery.apply
      rw [Outcome.sat_map]
      exact Waiting.allWait_processDataPacket now _ h.wait
    rw [show (o.primed k).packets k = o.packets k from rfl] at hvalue
    rw [← hvalue, hdata] at hsat
    rw [hdata] at hwithin
    exact ⟨hwithin.distinct, hsat⟩

theorem process_fresh (h : Ready o) (hk : ¬ o.Buffered k)
    (hwaits : Waiting.Waits o.connection.connectionDetail (o.packets k).side (o.packets k)) :
    (o.process now k).Throws Fresh := by
  unfold process
  cases hcan : o.connection.isCanProcessPacket (o.packets k) with
  | error e =>
    rw [hwaits.isCanProcessPacket_eq] at hcan
    exact absurd hcan (by simp)
  | ok can =>
    cases can with
    | true =>
      dsimp only
      unfold handlePacket
      have hthrows := deliver_throws_fresh now k o
      cases hdeliver : o.deliver now k with
      | thrown e o' =>
        rw [hdeliver] at hthrows
        exact hthrows
      | returned o' =>
        rw [Outcome.andThen_returned]
        refine Outcome.Throws.andThen ?_ fun _ => trivial
        split
        · rename_i hfin
          exact (h.deliver hk hdeliver).tryToProcessPacketsInBuffer_fresh now
        · trivial
    | false =>
      dsimp only
      cases hadd : o.addToTemporaryStoredDataPackets (o.packets k).side k with
      | thrown e o' =>
        unfold addToTemporaryStoredDataPackets at hadd
        split_ifs at hadd
        obtain ⟨rfl, -⟩ : _ ∧ _ := by simpa using hadd
        exact fun he => absurd he (by simp [alreadyUpdated])
      | returned o' =>
        exact (h.add hk hwaits hadd).tryToProcessPacketsInBuffer_fresh now

theorem promote_fresh (h : Ready o) (hk : ¬ o.Buffered k) : (o.promote now k).Throws Fresh := by
  obtain ⟨hvalue, -⟩ := processDataPacket_spec (o := o.primed k) now h.distinct hk
  have hthrows : ((o.primed k).value.apply
      (TCPConnectionImpl.processDataPacket now (o.packets k))).Throws Fresh := by
    unfold Delivery.apply
    rw [Outcome.throws_map]
    exact processDataPacket_fresh now _ _
  rw [show (o.primed k).packets k = o.packets k from rfl] at hvalue
  rw [← hvalue, Outcome.throws_map] at hthrows
  rw [promote_eq]
  cases hdata : (o.primed k).processDataPacket now k with
  | thrown e o' =>
    rw [hdata] at hthrows
    exact hthrows
  | returned o' =>
    exact (h.promoteDrains hk (.processed hdata)).tryToProcessPacketsInBuffer_fresh now

end Calls

end Objects

namespace ObjectReceiver

open PacketReceiverImpl (isIgnored completesExchange)
open Objects (Ready)

/-- `pick` calls `tryToProcessPacketsInBuffer` on `o`, the connection behind
`ref` with its buffers. -/
inductive CallsDrain (now : Date) (k : PacketRef) (w : ObjectReceiver) : Ref → Objects → Prop
  | process {ref : Ref} {c : TCPConnectionImpl} {o : Objects}
      (hsyn : (w.packets k).isHandsShake1Packet = false)
      (hactive : w.receiver.activeConnections.get (w.packets k).connectionDetail = some ref)
      (hc : w.receiver.deref ref = some c)
      (hignored : isIgnored ((w.packets k).detectPacketFlowDirection c.connectionDetail) c = false)
      (hsynAck : (w.packets k).isHandsShake2Packet = false)
      (hcalls : Objects.ProcessDrains now k ((w.detect k c.connectionDetail).objects ref c) o) :
      CallsDrain now k w ref o
  | promote {ref : Ref} {c : TCPConnectionImpl} {o : Objects}
      (hsyn : (w.packets k).isHandsShake1Packet = false)
      (hactive : w.receiver.activeConnections.get (w.packets k).connectionDetail = none)
      (hdata : (w.packets k).isContainsData = true)
      (hhalf : w.receiver.halfWayConnections.get (w.packets k).connectionDetail = some ref)
      (hc : w.receiver.deref ref = some c)
      (hdone : completesExchange ((w.packets k).detectPacketFlowDirection c.connectionDetail)
        ((w.detect k c.connectionDetail).loaded ref c) = true)
      (hcalls : Objects.PromoteDrains now k ((w.detect k c.connectionDetail).objects ref c) o) :
      CallsDrain now k w ref o

/-- The invariant of a run. -/
structure Settled (w : ObjectReceiver) : Prop where
  separate : Separate w
  wellFormed : PacketReceiverImpl.WellFormed w.value
  wait : Waiting.Everywhere Waiting.AllWait w.value

section Settled

variable {now : Date} {w : ObjectReceiver} {k : PacketRef} {ref : Ref} {c : TCPConnectionImpl}

theorem Settled.ready (h : Settled w) (hc : w.receiver.deref ref = some c) :
    Ready (w.objects ref c) := by
  refine ⟨h.separate.distinct ref, h.wait ref (w.loaded ref c) ?_⟩
  rw [deref_value, hc]
  rfl

/-- A new object in hand: no counter has consumed it. -/
structure NewInHand (w : ObjectReceiver) (k : PacketRef) : Prop extends InHand w k where
  settled : Settled w
  unconsumed : (w.packets k).consumed = false

/-- The packet in hand, when its direction has been detected. -/
theorem NewInHand.detected (h : NewInHand w k) (hc : w.receiver.deref ref = some c)
    (hkey : (c.connectionDetail == (w.packets k).connectionDetail) = true) :
    Ready ((w.detect k c.connectionDetail).objects ref c) ∧
      ¬ ((w.detect k c.connectionDetail).objects ref c).Buffered k ∧
      Waiting.Waits c.connectionDetail ((w.detect k c.connectionDetail).packets k).side
        ((w.detect k c.connectionDetail).packets k) := by
  have hpacket : (w.detect k c.connectionDetail).packets k =
      (w.packets k).detectPacketFlowDirection c.connectionDetail := Function.update_self ..
  refine ⟨⟨h.separate.distinct ref, ?_⟩, h.fresh ref, ?_⟩
  · have hloaded := loaded_assign h.fresh
      ((w.packets k).detectPacketFlowDirection c.connectionDetail) ref c
    change Waiting.AllWait ((w.detect k c.connectionDetail).loaded ref c)
    rw [show (w.detect k c.connectionDetail).loaded ref c = w.loaded ref c from hloaded]
    exact (h.settled.ready hc).wait
  · rw [hpacket]
    exact Waiting.waits_detect hkey h.unconsumed

theorem NewInHand.active (h : NewInHand w k)
    (hactive : w.receiver.activeConnections.get (w.packets k).connectionDetail = some ref)
    (hc : w.receiver.deref ref = some c) :
    (c.connectionDetail == (w.packets k).connectionDetail) = true := by
  have hderef := deref_value w ref
  rw [hc] at hderef
  exact h.settled.wellFormed.deref_active (c := w.loaded ref c) hactive hderef

theorem NewInHand.halfWay (h : NewInHand w k)
    (hhalf : w.receiver.halfWayConnections.get (w.packets k).connectionDetail = some ref)
    (hc : w.receiver.deref ref = some c) :
    (c.connectionDetail == (w.packets k).connectionDetail) = true := by
  have hderef := deref_value w ref
  rw [hc] at hderef
  exact h.settled.wellFormed.deref_halfWay (c := w.loaded ref c) hhalf hderef

/-- Wherever a `pick` calls the drain, it ends. -/
theorem NewInHand.callsDrain (h : NewInHand w k) {o : Objects} (hcalls : CallsDrain now k w ref o) :
    Ready o := by
  cases hcalls with
  | process hsyn hactive hc hignored hsynAck hcalls =>
    obtain ⟨hready, hnot, hwaits⟩ := h.detected hc (h.active hactive hc)
    exact hready.processDrains hnot hwaits hcalls
  | promote hsyn hactive hdata hhalf hc hdone hcalls =>
    obtain ⟨hready, hnot, -⟩ := h.detected hc (h.halfWay hhalf hc)
    exact hready.promoteDrains hnot hcalls

/-- What the drain leaves is what the `pick` leaves. -/
theorem CallsDrain.buffers {o : Objects} (h : CallsDrain now k w ref o) :
    (w.pick now k).state.buffers =
      Function.update w.buffers ref (Objects.tryToProcessPacketsInBuffer now o).state.buffers := by
  unfold pick
  cases h with
  | @process c _ hsyn hactive hc hignored hsynAck hcalls =>
    rw [hsyn, if_neg Bool.false_ne_true, hactive]
    dsimp only
    rw [hc]
    dsimp only
    rw [pickActive_processed now ref hignored]
    have hsame : ((w.detect k c.connectionDetail).packets k).isHandsShake2Packet = false :=
      isHandsShake2Packet_detect w k c.connectionDetail ▸ hsynAck
    dsimp only
    rw [hsame, if_neg Bool.false_ne_true, ← hcalls.buffers]
    cases ((w.detect k c.connectionDetail).objects ref c).process now k <;> rfl
  | @promote c _ hsyn hactive hdata hhalf hc hdone hcalls =>
    have hpacket : (w.detect k c.connectionDetail).packets k =
        (w.packets k).detectPacketFlowDirection c.connectionDetail := Function.update_self ..
    rw [hsyn, if_neg Bool.false_ne_true, hactive]
    dsimp only
    unfold handleHalfWayConnectionPackets
    rw [hdata, Bool.not_true, if_neg Bool.false_ne_true]
    dsimp only
    rw [hhalf]
    dsimp only
    rw [hc]
    dsimp only
    rw [hpacket, hdone, if_pos rfl, ← hcalls.buffers]
    cases ((w.detect k c.connectionDetail).objects ref c).promote now k <;> rfl

/-- An object that the drain has used is in no buffer after the `pick`. -/
theorem NewInHand.gone (h : NewInHand w k) {o : Objects} (hcalls : CallsDrain now k w ref o)
    {handled : List PacketRef} {out : Outcome Throwable Objects}
    (honce : Objects.DrainsOnce now o handled out) {j : PacketRef} (hj : j ∈ handled) :
    j < w.created ∧ ∀ ref', ¬ (w.pick now k).state.InBuffer ref' j := by
  obtain ⟨hbuffered, hgone⟩ := honce.buffered j hj
  have hwithin : o.Buffered j → w.InBuffer ref j ∨ j = k := by
    cases hcalls with
    | process hsyn hactive hc hignored hsynAck hcalls =>
      obtain ⟨hready, hnot, -⟩ := h.detected hc (h.active hactive hc)
      exact (hcalls.within hready.distinct hnot).buffered j
    | promote hsyn hactive hdata hhalf hc hdone hcalls =>
      obtain ⟨hready, hnot, -⟩ := h.detected hc (h.halfWay hhalf hc)
      exact (hcalls.within hready.distinct hnot).buffered j
  have hout : Objects.tryToProcessPacketsInBuffer now o = out := by
    obtain ⟨_, hfunction⟩ := (h.callsDrain hcalls).drainsOnce now
    exact (honce.unique hfunction.drains).2
  constructor
  · rcases hwithin hbuffered with hold | rfl
    · exact h.separate.created hold
    · exact h.created
  · rintro ref' ⟨x, hx⟩
    rw [hcalls.buffers, hout] at hx
    by_cases href : ref' = ref
    · rw [href, Function.update_self] at hx
      exact hgone ⟨x, hx⟩
    · rw [Function.update_of_ne href] at hx
      rcases hwithin hbuffered with hold | rfl
      · exact h.separate.apart href ⟨x, hx⟩ hold
      · exact h.fresh ref' ⟨x, hx⟩

theorem pickActive_fresh (now : Date) (h : NewInHand w k)
    (hactive : w.receiver.activeConnections.get (w.packets k).connectionDetail = some ref)
    (hc : w.receiver.deref ref = some c) : (w.pickActive now ref k c).Throws Fresh := by
  obtain ⟨hready, hnot, hwaits⟩ := h.detected hc (h.active hactive hc)
  cases hignored : isIgnored ((w.packets k).detectPacketFlowDirection c.connectionDetail) c with
  | true =>
    rw [pickActive_ignored now ref hignored]
    trivial
  | false =>
    rw [pickActive_processed now ref hignored]
    dsimp only
    split
    · unfold TCPConnectionImpl.processSyncAckPacket
      split_ifs
      · exact fun he => absurd he (by simp [alreadyUpdated])
      · trivial
    · refine Outcome.Throws.andThen ?_ fun _ => trivial
      rw [Outcome.throws_map]
      exact Objects.process_fresh hready hnot hwaits

theorem handleHalfWayConnectionPackets_fresh (now : Date) (h : NewInHand w k) :
    (w.handleHalfWayConnectionPackets now k).Throws Fresh := by
  unfold handleHalfWayConnectionPackets
  dsimp only
  split
  · trivial
  · split
    · trivial
    · rename_i ref hhalf
      split
      · exact fresh_of_isRefusal rfl
      · rename_i c hc
        obtain ⟨hready, hnot, -⟩ := h.detected hc (h.halfWay hhalf hc)
        split
        · rw [Outcome.throws_map]
          exact Objects.promote_fresh hready hnot
        · rw [Outcome.throws_map]
          unfold Objects.addToTemporaryStoredDataPackets
          split
          · exact fun he => absurd he (by simp [alreadyUpdated])
          · trivial

theorem pick_fresh (now : Date) (h : NewInHand w k) : (w.pick now k).Throws Fresh := by
  unfold pick
  split
  · trivial
  · split
    · exact handleHalfWayConnectionPackets_fresh now h
    · rename_i ref hactive
      split
      · exact fresh_of_isRefusal rfl
      · rename_i c hc
        exact pickActive_fresh now h hactive hc

/-- A new packet object. -/
theorem Settled.newInHand (h : Settled w) (packet : JpcapPacket) :
    NewInHand (w.newPacket packet) w.created := by
  have hin := inHand_newPacket h.separate packet
  refine ⟨hin, ⟨hin.separate, ?_, ?_⟩, ?_⟩
  · rw [value_newPacket h.separate]
    exact h.wellFormed
  · rw [value_newPacket h.separate]
    exact h.wait
  · rw [packets_newPacket]
    rfl

end Settled

theorem settled_after (filter : ConnectionFilter) (calls : List Call) :
    Settled (Run.after step (create filter) calls) := by
  refine ⟨separate_after filter calls, ?_, ?_⟩
  · rw [value_after]
    exact (Waiting.sound_of_run filter calls).wellFormed
  · rw [value_after]
    exact Waiting.everywhere_after filter calls

/-- Every drain ends, uses an object once, and compares none that is
consumed; a packet in a buffer is unconsumed and on its side. -/
structure UsesOnce (w : ObjectReceiver) : Prop where
  waiting : ∀ ref c, w.receiver.deref ref = some c → ∀ x, ∀ k ∈ (w.buffers ref).get x,
    (w.packets k).consumed = false ∧ ((w.packets k).isSentByClient = true ↔ x = .client)
  drain : ∀ now ref c, w.receiver.deref ref = some c →
    ∃ handled out, Objects.DrainsOnce now (w.objects ref c) handled out
  calls : ∀ now packet ref o, CallsDrain now w.created (w.newPacket packet) ref o →
    ∃ handled out, Objects.DrainsOnce now o handled out ∧
      ∀ k ∈ handled, ∀ calls ref,
        ¬ (Run.after step (w.step (.pick now packet)) calls).InBuffer ref k
  fresh : ∀ now packet, (w.receivePacket now packet).Throws Fresh

/-- In every run the drain uses each packet once. -/
theorem drain_usedOnce (filter : ConnectionFilter) (calls : List Call) :
    UsesOnce (Run.after step (create filter) calls) := by
  have hsettled := settled_after filter calls
  refine ⟨?_, ?_, ?_, ?_⟩
  · intro ref c hc x k hk
    have hready := hsettled.ready hc
    have hmem : (Run.after step (create filter) calls).packets k ∈
        ((Run.after step (create filter) calls).objects ref c).value.connection.packetsBuffer.get
          x := Objects.get_load _ _ x ▸ List.mem_map_of_mem hk
    have hwaits := hready.wait x _ hmem
    refine ⟨hwaits.fresh, ?_⟩
    rw [← hwaits.side]
    unfold TCPPacket.side
    cases ((Run.after step (create filter) calls).packets k).isSentByClient <;> simp
  · intro now ref c hc
    obtain ⟨handled, honce⟩ := (hsettled.ready hc).drainsOnce now
    exact ⟨handled, _, honce⟩
  · intro now packet ref o hcalls
    have hnew := hsettled.newInHand packet
    obtain ⟨handled, honce⟩ := (hnew.callsDrain hcalls).drainsOnce now
    refine ⟨handled, _, honce, ?_⟩
    intro k hk calls' ref'
    have hkeeps := (pick_spec now hnew.toInHand).keeps
    obtain ⟨hlt, hgone⟩ := hnew.gone hcalls honce hk
    exact gone_after hkeeps.separate (hkeeps.created ▸ hlt) hgone calls' ref'
  · exact fun now packet => pick_fresh now (hsettled.newInHand packet)

end ObjectReceiver

end ConnectionSniffer
