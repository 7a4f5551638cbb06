import ConnectionSniffer.Receiver.Drain
import Mathlib.Logic.Function.Basic

/-!
# Packets are objects

In the source a buffer holds references to packet objects, and a handler
marks the object consumed through the reference it was given.  An object that
is consumed must not be compared with a counter again: `isMatchClientSeq` and
`isMatchServerSeq` throw a `RuntimeException` if it is.

`Objects` is a connection whose buffers hold references into a heap of packet
objects, and its methods are those of the source on references; what a
handler does to the connection is the same as for `Delivery`.  `value` reads
the packets behind the references, so that the buffers hold packets again.

`Drains` is the recursion of `tryToProcessPacketsInBuffer` and `handlePacket`
as the source has it, without a bound: it relates a connection to the
references that `handlePacket` was called with and to the outcome.  As long
as no object stands in the buffers twice (`Distinct`), the drain ends
(`drains_drain`), uses every object at most once (`Uses`) and does to the
values what `Delivery.tryToProcessPacketsInBuffer` does (`Drains.value_eq`).
-/

namespace ConnectionSniffer

/-- A reference to a packet object. -/
abbrev PacketRef := Nat

/-- A connection during a `pick`, with the heap of packet objects.  The
buffers are `buffers`; the field `packetsBuffer` of the connection has no
meaning. -/
structure Objects where
  packets : PacketRef → TCPPacket
  connection : TCPConnectionImpl
  buffers : BySide (List PacketRef)
  announced : Nat := 0

namespace Objects

/-- The packets behind the references. -/
def load (packets : PacketRef → TCPPacket) (buffers : BySide (List PacketRef)) : PacketsBuffer :=
  ⟨buffers.client.map packets, buffers.server.map packets⟩

/-- The connection with the packets themselves in its buffers. -/
def value (o : Objects) : Delivery :=
  ⟨{ o.connection with packetsBuffer := load o.packets o.buffers }, o.announced⟩

/-- Whether `deliver` calls `updateCounter` for the packet: RST, an ACK that
changes the state, a payload that was appended, FIN. -/
def consumes (now : Date) (packet : TCPPacket) (t : Delivery) : Bool :=
  let t₁ := if packet.rst then t.update (TCPConnectionImpl.processRstPacket now packet) else t
  packet.rst ||
    match Delivery.acknowledge packet t₁ with
    | .thrown _ _ => false
    | .returned t₂ =>
      packet.ack && (t₁.connection.state = some .synReceived ||
          t₁.connection.state = some .finishWait1 || t₁.connection.state = some .lastAck) ||
        if packet.isContainsData then
          (t₂.apply (TCPConnectionImpl.processDataPacket now packet)).isReturned
        else packet.fin

/-- `handlePacket` up to the drain. -/
def deliver (now : Date) (k : PacketRef) (o : Objects) : Outcome Throwable Objects :=
  (o.value.deliver now (o.packets k)).map fun t =>
    { o with
      packets := Function.update o.packets k
        (if consumes now (o.packets k) o.value then (o.packets k).consumedPacket
          else o.packets k)
      connection := t.connection
      announced := t.announced }

/-- `connection.updated()`. -/
def updated (now : Date) (o : Objects) : Objects :=
  { o with connection := o.connection.updated now }

/-- `pickupCSBuffer` and `pickupSCBuffer`. -/
def pickupBuffer (packets : PacketRef → TCPPacket) (c : TCPConnectionImpl) :
    List PacketRef → Outcome Throwable (Option PacketRef × List PacketRef)
  | [] => .returned (none, [])
  | k :: rest =>
    match c.isCanProcessPacket (packets k) with
    | .error e => .thrown e (none, k :: rest)
    | .ok true => .returned (some k, rest)
    | .ok false =>
      if c.isOldPacket (packets k) then pickupBuffer packets c rest
      else .returned (none, k :: rest)

def pickupFrom (o : Objects) (x : Side) : Outcome Throwable (Option PacketRef × Objects) :=
  (pickupBuffer o.packets o.value.connection (o.buffers.get x)).map fun picked =>
    (picked.1, { o with buffers := o.buffers.set x picked.2 })

/-- `pickupPacket`. -/
def pickupPacket (o : Objects) : Outcome Throwable (Option PacketRef × Objects) :=
  (o.pickupFrom .client).andThen fun picked =>
    match picked.1 with
    | some k => .returned (some k, picked.2)
    | none => picked.2.pickupFrom .server

/-- `tryToProcessPacketsInBuffer`, the objects that it calls `handlePacket`
with, in the order of the calls, and how it ends. -/
inductive Drains (now : Date) : Objects → List PacketRef → Outcome Throwable Objects → Prop
  | done {o o' : Objects} (hpick : o.pickupPacket = .returned (none, o')) :
      Drains now o [] (.returned o')
  | compareThrows {o o' : Objects} {e : Throwable} {picked : Option PacketRef}
      (hpick : o.pickupPacket = .thrown e (picked, o')) : Drains now o [] (.thrown e o')
  | handlerThrows {o o₁ o₂ : Objects} {k : PacketRef} {e : Throwable}
      (hpick : o.pickupPacket = .returned (some k, o₁))
      (hdeliver : o₁.deliver now k = .thrown e o₂) : Drains now o [k] (.thrown e o₂)
  | plain {o o₁ o₂ : Objects} {k : PacketRef} {handled : List PacketRef}
      {out : Outcome Throwable Objects} (hpick : o.pickupPacket = .returned (some k, o₁))
      (hdeliver : o₁.deliver now k = .returned o₂) (hfin : (o₁.packets k).fin = false)
      (hrest : Drains now (o₂.updated now) handled out) : Drains now o (k :: handled) out
  | finish {o o₁ o₂ o₃ : Objects} {k : PacketRef} {nested handled : List PacketRef}
      {out : Outcome Throwable Objects} (hpick : o.pickupPacket = .returned (some k, o₁))
      (hdeliver : o₁.deliver now k = .returned o₂) (hfin : (o₁.packets k).fin = true)
      (hnested : Drains now o₂ nested (.returned o₃))
      (hrest : Drains now (o₃.updated now) handled out) :
      Drains now o (k :: nested ++ handled) out
  | finishThrows {o o₁ o₂ o₃ : Objects} {k : PacketRef} {nested : List PacketRef} {e : Throwable}
      (hpick : o.pickupPacket = .returned (some k, o₁))
      (hdeliver : o₁.deliver now k = .returned o₂) (hfin : (o₁.packets k).fin = true)
      (hnested : Drains now o₂ nested (.thrown e o₃)) :
      Drains now o (k :: nested) (.thrown e o₃)

/-- `handlePacket`, given what a FIN calls to drain the buffers. -/
def handlePacket (now : Date) (drain : Objects → Outcome Throwable Objects) (k : PacketRef)
    (o : Objects) : Outcome Throwable Objects :=
  (o.deliver now k).andThen fun o' =>
  (if (o.packets k).fin then drain o' else .returned o').andThen fun o' =>
  .returned (o'.updated now)

/-- The drain with a bound on the number of objects it takes out. -/
def drain (now : Date) : Nat → Objects → Outcome Throwable Objects
  | 0, o => .returned o
  | bound + 1, o =>
    match o.pickupPacket with
    | .thrown e (_, o') => .thrown e o'
    | .returned (none, o') => .returned o'
    | .returned (some k, o') => (handlePacket now (drain now bound) k o').andThen (drain now bound)

/-- The number of buffered objects. -/
def count (o : Objects) : Nat := o.buffers.client.length + o.buffers.server.length

/-- `tryToProcessPacketsInBuffer` as a function. -/
def tryToProcessPacketsInBuffer (now : Date) (o : Objects) : Outcome Throwable Objects :=
  drain now (o.count + 1) o

/-! ## Buffers of references -/

/-- The object is in a buffer. -/
def Buffered (o : Objects) (k : PacketRef) : Prop := ∃ x, k ∈ o.buffers.get x

/-- No object stands in the buffers twice. -/
structure Distinct (buffers : BySide (List PacketRef)) : Prop where
  nodup : ∀ x, (buffers.get x).Nodup
  apart : ∀ x, ∀ k ∈ buffers.get x, k ∉ buffers.get x.other

/-- Buffers that hold no more than before. -/
def Shrinks (o o' : Objects) : Prop :=
  ∀ x, (o'.buffers.get x).Sublist (o.buffers.get x)

theorem Shrinks.trans {o o' o'' : Objects} (h : Shrinks o o') (h' : Shrinks o' o'') :
    Shrinks o o'' := fun x => (h' x).trans (h x)

theorem Shrinks.buffered {o o' : Objects} (h : Shrinks o o') {k : PacketRef}
    (hk : o'.Buffered k) : o.Buffered k := by
  obtain ⟨x, hx⟩ := hk
  exact ⟨x, (h x).subset hx⟩

theorem Shrinks.distinct {o o' : Objects} (h : Shrinks o o') (hd : Distinct o.buffers) :
    Distinct o'.buffers :=
  ⟨fun x => (hd.nodup x).sublist (h x), fun x k hk hother =>
    hd.apart x k ((h x).subset hk) ((h x.other).subset hother)⟩

theorem Shrinks.count_le {o o' : Objects} (h : Shrinks o o') : o'.count ≤ o.count :=
  Nat.add_le_add (h .client).length_le (h .server).length_le

theorem get_load (packets : PacketRef → TCPPacket) (buffers : BySide (List PacketRef)) (x : Side) :
    (load packets buffers).get x = (buffers.get x).map packets := by
  cases x <;> rfl

theorem load_set (packets : PacketRef → TCPPacket) (buffers : BySide (List PacketRef)) (x : Side)
    (refs : List PacketRef) :
    load packets (buffers.set x refs) = (load packets buffers).set x (refs.map packets) := by
  cases x <;> rfl

/-- Only the objects in the buffers matter for the packets in the buffers. -/
theorem load_congr {packets packets' : PacketRef → TCPPacket} {buffers : BySide (List PacketRef)}
    (h : ∀ x, ∀ k ∈ buffers.get x, packets k = packets' k) :
    load packets buffers = load packets' buffers :=
  BySide.ext (List.map_congr_left (h .client)) (List.map_congr_left (h .server))

/-! ## Picking up -/

/-- What is picked up is taken out of the buffer; packets in front of it are
dropped. -/
theorem pickupBuffer_spec (packets : PacketRef → TCPPacket) (c : TCPConnectionImpl)
    (refs : List PacketRef) :
    (pickupBuffer packets c refs).Sat
      (fun picked => picked.2.Sublist refs ∧
        ∀ k, picked.1 = some k → (k :: picked.2).Sublist refs)
      (fun picked => picked.2.Sublist refs) := by
  induction refs with
  | nil => exact ⟨List.Sublist.refl _, by simp⟩
  | cons k rest ih =>
    unfold pickupBuffer
    split
    · exact List.Sublist.refl _
    · refine ⟨List.sublist_cons_self k rest, ?_⟩
      intro j hj
      obtain rfl := Option.some.inj hj
      exact List.Sublist.refl _
    · split
      · refine ih.mono ?_ ?_
        · rintro picked ⟨hrest, htaken⟩
          exact ⟨hrest.cons k, fun j hj => (htaken j hj).cons k⟩
        · intro picked hrest
          exact hrest.cons k
      · exact ⟨List.Sublist.refl _, by simp⟩

/-- Reading the packets commutes with picking one up. -/
theorem map_pickupBuffer (packets : PacketRef → TCPPacket) (c : TCPConnectionImpl)
    (refs : List PacketRef) :
    (pickupBuffer packets c refs).map (fun picked => (picked.1.map packets, picked.2.map packets)) =
      c.pickupBuffer (refs.map packets) := by
  induction refs with
  | nil => rfl
  | cons k rest ih =>
    rw [List.map_cons]
    unfold pickupBuffer TCPConnectionImpl.pickupBuffer
    cases c.isCanProcessPacket (packets k) with
    | error e => rfl
    | ok can =>
      cases can with
      | true => rfl
      | false =>
        dsimp only
        split_ifs
        · exact ih
        · rfl

/-- What a pick-up leaves, whether or not it finds a packet. -/
structure Rests (o o' : Objects) : Prop where
  shrinks : Shrinks o o'
  packets : o'.packets = o.packets
  connection : o'.connection = o.connection
  announced : o'.announced = o.announced

theorem Rests.trans {o o' o'' : Objects} (h : Rests o o') (h' : Rests o' o'') : Rests o o'' :=
  ⟨h.shrinks.trans h'.shrinks, h'.packets.trans h.packets, h'.connection.trans h.connection,
    h'.announced.trans h.announced⟩

/-- The object that was found. -/
structure Taken (o : Objects) (k : PacketRef) (o' : Objects) : Prop where
  buffered : o.Buffered k
  gone : ¬ o'.Buffered k
  count_lt : o'.count < o.count

theorem pickupFrom_spec {o : Objects} (hd : Distinct o.buffers) (x : Side) :
    (o.pickupFrom x).Sat
      (fun picked => Rests o picked.2 ∧ ∀ k, picked.1 = some k → Taken o k picked.2)
      (fun picked => Rests o picked.2) := by
  have hrests : ∀ refs : List PacketRef, refs.Sublist (o.buffers.get x) →
      Rests o { o with buffers := o.buffers.set x refs } := by
    intro refs hrefs
    refine ⟨BySide.forall_side x ?_ ?_, rfl, rfl, rfl⟩
    · change ((o.buffers.set x refs).get x).Sublist _
      rw [BySide.get_set]
      exact hrefs
    · change ((o.buffers.set x refs).get x.other).Sublist _
      rw [BySide.get_other_set]
  unfold pickupFrom
  rw [Outcome.sat_map]
  refine (pickupBuffer_spec o.packets o.value.connection (o.buffers.get x)).mono ?_ ?_
  · rintro ⟨picked, refs⟩ ⟨hrest, htaken⟩
    refine ⟨hrests refs hrest, ?_⟩
    intro k hk
    have hcons : (k :: refs).Sublist (o.buffers.get x) := htaken k hk
    have hmem : k ∈ o.buffers.get x := hcons.subset List.mem_cons_self
    have hnot : k ∉ refs := (List.nodup_cons.mp ((hd.nodup x).sublist hcons)).1
    refine ⟨⟨x, hmem⟩, ?_, ?_⟩
    · rintro ⟨y, hy⟩
      rcases Side.eq_or_eq_other x y with rfl | rfl
      · rw [BySide.get_set] at hy
        exact hnot hy
      · rw [BySide.get_other_set] at hy
        exact hd.apart x k hmem hy
    · have hlen := hcons.length_le
      rw [List.length_cons] at hlen
      unfold count
      cases x with
      | client =>
        rw [BySide.get_client] at hlen
        exact Nat.add_lt_add_right (show refs.length < o.buffers.client.length by omega) _
      | server =>
        rw [BySide.get_server] at hlen
        exact Nat.add_lt_add_left (show refs.length < o.buffers.server.length by omega) _
  · rintro ⟨picked, refs⟩ hrest
    exact hrests refs hrest

theorem Rests.taken {o o₁ o₂ : Objects} (h : Rests o o₁) {k : PacketRef} (hk : Taken o₁ k o₂) :
    Taken o k o₂ :=
  ⟨h.shrinks.buffered hk.buffered, hk.gone, Nat.lt_of_lt_of_le hk.count_lt h.shrinks.count_le⟩

theorem pickupPacket_spec {o : Objects} (hd : Distinct o.buffers) :
    o.pickupPacket.Sat
      (fun picked => Rests o picked.2 ∧ ∀ k, picked.1 = some k → Taken o k picked.2)
      (fun picked => Rests o picked.2) := by
  unfold pickupPacket
  refine (pickupFrom_spec hd .client).andThen ?_
  rintro ⟨picked, o₁⟩ ⟨hrests, htaken⟩
  cases picked with
  | some k => exact ⟨hrests, htaken⟩
  | none =>
    refine (pickupFrom_spec (hrests.shrinks.distinct hd) .server).mono ?_ ?_
    · rintro picked ⟨hrests', htaken'⟩
      exact ⟨hrests.trans hrests', fun k hk => hrests.taken (htaken' k hk)⟩
    · intro picked hrests'
      exact hrests.trans hrests'

/-- Picking up the packet behind the reference. -/
theorem map_pickupFrom (o : Objects) (x : Side) :
    (o.pickupFrom x).map (fun picked => (picked.1.map o.packets, picked.2.value.connection)) =
      o.value.connection.pickupFrom x := by
  have hget : o.value.connection.packetsBuffer.get x = (o.buffers.get x).map o.packets :=
    get_load o.packets o.buffers x
  unfold pickupFrom TCPConnectionImpl.pickupFrom
  rw [hget, ← map_pickupBuffer]
  have hset : ∀ refs : List PacketRef,
      ({ o with buffers := o.buffers.set x refs } : Objects).value.connection =
        o.value.connection.setBuffer x (refs.map o.packets) := by
    intro refs
    unfold value TCPConnectionImpl.setBuffer
    dsimp only
    rw [load_set]
  cases pickupBuffer o.packets o.value.connection (o.buffers.get x) with
  | returned picked => simp only [Outcome.map_returned, hset]
  | thrown e picked => simp only [Outcome.map_thrown, hset]

theorem packets_pickupFrom (o : Objects) (x : Side) :
    (o.pickupFrom x).state.2.packets = o.packets := by
  unfold pickupFrom
  rw [Outcome.state_map]

theorem map_pickupPacket (o : Objects) :
    o.pickupPacket.map (fun picked => (picked.1.map o.packets, picked.2.value.connection)) =
      o.value.connection.pickupPacket := by
  have hfirst := map_pickupFrom o .client
  have hsame := packets_pickupFrom o .client
  unfold pickupPacket TCPConnectionImpl.pickupPacket
  rw [← hfirst]
  cases hp : o.pickupFrom .client with
  | thrown e picked => rfl
  | returned picked =>
    rw [hp] at hsame
    obtain ⟨found, o₁⟩ := picked
    rw [Outcome.map_returned, Outcome.andThen_returned, Outcome.andThen_returned]
    cases found with
    | some k => rfl
    | none =>
      have hsecond := map_pickupFrom o₁ .server
      rw [show o₁.packets = o.packets from hsame] at hsecond
      exact hsecond

/-! ## Handling an object -/

/-- Only the mark of the object in hand changes. -/
theorem packets_deliver {now : Date} {k : PacketRef} {o : Objects} {j : PacketRef} (hne : j ≠ k) :
    (o.deliver now k).state.packets j = o.packets j := by
  unfold deliver
  rw [Outcome.state_map]
  exact Function.update_of_ne hne _ _

theorem buffers_deliver (now : Date) (k : PacketRef) (o : Objects) :
    (o.deliver now k).state.buffers = o.buffers := by
  unfold deliver
  rw [Outcome.state_map]

/-- The mark is not seen from the buffers, because the object in hand is in
none of them. -/
theorem map_deliver (now : Date) {k : PacketRef} {o : Objects} (hk : ¬ o.Buffered k) :
    (o.deliver now k).map value = o.value.deliver now (o.packets k) := by
  have hframe := Delivery.deliver_frame now (o.packets k) o.value.connection o.value.announced
  have hload : ∀ p : TCPPacket, load (Function.update o.packets k p) o.buffers =
      load o.packets o.buffers := by
    intro p
    refine load_congr ?_
    intro x j hj
    refine Function.update_of_ne ?_ _ _
    rintro rfl
    exact hk ⟨x, hj⟩
  have hvalue : ∀ (t : Delivery) (p : TCPPacket),
      t.connection.packetsBuffer = o.value.connection.packetsBuffer →
      ({ o with
        packets := Function.update o.packets k p
        connection := t.connection
        announced := t.announced } : Objects).value = t := by
    intro t p hbuffer
    unfold value
    dsimp only
    rw [hload]
    change ({ connection := { t.connection with packetsBuffer := o.value.connection.packetsBuffer }
              announced := t.announced } : Delivery) = t
    rw [← hbuffer]
  unfold deliver
  change (Delivery.deliver now (o.packets k) o.value).Leaves _ _ at hframe
  cases hd : o.value.deliver now (o.packets k) with
  | returned t =>
    rw [hd] at hframe
    exact congrArg Outcome.returned (hvalue t _ hframe.packetsBuffer)
  | thrown e t =>
    rw [hd] at hframe
    exact congrArg (Outcome.thrown e) (hvalue t _ hframe.packetsBuffer)

theorem value_updated (now : Date) (o : Objects) :
    (o.updated now).value = o.value.update (TCPConnectionImpl.updated now) := rfl

/-! ## The drain -/

/-- `handled` has been used up between `o` and `o'`: each object was in a
buffer, is in none now, and comes once; all others are as they were. -/
structure Uses (o : Objects) (handled : List PacketRef) (o' : Objects) : Prop where
  shrinks : Shrinks o o'
  nodup : handled.Nodup
  buffered : ∀ k ∈ handled, o.Buffered k
  gone : ∀ k ∈ handled, ¬ o'.Buffered k
  kept : ∀ k, k ∉ handled → o'.packets k = o.packets k

theorem Rests.uses {o o' : Objects} (h : Rests o o') : Uses o [] o' :=
  ⟨h.shrinks, List.nodup_nil, by simp, by simp, fun k _ => congrFun h.packets k⟩

theorem Uses.trans {o o' o'' : Objects} {l l' : List PacketRef} (h : Uses o l o')
    (h' : Uses o' l' o'') : Uses o (l ++ l') o'' where
  shrinks := h.shrinks.trans h'.shrinks
  nodup := by
    refine List.nodup_append.mpr ⟨h.nodup, h'.nodup, ?_⟩
    rintro k hk j hj rfl
    exact h.gone k hk (h'.buffered k hj)
  buffered := by
    intro k hk
    rcases List.mem_append.mp hk with hk | hk
    · exact h.buffered k hk
    · exact h.shrinks.buffered (h'.buffered k hk)
  gone := by
    intro k hk hb
    rcases List.mem_append.mp hk with hk | hk
    · exact h.gone k hk (h'.shrinks.buffered hb)
    · exact h'.gone k hk hb
  kept := by
    intro k hk
    rw [List.mem_append, not_or] at hk
    exact (h'.kept k hk.2).trans (h.kept k hk.1)

/-- A pick-up and the handlers use up one object. -/
theorem uses_one (now : Date) {o o₁ : Objects} {k : PacketRef} (hrests : Rests o o₁)
    (htaken : Taken o k o₁) : Uses o [k] (o₁.deliver now k).state where
  shrinks := by
    intro x
    rw [buffers_deliver]
    exact hrests.shrinks x
  nodup := List.nodup_singleton k
  buffered := by
    intro j hj
    obtain rfl := List.mem_singleton.mp hj
    exact htaken.buffered
  gone := by
    intro j hj hb
    obtain rfl := List.mem_singleton.mp hj
    unfold Buffered at hb
    rw [buffers_deliver] at hb
    exact htaken.gone hb
  kept := by
    intro j hj
    have hne : j ≠ k := fun h => hj (List.mem_singleton.mpr h)
    rw [packets_deliver hne, hrests.packets]

theorem Uses.updated {o o' : Objects} {l : List PacketRef} (h : Uses o l o') (now : Date) :
    Uses o l (o'.updated now) :=
  ⟨h.shrinks, h.nodup, h.buffered, h.gone, h.kept⟩

section Drain

variable {now : Date}

theorem pickupPacket_found {o o₁ : Objects} {k : PacketRef} (hd : Distinct o.buffers)
    (hpick : o.pickupPacket = .returned (some k, o₁)) : Rests o o₁ ∧ Taken o k o₁ := by
  have hspec := pickupPacket_spec hd
  rw [hpick] at hspec
  exact ⟨hspec.1, hspec.2 k rfl⟩

/-- The drain uses every object at most once. -/
theorem Drains.uses {o : Objects} {handled : List PacketRef} {out : Outcome Throwable Objects}
    (h : Drains now o handled out) : Distinct o.buffers → Uses o handled out.state := by
  induction h with
  | done hpick =>
    intro hd
    have hspec := pickupPacket_spec hd
    rw [hpick] at hspec
    exact Rests.uses hspec.1
  | compareThrows hpick =>
    intro hd
    have hspec := pickupPacket_spec hd
    rw [hpick] at hspec
    exact Rests.uses hspec
  | handlerThrows hpick hdeliver =>
    intro hd
    obtain ⟨hrests, htaken⟩ := pickupPacket_found hd hpick
    have hone := uses_one now hrests htaken
    rwa [hdeliver] at hone
  | plain hpick hdeliver _ _ ih =>
    intro hd
    obtain ⟨hrests, htaken⟩ := pickupPacket_found hd hpick
    have hone := uses_one now hrests htaken
    rw [hdeliver] at hone
    exact (hone.updated now).trans (ih (hone.shrinks.distinct hd))
  | finish hpick hdeliver _ _ _ ihnested ih =>
    intro hd
    obtain ⟨hrests, htaken⟩ := pickupPacket_found hd hpick
    have hone := uses_one now hrests htaken
    rw [hdeliver] at hone
    have hnested := hone.trans (ihnested (hone.shrinks.distinct hd))
    exact (hnested.updated now).trans (ih (hnested.shrinks.distinct hd))
  | finishThrows hpick hdeliver _ _ ihnested =>
    intro hd
    obtain ⟨hrests, htaken⟩ := pickupPacket_found hd hpick
    have hone := uses_one now hrests htaken
    rw [hdeliver] at hone
    exact hone.trans (ihnested (hone.shrinks.distinct hd))

/-- The drain ends: every turn of either loop takes an object out of the
buffers, so a bound above their number is never reached. -/
theorem drains_drain (now : Date) (bound : Nat) :
    ∀ o : Objects, Distinct o.buffers → o.count < bound →
      ∃ handled, Drains now o handled (drain now bound o) := by
  induction bound with
  | zero => exact fun o _ hcount => absurd hcount (Nat.not_lt_zero _)
  | succ bound ih =>
    intro o hd hcount
    unfold drain
    cases hp : o.pickupPacket with
    | thrown e picked => exact ⟨[], .compareThrows hp⟩
    | returned picked =>
      obtain ⟨found, o₁⟩ := picked
      cases found with
      | none => exact ⟨[], .done hp⟩
      | some k =>
        obtain ⟨hrests, htaken⟩ := pickupPacket_found hd hp
        have hlt := htaken.count_lt
        dsimp only
        unfold handlePacket
        cases hdel : o₁.deliver now k with
        | thrown e o₂ => exact ⟨[k], .handlerThrows hp hdel⟩
        | returned o₂ =>
          have hbuffers : o₂.buffers = o₁.buffers := by
            have hsame := buffers_deliver now k o₁
            rwa [hdel] at hsame
          have hd₂ : Distinct o₂.buffers := hbuffers ▸ hrests.shrinks.distinct hd
          have hcount₂ : o₂.count < bound := by
            unfold count at hlt hcount ⊢
            rw [hbuffers]
            omega
          rw [Outcome.andThen_returned]
          cases hfin : (o₁.packets k).fin with
          | false =>
            obtain ⟨handled, hrest⟩ := ih (o₂.updated now) hd₂ hcount₂
            exact ⟨_, .plain hp hdel hfin hrest⟩
          | true =>
            obtain ⟨nested, hnested⟩ := ih o₂ hd₂ hcount₂
            have huses := hnested.uses hd₂
            rw [if_pos rfl]
            cases hout : drain now bound o₂ with
            | thrown e o₃ =>
              rw [hout] at hnested
              exact ⟨_, .finishThrows hp hdel hfin hnested⟩
            | returned o₃ =>
              rw [hout] at hnested huses
              have hd₃ : Distinct o₃.buffers := huses.shrinks.distinct hd₂
              have hcount₃ : o₃.count < bound :=
                Nat.lt_of_le_of_lt huses.shrinks.count_le hcount₂
              obtain ⟨handled, hrest⟩ := ih (o₃.updated now) hd₃ hcount₃
              exact ⟨_, .finish hp hdel hfin hnested hrest⟩

theorem drains_tryToProcessPacketsInBuffer (now : Date) {o : Objects} (hd : Distinct o.buffers) :
    ∃ handled, Drains now o handled (tryToProcessPacketsInBuffer now o) :=
  drains_drain now (o.count + 1) o hd (Nat.lt_succ_self _)

/-- One turn of the loop, on the values. -/
theorem tryToProcessPacketsInBuffer_of_found {o o₁ : Objects} {k : PacketRef}
    (hd : Distinct o.buffers) (hpick : o.pickupPacket = .returned (some k, o₁)) :
    Delivery.tryToProcessPacketsInBuffer now o.value =
      ((((o₁.deliver now k).map value).andThen fun t =>
        (if (o₁.packets k).fin then Delivery.tryToProcessPacketsInBuffer now t
          else .returned t).andThen fun t =>
            .returned (t.update (TCPConnectionImpl.updated now))).andThen
        (Delivery.tryToProcessPacketsInBuffer now)) := by
  obtain ⟨hrests, htaken⟩ := pickupPacket_found hd hpick
  have hvalue := map_pickupPacket o
  rw [hpick] at hvalue
  have hstart : ({ o.value with connection := o₁.value.connection } : Delivery) = o₁.value := by
    rw [show o₁.value = ⟨o₁.value.connection, o₁.announced⟩ from rfl, hrests.announced]
    rfl
  rw [Delivery.tryToProcessPacketsInBuffer_eq, ← hvalue, map_deliver now htaken.gone, hrests.packets]
  dsimp only [Outcome.map_returned, Option.map_some]
  rw [hstart]
  rfl

/-- On the values the drain is `tryToProcessPacketsInBuffer`. -/
theorem Drains.value_eq {o : Objects} {handled : List PacketRef}
    {out : Outcome Throwable Objects} (h : Drains now o handled out) :
    Distinct o.buffers →
      out.map value = Delivery.tryToProcessPacketsInBuffer now o.value := by
  induction h with
  | @done o o' hpick =>
    intro hd
    have hvalue := map_pickupPacket o
    have hspec := pickupPacket_spec hd
    rw [hpick] at hvalue hspec
    rw [Delivery.tryToProcessPacketsInBuffer_eq, ← hvalue]
    change Outcome.returned o'.value = .returned { o.value with connection := o'.value.connection }
    rw [show o'.value = ⟨o'.value.connection, o'.announced⟩ from rfl, hspec.1.announced]
    rfl
  | @compareThrows o o' e picked hpick =>
    intro hd
    have hvalue := map_pickupPacket o
    have hspec := pickupPacket_spec hd
    rw [hpick] at hvalue hspec
    rw [Delivery.tryToProcessPacketsInBuffer_eq, ← hvalue]
    change Outcome.thrown e o'.value = .thrown e { o.value with connection := o'.value.connection }
    rw [show o'.value = ⟨o'.value.connection, o'.announced⟩ from rfl, hspec.announced]
    rfl
  | @handlerThrows o o₁ o₂ k e hpick hdeliver =>
    intro hd
    rw [tryToProcessPacketsInBuffer_of_found hd hpick, hdeliver]
    rfl
  | @plain o o₁ o₂ k handled out hpick hdeliver hfin _ ih =>
    intro hd
    obtain ⟨hrests, htaken⟩ := pickupPacket_found hd hpick
    have hone := uses_one now hrests htaken
    rw [hdeliver] at hone
    rw [tryToProcessPacketsInBuffer_of_found hd hpick, hdeliver, hfin,
      ih (hone.shrinks.distinct hd), value_updated]
    rfl
  | @finish o o₁ o₂ o₃ k nested handled out hpick hdeliver hfin hnested _ ihnested ih =>
    intro hd
    obtain ⟨hrests, htaken⟩ := pickupPacket_found hd hpick
    have hone := uses_one now hrests htaken
    rw [hdeliver] at hone
    have hd₂ : Distinct o₂.buffers := hone.shrinks.distinct hd
    have hd₃ : Distinct o₃.buffers := (hnested.uses hd₂).shrinks.distinct hd₂
    rw [tryToProcessPacketsInBuffer_of_found hd hpick, hdeliver, hfin, Outcome.map_returned,
      Outcome.andThen_returned, if_pos rfl, ← ihnested hd₂, Outcome.map_returned,
      Outcome.andThen_returned, Outcome.andThen_returned, ih hd₃, value_updated]
  | @finishThrows o o₁ o₂ o₃ k nested e hpick hdeliver hfin _ ihnested =>
    intro hd
    obtain ⟨hrests, htaken⟩ := pickupPacket_found hd hpick
    have hone := uses_one now hrests htaken
    rw [hdeliver] at hone
    rw [tryToProcessPacketsInBuffer_of_found hd hpick, hdeliver, hfin, Outcome.map_returned,
      Outcome.andThen_returned, if_pos rfl, ← ihnested (hone.shrinks.distinct hd)]
    rfl

end Drain

end Objects

end ConnectionSniffer
