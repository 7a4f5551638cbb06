import ConnectionSniffer.Receiver.Handlings
import ConnectionSniffer.Receiver.Overtaking

/-!
# `maybeBroken`

A FIN and a RST set the flag if they finish a direction whose buffer still
has data.  Whether such data was appended is not looked at: a copy of a
segment that was handled directly may still wait there.  The last ACK sets
the flag if it acknowledges one more than the other side has sent, since
the check adds one to a counter that is behind the FIN already.

`Accurate` is what the flag should say, at each of the three places that
set it.  It does so in every run of untangled packets: no packet that waits
lies within what has been handled, and the last ACK is for the FIN.
-/

namespace ConnectionSniffer

namespace MaybeBroken

open OldPackets (Cut Delivered)
open Overtaking (Clean Level Ready)

/-! ## The three places -/

section Places

variable (now : Date) (p : TCPPacket) (c : TCPConnectionImpl)

/-- The connection behind the RST part of `handlePacket`. -/
def afterRst : TCPConnectionImpl := if p.rst then c.processRstPacket now p else c

/-- And behind the ACK part. -/
def afterAck : Outcome Throwable TCPConnectionImpl :=
  if p.ack then (afterRst now p c).processAckPacket p else .returned (afterRst now p c)

/-- And behind the data part. -/
def afterData : Outcome Throwable TCPConnectionImpl :=
  (afterAck now p c).andThen fun c =>
    if p.isContainsData then c.processDataPacket now p else .returned c

/-- What `deliver` makes of the connection: these parts, and the FIN behind
them. -/
theorem deliver_eq (n : Nat) : (Delivery.deliver now p ⟨c, n⟩).map Delivery.connection =
    (afterData now p c).andThen fun c' =>
      .returned ((if p.fin then c'.processFinishPacket now p else c').record c.state p) := by
  have hack : ∃ m, Delivery.acknowledge p
      (if p.rst then Delivery.update ⟨c, n⟩ (TCPConnectionImpl.processRstPacket now p) else ⟨c, n⟩) =
        (afterAck now p c).map fun c' => ⟨c', m⟩ := by
    have hrst : (if p.rst then Delivery.update ⟨c, n⟩ (TCPConnectionImpl.processRstPacket now p)
        else ⟨c, n⟩) = ⟨afterRst now p c, n⟩ := by
      unfold afterRst
      cases p.rst <;> rfl
    rw [hrst]
    unfold Delivery.acknowledge Delivery.apply afterAck
    cases p.ack with
    | false => exact ⟨n, rfl⟩
    | true =>
      cases (afterRst now p c).processAckPacket p with
      | thrown e c' => exact ⟨n, rfl⟩
      | returned c' =>
        simp only [if_true, Outcome.map_returned, Outcome.andThen_returned]
        split
        · exact ⟨n + 1, rfl⟩
        · exact ⟨n, rfl⟩
  obtain ⟨m, hack⟩ := hack
  unfold Delivery.deliver afterData
  simp only [hack]
  cases afterAck now p c with
  | thrown e c' => rfl
  | returned c' =>
    simp only [Outcome.map_returned, Outcome.andThen_returned, Delivery.apply]
    cases p.isContainsData with
    | false => cases p.fin <;> rfl
    | true =>
      simp only [if_true]
      cases c'.processDataPacket now p with
      | thrown e c'' => rfl
      | returned c'' => cases p.fin <;> rfl

end Places

/-! ## What the flag should say -/

/-- A finished direction has a packet in its buffer with bytes that were not
appended. -/
def Leftover (c : TCPConnectionImpl) : Prop :=
  ∃ x, (c.inputStream.get x).isFinished = true ∧ ∃ q ∈ c.packetsBuffer.get x, ¬ Delivered c q

instance (c : TCPConnectionImpl) : Decidable (Leftover c) :=
  inferInstanceAs (Decidable (∃ x, _ ∧ ∃ q ∈ c.packetsBuffer.get x, _))

/-- While a packet is handled: a RST and a FIN set the flag only if something
is left over, and an ACK in LastAck sets it exactly if it does not acknowledge
all that the other side has sent. -/
structure Accurate (now : Date) (d : Handling) : Prop where
  rst : d.packet.rst = true → d.met.maybeBroken = false →
    (d.met.processRstPacket now d.packet).maybeBroken = true →
      Leftover (d.met.processRstPacket now d.packet)
  lastAck : d.packet.ack = true → (afterRst now d.packet d.met).state = some .lastAck →
    (afterRst now d.packet d.met).maybeBroken = false →
      ((afterAck now d.packet d.met).state.maybeBroken = true ↔
        d.packet.ackNum ≠ ((afterRst now d.packet d.met).counter.get d.packet.side.other).seq)
  fin : d.packet.fin = true → (afterData now d.packet d.met).Sat
    (fun c => c.maybeBroken = false → (c.processFinishPacket now d.packet).maybeBroken = true →
      Leftover ((c.processFinishPacket now d.packet).record d.met.state d.packet)) fun _ => True

/-! ## The checks -/

section Checks

variable {now : Date} {p : TCPPacket} {c : TCPConnectionImpl}

theorem validate_maybeBroken (h : c.maybeBroken = false) :
    c.validateDataPacketsInBuffer.maybeBroken = true ↔
      ∃ x, (c.inputStream.get x).isFinished = true ∧
        ∃ q ∈ c.packetsBuffer.get x, q.isContainsData = true := by
  rw [Side.exists_iff]
  simp [TCPConnectionImpl.validateDataPacketsInBuffer, PacketsBuffer.hasDataPackets, h]

theorem processRstPacket_maybeBroken (h : c.maybeBroken = false) :
    (c.processRstPacket now p).maybeBroken = true ↔
      ∃ x, ∃ q ∈ c.packetsBuffer.get x, q.isContainsData = true := by
  unfold TCPConnectionImpl.processRstPacket
  rw [validate_maybeBroken (by exact h)]
  exact exists_congr fun x => and_iff_right (TCPConnectionImpl.processRstPacket_streams now p c x).2

/-- The directions that a FIN leaves finished. -/
theorem processFinishPacket_isFinished (x : Side) :
    ((c.processFinishPacket now p).inputStream.get x).isFinished = true ↔
      x = p.side ∨ (c.inputStream.get x).isFinished = true := by
  obtain ⟨-, hown, hother⟩ := TCPConnectionImpl.processFinishPacket_streams now p c
  rcases Side.eq_or_eq_other p.side x with rfl | rfl
  · exact iff_of_true hown (Or.inl rfl)
  · rw [hother]
    exact (or_iff_right (Side.other_ne _)).symm

theorem processFinishPacket_maybeBroken (h : c.maybeBroken = false) :
    (c.processFinishPacket now p).maybeBroken = true ↔
      ∃ x, (x = p.side ∨ (c.inputStream.get x).isFinished = true) ∧
        ∃ q ∈ c.packetsBuffer.get x, q.isContainsData = true := by
  unfold TCPConnectionImpl.processFinishPacket
  rw [validate_maybeBroken (by exact h)]
  exact exists_congr fun x => and_congr_left fun _ => processFinishPacket_isFinished x

/-- The check of the last ACK, and what it should be. -/
theorem lastAck_iff (hack : p.ack = true) (hstate : (afterRst now p c).state = some .lastAck)
    (h : (afterRst now p c).maybeBroken = false) :
    ((afterAck now p c).state.maybeBroken = true ↔
        p.ackNum ≠ ((afterRst now p c).counter.get p.side.other).seq) ↔
      p.ackNum = ((afterRst now p c).counter.get p.side.other).seq ∨
        p.ackNum = ((afterRst now p c).counter.get p.side.other).seq + 1 := by
  have hset : (afterAck now p c).state.maybeBroken = true ↔
      p.ackNum = ((afterRst now p c).counter.get p.side.other).seq + 1 := by
    simp [afterAck, hack, TCPConnectionImpl.processAckPacket, hstate,
      TCPConnectionImpl.processLastAckPacket, h]
  rw [hset]
  omega

end Checks

/-! ## Connections of the conversation -/

section Connections

open Overtaking (Actives HalfWays HalfWay Meets level_drain level_promoted level_process
  meets_of_clean ready_of_head ready_of_pick not_atOnce)

variable {T : Conversation} {detail : ConnectionDetail} {now : Date} {p : TCPPacket}
  {c : TCPConnectionImpl}

/-- What waits has not been delivered, and the last ACK is for all that the
other side has sent. -/
theorem accurate_of_ready (h : Ready T detail p c) (n : Nat) :
    Accurate now (Delivery.handling now p ⟨c, n⟩) where
  rst := by
    intro _ hbroken hset
    obtain ⟨x, q, hq, hdata⟩ := (processRstPacket_maybeBroken hbroken).mp hset
    exact ⟨x, (TCPConnectionImpl.processRstPacket_streams now p c x).2, q, hq,
      h.level.not_delivered hq hdata⟩
  lastAck := by
    intro hack hstate hbroken
    refine (lastAck_iff hack hstate hbroken).mpr (Or.inl ?_)
    have hlast : c.state = some .lastAck := by
      rw [← hstate]
      show c.state = (afterRst now p c).state
      unfold afterRst
      split <;> rfl
    have hother : ((afterRst now p c).counter.get p.side.other).seq =
        (c.counter.get p.side.other).seq := by
      unfold afterRst
      split
      · rw [TCPConnectionImpl.processRstPacket_counter, SequenceCounter.get_other_update]
      · rfl
    have hends := h.level.lastAck hlast
    have hanswer := h.answer hack (h.seq.symm.trans (hends p.side)) hlast
    show p.ackNum = ((afterRst now p c).counter.get p.side.other).seq
    rw [hother, hends, hanswer]
  fin := by
    intro hfin
    have hfin' : p.fin = true := hfin
    have hleaves : ((Delivery.deliver now p ⟨c, n⟩).map Delivery.connection).Sat (Level T detail)
        (Level T detail) := Outcome.sat_map.mpr (h.deliver n)
    rw [deliver_eq] at hleaves
    show (afterData now p c).Sat _ _
    cases hafter : afterData now p c with
    | thrown e c' => trivial
    | returned c' =>
      rw [hafter, Outcome.andThen_returned, if_pos hfin'] at hleaves
      intro hbroken hset
      obtain ⟨x, hx, q, hq, hdata⟩ := (processFinishPacket_maybeBroken hbroken).mp hset
      have hlevel : Level T detail ((c'.processFinishPacket now p).record c.state p) := hleaves
      exact ⟨x, (processFinishPacket_isFinished x).mpr hx, q, hq, hlevel.not_delivered hq hdata⟩

/-- What is asked of a packet that is handled on a connection of the
conversation. -/
def Tells (T : Conversation) (now : Date) (d : Handling) : Prop :=
  (d.met.connectionDetail == T.detail) = true →
    (∀ x, (d.met.inputStream.get x).appended = d.met.payloads x) ∧ Accurate now d

theorem tells_of_ready (h : Ready T detail p c) (n : Nat) :
    Tells T now (Delivery.handling now p ⟨c, n⟩) :=
  fun _ => ⟨h.level.payloads, accurate_of_ready h n⟩

/-- The packet of a promotion has data, so it is no RST, and it meets
`Established`. -/
theorem tells_promoted (h : HalfWay T c) (hp : Cut T c.connectionDetail p)
    (hdata : p.isContainsData = true)
    (hdone : PacketReceiverImpl.completesExchange p c = true)
    (huntangled : Overtaking.Untangled (T.sentBy c.connectionDetail) p c) :
    Tells T now ⟨p, PacketReceiverImpl.primed p c,
      (PacketReceiverImpl.primed p c).processDataPacket now p⟩ := by
  intro _
  have hrst : p.rst = false := by
    rw [Bool.eq_false_iff]
    intro hrst
    have hnil := hp.segment.2 hrst
    simp [TCPPacket.isContainsData, hnil] at hdata
  have hafterRst : afterRst now p (PacketReceiverImpl.primed p c) =
      PacketReceiverImpl.primed p c := by
    rw [afterRst, if_neg (by simp [hrst])]
  have hafter : afterData now p (PacketReceiverImpl.primed p c) =
      (PacketReceiverImpl.primed p c).processDataPacket now p := by
    have hack : afterAck now p (PacketReceiverImpl.primed p c) =
        .returned (PacketReceiverImpl.primed p c) := by
      rw [afterAck, hafterRst]
      split <;> rfl
    rw [afterData, hack, Outcome.andThen_returned, if_pos hdata]
  refine ⟨fun x => ?_, fun hrst' => ?_, fun _ hstate => ?_, fun _ => ?_⟩
  · exact (h.empty x).trans (by simp [TCPConnectionImpl.payloads, PacketReceiverImpl.primed, h.fresh])
  · exact absurd (hrst.symm.trans hrst') (by decide)
  · dsimp only at hstate
    rw [hafterRst] at hstate
    exact absurd hstate (by simp [PacketReceiverImpl.primed])
  · dsimp only
    rw [hafter]
    refine (level_promoted _ h hdata hdone huntangled).mono (fun c' hlevel hbroken hset => ?_)
      fun _ _ => trivial
    obtain ⟨x, hx, q, hq, hqdata⟩ := (processFinishPacket_maybeBroken hbroken).mp hset
    exact ⟨x, (processFinishPacket_isFinished x).mpr hx, q, hq, hlevel.not_delivered hq hqdata⟩

/-- Whatever `pick` handles on a connection of the conversation. -/
theorem handlings_tell {p : JpcapPacket} {r : PacketReceiverImpl} (h : Overtaking.Following T r)
    (hclean : Clean T r (.pick now p)) :
    ∀ d ∈ r.handlings now (TCPPacketImpl p), Tells T now d := by
  have hother := fun d => (Delivery.detailInvariant now d).deliveryInvariant.rule
  refine PacketReceiverImpl.handlings_forall ?_ ?_
  · intro ref c hsyn hactive hdata hhalf hc hdone
    have hmeets := meets_of_clean h.wellFormed hclean
      (PacketReceiverImpl.routed_halfWay hsyn hactive hdata hhalf hc)
    by_cases hkey : (c.connectionDetail == T.detail) = true
    · have hH := h.tables.halfWay hhalf hc hkey
      have hcut := hmeets.cut hclean.1 hkey hH.detail hsyn (hmeets.notSynAck hclean.1 hkey hdata)
      have huntangled := hmeets.untangled hkey (Or.inl hH.unstarted)
      have hfirst := level_promoted now (q := p.detected c.connectionDetail) hH hdata hdone
        huntangled
      exact PacketReceiverImpl.promoteHandlings_forall
        (level_drain T c.connectionDetail now).deliveryInvariant.rule
        (fun ht hb hcan => tells_of_ready (ready_of_head ht hb hcan) _)
        (tells_promoted hH hcut hdata hdone huntangled) (Outcome.ends_const.mpr hfirst)
    · refine PacketReceiverImpl.promoteHandlings_forall (hother c.connectionDetail)
        (fun ht _ _ hkey' => absurd (ht ▸ hkey') hkey) (fun hkey' => absurd hkey' hkey) ?_
      exact Outcome.ends_const.mpr ((Delivery.processDataPacket_frame now _ _).mono
        (fun _ hframe => hframe.connectionDetail) (fun _ hframe => hframe.connectionDetail))
  · intro ref c hsyn hactive hc hignored hsynAck
    have hmeets := meets_of_clean h.wellFormed hclean
      (PacketReceiverImpl.routed_active hsyn hactive hc)
    by_cases hkey : (c.connectionDetail == T.detail) = true
    · have hA := h.tables.active hactive hc hkey
      have hcut := hmeets.cut hclean.1 hkey hA.detail hsyn hsynAck
      have huntangled := hmeets.untangled hkey (Or.inr hignored)
      refine PacketReceiverImpl.processHandlings_forall
        (level_drain T c.connectionDetail now).deliveryInvariant.rule
        (fun ht hb hcan => tells_of_ready (ready_of_head ht hb hcan) _) (fun hcan => ?_)
        fun hcan => ?_
      · have hready := ready_of_pick hA.level hcut huntangled hcan
        exact ⟨tells_of_ready hready 0, Outcome.ends_const.mpr (hready.deliver 0)⟩
      · exact hA.level.add hcut (PacketReceiverImpl.notOld_of_notIgnored hignored) hmeets.near
          huntangled (not_atOnce hA.level.started hcan)
    · refine PacketReceiverImpl.processHandlings_forall (hother c.connectionDetail)
        (fun ht _ _ hkey' => absurd (ht ▸ hkey') hkey)
        (fun _ => ⟨fun hkey' => absurd hkey' hkey, ?_⟩) (fun _ => rfl)
      exact Outcome.ends_const.mpr ((Delivery.deliver_frame now _ c 0).mono
        (fun _ hframe => hframe.connectionDetail) (fun _ hframe => hframe.connectionDetail))

end Connections

/-! ## Runs -/

section Runs

instance (now : Date) (d : Handling) : Decidable (Accurate now d) :=
  decidable_of_iff ((_ → _ → _ → _) ∧ (_ → _ → _ → _) ∧ (_ → _))
    ⟨fun h => ⟨h.1, h.2.1, h.2.2⟩, fun h => ⟨h.rst, h.lastAck, h.fin⟩⟩

/-- The packet is one of the conversation, and acknowledges something that the
other side sends. -/
def Legal (T : Conversation) (p : JpcapPacket) : Prop :=
  T.Cuts p ∧ ((p.connectionDetail == T.detail) = true → p.ack = true →
    (p.connectionDetail = T.detail → T.sent.server.isn + 1 ≤ p.ackNum ∧
      p.ackNum ≤ T.sent.server.isn + T.sent.server.bytes.length + 2) ∧
    (p.connectionDetail = T.detail.swap → T.sent.client.isn + 1 ≤ p.ackNum ∧
      p.ackNum ≤ T.sent.client.isn + T.sent.client.bytes.length + 2))

instance (T : Conversation) (p : JpcapPacket) : Decidable (Legal T p) :=
  inferInstanceAs (Decidable (_ ∧ (_ → _ → (_ → _ ∧ _) ∧ (_ → _ ∧ _))))

/-- In the next pick, the streams hold the handled payloads, and what the
handlers do to the flag is accurate. -/
def Truthful (T : Conversation) (r : PacketReceiverImpl) : Call → Prop
  | .pick now packet => ∀ d ∈ r.handlings now (TCPPacketImpl packet), Tells T now d
  | _ => True

/-- In every run of segments of a conversation, whatever is lost, repeated or
out of order, as long as they are untangled from those that wait. -/
theorem truthful_of_clean (filter : ConnectionFilter) (T : Conversation) (calls : List Call)
    (hcalls : Run.Along PacketReceiverImpl.step (Clean T) (PacketReceiverImpl.create filter)
      calls) :
    Run.Along PacketReceiverImpl.step (Truthful T) (PacketReceiverImpl.create filter) calls := by
  refine Run.along_of_invariant (I := Overtaking.Following T) (fun r call h hcall => ⟨?_, ?_⟩)
    (Overtaking.following_create T filter) hcalls
  · cases call with
    | pick now packet => exact handlings_tell h hcall
    | _ => trivial
  · exact Overtaking.following_step h hcall

/-- A RST comes while the client's second byte waits for its first. -/
theorem truthful_of_clean_gap :
    let client := InetAddress.inet4 10 0 0 1
    let server := InetAddress.inet4 10 0 0 2
    let T : Conversation := ⟨⟨client, server, 50000, 80⟩, ⟨100, [1, 2]⟩, ⟨500, []⟩⟩
    let up (sequence : Nat) (rst : Bool) (data : List UInt8) : JpcapPacket :=
      ⟨client, server, 50000, 80, sequence, 501, true, rst, false, false, data, 0⟩
    let calls : List Call := [
      .pick 0 ⟨client, server, 50000, 80, 100, 0, false, false, true, false, [], 0⟩,
      .pick 1 ⟨server, client, 80, 50000, 500, 101, true, false, true, false, [], 0⟩,
      .pick 2 (up 101 false []), .pick 3 (up 102 false [2]), .pick 4 (up 101 true [])]
    Run.Along PacketReceiverImpl.step (Truthful T) (PacketReceiverImpl.create {}) calls ∧
      ∀ c ∈ (Run.after PacketReceiverImpl.step (PacketReceiverImpl.create {}) calls).heap,
        c.maybeBroken = true :=
  ⟨truthful_of_clean {} _ _ (by decide), by decide⟩

/-- Two runs of legal packets.  A copy of the client's second byte is left in
the buffer when the first copy has been appended, and the FIN sets the flag.
And the ACK behind the server's FIN does not acknowledge the client's FIN,
and sets nothing. -/
theorem inaccurate :
    let client := InetAddress.inet4 10 0 0 1
    let server := InetAddress.inet4 10 0 0 2
    let T (bytes : List UInt8) : Conversation :=
      ⟨⟨client, server, 50000, 80⟩, ⟨100, bytes⟩, ⟨500, []⟩⟩
    let up (sequence : Nat) (fin : Bool) (data : List UInt8) : JpcapPacket :=
      ⟨client, server, 50000, 80, sequence, 501, true, false, false, fin, data, 0⟩
    let down (sequence : Nat) (fin : Bool) : JpcapPacket :=
      ⟨server, client, 80, 50000, sequence, 101, true, false, false, fin, [], 0⟩
    let opening : List JpcapPacket := [
      ⟨client, server, 50000, 80, 100, 0, false, false, true, false, [], 0⟩,
      ⟨server, client, 80, 50000, 500, 101, true, false, true, false, [], 0⟩, up 101 false []]
    let misleads (T : Conversation) (packets : List JpcapPacket) (packet : JpcapPacket) : Prop :=
      (∀ p ∈ packet :: packets, Legal T p) ∧
        ∃ d ∈ (Run.after PacketReceiverImpl.step (PacketReceiverImpl.create {})
          (packets.map (.pick 0))).handlings 0 (TCPPacketImpl packet), ¬ Accurate 0 d
    misleads (T [1, 2]) (opening ++ [up 102 false [2], up 101 false [1], up 102 false [2]])
        (up 103 true []) ∧
      misleads (T []) (opening ++ [up 101 true [], down 502 false]) (down 501 true) := by
  decide

end Runs

end MaybeBroken

end ConnectionSniffer
