import ConnectionSniffer.Receiver.InOrder

/-!
# Two directions in order

A run in which each side's packets are captured in order and without
loss, while the consumers read and packets of other pairs come between.
`Talk` follows the packets of the connection, and `Heard` is what each of
them has to be: the next one of its sender, with an acknowledgement that
the accept test takes.

* `full_duplex_delivery`: every payload is appended when its packet is
  picked.
* `delivery_below_wrap`: the same for the numbers on the wire, which are
  the true ones modulo `2 ^ 32`, as long as none has wrapped around.
-/

namespace ConnectionSniffer

namespace PacketReceiverImpl

/-- What a call adds to the conversation of `d`. -/
def Talk.hear (d : ConnectionDetail) (t : Talk) : Call → Talk
  | .pick _ p => if p.connectionDetail == d then t.after (p.detected d).side p else t
  | _ => t

/-- The conversation and the receiver after a call. -/
def talkStep (d : ConnectionDetail) (s : Talk × PacketReceiverImpl) (call : Call) :
    Talk × PacketReceiverImpl :=
  (s.1.hear d call, s.2.step call)

/-- The stream of `x` has room for the payload, if `d` is active. -/
def HasRoomFor (r : PacketReceiverImpl) (d : ConnectionDetail) (x : Side) (data : List UInt8) :
    Prop :=
  ∀ c ∈ (r.activeConnections.get d).bind r.deref, (c.inputStream.get x).hasRoom data

instance (r : PacketReceiverImpl) (d : ConnectionDetail) (x : Side) (data : List UInt8) :
    Decidable (r.HasRoomFor d x data) := by
  unfold HasRoomFor
  infer_instance

/-- If the call picks a packet of the pair of `d`, it is one that `C` allows
its sender to send, and there is room for its payload. -/
def Heard (d : ConnectionDetail) (C : Talk → Side → JpcapPacket → Prop)
    (s : Talk × PacketReceiverImpl) : Call → Prop
  | .pick _ p => (p.connectionDetail == d) = true →
      ∃ x, SentBy d x p ∧ C s.1 x p ∧ s.2.HasRoomFor d x p.data
  | _ => True

/-- If the call picks a packet of the pair of `d`, the pick returns, appends
the payload to the stream of the sender and nothing to the other stream,
and leaves nothing buffered. -/
def DeliversAtOnce (d : ConnectionDetail) (ref : Ref) (s : Talk × PacketReceiverImpl) :
    Call → Prop
  | .pick now p => (p.connectionDetail == d) = true →
      ∃ x c r' c', SentBy d x p ∧ s.2.deref ref = some c ∧
        s.2.pick now (TCPPacketImpl p) = .returned r' ∧ r'.deref ref = some c' ∧
        (c'.inputStream.get x).appended = (c.inputStream.get x).appended ++ p.data ∧
        (c'.inputStream.get x.other).appended = (c.inputStream.get x.other).appended ∧
        c'.packetsBuffer = ⟨[], []⟩
  | _ => True

/-- What the call adds to the bytes of side `x`. -/
def payload (d : ConnectionDetail) (x : Side) : Call → List UInt8
  | .pick _ p => if (p.connectionDetail == d) = true ∧ (p.detected d).side = x then p.data else []
  | _ => []

section Runs

variable {d : ConnectionDetail} {ref : Ref}

theorem Live.hasRoomFor {r : PacketReceiverImpl} {c : TCPConnectionImpl} (h : Live d ref r c)
    {x : Side} {data : List UInt8} (hroom : r.HasRoomFor d x data) :
    (c.inputStream.get x).hasRoom data :=
  hroom c (by simp [h.active, h.deref])

/-- A call that picks no packet of the pair adds nothing. -/
theorem Talk.hear_of_foreign {call : Call} (t : Talk) (h : Foreign d call) :
    t.hear d call = t := by
  cases call with
  | pick now p => exact if_neg (by simp [show (p.connectionDetail == d) = false from h])
  | poll => rfl
  | read ref x => rfl
  | readInto ref x bLength off len => rfl

theorem payload_of_foreign {call : Call} (x : Side) (h : Foreign d call) :
    payload d x call = [] := by
  cases call with
  | pick now p => exact if_neg (by simp [show (p.connectionDetail == d) = false from h])
  | poll => rfl
  | read ref x => rfl
  | readInto ref x bLength off len => rfl

/-- One call of a conversation in order. -/
theorem heard_step {s : Talk × PacketReceiverImpl} {call : Call} {c : TCPConnectionImpl}
    (hlive : Live d ref s.2 c) (hflow : Flowing s.1 c) (hcall : Heard d Talk.Admits s call) :
    DeliversAtOnce d ref s call ∧ ∃ c', Live d ref (talkStep d s call).2 c' ∧
      Flowing (talkStep d s call).1 c' ∧
      ∀ x, (c'.inputStream.get x).appended =
        (c.inputStream.get x).appended ++ payload d x call := by
  have hother : Foreign d call → ∃ c', Live d ref (talkStep d s call).2 c' ∧
      Flowing (talkStep d s call).1 c' ∧
      ∀ x, (c'.inputStream.get x).appended =
        (c.inputStream.get x).appended ++ payload d x call := by
    intro hforeign
    obtain ⟨c', hlive', hread⟩ := hlive.step_other hforeign
    refine ⟨c', hlive', ?_, ?_⟩
    · show Flowing (s.1.hear d call) c'
      rw [Talk.hear_of_foreign s.1 hforeign]
      exact hflow.sameButRead hread
    · obtain ⟨streams, rfl, hsame, -⟩ := hread
      intro x
      rw [payload_of_foreign x hforeign, List.append_nil]
      exact hsame.appended x
  cases call with
  | pick now p =>
    cases hpair : p.connectionDetail == d with
    | false => exact ⟨fun h => absurd h (by simp [hpair]), hother hpair⟩
    | true =>
      obtain ⟨x, hx, hp, hroom⟩ := hcall hpair
      obtain ⟨r', c', hpick, hlive', hflow', happ, hotherApp⟩ :=
        pick_inOrder hlive hflow hx hp (hlive.hasRoomFor hroom) now
      refine ⟨fun _ => ⟨x, c, r', c', hx, hlive.deref, hpick, hlive'.deref, happ, hotherApp,
        hflow'.packetsBuffer⟩, c', ?_, ?_, ?_⟩
      · show Live d ref (s.2.pick now (TCPPacketImpl p)).state c'
        rw [hpick]
        exact hlive'
      · show Flowing (if p.connectionDetail == d then _ else _) c'
        rw [if_pos hpair, hx.side]
        exact hflow'
      · refine BySide.forall_side x ?_ ?_
        · simpa [payload, hpair, hx.side] using happ
        · simpa [payload, hpair, hx.side] using hotherApp
  | poll => exact ⟨trivial, hother trivial⟩
  | read ref' x => exact ⟨trivial, hother trivial⟩
  | readInto ref' x bLength off len => exact ⟨trivial, hother trivial⟩

/-- A conversation in order: every packet is delivered at once, and in the
end each stream has been given the payloads of its side. -/
theorem heard_run {calls : List Call} {s : Talk × PacketReceiverImpl} {c : TCPConnectionImpl}
    (hlive : Live d ref s.2 c) (hflow : Flowing s.1 c)
    (hcalls : Run.Along (talkStep d) (Heard d Talk.Admits) s calls) :
    Run.Along (talkStep d) (DeliversAtOnce d ref) s calls ∧
      ∃ c', Live d ref (Run.after (talkStep d) s calls).2 c' ∧
        ∀ x, (c'.inputStream.get x).appended =
          (c.inputStream.get x).appended ++ calls.flatMap (payload d x) := by
  induction calls generalizing s c with
  | nil => exact ⟨trivial, c, hlive, fun x => (List.append_nil _).symm⟩
  | cons call calls ih =>
    obtain ⟨hcall, c₁, hlive₁, hflow₁, happ₁⟩ := heard_step hlive hflow hcalls.1
    obtain ⟨hrest, c', hlive', happ'⟩ := ih hlive₁ hflow₁ hcalls.2
    refine ⟨⟨hcall, hrest⟩, c', hlive', fun x => ?_⟩
    rw [happ' x, happ₁ x, List.flatMap_cons, List.append_assoc]

end Runs

/-! ## Delivery at once -/

/-- After a complete handshake each payload is appended when its packet is
picked, as long as the packets of each side come in order and each data
packet acknowledges either what its sender acknowledged last or all that
the other side has sent. -/
theorem full_duplex_delivery {filter : ConnectionFilter} {r : PacketReceiverImpl}
    (hr : Reachable filter r) {d : ConnectionDetail} {isn : BySide Nat}
    {syn synAck ack : JpcapPacket}
    (h : IsHandshake d isn (Talk.opened isn).next syn synAck ack)
    (hfilter : r.filter.isAcceptable d = true) (now now' now'' : Date) (calls : List Call)
    (hcalls : Run.Along (talkStep d) (Heard d Talk.Admits)
      (Talk.opened isn, Run.after step r (handshakeCalls syn synAck ack now now' now'')) calls) :
    Run.Along (talkStep d) (DeliversAtOnce d r.heap.length)
      (Talk.opened isn, Run.after step r (handshakeCalls syn synAck ack now now' now''))
      calls := by
  obtain ⟨-, c, hlive, hflow, -⟩ :=
    handshake_run h (wellFormed_of_reachable hr) hfilter now now' now''
  exact (heard_run hlive hflow hcalls).1

/-- Both sides send, the second packet of the server acknowledges what its
first one did, and a consumer reads in between. -/
theorem full_duplex_delivery_crossing :
    let client := InetAddress.inet4 10 0 0 1
    let server := InetAddress.inet4 10 0 0 2
    let d : ConnectionDetail := ⟨client, server, 50000, 80⟩
    let syn : JpcapPacket := ⟨client, server, 50000, 80, 100, 0, false, false, true, false, [], 0⟩
    let synAck : JpcapPacket :=
      ⟨server, client, 80, 50000, 500, 101, true, false, true, false, [], 0⟩
    let ack : JpcapPacket :=
      ⟨client, server, 50000, 80, 101, 501, true, false, false, false, [], 0⟩
    let calls : List Call := [
      .pick 3 ⟨server, client, 80, 50000, 501, 101, true, false, false, false, [7], 0⟩,
      .pick 4 ⟨client, server, 50000, 80, 101, 502, true, false, false, false, [1, 2], 0⟩,
      .read 0 .server,
      .pick 5 ⟨server, client, 80, 50000, 502, 101, true, false, false, false, [8], 0⟩]
    Run.Along (talkStep d) (DeliversAtOnce d 0) (Talk.opened ⟨100, 500⟩,
      Run.after step (create {}) (handshakeCalls syn synAck ack 0 1 2)) calls := by
  intro client server d syn synAck ack calls
  refine @full_duplex_delivery {} (create {}) ⟨[], rfl⟩ d ⟨100, 500⟩ syn synAck ack
    (by constructor <;> decide) rfl 0 1 2 calls ⟨?_, ?_, ?_, ?_, trivial⟩
  · exact fun _ => ⟨.server, by decide, ⟨rfl, rfl, rfl, by decide, fun _ => Or.inr (by decide)⟩, by decide⟩
  · exact fun _ => ⟨.client, by decide, ⟨rfl, rfl, rfl, by decide, fun _ => Or.inr (by decide)⟩, by decide⟩
  · trivial
  · exact fun _ => ⟨.server, by decide, ⟨rfl, rfl, rfl, by decide, fun _ => Or.inl (by decide)⟩, by decide⟩

/-- An acknowledgement in between: the server has sent two segments, the
client acknowledges the first one, and its payload waits in the buffer. -/
theorem partial_ack_not_delivered :
    let client := InetAddress.inet4 10 0 0 1
    let server := InetAddress.inet4 10 0 0 2
    let calls : List Call := [
      .pick 0 ⟨client, server, 50000, 80, 100, 0, false, false, true, false, [], 0⟩,
      .pick 1 ⟨server, client, 80, 50000, 500, 101, true, false, true, false, [], 0⟩,
      .pick 2 ⟨client, server, 50000, 80, 101, 501, true, false, false, false, [], 0⟩,
      .pick 3 ⟨server, client, 80, 50000, 501, 101, true, false, false, false, [7], 0⟩,
      .pick 4 ⟨server, client, 80, 50000, 502, 101, true, false, false, false, [8], 0⟩,
      .pick 5 ⟨client, server, 50000, 80, 101, 502, true, false, false, false, [1], 0⟩]
    ((Run.after step (create {}) calls).deref 0).map (fun c =>
      (c.state, c.inputStream.client.appended, c.packetsBuffer.client.length)) =
        some (some .established, [], 1) := by
  decide

/-! ## Numbers on the wire -/

/-- A sequence number as a 32-bit field carries it. -/
def onWire (n : Nat) : Nat := n % 2 ^ 32

theorem onWire_eq {n : Nat} (h : n < 2 ^ 32) : onWire n = n := Nat.mod_eq_of_lt h

/-- A data packet of `x` that comes next and acknowledges all of the other
side, with the numbers of the wire.  Neither number has wrapped around. -/
structure Talk.AdmitsOnWire (t : Talk) (x : Side) (p : JpcapPacket) : Prop where
  syn : p.syn = false
  rst : p.rst = false
  fin : p.fin = false
  sequence : p.sequence = onWire (t.next.get x)
  ackNum : p.ackNum = onWire (t.next.get x.other)
  data : p.data ≠ []
  below : ∀ y, t.next.get y < 2 ^ 32

theorem Talk.AdmitsOnWire.admits {t : Talk} {x : Side} {p : JpcapPacket}
    (h : t.AdmitsOnWire x p) : t.Admits x p where
  syn := h.syn
  rst := h.rst
  fin := h.fin
  sequence := h.sequence.trans (onWire_eq (h.below x))
  ackNum := fun _ => Or.inr (h.ackNum.trans (onWire_eq (h.below x.other)))

/-- As long as no number has reached `2 ^ 32`, every pick of the handshake
and of the data packets succeeds, each payload is appended at once, and in
the end each stream has been given the payloads of its side once. -/
theorem delivery_below_wrap {filter : ConnectionFilter} {r : PacketReceiverImpl}
    (hr : Reachable filter r) {d : ConnectionDetail} {isn : BySide Nat}
    {syn synAck ack : JpcapPacket}
    (h : IsHandshake d isn ⟨onWire (isn.client + 1), onWire (isn.server + 1)⟩ syn synAck ack)
    (hclient : isn.client + 1 < 2 ^ 32) (hserver : isn.server + 1 < 2 ^ 32)
    (hfilter : r.filter.isAcceptable d = true) (now now' now'' : Date) (calls : List Call)
    (hcalls : Run.Along (talkStep d) (Heard d Talk.AdmitsOnWire)
      (Talk.opened isn, Run.after step r (handshakeCalls syn synAck ack now now' now'')) calls) :
    Run.Along step (fun r call => (r.call call).isReturned = true) r
        (handshakeCalls syn synAck ack now now' now'') ∧
      Run.Along (talkStep d) (DeliversAtOnce d r.heap.length)
        (Talk.opened isn, Run.after step r (handshakeCalls syn synAck ack now now' now''))
        calls ∧
      ∃ c, (Run.after step r (handshakeCalls syn synAck ack now now' now'' ++ calls)).deref
          r.heap.length = some c ∧
        ∀ x, (c.inputStream.get x).appended = calls.flatMap (payload d x) := by
  rw [onWire_eq hclient, onWire_eq hserver] at h
  obtain ⟨hreturned, c, hlive, hflow, hfresh⟩ :=
    handshake_run h (wellFormed_of_reachable hr) hfilter now now' now''
  have hadmits : Run.Along (talkStep d) (Heard d Talk.Admits) (Talk.opened isn,
      Run.after step r (handshakeCalls syn synAck ack now now' now'')) calls := by
    refine Run.along_of_invariant (I := fun _ => True) ?_ trivial hcalls
    intro s call _ hcall
    refine ⟨?_, trivial⟩
    cases call with
    | pick now p =>
      intro hpair
      obtain ⟨x, hx, hp, hroom⟩ := hcall hpair
      exact ⟨x, hx, hp.admits, hroom⟩
    | poll => trivial
    | read ref x => trivial
    | readInto ref x bLength off len => trivial
  obtain ⟨halong, c', hlive', happ⟩ := heard_run hlive hflow hadmits
  refine ⟨hreturned, halong, c', ?_, fun x => ?_⟩
  · rw [show talkStep d = fun p i => (p.1.hear d i, step p.2 i) from rfl, Run.after_prod] at hlive'
    rw [Run.after_append]
    exact hlive'.deref
  · rw [happ x, hfresh]
    cases x <;> rfl

/-- The client starts four below the wrap and sends two bytes. -/
theorem delivery_below_wrap_close :
    let client := InetAddress.inet4 10 0 0 1
    let server := InetAddress.inet4 10 0 0 2
    let d : ConnectionDetail := ⟨client, server, 50000, 80⟩
    let syn : JpcapPacket :=
      ⟨client, server, 50000, 80, 4294967292, 0, false, false, true, false, [], 0⟩
    let synAck : JpcapPacket :=
      ⟨server, client, 80, 50000, 500, 4294967293, true, false, true, false, [], 0⟩
    let ack : JpcapPacket :=
      ⟨client, server, 50000, 80, 4294967293, 501, true, false, false, false, [], 0⟩
    let calls : List Call := [
      .pick 3 ⟨client, server, 50000, 80, 4294967293, 501, true, false, false, false, [1, 2], 0⟩,
      .pick 4 ⟨server, client, 80, 50000, 501, 4294967295, true, false, false, false, [7], 0⟩]
    Run.Along (talkStep d) (DeliversAtOnce d 0) (Talk.opened ⟨4294967292, 500⟩,
      Run.after step (create {}) (handshakeCalls syn synAck ack 0 1 2)) calls := by
  intro client server d syn synAck ack calls
  refine (@delivery_below_wrap {} (create {}) ⟨[], rfl⟩ d ⟨4294967292, 500⟩ syn synAck ack
    (by constructor <;> decide) (by decide) (by decide) rfl 0 1 2 calls ⟨?_, ?_, trivial⟩).2.1
  · exact fun _ => ⟨.client, by decide, ⟨rfl, rfl, rfl, by decide, by decide, by decide,
      BySide.forall_side .client (by decide) (by decide)⟩, by decide⟩
  · exact fun _ => ⟨.server, by decide, ⟨rfl, rfl, rfl, by decide, by decide, by decide,
      BySide.forall_side .client (by decide) (by decide)⟩, by decide⟩

/-- With the largest initial number the SYN/ACK acknowledges `0` and is
refused.  Two lower, the first payload takes the counter to `2 ^ 32`, and
the next packet, at `0`, is old. -/
theorem wrap_not_delivered :
    let client := InetAddress.inet4 10 0 0 1
    let server := InetAddress.inet4 10 0 0 2
    let syn (isn : Nat) : Call :=
      .pick 0 ⟨client, server, 50000, 80, isn, 0, false, false, true, false, [], 0⟩
    let synAck (isn : Nat) : Call :=
      .pick 1 ⟨server, client, 80, 50000, 500, onWire (isn + 1), true, false, true, false, [], 0⟩
    let up (next : Nat) (data : List UInt8) : Call :=
      .pick 2 ⟨client, server, 50000, 80, onWire next, 501, true, false, false, false, data, 0⟩
    ((Run.after step (create {}) [syn 4294967295]).call (synAck 4294967295)).isReturned = false ∧
      ((Run.after step (create {}) [syn 4294967293, synAck 4294967293, up 4294967294 [],
        up 4294967294 [1, 2], up 4294967296 [3]]).deref 0).map
          (·.inputStream.client.appended) = some [1, 2] := by
  decide

end PacketReceiverImpl

end ConnectionSniffer
