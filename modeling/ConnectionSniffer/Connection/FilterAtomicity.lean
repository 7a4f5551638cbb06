import ConnectionSniffer.Connection.FilterSetup
import ConnectionSniffer.Library.Run

/-!
# What a failed `add*` call leaves behind

`addServerHostFilter` enters each host into the `jpcapFilter` before it
looks the name up, so that a call which throws leaves the hosts behind, and
a first host that was found passes for a host of the filter from then on.
`isAcceptable` does not see it; `doFilter` does.

`add_atomic_iff` is exact: a failed call changes no answer of `doFilter` if
and only if no port passes the port list, or there were hosts before and
the client host of the call stands for none that these do not stand for.
-/

namespace ConnectionSniffer

/-! ## `doFilter` with one list of hosts and one of ports -/

namespace JpcapFilter

variable {getByName : List Char → Option InetAddress}

/-- Only the lists of hosts and of ports are filled. -/
def Plain (filter : JpcapFilter) : Prop :=
  filter = { hosts := filter.hosts, ports := filter.ports }

/-- A name of the list stands for the address. -/
def Resolves (getByName : List Char → Option InetAddress) (hosts : List (List Char))
    (address : InetAddress) : Prop := ∃ name ∈ hosts, getByName name = some address

instance (hosts : List (List Char)) (address : InetAddress) :
    Decidable (Resolves getByName hosts address) :=
  inferInstanceAs (Decidable (∃ name ∈ hosts, getByName name = some address))

/-- The packet passes the hosts. -/
def PassesHosts (getByName : List Char → Option InetAddress) (hosts : List (List Char))
    (packet : CapturedPacket) : Prop :=
  hosts = [] ∨ ∃ address, (packet.srcIp = some address ∨ packet.dstIp = some address) ∧
    Resolves getByName hosts address

/-- The packet passes the ports; an IP packet that is no segment only passes
an empty list. -/
def PassesPorts (ports : List (List Char)) : CapturedPacket → Prop
  | .ip _ _ => ports = []
  | packet => ports = [] ∨ jpcapPortFilter packet.srcPort ports = true ∨
      jpcapPortFilter packet.dstPort ports = true

/-- No port passes a list that is not empty, as each number in it is above the
ports that a `jshort` tells apart. -/
def BlocksPorts (ports : List (List Char)) : Prop :=
  ports ≠ [] ∧ ∀ port : UInt16, jpcapPortFilter port.toNat ports = false

theorem jpcapHostFilter_iff {address : Option InetAddress} {hosts : List (List Char)} :
    jpcapHostFilter getByName address hosts = true ↔
      ∃ a, address = some a ∧ Resolves getByName hosts a := by
  cases address with
  | none => simp [jpcapHostFilter]
  | some a => simp [jpcapHostFilter, compareAddress, Resolves]

theorem doFilter_iff {filter : JpcapFilter} (h : filter.Plain) (packet : CapturedPacket) :
    doFilter getByName filter packet = true ↔
      PassesHosts getByName filter.hosts packet ∧ PassesPorts filter.ports packet := by
  rw [h]
  cases packet with
  | other =>
    by_cases hhosts : filter.hosts = [] <;>
      simp [doFilter, PassesHosts, PassesPorts, isEmpty, jpcapHostFilter, CapturedPacket.srcIp,
        CapturedPacket.dstIp, hhosts]
  | ip srcIp dstIp =>
    by_cases hports : filter.ports = [] <;>
      simp [doFilter, PassesHosts, PassesPorts, isEmpty, jpcapHostFilter_iff, CapturedPacket.srcIp,
        CapturedPacket.dstIp, hports, or_and_right, exists_or]
  | tcp srcIp dstIp srcPort dstPort =>
    simp [doFilter, PassesHosts, PassesPorts, jpcapHostFilter_iff, CapturedPacket.srcIp,
      CapturedPacket.dstIp, or_and_right, exists_or]

theorem not_passesPorts {ports : List (List Char)} (h : BlocksPorts ports)
    (packet : CapturedPacket) : ¬ PassesPorts ports packet := by
  obtain ⟨hne, hnone⟩ := h
  have hzero : jpcapPortFilter 0 ports = false := by simpa using hnone 0
  cases packet with
  | other => simp [PassesPorts, CapturedPacket.srcPort, CapturedPacket.dstPort, hne, hzero]
  | ip => exact hne
  | tcp srcIp dstIp srcPort dstPort =>
    simp [PassesPorts, CapturedPacket.srcPort, CapturedPacket.dstPort, hne, hnone]

/-- Where some port passes, a segment with that port does, from and to any
address. -/
theorem exists_passesPorts {ports : List (List Char)} (h : ¬ BlocksPorts ports) :
    ∃ port : UInt16, ∀ srcIp dstIp, PassesPorts ports (.tcp srcIp dstIp port port) := by
  by_cases hnil : ports = []
  · exact ⟨0, fun _ _ => Or.inl hnil⟩
  · obtain ⟨port, hport⟩ : ∃ port : UInt16, jpcapPortFilter port.toNat ports = true := by
      by_contra hnone
      refine h ⟨hnil, fun port => ?_⟩
      by_contra hport
      exact hnone ⟨port, by simpa using hport⟩
    exact ⟨port, fun _ _ => Or.inr (Or.inl hport)⟩

/-- More hosts change no answer if and only if no port passes, or there were
hosts and the new ones stand for no new address. -/
theorem doFilter_hosts_iff {filter : JpcapFilter} (h : filter.Plain) {names : List (List Char)}
    (hne : names ≠ []) {added : Option InetAddress}
    (hadded : ∀ address, Resolves getByName names address ↔ added = some address) :
    (∀ packet, doFilter getByName { filter with hosts := filter.hosts ++ names } packet =
        doFilter getByName filter packet) ↔
      BlocksPorts filter.ports ∨
        filter.hosts ≠ [] ∧ ∀ address ∈ added, Resolves getByName filter.hosts address := by
  have hplain : ({ filter with hosts := filter.hosts ++ names } : JpcapFilter).Plain := by
    unfold Plain at h ⊢
    rw [h]
  have hresolves : ∀ address, Resolves getByName (filter.hosts ++ names) address ↔
      Resolves getByName filter.hosts address ∨ added = some address := by
    intro address
    rw [← hadded]
    simp only [Resolves, List.mem_append, or_and_right, exists_or]
  have hsome : filter.hosts ++ names ≠ [] := by simp [hne]
  constructor
  · intro hsame
    by_cases hblocks : BlocksPorts filter.ports
    · exact Or.inl hblocks
    right
    obtain ⟨port, hport⟩ := exists_passesPorts hblocks
    -- a segment from and to one address
    have hpasses : ∀ address, PassesHosts getByName (filter.hosts ++ names)
        (.tcp address address port port) ↔
          PassesHosts getByName filter.hosts (.tcp address address port port) := by
      intro address
      have heq := hsame (.tcp address address port port)
      rw [Bool.eq_iff_iff, doFilter_iff hplain, doFilter_iff h] at heq
      simpa [hport] using heq
    have hresolved : ∀ address, Resolves getByName filter.hosts address ∨ added = some address ↔
        filter.hosts = [] ∨ Resolves getByName filter.hosts address := by
      intro address
      have hiff := hpasses address
      simpa [PassesHosts, CapturedPacket.srcIp, CapturedPacket.dstIp, hresolves, hne] using hiff
    have hhosts : filter.hosts ≠ [] := by
      intro hnil
      -- without hosts every address passed, and now at most one does
      have hall : ∀ address, added = some address := by
        intro address
        rcases (hresolved address).mpr (Or.inl hnil) with ⟨name, hname, -⟩ | hone
        · simp [hnil] at hname
        · exact hone
      have htwo := (hall (.inet4 0 0 0 0)).symm.trans (hall (.inet4 0 0 0 1))
      exact absurd htwo (by decide)
    refine ⟨hhosts, fun address haddress => ?_⟩
    exact ((hresolved address).mp (Or.inr haddress)).resolve_left hhosts
  · intro hcond packet
    rw [Bool.eq_iff_iff, doFilter_iff hplain, doFilter_iff h]
    rcases hcond with hblocks | ⟨hhosts, hold⟩
    · have hnone := not_passesPorts hblocks packet
      exact iff_of_false (fun hp => hnone hp.2) (fun hp => hnone hp.2)
    · have hsame : ∀ address, Resolves getByName (filter.hosts ++ names) address ↔
          Resolves getByName filter.hosts address := by
        intro address
        rw [hresolves]
        exact ⟨fun h => h.elim id (hold address), Or.inl⟩
      simp only [PassesHosts, hsame, hsome, hhosts, false_or]

end JpcapFilter

/-! ## Failed calls -/

namespace ConfiguredFilter

/-- The client host of a call. -/
def AddCall.clientHost : AddCall → Option (List Char)
  | serverFilter _ _ => none
  | clientFilter clientHost _ => clientHost
  | hostPair clientHost _ => clientHost
  | portPair _ _ => none
  | clientHostFilter clientHost => clientHost
  | serverHostFilter _ => none
  | filter clientHost _ _ _ => clientHost

/-- The filter after a call, whether it returned or threw. -/
def AddCall.step (getByName : List Char → Option InetAddress) (filter : ConfiguredFilter)
    (call : AddCall) : ConfiguredFilter :=
  (call.run getByName filter).state

/-- A failed call enters hosts, of which only the client host can stand for an
address, and does nothing else. -/
structure FailedWith (getByName : List Char → Option InetAddress) (clientHost : Option (List Char))
    (filter filter' : ConfiguredFilter) (names : List (List Char)) : Prop where
  names_ne : names ≠ []
  resolves : ∀ address, JpcapFilter.Resolves getByName names address ↔
    named getByName clientHost = some address
  left : filter' = { filter with
    jpcapFilter := { filter.jpcapFilter with hosts := filter.jpcapFilter.hosts ++ names } }

section Add

variable {getByName : List Char → Option InetAddress} {filter filter' : ConfiguredFilter}
  {e : UnknownHostException}

theorem addHost_thrown {host : Option (List Char)}
    {set : FilterCriteria → InetAddress → FilterCriteria} {s s' : JpcapFilter × FilterCriteria}
    (h : addHost getByName host set s = .thrown e s') :
    ∃ name, s' = ({ s.1 with hosts := s.1.hosts ++ [name] }, s.2) ∧ getByName name = none ∧
      named getByName host = none := by
  unfold addHost at h
  cases host with
  | none => simp at h
  | some name =>
    dsimp only at h
    split at h
    · rename_i hname
      cases haddress : getByName name with
      | none =>
        simp only [haddress, Outcome.thrown.injEq] at h
        exact ⟨name, h.2.symm, haddress, by simp [named, hname, haddress]⟩
      | some address => simp [haddress] at h
    · simp at h

theorem resolves_iff_of_map {names : List (List Char)} {added : Option InetAddress}
    (h : names.map getByName = added.toList.map some) (address : InetAddress) :
    JpcapFilter.Resolves getByName names address ↔ added = some address := by
  have hmem : JpcapFilter.Resolves getByName names address ↔
      some address ∈ names.map getByName := by
    simp [JpcapFilter.Resolves]
  rw [hmem, h]
  simp

/-- What `addServerHostFilter` leaves when it throws. -/
theorem addFilter_thrown {clientHost serverHost : Option (List Char)} {clientPort serverPort : Int}
    (h : addFilter getByName clientHost clientPort serverHost serverPort filter =
      .thrown e filter') :
    ∃ names, FailedWith getByName clientHost filter filter' names := by
  unfold addFilter at h
  dsimp only at h
  cases hclient : addHost getByName clientHost
      (fun criteria address => { criteria with clientAddress := some address })
      (filter.jpcapFilter, {}) with
  | thrown e' s =>
    obtain ⟨name, rfl, hunknown, hnamed⟩ := addHost_thrown hclient
    simp only [hclient, Outcome.andThen_thrown, Outcome.thrown.injEq] at h
    refine ⟨[name], ⟨by simp, fun address => ?_, h.2.symm⟩⟩
    simp [JpcapFilter.Resolves, hunknown, hnamed]
  | returned s =>
    obtain ⟨names, hlist, hresolved, -⟩ := addHost_returned hclient
    rw [hclient, Outcome.andThen_returned] at h
    cases hserver : addHost getByName serverHost
        (fun criteria address => { criteria with serverAddress := some address }) s with
    | returned s' => simp [hserver] at h
    | thrown e' s' =>
      obtain ⟨name, rfl, hunknown, -⟩ := addHost_thrown hserver
      simp only [hserver, hlist, Outcome.thrown.injEq] at h
      refine ⟨names ++ [name], ⟨by simp, fun address => ?_, ?_⟩⟩
      · rw [← resolves_iff_of_map hresolved]
        simp [JpcapFilter.Resolves, or_and_right, exists_or, hunknown]
      · rw [← h.2]
        simp

/-- No call fills another list. -/
theorem plain_addFilter (h : filter.jpcapFilter.Plain) (clientHost : Option (List Char))
    (clientPort : Int) (serverHost : Option (List Char)) (serverPort : Int) :
    (addFilter getByName clientHost clientPort serverHost serverPort
      filter).state.jpcapFilter.Plain := by
  unfold JpcapFilter.Plain at h
  cases ho : addFilter getByName clientHost clientPort serverHost serverPort filter with
  | thrown e filter' =>
    obtain ⟨names, hfailed⟩ := addFilter_thrown ho
    rw [Outcome.state_thrown, hfailed.left, JpcapFilter.Plain, h]
  | returned filter' =>
    unfold addFilter at ho
    dsimp only at ho
    cases hclient : addHost getByName clientHost
        (fun criteria address => { criteria with clientAddress := some address })
        (filter.jpcapFilter, {}) with
    | thrown e s => simp [hclient] at ho
    | returned s =>
      obtain ⟨names, hlist, -⟩ := addHost_returned hclient
      rw [hclient, Outcome.andThen_returned] at ho
      cases hserver : addHost getByName serverHost
          (fun criteria address => { criteria with serverAddress := some address }) s with
      | thrown e s' => simp [hserver] at ho
      | returned s' =>
        obtain ⟨names', hlist', -⟩ := addHost_returned hserver
        simp only [hserver, addPort_eq, Outcome.returned.injEq] at ho
        rw [Outcome.state_returned, ← ho, JpcapFilter.Plain]
        dsimp only
        rw [hlist', hlist, h]

theorem plain_step (h : filter.jpcapFilter.Plain) (call : AddCall) :
    (call.step getByName filter).jpcapFilter.Plain := by
  cases call with
  | portPair clientPort serverPort =>
    exact @plain_addFilter getByName filter h none clientPort none serverPort
  | serverFilter serverHost serverPort => exact plain_addFilter h none 0 serverHost serverPort
  | clientFilter clientHost clientPort => exact plain_addFilter h clientHost clientPort none 0
  | hostPair clientHost serverHost => exact plain_addFilter h clientHost 0 serverHost 0
  | clientHostFilter clientHost => exact plain_addFilter h clientHost 0 none 0
  | serverHostFilter serverHost => exact plain_addFilter h none 0 serverHost 0
  | filter clientHost clientPort serverHost serverPort =>
    exact plain_addFilter h clientHost clientPort serverHost serverPort

/-- A call that throws is one of `addServerHostFilter`. -/
theorem run_thrown {call : AddCall} (h : call.run getByName filter = .thrown e filter') :
    ∃ names, FailedWith getByName call.clientHost filter filter' names := by
  cases call with
  | portPair => simp [AddCall.run, addPortPair] at h
  | serverFilter | clientFilter | hostPair | clientHostFilter | serverHostFilter | filter =>
    exact addFilter_thrown h

end Add

/-- A failed call changes no answer: no port passes the port list, or there
are hosts, and the client host stands for none but one of theirs. -/
def Unaffected (getByName : List Char → Option InetAddress) (filter : ConfiguredFilter)
    (call : AddCall) : Prop :=
  JpcapFilter.BlocksPorts filter.jpcapFilter.ports ∨
    filter.jpcapFilter.hosts ≠ [] ∧ ∀ address ∈ named getByName call.clientHost,
      JpcapFilter.Resolves getByName filter.jpcapFilter.hosts address

/-- After any `add*` calls, a call that throws leaves every answer of
`isAcceptable` and of `doFilter` as it was if and only if the call is
unaffected in this sense. -/
theorem add_atomic_iff (getByName : List Char → Option InetAddress) (calls : List AddCall)
    (call : AddCall) {e : UnknownHostException} {filter' : ConfiguredFilter} :
    let filter := Run.after (AddCall.step getByName) {} calls
    call.run getByName filter = .thrown e filter' →
      (((∀ d, filter'.isAcceptable d = filter.isAcceptable d) ∧
          ∀ packet, JpcapFilter.doFilter getByName filter'.jpcapFilter packet =
            JpcapFilter.doFilter getByName filter.jpcapFilter packet) ↔
        Unaffected getByName filter call) := by
  intro filter hthrown
  have hplain : filter.jpcapFilter.Plain :=
    Run.invariant_always (I := fun filter : ConfiguredFilter => filter.jpcapFilter.Plain)
      (fun _ call h => plain_step h call) calls rfl
  obtain ⟨names, hfailed⟩ := run_thrown hthrown
  have hiff := JpcapFilter.doFilter_hosts_iff hplain hfailed.names_ne hfailed.resolves
  rw [hfailed.left]
  exact ⟨fun h => hiff.mp h.2, fun h => ⟨fun _ => rfl, hiff.mpr h⟩⟩

/-- A second host is unknown, and the first one is in the filter already. -/
theorem add_atomic_iff_known :
    let getByName : List Char → Option InetAddress := fun name =>
      if name = ['w', 'e', 'b'] then some (.inet4 10 0 0 2) else none
    let filter := Run.after (AddCall.step getByName) {} [.serverFilter (some ['w', 'e', 'b']) 80]
    let call : AddCall := .hostPair (some ['w', 'e', 'b']) (some ['d', 'b'])
    ∀ packet, JpcapFilter.doFilter getByName (call.step getByName filter).jpcapFilter packet =
      JpcapFilter.doFilter getByName filter.jpcapFilter packet := by
  intro getByName filter call
  have hthrown : call.run getByName filter =
      .thrown (.unknownHost ['d', 'b']) (call.step getByName filter) := rfl
  exact ((add_atomic_iff getByName [.serverFilter (some ['w', 'e', 'b']) 80] call hthrown).mpr
    (Or.inr ⟨by decide, by decide⟩)).2

/-- A host that is unknown, entered into a new filter: no packet passes any
more. -/
theorem unknown_host_blocks_all :
    let getByName : List Char → Option InetAddress := fun _ => none
    let filter : ConfiguredFilter := {}
    let call : AddCall := .serverHostFilter (some ['w', 'e', 'b'])
    let packet : CapturedPacket := .tcp (.inet4 10 0 0 1) (.inet4 10 0 0 2) 50000 80
    (call.run getByName filter).error = some (.unknownHost ['w', 'e', 'b']) ∧
      JpcapFilter.doFilter getByName filter.jpcapFilter packet = true ∧
      JpcapFilter.doFilter getByName (call.step getByName filter).jpcapFilter packet = false := by
  intro getByName filter call packet
  exact ⟨rfl, by decide, by decide⟩

end ConfiguredFilter

end ConnectionSniffer
