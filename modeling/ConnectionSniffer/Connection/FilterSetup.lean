import ConnectionSniffer.Connection.ConnectionFilter
import ConnectionSniffer.Connection.JpcapFilter
import ConnectionSniffer.Library.JavaString
import ConnectionSniffer.Library.Outcome

/-!
# Setting up a filter

Each `add*` method of `ConnectionFilter` adds one criterion and enters its
hosts and ports into the flat lists of the `JpcapFilter`.  A connection
need meet only one criterion, but a packet has to meet the hosts of all
criteria together and the ports of all criteria together.

`Collected` says what the lists hold after a sequence of calls.
`native_filter_iff` then is exact: the native filter hides no packet of an
accepted connection if and only if every criterion that some connection
can meet names a host where any criterion does, and names a port below
2^15 where any criterion names a port.
-/

namespace ConnectionSniffer

/-- A `ConnectionFilter` together with its `jpcapFilter`, which the receiver
never reads. -/
structure ConfiguredFilter extends ConnectionFilter where
  jpcapFilter : JpcapFilter := {}

/-- `UnknownHostException`. -/
inductive UnknownHostException where
  | unknownHost (host : List Char)

/-- `notEmpty`, on a string that may be `null`. -/
def notEmpty : Option (List Char) → Bool
  | none => false
  | some str => !(trim str).isEmpty

namespace ConfiguredFilter

variable (getByName : List Char → Option InetAddress)

/-- The block of `addServerHostFilter` for one host: `set` is the setter of
the criterion. -/
def addHost (host : Option (List Char)) (set : FilterCriteria → InetAddress → FilterCriteria)
    (s : JpcapFilter × FilterCriteria) :
    Outcome UnknownHostException (JpcapFilter × FilterCriteria) :=
  match host with
  | none => .returned s
  | some name =>
    if notEmpty (some name) then
      let jpcapFilter := s.1.addHost name
      match getByName name with
      | none => .thrown (.unknownHost name) (jpcapFilter, s.2)
      | some address => .returned (jpcapFilter, set s.2 address)
    else .returned s

/-- The block of `addServerHostFilter` for one port. -/
def addPort (port : Int) (set : FilterCriteria → Int → FilterCriteria)
    (s : JpcapFilter × FilterCriteria) : JpcapFilter × FilterCriteria :=
  if port > 0 then (s.1.addPort port, set s.2 port) else s

/-- `addServerHostFilter` with four arguments.  If it throws, the hosts are
in the `jpcapFilter` already and the criterion is lost. -/
def addFilter (clientHost : Option (List Char)) (clientPort : Int)
    (serverHost : Option (List Char)) (serverPort : Int) (filter : ConfiguredFilter) :
    Outcome UnknownHostException ConfiguredFilter :=
  let hosts := (addHost getByName clientHost
      (fun criteria address => { criteria with clientAddress := some address })
      (filter.jpcapFilter, {})).andThen
    (addHost getByName serverHost
      fun criteria address => { criteria with serverAddress := some address })
  match hosts with
  | .thrown e (jpcapFilter, _) => .thrown e { filter with jpcapFilter }
  | .returned s =>
    let s := addPort clientPort (fun criteria port => { criteria with clientPort := port }) s
    let s := addPort serverPort (fun criteria port => { criteria with serverPort := port }) s
    .returned { filter with filters := filter.filters ++ [s.2], jpcapFilter := s.1 }

def addServerFilter (serverHost : Option (List Char)) (serverPort : Int) :
    ConfiguredFilter → Outcome UnknownHostException ConfiguredFilter :=
  addFilter getByName none 0 serverHost serverPort

def addClientFilter (clientHost : Option (List Char)) (clientPort : Int) :
    ConfiguredFilter → Outcome UnknownHostException ConfiguredFilter :=
  addFilter getByName clientHost clientPort none 0

def addHostPair (clientHost serverHost : Option (List Char)) :
    ConfiguredFilter → Outcome UnknownHostException ConfiguredFilter :=
  addFilter getByName clientHost 0 serverHost 0

/-- `addPortPair` catches the exception. -/
def addPortPair (clientPort serverPort : Int) (filter : ConfiguredFilter) :
    Outcome UnknownHostException ConfiguredFilter :=
  .returned (addFilter getByName none clientPort none serverPort filter).state

def addClientHostFilter (clientHost : Option (List Char)) :
    ConfiguredFilter → Outcome UnknownHostException ConfiguredFilter :=
  addFilter getByName clientHost 0 none 0

/-- `addServerHostFilter` with one argument. -/
def addServerHostFilter (serverHost : Option (List Char)) :
    ConfiguredFilter → Outcome UnknownHostException ConfiguredFilter :=
  addFilter getByName none 0 serverHost 0

/-! ## Sequences of calls -/

/-- A call of an `add*` method. -/
inductive AddCall where
  | serverFilter (serverHost : Option (List Char)) (serverPort : Int)
  | clientFilter (clientHost : Option (List Char)) (clientPort : Int)
  | hostPair (clientHost serverHost : Option (List Char))
  | portPair (clientPort serverPort : Int)
  | clientHostFilter (clientHost : Option (List Char))
  | serverHostFilter (serverHost : Option (List Char))
  | filter (clientHost : Option (List Char)) (clientPort : Int)
      (serverHost : Option (List Char)) (serverPort : Int)

/-- What a call does. -/
def AddCall.run : AddCall → ConfiguredFilter → Outcome UnknownHostException ConfiguredFilter
  | serverFilter serverHost serverPort => addServerFilter getByName serverHost serverPort
  | clientFilter clientHost clientPort => addClientFilter getByName clientHost clientPort
  | hostPair clientHost serverHost => addHostPair getByName clientHost serverHost
  | portPair clientPort serverPort => addPortPair getByName clientPort serverPort
  | clientHostFilter clientHost => addClientHostFilter getByName clientHost
  | serverHostFilter serverHost => addServerHostFilter getByName serverHost
  | filter clientHost clientPort serverHost serverPort =>
    addFilter getByName clientHost clientPort serverHost serverPort

/-- The calls one after the other, as long as none throws. -/
def addAll : List AddCall → ConfiguredFilter → Outcome UnknownHostException ConfiguredFilter
  | [], filter => .returned filter
  | call :: calls, filter => (call.run getByName filter).andThen (addAll calls)

end ConfiguredFilter

/-! ## What the lists hold -/

namespace FilterCriteria

/-- The addresses a criterion names. -/
def addresses (criteria : FilterCriteria) : List InetAddress :=
  criteria.clientAddress.toList ++ criteria.serverAddress.toList

/-- The ports a criterion names. -/
def ports (criteria : FilterCriteria) : List Int :=
  [criteria.clientPort, criteria.serverPort].filter (0 < ·)

/-- A port has 16 bits, so that no connection meets a criterion with a larger
one. -/
def Satisfiable (criteria : FilterCriteria) : Prop := ∀ n ∈ criteria.ports, n < 2 ^ 16

instance (criteria : FilterCriteria) : Decidable criteria.Satisfiable := List.decidableBAll _ _

theorem pos_of_mem_ports {criteria : FilterCriteria} {n : Int} (h : n ∈ criteria.ports) :
    0 < n := by
  simpa using (List.mem_filter.mp h).2

end FilterCriteria

namespace ConfiguredFilter

variable {getByName : List Char → Option InetAddress}

/-- The address that a host argument stands for, if it names one. -/
def named (getByName : List Char → Option InetAddress) (host : Option (List Char)) :
    Option InetAddress :=
  if notEmpty host then host.bind getByName else none

/-- The criterion that `addFilter` adds. -/
def criterion (getByName : List Char → Option InetAddress) (clientHost : Option (List Char))
    (clientPort : Int) (serverHost : Option (List Char)) (serverPort : Int) : FilterCriteria where
  clientAddress := named getByName clientHost
  serverAddress := named getByName serverHost
  clientPort := if 0 < clientPort then clientPort else 0
  serverPort := if 0 < serverPort then serverPort else 0

/-- The criterion that a call adds. -/
def AddCall.criterion (getByName : List Char → Option InetAddress) : AddCall → FilterCriteria
  | serverFilter serverHost serverPort =>
    ConfiguredFilter.criterion getByName none 0 serverHost serverPort
  | clientFilter clientHost clientPort =>
    ConfiguredFilter.criterion getByName clientHost clientPort none 0
  | hostPair clientHost serverHost =>
    ConfiguredFilter.criterion getByName clientHost 0 serverHost 0
  | portPair clientPort serverPort =>
    ConfiguredFilter.criterion getByName none clientPort none serverPort
  | clientHostFilter clientHost => ConfiguredFilter.criterion getByName clientHost 0 none 0
  | serverHostFilter serverHost => ConfiguredFilter.criterion getByName none 0 serverHost 0
  | filter clientHost clientPort serverHost serverPort =>
    ConfiguredFilter.criterion getByName clientHost clientPort serverHost serverPort

/-- The flat lists hold the addresses and the ports of all criteria, and
nothing else. -/
structure Collected (getByName : List Char → Option InetAddress) (jpcapFilter : JpcapFilter)
    (filters : List FilterCriteria) : Prop where
  lists : jpcapFilter = {
    hosts := jpcapFilter.hosts
    ports := (filters.flatMap FilterCriteria.ports).map integerText }
  resolved : jpcapFilter.hosts.map getByName = (filters.flatMap FilterCriteria.addresses).map some

section Add

variable {filter filter' : ConfiguredFilter}

theorem addHost_returned {host : Option (List Char)}
    {set : FilterCriteria → InetAddress → FilterCriteria} {s s' : JpcapFilter × FilterCriteria}
    (h : addHost getByName host set s = .returned s') :
    ∃ names, s'.1 = { s.1 with hosts := s.1.hosts ++ names } ∧
      names.map getByName = (named getByName host).toList.map some ∧
      s'.2 = ((named getByName host).map (set s.2)).getD s.2 := by
  unfold addHost at h
  cases host with
  | none =>
    obtain rfl := Outcome.returned.inj h
    exact ⟨[], by simp, rfl, rfl⟩
  | some name =>
    dsimp only at h
    split at h
    · rename_i hname
      have hnamed : named getByName (some name) = getByName name := by simp [named, hname]
      cases haddress : getByName name with
      | none => simp [haddress] at h
      | some address =>
        simp only [haddress, Outcome.returned.injEq] at h
        subst h
        exact ⟨[name], rfl, by simp [hnamed, haddress], by simp [hnamed, haddress]⟩
    · rename_i hname
      obtain rfl := Outcome.returned.inj h
      have hnamed : named getByName (some name) = none := by simp [named, hname]
      exact ⟨[], by simp, by simp [hnamed], by simp [hnamed]⟩

theorem addPort_eq (port : Int) (set : FilterCriteria → Int → FilterCriteria)
    (s : JpcapFilter × FilterCriteria) :
    addPort port set s =
      ({ s.1 with ports := s.1.ports ++ ([port].filter (0 < ·)).map integerText },
        if 0 < port then set s.2 port else s.2) := by
  unfold addPort
  by_cases h : 0 < port
  · simp [h, JpcapFilter.addPort]
  · simp [h]

/-- A call that returns adds its criterion and keeps the lists in step. -/
theorem addFilter_returned (clientHost : Option (List Char)) (clientPort : Int)
    (serverHost : Option (List Char)) (serverPort : Int)
    (h : addFilter getByName clientHost clientPort serverHost serverPort filter =
      .returned filter') :
    filter'.filters =
        filter.filters ++ [criterion getByName clientHost clientPort serverHost serverPort] ∧
      (Collected getByName filter.jpcapFilter filter.filters →
        Collected getByName filter'.jpcapFilter filter'.filters) := by
  unfold addFilter at h
  dsimp only at h
  cases hclient : addHost getByName clientHost
      (fun criteria address => { criteria with clientAddress := some address })
      (filter.jpcapFilter, {}) with
  | thrown e s => simp [hclient] at h
  | returned s =>
    rw [hclient, Outcome.andThen_returned] at h
    cases hserver : addHost getByName serverHost
        (fun criteria address => { criteria with serverAddress := some address }) s with
    | thrown e s' => simp [hserver] at h
    | returned s' =>
      obtain ⟨names, hlist, hresolved, hcriteria⟩ := addHost_returned hclient
      obtain ⟨names', hlist', hresolved', hcriteria'⟩ := addHost_returned hserver
      simp only [hserver, addPort_eq, Outcome.returned.injEq] at h
      subst h
      have hcriterion : criterion getByName clientHost clientPort serverHost serverPort =
          (if 0 < serverPort then
            { (if 0 < clientPort then { s'.2 with clientPort } else s'.2) with serverPort }
          else if 0 < clientPort then { s'.2 with clientPort } else s'.2) := by
        rw [hcriteria', hcriteria]
        unfold criterion
        cases named getByName clientHost <;> cases named getByName serverHost <;>
          by_cases hc : 0 < clientPort <;> by_cases hs : 0 < serverPort <;> simp [hc, hs]
      refine ⟨by rw [hcriterion], fun hcollected => ?_⟩
      dsimp only
      rw [← hcriterion]
      have hports : (criterion getByName clientHost clientPort serverHost serverPort).ports =
          [clientPort].filter (0 < ·) ++ [serverPort].filter (0 < ·) := by
        unfold criterion FilterCriteria.ports
        by_cases hc : 0 < clientPort <;> by_cases hs : 0 < serverPort <;> simp [hc, hs]
      constructor
      · rw [hlist', hlist, hcollected.lists, List.flatMap_append, List.flatMap_singleton, hports]
        simp
      · rw [hlist', hlist, List.flatMap_append, List.flatMap_singleton]
        simp only [List.map_append, hcollected.resolved, hresolved, hresolved', List.append_assoc]
        simp [FilterCriteria.addresses, criterion]

theorem run_returned {call : AddCall} (h : call.run getByName filter = .returned filter') :
    filter'.filters = filter.filters ++ [call.criterion getByName] ∧
      (Collected getByName filter.jpcapFilter filter.filters →
        Collected getByName filter'.jpcapFilter filter'.filters) := by
  cases call with
  | portPair clientPort serverPort =>
    -- without a host there is nothing to catch
    refine addFilter_returned none clientPort none serverPort ?_
    rw [← Outcome.returned.inj h]
    exact Outcome.eq_returned rfl
  | serverFilter | clientFilter | hostPair | clientHostFilter | serverHostFilter | filter =>
    exact addFilter_returned _ _ _ _ h

theorem addAll_returned {calls : List AddCall} (h : addAll getByName calls filter = .returned filter') :
    filter'.filters = filter.filters ++ calls.map (AddCall.criterion getByName) ∧
      (Collected getByName filter.jpcapFilter filter.filters →
        Collected getByName filter'.jpcapFilter filter'.filters) := by
  induction calls generalizing filter with
  | nil =>
    obtain rfl := Outcome.returned.inj h
    exact ⟨by simp, id⟩
  | cons call calls ih =>
    unfold addAll at h
    cases hcall : call.run getByName filter with
    | thrown e s => simp [hcall] at h
    | returned s =>
      rw [hcall, Outcome.andThen_returned] at h
      obtain ⟨hfilters, hcollected⟩ := run_returned hcall
      obtain ⟨hfilters', hcollected'⟩ := ih h
      exact ⟨by simp [hfilters', hfilters], fun hc => hcollected' (hcollected hc)⟩

end Add

/-! ## The two filters -/

/-- The endpoints of the connection meet the lists of all criteria. -/
def Fits (filters : List FilterCriteria) (d : ConnectionDetail) : Prop :=
  let addresses := filters.flatMap FilterCriteria.addresses
  let ports := filters.flatMap FilterCriteria.ports
  (addresses = [] ∨ d.clientAddress ∈ addresses ∨ d.serverAddress ∈ addresses) ∧
    (ports = [] ∨ ((d.clientPort.toNat : Int) < 2 ^ 15 ∧ (d.clientPort.toNat : Int) ∈ ports) ∨
      ((d.serverPort.toNat : Int) < 2 ^ 15 ∧ (d.serverPort.toNat : Int) ∈ ports))

/-- Every criterion that some connection can meet names a host or nobody
does, and names a port below 2^15 or nobody names a port.  (A list of hosts
that names every address there is would do as well.) -/
def Aligned (filters : List FilterCriteria) : Prop :=
  ∀ criteria ∈ filters, criteria.Satisfiable →
    (criteria.addresses ≠ [] ∨ filters.flatMap FilterCriteria.addresses = [] ∨
      ∀ address, address ∈ filters.flatMap FilterCriteria.addresses) ∧
    ((∃ n ∈ criteria.ports, n < 2 ^ 15) ∨ filters.flatMap FilterCriteria.ports = [])

section Aligned

variable {criteria : FilterCriteria} {d : ConnectionDetail}

theorem fits_swap {filters : List FilterCriteria} : Fits filters d.swap ↔ Fits filters d :=
  and_congr (or_congr Iff.rfl or_comm) (or_congr Iff.rfl or_comm)

theorem doFilter_iff {getByName : List Char → Option InetAddress} {jpcapFilter : JpcapFilter}
    {filters : List FilterCriteria} (h : Collected getByName jpcapFilter filters)
    (packet : JpcapPacket) :
    JpcapFilter.doFilter getByName jpcapFilter packet.captured = true ↔
      Fits filters packet.connectionDetail := by
  have hpos : ∀ n ∈ filters.flatMap FilterCriteria.ports, 0 < n := by
    intro n hn
    obtain ⟨criteria, -, hmem⟩ := List.mem_flatMap.mp hn
    exact FilterCriteria.pos_of_mem_ports hmem
  rw [h.lists]
  exact JpcapFilter.doFilter_captured h.resolved hpos packet

theorem addressMatches_iff {wanted : Option InetAddress} {address : InetAddress} :
    addressMatches wanted address = true ↔ ∀ a ∈ wanted, a = address := by
  cases wanted <;> simp [addressMatches]

theorem portMatches_iff {wanted : Int} {port : UInt16} :
    portMatches wanted port = true ↔ (0 < wanted → wanted = port.toNat) := by
  by_cases h : 0 < wanted <;> simp [portMatches, h]

theorem isMatch_iff : ConnectionFilter.isMatch criteria d = true ↔
    ((∀ a ∈ criteria.clientAddress, a = d.clientAddress) ∧
      ∀ a ∈ criteria.serverAddress, a = d.serverAddress) ∧
    (0 < criteria.clientPort → criteria.clientPort = d.clientPort.toNat) ∧
    (0 < criteria.serverPort → criteria.serverPort = d.serverPort.toNat) := by
  simp only [ConnectionFilter.isMatch, Bool.and_eq_true, addressMatches_iff, portMatches_iff,
    and_assoc]

theorem mem_addresses_of_isMatch (h : ConnectionFilter.isMatch criteria d = true)
    {address : InetAddress} (ha : address ∈ criteria.addresses) :
    address = d.clientAddress ∨ address = d.serverAddress := by
  obtain ⟨⟨hclient, hserver⟩, -⟩ := isMatch_iff.mp h
  rcases List.mem_append.mp ha with ha | ha
  · exact Or.inl (hclient _ (by simpa using ha))
  · exact Or.inr (hserver _ (by simpa using ha))

theorem mem_ports_of_isMatch (h : ConnectionFilter.isMatch criteria d = true) {n : Int}
    (hn : n ∈ criteria.ports) : n = d.clientPort.toNat ∨ n = d.serverPort.toNat := by
  obtain ⟨-, hclient, hserver⟩ := isMatch_iff.mp h
  have hpos := FilterCriteria.pos_of_mem_ports hn
  have hcases : n = criteria.clientPort ∨ n = criteria.serverPort := by
    simpa using (List.mem_filter.mp hn).1
  rcases hcases with rfl | rfl
  · exact Or.inl (hclient hpos)
  · exact Or.inr (hserver hpos)

/-- The port of a connection that meets a criterion: the one it names, or a
port that is negative as a `jshort`. -/
def chosenPort (wanted : Int) : UInt16 :=
  if 0 < wanted then UInt16.ofNat wanted.toNat else 2 ^ 15

theorem toNat_chosenPort {wanted : Int} (hlt : 0 < wanted → wanted < 2 ^ 16) :
    ((chosenPort wanted).toNat : Int) = if 0 < wanted then wanted else 2 ^ 15 := by
  unfold chosenPort
  split
  · rename_i hpos
    have := hlt hpos
    have hsize : wanted.toNat < UInt16.size := (by omega : wanted.toNat < 2 ^ 16)
    rw [UInt16.toNat_ofNat_of_lt' hsize]
    omega
  · rfl

/-- A connection that meets the criterion and is at `address` where the
criterion is silent. -/
def chosen (criteria : FilterCriteria) (address : InetAddress) : ConnectionDetail where
  clientAddress := criteria.clientAddress.getD address
  serverAddress := criteria.serverAddress.getD address
  clientPort := chosenPort criteria.clientPort
  serverPort := chosenPort criteria.serverPort

theorem Satisfiable.port_lt (h : criteria.Satisfiable) {n : Int}
    (hn : n = criteria.clientPort ∨ n = criteria.serverPort) (hpos : 0 < n) : n < 2 ^ 16 :=
  h n (List.mem_filter.mpr ⟨by simpa using hn, by simpa using hpos⟩)

theorem isMatch_chosen (h : criteria.Satisfiable) (address : InetAddress) :
    ConnectionFilter.isMatch criteria (chosen criteria address) = true := by
  refine isMatch_iff.mpr ⟨⟨?_, ?_⟩, ?_, ?_⟩
  · intro a ha
    simp [chosen, Option.mem_def.mp ha]
  · intro a ha
    simp [chosen, Option.mem_def.mp ha]
  · intro hpos
    exact ((toNat_chosenPort (Satisfiable.port_lt h (Or.inl rfl))).trans (if_pos hpos)).symm
  · intro hpos
    exact ((toNat_chosenPort (Satisfiable.port_lt h (Or.inr rfl))).trans (if_pos hpos)).symm

/-- A chosen port below 2^15 is named by the criterion. -/
theorem mem_ports_of_chosenPort (h : criteria.Satisfiable) {wanted : Int}
    (hwanted : wanted = criteria.clientPort ∨ wanted = criteria.serverPort)
    (hlow : ((chosenPort wanted).toNat : Int) < 2 ^ 15) :
    ∃ n ∈ criteria.ports, n < 2 ^ 15 := by
  rw [toNat_chosenPort (Satisfiable.port_lt h hwanted)] at hlow
  split at hlow
  · rename_i hpos
    exact ⟨wanted, List.mem_filter.mpr ⟨by simpa using hwanted, by simpa using hpos⟩, hlow⟩
  · omega

/-- Aligned criteria hide no connection that meets one of them. -/
theorem fits_of_isMatch {filters : List FilterCriteria} (h : Aligned filters)
    (hmem : criteria ∈ filters) (hmatch : ConnectionFilter.isMatch criteria d = true) :
    Fits filters d := by
  have hsat : criteria.Satisfiable := by
    intro n hn
    rcases mem_ports_of_isMatch hmatch hn with rfl | rfl
    · exact_mod_cast d.clientPort.toNat_lt
    · exact_mod_cast d.serverPort.toNat_lt
  obtain ⟨hhosts, hports⟩ := h criteria hmem hsat
  constructor
  · rcases hhosts with hnamed | hnil | hall
    · obtain ⟨address, haddress⟩ := List.exists_mem_of_ne_nil _ hnamed
      have hin : address ∈ filters.flatMap FilterCriteria.addresses :=
        List.mem_flatMap.mpr ⟨criteria, hmem, haddress⟩
      rcases mem_addresses_of_isMatch hmatch haddress with rfl | rfl
      · exact Or.inr (Or.inl hin)
      · exact Or.inr (Or.inr hin)
    · exact Or.inl hnil
    · exact Or.inr (Or.inl (hall _))
  · rcases hports with ⟨n, hn, hlow⟩ | hnil
    · have hin : n ∈ filters.flatMap FilterCriteria.ports :=
        List.mem_flatMap.mpr ⟨criteria, hmem, hn⟩
      rcases mem_ports_of_isMatch hmatch hn with rfl | rfl
      · exact Or.inr (Or.inl ⟨hlow, hin⟩)
      · exact Or.inr (Or.inr ⟨hlow, hin⟩)
    · exact Or.inl hnil

/-- Criteria that hide no connection that meets one of them are aligned. -/
theorem aligned_of_fits {filters : List FilterCriteria}
    (h : ∀ criteria ∈ filters, ∀ d, ConnectionFilter.isMatch criteria d = true →
      Fits filters d) : Aligned filters := by
  intro criteria hmem hsat
  have hchosen := fun address => h criteria hmem _ (isMatch_chosen hsat address)
  constructor
  · by_cases hnamed : criteria.addresses = []
    · obtain ⟨hc, hs⟩ := List.append_eq_nil_iff.mp hnamed
      rw [Option.toList_eq_nil_iff] at hc hs
      right
      by_cases hnil : filters.flatMap FilterCriteria.addresses = []
      · exact Or.inl hnil
      · refine Or.inr fun address => ?_
        rcases (hchosen address).1 with hnil' | hclient | hserver
        · exact absurd hnil' hnil
        · simpa only [chosen, hc, Option.getD_none] using hclient
        · simpa only [chosen, hs, Option.getD_none] using hserver
    · exact Or.inl hnamed
  · rcases (hchosen (.inet4 0 0 0 0)).2 with hnil | ⟨hlow, -⟩ | ⟨hlow, -⟩
    · exact Or.inr hnil
    · exact Or.inl (mem_ports_of_chosenPort hsat (Or.inl rfl) hlow)
    · exact Or.inl (mem_ports_of_chosenPort hsat (Or.inr rfl) hlow)

end Aligned

/-- After any sequence of `add*` calls that all return, the native filter
lets every packet of every acceptable connection pass if and only if the
criteria that the calls add are aligned. -/
theorem native_filter_iff (getByName : List Char → Option InetAddress) (calls : List AddCall)
    {filter : ConfiguredFilter} (hcalls : addAll getByName calls {} = .returned filter) :
    (∀ (d : ConnectionDetail) (packet : JpcapPacket), filter.isAcceptable d = true →
      packet.connectionDetail = d ∨ packet.connectionDetail = d.swap →
        JpcapFilter.doFilter getByName filter.jpcapFilter packet.captured = true) ↔
      Aligned (calls.map (AddCall.criterion getByName)) := by
  obtain ⟨hfilters, hcollected⟩ := addAll_returned hcalls
  have hcriteria : filter.filters = calls.map (AddCall.criterion getByName) := by
    simpa using hfilters
  rw [← hcriteria]
  simp only [doFilter_iff (hcollected ⟨rfl, rfl⟩)]
  constructor
  · intro hpasses
    refine aligned_of_fits fun criteria hmem d hmatch => ?_
    refine hpasses d ⟨d.clientAddress, d.serverAddress, d.clientPort, d.serverPort, 0, 0, false,
      false, false, false, [], 0⟩ ?_ (Or.inl rfl)
    exact Bool.or_eq_true_iff.mpr (Or.inr (List.any_eq_true.mpr ⟨criteria, hmem, hmatch⟩))
  · intro haligned d packet haccepted hpacket
    have hfits : Fits filter.filters d := by
      rcases Bool.or_eq_true_iff.mp haccepted with hempty | hany
      · have hnil : filter.filters = [] := by simpa using hempty
        rw [hnil]
        exact ⟨Or.inl rfl, Or.inl rfl⟩
      · obtain ⟨criteria, hmem, hmatch⟩ := List.any_eq_true.mp hany
        exact fits_of_isMatch haligned hmem hmatch
    rcases hpacket with hpacket | hpacket
    · rwa [hpacket]
    · rwa [hpacket, fits_swap]

/-- A filter for one web server hides none of its connections. -/
theorem native_filter_iff_web :
    let server := InetAddress.inet4 10 0 0 2
    let calls : List AddCall := [.serverFilter (some ['w', 'e', 'b']) 80]
    ∃ filter, addAll (fun _ => some server) calls {} = .returned filter ∧
      ∀ (d : ConnectionDetail) (packet : JpcapPacket), filter.isAcceptable d = true →
        packet.connectionDetail = d ∨ packet.connectionDetail = d.swap →
          JpcapFilter.doFilter (fun _ => some server) filter.jpcapFilter packet.captured = true := by
  intro server calls
  refine ⟨_, rfl, (native_filter_iff (fun _ => some server) calls rfl).mpr ?_⟩
  intro criteria hmem _
  obtain rfl := List.mem_singleton.mp hmem
  exact ⟨Or.inl (by decide), Or.inl ⟨80, by decide, by decide⟩⟩

/-- One criterion names a host and another one a port: a connection that
meets the second one alone is hidden. -/
theorem accepted_connection_hidden :
    let client := InetAddress.inet4 10 0 0 1
    let server := InetAddress.inet4 10 0 0 2
    let host := InetAddress.inet4 10 0 0 3
    let calls : List AddCall := [.clientHostFilter (some ['h', 'o', 's', 't']), .portPair 0 80]
    let packet : JpcapPacket :=
      ⟨client, server, 50000, 80, 100, 0, false, false, true, false, [], 0⟩
    ∃ filter, addAll (fun _ => some host) calls {} = .returned filter ∧
      filter.isAcceptable packet.connectionDetail = true ∧
      JpcapFilter.doFilter (fun _ => some host) filter.jpcapFilter packet.captured = false := by
  intro client server host calls packet
  exact ⟨_, rfl, by decide, by decide⟩

end ConfiguredFilter

end ConnectionSniffer
