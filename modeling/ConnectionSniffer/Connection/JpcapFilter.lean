import Mathlib
import ConnectionSniffer.Packet.TCPPacket

/-!
# `JpcapFilter` and `doFilter`

A `JpcapFilter` is a set of lists that the native capture loop reads.
`doFilter` lets a packet pass if every list that is not empty has an
element that fits it: the lists are joined by "and", the elements of one
list by "or".

The protocols of a `JpcapFilter` are left out, as `doFilter` does not read
them.  `getByName` is the name resolver; it is a parameter, and gives `none`
where the source throws an `UnknownHostException`.
-/

namespace ConnectionSniffer

/-- The text of an `int`: `port + ""`. -/
def integerText (n : Int) : List Char := n.repr.toList

@[simp] theorem integerText_inj {m n : Int} : integerText m = integerText n ↔ m = n := by
  unfold integerText
  rw [String.toList_inj, Int.repr_inj]

/-- The conversion of a `jint` to a `jshort`. -/
def toShort (port : Int) : Int := port.bmod (2 ^ 16)

structure JpcapFilter where
  hosts : List (List Char) := []
  srcHosts : List (List Char) := []
  destHosts : List (List Char) := []
  ports : List (List Char) := []
  srcPorts : List (List Char) := []
  destPorts : List (List Char) := []

/-- What `doFilter` sees of a packet: its class and its endpoints. -/
inductive CapturedPacket where
  | other
  | ip (srcIp dstIp : InetAddress)
  | tcp (srcIp dstIp : InetAddress) (srcPort dstPort : UInt16)

namespace CapturedPacket

/-- `pkg_src_ip`, `NULL` unless the packet is an `IPPacket`. -/
def srcIp : CapturedPacket → Option InetAddress
  | other => none
  | ip srcIp _ | tcp srcIp _ _ _ => some srcIp

/-- `pkg_dest_ip`. -/
def dstIp : CapturedPacket → Option InetAddress
  | other => none
  | ip _ dstIp | tcp _ dstIp _ _ => some dstIp

/-- `pkg_src_port`, `NULL` unless the packet is a `TCPPacket`. -/
def srcPort : CapturedPacket → Int
  | tcp _ _ srcPort _ => srcPort.toNat
  | _ => 0

/-- `pkg_dest_port`. -/
def dstPort : CapturedPacket → Int
  | tcp _ _ _ dstPort => dstPort.toNat
  | _ => 0

end CapturedPacket

/-- The `TCPPacket` of a captured segment. -/
def JpcapPacket.captured (p : JpcapPacket) : CapturedPacket :=
  .tcp p.srcIp p.dstIp p.srcPort p.dstPort

namespace JpcapFilter

variable (getByName : List Char → Option InetAddress)

def addHost (filter : JpcapFilter) (host : List Char) : JpcapFilter :=
  { filter with hosts := filter.hosts ++ [host] }

def addPort (filter : JpcapFilter) (port : Int) : JpcapFilter :=
  { filter with ports := filter.ports ++ [integerText port] }

/-- `compareAddress`; a name that is unknown is skipped. -/
def compareAddress (containedAddr : List (List Char)) (address : InetAddress) : Bool :=
  containedAddr.any fun addr => getByName addr == some address

def comparePort (containdPorts : List (List Char)) (port : Int) : Bool :=
  containdPorts.any fun pt => pt == integerText port

/-- `isEmpty`, which answers 1 for a list that is not empty. -/
def isEmpty (array : List (List Char)) : Bool := !array.isEmpty

/-- `jpcap_host_filter`.  The address is never `NULL` here, as a packet
without addresses has failed before. -/
def jpcapHostFilter (address : Option InetAddress) (hosts : List (List Char)) : Bool :=
  match address with
  | none => false
  | some address => compareAddress getByName hosts address

/-- `jpcap_port_filter`, which takes the port as a `jshort`. -/
def jpcapPortFilter (port : Int) (ports : List (List Char)) : Bool :=
  comparePort ports (toShort port)

/-- `if (pass) { if (isEmpty(list)) pass = test; }`. -/
def restrict (list : List (List Char)) (test pass : Bool) : Bool :=
  if pass then (if isEmpty list then test else pass) else pass

def doFilter (filter : JpcapFilter) (packet : CapturedPacket) : Bool :=
  let host := jpcapHostFilter getByName
  let pass := match packet with
    | .tcp _ _ _ _ => true
    | .ip _ _ =>
      !(isEmpty filter.ports || isEmpty filter.srcPorts || isEmpty filter.destPorts)
    | .other =>
      !(isEmpty filter.hosts || isEmpty filter.srcHosts || isEmpty filter.destHosts)
  let pass := restrict filter.hosts
    (host packet.srcIp filter.hosts || host packet.dstIp filter.hosts) pass
  let pass := restrict filter.srcHosts (host packet.srcIp filter.srcHosts) pass
  let pass := restrict filter.destHosts (host packet.dstIp filter.destHosts) pass
  let pass := restrict filter.ports
    (jpcapPortFilter packet.srcPort filter.ports || jpcapPortFilter packet.dstPort filter.ports)
    pass
  let pass := restrict filter.srcPorts (jpcapPortFilter packet.srcPort filter.srcPorts) pass
  restrict filter.destPorts (jpcapPortFilter packet.dstPort filter.destPorts) pass

/-! ## What the tests accept -/

variable {getByName}

@[simp] theorem restrict_iff {list : List (List Char)} {test pass : Bool} :
    restrict list test pass = true ↔ pass = true ∧ (list = [] ∨ test = true) := by
  unfold restrict isEmpty
  cases list <;> cases pass <;> simp

theorem compareAddress_iff {hosts : List (List Char)} {addresses : List InetAddress}
    (h : hosts.map getByName = addresses.map some) {address : InetAddress} :
    compareAddress getByName hosts address = true ↔ address ∈ addresses := by
  have hany : compareAddress getByName hosts address =
      (hosts.map getByName).any (· == some address) := by
    simp [compareAddress, List.any_map, Function.comp_def]
  simp [hany, h]

/-- A `jshort` is positive for the ports below 2^15 alone. -/
theorem jpcapPortFilter_iff {ports : List Int} (hpos : ∀ n ∈ ports, 0 < n) {port : UInt16} :
    jpcapPortFilter port.toNat (ports.map integerText) = true ↔
      (port.toNat : Int) < 2 ^ 15 ∧ (port.toNat : Int) ∈ ports := by
  have hmem : jpcapPortFilter port.toNat (ports.map integerText) = true ↔
      toShort port.toNat ∈ ports := by
    simp [jpcapPortFilter, comparePort]
  have hlt := port.toNat_lt
  rw [hmem]
  by_cases hlow : (port.toNat : Int) < 2 ^ 15
  · have hshort : toShort port.toNat = port.toNat := by
      unfold toShort
      exact Int.bmod_eq_of_le (by omega) (by omega)
    rw [hshort]
    exact ⟨fun h => ⟨hlow, h⟩, And.right⟩
  · refine iff_of_false (fun h => ?_) (fun h => hlow h.1)
    have hshort := hpos _ h
    rw [toShort, Int.bmod_def] at hshort
    split at hshort <;> omega

/-- `doFilter` on a segment, for a filter of hosts and ports. -/
theorem doFilter_captured {hosts : List (List Char)} {addresses : List InetAddress}
    {ports : List Int} (hhosts : hosts.map getByName = addresses.map some)
    (hpos : ∀ n ∈ ports, 0 < n) (p : JpcapPacket) :
    doFilter getByName { hosts, ports := ports.map integerText } p.captured = true ↔
      (addresses = [] ∨ p.srcIp ∈ addresses ∨ p.dstIp ∈ addresses) ∧
        (ports = [] ∨ ((p.srcPort.toNat : Int) < 2 ^ 15 ∧ (p.srcPort.toNat : Int) ∈ ports) ∨
          ((p.dstPort.toNat : Int) < 2 ^ 15 ∧ (p.dstPort.toNat : Int) ∈ ports)) := by
  have hnil : hosts = [] ↔ addresses = [] := by
    rw [← List.map_eq_nil_iff (f := getByName), hhosts, List.map_eq_nil_iff]
  simp only [doFilter, JpcapPacket.captured, restrict_iff, CapturedPacket.srcIp,
    CapturedPacket.dstIp, CapturedPacket.srcPort, CapturedPacket.dstPort, jpcapHostFilter,
    Bool.or_eq_true, compareAddress_iff hhosts, jpcapPortFilter_iff hpos, hnil,
    List.map_eq_nil_iff, true_and, true_or, and_true]

end JpcapFilter

end ConnectionSniffer
