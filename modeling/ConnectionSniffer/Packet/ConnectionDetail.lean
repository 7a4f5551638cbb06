import Mathlib.Tactic.Basic
import Mathlib.Data.Nat.Notation

/-!
# Endpoints of a connection

`ConnectionDetail` names the two endpoints of a connection, and
`equals` decides which details address the same entry of a connection
table.  `equals` compares 32-bit hash codes, and a hash code is the sum of
the Java string hashes of the two endpoint texts.

An `InetAddress` is the literal address that jpcap builds from the bytes
of an IP header, so it has no host name and its `toString` is `/` and the
numeric text.  A Java `String` is the list of its characters, and a Java
`int` that only ever is added, multiplied and compared for equality is a
`BitVec 32`.

The creation date of a detail is left out: nothing here reads it.
-/

namespace ConnectionSniffer

/-- A literal IP address. -/
inductive InetAddress where
  | inet4 (a b c d : UInt8)
  | inet6 (g0 g1 g2 g3 g4 g5 g6 g7 : UInt16)
  deriving DecidableEq

/-- The digits of `Integer.toString`. -/
def decimal (n : Nat) : List Char := Nat.toDigits 10 n

/-- The digits of `Integer.toHexString`. -/
def hexadecimal (n : Nat) : List Char := Nat.toDigits 16 n

/-- `InetAddress.getHostAddress`. -/
def InetAddress.getHostAddress : InetAddress → List Char
  | .inet4 a b c d => ['.'].intercalate ([a, b, c, d].map fun octet => decimal octet.toNat)
  | .inet6 g0 g1 g2 g3 g4 g5 g6 g7 =>
    [':'].intercalate
      ([g0, g1, g2, g3, g4, g5, g6, g7].map fun group => hexadecimal group.toNat)

/-- `InetAddress.toString` of an address without a host name. -/
def InetAddress.toText (address : InetAddress) : List Char := '/' :: address.getHostAddress

/-- `String.hashCode`: `31 * h + c` over the characters, in `int`. -/
def stringHashCode (text : List Char) : BitVec 32 :=
  text.foldl (fun h c => 31 * h + BitVec.ofNat 32 c.toNat) 0

structure ConnectionDetail where
  clientAddress : InetAddress
  serverAddress : InetAddress
  clientPort : UInt16
  serverPort : UInt16
  deriving DecidableEq

/-- The text whose hash stands for an endpoint: address, `/`, port. -/
def endpointText (address : InetAddress) (port : UInt16) : List Char :=
  address.toText ++ '/' :: decimal port.toNat

namespace ConnectionDetail

/-- The same connection seen from its server. -/
def swap (d : ConnectionDetail) : ConnectionDetail :=
  ⟨d.serverAddress, d.clientAddress, d.serverPort, d.clientPort⟩

@[simp] theorem swap_swap (d : ConnectionDetail) : d.swap.swap = d := rfl

/-- Whether two details have the same client and the same server. -/
def isTheSame (d d' : ConnectionDetail) : Bool :=
  d.clientAddress == d'.clientAddress && d.clientPort == d'.clientPort
    && d.serverAddress == d'.serverAddress && d.serverPort == d'.serverPort

@[simp] theorem isTheSame_iff {d d' : ConnectionDetail} : d.isTheSame d' = true ↔ d = d' := by
  cases d
  cases d'
  simp only [isTheSame, Bool.and_eq_true, beq_iff_eq, mk.injEq]
  constructor
  · rintro ⟨⟨⟨ha, hp⟩, ha'⟩, hp'⟩
    exact ⟨ha, ha', hp, hp'⟩
  · rintro ⟨ha, ha', hp, hp'⟩
    exact ⟨⟨⟨ha, hp⟩, ha'⟩, hp'⟩

def hashCode (d : ConnectionDetail) : BitVec 32 :=
  stringHashCode (endpointText d.clientAddress d.clientPort)
    + stringHashCode (endpointText d.serverAddress d.serverPort)

@[simp] theorem hashCode_swap (d : ConnectionDetail) : d.swap.hashCode = d.hashCode := by
  simp only [hashCode, swap]
  exact BitVec.add_comm _ _

/-- `equals`: the hash codes agree. -/
def equals (d d' : ConnectionDetail) : Bool := d.hashCode == d'.hashCode

/-- Connection tables are keyed by `equals`. -/
instance : BEq ConnectionDetail := ⟨equals⟩

theorem beq_iff {d d' : ConnectionDetail} : (d == d') = true ↔ d.hashCode = d'.hashCode := by
  show equals d d' = true ↔ _
  simp [equals]

instance : EquivBEq ConnectionDetail where
  rfl := by intro d; rw [beq_iff]
  symm := by
    intro d d' h
    rw [beq_iff] at h ⊢
    exact h.symm
  trans := by
    intro d d' d'' h h'
    rw [beq_iff] at h h' ⊢
    exact h.trans h'

@[simp] theorem swap_beq (d : ConnectionDetail) : (d.swap == d) = true := by
  rw [beq_iff, hashCode_swap]

@[simp] theorem beq_swap (d : ConnectionDetail) : (d == d.swap) = true := by
  rw [beq_iff, hashCode_swap]

end ConnectionDetail

end ConnectionSniffer
