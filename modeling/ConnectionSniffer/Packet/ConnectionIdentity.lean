import ConnectionSniffer.Packet.ConnectionDetail
import Mathlib.Data.Nat.Digits.Defs
import Mathlib.Data.Nat.ModEq
import Mathlib.Data.Sym.Sym2

/-!
# Which connections `equals` tells apart

A TCP connection is named by the unordered pair of its endpoints.
`ConnectionDetail.equals` compares a 32-bit sum of two string hashes
instead.  The hash of a text is the number that the text spells in base
31, modulo `2 ^ 32`, so `equals` merges two connections exactly when the
sums of these numbers agree modulo `2 ^ 32`; `equals_iff_endpoints_iff`
states this as the condition under which `equals` is right.

`neighbouring_ports_collide` shows that the condition fails in ordinary
traffic: moving one unit from the last digit of one port to the last digit
of the other keeps the sum.
-/

namespace ConnectionSniffer

/-- The number a text spells in base 31, its characters as digits. -/
def textValue (text : List Char) : Nat := Nat.ofDigits 31 (text.reverse.map Char.toNat)

@[simp] theorem textValue_nil : textValue [] = 0 := rfl

@[simp] theorem textValue_concat (text : List Char) (c : Char) :
    textValue (text ++ [c]) = 31 * textValue text + c.toNat := by
  simp [textValue, Nat.ofDigits_cons, Nat.add_comm]

/-- A string hash is the value of the text in 32 bits. -/
theorem stringHashCode_eq (text : List Char) :
    stringHashCode text = BitVec.ofNat 32 (textValue text) := by
  induction text using List.reverseRecOn with
  | nil => rfl
  | append_singleton text c ih =>
    have hfold : stringHashCode (text ++ [c]) =
        31 * stringHashCode text + BitVec.ofNat 32 c.toNat := by
      simp [stringHashCode]
    rw [hfold, ih, textValue_concat, BitVec.ofNat_add, BitVec.ofNat_mul]
    rfl

namespace ConnectionDetail

/-- The unordered pair of (address, port) endpoints. -/
def endpoints (d : ConnectionDetail) : Sym2 (InetAddress × UInt16) :=
  s((d.clientAddress, d.clientPort), (d.serverAddress, d.serverPort))

/-- Two details name the same pair when they are equal up to direction. -/
theorem endpoints_eq_iff {d d' : ConnectionDetail} :
    d.endpoints = d'.endpoints ↔ d = d' ∨ d = d'.swap := by
  obtain ⟨ca, sa, cp, sp⟩ := d
  obtain ⟨ca', sa', cp', sp'⟩ := d'
  simp only [endpoints, swap, Sym2.eq_iff, Prod.mk.injEq, mk.injEq]
  constructor
  · rintro (⟨⟨rfl, rfl⟩, rfl, rfl⟩ | ⟨⟨rfl, rfl⟩, rfl, rfl⟩)
    · exact Or.inl ⟨rfl, rfl, rfl, rfl⟩
    · exact Or.inr ⟨rfl, rfl, rfl, rfl⟩
  · rintro (⟨rfl, rfl, rfl, rfl⟩ | ⟨rfl, rfl, rfl, rfl⟩)
    · exact Or.inl ⟨⟨rfl, rfl⟩, rfl, rfl⟩
    · exact Or.inr ⟨⟨rfl, rfl⟩, rfl, rfl⟩

/-- The values of the two endpoint texts together. -/
def endpointsValue (d : ConnectionDetail) : Nat :=
  textValue (endpointText d.clientAddress d.clientPort)
    + textValue (endpointText d.serverAddress d.serverPort)

theorem hashCode_eq (d : ConnectionDetail) :
    d.hashCode = BitVec.ofNat 32 d.endpointsValue := by
  rw [hashCode, stringHashCode_eq, stringHashCode_eq, endpointsValue, BitVec.ofNat_add]

/-- `equals` compares the values modulo `2 ^ 32`. -/
theorem equals_iff_modEq {d d' : ConnectionDetail} :
    d.equals d' = true ↔ d.endpointsValue ≡ d'.endpointsValue [MOD 2 ^ 32] := by
  rw [equals, beq_iff_eq, hashCode_eq, hashCode_eq, ← BitVec.toNat_inj, BitVec.toNat_ofNat,
    BitVec.toNat_ofNat]
  rfl

/-- Details of the same pair are always equal. -/
theorem equals_of_endpoints_eq {d d' : ConnectionDetail} (h : d.endpoints = d'.endpoints) :
    d.equals d' = true := by
  rcases endpoints_eq_iff.mp h with rfl | rfl
  · simp [equals]
  · simp [equals]

/-- `equals` is right about two details exactly when they name the same pair
or the base-31 values of their endpoint texts differ modulo `2 ^ 32`. -/
theorem equals_iff_endpoints_iff (d d' : ConnectionDetail) :
    (d.equals d' = true ↔ d.endpoints = d'.endpoints) ↔
      (d.endpoints = d'.endpoints ∨ ¬ d.endpointsValue ≡ d'.endpointsValue [MOD 2 ^ 32]) := by
  rw [← equals_iff_modEq]
  constructor
  · intro h
    by_cases he : d.endpoints = d'.endpoints
    · exact Or.inl he
    · exact Or.inr fun heq => he (h.mp heq)
  · rintro (he | hne)
    · exact ⟨fun _ => he, fun _ => equals_of_endpoints_eq he⟩
    · exact ⟨fun heq => absurd heq hne, equals_of_endpoints_eq⟩

/-- Two connections of one host, to the ports 8080 and 8081 of another. -/
theorem equals_merges_two_connections :
    let a : ConnectionDetail := ⟨.inet4 10 0 0 1, .inet4 10 0 0 2, 50001, 8080⟩
    let b : ConnectionDetail := ⟨.inet4 10 0 0 1, .inet4 10 0 0 2, 50000, 8081⟩
    a.equals b = true ∧ a.endpoints ≠ b.endpoints := by
  refine ⟨by decide, ?_⟩
  rw [Ne, endpoints_eq_iff]
  decide

/-! ## Neighbouring ports -/

private theorem decimal_succ {n : Nat} (h : n % 10 ≠ 9) :
    ∃ text c, decimal n = text ++ [c] ∧ ∃ c', decimal (n + 1) = text ++ [c'] ∧
      c'.toNat = c.toNat + 1 := by
  have hdigit : ∀ k < 9, (Nat.digitChar (k + 1)).toNat = (Nat.digitChar k).toNat + 1 := by
    decide
  have hmod : (n + 1) % 10 = n % 10 + 1 := by omega
  have hdiv : (n + 1) / 10 = n / 10 := by omega
  have hlt : n % 10 < 9 := by omega
  by_cases hn : n < 10
  · refine ⟨[], Nat.digitChar n, ?_, Nat.digitChar (n + 1), ?_, hdigit n (by omega)⟩
    · exact Nat.toDigits_of_lt_base hn
    · exact Nat.toDigits_of_lt_base (by omega)
  · refine ⟨Nat.toDigits 10 (n / 10), Nat.digitChar (n % 10), ?_, Nat.digitChar (n % 10 + 1), ?_,
      hdigit _ hlt⟩
    · exact Nat.toDigits_of_base_le (by omega) (by omega)
    · rw [decimal, Nat.toDigits_of_base_le (by omega) (by omega), hdiv, hmod]

/-- Raising the last digit of the port raises the value of the text by
one. -/
theorem textValue_endpointText_succ (address : InetAddress) {port port' : UInt16}
    (h : port.toNat % 10 ≠ 9) (hsucc : port'.toNat = port.toNat + 1) :
    textValue (endpointText address port') = textValue (endpointText address port) + 1 := by
  obtain ⟨text, c, hc, c', hc', hcc⟩ := decimal_succ h
  have hsplit : ∀ ch, address.toText ++ '/' :: (text ++ [ch]) =
      (address.toText ++ '/' :: text) ++ [ch] := by
    intro ch
    simp
  rw [endpointText, endpointText, hsucc, hc', hc, hsplit, hsplit, textValue_concat,
    textValue_concat, hcc]
  omega

/-- One unit moved from the last digit of one port to the last digit of the
other: different connections, as long as the endpoints differ, and
`equals` merges them. -/
theorem neighbouring_ports_collide (client server : InetAddress) {p p' q q' : UInt16}
    (hp : p.toNat % 10 ≠ 9) (hp' : p'.toNat = p.toNat + 1)
    (hq : q.toNat % 10 ≠ 9) (hq' : q'.toNat = q.toNat + 1) (hne : (client, p) ≠ (server, q)) :
    let a : ConnectionDetail := ⟨client, server, p', q⟩
    let b : ConnectionDetail := ⟨client, server, p, q'⟩
    a.equals b = true ∧ a.endpoints ≠ b.endpoints := by
  intro a b
  constructor
  · have ha : a.endpointsValue = b.endpointsValue := by
      simp only [a, b, endpointsValue, textValue_endpointText_succ client hp hp',
        textValue_endpointText_succ server hq hq']
      omega
    rw [equals_iff_modEq, ha]
  · rw [Ne, endpoints_eq_iff]
    rintro (h | h)
    · have hport : p' = p := (ConnectionDetail.mk.inj h).2.2.1
      rw [hport] at hp'
      omega
    · obtain ⟨-, haddress, -, hport⟩ := ConnectionDetail.mk.inj h
      have haddress : server = client := haddress
      have hport : q = p := hport
      exact hne (by rw [haddress, hport])

end ConnectionDetail

end ConnectionSniffer
