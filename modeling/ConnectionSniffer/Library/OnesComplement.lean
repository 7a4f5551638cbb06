import ConnectionSniffer.Library.Stores

/-!
# Sums in ones' complement

A checksum of 16-bit words is the complement of their sum, with the carries
added back in.  `foldCarry` adds the carries back once; for a sum below
`2 ^ 32` two of these steps leave 16 bits.  A sum folds to `0xffff` if it is
a positive multiple of `0xffff`, and adding the complement to a sum makes it
one: this is why a receiver that sums up everything, the checksum included,
gets the complement 0 (`onesComplement_add`).
-/

namespace ConnectionSniffer

/-- `(sum & 0xffff) + (sum >> 16)`. -/
def foldCarry (sum : Nat) : Nat := sum % 65536 + sum / 65536

/-- The complement of the sum with its carries. -/
def onesComplement (sum : Nat) : Nat := 65535 - foldCarry (foldCarry sum) % 65536

theorem foldCarry_mod (sum : Nat) : foldCarry sum % 65535 = sum % 65535 := by
  unfold foldCarry
  omega

theorem foldCarry_le {sum : Nat} (h : sum < 2 ^ 32) : foldCarry (foldCarry sum) ≤ 65535 := by
  unfold foldCarry
  omega

theorem foldCarry_eq_zero {sum : Nat} : foldCarry sum = 0 ↔ sum = 0 := by
  unfold foldCarry
  omega

theorem onesComplement_lt (sum : Nat) : onesComplement sum < 65536 := by
  unfold onesComplement
  omega

/-- The test of a receiver. -/
theorem onesComplement_eq_zero {sum : Nat} (h : sum < 2 ^ 32) :
    onesComplement sum = 0 ↔ sum ≠ 0 ∧ sum % 65535 = 0 := by
  have hle := foldCarry_le h
  have hmod : foldCarry (foldCarry sum) % 65535 = sum % 65535 := by
    rw [foldCarry_mod, foldCarry_mod]
  have hzero : foldCarry (foldCarry sum) = 0 ↔ sum = 0 := by
    rw [foldCarry_eq_zero, foldCarry_eq_zero]
  unfold onesComplement
  generalize foldCarry (foldCarry sum) = folded at *
  omega

/-- The complement of a sum makes it verify. -/
theorem onesComplement_add {sum : Nat} (h : sum < 2 ^ 31) :
    onesComplement (sum + onesComplement sum) = 0 := by
  have hle : foldCarry (foldCarry sum) ≤ 65535 := foldCarry_le (by omega)
  have hmod : foldCarry (foldCarry sum) % 65535 = sum % 65535 := by
    rw [foldCarry_mod, foldCarry_mod]
  have hzero : foldCarry (foldCarry sum) = 0 ↔ sum = 0 := by
    rw [foldCarry_eq_zero, foldCarry_eq_zero]
  have hlt := onesComplement_lt sum
  rw [onesComplement_eq_zero (by omega)]
  unfold onesComplement
  generalize foldCarry (foldCarry sum) = folded at *
  omega

end ConnectionSniffer
