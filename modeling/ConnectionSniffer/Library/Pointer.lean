import Mathlib.Algebra.Group.Int.Defs
import Mathlib.Algebra.Group.Nat.Defs
import Mathlib.Data.List.Basic
import Mathlib.Data.List.Range

/-!
# Pointers into raw memory

A C function that decodes a packet holds a `u_char *` and reads whatever
lies behind it; it neither knows where the buffer ends nor asks.  A
`Pointer` is what such a pointer reaches: `p k` is `p[k]`, for every `k`.
The arithmetic `p + n` is `p.add n`.

Two buffers that agree behind two pointers are the same pointer, so a
decoder that reads only behind its argument cannot tell them apart: this is
the one rule that the users of this module need, and it costs nothing.

Words are read as a little-endian machine loads them (`u16`, `u32`), and
`ntohs` and `ntohl` swap their bytes.
-/

namespace ConnectionSniffer

/-- What a `u_char *` reaches. -/
abbrev Pointer := Int → UInt8

/-- `ntohs` and `htons` of a little-endian machine. -/
def ntohs (x : Nat) : Nat := x % 256 * 256 + x / 256 % 256

/-- `ntohl` and `htonl` of a little-endian machine. -/
def ntohl (x : Nat) : Nat := ntohs (x % 65536) * 65536 + ntohs (x / 65536)

theorem ntohs_lt (x : Nat) : ntohs x < 65536 := by
  unfold ntohs
  omega

theorem ntohs_ntohs (x : Nat) (h : x < 65536) : ntohs (ntohs x) = x := by
  have hhigh : x / 256 < 256 := by omega
  have hlow : x % 256 < 256 := Nat.mod_lt _ (by decide)
  have hsplit : 256 * (x / 256) + x % 256 = x := Nat.div_add_mod x 256
  unfold ntohs
  rw [Nat.mod_eq_of_lt hhigh]
  generalize x / 256 = high at *
  generalize x % 256 = low at *
  have hlast : (low * 256 + high) % 256 = high := by omega
  have hfirst : (low * 256 + high) / 256 = low := by omega
  rw [hlast, hfirst, Nat.mod_eq_of_lt hlow]
  omega

theorem ntohl_lt (x : Nat) : ntohl x < 2 ^ 32 := by
  have hlow := ntohs_lt (x % 65536)
  have hhigh := ntohs_lt (x / 65536)
  unfold ntohl
  omega

namespace Pointer

/-- `p + n`. -/
def add (p : Pointer) (n : Int) : Pointer := fun k => p (n + k)

/-- The `n` bytes behind `p`. -/
def bytes (p : Pointer) (n : Nat) : List UInt8 := (List.range n).map fun (k : Nat) => p k

/-- `*(u_short *)(p + n)`. -/
def u16 (p : Pointer) (n : Int) : Nat := (p n).toNat + 256 * (p (n + 1)).toNat

/-- `*(u_int *)(p + n)`. -/
def u32 (p : Pointer) (n : Int) : Nat := p.u16 n + 65536 * p.u16 (n + 2)

/-- A pointer to a list of bytes, with zeros around them. -/
def ofList (l : List UInt8) : Pointer := fun k => if 0 ≤ k then l.getD k.toNat 0 else 0

@[simp] theorem add_apply (p : Pointer) (n k : Int) : p.add n k = p (n + k) := rfl

@[simp] theorem add_zero (p : Pointer) : p.add 0 = p := by
  funext k
  rw [add_apply, Int.zero_add]

@[simp] theorem add_add (p : Pointer) (m n : Int) : (p.add m).add n = p.add (m + n) := by
  funext k
  rw [add_apply, add_apply, add_apply, Int.add_assoc]

@[simp] theorem u16_add (p : Pointer) (m n : Int) : (p.add m).u16 n = p.u16 (m + n) := by
  unfold u16
  rw [add_apply, add_apply, Int.add_assoc]

@[simp] theorem length_bytes (p : Pointer) (n : Nat) : (p.bytes n).length = n := by
  rw [bytes, List.length_map, List.length_range]

theorem getElem_bytes (p : Pointer) (n k : Nat) (h : k < (p.bytes n).length) :
    (p.bytes n)[k] = p k := by
  simp [bytes]

theorem bytes_add (p : Pointer) (m n : Nat) :
    p.bytes (m + n) = p.bytes m ++ (p.add m).bytes n := by
  unfold bytes
  rw [List.range_add, List.map_append, List.map_map]
  rfl

theorem u16_lt (p : Pointer) (n : Int) : p.u16 n < 65536 := by
  have hlow := (p n).toNat_lt
  have hhigh := (p (n + 1)).toNat_lt
  unfold u16
  omega

/-! ## Buffers that agree on their first bytes -/

/-- The first `n` bytes behind the two pointers are the same. -/
def Agree (n : Int) (p q : Pointer) : Prop := ∀ k : Int, 0 ≤ k → k < n → p k = q k

namespace Agree

variable {n : Int} {p q : Pointer}

theorem u16 (h : Agree n p q) {k : Int} (hpos : 0 ≤ k) (hle : k + 2 ≤ n) :
    p.u16 k = q.u16 k := by
  unfold Pointer.u16
  rw [h k hpos (by omega), h (k + 1) (by omega) (by omega)]

theorem u32 (h : Agree n p q) {k : Int} (hpos : 0 ≤ k) (hle : k + 4 ≤ n) :
    p.u32 k = q.u32 k := by
  unfold Pointer.u32
  rw [h.u16 hpos (by omega), h.u16 (by omega : 0 ≤ k + 2) (by omega)]

theorem add (h : Agree n p q) {m : Int} (hpos : 0 ≤ m) :
    Agree (n - m) (p.add m) (q.add m) :=
  fun k hk hlt => h (m + k) (by omega) (by omega)

theorem bytes (h : Agree n p q) {m : Nat} (hle : m ≤ n) : p.bytes m = q.bytes m := by
  unfold Pointer.bytes
  refine List.map_congr_left ?_
  intro k hk
  have hlt : k < m := List.mem_range.mp hk
  exact h k (by omega) (by omega)

/-- A window inside the common part. -/
theorem bytes_add (h : Agree n p q) {m : Int} {l : Nat} (hpos : 0 ≤ m) (hle : m + l ≤ n) :
    (p.add m).bytes l = (q.add m).bytes l :=
  (h.add hpos).bytes (by omega)

end Agree

end Pointer

end ConnectionSniffer
