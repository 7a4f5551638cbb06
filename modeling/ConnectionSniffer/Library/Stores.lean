import ConnectionSniffer.Library.Pointer

/-!
# Stores through a pointer

A C function that fills in a header stores bytes and words through a
pointer.  `write` stores a list of bytes, `put8`, `put16` and `put32` store
a number as a little-endian machine does, and each of them gives the memory
afterwards.  `within n` calls a function that stores through `p + n`, and
may fail.

The lemmas are of two kinds: what is read back from the place of a store,
and that any other place is as it was.
-/

namespace ConnectionSniffer

namespace Pointer

/-- `memcpy(p + n, l, length)`. -/
def write (p : Pointer) (n : Int) (l : List UInt8) : Pointer := fun k =>
  if n ≤ k ∧ k < n + l.length then l.getD (k - n).toNat 0 else p k

/-- `*(u_char *)(p + n) = v`. -/
def put8 (p : Pointer) (n : Int) (v : Nat) : Pointer := p.write n [UInt8.ofNat v]

/-- `*(u_short *)(p + n) = v`. -/
def put16 (p : Pointer) (n : Int) (v : Nat) : Pointer :=
  p.write n [UInt8.ofNat v, UInt8.ofNat (v / 256)]

/-- `*(u_int *)(p + n) = v`. -/
def put32 (p : Pointer) (n : Int) (v : Nat) : Pointer :=
  (p.put16 n (v % 65536)).put16 (n + 2) (v / 65536)

/-- A function that stores through its argument, called with `p + n`. -/
def within (n : Int) (f : Pointer → Option Pointer) (p : Pointer) : Option Pointer :=
  (f (p.add n)).map fun q => q.add (-n)

variable {p : Pointer} {n k : Int}

theorem write_of_lt (l : List UInt8) (h : k < n) : p.write n l k = p k :=
  if_neg fun hin => absurd hin.1 (by omega)

theorem write_of_ge {l : List UInt8} (h : n + l.length ≤ k) : p.write n l k = p k :=
  if_neg fun hin => absurd hin.2 (by omega)

theorem write_add (l : List UInt8) {i : Nat} (h : i < l.length) :
    p.write n l (n + i) = l[i] := by
  unfold write
  rw [if_pos ⟨by omega, by omega⟩, show (n + i - n).toNat = i by omega,
    List.getD_eq_getElem?_getD, List.getElem?_eq_getElem h, Option.getD_some]

theorem bytes_write (p : Pointer) (n : Int) (l : List UInt8) :
    ((p.write n l).add n).bytes l.length = l := by
  refine List.ext_getElem (length_bytes _ _) ?_
  intro i hi hl
  rw [getElem_bytes, add_apply, write_add l hl]

@[simp] theorem put8_self (p : Pointer) (n : Int) (v : Nat) : p.put8 n v n = UInt8.ofNat v := by
  have h := write_add (p := p) (n := n) [UInt8.ofNat v] (i := 0) Nat.zero_lt_one
  rwa [Int.natCast_zero, Int.add_zero] at h

theorem put8_of_ne (v : Nat) (h : k ≠ n) : p.put8 n v k = p k := by
  rcases Int.lt_or_gt_of_ne h with h | h
  · exact write_of_lt _ h
  · refine write_of_ge ?_
    rw [List.length_singleton]
    omega

theorem put16_low (p : Pointer) (n : Int) (v : Nat) : p.put16 n v n = UInt8.ofNat v := by
  have h := write_add (p := p) (n := n) [UInt8.ofNat v, UInt8.ofNat (v / 256)] (i := 0) (by simp)
  rwa [Int.natCast_zero, Int.add_zero] at h

theorem put16_high (p : Pointer) (n : Int) (v : Nat) :
    p.put16 n v (n + 1) = UInt8.ofNat (v / 256) :=
  write_add (p := p) (n := n) [UInt8.ofNat v, UInt8.ofNat (v / 256)] (i := 1) (by simp)

theorem put16_of_out (v : Nat) (h : k < n ∨ n + 2 ≤ k) : p.put16 n v k = p k := by
  rcases h with h | h
  · exact write_of_lt _ h
  · exact write_of_ge h

/-- What a store of a word reads as. -/
theorem u16_put16 (p : Pointer) (n : Int) (v : Nat) : (p.put16 n v).u16 n = v % 65536 := by
  unfold u16
  rw [put16_low, put16_high, UInt8.toNat_ofNat', UInt8.toNat_ofNat']
  omega

theorem u16_put16_of_out (v : Nat) (h : k + 2 ≤ n ∨ n + 2 ≤ k) :
    (p.put16 n v).u16 k = p.u16 k := by
  unfold u16
  rw [put16_of_out v (by omega), put16_of_out v (by omega)]

theorem u32_put32 (p : Pointer) (n : Int) {v : Nat} (h : v < 2 ^ 32) :
    (p.put32 n v).u32 n = v := by
  unfold u32 put32
  rw [u16_put16_of_out _ (by omega), u16_put16, u16_put16]
  omega

theorem put32_of_out (v : Nat) (h : k < n ∨ n + 4 ≤ k) : p.put32 n v k = p k := by
  unfold put32
  rw [put16_of_out _ (by omega), put16_of_out _ (by omega)]

/-! ## Other places -/

section Out

variable {l : List UInt8}

theorem write_of_out (h : k < n ∨ n + l.length ≤ k) : p.write n l k = p k := by
  rcases h with h | h
  · exact write_of_lt l h
  · exact write_of_ge h

theorem u16_write_of_out (h : k + 2 ≤ n ∨ n + l.length ≤ k) : (p.write n l).u16 k = p.u16 k := by
  unfold u16
  rw [write_of_out (by omega), write_of_out (by omega)]

theorem bytes_write_of_out {m : Nat} (h : k + m ≤ n ∨ n + l.length ≤ k) :
    ((p.write n l).add k).bytes m = (p.add k).bytes m := by
  unfold bytes
  refine List.map_congr_left ?_
  intro i hi
  have hlt : i < m := List.mem_range.mp hi
  exact write_of_out (by omega)

theorem u16_put8_of_out (v : Nat) (h : k + 2 ≤ n ∨ n + 1 ≤ k) : (p.put8 n v).u16 k = p.u16 k :=
  u16_write_of_out h

theorem bytes_put16_of_out (v : Nat) {m : Nat} (h : k + m ≤ n ∨ n + 2 ≤ k) :
    ((p.put16 n v).add k).bytes m = (p.add k).bytes m :=
  bytes_write_of_out h

theorem u16_put32_of_out (v : Nat) (h : k + 2 ≤ n ∨ n + 4 ≤ k) :
    (p.put32 n v).u16 k = p.u16 k := by
  unfold put32
  rw [u16_put16_of_out _ (by omega), u16_put16_of_out _ (by omega)]

theorem u32_put16_of_out (v : Nat) (h : k + 4 ≤ n ∨ n + 2 ≤ k) :
    (p.put16 n v).u32 k = p.u32 k := by
  unfold u32
  rw [u16_put16_of_out v (by omega), u16_put16_of_out v (by omega)]

theorem u32_put8_of_out (v : Nat) (h : k + 4 ≤ n ∨ n + 1 ≤ k) : (p.put8 n v).u32 k = p.u32 k := by
  unfold u32
  rw [u16_put8_of_out v (by omega), u16_put8_of_out v (by omega)]

theorem u32_write_of_out (h : k + 4 ≤ n ∨ n + l.length ≤ k) :
    (p.write n l).u32 k = p.u32 k := by
  unfold u32
  rw [u16_write_of_out (by omega), u16_write_of_out (by omega)]

theorem u32_put32_of_out (v : Nat) (h : k + 4 ≤ n ∨ n + 4 ≤ k) :
    (p.put32 n v).u32 k = p.u32 k := by
  unfold u32
  rw [u16_put32_of_out v (by omega), u16_put32_of_out v (by omega)]

end Out

/-! ## Words and their sum -/

/-- The sum of the first `m` words. -/
def wordSum (p : Pointer) : Nat → Nat
  | 0 => 0
  | m + 1 => wordSum p m + p.u16 (2 * m)

theorem wordSum_le (p : Pointer) (m : Nat) : wordSum p m ≤ 65535 * m := by
  induction m with
  | zero => exact Nat.le_refl _
  | succ m ih =>
    have hword := p.u16_lt (2 * m)
    unfold wordSum
    omega

theorem wordSum_congr {p q : Pointer} {m : Nat}
    (h : ∀ k : Int, 0 ≤ k → k < 2 * m → p k = q k) : wordSum p m = wordSum q m := by
  induction m with
  | zero => rfl
  | succ m ih =>
    unfold wordSum u16
    rw [ih fun k hk hlt => h k hk (by omega), h (2 * m) (by omega) (by omega),
      h (2 * m + 1) (by omega) (by omega)]

theorem wordSum_succ (p : Pointer) (m : Nat) :
    wordSum p (m + 1) = p.u16 0 + wordSum (p.add 2) m := by
  induction m with
  | zero => exact Nat.add_comm _ _
  | succ m ih =>
    have hlast : wordSum (p.add 2) (m + 1) = wordSum (p.add 2) m + p.u16 (2 * (m + 1 : Nat)) := by
      change wordSum (p.add 2) m + (p.add 2).u16 (2 * m) = _
      rw [u16_add, show (2 + 2 * m : Int) = 2 * (m + 1 : Nat) by omega]
    rw [hlast, ← Nat.add_assoc, ← ih]
    rfl

/-- A word is changed, and the sum by as much. -/
theorem wordSum_put16 (p : Pointer) {i m : Nat} (h : i < m) (v : Nat) :
    wordSum (p.put16 (2 * i) v) m + p.u16 (2 * i) = wordSum p m + v % 65536 := by
  induction m with
  | zero => exact absurd h (Nat.not_lt_zero _)
  | succ m ih =>
    unfold wordSum
    rcases Nat.lt_or_ge i m with hlt | hge
    · rw [u16_put16_of_out v (by omega)]
      have hrest := ih hlt
      omega
    · obtain rfl : i = m := by omega
      have hrest : wordSum (p.put16 (2 * i) v) i = wordSum p i :=
        wordSum_congr fun k _ hlt => put16_of_out v (Or.inl hlt)
      rw [hrest, u16_put16]
      omega

end Pointer

end ConnectionSniffer
