import Mathlib.Algebra.Group.Int.Defs
import Mathlib.Algebra.Group.Nat.Defs
import Mathlib.Data.List.Basic
import Mathlib.Data.List.GetD
import Mathlib.Tactic.SplitIfs

/-!
# Files with a pointer

A `java.io.RandomAccessFile` is an array of bytes and a file pointer.  A
write behind the end makes the file longer, and the bytes in between are
zeros.  The field `beyond` says that all bytes behind the end are zeros, so
a write need not look at the old end.

`slice` is what a reader sees.  A write shows up in the slice that it
covers, and leaves alone every slice that it does not meet.
-/

namespace ConnectionSniffer

structure RandomAccessFile where
  byte : Nat → UInt8
  length : Nat
  pointer : Nat
  beyond : ∀ i, length ≤ i → byte i = 0

namespace RandomAccessFile

/-- A file without bytes. -/
def empty : RandomAccessFile where
  byte _ := 0
  length := 0
  pointer := 0
  beyond _ _ := rfl

def seek (f : RandomAccessFile) (pos : Nat) : RandomAccessFile := { f with pointer := pos }

/-- The `n` bytes from `pos` on. -/
def slice (f : RandomAccessFile) (pos n : Nat) : List UInt8 :=
  (List.range n).map fun i => f.byte (pos + i)

/-- `write(data)`. -/
def write (f : RandomAccessFile) (data : List UInt8) : RandomAccessFile where
  byte i :=
    if f.pointer ≤ i ∧ i < f.pointer + data.length then data.getD (i - f.pointer) 0 else f.byte i
  length := if data = [] then f.length else max f.length (f.pointer + data.length)
  pointer := f.pointer + data.length
  beyond i hi := by
    have hout : f.length ≤ i ∧ ¬ (f.pointer ≤ i ∧ i < f.pointer + data.length) := by
      split_ifs at hi with hnil
      · rw [hnil, List.length_nil]
        omega
      · omega
    rw [if_neg hout.2]
    exact f.beyond i hout.1

/-- `read(b, 0, n)` for an array of `n` bytes: the bytes that come, or `none`
for `-1`. -/
def read (f : RandomAccessFile) (n : Nat) : Option (List UInt8) × RandomAccessFile :=
  if n = 0 then (some [], f)
  else if f.length ≤ f.pointer then (none, f)
  else
    (some (f.slice f.pointer (min n (f.length - f.pointer))),
      f.seek (f.pointer + min n (f.length - f.pointer)))

/-- The four bytes of an `int`, the highest first. -/
def intBytes (n : Int) : List UInt8 :=
  let unsigned := (n % 2 ^ 32).toNat
  [UInt8.ofNat (unsigned / 2 ^ 24), UInt8.ofNat (unsigned / 2 ^ 16), UInt8.ofNat (unsigned / 2 ^ 8),
    UInt8.ofNat unsigned]

/-- The `int` of four bytes. -/
def intOf (bytes : List UInt8) : Int :=
  ((bytes.foldl (fun n b => n * 2 ^ 8 + b.toNat) 0 : Nat) : Int).bmod (2 ^ 32)

def writeInt (f : RandomAccessFile) (n : Int) : RandomAccessFile := f.write (intBytes n)

/-- `readInt()`.  Without four bytes before the end it throws. -/
def readInt (f : RandomAccessFile) : Option Int × RandomAccessFile :=
  if f.pointer + 4 ≤ f.length then
    (some (intOf (f.slice f.pointer 4)), f.seek (f.pointer + 4))
  else (none, f.seek f.length)

/-! ## Slices -/

variable {f : RandomAccessFile}

@[simp] theorem pointer_seek (pos : Nat) : (f.seek pos).pointer = pos := rfl

@[simp] theorem length_seek (pos : Nat) : (f.seek pos).length = f.length := rfl

@[simp] theorem slice_seek (pos at' n : Nat) : (f.seek pos).slice at' n = f.slice at' n := rfl

@[simp] theorem length_slice (pos n : Nat) : (f.slice pos n).length = n := by
  simp [slice]

@[simp] theorem slice_zero (pos : Nat) : f.slice pos 0 = [] := rfl

@[simp] theorem length_intBytes (n : Int) : (intBytes n).length = 4 := rfl

theorem slice_add (pos m n : Nat) : f.slice pos (m + n) = f.slice pos m ++ f.slice (pos + m) n := by
  simp [slice, List.range_add, Nat.add_assoc]

theorem slice_congr {g : RandomAccessFile} {pos n : Nat}
    (h : ∀ i, pos ≤ i → i < pos + n → f.byte i = g.byte i) : f.slice pos n = g.slice pos n := by
  refine List.map_congr_left fun i hi => ?_
  have hlt := List.mem_range.mp hi
  exact h _ (Nat.le_add_right _ _) (by omega)

theorem take_slice {pos m n : Nat} (h : m ≤ n) : (f.slice pos n).take m = f.slice pos m := by
  obtain ⟨k, rfl⟩ := Nat.exists_eq_add_of_le h
  rw [slice_add]
  exact List.take_left' (length_slice pos m)

/-- Two ranges of a file that have no byte in common. -/
def Apart (pos n pos' n' : Nat) : Prop := n = 0 ∨ n' = 0 ∨ pos + n ≤ pos' ∨ pos' + n' ≤ pos

instance (pos n pos' n' : Nat) : Decidable (Apart pos n pos' n') :=
  inferInstanceAs (Decidable (n = 0 ∨ n' = 0 ∨ pos + n ≤ pos' ∨ pos' + n' ≤ pos))

/-- A write does not change what it does not meet. -/
theorem slice_write_of_apart {data : List UInt8} {pos n : Nat}
    (h : Apart f.pointer data.length pos n) : (f.write data).slice pos n = f.slice pos n := by
  refine slice_congr fun i hlo hhi => ?_
  unfold Apart at h
  exact if_neg (by omega)

/-- What a write leaves in its place. -/
theorem slice_write_self (data : List UInt8) : (f.write data).slice f.pointer data.length = data := by
  refine List.ext_getElem (length_slice _ _) fun i hi hi' => ?_
  simp only [slice, write, List.getElem_map, List.getElem_range]
  rw [if_pos ⟨Nat.le_add_right _ _, by omega⟩, Nat.add_sub_cancel_left, List.getD_eq_getElem _ _ hi']

theorem length_le_write (data : List UInt8) : f.length ≤ (f.write data).length := by
  simp only [write]
  split_ifs
  · exact Nat.le_refl _
  · exact Nat.le_max_left _ _

theorem le_length_write {data : List UInt8} (h : data ≠ []) :
    f.pointer + data.length ≤ (f.write data).length := by
  simp only [write]
  rw [if_neg h]
  exact Nat.le_max_right _ _

/-- Reading bytes that are there. -/
theorem read_eq {n : Nat} (h : f.pointer + n ≤ f.length) :
    f.read n = (some (f.slice f.pointer n), f.seek (f.pointer + n)) := by
  unfold read
  split_ifs with hzero hend
  · rw [hzero]
    rfl
  · omega
  · rw [Nat.min_eq_left (by omega)]

/-- The bytes of the two files are the same. -/
def SameBytes (f g : RandomAccessFile) : Prop := f.length = g.length ∧ f.byte = g.byte

/-- `data` is what the file has from `pos` on. -/
def Holds (f : RandomAccessFile) (pos : Nat) (data : List UInt8) : Prop :=
  pos + data.length ≤ f.length ∧ f.slice pos data.length = data

end RandomAccessFile

end ConnectionSniffer
