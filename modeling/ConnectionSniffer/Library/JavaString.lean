import Mathlib.Algebra.Group.Nat.Defs
import Mathlib.Tactic.Basic

/-!
# Texts

A Java `String` is the list of its characters.  The definitions follow the
documented behaviour of the library methods of the same names.
-/

namespace ConnectionSniffer

/-- `String.trim`: without the blanks and control characters at both ends. -/
def trim (str : List Char) : List Char :=
  let blank (c : Char) : Bool := c.toNat ≤ 32
  ((str.dropWhile blank).reverse.dropWhile blank).reverse

/-- The US-ASCII character of a byte.  A byte that has none becomes the
replacement character. -/
def asciiChar (b : UInt8) : Char := if b < 128 then Char.ofNat b.toNat else '\uFFFD'

/-- `new String(bytes, "US-ASCII")`. -/
def usAscii (bytes : List UInt8) : List Char := bytes.map asciiChar

/-- `Character.digit(c, 16)` on the characters that `usAscii` gives. -/
def digit16 (c : Char) : Option Nat :=
  if '0' ≤ c ∧ c ≤ '9' then some (c.toNat - '0'.toNat)
  else if 'A' ≤ c ∧ c ≤ 'F' then some (c.toNat - 'A'.toNat + 10)
  else if 'a' ≤ c ∧ c ≤ 'f' then some (c.toNat - 'a'.toNat + 10)
  else none

/-- `Integer.parseInt(text, 16)` on a text of digits.  An empty text and a
number that is no `int` are a `NumberFormatException`. -/
def parseInt16 (text : List Char) : Option Nat :=
  let value := text.foldl (fun n c => n * 16 + (digit16 c).getD 0) 0
  if text = [] ∨ 2 ^ 31 ≤ value then none else some value

theorem usAscii_append (bytes bytes' : List UInt8) :
    usAscii (bytes ++ bytes') = usAscii bytes ++ usAscii bytes' := List.map_append

theorem usAscii_eq_nil {bytes : List UInt8} : usAscii bytes = [] ↔ bytes = [] := List.map_eq_nil_iff

/-- A carriage return at the end is trimmed. -/
theorem trim_concat_cr (str : List Char) : trim (str ++ ['\r']) = trim str := by
  have hcr : ∀ l : List Char, (l ++ ['\r']).reverse.dropWhile (fun c => decide (c.toNat ≤ 32)) =
      l.reverse.dropWhile (fun c => decide (c.toNat ≤ 32)) := by
    intro l
    rw [List.reverse_append]
    rfl
  unfold trim
  dsimp only
  rw [List.dropWhile_append]
  split
  · next hnil =>
    rw [List.isEmpty_iff] at hnil
    rw [hnil]
    rfl
  · rw [hcr]

end ConnectionSniffer
