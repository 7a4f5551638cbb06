import Mathlib.Tactic.Basic
import Mathlib.Data.List.Basic

/-!
# The window of live elements in an array

A buffer is often an array with two indices: the elements before `pos` have
been taken out, those from `pos` up to `count` wait, and those from `count`
on have no meaning.  The bounds are fields, so every access that the
operations make is inside the array.

`ensure` makes room at the end, by moving the waiting elements to the front
or by moving them to a longer array.  `pending` is all that matters of a
window: each operation has one lemma that says what it does to it.
-/

namespace ConnectionSniffer

universe u

structure Window (α : Type u) where
  data : List α
  pos : Nat
  count : Nat
  pos_le : pos ≤ count
  count_le : count ≤ data.length

namespace Window

variable {α : Type u}

/-- An empty window in a new array. -/
def create (size : Nat) (default : α) : Window α where
  data := List.replicate size default
  pos := 0
  count := 0
  pos_le := Nat.le_refl _
  count_le := Nat.zero_le _

/-- The elements that wait. -/
def pending (w : Window α) : List α := (w.data.take w.count).drop w.pos

/-- How many elements wait. -/
def used (w : Window α) : Nat := w.count - w.pos

/-- How many elements fit behind the last one. -/
def room (w : Window α) : Nat := w.data.length - w.count

@[simp] theorem length_pending (w : Window α) : w.pending.length = w.used := by
  have := w.count_le
  simp only [pending, used, List.length_drop, List.length_take]
  omega

theorem used_le (w : Window α) : w.used ≤ w.data.length := by
  have := w.count_le
  unfold used
  omega

theorem count_add_room (w : Window α) : w.count + w.room = w.data.length :=
  Nat.add_sub_of_le w.count_le

/-- Forget the elements that wait. -/
def clear (w : Window α) : Window α :=
  { w with pos := 0, count := 0, pos_le := Nat.le_refl _, count_le := Nat.zero_le _ }

/-- Take `n` elements out. -/
def advance (w : Window α) (n : Nat) (h : n ≤ w.used) : Window α :=
  { w with
    pos := w.pos + n
    pos_le := by
      have := w.pos_le
      have hused : n ≤ w.count - w.pos := h
      omega }

/-- Make room for `size` elements at the end: in the same array if the
elements that wait leave enough of it, otherwise in a new one. -/
def ensure (w : Window α) (default : α) (size : Nat) : Window α :=
  if w.data.length < w.count + size then
    if w.data.length < w.used + size then
      { data := w.pending ++ List.replicate size default
        pos := 0
        count := w.used
        pos_le := Nat.zero_le _
        count_le := by simp }
    else
      { data := w.pending ++ w.data.drop w.used
        pos := 0
        count := w.used
        pos_le := Nat.zero_le _
        count_le := by simp }
  else w

/-- Copy elements behind the last one. -/
def append (w : Window α) (elements : List α) (h : elements.length ≤ w.room) : Window α :=
  { w with
    data := w.data.take w.count ++ elements ++ w.data.drop (w.count + elements.length)
    count := w.count + elements.length
    pos_le := Nat.le_add_right_of_le w.pos_le
    count_le := by
      have := w.count_le
      have hroom : elements.length ≤ w.data.length - w.count := h
      simp only [List.length_append, List.length_take, List.length_drop]
      omega }

@[simp] theorem pending_create (size : Nat) (default : α) : (create size default).pending = [] := rfl

@[simp] theorem pending_clear (w : Window α) : w.clear.pending = [] := rfl

@[simp] theorem pending_advance (w : Window α) (n : Nat) (h : n ≤ w.used) :
    (w.advance n h).pending = w.pending.drop n := by
  simp [pending, advance]

@[simp] theorem length_advance (w : Window α) (n : Nat) (h : n ≤ w.used) :
    (w.advance n h).data.length = w.data.length := rfl

@[simp] theorem pending_ensure (w : Window α) (default : α) (size : Nat) :
    (w.ensure default size).pending = w.pending := by
  have hlen := w.length_pending
  unfold ensure
  split_ifs
  · exact List.take_left' hlen
  · exact List.take_left' hlen
  · rfl

theorem pos_ensure_le (w : Window α) (default : α) (size : Nat) :
    (w.ensure default size).pos ≤ w.pos := by
  unfold ensure
  split_ifs
  · exact Nat.zero_le _
  · exact Nat.zero_le _
  · exact Nat.le_refl _

theorem le_room_ensure (w : Window α) (default : α) (size : Nat) :
    size ≤ (w.ensure default size).room := by
  have := w.used_le
  unfold ensure
  split_ifs <;> simp only [room, List.length_append, List.length_replicate, List.length_drop,
    length_pending] <;> omega

/-- A new array is just long enough. -/
theorem length_ensure_le (w : Window α) (default : α) (size : Nat) :
    (w.ensure default size).data.length ≤ max w.data.length (w.used + size) := by
  have := w.used_le
  unfold ensure
  split_ifs
  · simp only [List.length_append, List.length_replicate, length_pending]
    omega
  · simp only [List.length_append, List.length_drop, length_pending]
    omega
  · exact Nat.le_max_left _ _

@[simp] theorem length_append (w : Window α) (elements : List α) (h : elements.length ≤ w.room) :
    (w.append elements h).data.length = w.data.length := by
  have := w.count_add_room
  simp only [append, List.length_append, List.length_take, List.length_drop]
  omega

@[simp] theorem pending_append (w : Window α) (elements : List α) (h : elements.length ≤ w.room) :
    (w.append elements h).pending = w.pending ++ elements := by
  have hlen : (w.data.take w.count).length = w.count := List.length_take_of_le w.count_le
  have htake : (w.append elements h).data.take (w.append elements h).count =
      w.data.take w.count ++ elements :=
    List.take_left' (by simp only [append, List.length_append, hlen])
  unfold pending
  rw [htake]
  exact List.drop_append_of_le_length (by rw [hlen]; exact w.pos_le)

/-- A window in which nothing waits. -/
theorem pending_eq_nil_iff {w : Window α} : w.pending = [] ↔ w.count ≤ w.pos := by
  rw [← List.length_eq_zero_iff, length_pending, used, Nat.sub_eq_zero_iff_le]

end Window

end ConnectionSniffer
