import Mathlib.Tactic.Basic
import Mathlib.Data.List.Sort

/-!
# Sorted sets kept by a comparator

`java.util.TreeSet` over a `Comparable` type is modelled by the list of
its elements in ascending order.  Two elements on which the comparator
answers `0` are the same element to the set, so `add` keeps the one it
has.

`Ascending` says that a list is strictly ascending.  On such a list the
model and the red-black tree agree as long as the comparator orders the
elements transitively, which is the contract of `Comparable`
(`SearchTree`).
-/

namespace ConnectionSniffer

universe u

namespace TreeSet

variable {α : Type u} (compareTo : α → α → Int)

/-- `add`: put `a` at its place, unless an element equal to it is there. -/
def add (a : α) : List α → List α
  | [] => [a]
  | b :: rest =>
    if compareTo a b < 0 then a :: b :: rest
    else if compareTo a b = 0 then b :: rest
    else b :: add a rest

/-- Nothing appears in the set but what was added to it. -/
theorem mem_of_mem_add {a b : α} {s : List α} (h : b ∈ add compareTo a s) :
    b = a ∨ b ∈ s := by
  induction s with
  | nil => simpa [add] using h
  | cons c rest ih =>
    unfold add at h
    split_ifs at h with hlt heq
    · simpa using h
    · exact Or.inr h
    · rcases List.mem_cons.mp h with rfl | hr
      · exact Or.inr (by simp)
      · rcases ih hr with rfl | hr
        · exact Or.inl rfl
        · exact Or.inr (by simp [hr])

/-- An element already there stays. -/
theorem mem_add_of_mem {a b : α} {s : List α} (h : b ∈ s) : b ∈ add compareTo a s := by
  induction s with
  | nil => simp at h
  | cons c rest ih =>
    unfold add
    split_ifs with hlt heq
    · exact List.mem_cons_of_mem _ h
    · exact h
    · rcases List.mem_cons.mp h with rfl | hr
      · simp
      · exact List.mem_cons_of_mem _ (ih hr)

/-- The new element is there, unless an equal one was. -/
theorem mem_add_self {a : α} {s : List α} (h : ∀ b ∈ s, compareTo a b ≠ 0) :
    a ∈ add compareTo a s := by
  induction s with
  | nil => simp [add]
  | cons c rest ih =>
    unfold add
    split_ifs with hlt heq
    · simp
    · exact absurd heq (h c (by simp))
    · exact List.mem_cons_of_mem _ (ih (fun b hb => h b (by simp [hb])))

/-- Every other element is there as often as before. -/
theorem count_add_of_ne [DecidableEq α] {a b : α} (s : List α) (hne : b ≠ a) :
    (add compareTo a s).count b = s.count b := by
  induction s with
  | nil => simp [add, hne.symm]
  | cons c rest ih =>
    unfold add
    split_ifs with hlt heq
    · simp [List.count_cons, hne.symm]
    · rfl
    · rw [List.count_cons, List.count_cons, ih]

/-- On the images of an ascending list of numbers, `add` is ordered
insertion. -/
theorem add_map {f : Nat → α} {j : Nat} {l : List Nat} (hj : j ∉ l)
    (hlt : ∀ i ∈ l, compareTo (f j) (f i) < 0 ↔ j < i)
    (heq : ∀ i ∈ l, compareTo (f j) (f i) = 0 ↔ j = i) :
    add compareTo (f j) (l.map f) = (l.orderedInsert (· ≤ ·) j).map f := by
  induction l with
  | nil => rfl
  | cons i rest ih =>
    have hne : j ≠ i := fun h => hj (by simp [h])
    rw [List.map_cons, add, List.orderedInsert_cons]
    by_cases hji : j < i
    · rw [if_pos ((hlt i (by simp)).mpr hji), if_pos hji.le]
      rfl
    · rw [if_neg (mt (hlt i (by simp)).mp hji), if_neg (mt (heq i (by simp)).mp hne),
        if_neg (by omega), ih (fun h => hj (by simp [h])) (fun k hk => hlt k (by simp [hk]))
          (fun k hk => heq k (by simp [hk]))]
      rfl

/-- The elements in strictly ascending order. -/
abbrev Ascending (s : List α) : Prop := s.Pairwise (fun a b => compareTo a b < 0)

end TreeSet

end ConnectionSniffer
