import Mathlib.Tactic.Basic

/-!
# Two-sided data

A conversation has two sides, and most of its data comes twice: once for
the bytes one side sends and once for the bytes the other side sends.
`BySide α` is such a pair.  A definition that treats both sides alike
takes the side as an argument and goes through `get` and `set`; the simp
set below is what its proofs use in place of a case split on the side.
-/

namespace ConnectionSniffer

universe u v

/-- The two sides of a conversation. -/
inductive Side where
  | client
  | server
  deriving DecidableEq

namespace Side

/-- The side a packet is sent to, given the side it is sent by. -/
def other : Side → Side
  | client => server
  | server => client

@[simp] theorem other_other (x : Side) : x.other.other = x := by
  cases x <;> rfl

@[simp] theorem other_ne (x : Side) : x.other ≠ x := by
  cases x <;> decide

@[simp] theorem ne_other (x : Side) : x ≠ x.other := by
  cases x <;> decide

/-- A side is the given one or its other. -/
theorem eq_or_eq_other (x y : Side) : y = x ∨ y = x.other := by
  cases x <;> cases y <;> simp [other]

theorem eq_other_of_ne {x y : Side} (h : y ≠ x) : y = x.other :=
  (eq_or_eq_other x y).resolve_left h

theorem exists_iff {P : Side → Prop} : (∃ x, P x) ↔ P client ∨ P server := by
  constructor
  · rintro ⟨x, h⟩
    cases x with
    | client => exact Or.inl h
    | server => exact Or.inr h
  · rintro (h | h)
    · exact ⟨client, h⟩
    · exact ⟨server, h⟩

instance {P : Side → Prop} [DecidablePred P] : Decidable (∃ x, P x) :=
  decidable_of_iff' _ exists_iff

end Side

/-- One value for each side. -/
@[ext] structure BySide (α : Type u) where
  client : α
  server : α

namespace BySide

variable {α : Type u} {β : Type v}

def get (b : BySide α) : Side → α
  | .client => b.client
  | .server => b.server

def set (b : BySide α) (x : Side) (a : α) : BySide α :=
  match x with
  | .client => { b with client := a }
  | .server => { b with server := a }

/-- The same pair seen from the other side. -/
def swap (b : BySide α) : BySide α := ⟨b.server, b.client⟩

@[simp] theorem get_client (b : BySide α) : b.get .client = b.client := rfl

@[simp] theorem get_server (b : BySide α) : b.get .server = b.server := rfl

@[simp] theorem get_set (b : BySide α) (x : Side) (a : α) : (b.set x a).get x = a := by
  cases x <;> rfl

@[simp] theorem get_other_set (b : BySide α) (x : Side) (a : α) :
    (b.set x a).get x.other = b.get x.other := by
  cases x <;> rfl

@[simp] theorem get_set_other (b : BySide α) (x : Side) (a : α) :
    (b.set x.other a).get x = b.get x := by
  cases x <;> rfl

theorem get_set_of_ne (b : BySide α) {x y : Side} (a : α) (h : y ≠ x) :
    (b.set x a).get y = b.get y := by
  obtain rfl := Side.eq_other_of_ne h
  exact get_other_set b x a

@[simp] theorem set_set (b : BySide α) (x : Side) (a a' : α) :
    (b.set x a).set x a' = b.set x a' := by
  cases x <;> rfl

@[simp] theorem set_get (b : BySide α) (x : Side) : b.set x (b.get x) = b := by
  cases x <;> rfl

@[simp] theorem get_swap (b : BySide α) (x : Side) : b.swap.get x = b.get x.other := by
  cases x <;> rfl

/-- What holds of a side and of its other holds of both sides. -/
theorem forall_side {P : Side → Prop} (x : Side) (hx : P x) (ho : P x.other) : ∀ y, P y := by
  intro y
  rcases Side.eq_or_eq_other x y with rfl | rfl
  · exact hx
  · exact ho

/-- A property of both sides holds after `set` as soon as it holds of the
new value and of the side left alone. -/
theorem forall_set {P : Side → α → Prop} {b : BySide α} {x : Side} {a : α}
    (ha : P x a) (ho : P x.other (b.get x.other)) : ∀ y, P y ((b.set x a).get y) := by
  refine forall_side x ?_ ?_
  · rwa [get_set]
  · rwa [get_other_set]

end BySide

end ConnectionSniffer
