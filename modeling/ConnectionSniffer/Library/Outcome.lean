import Mathlib.Tactic.Basic

/-!
# Methods that may throw

A method that throws keeps every assignment it made before the throw.
`Outcome ε σ` is the result of such a method: it returned or threw an
`ε`, and in both cases there is a state `σ` to go on with.

`Outcome.Sat Q E` is the postcondition of a method: `Q` on a return, `E`
on a throw.  An invariant that has to survive a throw is `Sat I I`; one
that is only promised while nothing throws is `Sat I (fun _ => True)`.
`Ends` is the same with a second part that also sees what was thrown.  The
rules below are the only way the later proofs look inside `andThen` and
`map`.
-/

namespace ConnectionSniffer

universe u v w

/-- How a method ended, and the state it left. -/
inductive Outcome (ε : Type u) (σ : Type v) where
  | returned (state : σ)
  | thrown (error : ε) (state : σ)

namespace Outcome

variable {ε : Type u} {σ : Type v} {τ : Type w}

/-- The state left behind, whichever way the method ended. -/
def state : Outcome ε σ → σ
  | returned s => s
  | thrown _ s => s

/-- Whether the method returned. -/
def isReturned : Outcome ε σ → Bool
  | returned _ => true
  | thrown _ _ => false

/-- The same outcome with the state seen through `f`. -/
def map (f : σ → τ) : Outcome ε σ → Outcome ε τ
  | returned s => returned (f s)
  | thrown e s => thrown e (f s)

/-- Run `f` after a return.  A throw skips `f`. -/
def andThen (o : Outcome ε σ) (f : σ → Outcome ε σ) : Outcome ε σ :=
  match o with
  | returned s => f s
  | thrown e s => thrown e s

@[simp] theorem state_returned (s : σ) : (returned s : Outcome ε σ).state = s := rfl

@[simp] theorem state_thrown (e : ε) (s : σ) : (thrown e s).state = s := rfl

@[simp] theorem isReturned_returned (s : σ) :
    (returned s : Outcome ε σ).isReturned = true := rfl

@[simp] theorem isReturned_thrown (e : ε) (s : σ) :
    (thrown e s).isReturned = false := rfl

@[simp] theorem map_returned (f : σ → τ) (s : σ) :
    (returned s : Outcome ε σ).map f = returned (f s) := rfl

@[simp] theorem map_thrown (f : σ → τ) (e : ε) (s : σ) :
    (thrown e s).map f = thrown e (f s) := rfl

@[simp] theorem andThen_returned (s : σ) (f : σ → Outcome ε σ) :
    (returned s).andThen f = f s := rfl

@[simp] theorem andThen_thrown (e : ε) (s : σ) (f : σ → Outcome ε σ) :
    (thrown e s).andThen f = thrown e s := rfl

@[simp] theorem state_map (f : σ → τ) (o : Outcome ε σ) :
    (o.map f).state = f o.state := by
  cases o <;> rfl

@[simp] theorem isReturned_map (f : σ → τ) (o : Outcome ε σ) :
    (o.map f).isReturned = o.isReturned := by
  cases o <;> rfl

/-- An outcome that returned is its own state. -/
theorem eq_returned {o : Outcome ε σ} (h : o.isReturned = true) :
    o = returned o.state := by
  cases o with
  | returned s => rfl
  | thrown e s => simp at h

/-- What was thrown. -/
def error : Outcome ε σ → Option ε
  | returned _ => none
  | thrown e _ => some e

/-- An outcome that threw is its own error and state. -/
theorem eq_thrown {o : Outcome ε σ} {e : ε} (h : o.error = some e) : o = thrown e o.state := by
  cases o with
  | returned s => simp [error] at h
  | thrown e' s => rw [Option.some.inj h]; rfl

/-! ## Postconditions -/

/-- `Q` holds after a return and `E` after a throw. -/
def Sat (Q E : σ → Prop) : Outcome ε σ → Prop
  | returned s => Q s
  | thrown _ s => E s

variable {Q Q' E E' : σ → Prop} {o : Outcome ε σ}

instance [DecidablePred Q] [DecidablePred E] : (o : Outcome ε σ) → Decidable (o.Sat Q E)
  | returned s => inferInstanceAs (Decidable (Q s))
  | thrown _ s => inferInstanceAs (Decidable (E s))

@[simp] theorem sat_returned (s : σ) : (returned s : Outcome ε σ).Sat Q E ↔ Q s :=
  Iff.rfl

@[simp] theorem sat_thrown (e : ε) (s : σ) : (thrown e s).Sat Q E ↔ E s := Iff.rfl

theorem Sat.mono (h : o.Sat Q E) (hQ : ∀ s, Q s → Q' s) (hE : ∀ s, E s → E' s) :
    o.Sat Q' E' := by
  cases o with
  | returned s => exact hQ s h
  | thrown e s => exact hE s h

theorem Sat.and (h : o.Sat Q E) (h' : o.Sat Q' E') :
    o.Sat (fun s => Q s ∧ Q' s) (fun s => E s ∧ E' s) := by
  cases o with
  | returned s => exact ⟨h, h'⟩
  | thrown e s => exact ⟨h, h'⟩

/-- The rule of sequencing: what the first method establishes is what the
second one may assume. -/
theorem Sat.andThen {f : σ → Outcome ε σ} (h : o.Sat Q E)
    (hf : ∀ s, Q s → (f s).Sat Q' E) : (o.andThen f).Sat Q' E := by
  cases o with
  | returned s => exact hf s h
  | thrown e s => exact h

theorem sat_map {P R : τ → Prop} {f : σ → τ} :
    (o.map f).Sat P R ↔ o.Sat (fun s => P (f s)) (fun s => R (f s)) := by
  cases o <;> rfl

/-- `Q` holds after a return and `F e` after a throw of `e`. -/
def Ends (Q : σ → Prop) (F : ε → σ → Prop) : Outcome ε σ → Prop
  | returned s => Q s
  | thrown e s => F e s

variable {F F' : ε → σ → Prop}

/-- A postcondition that does not ask what was thrown. -/
theorem ends_const : o.Ends Q (fun _ => E) ↔ o.Sat Q E := by
  cases o <;> exact Iff.rfl

theorem Ends.mono (h : o.Ends Q F) (hQ : ∀ s, Q s → Q' s) (hF : ∀ e s, F e s → F' e s) :
    o.Ends Q' F' := by
  cases o with
  | returned s => exact hQ s h
  | thrown e s => exact hF e s h

theorem Ends.andThen {f : σ → Outcome ε σ} (h : o.Ends Q F)
    (hf : ∀ s, Q s → (f s).Ends Q' F) : (o.andThen f).Ends Q' F := by
  cases o with
  | returned s => exact hf s h
  | thrown e s => exact h

theorem ends_map {P : τ → Prop} {R : ε → τ → Prop} {f : σ → τ} :
    (o.map f).Ends P R ↔ o.Ends (fun s => P (f s)) (fun e s => R e (f s)) := by
  cases o <;> exact Iff.rfl

theorem Ends.and (h : o.Ends Q F) (h' : o.Sat Q' E') :
    o.Ends (fun s => Q s ∧ Q' s) (fun e s => F e s ∧ E' s) := by
  cases o with
  | returned s => exact ⟨h, h'⟩
  | thrown e s => exact ⟨h, h'⟩

/-- An invariant that both endings keep holds of the state left behind. -/
theorem Sat.state (h : o.Sat Q Q) : Q o.state := by
  cases o with
  | returned s => exact h
  | thrown e s => exact h

/-- What a return promises holds of the state of a method that returned. -/
theorem Sat.of_isReturned (h : o.Sat Q E) (hr : o.isReturned = true) : Q o.state := by
  cases o with
  | returned s => exact h
  | thrown e s => simp at hr

/-! ## Errors -/

/-- What was thrown, if anything was, has `P`. -/
def Throws (P : ε → Prop) : Outcome ε σ → Prop
  | returned _ => True
  | thrown e _ => P e

instance {P : ε → Prop} [DecidablePred P] : (o : Outcome ε σ) → Decidable (o.Throws P)
  | returned _ => .isTrue trivial
  | thrown e _ => inferInstanceAs (Decidable (P e))

theorem Throws.andThen {P : ε → Prop} {f : σ → Outcome ε σ} (h : o.Throws P)
    (hf : ∀ s, (f s).Throws P) : (o.andThen f).Throws P := by
  cases o with
  | returned s => exact hf s
  | thrown e s => exact h

theorem Throws.mono {P P' : ε → Prop} (h : o.Throws P) (hP : ∀ e, P e → P' e) : o.Throws P' := by
  cases o with
  | returned s => trivial
  | thrown e s => exact hP e h

/-- What was thrown and what it left. -/
theorem Sat.ends {P : ε → Prop} (h : o.Sat Q E) (hP : o.Throws P) :
    o.Ends Q (fun e s => P e ∧ E s) := by
  cases o with
  | returned s => exact h
  | thrown e s => exact ⟨hP, h⟩

@[simp] theorem throws_map {P : ε → Prop} {f : σ → τ} :
    (o.map f).Throws P ↔ o.Throws P := by
  cases o <;> rfl

end Outcome

end ConnectionSniffer
