import Mathlib.Tactic.Basic

/-!
# Walks that count their visits

`Walk R goal s n s'` says that edges of `R` lead from `s` to `s'` and that
`n` of them lead into `goal`.  Where some points lie behind `goal`, in the
sense that the only way there is through `goal` and there is no way back,
`Walk.visits` gives the number of visits from the two ends alone.
-/

namespace ConnectionSniffer

universe u

variable {σ : Type u}

inductive Walk (R : σ → σ → Prop) (goal : σ) : σ → Nat → σ → Prop
  | refl (s : σ) : Walk R goal s 0 s
  | pass {s s' s'' : σ} {n : Nat} (h : Walk R goal s n s') (hR : R s' s'') (hne : s'' ≠ goal) :
      Walk R goal s n s''
  | enter {s s' : σ} {n : Nat} (h : Walk R goal s n s') (hR : R s' goal) :
      Walk R goal s (n + 1) goal

namespace Walk

variable {R : σ → σ → Prop} {goal s s' s'' : σ} {n n' : Nat}

theorem trans (h : Walk R goal s n s') (h' : Walk R goal s' n' s'') :
    Walk R goal s (n + n') s'' := by
  induction h' with
  | refl => exact h
  | pass _ hR hne ih => exact ih.pass hR hne
  | enter _ hR ih => exact ih.enter hR

/-- Each visit of the goal crosses to the points behind it. -/
theorem visits {behind : σ → Bool} (hgoal : behind goal = true)
    (henter : ∀ s, R s goal → behind s = false)
    (hpass : ∀ s s', R s s' → s' ≠ goal → behind s' = behind s) (h : Walk R goal s n s') :
    n + (behind s).toNat = (behind s').toNat := by
  induction h with
  | refl => simp
  | pass _ hR hne ih => rw [hpass _ _ hR hne, ih]
  | enter _ hR ih =>
    rw [henter _ hR] at ih
    simp only [Bool.toNat_false] at ih
    rw [hgoal, Bool.toNat_true]
    omega

end Walk

end ConnectionSniffer
