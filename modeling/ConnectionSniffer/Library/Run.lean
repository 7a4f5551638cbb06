import Mathlib.Tactic.Basic
import Mathlib.Data.List.Basic

/-!
# Runs of a system that takes inputs

A system has a state and takes one input after the other.  `Run.after` is
the state after a list of inputs, `Run.Along` says that every input met a
condition when it came, `Run.Sometime` that one did, `Run.Throughout` that
every state of the run has a property, and `Run.outputs` collects what the
steps put out.

The rules turn a fact about one step into a fact about a run:
`invariant` for one system, `simulation_filter` for a system that gets
only some of the inputs of another one, and `outputs_eq` for two systems
that answer alike.
-/

namespace ConnectionSniffer

namespace Run

universe u v w x

variable {σ : Type u} {τ : Type v} {ι : Type w} {ω : Type x}
variable (step : σ → ι → σ)

/-- The state after the inputs. -/
def after (s : σ) (inputs : List ι) : σ := inputs.foldl step s

@[simp] theorem after_nil (s : σ) : after step s [] = s := rfl

@[simp] theorem after_cons (s : σ) (i : ι) (inputs : List ι) :
    after step s (i :: inputs) = after step (step s i) inputs := rfl

@[simp] theorem after_append (s : σ) (inputs inputs' : List ι) :
    after step s (inputs ++ inputs') = after step (after step s inputs) inputs' :=
  List.foldl_append

/-- Every input meets `C` in the state in which it comes. -/
def Along (C : σ → ι → Prop) : σ → List ι → Prop
  | _, [] => True
  | s, i :: inputs => C s i ∧ Along C (step s i) inputs

/-- Some input meets `C` in the state in which it comes. -/
def Sometime (C : σ → ι → Prop) : σ → List ι → Prop
  | _, [] => False
  | s, i :: inputs => C s i ∨ Sometime C (step s i) inputs

/-- Every state of the run has `P`. -/
def Throughout (P : σ → Prop) : σ → List ι → Prop
  | s, [] => P s
  | s, i :: inputs => P s ∧ Throughout P (step s i) inputs

@[simp] theorem along_nil (C : σ → ι → Prop) (s : σ) : Along step C s [] := trivial

@[simp] theorem along_cons (C : σ → ι → Prop) (s : σ) (i : ι) (inputs : List ι) :
    Along step C s (i :: inputs) ↔ C s i ∧ Along step C (step s i) inputs := Iff.rfl

theorem along_append (C : σ → ι → Prop) (s : σ) (inputs inputs' : List ι) :
    Along step C s (inputs ++ inputs') ↔
      Along step C s inputs ∧ Along step C (after step s inputs) inputs' := by
  induction inputs generalizing s with
  | nil => simp
  | cons i inputs ih => simp [ih, and_assoc]

instance decidableAlong {C : σ → ι → Prop} [∀ s i, Decidable (C s i)] :
    ∀ (s : σ) (inputs : List ι), Decidable (Along step C s inputs)
  | _, [] => .isTrue trivial
  | s, i :: inputs =>
    @instDecidableAnd _ _ (inferInstanceAs (Decidable (C s i))) (decidableAlong (step s i) inputs)

theorem along_and {C C' : σ → ι → Prop} {s : σ} {inputs : List ι} (h : Along step C s inputs)
    (h' : Along step C' s inputs) : Along step (fun s i => C s i ∧ C' s i) s inputs := by
  induction inputs generalizing s with
  | nil => trivial
  | cons i inputs ih => exact ⟨⟨h.1, h'.1⟩, ih h.2 h'.2⟩

theorem along_of_forall {P : ι → Prop} {inputs : List ι} (s : σ) (h : ∀ i ∈ inputs, P i) :
    Along step (fun _ i => P i) s inputs := by
  induction inputs generalizing s with
  | nil => trivial
  | cons i inputs ih => exact ⟨h i (by simp), ih _ fun j hj => h j (by simp [hj])⟩

theorem along_always {C : σ → ι → Prop} (h : ∀ s i, C s i) (s : σ) (inputs : List ι) :
    Along step C s inputs := by
  induction inputs generalizing s with
  | nil => trivial
  | cons i inputs ih => exact ⟨h s i, ih _⟩

variable {step}

theorem Along.mono {C C' : σ → ι → Prop} (hCC' : ∀ s i, C s i → C' s i) {s : σ}
    {inputs : List ι} (h : Along step C s inputs) : Along step C' s inputs := by
  induction inputs generalizing s with
  | nil => trivial
  | cons i inputs ih => exact ⟨hCC' s i h.1, ih h.2⟩

theorem forall_of_along {P : ι → Prop} {s : σ} {inputs : List ι}
    (h : Along step (fun _ i => P i) s inputs) : ∀ i ∈ inputs, P i := by
  induction inputs generalizing s with
  | nil => nofun
  | cons i inputs ih =>
    intro j hj
    rcases List.mem_cons.mp hj with rfl | hj
    · exact h.1
    · exact ih h.2 j hj

/-- What one step keeps, a run keeps. -/
theorem invariant {I : σ → Prop} {C : σ → ι → Prop}
    (hstep : ∀ s i, I s → C s i → I (step s i)) {s : σ} {inputs : List ι} (hs : I s)
    (hC : Along step C s inputs) : I (after step s inputs) := by
  induction inputs generalizing s with
  | nil => exact hs
  | cons i inputs ih => exact ih (hstep s i hs hC.1) hC.2

/-- What every step keeps, every run keeps. -/
theorem invariant_always {I : σ → Prop} (hstep : ∀ s i, I s → I (step s i)) {s : σ}
    (inputs : List ι) (hs : I s) : I (after step s inputs) := by
  induction inputs generalizing s with
  | nil => exact hs
  | cons i inputs ih => exact ih (hstep s i hs)

/-- What one step keeps holds in every state of a run. -/
theorem throughout {I : σ → Prop} {C : σ → ι → Prop}
    (hstep : ∀ s i, I s → C s i → I (step s i)) {s : σ} {inputs : List ι} (hs : I s)
    (hC : Along step C s inputs) : Throughout step I s inputs := by
  induction inputs generalizing s with
  | nil => exact hs
  | cons i inputs ih => exact ⟨hs, ih (hstep s i hs hC.1) hC.2⟩

theorem Throughout.head {P : σ → Prop} {s : σ} {inputs : List ι}
    (h : Throughout step P s inputs) : P s := by
  cases inputs with
  | nil => exact h
  | cons i inputs => exact h.1

theorem Throughout.mono {P Q : σ → Prop} (hPQ : ∀ s, P s → Q s) {s : σ} {inputs : List ι}
    (h : Throughout step P s inputs) : Throughout step Q s inputs := by
  induction inputs generalizing s with
  | nil => exact hPQ s h
  | cons i inputs ih => exact ⟨hPQ s h.1, ih h.2⟩

/-- Where each step that leads from `P` to `P` meets `C`, a run that stays
in `P` meets `C` all along. -/
theorem along_of_throughout {P I : σ → Prop} {C D : σ → ι → Prop}
    (hstep : ∀ s i, I s → D s i → C s i → I (step s i))
    (hC : ∀ s i, I s → D s i → P (step s i) → C s i) {s : σ} {inputs : List ι} (hs : I s)
    (hD : Along step D s inputs) (h : Throughout step P s inputs) : Along step C s inputs := by
  induction inputs generalizing s with
  | nil => trivial
  | cons i inputs ih =>
    have hCs := hC s i hs hD.1 h.2.head
    exact ⟨hCs, ih (hstep s i hs hD.1 hCs) hD.2 h.2⟩

/-- What each step that meets `C` establishes under an invariant, a run that
meets `C` establishes all along. -/
theorem along_of_invariant {I : σ → Prop} {C D : σ → ι → Prop}
    (hstep : ∀ s i, I s → C s i → D s i ∧ I (step s i)) {s : σ} {inputs : List ι} (hs : I s)
    (hC : Along step C s inputs) : Along step D s inputs := by
  induction inputs generalizing s with
  | nil => trivial
  | cons i inputs ih =>
    obtain ⟨hD, hI⟩ := hstep s i hs hC.1
    exact ⟨hD, ih hI hC.2⟩

/-- Two systems that take the same inputs side by side. -/
theorem after_prod {step' : τ → ι → τ} (s : σ) (t : τ) (inputs : List ι) :
    after (fun p i => (step p.1 i, step' p.2 i)) (s, t) inputs =
      (after step s inputs, after step' t inputs) := by
  induction inputs generalizing s t with
  | nil => rfl
  | cons i inputs ih => exact ih (step s i) (step' t i)

/-- A system that gets only its `own` inputs simulates one that gets all of
them, if the other inputs do not break the simulation. -/
theorem simulation_filter {step' : τ → ι → τ} {R : σ → τ → Prop} {own : ι → Bool}
    (hown : ∀ s t i, R s t → own i = true → R (step s i) (step' t i))
    (hother : ∀ s t i, R s t → own i = false → R (step s i) t) {s : σ} {t : τ}
    {inputs : List ι} (h : R s t) :
    R (after step s inputs) (after step' t (inputs.filter own)) := by
  induction inputs generalizing s t with
  | nil => exact h
  | cons i inputs ih =>
    cases ho : own i with
    | true =>
      rw [List.filter_cons_of_pos ho]
      exact ih (hown s t i h ho)
    | false =>
      rw [List.filter_cons_of_neg (by simp [ho])]
      exact ih (hother s t i h ho)

/-! ## Outputs -/

/-- What the steps of a run put out, in order. -/
def outputs (step : σ → ι → σ) (out : σ → ι → List ω) : σ → List ι → List ω
  | _, [] => []
  | s, i :: inputs => out s i ++ outputs step out (step s i) inputs

@[simp] theorem outputs_nil (step : σ → ι → σ) (out : σ → ι → List ω) (s : σ) :
    outputs step out s [] = [] := rfl

@[simp] theorem outputs_cons (step : σ → ι → σ) (out : σ → ι → List ω) (s : σ) (i : ι)
    (inputs : List ι) :
    outputs step out s (i :: inputs) = out s i ++ outputs step out (step s i) inputs := rfl

theorem outputs_append (step : σ → ι → σ) (out : σ → ι → List ω) (s : σ) (inputs inputs' : List ι) :
    outputs step out s (inputs ++ inputs') =
      outputs step out s inputs ++ outputs step out (after step s inputs) inputs' := by
  induction inputs generalizing s with
  | nil => rfl
  | cons i inputs ih => simp [ih]

theorem after_map {κ : Type x} (f : κ → ι) (s : σ) (inputs : List κ) :
    after step s (inputs.map f) = after (fun s k => step s (f k)) s inputs := by
  simp [after, List.foldl_map]

theorem outputs_map {κ : Type x} (f : κ → ι) (out : σ → ι → List ω) (s : σ)
    (inputs : List κ) :
    outputs step out s (inputs.map f) =
      outputs (fun s k => step s (f k)) (fun s k => out s (f k)) s inputs := by
  induction inputs generalizing s with
  | nil => rfl
  | cons k inputs ih => simp only [List.map_cons, outputs, ih]

/-- Two systems that answer alike in related states and stay related put
out the same. -/
theorem outputs_eq {step' : τ → ι → τ} {out : σ → ι → List ω} {out' : τ → ι → List ω}
    {R : σ → τ → Prop} {C : σ → ι → Prop}
    (hstep : ∀ s t i, R s t → C s i → out s i = out' t i ∧ R (step s i) (step' t i))
    {s : σ} {t : τ} {inputs : List ι} (h : R s t) (hC : Along step C s inputs) :
    outputs step out s inputs = outputs step' out' t inputs ∧
      R (after step s inputs) (after step' t inputs) := by
  induction inputs generalizing s t with
  | nil => exact ⟨rfl, h⟩
  | cons i inputs ih =>
    obtain ⟨ho, hR⟩ := hstep s t i h hC.1
    obtain ⟨hos, hRs⟩ := ih hR hC.2
    refine ⟨?_, hRs⟩
    simp only [outputs, ho, hos]

/-- Where each step puts out what it takes from the front of a store and
adds what it is fed behind it, so does a run. -/
theorem outputs_conserve {I : σ → Prop} {C : σ → ι → Prop} {store : σ → List ω}
    {fed out : σ → ι → List ω}
    (hstep : ∀ s i, I s → C s i →
      store s ++ fed s i = out s i ++ store (step s i) ∧ I (step s i))
    {s : σ} {inputs : List ι} (hs : I s) (hC : Along step C s inputs) :
    store s ++ outputs step fed s inputs =
      outputs step out s inputs ++ store (after step s inputs) := by
  induction inputs generalizing s with
  | nil => simp [outputs]
  | cons i inputs ih =>
    obtain ⟨hstore, hI⟩ := hstep s i hs hC.1
    calc store s ++ (fed s i ++ outputs step fed (step s i) inputs)
        = out s i ++ (store (step s i) ++ outputs step fed (step s i) inputs) := by
          rw [← List.append_assoc, hstore, List.append_assoc]
      _ = out s i ++ outputs step out (step s i) inputs ++ store (after step (step s i) inputs) := by
          rw [ih hI hC.2, List.append_assoc]

/-- What each step establishes between its ends and what it puts out, a run
establishes too. -/
theorem outputs_invariant (out : σ → ι → List ω) {I : σ → Prop} {R : σ → List ω → σ → Prop}
    (hrefl : ∀ s, R s [] s)
    (htrans : ∀ {s s' s'' l l'}, R s l s' → R s' l' s'' → R s (l ++ l') s'')
    (hstep : ∀ s i, I s → R s (out s i) (step s i) ∧ I (step s i)) {s : σ} (inputs : List ι)
    (hs : I s) : R s (outputs step out s inputs) (after step s inputs) := by
  induction inputs generalizing s with
  | nil => exact hrefl s
  | cons i inputs ih =>
    obtain ⟨hR, hI⟩ := hstep s i hs
    exact htrans hR (ih hI)

end Run

end ConnectionSniffer
