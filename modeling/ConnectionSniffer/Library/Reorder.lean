import Mathlib.Data.List.Sort
import Mathlib.Tactic.Basic

/-!
# Putting numbered pieces back in order

A `Reorder` receives the pieces `0 … n - 1` in some order.  It knows the
first piece it still waits for, and keeps the later ones that are already
there in an ascending list.  A piece that it waits for is taken at once.
Any other piece goes into the list, and then the list is released as far
as it continues the pieces taken.

Taking a piece at once releases nothing.  So the list may begin with the
piece that is waited for, and it is released only when some other piece
comes.  `expected_eq_iff` says for which orders nothing stays behind.
-/

namespace ConnectionSniffer

/-- The pieces before `expected` have been taken, those in `pending` are
waiting. -/
structure Reorder where
  expected : Nat := 0
  pending : List Nat := []

namespace Reorder

/-- Take pieces from the front of the list while they come next. -/
def release (expected : Nat) : List Nat → Reorder
  | [] => ⟨expected, []⟩
  | i :: rest => if i = expected then release (expected + 1) rest else ⟨expected, i :: rest⟩

/-- A piece comes in. -/
def capture (s : Reorder) (j : Nat) : Reorder :=
  if j = s.expected then ⟨s.expected + 1, s.pending⟩
  else release s.expected (s.pending.orderedInsert (· ≤ ·) j)

/-- The last piece of `order`, which lists the latest piece first, was taken
at once: all pieces before it were there, and the piece that came before it
was not taken at once, or was its predecessor. -/
def Direct : List Nat → Prop
  | [] => False
  | j :: order => (∀ i < j, i ∈ order) ∧
      (Direct order → order.head? = some (j - 1) ∧ 0 < j)

instance decidableDirect : ∀ order, Decidable (Direct order)
  | [] => .isFalse id
  | j :: order =>
    have := decidableDirect order
    inferInstanceAs (Decidable ((∀ i < j, i ∈ order) ∧ (Direct order → _)))

/-! ## Releasing -/

/-- What `release` does to a list in ascending order. -/
theorem release_spec {l : List Nat} (hl : l.Pairwise (· < ·)) {e : Nat} (hle : ∀ i ∈ l, e ≤ i) :
    e ≤ (release e l).expected ∧ (release e l).expected ∉ l ∧
      (∀ i, e ≤ i → i < (release e l).expected → i ∈ l) ∧
      (release e l).pending.Pairwise (· < ·) ∧
      ∀ i, i ∈ (release e l).pending ↔ i ∈ l ∧ (release e l).expected ≤ i := by
  induction l generalizing e with
  | nil =>
    refine ⟨le_refl _, by simp [release], ?_, by simp [release], by simp [release]⟩
    intro i hlo hhi
    exact absurd hhi (Nat.not_lt.mpr hlo)
  | cons j rest ih =>
    obtain ⟨hj, hrest⟩ := List.pairwise_cons.mp hl
    unfold release
    split
    · rename_i he
      obtain ⟨h₁, h₂, h₃, h₄, h₅⟩ := ih hrest (e := e + 1) fun i hi => by
        have := hj i hi
        omega
      refine ⟨by omega, ?_, ?_, h₄, ?_⟩
      · simp only [List.mem_cons, not_or]
        exact ⟨by omega, h₂⟩
      · intro i hlo hhi
        rcases Nat.lt_or_ge e i with hlt | hge
        · exact List.mem_cons_of_mem _ (h₃ i hlt hhi)
        · simp [show i = j by omega]
      · intro i
        rw [h₅ i, List.mem_cons]
        constructor
        · rintro ⟨hi, hle'⟩
          exact ⟨Or.inr hi, hle'⟩
        · rintro ⟨rfl | hi, hle'⟩
          · omega
          · exact ⟨hi, hle'⟩
    · rename_i he
      have hlt : e < j := by
        have := hle j (by simp)
        omega
      refine ⟨le_refl _, ?_, ?_, hl, ?_⟩
      · simp only [List.mem_cons, not_or]
        refine ⟨by omega, fun hmem => ?_⟩
        have := hj e hmem
        omega
      · intro i hlo hhi
        exact absurd hhi (Nat.not_lt.mpr hlo)
      · intro i
        exact ⟨fun hi => ⟨hi, hle i hi⟩, fun hi => hi.1⟩

/-- Insertion keeps the order. -/
theorem ascending_orderedInsert {l : List Nat} (hl : l.Pairwise (· < ·)) {j : Nat} (hj : j ∉ l) :
    (l.orderedInsert (· ≤ ·) j).Pairwise (· < ·) := by
  have hle : (l.orderedInsert (· ≤ ·) j).Pairwise (· ≤ ·) :=
    (hl.imp Nat.le_of_lt).orderedInsert j l
  have hnodup : (l.orderedInsert (· ≤ ·) j).Nodup :=
    (List.perm_orderedInsert (· ≤ ·) j l).nodup_iff.mpr
      (List.nodup_cons.mpr ⟨hj, hl.imp Nat.ne_of_lt⟩)
  exact (hle.and hnodup).imp fun h => lt_of_le_of_ne h.1 h.2

/-! ## Runs -/

/-- The state after the pieces of `order`, the latest first. -/
structure Received (order : List Nat) (s : Reorder) : Prop where
  ascending : s.pending.Pairwise (· < ·)
  mem_pending : ∀ i, i ∈ s.pending ↔ i ∈ order ∧ s.expected ≤ i
  taken : ∀ i < s.expected, i ∈ order
  direct : Direct order → order.head? = some (s.expected - 1) ∧ 0 < s.expected
  released : ¬ Direct order → s.expected ∉ order

theorem received_nil : Received [] {} where
  ascending := List.Pairwise.nil
  mem_pending := by simp
  taken := by simp
  direct := fun h => h.elim
  released := by simp

/-- A piece is taken at once exactly when `Direct` says so. -/
theorem Received.direct_iff {order : List Nat} {s : Reorder} (h : Received order s) {j : Nat}
    (hj : j ∉ order) : Direct (j :: order) ↔ j = s.expected := by
  constructor
  · rintro ⟨hall, hprev⟩
    by_cases hd : Direct order
    · obtain ⟨hhead, hpos⟩ := h.direct hd
      obtain ⟨hhead', hpos'⟩ := hprev hd
      have := Option.some.inj (hhead.symm.trans hhead')
      omega
    · rcases Nat.lt_trichotomy j s.expected with hlt | heq | hgt
      · exact absurd (h.taken j hlt) hj
      · exact heq
      · exact absurd (hall _ hgt) (h.released hd)
  · rintro rfl
    exact ⟨h.taken, h.direct⟩

/-- One more piece. -/
theorem Received.capture {order : List Nat} {s : Reorder} (h : Received order s) {j : Nat}
    (hj : j ∉ order) : Received (j :: order) (s.capture j) := by
  have hdirect := h.direct_iff hj
  unfold Reorder.capture
  split
  · rename_i heq
    refine ⟨h.ascending, ?_, ?_, fun _ => by simp [heq], fun hd => absurd (hdirect.mpr heq) hd⟩
    · intro i
      show i ∈ s.pending ↔ i ∈ j :: order ∧ s.expected + 1 ≤ i
      rw [h.mem_pending, List.mem_cons]
      constructor
      · rintro ⟨hi, hle⟩
        have hne : i ≠ j := fun hij => hj (hij ▸ hi)
        exact ⟨Or.inr hi, by omega⟩
      · rintro ⟨rfl | hi, hle⟩
        · omega
        · exact ⟨hi, by omega⟩
    · intro i hi
      rcases Nat.lt_or_ge i s.expected with hlt | hge
      · exact List.mem_cons_of_mem _ (h.taken i hlt)
      · have : i = j := by
          have : i < s.expected + 1 := hi
          omega
        simp [this]
  · rename_i hne
    have hgt : s.expected < j := by
      by_contra hle
      exact hj (h.taken j (by omega))
    have hmem : ∀ i, i ∈ s.pending.orderedInsert (· ≤ ·) j ↔
        i = j ∨ (i ∈ order ∧ s.expected ≤ i) := by
      intro i
      rw [List.mem_orderedInsert, h.mem_pending]
    have hnot : j ∉ s.pending := fun hmem => hj ((h.mem_pending j).mp hmem).1
    obtain ⟨h₁, h₂, h₃, h₄, h₅⟩ := release_spec (ascending_orderedInsert h.ascending hnot)
      (e := s.expected) fun i hi => by
        rcases (hmem i).mp hi with rfl | ⟨-, hle⟩ <;> omega
    refine ⟨h₄, ?_, ?_, fun hd => absurd (hdirect.mp hd) hne, fun _ => ?_⟩
    · intro i
      rw [h₅ i, hmem i, List.mem_cons]
      constructor
      · rintro ⟨rfl | ⟨hi, -⟩, hle⟩
        · exact ⟨Or.inl rfl, hle⟩
        · exact ⟨Or.inr hi, hle⟩
      · rintro ⟨rfl | hi, hle⟩
        · exact ⟨Or.inl rfl, hle⟩
        · exact ⟨Or.inr ⟨hi, by omega⟩, hle⟩
    · intro i hi
      rcases Nat.lt_or_ge i s.expected with hlt | hge
      · exact List.mem_cons_of_mem _ (h.taken i hlt)
      · rcases (hmem i).mp (h₃ i hge hi) with rfl | ⟨hi, -⟩
        · simp
        · exact List.mem_cons_of_mem _ hi
    · intro hmem'
      rcases List.mem_cons.mp hmem' with heq | hi
      · exact h₂ ((hmem _).mpr (Or.inl heq))
      · exact h₂ ((hmem _).mpr (Or.inr ⟨hi, h₁⟩))

/-- When all `n` pieces have come, they have all been taken, unless the last
one to come was taken at once and is not the last one of all. -/
theorem Received.expected_eq_iff {order : List Nat} {s : Reorder} (h : Received order s)
    {n : Nat} (hn : ∀ i, i ∈ order ↔ i < n) :
    s.expected = n ↔ (Direct order → order.head? = some (n - 1)) := by
  have hle : s.expected ≤ n := by
    by_contra hgt
    have := (hn n).mp (h.taken n (by omega))
    omega
  by_cases hd : Direct order
  · obtain ⟨hhead, hpos⟩ := h.direct hd
    rw [hhead]
    simp only [hd, true_implies, Option.some.injEq]
    omega
  · have hnot : ¬ s.expected < n := fun hlt => h.released hd ((hn _).mpr hlt)
    simp only [hd, false_implies, iff_true]
    omega

/-- When all pieces have been taken, none is waiting. -/
theorem Received.pending_eq_nil {order : List Nat} {s : Reorder} (h : Received order s)
    {n : Nat} (hn : ∀ i, i ∈ order ↔ i < n) (hs : s.expected = n) : s.pending = [] := by
  rw [List.eq_nil_iff_forall_not_mem]
  intro i hi
  obtain ⟨hmem, hle⟩ := (h.mem_pending i).mp hi
  have := (hn i).mp hmem
  omega

end Reorder

end ConnectionSniffer
