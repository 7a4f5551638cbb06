import ConnectionSniffer.Library.TreeSet

/-!
# The tree behind a sorted set

`java.util.TreeSet` keeps its elements in a red-black tree and finds its
way by the comparator.  `SearchTree` is such a tree without its colours:
`put` and `remove` go down from the root as `TreeMap.put` and
`TreeMap.getEntry` do.  The rotations that keep a red-black tree balanced
leave `inorder` alone, so the theorems are about a tree of any shape.

They say when the lists of `TreeSet` are right.  `Ranks` says that on the
elements at hand the comparator orders by a key; then `put` is
`TreeSet.add` on the elements in order (`inorder_put`), and removing the
first element leaves the rest (`inorder_remove_first`).
-/

namespace ConnectionSniffer

universe u

/-- The entries of a `TreeMap`. -/
inductive SearchTree (α : Type u) where
  | nil
  | node (left : SearchTree α) (key : α) (right : SearchTree α)

namespace TreeSet

variable {α : Type u} (compareTo : α → α → Int) {a : α} {s : List α}

/-- On these elements the comparator orders by the key. -/
def Ranks (key : α → Int) (s : List α) : Prop :=
  ∀ a ∈ s, ∀ b ∈ s,
    (compareTo a b < 0 ↔ key a < key b) ∧ (compareTo a b = 0 ↔ key a = key b)

variable {compareTo}

theorem Ranks.mono {key : α → Int} {s' : List α} (h : Ranks compareTo key s)
    (hsub : ∀ a ∈ s', a ∈ s) : Ranks compareTo key s' :=
  fun a ha b hb => h a (hsub a ha) b (hsub b hb)

/-- Elements before `a` are passed on the way to its place. -/
theorem add_append_of_after {l : List α} (s : List α) (h : ∀ b ∈ l, 0 < compareTo a b) :
    add compareTo a (l ++ s) = l ++ add compareTo a s := by
  induction l with
  | nil => rfl
  | cons b l ih =>
    have hb := h b (by simp)
    rw [List.cons_append, add, if_neg (by omega), if_neg (by omega),
      ih fun c hc => h c (by simp [hc]), List.cons_append]

/-- An element behind `a` and what follows it is not reached. -/
theorem add_append_of_before {l : List α} {b : α} (s : List α) (h : compareTo a b < 0) :
    add compareTo a (l ++ b :: s) = add compareTo a l ++ b :: s := by
  induction l with
  | nil => simp [add, h]
  | cons c l ih =>
    rw [List.cons_append, add, add]
    split_ifs
    · rfl
    · rfl
    · rw [ih, List.cons_append]

end TreeSet

namespace SearchTree

open TreeSet (Ascending Ranks)

variable {α : Type u} (compareTo : α → α → Int)

/-- The elements in the order of the iterator. -/
def inorder : SearchTree α → List α
  | .nil => []
  | .node left b right => left.inorder ++ b :: right.inorder

/-- `put`: down to an equal element, which stays, or to a new leaf. -/
def put (a : α) : SearchTree α → SearchTree α
  | .nil => .node .nil a .nil
  | .node left b right =>
    if compareTo a b < 0 then .node (left.put a) b right
    else if compareTo a b = 0 then .node left b right
    else .node left b (right.put a)

/-- The first element, and the tree without it. -/
def popFirst : SearchTree α → Option (α × SearchTree α)
  | .nil => none
  | .node left b right =>
    match left.popFirst with
    | none => some (b, right)
    | some (first, left) => some (first, .node left b right)

/-- `deleteEntry` below an entry: the successor takes its place. -/
def join (left right : SearchTree α) : SearchTree α :=
  match right.popFirst with
  | none => left
  | some (successor, right) => .node left successor right

/-- `remove`: down to the element equal to `a`, and delete its entry. -/
def remove (a : α) : SearchTree α → SearchTree α
  | .nil => .nil
  | .node left b right =>
    if compareTo a b < 0 then .node (left.remove a) b right
    else if compareTo a b = 0 then left.join right
    else .node left b (right.remove a)

@[simp] theorem inorder_node (left : SearchTree α) (b : α) (right : SearchTree α) :
    (node left b right).inorder = left.inorder ++ b :: right.inorder := rfl

theorem inorder_popFirst (t : SearchTree α) :
    t.inorder = match t.popFirst with
      | none => []
      | some (first, rest) => first :: rest.inorder := by
  induction t with
  | nil => rfl
  | node left b right ihLeft ihRight =>
    rw [inorder_node, ihLeft, popFirst]
    cases left.popFirst with
    | none => rfl
    | some popped => rfl

@[simp] theorem inorder_join (left right : SearchTree α) :
    (left.join right).inorder = left.inorder ++ right.inorder := by
  rw [inorder_popFirst right]
  unfold join
  cases right.popFirst with
  | none => exact (List.append_nil _).symm
  | some popped => rfl

section Ranked

variable {compareTo} {key : α → Int} {a b : α} {left right t : SearchTree α}

/-- What lies on the two sides of the root. -/
theorem sides_of_ascending (h : Ascending compareTo (node left b right).inorder) :
    Ascending compareTo left.inorder ∧ Ascending compareTo right.inorder ∧
      (∀ c ∈ left.inorder, compareTo c b < 0) ∧ ∀ c ∈ right.inorder, compareTo b c < 0 := by
  obtain ⟨hleft, hright, hacross⟩ := List.pairwise_append.mp h
  obtain ⟨hb, hright⟩ := List.pairwise_cons.mp hright
  exact ⟨hleft, hright, fun c hc => hacross c hc b (by simp), hb⟩

/-- Putting an element into the tree adds it to the elements in order. -/
theorem inorder_put (hranks : Ranks compareTo key (a :: t.inorder))
    (hs : Ascending compareTo t.inorder) :
    (t.put compareTo a).inorder = TreeSet.add compareTo a t.inorder := by
  induction t with
  | nil => rfl
  | node left b right ihLeft ihRight =>
    obtain ⟨hleft, hright, hbefore, -⟩ := sides_of_ascending hs
    have hinLeft : ∀ c ∈ a :: left.inorder, c ∈ a :: (node left b right).inorder := by
      intro c hc
      rcases List.mem_cons.mp hc with rfl | hc <;> simp [*]
    have hinRight : ∀ c ∈ a :: right.inorder, c ∈ a :: (node left b right).inorder := by
      intro c hc
      rcases List.mem_cons.mp hc with rfl | hc <;> simp [*]
    have hab := hranks a (by simp) b (by simp)
    -- whatever is not before the root is behind all that lies left of it
    have hpass : ¬ compareTo a b < 0 → ∀ c ∈ left.inorder, 0 < compareTo a c := by
      intro hnot c hc
      have hcb := (hranks c (hinLeft c (by simp [hc])) b (by simp)).1.mp (hbefore c hc)
      have hac := hranks a (by simp) c (hinLeft c (by simp [hc]))
      have := mt hab.1.mpr hnot
      have hlt := mt hac.1.mp (show ¬ key a < key c by omega)
      have hne := mt hac.2.mp (show ¬ key a = key c by omega)
      omega
    unfold put
    split_ifs with hlt heq
    · rw [inorder_node, inorder_node, ihLeft (hranks.mono hinLeft) hleft,
        TreeSet.add_append_of_before _ hlt]
    · rw [inorder_node, TreeSet.add_append_of_after _ (hpass hlt), TreeSet.add, if_neg hlt,
        if_pos heq]
    · rw [inorder_node, inorder_node, TreeSet.add_append_of_after _ (hpass hlt), TreeSet.add,
        if_neg hlt, if_neg heq, ihRight (hranks.mono hinRight) hright]

/-- Removing the first element leaves the rest. -/
theorem inorder_remove_first {rest : List α} (hranks : Ranks compareTo key t.inorder)
    (hs : Ascending compareTo t.inorder) (ht : t.inorder = a :: rest) :
    (t.remove compareTo a).inorder = rest := by
  induction t generalizing rest with
  | nil => exact absurd ht nofun
  | node left b right ihLeft _ =>
    obtain ⟨hleft, -, hbefore, -⟩ := sides_of_ascending hs
    rw [inorder_node] at ht
    unfold remove
    cases hl : left.inorder with
    | nil =>
      rw [hl, List.nil_append, List.cons.injEq] at ht
      obtain ⟨rfl, rfl⟩ := ht
      have hself := hranks b (by simp) b (by simp)
      have hzero := hself.2.mpr rfl
      rw [if_neg (by omega), if_pos hzero, inorder_join, hl, List.nil_append]
    | cons c l =>
      rw [hl, List.cons_append, List.cons.injEq] at ht
      obtain ⟨rfl, rfl⟩ := ht
      have hin : ∀ d ∈ left.inorder, d ∈ (node left b right).inorder := fun d hd => by
        simp [hd]
      rw [if_pos (hbefore c (by simp [hl])), inorder_node, ihLeft (hranks.mono hin) hleft hl]

end Ranked

end SearchTree

end ConnectionSniffer
