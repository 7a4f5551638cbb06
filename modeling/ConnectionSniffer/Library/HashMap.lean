import Mathlib.Tactic.Basic
import Mathlib.Data.List.Nodup

/-!
# Hash maps up to the key's own equality

`java.util.concurrent.ConcurrentHashMap` is modelled by the list of its
live entries.  Two keys address one entry when the key type's `equals`
says so; that is `==` here, which need not be `=`.  `put` on a key that
is present replaces the value and keeps the key object already stored,
as the Java class does.

The three laws `get_put`, `get_remove` and `get_congr` are all that a
caller needs that goes through keys.  One that goes through `values` also
needs `Distinct`, which every operation keeps.
-/

namespace ConnectionSniffer

universe u v

/-- The live entries of a map. -/
abbrev HashMap (K : Type u) (V : Type v) := List (K × V)

namespace HashMap

variable {K : Type u} {V : Type v} [BEq K]

/-- The value stored under `key`, if any. -/
def get (m : HashMap K V) (key : K) : Option V :=
  (m.find? (fun entry => entry.1 == key)).map Prod.snd

/-- `put`: replace the value in place when the key is present, otherwise
add an entry. -/
def put (m : HashMap K V) (key : K) (value : V) : HashMap K V :=
  if (m.get key).isSome then
    m.map (fun entry => if entry.1 == key then (entry.1, value) else entry)
  else m ++ [(key, value)]

/-- `remove`: drop the entry under `key`. -/
def remove (m : HashMap K V) (key : K) : HashMap K V :=
  m.filter (fun entry => !(entry.1 == key))

@[simp] theorem get_nil (key : K) : get ([] : HashMap K V) key = none := rfl

theorem get_cons (entry : K × V) (m : HashMap K V) (key : K) :
    get (entry :: m) key = if entry.1 == key then some entry.2 else get m key := by
  unfold get
  rw [List.find?_cons]
  cases entry.1 == key <;> rfl

theorem get_append_single (m : HashMap K V) (entry : K × V) (key : K) :
    get (m ++ [entry]) key =
      (get m key).or (if entry.1 == key then some entry.2 else none) := by
  induction m with
  | nil => simp [get_cons]
  | cons e m ih =>
    rw [List.cons_append, get_cons, get_cons, ih]
    cases e.1 == key <;> simp

/-! ## Distinct keys -/

/-- No two entries have equal keys. -/
def Distinct (m : HashMap K V) : Prop := m.Pairwise fun entry entry' => (entry.1 == entry'.1) = false

theorem distinct_nil : Distinct ([] : HashMap K V) := List.Pairwise.nil

/-- Without a value under `key`, no entry has it. -/
theorem get_eq_none_iff {m : HashMap K V} {key : K} :
    get m key = none ↔ ∀ entry ∈ m, (entry.1 == key) = false := by
  simp [get]

theorem Distinct.remove {m : HashMap K V} (h : Distinct m) (key : K) : Distinct (remove m key) :=
  List.Pairwise.filter _ h

theorem Distinct.put {m : HashMap K V} (h : Distinct m) (key : K) (value : V) :
    Distinct (put m key value) := by
  unfold HashMap.put
  split
  · refine List.pairwise_map.mpr (h.imp fun {entry entry'} hne => ?_)
    have hkey : ∀ e : K × V, (if e.1 == key then (e.1, value) else e).1 = e.1 := by
      intro e
      split <;> rfl
    rwa [hkey, hkey]
  · rename_i hnone
    have hfree := get_eq_none_iff.mp (Option.not_isSome_iff_eq_none.mp hnone)
    refine List.pairwise_append.mpr ⟨h, List.pairwise_singleton _ _, fun entry hentry e he => ?_⟩
    rw [List.mem_singleton.mp he]
    exact hfree entry hentry

/-! ## The values -/

/-- `values()`. -/
def values (m : HashMap K V) : List V := m.map Prod.snd

/-- `values().remove(value)`: drop the first entry with this value. -/
def removeValue [DecidableEq V] (m : HashMap K V) (value : V) : HashMap K V :=
  match m.find? fun entry => entry.2 == value with
  | none => m
  | some entry => m.remove entry.1

theorem Distinct.removeValue [DecidableEq V] {m : HashMap K V} (h : Distinct m) (value : V) :
    Distinct (removeValue m value) := by
  unfold HashMap.removeValue
  split
  · exact h
  · exact h.remove _

/-- What is read is the value of an entry. -/
theorem mem_of_get {m : HashMap K V} {key : K} {value : V} (h : get m key = some value) :
    ∃ entry ∈ m, (entry.1 == key) = true ∧ entry.2 = value := by
  obtain ⟨entry, hfind, hvalue⟩ := Option.map_eq_some_iff.mp h
  exact ⟨entry, List.mem_of_find?_eq_some hfind,
    List.find?_some (p := fun entry : K × V => entry.1 == key) hfind, hvalue⟩

theorem mem_values_of_get {m : HashMap K V} {key : K} {value : V} (h : get m key = some value) :
    value ∈ values m := by
  obtain ⟨entry, hentry, -, rfl⟩ := mem_of_get h
  exact List.mem_map_of_mem hentry

theorem nodup_values_removeValue [DecidableEq V] {m : HashMap K V} (h : (values m).Nodup)
    (value : V) : (values (removeValue m value)).Nodup := by
  unfold HashMap.removeValue
  split
  · exact h
  · exact h.sublist (List.Sublist.map Prod.snd List.filter_sublist)

/-! ## The laws -/

variable [EquivBEq K]

/-- Equal keys address the same entry. -/
theorem get_congr (m : HashMap K V) {key key' : K} (h : key == key') :
    get m key = get m key' := by
  induction m with
  | nil => rfl
  | cons e m ih =>
    have hk : (e.1 == key) = (e.1 == key') := BEq.congr_right h
    rw [get_cons, get_cons, hk, ih]

private theorem get_map_put (m : HashMap K V) (key key' : K) (value : V) :
    get (m.map (fun entry => if entry.1 == key then (entry.1, value) else entry)) key' =
      if key == key' then (get m key).map (fun _ => value) else get m key' := by
  induction m with
  | nil => simp
  | cons e m ih =>
    rw [List.map_cons, get_cons, get_cons, get_cons, ih]
    by_cases hek : e.1 == key
    · have he : (e.1 == key') = (key == key') := BEq.congr_left hek
      cases hkk : key == key' <;> simp [hek, he, hkk]
    · cases hkk : key == key' with
      | true =>
        have he : (e.1 == key') = (e.1 == key) := (BEq.congr_right hkk).symm
        simp [hek, he]
      | false => simp [hek]

/-- Reading back after a `put`. -/
theorem get_put (m : HashMap K V) (key key' : K) (value : V) :
    get (put m key value) key' = if key == key' then some value else get m key' := by
  unfold put
  cases hget : get m key with
  | some old =>
    simp only [Option.isSome_some, if_true, get_map_put, hget, Option.map_some]
  | none =>
    simp only [Option.isSome_none, Bool.false_eq_true, if_false, get_append_single]
    cases hkk : key == key' with
    | true =>
      rw [← get_congr m hkk, hget]
      rfl
    | false => simp

@[simp] theorem get_put_self (m : HashMap K V) (key : K) (value : V) :
    get (put m key value) key = some value := by
  simp [get_put]

/-- Reading back after a `remove`. -/
theorem get_remove (m : HashMap K V) (key key' : K) :
    get (remove m key) key' = if key == key' then none else get m key' := by
  unfold remove
  induction m with
  | nil => simp
  | cons e m ih =>
    rw [List.filter_cons]
    by_cases hek : e.1 == key
    · have he : (e.1 == key') = (key == key') := BEq.congr_left hek
      cases hkk : key == key' <;> simp_all [get_cons]
    · cases hkk : key == key' with
      | true =>
        have he : (e.1 == key') = (e.1 == key) := (BEq.congr_right hkk).symm
        simp_all [get_cons]
      | false => simp_all [get_cons]

/-! ## Reading a map with distinct keys -/

/-- Where the keys are distinct, the map is the set of its entries. -/
theorem Distinct.get_iff {m : HashMap K V} (h : Distinct m) {key : K} {value : V} :
    get m key = some value ↔ ∃ entry ∈ m, (entry.1 == key) = true ∧ entry.2 = value := by
  induction m with
  | nil => simp
  | cons e m ih =>
    obtain ⟨hfirst, hrest⟩ := List.pairwise_cons.mp h
    rw [get_cons]
    cases hkey : e.1 == key with
    | false => simp [hkey, ih hrest]
    | true =>
      have hothers : ∀ entry ∈ m, (entry.1 == key) = false := by
        intro entry hentry
        cases hentry' : entry.1 == key with
        | false => rfl
        | true =>
          have hsame : (e.1 == entry.1) = true := BEq.trans hkey (BEq.symm hentry')
          simp [hfirst entry hentry] at hsame
      simp only [if_true, Option.some.injEq, List.mem_cons, exists_eq_or_imp, hkey, true_and]
      refine ⟨Or.inl, fun hor => hor.resolve_right ?_⟩
      rintro ⟨entry, hentry, hentry', -⟩
      simp [hothers entry hentry] at hentry'

variable [DecidableEq V]

theorem get_of_get_removeValue {m : HashMap K V} {key : K} {value value' : V}
    (h : get (removeValue m value) key = some value') : get m key = some value' := by
  unfold removeValue at h
  split at h
  · exact h
  · rw [get_remove] at h
    split at h
    · exact absurd h (by simp)
    · exact h

/-- Where no value is stored twice, the value goes. -/
theorem get_removeValue_ne {m : HashMap K V} (h : (values m).Nodup) (key : K) (value : V) :
    get (HashMap.removeValue m value) key ≠ some value := by
  intro hget
  obtain ⟨entry, hentry, hkey, hvalue⟩ := mem_of_get (get_of_get_removeValue hget)
  unfold HashMap.removeValue at hget
  split at hget
  · rename_i hnone
    simpa [hvalue] using List.find?_eq_none.mp hnone entry hentry
  · rename_i entry' hfind
    have hvalue' : entry'.2 = value := by simpa using List.find?_some hfind
    have hsame : entry = entry' :=
      List.inj_on_of_nodup_map h hentry (List.mem_of_find?_eq_some hfind) (hvalue.trans hvalue'.symm)
    rw [get_remove, if_pos (hsame ▸ hkey)] at hget
    exact absurd hget (by simp)

/-- Only the value in question goes. -/
theorem Distinct.get_removeValue {m : HashMap K V} (h : Distinct m) {key : K} {value value' : V}
    (hget : get m key = some value') (hne : value' ≠ value) :
    get (HashMap.removeValue m value) key = some value' := by
  unfold HashMap.removeValue
  split
  · exact hget
  · rename_i entry hfind
    have hvalue : entry.2 = value := by simpa using List.find?_some hfind
    rw [get_remove, if_neg]
    · exact hget
    · intro hkey
      have hsame : get m key = some entry.2 :=
        h.get_iff.mpr ⟨entry, List.mem_of_find?_eq_some hfind, hkey, rfl⟩
      rw [hget, hvalue, Option.some.injEq] at hsame
      exact hne hsame

end HashMap

end ConnectionSniffer
