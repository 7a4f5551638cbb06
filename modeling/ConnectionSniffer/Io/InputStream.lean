import ConnectionSniffer.Io.DynamicByteArrayInputStream

/-!
# Input streams

`InputStream σ` is what a class that wraps a stream calls: the methods of
`java.io.InputStream`, on streams whose state is a `σ`.  A read of at most
`len` bytes gets that many at most.

`Supplies` is the contract of `read`: before the end of the stream it
returns at least one byte, and the bytes come in order.  `asks` are the
lengths of the array and of the read for which a stream keeps it.  A
`SplitStream` is the most general stream that holds given bytes: how many
of them each call returns, or says to be available, is up to a list of
choices.
-/

namespace ConnectionSniffer

universe u v

/-- What a method of a stream throws. -/
inductive StreamError where
  | checked (error : IOException)
  | unchecked (error : Throwable)
  deriving DecidableEq

/-- One call of a method that may wait. -/
inductive Completion (σ : Type u) (α : Type v) where
  | returned (answer : α) (state : σ)
  | waits
  | thrown (error : StreamError) (state : σ)

structure InputStream (σ : Type u) where
  /-- `read(b, off, len)` on an array `b` of length `bLength`: the bytes it
  puts into `b`, or `none` for `-1`. -/
  read : σ → (bLength off len : Nat) → Completion σ (Option { data : List UInt8 // data.length ≤ len })
  available : σ → Nat × σ
  close : σ → Outcome StreamError σ
  /-- No method: a bound on the number of bytes before the end. -/
  remaining : σ → Nat

namespace InputStream

variable {σ : Type u}

/-- The stream has `rest` before it, as long as it is in a state of `I`. -/
structure Supplies (stream : InputStream σ) (I : σ → Prop) (rest : σ → List UInt8)
    (asks : Nat → Nat → Prop) : Prop where
  read : ∀ {s : σ} {bLength off len : Nat}, I s → rest s ≠ [] → 0 < len → off + len ≤ bLength →
    asks bLength len → ∃ data s', stream.read s bLength off len = .returned (some data) s' ∧ data.1 ≠ [] ∧
      rest s = data.1 ++ rest s' ∧ I s'
  available : ∀ {s : σ}, I s → I (stream.available s).2 ∧ rest (stream.available s).2 = rest s
  close : ∀ {s : σ}, I s → ∃ s', stream.close s = .returned s'
  remaining : ∀ {s : σ}, I s → (rest s).length ≤ stream.remaining s

/-- Behind its last byte, a read of the stream returns `-1`. -/
def IsFinite (stream : InputStream σ) (I : σ → Prop) (rest : σ → List UInt8)
    (asks : Nat → Nat → Prop) : Prop :=
  ∀ {s : σ} {bLength off len : Nat}, I s → rest s = [] → 0 < len → off + len ≤ bLength →
    asks bLength len → ∃ s', stream.read s bLength off len = .returned none s' ∧ I s' ∧ rest s' = []

end InputStream

/-! ## Streams that split their bytes in any way -/

structure SplitStream where
  rest : List UInt8
  /-- One for each call to come. -/
  choices : List Nat

namespace SplitStream

/-- The choice for this call. -/
def choice (s : SplitStream) : Nat := s.choices.headD 0

/-- A read gets at least one byte, and at most `len`. -/
def read (s : SplitStream) (len : Nat) :
    Completion SplitStream (Option { data : List UInt8 // data.length ≤ len }) :=
  if s.rest = [] ∧ 0 < len then .returned none { s with choices := s.choices.tail }
  else
    .returned (some ⟨s.rest.take (min (s.choice + 1) len),
        Nat.le_trans (List.length_take_le _ _) (Nat.min_le_right _ _)⟩)
      ⟨s.rest.drop (min (s.choice + 1) len), s.choices.tail⟩

/-- The stream as an `InputStream`. -/
def inputStream : InputStream SplitStream where
  read s _ _ len := s.read len
  available s := (s.choice, { s with choices := s.choices.tail })
  close s := .returned s
  remaining s := s.rest.length

theorem supplies : inputStream.Supplies (fun _ => True) rest (fun _ _ => True) where
  read := by
    intro s bLength off len _ hrest hlen _ _
    have hn : 0 < min (s.choice + 1) len := Nat.lt_min.mpr ⟨Nat.succ_pos _, hlen⟩
    refine ⟨_, _, if_neg fun h => hrest h.1, ?_, (List.take_append_drop _ _).symm, trivial⟩
    exact List.ne_nil_of_length_pos (by
      rw [List.length_take]
      exact Nat.lt_min.mpr ⟨hn, List.length_pos_iff.mpr hrest⟩)
  available := fun _ => ⟨trivial, rfl⟩
  close := fun {s} _ => ⟨s, rfl⟩
  remaining := fun _ => Nat.le_refl _

theorem isFinite : inputStream.IsFinite (fun _ => True) rest (fun _ _ => True) :=
  fun {s _ _ _} _ hrest hlen _ _ =>
    ⟨{ s with choices := s.choices.tail }, if_pos ⟨hrest, hlen⟩, trivial, hrest⟩

end SplitStream

end ConnectionSniffer
