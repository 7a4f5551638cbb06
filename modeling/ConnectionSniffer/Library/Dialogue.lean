import ConnectionSniffer.Library.BySide
import ConnectionSniffer.Library.MessageQueue
import Mathlib.Data.List.Chain

/-!
# Two parties that take turns

Each party's pieces go into a message queue of its own.  A piece of one
party ends the message of the other one, so what a queue holds in the end
is one message for each turn of its party.  `heard_turns` says so.
-/

namespace ConnectionSniffer

universe u

/-- Pieces that one party says in a row. -/
structure Turn (α : Type u) where
  side : Side
  pieces : List (List α)
  pieces_ne_nil : pieces ≠ []
  piece_ne_nil : ∀ piece ∈ pieces, piece ≠ []

namespace Turn

variable {α : Type u}

/-- The pieces, each with the party that says it. -/
def said (t : Turn α) : List (Side × List α) := t.pieces.map fun piece => (t.side, piece)

def text (t : Turn α) : List α := t.pieces.flatten

/-- The parties take turns. -/
def Alternating (turns : List (Turn α)) : Prop :=
  turns.IsChain fun t t' => t'.side = t.side.other

/-- The turns of one party. -/
def textsOf (x : Side) (turns : List (Turn α)) : List (List α) :=
  (turns.filter fun t => t.side = x).map text

end Turn

namespace Dialogue

variable {α : Type u}

/-- What one party says ends the message of the other one. -/
def hear (queues : BySide (MessageQueue α)) (s : Side × List α) : BySide (MessageQueue α) :=
  (queues.set s.1.other (queues.get s.1.other).endMessage).set s.1 ((queues.get s.1).write s.2)

/-- The two queues after `said`. -/
def heard (said : List (Side × List α)) : BySide (MessageQueue α) :=
  Run.after hear ⟨{}, {}⟩ said

/-- What party `x` has said, in one piece. -/
def textOf (x : Side) (said : List (Side × List α)) : List α :=
  (said.filter fun s => s.1 = x).flatMap Prod.snd

theorem textOf_append (x : Side) (said said' : List (Side × List α)) :
    textOf x (said ++ said') = textOf x said ++ textOf x said' := by
  simp [textOf]

section Hear

@[simp] theorem get_hear (queues : BySide (MessageQueue α)) (x : Side) (piece : List α) :
    (hear queues (x, piece)).get x = (queues.get x).write piece :=
  BySide.get_set ..

@[simp] theorem get_other_hear (queues : BySide (MessageQueue α)) (x : Side) (piece : List α) :
    (hear queues (x, piece)).get x.other = (queues.get x.other).endMessage := by
  simp [hear]

/-- The pieces of a turn, when the message of the other party has ended. -/
theorem after_pieces (queues : BySide (MessageQueue α)) {x : Side}
    (hother : (queues.get x.other).begun = false) (pieces : List (List α)) :
    (Run.after hear queues (pieces.map fun piece => (x, piece))).get x =
        pieces.foldl MessageQueue.write (queues.get x) ∧
      (Run.after hear queues (pieces.map fun piece => (x, piece))).get x.other =
        queues.get x.other := by
  induction pieces generalizing queues with
  | nil => exact ⟨rfl, rfl⟩
  | cons piece pieces ih =>
    have hend : (hear queues (x, piece)).get x.other = queues.get x.other :=
      (get_other_hear ..).trans (MessageQueue.endMessage_of_not_begun hother)
    have hrest := ih (hear queues (x, piece)) (by rw [hend, hother])
    rw [hend, get_hear] at hrest
    exact hrest

theorem foldl_write (q : MessageQueue α) (pieces : List (List α)) :
    pieces.foldl MessageQueue.write q =
      if pieces = [] then q else q.write pieces.flatten := by
  induction pieces generalizing q with
  | nil => rfl
  | cons piece pieces ih =>
    rw [List.foldl_cons, ih, if_neg (List.cons_ne_nil piece pieces)]
    split
    · rename_i hnil
      simp [hnil]
    · simp [MessageQueue.write]

/-- A turn is written to one queue and ends the message of the other. -/
theorem after_turn (queues : BySide (MessageQueue α)) (t : Turn α) :
    (Run.after hear queues t.said).get t.side = (queues.get t.side).write t.text ∧
      (Run.after hear queues t.said).get t.side.other = (queues.get t.side.other).endMessage := by
  obtain ⟨piece, pieces, hpieces⟩ := List.exists_cons_of_ne_nil t.pieces_ne_nil
  have hrest := after_pieces (hear queues (t.side, piece))
    (by rw [get_other_hear, MessageQueue.begun_endMessage]) pieces
  rw [get_hear, get_other_hear, foldl_write] at hrest
  unfold Turn.said Turn.text
  rw [hpieces, List.map_cons, Run.after_cons, hrest.1, hrest.2]
  refine ⟨?_, rfl⟩
  split
  · rename_i hnil
    simp [hnil]
  · simp [MessageQueue.write]

/-- What a side holds is what it has said. -/
theorem content_after (queues : BySide (MessageQueue α)) (said : List (Side × List α))
    (x : Side) :
    ((Run.after hear queues said).get x).content = (queues.get x).content ++ textOf x said := by
  induction said generalizing queues with
  | nil => simp [textOf]
  | cons s said ih =>
    obtain ⟨y, piece⟩ := s
    rw [Run.after_cons, ih]
    rcases Side.eq_or_eq_other y x with rfl | rfl
    · simp [textOf]
    · simp [textOf]

/-- Nobody finishes by saying something. -/
theorem finished_after (queues : BySide (MessageQueue α)) (said : List (Side × List α))
    (x : Side) : ((Run.after hear queues said).get x).finished = (queues.get x).finished := by
  induction said generalizing queues with
  | nil => rfl
  | cons s said ih =>
    obtain ⟨y, piece⟩ := s
    rw [Run.after_cons, ih]
    rcases Side.eq_or_eq_other y x with rfl | rfl
    · rw [get_hear]
      rfl
    · rw [get_other_hear, MessageQueue.finished_endMessage]

end Hear

/-! ## From the start -/

section Heard

variable (said : List (Side × List α)) (x : Side)

theorem heard_concat (s : Side × List α) : heard (said ++ [s]) = hear (heard said) s :=
  Run.after_append ..

private theorem get_empty : (⟨{}, {}⟩ : BySide (MessageQueue α)).get x = {} := by
  cases x <;> rfl

theorem content_heard : ((heard said).get x).content = textOf x said := by
  unfold heard
  rw [content_after, get_empty]
  rfl

theorem finished_heard : ((heard said).get x).finished = false := by
  unfold heard
  rw [finished_after, get_empty]

end Heard

/-! ## Turns -/

/-- Turns that follow each other, the first one by a party whose message has
ended. -/
theorem endMessage_after_turns (queues : BySide (MessageQueue α)) {turns : List (Turn α)}
    (hcurrent : ∀ x, (queues.get x).begun = false → (queues.get x).current = [])
    (hturns : Turn.Alternating turns)
    (hfirst : ∀ t ∈ turns.head?, (queues.get t.side).begun = false) (x : Side) :
    ((Run.after hear queues (turns.flatMap Turn.said)).get x).endMessage =
      { (queues.get x).endMessage with
        messages := (queues.get x).endMessage.messages ++ Turn.textsOf x turns } := by
  -- the turn before ended the message of the party whose turn it is
  induction turns generalizing queues with
  | nil =>
    rw [show Turn.textsOf x ([] : List (Turn α)) = [] from rfl, List.append_nil]
    rfl
  | cons t turns ih =>
    obtain ⟨hside, hother⟩ := after_turn queues t
    have hbegun : (queues.get t.side).begun = false := hfirst t rfl
    have hrest := ih (Run.after hear queues t.said)
      (BySide.forall_side t.side
        (by
          rw [hside]
          exact fun hb => absurd hb (by simp [MessageQueue.write]))
        (by
          rw [hother]
          exact fun _ => MessageQueue.current_endMessage (hcurrent _)))
      hturns.tail
      (by
        intro t' ht'
        obtain ⟨rest, rfl⟩ := List.head?_eq_some_iff.mp ht'
        rw [hturns.rel, hother, MessageQueue.begun_endMessage])
    rw [List.flatMap_cons, Run.after_append, hrest]
    rcases Side.eq_or_eq_other t.side x with rfl | rfl
    · rw [hside, MessageQueue.endMessage_of_not_begun hbegun]
      simp [MessageQueue.write, MessageQueue.endMessage, Turn.textsOf, hbegun, hcurrent _ hbegun]
    · rw [hother, MessageQueue.endMessage_endMessage]
      simp [Turn.textsOf]

/-- When both parties have finished, each queue holds the turns of its
party. -/
theorem finish_heard_turns {turns : List (Turn α)} (hturns : Turn.Alternating turns) (x : Side) :
    ((heard (turns.flatMap Turn.said)).get x).finish =
      { messages := Turn.textsOf x turns, finished := true } := by
  have h := endMessage_after_turns ⟨{}, {}⟩ (fun y _ => by rw [get_empty]) hturns
    (fun t _ => by rw [get_empty]) x
  unfold MessageQueue.finish heard
  rw [h, get_empty]
  rfl

end Dialogue

end ConnectionSniffer
