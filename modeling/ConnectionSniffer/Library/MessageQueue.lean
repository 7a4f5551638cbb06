import ConnectionSniffer.Library.Run
import Mathlib.Data.List.Flatten

/-!
# A queue of messages

A writer appends elements and ends a message now and then; a reader gets
the elements of one message in pieces, then an answer that says that the
message has ended, and then goes on to the next message.  After `finish`
no more elements come, and a reader that has had everything is told so as
often as it asks.

An answer is `none` at the end of a message and `some` piece otherwise.  A
read that has to wait gives no answer.

`delivered_eq` is the correctness of the queue: as a sequence of elements
and end marks, what the reader has been given and what is still in the
queue is what the writer has put in, up to the answers after the last end
mark.
-/

namespace ConnectionSniffer

universe u

structure MessageQueue (α : Type u) where
  /-- The unread parts of the messages that have ended, oldest first. -/
  messages : List (List α) := []
  /-- The unread part of the message that is being written. -/
  current : List α := []
  /-- Whether the message that is being written has had an element. -/
  begun : Bool := false
  finished : Bool := false

namespace MessageQueue

variable {α : Type u}

/-- The part of the queue that a read may take from. -/
def front (q : MessageQueue α) : List α :=
  match q.messages with
  | m :: _ => m
  | [] => q.current

def write (q : MessageQueue α) (data : List α) : MessageQueue α :=
  { q with current := q.current ++ data, begun := true }

/-- End the message that is being written; a message without elements does
not count. -/
def endMessage (q : MessageQueue α) : MessageQueue α :=
  if q.begun then { q with messages := q.messages ++ [q.current], current := [], begun := false }
  else q

def finish (q : MessageQueue α) : MessageQueue α := { q.endMessage with finished := true }

/-- The elements still in the queue. -/
def content (q : MessageQueue α) : List α := q.messages.flatten ++ q.current

/-- Drop `n` elements from the front. -/
def consume (q : MessageQueue α) (n : Nat) : MessageQueue α :=
  match q.messages with
  | m :: rest => { q with messages := m.drop n :: rest }
  | [] => { q with current := q.current.drop n }

/-- Read at most `limit` elements. -/
def read (q : MessageQueue α) (limit : Nat) : Option (Option (List α) × MessageQueue α) :=
  if q.front.isEmpty then
    match q.messages with
    | _ :: rest => some (none, { q with messages := rest })
    | [] => if q.finished then some (none, q) else none
  else some (some (q.front.take limit), q.consume limit)

theorem endMessage_of_not_begun {q : MessageQueue α} (h : q.begun = false) :
    q.endMessage = q := by
  simp [endMessage, h]

@[simp] theorem begun_endMessage (q : MessageQueue α) : q.endMessage.begun = false := by
  unfold endMessage
  cases hb : q.begun with
  | true => rfl
  | false => exact hb

@[simp] theorem endMessage_endMessage (q : MessageQueue α) :
    q.endMessage.endMessage = q.endMessage :=
  endMessage_of_not_begun (begun_endMessage q)

@[simp] theorem finished_endMessage (q : MessageQueue α) :
    q.endMessage.finished = q.finished := by
  unfold endMessage
  split <;> rfl

theorem current_endMessage {q : MessageQueue α} (h : q.begun = false → q.current = []) :
    q.endMessage.current = [] := by
  unfold endMessage
  cases hb : q.begun with
  | true => rfl
  | false => exact h hb

@[simp] theorem content_write (q : MessageQueue α) (data : List α) :
    (q.write data).content = q.content ++ data :=
  (List.append_assoc ..).symm

@[simp] theorem content_endMessage (q : MessageQueue α) : q.endMessage.content = q.content := by
  unfold endMessage
  split
  · simp [content]
  · rfl

theorem front_of_messages_nil {q : MessageQueue α} (h : q.messages = []) :
    q.front = q.current := by
  simp [front, h]

theorem front_of_messages_cons {q : MessageQueue α} {m : List α} {rest : List (List α)}
    (h : q.messages = m :: rest) : q.front = m := by
  simp [front, h]

theorem consume_of_messages_nil {q : MessageQueue α} (h : q.messages = []) (n : Nat) :
    q.consume n = { q with current := q.current.drop n } := by
  simp [consume, h]

theorem consume_of_messages_cons {q : MessageQueue α} {m : List α} {rest : List (List α)}
    (h : q.messages = m :: rest) (n : Nat) :
    q.consume n = { q with messages := m.drop n :: rest } := by
  simp [consume, h]

/-- Taking more than the front holds takes the front. -/
theorem consume_min (q : MessageQueue α) (n : Nat) :
    q.consume (min n q.front.length) = q.consume n := by
  have hdrop : ∀ m : List α, m.drop (min n m.length) = m.drop n := by
    intro m
    rcases Nat.le_total n m.length with hle | hle
    · rw [Nat.min_eq_left hle]
    · rw [Nat.min_eq_right hle, List.drop_length, List.drop_eq_nil_of_le hle]
  cases hq : q.messages with
  | nil =>
    rw [front_of_messages_nil hq, consume_of_messages_nil hq, consume_of_messages_nil hq, hdrop]
  | cons m rest =>
    rw [front_of_messages_cons hq, consume_of_messages_cons hq, consume_of_messages_cons hq, hdrop]

theorem read_of_front {q : MessageQueue α} (h : q.front ≠ []) (limit : Nat) :
    q.read limit = some (some (q.front.take limit), q.consume limit) := by
  simp [read, h]

theorem read_of_messages_nil {q : MessageQueue α} (h : q.front = []) (hq : q.messages = [])
    (limit : Nat) : q.read limit = if q.finished then some (none, q) else none := by
  simp [read, h, hq]

theorem read_of_messages_cons {q : MessageQueue α} {rest : List (List α)}
    (hq : q.messages = [] :: rest) (limit : Nat) :
    q.read limit = some (none, { q with messages := rest }) := by
  simp [read, front_of_messages_cons hq, hq]

/-- A call on the queue. -/
inductive Call (α : Type u) where
  | write (data : List α)
  | endMessage
  | finish
  | read (limit : Nat)

def step (q : MessageQueue α) : Call α → MessageQueue α
  | .write data => q.write data
  | .endMessage => q.endMessage
  | .finish => q.finish
  | .read limit => ((q.read limit).map Prod.snd).getD q

/-- The answers a call gets: one, or none. -/
def answer (q : MessageQueue α) : Call α → List (Option (List α))
  | .read limit => ((q.read limit).map Prod.fst).toList
  | _ => []

/-! ## Elements and end marks -/

/-- What passes through the queue. -/
inductive Token (α : Type u) where
  | element (a : α)
  | endMark
  deriving DecidableEq

/-- The tokens still in the queue. -/
def tokens (q : MessageQueue α) : List (Token α) :=
  q.messages.flatMap (fun m => m.map Token.element ++ [.endMark]) ++ q.current.map Token.element

/-- The tokens a call puts in. -/
def written (q : MessageQueue α) : Call α → List (Token α)
  | .write data => data.map Token.element
  | .endMessage => if q.begun then [.endMark] else []
  | .finish => if q.begun then [.endMark] else []
  | .read _ => []

/-- The tokens an answer stands for. -/
def delivered : Option (List α) → List (Token α)
  | none => [.endMark]
  | some data => data.map Token.element

theorem tokens_endMessage (q : MessageQueue α) :
    q.endMessage.tokens = q.tokens ++ q.written .endMessage := by
  unfold endMessage written tokens
  cases q.begun <;> simp

/-- An answer takes its tokens off the queue, unless there are none left. -/
theorem tokens_read {q q' : MessageQueue α} {limit : Nat} {a : Option (List α)}
    (h : q.read limit = some (a, q')) :
    q.tokens = delivered a ++ q'.tokens ∨
      (q.finished = true ∧ q.tokens = [] ∧ a = none ∧ q' = q) := by
  unfold read at h
  cases hm : q.messages with
  | cons m rest =>
    have hfront : q.front = m := by simp [front, hm]
    cases m with
    | nil =>
      simp only [hfront, hm, List.isEmpty_nil, if_true, Option.some.injEq, Prod.mk.injEq] at h
      obtain ⟨rfl, rfl⟩ := h
      exact Or.inl (by simp [tokens, delivered, hm])
    | cons b m =>
      simp only [hfront, List.isEmpty_cons, Bool.false_eq_true, if_false, Option.some.injEq,
        Prod.mk.injEq] at h
      obtain ⟨rfl, rfl⟩ := h
      left
      simp only [tokens, consume, hm, delivered, List.flatMap_cons, ← List.append_assoc,
        ← List.map_append, List.take_append_drop]
  | nil =>
    have hfront : q.front = q.current := by simp [front, hm]
    cases hc : q.current with
    | nil =>
      simp only [hfront, hc, hm, List.isEmpty_nil, if_true] at h
      split at h
      · rename_i hfin
        obtain ⟨rfl, rfl⟩ := Prod.mk.inj (Option.some.inj h)
        exact Or.inr ⟨hfin, by simp [tokens, hm, hc], rfl, rfl⟩
      · exact absurd h (by simp)
    | cons b rest =>
      simp only [hfront, hc, List.isEmpty_cons, Bool.false_eq_true, if_false, Option.some.injEq,
        Prod.mk.injEq] at h
      obtain ⟨rfl, rfl⟩ := h
      left
      simp only [tokens, consume, hm, hc, delivered, List.flatMap_nil, List.nil_append,
        ← List.map_append, List.take_append_drop]

/-- What a read leaves alone. -/
theorem read_frame {q q' : MessageQueue α} {limit : Nat} {a : Option (List α)}
    (h : q.read limit = some (a, q')) :
    q'.begun = q.begun ∧ q'.finished = q.finished ∧ (q.current = [] → q'.current = []) := by
  unfold read consume at h
  split at h
  · split at h
    · obtain ⟨-, rfl⟩ := Prod.mk.inj (Option.some.inj h)
      exact ⟨rfl, rfl, id⟩
    · split at h
      · obtain ⟨-, rfl⟩ := Prod.mk.inj (Option.some.inj h)
        exact ⟨rfl, rfl, id⟩
      · exact absurd h (by simp)
  · split at h
    · obtain ⟨-, rfl⟩ := Prod.mk.inj (Option.some.inj h)
      exact ⟨rfl, rfl, id⟩
    · obtain ⟨-, rfl⟩ := Prod.mk.inj (Option.some.inj h)
      exact ⟨rfl, rfl, fun hcur => by simp [hcur]⟩

/-- A queue whose writer has kept to the rules: nothing is being written
after `finish`. -/
structure Sound (q : MessageQueue α) : Prop where
  current_of_not_begun : q.begun = false → q.current = []
  not_begun_of_finished : q.finished = true → q.begun = false

theorem sound_empty : Sound ({} : MessageQueue α) := ⟨fun _ => rfl, fun _ => rfl⟩

/-- The writer may write as long as it has not finished. -/
def Admits (q : MessageQueue α) : Call α → Prop
  | .write _ => q.finished = false
  | _ => True

theorem sound_step {q : MessageQueue α} (h : Sound q) {c : Call α} (hc : q.Admits c) :
    Sound (q.step c) := by
  cases c with
  | write data =>
    have hfin : q.finished = false := hc
    exact ⟨fun hb => absurd hb (by simp [step, write]),
      fun hf => absurd (hfin.symm.trans hf) (by simp)⟩
  | endMessage =>
    exact ⟨fun _ => current_endMessage h.current_of_not_begun, fun _ => begun_endMessage q⟩
  | finish =>
    exact ⟨fun _ => current_endMessage h.current_of_not_begun, fun _ => begun_endMessage q⟩
  | read limit =>
    cases hr : q.read limit with
    | none => simpa [step, hr] using h
    | some r =>
      obtain ⟨hb, hf, hcur⟩ := read_frame hr
      have hstep : q.step (.read limit) = r.2 := by simp [step, hr]
      rw [hstep]
      exact ⟨fun h' => hcur (h.current_of_not_begun (hb ▸ h')),
        fun h' => hb.trans (h.not_begun_of_finished (hf ▸ h'))⟩

/-- What a step puts out and leaves is what was there and what it puts in,
or else the queue had run dry. -/
theorem tokens_step {q : MessageQueue α} (c : Call α) :
    (q.answer c).flatMap delivered ++ (q.step c).tokens = q.tokens ++ q.written c ∨
      (q.finished = true ∧ q.tokens = [] ∧ q.written c = [] ∧ q.step c = q ∧
        q.answer c = [none]) := by
  cases c with
  | write data => exact Or.inl (by simp [answer, step, write, tokens, written])
  | endMessage => exact Or.inl (by simpa [answer, step] using tokens_endMessage q)
  | finish => exact Or.inl (tokens_endMessage q)
  | read limit =>
    cases hr : q.read limit with
    | none => exact Or.inl (by simp [answer, step, hr, written])
    | some r =>
      obtain ⟨a, q'⟩ := r
      rcases tokens_read hr with htok | ⟨hfin, htok, rfl, rfl⟩
      · exact Or.inl (by simp [answer, step, hr, written, htok])
      · exact Or.inr ⟨hfin, htok, rfl, by simp [step, hr], by simp [answer, hr]⟩

/-- A queue that has run dry stays so. -/
private theorem delivered_of_dry {q : MessageQueue α} {calls : List (Call α)}
    (hs : Sound q) (hfin : q.finished = true) (htok : q.tokens = [])
    (hcalls : Run.Along step Admits q calls) :
    (Run.outputs step written q calls = [] ∧ (Run.after step q calls).finished = true ∧
      (Run.after step q calls).tokens = []) ∧
    ∃ n, (Run.outputs step answer q calls).flatMap delivered = List.replicate n .endMark := by
  induction calls generalizing q with
  | nil => exact ⟨⟨rfl, hfin, htok⟩, 0, rfl⟩
  | cons c calls ih =>
    have hb := hs.not_begun_of_finished hfin
    have hw : q.written c = [] := by
      cases c with
      | write data => exact absurd (hfin.symm.trans hcalls.1) (by simp)
      | endMessage => simp [written, hb]
      | finish => simp [written, hb]
      | read limit => rfl
    have hfin' : (q.step c).finished = true := by
      cases c with
      | write data => exact hfin
      | endMessage => simp [step, endMessage, hb, hfin]
      | finish => rfl
      | read limit =>
        cases hr : q.read limit with
        | none => simpa [step, hr] using hfin
        | some r =>
          have hstep : q.step (.read limit) = r.2 := by simp [step, hr]
          rw [hstep, (read_frame hr).2.1, hfin]
    rcases tokens_step (q := q) c with heq | ⟨-, -, -, hstep, hans⟩
    · rw [htok, hw, List.append_nil, List.append_eq_nil_iff] at heq
      obtain ⟨hrest, n, hn⟩ := ih (sound_step hs hcalls.1) hfin' heq.2 hcalls.2
      exact ⟨by simpa [Run.outputs, hw] using hrest,
        n, by simpa [Run.outputs, heq.1] using hn⟩
    · obtain ⟨hrest, n, hn⟩ := ih (sound_step hs hcalls.1) hfin' (by rw [hstep, htok]) hcalls.2
      refine ⟨by simpa [Run.outputs, hw] using hrest, n + 1, ?_⟩
      simp [Run.outputs, hans, hn, delivered, List.replicate_succ]

/-- The tokens given to the reader are a prefix of the tokens put in, or
all of them and one end mark for each read after the last one. -/
theorem delivered_eq {calls : List (Call α)} {q : MessageQueue α} (hs : Sound q)
    (hcalls : Run.Along step Admits q calls) :
    (Run.outputs step answer q calls).flatMap delivered ++ (Run.after step q calls).tokens =
        q.tokens ++ Run.outputs step written q calls ∨
      ((Run.after step q calls).finished = true ∧ ∃ n,
        (Run.outputs step answer q calls).flatMap delivered =
          q.tokens ++ Run.outputs step written q calls ++ List.replicate n .endMark) := by
  induction calls generalizing q with
  | nil => exact Or.inl (by simp [Run.outputs])
  | cons c calls ih =>
    rcases tokens_step (q := q) c with heq | ⟨hfin, htok, hw, hstep, hans⟩
    · rcases ih (sound_step hs hcalls.1) hcalls.2 with hl | ⟨hfin, n, hn⟩
      · left
        simp only [Run.outputs, List.flatMap_append, Run.after_cons, List.append_assoc, hl]
        rw [← List.append_assoc, heq, List.append_assoc]
      · right
        refine ⟨hfin, n, ?_⟩
        simp only [Run.outputs, List.flatMap_append, hn, ← List.append_assoc, heq]
    · right
      have hdry := delivered_of_dry (sound_step hs hcalls.1) (by rw [hstep, hfin])
        (by rw [hstep, htok]) hcalls.2
      obtain ⟨⟨hwrest, hfin', -⟩, n, hn⟩ := hdry
      refine ⟨hfin', n + 1, ?_⟩
      simp [Run.outputs, htok, hw, hwrest, hans, hn, delivered, List.replicate_succ]

/-- A queue that starts empty delivers messages as they were written. -/
theorem delivered_prefix {calls : List (Call α)}
    (hcalls : Run.Along step Admits ({} : MessageQueue α) calls) :
    (Run.outputs step answer {} calls).flatMap delivered <+: Run.outputs step written {} calls ∨
      ((Run.after step {} calls).finished = true ∧ ∃ n,
        (Run.outputs step answer {} calls).flatMap delivered =
          Run.outputs step written {} calls ++ List.replicate n .endMark) := by
  rcases delivered_eq sound_empty hcalls with heq | ⟨hfin, n, hn⟩
  · exact Or.inl ⟨_, heq⟩
  · exact Or.inr ⟨hfin, n, hn⟩

end MessageQueue

end ConnectionSniffer
