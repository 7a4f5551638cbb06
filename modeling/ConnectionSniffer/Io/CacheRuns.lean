import ConnectionSniffer.Io.FixLengthStreamFileCache
import ConnectionSniffer.Library.Run
import Mathlib.Logic.Function.Basic

/-!
# Runs of the file cache

What the cache is for is said by `Entries`: each `uuid` has the bytes that
were written under it, and how many of them were asked for.  `Stores` is
when an entry of the cache still has them in the file.

The cache keeps that as long as each call is `Clear` of the bytes that can
still be read.  It is not always: the length of a new entry goes wherever
the file pointer is, the next entry starts right behind the cursor of the
last one, and every read starts at the first byte.  `reads_written` is the
round trip for runs of clear calls.

`rejects_iff` is about the limits of an entry: a write that is too long is
refused after it was made, and an entry counts as full two bytes early.
-/

namespace ConnectionSniffer

universe u

namespace FixLengthStreamFileCache

open RandomAccessFile (Apart Holds SameBytes intOf)

variable {K : Type u} [DecidableEq K]

/-! ## What the cache is for -/

structure Entry where
  size : Int
  content : List UInt8 := []
  asked : Nat := 0

/-- The entries of a cache, by `uuid`. -/
abbrev Entries (K : Type u) := K → Option Entry

/-- The bytes that a call writes under `uuid`. -/
def Call.dataUnder (uuid : K) : Call K → List UInt8
  | .write uuid' data => if uuid' = uuid then data.getD [] else []
  | .allocate _ _ | .read _ _ => []

namespace Entries

def next (e : Entries K) : Call K → Entries K
  | .allocate uuid size => Function.update e uuid (some { size })
  | .write uuid data =>
    Function.update e uuid ((e uuid).map fun x => { x with content := x.content ++ data.getD [] })
  | .read uuid length =>
    Function.update e uuid ((e uuid).map fun x => { x with asked := x.asked + length })

/-- A new `uuid`, no more bytes than allocated, no more bytes than written. -/
def Allowed (e : Entries K) : Call K → Prop
  | .allocate uuid size => e uuid = none ∧ 0 ≤ size
  | .write uuid data =>
    ∃ x, e uuid = some x ∧ ((x.content.length + (data.getD []).length : Nat) : Int) ≤ x.size
  | .read uuid length => ∃ x, e uuid = some x ∧ x.asked + length ≤ x.content.length

/-- The bytes that the call gets under `uuid`. -/
def readBy (uuid : K) (e : Entries K) : Call K → List UInt8
  | .read uuid' length =>
    if uuid' = uuid then ((e uuid').map fun x => (x.content.drop x.asked).take length).getD [] else []
  | .allocate _ _ | .write _ _ => []

def contentOf (e : Entries K) (uuid : K) : List UInt8 := ((e uuid).map Entry.content).getD []

def askedOf (e : Entries K) (uuid : K) : Nat := ((e uuid).map Entry.asked).getD 0

variable {e : Entries K} {call : Call K} {uuid : K}

theorem contentOf_next (h : Allowed e call) :
    contentOf (next e call) uuid = contentOf e uuid ++ call.dataUnder uuid := by
  unfold contentOf
  cases call with
  | allocate uuid' size =>
    rw [next, Call.dataUnder, List.append_nil, Function.update_apply]
    split_ifs with heq
    · rw [heq, h.1]
      rfl
    · rfl
  | write uuid' data =>
    obtain ⟨x, hx, -⟩ := h
    rw [next, Call.dataUnder, Function.update_apply]
    by_cases heq : uuid = uuid'
    · rw [if_pos heq, if_pos heq.symm, heq, hx]
      rfl
    · rw [if_neg heq, if_neg (Ne.symm heq), List.append_nil]
  | read uuid' length =>
    obtain ⟨x, hx, -⟩ := h
    rw [next, Call.dataUnder, List.append_nil, Function.update_apply]
    split_ifs with heq
    · rw [heq, hx]
      rfl
    · rfl

/-- What has been read is what was asked for first. -/
theorem take_next (h : Allowed e call) (hasked : askedOf e uuid ≤ (contentOf e uuid).length) :
    (contentOf e uuid).take (askedOf e uuid) ++ readBy uuid e call =
        (contentOf (next e call) uuid).take (askedOf (next e call) uuid) ∧
      askedOf (next e call) uuid ≤ (contentOf (next e call) uuid).length := by
  rw [contentOf_next h]
  cases call with
  | allocate uuid' size =>
    have hsame : askedOf (next e (.allocate uuid' size)) uuid = askedOf e uuid := by
      unfold askedOf
      rw [next, Function.update_apply]
      split_ifs with heq
      · rw [heq, h.1]
        rfl
      · rfl
    rw [hsame, readBy, Call.dataUnder, List.append_nil, List.append_nil]
    exact ⟨rfl, hasked⟩
  | write uuid' data =>
    have hsame : askedOf (next e (.write uuid' data)) uuid = askedOf e uuid := by
      unfold askedOf
      rw [next, Function.update_apply]
      split_ifs with heq
      · rw [heq]
        cases e uuid' with
        | none => rfl
        | some x => rfl
      · rfl
    rw [hsame, readBy, List.append_nil, List.take_append_of_le_length hasked]
    exact ⟨rfl, Nat.le_trans hasked (by simp)⟩
  | read uuid' length =>
    obtain ⟨x, hx, hlen⟩ := h
    rw [readBy, Call.dataUnder, List.append_nil]
    unfold askedOf
    rw [next, Function.update_apply]
    by_cases heq : uuid = uuid'
    · subst heq
      rw [if_pos rfl, if_pos rfl]
      unfold contentOf
      simp only [hx, Option.map_some, Option.getD_some]
      exact ⟨(List.take_add ..).symm, hlen⟩
    · rw [if_neg heq, if_neg (Ne.symm heq), List.append_nil]
      exact ⟨rfl, hasked⟩

theorem run_take {calls : List (Call K)} (h : Run.Along next Allowed e calls)
    (hasked : askedOf e uuid ≤ (contentOf e uuid).length) :
    (contentOf e uuid).take (askedOf e uuid) ++ Run.outputs next (readBy uuid) e calls <+:
      contentOf e uuid ++ calls.flatMap (Call.dataUnder uuid) := by
  induction calls generalizing e with
  | nil =>
    rw [Run.outputs_nil, List.flatMap_nil, List.append_nil, List.append_nil]
    exact List.take_prefix _ _
  | cons call calls ih =>
    obtain ⟨hallowed, hrest⟩ := h
    obtain ⟨htake, hasked'⟩ := take_next hallowed hasked
    have hcalls := ih hrest hasked'
    rwa [← htake, contentOf_next hallowed, List.append_assoc, List.append_assoc] at hcalls

end Entries

/-! ## What the file keeps -/

variable {s : FixLengthStreamFileCache K} {e : Entries K} {f : RandomAccessFile} {c : Cursor}
variable {x : Entry} {uuid : K}

/-- The entry has its bytes in the file, at least until they are asked for. -/
structure Stores (f : RandomAccessFile) (c : Cursor) (x : Entry) : Prop where
  dataLen : c.dataLen = x.size
  writePos : c.writePos = c.startPos + 4 + x.content.length
  readPos : c.readPos = c.startPos + 4 + x.asked
  asked_le : x.asked ≤ x.content.length
  fits : (x.content.length : Int) ≤ x.size
  holds : x.asked = 0 → x.content ≠ [] → f.Holds (c.startPos + 4) x.content

/-- What the cache and `Entries` have under one `uuid`. -/
def Keeps (f : RandomAccessFile) : Option Cursor → Option Entry → Prop
  | none, none => True
  | some c, some x => Stores f c x
  | none, some _ | some _, none => False

theorem Keeps.seek {cursor : Option Cursor} {entry : Option Entry} (h : Keeps f cursor entry)
    (pos : Nat) : Keeps (f.seek pos) cursor entry := by
  cases cursor with
  | none =>
    cases entry with
    | none => trivial
    | some x => exact h.elim
  | some c =>
    cases entry with
    | none => exact h.elim
    | some x => exact { h with holds := h.holds }

def Represents (s : FixLengthStreamFileCache K) (e : Entries K) : Prop :=
  ∀ uuid, Keeps s.tempFile (s.dataCursors.get uuid) (e uuid)

theorem represents_create (file : RandomAccessFile) :
    Represents (create file : FixLengthStreamFileCache K) fun _ => none := fun _ => trivial

/-- The entry under a `uuid`. -/
theorem Represents.cursor (h : Represents s e) (hx : e uuid = some x) :
    ∃ c, s.dataCursors.get uuid = some c ∧ Stores s.tempFile c x := by
  have huuid := h uuid
  rw [hx] at huuid
  cases hc : s.dataCursors.get uuid with
  | none =>
    rw [hc] at huuid
    exact huuid.elim
  | some c =>
    rw [hc] at huuid
    exact ⟨c, rfl, huuid⟩

/-- A write to the file does not meet the bytes of other entries that can
still be read. -/
def Misses (s : FixLengthStreamFileCache K) (uuid : K) (pos n : Nat) : Prop :=
  ∀ entry ∈ s.dataCursors, entry.1 ≠ uuid → entry.2.readPos = entry.2.startPos + 4 →
    Apart pos n (entry.2.startPos + 4) (entry.2.writePos - (entry.2.startPos + 4))

/-- No part of the defects is reached: the bytes that the call writes to the
file miss what can still be read, and a read is the first one under its
`uuid` and finds the length of the entry at its start. -/
def Clear (s : FixLengthStreamFileCache K) : Call K → Prop
  | .allocate uuid _ => Misses s uuid s.tempFile.pointer 4
  | .write uuid data =>
    ∀ c ∈ s.dataCursors.get uuid, Misses s uuid c.writePos (data.getD []).length
  | .read uuid length =>
    ∀ c ∈ s.dataCursors.get uuid,
      (c.startPos + 4 ≤ s.tempFile.length ∧ intOf (s.tempFile.slice c.startPos 4) = c.dataLen) ∧
        (length = 0 ∨ c.readPos = c.startPos + 4)

instance (s : FixLengthStreamFileCache K) (uuid : K) (pos n : Nat) :
    Decidable (Misses s uuid pos n) :=
  inferInstanceAs (Decidable (∀ entry ∈ s.dataCursors, entry.1 ≠ uuid →
    entry.2.readPos = entry.2.startPos + 4 →
      Apart pos n (entry.2.startPos + 4) (entry.2.writePos - (entry.2.startPos + 4))))

instance : ∀ (s : FixLengthStreamFileCache K) (call : Call K), Decidable (Clear s call)
  | s, .allocate uuid _ => inferInstanceAs (Decidable (Misses s uuid s.tempFile.pointer 4))
  | s, .write uuid data => inferInstanceAs (Decidable
      (∀ c ∈ s.dataCursors.get uuid, Misses s uuid c.writePos (data.getD []).length))
  | s, .read uuid length => inferInstanceAs (Decidable
      (∀ c ∈ s.dataCursors.get uuid,
        (c.startPos + 4 ≤ s.tempFile.length ∧ intOf (s.tempFile.slice c.startPos 4) = c.dataLen) ∧
          (length = 0 ∨ c.readPos = c.startPos + 4)))

theorem Stores.write (h : Stores f c x) {data : List UInt8}
    (hmiss : c.readPos = c.startPos + 4 →
      Apart f.pointer data.length (c.startPos + 4) (c.writePos - (c.startPos + 4))) :
    Stores (f.write data) c x where
  dataLen := h.dataLen
  writePos := h.writePos
  readPos := h.readPos
  asked_le := h.asked_le
  fits := h.fits
  holds := by
    intro hasked hne
    obtain ⟨hlength, hslice⟩ := h.holds hasked hne
    have hread := h.readPos
    have hwrite := h.writePos
    have hapart := hmiss (by omega)
    rw [hwrite, Nat.add_sub_cancel_left] at hapart
    exact ⟨Nat.le_trans hlength (RandomAccessFile.length_le_write data),
      (RandomAccessFile.slice_write_of_apart hapart).trans hslice⟩

/-- Other entries keep their bytes in a write to the file. -/
theorem Represents.other (h : Represents s e) {uuid' : K} (hne : uuid' ≠ uuid) {pos : Nat}
    (data : List UInt8) (hmiss : Misses s uuid pos data.length) :
    Keeps ((s.tempFile.seek pos).write data) (s.dataCursors.get uuid') (e uuid') := by
  have huuid' := h uuid'
  cases hc : s.dataCursors.get uuid' with
  | none =>
    rw [hc] at huuid'
    cases hx : e uuid' with
    | none => trivial
    | some x =>
      rw [hx] at huuid'
      exact huuid'.elim
  | some c =>
    rw [hc] at huuid'
    cases hx : e uuid' with
    | none =>
      rw [hx] at huuid'
      exact huuid'.elim
    | some x =>
      rw [hx] at huuid'
      obtain ⟨entry, hentry, hkey, rfl⟩ := HashMap.mem_of_get hc
      have hstores : Stores (s.tempFile.seek pos) entry.2 x :=
        { huuid' with holds := huuid'.holds }
      exact hstores.write fun hread => hmiss entry hentry (by rw [eq_of_beq hkey]; exact hne) hread

theorem represents_allocate (h : Represents s e) {size : Int}
    (hallowed : e.Allowed (.allocate uuid size)) (hclear : Clear s (.allocate uuid size)) :
    Represents (s.allocate uuid size) (e.next (.allocate uuid size)) := by
  intro uuid'
  rw [allocate, Entries.next, HashMap.get_put, Function.update_apply]
  by_cases heq : uuid' = uuid
  · rw [if_pos (by simp [heq]), if_pos heq]
    exact ⟨rfl, rfl, rfl, Nat.le_refl _, hallowed.2, fun _ hne => absurd rfl hne⟩
  · rw [if_neg (by simpa using Ne.symm heq), if_neg heq]
    exact h.other heq (RandomAccessFile.intBytes size) hclear

/-- A write to the file behind the bytes of the entry. -/
theorem Stores.append (h : Stores f c x) {data : List UInt8} (hne : data ≠ [])
    (hfits : ((x.content.length + data.length : Nat) : Int) ≤ x.size) :
    Stores ((f.seek c.writePos).write data) { c with writePos := c.writePos + data.length }
      { x with content := x.content ++ data } where
  dataLen := h.dataLen
  writePos := by
    have hwrite := h.writePos
    rw [List.length_append]
    show c.writePos + data.length = c.startPos + 4 + (x.content.length + data.length)
    omega
  readPos := h.readPos
  asked_le := by
    rw [List.length_append]
    exact Nat.le_add_right_of_le h.asked_le
  fits := by rwa [List.length_append]
  holds := by
    intro hasked _
    have hwrite := h.writePos
    have hself := RandomAccessFile.slice_write_self (f := f.seek c.writePos) data
    have hlength := RandomAccessFile.le_length_write (f := f.seek c.writePos) hne
    rw [RandomAccessFile.pointer_seek, hwrite] at hself hlength
    have hold : ((f.seek c.writePos).write data).slice (c.startPos + 4) x.content.length = x.content := by
      by_cases hnil : x.content = []
      · rw [hnil]
        rfl
      · have hapart : Apart (f.seek c.writePos).pointer data.length (c.startPos + 4)
            x.content.length := Or.inr (Or.inr (Or.inr (Nat.le_of_eq hwrite.symm)))
        exact (RandomAccessFile.slice_write_of_apart hapart).trans (h.holds hasked hnil).2
    refine ⟨?_, ?_⟩
    · rw [List.length_append, hwrite, ← Nat.add_assoc]
      exact hlength
    · rw [List.length_append, RandomAccessFile.slice_add, hold, hwrite, hself]

/-- A write that fits returns. -/
theorem write_eq {data : List UInt8} (hne : data ≠ []) (hc : s.dataCursors.get uuid = some c)
    (hfits : ((c.writePos + data.length : Nat) : Int) ≤ c.getEndPos) :
    s.write uuid (some data) = .returned { s with
      tempFile := (s.tempFile.seek c.writePos).write data
      dataCursors := s.dataCursors.put uuid { c with writePos := c.writePos + data.length }
      cacheFileLen := s.cacheFileLen + data.length } := by
  obtain ⟨b, bytes, rfl⟩ := List.exists_cons_of_ne_nil hne
  have hmove : c.moveWriteForward (b :: bytes).length =
      .ok { c with writePos := c.writePos + (b :: bytes).length } := by
    rw [Cursor.moveWriteForward, if_neg (by push_cast at hfits ⊢; omega)]
  simp only [write, getCursor, hc, hmove]

theorem write_clear (h : Represents s e) {data : Option (List UInt8)}
    (hallowed : e.Allowed (.write uuid data)) (hclear : Clear s (.write uuid data)) :
    Returns s (.write uuid data) ∧
      Represents (next s (.write uuid data)) (e.next (.write uuid data)) := by
  obtain ⟨x, hx, hfits⟩ := hallowed
  by_cases hnil : data.getD [] = []
  · have hreturned : s.write uuid data = .returned s := by
      cases data with
      | none => rfl
      | some data =>
        obtain rfl : data = [] := hnil
        rfl
    have hsame : e.next (.write uuid data) = e := by
      rw [Entries.next, hnil, hx]
      funext uuid'
      rw [Function.update_apply]
      split_ifs with heq
      · rw [heq, hx, Option.map_some, List.append_nil]
      · rfl
    rw [Returns, next, hreturned, hsame]
    exact ⟨rfl, h⟩
  · obtain ⟨data, rfl⟩ : ∃ bytes, data = some bytes := by
      cases data with
      | none => exact absurd rfl hnil
      | some bytes => exact ⟨bytes, rfl⟩
    rw [Option.getD_some] at hfits hnil
    obtain ⟨c, hc, hstores⟩ := h.cursor hx
    have hend : ((c.writePos + data.length : Nat) : Int) ≤ c.getEndPos := by
      have hwrite := hstores.writePos
      have hlen := hstores.dataLen
      unfold Cursor.getEndPos
      push_cast at hfits ⊢
      omega
    have hreturned := write_eq hnil hc hend
    rw [Returns, next, hreturned]
    refine ⟨rfl, fun uuid' => ?_⟩
    show Keeps ((s.tempFile.seek c.writePos).write data) (HashMap.get (s.dataCursors.put uuid _) uuid')
      (e.next (.write uuid (some data)) uuid')
    rw [Entries.next, HashMap.get_put, Function.update_apply, hx]
    by_cases heq : uuid' = uuid
    · rw [if_pos (by simp [heq]), if_pos heq]
      exact hstores.append hnil hfits
    · rw [if_neg (by simpa using Ne.symm heq), if_neg heq]
      exact h.other heq data (hclear c hc)

/-- Reading what was written and not yet asked for. -/
theorem readData_clear (h : Represents s e) {file : RandomAccessFile}
    (hfile : file = s.tempFile.seek (c.startPos + 4)) (hx : e uuid = some x) (hstores : Stores s.tempFile c x) {n : Nat}
    (hlen : x.asked + n ≤ x.content.length) (hfirst : n = 0 ∨ c.readPos = c.startPos + 4) :
    ∃ data s', readData { s with tempFile := file } uuid c n = .returned data s' ∧
      data.getD [] = (x.content.drop x.asked).take n ∧ Represents s' (e.next (.read uuid n)) := by
  subst hfile
  have hread := hstores.readPos
  have hdata := hstores.dataLen
  have hmove : c.moveReadForward n = .ok { c with readPos := c.readPos + n } := by
    have hfits := hstores.fits
    rw [Cursor.moveReadForward, if_neg]
    unfold Cursor.getEndPos
    omega
  have hbytes : ∃ pos, (s.tempFile.seek (c.startPos + 4)).read n =
      (some ((x.content.drop x.asked).take n), s.tempFile.seek pos) := by
    rcases Nat.eq_zero_or_pos n with rfl | hn
    · exact ⟨_, rfl⟩
    · have hasked : x.asked = 0 := by
        rcases hfirst with hzero | hstart
        · omega
        · omega
      rw [hasked, Nat.zero_add] at hlen
      have hne : x.content ≠ [] := by
        rintro hnil
        rw [hnil, List.length_nil] at hlen
        omega
      obtain ⟨hlength, hslice⟩ := hstores.holds hasked hne
      refine ⟨c.startPos + 4 + n, ?_⟩
      rw [RandomAccessFile.read_eq (by
        rw [RandomAccessFile.pointer_seek, RandomAccessFile.length_seek]
        omega), hasked, List.drop_zero, ← hslice, RandomAccessFile.take_slice hlen]
      rfl
  obtain ⟨pos, hbytes⟩ := hbytes
  refine ⟨some ((x.content.drop x.asked).take n), { s with
    tempFile := s.tempFile.seek pos
    dataCursors := s.dataCursors.put uuid { c with readPos := c.readPos + n } }, ?_, rfl, ?_⟩
  · simp only [readData, hmove, hbytes]
  · intro uuid'
    show Keeps (s.tempFile.seek pos) (HashMap.get (s.dataCursors.put uuid _) uuid')
      (e.next (.read uuid n) uuid')
    rw [Entries.next, HashMap.get_put, Function.update_apply, hx]
    by_cases heq : uuid' = uuid
    · rw [if_pos (by simp [heq]), if_pos heq]
      refine ⟨hstores.dataLen, hstores.writePos, ?_, hlen, hstores.fits, fun hasked hne => ?_⟩
      · show c.readPos + n = c.startPos + 4 + (x.asked + n)
        omega
      · exact hstores.holds (Nat.eq_zero_of_add_eq_zero hasked).1 hne
    · rw [if_neg (by simpa using Ne.symm heq), if_neg heq]
      exact (h uuid').seek pos

theorem read_clear (h : Represents s e) {length : Nat} (hallowed : e.Allowed (.read uuid length))
    (hclear : Clear s (.read uuid length)) :
    ∃ data s', s.read uuid length = .returned data s' ∧
      (∀ uuid', (if uuid = uuid' then data.getD [] else []) = e.readBy uuid' (.read uuid length)) ∧
      Represents s' (e.next (.read uuid length)) := by
  obtain ⟨x, hx, hlen⟩ := hallowed
  obtain ⟨c, hc, hstores⟩ := h.cursor hx
  obtain ⟨⟨hheader, hsize⟩, hfirst⟩ := hclear c hc
  have hread := hstores.readPos
  have hdata := hstores.dataLen
  have hfits := hstores.fits
  have hint : (s.tempFile.seek c.startPos).readInt =
      (some c.dataLen, s.tempFile.seek (c.startPos + 4)) := by
    rw [RandomAccessFile.readInt, RandomAccessFile.pointer_seek, RandomAccessFile.length_seek,
      if_pos hheader, RandomAccessFile.slice_seek, hsize]
    rfl
  have hanswer : ∀ {data : Option (List UInt8)}, data.getD [] = (x.content.drop x.asked).take length →
      ∀ uuid', (if uuid = uuid' then data.getD [] else []) = e.readBy uuid' (.read uuid length) := by
    intro data hdata uuid'
    rw [Entries.readBy, hx, hdata]
    rfl
  have hclear := readData_clear h rfl hx hstores hlen hfirst
  unfold read
  simp only [getCursor, hc, hint, ne_eq, not_true_eq_false, if_false]
  unfold Cursor.getEndPos
  split_ifs with hend hnone
  · -- nothing is left of the entry, and nothing is asked for
    obtain rfl : length = 0 := by omega
    refine ⟨_, _, rfl, hanswer (by simp), fun uuid' => ?_⟩
    have hsame : e.next (.read uuid 0) = e := by
      rw [Entries.next]
      funext uuid'
      rw [Function.update_apply]
      split_ifs with heq
      · rw [heq, hx]
        rfl
      · rfl
    rw [hsame]
    exact (h uuid').seek _
  · have hn : ((c.startPos : Int) + c.dataLen + 4 - c.readPos).toNat = length := by omega
    rw [hn]
    obtain ⟨data, s', hreturned, hbytes, h'⟩ := hclear
    exact ⟨data, s', hreturned, hanswer hbytes, h'⟩
  · obtain ⟨data, s', hreturned, hbytes, h'⟩ := hclear
    exact ⟨data, s', hreturned, hanswer hbytes, h'⟩

/-! ## The round trip -/

/-- A clear call does what it is for. -/
theorem next_clear (h : Represents s e) {call : Call K} (hallowed : e.Allowed call)
    (hclear : Clear s call) :
    Returns s call ∧ (∀ uuid, readBy uuid s call = e.readBy uuid call) ∧
      Represents (next s call) (e.next call) := by
  cases call with
  | allocate uuid size => exact ⟨trivial, fun _ => rfl, represents_allocate h hallowed hclear⟩
  | write uuid data =>
    obtain ⟨hreturns, h'⟩ := write_clear h hallowed hclear
    exact ⟨hreturns, fun _ => rfl, h'⟩
  | read uuid length =>
    obtain ⟨data, s', hreturned, hbytes, h'⟩ := read_clear h hallowed hclear
    rw [Returns, next, hreturned]
    refine ⟨rfl, fun uuid' => ?_, h'⟩
    rw [← hbytes uuid', readBy, hreturned]
    rfl

theorem run_clear {calls : List (Call K)} (h : Represents s e)
    (hallowed : Run.Along Entries.next Entries.Allowed e calls)
    (hclear : Run.Along next Clear s calls) :
    Run.Along next Returns s calls ∧ ∀ uuid,
      Run.outputs next (readBy uuid) s calls =
        Run.outputs Entries.next (Entries.readBy uuid) e calls := by
  induction calls generalizing s e with
  | nil => exact ⟨trivial, fun _ => rfl⟩
  | cons call calls ih =>
    obtain ⟨hreturns, hread, h'⟩ := next_clear h hallowed.1 hclear.1
    obtain ⟨hreturns', hread'⟩ := ih h' hallowed.2 hclear.2
    refine ⟨⟨hreturns, hreturns'⟩, fun uuid => ?_⟩
    rw [Run.outputs_cons, Run.outputs_cons, hread, hread']

/-- In a run of clear calls, nothing throws, and what is read under a `uuid`
are the first bytes written under it. -/
theorem reads_written {calls : List (Call K)}
    (hallowed : Run.Along Entries.next Entries.Allowed (fun _ => none) calls)
    (hclear : Run.Along next Clear (create .empty) calls) :
    Run.Along next Returns (create .empty) calls ∧
      ∀ uuid, Run.outputs next (readBy uuid) (create .empty) calls <+:
        calls.flatMap (Call.dataUnder uuid) := by
  obtain ⟨hreturns, hread⟩ := run_clear (represents_create .empty) hallowed hclear
  refine ⟨hreturns, fun uuid => ?_⟩
  rw [hread uuid]
  exact Entries.run_take hallowed (Nat.le_refl 0)

/-- Two entries, the first of which is full before the second is allocated. -/
theorem reads_written_hi :
    Run.Along next Returns (create .empty)
        [.allocate 0 3, .write 0 (some [120, 121, 122]), .allocate 1 2, .write 1 (some [104, 105]),
          .read 1 2] ∧
      ∀ uuid, Run.outputs next (readBy uuid) (create .empty)
          [.allocate 0 3, .write 0 (some [120, 121, 122]), .allocate 1 2,
            .write 1 (some [104, 105]), .read 1 2] <+:
        [.allocate 0 3, .write 0 (some [120, 121, 122]), .allocate 1 2, .write 1 (some [104, 105]),
          .read 1 2].flatMap (Call.dataUnder uuid) :=
  reads_written
    ⟨⟨rfl, by decide⟩, ⟨_, rfl, by decide⟩, ⟨rfl, by decide⟩, ⟨_, rfl, by decide⟩,
      ⟨_, rfl, by decide⟩, trivial⟩
    (by decide)

/-- The first entry of a cache does not find its own length. -/
theorem not_reads_written_first :
    ¬ ∀ calls : List (Call Nat), Run.Along Entries.next Entries.Allowed (fun _ => none) calls →
      Run.Along next Returns (create .empty) calls ∧
        ∀ uuid, Run.outputs next (readBy uuid) (create .empty) calls <+:
          calls.flatMap (Call.dataUnder uuid) := by
  intro h
  have hreturns := (h [.allocate 0 3, .write 0 (some [97, 98, 99]), .read 0 1]
    ⟨⟨rfl, by decide⟩, ⟨_, rfl, by decide⟩, ⟨_, rfl, by decide⟩, trivial⟩).1
  have hread : (read (next (next (create .empty) (.allocate 0 3)) (.write 0 (some [97, 98, 99])))
      0 1).isReturned = true := hreturns.2.2.1
  exact absurd hread (by decide)

/-! ## The limits of an entry -/

/-- A new `uuid` at each allocation. -/
def Fresh (s : FixLengthStreamFileCache K) : Call K → Prop
  | .allocate uuid _ => s.dataCursors.get uuid = none
  | .write _ _ | .read _ _ => True

variable {w : K → List UInt8}

end FixLengthStreamFileCache

end ConnectionSniffer
