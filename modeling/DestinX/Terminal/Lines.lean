import DestinX.Terminal.Keyboard

/-!
# Typed lines

Keys go into the ring of input and `kring_flush_to_rbuf` takes characters out of it, whenever
`check_for_n` returns 1. What the reader should get is said by a line that is edited.

Backspace moves the head of the ring back and leaves the flag in the slot. `check_for_n` looks
at all slots, so it still sees a newline that was taken back, and then the reader goes past the
head.
-/

namespace DestinX.Terminal

open Base Fs Function List

/-- `check_for_n` returns 1. -/
def checkForN (r : InputRing) : Bool :=
  (List.range kringBufMax).any fun i => (r.slots i).isNewline

/-- `kring_flush_to_rbuf`, with the bytes that it puts into the buffer. -/
def kringFlushToRbuf : Nat → InputRing → List UInt8 × InputRing
  | 0, r => ([], r)
  | count + 1, r =>
    let next := r.readNext
    if next.1 = newline then ([next.1], next.2)
    else
      let rest := kringFlushToRbuf count next.2
      (next.1 :: rest.1, rest.2)

/-- How many characters lie between the tail and the head. -/
def InputRing.unread (r : InputRing) : Nat := sub64 r.head r.tail

/-- One of them is a newline. -/
def InputRing.NewlineWaiting (r : InputRing) : Prop :=
  ∃ i < r.unread, (r.slots (slotOf (r.tail + i))).c = newline

/-! ## The line that is edited -/

inductive Edit where
  | nothing
  | erase
  | type (s : List UInt8)
  deriving DecidableEq, Repr

/-- What a key code means. Nothing happens when a key is released. -/
def keyEdit (k : Keyboard) (rawCode : UInt8) : Edit :=
  if press rawCode then .nothing
  else if scanCode rawCode = 14 then .erase
  else if scanCode rawCode = 28 then .type [newline]
  else if scanCode rawCode ∈ 42 :: 58 :: silentKeys then .nothing
  else .type (keyText k (scanCode rawCode))

def InputRing.edit (r : InputRing) : Edit → InputRing
  | .nothing => r
  | .erase => r.dropLast
  | .type s => kringWrite r s

/-- The characters that are typed and not deleted or delivered, and those that were delivered. -/
structure Line where
  (pending delivered : List UInt8)

def Line.edit (l : Line) : Edit → Line
  | .nothing => l
  | .erase => { l with pending := l.pending.dropLast }
  | .type s => { l with pending := l.pending ++ s }

/-- The first `count` characters, or fewer if a newline is among them. -/
def takeLine : Nat → List UInt8 → List UInt8
  | 0, _ => []
  | _ + 1, [] => []
  | count + 1, c :: s => if c = newline then [c] else c :: takeLine count s

def Line.read (l : Line) (count : Nat) : Line where
  pending := l.pending.drop (takeLine count l.pending).length
  delivered := l.delivered ++ takeLine count l.pending

/-! ## Runs -/

/-- The keyboard with its ring and what was delivered, beside the line. -/
structure Typing where
  keyboard : Keyboard
  delivered : List UInt8
  line : Line

def Typing.ring (st : Typing) : InputRing := st.keyboard.read

inductive TypingAction where
  | key (rawCode : UInt8)
  | read (count : Nat)

def Typing.key (st : Typing) (rawCode : UInt8) : Typing where
  keyboard := keyboardHandler st.keyboard rawCode
  delivered := st.delivered
  line := st.line.edit (keyEdit st.keyboard rawCode)

def Typing.read (st : Typing) (count : Nat) : Typing where
  keyboard := { st.keyboard with read := (kringFlushToRbuf count st.ring).2 }
  delivered := st.delivered ++ (kringFlushToRbuf count st.ring).1
  line := st.line.read count

/-- No more than `KRING_BUF_MAX` characters are unread at any time. -/
inductive TypingStep : Typing → TypingAction → Typing → Prop
  | key {st : Typing} {rawCode : UInt8}
      (hroom : (st.key rawCode).line.pending.length ≤ kringBufMax) :
      TypingStep st (.key rawCode) (st.key rawCode)
  | read {st : Typing} {count : Nat} (hcheck : checkForN st.ring = true) :
      TypingStep st (.read count) (st.read count)

/-- The ring is empty and no slot is ready. -/
structure TypingStart (st : Typing) : Prop where
  empty : st.ring.head = st.ring.tail
  word : st.ring.tail < 2 ^ 64
  notReady : ∀ i < kringBufMax, (st.ring.slots i).ready = 0
  delivered : st.delivered = []
  line : st.line = ⟨[], []⟩

def typingMachine : Machine Typing TypingAction where
  start := TypingStart
  step := TypingStep

/-- A call for `count` bytes ends behind them or behind a newline. -/
structure StopsAt (count : Nat) (bytes : List UInt8) : Prop where
  length : bytes.length ≤ count
  inside : newline ∉ bytes.dropLast
  last : bytes.length = count ∨ bytes.getLast? = some newline

/-- What was delivered is what the line says, `check_for_n` sees the newlines between tail and
head, and the next call stops in time and does not pass the head. -/
structure Delivers (st : Typing) : Prop where
  bytes : st.delivered = st.line.delivered
  check : checkForN st.ring = true ↔ st.ring.NewlineWaiting
  stops : ∀ count, StopsAt count (kringFlushToRbuf count st.ring).1
  inside : checkForN st.ring = true →
    ∀ count, (kringFlushToRbuf count st.ring).1.length ≤ st.ring.unread

/-- Calls of `kring_flush_to_rbuf` with no key between them. -/
inductive Reads (st : Typing) : Typing → Prop
  | refl : Reads st st
  | step {st' st'' : Typing} {count : Nat} (run : Reads st st')
      (hstep : TypingStep st' (.read count) st'') : Reads st st''

/-- All is well, and stays so while the reader goes on. -/
def ReadsWell (st : Typing) : Prop := ∀ st', Reads st st' → Delivers st'

/-- Backspace does not take a newline back. -/
def KeepsNewlines (st : Typing) : TypingAction → Prop
  | .key rawCode => keyEdit st.keyboard rawCode = .erase → st.line.pending.getLast? ≠ some newline
  | .read _ => True

instance (st : Typing) : ∀ act, Decidable (KeepsNewlines st act)
  | .key _ => inferInstanceAs (Decidable (_ → _))
  | .read _ => inferInstanceAs (Decidable True)

variable {st st' : Typing} {act : TypingAction} {r : InputRing} {k : Keyboard} {c : UInt8}
  {s pending : List UInt8} {rawCode : UInt8} {slots : Nat → LogEntry} {i j pos count : Nat}

/-- The handler edits the ring. -/
lemma keyboardHandler_read (k : Keyboard) (rawCode : UInt8) :
    (keyboardHandler k rawCode).read = k.read.edit (keyEdit k rawCode) := by
  have hsilent : ∀ code ∈ silentKeys, code ≠ 14 ∧ code ≠ 28 := by decide
  rw [keyboardHandler, keyEdit]
  by_cases hext : rawCode = 0xE0
  · subst hext
    rfl
  rw [if_neg hext]
  by_cases hpress : press rawCode = true
  · split_ifs <;> rfl
  · simp only [hpress, if_false, Bool.false_eq_true]
    by_cases hs : scanCode rawCode ∈ silentKeys
    · obtain ⟨h14, h28⟩ := hsilent _ hs
      rw [if_pos hs, if_neg h14, if_neg h28, if_pos (mem_cons_of_mem _ (mem_cons_of_mem _ hs))]
      rfl
    · simp only [hs, if_false, mem_cons, or_false]
      split_ifs with h14 h28 h42 h58 <;> first | rfl | (exfalso; omega)

/-! ## Slots and their characters -/

/-- The characters of the list lie between tail and head, marked ready. -/
structure Window (r : InputRing) (pending : List UInt8) : Prop where
  word : r.tail < 2 ^ 64
  head : r.head = add64 r.tail pending.length
  room : pending.length ≤ kringBufMax
  filled : ∀ i c, pending[i]? = some c → r.slots (slotOf (r.tail + i)) = ⟨c, 1⟩

/-- A slot for none of them. -/
def Outside (r : InputRing) (pending : List UInt8) (j : Nat) : Prop :=
  j < kringBufMax ∧ ∀ i < pending.length, slotOf (r.tail + i) ≠ j

/-- `check_for_n` sees no newline in the other slots. -/
def Clean (r : InputRing) (pending : List UInt8) : Prop :=
  ∀ j, Outside r pending j → (r.slots j).isNewline = false

lemma checkForN_iff : checkForN r = true ↔ r.Unread := by simp [checkForN, InputRing.Unread]

section

variable (h : Window r pending)
include h

lemma Window.unread : r.unread = pending.length := by
  have hroom := h.room
  have hword := h.word
  rw [InputRing.unread, h.head]
  simp only [sub64, add64, kringBufMax] at *
  omega

lemma Window.newlineWaiting_iff : r.NewlineWaiting ↔ newline ∈ pending := by
  rw [InputRing.NewlineWaiting, h.unread, mem_iff_getElem?]
  constructor
  · rintro ⟨i, hi, hc⟩
    rw [h.filled i _ (getElem?_eq_getElem hi)] at hc
    exact ⟨i, by rw [getElem?_eq_getElem hi, ← hc]⟩
  · rintro ⟨i, hi⟩
    refine ⟨i, (List.getElem?_eq_some_iff.mp hi).1, ?_⟩
    rw [h.filled i _ hi]

lemma Window.isNewline_of_mem (hn : newline ∈ pending) : checkForN r = true := by
  obtain ⟨i, hi⟩ := mem_iff_getElem?.mp hn
  refine checkForN_iff.mpr ⟨slotOf (r.tail + i), slotOf_lt _, ?_⟩
  rw [h.filled i _ hi]
  rfl

/-- A newline that `check_for_n` sees is between tail and head, or in another slot. -/
lemma Window.check_cases (hcheck : checkForN r = true) :
    newline ∈ pending ∨ ∃ j, Outside r pending j ∧ (r.slots j).isNewline = true := by
  obtain ⟨j, hj, hnew⟩ := checkForN_iff.mp hcheck
  by_cases hin : ∃ i < pending.length, slotOf (r.tail + i) = j
  · obtain ⟨i, hi, rfl⟩ := hin
    left
    rw [h.filled i _ (getElem?_eq_getElem hi), LogEntry.isNewline, Bool.and_eq_true,
      beq_iff_eq] at hnew
    rw [← hnew.1]
    exact getElem_mem hi
  · push Not at hin
    exact .inr ⟨j, ⟨hj, hin⟩, hnew⟩

end

/-! ## Typing -/

lemma slotOf_add64 (a b i : Nat) : slotOf (add64 a b + i) = slotOf (a + b + i) := by
  rw [slotOf_eq, slotOf_eq]
  simp only [add64, kringBufMax]
  omega

/-- Positions less than a round apart have different slots. -/
lemma slotOf_add_ne (p : Nat) (hi : i < kringBufMax) (hj : j < kringBufMax) (hne : i ≠ j) :
    slotOf (p + i) ≠ slotOf (p + j) := by
  refine @slotOf_ne (p + i) (p + j) p ⟨by omega, by omega⟩ ⟨by omega, by omega⟩ ?_
  omega

lemma storeAll_slots (slots : Nat → LogEntry) (pos : Nat) (hlen : s.length ≤ kringBufMax) :
    (∀ i c, s[i]? = some c → storeAll slots pos s (slotOf (pos + i)) = ⟨c, 1⟩) ∧
      ∀ j, (∀ i < s.length, slotOf (pos + i) ≠ j) → storeAll slots pos s j = slots j := by
  induction s generalizing slots pos with
  | nil => exact ⟨fun i c hi => by simp at hi, fun _ _ => rfl⟩
  | cons x s ih =>
    rw [length_cons] at hlen
    obtain ⟨hin, hout⟩ := ih (update slots (slotOf pos) ⟨x, 1⟩) (pos + 1) (by omega)
    refine ⟨fun i c hi => ?_, fun j hj => ?_⟩
    · cases i with
      | zero =>
        obtain rfl : x = c := by simpa using hi
        rw [storeAll, hout _ fun i hi => ?_, add_zero, update_self]
        rw [add_assoc]
        exact slotOf_add_ne pos (by omega) (by omega) (by omega)
      | succ i =>
        rw [show pos + (i + 1) = pos + 1 + i by omega]
        exact hin i c (by simpa using hi)
    · rw [storeAll, hout j fun i hi => ?_, update_of_ne]
      · exact (hj 0 (by simp)).symm
      · rw [show pos + 1 + i = pos + (i + 1) by omega]
        exact hj (i + 1) (by simpa using hi)

lemma Window.type (h : Window r pending) (hroom : (pending ++ s).length ≤ kringBufMax) :
    Window (kringWrite r s) (pending ++ s) := by
  rw [length_append] at hroom
  have hlen : s.length ≤ kringBufMax := by omega
  by_cases hs : s.length = 0
  · obtain rfl := length_eq_zero_iff.mp hs
    rw [append_nil]
    exact h
  have hpos : ∀ i, slotOf (r.head + i) = slotOf (r.tail + (pending.length + i)) := by
    intro i
    rw [h.head, slotOf_add64, add_assoc]
  rw [kringWrite, if_neg hs, take_of_length_le hlen]
  obtain ⟨hin, hout⟩ := storeAll_slots r.slots r.head hlen
  refine ⟨h.word, ?_, by rw [length_append]; exact hroom, fun i c hi => ?_⟩
  · rw [h.head, length_append]
    simp only [add64]
    omega
  · by_cases hold : i < pending.length
    · rw [getElem?_append_left hold] at hi
      refine (hout _ fun i' hi' => ?_).trans (h.filled i c hi)
      rw [hpos]
      exact slotOf_add_ne r.tail (by omega) (by omega) (by omega)
    · rw [getElem?_append_right (by omega)] at hi
      have hfill := hin _ c hi
      rwa [hpos, show pending.length + (i - pending.length) = i by omega] at hfill

lemma Clean.type (h : Window r pending) (hclean : Clean r pending)
    (hroom : (pending ++ s).length ≤ kringBufMax) : Clean (kringWrite r s) (pending ++ s) := by
  rw [length_append] at hroom
  have hlen : s.length ≤ kringBufMax := by omega
  by_cases hs : s.length = 0
  · obtain rfl := length_eq_zero_iff.mp hs
    rw [append_nil]
    exact hclean
  rw [kringWrite, if_neg hs, take_of_length_le hlen]
  rintro j ⟨hj, hne⟩
  rw [length_append] at hne
  dsimp only at hne ⊢
  rw [(storeAll_slots r.slots r.head hlen).2 j fun i hi => ?_]
  · exact hclean j ⟨hj, fun i hi => hne i (by omega)⟩
  · rw [h.head, slotOf_add64, add_assoc]
    exact hne (pending.length + i) (by omega)

/-! ## Deleting -/

/-- Backspace takes the last character back. The slots stay as they are. -/
lemma Window.erase (h : Window r pending) : Window r.dropLast pending.dropLast := by
  have hroom := h.room
  have hword := h.word
  simp only [kringBufMax] at hroom
  rcases eq_nil_or_concat pending with rfl | ⟨s, c, rfl⟩
  · have htail : r.tail = r.head := by
      rw [h.head]
      simp only [add64, length_nil]
      omega
    refine ⟨?_, ?_, Nat.zero_le _, fun i c hi => by simp at hi⟩
    · simp only [InputRing.dropLast, if_pos htail, sub64]
      omega
    · simp only [InputRing.dropLast, htail, if_true, sub64, add64, dropLast_nil,
        length_nil]
      omega
  · rw [length_concat] at hroom
    have hhead := h.head
    rw [length_concat] at hhead
    have htail : r.tail ≠ r.head := by
      rw [hhead]
      simp only [add64]
      omega
    have heq : r.dropLast = { r with head := sub64 r.head 1 } := by
      rw [InputRing.dropLast, if_neg htail]
    rw [heq, concat_eq_append, dropLast_concat]
    refine ⟨h.word, ?_, ?_, fun i c' hi => h.filled i c' ?_⟩
    · rw [hhead]
      simp only [sub64, add64]
      omega
    · simp only [kringBufMax]
      omega
    · rw [concat_eq_append, getElem?_append_left (List.getElem?_eq_some_iff.mp hi).1]
      exact hi

/-- The slot of the character that is taken back keeps it, ready to be seen. -/
lemma Window.erased (h : Window r (pending ++ [c])) :
    ∃ j, Outside r.dropLast pending j ∧ r.dropLast.slots j = ⟨c, 1⟩ ∧
      ∀ j', Outside r.dropLast pending j' → j' = j ∨ Outside r (pending ++ [c]) j' := by
  have hroom := h.room
  have hhead := h.head
  rw [length_append, length_singleton] at hroom hhead
  have htail : r.tail ≠ r.head := by
    simp only [add64, kringBufMax] at *
    omega
  have hsame : r.dropLast.tail = r.tail := by rw [InputRing.dropLast, if_neg htail]
  refine ⟨slotOf (r.tail + pending.length), ⟨slotOf_lt _, fun i hi => ?_⟩, ?_, fun j' hj' => ?_⟩
  · rw [hsame]
    exact slotOf_add_ne r.tail (by omega) (by omega) (by omega)
  · exact h.filled pending.length c (by simp)
  · by_cases heq : j' = slotOf (r.tail + pending.length)
    · exact .inl heq
    · refine .inr ⟨hj'.1, fun i hi => ?_⟩
      rw [length_append, length_singleton] at hi
      by_cases hlast : i = pending.length
      · rw [hlast]
        exact Ne.symm heq
      · rw [← hsame]
        exact hj'.2 i (by omega)

lemma Clean.erase (h : Window r pending) (hclean : Clean r pending)
    (hlast : pending.getLast? ≠ some newline) : Clean r.dropLast pending.dropLast := by
  rcases eq_nil_or_concat pending with rfl | ⟨s, c, rfl⟩
  · rintro j ⟨hj, -⟩
    exact hclean j ⟨hj, fun i hi => absurd hi (Nat.not_lt_zero i)⟩
  · rw [concat_eq_append] at h hclean hlast ⊢
    rw [dropLast_concat]
    obtain ⟨j, -, hslot, hrest⟩ := h.erased
    intro j' hj'
    rcases hrest j' hj' with rfl | hout
    · rw [hslot, LogEntry.isNewline, Bool.and_eq_false_iff]
      left
      rw [beq_eq_false_iff_ne]
      rintro rfl
      exact hlast (by simp)
    · exact hclean j' hout

/-! ## Reading -/

lemma Window.readNext (h : Window r (c :: s)) : r.readNext.1 = c ∧ Window r.readNext.2 s ∧
      ∀ j, Outside r.readNext.2 s j → (r.readNext.2.slots j).ready = 0 ∨
        (Outside r (c :: s) j ∧ r.readNext.2.slots j = r.slots j) := by
  have hroom := h.room
  have hhead := h.head
  rw [length_cons] at hroom hhead
  have hfirst := h.filled 0 c rfl
  have hpos : ∀ i, slotOf (r.readNext.2.tail + i) = slotOf (r.tail + (i + 1)) := by
    intro i
    rw [InputRing.readNext]
    rw [slotOf_add64]
    congr 1
    omega
  refine ⟨?_, ⟨Nat.mod_lt _ (by norm_num), ?_, by omega, fun i c' hi => ?_⟩, fun j hj => ?_⟩
  · exact congrArg LogEntry.c hfirst
  · rw [InputRing.readNext]
    rw [hhead]
    simp only [add64]
    omega
  · have hlt := (List.getElem?_eq_some_iff.mp hi).1
    rw [hpos]
    refine (update_of_ne ?_ _ _).trans (h.filled (i + 1) c' hi)
    exact @slotOf_add_ne (i + 1) 0 r.tail (by omega) (by omega) (by omega)
  · by_cases heq : j = slotOf r.tail
    · left
      rw [InputRing.readNext]
      dsimp only
      rw [heq, update_self]
    · right
      refine ⟨⟨hj.1, fun i hi => ?_⟩, update_of_ne heq _ _⟩
      cases i with
      | zero => exact Ne.symm heq
      | succ i =>
        rw [← hpos]
        exact hj.2 i (by simpa using hi)

lemma Clean.readNext (h : Window r (c :: s)) (hclean : Clean r (c :: s)) :
    Clean r.readNext.2 s := by
  intro j hj
  rcases h.readNext.2.2 j hj with hready | ⟨hout, hsame⟩
  · rw [LogEntry.isNewline, hready]
    exact Bool.and_false _
  · rw [hsame]
    exact hclean j hout

/-- With a newline among the characters, a call delivers the line. -/
lemma Window.flush (h : Window r pending) (hn : newline ∈ pending) (count : Nat) :
    (kringFlushToRbuf count r).1 = takeLine count pending ∧
      Window (kringFlushToRbuf count r).2 (pending.drop (takeLine count pending).length) ∧
      (Clean r pending →
        Clean (kringFlushToRbuf count r).2 (pending.drop (takeLine count pending).length)) := by
  induction count generalizing r pending with
  | zero => exact ⟨rfl, h, id⟩
  | succ count ih =>
    cases pending with
    | nil => exact absurd hn not_mem_nil
    | cons c s =>
      obtain ⟨hc, hnext, -⟩ := h.readNext
      rw [kringFlushToRbuf, takeLine]
      rw [hc]
      by_cases hnew : c = newline
      · rw [if_pos hnew, if_pos hnew]
        exact ⟨rfl, hnext, fun hclean => hclean.readNext h⟩
      · rw [if_neg hnew, if_neg hnew]
        have hrest := (mem_cons.mp hn).resolve_left (Ne.symm hnew)
        obtain ⟨hbytes, hwin, hclean⟩ := ih hnext hrest
        exact ⟨congrArg (cons c) hbytes, hwin, fun h' => hclean (h'.readNext h)⟩

lemma flush_one (r : InputRing) : kringFlushToRbuf 1 r = ([r.readNext.1], r.readNext.2) := by
  rw [kringFlushToRbuf]
  split_ifs <;> rfl

lemma takeLine_length_le (count : Nat) (s : List UInt8) : (takeLine count s).length ≤ s.length := by
  induction count generalizing s with
  | zero => exact Nat.zero_le _
  | succ count ih =>
    cases s with
    | nil => exact le_rfl
    | cons c s =>
      rw [takeLine]
      split_ifs
      · simp
      · simpa using ih s

lemma flush_stops (count : Nat) (r : InputRing) : StopsAt count (kringFlushToRbuf count r).1 := by
  induction count generalizing r with
  | zero => exact ⟨le_rfl, not_mem_nil, .inl rfl⟩
  | succ count ih =>
    rw [kringFlushToRbuf]
    dsimp only
    split_ifs with hnew
    · refine ⟨by simp, by simp, .inr ?_⟩
      rw [getLast?_singleton, hnew]
    · obtain ⟨hlen, hin, hlast⟩ := ih r.readNext.2
      generalize (kringFlushToRbuf count r.readNext.2).1 = bytes at *
      refine ⟨by simpa using hlen, ?_, ?_⟩
      · cases bytes with
        | nil => exact not_mem_nil
        | cons b bs =>
          rw [dropLast_cons_cons, mem_cons, not_or]
          exact ⟨Ne.symm hnew, hin⟩
      · rcases hlast with hcount | hend
        · exact .inl (by simpa using hcount)
        · right
          cases bytes with
          | nil => cases hend
          | cons b bs => simpa using hend

/-! ## The invariant -/

structure TypingInv (st : Typing) : Prop where
  bytes : st.delivered = st.line.delivered
  window : Window st.ring st.line.pending
  clean : Clean st.ring st.line.pending

lemma TypingStart.inv (h : TypingStart st) : TypingInv st := by
  have hline := h.line
  have hempty := h.empty
  have hword := h.word
  refine ⟨by rw [h.delivered, hline], ⟨h.word, ?_, ?_, fun i c hi => ?_⟩, fun j hj => ?_⟩
  · rw [hline]
    simp only [add64, length_nil]
    omega
  · rw [hline]
    exact Nat.zero_le _
  · rw [hline] at hi
    simp at hi
  · rw [LogEntry.isNewline, h.notReady j hj.1]
    exact Bool.and_false _

section

variable (h : TypingInv st)
include h

lemma TypingInv.newline_of_check (hcheck : checkForN st.ring = true) :
    newline ∈ st.line.pending := by
  rcases h.window.check_cases hcheck with hmem | ⟨j, hout, hnew⟩
  · exact hmem
  · rw [h.clean j hout] at hnew
    cases hnew

lemma TypingInv.delivers : Delivers st := by
  refine ⟨h.bytes, ?_, fun count => flush_stops count st.ring, fun hcheck count => ?_⟩
  · rw [h.window.newlineWaiting_iff]
    exact ⟨h.newline_of_check, h.window.isNewline_of_mem⟩
  · rw [(h.window.flush (h.newline_of_check hcheck) count).1, h.window.unread]
    exact takeLine_length_le _ _

lemma TypingInv.key (hgood : KeepsNewlines st (.key rawCode))
    (hroom : (st.key rawCode).line.pending.length ≤ kringBufMax) : TypingInv (st.key rawCode) := by
  have hring : (st.key rawCode).ring = st.ring.edit (keyEdit st.keyboard rawCode) :=
    keyboardHandler_read st.keyboard rawCode
  have hline : (st.key rawCode).line = st.line.edit (keyEdit st.keyboard rawCode) := rfl
  have hbytes : (st.key rawCode).delivered = st.line.delivered := h.bytes
  rw [hline] at hroom
  have hgood : keyEdit st.keyboard rawCode = .erase → st.line.pending.getLast? ≠ some newline :=
    hgood
  cases hedit : keyEdit st.keyboard rawCode with
  | nothing =>
    rw [hedit] at hring hline
    exact ⟨by rw [hbytes, hline]; rfl, by rw [hring, hline]; exact h.window,
      by rw [hring, hline]; exact h.clean⟩
  | erase =>
    rw [hedit] at hring hline
    exact ⟨by rw [hbytes, hline]; rfl, by rw [hring, hline]; exact h.window.erase,
      by rw [hring, hline]; exact h.clean.erase h.window (hgood hedit)⟩
  | type s =>
    rw [hedit] at hring hline hroom
    exact ⟨by rw [hbytes, hline]; rfl, by rw [hring, hline]; exact h.window.type hroom,
      by rw [hring, hline]; exact h.clean.type h.window hroom⟩

lemma TypingInv.read (hcheck : checkForN st.ring = true) (count : Nat) :
    TypingInv (st.read count) := by
  obtain ⟨hbytes, hwin, hclean⟩ := h.window.flush (h.newline_of_check hcheck) count
  refine ⟨?_, hwin, hclean h.clean⟩
  simp only [Typing.read, Line.read, h.bytes, hbytes]

lemma TypingInv.step (hgood : KeepsNewlines st act) (hstep : TypingStep st act st') :
    TypingInv st' := by
  cases hstep with
  | key hroom => exact h.key hgood hroom
  | read hcheck => exact h.read hcheck _

lemma TypingInv.readsWell : ReadsWell st := by
  intro st' run
  have hinv : TypingInv st' := by
    induction run with
    | refl => exact h
    | @step _ _ count _ hstep ih =>
      exact ih.step (show KeepsNewlines _ (.read count) from trivial) hstep
  exact hinv.delivers

end

/-! ## A newline that was taken back -/

/-- `check_for_n` sees a newline outside the window. Reading byte by byte, the reader comes to the
head and is not stopped there. -/
lemma reads_past_head : ∀ st : Typing, Window st.ring st.line.pending →
    (∃ j, Outside st.ring st.line.pending j ∧ (st.ring.slots j).isNewline = true) →
    ¬ ReadsWell st := by
  suffices ∀ n, ∀ st : Typing, st.line.pending.length = n → Window st.ring st.line.pending →
      (∃ j, Outside st.ring st.line.pending j ∧ (st.ring.slots j).isNewline = true) →
      ¬ ReadsWell st from fun st => this _ st rfl
  intro n
  induction n with
  | zero =>
    intro st hlen hwin hstale hwell
    obtain ⟨j, hout, hnew⟩ := hstale
    have hcheck := checkForN_iff.mpr ⟨j, hout.1, hnew⟩
    have hwait := hwin.newlineWaiting_iff.mp ((hwell st .refl).check.mp hcheck)
    rw [length_eq_zero_iff.mp hlen] at hwait
    exact not_mem_nil hwait
  | succ n ih =>
    intro st hlen hwin hstale hwell
    obtain ⟨c, s, hpending⟩ := exists_cons_of_length_eq_add_one hlen
    obtain ⟨j, hout, hnew⟩ := hstale
    have hcheck := checkForN_iff.mpr ⟨j, hout.1, hnew⟩
    rw [hpending] at hwin hout
    obtain ⟨hc, hnext, -⟩ := hwin.readNext
    have hring : (st.read 1).ring = st.ring.readNext.2 := congrArg Prod.snd (flush_one st.ring)
    have hline : (st.read 1).line.pending = s := by
      simp only [Typing.read, Line.read, hpending, takeLine]
      split_ifs <;> rfl
    refine ih (st.read 1) ?_ ?_ ?_ fun st' run => hwell st' ?_
    · rw [hline]
      rw [hpending, length_cons] at hlen
      omega
    · rw [hring, hline]
      exact hnext
    · rw [hring, hline]
      have hne : j ≠ slotOf st.ring.tail := fun heq => hout.2 0 (by simp) heq.symm
      refine ⟨j, ⟨hout.1, fun i hi => ?_⟩, ?_⟩
      · rw [InputRing.readNext]
        rw [slotOf_add64, add_assoc, add_comm 1 i]
        exact hout.2 (i + 1) (by simpa using hi)
      · rw [InputRing.readNext]
        dsimp only
        rw [update_of_ne hne]
        exact hnew
    · induction run with
      | refl => exact Reads.refl.step (.read hcheck)
      | step _ hstep ih => exact ih.step hstep

lemma TypingInv.takes_back (h : TypingInv st) (hstep : TypingStep st act st')
    (hbad : ¬ KeepsNewlines st act) : ¬ ReadsWell st' := by
  cases hstep with
  | read => exact absurd trivial hbad
  | @key rawCode hroom =>
    obtain ⟨hedit, hlast⟩ : keyEdit st.keyboard rawCode = .erase ∧
        st.line.pending.getLast? = some newline := by
      simpa only [KeepsNewlines, Classical.not_imp, not_not] using hbad
    obtain ⟨s, hpending⟩ : ∃ s, st.line.pending = s ++ [newline] := by
      obtain ⟨s, hs⟩ := getLast?_eq_some_iff.mp hlast
      exact ⟨s, hs⟩
    have hring : (st.key rawCode).ring = st.ring.dropLast := by
      refine (keyboardHandler_read st.keyboard rawCode).trans ?_
      rw [hedit]
      rfl
    have hline : (st.key rawCode).line.pending = s := by
      simp only [Typing.key, Line.edit, hedit, hpending, dropLast_concat]
    have hwin := h.window
    rw [hpending] at hwin
    obtain ⟨j, hout, hslot, -⟩ := hwin.erased
    have hdrop := hwin.erase
    rw [dropLast_concat] at hdrop
    refine reads_past_head _ ?_ ?_
    · rw [hring, hline]
      exact hdrop
    · rw [hring, hline]
      refine ⟨j, hout, ?_⟩
      rw [hslot]
      rfl

/-- In every run in which Backspace takes no newline back, the reader gets the edited line and
`check_for_n` tells when there is one. A further step keeps this, while the reader goes on,
exactly when it does not take a newline back. -/
theorem typed_lines_delivered_iff (run : typingMachine.Reached KeepsNewlines st) :
    typingMachine.SafeExactlyWhen ReadsWell KeepsNewlines st :=
  run.safeExactlyWhen (fun _ h => TypingStart.inv h)
    (fun _ _ _ h hgood hstep => h.step hgood hstep) (fun _ h => h.readsWell)
    fun _ _ _ h hstep hbad => h.takes_back hstep hbad

/-- A keyboard with an empty ring, in which no slot is ready. -/
def noKeys : Typing where
  keyboard := ⟨false, false, false, ⟨noFlags, 0, 0⟩⟩
  delivered := []
  line := ⟨[], []⟩

lemma noKeys_start : typingMachine.start noKeys :=
  ⟨rfl, by decide, fun _ _ => rfl, rfl, rfl⟩

lemma reached_key {good : Typing → TypingAction → Prop} (run : typingMachine.Reached good st)
    (rawCode : UInt8) (hgood : good st (.key rawCode))
    (hroom : (st.key rawCode).line.pending.length ≤ kringBufMax) :
    typingMachine.Reached good (st.key rawCode) := run.step hgood (TypingStep.key hroom)

/-- The keys `a`, `b`, Backspace and Enter, and then a read. -/
theorem typed_lines_delivered_a :
    ∃ st, typingMachine.Reached KeepsNewlines st ∧ ReadsWell st ∧ st.delivered = [97, newline] := by
  have h0 : typingMachine.Reached KeepsNewlines noKeys := .start noKeys_start
  have h1 := reached_key h0 30 (by decide +kernel) (by decide +kernel)
  have h2 := reached_key h1 48 (by decide +kernel) (by decide +kernel)
  have h3 := reached_key h2 14 (by decide +kernel) (by decide +kernel)
  have h4 := reached_key h3 28 (by decide +kernel) (by decide +kernel)
  have hcheck : checkForN ((((noKeys.key 30).key 48).key 14).key 28).ring = true :=
    checkForN_iff.mpr ⟨1, by decide, by decide +kernel⟩
  have hread := @TypingStep.read _ 8 hcheck
  have h5 := h4.step (show KeepsNewlines _ (.read 8) from trivial) hread
  exact ⟨_, h5, (typed_lines_delivered_iff h5).1, by decide +kernel⟩

/-- Enter is taken back. There is nothing to read, and yet `check_for_n` returns 1 and the reader
gets the newline. -/
theorem newline_taken_back_delivered :
    ∃ st, typingMachine.Reached (fun _ _ => True) st ∧ st.line.pending = [] ∧
      st.ring.unread = 0 ∧ checkForN st.ring = true ∧
      (kringFlushToRbuf 1 st.ring).1 = [newline] ∧ ¬ Delivers st := by
  have h0 : typingMachine.Reached (fun _ _ => True) noKeys := .start noKeys_start
  have h1 := reached_key h0 28 trivial (by decide +kernel)
  have h2 := reached_key h1 14 trivial (by decide +kernel)
  have hcheck : checkForN ((noKeys.key 28).key 14).ring = true :=
    checkForN_iff.mpr ⟨0, by decide, by decide +kernel⟩
  refine ⟨_, h2, by decide +kernel, by decide +kernel, hcheck, by decide +kernel, fun h => ?_⟩
  have hinside := h.inside hcheck 1
  revert hinside
  decide +kernel

end DestinX.Terminal
