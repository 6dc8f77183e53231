import DestinX.Base.Runs
import DestinX.Fs.Dfs

/-!
# The log ring

`kring_write` and `kring_flush_to_screen` of `drivers/video/kring.c`. Any number of threads
write while one flushes, and each reservation, each store to a slot and each access of the
flusher is one step. A slot has a flag that says that it is filled, and nothing that says for
which position. `init_kring` does not clear the flags: its loop runs from 0 to 0.

Positions are counted without bound; the variables hold them as 64-bit words. The text that is
printed in place of dropped characters is left out.
-/

namespace DestinX.Terminal

open Base Fs Function List Nat

def kringBufMax : Nat := 4096

def kringBufMask : Nat := kringBufMax - 1

/-- `log_entry_t` -/
structure LogEntry where
  (c ready : UInt8)
  deriving DecidableEq, Repr

/-- A position in a variable. -/
def word (p : Nat) : Nat := p % 2 ^ 64

/-- `pos & KRING_BUF_MASK` -/
def slotOf (p : Nat) : Nat := word p &&& kringBufMask

/-- A call of `kring_write` behind its reservation: `done` is the loop variable, and `stored`
says that the character for it is in the slot but not the flag. -/
structure Writer where
  start : Nat
  text : Nat → UInt8
  (len done : Nat)
  stored : Bool

/-- Where `kring_flush_to_screen` is. With `check` comes the value of `current_head`. -/
inductive FlushPc where
  | idle
  | load
  | check (head : Nat)
  | empty
  | test
  | print
  | clear
  | advance
  deriving DecidableEq, Repr

/-- The ring, and beside it what the writers have for the reserved positions and what was
printed for which position, the latest first. -/
structure Kring where
  slots : Nat → LogEntry
  (head tail : Nat)
  writers : Nat → Option Writer
  flusher : FlushPc
  text : Nat → Option UInt8
  printed : List (Nat × UInt8)

def Kring.modify (st : Kring) (p : Nat) (f : LogEntry → LogEntry) : Kring :=
  { st with slots := update st.slots (slotOf p) (f (st.slots (slotOf p))) }

def Kring.setWriter (st : Kring) (t : Nat) (w : Option Writer) : Kring :=
  { st with writers := update st.writers t w }

/-! ## Steps -/

/-- The reservation of `len` characters, of which at most `KRING_BUF_MAX` are written. -/
def Kring.reserve (st : Kring) (t : Nat) (s : Nat → UInt8) (len : Nat) : Kring :=
  let n := min len kringBufMax
  { st.setWriter t (some ⟨st.head, s, n, 0, false⟩) with
    head := st.head + n
    text := fun p => if st.head ≤ p ∧ p < st.head + n then some (s (p - st.head)) else st.text p }

/-- `write_kring[pos].c = s[i]` -/
def Kring.storeChar (st : Kring) (t : Nat) (w : Writer) : Kring :=
  (st.modify (w.start + w.done) fun e => { e with c := w.text w.done }).setWriter t
    (some { w with stored := true })

/-- `write_kring[pos].ready = 1`, and on to the next character if there is one. -/
def Kring.storeReady (st : Kring) (t : Nat) (w : Writer) : Kring :=
  (st.modify (w.start + w.done) fun e => { e with ready := 1 }).setWriter t
    (if w.done + 1 < w.len then some { w with done := w.done + 1, stored := false } else none)

/-- The next step of the flusher. -/
def Kring.flush (st : Kring) : Kring :=
  match st.flusher with
  | .idle => { st with flusher := .load }
  | .load => { st with flusher := .check st.head }
  | .check head =>
    if kringBufMax < sub64 (word head) (word st.tail) then
      { st with tail := head - kringBufMax, flusher := .empty }
    else { st with flusher := .empty }
  | .empty =>
    if word st.tail = word st.head then { st with flusher := .idle }
    else { st with flusher := .test }
  | .test =>
    if (st.slots (slotOf st.tail)).ready = 0 then { st with flusher := .idle }
    else { st with flusher := .print }
  | .print =>
    { st with
      printed := (st.tail, (st.slots (slotOf st.tail)).c) :: st.printed
      flusher := .clear }
  | .clear => { st.modify st.tail fun e => { e with ready := 0 } with flusher := .advance }
  | .advance => { st with tail := st.tail + 1, flusher := .load }

inductive KringAction where
  | reserve (t : Nat) (s : Nat → UInt8) (len : Nat)
  | store (t : Nat)
  | flush

inductive KringStep : Kring → KringAction → Kring → Prop
  | reserve {st : Kring} {t len : Nat} {s : Nat → UInt8} (hidle : st.writers t = none)
      (hlen : 0 < len) : KringStep st (.reserve t s len) (st.reserve t s len)
  | storeChar {st : Kring} {t : Nat} {w : Writer} (hw : st.writers t = some w)
      (hstored : w.stored = false) : KringStep st (.store t) (st.storeChar t w)
  | storeReady {st : Kring} {t : Nat} {w : Writer} (hw : st.writers t = some w)
      (hstored : w.stored = true) : KringStep st (.store t) (st.storeReady t w)
  | flush {st : Kring} : KringStep st .flush st.flush

/-- The ring after `init_kring`, with what the memory from `kmalloc` holds. -/
def newKring (slots : Nat → LogEntry) : Kring where
  slots := slots
  head := 0
  tail := 0
  writers := fun _ => none
  flusher := .idle
  text := fun _ => none
  printed := []

def kringMachine (slots : Nat → LogEntry) : Machine Kring KringAction where
  start st := st = newKring slots
  step := KringStep

/-- Each position is printed with what its writer has for it, in increasing order and once. -/
structure PrintedSound (st : Kring) : Prop where
  chars : ∀ p c, (p, c) ∈ st.printed → st.text p = some c
  order : st.printed.Pairwise fun r r' => r'.1 < r.1

/-- No flag is set at the beginning. -/
def Cleared (slots : Nat → LogEntry) : Prop := ∀ i < kringBufMax, (slots i).ready = 0

/-- A reservation fits into the ring with what is not flushed yet. -/
def FitsRing (st : Kring) : KringAction → Prop
  | .reserve _ _ len => st.head + min len kringBufMax ≤ st.tail + kringBufMax
  | _ => True

variable {st st' : Kring} {act : KringAction} {slots : Nat → LogEntry} {w w' : Writer}
  {s : Nat → UInt8} {t p q len : Nat} {f : LogEntry → LogEntry}

/-! ## Slots -/

lemma slotOf_eq (p : Nat) : slotOf p = p % kringBufMax := by
  have hmask : slotOf p = word p % 2 ^ 12 := and_two_pow_sub_one_eq_mod (word p) 12
  rw [hmask, word, kringBufMax]
  omega

lemma slotOf_lt (p : Nat) : slotOf p < kringBufMax := by
  rw [slotOf_eq]
  exact mod_lt _ (by decide)

/-- Positions that are less than the size of the ring apart have different slots. -/
lemma slotOf_ne {low : Nat} (hp : low ≤ p ∧ p < low + kringBufMax)
    (hq : low ≤ q ∧ q < low + kringBufMax) (hne : p ≠ q) : slotOf p ≠ slotOf q := by
  rw [slotOf_eq, slotOf_eq]
  simp only [kringBufMax] at *
  omega

lemma modify_same (st : Kring) (p : Nat) (f : LogEntry → LogEntry) :
    (st.modify p f).slots (slotOf p) = f (st.slots (slotOf p)) := update_self _ _ _

lemma modify_other (st : Kring) (f : LogEntry → LogEntry) (hne : slotOf q ≠ slotOf p) :
    (st.modify p f).slots (slotOf q) = st.slots (slotOf q) := update_of_ne hne _ _

lemma modify_field {β : Type} (g : LogEntry → β) (hg : ∀ e, g (f e) = g e) (i : Nat) :
    g ((st.modify p f).slots i) = g (st.slots i) := by
  by_cases hi : i = slotOf p
  · subst hi
    rw [modify_same, hg]
  · exact congrArg g (update_of_ne hi _ _)

/-! ## The invariant -/

/-- The writer has reserved the position and not filled it yet. -/
def Writer.Pending (w : Writer) (p : Nat) : Prop := w.start + w.done ≤ p ∧ p < w.start + w.len

def Kring.Pending (st : Kring) (p : Nat) : Prop := ∃ t w, st.writers t = some w ∧ w.Pending p

/-- What the flusher knows from its last steps. -/
def Kring.Flushing (st : Kring) : Prop :=
  match st.flusher with
  | .check head => st.tail ≤ head ∧ head ≤ st.head
  | .test => st.tail < st.head
  | .print | .clear | .advance => st.tail < st.head ∧ ¬ st.Pending st.tail
  | _ => True

structure WritersKept (st : Kring) : Prop where
  own : ∀ t w, st.writers t = some w →
    w.done < w.len ∧ st.tail ≤ w.start + w.done ∧ w.start + w.len ≤ st.head
  said : ∀ t w, st.writers t = some w → ∀ j < w.len, st.text (w.start + j) = some (w.text j)
  apart : ∀ t t' w w' p, t ≠ t' → st.writers t = some w → st.writers t' = some w' →
    w.Pending p → ¬ w'.Pending p
  stored : ∀ t w, st.writers t = some w → w.stored = true →
    (st.slots (slotOf (w.start + w.done))).c = w.text w.done

/-- Between tail and head, slots that are filled hold the text of their position, and the
flags of all others are not set. -/
structure SlotsKept (st : Kring) : Prop where
  low : st.tail ≤ st.head
  high : st.head ≤ st.tail + kringBufMax
  unready : ∀ p, st.tail ≤ p → p < st.tail + kringBufMax →
    (st.head ≤ p ∨ st.Pending p ∨ (p = st.tail ∧ st.flusher = .advance)) →
    (st.slots (slotOf p)).ready = 0
  filled : ∀ p, st.tail ≤ p → p < st.head → ¬ st.Pending p →
    st.text p = some (st.slots (slotOf p)).c

structure LogKept (st : Kring) : Prop where
  sound : PrintedSound st
  below : ∀ p c, (p, c) ∈ st.printed →
    p < st.tail ∨ (p = st.tail ∧ (st.flusher = .clear ∨ st.flusher = .advance))

structure KringKept (st : Kring) : Prop where
  writers : WritersKept st
  slots : SlotsKept st
  flushing : st.Flushing
  log : LogKept st

lemma KringKept.start (hclear : Cleared slots) : KringKept (newKring slots) := by
  refine ⟨⟨?_, ?_, ?_, ?_⟩, ⟨le_rfl, zero_le _, fun p _ _ _ => hclear _ (slotOf_lt p), ?_⟩,
    trivial, ⟨?_, Pairwise.nil⟩, ?_⟩
  · intro t w hw
    cases hw
  · intro t w hw
    cases hw
  · intro t t' w w' p _ hw
    cases hw
  · intro t w hw
    cases hw
  · exact fun p _ hp => absurd hp (not_lt_zero p)
  · intro p c hmem
    cases hmem
  · intro p c hmem
    cases hmem

/-- A position that was printed has been reserved. -/
lemma KringKept.printed_lt (h : KringKept st) {c : UInt8} (hmem : (p, c) ∈ st.printed) :
    p < st.head := by
  have hlow := h.slots.low
  have hflush := h.flushing
  rcases h.log.below p c hmem with hlt | ⟨rfl, hpc⟩
  · omega
  · rcases hpc with hpc | hpc <;> rw [Kring.Flushing, hpc] at hflush <;> exact hflush.1

/-! ## Writers -/

lemma setWriter_writer {o : Option Writer} {u : Nat}
    (hw : (st.setWriter t o).writers u = some w) :
    (u = t ∧ o = some w) ∨ (u ≠ t ∧ st.writers u = some w) := by
  by_cases hu : u = t
  · subst hu
    have hself : (st.setWriter u o).writers u = o := update_self _ _ _
    exact .inl ⟨rfl, hself.symm.trans hw⟩
  · exact .inr ⟨hu, (update_of_ne hu _ _).symm.trans hw⟩

/-- What the flusher knows is kept by a step that leaves the tail, and adds no position in front
of the head to those that have to be filled. -/
lemma Kring.Flushing.of_le (h : st.Flushing) (hhead : st.head ≤ st'.head)
    (htail : st'.tail = st.tail) (hpc : st'.flusher = st.flusher)
    (hpend : ∀ p < st.head, st'.Pending p → st.Pending p) : st'.Flushing := by
  rw [Kring.Flushing] at h ⊢
  rw [hpc, htail]
  cases hflusher : st.flusher with
  | check head =>
    rw [hflusher] at h
    exact ⟨h.1, h.2.trans hhead⟩
  | test =>
    rw [hflusher] at h
    exact lt_of_lt_of_le h hhead
  | print | clear | advance =>
    rw [hflusher] at h
    exact ⟨lt_of_lt_of_le h.1 hhead, fun hyes => h.2 (hpend _ h.1 hyes)⟩
  | _ => trivial

lemma reserve_writer {u : Nat} (hw : (st.reserve t s len).writers u = some w) :
    (u = t ∧ w = ⟨st.head, s, min len kringBufMax, 0, false⟩) ∨
      (u ≠ t ∧ st.writers u = some w) := by
  rcases setWriter_writer hw with ⟨hu, hnew⟩ | hold
  · exact .inl ⟨hu, (Option.some_inj.mp hnew).symm⟩
  · exact .inr hold

lemma reserve_text (hp : p < st.head) : (st.reserve t s len).text p = st.text p :=
  if_neg fun h => absurd h.1 (not_le.mpr hp)

lemma reserve_pending (ht : st.writers t = none) : (st.reserve t s len).Pending p ↔
      st.Pending p ∨ (st.head ≤ p ∧ p < st.head + min len kringBufMax) := by
  constructor
  · rintro ⟨u, w, hw, hp⟩
    rcases reserve_writer hw with ⟨rfl, rfl⟩ | ⟨-, hw⟩
    · exact .inr hp
    · exact .inl ⟨u, w, hw, hp⟩
  · rintro (⟨u, w, hw, hp⟩ | hp)
    · have hu : u ≠ t := by
        rintro rfl
        rw [ht] at hw
        cases hw
      exact ⟨u, w, (update_of_ne hu _ _).trans hw, hp⟩
    · exact ⟨t, _, update_self _ _ _, hp⟩

lemma KringKept.reserve_writers (h : KringKept st) (hlen : 0 < len) :
    WritersKept (st.reserve t s len) := by
  have hn : 0 < min len kringBufMax := by
    simp only [kringBufMax]
    omega
  refine ⟨fun u w hw => ?_, fun u w hw j hj => ?_, fun u u' w w' p hne hw hw' hp => ?_,
    fun u w hw hst => ?_⟩
  · rcases reserve_writer hw with ⟨-, rfl⟩ | ⟨-, hw⟩
    · exact ⟨hn, h.slots.low, le_rfl⟩
    · obtain ⟨hdone, htail, hend⟩ := h.writers.own u w hw
      exact ⟨hdone, htail, hend.trans (le_add_right _ _)⟩
  · rcases reserve_writer hw with ⟨-, rfl⟩ | ⟨-, hw⟩
    · have hin : st.head ≤ st.head + j ∧ st.head + j < st.head + min len kringBufMax :=
        ⟨le_add_right _ _, Nat.add_lt_add_left hj _⟩
      refine (if_pos hin).trans ?_
      rw [Nat.add_sub_cancel_left]
    · obtain ⟨-, -, hend⟩ := h.writers.own u w hw
      exact (reserve_text (by omega)).trans (h.writers.said u w hw j hj)
  · -- the new positions lie behind the head, all others in front of it
    rcases reserve_writer hw with ⟨rfl, rfl⟩ | ⟨hu, hw⟩
    · rcases reserve_writer hw' with ⟨rfl, -⟩ | ⟨-, hw'⟩
      · exact absurd rfl hne
      · obtain ⟨-, -, hend⟩ := h.writers.own u' w' hw'
        rintro ⟨-, hp'⟩
        have hge : st.head ≤ p := hp.1
        omega
    · rcases reserve_writer hw' with ⟨-, rfl⟩ | ⟨-, hw'⟩
      · obtain ⟨-, -, hend⟩ := h.writers.own u w hw
        rintro ⟨hge, -⟩
        have hge' : st.head ≤ p := hge
        have hlt := hp.2
        omega
      · exact h.writers.apart u u' w w' p hne hw hw' hp
  · rcases reserve_writer hw with ⟨-, rfl⟩ | ⟨-, hw⟩
    · cases hst
    · exact h.writers.stored u w hw hst

lemma KringKept.reserve (h : KringKept st) (ht : st.writers t = none) (hlen : 0 < len)
    (hfits : FitsRing st (.reserve t s len)) : KringKept (st.reserve t s len) := by
  have hhead : st.head ≤ (st.reserve t s len).head := le_add_right _ _
  refine ⟨h.reserve_writers hlen, ⟨h.slots.low.trans hhead, hfits, fun p hp hp' hcase => ?_,
    fun p hp hp' hno => ?_⟩, h.flushing.of_le hhead rfl rfl fun p hp hyes => ?_,
    ⟨fun p c hmem => ?_, h.log.sound.order⟩, h.log.below⟩
  · refine h.slots.unready p hp hp' ?_
    rw [reserve_pending ht] at hcase
    rcases hcase with hge | (hpend | hnew) | hadv
    · exact .inl (hhead.trans hge)
    · exact .inr (.inl hpend)
    · exact .inl hnew.1
    · exact .inr (.inr hadv)
  · rw [reserve_pending ht, not_or] at hno
    have hold : p < st.head := by
      by_contra hge
      exact hno.2 ⟨not_lt.mp hge, hp'⟩
    exact (reserve_text hold).trans (h.slots.filled p hp hold hno.1)
  · rcases (reserve_pending ht).mp hyes with hyes | hyes
    · exact hyes
    · exact absurd hp (not_lt.mpr hyes.1)
  · exact (reserve_text (h.printed_lt hmem)).trans (h.log.sound.chars p c hmem)

/-- A position whose writer is about to fill it lies in the window of the ring. -/
lemma KringKept.window (h : KringKept st) (hw : st.writers t = some w) :
    st.tail ≤ w.start + w.done ∧ w.start + w.done < st.tail + kringBufMax := by
  obtain ⟨hdone, htail, hend⟩ := h.writers.own t w hw
  have hhigh := h.slots.high
  exact ⟨htail, by omega⟩

lemma Writer.pending_next (hdone : w.done < w.len) : w.Pending (w.start + w.done) :=
  ⟨le_rfl, Nat.add_lt_add_left hdone _⟩

/-- The writer further on in the same call. -/
structure Writer.Follows (w v : Writer) : Prop where
  call : v.start = w.start ∧ v.text = w.text ∧ v.len = w.len
  done : w.done ≤ v.done
  more : v.done < v.len

lemma Writer.Follows.pending {v : Writer} (h : w.Follows v) (hp : v.Pending p) : w.Pending p := by
  obtain ⟨⟨hstart, -, hlen⟩, hdone, -⟩ := h
  obtain ⟨hge, hlt⟩ := hp
  rw [hstart] at hge hlt
  rw [hlen] at hlt
  exact ⟨by omega, hlt⟩

/-- A step in which one writer goes on and neither end of the ring moves. -/
lemma WritersKept.follow (h : WritersKept st) (hw : st.writers t = some w) {o : Option Writer}
    (hfollow : ∀ v, o = some v → w.Follows v) (hwriters : st'.writers = update st.writers t o)
    (hhead : st'.head = st.head) (htail : st'.tail = st.tail) (htext : st'.text = st.text)
    (hstored : ∀ u v, st'.writers u = some v → v.stored = true →
      (st'.slots (slotOf (v.start + v.done))).c = v.text v.done) :
    WritersKept st' := by
  have hold : ∀ {u v}, st'.writers u = some v → v.done < v.len ∧
      ∃ x, st.writers u = some x ∧ (v.start = x.start ∧ v.text = x.text ∧ v.len = x.len) ∧
        x.done ≤ v.done ∧ ∀ p, v.Pending p → x.Pending p := by
    intro u v hv
    rw [hwriters] at hv
    by_cases hu : u = t
    · subst hu
      rw [update_self] at hv
      have hf := hfollow v hv
      exact ⟨hf.more, w, hw, hf.call, hf.done, fun p hp => hf.pending hp⟩
    · rw [update_of_ne hu] at hv
      exact ⟨(h.own u v hv).1, v, hv, ⟨rfl, rfl, rfl⟩, le_rfl, fun p hp => hp⟩
  refine ⟨fun u v hv => ?_, fun u v hv j hj => ?_, fun u u' v v' p hne hv hv' hp hp' => ?_, hstored⟩
  · obtain ⟨hmore, x, hx, ⟨hstart, -, hlen⟩, hdone, -⟩ := hold hv
    obtain ⟨-, hlow, hend⟩ := h.own u x hx
    rw [hhead, hstart, hlen]
    rw [hlen] at hmore
    exact ⟨hmore, by omega, hend⟩
  · obtain ⟨-, x, hx, ⟨hstart, hsame, hlen⟩, -⟩ := hold hv
    rw [htext, hstart, hsame]
    exact h.said u x hx j (hlen ▸ hj)
  · obtain ⟨-, x, hx, -, -, hsub⟩ := hold hv
    obtain ⟨-, x', hx', -, -, hsub'⟩ := hold hv'
    exact h.apart u u' x x' p hne hx hx' (hsub p hp) (hsub' p hp')

lemma storeChar_pending (hw : st.writers t = some w) :
    (st.storeChar t w).Pending p ↔ st.Pending p := by
  constructor
  · rintro ⟨u, v, hv, hp⟩
    rcases setWriter_writer hv with ⟨rfl, hnew⟩ | ⟨-, hv⟩
    · cases hnew
      exact ⟨u, w, hw, hp⟩
    · exact ⟨u, v, hv, hp⟩
  · rintro ⟨u, v, hv, hp⟩
    by_cases hu : u = t
    · subst hu
      rw [hw] at hv
      cases hv
      exact ⟨u, _, update_self _ _ _, hp⟩
    · exact ⟨u, v, (update_of_ne hu _ _).trans hv, hp⟩

lemma KringKept.storeChar (h : KringKept st) (hw : st.writers t = some w) :
    KringKept (st.storeChar t w) := by
  obtain ⟨hdone, -, -⟩ := h.writers.own t w hw
  have hin := h.window hw
  have hother : ∀ q, st.tail ≤ q ∧ q < st.tail + kringBufMax → q ≠ w.start + w.done →
      (st.storeChar t w).slots (slotOf q) = st.slots (slotOf q) := fun q hq hne =>
    modify_other st (fun e => { e with c := w.text w.done }) (slotOf_ne hq hin hne)
  have hready : ∀ i, ((st.storeChar t w).slots i).ready = (st.slots i).ready :=
    modify_field (f := fun e => { e with c := w.text w.done }) LogEntry.ready fun e => rfl
  have hfollow : ∀ v, some { w with stored := true } = some v → w.Follows v := by
    rintro v ⟨⟩
    exact ⟨⟨rfl, rfl, rfl⟩, le_rfl, hdone⟩
  refine ⟨h.writers.follow hw hfollow rfl rfl rfl rfl fun u v hv hst => ?_,
    ⟨h.slots.low, h.slots.high, fun p hp hp' hcase => ?_, fun p hp hp' hno => ?_⟩,
    h.flushing.of_le le_rfl rfl rfl fun p _ => (storeChar_pending hw).mp,
    ⟨h.log.sound.chars, h.log.sound.order⟩, h.log.below⟩
  · rcases setWriter_writer hv with ⟨-, hnew⟩ | ⟨hu, hv⟩
    · cases hnew
      exact congrArg LogEntry.c
        (modify_same st (w.start + w.done) fun e => { e with c := w.text w.done })
    · have hv : st.writers u = some v := hv
      -- the slot of another writer is another slot, since what the two have to fill is disjoint
      have hne : v.start + v.done ≠ w.start + w.done := by
        intro heq
        have hpv := Writer.pending_next (h.writers.own u v hv).1
        rw [heq] at hpv
        exact h.writers.apart t u w v _ (Ne.symm hu) hw hv (Writer.pending_next hdone) hpv
      rw [hother _ (h.window hv) hne]
      exact h.writers.stored u v hv hst
  · rw [storeChar_pending hw] at hcase
    rw [hready]
    exact h.slots.unready p hp hp' hcase
  · rw [storeChar_pending hw] at hno
    have hne : p ≠ w.start + w.done := by
      rintro rfl
      exact hno ⟨t, w, hw, Writer.pending_next hdone⟩
    have hhigh := h.slots.high
    have hp2 : p < st.head := hp'
    rw [hother p ⟨hp, by omega⟩ hne]
    exact h.slots.filled p hp hp' hno

lemma storeReady_writer {v : Writer}
    (hv : (if w.done + 1 < w.len then some { w with done := w.done + 1, stored := false }
      else none) = some v) :
    v = { w with done := w.done + 1, stored := false } ∧ w.done + 1 < w.len := by
  split at hv
  · next hlt => exact ⟨(Option.some_inj.mp hv).symm, hlt⟩
  · cases hv

section

variable (h : KringKept st)
include h

lemma KringKept.storeReady_pending (hw : st.writers t = some w) :
    (st.storeReady t w).Pending p ↔ st.Pending p ∧ p ≠ w.start + w.done := by
  obtain ⟨hdone, -, -⟩ := h.writers.own t w hw
  constructor
  · rintro ⟨u, v, hv, hp⟩
    rcases setWriter_writer hv with ⟨rfl, hnew⟩ | ⟨hu, hv⟩
    · obtain ⟨rfl, hlt⟩ := storeReady_writer hnew
      obtain ⟨hge, hend⟩ := hp
      dsimp only at hge hend
      exact ⟨⟨u, w, hw, by omega, hend⟩, by omega⟩
    · refine ⟨⟨u, v, hv, hp⟩, ?_⟩
      rintro rfl
      exact h.writers.apart t u w v _ (Ne.symm hu) hw hv (Writer.pending_next hdone) hp
  · rintro ⟨⟨u, v, hv, hp⟩, hne⟩
    by_cases hu : u = t
    · subst hu
      rw [hw] at hv
      cases hv
      obtain ⟨hge, hend⟩ := hp
      have hlt : w.done + 1 < w.len := by omega
      refine ⟨u, { w with done := w.done + 1, stored := false }, ?_, ?_, hend⟩
      · exact (update_self _ _ _).trans (if_pos hlt)
      · dsimp only
        omega
    · exact ⟨u, v, (update_of_ne hu _ _).trans hv, hp⟩

lemma KringKept.storeReady (hw : st.writers t = some w) (hstored : w.stored = true) :
    KringKept (st.storeReady t w) := by
  obtain ⟨hdone, -, hend⟩ := h.writers.own t w hw
  have hin := h.window hw
  have hother : ∀ q, st.tail ≤ q ∧ q < st.tail + kringBufMax → q ≠ w.start + w.done →
      (st.storeReady t w).slots (slotOf q) = st.slots (slotOf q) := fun q hq hne =>
    modify_other st (fun e => { e with ready := 1 }) (slotOf_ne hq hin hne)
  have hchar : ∀ i, ((st.storeReady t w).slots i).c = (st.slots i).c :=
    modify_field (f := fun e => { e with ready := 1 }) LogEntry.c fun e => rfl
  have hfollow : ∀ v, (if w.done + 1 < w.len then
      some { w with done := w.done + 1, stored := false } else none) = some v → w.Follows v := by
    intro v hv
    obtain ⟨rfl, hlt⟩ := storeReady_writer hv
    exact ⟨⟨rfl, rfl, rfl⟩, le_succ _, hlt⟩
  refine ⟨h.writers.follow hw hfollow rfl rfl rfl rfl fun u v hv hst => ?_,
    ⟨h.slots.low, h.slots.high, fun p hp hp' hcase => ?_, fun p hp hp' hno => ?_⟩,
    h.flushing.of_le le_rfl rfl rfl fun p _ hp => ((h.storeReady_pending hw).mp hp).1,
    ⟨h.log.sound.chars, h.log.sound.order⟩, h.log.below⟩
  · rcases setWriter_writer hv with ⟨-, hnew⟩ | ⟨-, hv⟩
    · obtain ⟨rfl, -⟩ := storeReady_writer hnew
      cases hst
    · rw [hchar]
      exact h.writers.stored u v hv hst
  · -- a slot that has to stay unset is not the one that is set here
    have hold : (st.head ≤ p ∨ st.Pending p ∨ (p = st.tail ∧ st.flusher = .advance)) ∧
        p ≠ w.start + w.done := by
      rw [h.storeReady_pending hw] at hcase
      rcases hcase with hge | hyes | ⟨heq, hadv⟩
      · have hge' : st.head ≤ p := hge
        exact ⟨.inl hge', by omega⟩
      · exact ⟨.inr (.inl hyes.1), hyes.2⟩
      · have hflush := h.flushing
        have hpc : st.flusher = .advance := hadv
        rw [Kring.Flushing, hpc] at hflush
        refine ⟨.inr (.inr ⟨heq, hadv⟩), fun hp => hflush.2 ?_⟩
        have heq' : p = st.tail := heq
        rw [← heq', hp]
        exact ⟨t, w, hw, Writer.pending_next hdone⟩
    rw [hother p ⟨hp, hp'⟩ hold.2]
    exact h.slots.unready p hp hp' hold.1
  · rw [h.storeReady_pending hw] at hno
    rw [hchar]
    by_cases heq : p = w.start + w.done
    · subst heq
      rw [h.writers.stored t w hw hstored]
      exact h.writers.said t w hw w.done hdone
    · exact h.slots.filled p hp hp' fun hyes => hno ⟨hyes, heq⟩

/-! ## The flusher -/

lemma KringKept.goto {pc : FlushPc}
    (hpc : st.flusher ≠ .clear ∧ st.flusher ≠ .advance ∧ pc ≠ .advance)
    (hflush : ({ st with flusher := pc } : Kring).Flushing) :
    KringKept { st with flusher := pc } := by
  refine ⟨⟨h.writers.own, h.writers.said, h.writers.apart, h.writers.stored⟩,
    ⟨h.slots.low, h.slots.high, fun p hp hp' hcase => ?_, h.slots.filled⟩, hflush,
    ⟨h.log.sound.chars, h.log.sound.order⟩, fun p c hmem => ?_⟩
  · refine h.slots.unready p hp hp' ?_
    rcases hcase with hge | hyes | ⟨-, heq⟩
    · exact .inl hge
    · exact .inr (.inl hyes)
    · exact absurd heq hpc.2.2
  · rcases h.log.below p c hmem with hlt | ⟨-, hcase⟩
    · exact .inl hlt
    · exact (hcase.elim hpc.1 hpc.2.1).elim

lemma KringKept.check {head : Nat} (hpc : st.flusher = .check head) : KringKept st.flush := by
  have hflush := h.flushing
  have hhigh := h.slots.high
  rw [Kring.Flushing, hpc] at hflush
  have hno : ¬ kringBufMax < sub64 (word head) (word st.tail) := by
    simp only [sub64, word, kringBufMax] at hhigh ⊢
    omega
  rw [Kring.flush, hpc]
  dsimp only
  rw [if_neg hno]
  exact h.goto (by simp [hpc]) trivial

lemma KringKept.empty (hpc : st.flusher = .empty) : KringKept st.flush := by
  have hlow := h.slots.low
  rw [Kring.flush, hpc]
  dsimp only
  split
  · exact h.goto (by simp [hpc]) trivial
  · next hne =>
    have hlt : st.tail < st.head := by
      refine lt_of_le_of_ne hlow fun heq => hne ?_
      rw [heq]
    exact h.goto (by simp [hpc]) hlt

lemma KringKept.test (hpc : st.flusher = .test) : KringKept st.flush := by
  have hflush := h.flushing
  rw [Kring.Flushing, hpc] at hflush
  rw [Kring.flush, hpc]
  dsimp only
  split
  · exact h.goto (by simp [hpc]) trivial
  · next hset =>
    have hno : ¬ st.Pending st.tail := fun hyes =>
      hset (h.slots.unready st.tail le_rfl (by simp [kringBufMax]) (.inr (.inl hyes)))
    exact h.goto (by simp [hpc]) ⟨hflush, hno⟩

lemma KringKept.print (hpc : st.flusher = .print) : KringKept st.flush := by
  have hflush := h.flushing
  rw [Kring.Flushing, hpc] at hflush
  have hbelow : ∀ p c, (p, c) ∈ st.printed → p < st.tail := by
    intro p c hmem
    rcases h.log.below p c hmem with hlt | ⟨-, hcase⟩
    · exact hlt
    · rw [hpc] at hcase
      rcases hcase with hcase | hcase <;> cases hcase
  rw [Kring.flush, hpc]
  refine ⟨⟨h.writers.own, h.writers.said, h.writers.apart, h.writers.stored⟩,
    ⟨h.slots.low, h.slots.high, fun p hp hp' hcase => ?_, h.slots.filled⟩, hflush,
    ⟨fun p c hmem => ?_, ?_⟩, fun p c hmem => ?_⟩
  · refine h.slots.unready p hp hp' ?_
    rcases hcase with hge | hyes | ⟨-, heq⟩
    · exact .inl hge
    · exact .inr (.inl hyes)
    · cases heq
  · rcases mem_cons.mp hmem with heq | hmem
    · cases heq
      exact h.slots.filled st.tail le_rfl hflush.1 hflush.2
    · exact h.log.sound.chars p c hmem
  · exact Pairwise.cons (fun r hr => hbelow r.1 r.2 hr) h.log.sound.order
  · rcases mem_cons.mp hmem with heq | hmem
    · cases heq
      exact .inr ⟨rfl, .inl rfl⟩
    · exact .inl (hbelow p c hmem)

lemma KringKept.clear (hpc : st.flusher = .clear) : KringKept st.flush := by
  have hflush := h.flushing
  rw [Kring.Flushing, hpc] at hflush
  rw [Kring.flush, hpc]
  have hchar : ∀ i, ((st.modify st.tail fun e => { e with ready := 0 }).slots i).c =
      (st.slots i).c := modify_field LogEntry.c fun e => rfl
  refine ⟨⟨h.writers.own, h.writers.said, h.writers.apart, fun u v hv hst => ?_⟩,
    ⟨h.slots.low, h.slots.high, fun p hp hp' hcase => ?_, fun p hp hp' hno => ?_⟩, hflush,
    ⟨h.log.sound.chars, h.log.sound.order⟩, fun p c hmem => ?_⟩
  · exact (hchar _).trans (h.writers.stored u v hv hst)
  · by_cases heq : p = st.tail
    · subst heq
      exact congrArg LogEntry.ready (modify_same st st.tail fun e => { e with ready := 0 })
    · have hin : st.tail ≤ st.tail ∧ st.tail < st.tail + kringBufMax :=
        ⟨le_rfl, by simp [kringBufMax]⟩
      have hsame := modify_other st (fun e => { e with ready := 0 }) (slotOf_ne ⟨hp, hp'⟩ hin heq)
      refine (congrArg LogEntry.ready hsame).trans (h.slots.unready p hp hp' ?_)
      rcases hcase with hge | hyes | ⟨heq', -⟩
      · exact .inl hge
      · exact .inr (.inl hyes)
      · exact absurd heq' heq
  · exact (h.slots.filled p hp hp' hno).trans (congrArg some (hchar _).symm)
  · rcases h.log.below p c hmem with hlt | ⟨heq, -⟩
    · exact .inl hlt
    · exact .inr ⟨heq, .inr rfl⟩

lemma KringKept.advance (hpc : st.flusher = .advance) : KringKept st.flush := by
  have hflush := h.flushing
  rw [Kring.Flushing, hpc] at hflush
  obtain ⟨hlt, hno⟩ := hflush
  have hhigh := h.slots.high
  rw [Kring.flush, hpc]
  refine ⟨⟨fun u v hv => ?_, h.writers.said, h.writers.apart, h.writers.stored⟩,
    ⟨hlt, by dsimp only; omega, fun p hp hp' hcase => ?_, fun p hp hp' hnp => ?_⟩, trivial,
    ⟨h.log.sound.chars, h.log.sound.order⟩, fun p c hmem => ?_⟩
  · obtain ⟨hdone, htail, hend⟩ := h.writers.own u v hv
    refine ⟨hdone, ?_, hend⟩
    have hne : st.tail ≠ v.start + v.done := by
      intro heq
      refine hno ⟨u, v, hv, ?_⟩
      rw [heq]
      exact Writer.pending_next hdone
    dsimp only
    omega
  · dsimp only at hp hp'
    by_cases hlast : p = st.tail + kringBufMax
    · -- the position that comes into the window takes over the slot that was cleared
      have hslot : slotOf p = slotOf st.tail := by rw [slotOf_eq, slotOf_eq, hlast, add_mod_right]
      rw [hslot]
      exact h.slots.unready st.tail le_rfl (by simp [kringBufMax]) (.inr (.inr ⟨rfl, hpc⟩))
    · refine h.slots.unready p (by omega) (by omega) ?_
      rcases hcase with hge | hyes | ⟨-, heq⟩
      · exact .inl hge
      · exact .inr (.inl hyes)
      · cases heq
  · exact h.slots.filled p ((le_succ _).trans hp) hp' hnp
  · refine .inl ?_
    dsimp only
    rcases h.log.below p c hmem with hlt | ⟨heq, -⟩
    · omega
    · omega

lemma KringKept.flush : KringKept st.flush := by
  cases hpc : st.flusher with
  | idle =>
    rw [Kring.flush, hpc]
    exact h.goto (by simp [hpc]) trivial
  | load =>
    rw [Kring.flush, hpc]
    exact h.goto (by simp [hpc]) ⟨h.slots.low, le_rfl⟩
  | check head => exact h.check hpc
  | empty => exact h.empty hpc
  | test => exact h.test hpc
  | print => exact h.print hpc
  | clear => exact h.clear hpc
  | advance => exact h.advance hpc

lemma KringKept.step (hfits : FitsRing st act) (hstep : KringStep st act st') :
    KringKept st' := by
  cases hstep with
  | reserve hidle hlen => exact h.reserve hidle hlen hfits
  | storeChar hw hstored => exact h.storeChar hw
  | storeReady hw hstored => exact h.storeReady hw hstored
  | flush => exact h.flush

end

/-! ## Runs -/

/-- If no flag is set at the beginning and every reservation fits into the ring, each position
is printed with what its writer has for it, in increasing order and once. -/
theorem printed_as_reserved (hclear : Cleared slots)
    (hreach : (kringMachine slots).Reached FitsRing st) : PrintedSound st := by
  have hstart : ∀ st, (kringMachine slots).start st → KringKept st := by
    rintro st rfl
    exact KringKept.start hclear
  have hkept : KringKept st := hreach.invariant hstart fun _ _ _ hkept hfits hstep =>
    hkept.step hfits hstep
  exact hkept.log.sound

section

variable {good : Kring → KringAction → Prop}

lemma reached_reserve (hreach : (kringMachine slots).Reached good st) (t : Nat) (s : Nat → UInt8)
    (len : Nat) (hgood : good st (.reserve t s len)) (hidle : st.writers t = none)
    (hlen : 0 < len) : (kringMachine slots).Reached good (st.reserve t s len) :=
  hreach.step hgood (.reserve hidle hlen)

lemma reached_store (hreach : (kringMachine slots).Reached good st) (t : Nat) (w : Writer)
    (hgood : ∀ st, good st (.store t)) (hw : st.writers t = some w) (hstored : w.stored = false) :
    (kringMachine slots).Reached good
      ((st.storeChar t w).storeReady t { w with stored := true }) := by
  have hchar := hreach.step (hgood st) (.storeChar hw hstored)
  exact hchar.step (hgood _) (.storeReady (update_self _ _ _) rfl)

lemma reached_flushes (hgood : ∀ st, good st .flush) (n : Nat)
    (hreach : (kringMachine slots).Reached good st) :
    (kringMachine slots).Reached good (Kring.flush^[n] st) := by
  induction n generalizing st with
  | zero => exact hreach
  | succ n ih => exact ih (hreach.step (hgood st) .flush)

end

/-- Memory in which no flag is set. -/
def noFlags : Nat → LogEntry := fun _ => ⟨0, 0⟩

/-- One thread has written `a`. -/
def writtenA : Kring :=
  let st := (newKring noFlags).reserve 0 (fun _ => 97) 1
  (st.storeChar 0 ⟨0, fun _ => 97, 1, 0, false⟩).storeReady 0 ⟨0, fun _ => 97, 1, 0, true⟩

lemma reached_writtenA : (kringMachine noFlags).Reached FitsRing writtenA := by
  have hstart : (kringMachine noFlags).start (newKring noFlags) := rfl
  have hfits : FitsRing (newKring noFlags) (.reserve 0 (fun _ => 97) 1) := by
    simp [FitsRing, newKring, kringBufMax]
  have hreserved := reached_reserve (.start hstart) 0 (fun _ => 97) 1 hfits rfl (by decide)
  exact reached_store hreserved 0 ⟨0, fun _ => 97, 1, 0, false⟩ (fun _ => trivial) rfl rfl

theorem printed_as_reserved_a :
    Cleared noFlags ∧ (kringMachine noFlags).Reached FitsRing (Kring.flush^[6] writtenA) ∧
      (Kring.flush^[6] writtenA).printed = [(0, 97)] ∧ PrintedSound (Kring.flush^[6] writtenA) := by
  have hclear : Cleared noFlags := fun _ _ => rfl
  have hreach := reached_flushes (fun _ => trivial) 6 reached_writtenA
  exact ⟨hclear, hreach, by decide +kernel, printed_as_reserved hclear hreach⟩

/-- Memory in which every flag is set. -/
def flagsSet : Nat → LogEntry := fun _ => ⟨120, 1⟩

/-- One thread has reserved a position for `a` and not filled it. -/
def reservedA : Kring := (newKring flagsSet).reserve 0 (fun _ => 97) 1

lemma reached_reservedA : (kringMachine flagsSet).Reached FitsRing reservedA := by
  have hstart : (kringMachine flagsSet).start (newKring flagsSet) := rfl
  have hfits : FitsRing (newKring flagsSet) (.reserve 0 (fun _ => 97) 1) := by
    simp [FitsRing, newKring, kringBufMax]
  exact reached_reserve (.start hstart) 0 (fun _ => 97) 1 hfits rfl (by decide)

/-- Three threads have reserved two rounds of the ring, and the first has filled its only
position. -/
def twoRounds : Kring :=
  let st := (newKring noFlags).reserve 0 (fun _ => 97) 1
  let st := (st.reserve 1 (fun _ => 98) 4096).reserve 2 (fun _ => 99) 4095
  (st.storeChar 0 ⟨0, fun _ => 97, 1, 0, false⟩).storeReady 0 ⟨0, fun _ => 97, 1, 0, true⟩

lemma reached_twoRounds : (kringMachine noFlags).Reached (fun _ _ => True) twoRounds := by
  have hstart : (kringMachine noFlags).start (newKring noFlags) := rfl
  have h0 : (kringMachine noFlags).Reached (fun _ _ => True) (newKring noFlags) := .start hstart
  have h1 := reached_reserve h0 0 (fun _ => 97) 1 trivial rfl (by decide)
  have h2 := reached_reserve h1 1 (fun _ => 98) 4096 trivial rfl (by decide)
  have h3 := reached_reserve h2 2 (fun _ => 99) 4095 trivial rfl (by decide)
  exact reached_store h3 0 ⟨0, fun _ => 97, 1, 0, false⟩ (fun _ => trivial) rfl rfl

/-- A flag that is set at the beginning prints a position that nobody has filled, and behind
an overflow the flag of one round prints a position of the next. -/
theorem stale_flag_printed :
    (∃ slots st, (kringMachine slots).Reached FitsRing st ∧ ¬ PrintedSound st) ∧
      ∃ slots st, Cleared slots ∧ (kringMachine slots).Reached (fun _ _ => True) st ∧
        ¬ PrintedSound st := by
  constructor
  · refine ⟨flagsSet, Kring.flush^[6] reservedA,
      reached_flushes (fun _ => trivial) 6 reached_reservedA, fun hsound => ?_⟩
    have hprinted : (0, 120) ∈ (Kring.flush^[6] reservedA).printed := by decide +kernel
    have htext : (Kring.flush^[6] reservedA).text 0 ≠ some 120 := by decide +kernel
    exact htext (hsound.chars 0 120 hprinted)
  · refine ⟨noFlags, Kring.flush^[6] twoRounds, fun _ _ => rfl,
      reached_flushes (fun _ => trivial) 6 reached_twoRounds, fun hsound => ?_⟩
    have hprinted : (4096, 97) ∈ (Kring.flush^[6] twoRounds).printed := by decide +kernel
    have htext : (Kring.flush^[6] twoRounds).text 4096 ≠ some 97 := by decide +kernel
    exact htext (hsound.chars 4096 97 hprinted)

end DestinX.Terminal
