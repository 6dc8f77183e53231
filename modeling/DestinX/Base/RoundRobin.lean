import Mathlib.Data.List.Nodup

/-!
# Round robin

A list with a hand on one of its elements. The hand passes to the next element; elements enter
at the end; one that leaves gives the hand to the first element, wherever it was itself.

A log says what was selected and what is in the list. It is in round-robin order when between
two selections of an element everything else that stayed has been selected. This is so as long
as an element that waits for its turn comes before the one it waits for.
-/

namespace Base

open List

variable {α : Type*}

/-! ## Logs -/

structure Event (α : Type*) where
  selected : Option α
  present : α → Prop

/-- Since `a` was last selected, `c` has been present and not selected. The latest event comes
first. -/
def Waits (log : List (Event α)) (a c : α) : Prop :=
  ∃ between e older, log = between ++ e :: older ∧ e.selected = some a ∧ e.present c ∧
    ∀ e' ∈ between, e'.present c ∧ e'.selected ≠ some c

/-- Between two selections of `a`, whatever else was present all the time is selected. -/
def RoundRobin (log : List (Event α)) : Prop :=
  ∀ newer between older e₁ e₂ a c, log = newer ++ e₂ :: (between ++ e₁ :: older) →
    e₁.selected = some a → e₂.selected = some a → c ≠ a →
    e₁.present c → e₂.present c → (∀ e ∈ between, e.present c) →
    ∃ e ∈ between, e.selected = some c

variable {log : List (Event α)} {e : Event α} {a c n t : α} {l l1 l2 w : List α}

lemma not_waits_nil : ¬ Waits [] a c := by
  rintro ⟨between, e, older, hlog, -⟩
  cases between <;> cases hlog

lemma waits_cons : Waits (e :: log) a c ↔ (e.selected = some a ∧ e.present c) ∨
      (e.present c ∧ e.selected ≠ some c ∧ Waits log a c) := by
  constructor
  · rintro ⟨between, e1, older, hlog, ha, hc, hbetween⟩
    cases between with
    | nil =>
      obtain ⟨rfl, rfl⟩ := cons.inj hlog
      exact .inl ⟨ha, hc⟩
    | cons e2 between =>
      obtain ⟨rfl, rfl⟩ := cons.inj hlog
      obtain ⟨hpresent, hne⟩ := hbetween e mem_cons_self
      exact .inr ⟨hpresent, hne, between, e1, older, rfl, ha, hc,
        fun e' he' => hbetween e' (mem_cons_of_mem e he')⟩
  · rintro (⟨ha, hc⟩ | ⟨hpresent, hne, between, e1, older, rfl, ha, hc, hbetween⟩)
    · exact ⟨[], e, log, rfl, ha, hc, fun e' he' => nomatch he'⟩
    · exact ⟨e :: between, e1, older, rfl, ha, hc, forall_mem_cons.mpr ⟨⟨hpresent, hne⟩, hbetween⟩⟩

lemma Waits.present (hw : Waits (e :: log) a c) : e.present c := by
  rcases waits_cons.mp hw with ⟨-, hc⟩ | ⟨hc, -⟩
  · exact hc
  · exact hc

lemma waits_of_none (hnone : e.selected = none) (hw : Waits (e :: log) a c) : Waits log a c := by
  rcases waits_cons.mp hw with ⟨hsel, -⟩ | ⟨-, -, hw⟩
  · rw [hnone] at hsel
    cases hsel
  · exact hw

lemma roundRobin_nil : RoundRobin ([] : List (Event α)) := by
  intro newer between older e1 e2 a c hlog
  cases newer <;> cases hlog

/-- A selection keeps the order when nothing waits for its turn. -/
lemma roundRobin_cons : RoundRobin (e :: log) ↔
    RoundRobin log ∧ ∀ a c, e.selected = some a → c ≠ a → e.present c → ¬ Waits log a c := by
  constructor
  · intro h
    refine ⟨fun newer between older e1 e2 a c hlog => ?_, fun a c ha hne hc hwaits => ?_⟩
    · exact h (e :: newer) between older e1 e2 a c (by rw [hlog]; rfl)
    · obtain ⟨between, e1, older, rfl, ha1, hc1, hbetween⟩ := hwaits
      obtain ⟨e', he', hsel⟩ := h [] between older e1 e a c rfl ha1 ha hne hc1 hc
        fun e' he' => (hbetween e' he').1
      exact (hbetween e' he').2 hsel
  · rintro ⟨h, hlast⟩ newer between older e1 e2 a c hlog ha1 ha2 hne hc1 hc2 hbetween
    cases newer with
    | cons e0 newer =>
      exact h newer between older e1 e2 a c (cons.inj hlog).2 ha1 ha2 hne hc1 hc2 hbetween
    | nil =>
      obtain ⟨rfl, rfl⟩ := cons.inj hlog
      by_contra hnever
      refine hlast a c ha2 hne hc2 ⟨between, e1, older, rfl, ha1, hc1, fun e' he' => ?_⟩
      exact ⟨hbetween e' he', fun hsel => hnever ⟨e', he', hsel⟩⟩

lemma RoundRobin.quiet (h : RoundRobin log) (hnone : e.selected = none) :
    RoundRobin (e :: log) := by
  refine roundRobin_cons.mpr ⟨h, fun a c ha => ?_⟩
  rw [hnone] at ha
  cases ha

/-! ## One element before another -/

lemma pair_sublist_cons : [c, a].Sublist (n :: l) ↔ (c = n ∧ a ∈ l) ∨ [c, a].Sublist l := by
  rw [sublist_cons_iff]
  constructor
  · rintro (h | ⟨r, heq, hr⟩)
    · exact .inr h
    · obtain ⟨rfl, rfl⟩ := cons.inj heq
      exact .inl ⟨rfl, singleton_sublist.mp hr⟩
  · rintro (⟨rfl, ha⟩ | h)
    · exact .inr ⟨[a], rfl, singleton_sublist.mpr ha⟩
    · exact .inl h

lemma pair_sublist_append : [c, a].Sublist (l1 ++ l2) ↔
    [c, a].Sublist l1 ∨ (c ∈ l1 ∧ a ∈ l2) ∨ [c, a].Sublist l2 := by
  induction l1 with
  | nil => simp
  | cons n l1 ih =>
    rw [cons_append, pair_sublist_cons, pair_sublist_cons, ih, mem_append,
      mem_cons, and_or_left, or_and_right]
    simp only [or_assoc, or_left_comm]

lemma mem_of_pair_sublist (h : [c, a].Sublist l) : c ∈ l ∧ a ∈ l :=
  ⟨h.subset (by simp), h.subset (by simp)⟩

/-- What comes before another element does not come behind it. -/
lemma not_pair_sublist_of_nodup (hl : (l1 ++ l2).Nodup) (ha : a ∈ l1) (hc : c ∈ l2) :
    ¬ [c, a].Sublist (l1 ++ l2) := by
  have hdisj := disjoint_of_nodup_append hl
  rw [pair_sublist_append]
  rintro (h | ⟨h, -⟩ | h)
  · exact hdisj (mem_of_pair_sublist h).1 hc
  · exact hdisj h hc
  · exact hdisj ha (mem_of_pair_sublist h).2

/-! ## The hand -/

structure Hand (α : Type*) where
  before : List α
  current : α
  behind : List α

def Hand.ring (h : Hand α) : List α := h.before ++ h.current :: h.behind

/-- The order in which the elements get the hand next. -/
def Hand.turns (h : Hand α) : List α := h.behind ++ h.before ++ [h.current]

/-- The hand goes to the next element. -/
def Hand.pass (h : Hand α) : Hand α :=
  match h.behind, h.before with
  | n :: m, _ => ⟨h.before ++ [h.current], n, m⟩
  | [], n :: m => ⟨[], n, m ++ [h.current]⟩
  | [], [] => h

/-- The element with the hand leaves, and the first one gets it. -/
def Hand.leave (h : Hand α) : Hand α :=
  match h.before, h.behind with
  | n :: m, _ => ⟨[], n, m ++ h.behind⟩
  | [], n :: m => ⟨[], n, m⟩
  | [], [] => h

def Hand.enter (h : Hand α) (t : α) : Hand α := ⟨h.before, h.current, h.behind ++ [t]⟩

variable {h : Hand α}

lemma Hand.mem_turns : a ∈ h.turns ↔ a ∈ h.ring := by
  simp only [Hand.turns, Hand.ring, mem_append, mem_cons, not_mem_nil, or_false]
  tauto

lemma Hand.turns_nodup (hnd : h.ring.Nodup) : h.turns.Nodup := by
  have hperm : h.turns.Perm h.ring := by
    have hcomm : (h.behind ++ (h.before ++ [h.current])).Perm
        ((h.before ++ [h.current]) ++ h.behind) := perm_append_comm
    rw [Hand.turns, append_assoc]
    exact hcomm.trans (by rw [append_assoc]; rfl)
  exact hperm.nodup_iff.mpr hnd

/-- Passing the hand moves the first turn to the end. -/
lemma Hand.pass_eq (hturns : h.behind ++ h.before = n :: w) :
    h.pass.current = n ∧ h.pass.turns = w ++ [h.current] ++ [n] ∧ h.pass.ring = h.ring := by
  obtain ⟨before, current, behind⟩ := h
  cases behind with
  | cons d m =>
    obtain ⟨rfl, rfl⟩ := cons.inj hturns
    simp [Hand.pass, Hand.turns, Hand.ring]
  | nil =>
    obtain rfl : before = n :: w := hturns
    simp [Hand.pass, Hand.turns, Hand.ring]

/-- After an element has left, the turns go through the list from its beginning. -/
lemma Hand.leave_eq (hring : h.before ++ h.behind = n :: w) : h.leave = ⟨[], n, w⟩ := by
  obtain ⟨before, current, behind⟩ := h
  cases before with
  | cons d m =>
    obtain ⟨rfl, rfl⟩ := cons.inj hring
    rfl
  | nil =>
    obtain rfl : behind = n :: w := hring
    rfl

/-! ## The invariant -/

/-- What waits for an element comes before it. An element outside of the list would enter
behind everything that waits for it. -/
structure InOrder (h : Hand α) (log : List (Event α)) : Prop where
  nodup : h.ring.Nodup
  present : ∀ a c, Waits log a c → c ∈ h.ring
  inside : ∀ a c, c ≠ a → Waits log a c → a ∈ h.ring → [c, a].Sublist h.turns
  outside : ∀ a c, Waits log a c → a ∉ h.ring → c ∈ h.behind

/-- The event lists the elements of the list. -/
def Event.Lists (e : Event α) (h : Hand α) : Prop := ∀ c, e.present c ↔ c ∈ h.ring

lemma InOrder.quiet (h0 : InOrder h log) (hnone : e.selected = none) : InOrder h (e :: log) := by
  have hwaits : ∀ a c, Waits (e :: log) a c → Waits log a c := fun _ _ => waits_of_none hnone
  exact ⟨h0.nodup, fun a c hw => h0.present a c (hwaits a c hw),
    fun a c hne hw => h0.inside a c hne (hwaits a c hw),
    fun a c hw => h0.outside a c (hwaits a c hw)⟩

lemma InOrder.enter (h0 : InOrder h log) (ht : t ∉ h.ring) (hnone : e.selected = none) :
    InOrder (h.enter t) (e :: log) := by
  have hring : (h.enter t).ring = h.ring ++ [t] := by simp [Hand.ring, Hand.enter]
  have hwaits : ∀ a c, Waits (e :: log) a c → Waits log a c := fun _ _ => waits_of_none hnone
  refine ⟨?_, fun a c hw => ?_, fun a c hne hw ha => ?_, fun a c hw ha => ?_⟩
  · rw [hring]
    exact nodup_append.mpr ⟨h0.nodup, nodup_singleton t, fun x hx y hy => by
      rw [mem_singleton.mp hy]
      rintro rfl
      exact ht hx⟩
  · rw [hring]
    exact mem_append_left _ (h0.present a c (hwaits a c hw))
  · rw [hring] at ha
    have hturns : (h.enter t).turns = h.behind ++ ([t] ++ (h.before ++ [h.current])) := by
      simp [Hand.turns, Hand.enter]
    rw [hturns, pair_sublist_append, pair_sublist_append]
    by_cases hat : a = t
    · subst hat
      exact .inr (.inl ⟨h0.outside a c (hwaits a c hw) ht, by simp⟩)
    · have hold := h0.inside a c hne (hwaits a c hw) (by simpa [hat] using ha)
      rw [Hand.turns, append_assoc, pair_sublist_append] at hold
      rcases hold with hold | ⟨hc, ha'⟩ | hold
      · exact .inl hold
      · exact .inr (.inl ⟨hc, mem_append_right _ ha'⟩)
      · exact .inr (.inr (.inr (.inr hold)))
  · rw [hring] at ha
    refine mem_append_left _ (h0.outside a c (hwaits a c hw) fun ha' => ?_)
    exact ha (mem_append_left _ ha')

/-- After a selection an element waits for the selected one, or still for another. -/
lemma waits_selected (hsel : e.selected = some n) (hne : c ≠ a) (hw : Waits (e :: log) a c) :
    (a = n ∧ c ≠ n) ∨ (a ≠ n ∧ c ≠ n ∧ Waits log a c) := by
  by_cases han : a = n
  · exact .inl ⟨han, han ▸ hne⟩
  · rcases waits_cons.mp hw with ⟨ha, -⟩ | ⟨-, hc, hw⟩
    · exact absurd (Option.some_inj.mp (hsel.symm.trans ha)).symm han
    · refine .inr ⟨han, ?_, hw⟩
      rintro rfl
      exact hc hsel

/-- The next element is selected: nothing waits for its turn, and the order is kept. -/
lemma InOrder.pass (h0 : InOrder h log) (hturns : h.behind ++ h.before = n :: w)
    (hsel : e.selected = some n) (he : e.Lists h.pass) :
    (∀ c, c ≠ n → ¬ Waits log n c) ∧ InOrder h.pass (e :: log) := by
  obtain ⟨-, hpass, hring⟩ := Hand.pass_eq hturns
  have hold : h.turns = n :: (w ++ [h.current]) := by rw [Hand.turns, hturns, cons_append]
  have hnd := Hand.turns_nodup h0.nodup
  rw [hold] at hnd
  have hn : n ∈ h.ring := Hand.mem_turns.mp (by rw [hold]; exact mem_cons_self)
  have hbefore : ∀ {a c}, c ≠ n → c ≠ a → a ∈ h.ring → Waits log a c →
      [c, a].Sublist (w ++ [h.current]) := by
    intro a c hcn hne ha hw
    have hsub := h0.inside a c hne hw ha
    rw [hold, pair_sublist_cons] at hsub
    exact hsub.resolve_left fun heq => hcn heq.1
  refine ⟨fun c hcn hw => ?_, hring ▸ h0.nodup, fun a c hw => (he c).mp hw.present,
    fun a c hne hw ha => ?_, fun a c hw ha => ?_⟩
  · exact (nodup_cons.mp hnd).1 (mem_of_pair_sublist (hbefore hcn hcn hn hw)).2
  · rw [hring] at ha
    rw [hpass, pair_sublist_append]
    rcases waits_selected hsel hne hw with ⟨rfl, hcn⟩ | ⟨-, hcn, hw'⟩
    · have hc : c ∈ h.turns := Hand.mem_turns.mpr (hring ▸ (he c).mp hw.present)
      rw [hold] at hc
      exact .inr (.inl ⟨(mem_cons.mp hc).resolve_left hcn, by simp⟩)
    · exact .inl (hbefore hcn hne ha hw')
  · rw [hring] at ha
    have hc : c ∈ h.ring := hring ▸ (he c).mp hw.present
    have hne : c ≠ a := by
      rintro rfl
      exact ha hc
    rcases waits_selected hsel hne hw with ⟨rfl, -⟩ | ⟨-, hcn, hw'⟩
    · exact absurd hn ha
    · have hbehind := h0.outside a c hw' ha
      obtain ⟨before, current, behind⟩ := h
      cases behind with
      | nil => cases hbehind
      | cons d m =>
        obtain ⟨rfl, -⟩ := cons.inj hturns
        exact (mem_cons.mp hbehind).resolve_left hcn

/-- Nothing behind the element with the hand waits for one before it. -/
def Hand.Harmless (h : Hand α) (log : List (Event α)) : Prop :=
  ∀ a ∈ h.before, ∀ c ∈ h.behind, ¬ Waits log a c

lemma Hand.left_nodup (hnd : h.ring.Nodup) :
    (h.before ++ h.behind).Nodup ∧ h.current ∉ h.before ++ h.behind := by
  have hmid := nodup_middle.mp hnd
  exact ⟨(nodup_cons.mp hmid).2, (nodup_cons.mp hmid).1⟩

/-- The first element is selected when another one has left. -/
lemma InOrder.leave (h0 : InOrder h log) (hgood : h.Harmless log)
    (hring : h.before ++ h.behind = n :: w) (hsel : e.selected = some n) (he : e.Lists h.leave) :
    (∀ c, c ≠ n → ¬ Waits log n c) ∧ InOrder h.leave (e :: log) := by
  obtain ⟨hnd, hcur⟩ := Hand.left_nodup h0.nodup
  rw [hring] at hnd hcur
  have hmem : ∀ {a}, a ∈ n :: w → a ∈ h.ring := by
    intro a ha
    rw [← hring] at ha
    simp only [Hand.ring, mem_append, mem_cons] at ha ⊢
    tauto
  -- of the turns before the current one, those behind it and those before it are kept apart
  have hbefore : ∀ {a c}, c ≠ n → c ≠ a → a ∈ n :: w → Waits log a c → [c, a].Sublist w := by
    intro a c hcn hne ha hw
    have hac : a ∉ [h.current] := by
      rintro hac
      rw [mem_singleton.mp hac] at ha
      exact hcur ha
    have hsub := h0.inside a c hne hw (hmem ha)
    rw [Hand.turns, pair_sublist_append] at hsub
    have hsplit : [c, a].Sublist (h.behind ++ h.before) := by
      rcases hsub with hsub | ⟨-, hmem'⟩ | hsub
      · exact hsub
      · exact absurd hmem' hac
      · exact absurd (mem_of_pair_sublist hsub).2 hac
    have hjoined : [c, a].Sublist (n :: w) := by
      rw [← hring, pair_sublist_append]
      rcases pair_sublist_append.mp hsplit with hsub | ⟨hc, ha'⟩ | hsub
      · exact .inr (.inr hsub)
      · exact absurd hw (hgood a ha' c hc)
      · exact .inl hsub
    exact (pair_sublist_cons.mp hjoined).resolve_left fun heq => hcn heq.1
  rw [Hand.leave_eq hring] at he ⊢
  refine ⟨fun c hcn hw => ?_, hnd, fun a c hw => (he c).mp hw.present, fun a c hne hw ha => ?_,
    fun a c hw ha => ?_⟩
  · have hsub := hbefore hcn hcn mem_cons_self hw
    exact (nodup_cons.mp hnd).1 (mem_of_pair_sublist hsub).2
  · have hc : c ∈ n :: w := (he c).mp hw.present
    have hturns : (⟨[], n, w⟩ : Hand α).turns = w ++ [n] := by simp [Hand.turns]
    rw [hturns, pair_sublist_append]
    rcases waits_selected hsel hne hw with ⟨rfl, hcn⟩ | ⟨-, hcn, hw'⟩
    · exact .inr (.inl ⟨(mem_cons.mp hc).resolve_left hcn, by simp⟩)
    · exact .inl (hbefore hcn hne ha hw')
  · have hc : c ∈ n :: w := (he c).mp hw.present
    refine (mem_cons.mp hc).resolve_left ?_
    rintro rfl
    rcases waits_cons.mp hw with ⟨ha', -⟩ | ⟨-, hc', -⟩
    · cases hsel.symm.trans ha'
      exact ha mem_cons_self
    · exact hc' hsel

/-- If something behind the element that leaves waits for one before it, the order is lost. -/
lemma leave_breaks (hnd : h.ring.Nodup) (hbad : ¬ h.Harmless log)
    (hring : h.before ++ h.behind = n :: w) (hsel : e.selected = some n) (he : e.Lists h.leave)
    (hfair : RoundRobin (e :: log)) :
    ∃ a c, c ≠ a ∧ Waits (e :: log) a c ∧ a ∈ h.leave.ring ∧ ¬ [c, a].Sublist h.leave.turns := by
  simp only [Hand.Harmless, not_forall, not_not] at hbad
  obtain ⟨a, ha, c, hc, hw⟩ := hbad
  obtain ⟨hleft, -⟩ := Hand.left_nodup hnd
  have hdisj := disjoint_of_nodup_append hleft
  have hne : c ≠ a := by
    rintro rfl
    exact hdisj ha hc
  have hcring : c ∈ n :: w := hring ▸ mem_append_right _ hc
  rw [Hand.leave_eq hring] at he ⊢
  have hpresent : e.present c := (he c).mpr hcring
  have han : a ≠ n := by
    rintro rfl
    exact (roundRobin_cons.mp hfair).2 a c hsel hne hpresent hw
  obtain ⟨m, hbefore⟩ : ∃ m, h.before = n :: m := by
    cases hb : h.before with
    | nil =>
      rw [hb] at ha
      cases ha
    | cons d m =>
      rw [hb] at hring
      exact ⟨m, by rw [(cons.inj hring).1]⟩
  have hcn : c ≠ n := by
    rintro rfl
    exact hdisj (by rw [hbefore]; exact mem_cons_self) hc
  have hw' : Waits (e :: log) a c := by
    refine waits_cons.mpr (.inr ⟨hpresent, ?_, hw⟩)
    rw [hsel]
    exact fun heq => hcn (Option.some_inj.mp heq).symm
  obtain rfl : w = m ++ h.behind := by
    rw [hbefore] at hring
    exact (cons.inj hring).2.symm
  have ham : a ∈ m := (mem_cons.mp (hbefore ▸ ha)).resolve_left han
  refine ⟨a, c, hne, hw', mem_cons_of_mem _ (mem_append_left _ ham), ?_⟩
  have hturns : (⟨[], n, m ++ h.behind⟩ : Hand α).turns = m ++ h.behind ++ [n] := by
    simp [Hand.turns]
  rw [hturns, pair_sublist_append]
  rintro (hsub | ⟨-, ha'⟩ | hsub)
  · rw [hring] at hleft
    exact not_pair_sublist_of_nodup (nodup_cons.mp hleft).2 ham hc hsub
  · exact han (mem_singleton.mp ha')
  · exact han (mem_singleton.mp (mem_of_pair_sublist hsub).2)

end Base
