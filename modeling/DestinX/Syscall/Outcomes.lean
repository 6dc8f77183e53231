import DestinX.Syscall.Files

/-!
# What a call that returns has done

One lemma for each of the calls on files: the state behind a call that has returned, with what
the call has found. A call that goes wrong has no state behind it. Over whole runs, each
`FILE` of the disk has one descriptor.
-/

namespace DestinX.Syscall

open Base Fs Vm Function Option

universe u

variable {W : Type u} {D : Drivers W} {s s' s1 : SysState W} {f : File}
  {op : File → Nat → Nat → W → Option (W × Nat × Nat)} {body : Nat → File → Outcome W}
  {p fd a buf count ret flags fuel test : Nat}

/-! ## The three ends -/

@[simp]
lemma after_failed : (Outcome.failed ret).After s s' ↔ s' = s := by simp [Outcome.After]

@[simp]
lemma after_returned {file : Option Nat} :
    (Outcome.returned s1 ret file).After s s' ↔ s' = s1 := by simp [Outcome.After, eq_comm]

@[simp]
lemma not_after_fault {e : Fault} : ¬ (Outcome.fault e).After s s' := by simp [Outcome.After]

/-! ## The calls -/

/-- The call has gone ahead with the operation of the file. -/
lemma transferCall_operates (hentry : s.fdTable p fd = some a) (hf : s.files a = some f)
    (hmode : f.flags &&& test ≠ 0 ∨ f.flags &&& oRdwr ≠ 0)
    (h : (s.transferCall test op p fd buf count).After s s') :
    ∃ w position ret, op f buf count s.world = some (w, position, ret) ∧
      s' = { s.setFile a (some { f with position := position }) with world := w } := by
  rw [SysState.transferCall, SysState.index] at h
  split_ifs at h
  · simp only [hentry, SysState.deref, hf, if_pos hmode] at h
    cases hop : op f buf count s.world with
    | none => simp [hop] at h
    | some r =>
      rw [hop] at h
      exact ⟨r.1, r.2.1, r.2.2, rfl, after_returned.mp h⟩
  · simp at h

lemma transferCall_after (h : (s.transferCall test op p fd buf count).After s s') :
    s' = s ∨ ∃ a f w position ret, s.fdTable p fd = some a ∧ s.files a = some f ∧
      op f buf count s.world = some (w, position, ret) ∧
      s' = { s.setFile a (some { f with position := position }) with world := w } := by
  have hcall := h
  rw [SysState.transferCall, SysState.index] at h
  split_ifs at h
  · cases ha : s.fdTable p fd with
    | none => simp [ha, SysState.deref] at h
    | some a =>
      cases hf : s.files a with
      | none => simp [ha, SysState.deref, hf] at h
      | some f =>
        simp only [ha, SysState.deref, hf] at h
        split_ifs at h with hmode
        · obtain ⟨w, position, ret, hop, hs'⟩ := transferCall_operates ha hf hmode hcall
          exact .inr ⟨a, f, w, position, ret, rfl, hf, hop, hs'⟩
        · exact .inl (after_returned.mp h)
  · simp at h

/-- The common beginning leaves everything as it is, or the file of the descriptor is used. -/
lemma checked_after (h : (s.checked p fd body).After s s') :
    (s' = s ∧ (fd ≤ 2 ∨ maxFd ≤ fd ∨ s.fdTable p fd = none)) ∨
      ∃ a f, 3 ≤ fd ∧ fd < maxFd ∧ s.fdTable p fd = some a ∧ s.files a = some f ∧
        (body a f).After s s' := by
  rw [SysState.checked, SysState.index] at h
  split_ifs at h with hstd hlarge hfd hnone
  · exact .inl ⟨after_returned.mp h, .inl hstd⟩
  · exact .inl ⟨after_failed.mp h, .inr (.inl hlarge.le)⟩
  · exact .inl ⟨after_failed.mp h, .inr (.inr hnone)⟩
  · obtain ⟨a, ha⟩ := Option.ne_none_iff_exists'.mp hnone
    cases hf : s.files a with
    | none => simp [ha, SysState.deref, hf] at h
    | some f =>
      simp only [ha, SysState.deref, hf] at h
      exact .inr ⟨a, f, by omega, hfd, ha, hf, h⟩
  · simp at h

/-- `close` does nothing, or frees the file of an entry that `open` has made. -/
lemma close_after (h : (s.close p fd).After s s') :
    (s' = s ∧ (fd ≤ 2 ∨ maxFd ≤ fd ∨ s.fdTable p fd = none)) ∨
      ∃ a, 3 ≤ fd ∧ fd < maxFd ∧ s.fdTable p fd = some a ∧
        s' = (s.setFile a none).setEntry p fd none := by
  obtain hnothing | ⟨a, f, hstd, hfd, ha, -, hbody⟩ := checked_after h
  · exact .inl hnothing
  · cases hops : f.ops with
    | terminal =>
      rw [hops] at hbody
      exact absurd hbody not_after_fault
    | dfs =>
      rw [hops] at hbody
      exact .inr ⟨a, hstd, hfd, ha, after_returned.mp hbody⟩

lemma lseek_after {offset whence : Nat} (h : (s.lseek p fd offset whence).After s s') :
    s' = s ∨ ∃ a f position, s.files a = some f ∧
      s' = s.setFile a (some { f with position := position }) := by
  obtain ⟨rfl, -⟩ | ⟨a, f, -, -, -, hf, hbody⟩ := checked_after h
  · exact .inl rfl
  rcases whence with _ | _ | _ | n
  · exact .inr ⟨a, f, _, hf, after_returned.mp hbody⟩
  · exact .inr ⟨a, f, _, hf, after_returned.mp hbody⟩
  · simp only at hbody
    split at hbody
    · exact absurd hbody not_after_fault
    · exact .inr ⟨a, f, _, hf, after_returned.mp hbody⟩
  · exact .inl (after_failed.mp hbody)

lemma fsync_after (h : (s.fsync D p fd).After s s') :
    s' = s ∨ ∃ a f w ret, s.fdTable p fd = some a ∧ s.files a = some f ∧ f.ops = .dfs ∧
      D.sync f s.world = some (w, ret) ∧ s' = { s with world := w } := by
  obtain ⟨rfl, -⟩ | ⟨a, f, -, -, ha, hf, hbody⟩ := checked_after h
  · exact .inl rfl
  cases hops : f.ops with
  | terminal =>
    rw [hops] at hbody
    exact absurd hbody not_after_fault
  | dfs =>
    rw [hops] at hbody
    cases hsync : D.sync f s.world with
    | none =>
      rw [hsync] at hbody
      exact absurd hbody not_after_fault
    | some r =>
      rw [hsync] at hbody
      exact .inr ⟨a, f, r.1, r.2, ha, hf, hops, hsync, after_returned.mp hbody⟩

lemma open_after {fp : List UInt8} {block : Option Nat}
    (h : (s.open D p fp flags block).After s s') :
    s' = s ∨ ∃ a inode fd, block = some a ∧ D.lookup s.world fp = some inode ∧
      s' = (s.setEntry p fd (some a)).setFile a
        (some ⟨fp.take 255, .dfs, flags, 0, some inode⟩) := by
  rw [SysState.open] at h
  cases hfound : D.lookup s.world fp with
  | none =>
    rw [hfound] at h
    exact .inl (after_failed.mp h)
  | some inode =>
    rw [hfound] at h
    cases hfd : (List.range maxFd).find? fun i => (s.fdTable p i).isNone with
    | none =>
      rw [hfd] at h
      exact .inl (after_failed.mp h)
    | some fd =>
      rw [hfd] at h
      cases block with
      | none => exact absurd h not_after_fault
      | some a => exact .inr ⟨a, inode, fd, rfl, rfl, after_returned.mp h⟩

lemma mmap_after {block : Option (Nat × VmArea)} {call : MmapCall}
    (h : (s.mmap p fuel block call).After s s') : ∃ areas, s' = { s with areas := areas } := by
  obtain ⟨⟨ret, hout⟩, -⟩ | ⟨-, -, -, -, hout⟩ | ⟨-, -, entry, -, hout | ⟨l, ret, hout⟩⟩ :=
    mmap_cases s p fuel block call
  · rw [hout] at h
    exact ⟨s.areas, after_failed.mp h⟩
  · rw [hout] at h
    exact absurd h not_after_fault
  · rw [hout] at h
    exact absurd h not_after_fault
  · rw [hout] at h
    exact ⟨_, after_returned.mp h⟩

/-! ## Files and their descriptors -/

variable {act : Nat × Call} {fp : List UInt8} {block file : Option Nat}

/-- Every file of the disk that is in use is at an entry. -/
def Held (s : SysState W) : Prop :=
  ∀ a f, s.files a = some f → f.ops = .dfs → ∃ p fd, s.fdTable p fd = some a

lemma open_takes (h : s.open D p fp flags block = .returned s' fd file) :
    s.fdTable p fd = none ∧ ∃ a f, s' = (s.setEntry p fd (some a)).setFile a (some f) := by
  cases hfound : D.lookup s.world fp with
  | none => simp [SysState.open, hfound] at h
  | some inode =>
    cases hslot : (List.range maxFd).find? fun i => (s.fdTable p i).isNone with
    | none => simp [SysState.open, hfound, hslot] at h
    | some i =>
      cases block with
      | none => simp [SysState.open, hfound, hslot] at h
      | some a =>
        obtain ⟨rfl, rfl, -⟩ : _ ∧ i = fd ∧ _ := by simpa [SysState.open, hfound, hslot] using h
        exact ⟨by simpa using List.find?_some hslot, a, _, rfl⟩

section

variable (h : Held s)
include h

lemma Held.position (hf : s.files a = some f) (position : Nat) (w : W) :
    Held { s.setFile a (some { f with position := position }) with world := w } := by
  intro b g hg hops
  rcases update_eq_cases hg with ⟨rfl, heq⟩ | ⟨-, hold⟩
  · cases heq
    exact h b f hf hops
  · exact h b g hold hops

lemma Held.transfer (hafter : (s.transferCall test op p fd buf count).After s s') : Held s' := by
  obtain rfl | ⟨a, f, w, position, ret, -, hf, -, rfl⟩ := transferCall_after hafter
  · exact h
  · exact h.position hf position w

/-- One entry is written, for the file that comes or goes. -/
lemma Held.entry {e : Option Nat} {g : Option File} (hold : ∀ b, s.fdTable p fd = some b → b = a)
    (hnew : g ≠ none → e = some a) : Held ((s.setEntry p fd e).setFile a g) := by
  intro b f hf hops
  rcases update_eq_cases hf with ⟨rfl, heq⟩ | ⟨hne, hf⟩
  · exact ⟨p, fd, (setEntry_same s p fd e).trans (hnew (heq ▸ some_ne_none f))⟩
  · obtain ⟨p', fd', hentry⟩ := h b f hf hops
    refine ⟨p', fd', (setEntry_other s e fun heq => ?_).trans hentry⟩
    obtain ⟨rfl, rfl⟩ := Prod.mk.inj heq
    exact hne (hold b hentry)

lemma Held.step (hstep : (fileMachine D).step s act s') : Held s' := by
  obtain ⟨p, c⟩ := act
  obtain ⟨-, hafter⟩ := hstep
  cases c with
  | read fd buf count => exact h.transfer hafter
  | write fd buf count => exact h.transfer hafter
  | «open» fp flags block =>
    obtain ⟨ret, -, rfl⟩ | ⟨ret, file, hret⟩ := hafter
    · exact h
    · obtain ⟨hnone, a, f, rfl⟩ := open_takes hret
      refine h.entry (fun b hb => ?_) fun _ => rfl
      cases hnone.symm.trans hb
  | close fd =>
    obtain ⟨rfl, -⟩ | ⟨a, -, -, hentry, rfl⟩ := close_after hafter
    · exact h
    · exact h.entry (fun b hb => some.inj (hb.symm.trans hentry)) fun hne => absurd rfl hne
  | lseek fd offset whence =>
    obtain rfl | ⟨a, f, position, hf, rfl⟩ := lseek_after hafter
    · exact h
    · exact h.position hf position s.world
  | fsync fd =>
    obtain rfl | ⟨a, f, w, ret, -, -, -, -, rfl⟩ := fsync_after hafter <;> exact h
  | mmap fuel block call =>
    obtain ⟨areas, rfl⟩ := mmap_after hafter
    exact h

end

lemma held_start (h : (fileMachine D).start s) : Held s := by
  obtain ⟨stdin, stdout, -, hfiles⟩ := h
  intro a f hf hops
  rw [hfiles] at hf
  split_ifs at hf <;> cases hf <;> cases hops

/-- The files in use and the descriptors from 3 on belong to each other, one to one. -/
theorem files_held_once (run : (fileMachine D).Reached (fun _ _ => True) s) :
    (∀ a f, s.files a = some f → f.ops = .dfs →
      ∃! x : Nat × Nat, 3 ≤ x.2 ∧ s.fdTable x.1 x.2 = some a) ∧
    ∀ p fd a, 3 ≤ fd → s.fdTable p fd = some a → ∃ f, s.files a = some f ∧ f.ops = .dfs := by
  have hkept : TablesKept s :=
    run.invariant (fun _ hs => TablesKept.start hs) fun _ _ _ h _ hstep => h.step hstep
  have hheld : Held s := run.invariant (fun _ => held_start) fun _ _ _ h _ hstep => h.step hstep
  refine ⟨fun a f hf hops => ?_, fun p fd a hfd hentry => ?_⟩
  · obtain ⟨p, fd, hentry⟩ := hheld a f hf hops
    obtain ⟨g, hg, hkind⟩ := hkept.live p fd a hentry
    cases hf.symm.trans hg
    have hfd : ¬ fd ≤ 2 := by
      intro hle
      rw [if_pos hle, hops] at hkind
      cases hkind
    refine ⟨(p, fd), ⟨by omega, hentry⟩, fun x hx => ?_⟩
    obtain ⟨hp, hfd⟩ := hkept.apart p fd x.1 x.2 a hfd hentry hx.2
    exact Prod.ext hp hfd
  · obtain ⟨f, hf, hkind⟩ := hkept.live p fd a hentry
    rw [if_neg (by omega)] at hkind
    exact ⟨f, hf, hkind.1⟩

/-- Process 1 has opened a file. -/
theorem files_held_once_opened :
    let D := { noDrivers with lookup := fun _ _ => some ⟨3, 4096, 10, 1⟩ }
    ∃ s, newProcess.open D 1 [] oRdonly (some 0x3000) = .returned s 3 none ∧
      ∃! x : Nat × Nat, 3 ≤ x.2 ∧ s.fdTable x.1 x.2 = some 0x3000 := by
  intro D
  have hstart : (fileMachine D).start newProcess := ⟨0x1000, 0x2000, fun _ => rfl, fun _ => rfl⟩
  exact ⟨_, rfl, (files_held_once (.step (.start hstart) trivial (a := (1, _))
    ⟨newProcess_fresh _ _, .inr ⟨3, none, rfl⟩⟩)).1 _ _ rfl rfl⟩

end DestinX.Syscall
