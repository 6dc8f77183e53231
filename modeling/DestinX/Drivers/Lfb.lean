import DestinX.Base.Copy

/-!
# The framebuffer

`lfb_scroll` moves the buffer up by one line of text, with `memcpy` on ranges that overlap, and
clears the rest. The sizes are 32-bit values, and so is `size`, as `init_LFB` computes it.
`lfb_swap` copies the buffer to the video memory, with the vector registers in whole blocks only.
-/

namespace DestinX.Drivers

open Base Function

/-- The fields of `framebuffer_t` that scrolling uses. -/
structure Framebuffer where
  (buffer height pitch charHeight : Nat)

def Framebuffer.size (l : Framebuffer) : Nat := l.pitch * l.height % 2 ^ 32

def memset : Nat → Mem → Nat → UInt8 → Mem
  | 0, m, _, _ => m
  | n + 1, m, d, v => memset n (update m d v) (d + 1) v

def lfbScroll (l : Framebuffer) (m : Mem) : Mem :=
  let lineSize := l.pitch * l.charHeight % 2 ^ 32
  let moveSize := (l.size + 2 ^ 32 - lineSize) % 2 ^ 32
  memset lineSize (copyBytes moveSize m l.buffer (l.buffer + lineSize)) (l.buffer + moveSize) 0

/-- Every byte is the old one a line further on, and zero where there is none. -/
def Shifted (l : Framebuffer) (m m' : Mem) : Prop :=
  ∀ k < l.size, m' (l.buffer + k) = if k + l.pitch * l.charHeight < l.size then
    m (l.buffer + (k + l.pitch * l.charHeight)) else 0

/-- The line is not larger than the buffer, or the buffer is empty, or the two sizes are the
same in 32 bits. -/
def LineFits (l : Framebuffer) : Prop :=
  l.pitch * l.charHeight ≤ l.size ∨ l.size = 0 ∨ l.pitch * l.charHeight % 2 ^ 32 = l.size

variable {m : Mem} {n d s x : Nat} {v : UInt8} {l : Framebuffer}

lemma memset_apply : memset n m d v x = if d ≤ x ∧ x < d + n then v else m x := by
  induction n generalizing m d with
  | zero =>
    apply (if_neg _).symm
    omega
  | succ n ih =>
    rw [memset, ih]
    by_cases hx : x = d
    · rw [hx, if_neg (by omega), if_pos (by omega), update_self]
    · rw [update_of_ne hx]
      exact if_congr (by omega) rfl rfl

lemma copyBytes_apply (h : d ≤ s ∨ Apart d n s n) :
    copyBytes n m d s x = if d ≤ x ∧ x < d + n then m (s + (x - d)) else m x := by
  split_ifs with hx
  · exact copyBytes_inside h hx.1 hx.2
  · apply copyBytes_outside
    omega

lemma lfbScroll_byte (m : Mem) (k : Nat) : lfbScroll l m (l.buffer + k) =
    let lineSize := l.pitch * l.charHeight % 2 ^ 32
    let moveSize := (l.size + 2 ^ 32 - lineSize) % 2 ^ 32
    if moveSize ≤ k ∧ k < moveSize + lineSize then 0
    else if k < moveSize then m (l.buffer + (k + lineSize)) else m (l.buffer + k) := by
  simp only [lfbScroll, memset_apply, copyBytes_apply (.inl (Nat.le_add_right l.buffer _))]
  refine if_congr (by omega) rfl (if_congr (by omega) ?_ rfl)
  congr 1
  omega

lemma LineFits.shifted (h : LineFits l) (m : Mem) : Shifted l m (lfbScroll l m) := by
  intro k hk
  have hsize : l.size < 2 ^ 32 := Nat.mod_lt _ (by norm_num)
  rw [lfbScroll_byte]
  simp only [LineFits] at h ⊢
  generalize l.pitch * l.charHeight = line at h ⊢
  rcases h with hle | hnone | hsame
  · rw [Nat.mod_eq_of_lt (by omega : line < 2 ^ 32), show
      (l.size + 2 ^ 32 - line) % 2 ^ 32 = l.size - line by omega]
    by_cases hmoved : k + line < l.size
    · rw [if_neg (by omega), if_pos (by omega), if_pos hmoved]
    · rw [if_pos (by omega), if_neg hmoved]
  · omega
  · rw [hsame, if_pos (by omega), if_neg (by omega)]

/-- With a line that does not fit, bytes from behind the buffer are copied into it. -/
lemma not_shifted (h : ¬ LineFits l) : ¬ Shifted l (fun _ => 1) (lfbScroll l fun _ => 1) := by
  intro hall
  have hsize : l.size < 2 ^ 32 := Nat.mod_lt _ (by norm_num)
  simp only [LineFits, not_or, not_le] at h
  have hfirst := hall 0 (by omega)
  rw [lfbScroll_byte] at hfirst
  simp only at hfirst
  generalize l.pitch * l.charHeight = line at h hfirst
  rw [if_neg (by omega), if_pos (by omega), if_neg (by omega)] at hfirst
  cases hfirst

/-- `memcpy` copies correctly when the destination is not above the source or the ranges do not
meet. Scrolling shifts every content exactly when the line fits, and it does when there is a
line and the size has not wrapped around. -/
theorem lfb_scroll_shifts_iff (l : Framebuffer) :
    (∀ m n d s x, (d ≤ s ∨ Apart d n s n) →
      copyBytes n m d s x = if d ≤ x ∧ x < d + n then m (s + (x - d)) else m x) ∧
    ((∀ m, Shifted l m (lfbScroll l m)) ↔ LineFits l) ∧
    (l.charHeight ≤ l.height → l.pitch * l.height < 2 ^ 32 → LineFits l) := by
  refine ⟨fun m n d s x h => copyBytes_apply h, ⟨fun hall => ?_, fun h m => h.shifted m⟩, ?_⟩
  · by_contra hno
    exact not_shifted hno (hall _)
  · intro hheight hword
    left
    rw [Framebuffer.size, Nat.mod_eq_of_lt hword]
    exact Nat.mul_le_mul_left l.pitch hheight

/-- A mode whose size wraps around to 32 bytes. -/
theorem lfb_scroll_wrapped :
    16 ≤ 32 ∧ ∃ m, ¬ Shifted ⟨0, 32, 2 ^ 27 + 1, 16⟩ m (lfbScroll ⟨0, 32, 2 ^ 27 + 1, 16⟩ m) :=
  ⟨by decide, fun _ => 1, not_shifted (by simp [LineFits, Framebuffer.size])⟩

/-! ## Swapping -/

/-- The loop of the vector copies: eight registers are loaded before they are stored. -/
def blockLoop (block : Nat) : Nat → Mem → Nat → Nat → Mem
  | 0, m, _, _ => m
  | n + 1, m, d, s =>
    blockLoop block n (fun x => if d ≤ x ∧ x < d + block then m (s + (x - d)) else m x) (d + block)
      (s + block)

/-- Registers of `width` bytes. An address that is not aligned raises an exception. -/
def vectorMemcpy (width shift : Nat) (m : Mem) (d s count : Nat) : Option Mem :=
  if count >>> shift = 0 ∨ width ∣ d ∧ width ∣ s then
    some (blockLoop (8 * width) (count >>> shift) m d s)
  else none

def sseLfbMemcpy : Mem → Nat → Nat → Nat → Option Mem := vectorMemcpy 16 7

def avxLfbMemcpy : Mem → Nat → Nat → Nat → Option Mem := vectorMemcpy 32 8

def lfbSwap (sseAvx : Nat) (l : Framebuffer) (vram : Nat) (m : Mem) : Option Mem :=
  if sseAvx = 0 then some (copyBytes l.size m vram l.buffer)
  else if sseAvx = 1 then sseLfbMemcpy m vram l.buffer l.size
  else if sseAvx = 2 then avxLfbMemcpy m vram l.buffer l.size
  else some m

lemma blockLoop_eq {block : Nat} (h : Apart d (n * block) s (n * block)) :
    blockLoop block n m d s = copyBytes (n * block) m d s := by
  ext1 x
  rw [copyBytes_apply (.inr h)]
  induction n generalizing m d s with
  | zero =>
    rw [Nat.zero_mul]
    exact (if_neg (by omega)).symm
  | succ n ih =>
    rw [Nat.succ_mul] at h ⊢
    simp only [Apart] at h ih
    rw [blockLoop, ih (by omega)]
    generalize n * block = k at *
    by_cases hin : d + block ≤ x ∧ x < d + block + k
    · rw [if_pos hin, if_neg (by omega), if_pos (by omega)]
      congr 1
      omega
    · rw [if_neg hin]
      apply if_congr _ rfl rfl
      omega

/-- A shorter copy differs where the longer one goes on. -/
lemma copyBytes_eq_iff {k : Nat} (h : Apart d n s n) (hk : k ≤ n) :
    (∀ m, copyBytes k m d s = copyBytes n m d s) ↔ k = n := by
  refine ⟨fun hall => ?_, fun heq m => by rw [heq]⟩
  by_contra hne
  simp only [Apart] at h
  have hbyte := congrFun (hall fun x => if x = s + k then 1 else 0) (d + k)
  rw [copyBytes_outside (by omega), copyBytes_inside (.inr h) (by omega) (by omega),
    if_neg (by omega), if_pos (by omega)] at hbyte
  cases hbyte

lemma vectorMemcpy_eq_iff (width shift : Nat) {count : Nat} (hblock : 2 ^ shift = 8 * width)
    (h : Apart d count s count) (hd : width ∣ d) (hs : width ∣ s) :
    (∀ m, vectorMemcpy width shift m d s count = some (copyBytes count m d s)) ↔
      2 ^ shift ∣ count := by
  have hle : count / 2 ^ shift * 2 ^ shift ≤ count := Nat.div_mul_le_self _ _
  have happart : Apart d (count / 2 ^ shift * 2 ^ shift) s (count / 2 ^ shift * 2 ^ shift) := by
    simp only [Apart] at h ⊢
    omega
  have hcopy : ∀ m, vectorMemcpy width shift m d s count =
      some (copyBytes (count / 2 ^ shift * 2 ^ shift) m d s) := by
    intro m
    rw [vectorMemcpy, if_pos (.inr ⟨hd, hs⟩), ← hblock, Nat.shiftRight_eq_div_pow,
      blockLoop_eq happart]
  simp only [hcopy, Option.some_inj]
  rw [copyBytes_eq_iff h hle]
  exact (Nat.dvd_iff_div_mul_eq _ _).symm

/-- `memcpy` copies the whole buffer and nothing else. The vector copies leave the same exactly
when the size is a multiple of their block. -/
theorem lfb_swap_agrees_iff {vram : Nat} (hap : Apart vram l.size l.buffer l.size)
    (hd : 32 ∣ vram) (hs : 32 ∣ l.buffer) :
    (∀ m, lfbSwap 0 l vram m = some fun x =>
      if vram ≤ x ∧ x < vram + l.size then m (l.buffer + (x - vram)) else m x) ∧
    ((∀ m, lfbSwap 1 l vram m = lfbSwap 0 l vram m) ↔ 128 ∣ l.size) ∧
    ((∀ m, lfbSwap 2 l vram m = lfbSwap 0 l vram m) ↔ 256 ∣ l.size) := by
  have hhalf : 16 ∣ 32 := by decide
  refine ⟨fun m => ?_, ?_, ?_⟩
  · apply congrArg some
    ext1 x
    exact copyBytes_apply (.inr hap)
  · exact vectorMemcpy_eq_iff 16 7 rfl hap (hhalf.trans hd) (hhalf.trans hs)
  · exact vectorMemcpy_eq_iff 32 8 rfl hap hd hs

/-- A mode of one line with 256 bytes. -/
theorem lfb_swap_agrees_line :
    Apart 0x1000 256 0x2000 256 ∧ ∀ m,
      lfbSwap 2 ⟨0x2000, 1, 256, 16⟩ 0x1000 m = lfbSwap 0 ⟨0x2000, 1, 256, 16⟩ 0x1000 m := by
  have hap : Apart 0x1000 256 0x2000 256 := .inl (by decide)
  exact ⟨hap, (lfb_swap_agrees_iff hap (by decide) (by decide)).2.2.mpr (by decide)⟩

/-- With 1680 × 1050 pixels half a block is left over. -/
theorem lfb_swap_loses_pixels :
    ¬ ∀ m, lfbSwap 2 ⟨0xFFFFC00000000000, 1050, 6720, 16⟩ 0xFFFFFFFFC0000000 m =
      lfbSwap 0 ⟨0xFFFFC00000000000, 1050, 6720, 16⟩ 0xFFFFFFFFC0000000 m := by
  intro hall
  have hap : Apart 0xFFFFFFFFC0000000 7056000 0xFFFFC00000000000 7056000 := .inr (by decide)
  have hdvd := (vectorMemcpy_eq_iff 32 8 rfl hap (by decide) (by decide)).mp hall
  exact absurd hdvd (by decide)

end DestinX.Drivers
