import DestinX.Terminal.Kring

/-!
# The keyboard

`keyboard_handler` of `drivers/keyboard/keyboard.c` with the part of `kring.c` that keeps the
ring of input. The handler runs with interrupts off, so a call of `kring_write` from it is not
interrupted. What it does to the ring of output and to the screen is left out.
-/

namespace DestinX.Terminal

open Base Fs Function

/-- `read_kring` with its head and tail. -/
structure InputRing where
  slots : Nat → LogEntry
  (head tail : Nat)

def newline : UInt8 := 10

/-- What `check_for_n` looks for in a slot. -/
def LogEntry.isNewline (e : LogEntry) : Bool := e.c == newline && e.ready == 1

/-- The slots hold a newline that is not read. -/
def InputRing.Unread (r : InputRing) : Prop := ∃ i < kringBufMax, (r.slots i).isNewline

/-- The loop of `kring_write`. -/
def storeAll (slots : Nat → LogEntry) (pos : Nat) : List UInt8 → Nat → LogEntry
  | [] => slots
  | c :: s => storeAll (update slots (slotOf pos) ⟨c, 1⟩) (pos + 1) s

/-- `kring_write(s, len, 0)` -/
def kringWrite (r : InputRing) (s : List UInt8) : InputRing :=
  if s.length = 0 then r
  else
    { r with
      slots := storeAll r.slots r.head (s.take kringBufMax)
      head := add64 r.head (min s.length kringBufMax) }

/-- One round of the loop of `kring_flush_to_rbuf`. -/
def InputRing.readNext (r : InputRing) : UInt8 × InputRing :=
  let e := r.slots (slotOf r.tail)
  (e.c, { r with
    slots := update r.slots (slotOf r.tail) { e with ready := 0 }
    tail := add64 r.tail 1 })

/-- Backspace: the tail goes along when the ring is empty. -/
def InputRing.dropLast (r : InputRing) : InputRing :=
  { r with
    head := sub64 r.head 1
    tail := if r.tail = r.head then sub64 r.tail 1 else r.tail }

/-! ## Keys -/

def lowercase : List String :=
  ["UNKNOWN", "ESC", "1", "2", "3", "4", "5", "6", "7", "8", "9", "0", "-", "=", "\x08", "\t",
    "q", "w", "e", "r", "t", "y", "u", "i", "o", "p", "[", "]", "\n", "CTRL", "a", "s", "d", "f",
    "g", "h", "j", "k", "l", ";", "\"", "`", "LSHFT", "\\", "z", "x", "c", "v", "b", "n", "m",
    ",", ".", "/", "RSHFT", "*", "ALT", " ", "CAPS", "F1", "F2", "F3", "F4", "F5", "F6", "F7",
    "F8", "F9", "F10", "NUMLCK", "SCRLCK", "HOME", "UP", "PGUP", "-", "LEFT", "UNKNOWN", "RIGHT",
    "+", "END", "DOWN", "PGDOWN", "INS", "DEL", "UNKNOWN", "UNKNOWN", "UNKNOWN", "F11", "F12"] ++
  List.replicate 39 "UNKNOWN"

def uppercase : List String :=
  ["UNKNOWN", "ESC", "!", "@", "#", "$", "%", "^", "&", "*", "(", ")", "_", "+", "\x08", "\t",
    "Q", "W", "E", "R", "T", "Y", "U", "I", "O", "P", "\x7b", "\x7d", "\n", "CTRL", "A", "S", "D",
    "F", "G", "H", "J", "K", "L", ":", "\"", "~", "LSHFT", "|", "Z", "X", "C", "V", "B", "N", "M",
    "<", ">", "?", "RSHFT", "*", "ALT", " ", "CAPS", "F1", "F2", "F3", "F4", "F5", "F6", "F7",
    "F8", "F9", "F10", "NUMLCK", "SCRLCK", "HOME", "UP", "PGUP", "-", "LEFT", "UNKNOWN", "RIGHT",
    "+", "END", "DOWN", "PGDOWN", "INS", "DEL", "UNKNOWN", "UNKNOWN", "UNKNOWN", "F11", "F12"] ++
  List.replicate 39 "UNKNOWN"

/-- The entries of `extended` that are not empty. -/
def extended : Nat → String
  | 28 => "Keypad Enter"
  | 29 => "RCtrl"
  | 53 => "Keypad /"
  | 56 => "RAlt"
  | 71 => "Home"
  | 72 => "Up Arrow"
  | 73 => "Page Up"
  | 75 => "Left Arrow"
  | 77 => "Right Arrow"
  | 79 => "End"
  | 80 => "Down Arrow"
  | 81 => "Page Down"
  | 82 => "Insert"
  | 83 => "Delete"
  | 91 => "Left Super"
  | 92 => "Right Super"
  | 93 => "Apps/Menu"
  | 94 => "Power"
  | 95 => "Sleep"
  | 99 => "Wake"
  | _ => ""

/-- The characters of a text without its terminator. -/
def chars (s : String) : List UInt8 := s.toList.map fun c => c.toNat.toUInt8

structure Keyboard where
  (shift capslock ext : Bool)
  read : InputRing

def scanCode (rawCode : UInt8) : Nat := rawCode.toNat &&& 0x7F

/-- The variable `press` of the source, which is set when a key is released. -/
def press (rawCode : UInt8) : Bool := rawCode.toNat &&& 0x80 != 0

/-- The keys for which the handler does nothing. -/
def silentKeys : List Nat := [1, 29, 56, 59, 60, 61, 62, 63, 64, 65, 66, 67, 68, 87, 88]

/-- What a key of the last case writes. -/
def keyText (k : Keyboard) (code : Nat) : List UInt8 :=
  if k.ext then chars (extended code)
  else if k.shift = k.capslock then chars (lowercase.getD code "")
  else chars (uppercase.getD code "")

/-- `keyboard_handler`, up to the wake-up of the thread that waits for Enter. -/
def keyboardHandler (k : Keyboard) (rawCode : UInt8) : Keyboard :=
  if rawCode = 0xE0 then { k with ext := true }
  else if scanCode rawCode ∈ silentKeys then k
  else if scanCode rawCode = 14 then
    if press rawCode then k else { k with read := k.read.dropLast }
  else if scanCode rawCode = 28 then
    if press rawCode then k else { k with read := kringWrite k.read [newline] }
  else if scanCode rawCode = 42 then { k with shift := !press rawCode }
  else if scanCode rawCode = 58 then
    if press rawCode then { k with capslock := !k.capslock } else k
  else if press rawCode then k
  else { k with ext := false, read := kringWrite k.read (keyText k (scanCode rawCode)) }

/-- The code is that of Enter going down, on either keypad. -/
def PressesEnter (rawCode : UInt8) : Prop := scanCode rawCode = 28 ∧ press rawCode = false

instance (rawCode : UInt8) : Decidable (PressesEnter rawCode) :=
  inferInstanceAs (Decidable (_ ∧ _))

/-! ## Newlines -/

variable {r : InputRing} {k : Keyboard} {s : List UInt8} {slots : Nat → LogEntry} {i pos : Nat}
  {rawCode : UInt8}

/-- Text without a newline brings no newline into a slot. -/
lemma storeAll_isNewline (hs : newline ∉ s) (h : (storeAll slots pos s i).isNewline) :
    (slots i).isNewline := by
  induction s generalizing slots pos with
  | nil => exact h
  | cons c s ih =>
    rw [List.mem_cons, not_or] at hs
    have hold := ih hs.2 h
    by_cases hi : i = slotOf pos
    · subst hi
      rw [update_self, LogEntry.isNewline, Bool.and_eq_true, beq_iff_eq] at hold
      exact absurd hold.1.symm hs.1
    · rwa [update_of_ne hi] at hold

lemma kringWrite_isNewline (hs : newline ∉ s) (h : ((kringWrite r s).slots i).isNewline) :
    (r.slots i).isNewline := by
  rw [kringWrite] at h
  split at h
  · exact h
  · exact storeAll_isNewline (fun hmem => hs (List.mem_of_mem_take hmem)) h

lemma scanCode_lt (rawCode : UInt8) : scanCode rawCode < 128 :=
  Nat.and_lt_two_pow rawCode.toNat (by decide : 0x7F < 2 ^ 7)

lemma lowercase_newline : ∀ code < 128, code ≠ 28 → newline ∉ chars (lowercase.getD code "") := by
  decide +kernel

lemma uppercase_newline : ∀ code < 128, code ≠ 28 → newline ∉ chars (uppercase.getD code "") := by
  decide +kernel

lemma extended_newline : ∀ code < 128, newline ∉ chars (extended code) := by decide +kernel

lemma keyText_newline (hcode : scanCode rawCode ≠ 28) :
    newline ∉ keyText k (scanCode rawCode) := by
  have hlt := scanCode_lt rawCode
  rw [keyText]
  split_ifs
  · exact extended_newline _ hlt
  · exact lowercase_newline _ hlt hcode
  · exact uppercase_newline _ hlt hcode

/-- Only Enter brings a newline into a slot. -/
lemma keyboardHandler_isNewline (henter : ¬ PressesEnter rawCode)
    (h : ((keyboardHandler k rawCode).read.slots i).isNewline) : (k.read.slots i).isNewline := by
  rw [keyboardHandler] at h
  split_ifs at h with hext hsilent hback hup hcode hup hshift hcaps hdown hup
  · exact h
  · exact h
  · exact h
  · exact h
  · exact h
  · exact absurd ⟨hcode, Bool.eq_false_iff.mpr hup⟩ henter
  · exact h
  · exact h
  · exact h
  · exact h
  · exact kringWrite_isNewline (keyText_newline hcode) h

end DestinX.Terminal
