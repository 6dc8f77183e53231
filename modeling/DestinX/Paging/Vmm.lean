import DestinX.Base.Memory

/-!
# Page tables

The functions of `mm/vmm.c` that build and change the page tables of one address space, and the
part of `create_user_process` that sets up a new one. The kernel reaches every table through the
direct map, so memory here is physical memory. `pmm_alloc_page` takes the next frame of a supply
and returns zero when it is empty. The other side of the tables is the address translation of
the processor, `walk`.
-/

namespace DestinX.Paging

open Base

def pageSize4KB : Nat := 0x1000
def pageSize2MB : Nat := 0x200000

/-- `PAGE_MASK_4KB`: the complement of an `int`, sign-extended to 64 bits. -/
def pageMask4KB : Nat := 2 ^ 64 - pageSize4KB

def ptePresent : Nat := 2 ^ 0
def pteWritable : Nat := 2 ^ 1
def pteUser : Nat := 2 ^ 2
def pteWT : Nat := 2 ^ 3
def pteCD : Nat := 2 ^ 4
def ptePageSize : Nat := 2 ^ 7

/-- The word `table[i]`. -/
def entry (m : Mem) (table i : Nat) : Nat := load64 m (table + 8 * i)

def setEntry (m : Mem) (table i e : Nat) : Mem := store64 m (table + 8 * i) e

/-- `memset(table, 0, PAGE_SIZE_4KB)`. -/
def clearTable (m : Mem) (table : Nat) : Mem := fun x =>
  if table ≤ x ∧ x < table + pageSize4KB then 0 else m x

def pmmAllocPage : List Nat → Nat × List Nat
  | [] => (0, [])
  | f :: frames => (f, frames)

def pml4Index (vaddr : Nat) : Nat := vaddr >>> 39 &&& 0x1FF
def pdptIndex (vaddr : Nat) : Nat := vaddr >>> 30 &&& 0x1FF
def pdIndex (vaddr : Nat) : Nat := vaddr >>> 21 &&& 0x1FF
def ptIndex (vaddr : Nat) : Nat := vaddr >>> 12 &&& 0x1FF

/-- One level of `vmm_map_page`, the same code for the PML4, the page directory
pointer table and the page directory: make sure that `table[i]` is present and,
for user mappings, open to user mode, and return the table behind it. -/
def vmmEnsure (m : Mem) (frames : List Nat) (table i flags : Nat) : Mem × List Nat × Nat :=
  if entry m table i &&& ptePresent = 0 then
    let r := pmmAllocPage frames
    let m₁ := clearTable m r.1
    let m₂ :=
      if flags &&& pteUser = 0 then setEntry m₁ table i (r.1 ||| (ptePresent ||| pteWritable))
      else setEntry m₁ table i (r.1 ||| (ptePresent ||| pteWritable ||| pteUser))
    (m₂, r.2, entry m₂ table i &&& pageMask4KB)
  else
    let m₁ :=
      if flags &&& pteUser = 0 then m else setEntry m table i (entry m table i ||| pteUser)
    (m₁, frames, entry m₁ table i &&& pageMask4KB)

/-- `vmm_map_page`: the memory afterwards and the frames that are left. Page
sizes other than 4 KiB and 2 MiB are reported and change nothing more. -/
def vmmMapPage (m : Mem) (frames : List Nat) (pml4 paddr vaddr ps flags : Nat) : Mem × List Nat :=
  let r₄ := vmmEnsure m frames pml4 (pml4Index vaddr) flags
  let r₃ := vmmEnsure r₄.1 r₄.2.1 r₄.2.2 (pdptIndex vaddr) flags
  if ps = pageSize4KB then
    let r₂ := vmmEnsure r₃.1 r₃.2.1 r₃.2.2 (pdIndex vaddr) flags
    (setEntry r₂.1 r₂.2.2 (ptIndex vaddr) (paddr ||| (ptePresent ||| flags)), r₂.2.1)
  else if ps = pageSize2MB then
    (setEntry r₃.1 r₃.2.2 (pdIndex vaddr) (paddr ||| (ptePresent ||| ptePageSize ||| flags)),
      r₃.2.1)
  else (r₃.1, r₃.2.1)

/-- The call of `pmm_alloc_page` at `table[i]`, if there is one, finds a frame. -/
def Supplied (m : Mem) (frames : List Nat) (table i : Nat) : Prop :=
  entry m table i &&& ptePresent = 0 → frames ≠ []

/-- Every call of `pmm_alloc_page` in `vmm_map_page` of a 4 KiB page finds a frame. -/
def MapSupplied (m : Mem) (frames : List Nat) (pml4 vaddr flags : Nat) : Prop :=
  let r₄ := vmmEnsure m frames pml4 (pml4Index vaddr) flags
  let r₃ := vmmEnsure r₄.1 r₄.2.1 r₄.2.2 (pdptIndex vaddr) flags
  Supplied m frames pml4 (pml4Index vaddr) ∧ Supplied r₄.1 r₄.2.1 r₄.2.2 (pdptIndex vaddr) ∧
    Supplied r₃.1 r₃.2.1 r₃.2.2 (pdIndex vaddr)

/-- `vmm_get_entry`: the table and the index of the entry that maps `vaddr`, and
the value stored to `*level`. The last table is not checked for a present entry. -/
def vmmGetEntry (m : Mem) (pml4 vaddr : Nat) : Option (Nat × Nat × Nat) :=
  let e₄ := entry m pml4 (pml4Index vaddr)
  if e₄ &&& ptePresent = 0 then none
  else if e₄ &&& ptePageSize = 0 then
    let pdpt := e₄ &&& pageMask4KB
    let e₃ := entry m pdpt (pdptIndex vaddr)
    if e₃ &&& ptePresent = 0 then none
    else if e₃ &&& ptePageSize = 0 then
      let pd := e₃ &&& pageMask4KB
      let e₂ := entry m pd (pdIndex vaddr)
      if e₂ &&& ptePresent = 0 then none
      else if e₂ &&& ptePageSize = 0 then some (e₂ &&& pageMask4KB, ptIndex vaddr, 0)
      else some (pd, pdIndex vaddr, 2)
    else some (pdpt, pdptIndex vaddr, 2)
  else some (pml4, pml4Index vaddr, 3)

/-- `vmm_unmap_page`. -/
def vmmUnmapPage (m : Mem) (pml4 vaddr : Nat) : Mem × Nat :=
  match vmmGetEntry m pml4 vaddr with
  | some (table, i, _) => (setEntry m table i 0, entry m table i &&& pageMask4KB)
  | none => (m, 0)

/-- The address space that `create_user_process` starts from: the lower half of
the new PML4 is cleared, the upper half copied from the running one. -/
def newAddressSpace (m : Mem) (oldPml4 pml4 : Nat) : Mem :=
  let cleared := (List.range 256).foldl (fun m i => setEntry m pml4 i 0) m
  (List.range' 256 256).foldl (fun m i => setEntry m pml4 i (entry m oldPml4 i)) cleared

/-! ## Address translation of the processor -/

structure Translation where
  phys : Nat
  (writable user : Bool)
  deriving DecidableEq, Repr

/-- Bits 51 to 12 of an entry. -/
def pteTarget (e : Nat) : Nat := e / 2 ^ 12 % 2 ^ 40 * 2 ^ 12

/-- The walk from a table of level `l + 1`. An entry with the page-size bit ends
the walk in levels 3 and 2 and is reserved in level 4. Access rights are those
that all entries on the way grant. -/
def walkFrom (m : Mem) (vaddr : Nat) : Nat → Nat → Bool → Bool → Option Translation
  | 0, _, _, _ => none
  | l + 1, table, writable, user =>
    let e := entry m table (vaddr / 2 ^ (12 + 9 * l) % 512)
    let writable' := writable && e.testBit 1
    let user' := user && e.testBit 2
    if e.testBit 0 = false then none
    else if l = 0 then some ⟨pteTarget e + vaddr % 2 ^ 12, writable', user'⟩
    else if e.testBit 7 then
      if l = 3 then none
      else some ⟨pteTarget e / 2 ^ (12 + 9 * l) * 2 ^ (12 + 9 * l) + vaddr % 2 ^ (12 + 9 * l),
        writable', user'⟩
    else walkFrom m vaddr l (pteTarget e) writable' user'

/-- The four-level walk of the tables behind `pml4`. -/
def walk (m : Mem) (pml4 vaddr : Nat) : Option Translation :=
  walkFrom m vaddr 4 pml4 true true

end DestinX.Paging
