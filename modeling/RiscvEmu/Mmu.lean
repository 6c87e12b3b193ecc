import RiscvEmu.Basic
import RiscvEmu.Foundation.Paging

/-!
# Guest memory management

`mmu.c`: loading the segments of an ELF file and moving the break. The host
process is an address space and the system calls it has made; `mmapFile`,
`mmapAnon` and `munmap` are the calls the source makes, with `MAP_FIXED`. They
act on whole pages and fail on the arguments for which the system refuses them:
an empty range, an address or offset that is not a multiple of the page size,
a range past the end of the address space.

A guest address is mapped at the host address `TO_HOST` of it.
-/

set_option autoImplicit false

namespace RiscvEmu

open Alignment Paging

/-- `GUEST_MEMORY_OFFSET`. -/
def guestMemoryOffset : U64 := 0x088800000000

/-- `TO_HOST`. -/
def toHost (addr : U64) : U64 := addr + guestMemoryOffset

/-- `TO_GUEST`. -/
def toGuest (addr : U64) : U64 := addr - guestMemoryOffset

/-! ## The host process -/

/-- The system calls on the address space, with the protection requested. -/
inductive Syscall where
  | mapFile (addr len : U64) (prot : U32) (offset : U64)
  | mapAnon (addr len : U64) (prot : U32)
  | unmap (addr len : U64)

/-- The address space of the host and its system calls, newest first. -/
structure Host where
  mem : Space
  calls : List Syscall

section Calls

variable (page : PageSize)

/-- The bytes of the pages that a length needs. -/
def pagesOf (len : U64) : Nat := ceil len.toNat page.bytes

/-- The system accepts the range: it is not empty, starts at a page, and ends before
the end of the address space. -/
def Accepts (addr len : U64) : Prop :=
  len ≠ 0 ∧ page.bytes ∣ addr.toNat ∧ addr.toNat + pagesOf page len < 2 ^ 64

instance (addr len : U64) : Decidable (Accepts page addr len) :=
  inferInstanceAs (Decidable (_ ∧ _ ∧ _))

/-- A byte of a file mapping: past the end of the file the last page is filled
with zeros, and the pages after it cannot be accessed. -/
def fileByte (file : List U8) (position : Nat) : Option U8 :=
  if position < ceil file.length page.bytes then some ((file[position]?).getD 0) else none

/-- `mmap` of a file with `MAP_PRIVATE | MAP_FIXED`; `none` is `MAP_FAILED`. -/
def mmapFile (host : Host) (file : List U8) (addr len : U64) (prot : U32) (offset : U64) :
    Option Host :=
  if Accepts page addr len ∧ page.bytes ∣ offset.toNat then
    some { mem := host.mem.map addr (pagesOf page len) fun d => fileByte page file (offset.toNat + d)
           calls := .mapFile addr len prot offset :: host.calls }
  else none

/-- `mmap` with `MAP_PRIVATE | MAP_ANONYMOUS | MAP_FIXED`. -/
def mmapAnon (host : Host) (addr len : U64) (prot : U32) : Option Host :=
  if Accepts page addr len then
    some { mem := host.mem.map addr (pagesOf page len) fun _ => some 0
           calls := .mapAnon addr len prot :: host.calls }
  else none

/-- `munmap`. -/
def munmap (host : Host) (addr len : U64) : Option Host :=
  if Accepts page addr len then
    some { mem := host.mem.unmap addr (pagesOf page len)
           calls := .unmap addr len :: host.calls }
  else none

theorem mmapAnon_of_accepts {host : Host} {addr len : U64} {prot : U32}
    (accepts : Accepts page addr len) : mmapAnon page host addr len prot = some
      { mem := host.mem.map addr (pagesOf page len) fun _ => some 0
        calls := .mapAnon addr len prot :: host.calls } :=
  if_pos accepts

theorem munmap_of_accepts {host : Host} {addr len : U64} (accepts : Accepts page addr len) :
    munmap page host addr len = some
      { mem := host.mem.unmap addr (pagesOf page len)
        calls := .unmap addr len :: host.calls } :=
  if_pos accepts

section Accepted

variable {page} {host host' : Host} {file : List U8} {addr len offset : U64} {prot : U32}

theorem mmapFile_ok (called : mmapFile page host file addr len prot offset = some host') :
    Accepts page addr len ∧
      host'.mem = host.mem.map addr (pagesOf page len)
        (fun d => fileByte page file (offset.toNat + d)) ∧
      host'.calls = .mapFile addr len prot offset :: host.calls := by
  rw [mmapFile] at called
  split at called
  · next accepted => cases called; exact ⟨accepted.1, rfl, rfl⟩
  · cases called

theorem mmapAnon_ok (called : mmapAnon page host addr len prot = some host') :
    Accepts page addr len ∧
      host'.mem = host.mem.map addr (pagesOf page len) (fun _ => some 0) ∧
      host'.calls = .mapAnon addr len prot :: host.calls := by
  rw [mmapAnon] at called
  split at called
  · next accepted => cases called; exact ⟨accepted, rfl, rfl⟩
  · cases called

theorem munmap_ok (called : munmap page host addr len = some host') :
    Accepts page addr len ∧
      host'.mem = host.mem.unmap addr (pagesOf page len) ∧
      host'.calls = .unmap addr len :: host.calls := by
  rw [munmap] at called
  split at called
  · next accepted => cases called; exact ⟨accepted, rfl, rfl⟩
  · cases called

end Accepted

end Calls

/-- `PROT_READ`, `PROT_WRITE` and `PROT_EXEC`. -/
def protRead : U32 := 1
def protWrite : U32 := 2
def protExec : U32 := 4

/-- `flags_to_mmap_prot`. -/
def flagsToMmapProt (flags : U32) : U32 :=
  (if flags &&& 4 ≠ 0 then protRead else 0) |||
  (if flags &&& 2 ≠ 0 then protWrite else 0) |||
  (if flags &&& 1 ≠ 0 then protExec else 0)

/-- A system call whose failure ends the process. -/
def orAbort (called : Option Host) (abort : Abort) : Except Abort Host :=
  match called with
  | some host => .ok host
  | none => .error abort

theorem orAbort_ok {called : Option Host} {abort : Abort} {host : Host} :
    orAbort called abort = .ok host ↔ called = some host := by
  cases called <;> simp [orAbort]

/-! ## ELF headers -/

/-- The bytes of a file by position. -/
def fileView (file : List U8) : Bytes.Memory := fun x => (file[x.toNat]?).getD 0

/-- The fields of `elf64_ehdr_t` that the loader reads. -/
structure Ehdr where
  entry : U64
  phoff : U64
  phentsize : U16
  phnum : U16

/-- The fields of `elf64_phdr_t` that the loader reads. -/
structure Phdr where
  type : U32
  flags : U32
  offset : U64
  vaddr : U64
  filesz : U64
  memsz : U64

/-- `PT_LOAD`. -/
def ptLoad : U32 := 1

/-- The part of `mmu_load_elf` that reads and checks the file header. -/
def readEhdr (file : List U8) : Except Abort Ehdr :=
  let view := fileView file
  if file.length < 64 then .error (.fatal "file too small!")
  else if Bytes.load view 0 32 ≠ 0x464c457f then .error (.fatal "not an ELF file!")
  else if Bytes.load view 18 16 ≠ 243 ∨ view 4 ≠ 2 then
    .error (.fatal "only support 64-bit RISC-V ELF file!")
  else .ok {
    entry := Bytes.load view 24 64
    phoff := Bytes.load view 32 64
    phentsize := Bytes.load view 54 16
    phnum := Bytes.load view 56 16 }

/-- `load_phdr`. The position is a `long` for `fseek`, which refuses a negative one. -/
def loadPhdr (ehdr : Ehdr) (i : Nat) (file : List U8) : Except Abort Phdr :=
  let view := fileView file
  let position := ehdr.phoff + BitVec.ofNat 64 (i * ehdr.phentsize.toNat)
  if position.msb then .error (.fatal "seek file failed!")
  else if file.length < position.toNat + 56 then .error (.fatal "file too small")
  else .ok {
    type := Bytes.load view position 32
    flags := Bytes.load view (position + 4) 32
    offset := Bytes.load view (position + 8) 64
    vaddr := Bytes.load view (position + 16) 64
    filesz := Bytes.load view (position + 32) 64
    memsz := Bytes.load view (position + 40) 64 }

/-! ## Loading -/

/-- `mmu_t`. -/
structure Mmu where
  entry : U64 := 0
  hostAlloc : U64 := 0
  alloc : U64 := 0
  base : U64 := 0

/-- `MAX`. -/
def cmax (x y : U64) : U64 := if y < x then x else y

/-- The part of `mmu_load_segment` after `.bss section`: pages that hold no file bytes. -/
def mapRemainingBss (page : PageSize) (host : Host) (addr remainingBss : U64) (prot : U32) :
    Except Abort Host :=
  if remainingBss > 0 then
    orAbort (mmapAnon page host addr remainingBss prot)
      (.assertion "addr == aligned_vaddr + ROUNDUP(filesz, page_size)")
  else .ok host

/-- `mmu_load_segment`. -/
def mmuLoadSegment (page : PageSize) (file : List U8) (state : Mmu × Host) (phdr : Phdr) :
    Except Abort (Mmu × Host) := do
  let (mmu, host) := state
  let vaddr := toHost phdr.vaddr
  let alignedVaddr := down vaddr page.word
  let filesz := phdr.filesz + (vaddr - alignedVaddr)
  let memsz := phdr.memsz + (vaddr - alignedVaddr)
  let prot := flagsToMmapProt phdr.flags
  let host ← orAbort
    (mmapFile page host file alignedVaddr filesz prot (down phdr.offset page.word))
    (.assertion "addr == aligned_vaddr")
  let remainingBss := up memsz page.word - up filesz page.word
  let host ← mapRemainingBss page host (alignedVaddr + up filesz page.word) remainingBss prot
  let hostAlloc := cmax mmu.hostAlloc (alignedVaddr + up memsz page.word)
  return ({ mmu with hostAlloc := hostAlloc, base := toGuest hostAlloc, alloc := toGuest hostAlloc },
    host)

/-- One round of the loop of `mmu_load_elf`. -/
def mmuLoadRound (page : PageSize) (file : List U8) (ehdr : Ehdr) (state : Mmu × Host) (i : Nat) :
    Except Abort (Mmu × Host) := do
  let phdr ← loadPhdr ehdr i file
  if phdr.type = ptLoad then mmuLoadSegment page file state phdr else return state

/-- `mmu_load_elf`. -/
def mmuLoadElf (page : PageSize) (file : List U8) (mmu : Mmu) (host : Host) :
    Except Abort (Mmu × Host) := do
  let ehdr ← readEhdr file
  (List.range ehdr.phnum.toNat).foldlM (mmuLoadRound page file ehdr)
    ({ mmu with entry := ehdr.entry }, host)

/-! ## The break -/

/-- `mmu_alloc`: the break before the call, and the new state. -/
def mmuAlloc (page : PageSize) (mmu : Mmu) (host : Host) (size : U64) :
    Except Abort (U64 × Mmu × Host) := do
  let base := mmu.alloc
  cassert (base ≥ mmu.base) "base >= mmu->base"
  let alloc := mmu.alloc + size
  cassert (alloc ≥ mmu.base) "mmu->alloc >= mmu->base"
  let mmu := { mmu with alloc := alloc }
  if (0 : U64).slt size ∧ alloc > toGuest mmu.hostAlloc then
    let len := up (alloc - toGuest mmu.hostAlloc) page.word
    let host ← orAbort (mmapAnon page host mmu.hostAlloc len (protRead ||| protWrite))
      (.fatal "mmap failed!")
    return (base, { mmu with hostAlloc := mmu.hostAlloc + len }, host)
  else if size.slt 0 ∧ up alloc page.word < toGuest mmu.hostAlloc then
    let len := toGuest mmu.hostAlloc - up alloc page.word
    let host ← orAbort (munmap page host (toHost (up alloc page.word)) len)
      (.fatal "strerror(errno)")
    return (base, { mmu with hostAlloc := mmu.hostAlloc - len }, host)
  else return (base, mmu, host)

end RiscvEmu
