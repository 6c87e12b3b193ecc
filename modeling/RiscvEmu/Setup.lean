import RiscvEmu.Break

/-!
# Setting up a program and moving its break

`machine_setup` and `sys_brk`. Setting up allocates the stack, then a block for each
argument string, last argument first, while the pointers to them are pushed on the
stack; at the end the whole frame is moved down when the stack pointer is not aligned.

The memory of the guest is that of the host process: `mmu_write` and `memmove` access
the host address of a guest address, and die on one that is not mapped.

`Grown` describes the break during setup: it only moves up, and the pages it gets
follow one another and are zero (`Grown.step`).
-/

set_option autoImplicit false

namespace RiscvEmu

open Alignment Paging

/-! ## Arguments -/

/-- A C string. The terminator is not among its bytes. -/
structure CString where
  bytes : List U8
  nonzero : ∀ b ∈ bytes, b ≠ 0

/-- The bytes that a string occupies. -/
def CString.size (s : CString) : Nat := s.bytes.length + 1

/-- `argv[1]`, `argv[2]` and so on. The strings that a process is started with are
parts of one object. -/
structure Argv where
  strings : List CString
  bounded : (strings.map CString.size).sum < 2 ^ 63

/-! ## The machine -/

/-- The part of `machine_t` that setting up and moving the break use. -/
structure Machine where
  gpRegs : Reg → U64
  mmu : Mmu
  host : Host

namespace Machine

def setGp (m : Machine) (reg : Reg) (value : U64) : Machine :=
  { m with gpRegs := Function.update m.gpRegs reg value }

end Machine

/-- The registers `sp`, `a0` and `a1`. -/
abbrev Reg.sp : Reg := 2
abbrev Reg.a0 : Reg := 10
abbrev Reg.a1 : Reg := 11

/-- The bytes of a `u64` in memory. -/
def leBytes (value : U64) : List U8 := (List.range 8).map fun i => value.extractLsb' (8 * i) 8

/-- `mmu_write`. -/
def mmuWrite (host : Host) (addr : U64) (data : List U8) : Except Abort Host :=
  match host.mem.write (toHost addr) data with
  | some mem => .ok { host with mem := mem }
  | none => .error .segfault

/-- `memmove`. -/
def memmove (host : Host) (target source : U64) (count : Nat) : Except Abort Host :=
  match host.mem.read source count >>= host.mem.write target with
  | some mem => .ok { host with mem := mem }
  | none => .error .segfault

/-! ## `machine_setup` -/

/-- `STACK_SIZE`, `AUXV_SIZE`, `ENVP_SIZE`, `ARGV_END_SIZE` and `ARGC_SIZE`. -/
def stackSize : U64 := 32 * 1024 * 1024
def auxvSize : U64 := 8
def envpSize : U64 := 8
def argvEndSize : U64 := 8
def argcSize : U64 := 8

section Setup

variable (page : PageSize)

/-- One round of the loop over the arguments. -/
def pushArg (m : Machine) (arg : CString) : Except Abort Machine := do
  let len := BitVec.ofNat 64 arg.bytes.length
  let (addr, mmu, host) ← mmuAlloc page m.mmu m.host (len + 1)
  let host ← mmuWrite host addr arg.bytes
  let m := { m with mmu := mmu }.setGp .sp (m.gpRegs .sp - 8)
  let host ← mmuWrite host (m.gpRegs .sp) (leBytes addr)
  return { m with host := host }

/-- The part after the loop that pushes the number of arguments. -/
def pushArgc (m : Machine) (args : U64) : Except Abort Machine := do
  let m := m.setGp .sp (m.gpRegs .sp - argcSize)
  let host ← mmuWrite m.host (m.gpRegs .sp) (leBytes args)
  let m := ({ m with host := host }).setGp .a0 args
  return m.setGp .a1 (m.gpRegs .sp + argcSize)

/-- The part that aligns the stack pointer to 16 bytes. -/
def alignStack (m : Machine) (stack : U64) : Except Abort Machine := do
  let sp0 := m.gpRegs .sp
  let alignedSp := sp0 &&& ~~~0xf
  if alignedSp ≠ sp0 then
    let used := (stack + stackSize) - sp0
    let host ← memmove m.host (toHost alignedSp) (toHost sp0) used.toNat
    return ({ m with host := host }.setGp .sp alignedSp).setGp .a1 (alignedSp + argcSize)
  else return m

/-- `machine_setup`; `argc` is one more than the number of arguments. -/
def machineSetup (m : Machine) (argv : Argv) : Except Abort Machine := do
  let (stack, mmu, host) ← mmuAlloc page m.mmu m.host stackSize
  let m := { m with mmu := mmu, host := host }.setGp .sp (stack + stackSize)
  let m := m.setGp .sp (m.gpRegs .sp - (auxvSize + envpSize + argvEndSize))
  let args := BitVec.ofNat 64 argv.strings.length
  let m ← argv.strings.reverse.foldlM (pushArg page) m
  let m ← pushArgc m args
  alignStack m stack

/-! ## `sys_brk` -/

/-- The argument of `sys_brk`: the current break in place of a null address. -/
def brkAddr (m : Machine) : U64 := if m.gpRegs .a0 = 0 then m.mmu.alloc else m.gpRegs .a0

/-- `sys_brk`. -/
def sysBrk (m : Machine) : Except Abort (U64 × Machine) := do
  let addr := brkAddr m
  cassert (addr ≥ m.mmu.base) "addr >= m->mmu.base"
  let incr := addr - m.mmu.alloc
  let (_, mmu, host) ← mmuAlloc page m.mmu m.host incr
  return (addr, { m with mmu := mmu, host := host })

end Setup

/-! ## A call of `mmu_alloc` that returns -/

/-- What a call does to the host. -/
inductive Reallocated (page : PageSize) (mmu mmu' : Mmu) (host host' : Host) (size : U64) : Prop where
  | grow {len : U64} (grows : (0 : U64).slt size = true ∧ mmu.alloc + size > toGuest mmu.hostAlloc)
      (len_eq : len = up (mmu.alloc + size - toGuest mmu.hostAlloc) page.word)
      (accepts : Accepts page mmu.hostAlloc len) (hostAlloc : mmu'.hostAlloc = mmu.hostAlloc + len)
      (mem : host'.mem = host.mem.map mmu.hostAlloc (pagesOf page len) fun _ => some 0)
  | shrink {len : U64}
      (shrinks : size.slt 0 = true ∧ up (mmu.alloc + size) page.word < toGuest mmu.hostAlloc)
      (len_eq : len = toGuest mmu.hostAlloc - up (mmu.alloc + size) page.word)
      (accepts : Accepts page (toHost (up (mmu.alloc + size) page.word)) len)
      (hostAlloc : mmu'.hostAlloc = mmu.hostAlloc - len)
      (mem : host'.mem =
        host.mem.unmap (toHost (up (mmu.alloc + size) page.word)) (pagesOf page len))
  | stay (grows : ¬ ((0 : U64).slt size = true ∧ mmu.alloc + size > toGuest mmu.hostAlloc))
      (shrinks : ¬ (size.slt 0 = true ∧ up (mmu.alloc + size) page.word < toGuest mmu.hostAlloc))
      (hostAlloc : mmu'.hostAlloc = mmu.hostAlloc) (mem : host'.mem = host.mem)

/-- A call that returns has passed its assertions. -/
structure Allocated (page : PageSize) (mmu mmu' : Mmu) (host host' : Host) (size result : U64) :
    Prop where
  result_eq : result = mmu.alloc
  base : mmu'.base = mmu.base
  alloc : mmu'.alloc = mmu.alloc + size
  above : mmu.base.toNat ≤ mmu.alloc.toNat
  above' : mmu.base.toNat ≤ (mmu.alloc + size).toNat
  moved : Reallocated page mmu mmu' host host' size

theorem mmuAlloc_ok {page : PageSize} {mmu mmu' : Mmu} {host host' : Host} {size result : U64}
    (called : mmuAlloc page mmu host size = .ok (result, mmu', host')) :
    Allocated page mmu mmu' host host' size result := by
  rw [mmuAlloc] at called
  obtain ⟨above, called⟩ := cassert_bind_ok.mp called
  obtain ⟨above', called⟩ := cassert_bind_ok.mp called
  have above := BitVec.le_def.mp above
  have above' := BitVec.le_def.mp above'
  by_cases grows : (0 : U64).slt size = true ∧ mmu.alloc + size > toGuest mmu.hostAlloc
  · rw [if_pos grows] at called
    obtain ⟨mapped, accepted, done⟩ := bind_ok.mp called
    obtain ⟨accepts, mem, -⟩ := mmapAnon_ok (orAbort_ok.mp accepted)
    cases done
    exact ⟨rfl, rfl, rfl, above, above', .grow grows rfl accepts rfl mem⟩
  · rw [if_neg grows] at called
    by_cases shrinks : size.slt 0 = true ∧ up (mmu.alloc + size) page.word < toGuest mmu.hostAlloc
    · rw [if_pos shrinks] at called
      obtain ⟨unmapped, accepted, done⟩ := bind_ok.mp called
      obtain ⟨accepts, mem, -⟩ := munmap_ok (orAbort_ok.mp accepted)
      cases done
      exact ⟨rfl, rfl, rfl, above, above', .shrink shrinks rfl accepts rfl mem⟩
    · rw [if_neg shrinks] at called
      cases called
      exact ⟨rfl, rfl, rfl, above, above', .stay grows shrinks rfl rfl⟩

/-! ## A break that only moves up -/

/-- The break as loading leaves it: nothing is allocated, and the end of the host
allocation is its host address. -/
structure AtStart (page : PageSize) (start : Mmu) : Prop where
  base : start.base = start.alloc
  guest : start.alloc = toGuest start.hostAlloc
  aligned : page.bytes ∣ start.hostAlloc.toNat

/-- The break after `sum` bytes have been allocated, none of them beyond the end of the
host's address space. -/
structure Grown (page : PageSize) (start : Mmu) (sum : Nat) (mmu : Mmu) : Prop where
  base : mmu.base = start.base
  alloc : mmu.alloc.toNat = start.alloc.toNat + sum
  hostAlloc : mmu.hostAlloc.toNat = start.hostAlloc.toNat + ceil sum page.bytes

/-- One space is another with an interval of zeros. -/
def Zeroed (mem mem' : Space) (first last : Nat) : Prop :=
  ∀ x : U64, mem' x = if first ≤ x.toNat ∧ x.toNat < last then some 0 else mem x

section Growth

variable {page : PageSize} {start mmu mmu' : Mmu} {host host' : Host} {sum : Nat}
  {size result : U64}

theorem AtStart.aligned' (at' : AtStart page start) : page.bytes ∣ start.alloc.toNat :=
  at'.guest ▸ dvd_toNat_toGuest at'.aligned

theorem Grown.zero : Grown page start 0 start :=
  ⟨rfl, rfl, by rw [ceil_of_dvd page.bytes_pos (Nat.dvd_zero _), Nat.add_zero]⟩

/-- The rounded break, as a number, does not exceed the address space. -/
theorem Grown.top_le (at' : AtStart page start) (grown : Grown page start sum mmu) :
    start.alloc.toNat + ceil sum page.bytes ≤ 2 ^ 64 := by
  have alloc := grown.alloc
  have lt := mmu.alloc.isLt
  rw [← ceil_add_of_dvd page.bytes_pos at'.aligned']
  exact ceil_le_of_dvd page.bytes_pos (page.bytes_dvd (by omega)) (by omega)

/-- The end of the host allocation, seen from the guest. -/
theorem Grown.guestEnd (at' : AtStart page start) (grown : Grown page start sum mmu) :
    (toGuest mmu.hostAlloc).toNat = (start.alloc.toNat + ceil sum page.bytes) % 2 ^ 64 := by
  have guest := congrArg BitVec.toNat at'.guest
  rw [toGuest, BitVec.toNat_sub] at guest ⊢
  rw [grown.hostAlloc]
  have lt := start.hostAlloc.isLt
  have offset := toNat_guestMemoryOffset
  omega

/-- A positive size below half of the range is positive as an `i64`. -/
theorem slt_of_small (positive : 0 < size.toNat) (small : size.toNat < 2 ^ 63) :
    (0 : U64).slt size = true ∧ ¬ size.slt 0 = true := by
  have signed : size.toInt = size.toNat := BitVec.toInt_eq_toNat_of_lt (by omega)
  have zero : (0 : U64).toInt = 0 := rfl
  rw [BitVec.slt_iff_toInt_lt, BitVec.slt_iff_toInt_lt, signed, zero]
  omega

/-- A sum that wraps would be below the base. -/
theorem Grown.toNat_add (at' : AtStart page start) (grown : Grown page start sum mmu)
    (total : sum + size.toNat < 2 ^ 64) (above' : mmu.base.toNat ≤ (mmu.alloc + size).toNat) :
    (mmu.alloc + size).toNat = start.alloc.toNat + (sum + size.toNat) := by
  have before := grown.alloc
  have base := congrArg BitVec.toNat (grown.base.trans at'.base)
  rw [BitVec.toNat_add] at above' ⊢
  omega

/-- The number of bytes that are mapped. -/
theorem Grown.toNat_len (at' : AtStart page start) (grown : Grown page start sum mmu) {len : U64}
    (after : (mmu.alloc + size).toNat = start.alloc.toNat + (sum + size.toNat))
    (past : mmu.alloc + size > toGuest mmu.hostAlloc)
    (len_eq : len = up (mmu.alloc + size - toGuest mmu.hostAlloc) page.word) (nonzero : len ≠ 0) :
    ceil sum page.bytes + len.toNat = ceil (sum + size.toNat) page.bytes := by
  have guest := grown.guestEnd at'
  have top := grown.top_le at'
  have lt := (mmu.alloc + size).isLt
  have past := BitVec.lt_def.mp past
  have dvd : page.bytes ∣ start.alloc.toNat + ceil sum page.bytes :=
    Nat.dvd_add at'.aligned' dvd_ceil
  have whole : page.bytes ∣ 2 ^ 64 := page.bytes_dvd (by omega)
  have aligned : page.bytes ∣ (toGuest mmu.hostAlloc).toNat := by
    rw [guest]
    exact (Nat.dvd_mod_iff whole).mpr dvd
  have moved := toNat_growth aligned past (len_eq ▸ nonzero)
  rw [← len_eq, after, ceil_add_of_dvd page.bytes_pos at'.aligned'] at moved
  -- the end has not wrapped, or all of the address space would be mapped
  have upper : ceil sum page.bytes ≤ ceil (sum + size.toNat) page.bytes :=
    ceil_mono page.bytes_pos (Nat.le_add_right ..)
  have inside : start.alloc.toNat + ceil sum page.bytes < 2 ^ 64 := by
    have bounded := len.isLt
    rw [guest] at moved
    omega
  rw [guest, Nat.mod_eq_of_lt inside] at moved
  omega

/-- A positive allocation does not wrap, and gets the pages after the last ones. -/
theorem Grown.step (at' : AtStart page start) (grown : Grown page start sum mmu)
    (positive : 0 < size.toNat) (small : size.toNat < 2 ^ 63) (total : sum + size.toNat < 2 ^ 64)
    (called : mmuAlloc page mmu host size = .ok (result, mmu', host')) :
    result = mmu.alloc ∧ Grown page start (sum + size.toNat) mmu' ∧
      Zeroed host.mem host'.mem (start.hostAlloc.toNat + ceil sum page.bytes)
        (start.hostAlloc.toNat + ceil (sum + size.toNat) page.bytes) := by
  obtain ⟨result_eq, base, alloc, above, above', moved⟩ := mmuAlloc_ok called
  obtain ⟨signed, notNegative⟩ := slt_of_small positive small
  have after := grown.toNat_add at' total above'
  have hostAlloc := grown.hostAlloc
  have grown' : ∀ end' : mmu'.hostAlloc.toNat =
      start.hostAlloc.toNat + ceil (sum + size.toNat) page.bytes,
      Grown page start (sum + size.toNat) mmu' :=
    fun end' => ⟨base.trans grown.base, alloc ▸ after, end'⟩
  refine ⟨result_eq, ?_⟩
  cases moved with
  | @grow len grows len_eq accepts hostAlloc' mem =>
      obtain ⟨nonzero, -, fits⟩ := accepts
      have whole := grown.toNat_len at' after grows.2 len_eq nonzero
      have pages : page.bytes ∣ len.toNat := by
        apply (Nat.dvd_add_right dvd_ceil).mp
        rw [whole]
        exact dvd_ceil
      rw [pagesOf, ceil_of_dvd page.bytes_pos pages] at fits mem
      refine ⟨grown' ?_, fun x => ?_⟩
      · rw [hostAlloc', BitVec.toNat_add, Nat.mod_eq_of_lt fits]
        omega
      · rw [mem, Space.map]
        apply if_congr ?_ rfl rfl
        rw [inRange_iff fits.le]
        omega
  | shrink shrinks => exact absurd shrinks.1 notNegative
  | stay grows shrinks hostAlloc' mem =>
      have reached : ¬ mmu.alloc + size > toGuest mmu.hostAlloc := fun past => grows ⟨signed, past⟩
      have reached := Nat.le_of_not_lt (BitVec.lt_def.not.mp reached)
      rw [grown.guestEnd at', after] at reached
      have top := grown.top_le at'
      have inside : start.alloc.toNat + ceil sum page.bytes < 2 ^ 64 := by
        omega
      rw [Nat.mod_eq_of_lt inside] at reached
      have upper : ceil (sum + size.toNat) page.bytes ≤ ceil sum page.bytes :=
        ceil_le_of_dvd page.bytes_pos dvd_ceil (by omega)
      have lower : ceil sum page.bytes ≤ ceil (sum + size.toNat) page.bytes :=
        ceil_mono page.bytes_pos (by omega)
      refine ⟨grown' (by rw [hostAlloc']; omega), fun x => ?_⟩
      rw [mem, if_neg (by omega)]

/-- Well inside the address space an allocation returns. -/
theorem Grown.returns (at' : AtStart page start) (grown : Grown page start sum mmu)
    (small : start.alloc.toNat + sum + size.toNat < 2 ^ 62) :
    ∃ result mmu' host', mmuAlloc page mmu host size = .ok (result, mmu', host') := by
  have before := grown.alloc
  have base := congrArg BitVec.toNat (grown.base.trans at'.base)
  have top : mmu.top page = start.alloc.toNat + ceil sum page.bytes := by
    rw [Mmu.top, before, ceil_add_of_dvd page.bytes_pos at'.aligned']
  have boundary : AtBoundary page mmu := by
    refine ⟨?_, by omega, ?_, .inl (by omega)⟩
    · rw [grown.base, at'.base]
      exact at'.aligned'
    · apply BitVec.eq_of_toNat_eq
      rw [grown.guestEnd at', top, BitVec.toNat_ofNat]
  have signed : size.toInt = size.toNat := BitVec.toInt_eq_toNat_of_lt (by omega)
  have bounds : BreakInBounds mmu size := ⟨by omega, by omega⟩
  obtain ⟨mmu', host', called, -⟩ : Moves page mmu host size := mmuAlloc_cases boundary bounds
  exact ⟨_, mmu', host', called⟩

end Growth

end RiscvEmu
