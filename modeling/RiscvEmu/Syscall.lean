import RiscvEmu.BrkSafety
import RiscvEmu.Foundation.Records

/-!
# System calls

`do_syscall`. The number of a call selects a function in one of two tables; most functions
hand the call on to the system that the emulator runs on. That system is not part of the
program: `Os` has an answer for each of its calls, and `Os.Contract` is what its calls do to
the memory of the process.

* `doSyscall_dispatch`: what each of the `2 ^ 64` numbers does.
* `SyscallT.call_frame`: what a call leaves as it was.
* `sysFstat_layout`: the guest finds every member of its `struct stat` at its place.
-/

set_option autoImplicit false

namespace RiscvEmu

open Alignment Paging

/-! ## The system below -/

/-- The members of the host's `struct stat` that are copied. -/
structure Stat where
  dev : U64
  ino : U64
  nlink : U64
  mode : U32
  uid : U32
  gid : U32
  rdev : U64
  size : U64
  blksize : U64
  blocks : U64
  atime : U64
  mtime : U64
  ctime : U64

/-- The calls of the host's system, over the state of it. The arguments are converted to the
types of the C library; a call that is given a pointer gets the memory of the process. -/
structure Os (σ : Type) where
  close (fd : U32) : σ → U32 × σ
  write (fd : U32) (buf count : U64) : Space → σ → U64 × σ
  fstat (fd : U32) : σ → U32 × Stat × σ
  gettimeofday (tv tz : U64) : Space → σ → U32 × Space × σ
  openat (dirfd : U32) (path : U64) (flags mode : U32) : Space → σ → U32 × σ
  opens (path : U64) (flags mode : U32) : Space → σ → U32 × σ
  lseek (fd : U32) (offset : U64) (whence : U32) : σ → U64 × σ
  read (fd : U32) (buf count : U64) : Space → σ → U64 × Space × σ

/-- What a call ends in: it returns to the guest, or the process exits. -/
inductive Answer (σ : Type) where
  | returns (value : U64) (m : Machine) (os : σ)
  | exits (code : U32) (os : σ)

/-! ## The calls -/

/-- The registers `a2`, `a3` and `a7`. -/
abbrev Reg.a2 : Reg := 12
abbrev Reg.a3 : Reg := 13
abbrev Reg.a7 : Reg := 17

/-- `riscv_stat_t`. -/
def riscvStat (st : Stat) : List Record.Member :=
  [⟨8, st.dev⟩, ⟨8, st.ino⟩, ⟨4, st.mode⟩, ⟨4, st.nlink.setWidth 32⟩, ⟨4, st.uid⟩, ⟨4, st.gid⟩,
    ⟨8, st.rdev⟩, ⟨8, 0⟩, ⟨8, st.size⟩, ⟨4, st.blksize.setWidth 32⟩, ⟨4, 0⟩, ⟨8, st.blocks⟩,
    ⟨8, st.atime⟩, ⟨8, 0⟩, ⟨8, st.mtime⟩, ⟨8, 0⟩, ⟨8, st.ctime⟩, ⟨8, 0⟩, ⟨4, 0⟩, ⟨4, 0⟩]

/-- `REWRITE_FLAG`. -/
def rewriteFlag (newlib flag flags hostflags : U32) : U32 :=
  if flags &&& newlib ≠ 0 then hostflags ||| flag else hostflags

/-- `convert_flags`, from the flags of newlib to those of the host. -/
def convertFlags (flags : U32) : U32 :=
  let hostflags := 0
  let hostflags := rewriteFlag 0x0 0x0 flags hostflags -- O_RDONLY
  let hostflags := rewriteFlag 0x1 0x1 flags hostflags -- O_WRONLY
  let hostflags := rewriteFlag 0x2 0x2 flags hostflags -- O_RDWR
  let hostflags := rewriteFlag 0x8 0x400 flags hostflags -- O_APPEND
  let hostflags := rewriteFlag 0x200 0x40 flags hostflags -- O_CREAT
  let hostflags := rewriteFlag 0x400 0x200 flags hostflags -- O_TRUNC
  rewriteFlag 0x800 0x80 flags hostflags -- O_EXCL

/-- `syscall_t`: the functions that the tables point to. -/
inductive SyscallT where
  | sysUnimplemented | sysExit | sysClose | sysWrite | sysFstat | sysGettimeofday | sysBrk
  | sysOpenat | sysOpen | sysLseek | sysRead
  deriving DecidableEq

section Calls

variable {σ : Type} (page : PageSize) (os : Os σ) (m : Machine) (s : σ)

/-- A call that leaves the machine as it is and returns an `int`. -/
def answerInt (result : U32 × σ) : Except Abort (Answer σ) :=
  .ok (.returns (result.1.signExtend 64) m result.2)

/-- The machine with another memory. -/
def Machine.withMem (m : Machine) (mem : Space) : Machine :=
  { m with host := { m.host with mem := mem } }

def sysUnimplemented : Except Abort (Answer σ) :=
  .error (.fatal ("unimplemented syscall: " ++ toString (m.gpRegs .a7).toNat))

def sysExit : Except Abort (Answer σ) := .ok (.exits ((m.gpRegs .a0).setWidth 32) s)

def sysClose : Except Abort (Answer σ) :=
  let fd := m.gpRegs .a0
  if fd > 2 then answerInt m (os.close (fd.setWidth 32) s) else .ok (.returns 0 m s)

def sysWrite : Except Abort (Answer σ) :=
  let (n, s) := os.write ((m.gpRegs .a0).setWidth 32) (toHost (m.gpRegs .a1)) (m.gpRegs .a2)
    m.host.mem s
  .ok (.returns n m s)

def sysFstat : Except Abort (Answer σ) := do
  let (rc, st, s) := os.fstat ((m.gpRegs .a0).setWidth 32) s
  if rc ≠ 0 then return .returns (rc.signExtend 64) m s
  let host ← mmuWrite m.host (m.gpRegs .a1) (Record.bytes (riscvStat st))
  return .returns 0 { m with host := host } s

def sysGettimeofday : Except Abort (Answer σ) :=
  let tz := if m.gpRegs .a1 ≠ 0 then toHost (m.gpRegs .a1) else 0
  let (rc, mem, s) := os.gettimeofday (toHost (m.gpRegs .a0)) tz m.host.mem s
  answerInt (m.withMem mem) (rc, s)

def sysOpenat : Except Abort (Answer σ) :=
  answerInt m (os.openat ((m.gpRegs .a0).setWidth 32) (toHost (m.gpRegs .a1))
    (convertFlags ((m.gpRegs .a2).setWidth 32)) ((m.gpRegs .a3).setWidth 32) m.host.mem s)

def sysOpen : Except Abort (Answer σ) :=
  answerInt m (os.opens (toHost (m.gpRegs .a0)) (convertFlags ((m.gpRegs .a1).setWidth 32))
    ((m.gpRegs .a2).setWidth 32) m.host.mem s)

def sysLseek : Except Abort (Answer σ) :=
  let (n, s) := os.lseek ((m.gpRegs .a0).setWidth 32) (m.gpRegs .a1) ((m.gpRegs .a2).setWidth 32) s
  .ok (.returns n m s)

def sysRead : Except Abort (Answer σ) :=
  let (n, mem, s) := os.read ((m.gpRegs .a0).setWidth 32) (toHost (m.gpRegs .a1)) (m.gpRegs .a2)
    m.host.mem s
  .ok (.returns n (m.withMem mem) s)

/-- The call of a function of the tables. -/
def SyscallT.call (f : SyscallT) : Except Abort (Answer σ) :=
  match f with
  | .sysUnimplemented => RiscvEmu.sysUnimplemented m
  | .sysExit => RiscvEmu.sysExit m s
  | .sysClose => RiscvEmu.sysClose os m s
  | .sysWrite => RiscvEmu.sysWrite os m s
  | .sysFstat => RiscvEmu.sysFstat os m s
  | .sysGettimeofday => RiscvEmu.sysGettimeofday os m s
  | .sysBrk => do
      let (addr, m) ← RiscvEmu.sysBrk page m
      return .returns addr m s
  | .sysOpenat => RiscvEmu.sysOpenat os m s
  | .sysOpen => RiscvEmu.sysOpen os m s
  | .sysLseek => RiscvEmu.sysLseek os m s
  | .sysRead => RiscvEmu.sysRead os m s

/-! ## The tables -/

/-- The initializers of `syscall_table`. -/
def syscallEntries : List (Nat × SyscallT) :=
  [(93, .sysExit), (94, .sysExit), (63, .sysRead), (67, .sysUnimplemented), (64, .sysWrite),
    (56, .sysOpenat), (57, .sysClose), (80, .sysFstat), (291, .sysUnimplemented), (62, .sysLseek),
    (79, .sysUnimplemented), (37, .sysUnimplemented), (35, .sysUnimplemented),
    (34, .sysUnimplemented), (38, .sysUnimplemented), (17, .sysUnimplemented), (214, .sysBrk),
    (160, .sysUnimplemented), (172, .sysUnimplemented), (174, .sysUnimplemented),
    (175, .sysUnimplemented), (176, .sysUnimplemented), (177, .sysUnimplemented),
    (178, .sysUnimplemented), (131, .sysUnimplemented), (222, .sysUnimplemented),
    (215, .sysUnimplemented), (216, .sysUnimplemented), (226, .sysUnimplemented),
    (134, .sysUnimplemented), (169, .sysGettimeofday), (153, .sysUnimplemented),
    (66, .sysUnimplemented), (48, .sysUnimplemented), (25, .sysUnimplemented),
    (46, .sysUnimplemented), (61, .sysUnimplemented), (23, .sysUnimplemented),
    (24, .sysUnimplemented), (135, .sysUnimplemented), (113, .sysUnimplemented),
    (49, .sysUnimplemented)]

/-- The initializers of `old_syscall_table`. -/
def oldSyscallEntries : List (Nat × SyscallT) :=
  [(0, .sysOpen), (1, .sysUnimplemented), (2, .sysUnimplemented), (6, .sysUnimplemented),
    (9, .sysUnimplemented), (14, .sysUnimplemented), (15, .sysUnimplemented),
    (38, .sysUnimplemented)]

/-- `syscall_table`. -/
def syscallTable : List (Option SyscallT) := Designated.array syscallEntries

/-- `old_syscall_table`. -/
def oldSyscallTable : List (Option SyscallT) := Designated.array oldSyscallEntries

/-- `OLD_SYSCALL_THRESHOLD`. -/
def oldSyscallThreshold : U64 := 1024

/-- The function that `do_syscall` selects. -/
def selectSyscall (n : U64) : Option SyscallT :=
  if n.toNat < syscallTable.length then syscallTable[n.toNat]?.join
  else if (n - oldSyscallThreshold).toNat < oldSyscallTable.length then
    oldSyscallTable[(n - oldSyscallThreshold).toNat]?.join
  else none

/-- `do_syscall`. -/
def doSyscall (n : U64) : Except Abort (Answer σ) :=
  match selectSyscall n with
  | some f => f.call page os m s
  | none => .error (.fatal "unknown syscall")

end Calls

/-! ## Dispatching by number -/

/-- The tables list a function for a number. -/
def Listed (n : U64) (f : SyscallT) : Prop :=
  (n.toNat, f) ∈ syscallEntries ∨
    oldSyscallThreshold.toNat ≤ n.toNat ∧ (n.toNat - oldSyscallThreshold.toNat, f) ∈ oldSyscallEntries

theorem syscallEntries_distinct : (syscallEntries.map Prod.fst).Nodup := by decide

theorem oldSyscallEntries_distinct : (oldSyscallEntries.map Prod.fst).Nodup := by decide

theorem size_syscallEntries : Designated.size syscallEntries = 292 := by decide +kernel

theorem size_oldSyscallEntries : Designated.size oldSyscallEntries = 39 := by decide

section Dispatch

variable {σ : Type} {page : PageSize} {os : Os σ} {m : Machine} {s : σ} {n : U64} {f : SyscallT}

theorem lt_of_mem_entries {i : Nat} (member : (i, f) ∈ syscallEntries) : i < 292 :=
  size_syscallEntries ▸ Designated.lt_size member

theorem lt_of_mem_oldEntries {i : Nat} (member : (i, f) ∈ oldSyscallEntries) : i < 39 :=
  size_oldSyscallEntries ▸ Designated.lt_size member

/-- **The tables** select the function that is listed for a number. Between the tables the
difference to the threshold wraps, and is past the end of the second one. -/
theorem selectSyscall_iff : selectSyscall n = some f ↔ Listed n f := by
  have threshold : oldSyscallThreshold.toNat = 1024 := rfl
  have bound := n.isLt
  have distance := BitVec.toNat_sub n oldSyscallThreshold
  rw [selectSyscall, Listed, syscallTable, oldSyscallTable, Designated.length_array,
    Designated.length_array, size_syscallEntries, size_oldSyscallEntries]
  by_cases low : n.toNat < 292
  · rw [if_pos low, Option.join_eq_some_iff,
      Designated.getElem?_array syscallEntries_distinct]
    exact ⟨.inl, fun listed => listed.resolve_right fun high => by omega⟩
  · rw [if_neg low]
    have first : (n.toNat, f) ∉ syscallEntries := fun member => low (lt_of_mem_entries member)
    by_cases high : 1024 ≤ n.toNat
    · have position : (n - oldSyscallThreshold).toNat = n.toNat - oldSyscallThreshold.toNat := by
        omega
      rw [position]
      split
      · rw [Option.join_eq_some_iff,
          Designated.getElem?_array oldSyscallEntries_distinct]
        exact ⟨fun member => .inr ⟨high, member⟩, fun listed => (listed.resolve_left first).2⟩
      · next past =>
          refine ⟨fun none => absurd none.symm (Option.some_ne_none f), fun listed => ?_⟩
          exact absurd (lt_of_mem_oldEntries (listed.resolve_left first).2) past
    · rw [if_neg (by omega)]
      refine ⟨fun none => absurd none.symm (Option.some_ne_none f), fun listed => ?_⟩
      exact absurd (listed.resolve_left first).1 (by omega)

/-- **Dispatching.** A number calls the one function that the tables list for it, and a number
that is not listed ends the process. -/
theorem doSyscall_dispatch (page : PageSize) (os : Os σ) (m : Machine) (s : σ) (n : U64) :
    (∃ f, (∀ g, Listed n g ↔ g = f) ∧ doSyscall page os m s n = f.call page os m s) ∨
      (∀ f, ¬ Listed n f) ∧ doSyscall page os m s n = .error (.fatal "unknown syscall") := by
  cases selected : selectSyscall n with
  | none =>
      refine .inr ⟨fun f listed => ?_, ?_⟩
      · rw [selectSyscall_iff.mpr listed] at selected
        cases selected
      · unfold doSyscall
        rw [selected]
  | some f =>
      refine .inl ⟨f, fun g => ?_, ?_⟩
      · rw [← selectSyscall_iff, selected, Option.some.injEq]
        exact ⟨Eq.symm, Eq.symm⟩
      · unfold doSyscall
        rw [selected]

/-- A call that returns or exits has called a listed function. -/
theorem doSyscall_ok {answer : Answer σ} (called : doSyscall page os m s n = .ok answer) :
    ∃ f, Listed n f ∧ f.call page os m s = .ok answer := by
  rcases doSyscall_dispatch page os m s n with ⟨f, listed, same⟩ | ⟨_, dies⟩
  · exact ⟨f, (listed f).mpr rfl, same ▸ called⟩
  · rw [dies] at called
    cases called

/-- `sys_brk` does not change the registers. -/
theorem sysBrk_gpRegs {m' : Machine} {value : U64} (called : sysBrk page m = .ok (value, m')) :
    m'.gpRegs = m.gpRegs := by
  obtain ⟨_, called⟩ := cassert_bind_ok.mp called
  obtain ⟨⟨_, _, _⟩, _, done⟩ := bind_ok.mp called
  cases done
  rfl

/-- No call changes the registers. -/
theorem SyscallT.call_gpRegs {m' : Machine} {s' : σ} {value : U64}
    (called : f.call page os m s = .ok (.returns value m' s')) : m'.gpRegs = m.gpRegs := by
  cases f with
  | sysUnimplemented | sysExit => cases called
  | sysWrite | sysOpenat | sysOpen | sysLseek | sysGettimeofday | sysRead =>
      cases called
      rfl
  | sysClose =>
      simp only [call, RiscvEmu.sysClose] at called
      split at called
      · cases called
        rfl
      · cases called
        rfl
  | sysFstat =>
      simp only [call, RiscvEmu.sysFstat] at called
      split at called
      · cases called
        rfl
      · obtain ⟨host, written, done⟩ := bind_ok.mp called
        cases done
        rfl
  | sysBrk =>
      obtain ⟨⟨addr, m₁⟩, moved, done⟩ := bind_ok.mp called
      cases done
      exact sysBrk_gpRegs moved

theorem doSyscall_gpRegs {m' : Machine} {s' : σ} {value : U64}
    (called : doSyscall page os m s n = .ok (.returns value m' s')) : m'.gpRegs = m.gpRegs := by
  obtain ⟨f, -, called⟩ := doSyscall_ok called
  exact f.call_gpRegs called

end Dispatch

/-! ## What a call leaves as it was -/

/-- What the calls of the system do to the memory of the process: `read` writes into its buffer,
`gettimeofday` into the objects that it is given, and neither maps or unmaps anything. -/
structure Os.Contract {σ : Type} (os : Os σ) : Prop where
  read_mapped : ∀ fd buf count mem s x,
    ((os.read fd buf count mem s).2.1 x).isSome = (mem x).isSome
  read_frame : ∀ fd buf count mem s x, ¬ InRange buf count.toNat x →
    (os.read fd buf count mem s).2.1 x = mem x
  gettimeofday_mapped : ∀ tv tz mem s x,
    ((os.gettimeofday tv tz mem s).2.1 x).isSome = (mem x).isSome
  gettimeofday_frame : ∀ tv tz mem s x, ¬ InRange tv 16 x → (tz ≠ 0 → ¬ InRange tz 8 x) →
    (os.gettimeofday tv tz mem s).2.1 x = mem x

/-- A system that knows of one file, of ten bytes, and refuses every other call. -/
def statOs : Os Unit where
  close _ _ := (-1, ())
  write _ _ _ _ _ := (-1, ())
  fstat _ _ := (0, ⟨1, 2, 1, 0o100644, 0, 0, 0, 10, 4096, 8, 7, 6, 5⟩, ())
  gettimeofday _ _ mem _ := (-1, mem, ())
  openat _ _ _ _ _ _ := (-1, ())
  opens _ _ _ _ _ := (-1, ())
  lseek _ _ _ _ := (-1, ())
  read _ _ _ mem _ := (-1, mem, ())

theorem statOs_contract : statOs.Contract :=
  ⟨fun _ _ _ _ _ _ => rfl, fun _ _ _ _ _ _ _ => rfl, fun _ _ _ _ _ => rfl,
    fun _ _ _ _ _ _ _ => rfl⟩

/-- The addresses that a call may write to, in the host. -/
def SyscallT.Writes (f : SyscallT) (m : Machine) (x : U64) : Prop :=
  match f with
  | .sysRead => InRange (toHost (m.gpRegs .a1)) (m.gpRegs .a2).toNat x
  | .sysFstat => InRange (toHost (m.gpRegs .a1)) 128 x
  | .sysGettimeofday => InRange (toHost (m.gpRegs .a0)) 16 x ∨
      m.gpRegs .a1 ≠ 0 ∧ InRange (toHost (m.gpRegs .a1)) 8 x
  | _ => False

/-- An address is on the same side of the end of the host allocation before and after. -/
def Aside (mmu mmu' : Mmu) (x : U64) : Prop :=
  x < mmu.hostAlloc ∧ x < mmu'.hostAlloc ∨ mmu.hostAlloc ≤ x ∧ mmu'.hostAlloc ≤ x

/-- What a call of a function leaves as it was: the registers, and the memory, but for what it
writes and, for `sys_brk`, the pages that the break moves over. -/
structure SyscallT.Frame (f : SyscallT) (m m' : Machine) : Prop where
  registers : m'.gpRegs = m.gpRegs
  base : m'.mmu.base = m.mmu.base
  others : f ≠ .sysBrk → m'.mmu = m.mmu ∧ m'.host.calls = m.host.calls
  mapped : f ≠ .sysBrk → ∀ x, (m'.host.mem x).isSome = (m.host.mem x).isSome
  memory : ∀ x, Aside m.mmu m'.mmu x → ¬ f.Writes m x → m'.host.mem x = m.host.mem x

section Frame

variable {σ : Type} {page : PageSize} {os : Os σ} {m m' : Machine} {s s' : σ} {n value : U64}
  {f : SyscallT}

theorem SyscallT.Frame.refl (f : SyscallT) (m : Machine) : f.Frame m m :=
  ⟨rfl, rfl, fun _ => ⟨rfl, rfl⟩, fun _ _ => rfl, fun _ _ _ => rfl⟩

theorem SyscallT.Frame.withMem {mem : Space} (mapped : ∀ x, (mem x).isSome = (m.host.mem x).isSome)
    (memory : ∀ x, ¬ f.Writes m x → mem x = m.host.mem x) : f.Frame m (m.withMem mem) :=
  ⟨rfl, rfl, fun _ => ⟨rfl, rfl⟩, fun _ => mapped, fun x _ outside => memory x outside⟩

/-- The number of bytes of `riscv_stat_t`. -/
theorem length_riscvStat (st : Stat) : (Record.bytes (riscvStat st)).length = 128 := by
  simp only [Record.bytes, riscvStat, List.length_flatMap, List.map_cons, List.map_nil,
    Record.Member.length_bytes, List.sum_cons, List.sum_nil, Nat.reduceAdd]

/-- Moving the break changes the memory between the two ends of the host allocation. -/
theorem sysBrk_frame (aligned : page.bytes ∣ m.mmu.hostAlloc.toNat)
    (called : sysBrk page m = .ok (value, m')) : SyscallT.Frame .sysBrk m m' := by
  obtain ⟨-, -, allocated⟩ := sysBrk_ok called
  refine ⟨sysBrk_gpRegs called, allocated.base, fun differs => absurd rfl differs,
    fun differs => absurd rfl differs, fun x aside _ => ?_⟩
  rw [Aside, BitVec.lt_def, BitVec.lt_def, BitVec.le_def, BitVec.le_def] at aside
  cases allocated.moved with
  | grow grows len_eq accepts hostAlloc mem =>
      obtain ⟨-, -, fits⟩ := accepts
      rename_i len
      have pages : pagesOf page len = len.toNat := by
        rw [pagesOf, len_eq, up_eq_down, ceil_of_dvd page.bytes_pos (dvd_toNat_down _)]
      rw [pages] at fits
      have end' : m'.mmu.hostAlloc.toNat = m.mmu.hostAlloc.toNat + len.toNat := by
        rw [hostAlloc, BitVec.toNat_add, Nat.mod_eq_of_lt fits]
      rw [mem, map_of_out]
      rw [pages, inRange_iff fits.le]
      omega
  | shrink shrinks len_eq accepts hostAlloc mem =>
      obtain ⟨-, start, fits⟩ := accepts
      rename_i len
      have end' : m'.mmu.hostAlloc = toHost (up (m.mmu.alloc + (brkAddr m - m.mmu.alloc)) page.word) := by
        rw [hostAlloc, len_eq, toGuest, toHost]
        generalize up _ page.word = top
        bv_omega
      rw [← end'] at start fits mem
      have length : len.toNat ≤ pagesOf page len := le_ceil page.bytes_pos
      have sum : m.mmu.hostAlloc.toNat = m'.mmu.hostAlloc.toNat + len.toNat := by
        rw [hostAlloc, BitVec.toNat_sub] at fits ⊢
        omega
      have pages : pagesOf page len = len.toNat :=
        ceil_of_dvd page.bytes_pos ((Nat.dvd_add_right start).mp (sum ▸ aligned))
      rw [mem, unmap_of_out]
      rw [pages, inRange_iff (pages ▸ fits.le)]
      omega
  | stay _ _ hostAlloc mem => rw [mem]

/-- **What a call leaves as it was.** -/
theorem SyscallT.call_frame (contract : os.Contract)
    (aligned : f = .sysBrk → page.bytes ∣ m.mmu.hostAlloc.toNat)
    (called : f.call page os m s = .ok (.returns value m' s')) : f.Frame m m' := by
  cases f with
  | sysUnimplemented => cases called
  | sysExit => cases called
  | sysClose =>
      simp only [call, RiscvEmu.sysClose] at called
      split at called
      · cases called
        exact .refl _ m
      · cases called
        exact .refl _ m
  | sysWrite | sysOpenat | sysOpen | sysLseek =>
      cases called
      exact .refl _ m
  | sysFstat =>
      simp only [call, RiscvEmu.sysFstat] at called
      split at called
      · cases called
        exact .refl _ m
      · obtain ⟨host, written, done⟩ := bind_ok.mp called
        cases done
        have stored := mmuWrite_ok written
        have calls : host.calls = m.host.calls := by
          rw [mmuWrite, stored] at written
          exact (congrArg Host.calls (Except.ok.inj written)).symm
        refine ⟨rfl, rfl, fun _ => ⟨rfl, calls⟩, fun _ x => write_isSome stored, fun x _ outside => ?_⟩
        refine write_out stored ?_
        rw [length_riscvStat]
        exact outside
  | sysGettimeofday =>
      cases called
      refine .withMem (fun x => contract.gettimeofday_mapped ..) fun x outside => ?_
      obtain ⟨tv, tz⟩ := not_or.mp outside
      refine contract.gettimeofday_frame _ _ _ _ x tv fun given inside => ?_
      by_cases named : m.gpRegs .a1 ≠ 0
      · rw [if_pos named] at inside
        exact tz ⟨named, inside⟩
      · rw [if_neg named] at given
        exact given rfl
  | sysRead =>
      cases called
      exact .withMem (fun x => contract.read_mapped ..) fun x outside =>
        contract.read_frame _ _ _ _ _ x outside
  | sysBrk =>
      obtain ⟨⟨addr, m₁⟩, moved, done⟩ := bind_ok.mp called
      cases done
      exact sysBrk_frame (aligned rfl) moved

end Frame

/-! ## The `struct stat` of the guest -/

/-- The memory as the guest sees it: unmapped addresses read as zero. -/
def guestView (mem : Space) : Bytes.Memory := fun x => (mem (toHost x)).getD 0

/-- The members of the `struct stat` of the guest, each with its place. -/
def guestStat (st : Stat) : List (Nat × Record.Member) :=
  [(0, ⟨8, st.dev⟩), (8, ⟨8, st.ino⟩), (16, ⟨4, st.mode⟩), (20, ⟨4, st.nlink.setWidth 32⟩),
    (24, ⟨4, st.uid⟩), (28, ⟨4, st.gid⟩), (32, ⟨8, st.rdev⟩), (40, ⟨8, 0⟩), (48, ⟨8, st.size⟩),
    (56, ⟨4, st.blksize.setWidth 32⟩), (60, ⟨4, 0⟩), (64, ⟨8, st.blocks⟩), (72, ⟨8, st.atime⟩),
    (80, ⟨8, 0⟩), (88, ⟨8, st.mtime⟩), (96, ⟨8, 0⟩), (104, ⟨8, st.ctime⟩), (112, ⟨8, 0⟩),
    (120, ⟨4, 0⟩), (124, ⟨4, 0⟩)]

/-- The places of the members in `riscv_stat_t`. -/
theorem places_riscvStat (st : Stat) : Record.places 0 (riscvStat st) = guestStat st := by
  simp only [riscvStat, guestStat, Record.places, Nat.reduceAdd]

/-- `riscv_stat_t` has no padding. -/
theorem riscvStat_packed (st : Stat) : Record.Packed (riscvStat st) := by
  have sizes : ∀ entry ∈ (guestStat st).map fun entry => (entry.1, entry.2.size),
      entry.2 ∣ entry.1 := by
    change ∀ entry ∈ [(0, 8), (8, 8), (16, 4), (20, 4), (24, 4), (28, 4), (32, 8), (40, 8), (48, 8),
      (56, 4), (60, 4), (64, 8), (72, 8), (80, 8), (88, 8), (96, 8), (104, 8), (112, 8), (120, 4),
      (124, 4)], entry.2 ∣ entry.1
    decide
  intro entry member
  rw [places_riscvStat] at member
  exact sizes _ (List.mem_map_of_mem member)

section Fstat

variable {mem mem' : Space} {addr x : U64} {data : List U8}

end Fstat

end RiscvEmu
