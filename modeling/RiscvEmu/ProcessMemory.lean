import RiscvEmu.ProcessStart

/-!
# The memory of the process

The invariants of loading, setup and `brk` are about runs of `sys_brk` between which the guest
does what it likes to the bytes that are mapped. Every run of the process is such a run
(`main_brkRun`): the machine writes to the memory that is mapped, compiled or not, and of the
system calls `sys_brk` alone maps and unmaps.

* `main_brk_safe`: the break stays between its base and the end of what is mapped, and the
  program stays mapped, exactly as long as the calls of `sys_brk` fit.
* `main_keeps_setup`: the stack and the strings stay mapped.
* `main_ecall_frame`: what an ECALL leaves of the guest as it was.
-/

set_option autoImplicit false

namespace RiscvEmu

open Alignment Paging

section Definitions

variable {σ : Type} (page : PageSize) (os : Os σ) (F : FloatOps) (backend : Backend)

/-- If `machine_step` returns with a call of `sys_brk`, it is one that `admits` allows. -/
def Admitted (admits : Machine → Prop) (p : Main σ) : Prop :=
  ∀ m, machineIter F backend p.at_ = .ok (.inr (.ecall, m)) →
    Listed (m.state.gpRegs .a7) .sysBrk → admits (ecallMachine m.state p.world)

/-- A run of the process with calls of `sys_brk` that `admits` allows. -/
inductive MainRun (admits : Machine → Prop) (p₀ : Main σ) : Main σ → Prop where
  | start : MainRun admits p₀ p₀
  | next {p p' : Main σ} : MainRun admits p₀ p → Admitted F backend admits p →
      mainIter page os F backend p = .ok (.inl p') → MainRun admits p₀ p'

end Definitions

/-! ## What a step does to what is mapped -/

section Steps

variable {σ : Type} {page : PageSize} {os : Os σ} {F : FloatOps} {backend : Backend}
  {admits : Machine → Prop} {first : Machine} {p₀ p p' : Main σ} {loaded : Mmu × Host}

/-- The memory that is brought up to date is as mapped as before. -/
theorem isSome_commit {space : Space} {mem : Bytes.Memory} {x : U64} :
    (commit space mem x).isSome = (space x).isSome := by
  rw [commit, Option.isSome_map]

/-- What a step does to what is mapped: it moves the break, or changes registers and mapped bytes. -/
inductive Remapped (page : PageSize) (F : FloatOps) (backend : Backend) (p : Main σ) :
    Machine → Prop where
  | brk {m : Vm} {m' : Machine} {value : U64} {gpRegs : Reg → U64}
      (returned : machineIter F backend p.at_ = .ok (.inr (.ecall, m)))
      (listed : Listed (m.state.gpRegs .a7) .sysBrk)
      (moved : sysBrk page (ecallMachine m.state p.world) = .ok (value, m')) :
      Remapped page F backend p { m' with gpRegs := gpRegs }
  | guest {gpRegs : Reg → U64} {mem : Space}
      (others : ∀ m, machineIter F backend p.at_ = .ok (.inr (.ecall, m)) →
        ¬ Listed (m.state.gpRegs .a7) .sysBrk)
      (mapped : ∀ x, (mem x).isSome = (p.world.host.mem x).isSome) :
      Remapped page F backend p ⟨gpRegs, p.world.mmu, { p.world.host with mem := mem }⟩

/-- A number is listed once. -/
theorem Listed.unique {n : U64} {f g : SyscallT} (first : Listed n f) (second : Listed n g) :
    f = g := by
  rw [← selectSyscall_iff] at first second
  exact Option.some.inj (first.symm.trans second)

/-- **A step of the process**, as to what is mapped. -/
theorem MainNext.remapped (contract : os.Contract) (next : MainNext page os F backend p p') :
    Remapped page F backend p p'.machine := by
  cases next with
  | @step c c' w round =>
      refine .guest (fun m returned => ?_) fun _ => rfl
      cases round.symm.trans returned
  | @ecall c w w' reason m s returned answered =>
      rcases mainReturn_ok answered with ⟨-, impossible⟩ | ⟨rfl, answer, called, outcome⟩
      · cases impossible
      obtain ⟨code, os', -, impossible⟩ | ⟨ret, m', os', rfl, same⟩ := outcome
      · cases impossible
      cases same
      obtain ⟨f, listed, called⟩ := doSyscall_ok called
      by_cases brk : f = .sysBrk
      · subst brk
        obtain ⟨⟨addr, m₁⟩, moved, done⟩ := bind_ok.mp called
        cases done
        exact .brk returned listed moved
      · have frame := f.call_frame contract (fun same => absurd same brk) called
        obtain ⟨mmu, calls⟩ := frame.others brk
        have mapped := frame.mapped brk
        obtain ⟨gpRegs, mmu', ⟨mem, calls'⟩⟩ := m'
        cases mmu
        cases calls
        refine .guest (fun m₂ returned' listed' => ?_) fun x => (mapped x).trans isSome_commit
        cases returned.symm.trans returned'
        exact brk (listed.unique listed')

/-- **A step of the process** continues a run of `sys_brk`. -/
theorem BrkRun.next (contract : os.Contract) (run : BrkRun page admits first p.machine)
    (admitted : Admitted F backend admits p) (next : MainNext page os F backend p p') :
    BrkRun page admits first p'.machine := by
  have step := next.remapped contract
  generalize p'.machine = m' at step ⊢
  cases step with
  | @brk m m' value gpRegs returned listed moved =>
      have updated : BrkRun page admits first (ecallMachine m.state p.world) :=
        run.guest fun _ => isSome_commit
      have after := updated.brk (admitted m returned listed) moved
      exact after.guest fun _ => rfl
  | guest _ mapped => exact run.guest mapped

/-- **A run of the process** is a run of `sys_brk`. -/
theorem main_brkRun (contract : os.Contract) (run : MainRun page os F backend admits p₀ p) :
    BrkRun page admits p₀.machine p.machine := by
  induction run with
  | start => exact .start
  | next _ admitted round ih => exact ih.next contract admitted (mainIter_next round)

theorem MainRun.steps (run : MainRun page os F backend admits p₀ p) :
    Iteration.Steps (mainIter page os F backend) p₀ p := by
  induction run with
  | start => exact .refl
  | next _ _ round ih => exact ih.tail round

theorem mainRun_of_steps (steps : Iteration.Steps (mainIter page os F backend) p₀ p) :
    MainRun page os F backend (fun _ => True) p₀ p := by
  induction steps with
  | refl => exact .start
  | tail _ round ih => exact .next ih (fun _ _ _ => trivial) round

/-- A step inside `machine_step` continues every run. -/
theorem MainRun.inside {c : Control} (run : MainRun page os F backend admits p₀ p)
    (round : machineIter F backend p.at_ = .ok (.inl c)) :
    MainRun page os F backend admits p₀ ⟨c, p.world⟩ := by
  refine run.next (fun m returned => ?_) (mainIter_of_next round)
  cases round.symm.trans returned

/-! ## The break -/

/-- A step leaves the process safe exactly when its call of `sys_brk`, if it is one, fits. -/
theorem brkSafe_next (contract : os.Contract) (inv : BrkInv page loaded p.machine)
    (next : MainNext page os F backend p p') :
    BrkSafe page loaded p'.machine ↔ Admitted F backend (BrkFits page) p := by
  have step := next.remapped contract
  generalize p'.machine = m' at step ⊢
  cases step with
  | @brk m m' value gpRegs returned listed moved =>
      have updated : BrkInv page loaded (ecallMachine m.state p.world) :=
        inv.guest fun _ => isSome_commit
      obtain ⟨reaches, keeps⟩ := updated.step moved
      constructor
      · intro safe m₂ returned' _
        cases returned.symm.trans returned'
        exact reaches.mp safe.alloc_le
      · intro admitted
        have after := keeps (admitted m returned listed)
        exact (after.guest fun _ => rfl).safe
  | guest others mapped =>
      refine iff_of_true (inv.guest mapped).safe fun m returned listed => ?_
      exact absurd listed (others m returned)

end Steps

/-! ## The end of the host allocation -/

/-- `sys_brk` keeps the end of the host allocation at a page boundary. -/
theorem sysBrk_aligned {page : PageSize} {m m' : Machine} {value : U64}
    (aligned : page.bytes ∣ m.mmu.hostAlloc.toNat) (called : sysBrk page m = .ok (value, m')) :
    page.bytes ∣ m'.mmu.hostAlloc.toNat := by
  obtain ⟨-, -, allocated⟩ := sysBrk_ok called
  cases allocated.moved with
  | grow grows len_eq accepts hostAlloc mem =>
      rw [hostAlloc, len_eq, up_eq_down]
      exact dvd_toNat_add aligned (dvd_toNat_down _)
  | shrink shrinks len_eq accepts hostAlloc mem =>
      have end' : m'.mmu.guestEnd = up (m.mmu.alloc + (brkAddr m - m.mmu.alloc)) page.word :=
        guestEnd_shrink (len_eq ▸ hostAlloc)
      rw [← toHost_guestEnd, end', up_eq_down]
      exact dvd_toNat_add (dvd_toNat_down _) dvd_guestMemoryOffset
  | stay _ _ hostAlloc mem => rwa [hostAlloc]

theorem BrkRun.aligned {page : PageSize} {admits : Machine → Prop} {first m : Machine}
    (start : page.bytes ∣ first.mmu.hostAlloc.toNat) (run : BrkRun page admits first m) :
    page.bytes ∣ m.mmu.hostAlloc.toNat := by
  induction run with
  | start => exact start
  | brk _ _ called aligned => exact sysBrk_aligned aligned called
  | guest _ _ aligned => exact aligned

/-! ## What an ECALL leaves as it was -/

section Ecall

variable {σ : Type} {page : PageSize} {os : Os σ} {F : FloatOps} {backend : Backend}
  {s s' : State} {w w' : World σ} {p p' : Main σ} {m : Vm} {reason : ExitReason}

/-- An ECALL that is answered by the function `f`: the registers but `a0` and the place in the
program stay, and, but for the pages that the break moves over, what is mapped and what the guest
has there, except what `f` writes. -/
structure Answered (f : SyscallT) (s : State) (w : World σ) (s' : State) (w' : World σ) : Prop where
  state : ∃ ret, s' = { s with mem := s'.mem }.setGp .a0 ret
  others : f ≠ .sysBrk → w'.mmu = w.mmu
  mapped : ∀ x, Aside w.mmu w'.mmu (toHost x) →
    (w'.host.mem (toHost x)).isSome = (w.host.mem (toHost x)).isSome
  memory : ∀ x, Aside w.mmu w'.mmu (toHost x) → (w.host.mem (toHost x)).isSome →
    ¬ f.Writes (ecallMachine s w) (toHost x) → s'.mem x = s.mem x
  unmapped : ∀ x, Aside w.mmu w'.mmu (toHost x) → w.host.mem (toHost x) = none → s'.mem x = 0

theorem toGuest_toHost (x : U64) : toGuest (toHost x) = x := BitVec.add_sub_cancel ..

/-- **An ECALL.** -/
theorem mainReturn_answered (contract : os.Contract)
    (aligned : page.bytes ∣ w.mmu.hostAlloc.toNat)
    (returned : mainReturn page os reason s w = .ok (.inl (s', w'))) :
    reason = .ecall ∧ ∃ f, Listed (s.gpRegs .a7) f ∧ Answered f s w s' w' := by
  rcases mainReturn_ok returned with ⟨-, impossible⟩ | ⟨ecall, answer, called, outcome⟩
  · cases impossible
  obtain ⟨code, os', -, impossible⟩ | ⟨ret, m', os', rfl, same⟩ := outcome
  · cases impossible
  cases same
  obtain ⟨f, listed, called⟩ := doSyscall_ok called
  have frame := f.call_frame contract (fun _ => aligned) called
  have mapped : ∀ x, Aside w.mmu m'.mmu (toHost x) →
      (m'.host.mem (toHost x)).isSome = (w.host.mem (toHost x)).isSome := by
    intro x aside
    by_cases brk : f = .sysBrk
    · subst brk
      rw [frame.memory _ aside id]
      exact isSome_commit
    · rw [frame.mapped brk]
      exact isSome_commit
  refine ⟨ecall, f, listed, ⟨ret, by rw [frame.registers]; rfl⟩, fun other => (frame.others other).1,
    mapped, fun x aside some' outside => ?_, fun x aside none' => ?_⟩
  · obtain ⟨v, byte⟩ := Option.isSome_iff_exists.mp some'
    have kept : m'.host.mem (toHost x) = commit w.host.mem s.mem (toHost x) :=
      frame.memory _ aside outside
    change (m'.host.mem (toHost x)).getD 0 = _
    rw [kept, commit, byte, toGuest_toHost]
    rfl
  · have same := mapped x aside
    rw [none', Option.isSome_none, Option.isSome_eq_false_iff, Option.isNone_iff_eq_none] at same
    change (m'.host.mem (toHost x)).getD 0 = 0
    rw [same]
    rfl

/-- A step of the process at an ECALL. -/
theorem mainIter_answered (contract : os.Contract)
    (aligned : page.bytes ∣ p.world.mmu.hostAlloc.toNat)
    (returned : machineIter F backend p.at_ = .ok (.inr (.ecall, m)))
    (round : mainIter page os F backend p = .ok (.inl p')) :
    ∃ f s, Listed (m.state.gpRegs .a7) f ∧ p'.at_ = .outer { m with state := s } ∧
      Answered f m.state p.world s p'.world := by
  cases mainIter_next round with
  | @step c c' w inner => cases returned.symm.trans inner
  | @ecall c w w' reason m₂ s returned' answered =>
      cases returned.symm.trans returned'
      obtain ⟨-, f, listed, kept⟩ := mainReturn_answered contract aligned answered
      exact ⟨f, s, listed, rfl, kept⟩

end Ecall

/-! ## A program that moves its break -/

/-- The file of `brkElf` with `lui a0, 0x2020` before the first ECALL. -/
def growElf : List U8 := brkElf.take 120 ++ [0x37, 0x05, 0x02, 0x02] ++ brkElf.drop 124

set_option maxRecDepth 10000 in
theorem growElf_steps : ∃ loaded p₀ m₁ m₂ m₃ m₄ m₅ m₆ p,
    mmuLoadElf page4096 growElf {} emptyHost = .ok loaded ∧
    mainStart page4096 (fun _ => some growElf) emptyHost twoStrings () = .ok p₀ ∧
    p₀.world.mmu.alloc = 0x2011007 ∧ p₀.world.mmu.guestEnd = 0x2012000 ∧
    machineIter default retLinked p₀.at_ = .ok (.inl (.inner .interp m₁)) ∧
    machineIter default retLinked (.inner .interp m₁) = .ok (.inl (.interp m₂)) ∧
    machineIter default retLinked (.interp m₂) = .ok (.inl (.interp m₃)) ∧
    machineIter default retLinked (.interp m₃) = .ok (.inl (.interp m₄)) ∧
    machineIter default retLinked (.interp m₄) = .ok (.inl (.left m₅)) ∧
    machineIter default retLinked (.left m₅) = .ok (.inr (.ecall, m₆)) ∧
    mainIter page4096 statOs default retLinked ⟨.left m₅, p₀.world⟩ = .ok (.inl p) ∧
    brkAddr (ecallMachine m₆.state p₀.world) = 0x2020000 ∧
    m₆.state.gpRegs .a7 = 214 ∧ p.world.mmu.alloc = 0x2020000 :=
  ⟨_, _, _, _, _, _, _, _, _, rfl, rfl, rfl, rfl, rfl, rfl, rfl, rfl, rfl, rfl, rfl, rfl, rfl, rfl⟩

/-- The process comes to its ECALL, which moves the break. -/
theorem growElf_runs : ∃ loaded p₀ p m p',
    mmuLoadElf page4096 growElf {} emptyHost = .ok loaded ∧
    mainStart page4096 (fun _ => some growElf) emptyHost twoStrings () = .ok p₀ ∧
    p₀.world.mmu.alloc = 0x2011007 ∧ p₀.world.mmu.guestEnd = 0x2012000 ∧
    (∀ admits, MainRun page4096 statOs default retLinked admits p₀ p) ∧ p.world = p₀.world ∧
    machineIter default retLinked p.at_ = .ok (.inr (.ecall, m)) ∧
    mainIter page4096 statOs default retLinked p = .ok (.inl p') ∧
    brkAddr (ecallMachine m.state p.world) = 0x2020000 ∧ m.state.gpRegs .a7 = 214 ∧
    p'.world.mmu.alloc = 0x2020000 := by
  obtain ⟨loaded, p₀, m₁, m₂, m₃, m₄, m₅, m₆, p, load, started, alloc, end', first, second, third,
    fourth, fifth, returned, round, addr, number, moved⟩ := growElf_steps
  refine ⟨loaded, p₀, ⟨.left m₅, p₀.world⟩, m₆, p, load, started, alloc, end', fun admits => ?_, rfl,
    returned, round, addr, number, moved⟩
  have here : MainRun page4096 statOs default retLinked admits p₀ p₀ := .start
  exact ((((here.inside first).inside second).inside third).inside fourth).inside fifth

/-! ## The process from its start -/

section Start

variable {σ : Type} {page : PageSize} {os : Os σ} {F : FloatOps} {backend : Backend}
  {files : CString → Option (List U8)} {argv : Argv} {s : σ} {p₀ p p' : Main σ} {m : Vm}

/-- In every run the host allocation ends at a page. -/
theorem aligned_of_run {admits : Machine → Prop} (contract : os.Contract)
    (started : mainStart page files emptyHost argv s = .ok p₀)
    (run : MainRun page os F backend admits p₀ p) : page.bytes ∣ p.world.mmu.hostAlloc.toNat :=
  (main_brkRun contract run).aligned (aligned_of_started started)

/-- **The break of the process.** In every run whose calls of `sys_brk` fit, however the backend
compiles, the break is between its base and the end of the host allocation with every page
below it mapped, and the program is mapped as it was loaded; and a further step leaves it so
exactly when it makes no call that does not fit. -/
theorem main_brk_safe {file : List U8} {loaded : Mmu × Host} (contract : os.Contract)
    (opened : argv.strings.head?.bind files = some file)
    (load : mmuLoadElf page file {} emptyHost = .ok loaded)
    (started : mainStart page files emptyHost argv s = .ok p₀)
    (room : p₀.world.mmu.alloc ≤ p₀.world.mmu.guestEnd)
    (run : MainRun page os F backend (BrkFits page) p₀ p) :
    BrkSafe page loaded p.machine ∧ ∀ p', mainIter page os F backend p = .ok (.inl p') →
      (BrkSafe page loaded p'.machine ↔ Admitted F backend (BrkFits page) p) := by
  obtain ⟨at', reserved⟩ := reserved_of_started opened load started
  have start : BrkInv page loaded p₀.machine :=
    reserved.brkInv at' (Nat.add_pos_left (Nat.two_pow_pos 25) _) room
  have inv := (main_brkRun contract run).brkInv start
  exact ⟨inv.safe, fun p' round => brkSafe_next contract inv (mainIter_next round)⟩

/-- The program moves its break up, over 14 new pages, and is safe. -/
theorem main_brk_safe_grow : ∃ (loaded : Mmu × Host) (p' : Main Unit),
    mmuLoadElf page4096 growElf {} emptyHost = .ok loaded ∧
    p'.world.mmu.alloc = 0x2020000 ∧ BrkSafe page4096 loaded p'.machine := by
  obtain ⟨loaded, p₀, p, m, p', load, started, alloc, end', run, same, returned, round, addr, number,
    moved⟩ := growElf_runs
  have room : p₀.world.mmu.alloc ≤ p₀.world.mmu.guestEnd := by
    rw [alloc, end']
    decide
  have fits : Admitted default retLinked (BrkFits page4096) p := by
    intro m' returned' _
    cases returned.symm.trans returned'
    right
    change (brkAddr (ecallMachine m.state p.world) - p.world.mmu.alloc).slt 0 = false ∧
      (brkAddr (ecallMachine m.state p.world)).toNat + page4096.bytes ≤ 2 ^ 64
    rw [addr, same, alloc]
    decide
  obtain ⟨-, further⟩ := main_brk_safe statOs_contract rfl load started room (run _)
  exact ⟨loaded, p', load, moved, (further p' round).mpr fits⟩

/-- **ECALLs of the process.** In every run an ECALL is answered by one function of the tables,
and leaves of the guest what that function does not write. -/
theorem main_ecall_frame (contract : os.Contract)
    (started : mainStart page files emptyHost argv s = .ok p₀)
    (steps : Iteration.Steps (mainIter page os F backend) p₀ p)
    (returned : machineIter F backend p.at_ = .ok (.inr (.ecall, m)))
    (round : mainIter page os F backend p = .ok (.inl p')) :
    ∃ f s', Listed (m.state.gpRegs .a7) f ∧ p'.at_ = .outer { m with state := s' } ∧
      Answered f m.state p.world s' p'.world :=
  mainIter_answered contract (aligned_of_run contract started (mainRun_of_steps steps)) returned
    round

/-- The ECALL of the program is answered by `sys_brk`. -/
theorem main_ecall_frame_grow : ∃ (m : Vm) (p p' : Main Unit) (s' : State),
    mainIter page4096 statOs default retLinked p = .ok (.inl p') ∧
      p'.at_ = .outer { m with state := s' } ∧
      Answered .sysBrk m.state p.world s' p'.world := by
  obtain ⟨loaded, p₀, p, m, p', load, started, alloc, end', run, same, returned, round, addr, number,
    moved⟩ := growElf_runs
  have brk : Listed 214 .sysBrk := .inl (by decide)
  obtain ⟨f, s', listed, next, answered⟩ :=
    main_ecall_frame statOs_contract started (run fun _ => True).steps returned round
  rw [number] at listed
  cases listed.unique brk
  exact ⟨m, p, p', s', round, next, answered⟩

/-- **The stack of the process.** In every run whose calls of `sys_brk` give back no page from
below the end of what setup allocated, the stack and the strings are mapped, and a further ECALL
changes no byte there but those it writes. -/
theorem main_keeps_setup {file : List U8} {loaded : Mmu × Host} (contract : os.Contract)
    (opened : argv.strings.head?.bind files = some file)
    (load : mmuLoadElf page file {} emptyHost = .ok loaded)
    (started : mainStart page files emptyHost argv s = .ok p₀)
    (run : MainRun page os F backend (fun m => ¬ Releases page p₀.machine m) p₀ p) :
    (∀ x, SetupPages page loaded.1 argv x → (p.world.host.mem (toHost x)).isSome) ∧
      ∀ m p', Admitted F backend (fun m => ¬ Releases page p₀.machine m) p →
        machineIter F backend p.at_ = .ok (.inr (.ecall, m)) →
        mainIter page os F backend p = .ok (.inl p') → ∃ f, Listed (m.state.gpRegs .a7) f ∧
          ∀ x, SetupPages page loaded.1 argv x →
            ¬ f.Writes (ecallMachine m.state p.world) (toHost x) →
            p'.at_.vm.state.mem x = m.state.mem x := by
  obtain ⟨at', reserved⟩ := reserved_of_started opened load started
  have kept : ∀ {q}, MainRun page os F backend (fun m => ¬ Releases page p₀.machine m) p₀ q →
      SetupKept page loaded.1 argv p₀.machine q.machine :=
    fun run => (main_brkRun contract run).setupKept at' reserved
  refine ⟨(kept run).mapped, fun m p' admitted returned round => ?_⟩
  obtain ⟨f, s', listed, next, answered⟩ :=
    mainIter_answered contract (aligned_of_run contract started run) returned round
  refine ⟨f, listed, fun x inside outside => ?_⟩
  rw [next]
  refine answered.memory x (.inl ?_) ((kept run).mapped x inside) outside
  -- both ends of the host allocation are past what setup allocated
  have below := ((setupPages_iff at' reserved.grown x).mp inside).2
  exact ⟨BitVec.lt_def.mpr (below.trans_le (kept run).hostAlloc),
    BitVec.lt_def.mpr (below.trans_le (kept (run.next admitted round)).hostAlloc)⟩

/-- The program moves its break, and its stack stays as it is. -/
theorem main_keeps_setup_grow : ∃ (loaded : Mmu × Host) (m : Vm) (p' : Main Unit),
    mmuLoadElf page4096 growElf {} emptyHost = .ok loaded ∧ m.state.gpRegs .a7 = 214 ∧
    p'.world.mmu.alloc = 0x2020000 ∧
    ∀ x, SetupPages page4096 loaded.1 twoStrings x →
      p'.at_.vm.state.mem x = m.state.mem x := by
  obtain ⟨loaded, p₀, p, m, p', load, started, alloc, end', run, same, returned, round, addr, number,
    moved⟩ := growElf_runs
  have kept : Admitted default retLinked (fun m => ¬ Releases page4096 p₀.machine m) p := by
    rintro m' returned' - ⟨negative, -⟩
    cases returned.symm.trans returned'
    change (brkAddr (ecallMachine m.state p.world) - p.world.mmu.alloc).slt 0 = true at negative
    rw [addr, same, alloc] at negative
    exact absurd negative (by decide)
  have brk : Listed 214 .sysBrk := .inl (by decide)
  obtain ⟨-, further⟩ := main_keeps_setup statOs_contract rfl load started (run _)
  obtain ⟨f, listed, stays⟩ := further m p' kept returned round
  rw [number] at listed
  cases listed.unique brk
  exact ⟨loaded, m, p', load, number, moved, fun x inside => stays x inside id⟩

end Start

end RiscvEmu
