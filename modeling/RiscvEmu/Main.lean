import RiscvEmu.CodeOwnership
import RiscvEmu.Syscall

/-!
# The emulator as a process

`main`: it loads a program, sets it up, and calls `machine_step` until the guest halts; every
ECALL is answered by `do_syscall`. `Main` is a place in this loop with what is around the
machine, `World`. `aloneMainIter` is the same loop with interpretation alone in place of
`machine_step`.

The state of the guest has its memory; the mapped pages of the host are brought up to date
before a system call (`Space.commit`), and the guest sees what the call has left in them. What
the guest reads or writes at an address that is not mapped is outside the model.

* `mainIter_next`, `mainIter_exit`: what a step of the process is.
-/

set_option autoImplicit false

namespace RiscvEmu

open Paging

/-! ## Loading -/

/-- `machine_load_program` with the contents of the file, or none when it cannot be opened. -/
def machineLoadProgram (page : PageSize) (file : Option (List U8)) (mmu : Mmu) (host : Host) :
    Except Abort (U64 × Mmu × Host) :=
  match file with
  | none => .error (.fatal "strerror(errno)")
  | some file => do
      let (mmu, host) ← mmuLoadElf page file mmu host
      return (mmu.entry, mmu, host)

/-! ## The process -/

/-- What is around the machine. -/
structure World (σ : Type) where
  mmu : Mmu
  host : Host
  os : σ

/-- Where the process is: in a call of `machine_step`. -/
structure Main (σ : Type) where
  at_ : Control
  world : World σ

/-- The exit status, and the state of the system. -/
abbrev Exited (σ : Type) := U32 × σ

/-- The mapped pages hold what the guest has in them. -/
def commit (space : Space) (mem : Bytes.Memory) : Space :=
  fun x => (space x).map fun _ => mem (toGuest x)

section Process

variable {σ : Type} (page : PageSize) (os : Os σ)

/-- The machine that `do_syscall` is given. -/
def ecallMachine (s : State) (w : World σ) : Machine where
  gpRegs := s.gpRegs
  mmu := w.mmu
  host := { w.host with mem := commit w.host.mem s.mem }

/-- The body of the loop of `main` after `machine_step` has returned. -/
def mainReturn (reason : ExitReason) (s : State) (w : World σ) :
    Except Abort ((State × World σ) ⊕ Exited σ) :=
  if reason = .halt then .ok (.inr (0, w.os))
  else do
    cassert (reason = .ecall) "reason == ecall"
    match ← doSyscall page os (ecallMachine s w) w.os (s.gpRegs .a7) with
    | .exits code os => return .inr (code, os)
    | .returns ret m os =>
        let s := { s with gpRegs := m.gpRegs, mem := guestView m.host.mem }
        return .inl (s.setGp .a0 ret, { mmu := m.mmu, host := m.host, os := os })

variable (F : FloatOps) (backend : Backend)

/-- A step of the process. -/
def mainIter (p : Main σ) : Except Abort (Main σ ⊕ Exited σ) := do
  match ← machineIter F backend p.at_ with
  | .inl c => return .inl { p with at_ := c }
  | .inr (reason, m) =>
      match ← mainReturn page os reason m.state p.world with
      | .inl (s, w) => return .inl { at_ := .outer { m with state := s }, world := w }
      | .inr exited => return .inr exited

/-- A round of the process with interpretation alone. -/
def aloneMainIter (p : State × World σ) : Except Abort ((State × World σ) ⊕ Exited σ) := do
  match ← aloneIter F p.1 with
  | .inl s => return .inl (s, p.2)
  | .inr (reason, s) => mainReturn page os reason s p.2

/-- `main` up to its loop. The files are those that can be opened. -/
def mainStart (files : CString → Option (List U8)) (host : Host) (argv : Argv) (s : σ) :
    Except Abort (Main σ) := do
  cassert (argv.strings ≠ []) "argc > 1"
  let file := argv.strings.head?.bind files
  let (pc, mmu, host) ← machineLoadProgram page file {} host
  let m ← machineSetup page { gpRegs := fun _ => 0, mmu := mmu, host := host } argv
  let state : State := {
    exitReason := .none
    reenterPc := 0
    gpRegs := m.gpRegs
    fpRegs := fun _ => 0
    pc := pc
    mem := guestView m.host.mem }
  return { at_ := .outer ⟨state, newCache⟩, world := { mmu := m.mmu, host := m.host, os := s } }

end Process

/-! ## What a step is -/

section Steps

variable {σ : Type} {page : PageSize} {os : Os σ} {F : FloatOps} {backend : Backend}
  {p p' : Main σ} {s s' : State} {w w' : World σ} {reason : ExitReason} {exited : Exited σ}

/-- The return of `machine_step` is followed by a system call, or by the end. -/
theorem mainReturn_ok {out : (State × World σ) ⊕ Exited σ}
    (returned : mainReturn page os reason s w = .ok out) :
    reason = .halt ∧ out = .inr (0, w.os) ∨ reason = .ecall ∧
      ∃ answer, doSyscall page os (ecallMachine s w) w.os (s.gpRegs .a7) = .ok answer ∧
        ((∃ code os', answer = .exits code os' ∧ out = .inr (code, os')) ∨
          ∃ ret m os', answer = .returns ret m os' ∧ out = .inl
            (({ s with gpRegs := m.gpRegs, mem := guestView m.host.mem } : State).setGp .a0 ret,
              ⟨m.mmu, m.host, os'⟩)) := by
  rw [mainReturn] at returned
  split at returned
  · next halts =>
      cases returned
      exact .inl ⟨halts, rfl⟩
  · obtain ⟨ecall, returned⟩ := cassert_bind_ok.mp returned
    obtain ⟨answer, called, returned⟩ := bind_ok.mp returned
    refine .inr ⟨ecall, answer, called, ?_⟩
    cases answer with
    | exits code os' =>
        cases returned
        exact .inl ⟨code, os', rfl, rfl⟩
    | returns ret m os' =>
        cases returned
        exact .inr ⟨ret, m, os', rfl, rfl⟩

theorem mainReturn_of_returns {ret : U64} {m : Machine} {os' : σ}
    (called : doSyscall page os (ecallMachine s w) w.os (s.gpRegs .a7) = .ok (.returns ret m os')) :
    mainReturn page os .ecall s w = .ok (.inl
      (({ s with gpRegs := m.gpRegs, mem := guestView m.host.mem } : State).setGp .a0 ret,
        ⟨m.mmu, m.host, os'⟩)) := by
  have other : ExitReason.ecall ≠ .halt := by decide
  rw [mainReturn, if_neg other, called]
  rfl

theorem mainReturn_of_exits {code : U32} {os' : σ}
    (called : doSyscall page os (ecallMachine s w) w.os (s.gpRegs .a7) = .ok (.exits code os')) :
    mainReturn page os .ecall s w = .ok (.inr (code, os')) := by
  have other : ExitReason.ecall ≠ .halt := by decide
  rw [mainReturn, if_neg other, called]
  rfl

/-- A step inside `machine_step`, or a system call that returns. -/
inductive MainNext (page : PageSize) (os : Os σ) (F : FloatOps) (backend : Backend) :
    Main σ → Main σ → Prop where
  | step {c c' : Control} {w : World σ} (round : machineIter F backend c = .ok (.inl c')) :
      MainNext page os F backend ⟨c, w⟩ ⟨c', w⟩
  | ecall {c : Control} {w w' : World σ} {reason : ExitReason} {m : Vm} {s : State}
      (returned : machineIter F backend c = .ok (.inr (reason, m)))
      (answered : mainReturn page os reason m.state w = .ok (.inl (s, w'))) :
      MainNext page os F backend ⟨c, w⟩ ⟨.outer { m with state := s }, w'⟩

/-- **A step of the process.** -/
theorem mainIter_next (round : mainIter page os F backend p = .ok (.inl p')) :
    MainNext page os F backend p p' := by
  obtain ⟨out, inner, round⟩ := bind_ok.mp round
  cases out with
  | inl c =>
      cases round
      exact .step inner
  | inr returned =>
      obtain ⟨reason, m⟩ := returned
      obtain ⟨answer, answered, round⟩ := bind_ok.mp round
      cases answer with
      | inl next =>
          cases round
          exact .ecall inner answered
      | inr exited => cases round

/-- **The end of the process.** -/
theorem mainIter_exit (round : mainIter page os F backend p = .ok (.inr exited)) :
    ∃ reason m, machineIter F backend p.at_ = .ok (.inr (reason, m)) ∧
      mainReturn page os reason m.state p.world = .ok (.inr exited) := by
  obtain ⟨out, inner, round⟩ := bind_ok.mp round
  cases out with
  | inl c => cases round
  | inr returned =>
      obtain ⟨reason, m⟩ := returned
      obtain ⟨answer, answered, round⟩ := bind_ok.mp round
      cases answer with
      | inl next => cases round
      | inr result =>
          cases round
          exact ⟨reason, m, inner, answered⟩

theorem mainIter_of_next {c c' : Control} (round : machineIter F backend c = .ok (.inl c')) :
    mainIter page os F backend ⟨c, w⟩ = .ok (.inl ⟨c', w⟩) := by
  rw [mainIter, round]
  rfl

theorem mainIter_of_exit {c : Control} {m : Vm}
    (returned : machineIter F backend c = .ok (.inr (reason, m)))
    (answered : mainReturn page os reason m.state w = .ok (.inr exited)) :
    mainIter page os F backend ⟨c, w⟩ = .ok (.inr exited) :=
  bind_ok.mpr ⟨_, returned, bind_ok.mpr ⟨_, answered, rfl⟩⟩

/-- In `machine_step` a step of the process is a step of a run of calls. -/
theorem MainNext.vm (next : MainNext page os F backend p p') : VmNext F backend p.at_ p'.at_ := by
  cases next with
  | step round => exact .step round
  | ecall returned _ => exact .call returned _

end Steps

/-! ## How the process ends -/

section Ends

variable {σ : Type} {page : PageSize} {os : Os σ} {F : FloatOps} {backend : Backend}
  {p p₀ : Main σ} {s : State} {w : World σ} {m : Machine} {reason : ExitReason} {code : U32}
  {os' : σ} {o : σ} {e : Abort}

/-- `machine_step` returns with a halt or an ECALL: the assertion of `main` holds. -/
theorem machineIter_reason {m : Vm} {c : Control}
    (returned : machineIter F backend c = .ok (.inr (reason, m))) :
    reason = .halt ∨ reason = .ecall := by
  rcases machineIter_ok returned with ⟨c', impossible, -⟩ | ⟨r, same, ends⟩
  · cases impossible
  · cases same
    cases ends with
    | stopped => exact .inl rfl
    | exit other => exact other.symm

/-- The numbers of `sys_exit`. -/
theorem listed_sysExit {n : U64} : Listed n .sysExit ↔ n = 93 ∨ n = 94 := by
  have entries : ∀ entry ∈ syscallEntries, entry.2 = .sysExit → entry.1 = 93 ∨ entry.1 = 94 := by
    decide
  have oldEntries : ∀ entry ∈ oldSyscallEntries, entry.2 ≠ .sysExit := by decide
  constructor
  · rintro (listed | ⟨-, listed⟩)
    · exact (entries _ listed rfl).imp BitVec.eq_of_toNat_eq BitVec.eq_of_toNat_eq
    · exact absurd rfl (oldEntries _ listed)
  · rintro (rfl | rfl)
    · exact .inl (by decide)
    · exact .inl (by decide)

/-- Of the functions of the tables only `sys_exit` ends the process. -/
theorem SyscallT.call_exits {f : SyscallT} (called : f.call page os m o = .ok (.exits code os')) :
    f = .sysExit ∧ code = (m.gpRegs .a0).setWidth 32 ∧ os' = o := by
  cases f with
  | sysExit =>
      cases called
      exact ⟨rfl, rfl, rfl⟩
  | sysUnimplemented | sysWrite | sysOpenat | sysOpen | sysLseek | sysGettimeofday | sysRead =>
      cases called
  | sysClose =>
      simp only [call, RiscvEmu.sysClose] at called
      split at called
      · cases called
      · cases called
  | sysFstat =>
      simp only [call, RiscvEmu.sysFstat] at called
      split at called
      · cases called
      · obtain ⟨host, -, done⟩ := bind_ok.mp called
        cases done
  | sysBrk =>
      obtain ⟨⟨addr, m₁⟩, -, done⟩ := bind_ok.mp called
      cases done

/-- The end of the process is a halt or an `exit`. -/
theorem mainReturn_exits : mainReturn page os reason s w = .ok (.inr (code, os')) ↔
    os' = w.os ∧ (reason = .halt ∧ code = 0 ∨ reason = .ecall ∧
      (s.gpRegs .a7 = 93 ∨ s.gpRegs .a7 = 94) ∧ code = (s.gpRegs .a0).setWidth 32) := by
  constructor
  · intro returned
    rcases mainReturn_ok returned with ⟨halt, same⟩ | ⟨ecall, answer, called, outcome⟩
    · cases same
      exact ⟨rfl, .inl ⟨halt, rfl⟩⟩
    · obtain ⟨code', o, rfl, same⟩ | ⟨_, _, _, _, impossible⟩ := outcome
      · cases same
        obtain ⟨f, listed, called⟩ := doSyscall_ok called
        obtain ⟨rfl, status, same⟩ := SyscallT.call_exits called
        exact ⟨same, .inr ⟨ecall, listed_sysExit.mp listed, status⟩⟩
      · cases impossible
  · rintro ⟨rfl, ⟨rfl, rfl⟩ | ⟨rfl, number, rfl⟩⟩
    · exact if_pos rfl
    · apply mainReturn_of_exits
      rcases doSyscall_dispatch page os (ecallMachine s w) w.os (s.gpRegs .a7) with
        ⟨f, listed, same⟩ | ⟨unlisted, -⟩
      · cases (listed .sysExit).mp (listed_sysExit.mpr number)
        rw [same]
        rfl
      · exact absurd (listed_sysExit.mpr number) (unlisted _)

/-- The process dies on an ECALL when the number is not listed, or in the function. -/
theorem mainReturn_dies : mainReturn page os .ecall s w = .error e ↔
    (∀ f, ¬ Listed (s.gpRegs .a7) f) ∧ e = .fatal "unknown syscall" ∨
      ∃ f, Listed (s.gpRegs .a7) f ∧ f.call page os (ecallMachine s w) w.os = .error e := by
  have dies : mainReturn page os .ecall s w = .error e ↔
      doSyscall page os (ecallMachine s w) w.os (s.gpRegs .a7) = .error e := by
    have other : ExitReason.ecall ≠ .halt := by decide
    rw [mainReturn, if_neg other]
    constructor
    · intro died
      rcases bind_error.mp died with impossible | ⟨_, _, died⟩
      · cases impossible
      · rcases bind_error.mp died with died | ⟨answer, _, died⟩
        · exact died
        · cases answer <;> cases died
    · intro died
      exact bind_error.mpr (.inr ⟨(), rfl, bind_error.mpr (.inl died)⟩)
  rw [dies]
  rcases doSyscall_dispatch page os (ecallMachine s w) w.os (s.gpRegs .a7) with
    ⟨f, listed, same⟩ | ⟨unlisted, same⟩
  · rw [same]
    constructor
    · intro died
      exact .inr ⟨f, (listed f).mpr rfl, died⟩
    · rintro (⟨unlisted, -⟩ | ⟨g, here, died⟩)
      · exact absurd ((listed f).mpr rfl) (unlisted f)
      · rwa [← (listed g).mp here]
  · rw [same]
    constructor
    · intro died
      cases died
      exact .inl ⟨unlisted, rfl⟩
    · rintro (⟨-, rfl⟩ | ⟨g, here, -⟩)
      · rfl
      · exact absurd here (unlisted g)

/-- **How a process ends.** It exits when it comes to a halt, with status 0, or to an ECALL of
`exit` or `exit_group`, with the status in `a0`, and in no other way. It dies in `machine_step`,
or on another ECALL: because the number is not listed, or in the function that is listed for it. -/
theorem main_ends (page : PageSize) (os : Os σ) (F : FloatOps) (backend : Backend) (p₀ : Main σ) :
    (∀ code os', Iteration.Returns (mainIter page os F backend) p₀ (code, os') ↔
      ∃ p m reason, Iteration.Steps (mainIter page os F backend) p₀ p ∧
        machineIter F backend p.at_ = .ok (.inr (reason, m)) ∧ os' = p.world.os ∧
        (reason = .halt ∧ code = 0 ∨ reason = .ecall ∧
          (m.state.gpRegs .a7 = 93 ∨ m.state.gpRegs .a7 = 94) ∧
          code = (m.state.gpRegs .a0).setWidth 32)) ∧
    ∀ e, Iteration.Aborts (mainIter page os F backend) p₀ e ↔
      ∃ p, Iteration.Steps (mainIter page os F backend) p₀ p ∧
        (machineIter F backend p.at_ = .error e ∨
          ∃ m, machineIter F backend p.at_ = .ok (.inr (.ecall, m)) ∧
            ((∀ f, ¬ Listed (m.state.gpRegs .a7) f) ∧ e = .fatal "unknown syscall" ∨
              ∃ f, Listed (m.state.gpRegs .a7) f ∧
                f.call page os (ecallMachine m.state p.world) p.world.os = .error e)) := by
  refine ⟨fun code os' => ?_, fun e => ?_⟩
  · rw [Iteration.returns_iff_steps_leave]
    constructor
    · rintro ⟨p, steps, exits⟩
      obtain ⟨reason, m, returned, answered⟩ := mainIter_exit exits
      exact ⟨p, m, reason, steps, returned, mainReturn_exits.mp answered⟩
    · rintro ⟨p, m, reason, steps, returned, ends⟩
      exact ⟨p, steps, mainIter_of_exit returned (mainReturn_exits.mpr ends)⟩
  · rw [Iteration.aborts_iff_steps_die]
    refine exists_congr fun p => and_congr_right fun steps => ?_
    rw [mainIter, bind_error]
    refine or_congr_right ?_
    constructor
    · rintro ⟨out, returned, died⟩
      cases out with
      | inl c => cases died
      | inr result =>
          obtain ⟨reason, m⟩ := result
          rcases bind_error.mp died with died | ⟨answer, -, died⟩
          · rcases machineIter_reason returned with rfl | rfl
            · cases died
            · exact ⟨m, returned, mainReturn_dies.mp died⟩
          · cases answer <;> cases died
    · rintro ⟨m, returned, died⟩
      exact ⟨_, returned, bind_error.mpr (.inl (mainReturn_dies.mpr died))⟩

end Ends

end RiscvEmu
