import RiscvEmu.Compile
import RiscvEmu.Genblock
import RiscvEmu.Interpret

/-!
# Dispatching

`machine_step`. Its outer loop finds code for a pc, in the cache, by compiling a block, or
in the interpreter; its inner loop runs code and decides from the exit reason where to go
on. `Control` is a place in these loops, `exec_block_interp` included, and `machineIter`
goes from one place to the next.

The compiler and the processor are not part of the program: `Backend` has the object that
the one leaves in `elfbuf`, and what the other does when it is sent into the region.
-/

set_option autoImplicit false

namespace RiscvEmu

/-- What the program runs on. -/
structure Backend where
  /-- What `clang` leaves in `elfbuf` for a source. -/
  clang : Source → Bytes.Memory
  /-- The call of the code at a place in the region `jitcode`. -/
  call : Bytes.Memory → U64 → State → Except Abort State

/-- The part of `machine_t` that stepping uses; the state holds the guest memory. -/
structure Vm where
  state : State
  cache : Cache

/-- `code`: the interpreter, or compiled code at a place in the region. -/
inductive Code where
  | interp
  | jit (entry : U64)
  deriving DecidableEq

/-- Where `machine_step` is. -/
inductive Control where
  /-- The head of the outer loop. -/
  | outer (m : Vm)
  /-- The head of the inner loop. -/
  | inner (code : Code) (m : Vm)
  /-- The head of the loop of `exec_block_interp`. -/
  | interp (m : Vm)
  /-- The call of the code has returned. -/
  | left (m : Vm)

/-- `m->state.pc = m->state.reenter_pc`. -/
def Vm.reenter (m : Vm) : Vm :=
  { m with state := { m.state with pc := m.state.reenterPc } }

/-- `m->state.exit_reason = none`. -/
def Vm.cleared (m : Vm) : Vm :=
  { m with state := { m.state with exitReason := .none } }

section Step

variable (F : FloatOps) (backend : Backend)

/-- The body of the outer loop, up to the inner loop. -/
def machineFind (m : Vm) : Except Abort (Code × Vm) := do
  match ← cacheLookup m.cache m.state.pc with
  | some entry => return (.jit entry, m)
  | none =>
      let (hot, cache) ← cacheHot m.cache m.state.pc
      if hot then
        -- what the static record of `machine_genblock` holds does not matter
        let source ← machineGenblock {} m.state.mem m.state.pc
        let (entry, cache) ← machineCompile (backend.clang source) cache m.state.pc
        return (.jit entry, { m with cache := cache })
      else return (.interp, { m with cache := cache })

/-- After the call of the code: the rest of the inner loop, and of the outer one. -/
def machineDispatch (m : Vm) : Except Abort (Control ⊕ ExitReason × Vm) := do
  cassert (m.state.exitReason ≠ .none) "m->state.exit_reason != none"
  match m.state.exitReason with
  | .directBranch | .indirectBranch =>
      match ← cacheLookup m.cache m.state.reenterPc with
      | some entry => return .inl (.inner (.jit entry) m.reenter)
      | none => return .inl (.outer m.reenter)
  | .interp => return .inl (.inner .interp m.reenter)
  | .ecall => return .inr (.ecall, m.reenter)
  | .halt => return .inr (.halt, m.reenter)
  | .none => .error .unreachable

/-- From one place in `machine_step` to the next. -/
def machineIter : Control → Except Abort (Control ⊕ ExitReason × Vm)
  | .outer m =>
      if m.state.pc = 0 then .ok (.inr (.halt, m))
      else do
        let (code, m) ← machineFind backend m
        return .inl (.inner code m)
  | .inner .interp m => .ok (.inl (.interp m.cleared))
  | .inner (.jit entry) m => do
      let s ← backend.call m.cache.jitcode entry m.cleared.state
      return .inl (.left { m with state := s })
  | .interp m => do
      match ← execBlockIter F m.state with
      | .inl s => return .inl (.interp { m with state := s })
      | .inr s => return .inl (.left { m with state := s })
  | .left m => machineDispatch m

/-- `machine_step` returns. -/
abbrev MachineStep (m : Vm) : ExitReason × Vm → Prop :=
  Iteration.Returns (machineIter F backend) (.outer m)

end Step

/-! ## Spec of a step -/

/-- The exit reasons after which `machine_step` looks for code at the next pc. -/
def ExitReason.branches : ExitReason → Bool
  | .directBranch | .indirectBranch => true
  | _ => false

section Spec

variable (F : FloatOps) (backend : Backend)

/-- The steps. -/
inductive MachineNext : Control → Control → Prop where
  | found {m m' : Vm} {code : Code} (nonzero : m.state.pc ≠ 0)
      (find : machineFind backend m = .ok (code, m')) : MachineNext (.outer m) (.inner code m')
  | enter (m : Vm) : MachineNext (.inner .interp m) (.interp m.cleared)
  | call {m : Vm} {entry : U64} {s : State}
      (call : backend.call m.cache.jitcode entry m.cleared.state = .ok s) :
      MachineNext (.inner (.jit entry) m) (.left { m with state := s })
  | round {m : Vm} {s : State} (round : execBlockIter F m.state = .ok (.inl s)) :
      MachineNext (.interp m) (.interp { m with state := s })
  | exit {m : Vm} {s : State} (round : execBlockIter F m.state = .ok (.inr s)) :
      MachineNext (.interp m) (.left { m with state := s })
  | chain {m : Vm} {entry : U64} (branch : m.state.exitReason.branches = true)
      (hit : cacheLookup m.cache m.state.reenterPc = .ok (some entry)) :
      MachineNext (.left m) (.inner (.jit entry) m.reenter)
  | miss {m : Vm} (branch : m.state.exitReason.branches = true)
      (absent : cacheLookup m.cache m.state.reenterPc = .ok none) :
      MachineNext (.left m) (.outer m.reenter)
  | fallBack {m : Vm} (reason : m.state.exitReason = .interp) :
      MachineNext (.left m) (.inner .interp m.reenter)

/-- The ends. -/
inductive MachineEnd : Control → ExitReason × Vm → Prop where
  | stopped {m : Vm} (zero : m.state.pc = 0) : MachineEnd (.outer m) (.halt, m)
  | exit {m : Vm} (other : m.state.exitReason = .ecall ∨ m.state.exitReason = .halt) :
      MachineEnd (.left m) (m.state.exitReason, m.reenter)

end Spec

section Spec

variable {F : FloatOps} {backend : Backend} {m : Vm} {c : Control}
  {out : Control ⊕ ExitReason × Vm}

theorem machineDispatch_ok (dispatched : machineDispatch m = .ok out) :
    (∃ c', out = .inl c' ∧ MachineNext F backend (.left m) c') ∨
      ∃ r, out = .inr r ∧ MachineEnd (.left m) r := by
  obtain ⟨-, dispatched⟩ := cassert_bind_ok.mp dispatched
  cases reason : m.state.exitReason with
  | none =>
      rw [reason] at dispatched
      cases dispatched
  | directBranch | indirectBranch =>
      rw [reason] at dispatched
      have branch : m.state.exitReason.branches = true := by
        rw [reason]
        rfl
      obtain ⟨found, lookup, dispatched⟩ := bind_ok.mp dispatched
      cases found with
      | none =>
          cases dispatched
          exact .inl ⟨_, rfl, .miss branch lookup⟩
      | some entry =>
          cases dispatched
          exact .inl ⟨_, rfl, .chain branch lookup⟩
  | interp =>
      rw [reason] at dispatched
      cases dispatched
      exact .inl ⟨_, rfl, .fallBack reason⟩
  | ecall =>
      rw [reason] at dispatched
      cases dispatched
      exact .inr ⟨_, rfl, reason ▸ .exit (.inl reason)⟩
  | halt =>
      rw [reason] at dispatched
      cases dispatched
      exact .inr ⟨_, rfl, reason ▸ .exit (.inr reason)⟩

/-- **What a step does.** -/
theorem machineIter_ok (round : machineIter F backend c = .ok out) :
    (∃ c', out = .inl c' ∧ MachineNext F backend c c') ∨ ∃ r, out = .inr r ∧ MachineEnd c r := by
  cases c with
  | outer m =>
      by_cases zero : m.state.pc = 0
      · rw [machineIter, if_pos zero] at round
        cases round
        exact .inr ⟨_, rfl, .stopped zero⟩
      · rw [machineIter, if_neg zero] at round
        obtain ⟨⟨code, m'⟩, find, round⟩ := bind_ok.mp round
        cases round
        exact .inl ⟨_, rfl, .found zero find⟩
  | inner code m =>
      cases code with
      | interp =>
          cases round
          exact .inl ⟨_, rfl, .enter m⟩
      | jit entry =>
          obtain ⟨s, call, round⟩ := bind_ok.mp round
          cases round
          exact .inl ⟨_, rfl, .call call⟩
  | interp m =>
      obtain ⟨next, executed, round⟩ := bind_ok.mp round
      cases next with
      | inl s =>
          cases round
          exact .inl ⟨_, rfl, .round executed⟩
      | inr s =>
          cases round
          exact .inl ⟨_, rfl, .exit executed⟩
  | left m => exact machineDispatch_ok round

end Spec

end RiscvEmu
