import RiscvEmu.BlockOutcome
import RiscvEmu.DispatchRefines

/-!
# Jumps to address 0

`machine_step` and the interpreter stop at pc 0. But after a jump `machine_step` looks for
code at the target first, and the lookup asserts that the pc is not zero; and the generator
asserts it of every pc that it visits.

* `endsInHalt_iff`: a run in which control passes to pc 0 ends in a halt exactly when
  neither is on the way.
-/

set_option autoImplicit false

namespace RiscvEmu

section Definitions

variable (F : FloatOps) (backend : Backend)

/-- Control passes to pc 0. -/
inductive ToZero : Control → Prop where
  /-- By an instruction that is interpreted. -/
  | executing {m : Vm} {insn : Insn} {s : State} (executes : ExecutesInsn F m.state insn s)
      (next : insn.nextPc m.state = 0) : ToZero (.interp m)
  /-- By the code that has just returned, compiled or not. -/
  | returned {m : Vm}
      (known : m.state.exitReason ∈ interpReasons ∨ m.state.exitReason ∈ blockReasons)
      (next : m.state.reenterPc = 0) : ToZero (.left m)
  /-- By the return of an ECALL: the next call of `machine_step` is at pc 0. -/
  | entry {m : Vm} (zero : m.state.pc = 0) : ToZero (.outer m)
  /-- By the block at the pc, which `machine_step` is about to compile. -/
  | inside {m : Vm} {cache : Cache} {t : State} (nonzero : m.state.pc ≠ 0)
      (absent : cacheLookup m.cache m.state.pc = .ok none)
      (hot : cacheHot m.cache m.state.pc = .ok (true, cache))
      (intact : Intact F m.state.mem m.state.pc m.state)
      (steps : Iteration.Steps (blockIter F) m.state t) (zero : t.pc = 0) : ToZero (.outer m)

/-- Control passes on where the pc is asserted before it is compared: by a jump or a branch
that is taken, or inside a block that is compiled. -/
def Control.Asserts : Control → Prop
  | .interp m => ∃ insn reason, insnDecode {} m.state.fetch = .ok insn ∧
      insn.leaves m.state = some reason ∧ reason.branches = true
  | .left m => m.state.exitReason.branches = true
  | .outer m => m.state.pc ≠ 0
  | .inner _ _ => False

/-- `machine_step` returns `halt`, at once or when it is called again after an ECALL. -/
def EndsInHalt (c : Control) : Prop :=
  ∃ reason m, Iteration.Returns (machineIter F backend) c (reason, m) ∧
    (reason = .halt ∨ reason = .ecall ∧ ∀ s : State, s.pc = m.state.pc →
      ∃ m', MachineStep F backend { m with state := s } (.halt, m'))

end Definitions

/-! ## Inside a block -/

section Inside

variable {F : FloatOps} {mem : Bytes.Memory} {s t : State} {insn : Insn}

/-- The next pc is a static successor. -/
theorem nextPc_mem_staticSuccs (stays : insn.type.transfer ≠ .leave) :
    insn.nextPc s ∈ insn.staticSuccs s.pc := by
  cases type : insn.type with
  | beq | bne | blt | bge | bltu | bgeu =>
      rw [Insn.nextPc, Insn.staticSuccs, type]
      by_cases taken : insn.taken s = true
      · simp [InsnType.transfer, taken]
      · simp [InsnType.transfer, taken]
  | jal =>
      rw [Insn.nextPc, Insn.staticSuccs, type]
      exact List.mem_singleton.mpr rfl
  | jalr | ecall =>
      rw [type] at stays
      exact absurd rfl stays
  | _ =>
      rw [type] at stays
      rw [Insn.nextPc, Insn.staticSuccs, Insn.taken, type]
      first
      | exact List.mem_singleton.mpr rfl
      | exact absurd rfl stays

/-- The instructions that leave a block. -/
theorem InsnType.leave_cases {type : InsnType} (leave : type.transfer = .leave) :
    type = .jalr ∨ type = .ecall ∨ type.interpOnly = true := by
  rw [InsnType.transfer.eq_def] at leave
  split at leave
  case h_8 => exact .inl rfl
  case h_9 => exact .inr (.inl rfl)
  case h_10 =>
    split_ifs at leave with only
    exact .inr (.inr only)
  all_goals cases leave

/-- What a round does with an instruction that can be executed. -/
theorem ExecutesInsn.round (executes : ExecutesInsn F s insn t) :
    (∃ s', execBlockIter F s = .ok (.inl s') ∧ insn.leaves s = none ∧ s'.pc = insn.nextPc s) ∨
    ∃ r, execBlockIter F s = .ok (.inr r) ∧ insn.leaves s = some r.exitReason ∧
      r.reenterPc = insn.nextPc s := by
  have spec := execBlockIter_round (F := F) (s := s)
  obtain ⟨s₁, insn₁, done, _⟩ := executes.effect
  have executed := execBlockIter_of_done executes.nonzero executes.decoded done
  cases round : execBlockIter F s with
  | error abort => cases executed.symm.trans round
  | ok out =>
      rw [round] at spec
      cases spec with
      | halt zero => exact absurd zero executes.nonzero
      | next executes' stays next =>
          cases executes.decoded.symm.trans executes'.decoded
          exact .inl ⟨_, rfl, stays, next⟩
      | leave executes' leaves reenter =>
          cases executes.decoded.symm.trans executes'.decoded
          exact .inr ⟨_, rfl, leaves, reenter⟩

/-- An instruction that is followed inside a block goes to a static successor: it is not an
ECALL, an indirect jump or one for the interpreter. -/
theorem followed_staticSuccs (compiled : ¬ s.interpOnly = true) (nonzero : s.pc ≠ 0)
    (decoded : insnDecode {} s.fetch = .ok insn) (same : SameInsn mem s.mem s.pc)
    (leaves : insn.leaves s = none ∨ insn.leaves s = some .directBranch) :
    insn.nextPc s ∈ staticSuccs mem s.pc := by
  have interp : insn.type.interpOnly = false := by
    rw [State.interpOnly, decoded, bne_iff_ne.mpr nonzero] at compiled
    exact Bool.eq_false_of_not_eq_true compiled
  have here : staticSuccs mem s.pc = insn.staticSuccs s.pc := by
    have decoded' : insnDecode {} (Bytes.load mem s.pc 32) = .ok insn :=
      same.insnDecode.symm.trans decoded
    rw [staticSuccs, decoded']
  rw [here]
  apply nextPc_mem_staticSuccs
  intro leave
  rcases InsnType.leave_cases leave with type | type | type
  · rw [Insn.leaves, type] at leaves
    simp at leaves
  · rw [Insn.leaves, type] at leaves
    simp at leaves
  · cases type.symm.trans interp

/-- **A round inside a block** goes to a static successor. -/
theorem blockIter_staticSuccs (round : blockIter F s = .ok (.inl t))
    (same : SameInsn mem s.mem s.pc) : t.pc ∈ staticSuccs mem s.pc := by
  by_cases only : s.interpOnly = true
  · rw [blockIter, if_pos only] at round
    cases round
  rw [blockIter, if_neg only] at round
  obtain ⟨out, executed, round⟩ := bind_ok.mp round
  have spec := execBlockIter_round (F := F) (s := s)
  rw [executed] at spec
  cases spec with
  | halt zero => cases round
  | next executes leaves next =>
      cases round
      rw [next]
      exact followed_staticSuccs only executes.nonzero executes.decoded same (.inl leaves)
  | @leave _ r executes leaves reenter =>
      by_cases direct : r.exitReason = .directBranch
      · simp only [direct, if_true] at round
        cases round
        rw [reenter]
        exact followed_staticSuccs only executes.nonzero executes.decoded same
          (.inr (direct ▸ leaves))
      · simp only [direct, if_false] at round
        cases round

/-- Interpretation inside a block stays where the generator goes. -/
theorem reaches_of_steps (intact : Intact F mem s.pc s)
    (steps : Iteration.Steps (blockIter F) s t) : Worklist.Reaches (staticSuccs mem) s.pc t.pc := by
  induction steps with
  | refl => exact .refl
  | tail before round ih => exact ih.tail (blockIter_staticSuccs round (intact _ before ih))

end Inside

/-! ## Dispatch -/

section Dispatch

variable {F : FloatOps} {backend : Backend} {m : Vm} {c c' : Control}

/-- A run ends as it ends from any place on the way. -/
theorem endsInHalt_steps (steps : Iteration.Steps (machineIter F backend) c c') :
    EndsInHalt F backend c ↔ EndsInHalt F backend c' := by
  constructor
  · rintro ⟨reason, m, returns, ends⟩
    exact ⟨reason, m, returns.at_steps steps, ends⟩
  · rintro ⟨reason, m, returns, ends⟩
    exact ⟨reason, m, .of_steps steps returns, ends⟩

theorem EndsInHalt.not_aborts {abort : Abort} (ends : EndsInHalt F backend c) :
    ¬ Iteration.Aborts (machineIter F backend) c abort := by
  intro aborts
  obtain ⟨_, _, returns, _⟩ := ends
  exact returns.not_aborts aborts

/-- At pc 0 `machine_step` returns at once. -/
theorem machineStep_zero (zero : m.state.pc = 0) : MachineStep F backend m (.halt, m) :=
  .leave (if_pos zero)

/-- At pc 0 the interpreter leaves the block with `halt`. -/
theorem endsInHalt_interp (zero : m.state.pc = 0) : EndsInHalt F backend (.interp m) := by
  have executed : execBlockIter F m.state = .ok (.inr (m.state.withExit .halt 0)) := if_pos zero
  have round : machineIter F backend (.interp m) =
      .ok (.inl (.left { m with state := m.state.withExit .halt 0 })) := by
    rw [machineIter, executed]
    rfl
  exact ⟨.halt, _, .again round (.leave rfl), .inl rfl⟩

/-- After a jump to pc 0 the assertion of the lookup fails. -/
theorem machineDispatch_zero (branch : m.state.exitReason.branches = true)
    (zero : m.state.reenterPc = 0) : machineDispatch m = .error (.assertion "pc != 0") := by
  have lookup : cacheLookup m.cache m.state.reenterPc = .error (.assertion "pc != 0") := by
    rw [zero]
    rfl
  rw [machineDispatch, lookup]
  cases reason : m.state.exitReason with
  | directBranch | indirectBranch => rfl
  | none | interp | ecall | halt =>
      rw [reason] at branch
      cases branch

/-- When code has returned. -/
theorem endsInHalt_left
    (known : m.state.exitReason ∈ interpReasons ∨ m.state.exitReason ∈ blockReasons)
    (zero : m.state.reenterPc = 0) :
    EndsInHalt F backend (.left m) ↔ ¬ m.state.exitReason.branches = true := by
  constructor
  · intro ends branch
    exact ends.not_aborts (.here (machineDispatch_zero branch zero))
  · intro other
    cases reason : m.state.exitReason with
    | none =>
        rw [reason] at known
        simp [interpReasons, blockReasons] at known
    | directBranch | indirectBranch =>
        rw [reason] at other
        exact absurd rfl other
    | interp =>
        have round : Iteration.Next (machineIter F backend) (.left m) (.inner .interp m.reenter) := by
          rw [Iteration.Next, machineIter, machineDispatch, reason]
          rfl
        have enter : Iteration.Next (machineIter F backend) (.inner .interp m.reenter)
          (.interp m.reenter.cleared) := rfl
        rw [endsInHalt_steps ((Relation.ReflTransGen.single round).tail enter)]
        exact endsInHalt_interp zero
    | ecall =>
        refine ⟨.ecall, m.reenter, .leave ?_, .inr ⟨rfl, ?_⟩⟩
        · rw [machineIter, machineDispatch, reason]
          rfl
        · intro s same
          exact ⟨_, machineStep_zero (same.trans zero)⟩
    | halt =>
        refine ⟨.halt, m.reenter, .leave ?_, .inl rfl⟩
        rw [machineIter, machineDispatch, reason]
        rfl

/-- When an instruction is interpreted. -/
theorem endsInHalt_executing {insn : Insn} {s : State} (executes : ExecutesInsn F m.state insn s)
    (zero : insn.nextPc m.state = 0) :
    EndsInHalt F backend (.interp m) ↔ ¬ (Control.interp m).Asserts := by
  rcases executes.round with ⟨s', executed, stays, next⟩ | ⟨r, executed, leaves, reenter⟩
  · have round : machineIter F backend (.interp m) = .ok (.inl (.interp { m with state := s' })) := by
      rw [machineIter, executed]
      rfl
    rw [endsInHalt_steps (.single round)]
    refine iff_of_true (endsInHalt_interp (next.trans zero)) ?_
    rintro ⟨insn', reason, decoded, leaves, _⟩
    cases executes.decoded.symm.trans decoded
    cases stays.symm.trans leaves
  · have round : machineIter F backend (.interp m) = .ok (.inl (.left { m with state := r })) := by
      rw [machineIter, executed]
      rfl
    rw [endsInHalt_steps (.single round),
      endsInHalt_left (.inl (Insn.leaves_known leaves)) (reenter.trans zero)]
    refine not_congr ⟨fun branch => ⟨insn, r.exitReason, executes.decoded, leaves, branch⟩, ?_⟩
    rintro ⟨insn', reason, decoded, leaves', branch⟩
    cases executes.decoded.symm.trans decoded
    cases leaves.symm.trans leaves'
    exact branch

/-- When the block is compiled, the generator dies. -/
theorem not_endsInHalt_inside {cache : Cache} {t : State} (nonzero : m.state.pc ≠ 0)
    (absent : cacheLookup m.cache m.state.pc = .ok none)
    (hot : cacheHot m.cache m.state.pc = .ok (true, cache))
    (intact : Intact F m.state.mem m.state.pc m.state)
    (steps : Iteration.Steps (blockIter F) m.state t) (zero : t.pc = 0) :
    ¬ EndsInHalt F backend (.outer m) := by
  have reaches := reaches_of_steps intact steps
  rw [zero] at reaches
  cases generated : machineGenblock {} m.state.mem m.state.pc with
  | ok source =>
      obtain ⟨visited, tracer, gen⟩ := machineGenblock_spec generated
      exact absurd rfl (gen.nonzero 0 (gen.explored.mem_of_reaches reaches))
  | error abort =>
      intro ends
      refine ends.not_aborts (.here (e := abort) ?_)
      rw [machineIter, if_neg nonzero, machineFind, absent, hot]
      simp only [bind, Except.bind, if_true, generated]

end Dispatch

/-- **When a transfer to pc 0 ends in a halt.** -/
theorem endsInHalt_iff {F : FloatOps} {backend : Backend} {m : Vm} {c : Control}
    (run : Iteration.Steps (machineIter F backend) (.outer m) c) (passes : ToZero F c) :
    EndsInHalt F backend (.outer m) ↔ ¬ c.Asserts := by
  rw [endsInHalt_steps run]
  cases passes with
  | executing executes next => exact endsInHalt_executing executes next
  | returned known next => exact endsInHalt_left known next
  | entry zero =>
      exact iff_of_true ⟨.halt, _, machineStep_zero zero, .inl rfl⟩ (fun nonzero => nonzero zero)
  | inside nonzero absent hot intact steps zero =>
      exact iff_of_false (not_endsInHalt_inside nonzero absent hot intact steps zero)
        (fun guarded => guarded nonzero)

/-- `ecall` in the last word of the address space. -/
def lastEcall : Bytes.Memory := Bytes.copy (fun _ => 0) 0xfffffffffffffffc [0x73, 0x00, 0x00, 0x00]

/-- A machine at it. -/
def lastEcallVm : Vm := ⟨.boot lastEcall 0xfffffffffffffffc 1 0, newCache⟩

theorem endsInHalt_iff_lastEcall : EndsInHalt default fallBackCode (.outer lastEcallVm) := by
  obtain ⟨m, find, state⟩ : ∃ m, Iteration.Next (machineIter default fallBackCode) (.outer lastEcallVm)
      (.inner .interp m) ∧ m.cleared.state = lastEcallVm.state := ⟨_, rfl, rfl⟩
  have enter : Iteration.Next (machineIter default fallBackCode) (.inner .interp m)
    (.interp m.cleared) := rfl
  have steps := (Relation.ReflTransGen.single find).tail enter
  obtain ⟨s, executes⟩ : ∃ s, ExecutesInsn default m.cleared.state
      { type := .ecall, cont := true } s := by
    rw [state]
    exact ⟨_, by decide, rfl, _, _, rfl, rfl, rfl, rfl⟩
  refine (endsInHalt_iff steps (.executing executes (by rw [state]; rfl))).mpr ?_
  rintro ⟨insn, reason, decoded, leaves, branch⟩
  cases executes.decoded.symm.trans decoded
  cases leaves
  cases branch

/-- A machine at `ret` that returns to 0. -/
def retToZero : Vm := ⟨.boot retCode 0x1000 1 0, newCache⟩

/-- The interpreter executes the `ret`, and the lookup of pc 0 dies. -/
theorem retToZero_asserts :
    (∃ c, Iteration.Steps (machineIter default fallBackCode) (.outer retToZero) c ∧
      ToZero default c) ∧
    Iteration.Aborts (machineIter default fallBackCode) (.outer retToZero) (.assertion "pc != 0") ∧
    ¬ EndsInHalt default fallBackCode (.outer retToZero) := by
  have aborts : Iteration.Aborts (machineIter default fallBackCode) (.outer retToZero)
      (.assertion "pc != 0") := by
    have run : Iteration.run (machineIter default fallBackCode) 4 (.outer retToZero) =
      some (.error (.assertion "pc != 0")) := rfl
    exact Iteration.aborts_of_run run
  refine ⟨?_, aborts, fun ends => ends.not_aborts aborts⟩
  obtain ⟨m, find, state⟩ : ∃ m, Iteration.Next (machineIter default fallBackCode) (.outer retToZero)
      (.inner .interp m) ∧ m.cleared.state = retToZero.state := ⟨_, rfl, rfl⟩
  have enter : Iteration.Next (machineIter default fallBackCode) (.inner .interp m)
    (.interp m.cleared) := rfl
  obtain ⟨s, executes⟩ : ∃ s, ExecutesInsn default m.cleared.state
      { rs1 := 1, type := .jalr, cont := true } s := by
    rw [state]
    exact ⟨_, by decide, rfl, _, _, rfl, rfl, rfl, rfl⟩
  exact ⟨_, (Relation.ReflTransGen.single find).tail enter,
    .executing executes (by rw [state]; rfl)⟩

end RiscvEmu
