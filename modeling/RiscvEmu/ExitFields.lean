import RiscvEmu.BlockSimulation
import RiscvEmu.InterpretRv64i
import RiscvEmu.RegisterTracing

/-!
# How a block ends

Two fields of the state say how a block was left, `exit_reason` and `reenter_pc`. They
are written and never read while a block executes, so a round of the interpreter and a
call of a generated function pass over what they held before (`execBlockIter_withExit`,
`machineGenblock_sets_exit`).

`Insn.nextPc` is the pc that follows an instruction in the architecture, and
`Insn.leaves` the reason for which it ends a block. `Round` says what a round of the
interpreter does in these terms, and `InterpExit` what a whole block does.
-/

set_option autoImplicit false

namespace RiscvEmu

open Rv64i (Cond)

/-! ## The next pc -/

/-- The condition of a branch. -/
def InsnType.cond : InsnType → Option Cond
  | .beq => some .eq
  | .bne => some .ne
  | .blt => some .lt
  | .bge => some .ge
  | .bltu => some .ltu
  | .bgeu => some .geu
  | _ => none

/-- A conditional branch that is taken. -/
def Insn.taken (insn : Insn) (s : State) : Bool :=
  match insn.type.cond with
  | some cond => cond.holds (s.gpRegs insn.rs1) (s.gpRegs insn.rs2)
  | none => false

/-- The pc after an instruction. -/
def Insn.nextPc (insn : Insn) (s : State) : U64 :=
  match insn.type with
  | .jal => s.pc + insn.imm64
  | .jalr => (s.gpRegs insn.rs1 + insn.imm64) &&& ~~~1
  -- there is no short form of it
  | .ecall => s.pc + 4
  | _ => if insn.taken s then s.pc + insn.imm64 else s.pc + insn.len

/-- The reason for which an instruction ends a block. -/
def Insn.leaves (insn : Insn) (s : State) : Option ExitReason :=
  match insn.type with
  | .jal => some .directBranch
  | .jalr => some .indirectBranch
  | .ecall => some .ecall
  | _ => if insn.taken s then some .directBranch else none

/-! ## The exit fields of a state -/

/-- The state with other exit fields. -/
def State.withExit (s : State) (reason : ExitReason) (reenter : U64) : State :=
  { s with exitReason := reason, reenterPc := reenter }

/-- In a state, a handler leaves the pc and the instruction alone, and the exit fields as
they are. -/
def Ordinary (handler : Handler) (s : State) (insn : Insn) : Prop :=
  match handler s insn with
  | .ok (s', insn') => insn' = insn ∧ s'.pc = s.pc ∧ ∀ reason reenter,
      handler (s.withExit reason reenter) insn = .ok (s'.withExit reason reenter, insn)
  | .error abort => ∀ reason reenter, handler (s.withExit reason reenter) insn = .error abort

/-- In a state, a handler ends the block, whatever the exit fields were. -/
def Leaving (handler : Handler) (s : State) (insn : Insn) : Prop :=
  match handler s insn with
  | .ok (s', insn') => insn'.cont = true ∧ insn.leaves s = some s'.exitReason ∧
      s'.reenterPc = insn.nextPc s ∧ ∀ reason reenter,
        handler (s.withExit reason reenter) insn = .ok (s', insn')
  | .error _ => False

/-! ## What the handlers do -/

section Handlers

variable {F : FloatOps} {s : State} {insn : Insn}

theorem ordinary_regTrap (expr : U64 → U64 → Except Abort U64) :
    Ordinary (funcRegTrap expr) s insn := by
  cases value : expr (s.gpRegs insn.rs1) (s.gpRegs insn.rs2) with
  | error abort =>
      have dies : ∀ s' : State, s'.gpRegs = s.gpRegs → funcRegTrap expr s' insn = .error abort := by
        intro s' same
        rw [funcRegTrap, same, value]
        rfl
      rw [Ordinary, dies s rfl]
      exact fun _ _ => dies _ rfl
  | ok v =>
      have returns : ∀ s' : State, s'.gpRegs = s.gpRegs →
          funcRegTrap expr s' insn = .ok (s'.setGp insn.rd v, insn) := by
        intro s' same
        rw [funcRegTrap, same, value]
        rfl
      rw [Ordinary, returns s rfl]
      exact ⟨rfl, rfl, fun _ _ => returns _ rfl⟩

theorem ordinary_csr : Ordinary funcCsr s insn := by
  by_cases supported : csrSupported insn.csr = true
  · have returns : ∀ s' : State, funcCsr s' insn = .ok (s'.setGp insn.rd 0, insn) :=
      fun _ => if_pos supported
    rw [Ordinary, returns s]
    exact ⟨rfl, rfl, fun _ _ => returns _⟩
  · have dies : ∀ s' : State, funcCsr s' insn = .error (.fatal "unsupported csr") :=
      fun _ => if_neg supported
    rw [Ordinary, dies s]
    exact fun _ _ => dies _

/-- The handler of a branch compares as the architecture does. -/
theorem interpFuncs_branch {type : InsnType} {cond : Cond} (branch : type.cond = some cond) :
    interpFuncs F type = funcBranch cond.holds := by
  cases type with
  | beq => cases branch; rfl
  | bne =>
      cases branch
      rw [interpFuncs, funcBne]
      congr
      funext a b
      exact holds_bne _ _
  | blt => cases branch; rfl
  | bge => cases branch; rfl
  | bltu => cases branch; rfl
  | bgeu => cases branch; rfl
  | _ => cases branch

/-- A conditional branch goes on or leaves. -/
theorem branch_cases {cond : Cond} (branch : insn.type.cond = some cond) :
    insn.leaves s = none ∧ insn.nextPc s = s.pc + insn.len ∧
        Ordinary (interpFuncs F insn.type) s insn ∨
      Leaving (interpFuncs F insn.type) s insn := by
  have leaves : insn.leaves s = if insn.taken s then some .directBranch else none := by
    rw [Insn.leaves]
    cases type : insn.type <;> first | rfl | (rw [type] at branch; cases branch)
  have next : insn.nextPc s = if insn.taken s then s.pc + insn.imm64 else s.pc + insn.len := by
    rw [Insn.nextPc]
    cases type : insn.type <;> first | rfl | (rw [type] at branch; cases branch)
  have taken : insn.taken s = cond.holds (s.gpRegs insn.rs1) (s.gpRegs insn.rs2) := by
    rw [Insn.taken, branch]
  rw [interpFuncs_branch branch]
  by_cases holds : insn.taken s = true
  · rw [if_pos holds] at leaves next
    right
    have jumps : ∀ s' : State, s'.gpRegs = s.gpRegs → funcBranch cond.holds s' insn =
        .ok ({ s' with reenterPc := s'.pc + insn.imm64, pc := s'.pc + insn.imm64,
                       exitReason := .directBranch }, { insn with cont := true }) := by
      intro s' same
      rw [funcBranch, same, ← taken, if_pos holds]
    rw [Leaving, jumps s rfl]
    exact ⟨rfl, leaves, next.symm, fun _ _ => jumps _ rfl⟩
  · rw [if_neg holds] at leaves next
    left
    have stays : ∀ s' : State, s'.gpRegs = s.gpRegs →
        funcBranch cond.holds s' insn = .ok (s', insn) := by
      intro s' same
      rw [funcBranch, same, ← taken, if_neg holds]
    refine ⟨leaves, next, ?_⟩
    rw [Ordinary, stays s rfl]
    exact ⟨rfl, rfl, fun _ _ => stays _ rfl⟩

/-- **What a handler does**: it goes on, or it ends the block. -/
theorem interpFuncs_cases (cont : insn.cont = insn.type.jumps) :
    insn.leaves s = none ∧ insn.nextPc s = s.pc + insn.len ∧ insn.cont = false ∧
        Ordinary (interpFuncs F insn.type) s insn ∨
      Leaving (interpFuncs F insn.type) s insn := by
  cases type : insn.type with
  | beq | bne | blt | bge | bltu | bgeu =>
      rw [type] at cont
      rw [← type]
      rcases branch_cases (F := F) (s := s) (by rw [type]; rfl) with ⟨leaves, next, ordinary⟩ | leaving
      · exact .inl ⟨leaves, next, cont, ordinary⟩
      · exact .inr leaving
  | jal =>
      rw [type] at cont
      exact .inr ⟨cont, by rw [Insn.leaves, type], by rw [Insn.nextPc, type]; rfl, fun _ _ => rfl⟩
  | jalr | ecall =>
      rw [type] at cont
      exact .inr ⟨cont, by rw [Insn.leaves, type], by rw [Insn.nextPc, type], fun _ _ => rfl⟩
  | div | divu | rem | remu | divw | divuw | remw | remuw =>
      rw [type] at cont
      refine .inl ⟨by rw [Insn.leaves, Insn.taken, type]; rfl,
        by rw [Insn.nextPc, Insn.taken, type]; rfl, cont, ?_⟩
      rw [interpFuncs]
      apply ordinary_regTrap
  | csrrw | csrrs | csrrc | csrrwi | csrrsi | csrrci =>
      rw [type] at cont
      exact .inl ⟨by rw [Insn.leaves, Insn.taken, type]; rfl,
        by rw [Insn.nextPc, Insn.taken, type]; rfl, cont, ordinary_csr⟩
  | _ =>
      rw [type] at cont
      exact .inl ⟨by rw [Insn.leaves, Insn.taken, type]; rfl,
        by rw [Insn.nextPc, Insn.taken, type]; rfl, cont, rfl, rfl, fun _ _ => rfl⟩

end Handlers

/-! ## A round of the interpreter -/

section Rounds

variable (F : FloatOps)

/-- The instruction at the pc is executed. -/
structure ExecutesInsn (s : State) (insn : Insn) (s' : State) : Prop where
  nonzero : s.pc ≠ 0
  decoded : insnDecode {} s.fetch = .ok insn
  effect : ∃ s₁ insn₁, interpFuncs F insn.type s insn = .ok (s₁, insn₁) ∧
    SameGuest s' (s₁.setGp 0 0)

/-- What a round does. -/
inductive Round (s : State) : Except Abort (State ⊕ State) → Prop where
  | halt (zero : s.pc = 0) : Round s (.ok (.inr (s.withExit .halt 0)))
  | next {insn : Insn} {s' : State} (executes : ExecutesInsn F s insn s')
      (stays : insn.leaves s = none) (next : s'.pc = insn.nextPc s)
      (others : ∀ reason reenter, execBlockIter F (s.withExit reason reenter) =
        .ok (.inl (s'.withExit reason reenter))) : Round s (.ok (.inl s'))
  | leave {insn : Insn} {s' : State} (executes : ExecutesInsn F s insn s')
      (leaves : insn.leaves s = some s'.exitReason) (reenter : s'.reenterPc = insn.nextPc s)
      (others : ∀ reason reenter, execBlockIter F (s.withExit reason reenter) = .ok (.inr s')) :
      Round s (.ok (.inr s'))
  | dead {abort : Abort} (others : ∀ reason reenter,
      execBlockIter F (s.withExit reason reenter) = .error abort) : Round s (.error abort)

end Rounds

section Rounds

variable {F : FloatOps} {s : State}

/-- **A round of the interpreter.** -/
theorem execBlockIter_round : Round F s (execBlockIter F s) := by
  by_cases zero : s.pc = 0
  · rw [execBlockIter, if_pos zero]
    exact .halt zero
  cases decoded : insnDecode {} s.fetch with
  | error abort =>
      have dies : ∀ s' : State, s'.pc = s.pc → s'.mem = s.mem → execBlockIter F s' = .error abort := by
        intro s' pc mem
        have inner : execInsn F s' = .error abort := by
          refine bind_error.mpr (.inl ?_)
          rw [State.fetch, pc, mem]
          exact decoded
        rw [execBlockIter, if_neg (pc ▸ zero), inner]
        rfl
      rw [dies s rfl rfl]
      exact .dead fun _ _ => dies _ rfl rfl
  | ok insn =>
      rcases interpFuncs_cases (F := F) (s := s) (insnDecode_shape rfl decoded).cont_eq with
        ⟨leaves, next, cont, ordinary⟩ | leaving
      · cases done : interpFuncs F insn.type s insn with
        | error abort =>
            rw [Ordinary, done] at ordinary
            rw [execBlockIter_of_died zero decoded done]
            exact .dead fun reason reenter => execBlockIter_of_died zero decoded (ordinary _ _)
        | ok result =>
            obtain ⟨s₁, insn₁⟩ := result
            rw [Ordinary, done] at ordinary
            obtain ⟨rfl, pc, others⟩ := ordinary
            rw [execBlockIter_of_done zero decoded done, cont]
            refine .next ⟨zero, decoded, s₁, insn₁, done, rfl, rfl, rfl⟩ leaves ?_ ?_
            · rw [next, pc]
            · intro reason reenter
              rw [@execBlockIter_of_done _ (s.withExit reason reenter) _ _ _ zero decoded
                (others reason reenter), cont]
              rfl
      · cases done : interpFuncs F insn.type s insn with
        | error abort =>
            rw [Leaving, done] at leaving
            exact leaving.elim
        | ok result =>
            obtain ⟨s₁, insn₁⟩ := result
            rw [Leaving, done] at leaving
            obtain ⟨cont, leaves, reenter, others⟩ := leaving
            rw [execBlockIter_of_done zero decoded done, if_pos cont]
            refine .leave ⟨zero, decoded, s₁, insn₁, done, rfl, rfl, rfl⟩ leaves reenter ?_
            intro reason reenter
            rw [@execBlockIter_of_done _ (s.withExit reason reenter) _ _ _ zero decoded
              (others reason reenter), if_pos cont]

end Rounds

/-! ## A call of a generated function -/

/-- The variables of the function over a state with other exit fields. -/
def CEnv.withExit (env : CEnv) (reason : ExitReason) (reenter : U64) : CEnv :=
  env.withState (env.state.withExit reason reenter)

/-- The exit reasons of generated code. -/
def blockReasons : List ExitReason := [.indirectBranch, .ecall, .interp]

section Lines

variable {F : FloatOps} {env env' : CEnv} {line : Line} {lines : List Line} {target : Option Target}

/-- No line reads the exit fields. -/
theorem execLine_withExit (ran : execLine F env line = .ok (env', target)) (reason : ExitReason)
    (reenter : U64) : ∃ reason' reenter',
      execLine F (env.withExit reason reenter) line = .ok (env'.withExit reason' reenter', target) := by
  cases line with
  | setExit reason' =>
      cases ran
      exact ⟨reason', reenter, rfl⟩
  | setReenter value =>
      obtain ⟨pc, evaluated, ran⟩ := bind_ok.mp ran
      cases ran
      exact ⟨reason, pc, bind_ok.mpr ⟨pc, evaluated, rfl⟩⟩
  | loadGp | loadFp | label | close | declZero | goto =>
      cases ran
      exact ⟨reason, reenter, rfl⟩
  | saveGp | saveFp | declGp | declLoad =>
      obtain ⟨value, evaluated, ran⟩ := bind_ok.mp ran
      cases ran
      exact ⟨reason, reenter, bind_ok.mpr ⟨value, evaluated, rfl⟩⟩
  | declFp =>
      obtain ⟨value, declared, ran⟩ := bind_ok.mp ran
      obtain ⟨converted, cast, ran⟩ := bind_ok.mp ran
      cases ran
      exact ⟨reason, reenter, bind_ok.mpr ⟨value, declared, bind_ok.mpr ⟨converted, cast, rfl⟩⟩⟩
  | choose =>
      obtain ⟨chosen, selected, ran⟩ := bind_ok.mp ran
      obtain ⟨value, evaluated, ran⟩ := bind_ok.mp ran
      cases ran
      exact ⟨reason, reenter, bind_ok.mpr ⟨chosen, selected, bind_ok.mpr ⟨value, evaluated, rfl⟩⟩⟩
  | setGp | store =>
      obtain ⟨first, evaluated, ran⟩ := bind_ok.mp ran
      obtain ⟨second, evaluated', ran⟩ := bind_ok.mp ran
      cases ran
      exact ⟨reason, reenter,
        bind_ok.mpr ⟨first, evaluated, bind_ok.mpr ⟨second, evaluated', rfl⟩⟩⟩
  | setFp =>
      obtain ⟨old, declared, ran⟩ := bind_ok.mp ran
      obtain ⟨value, evaluated, ran⟩ := bind_ok.mp ran
      obtain ⟨new, cast, ran⟩ := bind_ok.mp ran
      cases ran
      exact ⟨reason, reenter, bind_ok.mpr ⟨old, declared, bind_ok.mpr ⟨value, evaluated,
        bind_ok.mpr ⟨new, cast, rfl⟩⟩⟩⟩
  | ifGoto test pc =>
      obtain ⟨value, evaluated, ran⟩ := bind_ok.mp ran
      obtain ⟨taken, truth, ran⟩ := bind_ok.mp ran
      refine ⟨reason, reenter, bind_ok.mpr ⟨value, evaluated, bind_ok.mpr ⟨taken, truth, ?_⟩⟩⟩
      cases taken with
      | false =>
          cases ran
          rfl
      | true =>
          cases ran
          rfl

theorem execLines_withExit (ran : execLines F env lines = .ok (env', target)) (reason : ExitReason)
    (reenter : U64) : ∃ reason' reenter', execLines F (env.withExit reason reenter) lines =
      .ok (env'.withExit reason' reenter', target) := by
  induction lines generalizing env reason reenter with
  | nil =>
      cases ran
      exact ⟨reason, reenter, rfl⟩
  | cons line lines ih =>
      obtain ⟨⟨env₁, jump⟩, here, rest⟩ := bind_ok.mp ran
      obtain ⟨reason₁, reenter₁, here'⟩ := execLine_withExit here reason reenter
      rw [execLines, here']
      cases jump with
      | some jump =>
          cases rest
          exact ⟨reason₁, reenter₁, rfl⟩
      | none => exact ih rest reason₁ reenter₁

end Lines

/-! ### Label blocks -/

/-- The lines that leave a block set both fields. -/
structure Leaves (lines : List Line) (before : List Line) (reason : ExitReason) (value : CExpr) :
    Prop where
  lines : lines = before ++ [.setExit reason, .setReenter value, .goto .finish, .close]
  reason : reason ∈ blockReasons
  jumps : before.flatMap Line.jumps = []

theorem codegenFuncs_leaves {type : InsnType} {insn : Insn} {pc : U64} {e : Emission}
    (leave : type.transfer = .leave) (emitted : codegenFuncs type insn pc = .ok e) :
    ∃ before reason value, Leaves e.lines before reason value := by
  cases type with
  | jalr =>
      cases emitted
      refine ⟨_, .indirectBranch, _, rfl, by simp [blockReasons], jumps_of_plain ?_⟩
      simp [Codegen.regSetVal]
  | ecall =>
      cases emitted
      exact ⟨[], .ecall, _, rfl, by simp [blockReasons], rfl⟩
  | mulh | mulhsu | mulhu | fsqrtS | fsqrtD | fcvtWS | fcvtWuS | fcvtWD | fcvtWuD | fcvtLS
  | fcvtLuS | fcvtLD | fcvtLuD | fclassS | fclassD | fsgnjS | fsgnjnS | fsgnjxS | fsgnjD
  | fsgnjnD | fsgnjxD =>
      cases emitted
      exact ⟨[], .interp, _, rfl, by simp [blockReasons], rfl⟩
  | _ => cases leave

section Blocks

variable {F : FloatOps} {env env' : CEnv} {lines before : List Line} {reason : ExitReason}
  {value : CExpr} {target : Option Target} {l : U64}

/-- Lines that leave a block end in one state, whatever the exit fields were. -/
theorem Leaves.exit (leaves : Leaves lines before reason value)
    (ran : execLines F env lines = .ok (env', target)) :
    target = some .finish ∧ env'.state.exitReason = reason ∧ ∀ reason' reenter',
      execLines F (env.withExit reason' reenter') lines = .ok (env', some .finish) := by
  rw [leaves.lines] at ran ⊢
  rcases execLines_append_cases ran with ⟨next, -, jumps⟩ | ⟨env₁, runs, rest⟩
  · have named := mem_jumps_of_execLines jumps
    rw [leaves.jumps] at named
    cases named
  · -- the two assignments, and the jump
    obtain ⟨⟨env₂, jump⟩, assigned, rest⟩ := bind_ok.mp rest
    cases assigned
    obtain ⟨⟨env₃, jump⟩, assigned, rest⟩ := bind_ok.mp rest
    obtain ⟨pc, evaluated, assigned⟩ := bind_ok.mp assigned
    cases assigned
    cases rest
    refine ⟨rfl, rfl, fun reason' reenter' => ?_⟩
    obtain ⟨reason₁, reenter₁, runs'⟩ := execLines_withExit runs reason' reenter'
    rw [execLines_append_of_runs runs', execLines]
    refine bind_ok.mpr ⟨_, rfl, bind_ok.mpr ⟨_, bind_ok.mpr ⟨pc, evaluated, rfl⟩, rfl⟩⟩

/-- The lines of a label block jump. -/
theorem LabelBlock.jumps_on {succs : List U64} (block : LabelBlock lines l succs)
    (ran : execLines F env lines = .ok (env', target)) : ∃ next, target = some next := by
  obtain ⟨mid, next, rfl, -⟩ := block.closed
  rw [← List.cons_append] at ran
  rcases execLines_append_cases ran with ⟨next, same, -⟩ | ⟨env₁, -, rest⟩
  · exact ⟨next, same⟩
  · cases rest
    exact ⟨next, rfl⟩

end Blocks

/-- Only the instructions that leave jump to the end. -/
theorem EmissionShape.not_finish {insn : Insn} {l : U64} {e : Emission} {transfer : Transfer}
    (shape : EmissionShape insn l e transfer) (stays : transfer ≠ .leave) :
    Target.finish ∉ ((insn.block l e).lines l).flatMap Line.jumps := by
  have block : ((insn.block l e).lines l).flatMap Line.jumps = e.lines.flatMap Line.jumps ++
      ((insn.block l e).next.toList.map Target.insn) := by
    rw [Block.lines]
    cases (insn.block l e).next with
    | none => simp [Line.jumps, Insn.block]
    | some next => simp [Line.jumps, Insn.block]
  rw [block]
  cases shape with
  | next plain => simp [jumps_of_plain plain]
  | branch plain => simp [jumps_of_plain plain, Line.jumps]
  | jump plain => simp [jumps_of_plain plain, Line.jumps]
  | leave => exact absurd rfl stays

section Calls

variable {F : FloatOps} {mem : Bytes.Memory} {pc l : U64} {visited : List U64} {tracer : Tracer}
  {source : Source} {env env' : CEnv} {next : Target} {s s' : State}

/-- **A label block** passes other exit fields on, or leaves and sets both. -/
theorem Generated.block_exit (gen : Generated mem pc visited tracer source) (seen : l ∈ visited)
    (ran : execLines F env (linesAt mem l) = .ok (env', some next)) :
    (∃ a ∈ visited, next = .insn a ∧ ∀ reason reenter, ∃ reason' reenter',
      execLines F (env.withExit reason reenter) (linesAt mem l) =
        .ok (env'.withExit reason' reenter', some next)) ∨
    next = .finish ∧ env'.state.exitReason ∈ blockReasons ∧ ∀ reason reenter,
      execLines F (env.withExit reason reenter) (linesAt mem l) = .ok (env', some .finish) := by
  obtain ⟨block, generated, -⟩ := gen.blocks l seen
  obtain ⟨insn, e, decoded, emitted, rfl⟩ := blockAt_ok generated
  have lines : linesAt mem l = (insn.block l e).lines l := by rw [linesAt, generated]
  have shape := codegenFuncs_shape rfl emitted
  by_cases leave : insn.type.transfer = .leave
  · right
    obtain ⟨before, reason, value, leaves⟩ := codegenFuncs_leaves leave emitted
    have flags := ends_block shape (insnDecode_shape rfl decoded).cont_eq
    rw [leave] at flags
    rw [lines, lines_ends flags] at ran ⊢
    obtain ⟨finish, same, others⟩ := leaves.exit ran
    cases finish
    exact ⟨rfl, same ▸ leaves.reason, others⟩
  · left
    cases next with
    | finish =>
        have named := mem_jumps_of_execLines ran
        rw [lines] at named
        exact absurd named (shape.not_finish leave)
    | insn a => exact ⟨a, covered_of_jump gen seen ran, rfl, execLines_withExit ran⟩

/-- The epilogue stores registers. -/
theorem execLines_saves {gp fp : List Reg} {target : Option Target}
    (ran : execLines F env (gp.map .saveGp ++ fp.map .saveFp) = .ok (env', target)) :
    target = none ∧ env'.state.exitReason = env.state.exitReason := by
  have quiet : ∀ line ∈ gp.map Line.saveGp ++ fp.map Line.saveFp,
      (∃ reg, line = .saveGp reg) ∨ ∃ reg, line = .saveFp reg := by
    intro line member
    rcases List.mem_append.mp member with member | member
    · obtain ⟨reg, -, rfl⟩ := List.mem_map.mp member
      exact .inl ⟨reg, rfl⟩
    · obtain ⟨reg, -, rfl⟩ := List.mem_map.mp member
      exact .inr ⟨reg, rfl⟩
  generalize gp.map Line.saveGp ++ fp.map Line.saveFp = lines at ran quiet
  induction lines generalizing env with
  | nil =>
      cases ran
      exact ⟨rfl, rfl⟩
  | cons line lines ih =>
      obtain ⟨head, quiet⟩ := List.forall_mem_cons.mp quiet
      obtain ⟨⟨env₁, jump⟩, here, rest⟩ := bind_ok.mp ran
      have kept : jump = none ∧ env₁.state.exitReason = env.state.exitReason := by
        rcases head with ⟨reg, rfl⟩ | ⟨reg, rfl⟩
        · obtain ⟨value, -, here⟩ := bind_ok.mp here
          cases here
          exact ⟨rfl, rfl⟩
        · obtain ⟨value, -, here⟩ := bind_ok.mp here
          cases here
          exact ⟨rfl, rfl⟩
      obtain ⟨rfl, same⟩ := kept
      obtain ⟨none', others⟩ := ih rest quiet
      exact ⟨none', others.trans same⟩

/-- Two calls of the function, entered with other exit fields, are at one label block with
other exit fields, or at the end with the same. -/
inductive ExitRelated (F : FloatOps) (mem : Bytes.Memory) (visited : List U64) (tracer : Tracer) :
    CEnv × List Line → CEnv × List Line → Prop where
  | block {at₁ at₂ : CEnv × List Line} {env : CEnv} {l : U64} {rest : List Line}
      {reason : ExitReason} {reenter : U64} (seen : l ∈ visited)
      (first : execLines F at₁.1 at₁.2 =
        execLines F (env.withExit reason reenter) (linesAt mem l ++ rest))
      (second : execLines F at₂.1 at₂.2 = execLines F env (linesAt mem l ++ rest)) :
      ExitRelated F mem visited tracer at₁ at₂
  | finish {env : CEnv} (known : env.state.exitReason ∈ blockReasons) :
      ExitRelated F mem visited tracer (env, .label .finish :: tracer.epilogue)
        (env, .label .finish :: tracer.epilogue)

/-- A jump that is taken. -/
theorem sourceIter_of_jump {at_ : CEnv × List Line} {found : List Line}
    (ran : execLines F at_.1 at_.2 = .ok (env', some next))
    (there : findLabel next source = some found) :
    sourceIter F source at_ = .ok (.inl (env', found)) := by
  rw [sourceIter, ran]
  simp only [bind, Except.bind, there, pure, Except.pure]

/-- The end of the function. -/
theorem sourceIter_finish {out : (CEnv × List Line) ⊕ State}
    (round : sourceIter F source (env, .label .finish :: tracer.epilogue) = .ok out) :
    ∃ last, out = .inr last ∧ last.exitReason = env.state.exitReason := by
  obtain ⟨⟨last, target⟩, ran, round⟩ := bind_ok.mp round
  obtain ⟨⟨env₁, jump⟩, label, ran⟩ := bind_ok.mp ran
  cases label
  obtain ⟨rfl, same⟩ := execLines_saves ran
  cases round
  exact ⟨last.state, rfl, same⟩

/-- A round from a label block is taken by both calls. -/
theorem Generated.round_exit (gen : Generated mem pc visited tracer source) (seen : l ∈ visited)
    {at₁ at₂ : CEnv × List Line} {rest : List Line} {reason : ExitReason} {reenter : U64}
    {out : (CEnv × List Line) ⊕ State}
    (first : execLines F at₁.1 at₁.2 =
      execLines F (env.withExit reason reenter) (linesAt mem l ++ rest))
    (second : execLines F at₂.1 at₂.2 = execLines F env (linesAt mem l ++ rest))
    (round : sourceIter F source at₂ = .ok out) :
    ∃ at₁' at₂', out = .inl at₂' ∧ sourceIter F source at₁ = .ok (.inl at₁') ∧
      ExitRelated F mem visited tracer at₁' at₂' := by
  obtain ⟨⟨env', target⟩, ran, -⟩ := bind_ok.mp round
  rw [second] at ran
  rcases execLines_append_cases ran with ⟨next, rfl, jumps⟩ | ⟨env₁, runs, -⟩
  · rw [execLines_append_of_jumps jumps] at second
    rcases gen.block_exit seen jumps with ⟨a, known, rfl, others⟩ | ⟨rfl, reason', others⟩
    · obtain ⟨reason', reenter', jumps'⟩ := others reason reenter
      rw [execLines_append_of_jumps jumps'] at first
      obtain ⟨rest', there⟩ := gen.findLabel_insn known
      rw [sourceIter_of_jump second there] at round
      cases round
      exact ⟨_, _, rfl, sourceIter_of_jump first there, .block known rfl rfl⟩
    · rw [execLines_append_of_jumps (others reason reenter)] at first
      rw [sourceIter_of_jump second gen.findLabel_finish] at round
      cases round
      exact ⟨_, _, rfl, sourceIter_of_jump first gen.findLabel_finish, .finish reason'⟩
  · obtain ⟨next, impossible⟩ := (gen.labelBlock seen).jumps_on runs
    cases impossible

/-- **Two calls with other exit fields run in lockstep.** -/
theorem exit_lockstep (gen : Generated mem pc visited tracer source) :
    Iteration.Lockstep (sourceIter F source) (sourceIter F source)
      (ExitRelated F mem visited tracer)
      (fun r k => r = k ∧ k.exitReason ∈ blockReasons) where
  next := by
    intro at₁ at₂ at₂' related round
    cases related with
    | finish =>
        obtain ⟨last, same, -⟩ := sourceIter_finish round
        cases same
    | block seen first second =>
        obtain ⟨at₁', _, same, round', related'⟩ := gen.round_exit seen first second round
        cases same
        exact ⟨at₁', round', related'⟩
  leave := by
    intro at₁ at₂ k related round
    cases related with
    | finish known =>
        obtain ⟨last, same, reason⟩ := sourceIter_finish round
        cases same
        exact ⟨_, .leave round, rfl, reason ▸ known⟩
    | block seen first second =>
        obtain ⟨_, _, same, _⟩ := gen.round_exit seen first second round
        cases same

/-- Both calls start at the label block of the entry. -/
theorem exitRelated_start (gen : Generated mem pc visited tracer source) (s : State)
    (reason : ExitReason) (reenter : U64) :
    ExitRelated F mem visited tracer (CEnv.enter (s.withExit reason reenter), source)
      (CEnv.enter s, source) := by
  have seen : pc ∈ visited := List.mem_of_head? gen.explored.head
  obtain ⟨rest, start⟩ := gen.starts
  have loaded : ∀ s : State, execLines F (CEnv.enter s) source =
      execLines F (.loaded s tracer.gpUsed tracer.fpUsed) (linesAt mem pc ++ rest) := by
    intro s
    rw [start]
    exact execLines_append_of_runs (runs_loads s _ _)
  exact .block seen (loaded _) (loaded s)

/-- **A call that returns sets both exit fields.** The reason is one of three, and the
call returns the same state when it is entered with other exit fields. -/
theorem start_sets_exit (gen : Generated mem pc visited tracer source)
    (call : Start F source s s') :
    s'.exitReason ∈ blockReasons ∧
      ∀ reason reenter, Start F source (s.withExit reason reenter) s' := by
  have returns : ∀ reason reenter, Start F source (s.withExit reason reenter) s' ∧
      s'.exitReason ∈ blockReasons := by
    intro reason reenter
    obtain ⟨r, call', same, known⟩ :=
      (exit_lockstep gen).returns (exitRelated_start gen s reason reenter) call
    exact ⟨same ▸ call', known⟩
  exact ⟨(returns .none 0).2, fun reason reenter => (returns reason reenter).1⟩

end Calls

end RiscvEmu
