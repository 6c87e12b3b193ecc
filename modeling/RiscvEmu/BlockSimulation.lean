import RiscvEmu.CodegenAgrees
import RiscvEmu.Trajectory

/-!
# A generated block refines the interpreter

The generated function is run beside the rounds of `exec_block_interp` that follow
direct branches. `blockIter` is such a round, up to the instructions that the
generator leaves to the interpreter; a label block is one round of it
(`block_matches`), and the two loops run in lockstep (`block_lockstep`).

`BlockExit` says where the function may hand over to the interpreter: after an
indirect jump or an ECALL, or before an instruction.

* `machineGenblock_refines`: a call of the function ends exactly where
  interpretation gets to such a point, with the same registers and memory, unless
  interpretation has died on the way in a division whose result the generated code
  does not compute.
-/

set_option autoImplicit false

namespace RiscvEmu

open Worklist

/-! ## Points of exit -/

/-- The exit reason of the instructions that leave a block by themselves. -/
def InsnType.exitReason : InsnType → Option ExitReason
  | .jalr => some .indirectBranch
  | .ecall => some .ecall
  | _ => none

/-- The next instruction is one that the generator leaves to the interpreter. -/
def State.interpOnly (s : State) : Bool :=
  s.pc != 0 && match insnDecode {} s.fetch with
    | .ok insn => insn.type.interpOnly
    | .error _ => false

section Points

variable (F : FloatOps)

/-- A state is what compiled code may leave when interpretation stands at `t`. -/
inductive BlockExit (t s' : State) : Prop where
  /-- The interpreter executes the indirect jump or ECALL at `t`. -/
  | executed {insn : Insn} {r : State} (fetched : Fetched t insn)
      (kind : insn.type.exitReason = some s'.exitReason)
      (round : execBlockIter F t = .ok (.inr r)) (reason : s'.exitReason = r.exitReason)
      (reenter : s'.reenterPc = r.reenterPc) (same : SameGuest s' r)
  /-- The interpreter has not executed the instruction at `t`. -/
  | pending (reason : s'.exitReason = .interp) (reenter : s'.reenterPc = t.pc)
      (same : SameGuest s' t)

/-- A point of exit of a generated block: it is left to the interpreter only before
the instructions that the generator does not compile. -/
def ExitPoint (t s' : State) : Prop :=
  BlockExit F t s' ∧ (s'.exitReason = .interp → t.interpOnly = true)

/-- One round of interpretation inside a block. -/
def blockIter (s : State) : Except Abort (State ⊕ State) :=
  if s.interpOnly then .ok (.inr { s with exitReason := .interp, reenterPc := s.pc })
  else followIter F s

end Points

/-! ## Divisions whose result is dropped -/

/-- The 32-bit divisions. -/
def InsnType.divides32 : InsnType → Bool
  | .divw | .divuw | .remw | .remuw => true
  | _ => false

/-- The next instruction is a 32-bit division into `x0` by a register that is not
zero and whose low half is. -/
def DropsTrap (t : State) : Prop :=
  ∃ insn, Fetched t insn ∧ insn.type.divides32 = true ∧ insn.rd = 0 ∧
    t.gpRegs insn.rs2 ≠ 0 ∧ CInt.u32.conv (t.gpRegs insn.rs2) = 0

section Divisions

variable {F : FloatOps} {x y : U64} {s : State} {insn : Insn} {abort : Abort}

theorem conv_i32_eq_zero : CInt.i32.conv x = 0 ↔ CInt.u32.conv x = 0 := by
  have low : ∀ h : BitVec 32, h.signExtend 64 = 0 ↔ h.setWidth 64 = 0 := by
    intro h
    constructor
    · intro zero
      have back := CInt.setWidth_signExtend h (show 32 ≤ 64 by decide)
      rw [← back, zero]
      rfl
    · intro zero
      have back : (h.setWidth 64).setWidth 32 = h := by simp
      rw [← back, zero]
      rfl
  exact low (x.setWidth 32)

theorem conv_i32_ne_intMin : CInt.i32.conv x ≠ BitVec.intMin 64 := by
  intro least
  have back : (CInt.i32.conv x).setWidth 32 = x.setWidth 32 :=
    CInt.setWidth_signExtend _ (by decide)
  have zero : x.setWidth 32 = 0 := by
    rw [← back, least]
    rfl
  have same : CInt.i32.conv x = 0 := by
    rw [CInt.conv, zero]
    rfl
  cases same.symm.trans least

/-- A division guarded by a test of the whole register. -/
theorem guarded_trap {v w : U64} {f : U64 → U64} {cond : Prop} [Decidable cond] :
    (∃ abort, (if y = 0 then .ok v else f <$> (if cond then .error .trap else .ok w) :
      Except Abort U64) = .error abort) ↔ y ≠ 0 ∧ cond := by
  by_cases zero : y = 0
  · rw [if_pos zero]
    exact ⟨fun ⟨_, same⟩ => (nomatch same), fun ⟨nonzero, _⟩ => absurd zero nonzero⟩
  · rw [if_neg zero]
    by_cases holds : cond
    · rw [if_pos holds]
      exact ⟨fun _ => ⟨zero, holds⟩, fun _ => ⟨.trap, rfl⟩⟩
    · rw [if_neg holds]
      exact ⟨fun ⟨_, same⟩ => (nomatch same), fun ⟨_, holds'⟩ => absurd holds' holds⟩

theorem funcRegTrap_error {expr : U64 → U64 → Except Abort U64} :
    (∃ abort, funcRegTrap expr s insn = .error abort) ↔
      ∃ abort, expr (s.gpRegs insn.rs1) (s.gpRegs insn.rs2) = .error abort := by
  rw [funcRegTrap]
  cases expr (s.gpRegs insn.rs1) (s.gpRegs insn.rs2) <;> simp [bind, Except.bind, pure, Except.pure]

/-- The 32-bit divisions die exactly on a divisor that is not zero but has a zero low
half. -/
theorem interpFuncs_divides32 {type : InsnType} (divides : type.divides32 = true) :
    (∃ abort, interpFuncs F type s insn = .error abort) ↔
      s.gpRegs insn.rs2 ≠ 0 ∧ CInt.u32.conv (s.gpRegs insn.rs2) = 0 := by
  have signed : ∀ x y : U64, (CInt.i32.conv y = 0 ∨
      CInt.i32.conv x = BitVec.intMin 64 ∧ CInt.i32.conv y = -1) ↔ CInt.u32.conv y = 0 := by
    intro x y
    rw [← conv_i32_eq_zero]
    exact or_iff_left fun overflow => conv_i32_ne_intMin overflow.1
  cases type with
  | divw | remw =>
      simp only [interpFuncs, funcDivw, funcRemw, funcRegTrap_error, hostSdiv, hostSrem, guarded_trap,
        signed]
  | divuw | remuw =>
      simp only [interpFuncs, funcDivuw, funcRemuw, funcRegTrap_error, hostUdiv, hostUrem,
        guarded_trap]
  | _ => cases divides

/-- The 64-bit divisions are guarded by the tests that the host makes. -/
theorem guarded_no_trap {op : U64 → U64 → U64} {v w : U64} :
    ¬ ∃ abort, (if y = 0 then .ok v else if x = BitVec.intMin 64 ∧ y = -1 then .ok w
      else if y = 0 ∨ (x = BitVec.intMin 64 ∧ y = -1) then .error .trap else .ok (op x y) :
        Except Abort U64) = .error abort := by
  rintro ⟨abort, died⟩
  split_ifs at died with zero overflow either
  exact either.elim zero overflow

theorem guarded_no_trap_unsigned {op : U64 → U64 → U64} {v : U64} :
    ¬ ∃ abort, (if y = 0 then .ok v else if y = 0 then .error .trap else .ok (op x y) :
        Except Abort U64) = .error abort := by
  rintro ⟨abort, died⟩
  split_ifs at died

/-- Among the instructions that go on, only the 32-bit divisions can die once the
generator has accepted them. -/
theorem divides32_of_error {type : InsnType} {pc : U64} {e : Emission}
    (goesOn : type.transfer = .next) (emitted : codegenFuncs type insn pc = .ok e)
    (died : interpFuncs F type s insn = .error abort) : type.divides32 = true := by
  cases type with
  | divw | divuw | remw | remuw => rfl
  | div | rem =>
      have dies : ∃ abort, interpFuncs F _ s insn = .error abort := ⟨abort, died⟩
      simp only [interpFuncs, funcDiv, funcRem, funcRegTrap_error, hostSdiv, hostSrem] at dies
      exact absurd dies guarded_no_trap
  | divu | remu =>
      have dies : ∃ abort, interpFuncs F _ s insn = .error abort := ⟨abort, died⟩
      simp only [interpFuncs, funcDivu, funcRemu, funcRegTrap_error, hostUdiv, hostUrem] at dies
      exact absurd dies guarded_no_trap_unsigned
  | csrrc | csrrci | csrrs | csrrsi | csrrw | csrrwi =>
      have supported : csrSupported insn.csr = true := by
        by_contra unsupported
        cases emitted.symm.trans (if_neg unsupported)
      cases died.symm.trans (if_pos supported)
  | beq | bne | blt | bge | bltu | bgeu => cases goesOn
  | _ => cases died

end Divisions

/-! ## A label block is a round -/

section Blocks

variable {F : FloatOps} {tracer : Tracer} {env : CEnv} {t : State} {insn : Insn} {e : Emission}
  {lines : List Line} {locals : Locals}

theorem interpOnly_of_fetched (fetched : Fetched t insn) :
    t.interpOnly = insn.type.interpOnly := by
  rw [State.interpOnly, fetched.decoded, bne_iff_ne.mpr fetched.nonzero, Bool.true_and]

/-- What running the lines of a label block does, against a round of interpretation. -/
inductive Matches (F : FloatOps) (tracer : Tracer) (env : CEnv) (lines : List Line) (t : State) :
    Except Abort (State ⊕ State) → Prop where
  | next {t' : State} {env' : CEnv}
      (runs : execLines F env lines = .ok (env', some (.insn t'.pc)))
      (mirrors : Mirrors tracer env' t') : Matches F tracer env lines t (.ok (.inl t'))
  | leave {r : State} {env' : CEnv}
      (runs : execLines F env lines = .ok (env', some .finish))
      (mirrors : Mirrors tracer env' r) (reason : env'.state.exitReason = r.exitReason)
      (reenter : env'.state.reenterPc = r.reenterPc) (exit : ExitPoint F t r) :
      Matches F tracer env lines t (.ok (.inr r))
  | dead {abort : Abort} (died : DropsTrap t ∨ ∃ e, execLines F env lines = .error e) :
      Matches F tracer env lines t (.error abort)

theorem execLines_goto (env : CEnv) (target : Target) (rest : List Line) :
    execLines F env (.goto target :: rest) = .ok (env, some target) := rfl

/-- The instructions that go on. -/
theorem matches_next (fetched : Fetched t insn) (goesOn : insn.type.transfer = .next)
    (stays : insn.cont = false) (emitted : codegenFuncs insn.type insn t.pc = .ok e)
    (has : tracer.Has e) (m : Mirrors tracer env t) :
    Matches F tracer env.opened (e.lines ++ [.goto (.insn (t.pc + insn.len)), .close]) t
      (followIter F t) := by
  have outcome : Outcome F tracer env.opened e.lines insn t (interpFuncs F insn.type t insn) :=
    Codegen.agrees_of_next goesOn tracer env t insn e emitted has m
  generalize result : interpFuncs F insn.type t insn = r at outcome
  cases outcome with
  | @done t₁ env' pc runs mirrors =>
      have round : execBlockIter F t =
          .ok (.inl { t₁.setGp 0 0 with pc := t₁.pc + insn.len }) := by
        rw [execBlockIter_of_handler fetched result, stays]
        rfl
      rw [followIter_of_next round, ← pc]
      apply Matches.next
      · rw [execLines_append_of_runs runs]
        exact execLines_goto ..
      · exact mirrors.congr rfl rfl rfl
  | @dead abort died =>
      have dies : followIter F t = .error abort := by
        rw [followIter, execBlockIter_of_died fetched.nonzero fetched.decoded result]
        rfl
      rw [dies]
      apply Matches.dead
      rcases died with dropped | ⟨e', died⟩
      · have divides := divides32_of_error goesOn emitted result
        exact .inl ⟨insn, fetched, divides, dropped,
          (interpFuncs_divides32 divides).mp ⟨abort, result⟩⟩
      · exact .inr ⟨e', execLines_append_of_error died⟩

/-- The conditional branches. -/
theorem matches_branch {typ : CInt} {op : BinOp} {expr : U64 → U64 → Bool}
    (fetched : Fetched t insn) (stays : insn.cont = false)
    (emitted : Codegen.funcBranch typ op insn t.pc = .ok e)
    (handler : interpFuncs F insn.type = funcBranch expr)
    (eval : ∀ x y, (CExpr.bin op ((CExpr.var .rs1).as typ) ((CExpr.var .rs2).as typ)).eval F
      (gpLocals₂ x y) = .ok (.ofBool (expr x y)))
    (has : tracer.Has e) (m : Mirrors tracer env t) :
    Matches F tracer env.opened (e.lines ++ [.goto (.insn (t.pc + insn.len)), .close]) t
      (followIter F t) := by
  cases emitted
  obtain ⟨env', runs, m', declared⟩ : Declares F tracer env t _ _ :=
    Codegen.declares_gp₂ m (has.1 insn.rs1 (by simp)) (has.1 insn.rs2 (by simp))
  have test : execLine F env' (.ifGoto (.bin op ((CExpr.var .rs1).as typ) ((CExpr.var .rs2).as typ))
      (t.pc + insn.imm64)) = .ok (env', if expr (t.gpRegs insn.rs1) (t.gpRegs insn.rs2) then
        some (.insn (t.pc + insn.imm64)) else none) := by
    rw [execLine, declared, eval]
    cases expr (t.gpRegs insn.rs1) (t.gpRegs insn.rs2) <;> rfl
  have exec : interpFuncs F insn.type t insn = funcBranch expr t insn := by rw [handler]
  rw [funcBranch] at exec
  by_cases taken : expr (t.gpRegs insn.rs1) (t.gpRegs insn.rs2) = true
  · rw [if_pos taken] at test exec
    have round := execBlockIter_of_clean fetched exec m.zero
    rw [followIter_of_direct (round.trans (congrArg Except.ok (if_pos rfl))) rfl]
    apply Matches.next
    · rw [List.append_assoc, execLines_append_of_runs runs]
      exact execLines_append_of_jumps (jumps_one test)
    · exact m'.congr rfl rfl rfl
  · rw [if_neg taken] at test exec
    have round := execBlockIter_of_clean fetched exec m.zero
    rw [stays] at round
    rw [followIter_of_next round]
    apply Matches.next
    · rw [execLines_append_of_runs (runs.append (runs_one test))]
      exact execLines_goto ..
    · exact m'.congr rfl rfl rfl

/-- After a jump has written its return address, whatever it does to the exit fields. -/
theorem Mirrors.linked {t' : State} {reg : Reg} {value : U64}
    (m : Mirrors tracer env (t.writeGp reg value)) (zero : t.gpRegs 0 = 0)
    (gp : t'.gpRegs = Function.update (Function.update t.gpRegs reg value) 0 0)
    (fp : t'.fpRegs = t.fpRegs) (mem : t'.mem = t.mem) : Mirrors tracer env t' := by
  apply m.congr
  · rw [gp]
    exact congrArg State.gpRegs (State.setGp_zero_setGp zero reg value)
  · rw [fp, State.writeGp_fpRegs]
  · rw [mem, State.writeGp_mem]

/-- The exit reasons that stand for an executed instruction. -/
theorem exitReason_cases {type : InsnType} {reason : ExitReason}
    (kind : type.exitReason = some reason) : reason ≠ .directBranch ∧ reason ≠ .interp := by
  cases type with
  | jalr | ecall =>
      cases kind
      exact ⟨nofun, nofun⟩
  | _ => cases kind

/-- The direct jump. -/
theorem matches_jal (fetched : Fetched t insn) (type : insn.type = .jal)
    (ends : insn.cont = true) (emitted : Codegen.funcJal insn t.pc = .ok e) (has : tracer.Has e)
    (m : Mirrors tracer env t) :
    Matches F tracer env.opened e.lines t (followIter F t) := by
  cases emitted
  have link : Declares F tracer env (t.writeGp insn.rd (t.pc + insn.len))
      (Codegen.regSetVal insn.rd (t.pc + insn.len)) noLocals :=
    (Declares.start m).setGp (fun _ => has.1 insn.rd (by simp)) rfl
  have exec : interpFuncs F insn.type t insn = funcJal t insn := by
    rw [type]
    rfl
  have round := execBlockIter_of_handler fetched exec
  rw [if_pos ends] at round
  rw [followIter_of_direct round rfl]
  obtain ⟨env', runs, linked, _⟩ := link
  apply Matches.next
  · rw [execLines_append_of_runs runs]
    exact execLines_goto ..
  · exact linked.linked m.zero rfl rfl rfl

/-- The instructions that leave the block after they are executed. -/
theorem matches_executed {r : State} {value : CExpr} (fetched : Fetched t insn)
    (round : execBlockIter F t = .ok (.inr r)) (kind : insn.type.exitReason = some r.exitReason)
    (d : Declares F tracer env r lines locals)
    (evaluated : value.evalU64 F locals = .ok r.reenterPc) :
    Matches F tracer env.opened
      (lines ++ [.setExit r.exitReason, .setReenter value, .goto .finish, .close]) t
      (followIter F t) := by
  obtain ⟨env', runs, mirrors, reason, reenter⟩ := d.leave evaluated
  obtain ⟨other, running⟩ := exitReason_cases kind
  rw [followIter_of_leave round other]
  exact .leave runs mirrors reason reenter
    ⟨.executed fetched kind round rfl rfl ⟨rfl, rfl, rfl⟩, fun interp => absurd interp running⟩

theorem matches_jalr (fetched : Fetched t insn) (type : insn.type = .jalr)
    (ends : insn.cont = true) (emitted : Codegen.funcJalr insn t.pc = .ok e) (has : tracer.Has e)
    (m : Mirrors tracer env t) :
    Matches F tracer env.opened e.lines t (followIter F t) := by
  cases emitted
  obtain ⟨env', runs, linked, declared⟩ : Declares F tracer env
      (t.writeGp insn.rd (t.pc + insn.len))
      (Codegen.regGet insn.rs1 .rs1 ++ Codegen.regSetVal insn.rd (t.pc + insn.len))
      (gpLocals (t.gpRegs insn.rs1)) :=
    ((Declares.start m).regGet (has.1 insn.rs1 (by simp))).setGp
      (fun _ => has.1 insn.rd (by simp)) rfl
  have exec : interpFuncs F insn.type t insn = funcJalr t insn := by
    rw [type]
    rfl
  have round := execBlockIter_of_handler fetched exec
  rw [if_pos ends] at round
  have kind : insn.type.exitReason = some .indirectBranch := by rw [type]; rfl
  exact matches_executed fetched round kind
    ⟨env', runs, linked.linked m.zero rfl rfl rfl, declared⟩ rfl

theorem matches_ecall (fetched : Fetched t insn) (type : insn.type = .ecall)
    (ends : insn.cont = true) (emitted : Codegen.funcEcall insn t.pc = .ok e)
    (m : Mirrors tracer env t) :
    Matches F tracer env.opened e.lines t (followIter F t) := by
  cases emitted
  have exec : interpFuncs F insn.type t insn = funcEcall t insn := by
    rw [type]
    rfl
  have round := execBlockIter_of_clean fetched exec m.zero
  rw [if_pos ends] at round
  have kind : insn.type.exitReason = some .ecall := by rw [type]; rfl
  exact matches_executed fetched round kind ((Declares.start m).congr rfl rfl rfl) rfl

/-- The instructions that are left to the interpreter. -/
theorem matches_interp (fetched : Fetched t insn) (only : insn.type.interpOnly = true)
    (emitted : Codegen.funcInterp insn t.pc = .ok e) (m : Mirrors tracer env t) :
    Matches F tracer env.opened e.lines t (blockIter F t) := by
  cases emitted
  have left : t.interpOnly = true := (interpOnly_of_fetched fetched).trans only
  have pc : (CExpr.lit .u64 t.pc).evalU64 F noLocals = .ok t.pc := rfl
  obtain ⟨env', runs, mirrors, reason, reenter⟩ := (Declares.start m).leave pc
  rw [blockIter, if_pos left]
  exact .leave runs (mirrors.congr rfl rfl rfl) reason reenter
    ⟨.pending rfl rfl ⟨rfl, rfl, rfl⟩, fun _ => left⟩

theorem blockIter_of_compiled (fetched : Fetched t insn) (compiled : insn.type.interpOnly = false) :
    blockIter F t = followIter F t := by
  rw [blockIter, interpOnly_of_fetched fetched, compiled]
  rfl

/-- A label opens a scope, and the rest of the block follows. -/
theorem Matches.label {pc : U64} {round : Except Abort (State ⊕ State)}
    (opened : Matches F tracer env.opened lines t round) :
    Matches F tracer env (.label (.insn pc) :: lines) t round := by
  cases opened with
  | next runs mirrors => exact .next runs mirrors
  | leave runs mirrors reason reenter exit => exact .leave runs mirrors reason reenter exit
  | dead died => exact .dead died

theorem lines_goesOn {pc : U64} (goesOn : (insn.cont || e.cont) = false) :
    (insn.block pc e).lines pc =
      .label (.insn pc) :: (e.lines ++ [.goto (.insn (pc + insn.len)), .close]) := by
  rw [Block.lines, Insn.block, goesOn]
  rfl

theorem lines_ends {pc : U64} (ends : (insn.cont || e.cont) = true) :
    (insn.block pc e).lines pc = .label (.insn pc) :: e.lines := by
  rw [Block.lines, Insn.block, ends]
  exact List.append_nil _

/-- **A label block is a round.** -/
theorem block_matches {type : InsnType} (same : insn.type = type) (fetched : Fetched t insn)
    (cont : insn.cont = type.jumps) (emitted : codegenFuncs type insn t.pc = .ok e)
    (has : tracer.Has e) (m : Mirrors tracer env t) :
    Matches F tracer env ((insn.block t.pc e).lines t.pc) t (blockIter F t) := by
  have shape : EmissionShape insn t.pc e type.transfer := codegenFuncs_shape same emitted
  have flags : (insn.cont || e.cont) = (type.transfer == .jump || type.transfer == .leave) := by
    subst same
    exact ends_block shape cont
  cases type with
  | beq | bne | blt | bge | bltu | bgeu =>
      rw [blockIter_of_compiled fetched (by rw [same]; rfl), lines_goesOn flags]
      apply Matches.label
      exact matches_branch fetched cont emitted (by rw [same]; rfl) (fun _ _ => rfl) has m
  | jal =>
      rw [blockIter_of_compiled fetched (by rw [same]; rfl), lines_ends flags]
      exact (matches_jal fetched same cont emitted has m).label
  | jalr =>
      rw [blockIter_of_compiled fetched (by rw [same]; rfl), lines_ends flags]
      exact (matches_jalr fetched same cont emitted has m).label
  | ecall =>
      rw [blockIter_of_compiled fetched (by rw [same]; rfl), lines_ends flags]
      exact (matches_ecall fetched same cont emitted m).label
  | mulh | mulhsu | mulhu | fsqrtS | fsqrtD | fcvtWS | fcvtWuS | fcvtWD | fcvtWuD | fcvtLS
  | fcvtLuS | fcvtLD | fcvtLuD | fclassS | fclassD | fsgnjS | fsgnjnS | fsgnjxS | fsgnjD
  | fsgnjnD | fsgnjxD =>
      rw [lines_ends flags]
      exact (matches_interp fetched (by rw [same]; rfl) emitted m).label
  | _ =>
      rw [blockIter_of_compiled fetched (by rw [same]; rfl), lines_goesOn flags]
      apply Matches.label
      exact matches_next fetched (by rw [same]; rfl) cont (by rw [same]; exact emitted) has m

end Blocks

/-! ## Labels and jumps -/

section Labels

variable {F : FloatOps} {mem : Bytes.Memory} {pc l : U64} {visited : List U64} {tracer : Tracer}
  {source : Source} {env env' : CEnv} {lines a b : List Line} {target : Target}

theorem mem_jumps_of_execLine {line : Line}
    (jumps : execLine F env line = .ok (env', some target)) : target ∈ line.jumps := by
  cases line with
  | goto next =>
      cases jumps
      exact List.mem_singleton_self _
  | ifGoto test pc =>
      obtain ⟨value, _, jumps⟩ := bind_ok.mp jumps
      obtain ⟨taken, _, jumps⟩ := bind_ok.mp jumps
      cases taken with
      | false => cases jumps
      | true =>
          cases jumps
          exact List.mem_singleton_self _
  | _ => simp [execLine, bind_ok, pure, Except.pure] at jumps

/-- The only label in a label block is its own. -/
theorem LabelBlock.label_eq {succs : List U64} (block : LabelBlock lines l succs)
    (known : .label target ∈ lines) : target = .insn l := by
  obtain ⟨mid, next, rfl, inside⟩ := block.closed
  simp only [List.mem_cons, List.mem_append, List.not_mem_nil, or_false] at known
  rcases known with same | known | goto | close
  · injection same
  · cases inside _ known
  · cases goto
  · cases close

/-- A label that no block carries is not in the body. -/
theorem Generated.absent (gen : Generated mem pc visited tracer source) {ls : List U64}
    (known : ∀ l ∈ ls, l ∈ visited ∧ target ≠ .insn l) :
    ∀ line ∈ tracer.prologue ++ ls.flatMap (linesAt mem), line ≠ .label target := by
  rintro line mem rfl
  rcases List.mem_append.mp mem with mem | mem
  · cases tracer.prologue_inside _ mem
  · obtain ⟨l, member, here⟩ := List.mem_flatMap.mp mem
    obtain ⟨seen, other⟩ := known l member
    exact other ((gen.labelBlock seen).label_eq here)

theorem Generated.findLabel_insn (gen : Generated mem pc visited tracer source)
    (seen : l ∈ visited) : ∃ rest, findLabel (.insn l) source = some (linesAt mem l ++ rest) := by
  obtain ⟨first, others, split, fresh⟩ := List.eq_append_cons_of_mem seen
  have before : ∀ x ∈ first, x ∈ visited ∧ Target.insn l ≠ .insn x := by
    intro x member
    refine ⟨split ▸ List.mem_append_left _ member, ?_⟩
    rintro ⟨⟩
    exact fresh member
  obtain ⟨mid, target, lines, _⟩ := (gen.labelBlock seen).closed
  refine ⟨others.flatMap (linesAt mem) ++ .label .finish :: tracer.epilogue, ?_⟩
  rw [gen.source, split, List.flatMap_append, ← List.append_assoc, List.append_assoc,
    findLabel_append (gen.absent before), List.flatMap_cons, List.append_assoc, lines]
  exact if_pos rfl

theorem Generated.findLabel_finish (gen : Generated mem pc visited tracer source) :
    findLabel .finish source = some (.label .finish :: tracer.epilogue) := by
  have other : ∀ l, Target.finish ≠ .insn l := fun _ => nofun
  rw [gen.source, findLabel_append (gen.absent fun l seen => ⟨seen, other l⟩)]
  exact if_pos rfl

/-- Lines jump only to targets that they name. -/
theorem mem_jumps_of_execLines (jumps : execLines F env lines = .ok (env', some target)) :
    target ∈ lines.flatMap Line.jumps := by
  induction lines generalizing env with
  | nil => cases jumps
  | cons line lines ih =>
      obtain ⟨⟨env₁, jump⟩, here, rest⟩ := bind_ok.mp jumps
      rw [List.flatMap_cons, List.mem_append]
      cases jump with
      | none => exact .inr (ih rest)
      | some jump =>
          cases rest
          exact .inl (mem_jumps_of_execLine here)

end Labels

/-! ## Lockstep -/

/-- The instructions of the block are those it was generated from whenever they are
executed: in particular no store has touched their bytes. -/
def Intact (F : FloatOps) (mem : Bytes.Memory) (pc : U64) (s : State) : Prop :=
  ∀ t, Iteration.Steps (blockIter F) s t → Reaches (staticSuccs mem) pc t.pc →
    SameInsn mem t.mem t.pc

section Simulation

variable {F : FloatOps} {mem : Bytes.Memory} {pc : U64} {visited : List U64} {tracer : Tracer}
  {source : Source} {s : State}

/-- The function is about to run the label block at the pc where interpretation stands. -/
def AtBlock (F : FloatOps) (mem : Bytes.Memory) (visited : List U64) (tracer : Tracer) (s : State)
    (at_ : CEnv × List Line) (t : State) : Prop :=
  Iteration.Steps (blockIter F) s t ∧ t.pc ∈ visited ∧ ∃ env rest, Mirrors tracer env t ∧
    execLines F at_.1 at_.2 = execLines F env (linesAt mem t.pc ++ rest)

/-- The function has returned what it may return where interpretation leaves the block. -/
def Left (F : FloatOps) (s s' k : State) : Prop :=
  ∃ t, Iteration.Steps (blockIter F) s t ∧ blockIter F t = .ok (.inr k) ∧ ExitPoint F t s'

/-- At a label block of the source, its lines match a round. -/
theorem matches_at (gen : Generated mem pc visited tracer source) (intact : Intact F mem pc s)
    {env : CEnv} {t : State} (steps : Iteration.Steps (blockIter F) s t) (seen : t.pc ∈ visited)
    (m : Mirrors tracer env t) :
    Matches F tracer env (linesAt mem t.pc) t (blockIter F t) ∧
      ∃ insn, Fetched t insn := by
  obtain ⟨block, generated, has⟩ := gen.blocks t.pc seen
  obtain ⟨insn, e, decoded, emitted, rfl⟩ := blockAt_ok generated
  have same := (intact t steps (gen.explored.reaches seen)).insnDecode
  have fetched : Fetched t insn := ⟨gen.nonzero t.pc seen, m.zero, same.trans decoded⟩
  have lines : linesAt mem t.pc = (insn.block t.pc e).lines t.pc := by rw [linesAt, generated]
  rw [lines]
  exact ⟨block_matches rfl fetched (insnDecode_shape rfl decoded).cont_eq emitted has m,
    insn, fetched⟩

/-- A jump to a label block that is in the source. -/
theorem covered_of_jump (gen : Generated mem pc visited tracer source) {env env' : CEnv}
    {l next : U64} (seen : l ∈ visited)
    (jumps : execLines F env (linesAt mem l) = .ok (env', some (.insn next))) :
    next ∈ visited := by
  rcases (gen.labelBlock seen).jumps _ (mem_jumps_of_execLines jumps) with finish | ⟨a, succ, same⟩
  · cases finish
  · cases same
    exact (gen.explored.covered l seen next succ).resolve_right List.not_mem_nil

/-- A block exit depends on the registers, the memory and the exit fields only. -/
theorem ExitPoint.congr {t r r' : State} (exit : ExitPoint F t r) (same : SameGuest r' r)
    (reason : r'.exitReason = r.exitReason) (reenter : r'.reenterPc = r.reenterPc) :
    ExitPoint F t r' := by
  obtain ⟨leaves, only⟩ := exit
  refine ⟨?_, fun interp => only (reason.symm.trans interp)⟩
  cases leaves with
  | executed fetched kind round reason' reenter' same' =>
      exact .executed fetched (reason ▸ kind) round (reason.trans reason') (reenter.trans reenter')
        ⟨same.gp.trans same'.gp, same.fp.trans same'.fp, same.mem.trans same'.mem⟩
  | pending reason' reenter' same' =>
      exact .pending (reason.trans reason') (reenter.trans reenter')
        ⟨same.gp.trans same'.gp, same.fp.trans same'.fp, same.mem.trans same'.mem⟩

/-- **The function and interpretation run in lockstep.** -/
theorem block_lockstep (gen : Generated mem pc visited tracer source)
    (intact : Intact F mem pc s) :
    Iteration.Lockstep (sourceIter F source) (blockIter F) (AtBlock F mem visited tracer s)
      (Left F s) where
  next := by
    rintro ⟨env₀, lines⟩ t t' ⟨steps, seen, env, rest, m, same⟩ round
    obtain ⟨here, _⟩ := matches_at gen intact steps seen m
    rw [round] at here
    cases here with
    | @next _ env' runs mirrors =>
        have next := covered_of_jump gen seen runs
        obtain ⟨rest', found⟩ := gen.findLabel_insn next
        have jump : execLines F env₀ lines = .ok (env', some (.insn t'.pc)) :=
          same.trans (execLines_append_of_jumps runs)
        refine ⟨(env', linesAt mem t'.pc ++ rest'), ?_, steps.tail round, next, env', rest',
          mirrors, rfl⟩
        rw [sourceIter, jump]
        simp only [bind, Except.bind, found, pure, Except.pure]
  leave := by
    rintro ⟨env₀, lines⟩ t r ⟨steps, seen, env, rest, m, same⟩ round
    obtain ⟨here, _⟩ := matches_at gen intact steps seen m
    rw [round] at here
    cases here with
    | @leave _ env' runs mirrors reason reenter exit =>
        have jump : execLines F env₀ lines = .ok (env', some .finish) :=
          same.trans (execLines_append_of_jumps runs)
        obtain ⟨last, finish, guest, reason', reenter'⟩ := runs_epilogue mirrors
        have toEnd : sourceIter F source (env₀, lines) =
            .ok (.inl (env', .label .finish :: tracer.epilogue)) := by
          rw [sourceIter, jump]
          simp only [bind, Except.bind, gen.findLabel_finish, pure, Except.pure]
        have returns : sourceIter F source (env', .label .finish :: tracer.epilogue) =
            .ok (.inr last.state) := by
          rw [sourceIter, finish]
          rfl
        exact ⟨last.state, .again toEnd (.leave returns), t, steps, round,
          exit.congr guest (reason'.trans reason) (reenter'.trans reenter)⟩

/-- The function dies with the interpreter, but for a trap that it does not compute. -/
theorem dies_with (gen : Generated mem pc visited tracer source) (intact : Intact F mem pc s)
    {at_ : CEnv × List Line} {t : State} {abort : Abort}
    (related : AtBlock F mem visited tracer s at_ t) (computes : ¬ DropsTrap t)
    (died : blockIter F t = .error abort) : ∃ e, Iteration.Aborts (sourceIter F source) at_ e := by
  obtain ⟨steps, seen, env, rest, m, same⟩ := related
  obtain ⟨here, _⟩ := matches_at gen intact steps seen m
  rw [died] at here
  cases here with
  | dead died =>
      rcases died with drops | ⟨e, died⟩
      · exact absurd drops computes
      · refine ⟨e, .here ?_⟩
        rw [sourceIter, same, execLines_append_of_error died]
        rfl

/-- The call stands at the first label block. -/
theorem atBlock_start (gen : Generated mem pc visited tracer source) (entry : s.pc = pc)
    (zero : s.gpRegs 0 = 0) : AtBlock F mem visited tracer s (CEnv.enter s, source) s := by
  obtain ⟨env, prologue, m⟩ := runs_prologue (F := F) tracer zero
  obtain ⟨rest, start⟩ := gen.starts
  refine ⟨.refl, ?_, env, rest, m, ?_⟩
  · rw [entry]
    exact List.mem_of_head? gen.explored.head
  · change execLines F (CEnv.enter s) source = _
    rw [start, entry]
    exact execLines_append_of_runs prologue

/-- A division that traps and is dropped ends interpretation. -/
theorem DropsTrap.dies {t : State} (drops : DropsTrap t) : ∃ abort, blockIter F t = .error abort := by
  obtain ⟨insn, fetched, divides, _, nonzero, low⟩ := drops
  obtain ⟨abort, died⟩ : ∃ abort, interpFuncs F insn.type t insn = .error abort :=
    (interpFuncs_divides32 divides).mpr ⟨nonzero, low⟩
  have compiled : insn.type.interpOnly = false := by
    cases type : insn.type <;> first | rfl | (rw [type] at divides; cases divides)
  refine ⟨abort, ?_⟩
  rw [blockIter_of_compiled fetched compiled, followIter,
    execBlockIter_of_died fetched.nonzero fetched.decoded died]
  rfl

/-- A round inside a block is a round that follows direct branches. -/
theorem followIter_of_blockIter {t t' : State} (round : blockIter F t = .ok (.inl t')) :
    followIter F t = .ok (.inl t') := by
  rw [blockIter] at round
  split_ifs at round with left
  · cases round
  · exact round

/-- At a point of exit the block is left. -/
theorem ExitPoint.leaves {t r : State} (exit : ExitPoint F t r) :
    ∃ k, blockIter F t = .ok (.inr k) := by
  by_cases left : t.interpOnly = true
  · exact ⟨_, if_pos left⟩
  · obtain ⟨leaves, only⟩ := exit
    cases leaves with
    | @executed insn k fetched kind round reason _ _ =>
        obtain ⟨other, _⟩ := exitReason_cases kind
        exact ⟨k, (if_neg left).trans (followIter_of_leave round (reason ▸ other))⟩
    | pending reason _ _ => exact absurd (only reason) left

/-- A point of exit that interpretation reaches lies behind the first one. -/
theorem first_exit {t r : State} (steps : Iteration.Steps (followIter F) s t)
    (exit : ExitPoint F t r) : ∃ t' k, Iteration.Steps (blockIter F) s t' ∧
      blockIter F t' = .ok (.inr k) ∧ Iteration.Steps (followIter F) t' t := by
  induction steps using Relation.ReflTransGen.head_induction_on with
  | refl =>
      obtain ⟨k, leaves⟩ := exit.leaves
      exact ⟨t, k, .refl, leaves, .refl⟩
  | @head a b round rest ih =>
      by_cases left : a.interpOnly = true
      · exact ⟨a, _, .refl, if_pos left, .head round rest⟩
      · obtain ⟨t', k, steps, leaves, after⟩ := ih
        exact ⟨t', k, .head ((if_neg left).trans round) steps, leaves, after⟩

theorem followSteps_of_block {t : State} (steps : Iteration.Steps (blockIter F) s t) :
    Iteration.Steps (followIter F) s t :=
  Relation.ReflTransGen.mono (fun _ _ => followIter_of_blockIter) _ _ steps

/-- Interpretation that gets to a point of exit has not met a dropped trap inside the block. -/
theorem not_dropsTrap_of_exit {t r d : State} (steps : Iteration.Steps (followIter F) s t)
    (exit : ExitPoint F t r) (reached : Iteration.Steps (blockIter F) s d) : ¬ DropsTrap d := by
  intro drops
  obtain ⟨t', k, steps', leaves, _⟩ := first_exit steps exit
  obtain ⟨abort, died⟩ := drops.dies (F := F)
  exact (Iteration.Returns.of_steps steps' (.leave leaves)).not_aborts
    (.of_steps reached (.here died))

/-- A call that returns does so at a point of exit, exactly when no dropped trap is on the way. -/
theorem Generated.exit_iff (gen : Generated mem pc visited tracer source)
    (entry : s.pc = pc) (zero : s.gpRegs 0 = 0) (intact : Intact F mem pc s) {s' : State}
    (call : Start F source s s') :
    (∃ t, Iteration.Steps (followIter F) s t ∧ ExitPoint F t s') ↔
      ∀ t, Iteration.Steps (blockIter F) s t → ¬ DropsTrap t := by
  constructor
  · rintro ⟨t, steps, exit⟩ d reached
    exact not_dropsTrap_of_exit steps exit reached
  · intro computes
    have die : ∀ {a b e}, AtBlock F mem visited tracer s a b → blockIter F b = .error e →
        ∃ e', Iteration.Aborts (sourceIter F source) a e' :=
      fun related died => dies_with gen intact related (computes _ related.1) died
    obtain ⟨k, _, t, steps, _, exit⟩ :=
      (block_lockstep gen intact).returned die (atBlock_start gen entry zero) call
    exact ⟨t, followSteps_of_block steps, exit⟩

/-- When interpretation gets to a point of exit, the call returns at the first one. -/
theorem Generated.start_of_exit (gen : Generated mem pc visited tracer source)
    (entry : s.pc = pc) (zero : s.gpRegs 0 = 0) (intact : Intact F mem pc s) {t r : State}
    (steps : Iteration.Steps (followIter F) s t) (exit : ExitPoint F t r) :
    ∃ t' s', Iteration.Steps (followIter F) s t' ∧ Iteration.Steps (followIter F) t' t ∧
      ExitPoint F t' s' ∧ Start F source s s' := by
  obtain ⟨t', k, steps', leaves, after⟩ := first_exit steps exit
  obtain ⟨s', call, first, firstSteps, firstLeaves, left⟩ :=
    (block_lockstep gen intact).returns (atBlock_start gen entry zero)
      (Iteration.Returns.of_steps steps' (.leave leaves))
  have same : first = t' := Iteration.leaves_unique firstSteps firstLeaves steps' leaves
  exact ⟨t', s', followSteps_of_block steps', after, same ▸ left, call⟩

end Simulation

/-- **A generated block refines the interpreter.** A call of the function that returns
does so at a point of exit of interpretation, exactly when interpretation has not
died on the way in a division whose trap the function drops. Whenever interpretation
gets to a point of exit, the call returns at the first one. -/
theorem machineGenblock_refines {F : FloatOps} {insn : Insn} {mem : Bytes.Memory} {pc : U64}
    {source : Source} {s : State} (generated : machineGenblock insn mem pc = .ok source)
    (entry : s.pc = pc) (zero : s.gpRegs 0 = 0) (intact : Intact F mem pc s) :
    (∀ s', Start F source s s' →
      ((∃ t, Iteration.Steps (followIter F) s t ∧ ExitPoint F t s') ↔
        ∀ t, Iteration.Steps (blockIter F) s t → ¬ DropsTrap t)) ∧
    ∀ t r, Iteration.Steps (followIter F) s t → ExitPoint F t r →
      ∃ t' s', Iteration.Steps (followIter F) s t' ∧ Iteration.Steps (followIter F) t' t ∧
        ExitPoint F t' s' ∧ Start F source s s' := by
  obtain ⟨visited, tracer, gen⟩ := machineGenblock_spec generated
  constructor
  · intro s' call
    exact gen.exit_iff entry zero intact call
  · intro t r steps exit
    exact gen.start_of_exit entry zero intact steps exit

/-- The state at the head of a program, with one register set. -/
def State.boot (mem : Bytes.Memory) (pc : U64) (reg : Reg) (value : U64) : State where
  exitReason := .none
  reenterPc := 0
  gpRegs := Function.update (fun _ => 0) reg value
  fpRegs _ := 0
  pc := pc
  mem := mem

/-- The countdown from three, which returns to 0x2000. -/
abbrev countdownState : State := (State.boot countdown 0x1000 10 3).setGp 1 0x2000

/-- What holds at every place of the countdown. -/
structure CountsDown (t : State) : Prop where
  code : t.mem = countdown
  zero : t.gpRegs 0 = 0
  place : t.pc = 0x1000 ∨ t.pc = 0x1004 ∨ t.pc = 0x1008

section Countdown

variable {F : FloatOps} {t t' : State}

theorem CountsDown.fetched {pc : U64} {insn : Insn} (counts : CountsDown t) (here : t.pc = pc)
    (nonzero : pc ≠ 0) (decoded : insnDecode {} (Bytes.load countdown pc 32) = .ok insn) :
    Fetched t insn :=
  ⟨here ▸ nonzero, counts.zero, by rw [State.fetch, counts.code, here, decoded]⟩

/-- A round leads to the next place, the branch also back to the first one. -/
theorem CountsDown.next (counts : CountsDown t) (round : blockIter F t = .ok (.inl t')) :
    CountsDown t' := by
  rcases counts.place with here | here | here
  · have fetched : Fetched t { rd := 10, rs1 := 10, imm := -1, type := .addi } :=
      counts.fetched here (by decide) rfl
    have exec : interpFuncs F .addi t { rd := 10, rs1 := 10, imm := -1, type := .addi } =
        .ok (_, _) := rfl
    rw [blockIter_of_compiled fetched rfl,
      followIter_of_next (execBlockIter_of_handler fetched exec)] at round
    cases round
    refine ⟨counts.code, by simp [State.setGp], .inr (.inl ?_)⟩
    change t.pc + 4 = 0x1004
    rw [here]
    rfl
  · have fetched : Fetched t { rs1 := 10, imm := -4, type := .bne } :=
      counts.fetched here (by decide) rfl
    rw [blockIter_of_compiled fetched rfl] at round
    by_cases more : (t.gpRegs 10 != t.gpRegs 0) = true
    · have exec : interpFuncs F .bne t { rs1 := 10, imm := -4, type := .bne } = .ok (_, _) :=
        if_pos more
      rw [followIter_of_direct (execBlockIter_of_handler fetched exec)
        (by simp [State.setGp])] at round
      cases round
      refine ⟨counts.code, by simp [State.setGp], .inl ?_⟩
      change t.pc + BitVec.signExtend 64 (-4 : U32) = 0x1000
      rw [here]
      rfl
    · have exec : interpFuncs F .bne t { rs1 := 10, imm := -4, type := .bne } = .ok (_, _) :=
        if_neg more
      rw [followIter_of_next (execBlockIter_of_handler fetched exec)] at round
      cases round
      refine ⟨counts.code, by simp [State.setGp], .inr (.inr ?_)⟩
      change t.pc + 4 = 0x1008
      rw [here]
      rfl
  · have fetched : Fetched t { rs1 := 1, type := .jalr, cont := true } :=
      counts.fetched here (by decide) rfl
    have back : execBlockIter F t = .ok (.inr _) := execBlockIter_of_handler fetched rfl
    rw [blockIter_of_compiled fetched rfl,
      followIter_of_leave back (by simp [State.setGp])] at round
    cases round

/-- No place divides. -/
theorem CountsDown.not_dropsTrap (counts : CountsDown t) : ¬ DropsTrap t := by
  rintro ⟨insn, fetched, divides, _⟩
  have decoded : insnDecode {} (Bytes.load countdown t.pc 32) = .ok insn := by
    rw [← counts.code]
    exact fetched.decoded
  rcases counts.place with here | here | here <;>
  · rw [here] at decoded
    cases decoded
    cases divides

theorem countdown_counts (steps : Iteration.Steps (blockIter F) countdownState t) : CountsDown t :=
  steps.invariant CountsDown (fun _ _ counts round => counts.next round) ⟨rfl, rfl, .inl rfl⟩

theorem countdown_intact : Intact F countdown 0x1000 countdownState := by
  intro t steps _ i _
  rw [(countdown_counts steps).code]

end Countdown

/-- The countdown runs through its loop three times. -/
theorem machineGenblock_refines_countdown : ∃ source s',
    machineGenblock {} countdown 0x1000 = .ok source ∧ Start default source countdownState s' ∧
      s'.gpRegs 10 = 0 ∧ s'.reenterPc = 0x2000 ∧
      ∃ t, Iteration.Steps (followIter default) countdownState t ∧ ExitPoint default t s' := by
  obtain ⟨source, generated, s', call, counted, target⟩ : ∃ source,
      machineGenblock {} countdown 0x1000 = .ok source ∧ ∃ s', Iteration.run
        (sourceIter default source) 9 (CEnv.enter countdownState, source) = some (.ok s') ∧
        s'.gpRegs 10 = 0 ∧ s'.reenterPc = 0x2000 := ⟨_, rfl, _, rfl, rfl, rfl⟩
  have call : Start default source countdownState s' := Iteration.returns_of_run call
  have exits := (machineGenblock_refines generated rfl rfl countdown_intact).1 s' call
  exact ⟨source, s', generated, call, counted, target,
    exits.mpr fun t steps => (countdown_counts steps).not_dropsTrap⟩

/-- `ret`. -/
def retCode : Bytes.Memory := Bytes.copy (fun _ => 0) 0x1000 [0x67, 0x80, 0x00, 0x00]

/-- A state that returns to 0x2000. -/
abbrev retState : State := .boot retCode 0x1000 1 0x2000

/-- The source that is generated for it. -/
def retSource : Source :=
  [.loadGp 1,
    .label (.insn 0x1000), .declGp .rs1 1, .setExit .indirectBranch,
    .setReenter (Codegen.jalrTarget { rs1 := 1, type := .jalr, cont := true }),
    .goto .finish, .close,
    .label .finish, .saveGp 1]

/-- `divw zero, a0, a1`, `ret`. -/
def droppedDivw : Bytes.Memory :=
  Bytes.copy (fun _ => 0) 0x1000 [0x3b, 0x40, 0xb5, 0x02, 0x67, 0x80, 0x00, 0x00]

/-- A state in which the divisor is not zero, but its low half is. -/
abbrev droppedDivwState : State := .boot droppedDivw 0x1000 11 0x100000000

/-- The source that is generated for it: nothing divides. -/
def droppedDivwSource : Source :=
  [.loadGp 1, .loadGp 10, .loadGp 11,
    .label (.insn 0x1000), .declGp .rs1 10, .declGp .rs2 11, .goto (.insn 0x1004), .close,
    .label (.insn 0x1004), .declGp .rs1 1, .setExit .indirectBranch,
    .setReenter (Codegen.jalrTarget { rs1 := 1, type := .jalr, cont := true }),
    .goto .finish, .close,
    .label .finish, .saveGp 1, .saveGp 10, .saveGp 11]

/-- The low half of `a1` is zero: the host of the interpreter traps, and the generated
code returns. -/
theorem machineGenblock_droppedDivw :
    machineGenblock {} droppedDivw 0x1000 = .ok droppedDivwSource ∧
    Intact default droppedDivw 0x1000 droppedDivwState ∧ ∃ s',
      Start default droppedDivwSource droppedDivwState s' ∧
      ¬ ∃ t, Iteration.Steps (followIter default) droppedDivwState t ∧
        ExitPoint default t s' := by
  obtain ⟨s', call, jumped⟩ : ∃ s', Iteration.run (sourceIter default droppedDivwSource) 3
      (CEnv.enter droppedDivwState, droppedDivwSource) = some (.ok s') ∧
      s'.exitReason = .indirectBranch :=
    ⟨_, rfl, rfl⟩
  have fetched : Fetched droppedDivwState { rs1 := 10, rs2 := 11, type := .divw } :=
    ⟨by decide, rfl, rfl⟩
  have exec : execInsn default droppedDivwState = .error .trap := rfl
  have traps : execBlockIter default droppedDivwState = .error .trap := by
    rw [execBlockIter, if_neg fetched.nonzero, exec]
    rfl
  have follow : followIter default droppedDivwState = .error .trap := by
    rw [followIter, traps]
    rfl
  have dies : blockIter default droppedDivwState = .error .trap :=
    (blockIter_of_compiled fetched rfl).trans follow
  refine ⟨rfl, ?_, s', Iteration.returns_of_run call, ?_⟩
  · intro t steps _ i _
    rw [← steps.eq_of_stops (by rw [dies]; simp)]
    rfl
  · rintro ⟨t, steps, leaves, _⟩
    rw [← steps.eq_of_stops (by rw [follow]; simp)] at leaves
    cases leaves with
    | executed _ _ round _ _ _ => cases traps.symm.trans round
    | pending reason _ _ => cases reason.symm.trans jumped

end RiscvEmu
