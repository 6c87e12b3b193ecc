import RiscvEmu.Trajectory
import RiscvEmu.Foundation.Rv64i

/-!
# The interpreter executes RV64I

One round of `exec_block_interp` on a base integer instruction has the effect
that the architecture defines. `Insn.rv64i` says which instruction of the
architecture a decoded record is, and `State.hart` is the architectural part of
the emulator's state.

The handlers compute with the casts of C on 64-bit values; that each gives the
architecture's value is one lemma for each operation. Every group of handlers
then has one lemma about the round (`executes_value` and the ones after it).

* `execBlockIter_rv64i`: the round of every base integer instruction.
-/

set_option autoImplicit false

namespace RiscvEmu

open Rv64i (Hart Instr Alu AluW Cond)

/-- The architectural state. -/
def State.hart (s : State) : Hart := ⟨s.gpRegs, s.pc, s.mem⟩

/-- The instruction of the base integer set that a decoded record is. -/
def Insn.rv64i (insn : Insn) : Option Instr :=
  match insn.type with
  | .lb => some (.load .lb insn.rd insn.rs1 insn.imm64)
  | .lh => some (.load .lh insn.rd insn.rs1 insn.imm64)
  | .lw => some (.load .lw insn.rd insn.rs1 insn.imm64)
  | .ld => some (.load .ld insn.rd insn.rs1 insn.imm64)
  | .lbu => some (.load .lbu insn.rd insn.rs1 insn.imm64)
  | .lhu => some (.load .lhu insn.rd insn.rs1 insn.imm64)
  | .lwu => some (.load .lwu insn.rd insn.rs1 insn.imm64)
  | .sb => some (.store .sb insn.rs1 insn.rs2 insn.imm64)
  | .sh => some (.store .sh insn.rs1 insn.rs2 insn.imm64)
  | .sw => some (.store .sw insn.rs1 insn.rs2 insn.imm64)
  | .sd => some (.store .sd insn.rs1 insn.rs2 insn.imm64)
  | .addi => some (.opImm .add insn.rd insn.rs1 insn.imm64)
  | .slli => some (.opImm .sll insn.rd insn.rs1 insn.imm64)
  | .slti => some (.opImm .slt insn.rd insn.rs1 insn.imm64)
  | .sltiu => some (.opImm .sltu insn.rd insn.rs1 insn.imm64)
  | .xori => some (.opImm .xor insn.rd insn.rs1 insn.imm64)
  | .srli => some (.opImm .srl insn.rd insn.rs1 insn.imm64)
  | .srai => some (.opImm .sra insn.rd insn.rs1 insn.imm64)
  | .ori => some (.opImm .or insn.rd insn.rs1 insn.imm64)
  | .andi => some (.opImm .and insn.rd insn.rs1 insn.imm64)
  | .addiw => some (.opImm32 .addw insn.rd insn.rs1 insn.imm64)
  | .slliw => some (.opImm32 .sllw insn.rd insn.rs1 insn.imm64)
  | .srliw => some (.opImm32 .srlw insn.rd insn.rs1 insn.imm64)
  | .sraiw => some (.opImm32 .sraw insn.rd insn.rs1 insn.imm64)
  | .add => some (.op .add insn.rd insn.rs1 insn.rs2)
  | .sll => some (.op .sll insn.rd insn.rs1 insn.rs2)
  | .slt => some (.op .slt insn.rd insn.rs1 insn.rs2)
  | .sltu => some (.op .sltu insn.rd insn.rs1 insn.rs2)
  | .xor => some (.op .xor insn.rd insn.rs1 insn.rs2)
  | .srl => some (.op .srl insn.rd insn.rs1 insn.rs2)
  | .or => some (.op .or insn.rd insn.rs1 insn.rs2)
  | .and => some (.op .and insn.rd insn.rs1 insn.rs2)
  | .sub => some (.op .sub insn.rd insn.rs1 insn.rs2)
  | .sra => some (.op .sra insn.rd insn.rs1 insn.rs2)
  | .addw => some (.op32 .addw insn.rd insn.rs1 insn.rs2)
  | .sllw => some (.op32 .sllw insn.rd insn.rs1 insn.rs2)
  | .srlw => some (.op32 .srlw insn.rd insn.rs1 insn.rs2)
  | .subw => some (.op32 .subw insn.rd insn.rs1 insn.rs2)
  | .sraw => some (.op32 .sraw insn.rd insn.rs1 insn.rs2)
  | .lui => some (.lui insn.rd insn.imm64)
  | .auipc => some (.auipc insn.rd insn.imm64)
  | .beq => some (.branch .eq insn.rs1 insn.rs2 insn.imm64)
  | .bne => some (.branch .ne insn.rs1 insn.rs2 insn.imm64)
  | .blt => some (.branch .lt insn.rs1 insn.rs2 insn.imm64)
  | .bge => some (.branch .ge insn.rs1 insn.rs2 insn.imm64)
  | .bltu => some (.branch .ltu insn.rs1 insn.rs2 insn.imm64)
  | .bgeu => some (.branch .geu insn.rs1 insn.rs2 insn.imm64)
  | .jal => some (.jal insn.rd insn.imm64)
  | .jalr => some (.jalr insn.rd insn.rs1 insn.imm64)
  | _ => none

/-! ## The operations of the handlers -/

section Operations

variable (a b : U64)

theorem toNat_and_63 : (b &&& 0x3f).toNat = b.toNat % 64 := by
  rw [BitVec.toNat_and]
  exact Nat.and_two_pow_sub_one_eq_mod b.toNat 6

theorem toNat_and_31 : (b &&& 0x1f).toNat = b.toNat % 32 := by
  rw [BitVec.toNat_and]
  exact Nat.and_two_pow_sub_one_eq_mod b.toNat 5

theorem sll_eval : a <<< (b &&& 0x3f) = Alu.sll.eval a b := by
  rw [BitVec.shiftLeft_eq', toNat_and_63, Alu.eval]

theorem srl_eval : a >>> (b &&& 0x3f) = Alu.srl.eval a b := by
  rw [BitVec.ushiftRight_eq', toNat_and_63, Alu.eval]

theorem sra_eval : a.sshiftRight' (b &&& 0x3f) = Alu.sra.eval a b := by
  rw [BitVec.sshiftRight_eq', toNat_and_63, Alu.eval]

theorem slt_eval : cbool (a.slt b) = Alu.slt.eval a b := by
  simp only [cbool, BitVec.slt, decide_eq_true_eq, Alu.eval]

theorem sltu_eval : cbool (a.ult b) = Alu.sltu.eval a b := by
  simp only [cbool, BitVec.ult, decide_eq_true_eq, Alu.eval]

theorem addw_eval : CInt.i32.conv (a + b) = AluW.addw.eval a b := by
  rw [CInt.conv, BitVec.setWidth_add _ _ (by omega), AluW.eval, Rv64i.low, Rv64i.low]

theorem subw_eval : CInt.i32.conv (a - b) = AluW.subw.eval a b := by
  have low : (a - b).setWidth 32 = a.setWidth 32 - b.setWidth 32 := by
    apply BitVec.eq_of_toNat_eq
    simp only [BitVec.toNat_setWidth, BitVec.toNat_sub]
    omega
  rw [CInt.conv, low, AluW.eval, Rv64i.low, Rv64i.low]

theorem sllw_eval : CInt.i32.conv (a <<< (b &&& 0x1f)) = AluW.sllw.eval a b := by
  rw [BitVec.shiftLeft_eq', toNat_and_31, CInt.conv, AluW.eval, Rv64i.low]
  congr 1
  apply BitVec.eq_of_getLsbD_eq
  intro i bound
  simp only [BitVec.getLsbD_setWidth, BitVec.getLsbD_shiftLeft, bound, decide_true, Bool.true_and,
    show i < 64 by omega, show i - b.toNat % 32 < 32 by omega]

theorem srlw_eval :
    CInt.i32.conv (CInt.u32.conv a >>> (b &&& 0x1f)) = AluW.srlw.eval a b := by
  rw [BitVec.ushiftRight_eq', toNat_and_31, CInt.conv, CInt.conv, AluW.eval, Rv64i.low]
  congr 1
  apply BitVec.eq_of_getLsbD_eq
  intro i bound
  simp only [BitVec.getLsbD_setWidth, BitVec.getLsbD_ushiftRight, bound, decide_true,
    Bool.true_and]
  by_cases inside : b.toNat % 32 + i < 32
  · simp [inside, show b.toNat % 32 + i < 64 by omega]
  · simp [inside]

/-- An arithmetic shift of a sign-extended word is the sign-extended shift of the word. -/
theorem sshiftRight_signExtend (x : U32) (n : Nat) :
    (x.signExtend 64).sshiftRight n = (x.sshiftRight n).signExtend 64 := by
  apply BitVec.eq_of_toInt_eq
  rw [BitVec.toInt_sshiftRight, BitVec.toInt_signExtend_of_le (by omega),
    BitVec.toInt_signExtend_of_le (by omega), BitVec.toInt_sshiftRight]

theorem sraw_eval : (CInt.i32.conv a).sshiftRight' (b &&& 0x1f) = AluW.sraw.eval a b := by
  rw [BitVec.sshiftRight_eq', toNat_and_31, CInt.conv, sshiftRight_signExtend, AluW.eval, Rv64i.low]

/-- The outer cast of `func_sraw` changes nothing. -/
theorem sraw_eval' :
    CInt.i32.conv ((CInt.i32.conv a).sshiftRight' (b &&& 0x1f)) = AluW.sraw.eval a b := by
  rw [sraw_eval, AluW.eval, CInt.conv, CInt.setWidth_signExtend _ (by omega)]

theorem holds_beq : (a == b) = Cond.eq.holds a b := rfl

theorem holds_bne : (a != b) = Cond.ne.holds a b := by
  rw [Cond.holds, bne, beq_eq_decide, decide_not]

theorem holds_blt : a.slt b = Cond.lt.holds a b := rfl

theorem holds_bge : b.sle a = Cond.ge.holds a b := rfl

theorem holds_bltu : a.ult b = Cond.ltu.holds a b := rfl

theorem holds_bgeu : b.ule a = Cond.geu.holds a b := rfl

end Operations

/-! ## Rounds -/

/-- The architectural state after a round: the next pc is `reenter_pc` when the block exits. -/
def State.after (s : State) (exits : Bool) : Hart :=
  if exits then { s.hart with pc := s.reenterPc } else s.hart

/-- A round executes an instruction of the architecture. -/
def Executes (F : FloatOps) (s : State) (len : U64) (instr : Instr) : Prop :=
  ∃ s', execBlockIter F s =
      .ok (if Rv64i.jumps s.hart instr = true then .inr s' else .inl s') ∧
    s'.after (Rv64i.jumps s.hart instr) = Rv64i.step len s.hart instr ∧
    s'.gpRegs 0 = 0 ∧ s'.fpRegs = s.fpRegs

section Rounds

variable {F : FloatOps} {s : State} {insn : Insn} {instr : Instr}

theorem State.read_eq (zero : s.gpRegs 0 = 0) (r : Reg) : s.hart.read r = s.gpRegs r := by
  rw [Hart.read, State.hart]
  split_ifs with isZero
  · rw [isZero, zero]
  · rfl

theorem State.hart_writeGp (r : Reg) (value : U64) :
    (s.writeGp r value).hart = s.hart.write r value := by
  rw [State.writeGp, Hart.write]
  split_ifs <;> rfl

/-- An instruction that writes a value to its destination and goes on. -/
theorem executes_value {value : U64} (fetched : Fetched s insn) (straight : insn.type.jumps = false)
    (exec : interpFuncs F insn.type s insn = .ok (s.setGp insn.rd value, insn))
    (goesOn : Rv64i.jumps s.hart instr = false)
    (step : Rv64i.step insn.len s.hart instr =
      { s.hart.write insn.rd value with pc := s.pc + insn.len }) :
    Executes F s insn.len instr := by
  have cont : insn.cont = false := (insnDecode_shape rfl fetched.decoded).cont_eq.trans straight
  refine ⟨{ s.writeGp insn.rd value with pc := s.pc + insn.len }, ?_, ?_,
    State.writeGp_zero fetched.zero _ _, State.writeGp_fpRegs ..⟩
  · rw [execBlockIter_of_handler fetched exec, cont, goesOn,
      State.setGp_zero_setGp fetched.zero]
    rfl
  · rw [goesOn, step, State.after, ← State.hart_writeGp]
    rfl

/-- The register-immediate operations. -/
theorem executes_opImm {op : Alu} {expr : U64 → U64 → U64} (fetched : Fetched s insn)
    (straight : insn.type.jumps = false) (handler : interpFuncs F insn.type = funcImm expr)
    (agrees : ∀ a b, expr a b = op.eval a b) :
    Executes F s insn.len (.opImm op insn.rd insn.rs1 insn.imm64) := by
  refine executes_value fetched straight (by rw [handler]; rfl) rfl ?_
  rw [agrees, Rv64i.step, State.read_eq fetched.zero]
  rfl

theorem executes_opImm32 {op : AluW} {expr : U64 → U64 → U64} (fetched : Fetched s insn)
    (straight : insn.type.jumps = false) (handler : interpFuncs F insn.type = funcImm expr)
    (agrees : ∀ a b, expr a b = op.eval a b) :
    Executes F s insn.len (.opImm32 op insn.rd insn.rs1 insn.imm64) := by
  refine executes_value fetched straight (by rw [handler]; rfl) rfl ?_
  rw [agrees, Rv64i.step, State.read_eq fetched.zero]
  rfl

/-- The register-register operations. -/
theorem executes_op {op : Alu} {expr : U64 → U64 → U64} (fetched : Fetched s insn)
    (straight : insn.type.jumps = false) (handler : interpFuncs F insn.type = funcReg expr)
    (agrees : ∀ a b, expr a b = op.eval a b) :
    Executes F s insn.len (.op op insn.rd insn.rs1 insn.rs2) := by
  refine executes_value fetched straight (by rw [handler]; rfl) rfl ?_
  rw [agrees, Rv64i.step, State.read_eq fetched.zero, State.read_eq fetched.zero]
  rfl

theorem executes_op32 {op : AluW} {expr : U64 → U64 → U64} (fetched : Fetched s insn)
    (straight : insn.type.jumps = false) (handler : interpFuncs F insn.type = funcReg expr)
    (agrees : ∀ a b, expr a b = op.eval a b) :
    Executes F s insn.len (.op32 op insn.rd insn.rs1 insn.rs2) := by
  refine executes_value fetched straight (by rw [handler]; rfl) rfl ?_
  rw [agrees, Rv64i.step, State.read_eq fetched.zero, State.read_eq fetched.zero]
  rfl

/-- The loads. -/
theorem executes_load {op : Rv64i.Load} {typ : CInt} (fetched : Fetched s insn)
    (straight : insn.type.jumps = false) (handler : interpFuncs F insn.type = funcLoad typ)
    (agrees : ∀ mem a, typ.load mem a = op.eval mem a) :
    Executes F s insn.len (.load op insn.rd insn.rs1 insn.imm64) := by
  refine executes_value fetched straight (by rw [handler]; rfl) rfl ?_
  rw [agrees, Rv64i.step, State.read_eq fetched.zero]
  rfl

/-- The stores: no register changes, and the bytes of the word do. -/
theorem executes_store {op : Rv64i.Store} {typ : CInt} (fetched : Fetched s insn)
    (straight : insn.type.jumps = false) (handler : interpFuncs F insn.type = funcStore typ)
    (agrees : ∀ mem a value, typ.store mem a value = Rv64i.storeBytes mem a op.bytes value) :
    Executes F s insn.len (.store op insn.rs1 insn.rs2 insn.imm64) := by
  have cont : insn.cont = false := (insnDecode_shape rfl fetched.decoded).cont_eq.trans straight
  have exec : interpFuncs F insn.type s insn =
      .ok (s.write typ (s.gpRegs insn.rs1 + insn.imm64) (s.gpRegs insn.rs2), insn) := by
    rw [handler]
    rfl
  refine ⟨{ s.write typ (s.gpRegs insn.rs1 + insn.imm64) (s.gpRegs insn.rs2) with
    pc := s.pc + insn.len }, ?_, ?_, fetched.zero, rfl⟩
  · rw [execBlockIter_of_clean fetched exec fetched.zero, cont]
    rfl
  · rw [Rv64i.step, State.read_eq fetched.zero, State.read_eq fetched.zero, ← agrees]
    rfl

/-- The conditional branches: `cont` is set when the branch is taken. -/
theorem executes_branch {cond : Cond} {expr : U64 → U64 → Bool} (fetched : Fetched s insn)
    (straight : insn.type.jumps = false) (handler : interpFuncs F insn.type = funcBranch expr)
    (agrees : ∀ a b, expr a b = cond.holds a b) :
    Executes F s insn.len (.branch cond insn.rs1 insn.rs2 insn.imm64) := by
  have cont : insn.cont = false := (insnDecode_shape rfl fetched.decoded).cont_eq.trans straight
  have jumps : Rv64i.jumps s.hart (.branch cond insn.rs1 insn.rs2 insn.imm64) =
      cond.holds (s.gpRegs insn.rs1) (s.gpRegs insn.rs2) := by
    rw [Rv64i.jumps, State.read_eq fetched.zero, State.read_eq fetched.zero]
  by_cases taken : cond.holds (s.gpRegs insn.rs1) (s.gpRegs insn.rs2) = true
  · have exec : interpFuncs F insn.type s insn = .ok ({ s with
        reenterPc := s.pc + insn.imm64, pc := s.pc + insn.imm64, exitReason := .directBranch },
        { insn with cont := true }) := by
      rw [handler, funcBranch, agrees, if_pos taken]
    refine ⟨{ s with reenterPc := s.pc + insn.imm64, pc := s.pc + insn.imm64,
                     exitReason := .directBranch }, ?_, ?_, fetched.zero, rfl⟩
    · rw [execBlockIter_of_clean fetched exec fetched.zero, jumps, taken]
      rfl
    · rw [Rv64i.step, State.read_eq fetched.zero, State.read_eq fetched.zero, if_pos taken, jumps, taken]
      rfl
  · have exec : interpFuncs F insn.type s insn = .ok (s, insn) := by
      rw [handler, funcBranch, agrees, if_neg taken]
    rw [Bool.not_eq_true] at taken
    refine ⟨{ s with pc := s.pc + insn.len }, ?_, ?_, fetched.zero, rfl⟩
    · rw [execBlockIter_of_clean fetched exec fetched.zero, jumps, taken, cont]
      rfl
    · rw [Rv64i.step, State.read_eq fetched.zero, State.read_eq fetched.zero, taken, jumps, taken]
      rfl

/-- `jal`: the return address is written and the block exits to the target. -/
theorem executes_jal (fetched : Fetched s insn) (type : insn.type = .jal) :
    Executes F s insn.len (.jal insn.rd insn.imm64) := by
  have cont : insn.cont = true := by
    rw [(insnDecode_shape rfl fetched.decoded).cont_eq, type]
    rfl
  have exec : interpFuncs F insn.type s insn = .ok
      ({ s.setGp insn.rd (s.pc + insn.len) with
          reenterPc := s.pc + insn.imm64, pc := s.pc + insn.imm64, exitReason := .directBranch },
        insn) := by
    rw [type]
    rfl
  refine ⟨{ s.writeGp insn.rd (s.pc + insn.len) with
      reenterPc := s.pc + insn.imm64, pc := s.pc + insn.imm64, exitReason := .directBranch },
    ?_, ?_, State.writeGp_zero fetched.zero _ _, State.writeGp_fpRegs ..⟩
  · rw [execBlockIter_of_handler fetched exec, cont, ← State.setGp_zero_setGp fetched.zero]
    rfl
  · rw [Rv64i.step, State.after, ← State.hart_writeGp]
    rfl

/-- `jalr`: the target is computed from the register before the return address is written. -/
theorem executes_jalr (fetched : Fetched s insn) (type : insn.type = .jalr) :
    Executes F s insn.len (.jalr insn.rd insn.rs1 insn.imm64) := by
  have cont : insn.cont = true := by
    rw [(insnDecode_shape rfl fetched.decoded).cont_eq, type]
    rfl
  have exec : interpFuncs F insn.type s insn = .ok
      ({ s.setGp insn.rd (s.pc + insn.len) with
          exitReason := .indirectBranch
          reenterPc := (s.gpRegs insn.rs1 + insn.imm64) &&& ~~~1 }, insn) := by
    rw [type]
    rfl
  refine ⟨{ s.writeGp insn.rd (s.pc + insn.len) with
      exitReason := .indirectBranch
      reenterPc := (s.gpRegs insn.rs1 + insn.imm64) &&& ~~~1 },
    ?_, ?_, State.writeGp_zero fetched.zero _ _, State.writeGp_fpRegs ..⟩
  · rw [execBlockIter_of_handler fetched exec, cont, ← State.setGp_zero_setGp fetched.zero]
    rfl
  · rw [Rv64i.step, State.read_eq fetched.zero, State.after, ← State.hart_writeGp]
    rfl

theorem executes_lui (fetched : Fetched s insn) (type : insn.type = .lui) :
    Executes F s insn.len (.lui insn.rd insn.imm64) :=
  executes_value fetched (by rw [type]; rfl) (by rw [type]; rfl) rfl rfl

theorem executes_auipc (fetched : Fetched s insn) (type : insn.type = .auipc) :
    Executes F s insn.len (.auipc insn.rd insn.imm64) :=
  executes_value fetched (by rw [type]; rfl) (by rw [type]; rfl) rfl rfl

end Rounds

/-! ## Loads and stores of C types -/

section Memory

variable (mem : Bytes.Memory) (a value : U64)

theorem load_eval_lb : CInt.i8.load mem a = Rv64i.Load.lb.eval mem a := by
  rw [CInt.load, Rv64i.load_byte, Rv64i.Load.eval]

theorem load_eval_lh : CInt.i16.load mem a = Rv64i.Load.lh.eval mem a := by
  rw [CInt.load, Rv64i.load_half, Rv64i.Load.eval]

theorem load_eval_lw : CInt.i32.load mem a = Rv64i.Load.lw.eval mem a := by
  rw [CInt.load, Rv64i.load_word, Rv64i.Load.eval]

theorem load_eval_ld : CInt.i64.load mem a = Rv64i.Load.ld.eval mem a := by
  rw [CInt.load, Rv64i.load_double, Rv64i.Load.eval]

theorem load_eval_lbu : CInt.u8.load mem a = Rv64i.Load.lbu.eval mem a := by
  rw [CInt.load, Rv64i.load_byte, Rv64i.Load.eval]

theorem load_eval_lhu : CInt.u16.load mem a = Rv64i.Load.lhu.eval mem a := by
  rw [CInt.load, Rv64i.load_half, Rv64i.Load.eval]

theorem load_eval_lwu : CInt.u32.load mem a = Rv64i.Load.lwu.eval mem a := by
  rw [CInt.load, Rv64i.load_word, Rv64i.Load.eval]

theorem store_eval_sb : CInt.u8.store mem a value = Rv64i.storeBytes mem a 1 value :=
  @Rv64i.store_eq_storeBytes mem a 1 (by omega) value

theorem store_eval_sh : CInt.u16.store mem a value = Rv64i.storeBytes mem a 2 value :=
  @Rv64i.store_eq_storeBytes mem a 2 (by omega) value

theorem store_eval_sw : CInt.u32.store mem a value = Rv64i.storeBytes mem a 4 value :=
  @Rv64i.store_eq_storeBytes mem a 4 (by omega) value

theorem store_eval_sd : CInt.u64.store mem a value = Rv64i.storeBytes mem a 8 value := by
  have store := @Rv64i.store_eq_storeBytes mem a 8 le_rfl value
  rwa [BitVec.setWidth_eq] at store

end Memory

/-! ## Every instruction -/

/-- **The interpreter executes RV64I.** -/
theorem execBlockIter_rv64i (F : FloatOps) {s : State} {insn : Insn} {instr : Instr}
    (fetched : Fetched s insn) (base : insn.rv64i = some instr) :
    Executes F s insn.len instr := by
  rw [Insn.rv64i] at base
  cases type : insn.type <;> rw [type] at base <;> cases base
  case lb.refl => exact executes_load fetched (by rw [type]; rfl) (by rw [type]; rfl) load_eval_lb
  case lh.refl => exact executes_load fetched (by rw [type]; rfl) (by rw [type]; rfl) load_eval_lh
  case lw.refl => exact executes_load fetched (by rw [type]; rfl) (by rw [type]; rfl) load_eval_lw
  case ld.refl => exact executes_load fetched (by rw [type]; rfl) (by rw [type]; rfl) load_eval_ld
  case lbu.refl => exact executes_load fetched (by rw [type]; rfl) (by rw [type]; rfl) load_eval_lbu
  case lhu.refl => exact executes_load fetched (by rw [type]; rfl) (by rw [type]; rfl) load_eval_lhu
  case lwu.refl => exact executes_load fetched (by rw [type]; rfl) (by rw [type]; rfl) load_eval_lwu
  case addi.refl => exact executes_opImm fetched (by rw [type]; rfl) (by rw [type]; rfl) fun _ _ => rfl
  case slli.refl => exact executes_opImm fetched (by rw [type]; rfl) (by rw [type]; rfl) sll_eval
  case slti.refl => exact executes_opImm fetched (by rw [type]; rfl) (by rw [type]; rfl) slt_eval
  case sltiu.refl => exact executes_opImm fetched (by rw [type]; rfl) (by rw [type]; rfl) sltu_eval
  case xori.refl => exact executes_opImm fetched (by rw [type]; rfl) (by rw [type]; rfl) fun _ _ => rfl
  case srli.refl => exact executes_opImm fetched (by rw [type]; rfl) (by rw [type]; rfl) srl_eval
  case srai.refl => exact executes_opImm fetched (by rw [type]; rfl) (by rw [type]; rfl) sra_eval
  case ori.refl => exact executes_opImm fetched (by rw [type]; rfl) (by rw [type]; rfl) fun _ _ => rfl
  case andi.refl => exact executes_opImm fetched (by rw [type]; rfl) (by rw [type]; rfl) fun _ _ => rfl
  case auipc.refl => exact executes_auipc fetched type
  case addiw.refl => exact executes_opImm32 fetched (by rw [type]; rfl) (by rw [type]; rfl) addw_eval
  case slliw.refl => exact executes_opImm32 fetched (by rw [type]; rfl) (by rw [type]; rfl) sllw_eval
  case srliw.refl => exact executes_opImm32 fetched (by rw [type]; rfl) (by rw [type]; rfl) srlw_eval
  case sraiw.refl => exact executes_opImm32 fetched (by rw [type]; rfl) (by rw [type]; rfl) sraw_eval
  case sb.refl => exact executes_store fetched (by rw [type]; rfl) (by rw [type]; rfl) store_eval_sb
  case sh.refl => exact executes_store fetched (by rw [type]; rfl) (by rw [type]; rfl) store_eval_sh
  case sw.refl => exact executes_store fetched (by rw [type]; rfl) (by rw [type]; rfl) store_eval_sw
  case sd.refl => exact executes_store fetched (by rw [type]; rfl) (by rw [type]; rfl) store_eval_sd
  case add.refl => exact executes_op fetched (by rw [type]; rfl) (by rw [type]; rfl) fun _ _ => rfl
  case sll.refl => exact executes_op fetched (by rw [type]; rfl) (by rw [type]; rfl) sll_eval
  case slt.refl => exact executes_op fetched (by rw [type]; rfl) (by rw [type]; rfl) slt_eval
  case sltu.refl => exact executes_op fetched (by rw [type]; rfl) (by rw [type]; rfl) sltu_eval
  case xor.refl => exact executes_op fetched (by rw [type]; rfl) (by rw [type]; rfl) fun _ _ => rfl
  case srl.refl => exact executes_op fetched (by rw [type]; rfl) (by rw [type]; rfl) srl_eval
  case or.refl => exact executes_op fetched (by rw [type]; rfl) (by rw [type]; rfl) fun _ _ => rfl
  case and.refl => exact executes_op fetched (by rw [type]; rfl) (by rw [type]; rfl) fun _ _ => rfl
  case sub.refl => exact executes_op fetched (by rw [type]; rfl) (by rw [type]; rfl) fun _ _ => rfl
  case sra.refl => exact executes_op fetched (by rw [type]; rfl) (by rw [type]; rfl) sra_eval
  case lui.refl => exact executes_lui fetched type
  case addw.refl => exact executes_op32 fetched (by rw [type]; rfl) (by rw [type]; rfl) addw_eval
  case sllw.refl => exact executes_op32 fetched (by rw [type]; rfl) (by rw [type]; rfl) sllw_eval
  case srlw.refl => exact executes_op32 fetched (by rw [type]; rfl) (by rw [type]; rfl) srlw_eval
  case subw.refl => exact executes_op32 fetched (by rw [type]; rfl) (by rw [type]; rfl) subw_eval
  case sraw.refl => exact executes_op32 fetched (by rw [type]; rfl) (by rw [type]; rfl) sraw_eval'
  case beq.refl => exact executes_branch fetched (by rw [type]; rfl) (by rw [type]; rfl) holds_beq
  case bne.refl => exact executes_branch fetched (by rw [type]; rfl) (by rw [type]; rfl) holds_bne
  case blt.refl => exact executes_branch fetched (by rw [type]; rfl) (by rw [type]; rfl) holds_blt
  case bge.refl => exact executes_branch fetched (by rw [type]; rfl) (by rw [type]; rfl) holds_bge
  case bltu.refl => exact executes_branch fetched (by rw [type]; rfl) (by rw [type]; rfl) holds_bltu
  case bgeu.refl => exact executes_branch fetched (by rw [type]; rfl) (by rw [type]; rfl) holds_bgeu
  case jalr.refl => exact executes_jalr fetched type
  case jal.refl => exact executes_jal fetched type

/-- `addi x1, x0, 5` at address `0x1000`. -/
def addiState : State where
  exitReason := .none
  reenterPc := 0
  gpRegs _ := 0
  fpRegs _ := 0
  pc := 0x1000
  mem := Bytes.copy (fun _ => 0) 0x1000 [0x93, 0x00, 0x50, 0x00]

theorem execBlockIter_rv64i_addi :
    Executes default addiState 4 (.opImm .add 1 0 5) := by
  have decoded : insnDecode {} addiState.fetch = .ok { rd := 1, rs1 := 0, imm := 5, type := .addi } :=
    rfl
  exact execBlockIter_rv64i default ⟨by decide, rfl, decoded⟩ rfl

end RiscvEmu
