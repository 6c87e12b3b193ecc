import RiscvEmu.CLang
import RiscvEmu.WorkStructures

/-!
# The generators

`codegen.c` up to `machine_genblock`: the tracer, one generator for each kind of
instruction, and their table.

A generator appends lines to the body, notes the registers it uses in the
tracer, and may push a target on the stack and set `cont` in the instruction.
`Emission` holds what it adds; nothing a generator prints depends on what was
there before. The macros of the source are the definitions `regGet` to
`memStore`, and each `FUNC` macro is a definition with the varying part as a
parameter.
-/

set_option autoImplicit false

namespace RiscvEmu

/-! ## The tracer -/

/-- `tracer_t`: the registers that the block uses. -/
structure Tracer where
  gpReg : Reg → Bool
  fpReg : Reg → Bool

namespace Tracer

/-- `tracer_reset`. -/
def reset : Tracer := ⟨fun _ => false, fun _ => false⟩

/-- `tracer_add_gp_reg_usage` and `tracer_add_fp_reg_usage`. -/
def addUsage (t : Tracer) (gp fp : List Reg) : Tracer where
  gpReg reg := t.gpReg reg || decide (reg ∈ gp)
  fpReg reg := t.fpReg reg || decide (reg ∈ fp)

/-- The register numbers in the order of the loops. -/
def regs : List Reg := (List.range 32).map (BitVec.ofNat 5)

/-- The general registers that the loops over `i = 1 ..` find in use. -/
def gpUsed (t : Tracer) : List Reg := regs.filter fun reg => reg ≠ 0 && t.gpReg reg

/-- The floating-point registers that the loops over `i = 0 ..` find in use. -/
def fpUsed (t : Tracer) : List Reg := regs.filter t.fpReg

/-- `tracer_append_prologue`. -/
def prologue (t : Tracer) : List Line := t.gpUsed.map .loadGp ++ t.fpUsed.map .loadFp

/-- `tracer_append_epilogue`. -/
def epilogue (t : Tracer) : List Line := t.gpUsed.map .saveGp ++ t.fpUsed.map .saveFp

end Tracer

/-! ## Emissions -/

/-- What a generator adds. -/
structure Emission where
  lines : List Line
  /-- The arguments of `tracer_add_gp_reg_usage`. -/
  gp : List Reg := []
  /-- The arguments of `tracer_add_fp_reg_usage`. -/
  fp : List Reg := []
  /-- The argument of `stack_push`. -/
  target : Option U64 := none
  /-- `insn->cont = true`. -/
  cont : Bool := false
  deriving DecidableEq

/-- `func_t`: the generator of an instruction at a pc. -/
abbrev Generator := Insn → U64 → Except Abort Emission

namespace Codegen

open Local CExpr

/-! ## What the macros print -/

/-- `REG_GET`. -/
def regGet (reg : Reg) (name : Local) : List Line :=
  if reg = 0 then [.declZero name] else [.declGp name reg]

/-- `REG_SET_EXPR`. -/
def regSetExpr (reg : Reg) (value : CExpr) : List Line :=
  if reg ≠ 0 then [.setGp reg value] else []

/-- `REG_SET_VAL`. -/
def regSetVal (reg : Reg) (value : U64) : List Line := regSetExpr reg (.lit .i64 value)

/-- `FREG_GET`. -/
def fregGet (reg : Reg) (name : Local) (type : CType) (field : FpField) : List Line :=
  [.declFp type name reg field]

/-- `FREG_SET_EXPR`. -/
def fregSetExpr (reg : Reg) (value : CExpr) (field : FpField) : List Line :=
  [.setFp reg field value]

/-- `MEM_LOAD`. -/
def memLoad (addr : CExpr) (type : CInt) (name : Local) : List Line := [.declLoad type name addr]

/-- `MEM_STORE`. -/
def memStore (addr : CExpr) (type : CInt) (data : Local) : List Line := [.store type addr data]

/-- `%ldLL` of `(i64)insn->imm`. -/
def immLL (insn : Insn) : CExpr := .lit .i64 insn.imm64

/-- `%luULL` of `(i64)insn->imm`. -/
def immULL (insn : Insn) : CExpr := .lit .u64 insn.imm64

/-- `%d` of `insn->imm & mask`. -/
def immAnd (insn : Insn) (mask : U32) : CExpr := .lit .i32 ((insn.imm &&& mask).signExtend 64)

/-- `rs1 + (int64_t)%ldLL`. -/
def immAddr (insn : Insn) : CExpr := var rs1 + (immLL insn).as .i64

/-! ## Loads -/

def funcEmpty : Generator := fun _ _ => .ok { lines := [] }

/-- `FUNC(typ)` of the loads. -/
def funcLoad (typ : CInt) : Generator := fun insn _ => .ok {
  lines := regGet insn.rs1 rs1 ++ memLoad (immAddr insn) typ rd ++ regSetExpr insn.rd (var rd)
  gp := [insn.rs1, insn.rd] }

def funcLb : Generator := funcLoad .i8
def funcLh : Generator := funcLoad .i16
def funcLw : Generator := funcLoad .i32
def funcLd : Generator := funcLoad .i64
def funcLbu : Generator := funcLoad .u8
def funcLhu : Generator := funcLoad .u16
def funcLwu : Generator := funcLoad .u32

/-! ## Register-immediate operations -/

/-- `FUNC(stmt)` of the register-immediate operations; `expr` is what the statement prints. -/
def funcImm (expr : Insn → CExpr) : Generator := fun insn _ => .ok {
  lines := regGet insn.rs1 rs1 ++ regSetExpr insn.rd (expr insn)
  gp := [insn.rs1, insn.rd] }

def funcAddi : Generator := funcImm fun insn => var rs1 + (immLL insn).as .i64
def funcSlli : Generator := funcImm fun insn => var rs1 <<< immAnd insn 0x3f
def funcSlti : Generator := funcImm fun insn =>
  cond (bin .lt ((var rs1).as .i64) ((immLL insn).as .i64)) 1 0
def funcSltiu : Generator := funcImm fun insn => cond (bin .lt (var rs1) (immULL insn)) 1 0
def funcXori : Generator := funcImm fun insn => var rs1 ^^^ immLL insn
def funcSrli : Generator := funcImm fun insn => var rs1 >>> immAnd insn 0x3f
def funcSrai : Generator := funcImm fun insn => (var rs1).as .i64 >>> immAnd insn 0x3f
def funcOri : Generator := funcImm fun insn => var rs1 ||| immULL insn
def funcAndi : Generator := funcImm fun insn => var rs1 &&& immULL insn
def funcAddiw : Generator := funcImm fun insn =>
  ((var rs1 + (immLL insn).as .i64).as .i32).as .i64
def funcSlliw : Generator := funcImm fun insn =>
  ((var rs1 <<< immAnd insn 0x1f).as .i32).as .i64
def funcSrliw : Generator := funcImm fun insn =>
  (((var rs1).as .u32 >>> immAnd insn 0x1f).as .i32).as .i64
def funcSraiw : Generator := funcImm fun insn =>
  ((var rs1).as .i32 >>> immAnd insn 0x1f).as .i64

def funcAuipc : Generator := fun insn pc => .ok {
  lines := regSetVal insn.rd (pc + insn.imm64)
  gp := [insn.rd] }

/-! ## Stores -/

/-- `FUNC(typ)` of the stores. -/
def funcStore (typ : CInt) : Generator := fun insn _ => .ok {
  lines := regGet insn.rs1 rs1 ++ regGet insn.rs2 rs2 ++ memStore (immAddr insn) typ rs2
  gp := [insn.rs1, insn.rs2] }

def funcSb : Generator := funcStore .u8
def funcSh : Generator := funcStore .u16
def funcSw : Generator := funcStore .u32
def funcSd : Generator := funcStore .u64

/-! ## Register-register operations -/

/-- `FUNC(expr)` of the register-register operations. -/
def funcReg (expr : CExpr) : Generator := fun insn _ => .ok {
  lines := regGet insn.rs1 rs1 ++ regGet insn.rs2 rs2 ++ regSetExpr insn.rd expr
  gp := [insn.rs1, insn.rs2, insn.rd] }

def funcAdd : Generator := funcReg (var rs1 + var rs2)
def funcSll : Generator := funcReg (var rs1 <<< (var rs2 &&& 0x3f))
def funcSlt : Generator := funcReg (cond (bin .lt ((var rs1).as .i64) ((var rs2).as .i64)) 1 0)
def funcSltu : Generator := funcReg (cond (bin .lt ((var rs1).as .u64) ((var rs2).as .u64)) 1 0)
def funcXor : Generator := funcReg (var rs1 ^^^ var rs2)
def funcSrl : Generator := funcReg (var rs1 >>> (var rs2 &&& 0x3f))
def funcOr : Generator := funcReg (var rs1 ||| var rs2)
def funcAnd : Generator := funcReg (var rs1 &&& var rs2)
def funcMul : Generator := funcReg (var rs1 * var rs2)
def funcSub : Generator := funcReg (var rs1 - var rs2)
def funcSra : Generator := funcReg ((var rs1).as .i64 >>> (var rs2 &&& 0x3f))
def funcRemu : Generator := funcReg (cond (bin .eq (var rs2) 0) (var rs1) (var rs1 % var rs2))
def funcAddw : Generator := funcReg (((var rs1 + var rs2).as .i32).as .i64)
def funcSllw : Generator := funcReg (((var rs1 <<< (var rs2 &&& 0x1f)).as .i32).as .i64)
def funcSrlw : Generator := funcReg ((((var rs1).as .u32 >>> (var rs2 &&& 0x1f)).as .i32).as .i64)
def funcMulw : Generator := funcReg (((var rs1 * var rs2).as .i32).as .i64)
def funcDivw : Generator := funcReg (cond (bin .eq (var rs2) 0) uint64Max
  ((((var rs1).as .i32).as .i64 / ((var rs2).as .i32).as .i64).as .i32))
def funcDivuw : Generator := funcReg (cond (bin .eq (var rs2) 0) uint64Max
  (((var rs1).as .u32 / (var rs2).as .u32).as .i32))
def funcRemw : Generator := funcReg (cond (bin .eq (var rs2) 0) (((var rs1).as .i32).as .i64)
  (((((var rs1).as .i32).as .i64 % ((var rs2).as .i32).as .i64).as .i32).as .i64))
def funcRemuw : Generator := funcReg (cond (bin .eq (var rs2) 0)
  ((((var rs1).as .u32).as .i32).as .i64)
  ((((var rs1).as .u32 % (var rs2).as .u32).as .i32).as .i64))
def funcSubw : Generator := funcReg (((var rs1 - var rs2).as .i32).as .i64)
def funcSraw : Generator := funcReg ((((var rs1).as .i32 >>> (var rs2 &&& 0x1f)).as .i32).as .i64)

/-- `FUNC(stmt)` of the divisions: an `if` chain computes `rd`. -/
def funcChoose (arms : List (CExpr × CExpr)) (other : CExpr) : Generator := fun insn _ => .ok {
  lines := regGet insn.rs1 rs1 ++ regGet insn.rs2 rs2 ++
    [.declZero rd, .choose rd arms other] ++ regSetExpr insn.rd (var rd)
  gp := [insn.rs1, insn.rs2, insn.rd] }

/-- `rs1 == INT64_MIN && rs2 == UINT64_MAX`. -/
def overflows : CExpr := bin .land (bin .eq (var rs1) int64Min) (bin .eq (var rs2) uint64Max)

def funcDiv : Generator := funcChoose
  [(bin .eq (var rs2) 0, uint64Max), (overflows, int64Min)]
  ((var rs1).as .i64 / (var rs2).as .i64)
def funcDivu : Generator := funcChoose [(bin .eq (var rs2) 0, uint64Max)] (var rs1 / var rs2)
def funcRem : Generator := funcChoose
  [(bin .eq (var rs2) 0, var rs1), (overflows, 0)]
  ((var rs1).as .i64 % (var rs2).as .i64)

def funcLui : Generator := fun insn _ => .ok {
  lines := regSetVal insn.rd insn.imm64
  gp := [insn.rd] }

/-! ## Control transfer -/

/-- `FUNC(typ, op)` of the conditional branches. -/
def funcBranch (typ : CInt) (op : BinOp) : Generator := fun insn pc =>
  let targetAddr := pc + insn.imm64
  .ok {
    lines := regGet insn.rs1 rs1 ++ regGet insn.rs2 rs2 ++
      [.ifGoto (bin op ((var rs1).as typ) ((var rs2).as typ)) targetAddr]
    gp := [insn.rs1, insn.rs2]
    target := some targetAddr }

def funcBeq : Generator := funcBranch .u64 .eq
def funcBne : Generator := funcBranch .u64 .ne
def funcBlt : Generator := funcBranch .i64 .lt
def funcBge : Generator := funcBranch .i64 .ge
def funcBltu : Generator := funcBranch .u64 .lt
def funcBgeu : Generator := funcBranch .u64 .ge

/-- `(rs1 + (int64_t)%ldLL) & ~(uint64_t)1`. -/
def jalrTarget (insn : Insn) : CExpr := immAddr insn &&& ~~~((1 : CExpr).as .u64)

def funcJalr : Generator := fun insn pc =>
  let returnAddr := pc + insn.len
  .ok {
    lines := regGet insn.rs1 rs1 ++ regSetVal insn.rd returnAddr ++
      [.setExit .indirectBranch, .setReenter (jalrTarget insn), .goto .finish, .close]
    gp := [insn.rs1, insn.rd] }

def funcJal : Generator := fun insn pc =>
  let returnAddr := pc + insn.len
  let targetAddr := pc + insn.imm64
  .ok {
    lines := regSetVal insn.rd returnAddr ++ [.goto (.insn targetAddr), .close]
    gp := [insn.rd]
    target := some targetAddr }

def funcEcall : Generator := fun _ pc => .ok {
  lines := [.setExit .ecall, .setReenter (.lit .u64 (pc + 4)), .goto .finish, .close] }

/-! ## Control and status registers -/

/-- `FUNC()` of the CSR instructions. -/
def funcCsr : Generator := fun insn _ =>
  if csrSupported insn.csr then
    .ok { lines := regSetExpr insn.rd 0, gp := if insn.rd ≠ 0 then [insn.rd] else [] }
  else .error (.fatal "unsupported csr")

def funcCsrrw : Generator := funcCsr
def funcCsrrs : Generator := funcCsr
def funcCsrrc : Generator := funcCsr
def funcCsrrwi : Generator := funcCsr
def funcCsrrsi : Generator := funcCsr
def funcCsrrci : Generator := funcCsr

/-! ## Floating-point loads and stores -/

/-- `FUNC(typ, expr)` of the floating-point loads. -/
def funcFload (typ : CInt) (expr : CExpr) : Generator := fun insn _ => .ok {
  lines := regGet insn.rs1 rs1 ++ memLoad (immAddr insn) typ rd ++ fregSetExpr insn.rd expr .v
  gp := [insn.rs1]
  fp := [insn.rd] }

def funcFlw : Generator := funcFload .u32 (var rd ||| ((-1 : CExpr).as .u64 <<< (32 : CExpr)))
def funcFld : Generator := funcFload .u64 (var rd)

/-- `FUNC(typ)` of the floating-point stores. -/
def funcFstore (typ : CInt) : Generator := fun insn _ => .ok {
  lines := regGet insn.rs1 rs1 ++ fregGet insn.rs2 rs2 (.int .u64) .v ++
    memStore (immAddr insn) typ rs2
  gp := [insn.rs1]
  fp := [insn.rs2] }

def funcFsw : Generator := funcFstore .u32
def funcFsd : Generator := funcFstore .u64

/-! ## Floating-point arithmetic -/

/-- `FUNC(expr)` of the fused operations, on `float` and on `double`. -/
def funcFused (type : CType) (field : FpField) (expr : CExpr) : Generator := fun insn _ => .ok {
  lines := fregGet insn.rs1 rs1 type field ++ fregGet insn.rs2 rs2 type field ++
    fregGet insn.rs3 rs3 type field ++ fregSetExpr insn.rd expr field
  fp := [insn.rs1, insn.rs2, insn.rs3, insn.rd] }

def funcFmaddS : Generator := funcFused .float .f (var rs1 * var rs2 + var rs3)
def funcFmsubS : Generator := funcFused .float .f (var rs1 * var rs2 - var rs3)
def funcFnmsubS : Generator := funcFused .float .f (-(var rs1 * var rs2) + var rs3)
def funcFnmaddS : Generator := funcFused .float .f (-(var rs1 * var rs2) - var rs3)
def funcFmaddD : Generator := funcFused .double .d (var rs1 * var rs2 + var rs3)
def funcFmsubD : Generator := funcFused .double .d (var rs1 * var rs2 - var rs3)
def funcFnmsubD : Generator := funcFused .double .d (-(var rs1 * var rs2) + var rs3)
def funcFnmaddD : Generator := funcFused .double .d (-(var rs1 * var rs2) - var rs3)

/-- `FUNC(expr)` of the operations with two operands, on `float` and on `double`. -/
def funcArith (type : CType) (field : FpField) (expr : CExpr) : Generator := fun insn _ => .ok {
  lines := fregGet insn.rs1 rs1 type field ++ fregGet insn.rs2 rs2 type field ++
    fregSetExpr insn.rd expr field
  fp := [insn.rs1, insn.rs2, insn.rd] }

def funcFaddS : Generator := funcArith .float .f (var rs1 + var rs2)
def funcFsubS : Generator := funcArith .float .f (var rs1 - var rs2)
def funcFmulS : Generator := funcArith .float .f (var rs1 * var rs2)
def funcFdivS : Generator := funcArith .float .f (var rs1 / var rs2)
def funcFminS : Generator := funcArith .float .f
  (cond (bin .lt (var rs1) (var rs2)) (var rs1) (var rs2))
def funcFmaxS : Generator := funcArith .float .f
  (cond (bin .gt (var rs1) (var rs2)) (var rs1) (var rs2))
def funcFaddD : Generator := funcArith .double .d (var rs1 + var rs2)
def funcFsubD : Generator := funcArith .double .d (var rs1 - var rs2)
def funcFmulD : Generator := funcArith .double .d (var rs1 * var rs2)
def funcFdivD : Generator := funcArith .double .d (var rs1 / var rs2)
def funcFminD : Generator := funcArith .double .d
  (cond (bin .lt (var rs1) (var rs2)) (var rs1) (var rs2))
def funcFmaxD : Generator := funcArith .double .d
  (cond (bin .gt (var rs1) (var rs2)) (var rs1) (var rs2))

/-! ## Conversions, moves and comparisons -/

/-- A generator that assigns an expression of `x[rs1]` to a member of `f[rd]`. -/
def funcFpOfGp (expr : CExpr) (field : FpField) : Generator := fun insn _ => .ok {
  lines := regGet insn.rs1 rs1 ++ fregSetExpr insn.rd expr field
  gp := [insn.rs1]
  fp := [insn.rd] }

def funcFcvtSW : Generator := funcFpOfGp (cast .float ((var rs1).as .i32)) .f
def funcFcvtSWu : Generator := funcFpOfGp (cast .float ((var rs1).as .u32)) .f
def funcFcvtDW : Generator := funcFpOfGp (cast .double ((var rs1).as .i32)) .d
def funcFcvtDWu : Generator := funcFpOfGp (cast .double ((var rs1).as .u32)) .d
def funcFmvWX : Generator := funcFpOfGp ((var rs1).as .u32) .w
def funcFmvDX : Generator := funcFpOfGp (var rs1) .v
def funcFcvtSL : Generator := funcFpOfGp (cast .float ((var rs1).as .i64)) .f
def funcFcvtSLu : Generator := funcFpOfGp (cast .float ((var rs1).as .u64)) .f
def funcFcvtDL : Generator := funcFpOfGp (cast .double ((var rs1).as .i64)) .d
def funcFcvtDLu : Generator := funcFpOfGp (cast .double ((var rs1).as .u64)) .d

/-- A generator that moves an expression of a member of `f[rs1]` to `x[rd]`. -/
def funcGpOfFp (type : CInt) (field : FpField) (expr : CExpr) : Generator := fun insn _ => .ok {
  lines := fregGet insn.rs1 rs1 (.int type) field ++ regSetExpr insn.rd expr
  gp := [insn.rd]
  fp := [insn.rs1] }

def funcFmvXW : Generator := funcGpOfFp .u32 .w (((var rs1).as .i32).as .i64)
def funcFmvXD : Generator := funcGpOfFp .u64 .v (var rs1)

/-- `FUNC(expr)` of the comparisons, on `float` and on `double`. -/
def funcCompare (type : CType) (field : FpField) (op : BinOp) : Generator := fun insn _ => .ok {
  lines := fregGet insn.rs1 rs1 type field ++ fregGet insn.rs2 rs2 type field ++
    regSetExpr insn.rd (bin op (var rs1) (var rs2))
  gp := [insn.rd]
  fp := [insn.rs1, insn.rs2] }

def funcFeqS : Generator := funcCompare .float .f .eq
def funcFltS : Generator := funcCompare .float .f .lt
def funcFleS : Generator := funcCompare .float .f .le
def funcFeqD : Generator := funcCompare .double .d .eq
def funcFltD : Generator := funcCompare .double .d .lt
def funcFleD : Generator := funcCompare .double .d .le

/-- A generator that converts a member of `f[rs1]` and assigns it to a member of `f[rd]`. -/
def funcFpOfFp (type : CType) (field : FpField) (expr : CExpr) (result : FpField) : Generator :=
  fun insn _ => .ok {
    lines := fregGet insn.rs1 rs1 type field ++ fregSetExpr insn.rd expr result
    fp := [insn.rs1, insn.rd] }

def funcFcvtSD : Generator := funcFpOfFp .double .d (cast .float (var rs1)) .f
def funcFcvtDS : Generator := funcFpOfFp .float .f (cast .double (var rs1)) .d

/-! ## Instructions that are left to the interpreter -/

/-- `FUNC()` of the instructions that are not compiled. -/
def funcInterp : Generator := fun _ pc => .ok {
  lines := [.setExit .interp, .setReenter (.lit .u64 pc), .goto .finish, .close]
  cont := true }

def funcMulh : Generator := funcInterp
def funcMulhsu : Generator := funcInterp
def funcMulhu : Generator := funcInterp
def funcFsqrtS : Generator := funcInterp
def funcFcvtWS : Generator := funcInterp
def funcFcvtWuS : Generator := funcInterp
def funcFcvtWD : Generator := funcInterp
def funcFcvtWuD : Generator := funcInterp
def funcFclassS : Generator := funcInterp
def funcFclassD : Generator := funcInterp
def funcFcvtLS : Generator := funcInterp
def funcFcvtLuS : Generator := funcInterp
def funcFcvtLD : Generator := funcInterp
def funcFcvtLuD : Generator := funcInterp
def funcFsgnjS : Generator := funcInterp
def funcFsgnjnS : Generator := funcInterp
def funcFsgnjxS : Generator := funcInterp
def funcFsgnjD : Generator := funcInterp
def funcFsgnjnD : Generator := funcInterp
def funcFsgnjxD : Generator := funcInterp
def funcFsqrtD : Generator := funcInterp

end Codegen

/-! ## Dispatch -/

/-- `funcs[type]` of the generator. The slots of the CSR instructions are in another
order than the enumeration. -/
def codegenFuncs : InsnType → Generator
  | .lb => Codegen.funcLb
  | .lh => Codegen.funcLh
  | .lw => Codegen.funcLw
  | .ld => Codegen.funcLd
  | .lbu => Codegen.funcLbu
  | .lhu => Codegen.funcLhu
  | .lwu => Codegen.funcLwu
  | .fence => Codegen.funcEmpty
  | .fenceI => Codegen.funcEmpty
  | .addi => Codegen.funcAddi
  | .slli => Codegen.funcSlli
  | .slti => Codegen.funcSlti
  | .sltiu => Codegen.funcSltiu
  | .xori => Codegen.funcXori
  | .srli => Codegen.funcSrli
  | .srai => Codegen.funcSrai
  | .ori => Codegen.funcOri
  | .andi => Codegen.funcAndi
  | .auipc => Codegen.funcAuipc
  | .addiw => Codegen.funcAddiw
  | .slliw => Codegen.funcSlliw
  | .srliw => Codegen.funcSrliw
  | .sraiw => Codegen.funcSraiw
  | .sb => Codegen.funcSb
  | .sh => Codegen.funcSh
  | .sw => Codegen.funcSw
  | .sd => Codegen.funcSd
  | .add => Codegen.funcAdd
  | .sll => Codegen.funcSll
  | .slt => Codegen.funcSlt
  | .sltu => Codegen.funcSltu
  | .xor => Codegen.funcXor
  | .srl => Codegen.funcSrl
  | .or => Codegen.funcOr
  | .and => Codegen.funcAnd
  | .mul => Codegen.funcMul
  | .mulh => Codegen.funcMulh
  | .mulhsu => Codegen.funcMulhsu
  | .mulhu => Codegen.funcMulhu
  | .div => Codegen.funcDiv
  | .divu => Codegen.funcDivu
  | .rem => Codegen.funcRem
  | .remu => Codegen.funcRemu
  | .sub => Codegen.funcSub
  | .sra => Codegen.funcSra
  | .lui => Codegen.funcLui
  | .addw => Codegen.funcAddw
  | .sllw => Codegen.funcSllw
  | .srlw => Codegen.funcSrlw
  | .mulw => Codegen.funcMulw
  | .divw => Codegen.funcDivw
  | .divuw => Codegen.funcDivuw
  | .remw => Codegen.funcRemw
  | .remuw => Codegen.funcRemuw
  | .subw => Codegen.funcSubw
  | .sraw => Codegen.funcSraw
  | .beq => Codegen.funcBeq
  | .bne => Codegen.funcBne
  | .blt => Codegen.funcBlt
  | .bge => Codegen.funcBge
  | .bltu => Codegen.funcBltu
  | .bgeu => Codegen.funcBgeu
  | .jalr => Codegen.funcJalr
  | .jal => Codegen.funcJal
  | .ecall => Codegen.funcEcall
  | .csrrc => Codegen.funcCsrrw
  | .csrrci => Codegen.funcCsrrs
  | .csrrs => Codegen.funcCsrrc
  | .csrrsi => Codegen.funcCsrrwi
  | .csrrw => Codegen.funcCsrrsi
  | .csrrwi => Codegen.funcCsrrci
  | .flw => Codegen.funcFlw
  | .fsw => Codegen.funcFsw
  | .fmaddS => Codegen.funcFmaddS
  | .fmsubS => Codegen.funcFmsubS
  | .fnmsubS => Codegen.funcFnmsubS
  | .fnmaddS => Codegen.funcFnmaddS
  | .faddS => Codegen.funcFaddS
  | .fsubS => Codegen.funcFsubS
  | .fmulS => Codegen.funcFmulS
  | .fdivS => Codegen.funcFdivS
  | .fsqrtS => Codegen.funcFsqrtS
  | .fsgnjS => Codegen.funcFsgnjS
  | .fsgnjnS => Codegen.funcFsgnjnS
  | .fsgnjxS => Codegen.funcFsgnjxS
  | .fminS => Codegen.funcFminS
  | .fmaxS => Codegen.funcFmaxS
  | .fcvtWS => Codegen.funcFcvtWS
  | .fcvtWuS => Codegen.funcFcvtWuS
  | .fmvXW => Codegen.funcFmvXW
  | .feqS => Codegen.funcFeqS
  | .fltS => Codegen.funcFltS
  | .fleS => Codegen.funcFleS
  | .fclassS => Codegen.funcFclassS
  | .fcvtSW => Codegen.funcFcvtSW
  | .fcvtSWu => Codegen.funcFcvtSWu
  | .fmvWX => Codegen.funcFmvWX
  | .fcvtLS => Codegen.funcFcvtLS
  | .fcvtLuS => Codegen.funcFcvtLuS
  | .fcvtSL => Codegen.funcFcvtSL
  | .fcvtSLu => Codegen.funcFcvtSLu
  | .fld => Codegen.funcFld
  | .fsd => Codegen.funcFsd
  | .fmaddD => Codegen.funcFmaddD
  | .fmsubD => Codegen.funcFmsubD
  | .fnmsubD => Codegen.funcFnmsubD
  | .fnmaddD => Codegen.funcFnmaddD
  | .faddD => Codegen.funcFaddD
  | .fsubD => Codegen.funcFsubD
  | .fmulD => Codegen.funcFmulD
  | .fdivD => Codegen.funcFdivD
  | .fsqrtD => Codegen.funcFsqrtD
  | .fsgnjD => Codegen.funcFsgnjD
  | .fsgnjnD => Codegen.funcFsgnjnD
  | .fsgnjxD => Codegen.funcFsgnjxD
  | .fminD => Codegen.funcFminD
  | .fmaxD => Codegen.funcFmaxD
  | .fcvtSD => Codegen.funcFcvtSD
  | .fcvtDS => Codegen.funcFcvtDS
  | .feqD => Codegen.funcFeqD
  | .fltD => Codegen.funcFltD
  | .fleD => Codegen.funcFleD
  | .fclassD => Codegen.funcFclassD
  | .fcvtWD => Codegen.funcFcvtWD
  | .fcvtWuD => Codegen.funcFcvtWuD
  | .fcvtDW => Codegen.funcFcvtDW
  | .fcvtDWu => Codegen.funcFcvtDWu
  | .fcvtLD => Codegen.funcFcvtLD
  | .fcvtLuD => Codegen.funcFcvtLuD
  | .fmvXD => Codegen.funcFmvXD
  | .fcvtDL => Codegen.funcFcvtDL
  | .fcvtDLu => Codegen.funcFcvtDLu
  | .fmvDX => Codegen.funcFmvDX

end RiscvEmu
