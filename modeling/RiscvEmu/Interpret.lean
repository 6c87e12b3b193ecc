import RiscvEmu.DecodeFacts
import RiscvEmu.InterpretUtils
import RiscvEmu.Foundation.Iteration

/-!
# The interpreter

The handlers of `interpret.c`, their dispatch table, and `exec_block_interp`.
A handler takes the state and the decoded instruction and returns both: the
branch handlers set `cont` in the instruction. The `FUNC` macro of each group
is a definition with the varying part as a parameter, and every handler is that
definition at its own expression.

`execBlockIter` is one round of the loop of `exec_block_interp`, and
`ExecBlockInterp` says that the loop returns.
-/

set_option autoImplicit false

namespace RiscvEmu

/-- `func_t`. -/
abbrev Handler := State → Insn → Except Abort (State × Insn)

/-- The value of a C comparison. -/
def cbool (b : Bool) : U64 := if b then 1 else 0

/-- `x / y` on the host: it traps on a zero divisor and on an overflow. -/
def hostSdiv (x y : U64) : Except Abort U64 :=
  if y = 0 ∨ (x = BitVec.intMin 64 ∧ y = -1) then .error .trap else .ok (x.sdiv y)

/-- `x % y` on the host. -/
def hostSrem (x y : U64) : Except Abort U64 :=
  if y = 0 ∨ (x = BitVec.intMin 64 ∧ y = -1) then .error .trap else .ok (x.srem y)

/-- `x / y` on unsigned operands. -/
def hostUdiv (x y : U64) : Except Abort U64 := if y = 0 then .error .trap else .ok (x / y)

/-- `x % y` on unsigned operands. -/
def hostUrem (x y : U64) : Except Abort U64 := if y = 0 then .error .trap else .ok (x % y)

/-! ## Loads -/

/-- `FUNC(typ)` of the loads. -/
def funcLoad (typ : CInt) : Handler := fun s insn =>
  let addr := s.gpRegs insn.rs1 + insn.imm64
  .ok (s.setGp insn.rd (typ.load s.mem addr), insn)

def funcLb : Handler := funcLoad .i8
def funcLh : Handler := funcLoad .i16
def funcLw : Handler := funcLoad .i32
def funcLd : Handler := funcLoad .i64
def funcLbu : Handler := funcLoad .u8
def funcLhu : Handler := funcLoad .u16
def funcLwu : Handler := funcLoad .u32

/-! ## Register-immediate operations -/

/-- `FUNC(expr)` of the register-immediate operations. -/
def funcImm (expr : U64 → U64 → U64) : Handler := fun s insn =>
  .ok (s.setGp insn.rd (expr (s.gpRegs insn.rs1) insn.imm64), insn)

def funcAddi : Handler := funcImm fun rs1 imm => rs1 + imm
def funcSlli : Handler := funcImm fun rs1 imm => rs1 <<< (imm &&& 0x3f)
def funcSlti : Handler := funcImm fun rs1 imm => cbool (rs1.slt imm)
def funcSltiu : Handler := funcImm fun rs1 imm => cbool (rs1.ult imm)
def funcXori : Handler := funcImm fun rs1 imm => rs1 ^^^ imm
def funcSrli : Handler := funcImm fun rs1 imm => rs1 >>> (imm &&& 0x3f)
def funcSrai : Handler := funcImm fun rs1 imm => rs1.sshiftRight' (imm &&& 0x3f)
def funcOri : Handler := funcImm fun rs1 imm => rs1 ||| imm
def funcAndi : Handler := funcImm fun rs1 imm => rs1 &&& imm
def funcAddiw : Handler := funcImm fun rs1 imm => CInt.i32.conv (rs1 + imm)
def funcSlliw : Handler := funcImm fun rs1 imm => CInt.i32.conv (rs1 <<< (imm &&& 0x1f))
def funcSrliw : Handler := funcImm fun rs1 imm =>
  CInt.i32.conv (CInt.u32.conv rs1 >>> (imm &&& 0x1f))
def funcSraiw : Handler := funcImm fun rs1 imm =>
  (CInt.i32.conv rs1).sshiftRight' (imm &&& 0x1f)

def funcAuipc : Handler := fun s insn =>
  .ok (s.setGp insn.rd (s.pc + insn.imm64), insn)

/-! ## Stores -/

/-- `FUNC(typ)` of the stores. -/
def funcStore (typ : CInt) : Handler := fun s insn =>
  .ok (s.write typ (s.gpRegs insn.rs1 + insn.imm64) (s.gpRegs insn.rs2), insn)

def funcSb : Handler := funcStore .u8
def funcSh : Handler := funcStore .u16
def funcSw : Handler := funcStore .u32
def funcSd : Handler := funcStore .u64

/-! ## Register-register operations -/

/-- `FUNC(expr)` of the register-register operations, for an expression that may trap. -/
def funcRegTrap (expr : U64 → U64 → Except Abort U64) : Handler := fun s insn => do
  let value ← expr (s.gpRegs insn.rs1) (s.gpRegs insn.rs2)
  return (s.setGp insn.rd value, insn)

/-- `FUNC(expr)` of the register-register operations. -/
def funcReg (expr : U64 → U64 → U64) : Handler := fun s insn =>
  .ok (s.setGp insn.rd (expr (s.gpRegs insn.rs1) (s.gpRegs insn.rs2)), insn)

def funcAdd : Handler := funcReg fun rs1 rs2 => rs1 + rs2
def funcSll : Handler := funcReg fun rs1 rs2 => rs1 <<< (rs2 &&& 0x3f)
def funcSlt : Handler := funcReg fun rs1 rs2 => cbool (rs1.slt rs2)
def funcSltu : Handler := funcReg fun rs1 rs2 => cbool (rs1.ult rs2)
def funcXor : Handler := funcReg fun rs1 rs2 => rs1 ^^^ rs2
def funcSrl : Handler := funcReg fun rs1 rs2 => rs1 >>> (rs2 &&& 0x3f)
def funcOr : Handler := funcReg fun rs1 rs2 => rs1 ||| rs2
def funcAnd : Handler := funcReg fun rs1 rs2 => rs1 &&& rs2
def funcMul : Handler := funcReg fun rs1 rs2 => rs1 * rs2
def funcMulh : Handler := funcReg mulh
def funcMulhsu : Handler := funcReg mulhsu
def funcMulhu : Handler := funcReg mulhu
def funcSub : Handler := funcReg fun rs1 rs2 => rs1 - rs2
def funcSra : Handler := funcReg fun rs1 rs2 => rs1.sshiftRight' (rs2 &&& 0x3f)
def funcRemu : Handler := funcRegTrap fun rs1 rs2 =>
  if rs2 = 0 then .ok rs1 else hostUrem rs1 rs2
def funcAddw : Handler := funcReg fun rs1 rs2 => CInt.i32.conv (rs1 + rs2)
def funcSllw : Handler := funcReg fun rs1 rs2 => CInt.i32.conv (rs1 <<< (rs2 &&& 0x1f))
def funcSrlw : Handler := funcReg fun rs1 rs2 =>
  CInt.i32.conv (CInt.u32.conv rs1 >>> (rs2 &&& 0x1f))
def funcMulw : Handler := funcReg fun rs1 rs2 => CInt.i32.conv (rs1 * rs2)
def funcDivw : Handler := funcRegTrap fun rs1 rs2 =>
  if rs2 = 0 then .ok (-1)
  else CInt.i32.conv <$> hostSdiv (CInt.i32.conv rs1) (CInt.i32.conv rs2)
def funcDivuw : Handler := funcRegTrap fun rs1 rs2 =>
  if rs2 = 0 then .ok (-1)
  else CInt.i32.conv <$> hostUdiv (CInt.u32.conv rs1) (CInt.u32.conv rs2)
def funcRemw : Handler := funcRegTrap fun rs1 rs2 =>
  if rs2 = 0 then .ok (CInt.i32.conv rs1)
  else CInt.i32.conv <$> hostSrem (CInt.i32.conv rs1) (CInt.i32.conv rs2)
def funcRemuw : Handler := funcRegTrap fun rs1 rs2 =>
  if rs2 = 0 then .ok (CInt.i32.conv (CInt.u32.conv rs1))
  else CInt.i32.conv <$> hostUrem (CInt.u32.conv rs1) (CInt.u32.conv rs2)
def funcSubw : Handler := funcReg fun rs1 rs2 => CInt.i32.conv (rs1 - rs2)
def funcSraw : Handler := funcReg fun rs1 rs2 =>
  CInt.i32.conv ((CInt.i32.conv rs1).sshiftRight' (rs2 &&& 0x1f))

def funcDiv : Handler := funcRegTrap fun rs1 rs2 =>
  if rs2 = 0 then .ok (-1)
  else if rs1 = BitVec.intMin 64 ∧ rs2 = -1 then .ok (BitVec.intMin 64)
  else hostSdiv rs1 rs2
def funcDivu : Handler := funcRegTrap fun rs1 rs2 =>
  if rs2 = 0 then .ok (-1) else hostUdiv rs1 rs2
def funcRem : Handler := funcRegTrap fun rs1 rs2 =>
  if rs2 = 0 then .ok rs1
  else if rs1 = BitVec.intMin 64 ∧ rs2 = -1 then .ok 0
  else hostSrem rs1 rs2

def funcLui : Handler := fun s insn => .ok (s.setGp insn.rd insn.imm64, insn)

/-! ## Control transfer -/

/-- `FUNC(expr)` of the conditional branches. -/
def funcBranch (expr : U64 → U64 → Bool) : Handler := fun s insn =>
  let target := s.pc + insn.imm64
  if expr (s.gpRegs insn.rs1) (s.gpRegs insn.rs2) then
    .ok ({ s with reenterPc := target, pc := target, exitReason := .directBranch },
      { insn with cont := true })
  else .ok (s, insn)

def funcBeq : Handler := funcBranch fun rs1 rs2 => rs1 == rs2
def funcBne : Handler := funcBranch fun rs1 rs2 => rs1 != rs2
def funcBlt : Handler := funcBranch fun rs1 rs2 => rs1.slt rs2
def funcBge : Handler := funcBranch fun rs1 rs2 => rs2.sle rs1
def funcBltu : Handler := funcBranch fun rs1 rs2 => rs1.ult rs2
def funcBgeu : Handler := funcBranch fun rs1 rs2 => rs2.ule rs1

def funcJalr : Handler := fun s insn =>
  let rs1 := s.gpRegs insn.rs1
  let s := s.setGp insn.rd (s.pc + insn.len)
  .ok ({ s with exitReason := .indirectBranch, reenterPc := (rs1 + insn.imm64) &&& ~~~1 }, insn)

def funcJal : Handler := fun s insn =>
  let s := s.setGp insn.rd (s.pc + insn.len)
  .ok ({ s with reenterPc := s.pc + insn.imm64, pc := s.pc + insn.imm64,
                exitReason := .directBranch }, insn)

def funcEcall : Handler := fun s insn =>
  .ok ({ s with exitReason := .ecall, reenterPc := s.pc + 4 }, insn)

def funcEmpty : Handler := fun s insn => .ok (s, insn)

/-! ## Control and status registers -/

/-- Whether the switch on `insn->csr` accepts the number: `fflags`, `frm` and `fcsr`. -/
def csrSupported (csr : U16) : Bool := csr == 0x001 || csr == 0x002 || csr == 0x003

/-- `FUNC()` of the CSR instructions. -/
def funcCsr : Handler := fun s insn =>
  if csrSupported insn.csr then .ok (s.setGp insn.rd 0, insn)
  else .error (.fatal "unsupported csr")

def funcCsrrw : Handler := funcCsr
def funcCsrrs : Handler := funcCsr
def funcCsrrc : Handler := funcCsr
def funcCsrrwi : Handler := funcCsr
def funcCsrrsi : Handler := funcCsr
def funcCsrrci : Handler := funcCsr

/-! ## Floating-point loads and stores -/

def funcFlw : Handler := fun s insn =>
  let addr := s.gpRegs insn.rs1 + insn.imm64
  .ok (s.setFp insn.rd (nanBox (Bytes.load s.mem addr 32)), insn)

def funcFld : Handler := fun s insn =>
  let addr := s.gpRegs insn.rs1 + insn.imm64
  .ok (s.setFp insn.rd (CInt.u64.load s.mem addr), insn)

/-- `FUNC(typ)` of the floating-point stores. -/
def funcFstore (typ : CInt) : Handler := fun s insn =>
  .ok (s.write typ (s.gpRegs insn.rs1 + insn.imm64) (s.fpRegs insn.rs2), insn)

def funcFsw : Handler := funcFstore .u32
def funcFsd : Handler := funcFstore .u64

/-! ## Floating-point arithmetic -/

section Float

variable (F : FloatOps)

/-- `FUNC(expr)` of the fused operations on `float`. -/
def funcFused32 (expr : U32 → U32 → U32 → U32) : Handler := fun s insn =>
  let value := expr (fpLow (s.fpRegs insn.rs1)) (fpLow (s.fpRegs insn.rs2))
    (fpLow (s.fpRegs insn.rs3))
  .ok (s.setFpLow insn.rd value, insn)

def funcFmaddS : Handler := funcFused32 fun rs1 rs2 rs3 =>
  F.single.add (F.single.mul rs1 rs2) rs3
def funcFmsubS : Handler := funcFused32 fun rs1 rs2 rs3 =>
  F.single.sub (F.single.mul rs1 rs2) rs3
def funcFnmsubS : Handler := funcFused32 fun rs1 rs2 rs3 =>
  F.single.add (F.single.neg (F.single.mul rs1 rs2)) rs3
def funcFnmaddS : Handler := funcFused32 fun rs1 rs2 rs3 =>
  F.single.sub (F.single.neg (F.single.mul rs1 rs2)) rs3

/-- `FUNC(expr)` of the fused operations on `double`. -/
def funcFused64 (expr : U64 → U64 → U64 → U64) : Handler := fun s insn =>
  let value := expr (s.fpRegs insn.rs1) (s.fpRegs insn.rs2) (s.fpRegs insn.rs3)
  .ok (s.setFp insn.rd value, insn)

def funcFmaddD : Handler := funcFused64 fun rs1 rs2 rs3 =>
  F.double.add (F.double.mul rs1 rs2) rs3
def funcFmsubD : Handler := funcFused64 fun rs1 rs2 rs3 =>
  F.double.sub (F.double.mul rs1 rs2) rs3
def funcFnmsubD : Handler := funcFused64 fun rs1 rs2 rs3 =>
  F.double.add (F.double.neg (F.double.mul rs1 rs2)) rs3
def funcFnmaddD : Handler := funcFused64 fun rs1 rs2 rs3 =>
  F.double.sub (F.double.neg (F.double.mul rs1 rs2)) rs3

/-- `FUNC(expr)` of the operations on `float`. -/
def funcArith32 (expr : U32 → U32 → U32) : Handler := fun s insn =>
  let value := expr (fpLow (s.fpRegs insn.rs1)) (fpLow (s.fpRegs insn.rs2))
  .ok (s.setFpLow insn.rd value, insn)

def funcFaddS : Handler := funcArith32 F.single.add
def funcFsubS : Handler := funcArith32 F.single.sub
def funcFmulS : Handler := funcArith32 F.single.mul
def funcFdivS : Handler := funcArith32 F.single.div
def funcFsqrtS : Handler := funcArith32 fun rs1 _ => F.single.sqrt rs1
def funcFminS : Handler := funcArith32 fun rs1 rs2 => if F.single.lt rs1 rs2 then rs1 else rs2
def funcFmaxS : Handler := funcArith32 fun rs1 rs2 => if F.single.gt rs1 rs2 then rs1 else rs2

/-- `FUNC(expr)` of the operations on `double`. -/
def funcArith64 (expr : U64 → U64 → U64) : Handler := fun s insn =>
  let value := expr (s.fpRegs insn.rs1) (s.fpRegs insn.rs2)
  .ok (s.setFp insn.rd value, insn)

def funcFaddD : Handler := funcArith64 F.double.add
def funcFsubD : Handler := funcArith64 F.double.sub
def funcFmulD : Handler := funcArith64 F.double.mul
def funcFdivD : Handler := funcArith64 F.double.div
def funcFsqrtD : Handler := funcArith64 fun rs1 _ => F.double.sqrt rs1
def funcFminD : Handler := funcArith64 fun rs1 rs2 => if F.double.lt rs1 rs2 then rs1 else rs2
def funcFmaxD : Handler := funcArith64 fun rs1 rs2 => if F.double.gt rs1 rs2 then rs1 else rs2

/-- `FUNC(n, x)` of the sign injections on `float`: the result is boxed. -/
def funcFsgnj32 (n x : Bool) : Handler := fun s insn =>
  let value := fsgnj32 (fpLow (s.fpRegs insn.rs1)) (fpLow (s.fpRegs insn.rs2)) n x
  .ok (s.setFp insn.rd (nanBox value), insn)

def funcFsgnjS : Handler := funcFsgnj32 false false
def funcFsgnjnS : Handler := funcFsgnj32 true false
def funcFsgnjxS : Handler := funcFsgnj32 false true

/-- `FUNC(n, x)` of the sign injections on `double`. -/
def funcFsgnj64 (n x : Bool) : Handler := fun s insn =>
  .ok (s.setFp insn.rd (fsgnj64 (s.fpRegs insn.rs1) (s.fpRegs insn.rs2) n x), insn)

def funcFsgnjD : Handler := funcFsgnj64 false false
def funcFsgnjnD : Handler := funcFsgnj64 true false
def funcFsgnjxD : Handler := funcFsgnj64 false true

/-! ## Conversions, moves and comparisons -/

/-- A handler that writes a function of the low half of `f[rs1]` to `x[rd]`. -/
def funcGpOfFp32 (expr : U32 → U64) : Handler := fun s insn =>
  .ok (s.setGp insn.rd (expr (fpLow (s.fpRegs insn.rs1))), insn)

/-- A handler that writes a function of `f[rs1]` to `x[rd]`. -/
def funcGpOfFp64 (expr : U64 → U64) : Handler := fun s insn =>
  .ok (s.setGp insn.rd (expr (s.fpRegs insn.rs1)), insn)

/-- A handler that writes a function of `x[rs1]` to the low half of `f[rd]`. -/
def funcFp32OfGp (expr : U64 → U32) : Handler := fun s insn =>
  .ok (s.setFpLow insn.rd (expr (s.gpRegs insn.rs1)), insn)

/-- A handler that writes a function of `x[rs1]` to `f[rd]`. -/
def funcFp64OfGp (expr : U64 → U64) : Handler := fun s insn =>
  .ok (s.setFp insn.rd (expr (s.gpRegs insn.rs1)), insn)

def funcFcvtWS : Handler := funcGpOfFp32 fun f => CInt.i32.conv (F.single.llrint f)
def funcFcvtWuS : Handler := funcGpOfFp32 fun f =>
  CInt.i32.conv (CInt.u32.conv (F.single.llrint f))
def funcFcvtWD : Handler := funcGpOfFp64 fun d => CInt.i32.conv (F.double.llrint d)
def funcFcvtWuD : Handler := funcGpOfFp64 fun d =>
  CInt.i32.conv (CInt.u32.conv (F.double.llrint d))
def funcFcvtSW : Handler := funcFp32OfGp fun x => F.single.ofInt .i32 (CInt.i32.conv x)
def funcFcvtSWu : Handler := funcFp32OfGp fun x => F.single.ofInt .u32 (CInt.u32.conv x)
def funcFcvtDW : Handler := funcFp64OfGp fun x => F.double.ofInt .i32 (CInt.i32.conv x)
def funcFcvtDWu : Handler := funcFp64OfGp fun x => F.double.ofInt .u32 (CInt.u32.conv x)

def funcFmvXW : Handler := funcGpOfFp32 fun w => CInt.i32.conv (w.setWidth 64)
def funcFmvWX : Handler := funcFp32OfGp fun x => x.setWidth 32
def funcFmvXD : Handler := funcGpOfFp64 fun v => v
def funcFmvDX : Handler := funcFp64OfGp fun x => x

/-- `FUNC(expr)` of the comparisons on `float`. -/
def funcCompare32 (expr : U32 → U32 → Bool) : Handler := fun s insn =>
  let value := expr (fpLow (s.fpRegs insn.rs1)) (fpLow (s.fpRegs insn.rs2))
  .ok (s.setGp insn.rd (cbool value), insn)

def funcFeqS : Handler := funcCompare32 F.single.eq
def funcFltS : Handler := funcCompare32 F.single.lt
def funcFleS : Handler := funcCompare32 F.single.le

/-- `FUNC(expr)` of the comparisons on `double`. -/
def funcCompare64 (expr : U64 → U64 → Bool) : Handler := fun s insn =>
  let value := expr (s.fpRegs insn.rs1) (s.fpRegs insn.rs2)
  .ok (s.setGp insn.rd (cbool value), insn)

def funcFeqD : Handler := funcCompare64 F.double.eq
def funcFltD : Handler := funcCompare64 F.double.lt
def funcFleD : Handler := funcCompare64 F.double.le

def funcFclassS : Handler := funcGpOfFp32 fun f => (f32Classify f).setWidth 64
def funcFclassD : Handler := funcGpOfFp64 fun d => (f64Classify d).setWidth 64

def funcFcvtLS : Handler := funcGpOfFp32 fun f => F.single.llrint f
def funcFcvtLuS : Handler := funcGpOfFp32 fun f => F.single.llrint f
def funcFcvtLD : Handler := funcGpOfFp64 fun d => F.double.llrint d
def funcFcvtLuD : Handler := funcGpOfFp64 fun d => F.double.llrint d
def funcFcvtSL : Handler := funcFp32OfGp fun x => F.single.ofInt .i64 x
def funcFcvtSLu : Handler := funcFp32OfGp fun x => F.single.ofInt .u64 x
def funcFcvtDL : Handler := funcFp64OfGp fun x => F.double.ofInt .i64 x
def funcFcvtDLu : Handler := funcFp64OfGp fun x => F.double.ofInt .u64 x

def funcFcvtSD : Handler := fun s insn =>
  .ok (s.setFpLow insn.rd (F.toSingle (s.fpRegs insn.rs1)), insn)

def funcFcvtDS : Handler := fun s insn =>
  .ok (s.setFp insn.rd (F.toDouble (fpLow (s.fpRegs insn.rs1))), insn)

/-! ## Dispatch -/

/-- `funcs[type]` of the interpreter. -/
def interpFuncs : InsnType → Handler
  | .lb => funcLb
  | .lh => funcLh
  | .lw => funcLw
  | .ld => funcLd
  | .lbu => funcLbu
  | .lhu => funcLhu
  | .lwu => funcLwu
  | .fence => funcEmpty
  | .fenceI => funcEmpty
  | .addi => funcAddi
  | .slli => funcSlli
  | .slti => funcSlti
  | .sltiu => funcSltiu
  | .xori => funcXori
  | .srli => funcSrli
  | .srai => funcSrai
  | .ori => funcOri
  | .andi => funcAndi
  | .auipc => funcAuipc
  | .addiw => funcAddiw
  | .slliw => funcSlliw
  | .srliw => funcSrliw
  | .sraiw => funcSraiw
  | .sb => funcSb
  | .sh => funcSh
  | .sw => funcSw
  | .sd => funcSd
  | .add => funcAdd
  | .sll => funcSll
  | .slt => funcSlt
  | .sltu => funcSltu
  | .xor => funcXor
  | .srl => funcSrl
  | .or => funcOr
  | .and => funcAnd
  | .mul => funcMul
  | .mulh => funcMulh
  | .mulhsu => funcMulhsu
  | .mulhu => funcMulhu
  | .div => funcDiv
  | .divu => funcDivu
  | .rem => funcRem
  | .remu => funcRemu
  | .sub => funcSub
  | .sra => funcSra
  | .lui => funcLui
  | .addw => funcAddw
  | .sllw => funcSllw
  | .srlw => funcSrlw
  | .mulw => funcMulw
  | .divw => funcDivw
  | .divuw => funcDivuw
  | .remw => funcRemw
  | .remuw => funcRemuw
  | .subw => funcSubw
  | .sraw => funcSraw
  | .beq => funcBeq
  | .bne => funcBne
  | .blt => funcBlt
  | .bge => funcBge
  | .bltu => funcBltu
  | .bgeu => funcBgeu
  | .jalr => funcJalr
  | .jal => funcJal
  | .ecall => funcEcall
  | .csrrc => funcCsrrc
  | .csrrci => funcCsrrci
  | .csrrs => funcCsrrs
  | .csrrsi => funcCsrrsi
  | .csrrw => funcCsrrw
  | .csrrwi => funcCsrrwi
  | .flw => funcFlw
  | .fsw => funcFsw
  | .fmaddS => funcFmaddS F
  | .fmsubS => funcFmsubS F
  | .fnmsubS => funcFnmsubS F
  | .fnmaddS => funcFnmaddS F
  | .faddS => funcFaddS F
  | .fsubS => funcFsubS F
  | .fmulS => funcFmulS F
  | .fdivS => funcFdivS F
  | .fsqrtS => funcFsqrtS F
  | .fsgnjS => funcFsgnjS
  | .fsgnjnS => funcFsgnjnS
  | .fsgnjxS => funcFsgnjxS
  | .fminS => funcFminS F
  | .fmaxS => funcFmaxS F
  | .fcvtWS => funcFcvtWS F
  | .fcvtWuS => funcFcvtWuS F
  | .fmvXW => funcFmvXW
  | .feqS => funcFeqS F
  | .fltS => funcFltS F
  | .fleS => funcFleS F
  | .fclassS => funcFclassS
  | .fcvtSW => funcFcvtSW F
  | .fcvtSWu => funcFcvtSWu F
  | .fmvWX => funcFmvWX
  | .fcvtLS => funcFcvtLS F
  | .fcvtLuS => funcFcvtLuS F
  | .fcvtSL => funcFcvtSL F
  | .fcvtSLu => funcFcvtSLu F
  | .fld => funcFld
  | .fsd => funcFsd
  | .fmaddD => funcFmaddD F
  | .fmsubD => funcFmsubD F
  | .fnmsubD => funcFnmsubD F
  | .fnmaddD => funcFnmaddD F
  | .faddD => funcFaddD F
  | .fsubD => funcFsubD F
  | .fmulD => funcFmulD F
  | .fdivD => funcFdivD F
  | .fsqrtD => funcFsqrtD F
  | .fsgnjD => funcFsgnjD
  | .fsgnjnD => funcFsgnjnD
  | .fsgnjxD => funcFsgnjxD
  | .fminD => funcFminD F
  | .fmaxD => funcFmaxD F
  | .fcvtSD => funcFcvtSD F
  | .fcvtDS => funcFcvtDS F
  | .feqD => funcFeqD F
  | .fltD => funcFltD F
  | .fleD => funcFleD F
  | .fclassD => funcFclassD
  | .fcvtWD => funcFcvtWD F
  | .fcvtWuD => funcFcvtWuD F
  | .fcvtDW => funcFcvtDW F
  | .fcvtDWu => funcFcvtDWu F
  | .fcvtLD => funcFcvtLD F
  | .fcvtLuD => funcFcvtLuD F
  | .fmvXD => funcFmvXD
  | .fcvtDL => funcFcvtDL F
  | .fcvtDLu => funcFcvtDLu F
  | .fmvDX => funcFmvDX

/-! ## The loop of a block -/

/-- One round of `exec_block_interp` on a non-zero pc: fetch, decode, execute. The
record says whether the block ends and how long the instruction is. -/
def execInsn (s : State) : Except Abort (State × Insn) := do
  let insn ← insnDecode {} s.fetch
  let (s, insn) ← interpFuncs F insn.type s insn
  return (s.setGp 0 0, insn)

/-- One round of the loop of `exec_block_interp`. -/
def execBlockIter (s : State) : Except Abort (State ⊕ State) :=
  if s.pc = 0 then
    .ok (.inr { s with exitReason := .halt, reenterPc := 0 })
  else do
    let (s, insn) ← execInsn F s
    if insn.cont then return .inr s
    else return .inl { s with pc := s.pc + insn.len }

/-- `exec_block_interp` entered in a state returns in a state. -/
abbrev ExecBlockInterp : State → State → Prop := Iteration.Returns (execBlockIter F)

end Float

end RiscvEmu
