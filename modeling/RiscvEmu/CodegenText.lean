import RiscvEmu.Codegen
import RiscvEmu.Foundation.Printing

/-!
# The text that the generators print

The generators of `codegen.c` again, with the text that they append to the body instead of what it
means. A `sprintf` into one of the buffers overflows when the text and its terminator do not fit.
The macros paste their arguments into the formats, here as strings; what the generators note in
the tracer, push on the stack and set in the instruction is in their `Emission`.
-/

set_option autoImplicit false

namespace RiscvEmu

open Printing

/-- The size of `funcbuf`, `funcbuf2` and the other buffers. -/
def bufSize : Nat := 128

/-- The text in a buffer. -/
abbrev Buffer := Except Abort Text

/-- `sprintf` into a buffer. -/
def sprintf (format : String) (args : List Arg) : Buffer :=
  match printf format.toList args with
  | some text => if text.length < bufSize then .ok text else .error .undefined
  | none => .error .undefined

/-- The texts of some calls of `str_append`. -/
abbrev Appends := Except Abort (List Text)

namespace Appends

instance : Append Appends := ⟨fun first rest => do return (← first) ++ (← rest)⟩

def nothing : Appends := .ok []

/-- `str_append` of a buffer. -/
def text (buffer : Buffer) : Appends := do return [← buffer]

/-- `str_append` of a string literal. -/
def lit (string : String) : Appends := .ok [string.toList]

end Appends

/-- `#name` of a local. -/
def Local.name : Local → String
  | .rs1 => "rs1"
  | .rs2 => "rs2"
  | .rs3 => "rs3"
  | .rd => "rd"

/-- `#field`. -/
def FpField.name : FpField → String
  | .v => "v"
  | .w => "w"
  | .d => "d"
  | .f => "f"

/-- The texts that a generator appends. -/
abbrev TextGenerator := Insn → U64 → Appends

namespace CodegenText

open Local Appends

/-! ## The macros -/

/-- `REG_SET_VAL`. -/
def regSetVal (reg : Reg) (val : U64) : Appends :=
  if reg ≠ 0 then text (sprintf "    x%d = %ldLL;\n" [.d reg.toNat, .ld val.toInt]) else nothing

/-- `REG_SET_EXPR`. -/
def regSetExpr (reg : Reg) (expr : Text) : Appends :=
  if reg ≠ 0 then text (sprintf "    x%d = %s;\n" [.d reg.toNat, .s expr]) else nothing

/-- `REG_GET`. -/
def regGet (reg : Reg) (name : Local) : Appends :=
  if reg = 0 then lit ("    uint64_t " ++ name.name ++ " = 0;\n")
  else text (sprintf ("    uint64_t " ++ name.name ++ " = x%d;\n") [.d reg.toNat])

/-- `FREG_SET_EXPR`. -/
def fregSetExpr (reg : Reg) (expr : Text) (field : FpField) : Appends :=
  text (sprintf ("    f%d." ++ field.name ++ " = %s;\n") [.d reg.toNat, .s expr])

/-- `FREG_GET`. -/
def fregGet (reg : Reg) (name : Local) (typ : String) (field : FpField) : Appends :=
  text (sprintf ("    " ++ typ ++ " " ++ name.name ++ " = f%d." ++ field.name ++ ";\n")
    [.d reg.toNat])

/-- `MEM_LOAD`. -/
def memLoad (addr : Text) (typ : String) (name : Local) : Appends :=
  text (sprintf ("    %s " ++ name.name ++ " = *(%s *)TO_HOST(%s);\n")
    [.s typ.toList, .s typ.toList, .s addr])

/-- `MEM_STORE`. -/
def memStore (addr : Text) (typ : String) (data : Local) : Appends :=
  text (sprintf ("    *(%s *)TO_HOST(%s) = (%s)" ++ data.name ++ ";\n")
    [.s typ.toList, .s addr, .s typ.toList])

/-- `rs1 + (int64_t)%ldLL` of `(i64)insn->imm`, in `funcbuf2`. -/
def immAddr (insn : Insn) : Buffer := sprintf "rs1 + (int64_t)%ldLL" [.ld insn.imm64.toInt]

/-! ## Loads -/

def funcEmpty : TextGenerator := fun _ _ => nothing

/-- `FUNC(typ)` of the loads. -/
def funcLoad (typ : String) : TextGenerator := fun insn _ => do
  let funcbuf2 ← immAddr insn
  regGet insn.rs1 rs1 ++ memLoad funcbuf2 typ rd ++ regSetExpr insn.rd "rd".toList

def funcLb : TextGenerator := funcLoad "int8_t"
def funcLh : TextGenerator := funcLoad "int16_t"
def funcLw : TextGenerator := funcLoad "int32_t"
def funcLd : TextGenerator := funcLoad "int64_t"
def funcLbu : TextGenerator := funcLoad "uint8_t"
def funcLhu : TextGenerator := funcLoad "uint16_t"
def funcLwu : TextGenerator := funcLoad "uint32_t"

/-! ## Register-immediate operations -/

/-- `FUNC(stmt)` of the register-immediate operations; the statement prints into `funcbuf2`. -/
def funcImm (stmt : Insn → Buffer) : TextGenerator := fun insn _ => do
  let funcbuf2 ← stmt insn
  regGet insn.rs1 rs1 ++ regSetExpr insn.rd funcbuf2

/-- A format for `(i64)insn->imm` as `%ld`. -/
def immLd (format : String) (insn : Insn) : Buffer := sprintf format [.ld insn.imm64.toInt]

/-- A format for `(i64)insn->imm` as `%lu`. -/
def immLu (format : String) (insn : Insn) : Buffer := sprintf format [.lu insn.imm64.toNat]

/-- A format for `insn->imm & mask`. -/
def immAnd (format : String) (mask : U32) (insn : Insn) : Buffer :=
  sprintf format [.d (insn.imm &&& mask).toInt]

def funcAddi : TextGenerator := funcImm (immLd "rs1 + (int64_t)%ldLL")
def funcSlli : TextGenerator := funcImm (immAnd "rs1 << %d" 0x3f)
def funcSlti : TextGenerator := funcImm (immLd "(int64_t)rs1 < (int64_t)%ldLL ? 1 : 0")
def funcSltiu : TextGenerator := funcImm (immLu "rs1 < %luULL ? 1 : 0")
def funcXori : TextGenerator := funcImm (immLd "rs1 ^ %ldLL")
def funcSrli : TextGenerator := funcImm (immAnd "rs1 >> %d" 0x3f)
def funcSrai : TextGenerator := funcImm (immAnd "(int64_t)rs1 >> %d" 0x3f)
def funcOri : TextGenerator := funcImm (immLu "rs1 | %luULL")
def funcAndi : TextGenerator := funcImm (immLu "rs1 & %luULL")
def funcAddiw : TextGenerator := funcImm (immLd "(int64_t)(int32_t)(rs1 + (int64_t)%ldLL)")
def funcSlliw : TextGenerator := funcImm (immAnd "(int64_t)(int32_t)(rs1 << %d)" 0x1f)
def funcSrliw : TextGenerator := funcImm (immAnd "(int64_t)(int32_t)((uint32_t)rs1 >> %d)" 0x1f)
def funcSraiw : TextGenerator := funcImm (immAnd "(int64_t)((int32_t)rs1 >> %d)" 0x1f)

def funcAuipc : TextGenerator := fun insn pc => regSetVal insn.rd (pc + insn.imm64)

/-! ## Stores -/

/-- `FUNC(typ)` of the stores. -/
def funcStore (typ : String) : TextGenerator := fun insn _ => do
  let funcbuf2 ← immAddr insn
  regGet insn.rs1 rs1 ++ regGet insn.rs2 rs2 ++ memStore funcbuf2 typ rs2

def funcSb : TextGenerator := funcStore "uint8_t"
def funcSh : TextGenerator := funcStore "uint16_t"
def funcSw : TextGenerator := funcStore "uint32_t"
def funcSd : TextGenerator := funcStore "uint64_t"

/-! ## Register-register operations -/

/-- `FUNC(expr)` of the register-register operations. -/
def funcReg (expr : String) : TextGenerator := fun insn _ =>
  regGet insn.rs1 rs1 ++ regGet insn.rs2 rs2 ++ regSetExpr insn.rd expr.toList

def funcAdd : TextGenerator := funcReg "rs1 + rs2"
def funcSll : TextGenerator := funcReg "rs1 << (rs2 & 0x3f)"
def funcSlt : TextGenerator := funcReg "((int64_t)rs1 < (int64_t)rs2) ? 1 : 0"
def funcSltu : TextGenerator := funcReg "((uint64_t)rs1 < (uint64_t)rs2) ? 1 : 0"
def funcXor : TextGenerator := funcReg "rs1 ^ rs2"
def funcSrl : TextGenerator := funcReg "rs1 >> (rs2 & 0x3f)"
def funcOr : TextGenerator := funcReg "rs1 | rs2"
def funcAnd : TextGenerator := funcReg "rs1 & rs2"
def funcMul : TextGenerator := funcReg "rs1 * rs2"
def funcSub : TextGenerator := funcReg "rs1 - rs2"
def funcSra : TextGenerator := funcReg "(int64_t)rs1 >> (rs2 & 0x3f)"
def funcRemu : TextGenerator := funcReg "(rs2 == 0 ? rs1 : rs1 % rs2)"
def funcAddw : TextGenerator := funcReg "(int64_t)(int32_t)(rs1 + rs2)"
def funcSllw : TextGenerator := funcReg "(int64_t)(int32_t)(rs1 << (rs2 & 0x1f))"
def funcSrlw : TextGenerator := funcReg "(int64_t)(int32_t)((uint32_t)rs1 >> (rs2 & 0x1f))"
def funcMulw : TextGenerator := funcReg "(int64_t)(int32_t)(rs1 * rs2)"
def funcDivw : TextGenerator := funcReg
  "(rs2 == 0 ? UINT64_MAX : (int32_t)((int64_t)(int32_t)rs1 / (int64_t)(int32_t)rs2))"
def funcDivuw : TextGenerator := funcReg
  "(rs2 == 0 ? UINT64_MAX : (int32_t)((uint32_t)rs1 / (uint32_t)rs2))"
def funcRemw : TextGenerator := funcReg
  "(rs2 == 0 ? (int64_t)(int32_t)rs1 : (int64_t)(int32_t)((int64_t)(int32_t)rs1 % (int64_t)(int32_t)rs2))"
def funcRemuw : TextGenerator := funcReg
  "(rs2 == 0 ? (int64_t)(int32_t)(uint32_t)rs1 : (int64_t)(int32_t)((uint32_t)rs1 % (uint32_t)rs2))"
def funcSubw : TextGenerator := funcReg "(int64_t)(int32_t)(rs1 - rs2)"
def funcSraw : TextGenerator := funcReg "(int64_t)(int32_t)((int32_t)rs1 >> (rs2 & 0x1f))"

/-- `FUNC(stmt)` of the divisions: the statement appends an `if` chain. -/
def funcChoose (chain : String) : TextGenerator := fun insn _ =>
  regGet insn.rs1 rs1 ++ regGet insn.rs2 rs2 ++ lit chain ++ regSetExpr insn.rd "rd".toList

def funcDiv : TextGenerator := funcChoose <|
  "    uint64_t rd = 0;                                   \n" ++
  "    if (rs2 == 0) \x7b                                    \n" ++
  "        rd = UINT64_MAX;                               \n" ++
  "    \x7d else if (rs1 == INT64_MIN && rs2 == UINT64_MAX) \x7b\n" ++
  "        rd = INT64_MIN;                                \n" ++
  "    \x7d else \x7b                                           \n" ++
  "        rd = (int64_t)rs1 / (int64_t)rs2;              \n" ++
  "    \x7d                                                  \n"

def funcDivu : TextGenerator := funcChoose <|
  "    uint64_t rd = 0;    \n" ++
  "    if (rs2 == 0) \x7b     \n" ++
  "        rd = UINT64_MAX;\n" ++
  "    \x7d else \x7b            \n" ++
  "        rd = rs1 / rs2; \n" ++
  "    \x7d                   \n"

def funcRem : TextGenerator := funcChoose <|
  "    uint64_t rd = 0;                                   \n" ++
  "    if (rs2 == 0) \x7b                                    \n" ++
  "        rd = rs1;                                      \n" ++
  "    \x7d else if (rs1 == INT64_MIN && rs2 == UINT64_MAX) \x7b\n" ++
  "        rd = 0;                                        \n" ++
  "    \x7d else \x7b                                           \n" ++
  "        rd = (int64_t)rs1 % (int64_t)rs2;              \n" ++
  "    \x7d                                                  \n"

def funcLui : TextGenerator := fun insn _ => regSetVal insn.rd insn.imm64

/-! ## Control transfer -/

/-- A `goto` to the label of a pc. -/
def goto (format : String) (pc : U64) : Appends := text (sprintf format [.lx pc.toNat])

/-- `FUNC(typ, op)` of the conditional branches. -/
def funcBranch (typ op : String) : TextGenerator := fun insn pc =>
  let targetAddr := pc + insn.imm64
  regGet insn.rs1 rs1 ++ regGet insn.rs2 rs2 ++
    text (sprintf "    if ((%s)rs1 %s (%s)rs2) \x7b\n"
      [.s typ.toList, .s op.toList, .s typ.toList]) ++
    goto "        goto insn_%lx;\n" targetAddr ++ lit "    \x7d\n"

def funcBeq : TextGenerator := funcBranch "uint64_t" "=="
def funcBne : TextGenerator := funcBranch "uint64_t" "!="
def funcBlt : TextGenerator := funcBranch "int64_t" "<"
def funcBge : TextGenerator := funcBranch "int64_t" ">="
def funcBltu : TextGenerator := funcBranch "uint64_t" "<"
def funcBgeu : TextGenerator := funcBranch "uint64_t" ">="

/-- The exit of a block: the reason, the pc to reenter at, and the jump to the end. -/
def leave (reason : String) (reenter : Buffer) : Appends :=
  lit ("    state->exit_reason = " ++ reason ++ ";\n") ++ text reenter ++ lit "    goto end;\n" ++
    lit "\x7d\n"

def funcJalr : TextGenerator := fun insn pc =>
  let returnAddr := pc + insn.len
  regGet insn.rs1 rs1 ++ regSetVal insn.rd returnAddr ++
    leave "indirect_branch"
      (sprintf "    state->reenter_pc = (rs1 + (int64_t)%ldLL) & ~(uint64_t)1;\n"
        [.ld insn.imm64.toInt])

def funcJal : TextGenerator := fun insn pc =>
  let returnAddr := pc + insn.len
  let targetAddr := pc + insn.imm64
  regSetVal insn.rd returnAddr ++ goto "    goto insn_%lx;\n" targetAddr ++ lit "\x7d\n"

def funcEcall : TextGenerator := fun _ pc =>
  leave "ecall" (sprintf "    state->reenter_pc = %luULL;\n" [.lu (pc + 4).toNat])

/-! ## Control and status registers -/

/-- `FUNC()` of the CSR instructions. -/
def funcCsr : TextGenerator := fun insn _ =>
  if csrSupported insn.csr then
    if insn.rd ≠ 0 then text (sprintf "    x%d = 0;\n" [.d insn.rd.toNat]) else nothing
  else .error (.fatal "unsupported csr")

def funcCsrrw : TextGenerator := funcCsr
def funcCsrrs : TextGenerator := funcCsr
def funcCsrrc : TextGenerator := funcCsr
def funcCsrrwi : TextGenerator := funcCsr
def funcCsrrsi : TextGenerator := funcCsr
def funcCsrrci : TextGenerator := funcCsr

/-! ## Floating-point loads and stores -/

/-- `FUNC(typ, expr)` of the floating-point loads. -/
def funcFload (typ expr : String) : TextGenerator := fun insn _ => do
  let funcbuf2 ← immAddr insn
  regGet insn.rs1 rs1 ++ memLoad funcbuf2 typ rd ++ fregSetExpr insn.rd expr.toList .v

def funcFlw : TextGenerator := funcFload "uint32_t" "rd | ((uint64_t)-1 << 32)"
def funcFld : TextGenerator := funcFload "uint64_t" "rd"

/-- `FUNC(typ)` of the floating-point stores. -/
def funcFstore (typ : String) : TextGenerator := fun insn _ => do
  let funcbuf2 ← immAddr insn
  regGet insn.rs1 rs1 ++ fregGet insn.rs2 rs2 "uint64_t" .v ++ memStore funcbuf2 typ rs2

def funcFsw : TextGenerator := funcFstore "uint32_t"
def funcFsd : TextGenerator := funcFstore "uint64_t"

/-! ## Floating-point arithmetic -/

/-- `FUNC(expr)` of the fused operations, on `float` and on `double`. -/
def funcFused (type : String) (field : FpField) (expr : String) : TextGenerator := fun insn _ =>
  fregGet insn.rs1 rs1 type field ++ fregGet insn.rs2 rs2 type field ++
    fregGet insn.rs3 rs3 type field ++ fregSetExpr insn.rd expr.toList field

def funcFmaddS : TextGenerator := funcFused "float" .f "rs1 * rs2 + rs3"
def funcFmsubS : TextGenerator := funcFused "float" .f "rs1 * rs2 - rs3"
def funcFnmsubS : TextGenerator := funcFused "float" .f "-(rs1 * rs2) + rs3"
def funcFnmaddS : TextGenerator := funcFused "float" .f "-(rs1 * rs2) - rs3"
def funcFmaddD : TextGenerator := funcFused "double" .d "rs1 * rs2 + rs3"
def funcFmsubD : TextGenerator := funcFused "double" .d "rs1 * rs2 - rs3"
def funcFnmsubD : TextGenerator := funcFused "double" .d "-(rs1 * rs2) + rs3"
def funcFnmaddD : TextGenerator := funcFused "double" .d "-(rs1 * rs2) - rs3"

/-- `FUNC(expr)` of the operations with two operands, on `float` and on `double`. -/
def funcArith (type : String) (field : FpField) (expr : String) : TextGenerator := fun insn _ =>
  fregGet insn.rs1 rs1 type field ++ fregGet insn.rs2 rs2 type field ++
    fregSetExpr insn.rd expr.toList field

def funcFaddS : TextGenerator := funcArith "float" .f "rs1 + rs2"
def funcFsubS : TextGenerator := funcArith "float" .f "rs1 - rs2"
def funcFmulS : TextGenerator := funcArith "float" .f "rs1 * rs2"
def funcFdivS : TextGenerator := funcArith "float" .f "rs1 / rs2"
def funcFminS : TextGenerator := funcArith "float" .f "rs1 < rs2 ? rs1 : rs2"
def funcFmaxS : TextGenerator := funcArith "float" .f "rs1 > rs2 ? rs1 : rs2"
def funcFaddD : TextGenerator := funcArith "double" .d "rs1 + rs2"
def funcFsubD : TextGenerator := funcArith "double" .d "rs1 - rs2"
def funcFmulD : TextGenerator := funcArith "double" .d "rs1 * rs2"
def funcFdivD : TextGenerator := funcArith "double" .d "rs1 / rs2"
def funcFminD : TextGenerator := funcArith "double" .d "rs1 < rs2 ? rs1 : rs2"
def funcFmaxD : TextGenerator := funcArith "double" .d "rs1 > rs2 ? rs1 : rs2"

/-! ## Conversions, moves and comparisons -/

/-- A generator that assigns an expression of `x[rs1]` to a member of `f[rd]`. -/
def funcFpOfGp (expr : String) (field : FpField) : TextGenerator := fun insn _ =>
  regGet insn.rs1 rs1 ++ fregSetExpr insn.rd expr.toList field

def funcFcvtSW : TextGenerator := funcFpOfGp "(float)(int32_t)rs1" .f
def funcFcvtSWu : TextGenerator := funcFpOfGp "(float)(uint32_t)rs1" .f
def funcFcvtDW : TextGenerator := funcFpOfGp "(double)(int32_t)rs1" .d
def funcFcvtDWu : TextGenerator := funcFpOfGp "(double)(uint32_t)rs1" .d
def funcFmvWX : TextGenerator := funcFpOfGp "(uint32_t)rs1" .w
def funcFmvDX : TextGenerator := funcFpOfGp "rs1" .v
def funcFcvtSL : TextGenerator := funcFpOfGp "(float)(int64_t)rs1" .f
def funcFcvtSLu : TextGenerator := funcFpOfGp "(float)(uint64_t)rs1" .f
def funcFcvtDL : TextGenerator := funcFpOfGp "(double)(int64_t)rs1" .d
def funcFcvtDLu : TextGenerator := funcFpOfGp "(double)(uint64_t)rs1" .d

/-- A generator that moves an expression of a member of `f[rs1]` to `x[rd]`. -/
def funcGpOfFp (type : String) (field : FpField) (expr : String) : TextGenerator := fun insn _ =>
  fregGet insn.rs1 rs1 type field ++ regSetExpr insn.rd expr.toList

def funcFmvXW : TextGenerator := funcGpOfFp "uint32_t" .w "(int64_t)(int32_t)rs1"
def funcFmvXD : TextGenerator := funcGpOfFp "uint64_t" .v "rs1"

/-- `FUNC(expr)` of the comparisons, on `float` and on `double`. -/
def funcCompare (type : String) (field : FpField) (expr : String) : TextGenerator := fun insn _ =>
  fregGet insn.rs1 rs1 type field ++ fregGet insn.rs2 rs2 type field ++
    regSetExpr insn.rd expr.toList

def funcFeqS : TextGenerator := funcCompare "float" .f "rs1 == rs2"
def funcFltS : TextGenerator := funcCompare "float" .f "rs1 < rs2"
def funcFleS : TextGenerator := funcCompare "float" .f "rs1 <= rs2"
def funcFeqD : TextGenerator := funcCompare "double" .d "rs1 == rs2"
def funcFltD : TextGenerator := funcCompare "double" .d "rs1 < rs2"
def funcFleD : TextGenerator := funcCompare "double" .d "rs1 <= rs2"

/-- A generator that converts a member of `f[rs1]` and assigns it to a member of `f[rd]`. -/
def funcFpOfFp (type : String) (field : FpField) (expr : String) (result : FpField) :
    TextGenerator := fun insn _ =>
  fregGet insn.rs1 rs1 type field ++ fregSetExpr insn.rd expr.toList result

def funcFcvtSD : TextGenerator := funcFpOfFp "double" .d "(float)rs1" .f
def funcFcvtDS : TextGenerator := funcFpOfFp "float" .f "(double)rs1" .d

/-! ## Instructions that are left to the interpreter -/

/-- `FUNC()` of the instructions that are not compiled. -/
def funcInterp : TextGenerator := fun _ pc =>
  leave "interp" (sprintf "    state->reenter_pc = %luULL;\n" [.lu pc.toNat])

def funcMulh : TextGenerator := funcInterp
def funcMulhsu : TextGenerator := funcInterp
def funcMulhu : TextGenerator := funcInterp
def funcFsqrtS : TextGenerator := funcInterp
def funcFcvtWS : TextGenerator := funcInterp
def funcFcvtWuS : TextGenerator := funcInterp
def funcFcvtWD : TextGenerator := funcInterp
def funcFcvtWuD : TextGenerator := funcInterp
def funcFclassS : TextGenerator := funcInterp
def funcFclassD : TextGenerator := funcInterp
def funcFcvtLS : TextGenerator := funcInterp
def funcFcvtLuS : TextGenerator := funcInterp
def funcFcvtLD : TextGenerator := funcInterp
def funcFcvtLuD : TextGenerator := funcInterp
def funcFsgnjS : TextGenerator := funcInterp
def funcFsgnjnS : TextGenerator := funcInterp
def funcFsgnjxS : TextGenerator := funcInterp
def funcFsgnjD : TextGenerator := funcInterp
def funcFsgnjnD : TextGenerator := funcInterp
def funcFsgnjxD : TextGenerator := funcInterp
def funcFsqrtD : TextGenerator := funcInterp

end CodegenText

/-! ## Dispatch -/

/-- `funcs[type]` of the generator. -/
def codegenTexts : InsnType → TextGenerator
  | .lb => CodegenText.funcLb
  | .lh => CodegenText.funcLh
  | .lw => CodegenText.funcLw
  | .ld => CodegenText.funcLd
  | .lbu => CodegenText.funcLbu
  | .lhu => CodegenText.funcLhu
  | .lwu => CodegenText.funcLwu
  | .fence => CodegenText.funcEmpty
  | .fenceI => CodegenText.funcEmpty
  | .addi => CodegenText.funcAddi
  | .slli => CodegenText.funcSlli
  | .slti => CodegenText.funcSlti
  | .sltiu => CodegenText.funcSltiu
  | .xori => CodegenText.funcXori
  | .srli => CodegenText.funcSrli
  | .srai => CodegenText.funcSrai
  | .ori => CodegenText.funcOri
  | .andi => CodegenText.funcAndi
  | .auipc => CodegenText.funcAuipc
  | .addiw => CodegenText.funcAddiw
  | .slliw => CodegenText.funcSlliw
  | .srliw => CodegenText.funcSrliw
  | .sraiw => CodegenText.funcSraiw
  | .sb => CodegenText.funcSb
  | .sh => CodegenText.funcSh
  | .sw => CodegenText.funcSw
  | .sd => CodegenText.funcSd
  | .add => CodegenText.funcAdd
  | .sll => CodegenText.funcSll
  | .slt => CodegenText.funcSlt
  | .sltu => CodegenText.funcSltu
  | .xor => CodegenText.funcXor
  | .srl => CodegenText.funcSrl
  | .or => CodegenText.funcOr
  | .and => CodegenText.funcAnd
  | .mul => CodegenText.funcMul
  | .mulh => CodegenText.funcMulh
  | .mulhsu => CodegenText.funcMulhsu
  | .mulhu => CodegenText.funcMulhu
  | .div => CodegenText.funcDiv
  | .divu => CodegenText.funcDivu
  | .rem => CodegenText.funcRem
  | .remu => CodegenText.funcRemu
  | .sub => CodegenText.funcSub
  | .sra => CodegenText.funcSra
  | .lui => CodegenText.funcLui
  | .addw => CodegenText.funcAddw
  | .sllw => CodegenText.funcSllw
  | .srlw => CodegenText.funcSrlw
  | .mulw => CodegenText.funcMulw
  | .divw => CodegenText.funcDivw
  | .divuw => CodegenText.funcDivuw
  | .remw => CodegenText.funcRemw
  | .remuw => CodegenText.funcRemuw
  | .subw => CodegenText.funcSubw
  | .sraw => CodegenText.funcSraw
  | .beq => CodegenText.funcBeq
  | .bne => CodegenText.funcBne
  | .blt => CodegenText.funcBlt
  | .bge => CodegenText.funcBge
  | .bltu => CodegenText.funcBltu
  | .bgeu => CodegenText.funcBgeu
  | .jalr => CodegenText.funcJalr
  | .jal => CodegenText.funcJal
  | .ecall => CodegenText.funcEcall
  | .csrrc => CodegenText.funcCsrrw
  | .csrrci => CodegenText.funcCsrrs
  | .csrrs => CodegenText.funcCsrrc
  | .csrrsi => CodegenText.funcCsrrwi
  | .csrrw => CodegenText.funcCsrrsi
  | .csrrwi => CodegenText.funcCsrrci
  | .flw => CodegenText.funcFlw
  | .fsw => CodegenText.funcFsw
  | .fmaddS => CodegenText.funcFmaddS
  | .fmsubS => CodegenText.funcFmsubS
  | .fnmsubS => CodegenText.funcFnmsubS
  | .fnmaddS => CodegenText.funcFnmaddS
  | .faddS => CodegenText.funcFaddS
  | .fsubS => CodegenText.funcFsubS
  | .fmulS => CodegenText.funcFmulS
  | .fdivS => CodegenText.funcFdivS
  | .fsqrtS => CodegenText.funcFsqrtS
  | .fsgnjS => CodegenText.funcFsgnjS
  | .fsgnjnS => CodegenText.funcFsgnjnS
  | .fsgnjxS => CodegenText.funcFsgnjxS
  | .fminS => CodegenText.funcFminS
  | .fmaxS => CodegenText.funcFmaxS
  | .fcvtWS => CodegenText.funcFcvtWS
  | .fcvtWuS => CodegenText.funcFcvtWuS
  | .fmvXW => CodegenText.funcFmvXW
  | .feqS => CodegenText.funcFeqS
  | .fltS => CodegenText.funcFltS
  | .fleS => CodegenText.funcFleS
  | .fclassS => CodegenText.funcFclassS
  | .fcvtSW => CodegenText.funcFcvtSW
  | .fcvtSWu => CodegenText.funcFcvtSWu
  | .fmvWX => CodegenText.funcFmvWX
  | .fcvtLS => CodegenText.funcFcvtLS
  | .fcvtLuS => CodegenText.funcFcvtLuS
  | .fcvtSL => CodegenText.funcFcvtSL
  | .fcvtSLu => CodegenText.funcFcvtSLu
  | .fld => CodegenText.funcFld
  | .fsd => CodegenText.funcFsd
  | .fmaddD => CodegenText.funcFmaddD
  | .fmsubD => CodegenText.funcFmsubD
  | .fnmsubD => CodegenText.funcFnmsubD
  | .fnmaddD => CodegenText.funcFnmaddD
  | .faddD => CodegenText.funcFaddD
  | .fsubD => CodegenText.funcFsubD
  | .fmulD => CodegenText.funcFmulD
  | .fdivD => CodegenText.funcFdivD
  | .fsqrtD => CodegenText.funcFsqrtD
  | .fsgnjD => CodegenText.funcFsgnjD
  | .fsgnjnD => CodegenText.funcFsgnjnD
  | .fsgnjxD => CodegenText.funcFsgnjxD
  | .fminD => CodegenText.funcFminD
  | .fmaxD => CodegenText.funcFmaxD
  | .fcvtSD => CodegenText.funcFcvtSD
  | .fcvtDS => CodegenText.funcFcvtDS
  | .feqD => CodegenText.funcFeqD
  | .fltD => CodegenText.funcFltD
  | .fleD => CodegenText.funcFleD
  | .fclassD => CodegenText.funcFclassD
  | .fcvtWD => CodegenText.funcFcvtWD
  | .fcvtWuD => CodegenText.funcFcvtWuD
  | .fcvtDW => CodegenText.funcFcvtDW
  | .fcvtDWu => CodegenText.funcFcvtDWu
  | .fcvtLD => CodegenText.funcFcvtLD
  | .fcvtLuD => CodegenText.funcFcvtLuD
  | .fmvXD => CodegenText.funcFmvXD
  | .fcvtDL => CodegenText.funcFcvtDL
  | .fcvtDLu => CodegenText.funcFcvtDLu
  | .fmvDX => CodegenText.funcFmvDX

end RiscvEmu
