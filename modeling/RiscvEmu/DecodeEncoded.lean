import RiscvEmu.DecodeFields
import RiscvEmu.DecodeFacts
import RiscvEmu.Foundation.Encoding

/-!
# Decoding an encoded instruction

`Encoding.Instr.encode` is the word that the architecture assigns to an instruction, and
`Encoding.Instr.record` the record with its type and operands. The decoder takes the one to the
other (`insnDecode_encode`).

The arithmetic right shifts are recorded with their immediate field, which is the shift amount
below a set bit. An ECALL leaves the operands that were in the record before.
-/

set_option autoImplicit false

/-! ## Records -/

namespace Encoding

open RiscvEmu (Insn InsnType U32)

def LoadOp.type : LoadOp → InsnType
  | .lb => .lb
  | .lh => .lh
  | .lw => .lw
  | .ld => .ld
  | .lbu => .lbu
  | .lhu => .lhu
  | .lwu => .lwu

def Precision.loadType : Precision → InsnType
  | .single => .flw
  | .double => .fld

def ImmOp.type : ImmOp → InsnType
  | .addi => .addi
  | .slti => .slti
  | .sltiu => .sltiu
  | .xori => .xori
  | .ori => .ori
  | .andi => .andi

def ShiftOp.type : ShiftOp → InsnType
  | .sll => .slli
  | .srl => .srli
  | .sra => .srai

def ShiftOp.type32 : ShiftOp → InsnType
  | .sll => .slliw
  | .srl => .srliw
  | .sra => .sraiw

/-- What the immediate of a shift holds above the shift amount. -/
def ShiftOp.tag : ShiftOp → U32
  | .sll => 0
  | .srl => 0
  | .sra => 0x400

def StoreOp.type : StoreOp → InsnType
  | .sb => .sb
  | .sh => .sh
  | .sw => .sw
  | .sd => .sd

def Precision.storeType : Precision → InsnType
  | .single => .fsw
  | .double => .fsd

def RegOp.type : RegOp → InsnType
  | .add => .add
  | .sll => .sll
  | .slt => .slt
  | .sltu => .sltu
  | .xor => .xor
  | .srl => .srl
  | .or => .or
  | .and => .and
  | .sub => .sub
  | .sra => .sra
  | .mul => .mul
  | .mulh => .mulh
  | .mulhsu => .mulhsu
  | .mulhu => .mulhu
  | .div => .div
  | .divu => .divu
  | .rem => .rem
  | .remu => .remu

def RegOp32.type : RegOp32 → InsnType
  | .addw => .addw
  | .sllw => .sllw
  | .srlw => .srlw
  | .subw => .subw
  | .sraw => .sraw
  | .mulw => .mulw
  | .divw => .divw
  | .divuw => .divuw
  | .remw => .remw
  | .remuw => .remuw

def FusedOp.type : FusedOp → Precision → InsnType
  | .fmadd, .single => .fmaddS
  | .fmadd, .double => .fmaddD
  | .fmsub, .single => .fmsubS
  | .fmsub, .double => .fmsubD
  | .fnmsub, .single => .fnmsubS
  | .fnmsub, .double => .fnmsubD
  | .fnmadd, .single => .fnmaddS
  | .fnmadd, .double => .fnmaddD

def ArithOp.type : ArithOp → Precision → InsnType
  | .fadd, .single => .faddS
  | .fadd, .double => .faddD
  | .fsub, .single => .fsubS
  | .fsub, .double => .fsubD
  | .fmul, .single => .fmulS
  | .fmul, .double => .fmulD
  | .fdiv, .single => .fdivS
  | .fdiv, .double => .fdivD

def PairOp.type : PairOp → Precision → InsnType
  | .fsgnj, .single => .fsgnjS
  | .fsgnj, .double => .fsgnjD
  | .fsgnjn, .single => .fsgnjnS
  | .fsgnjn, .double => .fsgnjnD
  | .fsgnjx, .single => .fsgnjxS
  | .fsgnjx, .double => .fsgnjxD
  | .fmin, .single => .fminS
  | .fmin, .double => .fminD
  | .fmax, .single => .fmaxS
  | .fmax, .double => .fmaxD
  | .fle, .single => .fleS
  | .fle, .double => .fleD
  | .flt, .single => .fltS
  | .flt, .double => .fltD
  | .feq, .single => .feqS
  | .feq, .double => .feqD

def RoundOp.type : RoundOp → Precision → InsnType
  | .fsqrt, .single => .fsqrtS
  | .fsqrt, .double => .fsqrtD
  | .fcvt, .single => .fcvtSD
  | .fcvt, .double => .fcvtDS
  | .fcvtTo .w, .single => .fcvtWS
  | .fcvtTo .w, .double => .fcvtWD
  | .fcvtTo .wu, .single => .fcvtWuS
  | .fcvtTo .wu, .double => .fcvtWuD
  | .fcvtTo .l, .single => .fcvtLS
  | .fcvtTo .l, .double => .fcvtLD
  | .fcvtTo .lu, .single => .fcvtLuS
  | .fcvtTo .lu, .double => .fcvtLuD
  | .fcvtFrom .w, .single => .fcvtSW
  | .fcvtFrom .w, .double => .fcvtDW
  | .fcvtFrom .wu, .single => .fcvtSWu
  | .fcvtFrom .wu, .double => .fcvtDWu
  | .fcvtFrom .l, .single => .fcvtSL
  | .fcvtFrom .l, .double => .fcvtDL
  | .fcvtFrom .lu, .single => .fcvtSLu
  | .fcvtFrom .lu, .double => .fcvtDLu

def MoveOp.type : MoveOp → Precision → InsnType
  | .fmvX, .single => .fmvXW
  | .fmvX, .double => .fmvXD
  | .fclass, .single => .fclassS
  | .fclass, .double => .fclassD
  | .fmvF, .single => .fmvWX
  | .fmvF, .double => .fmvDX

def BranchOp.type : BranchOp → InsnType
  | .beq => .beq
  | .bne => .bne
  | .blt => .blt
  | .bge => .bge
  | .bltu => .bltu
  | .bgeu => .bgeu

def CsrOp.type : CsrOp → InsnType
  | .csrrw => .csrrw
  | .csrrs => .csrrs
  | .csrrc => .csrrc
  | .csrrwi => .csrrwi
  | .csrrsi => .csrrsi
  | .csrrci => .csrrci

/-- The type and the operands of an instruction in the record of the decoder, which held `old`
before. There is no type for an EBREAK. -/
def Instr.record (old : Insn) : Instr → Insn
  | .load op rd rs1 imm => { type := op.type, rd, rs1, imm := imm.signExtend 32 }
  | .loadFp p rd rs1 imm => { type := p.loadType, rd, rs1, imm := imm.signExtend 32 }
  | .fence _ _ _ => { type := .fence }
  | .fenceI => { type := .fenceI }
  | .opImm op rd rs1 imm => { type := op.type, rd, rs1, imm := imm.signExtend 32 }
  | .shiftImm op rd rs1 shamt =>
      { type := op.type, rd, rs1, imm := op.tag + shamt.setWidth 32 }
  | .auipc rd imm => { type := .auipc, rd, imm := imm ++ 0#12 }
  | .addiw rd rs1 imm => { type := .addiw, rd, rs1, imm := imm.signExtend 32 }
  | .shiftImm32 op rd rs1 shamt =>
      { type := op.type32, rd, rs1, imm := op.tag + shamt.setWidth 32 }
  | .store op rs1 rs2 imm => { type := op.type, rs1, rs2, imm := imm.signExtend 32 }
  | .storeFp p rs1 rs2 imm => { type := p.storeType, rs1, rs2, imm := imm.signExtend 32 }
  | .reg op rd rs1 rs2 => { type := op.type, rd, rs1, rs2 }
  | .lui rd imm => { type := .lui, rd, imm := imm ++ 0#12 }
  | .reg32 op rd rs1 rs2 => { type := op.type, rd, rs1, rs2 }
  | .fused op p rd rs1 rs2 rs3 _ => { type := op.type p, rd, rs1, rs2, rs3 }
  | .arith op p rd rs1 rs2 _ => { type := op.type p, rd, rs1, rs2 }
  | .pair op p rd rs1 rs2 => { type := op.type p, rd, rs1, rs2 }
  | .round op p rd rs1 _ => { type := op.type p, rd, rs1, rs2 := op.code p }
  | .move op p rd rs1 => { type := op.type p, rd, rs1 }
  | .branch op rs1 rs2 offset =>
      { type := op.type, rs1, rs2, imm := (offset ++ 0#1).signExtend 32 }
  | .jalr rd rs1 imm => { type := .jalr, rd, rs1, imm := imm.signExtend 32, cont := true }
  | .jal rd offset => { type := .jal, rd, imm := (offset ++ 0#1).signExtend 32, cont := true }
  | .ecall => { old with type := .ecall, cont := true }
  | .ebreak => old
  | .csr op rd rs1 number => { type := op.type, rd, rs1, csr := number.setWidth 16 }

/-- The instructions that end a block. -/
def Instr.Jumps : Instr → Prop
  | .jalr _ _ _ => True
  | .jal _ _ => True
  | .ecall => True
  | _ => False

end Encoding

namespace RiscvEmu

open BitFields Encoding

/-! ## Reading the parts of a word -/

section Word

variable (old : Insn) (top : BitVec 12) (rs1 : Reg) (funct3 : BitVec 3) (rd : Reg)
  (group : BitVec 5)

theorem insnDecode_word : insnDecode old (word top rs1 funct3 rd group) =
    decodeQuadrant3 old (word top rs1 funct3 rd group) := by
  simp only [insnDecode, Field.toNat_quadrant, low_word]
  rfl

theorem toNat_opcode_word :
    (Field.opcode (word top rs1 funct3 rd group)).toNat = group.toNat := by
  rw [Field.toNat_opcode, group_word]

theorem toNat_funct3_word :
    (Field.funct3 (word top rs1 funct3 rd group)).toNat = funct3.toNat := by
  rw [Field.toNat_funct3, funct3_word]

theorem toNat_funct2_word : (Field.funct2 (word top rs1 funct3 rd group)).toNat =
    (top.extractLsb' 5 2).toNat := by
  rw [Field.toNat_funct2, top_word _ _ _ _ _ 5 2]

theorem toNat_funct7_word : (Field.funct7 (word top rs1 funct3 rd group)).toNat =
    (top.extractLsb' 5 7).toNat := by
  rw [Field.toNat_funct7, top_word _ _ _ _ _ 5 7]

theorem toNat_imm116_word : (Field.imm116 (word top rs1 funct3 rd group)).toNat =
    (top.extractLsb' 6 6).toNat := by
  rw [Field.toNat_imm116, top_word _ _ _ _ _ 6 6]

theorem rs2_word : Field.rs2 (word top rs1 funct3 rd group) = top.extractLsb' 0 5 := by
  rw [Field.rs2_eq, top_word _ _ _ _ _ 0 5]

theorem insnItypeRead_word : insnItypeRead (word top rs1 funct3 rd group) =
    { imm := top.signExtend 32, rs1, rd } := by
  have imm := insnItypeRead_imm (word top rs1 funct3 rd group)
  rw [top_word _ _ _ _ _ 0 12, BitVec.extractLsb'_eq_self] at imm
  rw [← imm]
  simp only [insnItypeRead, Field.rs1_eq, Field.rd_eq, rs1_word, rd_word]

end Word

section RegisterFormat

variable (funct7 : BitVec 7) (rs2 rs1 : Reg) (funct3 : BitVec 3) (rd : Reg) (group : BitVec 5)

theorem toNat_funct7_rType :
    (Field.funct7 (rType funct7 rs2 rs1 funct3 rd group)).toNat = funct7.toNat := by
  rw [rType, toNat_funct7_word]
  exact congrArg BitVec.toNat ((extract_append_above funct7 rs2 0 7).trans
    BitVec.extractLsb'_eq_self)

theorem rs2_rType : Field.rs2 (rType funct7 rs2 rs1 funct3 rd group) = rs2 := by
  rw [rType, rs2_word]
  exact extract_append_right funct7 rs2

theorem insnRtypeRead_rType : insnRtypeRead (rType funct7 rs2 rs1 funct3 rd group) =
    { rs1, rs2, rd } := by
  have first : Field.rs1 (rType funct7 rs2 rs1 funct3 rd group) = rs1 := by
    rw [rType, Field.rs1_eq, rs1_word]
  have dest : Field.rd (rType funct7 rs2 rs1 funct3 rd group) = rd := by
    rw [rType, Field.rd_eq, rd_word]
  rw [insnRtypeRead, first, dest, rs2_rType]

end RegisterFormat

section Formats

variable (rs1 rs2 rs3 rd : Reg) (funct3 : BitVec 3) (group : BitVec 5)

theorem toNat_funct2_r4Type (funct2 : BitVec 2) :
    (Field.funct2 (r4Type rs3 funct2 rs2 rs1 funct3 rd group)).toNat = funct2.toNat := by
  rw [r4Type, toNat_funct2_word]
  exact congrArg BitVec.toNat ((extract_append_above (rs3 ++ funct2) rs2 0 2).trans
    (extract_append_right rs3 funct2))

theorem insnFprtypeRead_r4Type (funct2 : BitVec 2) :
    insnFprtypeRead (r4Type rs3 funct2 rs2 rs1 funct3 rd group) = { rs1, rs2, rs3, rd } := by
  have first : Field.rs1 (r4Type rs3 funct2 rs2 rs1 funct3 rd group) = rs1 := by
    rw [r4Type, Field.rs1_eq, rs1_word]
  have dest : Field.rd (r4Type rs3 funct2 rs2 rs1 funct3 rd group) = rd := by
    rw [r4Type, Field.rd_eq, rd_word]
  have second : Field.rs2 (r4Type rs3 funct2 rs2 rs1 funct3 rd group) = rs2 := by
    rw [r4Type, rs2_word]
    exact extract_append_right _ rs2
  have third : Field.rs3 (r4Type rs3 funct2 rs2 rs1 funct3 rd group) = rs3 := by
    rw [r4Type, Field.rs3_eq, top_word _ _ _ _ _ 7 5]
    exact (extract_append_above _ rs2 2 5).trans ((extract_append_above rs3 funct2 0 5).trans
      BitVec.extractLsb'_eq_self)
  rw [insnFprtypeRead, first, dest, second, third]

theorem insnUtypeRead_uType (imm : BitVec 20) :
    insnUtypeRead (uType imm rd group) = { imm := imm ++ 0#12, rd } := by
  have upper : (uType imm rd group).extractLsb' 12 20 = imm := by
    have two := append_extract imm 3 12 5
    have three := append_extract imm 0 17 3
    apply (above_word _ _ _ _ _ 0 20).trans
    rw [BitVec.extractLsb'_eq_self, two, three, BitVec.extractLsb'_eq_self]
  have value := insnUtypeRead_imm (uType imm rd group)
  rw [upper] at value
  rw [← value]
  simp only [insnUtypeRead, uType, Field.rd_eq, rd_word]

theorem insnStypeRead_sType (imm : BitVec 12) :
    insnStypeRead (sType imm rs2 rs1 funct3 group) = { imm := imm.signExtend 32, rs1, rs2 } := by
  have first : Field.rs1 (sType imm rs2 rs1 funct3 group) = rs1 := by
    rw [sType, Field.rs1_eq, rs1_word]
  have second : Field.rs2 (sType imm rs2 rs1 funct3 group) = rs2 := by
    rw [sType, rs2_word]
    exact extract_append_right _ rs2
  have upper : (sType imm rs2 rs1 funct3 group).extractLsb' 25 7 = imm.extractLsb' 5 7 :=
    (top_word _ _ _ _ _ 5 7).trans (extract_append_left _ rs2)
  have lower : (sType imm rs2 rs1 funct3 group).extractLsb' 7 5 = imm.extractLsb' 0 5 :=
    rd_word _ _ _ _ _
  have whole : imm.extractLsb' 5 7 ++ imm.extractLsb' 0 5 = imm :=
    (append_extract imm 0 7 5).trans BitVec.extractLsb'_eq_self
  have value := insnStypeRead_imm (sType imm rs2 rs1 funct3 group)
  rw [upper, lower, whole] at value
  rw [← value]
  simp only [insnStypeRead, first, second]

theorem insnBtypeRead_bType (offset : BitVec 12) :
    insnBtypeRead (bType offset rs2 rs1 funct3 group) =
      { imm := (offset ++ 0#1).signExtend 32, rs1, rs2 } := by
  have first : Field.rs1 (bType offset rs2 rs1 funct3 group) = rs1 := by
    rw [bType, Field.rs1_eq, rs1_word]
  have second : Field.rs2 (bType offset rs2 rs1 funct3 group) = rs2 := by
    rw [bType, rs2_word]
    exact extract_append_right _ rs2
  have imm12 : (bType offset rs2 rs1 funct3 group).extractLsb' 31 1 = offset.extractLsb' 11 1 :=
    (top_word _ _ _ _ _ 11 1).trans <| (extract_append_above _ rs2 6 1).trans
      (extract_append_left _ _)
  have imm105 : (bType offset rs2 rs1 funct3 group).extractLsb' 25 6 = offset.extractLsb' 4 6 :=
    (top_word _ _ _ _ _ 5 6).trans <| (extract_append_above _ rs2 0 6).trans
      (extract_append_right _ _)
  have imm41 : (bType offset rs2 rs1 funct3 group).extractLsb' 8 4 = offset.extractLsb' 0 4 :=
    (part_rd_word _ _ _ _ _ (s := 1) (by omega)).trans (extract_append_left _ _)
  have imm11 : (bType offset rs2 rs1 funct3 group).extractLsb' 7 1 = offset.extractLsb' 10 1 :=
    (part_rd_word _ _ _ _ _ (s := 0) (by omega)).trans (extract_append_right _ _)
  have whole : offset.extractLsb' 11 1 ++ offset.extractLsb' 10 1 ++ offset.extractLsb' 4 6 ++
      offset.extractLsb' 0 4 = offset := by
    have two := append_extract offset 10 1 1
    have three := append_extract offset 4 2 6
    have four := append_extract offset 0 8 4
    rw [two, three, four, BitVec.extractLsb'_eq_self]
  have value := insnBtypeRead_imm (bType offset rs2 rs1 funct3 group)
  rw [imm12, imm105, imm41, imm11, whole] at value
  rw [← value]
  simp only [insnBtypeRead, first, second]

theorem insnJtypeRead_jType (offset : BitVec 20) :
    insnJtypeRead (jType offset rd group) = { imm := (offset ++ 0#1).signExtend 32, rd } := by
  have imm20 : (jType offset rd group).extractLsb' 31 1 = offset.extractLsb' 19 1 :=
    (top_word _ _ _ _ _ 11 1).trans <| (extract_append_above _ _ 10 1).trans
      (extract_append_left _ _)
  have imm101 : (jType offset rd group).extractLsb' 21 10 = offset.extractLsb' 0 10 :=
    (top_word _ _ _ _ _ 1 10).trans <| (extract_append_above _ _ 0 10).trans
      (extract_append_right _ _)
  have imm11 : (jType offset rd group).extractLsb' 20 1 = offset.extractLsb' 10 1 :=
    (top_word _ _ _ _ _ 0 1).trans (extract_append_right _ _)
  have imm1912 : (jType offset rd group).extractLsb' 12 8 = offset.extractLsb' 11 8 :=
    (extract_eq_append_iff.mpr ⟨rs1_word _ _ _ _ _, funct3_word _ _ _ _ _⟩).trans
      (append_extract offset 11 5 3)
  have whole : offset.extractLsb' 19 1 ++ offset.extractLsb' 11 8 ++ offset.extractLsb' 10 1 ++
      offset.extractLsb' 0 10 = offset := by
    have two := append_extract offset 11 1 8
    have three := append_extract offset 10 9 1
    have four := append_extract offset 0 10 10
    rw [two, three, four, BitVec.extractLsb'_eq_self]
  have value := insnJtypeRead_imm (jType offset rd group)
  rw [imm20, imm101, imm11, imm1912, whole] at value
  rw [← value]
  simp only [insnJtypeRead, jType, Field.rd_eq, rd_word]

theorem insnCsrtypeRead_word (number : BitVec 12) :
    insnCsrtypeRead (word number rs1 funct3 rd group) =
      { csr := number.setWidth 16, rs1, rd } := by
  have value := insnCsrtypeRead_csr (word number rs1 funct3 rd group)
  rw [top_word _ _ _ _ _ 0 12, BitVec.extractLsb'_eq_self] at value
  rw [← value]
  simp only [insnCsrtypeRead, Field.rs1_eq, Field.rd_eq, rs1_word, rd_word]

end Formats

/-! ## Instructions -/

variable (old : Insn)

theorem insnDecode_load (op : LoadOp) (rd rs1 : Reg) (imm : BitVec 12) :
    insnDecode old (Instr.load op rd rs1 imm).encode = .ok ((Instr.load op rd rs1 imm).record old) := by
  rw [Instr.encode, iType, insnDecode_word, decodeQuadrant3, toNat_opcode_word]
  change decodeLoad _ = _
  rw [decodeLoad, toNat_funct3_word, insnItypeRead_word]
  cases op <;> rfl

theorem imm116_word (funct6 : BitVec 6) (shamt : BitVec 6) (rs1 : Reg) (funct3 : BitVec 3) (rd : Reg)
    (group : BitVec 5) :
    Field.imm116 (word (funct6 ++ shamt) rs1 funct3 rd group) = funct6.setWidth 32 := by
  apply BitVec.eq_of_toNat_eq
  rw [toNat_imm116_word, BitVec.toNat_setWidth_of_le (by omega)]
  exact congrArg BitVec.toNat ((extract_append_above funct6 shamt 0 6).trans
    BitVec.extractLsb'_eq_self)

/-- The immediate of a shift. -/
theorem signExtend_shift (op : ShiftOp) (shamt : BitVec 6) :
    (op.funct6 ++ shamt).signExtend 32 = op.tag + shamt.setWidth 32 := by
  cases op <;> revert shamt <;> decide

theorem insnDecode_shiftImm (op : ShiftOp) (rd rs1 : Reg) (shamt : BitVec 6) :
    insnDecode old (Instr.shiftImm op rd rs1 shamt).encode =
      .ok ((Instr.shiftImm op rd rs1 shamt).record old) := by
  rw [Instr.encode, iType, insnDecode_word, decodeQuadrant3, toNat_opcode_word]
  change decodeOpImm _ = _
  rw [decodeOpImm, toNat_funct3_word, insnItypeRead_word, imm116_word, signExtend_shift]
  cases op <;> rfl

theorem insnDecode_shiftImm32 (op : ShiftOp) (rd rs1 : Reg) (shamt : BitVec 5) :
    insnDecode old (Instr.shiftImm32 op rd rs1 shamt).encode =
      .ok ((Instr.shiftImm32 op rd rs1 shamt).record old) := by
  have immediate : (op.funct6 ++ 0#1 ++ shamt).signExtend 32 = op.tag + shamt.setWidth 32 := by
    cases op <;> revert shamt <;> decide
  have above : (Field.funct7 (word (op.funct6 ++ 0#1 ++ shamt) rs1 op.funct3 rd 0x06)).toNat =
      (op.funct6 ++ 0#1).toNat := toNat_funct7_rType (op.funct6 ++ 0#1) shamt ..
  have equal : Field.funct7 (word (op.funct6 ++ 0#1 ++ shamt) rs1 op.funct3 rd 0x06) =
      (op.funct6 ++ 0#1).setWidth 32 := by
    apply BitVec.eq_of_toNat_eq
    rw [above, BitVec.toNat_setWidth_of_le (by omega)]
  rw [Instr.encode, iType, insnDecode_word, decodeQuadrant3, toNat_opcode_word]
  change decodeOpImm32 _ = _
  rw [decodeOpImm32, toNat_funct3_word, insnItypeRead_word, equal, immediate]
  cases op <;> rfl

theorem insnDecode_reg (op : RegOp) (rd rs1 rs2 : Reg) :
    insnDecode old (Instr.reg op rd rs1 rs2).encode =
      .ok ((Instr.reg op rd rs1 rs2).record old) := by
  rw [Instr.encode, rType, insnDecode_word, decodeQuadrant3, toNat_opcode_word, ← rType]
  change decodeOp _ = _
  rw [decodeOp, toNat_funct7_rType, insnRtypeRead_rType, rType, toNat_funct3_word]
  cases op <;> rfl

theorem insnDecode_arith (op : ArithOp) (p : Precision) (rd rs1 rs2 : Reg) (rm : BitVec 3) :
    insnDecode old (Instr.arith op p rd rs1 rs2 rm).encode =
      .ok ((Instr.arith op p rd rs1 rs2 rm).record old) := by
  rw [Instr.encode, rType, insnDecode_word, decodeQuadrant3, toNat_opcode_word, ← rType]
  change decodeOpFp _ = _
  rw [decodeOpFp, toNat_funct7_rType, insnRtypeRead_rType]
  cases op <;> cases p <;> rfl

theorem insnDecode_pair (op : PairOp) (p : Precision) (rd rs1 rs2 : Reg) :
    insnDecode old (Instr.pair op p rd rs1 rs2).encode =
      .ok ((Instr.pair op p rd rs1 rs2).record old) := by
  rw [Instr.encode, rType, insnDecode_word, decodeQuadrant3, toNat_opcode_word, ← rType]
  change decodeOpFp _ = _
  simp only [decodeOpFp, decodeFunct3Of3, decodeFunct3Of2]
  rw [toNat_funct7_rType, insnRtypeRead_rType, rType, toNat_funct3_word]
  cases op <;> cases p <;> rfl

theorem insnDecode_round (op : RoundOp) (p : Precision) (rd rs1 : Reg) (rm : BitVec 3) :
    insnDecode old (Instr.round op p rd rs1 rm).encode =
      .ok ((Instr.round op p rd rs1 rm).record old) := by
  rw [Instr.encode, rType, insnDecode_word, decodeQuadrant3, toNat_opcode_word, ← rType]
  change decodeOpFp _ = _
  rw [decodeOpFp, toNat_funct7_rType, insnRtypeRead_rType]
  simp only [decodeRs2Of4, rs2_rType]
  rcases op with _ | _ | int | int
  · cases p <;> rfl
  · cases p <;> rfl
  all_goals cases int <;> cases p <;> rfl

theorem insnDecode_loadFp (p : Precision) (rd rs1 : Reg) (imm : BitVec 12) :
    insnDecode old (Instr.loadFp p rd rs1 imm).encode =
      .ok ((Instr.loadFp p rd rs1 imm).record old) := by
  rw [Instr.encode, iType, insnDecode_word, decodeQuadrant3, toNat_opcode_word]
  change decodeLoadFp _ = _
  rw [decodeLoadFp, toNat_funct3_word, insnItypeRead_word]
  cases p <;> rfl

theorem insnDecode_fence (fm pred succ : BitVec 4) :
    insnDecode old (Instr.fence fm pred succ).encode =
      .ok ((Instr.fence fm pred succ).record old) := by
  rw [Instr.encode, iType, insnDecode_word, decodeQuadrant3, toNat_opcode_word]
  change decodeMiscMem _ = _
  rw [decodeMiscMem, toNat_funct3_word]
  rfl

theorem insnDecode_opImm (op : ImmOp) (rd rs1 : Reg) (imm : BitVec 12) :
    insnDecode old (Instr.opImm op rd rs1 imm).encode =
      .ok ((Instr.opImm op rd rs1 imm).record old) := by
  rw [Instr.encode, iType, insnDecode_word, decodeQuadrant3, toNat_opcode_word]
  change decodeOpImm _ = _
  rw [decodeOpImm, toNat_funct3_word, insnItypeRead_word]
  cases op <;> rfl

theorem insnDecode_addiw (rd rs1 : Reg) (imm : BitVec 12) :
    insnDecode old (Instr.addiw rd rs1 imm).encode =
      .ok ((Instr.addiw rd rs1 imm).record old) := by
  rw [Instr.encode, iType, insnDecode_word, decodeQuadrant3, toNat_opcode_word]
  change decodeOpImm32 _ = _
  rw [decodeOpImm32, toNat_funct3_word, insnItypeRead_word]
  rfl

theorem insnDecode_auipc (rd : Reg) (imm : BitVec 20) :
    insnDecode old (Instr.auipc rd imm).encode = .ok ((Instr.auipc rd imm).record old) := by
  rw [Instr.encode, uType, insnDecode_word, decodeQuadrant3, toNat_opcode_word, ← uType]
  change Except.ok { insnUtypeRead _ with type := InsnType.auipc } = _
  rw [insnUtypeRead_uType]
  rfl

theorem insnDecode_lui (rd : Reg) (imm : BitVec 20) :
    insnDecode old (Instr.lui rd imm).encode = .ok ((Instr.lui rd imm).record old) := by
  rw [Instr.encode, uType, insnDecode_word, decodeQuadrant3, toNat_opcode_word, ← uType]
  change Except.ok { insnUtypeRead _ with type := InsnType.lui } = _
  rw [insnUtypeRead_uType]
  rfl

theorem insnDecode_store (op : StoreOp) (rs1 rs2 : Reg) (imm : BitVec 12) :
    insnDecode old (Instr.store op rs1 rs2 imm).encode =
      .ok ((Instr.store op rs1 rs2 imm).record old) := by
  rw [Instr.encode, sType, insnDecode_word, decodeQuadrant3, toNat_opcode_word, ← sType]
  change decodeStore _ = _
  rw [decodeStore, insnStypeRead_sType, sType, toNat_funct3_word]
  cases op <;> rfl

theorem insnDecode_storeFp (p : Precision) (rs1 rs2 : Reg) (imm : BitVec 12) :
    insnDecode old (Instr.storeFp p rs1 rs2 imm).encode =
      .ok ((Instr.storeFp p rs1 rs2 imm).record old) := by
  rw [Instr.encode, sType, insnDecode_word, decodeQuadrant3, toNat_opcode_word, ← sType]
  change decodeStoreFp _ = _
  rw [decodeStoreFp, insnStypeRead_sType, sType, toNat_funct3_word]
  cases p <;> rfl

theorem insnDecode_reg32 (op : RegOp32) (rd rs1 rs2 : Reg) :
    insnDecode old (Instr.reg32 op rd rs1 rs2).encode =
      .ok ((Instr.reg32 op rd rs1 rs2).record old) := by
  rw [Instr.encode, rType, insnDecode_word, decodeQuadrant3, toNat_opcode_word, ← rType]
  change decodeOp32 _ = _
  rw [decodeOp32, toNat_funct7_rType, insnRtypeRead_rType, rType, toNat_funct3_word]
  cases op <;> rfl

theorem insnDecode_fused (op : FusedOp) (p : Precision) (rd rs1 rs2 rs3 : Reg) (rm : BitVec 3) :
    insnDecode old (Instr.fused op p rd rs1 rs2 rs3 rm).encode =
      .ok ((Instr.fused op p rd rs1 rs2 rs3 rm).record old) := by
  rw [Instr.encode, r4Type, insnDecode_word, decodeQuadrant3, toNat_opcode_word, ← r4Type]
  have fused (single double : InsnType) :
      decodeFused single double (r4Type rs3 p.fmt rs2 rs1 rm rd op.group) =
        match p with
        | .single => .ok { type := single, rd, rs1, rs2, rs3 }
        | .double => .ok { type := double, rd, rs1, rs2, rs3 } := by
    rw [decodeFused, toNat_funct2_r4Type, insnFprtypeRead_r4Type]
    cases p <;> rfl
  cases op
  · exact (fused .fmaddS .fmaddD).trans (by cases p <;> rfl)
  · exact (fused .fmsubS .fmsubD).trans (by cases p <;> rfl)
  · exact (fused .fnmsubS .fnmsubD).trans (by cases p <;> rfl)
  · exact (fused .fnmaddS .fnmaddD).trans (by cases p <;> rfl)

theorem insnDecode_move (op : MoveOp) (p : Precision) (rd rs1 : Reg) :
    insnDecode old (Instr.move op p rd rs1).encode =
      .ok ((Instr.move op p rd rs1).record old) := by
  have zero : Field.rs2 (rType (op.funct5 ++ p.fmt) 0 rs1 op.funct3 rd 0x14) = 0 := rs2_rType ..
  have third : Field.funct3 (rType (op.funct5 ++ p.fmt) 0 rs1 op.funct3 rd 0x14) =
      op.funct3.setWidth 32 := by
    apply BitVec.eq_of_toNat_eq
    rw [rType, toNat_funct3_word, BitVec.toNat_setWidth_of_le (by omega)]
  rw [Instr.encode, rType, insnDecode_word, decodeQuadrant3, toNat_opcode_word, ← rType]
  change decodeOpFp _ = _
  simp only [decodeOpFp, decodeFunct3Of2, zero, third]
  rw [toNat_funct7_rType, insnRtypeRead_rType]
  cases op <;> cases p <;> rfl

theorem insnDecode_branch (op : BranchOp) (rs1 rs2 : Reg) (offset : BitVec 12) :
    insnDecode old (Instr.branch op rs1 rs2 offset).encode =
      .ok ((Instr.branch op rs1 rs2 offset).record old) := by
  rw [Instr.encode, bType, insnDecode_word, decodeQuadrant3, toNat_opcode_word, ← bType]
  change decodeBranch _ = _
  rw [decodeBranch, insnBtypeRead_bType, bType, toNat_funct3_word]
  cases op <;> rfl

theorem insnDecode_jalr (rd rs1 : Reg) (imm : BitVec 12) :
    insnDecode old (Instr.jalr rd rs1 imm).encode =
      .ok ((Instr.jalr rd rs1 imm).record old) := by
  rw [Instr.encode, iType, insnDecode_word, decodeQuadrant3, toNat_opcode_word]
  change Except.ok { insnItypeRead _ with type := InsnType.jalr, cont := true } = _
  rw [insnItypeRead_word]
  rfl

theorem insnDecode_jal (rd : Reg) (offset : BitVec 20) :
    insnDecode old (Instr.jal rd offset).encode = .ok ((Instr.jal rd offset).record old) := by
  rw [Instr.encode, jType, insnDecode_word, decodeQuadrant3, toNat_opcode_word, ← jType]
  change Except.ok { insnJtypeRead _ with type := InsnType.jal, cont := true } = _
  rw [insnJtypeRead_jType]
  rfl

theorem insnDecode_csr (op : CsrOp) (rd rs1 : Reg) (number : BitVec 12) :
    insnDecode old (Instr.csr op rd rs1 number).encode =
      .ok ((Instr.csr op rd rs1 number).record old) := by
  have other : (Instr.csr op rd rs1 number).encode ≠ 0x73 := by
    intro same
    have third := congrArg (fun data => (Field.funct3 data).toNat) same
    simp only [Instr.encode, iType, toNat_funct3_word] at third
    cases op <;> cases third
  rw [Instr.encode, iType] at other ⊢
  rw [insnDecode_word, decodeQuadrant3, toNat_opcode_word]
  change decodeSystem old _ = _
  rw [decodeSystem, if_neg other]
  rw [toNat_funct3_word, insnCsrtypeRead_word]
  cases op <;> rfl

/-- **Decoding an encoded instruction** gives its record. -/
theorem insnDecode_encode (i : Instr) (supported : i ≠ .ebreak) :
    insnDecode old i.encode = .ok (i.record old) := by
  cases i with
  | load op rd rs1 imm => exact insnDecode_load old op rd rs1 imm
  | loadFp p rd rs1 imm => exact insnDecode_loadFp old p rd rs1 imm
  | fence fm pred succ => exact insnDecode_fence old fm pred succ
  | fenceI => rfl
  | opImm op rd rs1 imm => exact insnDecode_opImm old op rd rs1 imm
  | shiftImm op rd rs1 shamt => exact insnDecode_shiftImm old op rd rs1 shamt
  | auipc rd imm => exact insnDecode_auipc old rd imm
  | addiw rd rs1 imm => exact insnDecode_addiw old rd rs1 imm
  | shiftImm32 op rd rs1 shamt => exact insnDecode_shiftImm32 old op rd rs1 shamt
  | store op rs1 rs2 imm => exact insnDecode_store old op rs1 rs2 imm
  | storeFp p rs1 rs2 imm => exact insnDecode_storeFp old p rs1 rs2 imm
  | reg op rd rs1 rs2 => exact insnDecode_reg old op rd rs1 rs2
  | lui rd imm => exact insnDecode_lui old rd imm
  | reg32 op rd rs1 rs2 => exact insnDecode_reg32 old op rd rs1 rs2
  | fused op p rd rs1 rs2 rs3 rm => exact insnDecode_fused old op p rd rs1 rs2 rs3 rm
  | arith op p rd rs1 rs2 rm => exact insnDecode_arith old op p rd rs1 rs2 rm
  | pair op p rd rs1 rs2 => exact insnDecode_pair old op p rd rs1 rs2
  | round op p rd rs1 rm => exact insnDecode_round old op p rd rs1 rm
  | move op p rd rs1 => exact insnDecode_move old op p rd rs1
  | branch op rs1 rs2 offset => exact insnDecode_branch old op rs1 rs2 offset
  | jalr rd rs1 imm => exact insnDecode_jalr old rd rs1 imm
  | jal rd offset => exact insnDecode_jal old rd offset
  | ecall => rfl
  | ebreak => exact absurd rfl supported
  | csr op rd rs1 number => exact insnDecode_csr old op rd rs1 number

/-- **The decoder undoes the encoding.** The word of an instruction gives its type and its
operands, and the flags of a 32-bit instruction that ends its block when it jumps. Only an ECALL
keeps anything of the record from before. -/
theorem decoder_undoes_encoding (i : Instr) (supported : i ≠ .ebreak)
    (fresh : i ≠ .ecall ∨ old.rvc = false) :
    insnDecode old i.encode = .ok (i.record old) ∧ (i.record old).rvc = false ∧
      ((i.record old).cont = true ↔ i.Jumps) := by
  refine ⟨insnDecode_encode old i supported, ?_, ?_⟩
  · cases i with
    | ecall => exact fresh.resolve_left fun other => other rfl
    | ebreak => exact absurd rfl supported
    | _ => rfl
  · cases i with
    | ebreak => exact absurd rfl supported
    | _ => simp [Instr.record, Instr.Jumps]

/-- A jump back by two, after a 16-bit instruction. -/
theorem decoder_undoes_encoding_jal :
    insnDecode { rvc := true } (Instr.jal 1 (-1)).encode =
        .ok ((Instr.jal 1 (-1)).record { rvc := true }) ∧
      ((Instr.jal 1 (-1)).record { rvc := true }).rvc = false ∧
      (((Instr.jal 1 (-1)).record { rvc := true }).cont = true ↔ (Instr.jal 1 (-1)).Jumps) :=
  decoder_undoes_encoding { rvc := true } (.jal 1 (-1)) nofun (.inl nofun)

/-- The recorded immediate of SRAI is not its shift amount, and an ECALL keeps the flag of a
16-bit instruction when the record had it. -/
theorem decoder_keeps_more :
    (∃ insn, insnDecode {} (Instr.shiftImm .sra 1 2 5).encode = .ok insn ∧ insn.imm ≠ 5) ∧
      ∃ insn, insnDecode { rvc := true } Instr.ecall.encode = .ok insn ∧ insn.rvc = true :=
  ⟨⟨_, rfl, by decide⟩, _, rfl, rfl⟩

end RiscvEmu
