import RiscvEmu.Foundation.BitFields

/-!
# The 32-bit words of RV64GC

The instructions of RV64I, M, F, D, Zicsr and Zifencei with their operands, and the word that
the architecture assigns to each.

**Formats.** Every word is cut at the same places: an opcode, `rd`, `funct3`, `rs1` and the
twelve bits above (`word`). The formats of the manual put operands into these parts. Cutting a
word gives back its parts (`group_word` to `top_word`), and any word of the 32-bit space is
put together from its parts (`word_parts`).

**Instructions.** `Instr` lists the instructions by format. The codes of the operations of one
format are functions on an enumeration, and `Instr.encode` is the word. An immediate has the
width it has in the word: a branch or jump offset comes without its last bit, which is zero.
-/

set_option autoImplicit false

namespace Encoding

open BitFields

abbrev Reg := BitVec 5

/-! ## Formats -/

/-- The parts every word has. `group` is the opcode without its last two bits, which are ones. -/
def word (top : BitVec 12) (rs1 : Reg) (funct3 : BitVec 3) (rd : Reg) (group : BitVec 5) :
    BitVec 32 :=
  top ++ rs1 ++ funct3 ++ rd ++ group ++ 3#2

section Parts

variable (top : BitVec 12) (rs1 : Reg) (funct3 : BitVec 3) (rd : Reg) (group : BitVec 5)

theorem low_word : (word top rs1 funct3 rd group).extractLsb' 0 2 = 3#2 :=
  extract_append_right _ _

theorem group_word : (word top rs1 funct3 rd group).extractLsb' 2 5 = group :=
  (extract_append_above _ _ 0 5).trans (extract_append_right _ _)

theorem rd_word : (word top rs1 funct3 rd group).extractLsb' 7 5 = rd :=
  (extract_append_above _ _ 5 5).trans <| (extract_append_above _ _ 0 5).trans
    (extract_append_right _ _)

/-- A run of bits inside `rd`. -/
theorem part_rd_word {s w : Nat} (inside : s + w ≤ 5) :
    (word top rs1 funct3 rd group).extractLsb' (7 + s) w = rd.extractLsb' s w := by
  rw [← extract_extract _ inside, rd_word]

/-- The bits above `rd`. -/
theorem above_word (s w : Nat) : (word top rs1 funct3 rd group).extractLsb' (12 + s) w =
    (top ++ rs1 ++ funct3).extractLsb' s w := by
  have above : 12 + s = 2 + (5 + (5 + s)) := by omega
  rw [above]
  exact (extract_append_above _ _ _ w).trans <| (extract_append_above _ _ _ w).trans
    (extract_append_above _ _ s w)

theorem funct3_word : (word top rs1 funct3 rd group).extractLsb' 12 3 = funct3 :=
  (above_word top rs1 funct3 rd group 0 3).trans (extract_append_right _ _)

theorem rs1_word : (word top rs1 funct3 rd group).extractLsb' 15 5 = rs1 :=
  (above_word top rs1 funct3 rd group 3 5).trans <| (extract_append_above _ _ 0 5).trans
    (extract_append_right _ _)

/-- A run of bits inside the top part. -/
theorem top_word (s w : Nat) :
    (word top rs1 funct3 rd group).extractLsb' (20 + s) w = top.extractLsb' s w := by
  have above : 20 + s = 12 + (3 + (5 + s)) := by omega
  rw [above, above_word]
  exact (extract_append_above _ _ _ w).trans (extract_append_above _ _ s w)

end Parts

/-- **A word is put together from its parts.** -/
theorem word_parts {w : BitVec 32} (low : w.extractLsb' 0 2 = 3#2) :
    word (w.extractLsb' 20 12) (w.extractLsb' 15 5) (w.extractLsb' 12 3) (w.extractLsb' 7 5)
      (w.extractLsb' 2 5) = w := by
  apply BitVec.eq_of_getLsbD_eq
  intro i bound
  rw [word, ← low]
  simp only [BitVec.getLsbD_append]
  split_ifs <;> exact getLsbD_extract (by omega) (by omega)

/-! The formats of the manual. -/

def rType (funct7 : BitVec 7) (rs2 rs1 : Reg) (funct3 : BitVec 3) (rd : Reg) (group : BitVec 5) :
    BitVec 32 :=
  word (funct7 ++ rs2) rs1 funct3 rd group

def r4Type (rs3 : Reg) (funct2 : BitVec 2) (rs2 rs1 : Reg) (funct3 : BitVec 3) (rd : Reg)
    (group : BitVec 5) : BitVec 32 :=
  word (rs3 ++ funct2 ++ rs2) rs1 funct3 rd group

def iType (imm : BitVec 12) (rs1 : Reg) (funct3 : BitVec 3) (rd : Reg) (group : BitVec 5) :
    BitVec 32 :=
  word imm rs1 funct3 rd group

def sType (imm : BitVec 12) (rs2 rs1 : Reg) (funct3 : BitVec 3) (group : BitVec 5) : BitVec 32 :=
  word (imm.extractLsb' 5 7 ++ rs2) rs1 funct3 (imm.extractLsb' 0 5) group

/-- `offset` is `imm[12:1]`; the word holds `imm[12|10:5]` above and `imm[4:1|11]` below. -/
def bType (offset : BitVec 12) (rs2 rs1 : Reg) (funct3 : BitVec 3) (group : BitVec 5) :
    BitVec 32 :=
  word (offset.extractLsb' 11 1 ++ offset.extractLsb' 4 6 ++ rs2) rs1 funct3
    (offset.extractLsb' 0 4 ++ offset.extractLsb' 10 1) group

/-- `imm` is `imm[31:12]`. -/
def uType (imm : BitVec 20) (rd : Reg) (group : BitVec 5) : BitVec 32 :=
  word (imm.extractLsb' 8 12) (imm.extractLsb' 3 5) (imm.extractLsb' 0 3) rd group

/-- `offset` is `imm[20:1]`; the word holds `imm[20|10:1|11|19:12]`. -/
def jType (offset : BitVec 20) (rd : Reg) (group : BitVec 5) : BitVec 32 :=
  word (offset.extractLsb' 19 1 ++ offset.extractLsb' 0 10 ++ offset.extractLsb' 10 1)
    (offset.extractLsb' 14 5) (offset.extractLsb' 11 3) rd group

/-! ## Operations and their codes -/

/-- The operand size of the F and D extensions. -/
inductive Precision where
  | single | double
  deriving DecidableEq

/-- The `fmt` field. -/
def Precision.fmt : Precision → BitVec 2
  | .single => 0
  | .double => 1

/-- The width in FLW, FSW, FLD and FSD. -/
def Precision.width : Precision → BitVec 3
  | .single => 2
  | .double => 3

inductive LoadOp where
  | lb | lh | lw | ld | lbu | lhu | lwu
  deriving DecidableEq

def LoadOp.funct3 : LoadOp → BitVec 3
  | .lb => 0
  | .lh => 1
  | .lw => 2
  | .ld => 3
  | .lbu => 4
  | .lhu => 5
  | .lwu => 6

inductive StoreOp where
  | sb | sh | sw | sd
  deriving DecidableEq

def StoreOp.funct3 : StoreOp → BitVec 3
  | .sb => 0
  | .sh => 1
  | .sw => 2
  | .sd => 3

/-- The operations on a register and an immediate, shifts apart. -/
inductive ImmOp where
  | addi | slti | sltiu | xori | ori | andi
  deriving DecidableEq

def ImmOp.funct3 : ImmOp → BitVec 3
  | .addi => 0
  | .slti => 2
  | .sltiu => 3
  | .xori => 4
  | .ori => 6
  | .andi => 7

/-- The shifts by an immediate, of 64 bits and of 32. -/
inductive ShiftOp where
  | sll | srl | sra
  deriving DecidableEq

def ShiftOp.funct3 : ShiftOp → BitVec 3
  | .sll => 1
  | .srl => 5
  | .sra => 5

/-- The six bits above the shift amount. -/
def ShiftOp.funct6 : ShiftOp → BitVec 6
  | .sll => 0
  | .srl => 0
  | .sra => 0x10

inductive RegOp where
  | add | sll | slt | sltu | xor | srl | or | and | sub | sra
  | mul | mulh | mulhsu | mulhu | div | divu | rem | remu
  deriving DecidableEq

def RegOp.funct3 : RegOp → BitVec 3
  | .add | .sub | .mul => 0
  | .sll | .mulh => 1
  | .slt | .mulhsu => 2
  | .sltu | .mulhu => 3
  | .xor | .div => 4
  | .srl | .sra | .divu => 5
  | .or | .rem => 6
  | .and | .remu => 7

def RegOp.funct7 : RegOp → BitVec 7
  | .add | .sll | .slt | .sltu | .xor | .srl | .or | .and => 0
  | .mul | .mulh | .mulhsu | .mulhu | .div | .divu | .rem | .remu => 1
  | .sub | .sra => 0x20

inductive RegOp32 where
  | addw | sllw | srlw | subw | sraw
  | mulw | divw | divuw | remw | remuw
  deriving DecidableEq

def RegOp32.funct3 : RegOp32 → BitVec 3
  | .addw | .subw | .mulw => 0
  | .sllw => 1
  | .divw => 4
  | .srlw | .sraw | .divuw => 5
  | .remw => 6
  | .remuw => 7

def RegOp32.funct7 : RegOp32 → BitVec 7
  | .addw | .sllw | .srlw => 0
  | .mulw | .divw | .divuw | .remw | .remuw => 1
  | .subw | .sraw => 0x20

inductive BranchOp where
  | beq | bne | blt | bge | bltu | bgeu
  deriving DecidableEq

def BranchOp.funct3 : BranchOp → BitVec 3
  | .beq => 0
  | .bne => 1
  | .blt => 4
  | .bge => 5
  | .bltu => 6
  | .bgeu => 7

inductive CsrOp where
  | csrrw | csrrs | csrrc | csrrwi | csrrsi | csrrci
  deriving DecidableEq

def CsrOp.funct3 : CsrOp → BitVec 3
  | .csrrw => 1
  | .csrrs => 2
  | .csrrc => 3
  | .csrrwi => 5
  | .csrrsi => 6
  | .csrrci => 7

/-- The fused multiplications. -/
inductive FusedOp where
  | fmadd | fmsub | fnmsub | fnmadd
  deriving DecidableEq

def FusedOp.group : FusedOp → BitVec 5
  | .fmadd => 0x10
  | .fmsub => 0x11
  | .fnmsub => 0x12
  | .fnmadd => 0x13

/-- The floating-point operations on two registers that round. -/
inductive ArithOp where
  | fadd | fsub | fmul | fdiv
  deriving DecidableEq

def ArithOp.funct5 : ArithOp → BitVec 5
  | .fadd => 0
  | .fsub => 1
  | .fmul => 2
  | .fdiv => 3

/-- The floating-point operations on two registers that do not round. -/
inductive PairOp where
  | fsgnj | fsgnjn | fsgnjx | fmin | fmax | fle | flt | feq
  deriving DecidableEq

def PairOp.funct5 : PairOp → BitVec 5
  | .fsgnj | .fsgnjn | .fsgnjx => 0x04
  | .fmin | .fmax => 0x05
  | .fle | .flt | .feq => 0x14

def PairOp.funct3 : PairOp → BitVec 3
  | .fsgnj | .fmin | .fle => 0
  | .fsgnjn | .fmax | .flt => 1
  | .fsgnjx | .feq => 2

/-- The integers that a floating-point number is converted to or from. -/
inductive IntFormat where
  | w | wu | l | lu
  deriving DecidableEq

def IntFormat.code : IntFormat → BitVec 5
  | .w => 0
  | .wu => 1
  | .l => 2
  | .lu => 3

/-- The floating-point operations on one register that round: a square root, a conversion
from the other precision, and the conversions to and from an integer. -/
inductive RoundOp where
  | fsqrt | fcvt | fcvtTo (int : IntFormat) | fcvtFrom (int : IntFormat)
  deriving DecidableEq

def RoundOp.funct5 : RoundOp → BitVec 5
  | .fcvt => 0x08
  | .fsqrt => 0x0b
  | .fcvtTo _ => 0x18
  | .fcvtFrom _ => 0x1a

/-- What stands in the place of `rs2`. -/
def RoundOp.code : RoundOp → Precision → BitVec 5
  | .fsqrt, _ => 0
  | .fcvt, .single => 1
  | .fcvt, .double => 0
  | .fcvtTo int, _ => int.code
  | .fcvtFrom int, _ => int.code

/-- The moves between the register files, and the classification. -/
inductive MoveOp where
  | fmvX | fclass | fmvF
  deriving DecidableEq

def MoveOp.funct5 : MoveOp → BitVec 5
  | .fmvX | .fclass => 0x1c
  | .fmvF => 0x1e

def MoveOp.funct3 : MoveOp → BitVec 3
  | .fmvX | .fmvF => 0
  | .fclass => 1

/-! ## Instructions -/

/-- An instruction with its operands; `rm` is a rounding mode. -/
inductive Instr where
  | load (op : LoadOp) (rd rs1 : Reg) (imm : BitVec 12)
  | loadFp (p : Precision) (rd rs1 : Reg) (imm : BitVec 12)
  | fence (fm pred succ : BitVec 4)
  | fenceI
  | opImm (op : ImmOp) (rd rs1 : Reg) (imm : BitVec 12)
  | shiftImm (op : ShiftOp) (rd rs1 : Reg) (shamt : BitVec 6)
  | auipc (rd : Reg) (imm : BitVec 20)
  | addiw (rd rs1 : Reg) (imm : BitVec 12)
  | shiftImm32 (op : ShiftOp) (rd rs1 : Reg) (shamt : BitVec 5)
  | store (op : StoreOp) (rs1 rs2 : Reg) (imm : BitVec 12)
  | storeFp (p : Precision) (rs1 rs2 : Reg) (imm : BitVec 12)
  | reg (op : RegOp) (rd rs1 rs2 : Reg)
  | lui (rd : Reg) (imm : BitVec 20)
  | reg32 (op : RegOp32) (rd rs1 rs2 : Reg)
  | fused (op : FusedOp) (p : Precision) (rd rs1 rs2 rs3 : Reg) (rm : BitVec 3)
  | arith (op : ArithOp) (p : Precision) (rd rs1 rs2 : Reg) (rm : BitVec 3)
  | pair (op : PairOp) (p : Precision) (rd rs1 rs2 : Reg)
  | round (op : RoundOp) (p : Precision) (rd rs1 : Reg) (rm : BitVec 3)
  | move (op : MoveOp) (p : Precision) (rd rs1 : Reg)
  | branch (op : BranchOp) (rs1 rs2 : Reg) (offset : BitVec 12)
  | jalr (rd rs1 : Reg) (imm : BitVec 12)
  | jal (rd : Reg) (offset : BitVec 20)
  | ecall
  | ebreak
  | csr (op : CsrOp) (rd rs1 : Reg) (number : BitVec 12)

/-- **The word of an instruction.** -/
def Instr.encode : Instr → BitVec 32
  | .load op rd rs1 imm => iType imm rs1 op.funct3 rd 0x00
  | .loadFp p rd rs1 imm => iType imm rs1 p.width rd 0x01
  | .fence fm pred succ => iType (fm ++ pred ++ succ) 0 0 0 0x03
  | .fenceI => iType 0 0 1 0 0x03
  | .opImm op rd rs1 imm => iType imm rs1 op.funct3 rd 0x04
  | .shiftImm op rd rs1 shamt => iType (op.funct6 ++ shamt) rs1 op.funct3 rd 0x04
  | .auipc rd imm => uType imm rd 0x05
  | .addiw rd rs1 imm => iType imm rs1 0 rd 0x06
  | .shiftImm32 op rd rs1 shamt => iType (op.funct6 ++ 0#1 ++ shamt) rs1 op.funct3 rd 0x06
  | .store op rs1 rs2 imm => sType imm rs2 rs1 op.funct3 0x08
  | .storeFp p rs1 rs2 imm => sType imm rs2 rs1 p.width 0x09
  | .reg op rd rs1 rs2 => rType op.funct7 rs2 rs1 op.funct3 rd 0x0c
  | .lui rd imm => uType imm rd 0x0d
  | .reg32 op rd rs1 rs2 => rType op.funct7 rs2 rs1 op.funct3 rd 0x0e
  | .fused op p rd rs1 rs2 rs3 rm => r4Type rs3 p.fmt rs2 rs1 rm rd op.group
  | .arith op p rd rs1 rs2 rm => rType (op.funct5 ++ p.fmt) rs2 rs1 rm rd 0x14
  | .pair op p rd rs1 rs2 => rType (op.funct5 ++ p.fmt) rs2 rs1 op.funct3 rd 0x14
  | .round op p rd rs1 rm => rType (op.funct5 ++ p.fmt) (op.code p) rs1 rm rd 0x14
  | .move op p rd rs1 => rType (op.funct5 ++ p.fmt) 0 rs1 op.funct3 rd 0x14
  | .branch op rs1 rs2 offset => bType offset rs2 rs1 op.funct3 0x18
  | .jalr rd rs1 imm => iType imm rs1 0 rd 0x19
  | .jal rd offset => jType offset rd 0x1b
  | .ecall => iType 0 0 0 0 0x1c
  | .ebreak => iType 1 0 0 0 0x1c
  | .csr op rd rs1 number => iType number rs1 op.funct3 rd 0x1c

end Encoding
