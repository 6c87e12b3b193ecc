import RiscvEmu.Foundation.Encoding

/-!
# The 16-bit words of RV64GC

The instructions of the C extension with their operands, the word of each, and the 32-bit
instruction that the extension defines it to be.

Every word is cut into a `funct3`, a single bit, two runs of five bits and the quadrant
(`cword`). Cutting a word gives back its parts (`quadrant_cword` to `funct3_cword`), and any word
is put together from its parts (`cword_parts`).

A constructor of `CInstr` carries what the extension asks of its operands, so that a reserved
word has no instruction. Words that the extension calls hints are instructions like any other.
-/

set_option autoImplicit false

namespace Encoding

open BitFields

/-- A register of the eight that a three-bit field can name. -/
abbrev CReg := BitVec 3

/-- The number of such a register, 8 to 15. -/
def CReg.reg (r : CReg) : Reg := 1#2 ++ r

/-! ## Parts -/

/-- The parts every 16-bit word has. -/
def cword (funct3 : BitVec 3) (bit12 : BitVec 1) (high low : BitVec 5) (quadrant : BitVec 2) :
    BitVec 16 :=
  funct3 ++ bit12 ++ high ++ low ++ quadrant

section CParts

variable (funct3 : BitVec 3) (bit12 : BitVec 1) (high low : BitVec 5) (quadrant : BitVec 2)

theorem quadrant_cword : (cword funct3 bit12 high low quadrant).extractLsb' 0 2 = quadrant :=
  extract_append_right _ _

theorem low_cword : (cword funct3 bit12 high low quadrant).extractLsb' 2 5 = low :=
  (extract_append_above _ _ 0 5).trans (extract_append_right _ _)

theorem high_cword : (cword funct3 bit12 high low quadrant).extractLsb' 7 5 = high :=
  (extract_append_above _ _ 5 5).trans <| (extract_append_above _ _ 0 5).trans
    (extract_append_right _ _)

theorem bit12_cword : (cword funct3 bit12 high low quadrant).extractLsb' 12 1 = bit12 :=
  (extract_append_above _ _ 10 1).trans <| (extract_append_above _ _ 5 1).trans <|
    (extract_append_above _ _ 0 1).trans (extract_append_right _ _)

theorem funct3_cword : (cword funct3 bit12 high low quadrant).extractLsb' 13 3 = funct3 :=
  (extract_append_above _ _ 11 3).trans <| (extract_append_above _ _ 6 3).trans <|
    (extract_append_above _ _ 1 3).trans (extract_append_left _ _)

/-- A word with these parts. -/
structure CParts (w : BitVec 16) : Prop where
  funct3_eq : w.extractLsb' 13 3 = funct3
  bit : w.extractLsb' 12 1 = bit12
  high_eq : w.extractLsb' 7 5 = high
  low_eq : w.extractLsb' 2 5 = low
  quadrant_eq : w.extractLsb' 0 2 = quadrant

theorem cword_cparts :
    CParts funct3 bit12 high low quadrant (cword funct3 bit12 high low quadrant) where
  funct3_eq := funct3_cword funct3 bit12 high low quadrant
  bit := bit12_cword funct3 bit12 high low quadrant
  high_eq := high_cword funct3 bit12 high low quadrant
  low_eq := low_cword funct3 bit12 high low quadrant
  quadrant_eq := quadrant_cword funct3 bit12 high low quadrant

end CParts

/-- **A 16-bit word is put together from its parts.** -/
theorem cword_parts (w : BitVec 16) :
    cword (w.extractLsb' 13 3) (w.extractLsb' 12 1) (w.extractLsb' 7 5) (w.extractLsb' 2 5)
      (w.extractLsb' 0 2) = w := by
  apply BitVec.eq_of_getLsbD_eq
  intro i bound
  rw [cword]
  simp only [BitVec.getLsbD_append]
  split_ifs <;> exact getLsbD_extract (by omega) (by omega)

/-- The same with two parts known. -/
theorem cword_of {w : BitVec 16} {funct3 : BitVec 3} {quadrant : BitVec 2}
    (third : w.extractLsb' 13 3 = funct3) (last : w.extractLsb' 0 2 = quadrant) :
    cword funct3 (w.extractLsb' 12 1) (w.extractLsb' 7 5) (w.extractLsb' 2 5) quadrant = w := by
  rw [← third, ← last, cword_parts]

/-! ## Instructions -/

/-- What a compressed load or store moves: a word, a double word, or a double-precision
number. -/
inductive Access where
  | word | double | fpDouble
  deriving DecidableEq

/-- The code of an access; a store has another bit above it. -/
def Access.code : Access → BitVec 2
  | .fpDouble => 1
  | .word => 2
  | .double => 3

/-- The operations on two of the eight registers. -/
inductive CArithOp where
  | sub | xor | or | and | subw | addw
  deriving DecidableEq

/-- The bit that tells the 32-bit operations. -/
def CArithOp.funct1 : CArithOp → BitVec 1
  | .sub | .xor | .or | .and => 0
  | .subw | .addw => 1

def CArithOp.funct2 : CArithOp → BitVec 2
  | .sub | .subw => 0
  | .xor | .addw => 1
  | .or => 2
  | .and => 3

/-- The operations on one of the eight registers and an immediate. -/
inductive CImmOp where
  | srli | srai | andi
  deriving DecidableEq

def CImmOp.funct2 : CImmOp → BitVec 2
  | .srli => 0
  | .srai => 1
  | .andi => 2

/-- A compressed instruction with its operands. An offset comes without the bits at its end that
are always zero. -/
inductive CInstr where
  | addi4spn (rd : CReg) (imm : BitVec 8) (nonzero : imm ≠ 0)
  | load (op : Access) (rd rs1 : CReg) (offset : BitVec 5)
  | store (op : Access) (rs1 rs2 : CReg) (offset : BitVec 5)
  | addi (rd : Reg) (imm : BitVec 6)
  | addiw (rd : Reg) (imm : BitVec 6) (nonzero : rd ≠ 0)
  | li (rd : Reg) (imm : BitVec 6)
  | addi16sp (imm : BitVec 6) (nonzero : imm ≠ 0)
  | lui (rd : Reg) (imm : BitVec 6) (other : rd ≠ 2) (nonzero : imm ≠ 0)
  | immediate (op : CImmOp) (rd : CReg) (imm : BitVec 6)
  | arith (op : CArithOp) (rd rs2 : CReg)
  | j (offset : BitVec 11)
  | beqz (rs1 : CReg) (offset : BitVec 8)
  | bnez (rs1 : CReg) (offset : BitVec 8)
  | slli (rd : Reg) (shamt : BitVec 6)
  | loadSp (op : Access) (rd : Reg) (offset : BitVec 6) (nonzero : op = .fpDouble ∨ rd ≠ 0)
  | storeSp (op : Access) (rs2 : Reg) (offset : BitVec 6)
  | jr (rs1 : Reg) (nonzero : rs1 ≠ 0)
  | mv (rd rs2 : Reg) (nonzero : rs2 ≠ 0)
  | ebreak
  | jalr (rs1 : Reg) (nonzero : rs1 ≠ 0)
  | add (rd rs2 : Reg) (nonzero : rs2 ≠ 0)

/-- The offset and the registers of a load or a store: `uimm[5:3]`, the base, then `uimm[2|6]`
for a word and `uimm[7:6]` for a double word, and the other register. -/
def accessWord (store : BitVec 1) (op : Access) (base other : CReg) (offset : BitVec 5) :
    BitVec 16 :=
  match op with
  | .word => cword (store ++ op.code) (offset.extractLsb' 3 1) (offset.extractLsb' 1 2 ++ base)
      (offset.extractLsb' 0 1 ++ offset.extractLsb' 4 1 ++ other) 0
  | .double | .fpDouble => cword (store ++ op.code) (offset.extractLsb' 2 1)
      (offset.extractLsb' 0 2 ++ base) (offset.extractLsb' 3 2 ++ other) 0

section Access

variable (store : BitVec 1) (base other : CReg) (offset : BitVec 5)

theorem accessWord_word : CParts (store ++ 2#2) (offset.extractLsb' 3 1)
    (offset.extractLsb' 1 2 ++ base) (offset.extractLsb' 0 1 ++ offset.extractLsb' 4 1 ++ other) 0
    (accessWord store .word base other offset) :=
  cword_cparts _ _ _ _ _

theorem accessWord_double : CParts (store ++ 3#2) (offset.extractLsb' 2 1)
    (offset.extractLsb' 0 2 ++ base) (offset.extractLsb' 3 2 ++ other) 0
    (accessWord store .double base other offset) :=
  cword_cparts _ _ _ _ _

theorem accessWord_fpDouble : CParts (store ++ 1#2) (offset.extractLsb' 2 1)
    (offset.extractLsb' 0 2 ++ base) (offset.extractLsb' 3 2 ++ other) 0
    (accessWord store .fpDouble base other offset) :=
  cword_cparts _ _ _ _ _

end Access

/-- The word of a branch against zero: `imm[8|4:3]`, the register, `imm[7:6|2:1|5]`. -/
def branchWord (funct3 : BitVec 3) (rs1 : CReg) (offset : BitVec 8) : BitVec 16 :=
  cword funct3 (offset.extractLsb' 7 1) (offset.extractLsb' 2 2 ++ rs1)
    (offset.extractLsb' 5 2 ++ offset.extractLsb' 0 2 ++ offset.extractLsb' 4 1) 1

/-- **The word of a compressed instruction.** -/
def CInstr.encode : CInstr → BitVec 16
  -- `nzuimm[5:4|9:6|2|3]`
  | .addi4spn rd imm _ => cword 0 (imm.extractLsb' 3 1)
      (imm.extractLsb' 2 1 ++ imm.extractLsb' 4 4)
      (imm.extractLsb' 0 1 ++ imm.extractLsb' 1 1 ++ rd) 0
  | .load op rd rs1 offset => accessWord 0 op rs1 rd offset
  | .store op rs1 rs2 offset => accessWord 1 op rs1 rs2 offset
  | .addi rd imm => cword 0 (imm.extractLsb' 5 1) rd (imm.extractLsb' 0 5) 1
  | .addiw rd imm _ => cword 1 (imm.extractLsb' 5 1) rd (imm.extractLsb' 0 5) 1
  | .li rd imm => cword 2 (imm.extractLsb' 5 1) rd (imm.extractLsb' 0 5) 1
  -- `nzimm[9]`, then `nzimm[4|6|8:7|5]`
  | .addi16sp imm _ => cword 3 (imm.extractLsb' 5 1) 2
      (imm.extractLsb' 0 1 ++ imm.extractLsb' 2 1 ++ imm.extractLsb' 3 2 ++ imm.extractLsb' 1 1) 1
  | .lui rd imm _ _ => cword 3 (imm.extractLsb' 5 1) rd (imm.extractLsb' 0 5) 1
  | .immediate op rd imm => cword 4 (imm.extractLsb' 5 1) (op.funct2 ++ rd) (imm.extractLsb' 0 5) 1
  | .arith op rd rs2 => cword 4 op.funct1 (3#2 ++ rd) (op.funct2 ++ rs2) 1
  -- `imm[11|4|9:8|10|6|7|3:1|5]`
  | .j offset => cword 5 (offset.extractLsb' 10 1)
      (offset.extractLsb' 3 1 ++ offset.extractLsb' 7 2 ++ offset.extractLsb' 9 1 ++
        offset.extractLsb' 5 1)
      (offset.extractLsb' 6 1 ++ offset.extractLsb' 0 3 ++ offset.extractLsb' 4 1) 1
  | .beqz rs1 offset => branchWord 6 rs1 offset
  | .bnez rs1 offset => branchWord 7 rs1 offset
  | .slli rd shamt => cword 0 (shamt.extractLsb' 5 1) rd (shamt.extractLsb' 0 5) 2
  -- `uimm[5]`, then `uimm[4:2|7:6]` or `uimm[4:3|8:6]`
  | .loadSp .word rd offset _ => cword 2 (offset.extractLsb' 3 1) rd
      (offset.extractLsb' 0 3 ++ offset.extractLsb' 4 2) 2
  | .loadSp op rd offset _ => cword (0#1 ++ op.code) (offset.extractLsb' 2 1) rd
      (offset.extractLsb' 0 2 ++ offset.extractLsb' 3 3) 2
  -- `uimm[5:2|7:6]` or `uimm[5:3|8:6]`
  | .storeSp .word rs2 offset => cword 6 (offset.extractLsb' 3 1)
      (offset.extractLsb' 0 3 ++ offset.extractLsb' 4 2) rs2 2
  | .storeSp op rs2 offset => cword (1#1 ++ op.code) (offset.extractLsb' 2 1)
      (offset.extractLsb' 0 2 ++ offset.extractLsb' 3 3) rs2 2
  | .jr rs1 _ => cword 4 0 rs1 0 2
  | .mv rd rs2 _ => cword 4 0 rd rs2 2
  | .ebreak => cword 4 1 0 0 2
  | .jalr rs1 _ => cword 4 1 rs1 0 2
  | .add rd rs2 _ => cword 4 1 rd rs2 2

/-! ## Expansions -/

/-- The offset of a load or a store in bytes. -/
def Access.bytes {w : Nat} (op : Access) (offset : BitVec w) : BitVec 12 :=
  match op with
  | .word => (offset ++ 0#2).setWidth 12
  | .double | .fpDouble => (offset ++ 0#3).setWidth 12

def Access.load (op : Access) (rd rs1 : Reg) (imm : BitVec 12) : Instr :=
  match op with
  | .word => .load .lw rd rs1 imm
  | .double => .load .ld rd rs1 imm
  | .fpDouble => .loadFp .double rd rs1 imm

def Access.store (op : Access) (rs1 rs2 : Reg) (imm : BitVec 12) : Instr :=
  match op with
  | .word => .store .sw rs1 rs2 imm
  | .double => .store .sd rs1 rs2 imm
  | .fpDouble => .storeFp .double rs1 rs2 imm

/-- **The instruction that a compressed one stands for.** -/
def CInstr.expand : CInstr → Instr
  | .addi4spn rd imm _ => .opImm .addi (CReg.reg rd) 2 ((imm ++ 0#2).setWidth 12)
  | .load op rd rs1 offset => op.load (CReg.reg rd) (CReg.reg rs1) (op.bytes offset)
  | .store op rs1 rs2 offset => op.store (CReg.reg rs1) (CReg.reg rs2) (op.bytes offset)
  | .addi rd imm => .opImm .addi rd rd (imm.signExtend 12)
  | .addiw rd imm _ => .addiw rd rd (imm.signExtend 12)
  | .li rd imm => .opImm .addi rd 0 (imm.signExtend 12)
  | .addi16sp imm _ => .opImm .addi 2 2 ((imm ++ 0#4).signExtend 12)
  | .lui rd imm _ _ => .lui rd (imm.signExtend 20)
  | .immediate .srli rd shamt => .shiftImm .srl (CReg.reg rd) (CReg.reg rd) shamt
  | .immediate .srai rd shamt => .shiftImm .sra (CReg.reg rd) (CReg.reg rd) shamt
  | .immediate .andi rd imm => .opImm .andi (CReg.reg rd) (CReg.reg rd) (imm.signExtend 12)
  | .arith .sub rd rs2 => .reg .sub (CReg.reg rd) (CReg.reg rd) (CReg.reg rs2)
  | .arith .xor rd rs2 => .reg .xor (CReg.reg rd) (CReg.reg rd) (CReg.reg rs2)
  | .arith .or rd rs2 => .reg .or (CReg.reg rd) (CReg.reg rd) (CReg.reg rs2)
  | .arith .and rd rs2 => .reg .and (CReg.reg rd) (CReg.reg rd) (CReg.reg rs2)
  | .arith .subw rd rs2 => .reg32 .subw (CReg.reg rd) (CReg.reg rd) (CReg.reg rs2)
  | .arith .addw rd rs2 => .reg32 .addw (CReg.reg rd) (CReg.reg rd) (CReg.reg rs2)
  | .j offset => .jal 0 (offset.signExtend 20)
  | .beqz rs1 offset => .branch .beq (CReg.reg rs1) 0 (offset.signExtend 12)
  | .bnez rs1 offset => .branch .bne (CReg.reg rs1) 0 (offset.signExtend 12)
  | .slli rd shamt => .shiftImm .sll rd rd shamt
  | .loadSp op rd offset _ => op.load rd 2 (op.bytes offset)
  | .storeSp op rs2 offset => op.store 2 rs2 (op.bytes offset)
  | .jr rs1 _ => .jalr 0 rs1 0
  | .mv rd rs2 _ => .reg .add rd 0 rs2
  | .ebreak => .ebreak
  | .jalr rs1 _ => .jalr 1 rs1 0
  | .add rd rs2 _ => .reg .add rd rd rs2

/-- C.JALR is the one compressed instruction that links. -/
def CInstr.links : CInstr → Bool
  | .jalr _ _ => true
  | _ => false

/-! ## Operands of a word

Whatever bits stand in the places of an operand, they are those of one. -/

section Operands

variable (b : BitVec 1) (h l : BitVec 5)

theorem exists_imm6 : ∃ imm : BitVec 6, imm.extractLsb' 5 1 = b ∧ imm.extractLsb' 0 5 = l :=
  ⟨b ++ l, extract_append_left b l, extract_append_right b l⟩

theorem exists_addi4spn : ∃ (imm : BitVec 8) (rd : CReg), imm.extractLsb' 3 1 = b ∧
    imm.extractLsb' 2 1 ++ imm.extractLsb' 4 4 = h ∧
      imm.extractLsb' 0 1 ++ imm.extractLsb' 1 1 ++ rd = l := by
  obtain ⟨imm, whole⟩ : ∃ imm : BitVec 8, imm.extractLsb' 0 8 = h.extractLsb' 0 4 ++ b ++
      h.extractLsb' 4 1 ++ l.extractLsb' 3 1 ++ l.extractLsb' 4 1 :=
    ⟨_, BitVec.extractLsb'_eq_self⟩
  obtain ⟨whole, imm2⟩ := (extract_eq_append_iff (h := 7) (l := 1)).mp whole
  obtain ⟨whole, imm3⟩ := (extract_eq_append_iff (h := 6) (l := 1)).mp whole
  obtain ⟨whole, imm4⟩ := (extract_eq_append_iff (h := 5) (l := 1)).mp whole
  obtain ⟨imm96, imm5⟩ := (extract_eq_append_iff (h := 4) (l := 1)).mp whole
  refine ⟨imm, l.extractLsb' 0 3, imm5, ?_, ?_⟩
  · rw [imm4, imm96, append_extract h 0 1 4, BitVec.extractLsb'_eq_self]
  · rw [imm2, imm3, append_extract l 3 1 1, append_extract l 0 2 3, BitVec.extractLsb'_eq_self]

theorem exists_word : ∃ (offset : BitVec 5) (base other : CReg), offset.extractLsb' 3 1 = b ∧
    offset.extractLsb' 1 2 ++ base = h ∧
      offset.extractLsb' 0 1 ++ offset.extractLsb' 4 1 ++ other = l := by
  obtain ⟨offset, whole⟩ : ∃ offset : BitVec 5, offset.extractLsb' 0 5 =
      l.extractLsb' 3 1 ++ b ++ h.extractLsb' 3 2 ++ l.extractLsb' 4 1 :=
    ⟨_, BitVec.extractLsb'_eq_self⟩
  obtain ⟨whole, imm2⟩ := (extract_eq_append_iff (h := 4) (l := 1)).mp whole
  obtain ⟨whole, imm43⟩ := (extract_eq_append_iff (h := 2) (l := 2)).mp whole
  obtain ⟨imm6, imm5⟩ := (extract_eq_append_iff (h := 1) (l := 1)).mp whole
  refine ⟨offset, h.extractLsb' 0 3, l.extractLsb' 0 3, imm5, ?_, ?_⟩
  · rw [imm43, append_extract h 0 2 3, BitVec.extractLsb'_eq_self]
  · rw [imm2, imm6, append_extract l 3 1 1, append_extract l 0 2 3, BitVec.extractLsb'_eq_self]

theorem exists_double : ∃ (offset : BitVec 5) (base other : CReg), offset.extractLsb' 2 1 = b ∧
    offset.extractLsb' 0 2 ++ base = h ∧ offset.extractLsb' 3 2 ++ other = l := by
  obtain ⟨offset, whole⟩ : ∃ offset : BitVec 5, offset.extractLsb' 0 5 =
      l.extractLsb' 3 2 ++ b ++ h.extractLsb' 3 2 :=
    ⟨_, BitVec.extractLsb'_eq_self⟩
  obtain ⟨whole, imm43⟩ := (extract_eq_append_iff (h := 3) (l := 2)).mp whole
  obtain ⟨imm76, imm5⟩ := (extract_eq_append_iff (h := 2) (l := 1)).mp whole
  refine ⟨offset, h.extractLsb' 0 3, l.extractLsb' 0 3, imm5, ?_, ?_⟩
  · rw [imm43, append_extract h 0 2 3, BitVec.extractLsb'_eq_self]
  · rw [imm76, append_extract l 0 2 3, BitVec.extractLsb'_eq_self]

theorem exists_addi16sp : ∃ imm : BitVec 6, imm.extractLsb' 5 1 = b ∧
    imm.extractLsb' 0 1 ++ imm.extractLsb' 2 1 ++ imm.extractLsb' 3 2 ++ imm.extractLsb' 1 1 =
      l := by
  obtain ⟨imm, whole⟩ : ∃ imm : BitVec 6, imm.extractLsb' 0 6 = b ++ l.extractLsb' 1 2 ++
      l.extractLsb' 3 1 ++ l.extractLsb' 0 1 ++ l.extractLsb' 4 1 :=
    ⟨_, BitVec.extractLsb'_eq_self⟩
  obtain ⟨whole, imm4⟩ := (extract_eq_append_iff (h := 5) (l := 1)).mp whole
  obtain ⟨whole, imm5⟩ := (extract_eq_append_iff (h := 4) (l := 1)).mp whole
  obtain ⟨whole, imm6⟩ := (extract_eq_append_iff (h := 3) (l := 1)).mp whole
  obtain ⟨imm9, imm87⟩ := (extract_eq_append_iff (h := 1) (l := 2)).mp whole
  refine ⟨imm, imm9, ?_⟩
  rw [imm4, imm6, imm87, imm5, append_extract l 3 1 1, append_extract l 1 2 2,
    append_extract l 0 4 1, BitVec.extractLsb'_eq_self]

theorem exists_jump : ∃ offset : BitVec 11, offset.extractLsb' 10 1 = b ∧
    offset.extractLsb' 3 1 ++ offset.extractLsb' 7 2 ++ offset.extractLsb' 9 1 ++
        offset.extractLsb' 5 1 = h ∧
      offset.extractLsb' 6 1 ++ offset.extractLsb' 0 3 ++ offset.extractLsb' 4 1 = l := by
  obtain ⟨offset, whole⟩ : ∃ offset : BitVec 11, offset.extractLsb' 0 11 =
      b ++ h.extractLsb' 1 1 ++ h.extractLsb' 2 2 ++ l.extractLsb' 4 1 ++ h.extractLsb' 0 1 ++
        l.extractLsb' 0 1 ++ h.extractLsb' 4 1 ++ l.extractLsb' 1 3 :=
    ⟨_, BitVec.extractLsb'_eq_self⟩
  obtain ⟨whole, imm31⟩ := (extract_eq_append_iff (h := 8) (l := 3)).mp whole
  obtain ⟨whole, imm4⟩ := (extract_eq_append_iff (h := 7) (l := 1)).mp whole
  obtain ⟨whole, imm5⟩ := (extract_eq_append_iff (h := 6) (l := 1)).mp whole
  obtain ⟨whole, imm6⟩ := (extract_eq_append_iff (h := 5) (l := 1)).mp whole
  obtain ⟨whole, imm7⟩ := (extract_eq_append_iff (h := 4) (l := 1)).mp whole
  obtain ⟨whole, imm98⟩ := (extract_eq_append_iff (h := 2) (l := 2)).mp whole
  obtain ⟨imm11, imm10⟩ := (extract_eq_append_iff (h := 1) (l := 1)).mp whole
  refine ⟨offset, imm11, ?_, ?_⟩
  · rw [imm4, imm98, imm10, imm6, append_extract h 2 1 2, append_extract h 1 3 1,
      append_extract h 0 4 1, BitVec.extractLsb'_eq_self]
  · rw [imm7, imm31, imm5, append_extract l 1 1 3, append_extract l 0 4 1,
      BitVec.extractLsb'_eq_self]

theorem exists_branch : ∃ (offset : BitVec 8) (rs1 : CReg), offset.extractLsb' 7 1 = b ∧
    offset.extractLsb' 2 2 ++ rs1 = h ∧
      offset.extractLsb' 5 2 ++ offset.extractLsb' 0 2 ++ offset.extractLsb' 4 1 = l := by
  obtain ⟨offset, whole⟩ : ∃ offset : BitVec 8, offset.extractLsb' 0 8 =
      b ++ l.extractLsb' 3 2 ++ l.extractLsb' 0 1 ++ h.extractLsb' 3 2 ++ l.extractLsb' 1 2 :=
    ⟨_, BitVec.extractLsb'_eq_self⟩
  obtain ⟨whole, imm21⟩ := (extract_eq_append_iff (h := 6) (l := 2)).mp whole
  obtain ⟨whole, imm43⟩ := (extract_eq_append_iff (h := 4) (l := 2)).mp whole
  obtain ⟨whole, imm5⟩ := (extract_eq_append_iff (h := 3) (l := 1)).mp whole
  obtain ⟨imm8, imm76⟩ := (extract_eq_append_iff (h := 1) (l := 2)).mp whole
  refine ⟨offset, h.extractLsb' 0 3, imm8, ?_, ?_⟩
  · rw [imm43, append_extract h 0 2 3, BitVec.extractLsb'_eq_self]
  · rw [imm76, imm21, imm5, append_extract l 1 2 2, append_extract l 0 4 1,
      BitVec.extractLsb'_eq_self]

theorem exists_stack_word : ∃ offset : BitVec 6, offset.extractLsb' 3 1 = b ∧
    offset.extractLsb' 0 3 ++ offset.extractLsb' 4 2 = l := by
  obtain ⟨offset, whole⟩ : ∃ offset : BitVec 6, offset.extractLsb' 0 6 =
      l.extractLsb' 0 2 ++ b ++ l.extractLsb' 2 3 :=
    ⟨_, BitVec.extractLsb'_eq_self⟩
  obtain ⟨whole, imm42⟩ := (extract_eq_append_iff (h := 3) (l := 3)).mp whole
  obtain ⟨imm76, imm5⟩ := (extract_eq_append_iff (h := 2) (l := 1)).mp whole
  refine ⟨offset, imm5, ?_⟩
  rw [imm42, imm76, append_extract l 0 3 2, BitVec.extractLsb'_eq_self]

theorem exists_stack_double : ∃ offset : BitVec 6, offset.extractLsb' 2 1 = b ∧
    offset.extractLsb' 0 2 ++ offset.extractLsb' 3 3 = l := by
  obtain ⟨offset, whole⟩ : ∃ offset : BitVec 6, offset.extractLsb' 0 6 =
      l.extractLsb' 0 3 ++ b ++ l.extractLsb' 3 2 :=
    ⟨_, BitVec.extractLsb'_eq_self⟩
  obtain ⟨whole, imm43⟩ := (extract_eq_append_iff (h := 4) (l := 2)).mp whole
  obtain ⟨imm86, imm5⟩ := (extract_eq_append_iff (h := 3) (l := 1)).mp whole
  refine ⟨offset, imm5, ?_⟩
  rw [imm43, imm86, append_extract l 0 2 3, BitVec.extractLsb'_eq_self]

end Operands

/-! ## Legal words -/

/-- **A legal word** is the word of an instruction, or its lower half is the word of a compressed
one. -/
def Legal (w : BitVec 32) : Prop :=
  (∃ i : Instr, i.encode = w) ∨ ∃ c : CInstr, c.encode = w.setWidth 16

end Encoding
