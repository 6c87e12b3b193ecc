import RiscvEmu.DecodeCompressed

/-!
# Which words the decoder accepts

A word is legal when it is the word of an instruction (`Encoding.Legal`). Each leaf of the
decoder's switch fixes fields of the word; what is left are operands, so a word that reaches the
leaf is the word of the instruction with these operands.

The exception is JALR: the decoder does not look at its `funct3`, which has to be zero.
-/

set_option autoImplicit false

namespace RiscvEmu

open BitFields Encoding

/-! ## Words of quadrant 3 -/

section Words

variable {data : U32}

/-- The low bits and the group of a word. -/
structure InGroup (group : BitVec 5) (data : U32) : Prop where
  low : data.extractLsb' 0 2 = 3#2
  group_eq : data.extractLsb' 2 5 = group

variable {group : BitVec 5}

theorem InGroup.of (low : Field.quadrant data = 3)
    (group_eq : (Field.opcode data).toNat = group.toNat) : InGroup group data where
  low := by
    have number : (Field.quadrant data).toNat = 3 := congrArg BitVec.toNat low
    exact BitVec.eq_of_toNat_eq ((Field.toNat_quadrant data).symm.trans number)
  group_eq := BitVec.eq_of_toNat_eq ((Field.toNat_opcode data).symm.trans group_eq)

/-- A word with its group is put together from the other parts. -/
theorem InGroup.word_eq (within : InGroup group data) {funct3 : BitVec 3}
    (third : (Field.funct3 data).toNat = funct3.toNat) :
    word (data.extractLsb' 20 12) (data.extractLsb' 15 5) funct3 (data.extractLsb' 7 5) group =
      data := by
  have same : data.extractLsb' 12 3 = funct3 :=
    BitVec.eq_of_toNat_eq ((Field.toNat_funct3 data).symm.trans third)
  rw [← within.group_eq, ← same]
  exact word_parts within.low

/-- The same with the upper part cut in two. -/
theorem InGroup.rType_eq (within : InGroup group data) {funct3 : BitVec 3} {funct7 : BitVec 7}
    (third : (Field.funct3 data).toNat = funct3.toNat)
    (seventh : (Field.funct7 data).toNat = funct7.toNat) :
    rType funct7 (data.extractLsb' 20 5) (data.extractLsb' 15 5) funct3 (data.extractLsb' 7 5)
      group = data := by
  have same : data.extractLsb' 25 7 = funct7 :=
    BitVec.eq_of_toNat_eq ((Field.toNat_funct7 data).symm.trans seventh)
  have top := append_extract data 20 7 5
  rw [rType, ← same, top]
  exact within.word_eq third

theorem InGroup.sType_eq (within : InGroup group data) {funct3 : BitVec 3}
    (third : (Field.funct3 data).toNat = funct3.toNat) :
    sType (data.extractLsb' 25 7 ++ data.extractLsb' 7 5) (data.extractLsb' 20 5)
      (data.extractLsb' 15 5) funct3 group = data := by
  have upper := extract_append_left (data.extractLsb' 25 7) (data.extractLsb' 7 5)
  have lower := extract_append_right (data.extractLsb' 25 7) (data.extractLsb' 7 5)
  have top := append_extract data 20 7 5
  rw [sType, upper, lower, top]
  exact within.word_eq third

theorem InGroup.bType_eq (within : InGroup group data) {funct3 : BitVec 3}
    (third : (Field.funct3 data).toNat = funct3.toNat) :
    ∃ offset, bType offset (data.extractLsb' 20 5) (data.extractLsb' 15 5) funct3 group = data := by
  obtain ⟨offset, whole⟩ : ∃ offset : BitVec 12, offset.extractLsb' 0 12 =
      data.extractLsb' 31 1 ++ data.extractLsb' 7 1 ++ data.extractLsb' 25 6 ++
        data.extractLsb' 8 4 :=
    ⟨_, BitVec.extractLsb'_eq_self⟩
  obtain ⟨whole, imm41⟩ := (extract_eq_append_iff (h := 8) (l := 4)).mp whole
  obtain ⟨whole, imm105⟩ := (extract_eq_append_iff (h := 2) (l := 6)).mp whole
  obtain ⟨imm12, imm11⟩ := (extract_eq_append_iff (h := 1) (l := 1)).mp whole
  refine ⟨offset, ?_⟩
  rw [bType, imm12, imm105, imm41, imm11, append_extract data 25 1 6, append_extract data 20 7 5,
    append_extract data 7 4 1]
  exact within.word_eq third

theorem InGroup.uType_eq (within : InGroup group data) :
    uType (data.extractLsb' 12 20) (data.extractLsb' 7 5) group = data := by
  have third : (Field.funct3 data).toNat = (data.extractLsb' 12 3).toNat := Field.toNat_funct3 data
  have word := within.word_eq third
  rw [uType, extract_extract data (by omega), extract_extract data (by omega),
    extract_extract data (by omega)]
  exact word

theorem InGroup.jType_eq (within : InGroup group data) :
    ∃ offset, jType offset (data.extractLsb' 7 5) group = data := by
  obtain ⟨offset, whole⟩ : ∃ offset : BitVec 20, offset.extractLsb' 0 20 =
      data.extractLsb' 31 1 ++ data.extractLsb' 15 5 ++ data.extractLsb' 12 3 ++
        data.extractLsb' 20 1 ++ data.extractLsb' 21 10 :=
    ⟨_, BitVec.extractLsb'_eq_self⟩
  obtain ⟨whole, imm101⟩ := (extract_eq_append_iff (h := 10) (l := 10)).mp whole
  obtain ⟨whole, imm11⟩ := (extract_eq_append_iff (h := 9) (l := 1)).mp whole
  obtain ⟨whole, imm1412⟩ := (extract_eq_append_iff (h := 6) (l := 3)).mp whole
  obtain ⟨imm20, imm1915⟩ := (extract_eq_append_iff (h := 1) (l := 5)).mp whole
  refine ⟨offset, ?_⟩
  rw [jType, imm20, imm101, imm11, imm1412, imm1915, append_extract data 21 1 10,
    append_extract data 20 11 1]
  exact within.word_eq (Field.toNat_funct3 data)

/-! ## The opcode groups -/

section Groups

variable {insn old : Insn}

theorem decodeLoad_legal (within : InGroup 0x00 data) (decoded : decodeLoad data = .ok insn) :
    Legal data := by
  have legal (op : LoadOp) (third : (Field.funct3 data).toNat = op.funct3.toNat) : Legal data :=
    .inl ⟨.load op _ _ _, within.word_eq third⟩
  simp only [decodeLoad] at decoded
  split at decoded
  · next third => exact legal .lb third
  · next third => exact legal .lh third
  · next third => exact legal .lw third
  · next third => exact legal .ld third
  · next third => exact legal .lbu third
  · next third => exact legal .lhu third
  · next third => exact legal .lwu third
  · cases decoded

theorem decodeOpImm_legal (within : InGroup 0x04 data) (decoded : decodeOpImm data = .ok insn) :
    Legal data := by
  have legal (op : ImmOp) (third : (Field.funct3 data).toNat = op.funct3.toNat) : Legal data :=
    .inl ⟨.opImm op _ _ _, within.word_eq third⟩
  have shift (op : ShiftOp) (third : (Field.funct3 data).toNat = op.funct3.toNat)
      (sixth : Field.imm116 data = op.funct6.setWidth 32) : Legal data := by
    have upper : data.extractLsb' 26 6 = op.funct6 :=
      (shiftRight_mask_iff (by omega) op.funct6).mp sixth
    have top : op.funct6 ++ data.extractLsb' 20 6 = data.extractLsb' 20 12 :=
      upper ▸ append_extract data 20 6 6
    refine .inl ⟨.shiftImm op (data.extractLsb' 7 5) (data.extractLsb' 15 5)
      (data.extractLsb' 20 6), ?_⟩
    rw [Instr.encode, top]
    exact within.word_eq third
  simp only [decodeOpImm] at decoded
  split at decoded
  · next third => exact legal .addi third
  · next third =>
    split_ifs at decoded with sixth
    exact shift .sll third sixth
  · next third => exact legal .slti third
  · next third => exact legal .sltiu third
  · next third => exact legal .xori third
  · next third =>
    split_ifs at decoded with logical arithmetic
    · exact shift .srl third logical
    · exact shift .sra third arithmetic
  · next third => exact legal .ori third
  · next third => exact legal .andi third
  · cases decoded

theorem decodeOpImm32_legal (within : InGroup 0x06 data)
    (decoded : decodeOpImm32 data = .ok insn) : Legal data := by
  have shift (op : ShiftOp) (third : (Field.funct3 data).toNat = op.funct3.toNat)
      (seventh : (Field.funct7 data).toNat = (op.funct6 ++ 0#1).toNat) : Legal data :=
    .inl ⟨.shiftImm32 op _ _ _, within.rType_eq third seventh⟩
  simp only [decodeOpImm32] at decoded
  split at decoded
  · next third => exact .inl ⟨.addiw _ _ _, within.word_eq third⟩
  · next third =>
    have seventh : (Field.funct7 data).toNat = 0 :=
      congrArg BitVec.toNat (cassert_bind_ok.mp decoded).1
    exact shift .sll third seventh
  · next third =>
    split at decoded
    · next seventh => exact shift .srl third seventh
    · next seventh => exact shift .sra third seventh
    · cases decoded
  · cases decoded

theorem decodeStore_legal (within : InGroup 0x08 data) (decoded : decodeStore data = .ok insn) :
    Legal data := by
  have legal (op : StoreOp) (third : (Field.funct3 data).toNat = op.funct3.toNat) : Legal data :=
    .inl ⟨.store op _ _ _, within.sType_eq third⟩
  simp only [decodeStore] at decoded
  split at decoded
  · next third => exact legal .sb third
  · next third => exact legal .sh third
  · next third => exact legal .sw third
  · next third => exact legal .sd third
  · cases decoded

theorem decodeOp_legal (within : InGroup 0x0c data) (decoded : decodeOp data = .ok insn) :
    Legal data := by
  have legal (op : RegOp) (third : (Field.funct3 data).toNat = op.funct3.toNat)
      (seventh : (Field.funct7 data).toNat = op.funct7.toNat) : Legal data :=
    .inl ⟨.reg op _ _ _, within.rType_eq third seventh⟩
  simp only [decodeOp] at decoded
  split at decoded
  · next seventh =>
    split at decoded
    · next third => exact legal .add third seventh
    · next third => exact legal .sll third seventh
    · next third => exact legal .slt third seventh
    · next third => exact legal .sltu third seventh
    · next third => exact legal .xor third seventh
    · next third => exact legal .srl third seventh
    · next third => exact legal .or third seventh
    · next third => exact legal .and third seventh
    · cases decoded
  · next seventh =>
    split at decoded
    · next third => exact legal .mul third seventh
    · next third => exact legal .mulh third seventh
    · next third => exact legal .mulhsu third seventh
    · next third => exact legal .mulhu third seventh
    · next third => exact legal .div third seventh
    · next third => exact legal .divu third seventh
    · next third => exact legal .rem third seventh
    · next third => exact legal .remu third seventh
    · cases decoded
  · next seventh =>
    split at decoded
    · next third => exact legal .sub third seventh
    · next third => exact legal .sra third seventh
    · cases decoded
  · cases decoded

theorem decodeOp32_legal (within : InGroup 0x0e data) (decoded : decodeOp32 data = .ok insn) :
    Legal data := by
  have legal (op : RegOp32) (third : (Field.funct3 data).toNat = op.funct3.toNat)
      (seventh : (Field.funct7 data).toNat = op.funct7.toNat) : Legal data :=
    .inl ⟨.reg32 op _ _ _, within.rType_eq third seventh⟩
  simp only [decodeOp32] at decoded
  split at decoded
  · next seventh =>
    split at decoded
    · next third => exact legal .addw third seventh
    · next third => exact legal .sllw third seventh
    · next third => exact legal .srlw third seventh
    · cases decoded
  · next seventh =>
    split at decoded
    · next third => exact legal .mulw third seventh
    · next third => exact legal .divw third seventh
    · next third => exact legal .divuw third seventh
    · next third => exact legal .remw third seventh
    · next third => exact legal .remuw third seventh
    · cases decoded
  · next seventh =>
    split at decoded
    · next third => exact legal .subw third seventh
    · next third => exact legal .sraw third seventh
    · cases decoded
  · cases decoded

theorem decodeBranch_legal (within : InGroup 0x18 data)
    (decoded : decodeBranch data = .ok insn) : Legal data := by
  have legal (op : BranchOp) (third : (Field.funct3 data).toNat = op.funct3.toNat) :
      Legal data := by
    obtain ⟨offset, same⟩ := within.bType_eq third
    exact .inl ⟨.branch op _ _ offset, same⟩
  simp only [decodeBranch] at decoded
  split at decoded
  · next third => exact legal .beq third
  · next third => exact legal .bne third
  · next third => exact legal .blt third
  · next third => exact legal .bge third
  · next third => exact legal .bltu third
  · next third => exact legal .bgeu third
  · cases decoded

theorem decodeSystem_legal (within : InGroup 0x1c data)
    (decoded : decodeSystem old data = .ok insn) : Legal data := by
  have legal (op : CsrOp) (third : (Field.funct3 data).toNat = op.funct3.toNat) : Legal data :=
    .inl ⟨.csr op _ _ _, within.word_eq third⟩
  by_cases environment : data = 0x73
  · exact .inl ⟨.ecall, environment.symm⟩
  · simp only [decodeSystem, if_neg environment] at decoded
    split at decoded
    · next third => exact legal .csrrw third
    · next third => exact legal .csrrs third
    · next third => exact legal .csrrc third
    · next third => exact legal .csrrwi third
    · next third => exact legal .csrrsi third
    · next third => exact legal .csrrci third
    · cases decoded

/-- The groups LOAD, OP-IMM, AUIPC, OP-IMM-32, STORE, OP, LUI, OP-32, BRANCH, JALR, JAL and
SYSTEM. -/
def IntegerGroup (data : U32) : Prop :=
  (Field.opcode data).toNat ∈
    [0x0, 0x4, 0x5, 0x6, 0x8, 0xc, 0xd, 0xe, 0x18, 0x19, 0x1b, 0x1c]

instance (data : U32) : Decidable (IntegerGroup data) :=
  inferInstanceAs (Decidable (_ ∈ _))

/-- A JALR whose `funct3` is not zero. -/
def ReservedJalr (data : U32) : Prop :=
  Field.quadrant data = 3 ∧ (Field.opcode data).toNat = 0x19 ∧ Field.funct3 data ≠ 0

theorem decodeQuadrant3_legal (low : Field.quadrant data = 3) (integer : IntegerGroup data)
    (jalr : ¬ ReservedJalr data) (decoded : decodeQuadrant3 old data = .ok insn) :
    Legal data := by
  simp only [decodeQuadrant3] at decoded
  rw [IntegerGroup] at integer
  split at decoded
  · next group => exact decodeLoad_legal (.of low group) decoded
  · next group => simp [group] at integer
  · next group => simp [group] at integer
  · next group => exact decodeOpImm_legal (.of low group) decoded
  · next group =>
    have within : InGroup 0x05 data := .of low group
    exact .inl ⟨.auipc _ _, within.uType_eq⟩
  · next group => exact decodeOpImm32_legal (.of low group) decoded
  · next group => exact decodeStore_legal (.of low group) decoded
  · next group => simp [group] at integer
  · next group => exact decodeOp_legal (.of low group) decoded
  · next group =>
    have within : InGroup 0x0d data := .of low group
    exact .inl ⟨.lui _ _, within.uType_eq⟩
  · next group => exact decodeOp32_legal (.of low group) decoded
  · next group => simp [group] at integer
  · next group => simp [group] at integer
  · next group => simp [group] at integer
  · next group => simp [group] at integer
  · next group => simp [group] at integer
  · next group => exact decodeBranch_legal (.of low group) decoded
  · next group =>
    have within : InGroup 0x19 data := .of low group
    have third : (Field.funct3 data).toNat = 0 := by
      by_contra other
      exact jalr ⟨low, group, fun zero => other (congrArg BitVec.toNat zero)⟩
    exact .inl ⟨.jalr _ _ _, within.word_eq third⟩
  · next group =>
    have within : InGroup 0x1b data := .of low group
    obtain ⟨offset, same⟩ := within.jType_eq
    exact .inl ⟨.jal _ offset, same⟩
  · next group => exact decodeSystem_legal (.of low group) decoded
  · cases decoded

end Groups

end Words

/-! ## Words of quadrants 0 to 2 -/

section Halves

variable {x : U16} {insn old : Insn}

/-- The word of a compressed instruction other than C.EBREAK. -/
def Compressed (x : U16) : Prop := ∃ c : CInstr, c ≠ .ebreak ∧ c.encode = x

theorem decodeQuadrant0_compressed (last : x.extractLsb' 0 2 = 0)
    (decoded : decodeQuadrant0 (x.setWidth 32) = .ok insn) : Compressed x := by
  have access (store : BitVec 1) (op : Access)
      (third : (x.extractLsb' 13 3).toNat = (store ++ op.code).toNat) :
      ∃ base other offset, accessWord store op base other offset = x := by
    have whole := cword_of (BitVec.eq_of_toNat_eq third) last
    cases op with
    | word =>
      obtain ⟨offset, base, other, bit, high, low⟩ :=
        exists_word (x.extractLsb' 12 1) (x.extractLsb' 7 5) (x.extractLsb' 2 5)
      refine ⟨base, other, offset, ?_⟩
      rwa [accessWord, bit, high, low]
    | double | fpDouble =>
      obtain ⟨offset, base, other, bit, high, low⟩ :=
        exists_double (x.extractLsb' 12 1) (x.extractLsb' 7 5) (x.extractLsb' 2 5)
      refine ⟨base, other, offset, ?_⟩
      rwa [accessWord, bit, high, low]
  have load (op : Access) (third : (x.extractLsb' 13 3).toNat = (0#1 ++ op.code).toNat) :
      Compressed x := by
    obtain ⟨base, other, offset, same⟩ := access 0 op third
    exact ⟨.load op other base offset, by simp, same⟩
  have store (op : Access) (third : (x.extractLsb' 13 3).toNat = (1#1 ++ op.code).toNat) :
      Compressed x := by
    obtain ⟨base, other, offset, same⟩ := access 1 op third
    exact ⟨.store op base other offset, by simp, same⟩
  simp only [decodeQuadrant0, toNat_copcode, setWidth_promoted] at decoded
  split at decoded
  · next third =>
    obtain ⟨imm, rd, bit, high, low⟩ :=
      exists_addi4spn (x.extractLsb' 12 1) (x.extractLsb' 7 5) (x.extractLsb' 2 5)
    rw [insnCiwtypeRead_of bit.symm high.symm low.symm] at decoded
    have nonzero : imm ≠ 0 := by
      rintro rfl
      exact (cassert_bind_ok.mp decoded).1 rfl
    refine ⟨.addi4spn rd imm nonzero, by simp, ?_⟩
    rw [CInstr.encode, bit, high, low]
    exact cword_of (BitVec.eq_of_toNat_eq third) last
  · next third => exact load .fpDouble third
  · next third => exact load .word third
  · next third => exact load .double third
  · next third => exact store .fpDouble third
  · next third => exact store .word third
  · next third => exact store .double third
  · cases decoded

theorem decodeQuadrant1Alu_compressed (last : x.extractLsb' 0 2 = 1)
    (third : x.extractLsb' 13 3 = 4) (decoded : decodeQuadrant1Alu (x.setWidth 32) = .ok insn) :
    Compressed x := by
  have whole := cword_of third last
  have cut (v : BitVec 5) : v.extractLsb' 3 2 ++ v.extractLsb' 0 3 = v :=
    (append_extract v 0 2 3).trans BitVec.extractLsb'_eq_self
  have high (funct2 : BitVec 2) (upper : (x.extractLsb' 10 2).toNat = funct2.toNat) :
      funct2 ++ (x.extractLsb' 7 5).extractLsb' 0 3 = x.extractLsb' 7 5 := by
    rw [← BitVec.eq_of_toNat_eq upper, ← extract_extract x (s := 7) (w := 5) (i := 3) (by omega)]
    exact cut _
  have low (funct2 : BitVec 2) (lower : (x.extractLsb' 5 2).toNat = funct2.toNat) :
      funct2 ++ (x.extractLsb' 2 5).extractLsb' 0 3 = x.extractLsb' 2 5 := by
    rw [← BitVec.eq_of_toNat_eq lower, ← extract_extract x (s := 2) (w := 5) (i := 3) (by omega)]
    exact cut _
  have immediate (op : CImmOp) (upper : (x.extractLsb' 10 2).toNat = op.funct2.toNat) :
      Compressed x := by
    obtain ⟨imm, bit, five⟩ := exists_imm6 (x.extractLsb' 12 1) (x.extractLsb' 2 5)
    refine ⟨.immediate op ((x.extractLsb' 7 5).extractLsb' 0 3) imm, by simp, ?_⟩
    rwa [CInstr.encode, bit, five, high op.funct2 upper]
  have arith (op : CArithOp) (upper : (x.extractLsb' 10 2).toNat = 3)
      (bit : (x.extractLsb' 12 1).toNat = op.funct1.toNat)
      (lower : (x.extractLsb' 5 2).toNat = op.funct2.toNat) : Compressed x := by
    refine ⟨.arith op ((x.extractLsb' 7 5).extractLsb' 0 3)
      ((x.extractLsb' 2 5).extractLsb' 0 3), by simp, ?_⟩
    rwa [CInstr.encode, ← BitVec.eq_of_toNat_eq bit, high 3#2 upper, low op.funct2 lower]
  simp only [decodeQuadrant1Alu, toNat_cfunct1, toNat_cfunct2low, toNat_cfunct2high] at decoded
  split at decoded
  · next upper => exact immediate .srli upper
  · next upper => exact immediate .srai upper
  · next upper => exact immediate .andi upper
  · next upper =>
    split at decoded
    · next bit =>
      split at decoded
      · next lower => exact arith .sub upper bit lower
      · next lower => exact arith .xor upper bit lower
      · next lower => exact arith .or upper bit lower
      · next lower => exact arith .and upper bit lower
      · cases decoded
    · next bit =>
      split at decoded
      · next lower => exact arith .subw upper bit lower
      · next lower => exact arith .addw upper bit lower
      · cases decoded
    · cases decoded
  · cases decoded

theorem decodeQuadrant1_compressed (last : x.extractLsb' 0 2 = 1)
    (decoded : decodeQuadrant1 (x.setWidth 32) = .ok insn) : Compressed x := by
  have whole (funct3 : BitVec 3) (third : (x.extractLsb' 13 3).toNat = funct3.toNat) :=
    cword_of (BitVec.eq_of_toNat_eq third) last
  obtain ⟨imm, bit, five⟩ := exists_imm6 (x.extractLsb' 12 1) (x.extractLsb' 2 5)
  simp only [decodeQuadrant1, toNat_copcode, setWidth_promoted, rc1_promoted] at decoded
  split at decoded
  · next third =>
    refine ⟨.addi (x.extractLsb' 7 5) imm, by simp, ?_⟩
    rw [CInstr.encode, bit, five]
    exact whole 0 third
  · next third =>
    rw [insnCitypeRead_of bit.symm five.symm] at decoded
    refine ⟨.addiw (x.extractLsb' 7 5) imm (cassert_bind_ok.mp decoded).1, by simp, ?_⟩
    rw [CInstr.encode, bit, five]
    exact whole 1 third
  · next third =>
    refine ⟨.li (x.extractLsb' 7 5) imm, by simp, ?_⟩
    rw [CInstr.encode, bit, five]
    exact whole 2 third
  · next third =>
    split_ifs at decoded with stack
    · obtain ⟨offset, bit, five⟩ := exists_addi16sp (x.extractLsb' 12 1) (x.extractLsb' 2 5)
      rw [insnCitypeRead3_of bit.symm five.symm] at decoded
      have nonzero : offset ≠ 0 := by
        rintro rfl
        exact (cassert_bind_ok.mp decoded).1 rfl
      refine ⟨.addi16sp offset nonzero, by simp, ?_⟩
      rw [CInstr.encode, bit, five, ← stack]
      exact whole 3 third
    · rw [insnCitypeRead5_of bit.symm five.symm] at decoded
      have nonzero : imm ≠ 0 := by
        rintro rfl
        exact (cassert_bind_ok.mp decoded).1 rfl
      refine ⟨.lui (x.extractLsb' 7 5) imm stack nonzero, by simp, ?_⟩
      rw [CInstr.encode, bit, five]
      exact whole 3 third
  · next third =>
    exact decodeQuadrant1Alu_compressed last (BitVec.eq_of_toNat_eq third) decoded
  · next third =>
    obtain ⟨offset, bit, high, low⟩ :=
      exists_jump (x.extractLsb' 12 1) (x.extractLsb' 7 5) (x.extractLsb' 2 5)
    refine ⟨.j offset, by simp, ?_⟩
    rw [CInstr.encode, bit, high, low]
    exact whole 5 third
  · next third =>
    obtain ⟨offset, rs1, bit, high, low⟩ :=
      exists_branch (x.extractLsb' 12 1) (x.extractLsb' 7 5) (x.extractLsb' 2 5)
    refine ⟨.beqz rs1 offset, by simp, ?_⟩
    rw [CInstr.encode, branchWord, bit, high, low]
    exact whole 6 third
  · next third =>
    obtain ⟨offset, rs1, bit, high, low⟩ :=
      exists_branch (x.extractLsb' 12 1) (x.extractLsb' 7 5) (x.extractLsb' 2 5)
    refine ⟨.bnez rs1 offset, by simp, ?_⟩
    rw [CInstr.encode, branchWord, bit, high, low]
    exact whole 7 third
  · cases decoded

theorem decodeQuadrant2Jump_compressed (last : x.extractLsb' 0 2 = 2)
    (third : x.extractLsb' 13 3 = 4)
    (decoded : decodeQuadrant2Jump (x.setWidth 32) = .ok insn) : Compressed x := by
  have whole := cword_of third last
  simp only [decodeQuadrant2Jump, toNat_cfunct1, setWidth_promoted, insnCrtypeRead_of] at decoded
  split at decoded
  · next bit =>
    have clear : x.extractLsb' 12 1 = 0 := BitVec.eq_of_toNat_eq bit
    rw [clear] at whole
    split_ifs at decoded with second
    · rw [second] at whole
      exact ⟨.jr (x.extractLsb' 7 5) (cassert_bind_ok.mp decoded).1, by simp, whole⟩
    · exact ⟨.mv (x.extractLsb' 7 5) (x.extractLsb' 2 5) second, by simp, whole⟩
  · next bit =>
    have set : x.extractLsb' 12 1 = 1 := BitVec.eq_of_toNat_eq bit
    rw [set] at whole
    split_ifs at decoded with both second
    · rw [second] at whole
      exact ⟨.jalr (x.extractLsb' 7 5) (fun first => both ⟨first, second⟩), by simp, whole⟩
    · exact ⟨.add (x.extractLsb' 7 5) (x.extractLsb' 2 5) second, by simp, whole⟩
  · cases decoded

theorem decodeQuadrant2_compressed (last : x.extractLsb' 0 2 = 2)
    (decoded : decodeQuadrant2 (x.setWidth 32) = .ok insn) : Compressed x := by
  have whole (funct3 : BitVec 3) (third : (x.extractLsb' 13 3).toNat = funct3.toNat) :=
    cword_of (BitVec.eq_of_toNat_eq third) last
  simp only [decodeQuadrant2, toNat_copcode, setWidth_promoted] at decoded
  split at decoded
  · next third =>
    obtain ⟨shamt, bit, five⟩ := exists_imm6 (x.extractLsb' 12 1) (x.extractLsb' 2 5)
    refine ⟨.slli (x.extractLsb' 7 5) shamt, by simp, ?_⟩
    rw [CInstr.encode, bit, five]
    exact whole 0 third
  · next third =>
    obtain ⟨offset, bit, five⟩ := exists_stack_double (x.extractLsb' 12 1) (x.extractLsb' 2 5)
    refine ⟨.loadSp .fpDouble (x.extractLsb' 7 5) offset (.inl rfl), by simp, ?_⟩
    rw [CInstr.encode, bit, five]
    · exact whole 1 third
    · simp
  · next third =>
    obtain ⟨offset, bit, five⟩ := exists_stack_word (x.extractLsb' 12 1) (x.extractLsb' 2 5)
    rw [insnCitypeRead4_of bit.symm five.symm] at decoded
    refine ⟨.loadSp .word (x.extractLsb' 7 5) offset (.inr (cassert_bind_ok.mp decoded).1),
      by simp, ?_⟩
    rw [CInstr.encode, bit, five]
    exact whole 2 third
  · next third =>
    obtain ⟨offset, bit, five⟩ := exists_stack_double (x.extractLsb' 12 1) (x.extractLsb' 2 5)
    rw [insnCitypeRead2_of bit.symm five.symm] at decoded
    refine ⟨.loadSp .double (x.extractLsb' 7 5) offset (.inr (cassert_bind_ok.mp decoded).1),
      by simp, ?_⟩
    rw [CInstr.encode, bit, five]
    · exact whole 3 third
    · simp
  · next third =>
    exact decodeQuadrant2Jump_compressed last (BitVec.eq_of_toNat_eq third) decoded
  · next third =>
    obtain ⟨offset, bit, five⟩ := exists_stack_double (x.extractLsb' 12 1) (x.extractLsb' 7 5)
    refine ⟨.storeSp .fpDouble (x.extractLsb' 2 5) offset, by simp, ?_⟩
    rw [CInstr.encode, bit, five]
    · exact whole 5 third
    · simp
  · next third =>
    obtain ⟨offset, bit, five⟩ := exists_stack_word (x.extractLsb' 12 1) (x.extractLsb' 7 5)
    refine ⟨.storeSp .word (x.extractLsb' 2 5) offset, by simp, ?_⟩
    rw [CInstr.encode, bit, five]
    exact whole 6 third
  · next third =>
    obtain ⟨offset, bit, five⟩ := exists_stack_double (x.extractLsb' 12 1) (x.extractLsb' 7 5)
    refine ⟨.storeSp .double (x.extractLsb' 2 5) offset, by simp, ?_⟩
    rw [CInstr.encode, bit, five]
    · exact whole 7 third
    · simp
  · cases decoded

end Halves

/-! ## Any word -/

section Decoder

variable {data : U32} {insn old : Insn}

theorem quadrant_ne_three (half : Field.quadrant data ≠ 3) :
    (data.setWidth 16).extractLsb' 0 2 ≠ 3#2 := by
  intro last
  apply half
  rw [extract_narrow data (by omega)] at last
  have number : (Field.quadrant data).toNat = 3 :=
    (Field.toNat_quadrant data).trans (congrArg BitVec.toNat last)
  exact BitVec.eq_of_toNat_eq number

/-- **A 16-bit word that is accepted** is the word of a compressed instruction. -/
theorem compressed_of_ok (half : Field.quadrant data ≠ 3)
    (decoded : insnDecode old data = .ok insn) : Compressed (data.setWidth 16) := by
  have apart := quadrant_ne_three half
  rw [← insnDecode_low data old half, lowHalf] at decoded
  have choice (q : BitVec 2) : q = 0 ∨ q = 1 ∨ q = 2 ∨ q = 3 := by
    revert q
    decide
  rcases choice ((data.setWidth 16).extractLsb' 0 2) with last | last | last | last
  · rw [insnDecode_quadrant0 old last] at decoded
    exact decodeQuadrant0_compressed last decoded
  · rw [insnDecode_quadrant1 old last] at decoded
    exact decodeQuadrant1_compressed last decoded
  · rw [insnDecode_quadrant2 old last] at decoded
    exact decodeQuadrant2_compressed last decoded
  · exact absurd last apart

/-- A 16-bit word, or a word of one of the integer groups. -/
def Covered (data : U32) : Prop := Field.quadrant data ≠ 3 ∨ IntegerGroup data

/-- **A word that is accepted** is legal, or a JALR with a reserved `funct3`. -/
theorem insnDecode_legal (covered : Covered data) (jalr : ¬ ReservedJalr data)
    (decoded : insnDecode old data = .ok insn) : Legal data := by
  by_cases low : Field.quadrant data = 3
  · have whole : insnDecode old data = decodeQuadrant3 old data := by
      rw [insnDecode, low]
      rfl
    rw [whole] at decoded
    exact decodeQuadrant3_legal low (covered.resolve_left (not_not_intro low)) jalr decoded
  · obtain ⟨c, -, same⟩ := compressed_of_ok low decoded
    exact .inr ⟨c, same⟩

/-- A JALR with a reserved `funct3` is accepted. -/
theorem reservedJalr_accepted (reserved : ReservedJalr data) :
    insnDecode old data = .ok { insnItypeRead data with type := .jalr, cont := true } := by
  obtain ⟨low, group, -⟩ := reserved
  rw [insnDecode, low]
  change decodeQuadrant3 old data = _
  rw [decodeQuadrant3, group]
  rfl

/-- The group and `funct3` of an instruction that is not a JALR with `funct3` zero. -/
theorem encode_ne_reservedJalr (i : Instr) : ¬ ReservedJalr i.encode := by
  rintro ⟨-, group, third⟩
  cases i with
  | jalr rd rs1 imm =>
    apply third
    apply BitVec.eq_of_toNat_eq
    rw [Instr.encode, iType, toNat_funct3_word]
    rfl
  | fused op p rd rs1 rs2 rs3 rm =>
    rw [Instr.encode, r4Type, toNat_opcode_word] at group
    cases op <;> cases group
  | _ =>
    simp only [Instr.encode, iType, sType, bType, uType, jType, rType, toNat_opcode_word] at group
    cases group

/-- No compressed instruction has the low bits of a 32-bit word. -/
theorem encode_quadrant (c : CInstr) : c.encode.extractLsb' 0 2 ≠ 3#2 := by
  cases c with
  | load op rd rs1 offset =>
    cases op <;> rw [CInstr.encode, accessWord, quadrant_cword] <;> decide
  | store op rs1 rs2 offset =>
    cases op <;> rw [CInstr.encode, accessWord, quadrant_cword] <;> decide
  | loadSp op rd offset nonzero =>
    cases op <;> simp only [CInstr.encode, quadrant_cword] <;> decide
  | storeSp op rs2 offset =>
    cases op <;> simp only [CInstr.encode, quadrant_cword] <;> decide
  | _ =>
    simp only [CInstr.encode, branchWord, quadrant_cword]
    decide

theorem reservedJalr_illegal (reserved : ReservedJalr data) : ¬ Legal data := by
  rintro (⟨i, rfl⟩ | ⟨c, same⟩)
  · exact encode_ne_reservedJalr i reserved
  · apply encode_quadrant c
    have within : InGroup 0x19 data := .of reserved.1 reserved.2.1
    have low := within.low
    rw [same, extract_narrow data (by omega), low]

end Decoder

/-! ## Only legal words -/

/-- Only a legal word is decoded; any other ends the process in `fatal`, `unreachable` or a
failed assertion. -/
structure OnlyLegal (data : U32) : Prop where
  accepts : ∀ old insn, insnDecode old data = .ok insn → Legal data
  rejects : ¬ Legal data → ∀ old, ∃ abort, insnDecode old data = .error abort ∧ abort.Deliberate

/-- **Legality of the accepted words.** Among the 16-bit words and the words of the integer
groups, the decoder accepts only legal ones, except for a JALR whose `funct3` is not zero. -/
theorem onlyLegal_iff (data : U32) (covered : Covered data) :
    OnlyLegal data ↔ ¬ ReservedJalr data := by
  constructor
  · intro only reserved
    exact reservedJalr_illegal reserved
      (only.accepts {} _ (reservedJalr_accepted reserved))
  · intro jalr
    refine ⟨fun old insn decoded => insnDecode_legal covered jalr decoded, ?_⟩
    intro illegal old
    cases result : insnDecode old data with
    | ok insn => exact absurd (insnDecode_legal covered jalr result) illegal
    | error abort => exact ⟨abort, rfl, (insnDecode_fails data old).deliberate abort result⟩

/-- A RET. -/
theorem onlyLegal_iff_ret : OnlyLegal 0x00008067 ↔ ¬ ReservedJalr 0x00008067 :=
  onlyLegal_iff 0x00008067 (.inr (by decide))

/-- The word of a RET with one in `funct3` is reserved, and it is decoded as a RET. -/
theorem reserved_ret_accepted :
    insnDecode {} 0x00009067 = .ok { type := .jalr, rs1 := 1, cont := true } ∧
      ¬ Legal 0x00009067 :=
  ⟨rfl, reservedJalr_illegal ⟨rfl, rfl, by decide⟩⟩

end RiscvEmu
