import RiscvEmu.Decode

/-!
# What every decoded instruction looks like

Four facts about `insnDecode`, each proved by following the switch once.

* A word of quadrant 3 decodes to a 32-bit instruction and any other word to a
  16-bit one, and the block ends after the instruction exactly when it is a
  jump or an ECALL (`insnDecode_shape`).
* The record that is passed in shows only through an ECALL (`insnDecode_old`).
* A compressed instruction does not depend on the upper half of the fetched
  word (`insnDecode_low`).
* A word that is not decoded ends the process in `fatal`, `unreachable` or an
  assertion (`insnDecode_fails`).
-/

set_option autoImplicit false

namespace RiscvEmu

/-- The types whose instructions the decoder marks with `cont`. -/
def InsnType.jumps : InsnType → Bool
  | .jalr | .jal | .ecall => true
  | _ => false

/-- The flags agree with the size and the type of the instruction. -/
structure Insn.Shaped (insn : Insn) (rvc : Bool) : Prop where
  rvc_eq : insn.rvc = rvc
  cont_eq : insn.cont = insn.type.jumps

/-- A leaf of the switch: the record that is returned has the shape. -/
theorem Insn.Shaped.of_ok {insn result : Insn} {rvc : Bool} (shaped : insn.Shaped rvc)
    (decoded : (Except.ok insn : Except Abort Insn) = .ok result) : result.Shaped rvc := by
  cases decoded
  exact shaped

/-- A leaf of the switch behind an assertion. -/
theorem Insn.Shaped.of_guarded {insn result : Insn} {rvc : Bool} {cond : Prop} [Decidable cond]
    {text : String} (shaped : insn.Shaped rvc)
    (decoded : (cassert cond text >>= fun _ => pure insn) = .ok result) : result.Shaped rvc :=
  shaped.of_ok (cassert_bind_ok.mp decoded).2

section Groups

variable {data : U32} {insn : Insn}

theorem decodeQuadrant0_shaped (decoded : decodeQuadrant0 data = .ok insn) :
    insn.Shaped true := by
  simp only [decodeQuadrant0] at decoded
  repeat' split at decoded
  all_goals first
    | exact .of_guarded ⟨rfl, rfl⟩ decoded
    | exact .of_ok ⟨rfl, rfl⟩ decoded
    | cases decoded

theorem decodeQuadrant1Alu_shaped (decoded : decodeQuadrant1Alu data = .ok insn) :
    insn.Shaped true := by
  simp only [decodeQuadrant1Alu] at decoded
  repeat' split at decoded
  all_goals first
    | exact .of_ok ⟨rfl, rfl⟩ decoded
    | cases decoded

theorem decodeQuadrant1_shaped (decoded : decodeQuadrant1 data = .ok insn) :
    insn.Shaped true := by
  simp only [decodeQuadrant1] at decoded
  repeat' split at decoded
  all_goals first
    | exact .of_guarded ⟨rfl, rfl⟩ decoded
    | exact .of_ok ⟨rfl, rfl⟩ decoded
    | exact decodeQuadrant1Alu_shaped decoded
    | cases decoded

theorem decodeQuadrant2Jump_shaped (decoded : decodeQuadrant2Jump data = .ok insn) :
    insn.Shaped true := by
  simp only [decodeQuadrant2Jump] at decoded
  repeat' split at decoded
  all_goals first
    | exact .of_guarded ⟨rfl, rfl⟩ decoded
    | exact .of_ok ⟨rfl, rfl⟩ decoded
    | cases decoded

theorem decodeQuadrant2_shaped (decoded : decodeQuadrant2 data = .ok insn) :
    insn.Shaped true := by
  simp only [decodeQuadrant2] at decoded
  repeat' split at decoded
  all_goals first
    | exact .of_guarded ⟨rfl, rfl⟩ decoded
    | exact .of_ok ⟨rfl, rfl⟩ decoded
    | exact decodeQuadrant2Jump_shaped decoded
    | cases decoded

theorem decodeLoad_shaped (decoded : decodeLoad data = .ok insn) :
    insn.Shaped false := by
  simp only [decodeLoad] at decoded
  repeat' split at decoded
  all_goals first
    | exact .of_ok ⟨rfl, rfl⟩ decoded
    | cases decoded

theorem decodeLoadFp_shaped (decoded : decodeLoadFp data = .ok insn) :
    insn.Shaped false := by
  simp only [decodeLoadFp] at decoded
  repeat' split at decoded
  all_goals first
    | exact .of_ok ⟨rfl, rfl⟩ decoded
    | cases decoded

theorem decodeMiscMem_shaped (decoded : decodeMiscMem data = .ok insn) :
    insn.Shaped false := by
  simp only [decodeMiscMem] at decoded
  repeat' split at decoded
  all_goals first
    | exact .of_ok ⟨rfl, rfl⟩ decoded
    | cases decoded

theorem decodeOpImm_shaped (decoded : decodeOpImm data = .ok insn) :
    insn.Shaped false := by
  simp only [decodeOpImm] at decoded
  repeat' split at decoded
  all_goals first
    | exact .of_ok ⟨rfl, rfl⟩ decoded
    | cases decoded

theorem decodeStore_shaped (decoded : decodeStore data = .ok insn) :
    insn.Shaped false := by
  simp only [decodeStore] at decoded
  repeat' split at decoded
  all_goals first
    | exact .of_ok ⟨rfl, rfl⟩ decoded
    | cases decoded

theorem decodeStoreFp_shaped (decoded : decodeStoreFp data = .ok insn) :
    insn.Shaped false := by
  simp only [decodeStoreFp] at decoded
  repeat' split at decoded
  all_goals first
    | exact .of_ok ⟨rfl, rfl⟩ decoded
    | cases decoded

theorem decodeOp_shaped (decoded : decodeOp data = .ok insn) :
    insn.Shaped false := by
  simp only [decodeOp] at decoded
  repeat' split at decoded
  all_goals first
    | exact .of_ok ⟨rfl, rfl⟩ decoded
    | cases decoded

theorem decodeOp32_shaped (decoded : decodeOp32 data = .ok insn) :
    insn.Shaped false := by
  simp only [decodeOp32] at decoded
  repeat' split at decoded
  all_goals first
    | exact .of_ok ⟨rfl, rfl⟩ decoded
    | cases decoded

theorem decodeBranch_shaped (decoded : decodeBranch data = .ok insn) :
    insn.Shaped false := by
  simp only [decodeBranch] at decoded
  repeat' split at decoded
  all_goals first
    | exact .of_ok ⟨rfl, rfl⟩ decoded
    | cases decoded

theorem decodeOpImm32_shaped (decoded : decodeOpImm32 data = .ok insn) :
    insn.Shaped false := by
  simp only [decodeOpImm32] at decoded
  repeat' split at decoded
  all_goals first
    | exact .of_guarded ⟨rfl, rfl⟩ decoded
    | exact .of_ok ⟨rfl, rfl⟩ decoded
    | cases decoded

/-- A record without `rvc` and `cont` takes the shape of any type that does not end a block. -/
theorem Insn.Shaped.of_type {insn : Insn} {type : InsnType} (rvc : insn.rvc = false)
    (cont : insn.cont = false) (straight : type.jumps = false) :
    ({ insn with type := type } : Insn).Shaped false :=
  ⟨rvc, cont.trans straight.symm⟩

theorem decodeFused_shaped {single double : InsnType} (hs : single.jumps = false)
    (hd : double.jumps = false) (decoded : decodeFused single double data = .ok insn) :
    insn.Shaped false := by
  simp only [decodeFused] at decoded
  split at decoded
  · exact .of_ok (.of_type rfl rfl hs) decoded
  · exact .of_ok (.of_type rfl rfl hd) decoded
  · cases decoded

theorem decodeFunct3Of3_shaped {t0 t1 t2 : InsnType} {fields : Insn} (rvc : fields.rvc = false)
    (cont : fields.cont = false) (h0 : t0.jumps = false) (h1 : t1.jumps = false)
    (h2 : t2.jumps = false) (decoded : decodeFunct3Of3 fields t0 t1 t2 data = .ok insn) :
    insn.Shaped false := by
  simp only [decodeFunct3Of3] at decoded
  split at decoded
  · exact .of_ok (.of_type rvc cont h0) decoded
  · exact .of_ok (.of_type rvc cont h1) decoded
  · exact .of_ok (.of_type rvc cont h2) decoded
  · cases decoded

theorem decodeFunct3Of2_shaped {t0 t1 : InsnType} {fields : Insn} (rvc : fields.rvc = false)
    (cont : fields.cont = false) (h0 : t0.jumps = false) (h1 : t1.jumps = false)
    (decoded : decodeFunct3Of2 fields t0 t1 data = .ok insn) : insn.Shaped false := by
  simp only [decodeFunct3Of2] at decoded
  split at decoded
  · exact .of_ok (.of_type rvc cont h0) decoded
  · exact .of_ok (.of_type rvc cont h1) decoded
  · cases decoded

theorem decodeRs2Of4_shaped {t0 t1 t2 t3 : InsnType} {fields : Insn} (rvc : fields.rvc = false)
    (cont : fields.cont = false) (h0 : t0.jumps = false) (h1 : t1.jumps = false)
    (h2 : t2.jumps = false) (h3 : t3.jumps = false)
    (decoded : decodeRs2Of4 fields t0 t1 t2 t3 data = .ok insn) : insn.Shaped false := by
  simp only [decodeRs2Of4] at decoded
  split at decoded
  · exact .of_ok (.of_type rvc cont h0) decoded
  · exact .of_ok (.of_type rvc cont h1) decoded
  · exact .of_ok (.of_type rvc cont h2) decoded
  · exact .of_ok (.of_type rvc cont h3) decoded
  · cases decoded

theorem decodeOpFp_shaped (decoded : decodeOpFp data = .ok insn) : insn.Shaped false := by
  simp only [decodeOpFp] at decoded
  split at decoded
  all_goals first
    | exact decodeFunct3Of3_shaped rfl rfl rfl rfl rfl decoded
    | exact decodeFunct3Of2_shaped rfl rfl rfl rfl decoded
    | exact decodeRs2Of4_shaped rfl rfl rfl rfl rfl rfl decoded
    | exact decodeFunct3Of2_shaped rfl rfl rfl rfl (cassert_bind_ok.mp decoded).2
    | exact .of_guarded ⟨rfl, rfl⟩ decoded
    | exact .of_ok ⟨rfl, rfl⟩ decoded
    | cases decoded

theorem decodeSystem_shaped {old : Insn} (fresh : old.rvc = false)
    (decoded : decodeSystem old data = .ok insn) : insn.Shaped false := by
  simp only [decodeSystem] at decoded
  repeat' split at decoded
  · cases decoded
    exact ⟨fresh, rfl⟩
  all_goals first
    | exact .of_ok ⟨rfl, rfl⟩ decoded
    | cases decoded

theorem decodeQuadrant3_shaped {old : Insn} (fresh : old.rvc = false)
    (decoded : decodeQuadrant3 old data = .ok insn) : insn.Shaped false := by
  simp only [decodeQuadrant3] at decoded
  split at decoded
  · exact decodeLoad_shaped decoded
  · exact decodeLoadFp_shaped decoded
  · exact decodeMiscMem_shaped decoded
  · exact decodeOpImm_shaped decoded
  · exact .of_ok ⟨rfl, rfl⟩ decoded
  · exact decodeOpImm32_shaped decoded
  · exact decodeStore_shaped decoded
  · exact decodeStoreFp_shaped decoded
  · exact decodeOp_shaped decoded
  · exact .of_ok ⟨rfl, rfl⟩ decoded
  · exact decodeOp32_shaped decoded
  · exact decodeFused_shaped rfl rfl decoded
  · exact decodeFused_shaped rfl rfl decoded
  · exact decodeFused_shaped rfl rfl decoded
  · exact decodeFused_shaped rfl rfl decoded
  · exact decodeOpFp_shaped decoded
  · exact decodeBranch_shaped decoded
  · exact .of_ok ⟨rfl, rfl⟩ decoded
  · exact .of_ok ⟨rfl, rfl⟩ decoded
  · exact decodeSystem_shaped fresh decoded
  · cases decoded

end Groups

/-- **The flags of a decoded instruction.** It is a 16-bit one exactly when the
quadrant is not 3, and it ends its block exactly when it is a jump or an ECALL. -/
theorem insnDecode_shape {old insn : Insn} {data : U32} (fresh : old.rvc = false)
    (decoded : insnDecode old data = .ok insn) :
    insn.Shaped (decide (Field.quadrant data ≠ 3)) := by
  have width : ∀ {k : Nat}, (Field.quadrant data).toNat = k →
      decide (Field.quadrant data ≠ 3) = decide (k ≠ 3) := by
    intro k eq
    rw [← eq]
    congr 1
    simp [← BitVec.toNat_inj]
  simp only [insnDecode] at decoded
  split at decoded
  · next eq => exact width eq ▸ decodeQuadrant0_shaped decoded
  · next eq => exact width eq ▸ decodeQuadrant1_shaped decoded
  · next eq => exact width eq ▸ decodeQuadrant2_shaped decoded
  · next eq => exact width eq ▸ decodeQuadrant3_shaped fresh decoded
  · cases decoded

/-! ## The record passed in -/

/-- An ECALL keeps the record and sets the type and `cont`. -/
theorem insnDecode_ecall (old : Insn) :
    insnDecode old 0x73 = .ok { old with type := .ecall, cont := true } := rfl

/-- **Only an ECALL shows the record passed in.** -/
theorem insnDecode_old {data : U32} (old old' : Insn) (other : data ≠ 0x73) :
    insnDecode old data = insnDecode old' data := by
  have system : decodeSystem old data = decodeSystem old' data := by
    simp only [decodeSystem, if_neg other]
  simp only [insnDecode, decodeQuadrant3, system]

/-! ## The upper half of a fetched word -/

section Low

/-- The word with its upper half cleared. -/
def lowHalf (data : U32) : U32 := (data.setWidth 16).setWidth 32

theorem setWidth_lowHalf (data : U32) : (lowHalf data).setWidth 16 = data.setWidth 16 := by
  simp [lowHalf]

theorem bits_lowHalf (data : U32) (shift width : Nat) (le : shift + width ≤ 16) :
    bits (lowHalf data) shift (BitVec.ofNat 32 (2 ^ width - 1)) =
      bits data shift (BitVec.ofNat 32 (2 ^ width - 1)) := by
  apply BitVec.eq_of_getLsbD_eq
  intro i bound
  simp only [bits, lowHalf, BitVec.getLsbD_and, BitVec.getLsbD_ushiftRight,
    BitVec.getLsbD_setWidth, BitVec.getLsbD_ofNat, Nat.testBit_two_pow_sub_one]
  by_cases inside : i < width
  · simp [inside, show shift + i < 16 by omega, show shift + i < 32 by omega]
  · simp [inside]

variable (data : U32)

theorem copcode_lowHalf : Field.copcode (lowHalf data) = Field.copcode data :=
  bits_lowHalf data 13 3 (by omega)

theorem cfunct1_lowHalf : Field.cfunct1 (lowHalf data) = Field.cfunct1 data :=
  bits_lowHalf data 12 1 (by omega)

theorem cfunct2low_lowHalf : Field.cfunct2low (lowHalf data) = Field.cfunct2low data :=
  bits_lowHalf data 5 2 (by omega)

theorem cfunct2high_lowHalf : Field.cfunct2high (lowHalf data) = Field.cfunct2high data :=
  bits_lowHalf data 10 2 (by omega)

theorem rc1_lowHalf : Field.rc1 (lowHalf data) = Field.rc1 data :=
  congrArg (BitVec.setWidth 5) (bits_lowHalf data 7 5 (by omega))

theorem quadrant_lowHalf : Field.quadrant (lowHalf data) = Field.quadrant data := by
  simpa [bits, Field.quadrant] using bits_lowHalf data 0 2 (by omega)

/-- **A compressed instruction is decoded from the low half of the word.** -/
theorem insnDecode_low (old : Insn) (compressed : Field.quadrant data ≠ 3) :
    insnDecode old (lowHalf data) = insnDecode old data := by
  have notThree : (Field.quadrant data).toNat ≠ 3 := fun eq =>
    compressed (BitVec.eq_of_toNat_eq (by simpa using eq))
  simp only [insnDecode, quadrant_lowHalf]
  split
  · simp only [decodeQuadrant0, copcode_lowHalf, setWidth_lowHalf]
  · simp only [decodeQuadrant1, decodeQuadrant1Alu, copcode_lowHalf, cfunct1_lowHalf,
      cfunct2low_lowHalf, cfunct2high_lowHalf, rc1_lowHalf, setWidth_lowHalf]
  · simp only [decodeQuadrant2, decodeQuadrant2Jump, copcode_lowHalf, cfunct1_lowHalf,
      setWidth_lowHalf]
  · next eq => exact absurd eq notThree
  · rfl

end Low

/-! ## How decoding fails -/

/-- The source ends the process by `assert`, `fatal` or `unreachable`. -/
inductive Abort.Deliberate : Abort → Prop where
  | assertion (text : String) : Deliberate (.assertion text)
  | fatal (message : String) : Deliberate (.fatal message)
  | unreachable : Deliberate .unreachable

/-- A result that is an instruction or a deliberate end of the process. -/
structure FailsDeliberately (result : Except Abort Insn) : Prop where
  deliberate : ∀ abort, result = .error abort → abort.Deliberate

namespace FailsDeliberately

theorem ok (insn : Insn) : FailsDeliberately (.ok insn) := by
  refine ⟨fun abort died => ?_⟩
  cases died

theorem fatal (message : String) : FailsDeliberately (.error (.fatal message)) := by
  refine ⟨fun abort died => ?_⟩
  cases died
  exact .fatal message

theorem unreachable : FailsDeliberately (.error .unreachable) := by
  refine ⟨fun abort died => ?_⟩
  cases died
  exact .unreachable

theorem guarded {cond : Prop} [Decidable cond] {text : String} {rest : Except Abort Insn}
    (fails : FailsDeliberately rest) : FailsDeliberately (cassert cond text >>= fun _ => rest) := by
  refine ⟨fun abort died => ?_⟩
  by_cases holds : cond
  · rw [cassert, if_pos holds] at died
    exact fails.deliberate abort died
  · rw [cassert, if_neg holds] at died
    cases died
    exact .assertion text

end FailsDeliberately

section Failures

open FailsDeliberately

variable (data : U32)

theorem decodeQuadrant0_fails : FailsDeliberately (decodeQuadrant0 data) := by
  simp only [decodeQuadrant0]
  split <;> first | exact guarded (ok _) | exact ok _ | exact fatal _

theorem decodeQuadrant1_fails : FailsDeliberately (decodeQuadrant1 data) := by
  simp only [decodeQuadrant1, decodeQuadrant1Alu]
  repeat' split
  all_goals first | exact guarded (ok _) | exact ok _ | exact fatal _ | exact unreachable

theorem decodeQuadrant2_fails : FailsDeliberately (decodeQuadrant2 data) := by
  simp only [decodeQuadrant2, decodeQuadrant2Jump]
  repeat' split
  all_goals first | exact guarded (ok _) | exact ok _ | exact fatal _ | exact unreachable

theorem decodeOp_fails : FailsDeliberately (decodeOp data) := by
  simp only [decodeOp]
  repeat' split
  all_goals first | exact ok _ | exact unreachable

theorem decodeOp32_fails : FailsDeliberately (decodeOp32 data) := by
  simp only [decodeOp32]
  repeat' split
  all_goals first | exact ok _ | exact unreachable

theorem decodeOpImm_fails : FailsDeliberately (decodeOpImm data) := by
  simp only [decodeOpImm]
  repeat' split
  all_goals first | exact ok _ | exact fatal _ | exact unreachable

theorem decodeOpImm32_fails : FailsDeliberately (decodeOpImm32 data) := by
  simp only [decodeOpImm32]
  repeat' split
  all_goals first | exact guarded (ok _) | exact ok _ | exact fatal _ | exact unreachable

theorem decodeFunct3Of3_fails (insn : Insn) (t0 t1 t2 : InsnType) :
    FailsDeliberately (decodeFunct3Of3 insn t0 t1 t2 data) := by
  simp only [decodeFunct3Of3]
  split <;> first | exact ok _ | exact unreachable

theorem decodeFunct3Of2_fails (insn : Insn) (t0 t1 : InsnType) :
    FailsDeliberately (decodeFunct3Of2 insn t0 t1 data) := by
  simp only [decodeFunct3Of2]
  split <;> first | exact ok _ | exact unreachable

theorem decodeRs2Of4_fails (insn : Insn) (t0 t1 t2 t3 : InsnType) :
    FailsDeliberately (decodeRs2Of4 insn t0 t1 t2 t3 data) := by
  simp only [decodeRs2Of4]
  split <;> first | exact ok _ | exact unreachable

theorem decodeOpFp_fails : FailsDeliberately (decodeOpFp data) := by
  simp only [decodeOpFp]
  split
  all_goals first
    | exact decodeFunct3Of3_fails data ..
    | exact decodeFunct3Of2_fails data ..
    | exact decodeRs2Of4_fails data ..
    | exact guarded (ok _)
    | exact guarded (decodeFunct3Of2_fails data ..)
    | exact ok _
    | exact unreachable

theorem decodeSystem_fails (old : Insn) : FailsDeliberately (decodeSystem old data) := by
  simp only [decodeSystem]
  repeat' split
  all_goals first | exact ok _ | exact unreachable

theorem decodeQuadrant3_fails (old : Insn) : FailsDeliberately (decodeQuadrant3 old data) := by
  simp only [decodeQuadrant3, decodeLoad, decodeLoadFp, decodeMiscMem, decodeStore, decodeStoreFp,
    decodeBranch, decodeFused]
  split
  all_goals first
    | exact ok _
    | exact unreachable
    | exact decodeOpImm_fails data
    | exact decodeOpImm32_fails data
    | exact decodeOp_fails data
    | exact decodeOp32_fails data
    | exact decodeOpFp_fails data
    | exact decodeSystem_fails data old
    | split <;> first | exact ok _ | exact unreachable

/-- **A word that is not decoded ends the process** in `fatal`, `unreachable` or an assertion. -/
theorem insnDecode_fails (old : Insn) : FailsDeliberately (insnDecode old data) := by
  rw [insnDecode]
  split
  · exact decodeQuadrant0_fails data
  · exact decodeQuadrant1_fails data
  · exact decodeQuadrant2_fails data
  · exact decodeQuadrant3_fails data old
  · exact unreachable

end Failures

end RiscvEmu
