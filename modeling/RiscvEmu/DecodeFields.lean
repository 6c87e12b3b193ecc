import RiscvEmu.Decode
import RiscvEmu.Foundation.BitFields

/-!
# What the decoder reads from a word

The macros and the operand readers of the decoder shift, mask and or a word. Each of them is
said here in runs of bits: a macro is one run, and an immediate is the runs of its bits side by
side, from the highest bit down, sign-extended where the format is signed.
-/

set_option autoImplicit false

namespace RiscvEmu

open BitFields

theorem bits_eq (data : U32) (s w : Nat) :
    bits data s (BitVec.ofNat 32 (2 ^ w - 1)) = (data.extractLsb' s w).setWidth 32 :=
  shiftRight_mask data s w

/-- A field that is narrower than the word keeps its value. -/
theorem toNat_bits (data : U32) (s w : Nat) (narrow : w ≤ 32) :
    (bits data s (BitVec.ofNat 32 (2 ^ w - 1))).toNat = (data.extractLsb' s w).toNat := by
  rw [bits_eq, BitVec.toNat_setWidth_of_le narrow]

/-- A register field. -/
theorem setWidth_bits (data : U32) (s w : Nat) (narrow : w ≤ 32) :
    (bits data s (BitVec.ofNat 32 (2 ^ w - 1))).setWidth w = data.extractLsb' s w := by
  rw [bits_eq, BitVec.setWidth_setWidth_of_le _ narrow, BitVec.setWidth_eq]

section Words

variable (data : U32)

theorem Field.toNat_quadrant : (Field.quadrant data).toNat = (data.extractLsb' 0 2).toNat := by
  have field := toNat_bits data 0 2 (by omega)
  rwa [bits, BitVec.ushiftRight_zero] at field

theorem Field.toNat_opcode : (Field.opcode data).toNat = (data.extractLsb' 2 5).toNat :=
  toNat_bits data 2 5 (by omega)

theorem Field.toNat_funct2 : (Field.funct2 data).toNat = (data.extractLsb' 25 2).toNat :=
  toNat_bits data 25 2 (by omega)

theorem Field.toNat_funct3 : (Field.funct3 data).toNat = (data.extractLsb' 12 3).toNat :=
  toNat_bits data 12 3 (by omega)

theorem Field.toNat_funct7 : (Field.funct7 data).toNat = (data.extractLsb' 25 7).toNat :=
  toNat_bits data 25 7 (by omega)

theorem Field.toNat_imm116 : (Field.imm116 data).toNat = (data.extractLsb' 26 6).toNat :=
  toNat_bits data 26 6 (by omega)

theorem Field.rd_eq : Field.rd data = data.extractLsb' 7 5 := setWidth_bits data 7 5 (by omega)

theorem Field.rs1_eq : Field.rs1 data = data.extractLsb' 15 5 := setWidth_bits data 15 5 (by omega)

theorem Field.rs2_eq : Field.rs2 data = data.extractLsb' 20 5 := setWidth_bits data 20 5 (by omega)

theorem Field.rs3_eq : Field.rs3 data = data.extractLsb' 27 5 := setWidth_bits data 27 5 (by omega)

/-! ## Immediates of 32-bit instructions -/

theorem insnItypeRead_imm : (insnItypeRead data).imm = (data.extractLsb' 20 12).signExtend 32 :=
  sshiftRight_eq_signExtend data rfl (by omega)

theorem insnUtypeRead_imm : (insnUtypeRead data).imm = data.extractLsb' 12 20 ++ 0#12 :=
  and_high_mask (w := 20) (s := 12) data

theorem insnJtypeRead_imm : (insnJtypeRead data).imm =
    (data.extractLsb' 31 1 ++ data.extractLsb' 12 8 ++ data.extractLsb' 20 1 ++
      data.extractLsb' 21 10 ++ 0#1).signExtend 32 := by
  have imm20 : bits data 31 0x1 = _ := bits_eq data 31 1
  have imm101 : bits data 21 0x3ff = _ := bits_eq data 21 10
  have imm11 : bits data 20 0x1 = _ := bits_eq data 20 1
  have imm1912 : bits data 12 0xff = _ := bits_eq data 12 8
  simp only [insnJtypeRead, imm20, imm101, imm11, imm1912]
  rw [or_append, or_append, or_append, shiftLeft_eq_append]
  · exact signExtend_eq_shift _ rfl (by omega)
  all_goals rfl

theorem insnBtypeRead_imm : (insnBtypeRead data).imm =
    (data.extractLsb' 31 1 ++ data.extractLsb' 7 1 ++ data.extractLsb' 25 6 ++
      data.extractLsb' 8 4 ++ 0#1).signExtend 32 := by
  have imm12 : bits data 31 0x1 = _ := bits_eq data 31 1
  have imm105 : bits data 25 0x3f = _ := bits_eq data 25 6
  have imm41 : bits data 8 0xf = _ := bits_eq data 8 4
  have imm11 : bits data 7 0x1 = _ := bits_eq data 7 1
  simp only [insnBtypeRead, imm12, imm105, imm41, imm11]
  rw [or_append, or_append, or_append, shiftLeft_eq_append]
  · exact signExtend_eq_shift _ rfl (by omega)
  all_goals rfl

theorem insnStypeRead_imm : (insnStypeRead data).imm =
    (data.extractLsb' 25 7 ++ data.extractLsb' 7 5).signExtend 32 := by
  have imm115 : bits data 25 0x7f = _ := bits_eq data 25 7
  have imm40 : bits data 7 0x1f = _ := bits_eq data 7 5
  simp only [insnStypeRead, imm115, imm40]
  rw [or_append_end]
  exact signExtend_eq_shift _ rfl (by omega)

theorem insnCsrtypeRead_csr :
    (insnCsrtypeRead data).csr = (data.extractLsb' 20 12).setWidth 16 := by
  change (data >>> 20).setWidth 16 = _
  rw [shiftRight_eq_extract (w := 12) data rfl, BitVec.setWidth_setWidth_of_le _ (by omega)]

end Words

/-! ## Immediates of 16-bit instructions -/

section Halves

variable (data : U16)

/-- A run of bits of a promoted 16-bit word. -/
theorem bits_promoted (s w : Nat) : bits (data.setWidth 32) s (BitVec.ofNat 32 (2 ^ w - 1)) =
    (data.extractLsb' s w).setWidth 32 := by
  rw [bits_eq, extract_setWidth data (by omega)]

theorem insnCitypeRead_imm : (insnCitypeRead data).imm =
    (data.extractLsb' 12 1 ++ data.extractLsb' 2 5).signExtend 32 := by
  have imm40 : bits (data.setWidth 32) 2 0x1f = _ := bits_promoted data 2 5
  have imm5 : bits (data.setWidth 32) 12 0x1 = _ := bits_promoted data 12 1
  simp only [insnCitypeRead, imm40, imm5]
  rw [or_append_end]
  exact signExtend_eq_shift _ rfl (by omega)

theorem insnCitypeRead2_imm : (insnCitypeRead2 data).imm =
    (data.extractLsb' 2 3 ++ data.extractLsb' 12 1 ++ data.extractLsb' 5 2 ++ 0#3).setWidth 32 := by
  have imm86 : bits (data.setWidth 32) 2 0x7 = _ := bits_promoted data 2 3
  have imm43 : bits (data.setWidth 32) 5 0x3 = _ := bits_promoted data 5 2
  have imm5 : bits (data.setWidth 32) 12 0x1 = _ := bits_promoted data 12 1
  simp only [insnCitypeRead2, imm86, imm43, imm5]
  have order : ∀ a b c : U32, a ||| b ||| c = a ||| c ||| b := by
    intros
    ac_rfl
  rw [order]
  rw [or_append, or_append, shiftLeft_eq_append]
  all_goals rfl

theorem insnCitypeRead3_imm : (insnCitypeRead3 data).imm =
    (data.extractLsb' 12 1 ++ data.extractLsb' 3 2 ++ data.extractLsb' 5 1 ++
      data.extractLsb' 2 1 ++ data.extractLsb' 6 1 ++ 0#4).signExtend 32 := by
  have imm5 : bits (data.setWidth 32) 2 0x1 = _ := bits_promoted data 2 1
  have imm87 : bits (data.setWidth 32) 3 0x3 = _ := bits_promoted data 3 2
  have imm6 : bits (data.setWidth 32) 5 0x1 = _ := bits_promoted data 5 1
  have imm4 : bits (data.setWidth 32) 6 0x1 = _ := bits_promoted data 6 1
  have imm9 : bits (data.setWidth 32) 12 0x1 = _ := bits_promoted data 12 1
  simp only [insnCitypeRead3, imm5, imm87, imm6, imm4, imm9]
  have order : ∀ a b c d e : U32, a ||| b ||| c ||| d ||| e = e ||| b ||| c ||| a ||| d := by
    intros
    ac_rfl
  rw [order]
  rw [or_append, or_append, or_append, or_append, shiftLeft_eq_append]
  · exact signExtend_eq_shift _ rfl (by omega)
  all_goals rfl

theorem insnCitypeRead4_imm : (insnCitypeRead4 data).imm =
    (data.extractLsb' 2 2 ++ data.extractLsb' 12 1 ++ data.extractLsb' 4 3 ++ 0#2).setWidth 32 := by
  have imm5 : bits (data.setWidth 32) 12 0x1 = _ := bits_promoted data 12 1
  have imm42 : bits (data.setWidth 32) 4 0x7 = _ := bits_promoted data 4 3
  have imm76 : bits (data.setWidth 32) 2 0x3 = _ := bits_promoted data 2 2
  simp only [insnCitypeRead4, imm5, imm42, imm76]
  have order : ∀ a b c : U32, a ||| b ||| c = c ||| a ||| b := by
    intros
    ac_rfl
  rw [order]
  rw [or_append, or_append, shiftLeft_eq_append]
  all_goals rfl

theorem insnCitypeRead5_imm : (insnCitypeRead5 data).imm =
    (data.extractLsb' 12 1 ++ data.extractLsb' 2 5 ++ 0#12).signExtend 32 := by
  have imm1612 : bits (data.setWidth 32) 2 0x1f = _ := bits_promoted data 2 5
  have imm17 : bits (data.setWidth 32) 12 0x1 = _ := bits_promoted data 12 1
  simp only [insnCitypeRead5, imm1612, imm17]
  have order : ∀ a b : U32, a ||| b = b ||| a := by
    intros
    ac_rfl
  rw [order]
  rw [or_append, shiftLeft_eq_append]
  · exact signExtend_eq_shift _ rfl (by omega)
  all_goals rfl

theorem insnCbtypeRead_imm : (insnCbtypeRead data).imm =
    (data.extractLsb' 12 1 ++ data.extractLsb' 5 2 ++ data.extractLsb' 2 1 ++
      data.extractLsb' 10 2 ++ data.extractLsb' 3 2 ++ 0#1).signExtend 32 := by
  have imm5 : bits (data.setWidth 32) 2 0x1 = _ := bits_promoted data 2 1
  have imm21 : bits (data.setWidth 32) 3 0x3 = _ := bits_promoted data 3 2
  have imm76 : bits (data.setWidth 32) 5 0x3 = _ := bits_promoted data 5 2
  have imm43 : bits (data.setWidth 32) 10 0x3 = _ := bits_promoted data 10 2
  have imm8 : bits (data.setWidth 32) 12 0x1 = _ := bits_promoted data 12 1
  simp only [insnCbtypeRead, imm5, imm21, imm76, imm43, imm8]
  rw [or_append, or_append, or_append, or_append, shiftLeft_eq_append]
  · exact signExtend_eq_shift _ rfl (by omega)
  all_goals rfl

theorem insnCbtypeRead2_imm : (insnCbtypeRead2 data).imm =
    (data.extractLsb' 12 1 ++ data.extractLsb' 2 5).signExtend 32 :=
  insnCitypeRead_imm data

theorem insnCstypeRead_imm : (insnCstypeRead data).imm =
    (data.extractLsb' 5 2 ++ data.extractLsb' 10 3 ++ 0#3).setWidth 32 := by
  have imm76 : bits (data.setWidth 32) 5 0x3 = _ := bits_promoted data 5 2
  have imm53 : bits (data.setWidth 32) 10 0x7 = _ := bits_promoted data 10 3
  simp only [insnCstypeRead, imm76, imm53]
  rw [or_append, shiftLeft_eq_append]
  all_goals rfl

theorem insnCstypeRead2_imm : (insnCstypeRead2 data).imm =
    (data.extractLsb' 5 1 ++ data.extractLsb' 10 3 ++ data.extractLsb' 6 1 ++ 0#2).setWidth 32 := by
  have imm6 : bits (data.setWidth 32) 5 0x1 = _ := bits_promoted data 5 1
  have imm2 : bits (data.setWidth 32) 6 0x1 = _ := bits_promoted data 6 1
  have imm53 : bits (data.setWidth 32) 10 0x7 = _ := bits_promoted data 10 3
  simp only [insnCstypeRead2, imm6, imm2, imm53]
  have order : ∀ a b c : U32, a ||| b ||| c = a ||| c ||| b := by
    intros
    ac_rfl
  rw [order]
  rw [or_append, or_append, shiftLeft_eq_append]
  all_goals rfl

theorem insnCjtypeRead_imm : (insnCjtypeRead data).imm =
    (data.extractLsb' 12 1 ++ data.extractLsb' 8 1 ++ data.extractLsb' 9 2 ++
      data.extractLsb' 6 1 ++ data.extractLsb' 7 1 ++ data.extractLsb' 2 1 ++
      data.extractLsb' 11 1 ++ data.extractLsb' 3 3 ++ 0#1).signExtend 32 := by
  have imm5 : bits (data.setWidth 32) 2 0x1 = _ := bits_promoted data 2 1
  have imm31 : bits (data.setWidth 32) 3 0x7 = _ := bits_promoted data 3 3
  have imm7 : bits (data.setWidth 32) 6 0x1 = _ := bits_promoted data 6 1
  have imm6 : bits (data.setWidth 32) 7 0x1 = _ := bits_promoted data 7 1
  have imm10 : bits (data.setWidth 32) 8 0x1 = _ := bits_promoted data 8 1
  have imm98 : bits (data.setWidth 32) 9 0x3 = _ := bits_promoted data 9 2
  have imm4 : bits (data.setWidth 32) 11 0x1 = _ := bits_promoted data 11 1
  have imm11 : bits (data.setWidth 32) 12 0x1 = _ := bits_promoted data 12 1
  simp only [insnCjtypeRead, imm5, imm31, imm7, imm6, imm10, imm98, imm4, imm11]
  have order : ∀ a b c d e f g h : U32,
      a ||| b ||| c ||| d ||| e ||| f ||| g ||| h = h ||| e ||| f ||| c ||| d ||| a ||| g ||| b := by
    intros
    ac_rfl
  rw [order]
  rw [or_append, or_append, or_append, or_append, or_append, or_append, or_append,
    shiftLeft_eq_append]
  · exact signExtend_eq_shift _ rfl (by omega)
  all_goals rfl

/-- The loads have the immediates of the stores. -/
theorem insnCltypeRead_imm : (insnCltypeRead data).imm =
    (data.extractLsb' 5 1 ++ data.extractLsb' 10 3 ++ data.extractLsb' 6 1 ++ 0#2).setWidth 32 :=
  insnCstypeRead2_imm data

theorem insnCltypeRead2_imm : (insnCltypeRead2 data).imm =
    (data.extractLsb' 5 2 ++ data.extractLsb' 10 3 ++ 0#3).setWidth 32 :=
  insnCstypeRead_imm data

theorem insnCsstypeRead_imm : (insnCsstypeRead data).imm =
    (data.extractLsb' 7 3 ++ data.extractLsb' 10 3 ++ 0#3).setWidth 32 := by
  have imm86 : bits (data.setWidth 32) 7 0x7 = _ := bits_promoted data 7 3
  have imm53 : bits (data.setWidth 32) 10 0x7 = _ := bits_promoted data 10 3
  simp only [insnCsstypeRead, imm86, imm53]
  rw [or_append, shiftLeft_eq_append]
  all_goals rfl

theorem insnCsstypeRead2_imm : (insnCsstypeRead2 data).imm =
    (data.extractLsb' 7 2 ++ data.extractLsb' 9 4 ++ 0#2).setWidth 32 := by
  have imm76 : bits (data.setWidth 32) 7 0x3 = _ := bits_promoted data 7 2
  have imm52 : bits (data.setWidth 32) 9 0xf = _ := bits_promoted data 9 4
  simp only [insnCsstypeRead2, imm76, imm52]
  rw [or_append, shiftLeft_eq_append]
  all_goals rfl

theorem insnCiwtypeRead_imm : (insnCiwtypeRead data).imm =
    (data.extractLsb' 7 4 ++ data.extractLsb' 11 2 ++ data.extractLsb' 5 1 ++
      data.extractLsb' 6 1 ++ 0#2).setWidth 32 := by
  have imm3 : bits (data.setWidth 32) 5 0x1 = _ := bits_promoted data 5 1
  have imm2 : bits (data.setWidth 32) 6 0x1 = _ := bits_promoted data 6 1
  have imm96 : bits (data.setWidth 32) 7 0xf = _ := bits_promoted data 7 4
  have imm54 : bits (data.setWidth 32) 11 0x3 = _ := bits_promoted data 11 2
  simp only [insnCiwtypeRead, imm3, imm2, imm96, imm54]
  have order : ∀ a b c d : U32, a ||| b ||| c ||| d = c ||| d ||| a ||| b := by
    intros
    ac_rfl
  rw [order]
  rw [or_append, or_append, or_append, shiftLeft_eq_append]
  all_goals rfl

end Halves

end RiscvEmu
