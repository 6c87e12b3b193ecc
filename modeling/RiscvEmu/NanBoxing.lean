import RiscvEmu.Foundation.BitFields
import RiscvEmu.BlockSimulation

/-!
# NaN boxing of single-precision results

A single-precision value in a floating-point register is boxed: the upper half of the register
is all ones. The handlers write through different views of the register. The load and the sign
injections write all of it, the others only the half that holds the value.

* `nanBoxed_iff`: the result of a handler is boxed exactly when it is one of the former or the
  upper half of the register was all ones before.
-/

set_option autoImplicit false

namespace RiscvEmu

section Definitions

/-- The upper half of a register. -/
def fpHigh (reg : U64) : U32 := reg.extractLsb' 32 32

/-- A register holds a single-precision value, boxed. -/
structure NanBoxed (reg : U64) (value : U32) : Prop where
  high : fpHigh reg = BitVec.allOnes 32
  low : fpLow reg = value

/-- The types whose handlers write all of the register. -/
def InsnType.boxes : InsnType → Bool
  | .flw | .fsgnjS | .fsgnjnS | .fsgnjxS => true
  | _ => false

/-- The single-precision value that an instruction writes to `f[rd]`, if it writes one. -/
def Insn.singleResult (F : FloatOps) (insn : Insn) (s : State) : Option U32 :=
  let f1 := fpLow (s.fpRegs insn.rs1)
  let f2 := fpLow (s.fpRegs insn.rs2)
  let f3 := fpLow (s.fpRegs insn.rs3)
  let x1 := s.gpRegs insn.rs1
  match insn.type with
  | .flw => some (Bytes.load s.mem (x1 + insn.imm64) 32)
  | .fmvWX => some (x1.setWidth 32)
  | .fsgnjS => some (fsgnj32 f1 f2 false false)
  | .fsgnjnS => some (fsgnj32 f1 f2 true false)
  | .fsgnjxS => some (fsgnj32 f1 f2 false true)
  | .faddS => some (F.single.add f1 f2)
  | .fsubS => some (F.single.sub f1 f2)
  | .fmulS => some (F.single.mul f1 f2)
  | .fdivS => some (F.single.div f1 f2)
  | .fsqrtS => some (F.single.sqrt f1)
  | .fminS => some (if F.single.lt f1 f2 then f1 else f2)
  | .fmaxS => some (if F.single.gt f1 f2 then f1 else f2)
  | .fmaddS => some (F.single.add (F.single.mul f1 f2) f3)
  | .fmsubS => some (F.single.sub (F.single.mul f1 f2) f3)
  | .fnmsubS => some (F.single.add (F.single.neg (F.single.mul f1 f2)) f3)
  | .fnmaddS => some (F.single.sub (F.single.neg (F.single.mul f1 f2)) f3)
  | .fcvtSW => some (F.single.ofInt .i32 (CInt.i32.conv x1))
  | .fcvtSWu => some (F.single.ofInt .u32 (CInt.u32.conv x1))
  | .fcvtSL => some (F.single.ofInt .i64 x1)
  | .fcvtSLu => some (F.single.ofInt .u64 x1)
  | .fcvtSD => some (F.toSingle (s.fpRegs insn.rs1))
  | _ => none

end Definitions

/-! ## The two ways to write -/

section Writes

variable {reg : U64} {value : U32}

/-- Writing `value | ((u64)-1 << 32)` boxes the value. -/
theorem nanBoxed_nanBox : NanBoxed (nanBox value) value where
  high := by
    apply BitVec.eq_of_getLsbD_eq
    intro i bound
    have ones : ((-1 : U64) <<< 32).getLsbD (32 + i) = true := by
      have all : (-1 : U64) = BitVec.allOnes 64 := rfl
      have inside : 32 + i < 64 := by omega
      have place : 32 + i - 32 < 64 := by omega
      rw [all, BitVec.getLsbD_shiftLeft, BitVec.getLsbD_allOnes]
      simp only [inside, place, Nat.not_lt.mpr (Nat.le_add_right 32 i), decide_true, decide_false,
        Bool.not_false, Bool.and_self]
    rw [fpHigh, nanBox, BitVec.getLsbD_extractLsb', BitVec.getLsbD_or, ones,
      BitVec.getLsbD_allOnes]
    simp only [bound, decide_true, Bool.or_true, Bool.and_self]
  low := by
    apply BitVec.eq_of_getLsbD_eq
    intro i bound
    have inside : i < 64 := by omega
    rw [fpLow, nanBox, BitVec.getLsbD_setWidth, BitVec.getLsbD_or, BitVec.getLsbD_shiftLeft,
      BitVec.getLsbD_setWidth]
    simp only [bound, inside, decide_true, Bool.true_and, Bool.not_true, Bool.and_false,
      Bool.false_and, Bool.or_false]

/-- Writing through `w` or `f` puts the value in the low half and keeps the upper one. -/
theorem fpLow_fpSetLow : fpLow (fpSetLow reg value) = value := by
  rw [fpLow, fpSetLow]
  exact BitVec.setWidth_append_eq_right

theorem fpHigh_fpSetLow : fpHigh (fpSetLow reg value) = fpHigh reg := by
  rw [fpHigh, fpSetLow]
  exact BitVec.extractLsb'_append_eq_left

theorem nanBoxed_fpSetLow :
    NanBoxed (fpSetLow reg value) value ↔ fpHigh reg = BitVec.allOnes 32 := by
  constructor
  · intro boxed
    rw [← boxed.high, fpHigh_fpSetLow]
  · intro ones
    exact ⟨fpHigh_fpSetLow.trans ones, fpLow_fpSetLow⟩

end Writes

/-! ## The handlers -/

section Handlers

variable {F : FloatOps} {insn : Insn} {s : State} {value : U32}

/-- What the handlers write: all of the register, or its low half. -/
theorem interpFuncs_single (writes : insn.singleResult F s = some value) :
    interpFuncs F insn.type s insn = .ok (if insn.type.boxes then s.setFp insn.rd (nanBox value)
      else s.setFpLow insn.rd value, insn) := by
  rw [Insn.singleResult] at writes
  cases type : insn.type <;> rw [type] at writes <;> cases writes <;> rfl

/-- **The result of a handler is boxed** exactly when the handler writes all of the register or
the upper half was all ones before; the low half is the result in any case. -/
theorem nanBoxed_iff (writes : insn.singleResult F s = some value) :
    ∃ s', interpFuncs F insn.type s insn = .ok (s', insn) ∧
      (NanBoxed (s'.fpRegs insn.rd) value ↔
        insn.type.boxes = true ∨ fpHigh (s.fpRegs insn.rd) = BitVec.allOnes 32) ∧
      fpLow (s'.fpRegs insn.rd) = value := by
  refine ⟨_, interpFuncs_single writes, ?_⟩
  by_cases boxes : insn.type.boxes = true
  · have reg : (s.setFp insn.rd (nanBox value)).fpRegs insn.rd = nanBox value :=
      Function.update_self ..
    rw [if_pos boxes, reg]
    exact ⟨iff_of_true nanBoxed_nanBox (.inl boxes), nanBoxed_nanBox.low⟩
  · have reg : (s.setFpLow insn.rd value).fpRegs insn.rd = fpSetLow (s.fpRegs insn.rd) value :=
      Function.update_self ..
    rw [if_neg boxes, reg, nanBoxed_fpSetLow, or_iff_right boxes]
    exact ⟨Iff.rfl, fpLow_fpSetLow⟩

/-- A state in which `a0` points to a word of `0x3f800000`. -/
abbrev oneState : State :=
  .boot (Bytes.copy (fun _ => 0) 0x2000 [0x00, 0x00, 0x80, 0x3f]) 0x1000 10 0x2000

/-- `flw f3, 0(a0)` boxes the word that it loads, and after it `fmv.w.x f3, a0` boxes too. -/
theorem nanBoxed_iff_load : ∃ loaded moved,
    interpFuncs default .flw oneState { type := .flw, rd := 3, rs1 := 10 } =
      .ok (loaded, { type := .flw, rd := 3, rs1 := 10 }) ∧
    NanBoxed (loaded.fpRegs 3) 0x3f800000 ∧
    interpFuncs default .fmvWX loaded { type := .fmvWX, rd := 3, rs1 := 10 } =
      .ok (moved, { type := .fmvWX, rd := 3, rs1 := 10 }) ∧
    NanBoxed (moved.fpRegs 3) 0x2000 := by
  have load : ({ type := .flw, rd := 3, rs1 := 10 } : Insn).singleResult default oneState =
    some 0x3f800000 := by decide
  obtain ⟨loaded, round, boxes, _⟩ := nanBoxed_iff load
  have boxed := boxes.mpr (.inl rfl)
  have a0 : loaded.gpRegs 10 = 0x2000 := by
    cases round
    rfl
  have move : ({ type := .fmvWX, rd := 3, rs1 := 10 } : Insn).singleResult default loaded =
      some 0x2000 := by
    change some ((loaded.gpRegs 10).setWidth 32) = _
    rw [a0]
    rfl
  obtain ⟨moved, round', boxes', _⟩ := nanBoxed_iff move
  exact ⟨loaded, moved, round, boxed, round', boxes'.mpr (.inr boxed.high)⟩

/-- `fmv.w.x f0, x0` does not box its result in a register that is zero. -/
theorem move_not_boxed : ∃ s', interpFuncs default .fmvWX retState { type := .fmvWX } =
      .ok (s', { type := .fmvWX }) ∧
    ({ type := .fmvWX } : Insn).singleResult default retState = some 0 ∧
    ¬ NanBoxed (s'.fpRegs 0) 0 := by
  refine ⟨_, rfl, rfl, ?_⟩
  intro boxed
  have high : fpHigh 0 = BitVec.allOnes 32 := boxed.high
  exact absurd high (by decide)

end Handlers

end RiscvEmu
