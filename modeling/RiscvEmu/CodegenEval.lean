import RiscvEmu.Codegen

/-!
# The expressions that are printed

Where a label block evaluates an expression, its locals are known: `rs1` and `rs2`
are the registers of the instruction, `rd` is what was loaded. Under these locals
most of the expressions evaluate by computation. This module treats the ones that
test or shift: the conversions of C around them, and the bound on a shift.
-/

set_option autoImplicit false

namespace RiscvEmu

open Codegen CExpr Local

/-! ## Locals -/

/-- The locals before the first declaration of a block. -/
abbrev noLocals : Locals := fun _ => none

/-- The locals after a declaration. -/
abbrev Locals.set (locals : Locals) (name : Local) (value : CValue) : Locals :=
  Function.update locals name (some value)

/-- The locals after `rs1` is declared as a general register. -/
abbrev gpLocals (x : U64) : Locals := Locals.set noLocals .rs1 (.int .u64 x)

/-- The locals after `rs1` and `rs2` are declared as general registers. -/
abbrev gpLocals₂ (x y : U64) : Locals := (gpLocals x).set .rs2 (.int .u64 y)

/-! ## Evaluation rules -/

section Rules

variable {F : FloatOps} {locals : Locals} {a b test : CExpr} {ta tb : CInt} {x y : U64}

theorem evalU64_of_eval (ha : a.eval F locals = .ok (.int ta x)) :
    a.evalU64 F locals = .ok x := by
  rw [evalU64, ha]
  rfl

theorem eval_as (type : CInt) (ha : a.eval F locals = .ok (.int ta x)) :
    (a.as type).eval F locals = .ok (.int type (type.conv x)) := by
  rw [as, eval, ha]
  rfl

theorem eval_bin {va vb : CValue} (op : BinOp) (ha : a.eval F locals = .ok va)
    (hb : b.eval F locals = .ok vb) : (bin op a b).eval F locals = binary F op va vb := by
  rw [eval, ha, hb]
  rfl

theorem eval_shl (ha : a.eval F locals = .ok (.int ta x)) (hb : b.eval F locals = .ok (.int tb y))
    (inside : y.toNat < ta.promote.width) :
    (a <<< b).eval F locals =
      .ok (.int ta.promote (ta.promote.conv (ta.promote.conv x <<< y))) :=
  (eval_bin .shl ha hb).trans (if_neg (Nat.not_le_of_lt inside))

theorem eval_shr (ha : a.eval F locals = .ok (.int ta x)) (hb : b.eval F locals = .ok (.int tb y))
    (inside : y.toNat < ta.promote.width) :
    (a >>> b).eval F locals = .ok (.int ta.promote
      (if ta.promote.signed then (ta.promote.conv x).sshiftRight' y
        else ta.promote.conv x >>> y)) :=
  (eval_bin .shr ha hb).trans (if_neg (Nat.not_le_of_lt inside))

/-- A condition converts the branch it selects to the common type. -/
theorem eval_cond {type : CType} {holds : Bool}
    (typed : (cond test a b).typeOf locals = some type)
    (tested : test.eval F locals = .ok (.ofBool holds)) :
    (cond test a b).eval F locals =
      if holds then a.eval F locals >>= castTo F type else b.eval F locals >>= castTo F type := by
  rw [eval, typed, tested]
  cases holds <;> rfl

/-- `test ? 1 : 0`. -/
theorem eval_cond_bit {holds : Bool} (tested : test.eval F locals = .ok (.ofBool holds)) :
    (cond test 1 0).evalU64 F locals = .ok (cbool holds) := by
  have value : (cond test 1 0).eval F locals = .ok (.int .i32 (cbool holds)) := by
    rw [eval_cond rfl tested]
    cases holds <;> rfl
  exact evalU64_of_eval value

end Rules

/-! ## Shifts -/

section Shifts

variable (F : FloatOps) (x y : U64) (insn : Insn)

theorem amount_lt_64 (n : U64) : (n &&& 0x3f).toNat < 64 :=
  Nat.lt_of_le_of_lt (BitVec.toNat_and n 0x3f ▸ Nat.and_le_right) (by decide)

theorem amount_lt_32 (n : U64) : (n &&& 0x1f).toNat < 32 :=
  Nat.lt_of_le_of_lt (BitVec.toNat_and n 0x1f ▸ Nat.and_le_right) (by decide)

theorem amount_lt_64' (n : U64) : (n &&& 0x1f).toNat < 64 :=
  (amount_lt_32 n).trans (by decide)

/-- The masked immediate that is printed is the one the interpreter masks. -/
theorem eval_immAnd (locals : Locals) {mask : U32} (positive : mask.msb = false) :
    (immAnd insn mask).eval F locals = .ok (.int .i32 (insn.imm64 &&& mask.setWidth 64)) := by
  have same : (insn.imm &&& mask).signExtend 64 = insn.imm64 &&& mask.setWidth 64 := by
    rw [BitVec.signExtend_and, BitVec.signExtend_eq_setWidth_of_msb_false positive, Insn.imm64]
  rw [immAnd, eval, same]

theorem eval_imm63 (locals : Locals) :
    (immAnd insn 0x3f).eval F locals = .ok (.int .i32 (insn.imm64 &&& 0x3f)) :=
  eval_immAnd F insn locals rfl

theorem eval_imm31 (locals : Locals) :
    (immAnd insn 0x1f).eval F locals = .ok (.int .i32 (insn.imm64 &&& 0x1f)) :=
  eval_immAnd F insn locals rfl

theorem eval_rs1 : (var rs1).eval F (gpLocals x) = .ok (.int .u64 x) := rfl

theorem eval_rs1₂ : (var rs1).eval F (gpLocals₂ x y) = .ok (.int .u64 x) := rfl

theorem eval_slli : (var rs1 <<< immAnd insn 0x3f).evalU64 F (gpLocals x) =
    .ok (x <<< (insn.imm64 &&& 0x3f)) :=
  evalU64_of_eval (eval_shl (eval_rs1 F x) (eval_imm63 F insn _) (amount_lt_64 _))

theorem eval_srli : (var rs1 >>> immAnd insn 0x3f).evalU64 F (gpLocals x) =
    .ok (x >>> (insn.imm64 &&& 0x3f)) :=
  evalU64_of_eval (eval_shr (eval_rs1 F x) (eval_imm63 F insn _) (amount_lt_64 _))

theorem eval_srai : ((var rs1).as .i64 >>> immAnd insn 0x3f).evalU64 F (gpLocals x) =
    .ok (x.sshiftRight' (insn.imm64 &&& 0x3f)) :=
  evalU64_of_eval (eval_shr (eval_as .i64 rfl) (eval_imm63 F insn _) (amount_lt_64 _))

theorem eval_slliw : (((var rs1 <<< immAnd insn 0x1f).as .i32).as .i64).evalU64 F (gpLocals x) =
    .ok (CInt.i32.conv (x <<< (insn.imm64 &&& 0x1f))) :=
  evalU64_of_eval (eval_as .i64 (eval_as .i32
    (eval_shl (eval_rs1 F x) (eval_imm31 F insn _) (amount_lt_64' _))))

theorem eval_srliw :
    ((((var rs1).as .u32 >>> immAnd insn 0x1f).as .i32).as .i64).evalU64 F (gpLocals x) =
      .ok (CInt.i32.conv (CInt.u32.conv x >>> (insn.imm64 &&& 0x1f))) := by
  rw [← CInt.conv_conv .u32 x]
  exact evalU64_of_eval (eval_as .i64 (eval_as .i32
    (eval_shr (eval_as .u32 rfl) (eval_imm31 F insn _) (amount_lt_32 _))))

theorem eval_sraiw :
    (((var rs1).as .i32 >>> immAnd insn 0x1f).as .i64).evalU64 F (gpLocals x) =
      .ok ((CInt.i32.conv x).sshiftRight' (insn.imm64 &&& 0x1f)) := by
  rw [← CInt.conv_conv .i32 x]
  exact evalU64_of_eval (eval_as .i64
    (eval_shr (eval_as .i32 rfl) (eval_imm31 F insn _) (amount_lt_32 _)))

theorem eval_sll : (var rs1 <<< (var rs2 &&& 0x3f)).evalU64 F (gpLocals₂ x y) =
    .ok (x <<< (y &&& 0x3f)) :=
  evalU64_of_eval (eval_shl (eval_rs1₂ F x y) rfl (amount_lt_64 y))

theorem eval_srl : (var rs1 >>> (var rs2 &&& 0x3f)).evalU64 F (gpLocals₂ x y) =
    .ok (x >>> (y &&& 0x3f)) :=
  evalU64_of_eval (eval_shr (eval_rs1₂ F x y) rfl (amount_lt_64 y))

theorem eval_sra : ((var rs1).as .i64 >>> (var rs2 &&& 0x3f)).evalU64 F (gpLocals₂ x y) =
    .ok (x.sshiftRight' (y &&& 0x3f)) :=
  evalU64_of_eval (eval_shr (eval_as .i64 rfl) rfl (amount_lt_64 y))

theorem eval_sllw :
    (((var rs1 <<< (var rs2 &&& 0x1f)).as .i32).as .i64).evalU64 F (gpLocals₂ x y) =
      .ok (CInt.i32.conv (x <<< (y &&& 0x1f))) :=
  evalU64_of_eval (eval_as .i64 (eval_as .i32 (eval_shl (eval_rs1₂ F x y) rfl (amount_lt_64' y))))

theorem eval_srlw :
    ((((var rs1).as .u32 >>> (var rs2 &&& 0x1f)).as .i32).as .i64).evalU64 F (gpLocals₂ x y) =
      .ok (CInt.i32.conv (CInt.u32.conv x >>> (y &&& 0x1f))) := by
  rw [← CInt.conv_conv .u32 x]
  exact evalU64_of_eval (eval_as .i64 (eval_as .i32
    (eval_shr (eval_as .u32 rfl) rfl (amount_lt_32 y))))

theorem eval_sraw :
    ((((var rs1).as .i32 >>> (var rs2 &&& 0x1f)).as .i32).as .i64).evalU64 F (gpLocals₂ x y) =
      .ok (CInt.i32.conv ((CInt.i32.conv x).sshiftRight' (y &&& 0x1f))) := by
  rw [← CInt.conv_conv .i32 x]
  exact evalU64_of_eval (eval_as .i64 (eval_as .i32
    (eval_shr (eval_as .i32 rfl) rfl (amount_lt_32 y))))

end Shifts

/-! ## Divisions -/

section Divisions

variable (F : FloatOps) (x y : U64)

theorem intDiv_i64 : intDiv .i64 x y = hostSdiv x y := by
  rw [intDiv, hostSdiv]
  apply if_congr ?_ rfl rfl
  exact or_congr_right ⟨And.right, fun overflow => ⟨rfl, overflow⟩⟩

theorem intRem_i64 : intRem .i64 x y = hostSrem x y := by
  rw [intRem, hostSrem]
  apply if_congr ?_ rfl rfl
  exact or_congr_right ⟨And.right, fun overflow => ⟨rfl, overflow⟩⟩

/-- An unsigned division traps on a zero divisor only. -/
theorem unsigned_guard {type : CInt} (unsigned : type.signed = false) (nonzero : y ≠ 0) :
    ¬ (y = 0 ∨ (type.signed ∧ x = type.least ∧ y = -1)) := by
  rintro (zero | ⟨signed, _⟩)
  · exact nonzero zero
  · rw [unsigned] at signed
    cases signed

theorem intDiv_unsigned {type : CInt} (unsigned : type.signed = false) :
    intDiv type x y = type.conv <$> hostUdiv x y := by
  rw [intDiv, hostUdiv]
  by_cases zero : y = 0
  · rw [if_pos (.inl zero), if_pos zero]
    rfl
  · rw [if_neg (unsigned_guard x y unsigned zero), if_neg zero, unsigned]
    rfl

theorem intRem_unsigned {type : CInt} (unsigned : type.signed = false) :
    intRem type x y = type.conv <$> hostUrem x y := by
  rw [intRem, hostUrem]
  by_cases zero : y = 0
  · rw [if_pos (.inl zero), if_pos zero]
    rfl
  · rw [if_neg (unsigned_guard x y unsigned zero), if_neg zero, unsigned]
    rfl

/-- A cast to `int` sees the low half only. -/
theorem conv_i32_u32 : CInt.i32.conv (CInt.u32.conv x) = CInt.i32.conv x := by
  simp [CInt.conv]

theorem map_conv_i32_u32 (r : Except Abort U64) :
    CInt.i32.conv <$> CInt.u32.conv <$> r = CInt.i32.conv <$> r := by
  cases r with
  | error abort => rfl
  | ok z => exact congrArg Except.ok (conv_i32_u32 z)

theorem beq_zero (holds : Bool) : (cbool holds != 0) = holds := by
  cases holds <;> rfl

section Chains

variable {F : FloatOps} {locals : Locals} {e a b test : CExpr} {t : CInt} {r : Except Abort U64}

/-- A cast of an operation that may trap. -/
theorem eval_as_map (type : CInt) (he : e.eval F locals = CValue.int t <$> r) :
    (e.as type).eval F locals = CValue.int type <$> type.conv <$> r := by
  rw [as, eval, he]
  cases r <;> rfl

theorem evalU64_of_map (he : e.eval F locals = CValue.int t <$> r) : e.evalU64 F locals = r := by
  rw [evalU64, he]
  cases r <;> rfl

/-- A condition of a 64-bit type selects the value of a branch. -/
theorem evalU64_cond {holds : Bool} (wide : ∀ z, t.conv z = z)
    (typed : (cond test a b).typeOf locals = some (.int t))
    (tested : test.eval F locals = .ok (.ofBool holds)) :
    (cond test a b).evalU64 F locals =
      if holds then a.evalU64 F locals else b.evalU64 F locals := by
  have same : ∀ value : Except Abort CValue,
      (value >>= castTo F (.int t)) >>= CValue.toU64 = value >>= CValue.toU64 := by
    intro value
    match value with
    | .error abort => rfl
    | .ok (.int type bits) => exact congrArg Except.ok (wide bits)
    | .ok (.float bits) => rfl
    | .ok (.double bits) => rfl
  rw [evalU64, eval_cond typed tested]
  cases holds
  · exact same (b.eval F locals)
  · exact same (a.eval F locals)

theorem selectArm_cons {holds : Bool} {arms : List (CExpr × CExpr)} {value other : CExpr}
    (tested : test.eval F locals = .ok (.ofBool holds)) :
    selectArm F locals ((test, value) :: arms) other =
      if holds then .ok value else selectArm F locals arms other := by
  rw [selectArm, tested]
  cases holds <;> rfl

end Chains

theorem u64_wide (z : U64) : CInt.u64.conv z = z := rfl

theorem i64_wide (z : U64) : CInt.i64.conv z = z := rfl

/-- `rs2 == 0 ? a : b` at a 64-bit type. -/
theorem evalU64_cond_zero {a b : CExpr} {t : CInt} (wide : ∀ z, t.conv z = z)
    (typed : (cond (bin .eq (var rs2) 0) a b).typeOf (gpLocals₂ x y) = some (.int t)) :
    (cond (bin .eq (var rs2) 0) a b).evalU64 F (gpLocals₂ x y) =
      if y = 0 then a.evalU64 F (gpLocals₂ x y) else b.evalU64 F (gpLocals₂ x y) := by
  have tested : (bin .eq (var rs2) 0).eval F (gpLocals₂ x y) = .ok (.ofBool (y == 0)) := rfl
  rw [evalU64_cond wide typed tested]
  by_cases zero : y = 0
  · rw [if_pos zero, if_pos (beq_iff_eq.mpr zero)]
  · rw [if_neg zero, if_neg (fun same => zero (beq_iff_eq.mp same))]

theorem eval_remu : (cond (bin .eq (var rs2) 0) (var rs1) (var rs1 % var rs2)).evalU64 F
    (gpLocals₂ x y) = if y = 0 then .ok x else hostUrem x y := by
  have rem : (var rs1 % var rs2).eval F (gpLocals₂ x y) = CValue.int .u64 <$> intRem .u64 x y := rfl
  rw [evalU64_cond_zero F x y u64_wide rfl, evalU64_of_map rem, intRem_unsigned x y rfl]
  congr 1
  exact id_map _

theorem eval_divw : (cond (bin .eq (var rs2) 0) uint64Max
    ((((var rs1).as .i32).as .i64 / ((var rs2).as .i32).as .i64).as .i32)).evalU64 F
      (gpLocals₂ x y) =
    if y = 0 then .ok (-1)
    else CInt.i32.conv <$> hostSdiv (CInt.i32.conv x) (CInt.i32.conv y) := by
  have quotient : (((var rs1).as .i32).as .i64 / ((var rs2).as .i32).as .i64).eval F
      (gpLocals₂ x y) = CValue.int .i64 <$> intDiv .i64 (CInt.i32.conv x) (CInt.i32.conv y) := rfl
  rw [evalU64_cond_zero F x y u64_wide rfl,
    evalU64_of_map (eval_as_map .i32 quotient), intDiv_i64]
  rfl

theorem eval_divuw : (cond (bin .eq (var rs2) 0) uint64Max
    (((var rs1).as .u32 / (var rs2).as .u32).as .i32)).evalU64 F (gpLocals₂ x y) =
    if y = 0 then .ok (-1)
    else CInt.i32.conv <$> hostUdiv (CInt.u32.conv x) (CInt.u32.conv y) := by
  have quotient : ((var rs1).as .u32 / (var rs2).as .u32).eval F (gpLocals₂ x y) =
      CValue.int .u32 <$> intDiv .u32 (CInt.u32.conv (CInt.u32.conv x))
        (CInt.u32.conv (CInt.u32.conv y)) := rfl
  rw [CInt.conv_conv, CInt.conv_conv] at quotient
  rw [evalU64_cond_zero F x y u64_wide rfl,
    evalU64_of_map (eval_as_map .i32 quotient), intDiv_unsigned _ _ rfl, map_conv_i32_u32]
  rfl

theorem eval_remw : (cond (bin .eq (var rs2) 0) (((var rs1).as .i32).as .i64)
    (((((var rs1).as .i32).as .i64 % ((var rs2).as .i32).as .i64).as .i32).as .i64)).evalU64 F
      (gpLocals₂ x y) =
    if y = 0 then .ok (CInt.i32.conv x)
    else CInt.i32.conv <$> hostSrem (CInt.i32.conv x) (CInt.i32.conv y) := by
  have remainder : (((var rs1).as .i32).as .i64 % ((var rs2).as .i32).as .i64).eval F
      (gpLocals₂ x y) = CValue.int .i64 <$> intRem .i64 (CInt.i32.conv x) (CInt.i32.conv y) := rfl
  rw [evalU64_cond_zero F x y i64_wide rfl,
    evalU64_of_map (eval_as_map .i64 (eval_as_map .i32 remainder)), intRem_i64]
  congr 1
  exact id_map _

theorem eval_remuw : (cond (bin .eq (var rs2) 0) ((((var rs1).as .u32).as .i32).as .i64)
    ((((var rs1).as .u32 % (var rs2).as .u32).as .i32).as .i64)).evalU64 F (gpLocals₂ x y) =
    if y = 0 then .ok (CInt.i32.conv (CInt.u32.conv x))
    else CInt.i32.conv <$> hostUrem (CInt.u32.conv x) (CInt.u32.conv y) := by
  have remainder : ((var rs1).as .u32 % (var rs2).as .u32).eval F (gpLocals₂ x y) =
      CValue.int .u32 <$> intRem .u32 (CInt.u32.conv (CInt.u32.conv x))
        (CInt.u32.conv (CInt.u32.conv y)) := rfl
  rw [CInt.conv_conv, CInt.conv_conv] at remainder
  rw [evalU64_cond_zero F x y i64_wide rfl,
    evalU64_of_map (eval_as_map .i64 (eval_as_map .i32 remainder)), intRem_unsigned _ _ rfl,
    map_conv_i32_u32]
  congr 1
  exact id_map _

/-! The `if` chains run after `rd` is declared. -/

/-- The locals where an `if` chain is executed. -/
abbrev divLocals : Locals := (gpLocals₂ x y).set .rd (.int .u64 0)

/-- The value that an `if` chain gives to `rd`. -/
def chosen (F : FloatOps) (locals : Locals) (arms : List (CExpr × CExpr)) (other : CExpr) :
    Except Abort U64 := do
  (← selectArm F locals arms other).evalU64 F locals

theorem chosen_cons {locals : Locals} {holds : Bool} {test value other : CExpr}
    {arms : List (CExpr × CExpr)} (tested : test.eval F locals = .ok (.ofBool holds)) :
    chosen F locals ((test, value) :: arms) other =
      if holds then value.evalU64 F locals else chosen F locals arms other := by
  rw [chosen, selectArm_cons tested]
  cases holds <;> rfl

theorem eval_rs2_zero : (bin .eq (var rs2) 0).eval F (divLocals x y) = .ok (.ofBool (y == 0)) := rfl

theorem eval_overflows : overflows.eval F (divLocals x y) =
    .ok (.ofBool (x == BitVec.intMin 64 && y == -1)) := by
  have tests : overflows.eval F (divLocals x y) =
    .ok (.ofBool (cbool (x == BitVec.intMin 64) != 0 && cbool (y == -1) != 0)) := rfl
  rw [tests, beq_zero, beq_zero]

theorem chosen_div : chosen F (divLocals x y)
    [(bin .eq (var rs2) 0, uint64Max), (overflows, int64Min)]
      ((var rs1).as .i64 / (var rs2).as .i64) =
    if y = 0 then .ok (-1)
    else if x = BitVec.intMin 64 ∧ y = -1 then .ok (BitVec.intMin 64)
    else hostSdiv x y := by
  have quotient : ((var rs1).as .i64 / (var rs2).as .i64).eval F (divLocals x y) =
      CValue.int .i64 <$> intDiv .i64 x y := rfl
  have last : chosen F (divLocals x y) [] ((var rs1).as .i64 / (var rs2).as .i64) = hostSdiv x y := by
    rw [← intDiv_i64]
    exact evalU64_of_map quotient
  rw [chosen_cons F (eval_rs2_zero F x y), chosen_cons F (eval_overflows F x y), last]
  simp only [beq_iff_eq, Bool.and_eq_true]
  rfl

theorem chosen_rem : chosen F (divLocals x y)
    [(bin .eq (var rs2) 0, var rs1), (overflows, 0)] ((var rs1).as .i64 % (var rs2).as .i64) =
    if y = 0 then .ok x
    else if x = BitVec.intMin 64 ∧ y = -1 then .ok 0
    else hostSrem x y := by
  have remainder : ((var rs1).as .i64 % (var rs2).as .i64).eval F (divLocals x y) =
      CValue.int .i64 <$> intRem .i64 x y := rfl
  have last : chosen F (divLocals x y) [] ((var rs1).as .i64 % (var rs2).as .i64) = hostSrem x y := by
    rw [← intRem_i64]
    exact evalU64_of_map remainder
  rw [chosen_cons F (eval_rs2_zero F x y), chosen_cons F (eval_overflows F x y), last]
  simp only [beq_iff_eq, Bool.and_eq_true]
  rfl

theorem chosen_divu : chosen F (divLocals x y) [(bin .eq (var rs2) 0, uint64Max)]
    (var rs1 / var rs2) = if y = 0 then .ok (-1) else hostUdiv x y := by
  have quotient : (var rs1 / var rs2).eval F (divLocals x y) =
      CValue.int .u64 <$> intDiv .u64 x y := rfl
  have last : chosen F (divLocals x y) [] (var rs1 / var rs2) = hostUdiv x y := by
    have same : intDiv .u64 x y = hostUdiv x y := (intDiv_unsigned x y rfl).trans (id_map _)
    rw [← same]
    exact evalU64_of_map quotient
  rw [chosen_cons F (eval_rs2_zero F x y), last]
  simp only [beq_iff_eq]
  rfl

end Divisions

end RiscvEmu
