import RiscvEmu.InterpretUtils
import RiscvEmu.Foundation.WideMul

/-!
# High-half multiplication

`mulhu` multiplies on 32-bit limbs. The three values that its variable `t` takes are
named here; each is the sum that schoolbook multiplication has at that place, and
none of them wraps. `mulh` and `mulhsu` multiply absolute values and negate the
upper half when the signs differ.

* `mulh_exact`: the three functions give the upper half of the exact product.
-/

set_option autoImplicit false

namespace RiscvEmu

open WideMul

/-! ## The values of `t` -/

/-- `a1*b0 + ((a0*b0) >> 32)`. -/
def mulhuFirst (a b : U64) : U64 :=
  (a >>> 32) * CInt.u32.conv b + ((CInt.u32.conv a * CInt.u32.conv b) >>> 32)

/-- `a0*b1 + y1`. -/
def mulhuSecond (a b : U64) : U64 :=
  CInt.u32.conv a * (b >>> 32) + CInt.u32.conv (mulhuFirst a b)

/-- `a1*b1 + y2 + (t >> 32)`. -/
def mulhuThird (a b : U64) : U64 :=
  (a >>> 32) * (b >>> 32) + CInt.u32.conv (mulhuFirst a b >>> 32) + (mulhuSecond a b >>> 32)

theorem mulhu_eq (a b : U64) : mulhu a b =
    (CInt.u32.conv (mulhuThird a b >>> 32) <<< 32) ||| CInt.u32.conv (mulhuThird a b) := rfl

section Limbs

variable (x : U64)

theorem toNat_lower : (CInt.u32.conv x).toNat = x.toNat % 2 ^ 32 := by
  rw [CInt.conv, BitVec.toNat_setWidth, BitVec.toNat_setWidth]
  exact Nat.mod_eq_of_lt ((Nat.mod_lt _ (by decide)).trans (by decide))

theorem toNat_upper : (x >>> 32).toNat = x.toNat / 2 ^ 32 := by
  rw [BitVec.toNat_ushiftRight, Nat.shiftRight_eq_div_pow]

/-- The upper half fits a limb. -/
theorem conv_upper : CInt.u32.conv (x >>> 32) = x >>> 32 := by
  apply BitVec.eq_of_toNat_eq
  rw [toNat_lower, toNat_upper]
  exact Nat.mod_eq_of_lt (Nat.div_lt_of_lt_mul x.isLt)

/-- A word is its two limbs. -/
theorem join_limbs : ((x >>> 32) <<< 32) ||| CInt.u32.conv x = x := by
  apply BitVec.eq_of_getLsbD_eq
  intro i bound
  simp only [CInt.conv, BitVec.getLsbD_or, BitVec.getLsbD_shiftLeft, BitVec.getLsbD_ushiftRight,
    BitVec.getLsbD_setWidth]
  by_cases lower : i < 32
  · simp [lower, bound]
  · simp [lower, bound, show 32 + (i - 32) = i by omega]

theorem lower_lt : (CInt.u32.conv x).toNat < 2 ^ 32 := by
  rw [toNat_lower]
  exact Nat.mod_lt _ (by decide)

theorem upper_lt : (x >>> 32).toNat < 2 ^ 32 := by
  rw [toNat_upper]
  exact Nat.div_lt_of_lt_mul x.isLt

theorem limbs_eq : (x >>> 32).toNat * 2 ^ 32 + (CInt.u32.conv x).toNat = x.toNat := by
  rw [toNat_lower, toNat_upper]
  exact Nat.div_add_mod' ..

end Limbs

section Sums

variable (a b : U64)

/-- A product of limbs fits a word. -/
theorem toNat_mul_limbs {x y : U64} (hx : x.toNat < 2 ^ 32) (hy : y.toNat < 2 ^ 32) :
    (x * y).toNat = x.toNat * y.toNat := by
  have bound : x.toNat * y.toNat < 2 ^ 32 * 2 ^ 32 := Nat.mul_lt_mul'' hx hy
  rw [BitVec.toNat_mul]
  apply Nat.mod_eq_of_lt
  simpa only [← pow_add] using bound

theorem toNat_mulhuFirst : (mulhuFirst a b).toNat =
    cross (2 ^ 32) (CInt.u32.conv a).toNat (a >>> 32).toNat (CInt.u32.conv b).toNat := by
  have exact_ := cross_lt (lower_lt a) (upper_lt a) (lower_lt b)
  rw [mulhuFirst, BitVec.toNat_add, toNat_upper (_ * _), toNat_mul_limbs (lower_lt a) (lower_lt b),
    toNat_mul_limbs (upper_lt a) (lower_lt b)]
  exact Nat.mod_eq_of_lt exact_

theorem toNat_mulhuSecond : (mulhuSecond a b).toNat =
    cross' (2 ^ 32) (CInt.u32.conv a).toNat (a >>> 32).toNat (CInt.u32.conv b).toNat
      (b >>> 32).toNat := by
  rw [mulhuSecond, BitVec.toNat_add, toNat_mul_limbs (lower_lt a) (upper_lt b), toNat_lower
    (mulhuFirst a b), toNat_mulhuFirst]
  exact Nat.mod_eq_of_lt (cross'_lt (lower_lt a) (upper_lt b))

theorem toNat_mulhuThird : (mulhuThird a b).toNat =
    top (2 ^ 32) (CInt.u32.conv a).toNat (a >>> 32).toNat (CInt.u32.conv b).toNat
      (b >>> 32).toNat := by
  have exact_ := top_lt (lower_lt a) (upper_lt a) (lower_lt b) (upper_lt b)
  rw [mulhuThird, conv_upper, BitVec.toNat_add, BitVec.toNat_add, Nat.mod_add_mod,
    toNat_mul_limbs (upper_lt a) (upper_lt b), toNat_upper (mulhuFirst a b),
    toNat_upper (mulhuSecond a b), toNat_mulhuFirst, toNat_mulhuSecond]
  exact Nat.mod_eq_of_lt exact_

/-- **`mulhu` is exact.** -/
theorem mulhu_high : mulhu a b = high (a.setWidth (64 + 64) * b.setWidth (64 + 64)) := by
  have product : (a.setWidth (64 + 64) * b.setWidth (64 + 64)).toNat = a.toNat * b.toNat := by
    have bound : a.toNat * b.toNat < 2 ^ 64 * 2 ^ 64 := Nat.mul_lt_mul'' a.isLt b.isLt
    rw [BitVec.toNat_mul, BitVec.toNat_setWidth_of_le (by decide),
      BitVec.toNat_setWidth_of_le (by decide), pow_add]
    exact Nat.mod_eq_of_lt bound
  apply BitVec.eq_of_toNat_eq
  rw [mulhu_eq, conv_upper, join_limbs, toNat_mulhuThird, toNat_high, product, ← limbs_eq a,
    ← limbs_eq b]
  exact (schoolbook (by decide)).symm

end Sums

/-! ## Signed products -/

section Signed

variable (a b : U64)

/-- Widening a word and taking its lower half gives the word. -/
theorem low_setWidth (x : U64) : (x.setWidth (64 + 64)).setWidth 64 = x := by
  rw [BitVec.setWidth_setWidth_of_le _ (by decide), BitVec.setWidth_eq]

/-- The sign correction: `res` is the upper half of the product of absolute values,
and the product itself is the negation of that one. -/
theorem negate_high {p q : BitVec (64 + 64)} (negated : q = -p) (lower : low q = a * b) :
    ~~~high p + (if a * b = 0 then 1 else 0) = high q := by
  have same : low p = 0 ↔ a * b = 0 := by
    have inverse : low p = -low q := by
      rw [negated, low, low, BitVec.setWidth_neg_of_le (by decide), BitVec.neg_neg]
    rw [inverse, lower]
    exact BitVec.neg_eq_zero_iff
  rw [negated, high_neg]
  simp only [same]

/-- **`mulh` is exact.** -/
theorem mulh_high : mulh a b = high (a.signExtend (64 + 64) * b.signExtend (64 + 64)) := by
  have lower : low (a.signExtend (64 + 64) * b.signExtend (64 + 64)) = a * b := by
    rw [low, BitVec.setWidth_mul _ _ (by decide), CInt.setWidth_signExtend _ (by decide),
      CInt.setWidth_signExtend _ (by decide)]
  rw [mulh]
  cases first : a.slt 0 with
  | false =>
    have ha := signExtend_of_nonneg first
    cases second : b.slt 0 with
    | false =>
      have hb := signExtend_of_nonneg second
      simp [mulhu_high, ha, hb]
    | true =>
      have hb := signExtend_of_neg second
      simp only [mulhu_high]
      apply negate_high a b _ lower
      rw [ha, hb, BitVec.mul_neg]
      rfl
  | true =>
    have ha := signExtend_of_neg first
    cases second : b.slt 0 with
    | false =>
      have hb := signExtend_of_nonneg second
      simp only [mulhu_high]
      apply negate_high a b _ lower
      rw [ha, hb, BitVec.neg_mul]
      rfl
    | true =>
      have hb := signExtend_of_neg second
      simp [mulhu_high, ha, hb]

/-- **`mulhsu` is exact.** -/
theorem mulhsu_high : mulhsu a b = high (a.signExtend (64 + 64) * b.setWidth (64 + 64)) := by
  have lower : low (a.signExtend (64 + 64) * b.setWidth (64 + 64)) = a * b := by
    rw [low, BitVec.setWidth_mul _ _ (by decide), CInt.setWidth_signExtend _ (by decide),
      low_setWidth]
  rw [mulhsu]
  cases first : a.slt 0 with
  | false =>
    have ha := signExtend_of_nonneg first
    simp [mulhu_high, ha]
  | true =>
    have ha := signExtend_of_neg first
    simp only [mulhu_high]
    apply negate_high a b _ lower
    rw [ha, BitVec.neg_mul]
    rfl

end Signed

/-- **High-half multiplication is exact.** The three functions give the upper half of
the product of 128 bits, and the words that `t` holds inside `mulhu` are the sums
without any wrapping. -/
theorem mulh_exact (a b : U64) :
    mulhu a b = (a.setWidth 128 * b.setWidth 128).extractLsb' 64 64 ∧
    mulh a b = (a.signExtend 128 * b.signExtend 128).extractLsb' 64 64 ∧
    mulhsu a b = (a.signExtend 128 * b.setWidth 128).extractLsb' 64 64 ∧
    (mulhuFirst a b).toNat =
      (a.toNat / 2 ^ 32) * (b.toNat % 2 ^ 32) +
        (a.toNat % 2 ^ 32) * (b.toNat % 2 ^ 32) / 2 ^ 32 ∧
    (mulhuSecond a b).toNat =
      (a.toNat % 2 ^ 32) * (b.toNat / 2 ^ 32) + (mulhuFirst a b).toNat % 2 ^ 32 ∧
    (mulhuThird a b).toNat =
      (a.toNat / 2 ^ 32) * (b.toNat / 2 ^ 32) + (mulhuFirst a b).toNat / 2 ^ 32 +
        (mulhuSecond a b).toNat / 2 ^ 32 := by
  refine ⟨mulhu_high a b, mulh_high a b, mulhsu_high a b, ?_, ?_, ?_⟩
  · rw [toNat_mulhuFirst, cross, toNat_lower, toNat_upper, toNat_lower]
  · rw [toNat_mulhuSecond, cross', toNat_mulhuFirst, toNat_lower a, toNat_upper b]
  · rw [toNat_mulhuThird, top, toNat_mulhuFirst, toNat_mulhuSecond, toNat_upper a, toNat_upper b]

end RiscvEmu
