import RiscvEmu.Foundation.BitFields
import RiscvEmu.InterpretUtils

/-!
# Classification of floating-point patterns

`f32_classify` and `f64_classify` test a pattern with masks. What FCLASS asks for is stated on
the sign, exponent and fraction fields of a pattern (`FloatClass.ofFields`), for any widths.

* `classify_exact`: both functions set the bit of the class and no other.
-/

set_option autoImplicit false

namespace RiscvEmu

section Definitions

/-- The classes of FCLASS. -/
inductive FloatClass where
  | negInf | negNormal | negSubnormal | negZero
  | posZero | posSubnormal | posNormal | posInf
  | signalingNaN | quietNaN

namespace FloatClass

/-- The bit of a class in the result of FCLASS. -/
def bit : FloatClass → Nat
  | negInf => 0
  | negNormal => 1
  | negSubnormal => 2
  | negZero => 3
  | posZero => 4
  | posSubnormal => 5
  | posNormal => 6
  | posInf => 7
  | signalingNaN => 8
  | quietNaN => 9

/-- The class of a pattern, by its fields. The first bit of the fraction of a NaN is set in a
quiet one. -/
def ofFields {e f : Nat} (sign : Bool) (exp : BitVec e) (frac : BitVec f) : FloatClass :=
  if exp = BitVec.allOnes e then
    if frac = 0 then if sign then negInf else posInf
    else if frac.msb then quietNaN else signalingNaN
  else if exp = 0 then
    if frac = 0 then if sign then negZero else posZero
    else if sign then negSubnormal else posSubnormal
  else if sign then negNormal else posNormal

/-- The class of a single-precision pattern. -/
def ofSingle (a : U32) : FloatClass := ofFields a.msb (a.extractLsb' 23 8) (a.extractLsb' 0 23)

/-- The class of a double-precision pattern. -/
def ofDouble (a : U64) : FloatClass := ofFields a.msb (a.extractLsb' 52 11) (a.extractLsb' 0 52)

end FloatClass

end Definitions

/-! ## The mask of a class -/

section Mask

variable {e f : Nat} {sign infOrNaN subnormalOrZero fracZero isNaN isSNaN : Bool}
  {exp : BitVec e} {frac : BitVec f}

/-- The six tests that a mask is built from say what they are named after. -/
structure Tests (exp : BitVec e) (frac : BitVec f)
    (infOrNaN subnormalOrZero fracZero isNaN isSNaN : Bool) : Prop where
  infOrNaN_iff : infOrNaN = true ↔ exp = BitVec.allOnes e
  subnormalOrZero_iff : subnormalOrZero = true ↔ exp = 0
  fracZero_iff : fracZero = true ↔ frac = 0
  isNaN_iff : isNaN = true ↔ exp = BitVec.allOnes e ∧ frac ≠ 0
  isSNaN_iff : isSNaN = true ↔ exp = BitVec.allOnes e ∧ frac.msb = false ∧ frac ≠ 0

/-- **One mask for both formats**: the mask of the tests has the bit of the class. -/
theorem classMask_eq (tests : Tests exp frac infOrNaN subnormalOrZero fracZero isNaN isSNaN)
    (distinct : BitVec.allOnes e ≠ 0) :
    classMask sign infOrNaN subnormalOrZero fracZero isNaN isSNaN =
      BitVec.twoPow 16 (FloatClass.ofFields sign exp frac).bit := by
  obtain ⟨infOrNaN_iff, subnormalOrZero_iff, fracZero_iff, isNaN_iff, isSNaN_iff⟩ := tests
  rw [FloatClass.ofFields]
  by_cases special : exp = BitVec.allOnes e
  · have nonzero : exp ≠ 0 := special ▸ distinct
    obtain rfl : infOrNaN = true := infOrNaN_iff.mpr special
    obtain rfl : subnormalOrZero = false := Bool.eq_false_iff.mpr (mt subnormalOrZero_iff.mp nonzero)
    rw [if_pos special]
    by_cases zero : frac = 0
    · obtain rfl : fracZero = true := fracZero_iff.mpr zero
      obtain rfl : isNaN = false := Bool.eq_false_iff.mpr fun nan => (isNaN_iff.mp nan).2 zero
      obtain rfl : isSNaN = false := Bool.eq_false_iff.mpr fun nan => (isSNaN_iff.mp nan).2.2 zero
      rw [if_pos zero]
      cases sign <;> rfl
    · obtain rfl : fracZero = false := Bool.eq_false_iff.mpr (mt fracZero_iff.mp zero)
      obtain rfl : isNaN = true := isNaN_iff.mpr ⟨special, zero⟩
      rw [if_neg zero]
      cases quiet : frac.msb with
      | true =>
          obtain rfl : isSNaN = false := Bool.eq_false_iff.mpr fun signaling => by
            cases quiet.symm.trans (isSNaN_iff.mp signaling).2.1
          cases sign <;> rfl
      | false =>
          obtain rfl : isSNaN = true := isSNaN_iff.mpr ⟨special, quiet, zero⟩
          cases sign <;> rfl
  · obtain rfl : infOrNaN = false := Bool.eq_false_iff.mpr (mt infOrNaN_iff.mp special)
    obtain rfl : isNaN = false := Bool.eq_false_iff.mpr fun nan => special (isNaN_iff.mp nan).1
    obtain rfl : isSNaN = false := Bool.eq_false_iff.mpr fun nan => special (isSNaN_iff.mp nan).1
    rw [if_neg special]
    by_cases small : exp = 0
    · obtain rfl : subnormalOrZero = true := subnormalOrZero_iff.mpr small
      rw [if_pos small]
      by_cases zero : frac = 0
      · obtain rfl : fracZero = true := fracZero_iff.mpr zero
        rw [if_pos zero]
        cases sign <;> rfl
      · obtain rfl : fracZero = false := Bool.eq_false_iff.mpr (mt fracZero_iff.mp zero)
        rw [if_neg zero]
        cases sign <;> rfl
    · obtain rfl : subnormalOrZero = false := Bool.eq_false_iff.mpr (mt subnormalOrZero_iff.mp small)
      rw [if_neg small]
      cases sign <;> cases fracZero <;> rfl

end Mask

/-! ## The tests of the two formats -/

section Formats

open BitFields

/-- **The masks of both functions**, for any format. -/
theorem tests_of_fields {n e g : Nat} (inside : g + 1 + e ≤ n) (a : BitVec n) :
    Tests (a.extractLsb' (g + 1) e) (a.extractLsb' 0 (g + 1))
      ((a >>> (g + 1)) &&& (BitVec.allOnes e).setWidth n == (BitVec.allOnes e).setWidth n)
      ((a >>> (g + 1)) &&& (BitVec.allOnes e).setWidth n == (0 : BitVec e).setWidth n)
      (a &&& (BitVec.allOnes (g + 1)).setWidth n == (0 : BitVec (g + 1)).setWidth n)
      (~~~a &&& ((BitVec.allOnes e).setWidth n <<< (g + 1)) == (0 : BitVec e).setWidth n <<< (g + 1) &&
        a &&& (BitVec.allOnes (g + 1)).setWidth n != (0 : BitVec (g + 1)).setWidth n)
      (a &&& ((BitVec.allOnes (e + 1)).setWidth n <<< g) ==
          (BitVec.allOnes e ++ 0#1).setWidth n <<< g &&
        a &&& (BitVec.allOnes g).setWidth n != (0 : BitVec g).setWidth n) := by
  have frac : a &&& (BitVec.allOnes (g + 1)).setWidth n = (0 : BitVec (g + 1)).setWidth n ↔
      a.extractLsb' 0 (g + 1) = 0 := by
    rw [and_low_mask_iff (by omega), BitVec.and_allOnes]
  have exp : ~~~a &&& ((BitVec.allOnes e).setWidth n <<< (g + 1)) =
      (0 : BitVec e).setWidth n <<< (g + 1) ↔ a.extractLsb' (g + 1) e = BitVec.allOnes e := by
    rw [and_mask_iff inside, BitVec.and_allOnes]
    have complement : (~~~a).extractLsb' (g + 1) e = ~~~(a.extractLsb' (g + 1) e) := by
      apply BitVec.eq_of_getLsbD_eq
      intro i bound
      have here : g + 1 + i < n := by omega
      simp [bound, here]
    have ones : ~~~(0 : BitVec e) = BitVec.allOnes e := BitVec.not_zero
    rw [complement, ← BitVec.not_inj, BitVec.not_not, ones]
  have signaling : a &&& ((BitVec.allOnes (e + 1)).setWidth n <<< g) =
      (BitVec.allOnes e ++ 0#1).setWidth n <<< g ↔
        a.extractLsb' (g + 1) e = BitVec.allOnes e ∧ a.getLsbD g = false := by
    rw [and_mask_iff (by omega), BitVec.and_allOnes, extract_eq_append_iff, extract_one_eq_zero_iff]
  have rest : a &&& (BitVec.allOnes g).setWidth n = (0 : BitVec g).setWidth n ↔
      a.extractLsb' 0 g = 0 := by
    rw [and_low_mask_iff (by omega), BitVec.and_allOnes]
  have first : (a.extractLsb' 0 (g + 1)).msb = a.getLsbD g := by
    simp [BitVec.msb_eq_getLsbD_last]
  refine ⟨?_, ?_, ?_, ?_, ?_⟩
  · rw [beq_iff_eq, shiftRight_mask_iff (by omega)]
  · rw [beq_iff_eq, shiftRight_mask_iff (by omega)]
  · rw [beq_iff_eq, frac]
  · rw [Bool.and_eq_true, beq_iff_eq, bne_iff_ne, ne_eq, frac, exp]
  · rw [Bool.and_eq_true, beq_iff_eq, bne_iff_ne, ne_eq, signaling, rest, first, and_assoc]
    apply and_congr_right
    intro _
    apply and_congr_right
    intro clear
    rw [ne_eq, extract_succ_eq_zero_iff, and_iff_right clear]

/-- The masks of `f32_classify`. -/
theorem tests_single (a : U32) : Tests (a.extractLsb' 23 8) (a.extractLsb' 0 23)
    ((a >>> 23) &&& 0xff == 0xff) ((a >>> 23) &&& 0xff == 0) (a &&& 0x007fffff == 0)
    (~~~a &&& 0x7f800000 == 0 && a &&& 0x007fffff != 0)
    (a &&& 0x7fc00000 == 0x7f800000 && a &&& 0x003fffff != 0) :=
  tests_of_fields (e := 8) (g := 22) (by decide) a

/-- The masks of `f64_classify`. -/
theorem tests_double (a : U64) : Tests (a.extractLsb' 52 11) (a.extractLsb' 0 52)
    ((a >>> 52) &&& 0x7ff == 0x7ff) ((a >>> 52) &&& 0x7ff == 0) (a &&& 0x000fffffffffffff == 0)
    (~~~a &&& 0x7ff0000000000000 == 0 && a &&& 0x000fffffffffffff != 0)
    (a &&& 0x7ff8000000000000 == 0x7ff0000000000000 && a &&& 0x0007ffffffffffff != 0) :=
  tests_of_fields (e := 11) (g := 51) (by decide) a

theorem f32Classify_eq (a : U32) : f32Classify a = BitVec.twoPow 16 (FloatClass.ofSingle a).bit := by
  have sign : (a >>> 31 != 0) = a.msb := shiftRight_ne_zero a
  rw [f32Classify, sign]
  exact classMask_eq (tests_single a) (by decide)

theorem f64Classify_eq (a : U64) : f64Classify a = BitVec.twoPow 16 (FloatClass.ofDouble a).bit := by
  have sign : (a >>> 63 != 0) = a.msb := shiftRight_ne_zero a
  rw [f64Classify, sign]
  exact classMask_eq (tests_double a) (by decide)

theorem FloatClass.bit_le (c : FloatClass) : c.bit ≤ 9 := by
  cases c <;> decide

/-- **Classification is exact.** The result has the bit of the class of the pattern and no other
bit, for all patterns of both formats. -/
theorem classify_exact :
    (∀ (a : U32) i, (f32Classify a).getLsbD i = true ↔ i = (FloatClass.ofSingle a).bit) ∧
      ∀ (a : U64) i, (f64Classify a).getLsbD i = true ↔ i = (FloatClass.ofDouble a).bit := by
  have one : ∀ (c : FloatClass) i, (BitVec.twoPow 16 c.bit).getLsbD i = true ↔ i = c.bit := by
    intro c i
    have bound := c.bit_le
    have inside : c.bit < 16 := by omega
    rw [BitVec.getLsbD_twoPow]
    simp [inside, eq_comm]
  constructor
  · intro a i
    rw [f32Classify_eq, one]
  · intro a i
    rw [f64Classify_eq, one]

end Formats

end RiscvEmu
