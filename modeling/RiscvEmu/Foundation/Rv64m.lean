import Mathlib.Tactic.Cases

/-!
# Division and remainder of RV64M

The division instructions as the architecture defines them. They never trap: a zero
divisor gives a quotient of all ones and the dividend as remainder, a signed overflow
gives the dividend and zero. The instructions on words use the low words of both
operands and sign-extend the result.

The signed operations are defined on integers with the quotient rounded towards zero;
`quotient_signed` and `remainder_signed` are the operations of a host on bit vectors,
and `low_sdiv` and its siblings say that a host may divide words at a larger width.
-/

set_option autoImplicit false

namespace Rv64m

/-! ## The operations at one width -/

section Width

variable {w : Nat}

/-- The quotient. -/
def quotient (signed : Bool) (x y : BitVec w) : BitVec w :=
  if y = 0 then -1
  else if signed then
    if x = BitVec.intMin w ∧ y = -1 then x else BitVec.ofInt w (x.toInt.tdiv y.toInt)
  else BitVec.ofNat w (x.toNat / y.toNat)

/-- The remainder; it has the sign of the dividend. -/
def remainder (signed : Bool) (x y : BitVec w) : BitVec w :=
  if y = 0 then x
  else if signed then
    if x = BitVec.intMin w ∧ y = -1 then 0 else BitVec.ofInt w (x.toInt.tmod y.toInt)
  else BitVec.ofNat w (x.toNat % y.toNat)

variable {x y : BitVec w}

theorem sdiv_eq_ofInt : x.sdiv y = BitVec.ofInt w (x.toInt.tdiv y.toInt) := by
  apply BitVec.eq_of_toInt_eq
  rw [BitVec.toInt_sdiv, BitVec.toInt_ofInt]

theorem srem_eq_ofInt : x.srem y = BitVec.ofInt w (x.toInt.tmod y.toInt) := by
  rw [← BitVec.toInt_srem, BitVec.ofInt_toInt]

theorem quotient_signed (nonzero : y ≠ 0) : quotient true x y = x.sdiv y := by
  rw [quotient, if_neg nonzero, if_pos rfl, sdiv_eq_ofInt]
  by_cases overflow : x = BitVec.intMin w ∧ y = -1
  · rw [if_pos overflow, ← sdiv_eq_ofInt, overflow.1, overflow.2]
    exact BitVec.intMin_sdiv_neg_one.symm
  · rw [if_neg overflow]

theorem remainder_signed (nonzero : y ≠ 0) : remainder true x y = x.srem y := by
  rw [remainder, if_neg nonzero, if_pos rfl, srem_eq_ofInt]
  by_cases overflow : x = BitVec.intMin w ∧ y = -1
  · have positive : 0 < w := by
      apply Nat.pos_of_ne_zero
      intro none
      subst none
      exact nonzero BitVec.of_length_zero
    have minus : y.toInt = -1 := by
      rw [overflow.2]
      exact BitVec.neg_one_eq_allOnes ▸ BitVec.toInt_allOnes.trans (if_pos positive)
    rw [if_pos overflow, minus, Int.tmod_neg, Int.tmod_one]
    rfl
  · rw [if_neg overflow]

theorem quotient_unsigned (nonzero : y ≠ 0) : quotient false x y = x / y := by
  rw [quotient, if_neg nonzero, BitVec.udiv_def]
  rfl

theorem remainder_unsigned (nonzero : y ≠ 0) : remainder false x y = x % y := by
  rw [remainder, if_neg nonzero]
  apply BitVec.eq_of_toNat_eq
  rw [BitVec.toNat_umod]
  exact (BitVec.toNat_ofNat ..).trans
    (Nat.mod_eq_of_lt (Nat.lt_of_le_of_lt (Nat.mod_le ..) x.isLt))

end Width

/-! ## Dividing at a larger width -/

section Widths

variable {w v : Nat} {x y : BitVec w}

theorem setWidth_ofInt (le : w ≤ v) (i : Int) :
    (BitVec.ofInt v i).setWidth w = BitVec.ofInt w i := by
  apply BitVec.eq_of_toInt_eq
  rw [← BitVec.signExtend_eq_setWidth_of_le _ le, BitVec.toInt_signExtend, BitVec.toInt_ofInt,
    BitVec.toInt_ofInt, Nat.min_eq_left le]
  exact Int.bmod_bmod_of_dvd (Nat.pow_dvd_pow 2 le)

theorem low_sdiv (le : w ≤ v) : ((x.signExtend v).sdiv (y.signExtend v)).setWidth w = x.sdiv y := by
  rw [sdiv_eq_ofInt, sdiv_eq_ofInt, setWidth_ofInt le, BitVec.toInt_signExtend_of_le le,
    BitVec.toInt_signExtend_of_le le]

theorem low_srem (le : w ≤ v) : ((x.signExtend v).srem (y.signExtend v)).setWidth w = x.srem y := by
  rw [srem_eq_ofInt, srem_eq_ofInt, setWidth_ofInt le, BitVec.toInt_signExtend_of_le le,
    BitVec.toInt_signExtend_of_le le]

theorem low_udiv (le : w ≤ v) : ((x.setWidth v) / (y.setWidth v)).setWidth w = x / y := by
  apply BitVec.eq_of_toNat_eq
  rw [BitVec.toNat_setWidth, BitVec.toNat_udiv, BitVec.toNat_setWidth_of_le le,
    BitVec.toNat_setWidth_of_le le, ← BitVec.toNat_udiv]
  exact Nat.mod_eq_of_lt (x / y).isLt

theorem low_umod (le : w ≤ v) : ((x.setWidth v) % (y.setWidth v)).setWidth w = x % y := by
  apply BitVec.eq_of_toNat_eq
  rw [BitVec.toNat_setWidth, BitVec.toNat_umod, BitVec.toNat_setWidth_of_le le,
    BitVec.toNat_setWidth_of_le le, ← BitVec.toNat_umod]
  exact Nat.mod_eq_of_lt (x % y).isLt

end Widths

/-! ## The instructions -/

/-- The instructions. -/
inductive DivOp where
  | div | divu | rem | remu | divw | divuw | remw | remuw

/-- Whether an instruction divides words. -/
def DivOp.word : DivOp → Bool
  | .div | .divu | .rem | .remu => false
  | .divw | .divuw | .remw | .remuw => true

/-- The value that an instruction writes. -/
def DivOp.eval : DivOp → BitVec 64 → BitVec 64 → BitVec 64
  | .div, x, y => quotient true x y
  | .divu, x, y => quotient false x y
  | .rem, x, y => remainder true x y
  | .remu, x, y => remainder false x y
  | .divw, x, y => (quotient true (x.setWidth 32) (y.setWidth 32)).signExtend 64
  | .divuw, x, y => (quotient false (x.setWidth 32) (y.setWidth 32)).signExtend 64
  | .remw, x, y => (remainder true (x.setWidth 32) (y.setWidth 32)).signExtend 64
  | .remuw, x, y => (remainder false (x.setWidth 32) (y.setWidth 32)).signExtend 64

end Rv64m
