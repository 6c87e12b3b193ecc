import Mathlib.Algebra.Order.Group.Nat
import Mathlib.Tactic.Ring

/-!
# Alignment

Rounding a number down or up to a multiple of a unit: on natural numbers
(`floor`, `ceil`), and on 64-bit words by masking with the negated unit
(`down`, `up`), which is the same for a unit that is a power of two
(`toNat_down`, `toNat_up`).
-/

set_option autoImplicit false

namespace Alignment

/-! ## Numbers -/

/-- The largest multiple of the unit that is at most the number. -/
def floor (n unit : Nat) : Nat := n / unit * unit

/-- The least multiple of the unit that is at least the number. -/
def ceil (n unit : Nat) : Nat := (n + unit - 1) / unit * unit

section Numbers

variable {n m unit : Nat}

theorem floor_le : floor n unit ≤ n := Nat.div_mul_le_self n unit

theorem lt_floor_add (pos : 0 < unit) : n < floor n unit + unit :=
  Nat.lt_div_mul_add pos

theorem dvd_floor : unit ∣ floor n unit := Nat.dvd_mul_left ..

theorem dvd_ceil : unit ∣ ceil n unit := Nat.dvd_mul_left ..

theorem le_ceil (pos : 0 < unit) : n ≤ ceil n unit := by
  have bound := @lt_floor_add (n + unit - 1) unit pos
  rw [floor] at bound
  rw [ceil]
  omega

/-- A multiple that bounds the number bounds its rounding up. -/
theorem ceil_le_of_dvd (pos : 0 < unit) (dvd : unit ∣ m) (le : n ≤ m) : ceil n unit ≤ m := by
  obtain ⟨q, rfl⟩ := dvd
  have quotient : (n + unit - 1) / unit < q + 1 := by
    rw [Nat.div_lt_iff_lt_mul pos, Nat.add_mul, Nat.mul_comm q]
    omega
  calc ceil n unit ≤ q * unit := Nat.mul_le_mul_right unit (by omega)
    _ = unit * q := Nat.mul_comm ..

theorem ceil_of_dvd (pos : 0 < unit) (dvd : unit ∣ n) : ceil n unit = n :=
  Nat.le_antisymm (ceil_le_of_dvd pos dvd le_rfl) (le_ceil pos)

theorem ceil_mono (pos : 0 < unit) (le : n ≤ m) : ceil n unit ≤ ceil m unit :=
  ceil_le_of_dvd pos dvd_ceil (le.trans (le_ceil pos))

/-- Rounding up commutes with adding a multiple. -/
theorem ceil_add_of_dvd (pos : 0 < unit) (dvd : unit ∣ m) : ceil (m + n) unit = m + ceil n unit := by
  obtain ⟨q, rfl⟩ := dvd
  have regroup : unit * q + n + unit - 1 = (n + unit - 1) + unit * q := by omega
  rw [ceil, ceil, regroup, Nat.add_mul_div_left _ _ pos, Nat.add_mul]
  ring

/-- Rounding down commutes with adding a multiple. -/
theorem floor_add_of_dvd (pos : 0 < unit) (dvd : unit ∣ m) :
    floor (m + n) unit = m + floor n unit := by
  obtain ⟨q, rfl⟩ := dvd
  rw [floor, floor, Nat.mul_add_div pos, Nat.add_mul, Nat.mul_comm q]

/-- A number is its rounding down and its remainder. -/
theorem floor_add_mod : floor n unit + n % unit = n := Nat.div_add_mod' n unit

end Numbers

/-! ## Words -/

/-- A word that is a power of two. -/
def PowerOfTwo (unit : BitVec 64) : Prop := ∃ e, e < 64 ∧ unit = BitVec.twoPow 64 e

/-- `x & -unit`. -/
def down (x unit : BitVec 64) : BitVec 64 := x &&& -unit

/-- `(x + unit - 1) & -unit`. -/
def up (x unit : BitVec 64) : BitVec 64 := (x + unit - 1) &&& -unit

section Words

variable {x unit : BitVec 64}

theorem PowerOfTwo.pos (power : PowerOfTwo unit) : 0 < unit.toNat := by
  obtain ⟨e, bound, rfl⟩ := power
  rw [BitVec.toNat_twoPow_of_lt bound]
  exact Nat.two_pow_pos e

theorem PowerOfTwo.dvd (power : PowerOfTwo unit) : unit.toNat ∣ 2 ^ 63 := by
  obtain ⟨e, bound, rfl⟩ := power
  rw [BitVec.toNat_twoPow_of_lt bound]
  exact pow_dvd_pow 2 (by omega)

theorem PowerOfTwo.le (power : PowerOfTwo unit) : unit.toNat ≤ 2 ^ 63 :=
  Nat.le_of_dvd (Nat.two_pow_pos 63) power.dvd

/-- The two spellings of the mask. -/
theorem not_sub_one : ~~~(unit - 1) = -unit := by
  rw [BitVec.neg_eq_not_add]
  exact BitVec.not_sub_one_eq_not_add_one

/-- The bits that survive the mask are those from the exponent on. -/
theorem getLsbD_neg_twoPow {e i : Nat} (bound : e < 64) (inside : i < 64) :
    (-(BitVec.twoPow 64 e)).getLsbD i = decide (e ≤ i) := by
  have pred : (BitVec.twoPow 64 e - 1).toNat = 2 ^ e - 1 := by
    have small : 2 ^ e < 2 ^ 64 := Nat.pow_lt_pow_right (by omega) bound
    have pos := Nat.two_pow_pos e
    have one : (1 : BitVec 64).toNat = 1 := rfl
    rw [BitVec.toNat_sub, BitVec.toNat_twoPow_of_lt bound, one]
    omega
  rw [← not_sub_one, BitVec.getLsbD_not, BitVec.getLsbD, pred, Nat.testBit_two_pow_sub_one]
  by_cases low : i < e
  · simp [inside, low]
  · simp [inside, low, Nat.le_of_not_lt low]

theorem toNat_down (power : PowerOfTwo unit) : (down x unit).toNat = floor x.toNat unit.toNat := by
  obtain ⟨e, bound, rfl⟩ := power
  have shifted : down x (BitVec.twoPow 64 e) = (x >>> e) <<< e := by
    apply BitVec.eq_of_getLsbD_eq
    intro i inside
    rw [down, BitVec.getLsbD_and, getLsbD_neg_twoPow bound inside, BitVec.getLsbD_shiftLeft,
      BitVec.getLsbD_ushiftRight]
    by_cases high : e ≤ i
    · simp [high, inside, Nat.not_lt.mpr high]
    · simp [high, Nat.lt_of_not_le high]
  have small : x.toNat / 2 ^ e * 2 ^ e < 2 ^ 64 :=
    lt_of_le_of_lt (Nat.div_mul_le_self ..) x.isLt
  rw [shifted, BitVec.toNat_shiftLeft, BitVec.toNat_ushiftRight, BitVec.toNat_twoPow_of_lt bound,
    Nat.shiftRight_eq_div_pow, Nat.shiftLeft_eq, Nat.mod_eq_of_lt small, floor]

theorem up_eq_down : up x unit = down (x + unit - 1) unit := rfl

/-- Rounding a word up is rounding its number up when the sum does not wrap. -/
theorem toNat_up (power : PowerOfTwo unit) (fits : x.toNat + unit.toNat ≤ 2 ^ 64) :
    (up x unit).toNat = ceil x.toNat unit.toNat := by
  have pos := power.pos
  have sum : (x + unit - 1).toNat = x.toNat + unit.toNat - 1 := by
    have one : (1 : BitVec 64).toNat = 1 := rfl
    rw [BitVec.toNat_sub, BitVec.toNat_add, one]
    omega
  rw [up_eq_down, toNat_down power, sum, floor, ceil]

/-- Rounding up a word of the last unit that is not its start wraps to zero. -/
theorem up_of_wrap (power : PowerOfTwo unit) (wraps : 2 ^ 64 < x.toNat + unit.toNat) :
    up x unit = 0 := by
  have le := power.le
  have sum : (x + unit - 1).toNat = x.toNat + unit.toNat - 1 - 2 ^ 64 := by
    have one : (1 : BitVec 64).toNat = 1 := rfl
    rw [BitVec.toNat_sub, BitVec.toNat_add, one]
    omega
  apply BitVec.eq_of_toNat_eq
  rw [up_eq_down, toNat_down power, sum, floor, Nat.div_eq_of_lt (by omega), Nat.zero_mul]
  rfl

end Words

end Alignment
