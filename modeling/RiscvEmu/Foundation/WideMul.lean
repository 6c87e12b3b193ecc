import Mathlib.Tactic.Ring
import Mathlib.Tactic.Linarith

/-!
# Products of double width

The product of two words needs a word of twice the width. `high` is its upper
half. Two facts are provided about computing it with single words.

* A product is put together from the products of the halves of its factors, with
  one carry after the other (`schoolbook`); none of the sums needs more than two
  digits (`schoolbook_lt`).
* The upper half of a negated product is the complement of the upper half, plus a
  carry when the lower half is zero (`high_neg`), so a signed product is computed
  from the product of the absolute values (`signExtend_of_neg`).
-/

set_option autoImplicit false

namespace WideMul

/-! ## Schoolbook multiplication -/

section Schoolbook

variable (base a₀ a₁ b₀ b₁ : Nat)

/-- The middle product with the carry of the low one. -/
def cross : Nat := a₁ * b₀ + a₀ * b₀ / base

/-- The other middle product with the low digit of the first. -/
def cross' : Nat := a₀ * b₁ + cross base a₀ a₁ b₀ % base

/-- The high product with both carries. -/
def top : Nat := a₁ * b₁ + cross base a₀ a₁ b₀ / base + cross' base a₀ a₁ b₀ b₁ / base

variable {base a₀ a₁ b₀ b₁}

/-- The product in three parts. -/
theorem product_eq : (a₁ * base + a₀) * (b₁ * base + b₀) =
    top base a₀ a₁ b₀ b₁ * (base * base) +
      (cross' base a₀ a₁ b₀ b₁ % base * base + a₀ * b₀ % base) := by
  have low := Nat.div_add_mod (a₀ * b₀) base
  have middle := Nat.div_add_mod (cross base a₀ a₁ b₀) base
  have middle' := Nat.div_add_mod (cross' base a₀ a₁ b₀ b₁) base
  have first : cross base a₀ a₁ b₀ = a₁ * b₀ + a₀ * b₀ / base := rfl
  have second : cross' base a₀ a₁ b₀ b₁ = a₀ * b₁ + cross base a₀ a₁ b₀ % base := rfl
  rw [top]
  generalize a₀ * b₀ / base = carry at *
  generalize cross base a₀ a₁ b₀ / base = q at *
  generalize cross base a₀ a₁ b₀ % base = r at *
  generalize cross' base a₀ a₁ b₀ b₁ / base = q' at *
  generalize cross' base a₀ a₁ b₀ b₁ % base = r' at *
  generalize a₀ * b₀ % base = l at *
  have expand : (a₁ * base + a₀) * (b₁ * base + b₀) =
      a₁ * b₁ * (base * base) + (a₁ * b₀ + a₀ * b₁) * base + a₀ * b₀ := by ring
  have inner : a₁ * b₀ + a₀ * b₁ + carry = base * q + (base * q' + r') := by omega
  calc (a₁ * base + a₀) * (b₁ * base + b₀)
      = a₁ * b₁ * (base * base) + (a₁ * b₀ + a₀ * b₁) * base + (base * carry + l) := by
        rw [expand, low]
    _ = a₁ * b₁ * (base * base) + (a₁ * b₀ + a₀ * b₁ + carry) * base + l := by ring
    _ = (a₁ * b₁ + q + q') * (base * base) + (r' * base + l) := by rw [inner]; ring

/-- **The high digits of a product** are the high product with its carries. -/
theorem schoolbook (positive : 0 < base) :
    (a₁ * base + a₀) * (b₁ * base + b₀) / (base * base) = top base a₀ a₁ b₀ b₁ := by
  have digit := Nat.mod_lt (cross' base a₀ a₁ b₀ b₁) positive
  have digit' := Nat.mod_lt (a₀ * b₀) positive
  have small : cross' base a₀ a₁ b₀ b₁ % base * base + a₀ * b₀ % base < base * base := by
    calc cross' base a₀ a₁ b₀ b₁ % base * base + a₀ * b₀ % base
        < cross' base a₀ a₁ b₀ b₁ % base * base + base := by omega
      _ = (cross' base a₀ a₁ b₀ b₁ % base + 1) * base := by ring
      _ ≤ base * base := Nat.mul_le_mul_right base digit
  rw [product_eq, Nat.add_comm, Nat.add_mul_div_right _ _ (Nat.mul_pos positive positive),
    Nat.div_eq_of_lt small, Nat.zero_add]

/-- A product of two digits and a digit on top of it have two digits. -/
theorem digit_mul_add_lt {x y z : Nat} (hx : x < base) (hy : y < base) (hz : z < base) :
    x * y + z < base * base := by
  obtain ⟨k, rfl⟩ : ∃ k, base = k + 1 := ⟨base - 1, by omega⟩
  have bound : x * y ≤ k * k := Nat.mul_le_mul (by omega) (by omega)
  calc x * y + z ≤ k * k + k := by omega
    _ < (k + 1) * (k + 1) := by ring_nf; omega

variable (ha₀ : a₀ < base) (ha₁ : a₁ < base) (hb₀ : b₀ < base) (hb₁ : b₁ < base)

include ha₀ ha₁ hb₀ in
theorem cross_lt : cross base a₀ a₁ b₀ < base * base := by
  apply digit_mul_add_lt ha₁ hb₀
  apply Nat.div_lt_of_lt_mul
  exact Nat.mul_lt_mul'' ha₀ hb₀

include ha₀ hb₁ in
theorem cross'_lt : cross' base a₀ a₁ b₀ b₁ < base * base :=
  digit_mul_add_lt ha₀ hb₁ (Nat.mod_lt _ (Nat.zero_lt_of_lt ha₀))

include ha₀ ha₁ hb₀ hb₁ in
/-- **No sum needs more than two digits.** -/
theorem top_lt : top base a₀ a₁ b₀ b₁ < base * base := by
  have positive := Nat.zero_lt_of_lt ha₀
  have whole : ∀ {x y : Nat}, x < base → y < base → y * base + x < base * base := by
    intro x y hx hy
    calc y * base + x < y * base + base := by omega
      _ = (y + 1) * base := by ring
      _ ≤ base * base := Nat.mul_le_mul_right base hy
  rw [← schoolbook positive]
  apply Nat.div_lt_of_lt_mul
  exact Nat.mul_lt_mul'' (whole ha₀ ha₁) (whole hb₀ hb₁)

end Schoolbook

/-! ## The upper half -/

/-- The upper half of a double word. -/
def high {w : Nat} (p : BitVec (w + w)) : BitVec w := p.extractLsb' w w

/-- The lower half of a double word. -/
def low {w : Nat} (p : BitVec (w + w)) : BitVec w := p.setWidth w

section Halves

variable {w : Nat} (p : BitVec (w + w))

theorem toNat_high : (high p).toNat = p.toNat / 2 ^ w := by
  have bound : p.toNat / 2 ^ w < 2 ^ w := by
    apply Nat.div_lt_of_lt_mul
    rw [← pow_add]
    exact p.isLt
  rw [high, BitVec.extractLsb'_toNat, Nat.shiftRight_eq_div_pow, Nat.mod_eq_of_lt bound]

theorem toNat_low : (low p).toNat = p.toNat % 2 ^ w := BitVec.toNat_setWidth ..

theorem low_eq_zero : low p = 0 ↔ p.toNat % 2 ^ w = 0 := by
  rw [← BitVec.toNat_inj, toNat_low]
  simp

/-- The high digit of a negated number of two digits. -/
theorem neg_div {base n : Nat} (positive : 0 < base) (two : n < base * base) :
    (base * base - n) % (base * base) / base =
      if n % base = 0 then (base - n / base) % base else base - 1 - n / base := by
  have split := Nat.div_add_mod n base
  have digit := Nat.mod_lt n positive
  have upper : n / base < base := Nat.div_lt_of_lt_mul two
  generalize n / base = h at *
  generalize n % base = l at *
  have expand : base * (base - h) = base * base - base * h := Nat.mul_sub ..
  by_cases zero : l = 0
  · rw [if_pos zero]
    rcases Nat.eq_zero_or_pos h with none | some
    · subst none
      have all : n = 0 := by omega
      simp [all]
    · have rest : base * base - n = base * (base - h) := by omega
      have less : base * (base - h) < base * base :=
        Nat.mul_lt_mul_of_pos_left (by omega) positive
      rw [rest, Nat.mod_eq_of_lt less, Nat.mul_div_cancel_left _ positive,
        Nat.mod_eq_of_lt (by omega)]
  · rw [if_neg zero]
    have carry : base * (base - 1 - h) + base = base * (base - h) := by
      rw [← Nat.mul_succ]
      congr 1
      omega
    have rest : base * base - n = (base - l) + base * (base - 1 - h) := by omega
    rw [Nat.mod_eq_of_lt (by omega), rest, Nat.add_mul_div_left _ _ positive,
      Nat.div_eq_of_lt (by omega), Nat.zero_add]

/-- **The upper half of a negation.** -/
theorem high_neg : high (-p) = ~~~high p + if low p = 0 then 1 else 0 := by
  apply BitVec.eq_of_toNat_eq
  have square : (2 : Nat) ^ (w + w) = 2 ^ w * 2 ^ w := pow_add ..
  have two : p.toNat < 2 ^ w * 2 ^ w := square ▸ p.isLt
  have upper := (high p).isLt
  have inverse : (~~~high p).toNat = 2 ^ w - 1 - (high p).toNat := BitVec.toNat_not
  rw [toNat_high, BitVec.toNat_neg, BitVec.toNat_add, inverse, square,
    neg_div (Nat.two_pow_pos w) two, toNat_high]
  rw [toNat_high] at upper
  generalize p.toNat / 2 ^ w = h at upper ⊢
  by_cases zero : low p = 0
  · have one : (1 : BitVec w).toNat = 1 % 2 ^ w := BitVec.toNat_ofNat ..
    rw [if_pos zero, if_pos ((low_eq_zero p).mp zero), one, Nat.add_mod_mod]
    congr 1
    omega
  · have none : (0 : BitVec w).toNat = 0 := BitVec.toNat_ofNat ..
    rw [if_neg zero, if_neg (fun digit => zero ((low_eq_zero p).mpr digit)), none, Nat.add_zero,
      Nat.mod_eq_of_lt (by omega)]

/-- A negative word is the negation of its absolute value. -/
theorem signExtend_of_neg {a : BitVec w} (negative : a.slt 0 = true) :
    a.signExtend (w + w) = -(-a).setWidth (w + w) := by
  have msb : a.msb = true := BitVec.slt_zero_eq_msb ▸ negative
  have size := BitVec.toNat_ge_of_msb_true msb
  have bound := a.isLt
  have wide : (2 : Nat) ^ w ≤ 2 ^ (w + w) := Nat.pow_le_pow_right (by decide) (by omega)
  apply BitVec.eq_of_toNat_eq
  rw [BitVec.toNat_signExtend, BitVec.toNat_setWidth, BitVec.toNat_neg, BitVec.toNat_setWidth,
    BitVec.toNat_neg, msb]
  have positive := Nat.two_pow_pos (w - 1)
  rw [Nat.mod_eq_of_lt (show a.toNat < 2 ^ (w + w) by omega),
    Nat.mod_eq_of_lt (show 2 ^ w - a.toNat < 2 ^ w by omega),
    Nat.mod_eq_of_lt (show 2 ^ w - a.toNat < 2 ^ (w + w) by omega),
    Nat.mod_eq_of_lt (show 2 ^ (w + w) - (2 ^ w - a.toNat) < 2 ^ (w + w) by omega)]
  simp only [if_true]
  omega

/-- A word that is not negative is its absolute value. -/
theorem signExtend_of_nonneg {a : BitVec w} (nonnegative : a.slt 0 = false) :
    a.signExtend (w + w) = a.setWidth (w + w) := by
  apply BitVec.signExtend_eq_setWidth_of_msb_false
  rwa [← BitVec.slt_zero_eq_msb]

end Halves

end WideMul
