import RiscvEmu.Foundation.CInt
import Mathlib.Data.BitVec

/-!
# Fields of words

A field of a word is a run of its bits. C code tests one by masking the word where it is, or by
shifting it down first; both say something about the field alone.

* `and_mask_iff`: a masked word, compared with a value in place.
* `shiftRight_mask_iff`: a word that is shifted down and masked.
* `extract_eq_append_iff`: a field as two fields side by side.
* `shiftRight_mask`, `or_append`, `signExtend_eq_shift`: what C code does to read a field, to
  put fields together and to extend the sign, each as an operation on fields.
-/

set_option autoImplicit false

namespace BitFields

variable {n w : Nat} {x : BitVec n} {s : Nat}

/-- The bits of a field that is moved to its place. -/
theorem getLsbD_place (inside : s + w ≤ n) (v : BitVec w) (i : Nat) :
    (v.setWidth n <<< s).getLsbD i = (decide (s ≤ i) && v.getLsbD (i - s)) := by
  rw [BitVec.getLsbD_shiftLeft, BitVec.getLsbD_setWidth]
  by_cases below : i < s
  · simp [below]
  · by_cases beyond : w ≤ i - s
    · simp [BitVec.getLsbD_of_ge v _ beyond]
    · have first : i < n := by omega
      have second : i - s < n := by omega
      have third : s ≤ i := by omega
      simp [first, second, third, below]

/-- **A masked word** has a value in its place exactly when the masked field has it. -/
theorem and_mask_iff (inside : s + w ≤ n) (mask v : BitVec w) :
    x &&& (mask.setWidth n <<< s) = v.setWidth n <<< s ↔ x.extractLsb' s w &&& mask = v := by
  rw [BitVec.eq_of_getLsbD_eq_iff, BitVec.eq_of_getLsbD_eq_iff]
  constructor
  · intro same i bound
    have bit := same (i + s) (by omega)
    rw [BitVec.getLsbD_and, getLsbD_place inside, getLsbD_place inside] at bit
    rw [BitVec.getLsbD_and, BitVec.getLsbD_extractLsb']
    simpa [bound, Nat.add_comm] using bit
  · intro same i bound
    rw [BitVec.getLsbD_and, getLsbD_place inside, getLsbD_place inside]
    by_cases field : s ≤ i ∧ i - s < w
    · have bit := same (i - s) field.2
      rw [BitVec.getLsbD_and, BitVec.getLsbD_extractLsb'] at bit
      have here : s + (i - s) = i := by omega
      simpa [field.1, field.2, here] using bit
    · by_cases below : i < s
      · simp [Nat.not_le.mpr below]
      · have beyond : w ≤ i - s := by omega
        simp [BitVec.getLsbD_of_ge _ _ beyond]

/-- The same for a field at the lower end. -/
theorem and_low_mask_iff (inside : w ≤ n) (mask v : BitVec w) :
    x &&& mask.setWidth n = v.setWidth n ↔ x.extractLsb' 0 w &&& mask = v := by
  have place := and_mask_iff (x := x) (s := 0) (by omega) mask v
  rwa [BitVec.shiftLeft_zero, BitVec.shiftLeft_zero] at place

/-- **A word that is shifted down and masked** has the value of the field. -/
theorem shiftRight_mask_iff (inside : w ≤ n) (v : BitVec w) :
    (x >>> s) &&& (BitVec.allOnes w).setWidth n = v.setWidth n ↔ x.extractLsb' s w = v := by
  rw [and_low_mask_iff inside, BitVec.and_allOnes]
  have shifted : (x >>> s).extractLsb' 0 w = x.extractLsb' s w := by
    apply BitVec.eq_of_getLsbD_eq
    intro i bound
    simp [BitVec.getLsbD_extractLsb']
  rw [shifted]

/-- **Two fields side by side.** -/
theorem extract_eq_append_iff {h l : Nat} {hi : BitVec h} {lo : BitVec l} :
    x.extractLsb' s (h + l) = hi ++ lo ↔
      x.extractLsb' (s + l) h = hi ∧ x.extractLsb' s l = lo := by
  rw [BitVec.eq_of_getLsbD_eq_iff, BitVec.eq_of_getLsbD_eq_iff, BitVec.eq_of_getLsbD_eq_iff]
  constructor
  · intro same
    constructor
    · intro i bound
      have bit := same (i + l) (by omega)
      rw [BitVec.getLsbD_append, if_neg (by omega), Nat.add_sub_cancel] at bit
      rw [← bit, BitVec.getLsbD_extractLsb', BitVec.getLsbD_extractLsb']
      have here : s + l + i = s + (i + l) := by omega
      have inside : i + l < h + l := by omega
      simp [bound, here, inside]
    · intro i bound
      have bit := same i (by omega)
      rw [BitVec.getLsbD_append, if_pos bound] at bit
      rw [← bit, BitVec.getLsbD_extractLsb', BitVec.getLsbD_extractLsb']
      have inside : i < h + l := by omega
      simp [bound, inside]
  · rintro ⟨high, low⟩ i bound
    rw [BitVec.getLsbD_append]
    split_ifs with below
    · rw [← low i below, BitVec.getLsbD_extractLsb', BitVec.getLsbD_extractLsb']
      simp [bound, below]
    · have inside : i - l < h := by omega
      have here : s + l + (i - l) = s + i := by omega
      rw [← high (i - l) inside, BitVec.getLsbD_extractLsb', BitVec.getLsbD_extractLsb']
      simp [bound, inside, here]

/-- A word that is shifted down and masked is a field. -/
theorem shiftRight_mask (x : BitVec n) (s w : Nat) :
    (x >>> s) &&& BitVec.ofNat n (2 ^ w - 1) = (x.extractLsb' s w).setWidth n := by
  apply BitVec.eq_of_getLsbD_eq
  intro i bound
  rw [BitVec.getLsbD_and, BitVec.getLsbD_ushiftRight, BitVec.getLsbD_ofNat,
    Nat.testBit_two_pow_sub_one, BitVec.getLsbD_setWidth, BitVec.getLsbD_extractLsb',
    decide_eq_true bound, Bool.true_and, Bool.true_and, Bool.and_comm]

/-- Two fields that are moved next to each other are an append. -/
theorem or_append {h l t : Nat} (hi : BitVec h) (lo : BitVec l) (next : t = s + l) :
    hi.setWidth n <<< t ||| lo.setWidth n <<< s = (hi ++ lo).setWidth n <<< s := by
  apply BitVec.eq_of_getLsbD_eq
  intro i bound
  simp only [BitVec.getLsbD_or, BitVec.getLsbD_shiftLeft, BitVec.getLsbD_setWidth,
    BitVec.getLsbD_append, bound, decide_true, Bool.true_and]
  by_cases below : i < t
  · by_cases lower : i < s
    · simp [below, lower]
    · simp [below, lower, show i - s < l by omega]
  · have beyond : l ≤ i - s := by omega
    have high : i - s - l = i - t := by omega
    simp [below, show ¬ i < s by omega, beyond, high, show i - t < n by omega,
      show i - s < n by omega]

/-- The same when the lower field is at the end. -/
theorem or_append_end {h l : Nat} (hi : BitVec h) (lo : BitVec l) :
    hi.setWidth n <<< l ||| lo.setWidth n = (hi ++ lo).setWidth n := by
  have appended := or_append (n := n) (s := 0) hi lo (Nat.zero_add l).symm
  rwa [BitVec.shiftLeft_zero, BitVec.shiftLeft_zero] at appended

/-- A field that is moved up has zeros below. -/
theorem shiftLeft_eq_append {h : Nat} (hi : BitVec h) (s : Nat) :
    hi.setWidth n <<< s = (hi ++ 0#s).setWidth n := by
  rw [← or_append_end hi 0#s, BitVec.setWidth_zero, BitVec.or_zero]

/-- A field that is moved to the upper end and back is sign-extended. -/
theorem signExtend_eq_shift {k : Nat} (v : BitVec w) (ends : w + k = n) (nonempty : 0 < w) :
    (v.setWidth n <<< k).sshiftRight k = v.signExtend n := by
  have sign : (v.setWidth n <<< k).msb = v.msb := by
    have last : n - 1 - k = w - 1 := by omega
    rw [BitVec.msb_eq_getLsbD_last, BitVec.msb_eq_getLsbD_last, BitVec.getLsbD_shiftLeft,
      BitVec.getLsbD_setWidth, last]
    simp [show n - 1 < n by omega, show ¬ n - 1 < k by omega, show w - 1 < n by omega]
  apply BitVec.eq_of_getLsbD_eq
  intro i bound
  rw [BitVec.getLsbD_sshiftRight, BitVec.getLsbD_signExtend, sign]
  by_cases inside : i < w
  · simp [bound, inside, show k + i < n by omega, show ¬ n ≤ i by omega, show ¬ k + i < k by omega]
  · simp [bound, inside, show ¬ k + i < n by omega]

/-- A bit of a field is a bit of the word. -/
theorem getLsbD_extract {i j : Nat} (inside : j < w) (place : s + j = i) :
    (x.extractLsb' s w).getLsbD j = x.getLsbD i := by
  rw [BitVec.getLsbD_extractLsb', place, decide_eq_true inside, Bool.true_and]

/-- Shifting down with the sign leaves the field at the upper end, sign-extended. -/
theorem sshiftRight_eq_signExtend (x : BitVec n) (ends : s + w = n) (nonempty : 0 < w) :
    x.sshiftRight s = (x.extractLsb' s w).signExtend n := by
  have sign : (x.extractLsb' s w).msb = x.msb := by
    rw [BitVec.msb_eq_getLsbD_last, BitVec.msb_eq_getLsbD_last,
      getLsbD_extract (i := n - 1) (by omega) (by omega)]
  apply BitVec.eq_of_getLsbD_eq
  intro i bound
  rw [BitVec.getLsbD_sshiftRight, BitVec.getLsbD_signExtend, sign, BitVec.getLsbD_extractLsb']
  by_cases inside : i < w
  · simp [bound, inside, show s + i < n by omega, show ¬ n ≤ i by omega]
  · simp [bound, inside, show ¬ s + i < n by omega]

/-- Shifting down leaves the field at the upper end. -/
theorem shiftRight_eq_extract (x : BitVec n) (ends : s + w = n) :
    x >>> s = (x.extractLsb' s w).setWidth n := by
  apply BitVec.eq_of_getLsbD_eq
  intro i bound
  rw [BitVec.getLsbD_ushiftRight, BitVec.getLsbD_setWidth, BitVec.getLsbD_extractLsb']
  by_cases inside : i < w
  · simp [bound, inside]
  · simp [inside, BitVec.getLsbD_of_ge x (s + i) (by omega)]

/-- A word with its lower end cleared. -/
theorem and_high_mask (x : BitVec (w + s)) :
    x &&& (BitVec.allOnes w ++ 0#s) = x.extractLsb' s w ++ 0#s := by
  apply BitVec.eq_of_getLsbD_eq
  intro i bound
  rw [BitVec.getLsbD_and, BitVec.getLsbD_append, BitVec.getLsbD_append]
  split_ifs with below
  · rw [BitVec.getLsbD_zero, Bool.and_false]
  · have inside : i - s < w := by omega
    have here : s + (i - s) = i := by omega
    rw [BitVec.getLsbD_allOnes, decide_eq_true inside, Bool.and_true, getLsbD_extract inside here]

/-- A field of a field. -/
theorem extract_extract (x : BitVec n) {i v : Nat} (inside : i + v ≤ w) :
    (x.extractLsb' s w).extractLsb' i v = x.extractLsb' (s + i) v := by
  apply BitVec.eq_of_getLsbD_eq
  intro j bound
  have within : i + j < w := by omega
  rw [getLsbD_extract bound rfl, getLsbD_extract within rfl, getLsbD_extract bound rfl,
    Nat.add_assoc]

/-- A field of a word that is narrowed. -/
theorem extract_narrow {m : Nat} (x : BitVec n) (inside : s + w ≤ m) :
    (x.setWidth m).extractLsb' s w = x.extractLsb' s w := by
  apply BitVec.eq_of_getLsbD_eq
  intro i bound
  rw [getLsbD_extract bound rfl, getLsbD_extract bound rfl, BitVec.getLsbD_setWidth,
    decide_eq_true (show s + i < m by omega), Bool.true_and]

/-- A field of a word that is widened. -/
theorem extract_setWidth {m : Nat} (x : BitVec n) (wider : n ≤ m) :
    (x.setWidth m).extractLsb' s w = x.extractLsb' s w := by
  apply BitVec.eq_of_getLsbD_eq
  intro i bound
  rw [getLsbD_extract bound rfl, getLsbD_extract bound rfl, BitVec.getLsbD_setWidth]
  by_cases inside : s + i < m
  · rw [decide_eq_true inside, Bool.true_and]
  · rw [decide_eq_false inside, Bool.false_and, BitVec.getLsbD_of_ge x _ (by omega)]

/-- The field that an append ends in. -/
theorem extract_append_right {h l : Nat} (hi : BitVec h) (lo : BitVec l) :
    (hi ++ lo).extractLsb' 0 l = lo := by
  rw [BitVec.extractLsb'_append_eq_of_add_le (Nat.zero_add l).le, BitVec.extractLsb'_eq_self]

/-- A field of the left part of an append. -/
theorem extract_append_above {h l : Nat} (hi : BitVec h) (lo : BitVec l) (s w : Nat) :
    (hi ++ lo).extractLsb' (l + s) w = hi.extractLsb' s w := by
  rw [BitVec.extractLsb'_append_eq_of_le (Nat.le_add_right l s), Nat.add_sub_cancel_left]

/-- The field that an append starts with. -/
theorem extract_append_left {h l : Nat} (hi : BitVec h) (lo : BitVec l) :
    (hi ++ lo).extractLsb' l h = hi :=
  (extract_append_above hi lo 0 h).trans BitVec.extractLsb'_eq_self

/-- Two fields of a word that lie next to each other. -/
theorem append_extract (x : BitVec n) (s h l : Nat) :
    x.extractLsb' (s + l) h ++ x.extractLsb' s l = x.extractLsb' s (h + l) :=
  BitVec.extractLsb'_append_extractLsb'_eq_extractLsb' rfl

/-! Extensions of fields. -/

/-- A field that is widened with zeros has no sign. -/
theorem signExtend_setWidth {v m : Nat} (x : BitVec v) (wider : v < m) :
    (x.setWidth m).signExtend n = x.setWidth n := by
  have clear : (x.setWidth m).msb = false := by
    rw [BitVec.msb_setWidth, BitVec.getLsbD_of_ge x _ (by omega), Bool.and_false]
  rw [BitVec.signExtend_eq_setWidth_of_msb_false clear]
  apply BitVec.eq_of_getLsbD_eq
  intro i bound
  rw [BitVec.getLsbD_setWidth, BitVec.getLsbD_setWidth, BitVec.getLsbD_setWidth]
  by_cases inside : i < m
  · rw [decide_eq_true inside, Bool.true_and]
  · rw [BitVec.getLsbD_of_ge x i (by omega), Bool.and_false]

theorem signExtend_signExtend {v m : Nat} (x : BitVec v) (nonempty : 0 < v) (wider : v ≤ m) :
    (x.signExtend m).signExtend n = x.signExtend n := by
  have sign : (x.signExtend m).msb = x.msb := by
    rw [BitVec.msb_eq_getLsbD_last, BitVec.getLsbD_signExtend]
    by_cases same : m - 1 < v
    · have last : m - 1 = v - 1 := by omega
      rw [if_pos same, last, ← BitVec.msb_eq_getLsbD_last]
      simp [show v - 1 < m by omega]
    · rw [if_neg same]
      simp [show m - 1 < m by omega]
  apply BitVec.eq_of_getLsbD_eq
  intro i bound
  rw [BitVec.getLsbD_signExtend, BitVec.getLsbD_signExtend, BitVec.getLsbD_signExtend, sign]
  by_cases inside : i < v
  · simp [inside, show i < m by omega]
  · by_cases within : i < m <;> simp [inside, within]

/-- A field with zeros below, widened before or after. -/
theorem signExtend_append_zero {v m : Nat} (x : BitVec v) (nonempty : 0 < v) (wider : v ≤ m) :
    x.signExtend m ++ 0#s = (x ++ 0#s).signExtend (m + s) := by
  have sign : (x ++ 0#s).msb = x.msb := by
    rw [BitVec.msb_append, if_neg (by omega)]
  apply BitVec.eq_of_getLsbD_eq
  intro i bound
  rw [BitVec.getLsbD_append, BitVec.getLsbD_signExtend, BitVec.getLsbD_signExtend,
    BitVec.getLsbD_append, sign]
  by_cases below : i < s
  · simp [below, bound, show i < v + s by omega]
  · by_cases inside : i - s < v
    · simp [below, bound, inside, show i < v + s by omega, show i - s < m by omega]
    · simp [below, bound, inside, show ¬ i < v + s by omega, show i - s < m by omega]

/-- A field that is widened, then moved up and widened again. -/
theorem signExtend_append_signExtend {v m : Nat} (x : BitVec v) (nonempty : 0 < v)
    (wider : v ≤ m) : (x.signExtend m ++ 0#s).signExtend n = (x ++ 0#s).signExtend n := by
  rw [signExtend_append_zero x nonempty wider]
  exact signExtend_signExtend _ (by omega) (by omega)

/-- A field with zeros below that is widened is zero only when the field is. -/
theorem setWidth_append_ne_zero {v : Nat} {x : BitVec v} (fits : v + s ≤ n) (nonzero : x ≠ 0) :
    (x ++ 0#s).setWidth n ≠ 0 := by
  intro zero
  apply nonzero
  have field := congrArg (BitVec.extractLsb' s v) zero
  rw [extract_setWidth _ fits, extract_append_left] at field
  exact field.trans BitVec.extractLsb'_zero

/-- The same for a signed field. -/
theorem signExtend_append_ne_zero {v : Nat} {x : BitVec v} (fits : v + s ≤ n) (nonzero : x ≠ 0) :
    (x ++ 0#s).signExtend n ≠ 0 := by
  intro zero
  apply setWidth_append_ne_zero (Nat.le_refl (v + s)) nonzero
  have field := congrArg (BitVec.setWidth (v + s)) zero
  rw [CInt.setWidth_signExtend _ fits] at field
  rw [BitVec.setWidth_eq]
  exact field.trans (BitVec.setWidth_zero _ _)

/-- A field of one bit. -/
theorem extract_one_eq_zero_iff : x.extractLsb' s 1 = 0#1 ↔ x.getLsbD s = false := by
  rw [BitVec.eq_of_getLsbD_eq_iff]
  constructor
  · intro same
    simpa [BitVec.getLsbD_extractLsb'] using same 0 Nat.one_pos
  · intro clear i bound
    obtain rfl : i = 0 := Nat.lt_one_iff.mp bound
    simpa [BitVec.getLsbD_extractLsb'] using clear

/-- Shifting all bits but the last one out leaves the sign. -/
theorem shiftRight_ne_zero {m : Nat} (y : BitVec (m + 1)) : (y >>> m != 0) = y.msb := by
  rw [BitVec.msb_eq_getLsbD_last, Nat.add_sub_cancel, Bool.eq_iff_iff, bne_iff_ne, ne_eq,
    BitVec.eq_of_getLsbD_eq_iff]
  constructor
  · intro different
    by_contra clear
    apply different
    intro i bound
    rw [BitVec.getLsbD_ushiftRight]
    by_cases first : i = 0
    · subst first
      simpa using clear
    · rw [BitVec.getLsbD_of_ge y (m + i) (by omega)]
      simp
  · intro set same
    have bit := same 0 (Nat.succ_pos m)
    rw [BitVec.getLsbD_ushiftRight] at bit
    simpa using set.symm.trans bit

/-- A field at the lower end is zero when its last bit and the field below are. -/
theorem extract_succ_eq_zero_iff {g : Nat} :
    x.extractLsb' 0 (g + 1) = 0 ↔ x.getLsbD g = false ∧ x.extractLsb' 0 g = 0 := by
  rw [BitVec.eq_of_getLsbD_eq_iff, BitVec.eq_of_getLsbD_eq_iff]
  constructor
  · intro same
    constructor
    · simpa [BitVec.getLsbD_extractLsb'] using same g (Nat.lt_succ_self g)
    · intro i bound
      simpa [BitVec.getLsbD_extractLsb', bound, Nat.lt_succ_of_lt bound] using
        same i (Nat.lt_succ_of_lt bound)
  · rintro ⟨last, below⟩ i bound
    by_cases here : i = g
    · subst here
      simpa [BitVec.getLsbD_extractLsb'] using last
    · have lower : i < g := by omega
      simpa [BitVec.getLsbD_extractLsb', bound, lower] using below i lower

end BitFields
