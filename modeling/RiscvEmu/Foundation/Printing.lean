import Mathlib.Data.List.Basic
import Mathlib.Algebra.Group.Nat.Defs

/-!
# Printed numbers and formats

The numerals that C prints for its integers, and `printf` for the conversions `%d`, `%ld`, `%lu`,
`%lx` and `%s`. What is printed is a list of characters; a conversion that does not fit its
argument prints nothing, as its behaviour is undefined.

* `readNumeral_toDigits`: a numeral of a base up to 16 reads back as its number.
* `length_signed_le`: how long a signed numeral gets.
-/

set_option autoImplicit false

namespace Printing

/-- A text, without a terminator. -/
abbrev Text := List Char

/-! ## Numerals -/

/-- The value of a digit. -/
def readDigit (b : Nat) (c : Char) : Option Nat := (List.range b).find? fun d => d.digitChar = c

/-- The number that a numeral stands for. -/
def readNumeral (b : Nat) : Text → Option Nat
  | [] => none
  | c :: cs => (c :: cs).foldlM (fun n c => (b * n + ·) <$> readDigit b c) 0

/-- The decimal numeral of an integer. -/
def signed (i : Int) : Text :=
  if i < 0 then '-' :: Nat.toDigits 10 i.natAbs else Nat.toDigits 10 i.natAbs

section Numerals

variable {b n k : Nat}

theorem readDigit_digitChar : ∀ b < 17, ∀ d < b, readDigit b d.digitChar = some d := by decide

/-- A property of the digits of a base holds of those of a numeral. -/
theorem forall_mem_toDigits (base : 1 < b) {P : Char → Prop} (digit : ∀ d < b, P d.digitChar) :
    ∀ c ∈ Nat.toDigits b n, P c := by
  induction n using Nat.base_induction b base with
  | single m small =>
      intro c member
      rw [Nat.toDigits_of_lt_base small, List.mem_singleton] at member
      exact member ▸ digit m small
  | digit m d small positive ih =>
      intro c member
      rw [← Nat.toDigits_append_toDigits base positive small, Nat.toDigits_of_lt_base small] at member
      rcases List.mem_append.mp member with before | last
      · exact ih c before
      · exact List.mem_singleton.mp last ▸ digit d small

/-- **A numeral reads back.** -/
theorem readNumeral_toDigits (base : 1 < b) (bound : b ≤ 16) :
    readNumeral b (Nat.toDigits b n) = some n := by
  have reads : (Nat.toDigits b n).foldlM (fun n c => (b * n + ·) <$> readDigit b c) 0 = some n := by
    induction n using Nat.base_induction b base with
    | single m small =>
        rw [Nat.toDigits_of_lt_base small]
        simp [readDigit_digitChar b (by omega) m small]
    | digit m d small positive ih =>
        rw [← Nat.toDigits_append_toDigits base positive small, Nat.toDigits_of_lt_base small,
          List.foldlM_append, ih]
        simp [readDigit_digitChar b (by omega) d small]
  obtain ⟨c, cs, nonempty⟩ := List.exists_cons_of_ne_nil (Nat.toDigits_ne_nil (n := n) (b := b))
  rw [nonempty] at reads ⊢
  exact reads

/-- What reads as a numeral has digits only. -/
theorem digit_of_readNumeral {text : Text} (reads : readNumeral b text = some n) :
    ∀ c ∈ text, ∃ d < b, c = d.digitChar := by
  have digits : ∀ (text : Text) (start : Nat),
      text.foldlM (fun n c => (b * n + ·) <$> readDigit b c) start = some n →
      ∀ c ∈ text, ∃ d < b, c = d.digitChar := by
    intro text
    induction text with
    | nil =>
        intro start _ c member
        exact absurd member List.not_mem_nil
    | cons first text ih =>
        intro start reads c member
        rw [List.foldlM_cons] at reads
        obtain ⟨next, here, reads⟩ := Option.bind_eq_some_iff.mp reads
        rcases List.mem_cons.mp member with rfl | later
        · obtain ⟨d, found, -⟩ := Option.map_eq_some_iff.mp here
          have same : d.digitChar = c := by simpa using List.find?_some found
          exact ⟨d, List.mem_range.mp (List.mem_of_find?_eq_some found), same.symm⟩
        · exact ih next reads c later
  cases text with
  | nil => cases reads
  | cons c cs => exact digits (c :: cs) 0 reads

theorem length_toDigits_le (base : 1 < b) (small : n < b ^ (k + 1)) :
    (Nat.toDigits b n).length ≤ k + 1 :=
  (Nat.length_toDigits_le_iff base (Nat.succ_pos k)).mpr small

/-- A signed numeral has its digits and at most a sign. -/
theorem length_signed_le {i : Int} (small : i.natAbs < 10 ^ (k + 1)) :
    (signed i).length ≤ k + 2 := by
  have digits := length_toDigits_le (by decide : 1 < 10) small
  rw [signed]
  split
  · exact Nat.succ_le_succ digits
  · exact Nat.le_succ_of_le digits

end Numerals

/-! ## Formats -/

/-- An argument, with the conversion that it is for. -/
inductive Arg where
  | d (value : Int)
  | ld (value : Int)
  | lu (value : Nat)
  | lx (value : Nat)
  | s (text : Text)

/-- What a format prints with its arguments. -/
def printf : Text → List Arg → Option Text
  | [], [] => some []
  | '%' :: 'd' :: format, .d value :: args => (signed value ++ ·) <$> printf format args
  | '%' :: 'l' :: 'd' :: format, .ld value :: args => (signed value ++ ·) <$> printf format args
  | '%' :: 'l' :: 'u' :: format, .lu value :: args =>
      (Nat.toDigits 10 value ++ ·) <$> printf format args
  | '%' :: 'l' :: 'x' :: format, .lx value :: args =>
      (Nat.toDigits 16 value ++ ·) <$> printf format args
  | '%' :: 's' :: format, .s text :: args => (text ++ ·) <$> printf format args
  | '%' :: _, _ => none
  | c :: format, args => (c :: ·) <$> printf format args
  | [], _ :: _ => none

/-- A character that starts no conversion is printed as it is. -/
theorem printf_cons {c : Char} (other : c ≠ '%') (format : Text) (args : List Arg) :
    printf (c :: format) args = (c :: ·) <$> printf format args := by
  conv_lhs => unfold printf
  split <;> simp_all

/-- So is the part of a format that has no conversion. -/
theorem printf_append {plain : Text} (free : '%' ∉ plain) (format : Text) (args : List Arg) :
    printf (plain ++ format) args = (plain ++ ·) <$> printf format args := by
  induction plain with
  | nil => cases h : printf format args <;> simp [h]
  | cons c plain ih =>
      obtain ⟨other, free⟩ := not_or.mp (mt List.mem_cons.mpr free)
      rw [List.cons_append, printf_cons (Ne.symm other), ih free]
      cases printf format args <;> rfl

end Printing
