import RiscvEmu.CReader
import Mathlib.Data.List.TakeWhile

/-!
# Lexing the printed C

What the lexer makes of the words that the generator prints: the names with a number, and the
literals with their suffixes. A literal of the least value is lexed as an unsigned one behind a
minus, as its digits do not fit `long long` (`Literal`).

* `lex_append`: two texts are lexed one after the other if the end of the first does not stick
  to the start of the second.
* `lex_signed`: the tokens of a printed signed number.
-/

set_option autoImplicit false

namespace RiscvEmu

namespace CReader

open Printing Scanning

/-! ## What is lexed apart -/

section Lexing

variable {a b : Text} {left right : List Token}

/-- **Two texts** are lexed one after the other. -/
theorem lex_append (apart : Parted sticks a b) (first : lex a = some left)
    (second : lex b = some right) : lex (a ++ b) = some (left ++ right) :=
  scan_append apart first second

/-- Blanks and most of the punctuation. -/
def loose (c : Char) : Bool := !wordChar c && !opChar c

theorem loose_sticks {c : Char} (free : loose c = true) : Loose sticks c := by
  intro d
  obtain ⟨word, op⟩ : wordChar c = false ∧ opChar c = false := by simpa [loose] using free
  simp [sticks, word, op]

theorem apart_last (free : (a.getLast?.all loose) = true) : Parted sticks a b := by
  apply apart_of_last
  intro x last
  apply loose_sticks
  rw [Option.mem_def.mp last] at free
  exact free

theorem apart_head (free : (b.head?.all loose) = true) : Parted sticks a b := by
  apply apart_of_head
  intro x head
  apply loose_sticks
  rw [Option.mem_def.mp head] at free
  exact free

/-- A word is one run. -/
theorem lex_word {word : Text} (nonempty : word ≠ []) (chars : ∀ c ∈ word, wordChar c = true) :
    lex word = readRun word := by
  apply scan_run nonempty
  apply isChain_of_forall
  intro x first y second
  simp [sticks, chars x first, chars y second]

end Lexing

/-! ## Words with a number -/

section Numbers

variable {n : Nat} {suffix : Text}

theorem wordChar_digitChar : ∀ d < 16, wordChar d.digitChar = true := by decide

theorem wordChar_toDigits {b : Nat} (base : 1 < b) (bound : b ≤ 16) :
    ∀ c ∈ Nat.toDigits b n, wordChar c = true :=
  forall_mem_toDigits base fun d small => wordChar_digitChar d (small.trans_le bound)

theorem regNumber_toDigits (reg : Reg) : regNumber (Nat.toDigits 10 reg.toNat) = some reg := by
  have reads : readNumeral 10 (Nat.toDigits 10 reg.toNat) = some reg.toNat :=
    readNumeral_toDigits (by decide) (by decide)
  have small : reg.toNat < 32 := reg.isLt
  simp [regNumber, reads, small]

theorem readRun_word {word : Text} {token : Token} (chars : ∀ c ∈ word, wordChar c = true)
    (reads : numbered word = some token) : readRun word = some [token] := by
  unfold readRun
  split
  · exact absurd (chars ' ' (by simp)) (by decide)
  · exact absurd (chars '\n' (by simp)) (by decide)
  · simp [reads]

theorem lex_numbered {word : Text} {token : Token} (chars : ∀ c ∈ word, wordChar c = true)
    (nonempty : word ≠ []) (reads : numbered word = some token) : lex word = some [token] := by
  rw [lex_word nonempty chars, readRun_word chars reads]

/-- `x%d`. -/
theorem lex_x (reg : Reg) : lex ('x' :: Nat.toDigits 10 reg.toNat) = some [.x reg] := by
  apply lex_numbered
  · intro c member
    rcases List.mem_cons.mp member with rfl | digit
    · decide
    · exact wordChar_toDigits (by decide) (by decide) c digit
  · exact List.cons_ne_nil _ _
  · simp [numbered, regNumber_toDigits]

/-- `f%d`. -/
theorem lex_f (reg : Reg) : lex ('f' :: Nat.toDigits 10 reg.toNat) = some [.f reg] := by
  apply lex_numbered
  · intro c member
    rcases List.mem_cons.mp member with rfl | digit
    · decide
    · exact wordChar_toDigits (by decide) (by decide) c digit
  · exact List.cons_ne_nil _ _
  · simp [numbered, regNumber_toDigits]

/-- `insn_%lx`. -/
theorem lex_insn (pc : U64) :
    lex (['i', 'n', 's', 'n', '_'] ++ Nat.toDigits 16 pc.toNat) = some [.insn pc] := by
  apply lex_numbered
  · intro c member
    rcases List.mem_append.mp member with letter | digit
    · exact List.all_eq_true.mp (by decide : ['i', 'n', 's', 'n', '_'].all wordChar = true) c letter
    · exact wordChar_toDigits (by decide) (by decide) c digit
  · exact List.cons_ne_nil _ _
  · have reads : readNumeral 16 (Nat.toDigits 16 pc.toNat) = some pc.toNat :=
      readNumeral_toDigits (by decide) (by decide)
    simp [numbered, reads]

theorem isDigit_toDigits : ∀ c ∈ Nat.toDigits 10 n, c.isDigit = true := by
  intro c member
  exact Nat.isDigit_of_mem_toDigits (by decide) (by decide) member

/-- The suffixes of the literals that are printed. -/
def suffixes : List Text := [[], ['L', 'L'], ['U', 'L', 'L']]

theorem suffixes_known : ∀ suffix ∈ suffixes, suffix.all wordChar = true ∧ 'x' ∉ suffix ∧
    suffix.takeWhile Char.isDigit = [] ∧ suffix.dropWhile Char.isDigit = suffix := by
  decide

/-- A decimal literal. -/
theorem lex_num {type : CInt} (known : suffix ∈ suffixes)
    (typed : numType suffix n = some type) :
    lex (Nat.toDigits 10 n ++ suffix) = some [.num type (BitVec.ofNat 64 n)] := by
  obtain ⟨words, plain, stop⟩ := suffixes_known suffix known
  obtain ⟨c, cs, digits⟩ := List.exists_cons_of_ne_nil (Nat.toDigits_ne_nil (n := n) (b := 10))
  have digit : c.isDigit = true := isDigit_toDigits (n := n) c (by simp [digits])
  have noX : 'x' ∉ Nat.toDigits 10 n ++ suffix := by
    intro member
    rcases List.mem_append.mp member with inDigits | inSuffix
    · exact absurd (isDigit_toDigits _ inDigits) (by decide)
    · exact plain inSuffix
  apply lex_numbered
  · intro c member
    rcases List.mem_append.mp member with inDigits | inSuffix
    · exact wordChar_toDigits (by decide) (by decide) c inDigits
    · exact List.all_eq_true.mp words c inSuffix
  · simp [digits]
  · have literal : numbered (Nat.toDigits 10 n ++ suffix) = number (Nat.toDigits 10 n ++ suffix) := by
      rw [digits, List.cons_append]
      unfold numbered
      split
      · next same => exact absurd ((List.cons.inj same).1 ▸ digit) (by decide)
      · next same => exact absurd ((List.cons.inj same).1 ▸ digit) (by decide)
      · next same => exact absurd ((List.cons.inj same).1 ▸ digit) (by decide)
      · rfl
    have takes : (Nat.toDigits 10 n ++ suffix).takeWhile Char.isDigit = Nat.toDigits 10 n := by
      rw [List.takeWhile_append_of_pos isDigit_toDigits, stop.1, List.append_nil]
    have drops : (Nat.toDigits 10 n ++ suffix).dropWhile Char.isDigit = suffix := by
      rw [List.dropWhile_append_of_pos isDigit_toDigits, stop.2]
    have reads : readNumeral 10 (Nat.toDigits 10 n) = some n :=
      readNumeral_toDigits (by decide) (by decide)
    rw [literal]
    unfold number
    split
    · next same => exact absurd (by simp [same]) noX
    · rw [takes, drops]
      simp [reads, typed]

theorem numType_int (small : n < 2 ^ 31) : numType [] n = some .i32 := by
  rw [numType, if_pos ⟨rfl, small⟩]

theorem numType_long (small : n < 2 ^ 63) : numType ['L', 'L'] n = some .i64 := by
  rw [numType, if_neg (fun both => List.cons_ne_nil _ _ both.1), if_pos ⟨rfl, small⟩]

theorem numType_unsigned (small : n < 2 ^ 64) : numType ['U', 'L', 'L'] n = some .u64 := by
  rw [numType, if_neg (fun both => List.cons_ne_nil _ _ both.1),
    if_neg (fun both => absurd both.1 (by decide)), if_pos ⟨.inr rfl, small⟩]

/-- The tokens and the expression of a printed `%ldLL`. The digits of the least value are too
large for `long long`. -/
inductive Literal : U64 → List Token → CExpr → Prop where
  | pos (v : U64) : Literal v [.num .i64 v] (.lit .i64 v)
  | neg (v : U64) : Literal v [.op .sub, .num .i64 (-v)] (.neg (.lit .i64 (-v)))
  | least : Literal (BitVec.intMin 64) [.op .sub, .num .u64 (BitVec.intMin 64)]
      (.neg (.lit .u64 (BitVec.intMin 64)))

theorem opChar_digitChar : ∀ d < 10, opChar d.digitChar = false := by decide

/-- `%ldLL`. -/
theorem lex_signed (v : U64) :
    ∃ tokens e, Literal v tokens e ∧ lex (signed v.toInt ++ ['L', 'L']) = some tokens := by
  have range := v.isLt
  have value := BitVec.toInt_eq_toNat_cond v
  by_cases small : 2 * v.toNat < 2 ^ 64
  · rw [if_pos small] at value
    have typed := numType_long (by omega : v.toNat < 2 ^ 63)
    refine ⟨_, _, .pos v, ?_⟩
    rw [value, signed, if_neg (by omega), Int.natAbs_natCast, lex_num (by decide) typed,
      BitVec.ofNat_toNat, BitVec.setWidth_eq]
  rw [if_neg small] at value
  have digits : v.toInt.natAbs = 2 ^ 64 - v.toNat := by omega
  have number : BitVec.ofNat 64 (2 ^ 64 - v.toNat) = -v := by
    apply BitVec.eq_of_toNat_eq
    rw [BitVec.toNat_ofNat, BitVec.toNat_neg]
  have sign : lex ['-'] = some [.op .sub] := by decide
  have apart : Parted sticks ['-'] (Nat.toDigits 10 (2 ^ 64 - v.toNat) ++ ['L', 'L']) := by
    intro x last y head
    obtain ⟨c, cs, first⟩ := List.exists_cons_of_ne_nil
      (Nat.toDigits_ne_nil (n := 2 ^ 64 - v.toNat) (b := 10))
    have digit : opChar c = false := by
      refine forall_mem_toDigits (n := 2 ^ 64 - v.toNat) (P := fun c => opChar c = false)
        (by decide : 1 < 10) opChar_digitChar c ?_
      rw [first]
      exact List.mem_cons_self
    obtain rfl : x = '-' := by simpa using last.symm
    obtain rfl : y = c := by
      rw [first] at head
      exact (Option.some.inj head).symm
    simp [sticks, digit, wordChar]
  rw [signed, if_pos (by omega), digits, List.cons_append, ← List.singleton_append]
  by_cases least : v.toNat = 2 ^ 63
  · obtain rfl : v = BitVec.intMin 64 := BitVec.eq_of_toNat_eq least
    have typed : numType ['L', 'L'] (2 ^ 64 - (BitVec.intMin 64).toNat) = some .u64 := by decide
    refine ⟨_, _, .least, ?_⟩
    rw [lex_append apart sign (lex_num (by decide) typed)]
    rfl
  · have typed := numType_long (by omega : 2 ^ 64 - v.toNat < 2 ^ 63)
    refine ⟨_, _, .neg v, ?_⟩
    rw [lex_append apart sign (lex_num (by decide) typed), number]
    rfl

/-- `%luULL`. -/
theorem lex_unsigned (v : U64) :
    lex (Nat.toDigits 10 v.toNat ++ ['U', 'L', 'L']) = some [.num .u64 v] := by
  rw [lex_num (by decide) (numType_unsigned v.isLt), BitVec.ofNat_toNat, BitVec.setWidth_eq]

/-- `%d` of a small number. -/
theorem lex_int {n : Nat} (small : n < 2 ^ 31) :
    lex (signed n) = some [.num .i32 (BitVec.ofNat 64 n)] := by
  have digits := lex_num (by decide) (numType_int small)
  rw [List.append_nil] at digits
  rw [signed, if_neg (by omega), Int.natAbs_natCast, digits]

end Numbers

/-! ## What is lexed is ASCII -/

section Characters

/-- A character of one byte, not the terminator. -/
def Ascii (c : Char) : Prop := 0 < c.toNat ∧ c.toNat < 128

instance (c : Char) : Decidable (Ascii c) := inferInstanceAs (Decidable (_ ∧ _))

variable {text suffix : Text} {n : Nat} {c : Char}

theorem ascii_of_all (all : text.all (fun c => decide (Ascii c)) = true) : ∀ c ∈ text, Ascii c := by
  simpa using all

theorem ascii_digitChar : ∀ d < 16, Ascii d.digitChar := by decide

theorem ascii_of_isDigit (digit : c.isDigit = true) : Ascii c := by
  simp only [Char.isDigit, Bool.and_eq_true, decide_eq_true_eq] at digit
  obtain ⟨low, high⟩ := digit
  have low : 48 ≤ c.toNat := low
  have high : c.toNat ≤ 57 := high
  constructor <;> omega

theorem ascii_of_readNumeral {b : Nat} (bound : b ≤ 16) (reads : readNumeral b text = some n) :
    ∀ c ∈ text, Ascii c := by
  intro c member
  obtain ⟨d, small, rfl⟩ := digit_of_readNumeral reads c member
  exact ascii_digitChar d (small.trans_le bound)

theorem ascii_of_numType {type : CInt} (typed : numType suffix n = some type) :
    ∀ c ∈ suffix, Ascii c := by
  have known : suffix ∈ suffixes := by
    unfold numType at typed
    split_ifs at typed with int long unsigned
    · simp [suffixes, int.1]
    · simp [suffixes, long.1]
    · rcases unsigned.1 with rfl | rfl <;> simp [suffixes]
  have all : ∀ suffix ∈ suffixes, suffix.all (fun c => decide (Ascii c)) = true := by decide
  exact ascii_of_all (all suffix known)

theorem ascii_of_number {token : Token} (reads : number text = some token) :
    ∀ c ∈ text, Ascii c := by
  intro c member
  unfold number at reads
  split at reads
  · obtain ⟨n, digits, -⟩ := Option.bind_eq_some_iff.mp reads
    rcases List.mem_cons.mp member with rfl | member
    · decide
    rcases List.mem_cons.mp member with rfl | member
    · decide
    · exact ascii_of_readNumeral (by decide) digits c member
  · obtain ⟨n, -, reads⟩ := Option.bind_eq_some_iff.mp reads
    obtain ⟨type, typed, -⟩ := Option.bind_eq_some_iff.mp reads
    rw [← List.takeWhile_append_dropWhile (p := Char.isDigit) (l := text)] at member
    rcases List.mem_append.mp member with digit | suffix
    · exact ascii_of_isDigit (List.mem_takeWhile_imp digit)
    · exact ascii_of_numType typed c suffix

theorem ascii_of_regNumber {reg : Reg} (reads : regNumber text = some reg) :
    ∀ c ∈ text, Ascii c := by
  obtain ⟨n, digits, -⟩ := Option.bind_eq_some_iff.mp reads
  exact ascii_of_readNumeral (by decide) digits

theorem ascii_of_numbered {token : Token} (reads : numbered text = some token) :
    ∀ c ∈ text, Ascii c := by
  intro c member
  unfold numbered at reads
  split at reads
  · obtain ⟨reg, digits, -⟩ := Option.map_eq_some_iff.mp reads
    rcases List.mem_cons.mp member with rfl | member
    · decide
    · exact ascii_of_regNumber digits c member
  · obtain ⟨reg, digits, -⟩ := Option.map_eq_some_iff.mp reads
    rcases List.mem_cons.mp member with rfl | member
    · decide
    · exact ascii_of_regNumber digits c member
  · next digits =>
      obtain ⟨n, numeral, -⟩ := Option.bind_eq_some_iff.mp reads
      have split : c ∈ ['i', 'n', 's', 'n', '_'] ++ digits := member
      rcases List.mem_append.mp split with letter | digit
      · have name : ['i', 'n', 's', 'n', '_'].all (fun c => decide (Ascii c)) = true := by decide
        exact ascii_of_all name c letter
      · exact ascii_of_readNumeral (by decide) numeral c digit
  · exact ascii_of_number reads c member

theorem ascii_keywords :
    ∀ entry ∈ keywords, entry.1.toList.all (fun c => decide (Ascii c)) = true := by
  decide

/-- **A text that is lexed** has characters of one byte only. -/
theorem ascii_of_lex {tokens : List Token} (lexed : lex text = some tokens) :
    ∀ c ∈ text, Ascii c := by
  intro c member
  obtain ⟨run, ts, inRun, reads⟩ := mem_run_of_scan lexed member
  unfold readRun at reads
  split at reads
  · rw [List.mem_singleton.mp inRun]
    decide
  · rw [List.mem_singleton.mp inRun]
    decide
  · obtain ⟨token, found, -⟩ := Option.bind_eq_some_iff.mp reads
    rcases Option.or_eq_some_iff.mp found with reads | ⟨-, known⟩
    · exact ascii_of_numbered reads c inRun
    · obtain ⟨before, after, split, -⟩ := List.lookup_eq_some_iff.mp known
      have entry := ascii_keywords (String.ofList run, token) (by rw [split]; simp)
      rw [String.toList_ofList] at entry
      exact ascii_of_all entry c inRun

end Characters

end CReader

end RiscvEmu
