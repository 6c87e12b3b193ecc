import RiscvEmu.Basic
import Mathlib.Logic.Function.Basic

/-!
# The growable string

`str.c`: a header with the length and the capacity, and the bytes of the string behind it. The
capacity leaves out the terminator. Growing the string allocates a byte for it, creating the
string does not.

A call gives the string and the ranges of bytes that it wrote, counted from the header. The
invariant (`StrInv`) relates the length, the capacity and what was last allocated, and holds
after any calls.

* `growableSound_iff`: in a run of calls nothing is written outside what was last allocated
  exactly when the first call appends some text.
-/

set_option autoImplicit false

namespace RiscvEmu

/-! ## The functions -/

/-- `STR_MAX_PREALLOC`. -/
def strMaxPrealloc : U64 := 1024 * 1024

/-- `sizeof(strhdr_t)`. -/
def strHdrSize : U64 := 16

/-- `strhdr_t`, the memory from `buf` on by the distance to it, and the number of bytes that were
last allocated, header included. -/
structure Str where
  len : U64
  alloc : U64
  buf : Bytes.Memory
  size : U64

/-- A range of bytes, as its first position and the one after its last. -/
abbrev ByteRange := Nat × Nat

/-- The field `len`. -/
def lenField : ByteRange := (0, 8)

/-- The field `alloc`. -/
def allocField : ByteRange := (8, 16)

/-- A range of the buffer. -/
def bufRange (start len : U64) : ByteRange := (16 + start.toNat, 16 + start.toNat + len.toNat)

/-- `str_new`; the heap behind the header holds anything. -/
def strNew (heap : Bytes.Memory) : Str := ⟨0, 0, heap, strHdrSize⟩

/-- `realloc` to a new size: the bytes of the buffer that were allocated are kept. -/
def Str.realloc (str : Str) (fresh : Bytes.Memory) (size : U64) : Str :=
  { str with
    buf := fun i => if i < str.size - strHdrSize then str.buf i else fresh i
    size := size }

/-- `str_make_room`. -/
def strMakeRoom (fresh : Bytes.Memory) (str : Str) (addlen : U64) :
    Except Abort (Str × List ByteRange) :=
  let avail := str.alloc - str.len
  if addlen ≤ avail then .ok (str, [])
  else do
    let newlen := str.len + addlen
    cassert (str.len < newlen) "newlen > curlen"
    let newlen := if newlen < strMaxPrealloc then newlen * 2 else newlen + strMaxPrealloc
    let str := str.realloc fresh (strHdrSize + newlen + 1)
    return ({ str with alloc := newlen }, [allocField])

/-- `str_append`; the text comes without its terminator. -/
def strAppend (fresh : Bytes.Memory) (str : Str) (t : List U8) :
    Except Abort (Str × List ByteRange) := do
  let len := BitVec.ofNat 64 t.length
  let (str, grown) ← strMakeRoom fresh str len
  let curlen := str.len
  let buf := Bytes.copy str.buf curlen t
  let buf := Function.update buf (curlen + len) 0
  return ({ str with len := curlen + len, buf := buf },
    grown ++ [bufRange curlen len, lenField, bufRange (curlen + len) 1])

/-- `str_clear`. -/
def strClear (str : Str) : Str × List ByteRange :=
  ({ str with len := 0, buf := Function.update str.buf 0 0 }, [lenField, bufRange 0 1])

/-! ## Runs -/

/-- A call on a string. -/
inductive StrCall where
  | append (t : List U8)
  | clear

/-- A call. What `realloc` puts behind the bytes it keeps is anything. -/
def strCall (fresh : Bytes.Memory) (str : Str) : StrCall → Except Abort (Str × List ByteRange)
  | .append t => strAppend fresh str t
  | .clear => .ok (strClear str)

/-- The texts appended since the last clear; the newest call comes first. -/
def appended : List StrCall → List U8
  | [] => []
  | .append t :: log => appended log ++ t
  | .clear :: _ => []

/-- The length of the text does not overflow, nor does what is allocated for it. -/
def Fits (log : List StrCall) : Prop :=
  (appended log).length + strMaxPrealloc.toNat + strHdrSize.toNat + 1 < 2 ^ 64

/-- The strings that calls lead to from `str_new`. -/
inductive StrRun : List StrCall → Str → Prop where
  | new (heap : Bytes.Memory) : StrRun [] (strNew heap)
  | call {log : List StrCall} {str str' : Str} {call : StrCall} {fresh : Bytes.Memory}
      {writes : List ByteRange} : StrRun log str → Fits (call :: log) →
      strCall fresh str call = .ok (str', writes) → StrRun (call :: log) str'

/-- No byte of the ranges lies outside an allocation. -/
def Inside (size : U64) (writes : List ByteRange) : Prop :=
  ∀ range ∈ writes, ∀ k, range.1 ≤ k → k < range.2 → k < size.toNat

/-- What is expected of the string after the last of some calls. -/
structure StrSound (log : List StrCall) (str : Str) (writes : List ByteRange) : Prop where
  fits : str.len ≤ str.alloc
  holds : Bytes.block str.buf 0 str.len.toNat = appended log
  nul : log ≠ [] → str.buf str.len = 0
  inside : Inside str.size writes

/-- Every call of a run does what is expected of it. -/
structure GrowableSound (log : List StrCall) : Prop where
  new : ∀ heap, StrSound [] (strNew heap) [lenField, allocField]
  calls : ∀ call before str fresh, call :: before <:+ log → StrRun before str →
    ∃ str' writes, strCall fresh str call = .ok (str', writes) ∧
      StrSound (call :: before) str' writes

/-! ## The invariant -/

/-- Some text has been appended. -/
def Enlarged (log : List StrCall) : Prop := ∃ t, t ≠ [] ∧ .append t ∈ log

/-- What is allocated for a capacity. -/
structure Sized (str : Str) : Prop where
  small : str.alloc.toNat + strHdrSize.toNat + 1 < 2 ^ 64
  unused : str.alloc = 0 → str.size = strHdrSize
  used : str.alloc ≠ 0 → str.size.toNat = strHdrSize.toNat + str.alloc.toNat + 1

/-- The string after some calls. -/
structure StrInv (log : List StrCall) (str : Str) : Prop extends Sized str where
  fits : str.len.toNat ≤ str.alloc.toNat
  len : str.len.toNat = (appended log).length
  holds : ∀ i (h : i < (appended log).length), str.buf (BitVec.ofNat 64 i) = (appended log)[i]
  nul : log ≠ [] → str.buf str.len = 0
  enlarged : str.alloc ≠ 0 ↔ Enlarged log

theorem strInv_new (heap : Bytes.Memory) : StrInv [] (strNew heap) where
  small := show (0 : U64).toNat + strHdrSize.toNat + 1 < 2 ^ 64 by decide
  unused _ := rfl
  used nonzero := absurd rfl nonzero
  fits := le_rfl
  len := rfl
  holds i h := absurd h (Nat.not_lt_zero i)
  nul nonempty := absurd rfl nonempty
  enlarged := by
    constructor
    · intro nonzero
      exact absurd rfl nonzero
    · rintro ⟨t, -, member⟩
      exact absurd member List.not_mem_nil

section MakeRoom

variable {str str' : Str} {addlen : U64} {writes : List ByteRange}

/-- What `str_make_room` does. -/
structure Room (str str' : Str) (addlen : U64) (writes : List ByteRange) : Prop extends
    Sized str' where
  len : str'.len = str.len
  kept : ∀ i < str.len.toNat, str'.buf (BitVec.ofNat 64 i) = str.buf (BitVec.ofNat 64 i)
  room : str.len.toNat + addlen.toNat ≤ str'.alloc.toNat
  used_iff : str'.alloc ≠ 0 ↔ str.alloc ≠ 0 ∨ addlen ≠ 0
  writes : ∀ range ∈ writes, range = allocField

/-- The capacity after growing for a new length. -/
theorem toNat_newlen (newlen : U64) (bound : newlen.toNat + strMaxPrealloc.toNat < 2 ^ 64) :
    newlen.toNat ≤
        (if newlen < strMaxPrealloc then newlen * 2 else newlen + strMaxPrealloc).toNat ∧
      (if newlen < strMaxPrealloc then newlen * 2 else newlen + strMaxPrealloc).toNat ≤
        newlen.toNat + strMaxPrealloc.toNat := by
  have limit : strMaxPrealloc.toNat = 1048576 := rfl
  split_ifs with short
  · have below : newlen.toNat < strMaxPrealloc.toNat := short
    have double : (newlen * 2).toNat = newlen.toNat * 2 := by
      rw [BitVec.toNat_mul]
      exact Nat.mod_eq_of_lt (by change newlen.toNat * 2 < _; omega)
    omega
  · have sum : (newlen + strMaxPrealloc).toNat = newlen.toNat + strMaxPrealloc.toNat := by
      rw [BitVec.toNat_add]
      exact Nat.mod_eq_of_lt bound
    omega

/-- **Making room** succeeds and keeps the string. -/
theorem strMakeRoom_ok (fresh : Bytes.Memory) (sized : Sized str)
    (fits : str.len.toNat ≤ str.alloc.toNat)
    (bound : str.len.toNat + addlen.toNat + strMaxPrealloc.toNat + strHdrSize.toNat + 1 < 2 ^ 64) :
    ∃ str' writes, strMakeRoom fresh str addlen = .ok (str', writes) ∧
      Room str str' addlen writes := by
  have header : strHdrSize.toNat = 16 := rfl
  have limit : strMaxPrealloc.toNat = 1048576 := rfl
  have avail : (str.alloc - str.len).toNat = str.alloc.toNat - str.len.toNat :=
    BitVec.toNat_sub_of_le fits
  rw [strMakeRoom]
  by_cases enough : addlen ≤ str.alloc - str.len
  · have room : addlen.toNat ≤ (str.alloc - str.len).toNat := enough
    refine ⟨str, [], if_pos enough, ⟨sized, rfl, fun _ _ => rfl, by omega, ?_, ?_⟩⟩
    · constructor
      · exact .inl
      · rintro (nonzero | some)
        · exact nonzero
        · intro zero
          apply some
          have none : str.alloc.toNat = 0 := congrArg BitVec.toNat zero
          apply BitVec.eq_of_toNat_eq
          change _ = 0
          omega
    · intro range member
      exact absurd member List.not_mem_nil
  · have more : ¬ addlen.toNat ≤ (str.alloc - str.len).toNat := enough
    have sum : (str.len + addlen).toNat = str.len.toNat + addlen.toNat := by
      rw [BitVec.toNat_add]
      exact Nat.mod_eq_of_lt (by omega)
    have longer : str.len < str.len + addlen := by
      change str.len.toNat < (str.len + addlen).toNat
      omega
    obtain ⟨above, below⟩ := toNat_newlen (str.len + addlen) (by omega)
    simp only [if_neg enough, cassert, if_pos longer]
    generalize (if str.len + addlen < strMaxPrealloc then (str.len + addlen) * 2
      else str.len + addlen + strMaxPrealloc) = newlen at above below
    have size : (strHdrSize + newlen + 1).toNat = strHdrSize.toNat + newlen.toNat + 1 := by
      rw [BitVec.toNat_add, BitVec.toNat_add]
      change ((strHdrSize.toNat + newlen.toNat) % 2 ^ 64 + 1) % 2 ^ 64 = _
      omega
    have positive : newlen ≠ 0 := by
      intro zero
      have none : newlen.toNat = 0 := congrArg BitVec.toNat zero
      omega
    refine ⟨_, _, rfl, ⟨⟨?_, ?_, ?_⟩, rfl, ?_, ?_, ?_, ?_⟩⟩
    · change newlen.toNat + _ + 1 < _
      omega
    · exact fun zero => absurd zero positive
    · exact fun _ => size
    · intro i inside
      have used : str.alloc ≠ 0 := by
        intro zero
        have none : str.alloc.toNat = 0 := congrArg BitVec.toNat zero
        omega
      have old := sized.used used
      have reach : BitVec.ofNat 64 i < str.size - strHdrSize := by
        change (BitVec.ofNat 64 i).toNat < (str.size - strHdrSize).toNat
        rw [BitVec.toNat_sub_of_le (by change strHdrSize.toNat ≤ str.size.toNat; omega),
          BitVec.toNat_ofNat]
        omega
      exact if_pos reach
    · change _ ≤ newlen.toNat
      omega
    · have grows : addlen ≠ 0 := by
        rintro rfl
        exact more (Nat.zero_le _)
      exact iff_of_true positive (.inr grows)
    · intro range member
      exact List.mem_singleton.mp member

end MakeRoom

section Calls

variable {log : List StrCall} {str : Str} {t : List U8}

/-- A capacity leaves room for the header and, when it is used, for a terminator. -/
theorem Sized.inside_iff (sized : Sized str) (fits : str.len.toNat ≤ str.alloc.toNat)
    (before : List ByteRange) (early : ∀ range ∈ before, range.2 ≤ 16 + str.len.toNat) :
    Inside str.size (before ++ [lenField, bufRange str.len 1]) ↔ str.alloc ≠ 0 := by
  have header : strHdrSize.toNat = 16 := rfl
  constructor
  · intro inside zero
    have size : str.size.toNat = 16 := congrArg BitVec.toNat (sized.unused zero)
    have last : (16 + str.len.toNat) < str.size.toNat := by
      apply inside (bufRange str.len 1) (by simp)
      · exact le_rfl
      · exact Nat.lt_succ_self _
    omega
  · intro nonzero range member k _ below
    have size := sized.used nonzero
    have bound : range.2 ≤ 16 + str.len.toNat + 1 := by
      rcases List.mem_append.mp member with member | member
      · exact (early range member).trans (Nat.le_succ _)
      · rcases List.mem_cons.mp member with rfl | last
        · change 8 ≤ _
          omega
        · rw [List.mem_singleton.mp last]
          exact le_rfl
    omega

/-- The buffer after a text and its terminator are put behind another one. -/
theorem getElem_appended {buf : Bytes.Memory} {len : U64} {old : List U8}
    (count : len.toNat = old.length) (total : old.length + t.length < 2 ^ 64)
    (holds : ∀ i (h : i < old.length), buf (BitVec.ofNat 64 i) = old[i]) (i : Nat)
    (h : i < (old ++ t).length) :
    Function.update (Bytes.copy buf len t) (len + BitVec.ofNat 64 t.length) 0
      (BitVec.ofNat 64 i) = (old ++ t)[i] := by
  have bound := h
  rw [List.length_append] at bound
  have value : (BitVec.ofNat 64 i).toNat = i := by
    rw [BitVec.toNat_ofNat]
    exact Nat.mod_eq_of_lt (by omega)
  have away : BitVec.ofNat 64 i ≠ len + BitVec.ofNat 64 t.length := by
    intro same
    have values := congrArg BitVec.toNat same
    rw [value, BitVec.toNat_add, BitVec.toNat_ofNat] at values
    omega
  rw [Function.update_of_ne away]
  by_cases early : i < old.length
  · have outside : t.length ≤ (BitVec.ofNat 64 i - len).toNat := by
      rw [BitVec.toNat_sub, value]
      omega
    rw [Bytes.copy_of_ge outside, holds i early, List.getElem_append_left early]
  · have here : BitVec.ofNat 64 i = len + BitVec.ofNat 64 (i - old.length) := by
      apply BitVec.eq_of_toNat_eq
      rw [value, BitVec.toNat_add, BitVec.toNat_ofNat, count]
      omega
    rw [here, Bytes.copy_add (by omega) (by omega),
      List.getElem_append_right (Nat.le_of_not_lt early)]

/-- **Clearing** keeps the invariant; it writes outside a string that was never grown. -/
theorem StrInv.clear (inv : StrInv log str) :
    StrInv (.clear :: log) (strClear str).1 ∧
      (Inside (strClear str).1.size (strClear str).2 ↔ str.alloc ≠ 0) := by
  have sized : Sized (strClear str).1 := ⟨inv.small, inv.unused, inv.used⟩
  refine ⟨⟨sized, Nat.zero_le _, rfl, ?_, ?_, ?_⟩, ?_⟩
  · intro i h
    exact absurd h (Nat.not_lt_zero i)
  · intro _
    exact Function.update_self (0 : U64) (0 : U8) str.buf
  · change str.alloc ≠ 0 ↔ _
    rw [inv.enlarged]
    simp [Enlarged]
  · exact sized.inside_iff (Nat.zero_le _) []
      fun range member => absurd member List.not_mem_nil

/-- **Appending** keeps the invariant; it writes outside a string that is not grown by it nor was
before. -/
theorem StrInv.append (inv : StrInv log str) (fresh : Bytes.Memory) (bound : Fits (.append t :: log)) :
    ∃ str' writes, strAppend fresh str t = .ok (str', writes) ∧
      StrInv (.append t :: log) str' ∧ (Inside str'.size writes ↔ str'.alloc ≠ 0) := by
  have header : strHdrSize.toNat = 16 := rfl
  have total : (appended log).length + t.length + strMaxPrealloc.toNat + strHdrSize.toNat + 1 <
      2 ^ 64 := by
    rw [Fits, appended, List.length_append] at bound
    exact bound
  have count := inv.len
  have len : (BitVec.ofNat 64 t.length).toNat = t.length := by
    rw [BitVec.toNat_ofNat]
    exact Nat.mod_eq_of_lt (by omega)
  obtain ⟨roomy, grown, made, room⟩ := strMakeRoom_ok fresh inv.toSized inv.fits
    (show _ + (BitVec.ofNat 64 t.length).toNat + _ + _ + _ < _ by omega)
  have newlen : (roomy.len + BitVec.ofNat 64 t.length).toNat = str.len.toNat + t.length := by
    rw [BitVec.toNat_add, room.len, len]
    exact Nat.mod_eq_of_lt (by omega)
  have result : strAppend fresh str t = .ok ({ roomy with
      len := roomy.len + BitVec.ofNat 64 t.length
      buf := Function.update (Bytes.copy roomy.buf roomy.len t)
        (roomy.len + BitVec.ofNat 64 t.length) 0 },
      grown ++ [bufRange roomy.len (BitVec.ofNat 64 t.length), lenField,
        bufRange (roomy.len + BitVec.ofNat 64 t.length) 1]) := by
    rw [strAppend, made]
    rfl
  refine ⟨_, _, result, ⟨⟨room.small, room.unused, room.used⟩, ?_, ?_, ?_, ?_, ?_⟩, ?_⟩
  · change (roomy.len + BitVec.ofNat 64 t.length).toNat ≤ roomy.alloc.toNat
    have fits := room.room
    omega
  · change (roomy.len + BitVec.ofNat 64 t.length).toNat = _
    rw [appended, List.length_append, newlen, count]
  · apply getElem_appended (by rw [room.len, count]) (by omega)
    intro i h
    rw [room.kept i (by omega), inv.holds i h]
  · intro _
    exact Function.update_self (roomy.len + BitVec.ofNat 64 t.length) (0 : U8)
      (Bytes.copy roomy.buf roomy.len t)
  · change roomy.alloc ≠ 0 ↔ _
    have some : BitVec.ofNat 64 t.length ≠ 0 ↔ t ≠ [] := by
      rw [← List.length_pos_iff, ne_eq, ← BitVec.toNat_inj, len]
      exact Nat.pos_iff_ne_zero.symm
    rw [room.used_iff, inv.enlarged, some]
    constructor
    · rintro (⟨t', nonempty, member⟩ | nonempty)
      · exact ⟨t', nonempty, List.mem_cons_of_mem _ member⟩
      · exact ⟨t, nonempty, List.mem_cons_self ..⟩
    · rintro ⟨t', nonempty, member⟩
      rcases List.mem_cons.mp member with same | member
      · cases same
        exact .inr nonempty
      · exact .inl ⟨t', nonempty, member⟩
  · have split : grown ++ [bufRange roomy.len (BitVec.ofNat 64 t.length), lenField,
        bufRange (roomy.len + BitVec.ofNat 64 t.length) 1] =
        grown ++ [bufRange roomy.len (BitVec.ofNat 64 t.length)] ++ [lenField,
          bufRange (roomy.len + BitVec.ofNat 64 t.length) 1] := by
      rw [List.append_assoc]
      rfl
    have fits := room.room
    have sized : Sized { roomy with
        len := roomy.len + BitVec.ofNat 64 t.length
        buf := Function.update (Bytes.copy roomy.buf roomy.len t)
          (roomy.len + BitVec.ofNat 64 t.length) 0 } := ⟨room.small, room.unused, room.used⟩
    rw [split]
    apply sized.inside_iff
    · change (roomy.len + BitVec.ofNat 64 t.length).toNat ≤ roomy.alloc.toNat
      omega
    · intro range member
      change range.2 ≤ 16 + (roomy.len + BitVec.ofNat 64 t.length).toNat
      rcases List.mem_append.mp member with member | member
      · rw [room.writes range member]
        change 16 ≤ _
        omega
      · rw [List.mem_singleton.mp member]
        change 16 + roomy.len.toNat + (BitVec.ofNat 64 t.length).toNat ≤ _
        rw [room.len] at newlen ⊢
        omega

end Calls

/-! ## Whole runs -/

section Runs

variable {log : List StrCall} {str : Str} {call : StrCall}

/-- **A call** returns and keeps the invariant; its writes are inside when some text has been
appended. -/
theorem StrInv.next (inv : StrInv log str) (fresh : Bytes.Memory) (bound : Fits (call :: log)) :
    ∃ str' writes, strCall fresh str call = .ok (str', writes) ∧ StrInv (call :: log) str' ∧
      (Inside str'.size writes ↔ Enlarged (call :: log)) := by
  cases call with
  | append t =>
      obtain ⟨str', writes, result, inv', inside⟩ := inv.append fresh bound
      exact ⟨str', writes, result, inv', inside.trans inv'.enlarged⟩
  | clear =>
      obtain ⟨inv', inside⟩ := inv.clear
      exact ⟨_, _, rfl, inv', inside.trans inv'.enlarged⟩

theorem StrRun.inv (run : StrRun log str) : StrInv log str := by
  induction run with
  | new heap => exact strInv_new heap
  | call _ bound result ih =>
      obtain ⟨str', writes, result', inv', -⟩ := ih.next _ bound
      rw [result] at result'
      cases result'
      exact inv'

/-- The texts of a run fit after each of its calls. -/
theorem StrRun.fits (run : StrRun log str) {before : List StrCall}
    (suffix : call :: before <:+ log) : Fits (call :: before) := by
  induction run with
  | new heap => exact absurd (List.suffix_nil.mp suffix) (List.cons_ne_nil _ _)
  | call _ bound _ ih =>
      rcases List.suffix_cons_iff.mp suffix with same | earlier
      · exact same ▸ bound
      · exact ih earlier

theorem StrInv.sound {writes : List ByteRange} (inv : StrInv log str)
    (inside : Inside str.size writes) : StrSound log str writes where
  fits := inv.fits
  holds := by
    apply List.ext_getElem
    · rw [Bytes.length_block, inv.len]
    · intro i _ h
      have here : (0 : U64) + BitVec.ofNat 64 i = BitVec.ofNat 64 i := BitVec.zero_add _
      have byte : str.buf (0 + BitVec.ofNat 64 i) = (appended log)[i] := by
        rw [here]
        exact inv.holds i h
      simpa only [Bytes.block, List.getElem_map, List.getElem_range] using byte
  nul := inv.nul
  inside := inside

/-- Calls whose texts fit lead to some string. -/
theorem StrRun.of_fits (fits : ∀ call before, call :: before <:+ log → Fits (call :: before)) :
    ∃ str, StrRun log str := by
  induction log with
  | nil => exact ⟨_, .new fun _ => 0⟩
  | cons call log ih =>
      have older : ∀ call' before, call' :: before <:+ log → Fits (call' :: before) :=
        fun call' before suffix => fits call' before (suffix.trans (List.suffix_cons call log))
      obtain ⟨str, run⟩ := ih older
      have bound := fits call log (List.suffix_refl _)
      obtain ⟨str', writes, result, -, -⟩ := run.inv.next (fun _ => 0) bound
      exact ⟨str', run.call bound result⟩

/-- A run of calls is sound when the first one appends some text and the texts fit. -/
theorem GrowableSound.of_first
    (fits : ∀ call before, call :: before <:+ log → Fits (call :: before))
    (starts : ∀ first ∈ log.getLast?, ∃ t, first = .append t ∧ t ≠ []) : GrowableSound log := by
  refine ⟨?_, ?_⟩
  · intro heap
    apply (strInv_new heap).sound
    intro range member k _ below
    rcases List.mem_cons.mp member with rfl | last
    · exact below.trans (show 8 < strHdrSize.toNat by decide)
    · rw [List.mem_singleton.mp last] at below
      exact below
  · intro call before str fresh suffix reached
    obtain ⟨str', writes, result, inv', inside⟩ := reached.inv.next fresh (fits call before suffix)
    refine ⟨str', writes, result, inv'.sound (inside.mpr ?_)⟩
    -- the first call of the run is one of the calls so far
    obtain ⟨later, rfl⟩ := suffix
    have nonempty : call :: before ≠ [] := List.cons_ne_nil _ _
    obtain ⟨t, first, some⟩ := starts ((call :: before).getLast nonempty) (by
      rw [List.getLast?_append, List.getLast?_eq_some_getLast nonempty, Option.some_or]
      rfl)
    exact ⟨t, some, first ▸ List.getLast_mem nonempty⟩

/-- **The growable string** does what is expected of it in a run exactly when the first call of
the run appends some text. -/
theorem growableSound_iff (run : StrRun log str) :
    GrowableSound log ↔ ∀ first, log.getLast? = some first → ∃ t, first = .append t ∧ t ≠ [] := by
  constructor
  · intro sound first last
    obtain ⟨later, rfl⟩ := List.getLast?_eq_some_iff.mp last
    obtain ⟨str', writes, result, after⟩ := sound.calls first [] _ (fun _ => 0)
      (List.suffix_append ..) (.new fun _ => 0)
    obtain ⟨str'', writes', result', -, inside⟩ := (strInv_new fun _ => 0).next
      (fun _ => 0) (run.fits (List.suffix_append later [first]))
    rw [result] at result'
    cases result'
    obtain ⟨t, nonempty, member⟩ := inside.mp after.inside
    exact ⟨t, (List.mem_singleton.mp member).symm, nonempty⟩
  · intro starts
    exact .of_first (fun call before suffix => run.fits suffix) fun first last => starts first last

/-- A text that is appended to a new string. -/
theorem growableSound_iff_append : GrowableSound [.append [104, 105]] ↔
    ∀ first, [StrCall.append [104, 105]].getLast? = some first →
      ∃ t, first = .append t ∧ t ≠ [] := by
  have fits : Fits [.append [104, 105]] := by
    change 2 + strMaxPrealloc.toNat + strHdrSize.toNat + 1 < 2 ^ 64
    decide
  obtain ⟨str, writes, result, -⟩ :=
    (strInv_new fun _ => 0).next (fun _ => 0) fits
  exact growableSound_iff (.call (.new fun _ => 0) fits result)

/-- Clearing a new string, or appending the empty text to it, writes behind its allocation. -/
theorem strNew_outside :
    ¬ Inside (strClear (strNew fun _ => 0)).1.size (strClear (strNew fun _ => 0)).2 ∧
      ∃ str writes, strAppend (fun _ => 0) (strNew fun _ => 0) [] = .ok (str, writes) ∧
        ¬ Inside str.size writes := by
  constructor
  · intro inside
    have last := inside (bufRange 0 1) (by simp [strClear]) 16 (by decide) (by decide)
    exact absurd last (by decide)
  · refine ⟨_, _, rfl, ?_⟩
    intro inside
    have last := inside (bufRange 0 1) (by decide) 16 (by decide) (by decide)
    exact absurd last (by decide)

end Runs

end RiscvEmu
