import RiscvEmu.Foundation.Bytes
import Mathlib.Data.List.Basic
import Mathlib.Algebra.BigOperators.Group.List.Basic

/-!
# Records and tables of C

`Member` is a member of a `struct`: the number of its bytes and its value. The bytes of a
record are those of its members in order, least significant byte first. A record whose
members are all at multiples of their size has no padding between them (`Packed`), and each
member can be read back at its offset.

`Designated.array` is an array that is written with designated initializers: what has no
initializer is null.

* `Record.load_member`: loading a member of a record that is in memory.
* `Designated.getElem?_array`: what is at an index of the array.
-/

set_option autoImplicit false

/-! ## Records -/

namespace Record

open Bytes

/-- A member: its size in bytes and its value. -/
structure Member where
  size : Nat
  value : BitVec (8 * size)

/-- The bytes of a member. -/
def Member.bytes (f : Member) : List (BitVec 8) :=
  (List.range f.size).map fun i => f.value.extractLsb' (8 * i) 8

@[simp] theorem Member.length_bytes (f : Member) : f.bytes.length = f.size := by
  rw [Member.bytes, List.length_map, List.length_range]

/-- The bytes of a record. -/
def bytes (fields : List Member) : List (BitVec 8) := fields.flatMap Member.bytes

/-- The members with their places: a member follows the one before it. -/
def places : Nat → List Member → List (Nat × Member)
  | _, [] => []
  | place, f :: fields => (place, f) :: places (place + f.size) fields

/-- Every member is at a multiple of its size. -/
def Packed (fields : List Member) : Prop := ∀ entry ∈ places 0 fields, entry.2.size ∣ entry.1

/-- The memory has these bytes from an address on. -/
def Spells (memory : Memory) (address : BitVec 64) (data : List (BitVec 8)) : Prop :=
  ∀ i (inside : i < data.length), memory (address + BitVec.ofNat 64 i) = data[i]

variable {fields : List Member} {f : Member} {base place : Nat} {memory : Memory} {address : BitVec 64}
  {data data' : List (BitVec 8)}

theorem Spells.append (spells : Spells memory address (data ++ data')) :
    Spells memory address data ∧
      Spells memory (address + BitVec.ofNat 64 data.length) data' := by
  constructor
  · intro i inside
    have here := spells i (by rw [List.length_append]; omega)
    rwa [List.getElem_append_left inside] at here
  · intro i inside
    have there := spells (data.length + i) (by rw [List.length_append]; omega)
    rw [BitVec.ofNat_add, ← BitVec.add_assoc] at there
    rw [there, List.getElem_append_right (Nat.le_add_right ..)]
    simp only [Nat.add_sub_cancel_left]

/-- A member that is in memory is loaded. -/
theorem Spells.load (spells : Spells memory address f.bytes) :
    load memory address (8 * f.size) = f.value := by
  have count : 8 * f.size / 8 = f.size := by omega
  have spelled : loadNat memory address f.size = f.value.toNat % 256 ^ f.size := by
    apply loadNat_of_digits
    intro i bound
    have byte := spells i (by rw [Member.length_bytes]; exact bound)
    rw [byte]
    simp only [Member.bytes, List.getElem_map, List.getElem_range, BitVec.extractLsb'_toNat,
      Nat.shiftRight_eq_div_pow, two_pow_mul_eight]
  apply BitVec.eq_of_toNat_eq
  rw [Bytes.load, count, spelled, BitVec.toNat_ofNat, ← two_pow_mul_eight, Nat.mod_mod,
    Nat.mod_eq_of_lt f.value.isLt]

theorem base_le (member : (place, f) ∈ places base fields) : base ≤ place := by
  induction fields generalizing base with
  | nil => cases member
  | cons first fields ih =>
      rcases List.mem_cons.mp member with same | member
      · cases same
        exact Nat.le_refl _
      · exact Nat.le_trans (Nat.le_add_right _ _) (ih member)

/-- The bytes of a member are at its place. -/
theorem Spells.member (spells : Spells memory address (bytes fields))
    (member : (place, f) ∈ places base fields) :
    Spells memory (address + BitVec.ofNat 64 (place - base)) f.bytes := by
  induction fields generalizing address base with
  | nil => cases member
  | cons first fields ih =>
      obtain ⟨here, rest⟩ := spells.append
      rcases List.mem_cons.mp member with same | member
      · cases same
        rw [Nat.sub_self, BitVec.add_zero]
        exact here
      · have after := base_le member
        have there := ih rest member
        rw [Member.length_bytes, BitVec.add_assoc, ← BitVec.ofNat_add] at there
        have distance : first.size + (place - (base + first.size)) = place - base := by omega
        rwa [distance] at there

end Record

/-! ## Arrays with designated initializers -/

namespace Designated

variable {α : Type*}

/-- `ARRAY_SIZE`: one more than the last index. -/
def size (entries : List (Nat × α)) : Nat := entries.foldr (fun entry n => max (entry.1 + 1) n) 0

/-- The array. -/
def array (entries : List (Nat × α)) : List (Option α) :=
  entries.foldl (fun elems entry => elems.set entry.1 (some entry.2))
    (List.replicate (size entries) none)

variable {entries : List (Nat × α)} {elems : List (Option α)} {i : Nat} {a : α}

/-- Initializing keeps the number of elements. -/
theorem length_foldl : (entries.foldl (fun elems entry => elems.set entry.1 (some entry.2))
    elems).length = elems.length := by
  induction entries generalizing elems with
  | nil => rfl
  | cons entry entries ih => rw [List.foldl_cons, ih, List.length_set]

theorem length_array : (array entries).length = size entries :=
  length_foldl.trans List.length_replicate

theorem lt_size (member : (i, a) ∈ entries) : i < size entries := by
  induction entries with
  | nil => cases member
  | cons entry entries ih =>
      rw [size, List.foldr_cons]
      rcases List.mem_cons.mp member with rfl | member
      · exact Nat.lt_of_lt_of_le (Nat.lt_succ_self _) (Nat.le_max_left _ _)
      · exact Nat.lt_of_lt_of_le (ih member) (Nat.le_max_right _ _)

/-- An index that no initializer names keeps its element. -/
theorem foldl_of_not_mem (absent : i ∉ entries.map Prod.fst) :
    (entries.foldl (fun elems entry => elems.set entry.1 (some entry.2)) elems)[i]? = elems[i]? := by
  induction entries generalizing elems with
  | nil => rfl
  | cons entry entries ih =>
      rw [List.map_cons, List.mem_cons, not_or] at absent
      rw [List.foldl_cons, ih absent.2, List.getElem?_set_ne fun same => absent.1 same.symm]

theorem foldl_of_mem (distinct : (entries.map Prod.fst).Nodup) (member : (i, a) ∈ entries)
    (bound : i < elems.length) : (entries.foldl
      (fun elems entry => elems.set entry.1 (some entry.2)) elems)[i]? = some (some a) := by
  induction entries generalizing elems with
  | nil => cases member
  | cons entry entries ih =>
      obtain ⟨absent, distinct⟩ := List.nodup_cons.mp distinct
      rw [List.foldl_cons]
      rcases List.mem_cons.mp member with rfl | member
      · rw [foldl_of_not_mem absent, List.getElem?_set_self bound]
      · exact ih distinct member (by rw [List.length_set]; exact bound)

/-- **An element**: what its initializer says. -/
theorem getElem?_array (distinct : (entries.map Prod.fst).Nodup) :
    (array entries)[i]? = some (some a) ↔ (i, a) ∈ entries := by
  constructor
  · intro found
    by_cases named : i ∈ entries.map Prod.fst
    · obtain ⟨⟨j, b⟩, member, rfl⟩ := List.mem_map.mp named
      have inside : j < (List.replicate (size entries) (none : Option α)).length := by
        rw [List.length_replicate]
        exact lt_size member
      cases (foldl_of_mem distinct member inside).symm.trans found
      exact member
    · rw [array, foldl_of_not_mem named, List.getElem?_replicate] at found
      split at found
      · cases found
      · cases found
  · intro member
    refine foldl_of_mem distinct member ?_
    rw [List.length_replicate]
    exact lt_size member

end Designated
