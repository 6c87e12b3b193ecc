import RiscvEmu.Foundation.Alignment

/-!
# Paged address spaces

An address space gives a byte for every mapped 64-bit address. `Space.map`
installs a range of bytes and `Space.unmap` removes one; each changes its range
and nothing else (`map_of_in`, `map_of_out`, `unmap_of_in`, `unmap_of_out`).

Ranges are given by their first address and their number of bytes, and wrap
around in general. A range that does not wrap is an interval of numbers
(`inRange_iff`).

`Space.Holds` says which bytes a block of addresses holds. `Space.read` and
`Space.write` copy a block out of mapped addresses and into them; a write changes its
block (`write_holds`) and nothing else (`write_apart`).
-/

set_option autoImplicit false

namespace Paging

/-- A page size: a power of two that is an `int`. -/
structure PageSize where
  exp : Nat
  exp_le : exp ≤ 30

namespace PageSize

variable (page : PageSize)

/-- The bytes of a page. -/
def bytes : Nat := 2 ^ page.exp

/-- The page size as a word. -/
def word : BitVec 64 := BitVec.twoPow 64 page.exp

theorem bytes_pos : 0 < page.bytes := Nat.two_pow_pos _

theorem bytes_dvd {e : Nat} (le : 30 ≤ e) : page.bytes ∣ 2 ^ e :=
  pow_dvd_pow 2 (page.exp_le.trans le)

theorem bytes_le : page.bytes ≤ 2 ^ 30 := Nat.le_of_dvd (Nat.two_pow_pos 30) (page.bytes_dvd le_rfl)

theorem powerOfTwo : Alignment.PowerOfTwo page.word :=
  ⟨page.exp, by have := page.exp_le; omega, rfl⟩

@[simp] theorem toNat_word : page.word.toNat = page.bytes :=
  BitVec.toNat_twoPow_of_lt (by have := page.exp_le; omega)

end PageSize

/-- A byte for every mapped address. -/
abbrev Space := BitVec 64 → Option (BitVec 8)

/-- The addresses of a range. -/
def InRange (address : BitVec 64) (bytes : Nat) (x : BitVec 64) : Prop :=
  (x - address).toNat < bytes

instance (address : BitVec 64) (bytes : Nat) (x : BitVec 64) :
    Decidable (InRange address bytes x) :=
  inferInstanceAs (Decidable (_ < _))

/-- The space after a range is mapped to the given content. -/
def Space.map (space : Space) (address : BitVec 64) (bytes : Nat)
    (content : Nat → Option (BitVec 8)) : Space :=
  fun x => if InRange address bytes x then content (x - address).toNat else space x

/-- The space after a range is unmapped. -/
def Space.unmap (space : Space) (address : BitVec 64) (bytes : Nat) : Space :=
  fun x => if InRange address bytes x then none else space x

section Ranges

variable {space : Space} {address x : BitVec 64} {bytes : Nat}
  {content : Nat → Option (BitVec 8)}

/-- A range that does not wrap is an interval. -/
theorem inRange_iff (fits : address.toNat + bytes ≤ 2 ^ 64) :
    InRange address bytes x ↔ address.toNat ≤ x.toNat ∧ x.toNat < address.toNat + bytes := by
  have lt := x.isLt
  have lt' := address.isLt
  rw [InRange, BitVec.toNat_sub]
  omega

/-- The distance of an address of a range that does not wrap. -/
theorem toNat_sub_of_le (le : address.toNat ≤ x.toNat) :
    (x - address).toNat = x.toNat - address.toNat := by
  have lt := x.isLt
  rw [BitVec.toNat_sub]
  omega

theorem map_of_in (inside : InRange address bytes x) :
    space.map address bytes content x = content (x - address).toNat := if_pos inside

theorem map_of_out (outside : ¬ InRange address bytes x) :
    space.map address bytes content x = space x := if_neg outside

theorem unmap_of_in (inside : InRange address bytes x) : space.unmap address bytes x = none :=
  if_pos inside

theorem unmap_of_out (outside : ¬ InRange address bytes x) :
    space.unmap address bytes x = space x := if_neg outside

end Ranges

/-! ## Blocks of bytes -/

section Blocks

variable (space : Space) (address : BitVec 64)

/-- The space holds these bytes from an address on. -/
def Space.Holds (data : List (BitVec 8)) : Prop :=
  ∀ i (inside : i < data.length), space (address + BitVec.ofNat 64 i) = some data[i]

/-- Every address of a block is mapped. -/
def Space.Mapped (count : Nat) : Prop :=
  ∀ i < count, (space (address + BitVec.ofNat 64 i)).isSome

instance (count : Nat) : Decidable (space.Mapped address count) :=
  inferInstanceAs (Decidable (∀ i < count, _))

/-- The bytes of a block, if all of it is mapped. -/
def Space.read (address : BitVec 64) : Nat → Option (List (BitVec 8))
  | 0 => some []
  | count + 1 => do return (← space address) :: (← Space.read (address + 1) count)

/-- The space after a block is overwritten, if all of it is mapped. -/
def Space.write (data : List (BitVec 8)) : Option Space :=
  if space.Mapped address data.length then
    some fun x => if InRange address data.length x then data[(x - address).toNat]? else space x
  else none

variable {space address} {space' : Space} {data data' : List (BitVec 8)} {x b : BitVec 64}
  {count : Nat}

theorem toNat_offset {i : Nat} (fits : address.toNat + i < 2 ^ 64) :
    (address + BitVec.ofNat 64 i).toNat = address.toNat + i := by
  rw [BitVec.toNat_add, BitVec.toNat_ofNat]
  omega

theorem holds_append : space.Holds address (data ++ data') ↔
    space.Holds address data ∧ space.Holds (address + BitVec.ofNat 64 data.length) data' := by
  have shift : ∀ i, address + BitVec.ofNat 64 data.length + BitVec.ofNat 64 i =
      address + BitVec.ofNat 64 (data.length + i) := by
    intro i
    rw [BitVec.add_assoc, BitVec.ofNat_add]
  constructor
  · intro holds
    constructor
    · intro i inside
      rw [holds i (by rw [List.length_append]; omega), List.getElem_append_left inside]
    · intro i inside
      rw [shift, holds (data.length + i) (by rw [List.length_append]; omega),
        List.getElem_append_right (Nat.le_add_right ..)]
      simp only [Nat.add_sub_cancel_left]
  · rintro ⟨first, second⟩ i inside
    by_cases here : i < data.length
    · rw [first i here, List.getElem_append_left here]
    · have there := second (i - data.length) (by rw [List.length_append] at inside; omega)
      rw [shift, Nat.add_sub_cancel' (by omega)] at there
      rw [there, List.getElem_append_right (by omega)]

/-- What a block holds depends on its addresses only. -/
theorem Space.Holds.congr (holds : space.Holds address data)
    (same : ∀ i < data.length, space' (address + BitVec.ofNat 64 i) =
      space (address + BitVec.ofNat 64 i)) : space'.Holds address data :=
  fun i inside => (same i inside).trans (holds i inside)

theorem Space.Holds.mapped (holds : space.Holds address data) :
    space.Mapped address data.length := by
  intro i inside
  rw [holds i inside]
  rfl

/-- A block that is held can be read. -/
theorem Space.Holds.read (holds : space.Holds address data) :
    space.read address data.length = some data := by
  induction data generalizing address with
  | nil => rfl
  | cons byte data ih =>
      have first := holds 0 (Nat.zero_lt_succ _)
      have whole : space.Holds address ([byte] ++ data) := holds
      have rest : space.Holds (address + 1) data := (holds_append.mp whole).2
      have next := ih rest
      rw [BitVec.add_zero] at first
      rw [List.length_cons, Space.read, first, ih rest]
      rfl

theorem write_ok (written : space.write address data = some space') :
    space.Mapped address data.length ∧ space' = fun x =>
      if InRange address data.length x then data[(x - address).toNat]? else space x := by
  rw [Space.write] at written
  split at written
  · next mapped => exact ⟨mapped, (Option.some.inj written).symm⟩
  · cases written

/-- A write into mapped addresses succeeds. -/
theorem write_of_mapped (mapped : space.Mapped address data.length) :
    ∃ space', space.write address data = some space' := ⟨_, if_pos mapped⟩

theorem write_out (written : space.write address data = some space')
    (outside : ¬ InRange address data.length x) : space' x = space x := by
  rw [(write_ok written).2]
  exact if_neg outside

theorem write_holds (written : space.write address data = some space')
    (fits : data.length ≤ 2 ^ 64) : space'.Holds address data := by
  intro i inside
  have distance : (address + BitVec.ofNat 64 i - address).toNat = i := by
    rw [BitVec.add_comm, BitVec.add_sub_cancel, BitVec.toNat_ofNat]
    omega
  rw [(write_ok written).2]
  have within : InRange address data.length (address + BitVec.ofNat 64 i) := by
    rw [InRange, distance]
    exact inside
  exact (if_pos within).trans (by rw [distance, List.getElem?_eq_getElem inside])

/-- A write maps nothing and unmaps nothing. -/
theorem write_isSome (written : space.write address data = some space') :
    (space' x).isSome = (space x).isSome := by
  by_cases inside : InRange address data.length x
  · have back : address + BitVec.ofNat 64 (x - address).toNat = x := by
      rw [BitVec.ofNat_toNat, BitVec.setWidth_eq, BitVec.add_comm, BitVec.sub_add_cancel]
    have mapped := (write_ok written).1 _ inside
    rw [back] at mapped
    rw [mapped, (write_ok written).2]
    change (if _ then _ else _ : Option _).isSome = true
    rw [if_pos inside, List.getElem?_eq_getElem inside]
    rfl
  · rw [write_out written inside]

/-- A write to another interval. -/
theorem Space.Holds.write (holds : space.Holds address data)
    (written : space.write b data' = some space') (fits : address.toNat + data.length ≤ 2 ^ 64)
    (fits' : b.toNat + data'.length ≤ 2 ^ 64)
    (apart : address.toNat + data.length ≤ b.toNat ∨ b.toNat + data'.length ≤ address.toNat) :
    space'.Holds address data := by
  apply holds.congr
  intro i inside
  apply write_out written
  rw [inRange_iff fits', toNat_offset (by omega)]
  omega

end Blocks

end Paging
