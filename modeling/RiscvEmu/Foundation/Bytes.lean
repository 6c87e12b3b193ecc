import Mathlib.Data.Nat.Notation
import Mathlib.Tactic.Ring

/-!
# Byte memories, little endian

A memory gives a byte for every 64-bit address. A word of `w` bits occupies
`w / 8` consecutive addresses, the least significant byte first, and addresses
wrap around at the end of the address space.

`load` reads a word and `store` writes one. What a load reads depends on its
own addresses only (`load_congr`), a word is its parts side by side
(`load_append`, `setWidth_load`), and a store changes exactly the addresses of
its word (`store_of_in`, `store_of_out`) and is read back (`load_store`). `copy`
writes a block of bytes and changes exactly its range (`copy_add`, `copy_of_ge`).
-/

set_option autoImplicit false

namespace Bytes

/-- A byte for every 64-bit address. -/
abbrev Memory := BitVec 64 → BitVec 8

/-- The number that `count` bytes from an address spell, least significant byte first. -/
def loadNat (memory : Memory) (address : BitVec 64) : Nat → Nat
  | 0 => 0
  | count + 1 => (memory address).toNat + 256 * loadNat memory (address + 1) count

/-- The word of `w` bits at an address. -/
def load (memory : Memory) (address : BitVec 64) (w : Nat) : BitVec w :=
  BitVec.ofNat w (loadNat memory address (w / 8))

/-- The addresses of a word of `w` bits. -/
def InWord (address : BitVec 64) (w : Nat) (x : BitVec 64) : Prop :=
  (x - address).toNat < w / 8

instance (address : BitVec 64) (w : Nat) (x : BitVec 64) : Decidable (InWord address w x) :=
  inferInstanceAs (Decidable (_ < _))

/-- The memory after a word is written at an address. -/
def store (memory : Memory) (address : BitVec 64) {w : Nat} (value : BitVec w) : Memory :=
  fun x => if InWord address w x then value.extractLsb' (8 * (x - address).toNat) 8 else memory x

/-- The address after the first of `i + 1` addresses starts the remaining `i`. -/
theorem add_one_add_ofNat (address : BitVec 64) (i : Nat) :
    address + 1 + BitVec.ofNat 64 i = address + BitVec.ofNat 64 (i + 1) := by
  apply BitVec.eq_of_toNat_eq
  simp only [BitVec.toNat_add, BitVec.toNat_ofNat, BitVec.ofNat_eq_ofNat]
  omega

/-! ## What a load reads -/

section Loads

variable {memory memory' : Memory} {address : BitVec 64}

theorem loadNat_lt (count : Nat) : loadNat memory address count < 256 ^ count := by
  induction count generalizing address with
  | zero => simp [loadNat]
  | succ count ih =>
      have byte := (memory address).isLt
      have rest : loadNat memory (address + 1) count < 256 ^ count := ih
      simp only [loadNat, pow_succ]
      omega

/-- Loads agree when the bytes read do. -/
theorem loadNat_congr {address' : BitVec 64} {count : Nat}
    (same : ∀ i < count, memory (address + BitVec.ofNat 64 i) =
      memory' (address' + BitVec.ofNat 64 i)) :
    loadNat memory address count = loadNat memory' address' count := by
  induction count generalizing address address' with
  | zero => rfl
  | succ count ih =>
      have first : memory address = memory' address' := by
        simpa using same 0 (Nat.succ_pos count)
      have rest : loadNat memory (address + 1) count = loadNat memory' (address' + 1) count :=
        ih fun i bound => by
          have next := same (i + 1) (by omega)
          rwa [← add_one_add_ofNat, ← add_one_add_ofNat] at next
      simp only [loadNat, first, rest]

theorem load_congr {address' : BitVec 64} {w : Nat}
    (same : ∀ i < w / 8, memory (address + BitVec.ofNat 64 i) =
      memory' (address' + BitVec.ofNat 64 i)) :
    load memory address w = load memory' address' w := by
  rw [load, load, loadNat_congr same]

/-- Reading a range is reading its low part and its high part. -/
theorem loadNat_add (low high : Nat) :
    loadNat memory address (low + high) = loadNat memory address low +
      256 ^ low * loadNat memory (address + BitVec.ofNat 64 low) high := by
  induction low generalizing address with
  | zero => simp [loadNat]
  | succ low ih =>
      have rest : loadNat memory (address + 1) (low + high) = loadNat memory (address + 1) low +
          256 ^ low * loadNat memory (address + 1 + BitVec.ofNat 64 low) high := ih
      rw [Nat.add_right_comm, loadNat, rest, add_one_add_ofNat, loadNat]
      ring

/-- Reading fewer bytes gives the remainder modulo their number. -/
theorem loadNat_mod {few many : Nat} (le : few ≤ many) :
    loadNat memory address many % 256 ^ few = loadNat memory address few := by
  obtain ⟨rest, rfl⟩ := Nat.exists_eq_add_of_le le
  rw [loadNat_add, Nat.add_mul_mod_self_left, Nat.mod_eq_of_lt (loadNat_lt few)]

theorem two_pow_mul_eight (n : Nat) : (2 : Nat) ^ (8 * n) = 256 ^ n := by
  rw [pow_mul]
  norm_num

/-- The low part of a word is the narrower word at the same address. -/
theorem setWidth_load {narrow wide : Nat} (bytes : 8 ∣ narrow) (le : narrow ≤ wide) :
    (load memory address wide).setWidth narrow = load memory address narrow := by
  obtain ⟨few, rfl⟩ := bytes
  have counts : 8 * few / 8 = few := by omega
  apply BitVec.eq_of_toNat_eq
  simp only [load, BitVec.toNat_setWidth, BitVec.toNat_ofNat, counts]
  rw [Nat.mod_mod_of_dvd _ (pow_dvd_pow 2 le), two_pow_mul_eight, loadNat_mod (by omega),
    Nat.mod_eq_of_lt (loadNat_lt few)]

/-- A word is its high part beside its low part. -/
theorem load_append (low high : Nat) :
    load memory address (8 * high + 8 * low) =
      load memory (address + BitVec.ofNat 64 low) (8 * high) ++ load memory address (8 * low) := by
  have lowSmall : loadNat memory address low < 256 ^ low := loadNat_lt low
  have highSmall : loadNat memory (address + BitVec.ofNat 64 low) high < 256 ^ high :=
    loadNat_lt high
  have small : loadNat memory address (low + high) < 256 ^ (low + high) := loadNat_lt _
  apply BitVec.eq_of_toNat_eq
  simp only [load, BitVec.toNat_append, BitVec.toNat_ofNat,
    show (8 * high + 8 * low) / 8 = low + high by omega, show 8 * high / 8 = high by omega,
    show 8 * low / 8 = low by omega]
  rw [show 8 * high + 8 * low = 8 * (low + high) by ring, two_pow_mul_eight, two_pow_mul_eight,
    two_pow_mul_eight, Nat.mod_eq_of_lt small, Nat.mod_eq_of_lt lowSmall,
    Nat.mod_eq_of_lt highSmall, ← Nat.shiftLeft_add_eq_or_of_lt (by rwa [two_pow_mul_eight]),
    Nat.shiftLeft_eq, two_pow_mul_eight, loadNat_add]
  ring

end Loads

/-! ## What a store changes -/

section Stores

variable {memory : Memory} {address x : BitVec 64} {w : Nat} {value : BitVec w}

theorem store_of_in (inside : InWord address w x) :
    store memory address value x = value.extractLsb' (8 * (x - address).toNat) 8 :=
  if_pos inside

theorem store_of_out (outside : ¬ InWord address w x) : store memory address value x = memory x :=
  if_neg outside

/-- The distance of an address counted from another. -/
theorem toNat_add_ofNat_sub {i : Nat} (small : i < 2 ^ 64) :
    (address + BitVec.ofNat 64 i - address).toNat = i := by
  rw [BitVec.add_comm, BitVec.add_sub_cancel, BitVec.toNat_ofNat, Nat.mod_eq_of_lt small]

/-- Bytes that are the digits of a number spell it. -/
theorem loadNat_of_digits {n count : Nat}
    (digits : ∀ i < count, (memory (address + BitVec.ofNat 64 i)).toNat = n / 256 ^ i % 256) :
    loadNat memory address count = n % 256 ^ count := by
  induction count generalizing address n with
  | zero => simp [loadNat, Nat.mod_one]
  | succ count ih =>
      have first : (memory address).toNat = n % 256 := by
        simpa using digits 0 (Nat.succ_pos count)
      have rest : loadNat memory (address + 1) count = n / 256 % 256 ^ count := by
        apply ih
        intro i bound
        rw [add_one_add_ofNat, digits (i + 1) (Nat.succ_lt_succ bound), Nat.div_div_eq_div_mul,
          ← pow_succ']
      rw [loadNat, first, rest, pow_succ', Nat.mod_mul]

/-- A word is read back. -/
theorem load_store {count : Nat} (small : count ≤ 2 ^ 64) (value : BitVec (8 * count)) :
    load (store memory address value) address (8 * count) = value := by
  have counts : 8 * count / 8 = count := by omega
  have spelled : loadNat (store memory address value) address count =
      value.toNat % 256 ^ count := by
    apply loadNat_of_digits
    intro i bound
    have distance : (address + BitVec.ofNat 64 i - address).toNat = i := toNat_add_ofNat_sub (by omega)
    rw [store_of_in (by rw [InWord, distance, counts]; exact bound), distance,
      BitVec.extractLsb'_toNat, Nat.shiftRight_eq_div_pow, two_pow_mul_eight]
  apply BitVec.eq_of_toNat_eq
  rw [load, counts, spelled, BitVec.toNat_ofNat, ← two_pow_mul_eight, Nat.mod_mod,
    Nat.mod_eq_of_lt value.isLt]

end Stores

/-! ## Blocks of bytes -/

/-- The memory after a block of bytes is copied to an address. -/
def copy (memory : Memory) (address : BitVec 64) (data : List (BitVec 8)) : Memory :=
  fun x => (data[(x - address).toNat]?).getD (memory x)

section Copies

variable {memory : Memory} {address x : BitVec 64} {data : List (BitVec 8)}

/-- A byte of the range is the byte of the block. -/
theorem copy_add {k : Nat} (inside : k < data.length) (size : data.length ≤ 2 ^ 64) :
    copy memory address data (address + BitVec.ofNat 64 k) = data[k] := by
  have distance : (address + BitVec.ofNat 64 k - address).toNat = k := by
    simp only [BitVec.toNat_sub, BitVec.toNat_add, BitVec.toNat_ofNat]
    omega
  rw [copy, distance, List.getElem?_eq_getElem inside, Option.getD_some]

/-- Outside the range nothing changes. -/
theorem copy_of_ge (outside : data.length ≤ (x - address).toNat) :
    copy memory address data x = memory x := by
  rw [copy, List.getElem?_eq_none outside, Option.getD_none]

/-- The bytes of a range. -/
def block (memory : Memory) (address : BitVec 64) (count : Nat) : List (BitVec 8) :=
  (List.range count).map fun i => memory (address + BitVec.ofNat 64 i)

@[simp] theorem length_block {count : Nat} : (block memory address count).length = count := by
  rw [block, List.length_map, List.length_range]

/-- A word of a copied range is the word of the range it is copied from. -/
theorem load_copy_block {source : Memory} {origin : BitVec 64} {count k w : Nat}
    (inside : k + w / 8 ≤ count) (size : count ≤ 2 ^ 64) :
    load (copy memory address (block source origin count)) (address + BitVec.ofNat 64 k) w =
      load source (origin + BitVec.ofNat 64 k) w := by
  apply load_congr
  intro i bound
  have here : k + i < (block source origin count).length := by
    rw [length_block]
    omega
  rw [BitVec.add_assoc, ← BitVec.ofNat_add, copy_add here (by rw [length_block]; exact size),
    BitVec.add_assoc, ← BitVec.ofNat_add]
  simp [block]

end Copies

end Bytes
