import RiscvEmu.Foundation.Bytes

/-!
# Integer types of C

The integer types of a C implementation with 8, 16, 32 and 64-bit types and
two's complement. A value of any of them is carried as 64 bits: the value
itself, sign-extended for a signed type and zero-extended for an unsigned one.
`conv` converts a value to a type and leaves it in that form, so a cast is one
function and a cast to a type that already holds the value is the identity
(`conv_conv`).

`promote` and `common` are the integer promotions and the usual arithmetic
conversions, and `load` and `store` access an object of a type in a
little-endian byte memory.
-/

set_option autoImplicit false

/-- The integer types. -/
inductive CInt where
  | i8 | u8 | i16 | u16 | i32 | u32 | i64 | u64
  deriving DecidableEq, Repr

namespace CInt

/-- The width of a type. -/
def width : CInt → Nat
  | .i8 | .u8 => 8
  | .i16 | .u16 => 16
  | .i32 | .u32 => 32
  | .i64 | .u64 => 64

/-- Whether a type is signed. -/
def signed : CInt → Bool
  | .i8 | .i16 | .i32 | .i64 => true
  | .u8 | .u16 | .u32 | .u64 => false

/-- The least value of a type. -/
def least (type : CInt) : BitVec 64 :=
  if type.signed then (BitVec.intMin type.width).signExtend 64 else 0

/-- The cast of a value to a type. -/
def conv : CInt → BitVec 64 → BitVec 64
  | .i8, x => (x.setWidth 8).signExtend 64
  | .u8, x => (x.setWidth 8).setWidth 64
  | .i16, x => (x.setWidth 16).signExtend 64
  | .u16, x => (x.setWidth 16).setWidth 64
  | .i32, x => (x.setWidth 32).signExtend 64
  | .u32, x => (x.setWidth 32).setWidth 64
  | .i64, x => x
  | .u64, x => x

/-- The integer promotion of a type. -/
def promote : CInt → CInt
  | .i8 | .u8 | .i16 | .u16 | .i32 => .i32
  | .u32 => .u32
  | .i64 => .i64
  | .u64 => .u64

/-- The type of the usual arithmetic conversions. -/
def common (a b : CInt) : CInt :=
  match a.promote, b.promote with
  | .u64, _ | _, .u64 => .u64
  | .i64, _ | _, .i64 => .i64
  | .u32, _ | _, .u32 => .u32
  | _, _ => .i32

/-- The value of an object of a type in memory. -/
def load (type : CInt) (memory : Bytes.Memory) (address : BitVec 64) : BitVec 64 :=
  match type with
  | .i8 => (Bytes.load memory address 8).signExtend 64
  | .u8 => (Bytes.load memory address 8).setWidth 64
  | .i16 => (Bytes.load memory address 16).signExtend 64
  | .u16 => (Bytes.load memory address 16).setWidth 64
  | .i32 => (Bytes.load memory address 32).signExtend 64
  | .u32 => (Bytes.load memory address 32).setWidth 64
  | .i64 | .u64 => Bytes.load memory address 64

/-- The memory after a value is stored as an object of a type. -/
def store (type : CInt) (memory : Bytes.Memory) (address value : BitVec 64) : Bytes.Memory :=
  match type with
  | .i8 | .u8 => Bytes.store memory address (value.setWidth 8)
  | .i16 | .u16 => Bytes.store memory address (value.setWidth 16)
  | .i32 | .u32 => Bytes.store memory address (value.setWidth 32)
  | .i64 | .u64 => Bytes.store memory address value

/-- Truncating a sign extension to the original width gives the original. -/
theorem setWidth_signExtend {w v : Nat} (x : BitVec w) (le : w ≤ v) :
    (x.signExtend v).setWidth w = x := by
  apply BitVec.eq_of_getLsbD_eq
  intro i bound
  simp only [BitVec.getLsbD_setWidth, BitVec.getLsbD_signExtend, bound, if_true, decide_true,
    Bool.true_and, show i < v by omega]

/-- Casting twice to one type is casting once. -/
@[simp] theorem conv_conv (type : CInt) (x : BitVec 64) :
    type.conv (type.conv x) = type.conv x := by
  cases type <;> simp [conv, setWidth_signExtend]

/-- A store depends on the value through its cast to the type only. -/
@[simp] theorem store_conv (type : CInt) (memory : Bytes.Memory) (address value : BitVec 64) :
    type.store memory address (type.conv value) = type.store memory address value := by
  cases type <;> simp [conv, store, setWidth_signExtend]

end CInt
