import RiscvEmu.State

/-!
# Helpers of the handlers

`interpret_utils.h`: the upper half of a 128-bit product from 32-bit limbs, the
sign injection of floats, and their classification.
-/

set_option autoImplicit false

namespace RiscvEmu

/-! ## Upper half of a product -/

/-- `mulhu`. The second store to `y1` is never read and has no counterpart. -/
def mulhu (a b : U64) : U64 :=
  let a0 := CInt.u32.conv a
  let a1 := a >>> 32
  let b0 := CInt.u32.conv b
  let b1 := b >>> 32
  let t := a1 * b0 + ((a0 * b0) >>> 32)
  let y1 := CInt.u32.conv t
  let y2 := CInt.u32.conv (t >>> 32)
  let t := a0 * b1 + y1
  let t := a1 * b1 + y2 + (t >>> 32)
  let y2 := CInt.u32.conv t
  let y3 := CInt.u32.conv (t >>> 32)
  (y3 <<< 32) ||| y2

/-- `mulh`. -/
def mulh (a b : U64) : U64 :=
  let negate := a.slt 0 != b.slt 0
  let res := mulhu (if a.slt 0 then -a else a) (if b.slt 0 then -b else b)
  if negate then ~~~res + (if a * b = 0 then 1 else 0) else res

/-- `mulhsu`. -/
def mulhsu (a b : U64) : U64 :=
  let negate := a.slt 0
  let res := mulhu (if a.slt 0 then -a else a) b
  if negate then ~~~res + (if a * b = 0 then 1 else 0) else res

/-! ## Sign injection -/

/-- `fsgnj32` and `fsgnj64`: the sign bit of the width is `sign`. -/
def fsgnj {w : Nat} (sign a b : BitVec w) (n x : Bool) : BitVec w :=
  let v := if x then a else if n then sign else 0
  (a &&& ~~~sign) ||| ((v ^^^ b) &&& sign)

def fsgnj32 (a b : U32) (n x : Bool) : U32 := fsgnj ((1 : U32) <<< 31) a b n x

def fsgnj64 (a b : U64) (n x : Bool) : U64 := fsgnj ((1 : U64) <<< 63) a b n x

/-! ## Classification -/

/-- `flag << k` as a `u16`. -/
def flagBit (flag : Bool) (k : Nat) : U16 := if flag then 1 <<< k else 0

/-- The ten flags that `f32_classify` and `f64_classify` return as one mask. -/
def classMask (sign infOrNaN subnormalOrZero fracZero isNaN isSNaN : Bool) : U16 :=
  flagBit (sign && infOrNaN && fracZero) 0 |||
  flagBit (sign && !infOrNaN && !subnormalOrZero) 1 |||
  flagBit (sign && subnormalOrZero && !fracZero) 2 |||
  flagBit (sign && subnormalOrZero && fracZero) 3 |||
  flagBit (!sign && infOrNaN && fracZero) 7 |||
  flagBit (!sign && !infOrNaN && !subnormalOrZero) 6 |||
  flagBit (!sign && subnormalOrZero && !fracZero) 5 |||
  flagBit (!sign && subnormalOrZero && fracZero) 4 |||
  flagBit (isNaN && isSNaN) 8 |||
  flagBit (isNaN && !isSNaN) 9

/-- `f32_classify` on the bit pattern. -/
def f32Classify (a : U32) : U16 :=
  let infOrNaN := (a >>> 23) &&& 0xff == 0xff
  let subnormalOrZero := (a >>> 23) &&& 0xff == 0
  let sign := a >>> 31 != 0
  let fracZero := a &&& 0x007fffff == 0
  let isNaN := ~~~a &&& 0x7f800000 == 0 && a &&& 0x007fffff != 0
  let isSNaN := a &&& 0x7fc00000 == 0x7f800000 && a &&& 0x003fffff != 0
  classMask sign infOrNaN subnormalOrZero fracZero isNaN isSNaN

/-- `f64_classify` on the bit pattern. -/
def f64Classify (a : U64) : U16 :=
  let infOrNaN := (a >>> 52) &&& 0x7ff == 0x7ff
  let subnormalOrZero := (a >>> 52) &&& 0x7ff == 0
  let sign := a >>> 63 != 0
  let fracZero := a &&& 0x000fffffffffffff == 0
  let isNaN := ~~~a &&& 0x7ff0000000000000 == 0 && a &&& 0x000fffffffffffff != 0
  let isSNaN := a &&& 0x7ff8000000000000 == 0x7ff0000000000000 &&
    a &&& 0x0007ffffffffffff != 0
  classMask sign infOrNaN subnormalOrZero fracZero isNaN isSNaN

end RiscvEmu
