import RiscvEmu.Basic
import RiscvEmu.Foundation.CInt
import Mathlib.Logic.Function.Basic

/-!
# Machine state, memory and floating point

`State` is `state_t` together with the guest memory. The source reaches guest
memory by `TO_HOST(addr)`, a fixed offset into the host's address space; here
a guest address indexes the memory directly.

A floating-point register is a union of an integer and a float view. It is
carried as its 64 bits: `v` and `d` are all of them, `w` and `f` the low half.
The operations of the host's floating-point unit are not interpreted:
`FloatOps` has a function for each operation that the handlers use.
-/

set_option autoImplicit false

namespace RiscvEmu

/-! ## Floating point -/

/-- The host operations on floats of one width, on their bit patterns. -/
structure FloatArith (w : Nat) where
  add : BitVec w → BitVec w → BitVec w
  sub : BitVec w → BitVec w → BitVec w
  mul : BitVec w → BitVec w → BitVec w
  div : BitVec w → BitVec w → BitVec w
  neg : BitVec w → BitVec w
  sqrt : BitVec w → BitVec w
  lt : BitVec w → BitVec w → Bool
  gt : BitVec w → BitVec w → Bool
  le : BitVec w → BitVec w → Bool
  eq : BitVec w → BitVec w → Bool
  /-- The conversion of an integer of a C type. -/
  ofInt : CInt → U64 → BitVec w
  /-- `llrintf` and `llrint`. -/
  llrint : BitVec w → U64
  deriving Inhabited

/-- The host operations on `float`, on `double` and between them. -/
structure FloatOps where
  single : FloatArith 32
  double : FloatArith 64
  toDouble : U32 → U64
  toSingle : U64 → U32
  deriving Inhabited

/-- The views `w` and `f` of `fp_reg_t`. -/
def fpLow (reg : U64) : U32 := reg.setWidth 32

/-- `fp_reg_t` after a write through `w` or `f`: the upper half stays. -/
def fpSetLow (reg : U64) (value : U32) : U64 := reg.extractLsb' 32 32 ++ value

/-- `value | ((u64)-1 << 32)`. -/
def nanBox (value : U32) : U64 := value.setWidth 64 ||| ((-1 : U64) <<< 32)

/-! ## The state -/

/-- `state_t` and the guest memory. -/
structure State where
  exitReason : ExitReason
  reenterPc : U64
  gpRegs : Reg → U64
  fpRegs : Reg → U64
  pc : U64
  mem : Bytes.Memory

namespace State

/-- `state->gp_regs[reg] = value`. -/
def setGp (s : State) (reg : Reg) (value : U64) : State :=
  { s with gpRegs := Function.update s.gpRegs reg value }

/-- `state->fp_regs[reg].v = value`, and the same for `d`. -/
def setFp (s : State) (reg : Reg) (value : U64) : State :=
  { s with fpRegs := Function.update s.fpRegs reg value }

/-- `state->fp_regs[reg].f = value`, and the same for `w`. -/
def setFpLow (s : State) (reg : Reg) (value : U32) : State :=
  s.setFp reg (fpSetLow (s.fpRegs reg) value)

/-- `*(type *)TO_HOST(addr) = value`. -/
def write (s : State) (type : CInt) (addr value : U64) : State :=
  { s with mem := type.store s.mem addr value }

/-- `*(u32 *)TO_HOST(addr)`, the fetch of an instruction. -/
def fetch (s : State) : U32 := Bytes.load s.mem s.pc 32

/-- A register write that respects the hard-wired zero register. -/
def writeGp (s : State) (reg : Reg) (value : U64) : State :=
  if reg = 0 then s else s.setGp reg value

/-- `state->gp_regs[zero] = 0` after a register write undoes a write to the zero
register. -/
theorem setGp_zero_setGp {s : State} (zero : s.gpRegs 0 = 0) (reg : Reg) (value : U64) :
    (s.setGp reg value).setGp 0 0 = s.writeGp reg value := by
  by_cases isZero : reg = 0
  · subst isZero
    simp [setGp, writeGp, ← zero]
  · have other : (0 : Reg) ≠ reg := fun eq => isZero eq.symm
    simp only [setGp, writeGp, if_neg isZero]
    congr 1
    rw [Function.update_eq_self_iff, Function.update_of_ne other, zero]

/-- Clearing a zero register that is zero changes nothing. -/
theorem setGp_zero {s : State} (zero : s.gpRegs 0 = 0) : s.setGp 0 0 = s := by
  simp [setGp, ← zero]

theorem writeGp_zero {s : State} (zero : s.gpRegs 0 = 0) (r : Reg) (value : U64) :
    (s.writeGp r value).gpRegs 0 = 0 := by
  rw [writeGp]
  split_ifs with isZero
  · exact zero
  · have other : (0 : Reg) ≠ r := fun eq => isZero eq.symm
    exact (Function.update_of_ne other ..).trans zero

@[simp] theorem writeGp_fpRegs (s : State) (r : Reg) (value : U64) :
    (s.writeGp r value).fpRegs = s.fpRegs := by
  rw [writeGp]
  split_ifs <;> rfl

@[simp] theorem writeGp_mem (s : State) (r : Reg) (value : U64) : (s.writeGp r value).mem = s.mem := by
  rw [writeGp]
  split_ifs <;> rfl

end State

/-- The registers and the memory of two states are the same. -/
structure SameGuest (a b : State) : Prop where
  gp : a.gpRegs = b.gpRegs
  fp : a.fpRegs = b.fpRegs
  mem : a.mem = b.mem

end RiscvEmu
