import RiscvEmu.Foundation.Bytes
import Mathlib.Logic.Function.Basic

/-!
# RV64I

The unprivileged base integer instruction set with 64-bit registers, as the
architecture defines it. Operands are decoded: an instruction names its
registers and carries its immediate as the sign-extended 64-bit value.

`Hart` is the architectural state. Register 0 reads as zero and ignores writes
(`Hart.read`, `Hart.write`). Words in memory are bytes in little-endian order,
written out byte by byte (`half`, `word`, `double`, `storeBytes`). `step`
executes one instruction that occupies `len` bytes.
-/

set_option autoImplicit false

namespace Rv64i

abbrev Reg := BitVec 5
abbrev Word := BitVec 64

/-- The registers, the program counter and the memory. -/
structure Hart where
  x : Reg → Word
  pc : Word
  mem : Bytes.Memory

namespace Hart

/-- A source register; register 0 reads as zero. -/
def read (h : Hart) (r : Reg) : Word := if r = 0 then 0 else h.x r

/-- A destination register; a write to register 0 is ignored. -/
def write (h : Hart) (r : Reg) (value : Word) : Hart :=
  if r = 0 then h else { h with x := Function.update h.x r value }

end Hart

/-! ## Words in memory -/

def half (mem : Bytes.Memory) (a : Word) : BitVec 16 := mem (a + 1) ++ mem a

def word (mem : Bytes.Memory) (a : Word) : BitVec 32 := half mem (a + 2) ++ half mem a

def double (mem : Bytes.Memory) (a : Word) : BitVec 64 := word mem (a + 4) ++ word mem a

/-- The memory after the low `count` bytes of a value are written, the least
significant one first. -/
def storeBytes (mem : Bytes.Memory) (a : Word) : Nat → Word → Bytes.Memory
  | 0, _ => mem
  | count + 1, value =>
      storeBytes (Function.update mem a (value.setWidth 8)) (a + 1) count (value >>> 8)

/-! ## Operations -/

/-- The operations on two 64-bit operands. A shift uses the low six bits of its amount. -/
inductive Alu where
  | add | sub | sll | slt | sltu | xor | srl | sra | or | and

def Alu.eval : Alu → Word → Word → Word
  | .add, a, b => a + b
  | .sub, a, b => a - b
  | .sll, a, b => a <<< (b.toNat % 64)
  | .slt, a, b => if a.toInt < b.toInt then 1 else 0
  | .sltu, a, b => if a.toNat < b.toNat then 1 else 0
  | .xor, a, b => a ^^^ b
  | .srl, a, b => a >>> (b.toNat % 64)
  | .sra, a, b => a.sshiftRight (b.toNat % 64)
  | .or, a, b => a ||| b
  | .and, a, b => a &&& b

/-- The operations on the low words of two operands; the 32-bit result is
sign-extended. A shift uses the low five bits of its amount. -/
inductive AluW where
  | addw | subw | sllw | srlw | sraw

/-- The low word. -/
def low (a : Word) : BitVec 32 := a.setWidth 32

def AluW.eval : AluW → Word → Word → Word
  | .addw, a, b => (low a + low b).signExtend 64
  | .subw, a, b => (low a - low b).signExtend 64
  | .sllw, a, b => (low a <<< (b.toNat % 32)).signExtend 64
  | .srlw, a, b => (low a >>> (b.toNat % 32)).signExtend 64
  | .sraw, a, b => ((low a).sshiftRight (b.toNat % 32)).signExtend 64

/-- The conditions of the branches. -/
inductive Cond where
  | eq | ne | lt | ge | ltu | geu

def Cond.holds : Cond → Word → Word → Bool
  | .eq, a, b => decide (a = b)
  | .ne, a, b => decide (a ≠ b)
  | .lt, a, b => decide (a.toInt < b.toInt)
  | .ge, a, b => decide (b.toInt ≤ a.toInt)
  | .ltu, a, b => decide (a.toNat < b.toNat)
  | .geu, a, b => decide (b.toNat ≤ a.toNat)

/-- The loads. -/
inductive Load where
  | lb | lh | lw | ld | lbu | lhu | lwu

def Load.eval : Load → Bytes.Memory → Word → Word
  | .lb, mem, a => (mem a).signExtend 64
  | .lh, mem, a => (half mem a).signExtend 64
  | .lw, mem, a => (word mem a).signExtend 64
  | .ld, mem, a => double mem a
  | .lbu, mem, a => (mem a).setWidth 64
  | .lhu, mem, a => (half mem a).setWidth 64
  | .lwu, mem, a => (word mem a).setWidth 64

/-- The stores. -/
inductive Store where
  | sb | sh | sw | sd

/-- The bytes a store writes. -/
def Store.bytes : Store → Nat
  | .sb => 1
  | .sh => 2
  | .sw => 4
  | .sd => 8

/-! ## Instructions -/

inductive Instr where
  | load (op : Load) (rd rs1 : Reg) (imm : Word)
  | store (op : Store) (rs1 rs2 : Reg) (imm : Word)
  | opImm (op : Alu) (rd rs1 : Reg) (imm : Word)
  | opImm32 (op : AluW) (rd rs1 : Reg) (imm : Word)
  | op (op : Alu) (rd rs1 rs2 : Reg)
  | op32 (op : AluW) (rd rs1 rs2 : Reg)
  | lui (rd : Reg) (imm : Word)
  | auipc (rd : Reg) (imm : Word)
  | branch (cond : Cond) (rs1 rs2 : Reg) (imm : Word)
  | jal (rd : Reg) (imm : Word)
  | jalr (rd rs1 : Reg) (imm : Word)

/-- The state after an instruction of `len` bytes. -/
def step (len : Word) (h : Hart) : Instr → Hart
  | .load op rd rs1 imm =>
      { h.write rd (op.eval h.mem (h.read rs1 + imm)) with pc := h.pc + len }
  | .store op rs1 rs2 imm =>
      { h with mem := storeBytes h.mem (h.read rs1 + imm) op.bytes (h.read rs2), pc := h.pc + len }
  | .opImm op rd rs1 imm => { h.write rd (op.eval (h.read rs1) imm) with pc := h.pc + len }
  | .opImm32 op rd rs1 imm => { h.write rd (op.eval (h.read rs1) imm) with pc := h.pc + len }
  | .op op rd rs1 rs2 =>
      { h.write rd (op.eval (h.read rs1) (h.read rs2)) with pc := h.pc + len }
  | .op32 op rd rs1 rs2 =>
      { h.write rd (op.eval (h.read rs1) (h.read rs2)) with pc := h.pc + len }
  | .lui rd imm => { h.write rd imm with pc := h.pc + len }
  | .auipc rd imm => { h.write rd (h.pc + imm) with pc := h.pc + len }
  | .branch cond rs1 rs2 imm =>
      { h with pc := if cond.holds (h.read rs1) (h.read rs2) then h.pc + imm else h.pc + len }
  | .jal rd imm => { h.write rd (h.pc + len) with pc := h.pc + imm }
  | .jalr rd rs1 imm => { h.write rd (h.pc + len) with pc := (h.read rs1 + imm) &&& ~~~1 }

/-- The instructions that the next instruction in memory does not follow. -/
def jumps (h : Hart) : Instr → Bool
  | .branch cond rs1 rs2 _ => cond.holds (h.read rs1) (h.read rs2)
  | .jal _ _ | .jalr _ _ _ => true
  | _ => false

/-! ## Words and bytes -/

section Words

variable {mem : Bytes.Memory} {a : Word}

theorem load_byte : Bytes.load mem a 8 = mem a := by
  apply BitVec.eq_of_toNat_eq
  have small := (mem a).isLt
  simp [Bytes.load, Bytes.loadNat]

theorem load_half : Bytes.load mem a 16 = half mem a := by
  have split := @Bytes.load_append mem a 1 1
  rwa [load_byte, load_byte] at split

theorem load_word : Bytes.load mem a 32 = word mem a := by
  have split := @Bytes.load_append mem a 2 2
  rwa [load_half, load_half] at split

theorem load_double : Bytes.load mem a 64 = double mem a := by
  have split := @Bytes.load_append mem a 4 4
  rwa [load_word, load_word] at split

/-- Writing bytes one by one writes the byte of the value at every distance below
their number. -/
theorem storeBytes_apply (count : Nat) (le : count ≤ 8) (value : Word) (y : Word) :
    storeBytes mem a count value y =
      if (y - a).toNat < count then value.extractLsb' (8 * (y - a).toNat) 8 else mem y := by
  induction count generalizing mem a value with
  | zero => simp [storeBytes]
  | succ count ih =>
      have next : storeBytes mem a (count + 1) value y =
          if (y - (a + 1)).toNat < count then
            (value >>> 8).extractLsb' (8 * (y - (a + 1)).toNat) 8
          else Function.update mem a (value.setWidth 8) y := ih (by omega) _
      rw [next]
      by_cases first : y = a
      · subst first
        have far : ¬ (y - (y + 1)).toNat < count := by
          have : (y - (y + 1)).toNat = 2 ^ 64 - 1 := by bv_omega
          omega
        rw [if_neg far, Function.update_self, if_pos (by simp), BitVec.sub_self]
        apply BitVec.eq_of_getLsbD_eq
        intro i bound
        simp [bound]
      · have distance : (y - a).toNat = (y - (a + 1)).toNat + 1 := by bv_omega
        rw [Function.update_of_ne first, distance]
        by_cases inside : (y - (a + 1)).toNat < count
        · rw [if_pos inside, if_pos (by omega)]
          apply BitVec.eq_of_getLsbD_eq
          intro i bound
          simp only [BitVec.getLsbD_extractLsb', BitVec.getLsbD_ushiftRight, bound, decide_true,
            Bool.true_and]
          congr 1
          omega
        · rw [if_neg inside, if_neg (by omega)]

/-- A store of a word writes its bytes one by one. -/
theorem store_eq_storeBytes {count : Nat} (le : count ≤ 8) (value : Word) :
    Bytes.store mem a (value.setWidth (8 * count)) = storeBytes mem a count value := by
  funext y
  have bytes : Bytes.InWord a (8 * count) y ↔ (y - a).toNat < count := by
    rw [Bytes.InWord, Nat.mul_div_cancel_left _ (by omega)]
  rw [storeBytes_apply count le, Bytes.store, if_congr bytes rfl rfl]
  by_cases inside : (y - a).toNat < count
  · rw [if_pos inside, if_pos inside]
    apply BitVec.eq_of_getLsbD_eq
    intro i bound
    simp only [BitVec.getLsbD_extractLsb', BitVec.getLsbD_setWidth, bound, decide_true,
      Bool.true_and, show 8 * (y - a).toNat + i < 8 * count by omega]
  · rw [if_neg inside, if_neg inside]

end Words

end Rv64i
