import RiscvEmu.Foundation.Bytes

/-!
# Machine words, aborts and decoded instructions

The words of the emulator are fixed-width bit vectors. A host process that
runs the emulator may die instead of returning; `Abort` lists the ways it does,
and a function of the source that may die returns in `Except Abort`.

`Insn` is the record `insn_t` that the decoder fills, and `InsnType` the
enumeration `insn_type_t` in the order of the header.
-/

set_option autoImplicit false

namespace RiscvEmu

abbrev U8 := BitVec 8
abbrev U16 := BitVec 16
abbrev U32 := BitVec 32
abbrev U64 := BitVec 64

/-- A register number. The decoder masks every register field to five bits. -/
abbrev Reg := BitVec 5

-- one constant, which the definitions of all modules share
instance (reg : Reg) (regs : List Reg) : Decidable (reg ∈ regs) := inferInstance

/-! ## Aborts -/

/-- How the host process ends without returning. -/
inductive Abort where
  /-- `assert` failed; the argument is its text. -/
  | assertion (text : String)
  /-- `fatal` was called with a message. -/
  | fatal (message : String)
  /-- `unreachable()` was reached. -/
  | unreachable
  /-- The host traps on an integer division by zero or an overflowing one. -/
  | trap
  /-- The generated C has no meaning at this point. -/
  | undefined
  /-- The host accesses an address that is not mapped. -/
  | segfault
  /-- The process stays in a loop for ever. -/
  | hang
  deriving DecidableEq, Repr

/-- `assert(cond)`. -/
def cassert (cond : Prop) [Decidable cond] (text : String) : Except Abort Unit :=
  if cond then .ok () else .error (.assertion text)

/-- A sequence returns exactly when its first part returns and the rest does. -/
theorem bind_ok {α β : Type} {first : Except Abort α} {rest : α → Except Abort β} {b : β} :
    (first >>= rest) = .ok b ↔ ∃ a, first = .ok a ∧ rest a = .ok b := by
  cases first with
  | error e => simp [bind, Except.bind]
  | ok a => simp [bind, Except.bind]

/-- A sequence aborts when its first part does, or when the rest does. -/
theorem bind_error {α β : Type} {first : Except Abort α} {rest : α → Except Abort β}
    {abort : Abort} : (first >>= rest) = .error abort ↔
      first = .error abort ∨ ∃ a, first = .ok a ∧ rest a = .error abort := by
  cases first with
  | error e => simp [bind, Except.bind]
  | ok a => simp [bind, Except.bind]

/-- A guarded sequence returns exactly when the guard holds and the rest returns. -/
theorem cassert_bind_ok {β : Type} {cond : Prop} [Decidable cond] {text : String}
    {rest : Except Abort β} {b : β} :
    (cassert cond text >>= fun _ => rest) = .ok b ↔ cond ∧ rest = .ok b := by
  by_cases holds : cond <;> simp [cassert, holds, bind, Except.bind]

/-! ## Decoded instructions -/

/-- `enum insn_type_t`. -/
inductive InsnType where
  | lb | lh | lw | ld | lbu | lhu | lwu
  | fence | fenceI
  | addi | slli | slti | sltiu | xori | srli | srai | ori | andi | auipc | addiw | slliw | srliw
  | sraiw
  | sb | sh | sw | sd
  | add | sll | slt | sltu | xor | srl | or | and
  | mul | mulh | mulhsu | mulhu | div | divu | rem | remu
  | sub | sra | lui
  | addw | sllw | srlw | mulw | divw | divuw | remw | remuw | subw | sraw
  | beq | bne | blt | bge | bltu | bgeu
  | jalr | jal | ecall
  | csrrc | csrrci | csrrs | csrrsi | csrrw | csrrwi
  | flw | fsw
  | fmaddS | fmsubS | fnmsubS | fnmaddS | faddS | fsubS | fmulS | fdivS | fsqrtS
  | fsgnjS | fsgnjnS | fsgnjxS
  | fminS | fmaxS
  | fcvtWS | fcvtWuS | fmvXW
  | feqS | fltS | fleS | fclassS
  | fcvtSW | fcvtSWu | fmvWX | fcvtLS | fcvtLuS
  | fcvtSL | fcvtSLu
  | fld | fsd
  | fmaddD | fmsubD | fnmsubD | fnmaddD
  | faddD | fsubD | fmulD | fdivD | fsqrtD
  | fsgnjD | fsgnjnD | fsgnjxD
  | fminD | fmaxD
  | fcvtSD | fcvtDS
  | feqD | fltD | fleD | fclassD
  | fcvtWD | fcvtWuD | fcvtDW | fcvtDWu
  | fcvtLD | fcvtLuD
  | fmvXD | fcvtDL | fcvtDLu | fmvDX
  deriving DecidableEq, Repr

/-- `insn_t`: the decoded instruction. Fields that an instruction does not have are zero. -/
structure Insn where
  rd : Reg := 0
  rs1 : Reg := 0
  rs2 : Reg := 0
  rs3 : Reg := 0
  imm : U32 := 0
  csr : U16 := 0
  type : InsnType := .lb
  /-- The instruction is a 16-bit one. -/
  rvc : Bool := false
  /-- The block ends after this instruction. -/
  cont : Bool := false
  deriving DecidableEq, Repr

/-- The bytes an instruction occupies, `insn.rvc ? 2 : 4`. -/
def Insn.len (insn : Insn) : U64 := if insn.rvc then 2 else 4

/-- `(i64)insn->imm`. -/
def Insn.imm64 (insn : Insn) : U64 := insn.imm.signExtend 64

/-- `enum exit_reason_t`. -/
inductive ExitReason where
  | none | directBranch | indirectBranch | interp | ecall | halt
  deriving DecidableEq, Repr

end RiscvEmu
