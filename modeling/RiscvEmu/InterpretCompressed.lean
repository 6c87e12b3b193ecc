import RiscvEmu.DecodeLegal
import RiscvEmu.Interpret

/-!
# Executing a compressed instruction

A compressed instruction that the decoder accepts has the effect of its expansion
(`compressed_executes`). `execWord` is a round of `exec_block_interp` on a given word, so that
the two words can be executed in one state, and `SameEffect` says what may differ: the next pc and
the link register are 2 behind the pc of the instruction instead of 4.

Every handler reads the length of the instruction only to link, and a shift uses the last six
bits of its immediate only.
-/

set_option autoImplicit false

namespace RiscvEmu

open Encoding

section Rounds

variable (F : FloatOps)

/-- A round of `exec_block_interp` on a word: decode, execute, and go on or end the block. -/
def execWord (data : U32) (s : State) : Except Abort (State ⊕ State) := do
  let insn ← insnDecode {} data
  let (s, insn) ← interpFuncs F insn.type s insn
  let s := s.setGp 0 0
  if insn.cont then return .inr s
  else return .inl { s with pc := s.pc + insn.len }

/-- A round of the loop executes the word at the pc. -/
theorem execBlockIter_execWord {s : State} (nonzero : s.pc ≠ 0) :
    execBlockIter F s = execWord F s.fetch s := by
  rw [execBlockIter, if_neg nonzero, execInsn, execWord]
  cases insnDecode {} s.fetch with
  | error abort => rfl
  | ok insn =>
    change (interpFuncs F insn.type s insn >>= _) >>= _ = interpFuncs F insn.type s insn >>= _
    cases interpFuncs F insn.type s insn with
    | error abort => rfl
    | ok result => rfl

end Rounds

/-- The outcome of a 32-bit instruction and of a 16-bit one that has the same effect in a state.
Either the block goes on behind the instruction, or it ends; an instruction that links leaves
the address behind it in `ra`. -/
inductive SameEffect (s : State) :
    (links : Bool) → (wide half : Except Abort (State ⊕ State)) → Prop where
  | next (t : State) : SameEffect s false (.ok (.inl { t with pc := s.pc + 4 }))
      (.ok (.inl { t with pc := s.pc + 2 }))
  | jump (t : State) : SameEffect s false (.ok (.inr t)) (.ok (.inr t))
  | call (t : State) : SameEffect s true (.ok (.inr (t.setGp 1 (s.pc + 4))))
      (.ok (.inr (t.setGp 1 (s.pc + 2))))

section Effects

variable {F : FloatOps} {s : State} {data wide : U32} {insn insn' : Insn}

/-- A word whose instruction goes on behind itself. -/
theorem execWord_next {t : State} (decoded : insnDecode {} data = .ok insn)
    (executed : interpFuncs F insn.type s insn = .ok (t, insn)) (straight : insn.cont = false) :
    execWord F data s = .ok (.inl { t.setGp 0 0 with pc := t.pc + insn.len }) := by
  rw [execWord, decoded]
  change (interpFuncs F insn.type s insn >>= _) = _
  rw [executed]
  change (if insn.cont then _ else _) = _
  rw [straight]
  rfl

/-- A word whose instruction ends the block. -/
theorem execWord_jump {t : State} (decoded : insnDecode {} data = .ok insn)
    (executed : interpFuncs F insn.type s insn = .ok (t, insn')) (ends : insn'.cont = true) :
    execWord F data s = .ok (.inr (t.setGp 0 0)) := by
  rw [execWord, decoded]
  change (interpFuncs F insn.type s insn >>= _) = _
  rw [executed]
  change (if insn'.cont then _ else _) = _
  rw [ends]
  rfl

end Effects

section Instructions

variable (F : FloatOps) (s : State)

/-- An instruction whose handler does not look at the length. -/
theorem sameEffect_straight {data wide : U32} {insn half : Insn} {t : State}
    (first : insnDecode {} wide = .ok insn) (second : insnDecode {} data = .ok half)
    (executed : interpFuncs F insn.type s insn = .ok (t, insn))
    (executed' : interpFuncs F half.type s half = .ok (t, half))
    (straight : insn.cont = false) (straight' : half.cont = false) (rvc : insn.rvc = false)
    (rvc' : half.rvc = true) (pc : t.pc = s.pc) :
    SameEffect s false (execWord F wide s) (execWord F data s) := by
  rw [execWord_next first executed straight, execWord_next second executed' straight', pc,
    Insn.len, Insn.len, rvc, rvc']
  exact .next (t.setGp 0 0)

/-- A shift: the two records hold the same amount in the bits that the handler uses. -/
theorem sameEffect_shift {data wide : U32} (type : InsnType) {expr : U64 → U64 → U64}
    (handler : interpFuncs F type = funcImm fun rs1 imm => expr rs1 (imm &&& 0x3f))
    {rd : Reg} {imm imm' : U32}
    (amount : (imm.signExtend 64 &&& 0x3f : U64) = imm'.signExtend 64 &&& 0x3f)
    (first : insnDecode {} wide = .ok { type, rd, rs1 := rd, imm })
    (second : insnDecode {} data = .ok { type, rd, rs1 := rd, imm := imm', rvc := true }) :
    SameEffect s false (execWord F wide s) (execWord F data s) := by
  apply sameEffect_straight F s (t := s.setGp rd (expr (s.gpRegs rd) (imm.signExtend 64 &&& 0x3f)))
    first second
  · rw [handler]
    rfl
  · rw [handler, amount]
    rfl
  all_goals rfl

/-- The amounts of the shift and of its expansion. -/
theorem shift_amount (op : ShiftOp) (shamt : BitVec 6) :
    ((op.tag + shamt.setWidth 32).signExtend 64 &&& 0x3f : U64) =
      (shamt.signExtend 32).signExtend 64 &&& 0x3f := by
  cases op <;> revert shamt <;> decide

/-- A branch against zero. -/
theorem sameEffect_branch {data wide : U32} (type : InsnType) {expr : U64 → U64 → Bool}
    (handler : interpFuncs F type = funcBranch expr) {rs1 : Reg} {imm : U32}
    (first : insnDecode {} wide = .ok { type, rs1, imm })
    (second : insnDecode {} data = .ok { type, rs1, imm, rvc := true }) :
    SameEffect s false (execWord F wide s) (execWord F data s) := by
  by_cases taken : expr (s.gpRegs rs1) (s.gpRegs 0) = true
  · have branch (insn : Insn) (first : insn.rs1 = rs1) (zero : insn.rs2 = 0) :
        funcBranch expr s insn = .ok ({ s with
          reenterPc := s.pc + insn.imm64
          pc := s.pc + insn.imm64
          exitReason := .directBranch }, { insn with cont := true }) := by
      subst first
      exact if_pos (zero ▸ taken)
    have wideJump := execWord_jump (s := s) first (handler ▸ branch _ rfl rfl) rfl
    have halfJump := execWord_jump (s := s) second (handler ▸ branch _ rfl rfl) rfl
    rw [wideJump, halfJump]
    exact .jump _
  · apply sameEffect_straight F s (t := s) first second
    · rw [handler]
      exact if_neg taken
    · rw [handler]
      exact if_neg taken
    all_goals rfl

/-- A jump whose link goes to the zero register, where it is lost. -/
theorem sameEffect_jump {data wide : U32} {insn half : Insn} {t : State}
    (first : insnDecode {} wide = .ok insn) (second : insnDecode {} data = .ok half)
    (executed : interpFuncs F insn.type s insn = .ok (t.setGp 0 (s.pc + 4), insn))
    (executed' : interpFuncs F half.type s half = .ok (t.setGp 0 (s.pc + 2), half))
    (ends : insn.cont = true) (ends' : half.cont = true) :
    SameEffect s false (execWord F wide s) (execWord F data s) := by
  have lost (value : U64) : (t.setGp 0 value).setGp 0 0 = t.setGp 0 0 := by
    simp [State.setGp]
  rw [execWord_jump first executed ends, execWord_jump second executed' ends', lost, lost]
  exact .jump (t.setGp 0 0)

/-- A jump that links. -/
theorem sameEffect_call {data wide : U32} {insn half : Insn} {t : State}
    (first : insnDecode {} wide = .ok insn) (second : insnDecode {} data = .ok half)
    (executed : interpFuncs F insn.type s insn = .ok (t.setGp 1 (s.pc + 4), insn))
    (executed' : interpFuncs F half.type s half = .ok (t.setGp 1 (s.pc + 2), half))
    (ends : insn.cont = true) (ends' : half.cont = true) :
    SameEffect s true (execWord F wide s) (execWord F data s) := by
  have kept (value : U64) : (t.setGp 1 value).setGp 0 0 = (t.setGp 0 0).setGp 1 value := by
    simp only [State.setGp]
    rw [Function.update_comm (by decide)]
  rw [execWord_jump first executed ends, execWord_jump second executed' ends', kept, kept]
  exact .call (t.setGp 0 0)

/-- Only C.EBREAK stands for an EBREAK. -/
theorem expand_ne_ebreak {c : CInstr} (supported : c ≠ .ebreak) : c.expand ≠ .ebreak := by
  cases c with
  | load op => cases op <;> nofun
  | store op => cases op <;> nofun
  | immediate op => cases op <;> nofun
  | arith op => cases op <;> nofun
  | loadSp op => cases op <;> nofun
  | storeSp op => cases op <;> nofun
  | ebreak => exact absurd rfl supported
  | _ => nofun

/-- **The effect of a compressed instruction** is that of its expansion. -/
theorem sameEffect_expand (c : CInstr) (supported : c ≠ .ebreak) {data : U32}
    (second : insnDecode {} data = .ok c.record) :
    SameEffect s c.links (execWord F c.expand.encode s) (execWord F data s) := by
  have first := insnDecode_encode {} c.expand (expand_ne_ebreak supported)
  cases c with
  | addi4spn rd imm nonzero =>
    exact sameEffect_straight F s first second rfl rfl rfl rfl rfl rfl rfl
  | load op rd rs1 offset =>
    cases op <;> exact sameEffect_straight F s first second rfl rfl rfl rfl rfl rfl rfl
  | store op rs1 rs2 offset =>
    cases op <;> exact sameEffect_straight F s first second rfl rfl rfl rfl rfl rfl rfl
  | addi rd imm => exact sameEffect_straight F s first second rfl rfl rfl rfl rfl rfl rfl
  | addiw rd imm nonzero => exact sameEffect_straight F s first second rfl rfl rfl rfl rfl rfl rfl
  | li rd imm => exact sameEffect_straight F s first second rfl rfl rfl rfl rfl rfl rfl
  | addi16sp imm nonzero => exact sameEffect_straight F s first second rfl rfl rfl rfl rfl rfl rfl
  | lui rd imm other nonzero =>
    exact sameEffect_straight F s first second rfl rfl rfl rfl rfl rfl rfl
  | immediate op rd imm =>
    cases op with
    | srli => exact sameEffect_shift F s .srli rfl (shift_amount .srl imm) first second
    | srai => exact sameEffect_shift F s .srai rfl (shift_amount .sra imm) first second
    | andi => exact sameEffect_straight F s first second rfl rfl rfl rfl rfl rfl rfl
  | arith op rd rs2 =>
    cases op <;> exact sameEffect_straight F s first second rfl rfl rfl rfl rfl rfl rfl
  | j offset =>
    exact sameEffect_jump F s (t := { s with
      reenterPc := s.pc + (CInstr.j offset).record.imm64
      pc := s.pc + (CInstr.j offset).record.imm64
      exitReason := .directBranch }) first second rfl rfl rfl rfl
  | beqz rs1 offset => exact sameEffect_branch F s .beq rfl first second
  | bnez rs1 offset => exact sameEffect_branch F s .bne rfl first second
  | slli rd shamt =>
    exact sameEffect_shift F s .slli rfl (shift_amount .sll shamt) first second
  | loadSp op rd offset nonzero =>
    cases op <;> exact sameEffect_straight F s first second rfl rfl rfl rfl rfl rfl rfl
  | storeSp op rs2 offset =>
    cases op <;> exact sameEffect_straight F s first second rfl rfl rfl rfl rfl rfl rfl
  | jr rs1 nonzero =>
    exact sameEffect_jump F s (t := { s with
      exitReason := .indirectBranch
      reenterPc := (s.gpRegs rs1 + (CInstr.jr rs1 nonzero).record.imm64) &&& ~~~1 })
      first second rfl rfl rfl rfl
  | mv rd rs2 nonzero => exact sameEffect_straight F s first second rfl rfl rfl rfl rfl rfl rfl
  | ebreak => exact absurd rfl supported
  | jalr rs1 nonzero =>
    exact sameEffect_call F s (t := { s with
      exitReason := .indirectBranch
      reenterPc := (s.gpRegs rs1 + (CInstr.jalr rs1 nonzero).record.imm64) &&& ~~~1 })
      first second rfl rfl rfl rfl
  | add rd rs2 nonzero => exact sameEffect_straight F s first second rfl rfl rfl rfl rfl rfl rfl

end Instructions

/-- A word whose lower half is that of a compressed instruction. -/
theorem insnDecode_half {data : U32} (old : Insn) (half : Field.quadrant data ≠ 3) {c : CInstr}
    (same : c.encode = data.setWidth 16) (supported : c ≠ .ebreak) :
    insnDecode old data = .ok c.record := by
  rw [← insnDecode_low data old half, lowHalf, ← same]
  exact insnDecode_compressed old c supported

/-- **Compressed instructions mean their expansions.** An accepted 16-bit word is the word of a
compressed instruction, and in every state the round that executes it has the effect of the
expansion. -/
theorem compressed_executes (F : FloatOps) {data : U32} (half : Field.quadrant data ≠ 3)
    {insn : Insn} (accepted : insnDecode {} data = .ok insn) :
    (∃ c : CInstr, c.encode = data.setWidth 16) ∧
      ∀ c : CInstr, c.encode = data.setWidth 16 → ∀ s : State,
        SameEffect s c.links (execWord F c.expand.encode s) (execWord F data s) ∧
          (s.pc ≠ 0 → s.fetch = data → execBlockIter F s = execWord F data s) := by
  obtain ⟨c, -, same⟩ := compressed_of_ok half accepted
  refine ⟨⟨c, same⟩, ?_⟩
  intro c same s
  have supported : c ≠ .ebreak := by
    rintro rfl
    rw [← insnDecode_low data {} half, lowHalf, ← same] at accepted
    cases accepted
  refine ⟨sameEffect_expand F s c supported (insnDecode_half {} half same supported), ?_⟩
  intro nonzero fetched
  rw [← fetched]
  exact execBlockIter_execWord F nonzero

/-- C.LI with ones above it. -/
theorem compressed_executes_li :
    (∃ c : CInstr, c.encode = (0xffff4505 : U32).setWidth 16) ∧
      ∀ c : CInstr, c.encode = (0xffff4505 : U32).setWidth 16 → ∀ s : State,
        SameEffect s c.links (execWord default c.expand.encode s)
            (execWord default 0xffff4505 s) ∧
          (s.pc ≠ 0 → s.fetch = 0xffff4505 →
            execBlockIter default s = execWord default 0xffff4505 s) :=
  compressed_executes default (by decide)
    (show insnDecode {} 0xffff4505 = .ok { type := .addi, rd := 10, imm := 1, rvc := true } from rfl)

end RiscvEmu
