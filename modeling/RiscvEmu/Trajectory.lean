import RiscvEmu.Interpret

/-!
# Interpretation alone

What the guest does when nothing is compiled. `followIter` is a round of
`exec_block_interp` that also follows direct branches, so its loop ends at an
indirect jump, an ECALL or a halt. `aloneIter` follows indirect jumps as well: its
loop is `machine_step` with an interpreter and no cache.
-/

set_option autoImplicit false

namespace RiscvEmu

/-! ## One round -/

/-- The next round executes an instruction: the pc is not zero, and the word at it
decodes to the record. -/
structure Fetched (s : State) (insn : Insn) : Prop where
  nonzero : s.pc ≠ 0
  zero : s.gpRegs 0 = 0
  decoded : insnDecode {} s.fetch = .ok insn

/-- The bytes that the instruction at a pc occupies. -/
def insnBytes (mem : Bytes.Memory) (pc : U64) : Nat :=
  if Field.quadrant (Bytes.load mem pc 32) = 3 then 4 else 2

/-- The bytes of the instruction at a pc are the same in another memory. -/
def SameInsn (mem mem' : Bytes.Memory) (pc : U64) : Prop :=
  ∀ i < insnBytes mem pc, mem' (pc + BitVec.ofNat 64 i) = mem (pc + BitVec.ofNat 64 i)

/-- The bytes of an instruction decide how it is decoded. -/
theorem SameInsn.insnDecode {mem mem' : Bytes.Memory} {pc : U64} (same : SameInsn mem mem' pc) :
    insnDecode {} (Bytes.load mem' pc 32) = insnDecode {} (Bytes.load mem pc 32) := by
  by_cases full : Field.quadrant (Bytes.load mem pc 32) = 3
  · rw [SameInsn, insnBytes, if_pos full] at same
    rw [Bytes.load_congr same]
  · rw [SameInsn, insnBytes, if_neg full] at same
    have low : lowHalf (Bytes.load mem' pc 32) = lowHalf (Bytes.load mem pc 32) := by
      have half : (Bytes.load mem' pc 16 : BitVec 16) = Bytes.load mem pc 16 :=
        Bytes.load_congr same
      have cut : ∀ m, (Bytes.load m pc 32).setWidth 16 = Bytes.load m pc 16 :=
        fun m => Bytes.setWidth_load (by decide) (by decide)
      rw [lowHalf, lowHalf, cut, cut, half]
    have full' : Field.quadrant (Bytes.load mem' pc 32) ≠ 3 := by
      rw [← quadrant_lowHalf, low, quadrant_lowHalf]
      exact full
    rw [← insnDecode_low _ {} full', low, insnDecode_low _ {} full]

section Round

variable {F : FloatOps} {s : State} {insn : Insn}

/-- A round on a non-zero pc dies with the handler. -/
theorem execBlockIter_of_died {abort : Abort} (nonzero : s.pc ≠ 0)
    (decoded : insnDecode {} s.fetch = .ok insn)
    (died : interpFuncs F insn.type s insn = .error abort) : execBlockIter F s = .error abort := by
  have inner : execInsn F s = .error abort :=
    bind_error.mpr (.inr ⟨insn, decoded, bind_error.mpr (.inl died)⟩)
  rw [execBlockIter, if_neg nonzero, inner]
  rfl

/-- A round on a non-zero pc, from what the handler does. -/
theorem execBlockIter_of_done {s₁ : State} {insn₁ : Insn} (nonzero : s.pc ≠ 0)
    (decoded : insnDecode {} s.fetch = .ok insn)
    (done : interpFuncs F insn.type s insn = .ok (s₁, insn₁)) :
    execBlockIter F s = .ok (if insn₁.cont = true then .inr (s₁.setGp 0 0)
      else .inl { s₁.setGp 0 0 with pc := s₁.pc + insn₁.len }) := by
  have inner : execInsn F s = .ok (s₁.setGp 0 0, insn₁) :=
    bind_ok.mpr ⟨insn, decoded, bind_ok.mpr ⟨(s₁, insn₁), done, rfl⟩⟩
  rw [execBlockIter, if_neg nonzero, inner]
  by_cases exits : insn₁.cont = true
  · rw [if_pos exits]
    exact if_pos exits
  · rw [if_neg exits]
    exact if_neg exits

/-- The same for an instruction that has been fetched. -/
theorem execBlockIter_of_handler {s₁ : State} {insn₁ : Insn} (fetched : Fetched s insn)
    (exec : interpFuncs F insn.type s insn = .ok (s₁, insn₁)) :
    execBlockIter F s = .ok (if insn₁.cont = true then .inr (s₁.setGp 0 0)
      else .inl { s₁.setGp 0 0 with pc := s₁.pc + insn₁.len }) :=
  execBlockIter_of_done fetched.nonzero fetched.decoded exec

/-- A round whose handler leaves the zero register alone. -/
theorem execBlockIter_of_clean {s₁ : State} {insn₁ : Insn} (fetched : Fetched s insn)
    (exec : interpFuncs F insn.type s insn = .ok (s₁, insn₁)) (clean : s₁.gpRegs 0 = 0) :
    execBlockIter F s = .ok (if insn₁.cont = true then .inr s₁
      else .inl { s₁ with pc := s₁.pc + insn₁.len }) := by
  rw [execBlockIter_of_handler fetched exec, State.setGp_zero clean]

end Round

/-! ## Following branches -/

section Trajectory

variable (F : FloatOps)

/-- One round of `exec_block_interp`; after a direct branch the next round is at its target. -/
def followIter (s : State) : Except Abort (State ⊕ State) := do
  match ← execBlockIter F s with
  | .inl s => return .inl s
  | .inr s =>
      if s.exitReason = .directBranch then return .inl { s with pc := s.reenterPc }
      else return .inr s

/-- One round of interpretation; after a branch of any kind the next round is at its target. -/
def aloneIter (s : State) : Except Abort (State ⊕ ExitReason × State) := do
  match ← followIter F s with
  | .inl s => return .inl s
  | .inr s =>
      if s.exitReason = .indirectBranch then return .inl { s with pc := s.reenterPc }
      else return .inr (s.exitReason, { s with pc := s.reenterPc })

end Trajectory

section Rounds

variable {F : FloatOps} {s s' : State}

theorem followIter_of_next (round : execBlockIter F s = .ok (.inl s')) :
    followIter F s = .ok (.inl s') := by
  rw [followIter, round]
  rfl

theorem followIter_of_direct (round : execBlockIter F s = .ok (.inr s'))
    (direct : s'.exitReason = .directBranch) :
    followIter F s = .ok (.inl { s' with pc := s'.reenterPc }) := by
  rw [followIter, round]
  exact if_pos direct

theorem followIter_of_leave (round : execBlockIter F s = .ok (.inr s'))
    (other : s'.exitReason ≠ .directBranch) : followIter F s = .ok (.inr s') := by
  rw [followIter, round]
  exact if_neg other

end Rounds

end RiscvEmu
