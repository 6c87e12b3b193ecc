import RiscvEmu.BlockSimulation
import RiscvEmu.Foundation.Rv64m

/-!
# Division and remainder

The eight division instructions, in the interpreter and in the generated code, against
the definition of the architecture. The 32-bit ones test the whole register before they
divide by its low half, so they are right where that test is (`Guarded`).

* `division_iff`: exactly there both write the value of the architecture and no division
  of the host traps. For a result that goes to `x0` the generated code does not divide
  words at all.
-/

set_option autoImplicit false

namespace RiscvEmu

open Rv64m

/-- The type of a division instruction. -/
def divType : DivOp → InsnType
  | .div => .div
  | .divu => .divu
  | .rem => .rem
  | .remu => .remu
  | .divw => .divw
  | .divuw => .divuw
  | .remw => .remw
  | .remuw => .remuw

/-- The test of the divisor tells whether the division is by zero: a word division with a
divisor that is not zero has a low half that is not. -/
def Guarded (op : DivOp) (rs2 : U64) : Prop :=
  op.word = true → rs2 = 0 ∨ rs2.setWidth 32 ≠ 0

/-! ## The values of the handlers -/

section Values

variable {x y : U64}

theorem hostSdiv_ok (nonzero : y ≠ 0) (fits : ¬ (x = BitVec.intMin 64 ∧ y = -1)) :
    hostSdiv x y = .ok (x.sdiv y) :=
  if_neg (not_or.mpr ⟨nonzero, fits⟩)

theorem hostSrem_ok (nonzero : y ≠ 0) (fits : ¬ (x = BitVec.intMin 64 ∧ y = -1)) :
    hostSrem x y = .ok (x.srem y) :=
  if_neg (not_or.mpr ⟨nonzero, fits⟩)

theorem div_value : (if y = 0 then .ok (-1)
    else if x = BitVec.intMin 64 ∧ y = -1 then .ok (BitVec.intMin 64)
    else hostSdiv x y) = .ok (quotient true x y) := by
  by_cases zero : y = 0
  · rw [if_pos zero, quotient, if_pos zero]
  · rw [if_neg zero, quotient_signed zero]
    by_cases overflow : x = BitVec.intMin 64 ∧ y = -1
    · rw [if_pos overflow, overflow.1, overflow.2]
      exact congrArg Except.ok BitVec.intMin_sdiv_neg_one.symm
    · rw [if_neg overflow, hostSdiv_ok zero overflow]

theorem rem_value : (if y = 0 then .ok x
    else if x = BitVec.intMin 64 ∧ y = -1 then .ok 0
    else hostSrem x y) = .ok (remainder true x y) := by
  by_cases zero : y = 0
  · rw [if_pos zero, remainder, if_pos zero]
  · rw [if_neg zero]
    by_cases overflow : x = BitVec.intMin 64 ∧ y = -1
    · rw [if_pos overflow, remainder, if_neg zero, if_pos rfl, if_pos overflow]
    · rw [if_neg overflow, hostSrem_ok zero overflow, remainder_signed zero]

theorem divu_value : (if y = 0 then .ok (-1) else hostUdiv x y) =
    .ok (quotient false x y) := by
  by_cases zero : y = 0
  · rw [if_pos zero, quotient, if_pos zero]
  · rw [if_neg zero, hostUdiv, if_neg zero, quotient_unsigned zero]

theorem remu_value : (if y = 0 then .ok x else hostUrem x y) = .ok (remainder false x y) := by
  by_cases zero : y = 0
  · rw [if_pos zero, remainder, if_pos zero]
  · rw [if_neg zero, hostUrem, if_neg zero, remainder_unsigned zero]

/-! The word operations divide the extended low halves at 64 bits. -/

theorem conv_i32_ne_zero (low : y.setWidth 32 ≠ 0) : CInt.i32.conv y ≠ 0 := by
  intro zero
  apply low
  rw [← CInt.setWidth_signExtend (y.setWidth 32) (show 32 ≤ 64 by decide)]
  exact congrArg (BitVec.setWidth 32) zero

theorem conv_u32_ne_zero (low : y.setWidth 32 ≠ 0) : CInt.u32.conv y ≠ 0 :=
  fun zero => conv_i32_ne_zero low (conv_i32_eq_zero.mpr zero)

variable (guarded : y = 0 ∨ y.setWidth 32 ≠ 0)

include guarded

theorem divw_value : (if y = 0 then .ok (-1)
    else CInt.i32.conv <$> hostSdiv (CInt.i32.conv x) (CInt.i32.conv y)) =
      (.ok ((quotient true (x.setWidth 32) (y.setWidth 32)).signExtend 64) : Except Abort U64) := by
  rcases guarded with zero | low
  · rw [if_pos zero, zero]
    rfl
  · have nonzero := conv_i32_ne_zero low
    have zero : y ≠ 0 := fun zero => low (zero ▸ rfl)
    rw [if_neg zero, hostSdiv_ok nonzero fun overflow => conv_i32_ne_intMin overflow.1,
      quotient_signed low, ← low_sdiv (show 32 ≤ 64 by decide)]
    rfl

theorem divuw_value : (if y = 0 then .ok (-1)
    else CInt.i32.conv <$> hostUdiv (CInt.u32.conv x) (CInt.u32.conv y)) =
      (.ok ((quotient false (x.setWidth 32) (y.setWidth 32)).signExtend 64) : Except Abort U64) := by
  rcases guarded with zero | low
  · rw [if_pos zero, zero]
    rfl
  · have zero : y ≠ 0 := fun zero => low (zero ▸ rfl)
    rw [if_neg zero, hostUdiv, if_neg (conv_u32_ne_zero low), quotient_unsigned low,
      ← low_udiv (show 32 ≤ 64 by decide)]
    rfl

theorem remw_value : (if y = 0 then .ok (CInt.i32.conv x)
    else CInt.i32.conv <$> hostSrem (CInt.i32.conv x) (CInt.i32.conv y)) =
      (.ok ((remainder true (x.setWidth 32) (y.setWidth 32)).signExtend 64) : Except Abort U64) := by
  rcases guarded with zero | low
  · rw [if_pos zero, zero]
    rfl
  · have nonzero := conv_i32_ne_zero low
    have zero : y ≠ 0 := fun zero => low (zero ▸ rfl)
    rw [if_neg zero, hostSrem_ok nonzero fun overflow => conv_i32_ne_intMin overflow.1,
      remainder_signed low, ← low_srem (show 32 ≤ 64 by decide)]
    rfl

theorem remuw_value : (if y = 0 then .ok (CInt.i32.conv (CInt.u32.conv x))
    else CInt.i32.conv <$> hostUrem (CInt.u32.conv x) (CInt.u32.conv y)) =
      (.ok ((remainder false (x.setWidth 32) (y.setWidth 32)).signExtend 64) : Except Abort U64) := by
  rcases guarded with zero | low
  · rw [if_pos zero, conv_i32_u32, zero]
    rfl
  · have zero : y ≠ 0 := fun zero => low (zero ▸ rfl)
    rw [if_neg zero, hostUrem, if_neg (conv_u32_ne_zero low), remainder_unsigned low,
      ← low_umod (show 32 ≤ 64 by decide)]
    rfl

end Values

/-! ## Executing a division -/

section Execution

variable {F : FloatOps} {op : DivOp} {s : State} {insn : Insn}

theorem funcRegTrap_ok {expr : U64 → U64 → Except Abort U64} {value : U64}
    (computed : expr (s.gpRegs insn.rs1) (s.gpRegs insn.rs2) = .ok value) :
    funcRegTrap expr s insn = .ok (s.setGp insn.rd value, insn) := by
  rw [funcRegTrap, computed]
  rfl

theorem interpFuncs_division (guarded : Guarded op (s.gpRegs insn.rs2)) :
    interpFuncs F (divType op) s insn =
      .ok (s.setGp insn.rd (op.eval (s.gpRegs insn.rs1) (s.gpRegs insn.rs2)), insn) := by
  cases op with
  | div =>
      simp only [divType, interpFuncs]
      apply funcRegTrap_ok
      exact div_value
  | divu =>
      simp only [divType, interpFuncs]
      apply funcRegTrap_ok
      exact divu_value
  | rem =>
      simp only [divType, interpFuncs]
      apply funcRegTrap_ok
      exact rem_value
  | remu =>
      simp only [divType, interpFuncs]
      apply funcRegTrap_ok
      exact remu_value
  | divw =>
      simp only [divType, interpFuncs]
      apply funcRegTrap_ok
      exact divw_value (guarded rfl)
  | divuw =>
      simp only [divType, interpFuncs]
      apply funcRegTrap_ok
      exact divuw_value (guarded rfl)
  | remw =>
      simp only [divType, interpFuncs]
      apply funcRegTrap_ok
      exact remw_value (guarded rfl)
  | remuw =>
      simp only [divType, interpFuncs]
      apply funcRegTrap_ok
      exact remuw_value (guarded rfl)

/-- Only the word operations have a test that is not the one of the division. -/
theorem divides32_of_not_guarded {rs2 : U64} (wrong : ¬ Guarded op rs2) :
    (divType op).divides32 = true ∧ rs2 ≠ 0 ∧ CInt.u32.conv rs2 = 0 := by
  obtain ⟨word, neither⟩ := Classical.not_imp.mp wrong
  obtain ⟨nonzero, low⟩ := not_or.mp neither
  have low := not_not.mp low
  refine ⟨?_, nonzero, ?_⟩
  · cases op with
    | div | divu | rem | remu => cases word
    | divw | divuw | remw | remuw => rfl
  · rw [CInt.conv, low]
    rfl

/-- Where the test is wrong the host traps. -/
theorem interpFuncs_traps (wrong : ¬ Guarded op (s.gpRegs insn.rs2)) :
    ∃ abort, interpFuncs F (divType op) s insn = .error abort := by
  obtain ⟨divides, operands⟩ := divides32_of_not_guarded wrong
  exact (interpFuncs_divides32 divides).mpr operands

end Execution

namespace Codegen

variable {F : FloatOps} {tracer : Tracer} {env : CEnv} {t : State} {op : DivOp} {insn : Insn}
  {e : Emission}

/-- A word operation on `x0` declares its operands and nothing else. -/
theorem runs_dropped (divides : (divType op).divides32 = true) (isZero : insn.rd = 0)
    (printed : codegenFuncs (divType op) insn t.pc = .ok e) (has : tracer.Has e)
    (m : Mirrors tracer env t) :
    ∃ env', Runs F env.opened e.lines env' ∧ Mirrors tracer env' t := by
  obtain ⟨expr, family⟩ : ∃ expr, codegenFuncs (divType op) = funcReg expr := by
    cases op with
    | div | divu | rem | remu => cases divides
    | divw | divuw | remw | remuw => exact ⟨_, rfl⟩
  rw [family] at printed
  cases printed
  obtain ⟨env', runs, m', _⟩ : Declares F tracer env t _ _ :=
    declares_gp₂ m (has.1 insn.rs1 (by simp)) (has.1 insn.rs2 (by simp))
  refine ⟨env', ?_, m'⟩
  rw [isZero, regSetExpr, if_neg (fun nonzero => nonzero rfl), List.append_nil]
  exact runs

theorem runs_division (printed : codegenFuncs (divType op) insn t.pc = .ok e)
    (has : tracer.Has e) (m : Mirrors tracer env t) :
    (∃ env', Runs F env.opened e.lines env' ∧ Mirrors tracer env'
      (t.writeGp insn.rd (op.eval (t.gpRegs insn.rs1) (t.gpRegs insn.rs2)))) ↔
    insn.rd = 0 ∨ Guarded op (t.gpRegs insn.rs2) := by
  have goesOn : (divType op).transfer = .next := by cases op <;> rfl
  have outcome := agrees_of_next (F := F) goesOn tracer env t insn e printed has m
  by_cases guarded : Guarded op (t.gpRegs insn.rs2)
  · refine ⟨fun _ => .inr guarded, fun _ => ?_⟩
    rw [interpFuncs_division guarded] at outcome
    cases outcome with
    | done pc runs mirrors =>
        rw [State.setGp_zero_setGp m.zero] at mirrors
        exact ⟨_, runs, mirrors⟩
  · constructor
    · rintro ⟨env', runs, _⟩
      obtain ⟨abort, traps⟩ := interpFuncs_traps (F := F) guarded
      rw [traps] at outcome
      cases outcome with
      | dead died =>
          rcases died with isZero | ⟨abort, dies⟩
          · exact .inl isZero
          · cases dies.symm.trans runs
    · rintro (isZero | holds)
      · obtain ⟨env', runs, mirrors⟩ :=
          runs_dropped (divides32_of_not_guarded guarded).1 isZero printed has m
        refine ⟨env', runs, ?_⟩
        rw [State.writeGp, if_pos isZero]
        exact mirrors
      · exact absurd holds guarded

end Codegen

/-- **When division follows the architecture.** The interpreter writes the value of the
architecture exactly where the test of the divisor is right; the generated code does
there, and also where it drops the result. -/
theorem division_iff (F : FloatOps) (op : DivOp) :
    (∀ (s : State) (insn : Insn), interpFuncs F (divType op) s insn =
        .ok (s.setGp insn.rd (op.eval (s.gpRegs insn.rs1) (s.gpRegs insn.rs2)), insn) ↔
      Guarded op (s.gpRegs insn.rs2)) ∧
    ∀ (tracer : Tracer) (env : CEnv) (t : State) (insn : Insn) (e : Emission),
      codegenFuncs (divType op) insn t.pc = .ok e → tracer.Has e → Mirrors tracer env t →
      ((∃ env', Runs F env.opened e.lines env' ∧ Mirrors tracer env'
        (t.writeGp insn.rd (op.eval (t.gpRegs insn.rs1) (t.gpRegs insn.rs2)))) ↔
      insn.rd = 0 ∨ Guarded op (t.gpRegs insn.rs2)) := by
  constructor
  · intro s insn
    refine ⟨fun value => ?_, interpFuncs_division⟩
    by_contra wrong
    obtain ⟨abort, traps⟩ := interpFuncs_traps (F := F) wrong
    cases traps.symm.trans value
  · intro tracer env t insn e printed has m
    exact Codegen.runs_division printed has m

/-- `divw a0, a0, a1`. -/
abbrev divwInsn : Insn := { rd := 10, rs1 := 10, rs2 := 11, type := .divw }

/-- The lines that are printed for it. -/
abbrev divwLines : List Line :=
  Codegen.regGet 10 .rs1 ++ Codegen.regGet 11 .rs2 ++
    [.setGp 10 (.cond (.bin .eq (.var .rs2) 0) CExpr.uint64Max
      (((((CExpr.var .rs1).as .i32).as .i64) / (((CExpr.var .rs2).as .i32).as .i64)).as .i32))]

/-- The registers that it uses. -/
abbrev divwTracer : Tracer := Tracer.reset.addUsage [10, 11] []

/-- A state with a divisor in `a1`. -/
abbrev divwState (divisor : U64) : State := .boot (fun _ => 0) 0x1000 11 divisor

/-- A state in which `a0` is minus seven and `a1` is two. -/
abbrev divwOperands : State := (divwState 2).setGp 10 (-7)

/-- Minus seven divided by two. -/
theorem division_iff_divw :
    interpFuncs default .divw divwOperands divwInsn =
      .ok (divwOperands.setGp 10 (-3), divwInsn) ∧
    ∃ env env', Mirrors divwTracer env divwOperands ∧ Runs default env.opened divwLines env' ∧
      Mirrors divwTracer env' (divwOperands.writeGp 10 (-3)) := by
  obtain ⟨env, _, m⟩ := runs_prologue (F := default) divwTracer (s := divwOperands) rfl
  have guarded : Guarded .divw (divwOperands.gpRegs 11) := fun _ => .inr (by decide)
  have both := division_iff default .divw
  obtain ⟨env', runs, m'⟩ := (both.2 divwTracer env divwOperands divwInsn
    { lines := divwLines, gp := [10, 11, 10] } rfl ⟨by decide, by decide⟩ m).mpr (.inr guarded)
  have value := (both.1 divwOperands divwInsn).mpr guarded
  have quotient : DivOp.divw.eval (divwOperands.gpRegs 10) (divwOperands.gpRegs 11) = -3 := by
    decide
  rw [quotient] at value m'
  exact ⟨value, env, env', m, runs, m'⟩

/-- With a divisor of `0x100000000` the host traps in both, and the architecture has a
quotient. -/
theorem division_trap :
    interpFuncs default .divw (divwState 0x100000000) divwInsn = .error .trap ∧
    (∀ env, Mirrors divwTracer env (divwState 0x100000000) →
      execLines default env.opened divwLines = .error .trap) ∧
    DivOp.divw.eval 0 0x100000000 = -1 := by
  refine ⟨rfl, ?_, by decide⟩
  intro env m
  obtain ⟨env', runs, m', locals⟩ : Declares default divwTracer env (divwState 0x100000000)
      (Codegen.regGet 10 .rs1 ++ Codegen.regGet 11 .rs2) _ := Codegen.declares_gp₂ m rfl rfl
  have value :=
    eval_divw default ((divwState 0x100000000).gpRegs 10) ((divwState 0x100000000).gpRegs 11)
  rw [← locals] at value
  have dies : execLines default env' (Codegen.regSetExpr 10 _) = .error .trap :=
    Codegen.execLines_regSetExpr_error m' rfl value (by decide)
  exact (execLines_append_of_runs runs).trans dies

end RiscvEmu
