import RiscvEmu.BlockGraph
import RiscvEmu.Mirrors

/-!
# The generators agree with the handlers

An instruction is implemented twice: a handler executes it, and a generator prints C
that does. Here the two are compared for every instruction that goes on to the next
one.

`Outcome` compares the lines of an instruction with what its handler returns, and
`Agrees` says that a generator and a handler always compare that way. There is one
lemma for each `FUNC` macro, and `agrees_of_next` collects them.

The handlers and the lines differ in one case. A generator prints nothing for a
result that goes to `x0`, so there the operation is not executed, and a host trap
in it does not happen.
-/

set_option autoImplicit false

namespace RiscvEmu

/-! ## Agreement -/

section Agreement

variable (F : FloatOps) (tracer : Tracer) (env : CEnv) (lines : List Line) (insn : Insn) (t : State)

/-- The lines of an instruction against what its handler returns. -/
inductive Outcome : Except Abort (State × Insn) → Prop where
  /-- The handler returns, and the lines run to the state it gives. -/
  | done {t₁ : State} {env' : CEnv} (pc : t₁.pc = t.pc) (runs : Runs F env lines env')
      (mirrors : Mirrors tracer env' (t₁.setGp 0 0)) : Outcome (.ok (t₁, insn))
  /-- The handler dies. The lines die too, unless the result goes to `x0`. -/
  | dead {abort : Abort} (died : insn.rd = 0 ∨ ∃ e, execLines F env lines = .error e) :
      Outcome (.error abort)

end Agreement

/-- A generator prints what a handler does. -/
def Agrees (F : FloatOps) (gen : Generator) (handler : Handler) : Prop :=
  ∀ (tracer : Tracer) (env : CEnv) (t : State) (insn : Insn) (e : Emission),
    gen insn t.pc = .ok e → tracer.Has e → Mirrors tracer env t →
      Outcome F tracer env.opened e.lines insn t (handler t insn)

/-- The assignment of an expression to a member of a register. -/
def Writes (F : FloatOps) (value : CExpr) (field : FpField) (locals : Locals) (old new : U64) :
    Prop :=
  ∃ v, (value.eval F locals >>= castTo F field.type) = .ok v ∧ field.write old v = new

namespace Declares

open Codegen

variable {F : FloatOps} {tracer : Tracer} {env : CEnv} {t : State} {lines : List Line}
  {locals : Locals} {insn : Insn} {value : CExpr}

/-- The result goes to a general register. -/
theorem regSet {x : U64} (d : Declares F tracer env t lines locals)
    (used : insn.rd ≠ 0 → tracer.gpReg insn.rd = true)
    (evaluated : value.evalU64 F locals = .ok x) :
    Outcome F tracer env.opened (lines ++ regSetExpr insn.rd value) insn t
      (.ok (t.setGp insn.rd x, insn)) := by
  have zero := d.zero
  obtain ⟨env', runs, mirrors, _⟩ := d.setGp used evaluated
  have cleared : (t.setGp insn.rd x).setGp 0 0 = t.writeGp insn.rd x :=
    State.setGp_zero_setGp zero insn.rd x
  exact .done rfl runs (cleared ▸ mirrors)

/-- The result of a division that may trap goes to a general register. -/
theorem regSetTrap {x : Except Abort U64} (d : Declares F tracer env t lines locals)
    (used : tracer.gpReg insn.rd = true) (evaluated : value.evalU64 F locals = x) :
    Outcome F tracer env.opened (lines ++ regSetExpr insn.rd value) insn t
      (x >>= fun x => .ok (t.setGp insn.rd x, insn)) := by
  cases x with
  | ok x => exact d.regSet (fun _ => used) evaluated
  | error abort =>
      obtain ⟨env', runs, m, rfl⟩ := d
      apply Outcome.dead
      by_cases isZero : insn.rd = 0
      · exact .inl isZero
      · exact .inr ⟨abort, (execLines_append_of_runs runs).trans
          (execLines_regSetExpr_error m used evaluated isZero)⟩

/-- The result goes to a floating-point register. -/
theorem fregSet {field : FpField} {new : U64} (d : Declares F tracer env t lines locals)
    (used : tracer.fpReg insn.rd = true)
    (writes : Writes F value field locals (t.fpRegs insn.rd) new) :
    Outcome F tracer env.opened (lines ++ fregSetExpr insn.rd value field) insn t
      (.ok (t.setFp insn.rd new, insn)) := by
  obtain ⟨env', runs, m, rfl⟩ := d
  obtain ⟨v, evaluated, rfl⟩ := writes
  obtain ⟨env₁, set, mirrors⟩ := runs_fregSetExpr m used evaluated
  have cleared := State.setGp_zero mirrors.zero
  exact .done rfl (runs.append set) (cleared.symm ▸ mirrors)

/-- The result goes to the memory. -/
theorem memStore {addr : CExpr} {type : CInt} {data : Local} {a x : U64}
    (d : Declares F tracer env t lines locals) (evaluated : addr.evalU64 F locals = .ok a)
    (stored : locals data = some (.int .u64 x)) :
    Outcome F tracer env.opened (lines ++ memStore addr type data) insn t
      (.ok (t.write type a x, insn)) := by
  obtain ⟨env', runs, m, rfl⟩ := d
  obtain ⟨env₁, store, mirrors⟩ := runs_memStore m evaluated stored
  have cleared := State.setGp_zero mirrors.zero
  exact .done rfl (runs.append store) (cleared.symm ▸ mirrors)

end Declares

namespace Codegen

variable {F : FloatOps}

/-! ## The families -/

/-- The address of a load or store. -/
theorem eval_immAddr {locals : Locals} {insn : Insn} {x : U64}
    (declared : locals .rs1 = some (.int .u64 x)) :
    (immAddr insn).evalU64 F locals = .ok (x + insn.imm64) := by
  have base : (CExpr.var .rs1).eval F locals = .ok (.int .u64 x) := by
    rw [CExpr.eval, declared]
  exact evalU64_of_eval (eval_bin .add base (eval_as .i64 rfl))

theorem agrees_empty : Agrees F funcEmpty RiscvEmu.funcEmpty := by
  rintro tracer env t insn e ⟨⟩ has m
  exact .done rfl rfl ((State.setGp_zero m.zero).symm ▸ m.opened)

theorem agrees_load (typ : CInt) : Agrees F (funcLoad typ) (RiscvEmu.funcLoad typ) := by
  rintro tracer env t insn e ⟨⟩ has m
  have loaded : Declares F tracer env t (regGet insn.rs1 .rs1 ++ memLoad (immAddr insn) typ .rd) _ :=
    ((Declares.start m).regGet (has.1 insn.rs1 (by simp))).memLoad (eval_immAddr rfl)
  exact loaded.regSet (fun _ => has.1 insn.rd (by simp)) rfl

theorem agrees_imm {expr : Insn → CExpr} {value : U64 → U64 → U64}
    (eval : ∀ insn x, (expr insn).evalU64 F (gpLocals x) = .ok (value x insn.imm64)) :
    Agrees F (funcImm expr) (RiscvEmu.funcImm value) := by
  rintro tracer env t insn e ⟨⟩ has m
  have got : Declares F tracer env t (regGet insn.rs1 .rs1) _ :=
    (Declares.start m).regGet (has.1 insn.rs1 (by simp))
  exact got.regSet (fun _ => has.1 insn.rd (by simp)) (eval insn (t.gpRegs insn.rs1))

theorem agrees_auipc : Agrees F funcAuipc RiscvEmu.funcAuipc := by
  rintro tracer env t insn e ⟨⟩ has m
  exact (Declares.start m).regSet (fun _ => has.1 insn.rd (by simp)) rfl

theorem agrees_lui : Agrees F funcLui RiscvEmu.funcLui := by
  rintro tracer env t insn e ⟨⟩ has m
  exact (Declares.start m).regSet (fun _ => has.1 insn.rd (by simp)) rfl

theorem agrees_store (typ : CInt) : Agrees F (funcStore typ) (RiscvEmu.funcStore typ) := by
  rintro tracer env t insn e ⟨⟩ has m
  have got : Declares F tracer env t (regGet insn.rs1 .rs1 ++ regGet insn.rs2 .rs2) _ :=
    ((Declares.start m).regGet (has.1 insn.rs1 (by simp))).regGet (has.1 insn.rs2 (by simp))
  exact got.memStore (eval_immAddr rfl) rfl

section Registers

variable {expr : CExpr}

/-- The locals of the register-register operations. -/
theorem declares_gp₂ {tracer : Tracer} {env : CEnv} {t : State} {rs1 rs2 : Reg}
    (m : Mirrors tracer env t) (used₁ : tracer.gpReg rs1 = true) (used₂ : tracer.gpReg rs2 = true) :
    Declares F tracer env t (regGet rs1 .rs1 ++ regGet rs2 .rs2)
      (gpLocals₂ (t.gpRegs rs1) (t.gpRegs rs2)) :=
  ((Declares.start m).regGet used₁).regGet used₂

theorem agrees_regTrap {value : U64 → U64 → Except Abort U64}
    (eval : ∀ x y, expr.evalU64 F (gpLocals₂ x y) = value x y) :
    Agrees F (funcReg expr) (funcRegTrap value) := by
  rintro tracer env t insn e ⟨⟩ has m
  have got : Declares F tracer env t _ _ :=
    declares_gp₂ m (has.1 insn.rs1 (by simp)) (has.1 insn.rs2 (by simp))
  exact got.regSetTrap (has.1 insn.rd (by simp)) (eval ..)

theorem agrees_reg {value : U64 → U64 → U64}
    (eval : ∀ x y, expr.evalU64 F (gpLocals₂ x y) = .ok (value x y)) :
    Agrees F (funcReg expr) (RiscvEmu.funcReg value) :=
  agrees_regTrap eval

/-- The `if` chains compute their value whether or not it is assigned. -/
theorem agrees_choose {arms : List (CExpr × CExpr)} {other : CExpr}
    {value : U64 → U64 → Except Abort U64}
    (eval : ∀ x y, chosen F (divLocals x y) arms other = value x y) :
    Agrees F (funcChoose arms other) (funcRegTrap value) := by
  rintro tracer env t insn e ⟨⟩ has m
  obtain ⟨env', runs, m', locals⟩ : Declares F tracer env t _ _ :=
    declares_gp₂ m (has.1 insn.rs1 (by simp)) (has.1 insn.rs2 (by simp))
  have zeroed : Runs F env' [.declZero .rd] (env'.setLocal .rd (.int .u64 0)) := runs_one rfl
  have declared : (env'.setLocal .rd (.int .u64 0)).locals =
      divLocals (t.gpRegs insn.rs1) (t.gpRegs insn.rs2) := by
    rw [CEnv.setLocal, locals]
  have choice : execLine F (env'.setLocal .rd (.int .u64 0)) (.choose .rd arms other) =
      value (t.gpRegs insn.rs1) (t.gpRegs insn.rs2) >>= fun x =>
        .ok ((env'.setLocal .rd (.int .u64 0)).setLocal .rd (.int .u64 x), none) := by
    rw [← eval, ← declared, chosen, bind_assoc]
    rfl
  rw [funcRegTrap]
  generalize value (t.gpRegs insn.rs1) (t.gpRegs insn.rs2) = result at choice
  cases result with
  | error abort =>
      apply Outcome.dead
      refine .inr ⟨abort, execLines_append_of_error ?_⟩
      rw [execLines_append_of_runs runs]
      exact (execLines_append_of_runs (b := [_]) zeroed).trans (execLines_one_error choice)
  | ok x =>
      have chose : Declares F tracer env t _ _ :=
        ⟨_, runs.append (zeroed.append (runs_one choice)), (m'.setLocal ..).setLocal .., rfl⟩
      exact chose.regSet (fun _ => has.1 insn.rd (by simp)) rfl

theorem agrees_csr : Agrees F funcCsr RiscvEmu.funcCsr := by
  intro tracer env t insn e generated has m
  rw [funcCsr] at generated
  by_cases supported : csrSupported insn.csr = true
  · rw [if_pos supported] at generated
    cases generated
    rw [RiscvEmu.funcCsr, if_pos supported]
    exact (Declares.start m).regSet (fun nonzero => has.1 insn.rd (by rw [if_pos nonzero]; simp)) rfl
  · rw [if_neg supported] at generated
    cases generated

end Registers

section Floats

variable {expr : CExpr} {field : FpField} {type : CType}

theorem agrees_fload {typ : CInt} (value : U64 → U64)
    (eval : ∀ x v old, Writes F expr .v ((gpLocals x).set .rd (.int typ v)) old (value v)) :
    Agrees F (funcFload typ expr) fun s insn =>
      .ok (s.setFp insn.rd (value (typ.load s.mem (s.gpRegs insn.rs1 + insn.imm64))), insn) := by
  rintro tracer env t insn e ⟨⟩ has m
  have loaded : Declares F tracer env t (regGet insn.rs1 .rs1 ++ memLoad (immAddr insn) typ .rd) _ :=
    ((Declares.start m).regGet (has.1 insn.rs1 (by simp))).memLoad (eval_immAddr rfl)
  exact loaded.fregSet (has.2 insn.rd (by simp)) (eval ..)

theorem agrees_fstore (typ : CInt) : Agrees F (funcFstore typ) (RiscvEmu.funcFstore typ) := by
  rintro tracer env t insn e ⟨⟩ has m
  have got : Declares F tracer env t
      (regGet insn.rs1 .rs1 ++ fregGet insn.rs2 .rs2 (.int .u64) .v) _ :=
    ((Declares.start m).regGet (has.1 insn.rs1 (by simp))).fregGet (has.2 insn.rs2 (by simp)) rfl
  exact got.memStore (eval_immAddr rfl) rfl

/-- The locals of the operations on one, two and three floats. -/
abbrev fpLocals (a : CValue) : Locals := noLocals.set .rs1 a
abbrev fpLocals₂ (a b : CValue) : Locals := (fpLocals a).set .rs2 b
abbrev fpLocals₃ (a b c : CValue) : Locals := (fpLocals₂ a b).set .rs3 c

section Declared

variable {tracer : Tracer} {env : CEnv} {t : State} {rs1 rs2 rs3 : Reg} {decl : U64 → CValue}

theorem declares_fp (reads : ∀ r, castTo F type (field.read r) = .ok (decl r))
    (m : Mirrors tracer env t) (used : tracer.fpReg rs1 = true) :
    Declares F tracer env t (fregGet rs1 .rs1 type field) (fpLocals (decl (t.fpRegs rs1))) :=
  (Declares.start m).fregGet used (reads _)

theorem declares_fp₂ (reads : ∀ r, castTo F type (field.read r) = .ok (decl r))
    (m : Mirrors tracer env t) (used₁ : tracer.fpReg rs1 = true)
    (used₂ : tracer.fpReg rs2 = true) :
    Declares F tracer env t (fregGet rs1 .rs1 type field ++ fregGet rs2 .rs2 type field)
      (fpLocals₂ (decl (t.fpRegs rs1)) (decl (t.fpRegs rs2))) :=
  (declares_fp reads m used₁).fregGet used₂ (reads _)

theorem declares_fp₃ (reads : ∀ r, castTo F type (field.read r) = .ok (decl r))
    (m : Mirrors tracer env t) (used₁ : tracer.fpReg rs1 = true)
    (used₂ : tracer.fpReg rs2 = true) (used₃ : tracer.fpReg rs3 = true) :
    Declares F tracer env t (fregGet rs1 .rs1 type field ++ fregGet rs2 .rs2 type field ++
        fregGet rs3 .rs3 type field)
      (fpLocals₃ (decl (t.fpRegs rs1)) (decl (t.fpRegs rs2)) (decl (t.fpRegs rs3))) :=
  (declares_fp₂ reads m used₁ used₂).fregGet used₃ (reads _)

end Declared

/-! A float is read from the low half of its register and a double from all of it. -/

theorem reads_f (r : U64) : castTo F .float (FpField.f.read r) = .ok (.float (fpLow r)) := rfl

theorem reads_d (r : U64) : castTo F .double (FpField.d.read r) = .ok (.double r) := rfl

theorem reads_v (r : U64) : castTo F (.int .u64) (FpField.v.read r) = .ok (.int .u64 r) := rfl

section Families

variable {decl : U64 → CValue}

theorem agrees_fused (write : U64 → U64 → U64 → U64 → U64)
    (reads : ∀ r, castTo F type (field.read r) = .ok (decl r))
    (eval : ∀ old a b c,
      Writes F expr field (fpLocals₃ (decl a) (decl b) (decl c)) old (write old a b c)) :
    Agrees F (funcFused type field expr) fun s insn =>
      .ok (s.setFp insn.rd (write (s.fpRegs insn.rd) (s.fpRegs insn.rs1) (s.fpRegs insn.rs2)
        (s.fpRegs insn.rs3)), insn) := by
  rintro tracer env t insn e ⟨⟩ has m
  have got : Declares F tracer env t _ _ := declares_fp₃ reads m (has.2 insn.rs1 (by simp))
    (has.2 insn.rs2 (by simp)) (has.2 insn.rs3 (by simp))
  exact got.fregSet (has.2 insn.rd (by simp)) (eval ..)

theorem agrees_fused32 {value : U32 → U32 → U32 → U32}
    (eval : ∀ a b c, expr.eval F (fpLocals₃ (.float a) (.float b) (.float c)) =
      .ok (.float (value a b c))) :
    Agrees F (funcFused .float .f expr) (funcFused32 value) :=
  agrees_fused (fun old a b c => fpSetLow old (value (fpLow a) (fpLow b) (fpLow c))) reads_f
    fun _ _ _ _ => ⟨_, bind_ok.mpr ⟨_, eval .., rfl⟩, rfl⟩

theorem agrees_fused64 {value : U64 → U64 → U64 → U64}
    (eval : ∀ a b c, expr.eval F (fpLocals₃ (.double a) (.double b) (.double c)) =
      .ok (.double (value a b c))) :
    Agrees F (funcFused .double .d expr) (funcFused64 value) :=
  agrees_fused (fun _ a b c => value a b c) reads_d
    fun _ _ _ _ => ⟨_, bind_ok.mpr ⟨_, eval .., rfl⟩, rfl⟩

theorem agrees_arith (write : U64 → U64 → U64 → U64)
    (reads : ∀ r, castTo F type (field.read r) = .ok (decl r))
    (eval : ∀ old a b, Writes F expr field (fpLocals₂ (decl a) (decl b)) old (write old a b)) :
    Agrees F (funcArith type field expr) fun s insn =>
      .ok (s.setFp insn.rd (write (s.fpRegs insn.rd) (s.fpRegs insn.rs1) (s.fpRegs insn.rs2)),
        insn) := by
  rintro tracer env t insn e ⟨⟩ has m
  have got : Declares F tracer env t _ _ :=
    declares_fp₂ reads m (has.2 insn.rs1 (by simp)) (has.2 insn.rs2 (by simp))
  exact got.fregSet (has.2 insn.rd (by simp)) (eval ..)

theorem agrees_arith32 {value : U32 → U32 → U32}
    (eval : ∀ a b, expr.eval F (fpLocals₂ (.float a) (.float b)) = .ok (.float (value a b))) :
    Agrees F (funcArith .float .f expr) (funcArith32 value) :=
  agrees_arith (fun old a b => fpSetLow old (value (fpLow a) (fpLow b))) reads_f
    fun _ _ _ => ⟨_, bind_ok.mpr ⟨_, eval .., rfl⟩, rfl⟩

theorem agrees_arith64 {value : U64 → U64 → U64}
    (eval : ∀ a b, expr.eval F (fpLocals₂ (.double a) (.double b)) = .ok (.double (value a b))) :
    Agrees F (funcArith .double .d expr) (funcArith64 value) :=
  agrees_arith (fun _ a b => value a b) reads_d
    fun _ _ _ => ⟨_, bind_ok.mpr ⟨_, eval .., rfl⟩, rfl⟩

section Choices

variable {op : BinOp}

/-- `rs1 < rs2 ? rs1 : rs2` on `float`, and the same with `>`. -/
theorem eval_choice32 {holds : U32 → U32 → Bool}
    (tested : ∀ a b, binary F op (.float a) (.float b) = .ok (.ofBool (holds a b))) (a b : U32) :
    (CExpr.cond (.bin op (.var .rs1) (.var .rs2)) (.var .rs1) (.var .rs2)).eval F
      (fpLocals₂ (.float a) (.float b)) = .ok (.float (if holds a b then a else b)) := by
  rw [eval_cond rfl ((eval_bin op rfl rfl).trans (tested a b))]
  cases holds a b <;> rfl

/-- The same on `double`. -/
theorem eval_choice64 {holds : U64 → U64 → Bool}
    (tested : ∀ a b, binary F op (.double a) (.double b) = .ok (.ofBool (holds a b))) (a b : U64) :
    (CExpr.cond (.bin op (.var .rs1) (.var .rs2)) (.var .rs1) (.var .rs2)).eval F
      (fpLocals₂ (.double a) (.double b)) = .ok (.double (if holds a b then a else b)) := by
  rw [eval_cond rfl ((eval_bin op rfl rfl).trans (tested a b))]
  cases holds a b <;> rfl

end Choices

theorem agrees_fpOfGp (write : U64 → U64 → U64)
    (eval : ∀ old x, Writes F expr field (gpLocals x) old (write old x)) :
    Agrees F (funcFpOfGp expr field) fun s insn =>
      .ok (s.setFp insn.rd (write (s.fpRegs insn.rd) (s.gpRegs insn.rs1)), insn) := by
  rintro tracer env t insn e ⟨⟩ has m
  have got : Declares F tracer env t (regGet insn.rs1 .rs1) _ :=
    (Declares.start m).regGet (has.1 insn.rs1 (by simp))
  exact got.fregSet (has.2 insn.rd (by simp)) (eval ..)

theorem agrees_fp32OfGp {value : U64 → U32}
    (eval : ∀ old x, Writes F expr field (gpLocals x) old (fpSetLow old (value x))) :
    Agrees F (funcFpOfGp expr field) (funcFp32OfGp value) :=
  agrees_fpOfGp (fun old x => fpSetLow old (value x)) eval

theorem agrees_fp64OfGp {value : U64 → U64}
    (eval : ∀ old x, Writes F expr field (gpLocals x) old (value x)) :
    Agrees F (funcFpOfGp expr field) (funcFp64OfGp value) :=
  agrees_fpOfGp (fun _ x => value x) eval

theorem agrees_gpOfFp {typ : CInt} {value : U64 → U64}
    (reads : ∀ r, castTo F (.int typ) (field.read r) = .ok (decl r))
    (eval : ∀ r, expr.evalU64 F (fpLocals (decl r)) = .ok (value r)) :
    Agrees F (funcGpOfFp typ field expr) (funcGpOfFp64 value) := by
  rintro tracer env t insn e ⟨⟩ has m
  have got : Declares F tracer env t _ _ := declares_fp reads m (has.2 insn.rs1 (by simp))
  exact got.regSet (fun _ => has.1 insn.rd (by simp)) (eval ..)

theorem agrees_compare {op : BinOp} (holds : U64 → U64 → Bool)
    (reads : ∀ r, castTo F type (field.read r) = .ok (decl r))
    (eval : ∀ a b, binary F op (decl a) (decl b) = .ok (.ofBool (holds a b))) :
    Agrees F (funcCompare type field op) fun s insn =>
      .ok (s.setGp insn.rd (cbool (holds (s.fpRegs insn.rs1) (s.fpRegs insn.rs2))), insn) := by
  rintro tracer env t insn e ⟨⟩ has m
  have got : Declares F tracer env t _ _ :=
    declares_fp₂ reads m (has.2 insn.rs1 (by simp)) (has.2 insn.rs2 (by simp))
  exact got.regSet (fun _ => has.1 insn.rd (by simp))
    (evalU64_of_eval ((eval_bin op rfl rfl).trans (eval ..)))

theorem agrees_compare32 {op : BinOp} {holds : U32 → U32 → Bool}
    (eval : ∀ a b, binary F op (.float a) (.float b) = .ok (.ofBool (holds a b))) :
    Agrees F (funcCompare .float .f op) (funcCompare32 holds) :=
  agrees_compare (fun a b => holds (fpLow a) (fpLow b)) reads_f fun _ _ => eval ..

theorem agrees_compare64 {op : BinOp} {holds : U64 → U64 → Bool}
    (eval : ∀ a b, binary F op (.double a) (.double b) = .ok (.ofBool (holds a b))) :
    Agrees F (funcCompare .double .d op) (funcCompare64 holds) :=
  agrees_compare holds reads_d eval

theorem agrees_fpOfFp {result : FpField} (write : U64 → U64 → U64)
    (reads : ∀ r, castTo F type (field.read r) = .ok (decl r))
    (eval : ∀ old a, Writes F expr result (fpLocals (decl a)) old (write old a)) :
    Agrees F (funcFpOfFp type field expr result) fun s insn =>
      .ok (s.setFp insn.rd (write (s.fpRegs insn.rd) (s.fpRegs insn.rs1)), insn) := by
  rintro tracer env t insn e ⟨⟩ has m
  have got : Declares F tracer env t _ _ := declares_fp reads m (has.2 insn.rs1 (by simp))
  exact got.fregSet (has.2 insn.rd (by simp)) (eval ..)

end Families

end Floats

/-! ## Every instruction that goes on -/

theorem agrees_flw : Agrees F funcFlw RiscvEmu.funcFlw := by
  apply agrees_fload fun v => v ||| (-1 : U64) <<< 32
  intro x v old
  have narrow : (32 : U64).toNat < CInt.u64.promote.width := by decide
  have ones : ((-1 : CExpr).as .u64 <<< (32 : CExpr)).eval F
      ((gpLocals x).set .rd (.int .u32 v)) = .ok (.int .u64 ((-1 : U64) <<< 32)) :=
    eval_shl (eval_as .u64 rfl) rfl narrow
  have whole : (CExpr.var .rd ||| ((-1 : CExpr).as .u64 <<< (32 : CExpr))).eval F
      ((gpLocals x).set .rd (.int .u32 v)) = .ok (.int .u64 (v ||| (-1 : U64) <<< 32)) :=
    eval_bin .or (show (CExpr.var .rd).eval F _ = .ok (.int .u32 v) from rfl) ones
  exact ⟨_, bind_ok.mpr ⟨_, whole, rfl⟩, rfl⟩

theorem agrees_fld : Agrees F funcFld RiscvEmu.funcFld :=
  agrees_fload (fun v => v) fun _ _ _ => ⟨_, rfl, rfl⟩

theorem agrees_fmvWX : Agrees F funcFmvWX RiscvEmu.funcFmvWX := by
  apply agrees_fp32OfGp
  intro old x
  have low : (CInt.u32.conv x).setWidth 32 = x.setWidth 32 := by simp [CInt.conv]
  refine ⟨.int .u32 (CInt.u32.conv (CInt.u32.conv x)), rfl, ?_⟩
  rw [CInt.conv_conv]
  exact congrArg (fpSetLow old) low

theorem agrees_fmvXW : Agrees F funcFmvXW RiscvEmu.funcFmvXW := by
  have reads : ∀ r, castTo F (.int .u32) (FpField.w.read r) =
      .ok (.int .u32 ((fpLow r).setWidth 64)) := by
    intro r
    have fits : CInt.u32.conv ((fpLow r).setWidth 64) = (fpLow r).setWidth 64 := by
      simp [CInt.conv]
    exact congrArg (fun bits => Except.ok (CValue.int .u32 bits)) fits
  have moved : ∀ r, (((CExpr.var .rs1).as .i32).as .i64).evalU64 F
      (fpLocals (.int .u32 ((fpLow r).setWidth 64))) = .ok (CInt.i32.conv ((fpLow r).setWidth 64)) :=
    fun _ => rfl
  exact agrees_gpOfFp reads moved

/-- **Every instruction that goes on to the next one** is printed as it is executed. -/
theorem agrees_of_next {type : InsnType} (goesOn : type.transfer = .next) :
    Agrees F (codegenFuncs type) (interpFuncs F type) := by
  cases type with
  | lb | lh | lw | ld | lbu | lhu | lwu => exact agrees_load _
  | fence | fenceI => exact agrees_empty
  | addi | xori | ori | andi | addiw =>
      simp only [codegenFuncs, interpFuncs]
      refine agrees_imm fun insn x => ?_
      rfl
  | slti | sltiu =>
      simp only [codegenFuncs, interpFuncs]
      refine agrees_imm fun insn x => ?_
      exact eval_cond_bit rfl
  | slli =>
      simp only [codegenFuncs, interpFuncs]
      exact agrees_imm fun insn x => eval_slli F x insn
  | srli =>
      simp only [codegenFuncs, interpFuncs]
      exact agrees_imm fun insn x => eval_srli F x insn
  | srai =>
      simp only [codegenFuncs, interpFuncs]
      exact agrees_imm fun insn x => eval_srai F x insn
  | slliw =>
      simp only [codegenFuncs, interpFuncs]
      exact agrees_imm fun insn x => eval_slliw F x insn
  | srliw =>
      simp only [codegenFuncs, interpFuncs]
      exact agrees_imm fun insn x => eval_srliw F x insn
  | sraiw =>
      simp only [codegenFuncs, interpFuncs]
      exact agrees_imm fun insn x => eval_sraiw F x insn
  | auipc => exact agrees_auipc
  | sb | sh | sw | sd => exact agrees_store _
  | add | sub | xor | or | and | mul | addw | subw | mulw =>
      simp only [codegenFuncs, interpFuncs]
      refine agrees_reg fun x y => ?_
      rfl
  | slt | sltu =>
      simp only [codegenFuncs, interpFuncs]
      refine agrees_reg fun x y => ?_
      exact eval_cond_bit rfl
  | sll =>
      simp only [codegenFuncs, interpFuncs]
      exact agrees_reg (eval_sll F)
  | srl =>
      simp only [codegenFuncs, interpFuncs]
      exact agrees_reg (eval_srl F)
  | sra =>
      simp only [codegenFuncs, interpFuncs]
      exact agrees_reg (eval_sra F)
  | sllw =>
      simp only [codegenFuncs, interpFuncs]
      exact agrees_reg (eval_sllw F)
  | srlw =>
      simp only [codegenFuncs, interpFuncs]
      exact agrees_reg (eval_srlw F)
  | sraw =>
      simp only [codegenFuncs, interpFuncs]
      exact agrees_reg (eval_sraw F)
  | remu =>
      simp only [codegenFuncs, interpFuncs]
      exact agrees_regTrap (eval_remu F)
  | divw =>
      simp only [codegenFuncs, interpFuncs]
      exact agrees_regTrap (eval_divw F)
  | divuw =>
      simp only [codegenFuncs, interpFuncs]
      exact agrees_regTrap (eval_divuw F)
  | remw =>
      simp only [codegenFuncs, interpFuncs]
      exact agrees_regTrap (eval_remw F)
  | remuw =>
      simp only [codegenFuncs, interpFuncs]
      exact agrees_regTrap (eval_remuw F)
  | div => exact agrees_choose (chosen_div F)
  | divu => exact agrees_choose (chosen_divu F)
  | rem => exact agrees_choose (chosen_rem F)
  | lui => exact agrees_lui
  | csrrc | csrrci | csrrs | csrrsi | csrrw | csrrwi => exact agrees_csr
  | flw => exact agrees_flw
  | fld => exact agrees_fld
  | fsw | fsd => exact agrees_fstore _
  | fmaddS | fmsubS | fnmsubS | fnmaddS =>
      simp only [codegenFuncs, interpFuncs]
      refine agrees_fused32 fun a b c => ?_
      rfl
  | fmaddD | fmsubD | fnmsubD | fnmaddD =>
      simp only [codegenFuncs, interpFuncs]
      refine agrees_fused64 fun a b c => ?_
      rfl
  | faddS | fsubS | fmulS | fdivS =>
      simp only [codegenFuncs, interpFuncs]
      refine agrees_arith32 fun a b => ?_
      rfl
  | faddD | fsubD | fmulD | fdivD =>
      simp only [codegenFuncs, interpFuncs]
      refine agrees_arith64 fun a b => ?_
      rfl
  | fminS | fmaxS =>
      simp only [codegenFuncs, interpFuncs]
      refine agrees_arith32 (eval_choice32 fun a b => ?_)
      rfl
  | fminD | fmaxD =>
      simp only [codegenFuncs, interpFuncs]
      refine agrees_arith64 (eval_choice64 fun a b => ?_)
      rfl
  | fcvtSW | fcvtSWu | fcvtSL | fcvtSLu =>
      simp only [codegenFuncs, interpFuncs]
      refine agrees_fp32OfGp fun old x => ?_
      exact ⟨_, rfl, rfl⟩
  | fcvtDW | fcvtDWu | fcvtDL | fcvtDLu | fmvDX =>
      simp only [codegenFuncs, interpFuncs]
      refine agrees_fp64OfGp fun old x => ?_
      exact ⟨_, rfl, rfl⟩
  | fmvWX => exact agrees_fmvWX
  | fmvXW => exact agrees_fmvXW
  | fmvXD =>
      simp only [codegenFuncs, interpFuncs]
      refine agrees_gpOfFp reads_v fun r => ?_
      rfl
  | feqS | fltS | fleS =>
      simp only [codegenFuncs, interpFuncs]
      refine agrees_compare32 fun a b => ?_
      rfl
  | feqD | fltD | fleD =>
      simp only [codegenFuncs, interpFuncs]
      refine agrees_compare64 fun a b => ?_
      rfl
  | fcvtSD =>
      simp only [codegenFuncs, interpFuncs]
      refine agrees_fpOfFp (fun old a => fpSetLow old (F.toSingle a)) reads_d fun old a => ?_
      exact ⟨_, rfl, rfl⟩
  | fcvtDS =>
      simp only [codegenFuncs, interpFuncs]
      refine agrees_fpOfFp (fun _ a => F.toDouble (fpLow a)) reads_f fun old a => ?_
      exact ⟨_, rfl, rfl⟩
  | _ => cases goesOn

end Codegen

end RiscvEmu
