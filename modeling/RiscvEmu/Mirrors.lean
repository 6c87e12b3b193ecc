import RiscvEmu.CodegenEval
import RiscvEmu.Interpret

/-!
# Running a generated block

The generated function keeps the registers that the block uses in variables and
leaves the others in `*state`; `Mirrors` says that the two together hold the
registers of a machine state. This module runs the lines that the macros print
under this relation.

A label block opens a scope, declares its operands and goes on from there;
`Declares` carries the lines that have run, the state they mirror and the locals
they have declared. The prologue establishes `Mirrors` (`runs_prologue`), and the
epilogue stores what is mirrored (`runs_epilogue`).
-/

set_option autoImplicit false

namespace RiscvEmu

/-! ## The variables of the function -/

/-- The variables of the function hold the registers that the block uses; the others
and the memory are in `*state`. -/
structure Mirrors (tracer : Tracer) (env : CEnv) (t : State) : Prop where
  mem : env.state.mem = t.mem
  zero : t.gpRegs 0 = 0
  gp : ∀ reg ∈ tracer.gpUsed, env.gp reg = some (t.gpRegs reg)
  gpRest : ∀ reg, reg ∉ tracer.gpUsed → env.state.gpRegs reg = t.gpRegs reg
  fp : ∀ reg ∈ tracer.fpUsed, env.fp reg = some (t.fpRegs reg)
  fpRest : ∀ reg, reg ∉ tracer.fpUsed → env.state.fpRegs reg = t.fpRegs reg

/-- The environment after a label. -/
abbrev CEnv.opened (env : CEnv) : CEnv := { env with locals := noLocals }

theorem Tracer.mem_regs (reg : Reg) : reg ∈ Tracer.regs :=
  List.mem_map.mpr ⟨reg.toNat, List.mem_range.mpr reg.isLt, by simp⟩

theorem Tracer.mem_gpUsed {tracer : Tracer} {reg : Reg} :
    reg ∈ tracer.gpUsed ↔ reg ≠ 0 ∧ tracer.gpReg reg = true := by
  simp [gpUsed, mem_regs]

theorem Tracer.mem_fpUsed {tracer : Tracer} {reg : Reg} :
    reg ∈ tracer.fpUsed ↔ tracer.fpReg reg = true := by
  simp [fpUsed, mem_regs]

namespace Mirrors

variable {tracer : Tracer} {env : CEnv} {t t' : State} {reg : Reg}

/-- The locals do not matter. -/
theorem opened (m : Mirrors tracer env t) : Mirrors tracer env.opened t :=
  ⟨m.mem, m.zero, m.gp, m.gpRest, m.fp, m.fpRest⟩

theorem setLocal (m : Mirrors tracer env t) (name : Local) (value : CValue) :
    Mirrors tracer (env.setLocal name value) t :=
  ⟨m.mem, m.zero, m.gp, m.gpRest, m.fp, m.fpRest⟩

/-- Only the registers and the memory matter. -/
theorem congr (m : Mirrors tracer env t) (gp : t'.gpRegs = t.gpRegs) (fp : t'.fpRegs = t.fpRegs)
    (mem : t'.mem = t.mem) : Mirrors tracer env t' := by
  constructor
  · rw [mem, m.mem]
  · rw [gp, m.zero]
  · rw [gp]
    exact m.gp
  · rw [gp]
    exact m.gpRest
  · rw [fp]
    exact m.fp
  · rw [fp]
    exact m.fpRest

/-- The exit fields of `*state` do not matter. -/
theorem withExit (m : Mirrors tracer env t) (reason : ExitReason) (pc : U64) :
    Mirrors tracer (env.withState { env.state with exitReason := reason, reenterPc := pc }) t :=
  ⟨m.mem, m.zero, m.gp, m.gpRest, m.fp, m.fpRest⟩

theorem setGp (m : Mirrors tracer env t) (used : reg ∈ tracer.gpUsed) (value : U64) :
    Mirrors tracer (env.setGp reg value) (t.setGp reg value) where
  mem := m.mem
  zero := by
    have other : (0 : Reg) ≠ reg := fun isZero => (Tracer.mem_gpUsed.mp used).1 isZero.symm
    exact (Function.update_of_ne other ..).trans m.zero
  gp r usedR := by
    by_cases same : r = reg
    · subst same
      simp [CEnv.setGp, State.setGp]
    · simp [CEnv.setGp, State.setGp, Function.update_of_ne same, m.gp r usedR]
  gpRest r unused := by
    have other : r ≠ reg := fun same => unused (same ▸ used)
    exact (m.gpRest r unused).trans (Function.update_of_ne other ..).symm
  fp := m.fp
  fpRest := m.fpRest

theorem setFp (m : Mirrors tracer env t) (used : reg ∈ tracer.fpUsed) (value : U64) :
    Mirrors tracer (env.setFp reg value) (t.setFp reg value) where
  mem := m.mem
  zero := m.zero
  gp := m.gp
  gpRest := m.gpRest
  fp r usedR := by
    by_cases same : r = reg
    · subst same
      simp [CEnv.setFp, State.setFp]
    · simp [CEnv.setFp, State.setFp, Function.update_of_ne same, m.fp r usedR]
  fpRest r unused := by
    have other : r ≠ reg := fun same => unused (same ▸ used)
    exact (m.fpRest r unused).trans (Function.update_of_ne other ..).symm

theorem write (m : Mirrors tracer env t) (type : CInt) (addr value : U64) :
    Mirrors tracer (env.withState (env.state.write type addr value)) (t.write type addr value) where
  mem := by
    change type.store env.state.mem addr value = type.store t.mem addr value
    rw [m.mem]
  zero := m.zero
  gp := m.gp
  gpRest := m.gpRest
  fp := m.fp
  fpRest := m.fpRest

end Mirrors

/-! ## Running lines -/

/-- The lines run to their end without a jump. -/
abbrev Runs (F : FloatOps) (env : CEnv) (lines : List Line) (env' : CEnv) : Prop :=
  execLines F env lines = .ok (env', none)

section Lines

variable {F : FloatOps} {env env₁ env₂ : CEnv} {a b : List Line} {abort : Abort}

theorem execLines_append_of_runs (runs : Runs F env a env₁) :
    execLines F env (a ++ b) = execLines F env₁ b := by
  induction a generalizing env with
  | nil =>
      cases runs
      rfl
  | cons line a ih =>
      obtain ⟨⟨env', target⟩, here, rest⟩ := bind_ok.mp runs
      cases target with
      | some target => cases rest
      | none =>
          rw [List.cons_append, execLines, here]
          exact ih rest

/-- Lines that jump do not get to what follows. -/
theorem execLines_append_of_jumps {target : Target}
    (jumps : execLines F env a = .ok (env₁, some target)) :
    execLines F env (a ++ b) = .ok (env₁, some target) := by
  induction a generalizing env with
  | nil => cases jumps
  | cons line a ih =>
      obtain ⟨⟨env', jump⟩, here, rest⟩ := bind_ok.mp jumps
      rw [List.cons_append, execLines, here]
      cases jump with
      | some jump => exact rest
      | none => exact ih rest

theorem execLines_append_of_error (died : execLines F env a = .error abort) :
    execLines F env (a ++ b) = .error abort := by
  induction a generalizing env with
  | nil => cases died
  | cons line a ih =>
      rw [List.cons_append, execLines]
      rcases bind_error.mp died with here | ⟨⟨env', jump⟩, here, rest⟩
      · rw [here]
        rfl
      · rw [here]
        cases jump with
        | some jump => cases rest
        | none => exact ih rest

/-- Lines that follow others are reached when the others do not jump. -/
theorem execLines_append_cases {env' : CEnv} {jump : Option Target}
    (ran : execLines F env (a ++ b) = .ok (env', jump)) :
    (∃ next, jump = some next ∧ execLines F env a = .ok (env', some next)) ∨
      ∃ env₁, execLines F env a = .ok (env₁, none) ∧ execLines F env₁ b = .ok (env', jump) := by
  cases first : execLines F env a with
  | error abort =>
      rw [execLines_append_of_error first] at ran
      cases ran
  | ok result =>
      obtain ⟨env₁, left⟩ := result
      cases left with
      | some next =>
          rw [execLines_append_of_jumps first] at ran
          cases ran
          exact .inl ⟨next, rfl, rfl⟩
      | none =>
          rw [execLines_append_of_runs first] at ran
          exact .inr ⟨env₁, rfl, ran⟩

theorem Runs.append (first : Runs F env a env₁) (second : Runs F env₁ b env₂) :
    Runs F env (a ++ b) env₂ :=
  (execLines_append_of_runs first).trans second

theorem runs_one {line : Line} (here : execLine F env line = .ok (env₁, none)) :
    Runs F env [line] env₁ := by
  rw [Runs, execLines, here]
  rfl

theorem jumps_one {line : Line} {target : Target}
    (here : execLine F env line = .ok (env₁, some target)) :
    execLines F env [line] = .ok (env₁, some target) := by
  rw [execLines, here]
  rfl

theorem execLines_one_error {line : Line} (died : execLine F env line = .error abort) :
    execLines F env [line] = .error abort := by
  rw [execLines, died]
  rfl

theorem findLabel_append {target : Target} (absent : ∀ line ∈ a, line ≠ .label target) :
    findLabel target (a ++ b) = findLabel target b := by
  induction a with
  | nil => rfl
  | cons line a ih =>
      rw [List.cons_append, findLabel, if_neg (absent line (List.mem_cons_self ..))]
      exact ih fun other known => absent other (List.mem_cons_of_mem line known)

end Lines

/-! ## The macros -/

namespace Codegen

variable {F : FloatOps} {tracer : Tracer} {env : CEnv} {t : State} {reg : Reg} {name : Local}

theorem runs_regGet (m : Mirrors tracer env t) (used : tracer.gpReg reg = true) :
    Runs F env (regGet reg name) (env.setLocal name (.int .u64 (t.gpRegs reg))) := by
  by_cases isZero : reg = 0
  · subst isZero
    rw [m.zero]
    exact runs_one rfl
  · rw [regGet, if_neg isZero]
    apply runs_one
    rw [execLine, m.gp reg (Tracer.mem_gpUsed.mpr ⟨isZero, used⟩)]
    rfl

theorem runs_fregGet {type : CType} {field : FpField} {value : CValue} (m : Mirrors tracer env t)
    (used : tracer.fpReg reg = true)
    (converted : castTo F type (field.read (t.fpRegs reg)) = .ok value) :
    Runs F env (fregGet reg name type field) (env.setLocal name value) := by
  apply runs_one
  rw [execLine, m.fp reg (Tracer.mem_fpUsed.mpr used)]
  exact bind_ok.mpr ⟨_, rfl, bind_ok.mpr ⟨value, converted, rfl⟩⟩

theorem runs_memLoad {addr : CExpr} {type : CInt} {a : U64} (m : Mirrors tracer env t)
    (value : addr.evalU64 F env.locals = .ok a) :
    Runs F env (memLoad addr type name) (env.setLocal name (.int type (type.load t.mem a))) := by
  apply runs_one
  rw [execLine, value, ← m.mem]
  rfl

theorem runs_memStore {addr : CExpr} {type : CInt} {data : Local} {a x : U64}
    (m : Mirrors tracer env t) (value : addr.evalU64 F env.locals = .ok a)
    (stored : env.locals data = some (.int .u64 x)) :
    ∃ env', Runs F env (memStore addr type data) env' ∧
      Mirrors tracer env' (t.write type a x) := by
  have converted : ((CExpr.var data).cast (.int type)).evalU64 F env.locals =
      .ok (type.conv x) := by
    rw [CExpr.evalU64, CExpr.eval, CExpr.eval, stored]
    rfl
  have same : t.write type a (type.conv x) = t.write type a x := by
    rw [State.write, CInt.store_conv, State.write]
  refine ⟨_, runs_one ?_, same ▸ m.write type a (type.conv x)⟩
  rw [execLine, value, converted]
  rfl

theorem runs_regSetExpr {value : CExpr} {x : U64} (m : Mirrors tracer env t)
    (used : reg ≠ 0 → tracer.gpReg reg = true) (evaluated : value.evalU64 F env.locals = .ok x) :
    ∃ env', Runs F env (regSetExpr reg value) env' ∧ Mirrors tracer env' (t.writeGp reg x) ∧
      env'.locals = env.locals := by
  by_cases isZero : reg = 0
  · subst isZero
    exact ⟨env, rfl, m, rfl⟩
  · have inUse := Tracer.mem_gpUsed.mpr ⟨isZero, used isZero⟩
    rw [regSetExpr, if_pos isZero, State.writeGp, if_neg isZero]
    refine ⟨_, runs_one ?_, m.setGp inUse x, rfl⟩
    rw [execLine, m.gp reg inUse, evaluated]
    rfl

/-- A register that is set is declared, so only the expression can go wrong. -/
theorem execLines_regSetExpr_error {value : CExpr} {abort : Abort} (m : Mirrors tracer env t)
    (used : tracer.gpReg reg = true) (died : value.evalU64 F env.locals = .error abort)
    (nonzero : reg ≠ 0) : execLines F env (regSetExpr reg value) = .error abort := by
  rw [regSetExpr, if_pos nonzero]
  apply execLines_one_error
  rw [execLine, m.gp reg (Tracer.mem_gpUsed.mpr ⟨nonzero, used⟩), died]
  rfl

theorem runs_fregSetExpr {value : CExpr} {field : FpField} {v : CValue} (m : Mirrors tracer env t)
    (used : tracer.fpReg reg = true)
    (evaluated : (value.eval F env.locals >>= castTo F field.type) = .ok v) :
    ∃ env', Runs F env (fregSetExpr reg value field) env' ∧
      Mirrors tracer env' (t.setFp reg (field.write (t.fpRegs reg) v)) := by
  have inUse := Tracer.mem_fpUsed.mpr used
  obtain ⟨raw, result, converted⟩ := bind_ok.mp evaluated
  refine ⟨_, runs_one ?_, m.setFp inUse _⟩
  rw [execLine, m.fp reg inUse, result]
  exact bind_ok.mpr ⟨_, rfl, bind_ok.mpr ⟨_, rfl, bind_ok.mpr ⟨v, converted, rfl⟩⟩⟩

end Codegen

/-! ## The head of a label block -/

/-- Some lines at the head of a label block run to a state and declare these locals. -/
def Declares (F : FloatOps) (tracer : Tracer) (env : CEnv) (t : State) (lines : List Line)
    (locals : Locals) : Prop :=
  ∃ env', Runs F env.opened lines env' ∧ Mirrors tracer env' t ∧ env'.locals = locals

namespace Declares

open Codegen

variable {F : FloatOps} {tracer : Tracer} {env : CEnv} {t : State} {lines : List Line}
  {locals : Locals} {reg : Reg} {name : Local} {value : CExpr}

theorem start (m : Mirrors tracer env t) : Declares F tracer env t [] noLocals :=
  ⟨env.opened, rfl, m.opened, rfl⟩

theorem zero (d : Declares F tracer env t lines locals) : t.gpRegs 0 = 0 := by
  obtain ⟨_, _, m, _⟩ := d
  exact m.zero

theorem congr {t' : State} (d : Declares F tracer env t lines locals) (gp : t'.gpRegs = t.gpRegs)
    (fp : t'.fpRegs = t.fpRegs) (mem : t'.mem = t.mem) :
    Declares F tracer env t' lines locals := by
  obtain ⟨env', runs, m, declared⟩ := d
  exact ⟨env', runs, m.congr gp fp mem, declared⟩

theorem regGet (d : Declares F tracer env t lines locals) (used : tracer.gpReg reg = true) :
    Declares F tracer env t (lines ++ regGet reg name)
      (locals.set name (.int .u64 (t.gpRegs reg))) := by
  obtain ⟨env', runs, m, rfl⟩ := d
  exact ⟨_, runs.append (runs_regGet m used), m.setLocal .., rfl⟩

theorem fregGet {type : CType} {field : FpField} {read : CValue}
    (d : Declares F tracer env t lines locals) (used : tracer.fpReg reg = true)
    (converted : castTo F type (field.read (t.fpRegs reg)) = .ok read) :
    Declares F tracer env t (lines ++ fregGet reg name type field) (locals.set name read) := by
  obtain ⟨env', runs, m, rfl⟩ := d
  exact ⟨_, runs.append (runs_fregGet m used converted), m.setLocal .., rfl⟩

theorem memLoad {addr : CExpr} {type : CInt} {a : U64} (d : Declares F tracer env t lines locals)
    (evaluated : addr.evalU64 F locals = .ok a) :
    Declares F tracer env t (lines ++ memLoad addr type name)
      (locals.set name (.int type (type.load t.mem a))) := by
  obtain ⟨env', runs, m, rfl⟩ := d
  exact ⟨_, runs.append (runs_memLoad m evaluated), m.setLocal .., rfl⟩

theorem setGp {x : U64} (d : Declares F tracer env t lines locals)
    (used : reg ≠ 0 → tracer.gpReg reg = true) (evaluated : value.evalU64 F locals = .ok x) :
    Declares F tracer env (t.writeGp reg x) (lines ++ regSetExpr reg value) locals := by
  obtain ⟨env', runs, m, rfl⟩ := d
  obtain ⟨env₁, set, mirrors, kept⟩ := runs_regSetExpr m used evaluated
  exact ⟨env₁, runs.append set, mirrors, kept⟩

/-- The lines that leave the block. -/
theorem leave {reason : ExitReason} {pc : U64} (d : Declares F tracer env t lines locals)
    (evaluated : value.evalU64 F locals = .ok pc) :
    ∃ env', execLines F env.opened
        (lines ++ [.setExit reason, .setReenter value, .goto .finish, .close]) =
          .ok (env', some .finish) ∧
      Mirrors tracer env' t ∧ env'.state.exitReason = reason ∧ env'.state.reenterPc = pc := by
  obtain ⟨env', runs, m, rfl⟩ := d
  refine ⟨_, (execLines_append_of_runs runs).trans ?_, m.withExit reason pc, rfl, rfl⟩
  have exit : execLine F env' (.setExit reason) =
      .ok (env'.withState { env'.state with exitReason := reason }, none) := rfl
  have reenter : execLine F (env'.withState { env'.state with exitReason := reason })
      (.setReenter value) = .ok (env'.withState
        { env'.state with exitReason := reason, reenterPc := pc }, none) := by
    rw [execLine]
    exact bind_ok.mpr ⟨pc, evaluated, rfl⟩
  have both : Runs F env' [.setExit reason, .setReenter value] _ :=
    (runs_one exit).append (runs_one reenter)
  exact execLines_append_of_runs both

end Declares

/-! ## Prologue and epilogue -/

section Registers

variable {F : FloatOps} {tracer : Tracer} {env : CEnv} {t : State}

/-- Setting one register and then a list of them is setting the longer list. -/
theorem update_then {α : Type} (reg : Reg) (regs : List Reg) (value old : Reg → α) :
    (fun r => if r ∈ regs then value r else Function.update old reg (value reg) r) =
      fun r => if r ∈ reg :: regs then value r else old r := by
  funext r
  by_cases here : r = reg
  · subst here
    simp
  · simp [here]

theorem runs_loadGp (regs : List Reg) : Runs F env (regs.map .loadGp)
    { env with gp := fun r => if r ∈ regs then some (env.state.gpRegs r) else env.gp r } := by
  induction regs generalizing env with
  | nil => simp [Runs, execLines]
  | cons reg regs ih =>
      have rest : Runs F (env.setGp reg (env.state.gpRegs reg)) (regs.map .loadGp) _ := ih
      exact update_then reg regs (fun r => some (env.state.gpRegs r)) env.gp ▸ rest

theorem runs_loadFp (regs : List Reg) : Runs F env (regs.map .loadFp)
    { env with fp := fun r => if r ∈ regs then some (env.state.fpRegs r) else env.fp r } := by
  induction regs generalizing env with
  | nil => simp [Runs, execLines]
  | cons reg regs ih =>
      have rest : Runs F (env.setFp reg (env.state.fpRegs reg)) (regs.map .loadFp) _ := ih
      exact update_then reg regs (fun r => some (env.state.fpRegs r)) env.fp ▸ rest

theorem runs_saveGp {regs : List Reg} {value : Reg → U64}
    (declared : ∀ r ∈ regs, env.gp r = some (value r)) : Runs F env (regs.map .saveGp)
      (env.withState { env.state with
        gpRegs := fun r => if r ∈ regs then value r else env.state.gpRegs r }) := by
  induction regs generalizing env with
  | nil => simp [Runs, execLines, CEnv.withState]
  | cons reg regs ih =>
      have here : execLine F env (.saveGp reg) =
          .ok (env.withState (env.state.setGp reg (value reg)), none) := by
        rw [execLine, declared reg (List.mem_cons_self ..)]
        rfl
      have rest : Runs F (env.withState (env.state.setGp reg (value reg))) (regs.map .saveGp) _ :=
        ih fun r known => declared r (List.mem_cons_of_mem reg known)
      exact (runs_one here).append (update_then reg regs value env.state.gpRegs ▸ rest)

theorem runs_saveFp {regs : List Reg} {value : Reg → U64}
    (declared : ∀ r ∈ regs, env.fp r = some (value r)) : Runs F env (regs.map .saveFp)
      (env.withState { env.state with
        fpRegs := fun r => if r ∈ regs then value r else env.state.fpRegs r }) := by
  induction regs generalizing env with
  | nil => simp [Runs, execLines, CEnv.withState]
  | cons reg regs ih =>
      have here : execLine F env (.saveFp reg) =
          .ok (env.withState (env.state.setFp reg (value reg)), none) := by
        rw [execLine, declared reg (List.mem_cons_self ..)]
        rfl
      have rest : Runs F (env.withState (env.state.setFp reg (value reg))) (regs.map .saveFp) _ :=
        ih fun r known => declared r (List.mem_cons_of_mem reg known)
      exact (runs_one here).append (update_then reg regs value env.state.fpRegs ▸ rest)

/-- **The prologue** loads the registers of the state. -/
theorem runs_prologue (tracer : Tracer) {s : State} (zero : s.gpRegs 0 = 0) :
    ∃ env, Runs F (CEnv.enter s) tracer.prologue env ∧ Mirrors tracer env s := by
  refine ⟨_, (runs_loadGp tracer.gpUsed).append (runs_loadFp tracer.fpUsed), ?_⟩
  constructor
  · rfl
  · exact zero
  · intro reg used
    exact if_pos used
  · intro reg unused
    rfl
  · intro reg used
    exact if_pos used
  · intro reg unused
    rfl

/-- **The epilogue** stores the registers that are mirrored. -/
theorem runs_epilogue (m : Mirrors tracer env t) :
    ∃ env', Runs F env (.label .finish :: tracer.epilogue) env' ∧ SameGuest env'.state t ∧
      env'.state.exitReason = env.state.exitReason ∧
      env'.state.reenterPc = env.state.reenterPc := by
  let saved : State := { env.state with
    gpRegs := fun r => if r ∈ tracer.gpUsed then t.gpRegs r else env.state.gpRegs r }
  have label : Runs F env [.label .finish] env.opened := runs_one rfl
  have gp : Runs F env.opened (tracer.gpUsed.map .saveGp) (env.opened.withState saved) :=
    runs_saveGp m.gp
  have fp : Runs F (env.opened.withState saved) (tracer.fpUsed.map .saveFp) _ := runs_saveFp m.fp
  refine ⟨_, label.append (gp.append fp), ⟨?_, ?_, m.mem⟩, rfl, rfl⟩
  · funext reg
    by_cases used : reg ∈ tracer.gpUsed
    · exact if_pos used
    · exact (if_neg used).trans (m.gpRest reg used)
  · funext reg
    by_cases used : reg ∈ tracer.fpUsed
    · exact if_pos used
    · exact (if_neg used).trans (m.fpRest reg used)

end Registers

end RiscvEmu
