import RiscvEmu.CLang

/-!
# Literals with a sign

C has no negative literals: what is printed for a negative number reads as a minus in front of a
literal. Folding the minus into the literal does not change what an expression, a line or a
function does (`start_fold`), so two sources that fold to the same lines are the same function.

A literal that is assigned to a register is taken as unsigned, as the assignment converts it.
-/

set_option autoImplicit false

namespace RiscvEmu

/-! ## Expressions -/

/-- The minus in front of an expression. -/
def CExpr.negate : CExpr → CExpr
  | .lit .i64 value => .lit .i64 (-value)
  | .lit .u64 value => .lit .u64 (-value)
  | e => .neg e

def CExpr.fold : CExpr → CExpr
  | .var name => .var name
  | .lit type value => .lit type value
  | .neg e => e.fold.negate
  | .not e => .not e.fold
  | .bin op a b => .bin op a.fold b.fold
  | .cast type e => .cast type e.fold
  | .cond test a b => .cond test.fold a.fold b.fold

/-- A literal that is converted to `uint64_t`. -/
def CExpr.unsigned : CExpr → CExpr
  | .lit .i64 value => .lit .u64 value
  | e => e

section Expressions

variable {F : FloatOps} {locals : Locals}

theorem CExpr.typeOf_negate (e : CExpr) : e.negate.typeOf locals = (CExpr.neg e).typeOf locals := by
  unfold CExpr.negate
  split <;> rfl

theorem CExpr.eval_negate (e : CExpr) : e.negate.eval F locals = (CExpr.neg e).eval F locals := by
  unfold CExpr.negate
  split <;> rfl

@[simp] theorem CExpr.typeOf_fold (e : CExpr) : e.fold.typeOf locals = e.typeOf locals := by
  induction e with
  | var | lit | cast => rfl
  | neg e ih => rw [fold, typeOf_negate, typeOf, typeOf, ih]
  | not e ih => rw [fold, typeOf, typeOf, ih]
  | bin op a b ihA ihB => cases op <;> simp only [fold, typeOf, ihA, ihB]
  | cond test a b _ ihA ihB => rw [fold, typeOf, typeOf, ihA, ihB]

/-- **Folding keeps the value.** -/
@[simp] theorem CExpr.eval_fold (e : CExpr) : e.fold.eval F locals = e.eval F locals := by
  induction e with
  | var | lit => rfl
  | neg e ih => rw [fold, eval_negate, eval, eval, ih]
  | not e ih => rw [fold, eval, eval, ih]
  | bin op a b ihA ihB => rw [fold, eval, eval, ihA, ihB]
  | cast type e ih => rw [fold, eval, eval, ih]
  | cond test a b ihT ihA ihB =>
      have type : (CExpr.cond test a b).fold.typeOf locals = (CExpr.cond test a b).typeOf locals :=
        typeOf_fold _
      rw [fold] at type ⊢
      rw [eval, eval, type, ihT, ihA, ihB]

@[simp] theorem CExpr.evalU64_fold (e : CExpr) : e.fold.evalU64 F locals = e.evalU64 F locals := by
  rw [evalU64, evalU64, eval_fold]

@[simp] theorem CExpr.evalU64_unsigned (e : CExpr) :
    e.unsigned.evalU64 F locals = e.evalU64 F locals := by
  unfold CExpr.unsigned
  split <;> rfl

end Expressions

/-! ## Lines -/

/-- An arm of an `if` chain. -/
def foldArm (arm : CExpr × CExpr) : CExpr × CExpr := (arm.1.fold, arm.2.fold)

def Line.fold : Line → Line
  | .declLoad type name addr => .declLoad type name addr.fold
  | .choose name arms other => .choose name (arms.map foldArm) other.fold
  | .setGp reg value => .setGp reg value.fold.unsigned
  | .setFp reg field value => .setFp reg field value.fold
  | .store type addr data => .store type addr.fold data
  | .ifGoto test pc => .ifGoto test.fold pc
  | .setReenter value => .setReenter value.fold
  | line => line

/-- Two sources whose literals are the same. -/
def SameLiterals (a b : Source) : Prop := a.map Line.fold = b.map Line.fold

section Lines

variable {F : FloatOps} {locals : Locals}

theorem selectArm_fold (arms : List (CExpr × CExpr)) (other : CExpr) :
    selectArm F locals (arms.map foldArm) other.fold =
      CExpr.fold <$> selectArm F locals arms other := by
  induction arms with
  | nil => rfl
  | cons arm arms ih =>
      rw [List.map_cons, selectArm, selectArm, ih]
      simp only [foldArm, CExpr.eval_fold]
      cases arm.1.eval F locals with
      | error => rfl
      | ok value =>
          cases truth : value.truth with
          | error => simp only [bind, Except.bind, truth, Functor.map, Except.map]
          | ok holds => cases holds <;> simp only [bind, Except.bind, truth] <;> rfl

/-- **Folding keeps what a line does.** -/
@[simp] theorem execLine_fold (env : CEnv) (line : Line) :
    execLine F env line.fold = execLine F env line := by
  cases line with
  | choose name arms other =>
      simp only [Line.fold, execLine, selectArm_fold]
      cases selectArm F env.locals arms other with
      | error => rfl
      | ok value => simp only [Functor.map, Except.map, bind, Except.bind, CExpr.evalU64_fold]
  | _ => simp only [Line.fold, execLine, CExpr.evalU64_fold, CExpr.eval_fold,
      CExpr.evalU64_unsigned]

theorem execLines_fold (env : CEnv) (lines : List Line) :
    execLines F env (lines.map Line.fold) = execLines F env lines := by
  induction lines generalizing env with
  | nil => rfl
  | cons line lines ih =>
      rw [List.map_cons, execLines, execLines, execLine_fold]
      cases execLine F env line with
      | error => rfl
      | ok result =>
          obtain ⟨env', target⟩ := result
          cases target with
          | none => exact ih env'
          | some => rfl

theorem Line.fold_label {line : Line} {target : Target} :
    line.fold = .label target ↔ line = .label target := by
  cases line <;> simp [Line.fold]

theorem findLabel_fold (target : Target) (lines : List Line) :
    findLabel target (lines.map Line.fold) = (findLabel target lines).map (List.map Line.fold) := by
  induction lines with
  | nil => rfl
  | cons line lines ih =>
      rw [List.map_cons, findLabel, findLabel, ih]
      by_cases here : line = .label target
      · rw [if_pos here, if_pos (Line.fold_label.mpr here)]
        rfl
      · rw [if_neg here, if_neg (fun there => here (Line.fold_label.mp there))]

/-- A place in the folded source. -/
def foldedAt (at_ : CEnv × List Line) : CEnv × List Line := (at_.1, at_.2.map Line.fold)

theorem sourceIter_fold (source : Source) (at_ : CEnv × List Line) :
    sourceIter F (source.map Line.fold) (foldedAt at_) =
      (sourceIter F source at_).map (Sum.map foldedAt id) := by
  rw [sourceIter, sourceIter, foldedAt, execLines_fold]
  cases execLines F at_.1 at_.2 with
  | error => rfl
  | ok result =>
      obtain ⟨env, target⟩ := result
      cases target with
      | none => rfl
      | some target =>
          simp only [bind, Except.bind, findLabel_fold]
          cases findLabel target source <;> rfl

/-- **Folding keeps what a function does.** -/
theorem start_fold (source : Source) (s s' : State) :
    Start F (source.map Line.fold) s s' ↔ Start F source s s' :=
  Iteration.returns_image (s := (CEnv.enter s, source)) foldedAt (sourceIter_fold source)

theorem SameLiterals.start {a b : Source} (same : SameLiterals a b) (s s' : State) :
    Start F a s s' ↔ Start F b s s' := by
  rw [← start_fold a, same, start_fold b]

end Lines

end RiscvEmu
