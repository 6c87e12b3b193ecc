import RiscvEmu.Interpret

/-!
# The C that the generator prints

The block generator prints a C function. This module gives the part of C it
uses as data: typed expressions over the locals of a label block, and the lines
of the function. A source text is its list of lines.

The meaning is the plain one of C on a machine with wrapping integers. An
integer is carried as in `CInt`, a float by its bits, and the operations of the
floating-point unit are those of `FloatOps`, the same that the interpreter uses.
A variable that is read without a declaration, a shift by the width or more, a
jump to a label that is not there, and the combinations of operator and type
that the generator does not print have no meaning.

`Start` is a call of the function: it executes the lines, follows every jump and
returns when the lines are exhausted.
-/

set_option autoImplicit false

namespace RiscvEmu

/-! ## Expressions -/

/-- The types of the expressions. -/
inductive CType where
  | int (type : CInt)
  | float
  | double
  deriving DecidableEq, Repr

/-- A value of one of the types. -/
inductive CValue where
  | int (type : CInt) (bits : U64)
  | float (bits : U32)
  | double (bits : U64)
  deriving DecidableEq, Repr

def CValue.type : CValue → CType
  | .int type _ => .int type
  | .float _ => .float
  | .double _ => .double

/-- The local variables of a label block. -/
inductive Local where
  | rs1 | rs2 | rs3 | rd
  deriving DecidableEq, Repr

inductive BinOp where
  | add | sub | mul | div | rem | and | or | xor | shl | shr
  | eq | ne | lt | gt | le | ge | land
  deriving DecidableEq, Repr

inductive CExpr where
  | var (name : Local)
  | lit (type : CInt) (value : U64)
  | neg (e : CExpr)
  | not (e : CExpr)
  | bin (op : BinOp) (a b : CExpr)
  | cast (type : CType) (e : CExpr)
  | cond (test a b : CExpr)
  deriving DecidableEq, Repr

namespace CExpr

/-! The operators are those of C, so that a generator reads as what it prints. -/

instance : Add CExpr := ⟨.bin .add⟩
instance : Sub CExpr := ⟨.bin .sub⟩
instance : Mul CExpr := ⟨.bin .mul⟩
instance : Div CExpr := ⟨.bin .div⟩
instance : Mod CExpr := ⟨.bin .rem⟩
instance : Neg CExpr := ⟨.neg⟩
instance : AndOp CExpr := ⟨.bin .and⟩
instance : OrOp CExpr := ⟨.bin .or⟩
instance : XorOp CExpr := ⟨.bin .xor⟩
instance : HShiftLeft CExpr CExpr CExpr := ⟨.bin .shl⟩
instance : HShiftRight CExpr CExpr CExpr := ⟨.bin .shr⟩
instance : Complement CExpr := ⟨.not⟩

/-- A literal without a suffix is an `int`. -/
instance (n : Nat) : OfNat CExpr n := ⟨.lit .i32 (BitVec.ofNat 64 n)⟩

/-- `(type)e`. -/
def as (e : CExpr) (type : CInt) : CExpr := .cast (.int type) e

/-- `UINT64_MAX`. -/
def uint64Max : CExpr := .lit .u64 (-1)

/-- `INT64_MIN`. -/
def int64Min : CExpr := .lit .i64 (BitVec.intMin 64)

end CExpr

/-- The locals that are declared, with their values. -/
abbrev Locals := Local → Option CValue

/-- The type that the usual arithmetic conversions give to two operands. -/
def CType.common : CType → CType → Option CType
  | .int a, .int b => some (.int (a.common b))
  | .float, .float => some .float
  | .double, .double => some .double
  | _, _ => none

/-- The type of an expression. -/
def CExpr.typeOf (locals : Locals) : CExpr → Option CType
  | .var name => (locals name).map CValue.type
  | .lit type _ => some (.int type)
  | .neg e | .not e =>
      match e.typeOf locals with
      | some (.int type) => some (.int type.promote)
      | other => other
  | .bin op a b =>
      match op with
      | .eq | .ne | .lt | .gt | .le | .ge | .land => some (.int .i32)
      | .shl | .shr =>
          match a.typeOf locals with
          | some (.int type) => some (.int type.promote)
          | _ => none
      | _ => do (← a.typeOf locals).common (← b.typeOf locals)
  | .cast type _ => some type
  | .cond _ a b => do (← a.typeOf locals).common (← b.typeOf locals)

/-- `x / y` at a type. -/
def intDiv (type : CInt) (x y : U64) : Except Abort U64 :=
  if y = 0 ∨ (type.signed ∧ x = type.least ∧ y = -1) then .error .trap
  else .ok (type.conv (if type.signed then x.sdiv y else x / y))

/-- `x % y` at a type. -/
def intRem (type : CInt) (x y : U64) : Except Abort U64 :=
  if y = 0 ∨ (type.signed ∧ x = type.least ∧ y = -1) then .error .trap
  else .ok (type.conv (if type.signed then x.srem y else x % y))

/-- A shift: the result has the promoted type of the left operand. -/
def intShift (op : BinOp) (type : CInt) (x amount : U64) : Except Abort CValue :=
  let x := type.promote.conv x
  if type.promote.width ≤ amount.toNat then .error .undefined
  else match op with
    | .shl => .ok (.int type.promote (type.promote.conv (x <<< amount)))
    | .shr =>
        .ok (.int type.promote (if type.promote.signed then x.sshiftRight' amount else x >>> amount))
    | _ => .error .undefined

/-- The value of a comparison. -/
def CValue.ofBool (b : Bool) : CValue := .int .i32 (cbool b)

/-- A binary operator on operands that have been converted to one integer type. -/
def intOp (op : BinOp) (type : CInt) (x y : U64) : Except Abort CValue :=
  match op with
  | .add => .ok (.int type (type.conv (x + y)))
  | .sub => .ok (.int type (type.conv (x - y)))
  | .mul => .ok (.int type (type.conv (x * y)))
  | .div => CValue.int type <$> intDiv type x y
  | .rem => CValue.int type <$> intRem type x y
  | .and => .ok (.int type (x &&& y))
  | .or => .ok (.int type (x ||| y))
  | .xor => .ok (.int type (x ^^^ y))
  | .eq => .ok (.ofBool (x == y))
  | .ne => .ok (.ofBool (x != y))
  | .lt => .ok (.ofBool (if type.signed then x.slt y else x.ult y))
  | .gt => .ok (.ofBool (if type.signed then y.slt x else y.ult x))
  | .le => .ok (.ofBool (if type.signed then x.sle y else x.ule y))
  | .ge => .ok (.ofBool (if type.signed then y.sle x else y.ule x))
  | _ => .error .undefined

/-- A binary operator on two floats of one width; `value` makes a value of the type. -/
def floatOp {w : Nat} (A : FloatArith w) (value : BitVec w → CValue) (op : BinOp)
    (x y : BitVec w) : Except Abort CValue :=
  match op with
  | .add => .ok (value (A.add x y))
  | .sub => .ok (value (A.sub x y))
  | .mul => .ok (value (A.mul x y))
  | .div => .ok (value (A.div x y))
  | .eq => .ok (.ofBool (A.eq x y))
  | .lt => .ok (.ofBool (A.lt x y))
  | .gt => .ok (.ofBool (A.gt x y))
  | .le => .ok (.ofBool (A.le x y))
  | _ => .error .undefined

/-- Whether a value counts as true in a condition. -/
def CValue.truth : CValue → Except Abort Bool
  | .int _ bits => .ok (bits != 0)
  | _ => .error .undefined

/-- The conversion to `uint64_t`: the 64 bits that carry an integer are its value there. -/
def CValue.toU64 : CValue → Except Abort U64
  | .int _ bits => .ok bits
  | _ => .error .undefined

section Meaning

variable (F : FloatOps)

/-- The conversion of a value to a type, by a cast or an assignment. -/
def castTo : CType → CValue → Except Abort CValue
  | .int type, .int _ bits => .ok (.int type (type.conv bits))
  | .float, .int type bits => .ok (.float (F.single.ofInt type bits))
  | .double, .int type bits => .ok (.double (F.double.ofInt type bits))
  | .float, .float bits => .ok (.float bits)
  | .double, .float bits => .ok (.double (F.toDouble bits))
  | .float, .double bits => .ok (.float (F.toSingle bits))
  | .double, .double bits => .ok (.double bits)
  | .int _, _ => .error .undefined

/-- A binary operator after the usual conversions of its operands. -/
def binary (op : BinOp) : CValue → CValue → Except Abort CValue
  | .int ta x, .int tb y =>
      match op with
      | .shl | .shr => intShift op ta x y
      | .land => .ok (.ofBool (x != 0 && y != 0))
      | _ =>
          let type := ta.common tb
          intOp op type (type.conv x) (type.conv y)
  | .float x, .float y => floatOp F.single .float op x y
  | .double x, .double y => floatOp F.double .double op x y
  | _, _ => .error .undefined

/-- The value of an expression. -/
def CExpr.eval (locals : Locals) : CExpr → Except Abort CValue
  | .var name =>
      match locals name with
      | some value => .ok value
      | none => .error .undefined
  | .lit type value => .ok (.int type value)
  | .neg e => do
      match ← e.eval locals with
      | .int type bits => return .int type.promote (type.promote.conv (-bits))
      | .float bits => return .float (F.single.neg bits)
      | .double bits => return .double (F.double.neg bits)
  | .not e => do
      match ← e.eval locals with
      | .int type bits => return .int type.promote (type.promote.conv (~~~bits))
      | _ => .error .undefined
  | .bin op a b => do binary F op (← a.eval locals) (← b.eval locals)
  | .cast type e => do castTo F type (← e.eval locals)
  | .cond test a b =>
      match (CExpr.cond test a b).typeOf locals with
      | none => .error .undefined
      | some type => do
          if ← (← test.eval locals).truth then castTo F type (← a.eval locals)
          else castTo F type (← b.eval locals)

/-- The value of an expression as a `uint64_t`. -/
def CExpr.evalU64 (locals : Locals) (e : CExpr) : Except Abort U64 := do
  (← e.eval F locals).toU64

end Meaning

/-! ## Lines -/

/-- The members of the union `fp_reg_t`. -/
inductive FpField where
  | v | w | d | f
  deriving DecidableEq, Repr

def FpField.type : FpField → CType
  | .v => .int .u64
  | .w => .int .u32
  | .d => .double
  | .f => .float

/-- The value of a member. -/
def FpField.read : FpField → U64 → CValue
  | .v, reg => .int .u64 reg
  | .w, reg => .int .u32 ((fpLow reg).setWidth 64)
  | .d, reg => .double reg
  | .f, reg => .float (fpLow reg)

/-- The register after a value of the member's type is assigned to the member. -/
def FpField.write : FpField → U64 → CValue → U64
  | .v, _, .int _ bits => bits
  | .w, reg, .int _ bits => fpSetLow reg (bits.setWidth 32)
  | .d, _, .double bits => bits
  | .f, reg, .float bits => fpSetLow reg bits
  | _, reg, _ => reg

/-- What a `goto` names. -/
inductive Target where
  | insn (pc : U64)
  | finish
  deriving DecidableEq, Repr

/-- The lines of the function. -/
inductive Line where
  /-- `uint64_t x%d = state->gp_regs[%d];` -/
  | loadGp (reg : Reg)
  /-- `fp_reg_t f%d = state->fp_regs[%d];` -/
  | loadFp (reg : Reg)
  /-- `state->gp_regs[%d] = x%d;` -/
  | saveGp (reg : Reg)
  /-- `state->fp_regs[%d] = f%d;` -/
  | saveFp (reg : Reg)
  /-- `insn_%lx: {` and `end:;` -/
  | label (target : Target)
  /-- `}` -/
  | close
  /-- `uint64_t rs1 = x%d;` -/
  | declGp (name : Local) (reg : Reg)
  /-- `uint64_t rs1 = 0;` -/
  | declZero (name : Local)
  /-- `float rs1 = f%d.f;` -/
  | declFp (type : CType) (name : Local) (reg : Reg) (field : FpField)
  /-- `int8_t rd = *(int8_t *)TO_HOST(addr);` -/
  | declLoad (type : CInt) (name : Local) (addr : CExpr)
  /-- `if (..) { rd = ..; } else if (..) { rd = ..; } else { rd = ..; }` -/
  | choose (name : Local) (arms : List (CExpr × CExpr)) (other : CExpr)
  /-- `x%d = ..;` -/
  | setGp (reg : Reg) (value : CExpr)
  /-- `f%d.v = ..;` -/
  | setFp (reg : Reg) (field : FpField) (value : CExpr)
  /-- `*(uint8_t *)TO_HOST(addr) = (uint8_t)rs2;` -/
  | store (type : CInt) (addr : CExpr) (data : Local)
  /-- `if (..) { goto insn_%lx; }` -/
  | ifGoto (test : CExpr) (pc : U64)
  /-- `goto insn_%lx;` and `goto end;` -/
  | goto (target : Target)
  /-- `state->exit_reason = ..;` -/
  | setExit (reason : ExitReason)
  /-- `state->reenter_pc = ..;` -/
  | setReenter (value : CExpr)
  deriving DecidableEq, Repr

/-- A source text. -/
abbrev Source := List Line

/-- `*state` with the guest memory, and the variables of the function that are declared. -/
structure CEnv where
  state : State
  gp : Reg → Option U64
  fp : Reg → Option U64
  locals : Locals

namespace CEnv

/-- A variable of the function. -/
def readVar (value : Option U64) : Except Abort U64 :=
  match value with
  | some bits => .ok bits
  | none => .error .undefined

def setLocal (env : CEnv) (name : Local) (value : CValue) : CEnv :=
  { env with locals := Function.update env.locals name (some value) }

def setGp (env : CEnv) (reg : Reg) (value : U64) : CEnv :=
  { env with gp := Function.update env.gp reg (some value) }

def setFp (env : CEnv) (reg : Reg) (value : U64) : CEnv :=
  { env with fp := Function.update env.fp reg (some value) }

def withState (env : CEnv) (state : State) : CEnv := { env with state := state }

end CEnv

section Meaning

variable (F : FloatOps)

/-- The expression that an `if` chain selects. -/
def selectArm (locals : Locals) : List (CExpr × CExpr) → CExpr → Except Abort CExpr
  | [], other => .ok other
  | (test, value) :: arms, other => do
      if ← (← test.eval F locals).truth then return value
      else selectArm locals arms other

/-- Execute one line; it may end in a jump. -/
def execLine (env : CEnv) : Line → Except Abort (CEnv × Option Target)
  | .loadGp reg => .ok (env.setGp reg (env.state.gpRegs reg), none)
  | .loadFp reg => .ok (env.setFp reg (env.state.fpRegs reg), none)
  | .saveGp reg => do
      return (env.withState (env.state.setGp reg (← CEnv.readVar (env.gp reg))), none)
  | .saveFp reg => do
      return (env.withState (env.state.setFp reg (← CEnv.readVar (env.fp reg))), none)
  -- a label block opens a scope of its own
  | .label _ => .ok ({ env with locals := fun _ => none }, none)
  | .close => .ok (env, none)
  | .declGp name reg => do
      return (env.setLocal name (.int .u64 (← CEnv.readVar (env.gp reg))), none)
  | .declZero name => .ok (env.setLocal name (.int .u64 0), none)
  | .declFp type name reg field => do
      return (env.setLocal name (← castTo F type (field.read (← CEnv.readVar (env.fp reg)))), none)
  | .declLoad type name addr => do
      let a ← addr.evalU64 F env.locals
      return (env.setLocal name (.int type (type.load env.state.mem a)), none)
  | .choose name arms other => do
      let value ← (← selectArm F env.locals arms other).evalU64 F env.locals
      return (env.setLocal name (.int .u64 value), none)
  | .setGp reg value => do
      let _ ← CEnv.readVar (env.gp reg)
      return (env.setGp reg (← value.evalU64 F env.locals), none)
  | .setFp reg field value => do
      let old ← CEnv.readVar (env.fp reg)
      let new ← castTo F field.type (← value.eval F env.locals)
      return (env.setFp reg (field.write old new), none)
  | .store type addr data => do
      let a ← addr.evalU64 F env.locals
      let value ← ((CExpr.var data).cast (.int type)).evalU64 F env.locals
      return (env.withState (env.state.write type a value), none)
  | .ifGoto test pc => do
      if ← (← test.eval F env.locals).truth then return (env, some (.insn pc))
      else return (env, none)
  | .goto target => .ok (env, some target)
  | .setExit reason => .ok (env.withState { env.state with exitReason := reason }, none)
  | .setReenter value => do
      let pc ← value.evalU64 F env.locals
      return (env.withState { env.state with reenterPc := pc }, none)

/-- Execute lines up to the first jump. -/
def execLines (env : CEnv) : List Line → Except Abort (CEnv × Option Target)
  | [] => .ok (env, none)
  | line :: lines => do
      match ← execLine F env line with
      | (env, some target) => return (env, some target)
      | (env, none) => execLines env lines

/-- The lines from a label on. -/
def findLabel (target : Target) : List Line → Option (List Line)
  | [] => none
  | line :: lines => if line = .label target then some (line :: lines) else findLabel target lines

/-- Execute to the next jump and take it, or return. -/
def sourceIter (source : Source) (at_ : CEnv × List Line) :
    Except Abort ((CEnv × List Line) ⊕ State) := do
  match ← execLines F at_.1 at_.2 with
  | (env, none) => return .inr env.state
  | (env, some target) =>
      match findLabel target source with
      | none => .error .undefined
      | some lines => return .inl (env, lines)

/-- The function before its first line: nothing is declared. -/
def CEnv.enter (s : State) : CEnv := ⟨s, fun _ => none, fun _ => none, fun _ => none⟩

/-- The call `start(&state)` of the function with this source returns. -/
def Start (source : Source) (s s' : State) : Prop :=
  Iteration.Returns (sourceIter F source) (CEnv.enter s, source) s'

end Meaning

end RiscvEmu
