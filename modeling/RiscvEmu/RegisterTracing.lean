import RiscvEmu.BlockGraph
import RiscvEmu.Mirrors

/-!
# Register tracing

A generated function keeps the registers of the guest in variables `x%d` and `f%d`. The
tracer collects the registers that the generators name, the prologue loads their
variables from the state and the epilogue stores them back. Each generator names its
registers in a call apart from the lines that it prints.

`Covers` says of some lines that every variable in them is among given registers and
none is `x0`. Every generator covers its lines with the registers it names
(`codegenFuncs_covers`), so the tracer covers the body.

A run of the function is followed by `Keeps`: a line of the body changes the variables
that occur in the body and no register of the state. The epilogue is the last thing
that is executed, whatever way the body is left.

* `machineGenblock_traced`: tracing is sound, for the text and for every run.
-/

set_option autoImplicit false

namespace RiscvEmu

open Codegen

/-! ## Variables of a line -/

/-- The variables `x%d` in a line. -/
def Line.gpVars : Line → List Reg
  | .loadGp reg | .saveGp reg | .declGp _ reg | .setGp reg _ => [reg]
  | _ => []

/-- The variables `f%d` in a line. -/
def Line.fpVars : Line → List Reg
  | .loadFp reg | .saveFp reg | .declFp _ _ reg _ | .setFp reg _ _ => [reg]
  | _ => []

/-- The line moves a register between the state and its variable. -/
def Line.transfers : Line → Bool
  | .loadGp _ | .loadFp _ | .saveGp _ | .saveFp _ => true
  | _ => false

/-- A variable `x%d` occurs in the lines. -/
def OccursGp (lines : List Line) (reg : Reg) : Prop := ∃ line ∈ lines, reg ∈ line.gpVars

/-- A variable `f%d` occurs in the lines. -/
def OccursFp (lines : List Line) (reg : Reg) : Prop := ∃ line ∈ lines, reg ∈ line.fpVars

/-- A source whose prologue loads some registers and whose epilogue stores the same ones:
these are all whose variables occur in the body, and `x0` occurs nowhere. -/
structure Traced (gp fp : List Reg) (body : List Line) (source : Source) : Prop where
  source_eq : source = gp.map .loadGp ++ fp.map .loadFp ++ body ++
    .label .finish :: (gp.map .saveGp ++ fp.map .saveFp)
  /-- No variable is declared twice. -/
  once : gp.Nodup ∧ fp.Nodup
  gp : ∀ reg, OccursGp body reg → reg ∈ gp
  fp : ∀ reg, OccursFp body reg → reg ∈ fp
  zero : ¬ OccursGp source 0
  body : ∀ line ∈ body, line.transfers = false

/-! ## The registers that a generator names -/

/-- The variables of a line are among some registers, and none is `x0`. -/
structure Line.Covered (gp fp : List Reg) (line : Line) : Prop where
  body : line.transfers = false
  gp : ∀ reg ∈ line.gpVars, reg ≠ 0 ∧ reg ∈ gp
  fp : ∀ reg ∈ line.fpVars, reg ∈ fp

def Covers (gp fp : List Reg) (lines : List Line) : Prop := ∀ line ∈ lines, line.Covered gp fp

section Covering

variable {gp fp : List Reg} {lines lines' : List Line} {line : Line}

@[simp] theorem covers_nil : Covers gp fp [] := List.forall_mem_nil _

@[simp] theorem covers_cons :
    Covers gp fp (line :: lines) ↔ line.Covered gp fp ∧ Covers gp fp lines := List.forall_mem_cons

@[simp] theorem covers_append :
    Covers gp fp (lines ++ lines') ↔ Covers gp fp lines ∧ Covers gp fp lines' :=
  List.forall_mem_append

/-- A line without variables. -/
theorem Line.Covered.bare (body : line.transfers = false) (gpVars : line.gpVars = [])
    (fpVars : line.fpVars = []) : line.Covered gp fp := by
  refine ⟨body, ?_, ?_⟩
  · rw [gpVars]
    exact List.forall_mem_nil _
  · rw [fpVars]
    exact List.forall_mem_nil _

theorem covers_regGet {reg : Reg} (name : Local) (named : reg ∈ gp) :
    Covers gp fp (regGet reg name) := by
  unfold regGet
  split_ifs with isZero
  · rw [covers_cons]
    exact ⟨.bare rfl rfl rfl, covers_nil⟩
  · rw [covers_cons]
    refine ⟨⟨rfl, ?_, List.forall_mem_nil _⟩, covers_nil⟩
    intro other member
    rw [List.mem_singleton.mp member]
    exact ⟨isZero, named⟩

theorem covers_regSetExpr {reg : Reg} (value : CExpr) (named : reg ∈ gp) :
    Covers gp fp (regSetExpr reg value) := by
  unfold regSetExpr
  split_ifs with nonzero
  · rw [covers_cons]
    refine ⟨⟨rfl, ?_, List.forall_mem_nil _⟩, covers_nil⟩
    intro other member
    rw [List.mem_singleton.mp member]
    exact ⟨nonzero, named⟩
  · exact covers_nil

theorem covers_fregGet {reg : Reg} (name : Local) (type : CType) (field : FpField)
    (named : reg ∈ fp) : Covers gp fp (fregGet reg name type field) := by
  rw [fregGet, covers_cons]
  refine ⟨⟨rfl, List.forall_mem_nil _, ?_⟩, covers_nil⟩
  intro other member
  rw [List.mem_singleton.mp member]
  exact named

theorem covers_fregSetExpr {reg : Reg} (value : CExpr) (field : FpField) (named : reg ∈ fp) :
    Covers gp fp (fregSetExpr reg value field) := by
  rw [fregSetExpr, covers_cons]
  refine ⟨⟨rfl, List.forall_mem_nil _, ?_⟩, covers_nil⟩
  intro other member
  rw [List.mem_singleton.mp member]
  exact named

theorem covers_memLoad (addr : CExpr) (type : CInt) (name : Local) :
    Covers gp fp (memLoad addr type name) := by
  rw [memLoad, covers_cons]
  exact ⟨.bare rfl rfl rfl, covers_nil⟩

theorem covers_memStore (addr : CExpr) (type : CInt) (data : Local) :
    Covers gp fp (memStore addr type data) := by
  rw [memStore, covers_cons]
  exact ⟨.bare rfl rfl rfl, covers_nil⟩

theorem Covers.mono {gp' fp' : List Reg} (covers : Covers gp fp lines)
    (gpSub : ∀ reg ∈ gp, reg ≠ 0 → reg ∈ gp') (fpSub : ∀ reg ∈ fp, reg ∈ fp') :
    Covers gp' fp' lines := by
  intro line member
  obtain ⟨body, inGp, inFp⟩ := covers line member
  refine ⟨body, fun reg var => ?_, fun reg var => fpSub reg (inFp reg var)⟩
  obtain ⟨nonzero, named⟩ := inGp reg var
  exact ⟨nonzero, gpSub reg named nonzero⟩

end Covering

namespace Codegen

/-- A generator names the registers of its lines. -/
def Names (gen : Generator) : Prop := ∀ insn pc e, gen insn pc = .ok e → Covers e.gp e.fp e.lines

section Generators

variable {insn : Insn} {gp fp : List Reg}

theorem names_empty : Names funcEmpty := by
  rintro insn pc e ⟨⟩
  exact covers_nil

theorem names_load (typ : CInt) : Names (funcLoad typ) := by
  rintro insn pc e ⟨⟩
  rw [covers_append, covers_append]
  exact ⟨⟨covers_regGet _ (by simp), covers_memLoad _ _ _⟩, covers_regSetExpr _ (by simp)⟩

theorem names_imm (expr : Insn → CExpr) : Names (funcImm expr) := by
  rintro insn pc e ⟨⟩
  rw [covers_append]
  exact ⟨covers_regGet _ (by simp), covers_regSetExpr _ (by simp)⟩

theorem names_auipc : Names funcAuipc := by
  rintro insn pc e ⟨⟩
  exact covers_regSetExpr _ (by simp)

theorem names_store (typ : CInt) : Names (funcStore typ) := by
  rintro insn pc e ⟨⟩
  rw [covers_append, covers_append]
  exact ⟨⟨covers_regGet _ (by simp), covers_regGet _ (by simp)⟩, covers_memStore _ _ _⟩

theorem names_reg (expr : CExpr) : Names (funcReg expr) := by
  rintro insn pc e ⟨⟩
  rw [covers_append, covers_append]
  exact ⟨⟨covers_regGet _ (by simp), covers_regGet _ (by simp)⟩, covers_regSetExpr _ (by simp)⟩

theorem names_choose (arms : List (CExpr × CExpr)) (other : CExpr) :
    Names (funcChoose arms other) := by
  rintro insn pc e ⟨⟩
  rw [covers_append, covers_append, covers_append, covers_cons, covers_cons]
  exact ⟨⟨⟨covers_regGet _ (by simp), covers_regGet _ (by simp)⟩,
    .bare rfl rfl rfl, .bare rfl rfl rfl, covers_nil⟩, covers_regSetExpr _ (by simp)⟩

theorem names_lui : Names funcLui := by
  rintro insn pc e ⟨⟩
  exact covers_regSetExpr _ (by simp)

theorem names_branch (typ : CInt) (op : BinOp) : Names (funcBranch typ op) := by
  rintro insn pc e ⟨⟩
  rw [covers_append, covers_append, covers_cons]
  exact ⟨⟨covers_regGet _ (by simp), covers_regGet _ (by simp)⟩, .bare rfl rfl rfl, covers_nil⟩

theorem names_jalr : Names funcJalr := by
  rintro insn pc e ⟨⟩
  rw [covers_append, covers_append]
  refine ⟨⟨covers_regGet _ (by simp), covers_regSetExpr _ (by simp)⟩, ?_⟩
  simp only [covers_cons, covers_nil, and_true]
  exact ⟨.bare rfl rfl rfl, .bare rfl rfl rfl, .bare rfl rfl rfl, .bare rfl rfl rfl⟩

theorem names_jal : Names funcJal := by
  rintro insn pc e ⟨⟩
  rw [covers_append, covers_cons, covers_cons]
  exact ⟨covers_regSetExpr _ (by simp), .bare rfl rfl rfl, .bare rfl rfl rfl, covers_nil⟩

theorem names_ecall : Names funcEcall := by
  rintro insn pc e ⟨⟩
  simp only [covers_cons, covers_nil, and_true]
  exact ⟨.bare rfl rfl rfl, .bare rfl rfl rfl, .bare rfl rfl rfl, .bare rfl rfl rfl⟩

theorem names_interp : Names funcInterp := by
  rintro insn pc e ⟨⟩
  simp only [covers_cons, covers_nil, and_true]
  exact ⟨.bare rfl rfl rfl, .bare rfl rfl rfl, .bare rfl rfl rfl, .bare rfl rfl rfl⟩

/-- The CSR instructions name `rd` when it is not `x0`, which is when they assign it. -/
theorem names_csr : Names funcCsr := by
  intro insn pc e generated
  simp only [funcCsr] at generated
  split at generated
  · cases generated
    by_cases nonzero : insn.rd ≠ 0
    · apply covers_regSetExpr
      rw [if_pos nonzero]
      exact List.mem_singleton_self _
    · rw [regSetExpr, if_neg nonzero]
      exact covers_nil
  · cases generated

theorem names_fload (typ : CInt) (expr : CExpr) : Names (funcFload typ expr) := by
  rintro insn pc e ⟨⟩
  rw [covers_append, covers_append]
  exact ⟨⟨covers_regGet _ (by simp), covers_memLoad _ _ _⟩, covers_fregSetExpr _ _ (by simp)⟩

theorem names_fstore (typ : CInt) : Names (funcFstore typ) := by
  rintro insn pc e ⟨⟩
  rw [covers_append, covers_append]
  exact ⟨⟨covers_regGet _ (by simp), covers_fregGet _ _ _ (by simp)⟩, covers_memStore _ _ _⟩

theorem names_fused (type : CType) (field : FpField) (expr : CExpr) :
    Names (funcFused type field expr) := by
  rintro insn pc e ⟨⟩
  rw [covers_append, covers_append, covers_append]
  exact ⟨⟨⟨covers_fregGet _ _ _ (by simp), covers_fregGet _ _ _ (by simp)⟩,
    covers_fregGet _ _ _ (by simp)⟩, covers_fregSetExpr _ _ (by simp)⟩

theorem names_arith (type : CType) (field : FpField) (expr : CExpr) :
    Names (funcArith type field expr) := by
  rintro insn pc e ⟨⟩
  rw [covers_append, covers_append]
  exact ⟨⟨covers_fregGet _ _ _ (by simp), covers_fregGet _ _ _ (by simp)⟩,
    covers_fregSetExpr _ _ (by simp)⟩

theorem names_fpOfGp (expr : CExpr) (field : FpField) : Names (funcFpOfGp expr field) := by
  rintro insn pc e ⟨⟩
  rw [covers_append]
  exact ⟨covers_regGet _ (by simp), covers_fregSetExpr _ _ (by simp)⟩

theorem names_gpOfFp (type : CInt) (field : FpField) (expr : CExpr) :
    Names (funcGpOfFp type field expr) := by
  rintro insn pc e ⟨⟩
  rw [covers_append]
  exact ⟨covers_fregGet _ _ _ (by simp), covers_regSetExpr _ (by simp)⟩

theorem names_compare (type : CType) (field : FpField) (op : BinOp) :
    Names (funcCompare type field op) := by
  rintro insn pc e ⟨⟩
  rw [covers_append, covers_append]
  exact ⟨⟨covers_fregGet _ _ _ (by simp), covers_fregGet _ _ _ (by simp)⟩,
    covers_regSetExpr _ (by simp)⟩

theorem names_fpOfFp (type : CType) (field : FpField) (expr : CExpr) (result : FpField) :
    Names (funcFpOfFp type field expr result) := by
  rintro insn pc e ⟨⟩
  rw [covers_append]
  exact ⟨covers_fregGet _ _ _ (by simp), covers_fregSetExpr _ _ (by simp)⟩

end Generators

/-- **Every generator names its registers.** -/
theorem codegenFuncs_names (type : InsnType) : Names (codegenFuncs type) := by
  cases type with
  | lb | lh | lw | ld | lbu | lhu | lwu => exact names_load _
  | fence | fenceI => exact names_empty
  | addi | slli | slti | sltiu | xori | srli | srai | ori | andi | addiw | slliw | srliw | sraiw =>
      exact names_imm _
  | auipc => exact names_auipc
  | sb | sh | sw | sd => exact names_store _
  | add | sll | slt | sltu | xor | srl | or | and | mul | remu | sub | sra | addw | sllw | srlw
  | mulw | divw | divuw | remw | remuw | subw | sraw => exact names_reg _
  | div | divu | rem => exact names_choose _ _
  | lui => exact names_lui
  | beq | bne | blt | bge | bltu | bgeu => exact names_branch _ _
  | jalr => exact names_jalr
  | jal => exact names_jal
  | ecall => exact names_ecall
  | csrrc | csrrci | csrrs | csrrsi | csrrw | csrrwi => exact names_csr
  | flw | fld => exact names_fload _ _
  | fsw | fsd => exact names_fstore _
  | fmaddS | fmsubS | fnmsubS | fnmaddS | fmaddD | fmsubD | fnmsubD | fnmaddD =>
      exact names_fused _ _ _
  | faddS | fsubS | fmulS | fdivS | fminS | fmaxS | faddD | fsubD | fmulD | fdivD | fminD
  | fmaxD => exact names_arith _ _ _
  | fcvtSW | fcvtSWu | fmvWX | fcvtSL | fcvtSLu | fcvtDW | fcvtDWu | fcvtDL | fcvtDLu | fmvDX =>
      exact names_fpOfGp _ _
  | fmvXW | fmvXD => exact names_gpOfFp _ _ _
  | feqS | fltS | fleS | feqD | fltD | fleD => exact names_compare _ _ _
  | fcvtSD | fcvtDS => exact names_fpOfFp _ _ _ _
  | mulh | mulhsu | mulhu | fsqrtS | fsqrtD | fcvtWS | fcvtWuS | fcvtWD | fcvtWuD | fcvtLS
  | fcvtLuS | fcvtLD | fcvtLuD | fclassS | fclassD | fsgnjS | fsgnjnS | fsgnjxS | fsgnjD
  | fsgnjnD | fsgnjxD => exact names_interp

end Codegen

/-! ## The text of a block -/

section Text

variable {mem : Bytes.Memory} {pc : U64} {visited : List U64} {tracer : Tracer} {source : Source}

theorem Tracer.nodup_gpUsed (tracer : Tracer) : tracer.gpUsed.Nodup :=
  List.Nodup.filter _ (by decide)

theorem Tracer.nodup_fpUsed (tracer : Tracer) : tracer.fpUsed.Nodup :=
  List.Nodup.filter _ (by decide)

/-- The tracer covers a label block. -/
theorem Generated.covers (gen : Generated mem pc visited tracer source) {l : U64}
    (seen : l ∈ visited) : Covers tracer.gpUsed tracer.fpUsed (linesAt mem l) := by
  obtain ⟨block, generated, has⟩ := gen.blocks l seen
  obtain ⟨insn, e, _, emitted, rfl⟩ := blockAt_ok generated
  have emission : Covers tracer.gpUsed tracer.fpUsed e.lines := by
    apply (codegenFuncs_names insn.type insn l e emitted).mono
    · intro reg named nonzero
      exact Tracer.mem_gpUsed.mpr ⟨nonzero, has.1 reg named⟩
    · intro reg named
      exact Tracer.mem_fpUsed.mpr (has.2 reg named)
  have lines : linesAt mem l = (insn.block l e).lines l := by rw [linesAt, generated]
  rw [lines, Block.lines, covers_append, covers_cons]
  refine ⟨⟨.bare rfl rfl rfl, emission⟩, ?_⟩
  cases (insn.block l e).next with
  | none => exact covers_nil
  | some next =>
      rw [covers_cons, covers_cons]
      exact ⟨.bare rfl rfl rfl, .bare rfl rfl rfl, covers_nil⟩

/-- **The text of a block.** -/
theorem Generated.traced (gen : Generated mem pc visited tracer source) :
    Traced tracer.gpUsed tracer.fpUsed (visited.flatMap (linesAt mem)) source := by
  have covers : Covers tracer.gpUsed tracer.fpUsed (visited.flatMap (linesAt mem)) := by
    intro line member
    obtain ⟨l, seen, member⟩ := List.mem_flatMap.mp member
    exact gen.covers seen line member
  refine ⟨?_, ⟨tracer.nodup_gpUsed, tracer.nodup_fpUsed⟩, ?_, ?_, ?_, ?_⟩
  · exact gen.source
  · rintro reg ⟨line, member, occurs⟩
    exact ((covers line member).gp reg occurs).2
  · rintro reg ⟨line, member, occurs⟩
    exact (covers line member).fp reg occurs
  · rintro ⟨line, member, occurs⟩
    have unused : (0 : Reg) ∉ tracer.gpUsed := fun used => (Tracer.mem_gpUsed.mp used).1 rfl
    rw [gen.source] at member
    simp only [Tracer.prologue, Tracer.epilogue, List.mem_append, List.mem_cons, List.mem_map]
      at member
    rcases member with ((⟨reg, used, rfl⟩ | ⟨reg, used, rfl⟩) | inBody) | rfl |
      ⟨reg, used, rfl⟩ | ⟨reg, used, rfl⟩
    · exact unused (List.mem_singleton.mp occurs ▸ used)
    · cases occurs
    · exact ((covers line inBody).gp 0 occurs).1 rfl
    · cases occurs
    · exact unused (List.mem_singleton.mp occurs ▸ used)
    · cases occurs
  · intro line member
    exact (covers line member).body

end Text

/-! ## Runs -/

/-- A run of the function ends with these variables and this state. -/
def Exits (F : FloatOps) (source : Source) (s : State) (last : CEnv) : Prop :=
  ∃ at_, Iteration.Steps (sourceIter F source) (CEnv.enter s, source) at_ ∧
    execLines F at_.1 at_.2 = .ok (last, none)

/-- The registers of the state at an exit: the final values of the variables that occur in
the body, and for the others what they were. -/
structure Stored (body : List Line) (s : State) (last : CEnv) : Prop where
  gpFinal : ∀ reg, OccursGp body reg → last.gp reg = some (last.state.gpRegs reg)
  gpKept : ∀ reg, ¬ OccursGp body reg → last.state.gpRegs reg = s.gpRegs reg
  fpFinal : ∀ reg, OccursFp body reg → last.fp reg = some (last.state.fpRegs reg)
  fpKept : ∀ reg, ¬ OccursFp body reg → last.state.fpRegs reg = s.fpRegs reg

/-- What lines of the body change: variables that occur in it, and no register of the state. -/
structure Keeps (body : List Line) (env env' : CEnv) : Prop where
  gpRegs : env'.state.gpRegs = env.state.gpRegs
  fpRegs : env'.state.fpRegs = env.state.fpRegs
  gp : ∀ reg, ¬ OccursGp body reg → env'.gp reg = env.gp reg
  fp : ∀ reg, ¬ OccursFp body reg → env'.fp reg = env.fp reg
  gpDeclared : ∀ reg, (env.gp reg).isSome → (env'.gp reg).isSome
  fpDeclared : ∀ reg, (env.fp reg).isSome → (env'.fp reg).isSome

section Runs

variable {F : FloatOps} {body lines : List Line} {line : Line} {env env₁ env' : CEnv}
  {target : Option Target}

theorem Keeps.refl : Keeps body env env :=
  ⟨rfl, rfl, fun _ _ => rfl, fun _ _ => rfl, fun _ some' => some', fun _ some' => some'⟩

theorem Keeps.trans (first : Keeps body env env₁) (second : Keeps body env₁ env') :
    Keeps body env env' where
  gpRegs := second.gpRegs.trans first.gpRegs
  fpRegs := second.fpRegs.trans first.fpRegs
  gp reg absent := (second.gp reg absent).trans (first.gp reg absent)
  fp reg absent := (second.fp reg absent).trans (first.fp reg absent)
  gpDeclared reg some' := second.gpDeclared reg (first.gpDeclared reg some')
  fpDeclared reg some' := second.fpDeclared reg (first.fpDeclared reg some')

/-- Nothing but locals, memory and the exit changes. -/
theorem Keeps.of_same (gpRegs : env'.state.gpRegs = env.state.gpRegs)
    (fpRegs : env'.state.fpRegs = env.state.fpRegs) (gp : env'.gp = env.gp)
    (fp : env'.fp = env.fp) : Keeps body env env' :=
  ⟨gpRegs, fpRegs, fun reg _ => congrFun gp reg, fun reg _ => congrFun fp reg,
    fun reg some' => congrFun gp reg ▸ some', fun reg some' => congrFun fp reg ▸ some'⟩

theorem Keeps.setGp {reg : Reg} (value : U64) (occurs : OccursGp body reg) :
    Keeps body env (env.setGp reg value) := by
  refine ⟨rfl, rfl, fun other absent => ?_, fun _ _ => rfl, fun other some' => ?_, fun _ h => h⟩
  · apply Function.update_of_ne
    rintro rfl
    exact absent occurs
  · by_cases here : other = reg
    · subst here
      change (Function.update env.gp other (some value) other).isSome
      rw [Function.update_self]
      rfl
    · change (Function.update env.gp reg (some value) other).isSome
      rw [Function.update_of_ne here]
      exact some'

theorem Keeps.setFp {reg : Reg} (value : U64) (occurs : OccursFp body reg) :
    Keeps body env (env.setFp reg value) := by
  refine ⟨rfl, rfl, fun _ _ => rfl, fun other absent => ?_, fun _ h => h, fun other some' => ?_⟩
  · apply Function.update_of_ne
    rintro rfl
    exact absent occurs
  · by_cases here : other = reg
    · subst here
      change (Function.update env.fp other (some value) other).isSome
      rw [Function.update_self]
      rfl
    · change (Function.update env.fp reg (some value) other).isSome
      rw [Function.update_of_ne here]
      exact some'

/-- **One line of the body.** -/
theorem execLine_keeps (member : line ∈ body) (inside : line.transfers = false)
    (ran : execLine F env line = .ok (env', target)) : Keeps body env env' := by
  cases line with
  | loadGp reg | loadFp reg | saveGp reg | saveFp reg => cases inside
  | label l =>
      cases ran
      exact .of_same rfl rfl rfl rfl
  | close =>
      cases ran
      exact .refl
  | declZero name =>
      cases ran
      exact .of_same rfl rfl rfl rfl
  | goto l =>
      cases ran
      exact .refl
  | setExit reason =>
      cases ran
      exact .of_same rfl rfl rfl rfl
  | declGp name reg =>
      obtain ⟨value, _, ran⟩ := bind_ok.mp ran
      cases ran
      exact .of_same rfl rfl rfl rfl
  | declFp type name reg field =>
      obtain ⟨value, _, ran⟩ := bind_ok.mp ran
      obtain ⟨read, _, ran⟩ := bind_ok.mp ran
      cases ran
      exact .of_same rfl rfl rfl rfl
  | declLoad type name addr =>
      obtain ⟨a, _, ran⟩ := bind_ok.mp ran
      cases ran
      exact .of_same rfl rfl rfl rfl
  | choose name arms other =>
      obtain ⟨arm, _, ran⟩ := bind_ok.mp ran
      obtain ⟨value, _, ran⟩ := bind_ok.mp ran
      cases ran
      exact .of_same rfl rfl rfl rfl
  | setGp reg value =>
      obtain ⟨old, _, ran⟩ := bind_ok.mp ran
      obtain ⟨new, _, ran⟩ := bind_ok.mp ran
      cases ran
      exact .setGp new ⟨_, member, List.mem_singleton_self _⟩
  | setFp reg field value =>
      obtain ⟨old, _, ran⟩ := bind_ok.mp ran
      obtain ⟨read, _, ran⟩ := bind_ok.mp ran
      obtain ⟨new, _, ran⟩ := bind_ok.mp ran
      cases ran
      exact .setFp _ ⟨_, member, List.mem_singleton_self _⟩
  | store type addr data =>
      obtain ⟨a, _, ran⟩ := bind_ok.mp ran
      obtain ⟨value, _, ran⟩ := bind_ok.mp ran
      cases ran
      exact .of_same rfl rfl rfl rfl
  | ifGoto test pc =>
      obtain ⟨value, _, ran⟩ := bind_ok.mp ran
      obtain ⟨taken, _, ran⟩ := bind_ok.mp ran
      cases taken <;> cases ran <;> exact .refl
  | setReenter value =>
      obtain ⟨pc, _, ran⟩ := bind_ok.mp ran
      cases ran
      exact .of_same rfl rfl rfl rfl

/-- Lines of the body, up to the first jump. -/
theorem execLines_keeps (inside : ∀ line ∈ body, line.transfers = false)
    (sub : ∀ line ∈ lines, line ∈ body) (ran : execLines F env lines = .ok (env', target)) :
    Keeps body env env' := by
  induction lines generalizing env with
  | nil =>
      cases ran
      exact .refl
  | cons line lines ih =>
      have member := sub line (List.mem_cons_self ..)
      obtain ⟨⟨env₁, jump⟩, here, rest⟩ := bind_ok.mp ran
      have first := execLine_keeps member (inside line member) here
      cases jump with
      | some jump =>
          cases rest
          exact first
      | none => exact first.trans (ih (fun l known => sub l (List.mem_cons_of_mem line known)) rest)

/-- The lines from a label on are a part of the body with all that follows. -/
theorem findLabel_body {tail found : List Line} {l : Target}
    (absent : ∀ line ∈ tail, line ≠ .label l) (sub : ∀ line ∈ lines, line ∈ body)
    (at_ : findLabel l (lines ++ .label .finish :: tail) = some found) :
    ∃ rest, (∀ line ∈ rest, line ∈ body) ∧ found = rest ++ .label .finish :: tail := by
  induction lines with
  | nil =>
      rw [List.nil_append, findLabel] at at_
      split at at_
      · cases at_
        exact ⟨[], List.forall_mem_nil _, rfl⟩
      · have nowhere : findLabel l (tail ++ []) = none := findLabel_append absent
        rw [List.append_nil] at nowhere
        rw [nowhere] at at_
        cases at_
  | cons line lines ih =>
      rw [List.cons_append, findLabel] at at_
      split at at_
      · cases at_
        exact ⟨line :: lines, sub, rfl⟩
      · exact ih (fun other known => sub other (List.mem_cons_of_mem line known)) at_

/-- A line of the prologue or the epilogue is no label. -/
theorem ne_label {l : Target} (transfers : line.transfers = true) : line ≠ .label l := by
  rintro rfl
  cases transfers

theorem transfers_loads (gp fp : List Reg) :
    ∀ line ∈ gp.map Line.loadGp ++ fp.map Line.loadFp, line.transfers = true := by
  intro line member
  rcases List.mem_append.mp member with member | member
  all_goals
    obtain ⟨reg, -, rfl⟩ := List.mem_map.mp member
    rfl

theorem transfers_saves (gp fp : List Reg) :
    ∀ line ∈ gp.map Line.saveGp ++ fp.map Line.saveFp, line.transfers = true := by
  intro line member
  rcases List.mem_append.mp member with member | member
  all_goals
    obtain ⟨reg, -, rfl⟩ := List.mem_map.mp member
    rfl

end Runs

section Exit

variable {F : FloatOps} {gp fp : List Reg} {body : List Line} {source : Source} {s s' : State}
  {env last : CEnv} {at_ : CEnv × List Line}

/-- The function after its prologue. -/
def CEnv.loaded (s : State) (gp fp : List Reg) : CEnv where
  state := s
  gp reg := if reg ∈ gp then some (s.gpRegs reg) else none
  fp reg := if reg ∈ fp then some (s.fpRegs reg) else none
  locals := fun _ => none

/-- The function after its epilogue. -/
def CEnv.saved (env : CEnv) (gp fp : List Reg) : CEnv where
  state := { env.state with
    gpRegs := fun reg => if reg ∈ gp then (env.gp reg).getD 0 else env.state.gpRegs reg
    fpRegs := fun reg => if reg ∈ fp then (env.fp reg).getD 0 else env.state.fpRegs reg }
  gp := env.gp
  fp := env.fp
  locals := fun _ => none

theorem CEnv.loaded_gp {reg : Reg} (used : reg ∈ gp) :
    (CEnv.loaded s gp fp).gp reg = some (s.gpRegs reg) := if_pos used

theorem CEnv.loaded_fp {reg : Reg} (used : reg ∈ fp) :
    (CEnv.loaded s gp fp).fp reg = some (s.fpRegs reg) := if_pos used

theorem runs_loads (s : State) (gp fp : List Reg) :
    Runs F (CEnv.enter s) (gp.map .loadGp ++ fp.map .loadFp) (.loaded s gp fp) :=
  (runs_loadGp gp).append (runs_loadFp fp)

/-- The variables that the prologue loaded stay declared. -/
theorem Keeps.gp_eq (keeps : Keeps body (.loaded s gp fp) env) {reg : Reg} (used : reg ∈ gp) :
    env.gp reg = some ((env.gp reg).getD 0) := by
  have loaded : ((CEnv.loaded s gp fp).gp reg).isSome := by
    rw [CEnv.loaded_gp used]
    rfl
  obtain ⟨value, here⟩ := Option.isSome_iff_exists.mp (keeps.gpDeclared reg loaded)
  rw [here, Option.getD_some]

theorem Keeps.fp_eq (keeps : Keeps body (.loaded s gp fp) env) {reg : Reg} (used : reg ∈ fp) :
    env.fp reg = some ((env.fp reg).getD 0) := by
  have loaded : ((CEnv.loaded s gp fp).fp reg).isSome := by
    rw [CEnv.loaded_fp used]
    rfl
  obtain ⟨value, here⟩ := Option.isSome_iff_exists.mp (keeps.fpDeclared reg loaded)
  rw [here, Option.getD_some]

theorem runs_saves (keeps : Keeps body (.loaded s gp fp) env) :
    Runs F env (.label .finish :: (gp.map .saveGp ++ fp.map .saveFp)) (env.saved gp fp) := by
  have label : Runs F env [.label .finish] env.opened := runs_one rfl
  have gpSaved : Runs F env.opened (gp.map .saveGp) _ := runs_saveGp fun reg used => keeps.gp_eq used
  exact label.append (gpSaved.append (runs_saveFp fun reg used => keeps.fp_eq used))

/-- A jump leads to lines of the body. -/
theorem Traced.found (traced : Traced gp fp body source) {l : Target} {lines : List Line}
    (found : findLabel l source = some lines) : ∃ rest, (∀ line ∈ rest, line ∈ body) ∧
      lines = rest ++ .label .finish :: (gp.map .saveGp ++ fp.map .saveFp) := by
  have split := traced.source_eq
  rw [List.append_assoc] at split
  rw [split, findLabel_append fun line member => ne_label (transfers_loads gp fp line member)]
    at found
  exact findLabel_body (fun line member => ne_label (transfers_saves gp fp line member))
    (fun _ member => member) found

/-- **Where a run is.** It goes on as from lines of the body, in variables that lines of the
body have made of the loaded ones. -/
theorem Traced.steps (traced : Traced gp fp body source)
    (steps : Iteration.Steps (sourceIter F source) (CEnv.enter s, source) at_) :
    ∃ env rest, (∀ line ∈ rest, line ∈ body) ∧ Keeps body (.loaded s gp fp) env ∧
      execLines F at_.1 at_.2 = execLines F env
        (rest ++ .label .finish :: (gp.map .saveGp ++ fp.map .saveFp)) := by
  induction steps with
  | refl =>
      refine ⟨.loaded s gp fp, body, fun _ member => member, .refl, ?_⟩
      have split := traced.source_eq
      rw [List.append_assoc] at split
      change execLines F (CEnv.enter s) source = _
      rw [split]
      exact execLines_append_of_runs (runs_loads s gp fp)
  | @tail at_ next _ round ih =>
      obtain ⟨env, rest, sub, keeps, same⟩ := ih
      obtain ⟨⟨env', target⟩, ran, round⟩ := bind_ok.mp round
      rw [same] at ran
      cases target with
      | none => cases round
      | some target =>
          simp only at round
          cases found : findLabel target source with
          | none =>
              rw [found] at round
              cases round
          | some lines =>
              rw [found] at round
              cases round
              rcases execLines_append_cases ran with ⟨_, _, jumped⟩ | ⟨env₁, through, saves⟩
              · have moved := keeps.trans (execLines_keeps traced.body sub jumped)
                obtain ⟨rest', sub', rfl⟩ := traced.found found
                exact ⟨env', rest', sub', moved, rfl⟩
              · have moved := keeps.trans (execLines_keeps traced.body sub through)
                rw [runs_saves moved] at saves
                cases saves

/-- **Where a run ends**: after the epilogue. -/
theorem Traced.exits (traced : Traced gp fp body source) (exits : Exits F source s last) :
    ∃ env, Keeps body (.loaded s gp fp) env ∧ last = env.saved gp fp := by
  obtain ⟨at_, steps, ran⟩ := exits
  obtain ⟨env, rest, sub, keeps, same⟩ := traced.steps steps
  rw [same] at ran
  rcases execLines_append_cases ran with ⟨_, jumps, _⟩ | ⟨env₁, through, saves⟩
  · cases jumps
  · have moved := keeps.trans (execLines_keeps traced.body sub through)
    rw [runs_saves moved] at saves
    cases saves
    exact ⟨env₁, moved, rfl⟩

theorem Traced.stored (traced : Traced gp fp body source) (exits : Exits F source s last) :
    Stored body s last := by
  obtain ⟨env, keeps, rfl⟩ := traced.exits exits
  constructor
  · intro reg occurs
    have used := traced.gp reg occurs
    change env.gp reg = some (if reg ∈ gp then (env.gp reg).getD 0 else env.state.gpRegs reg)
    rw [if_pos used]
    exact keeps.gp_eq used
  · intro reg absent
    change (if reg ∈ gp then (env.gp reg).getD 0 else env.state.gpRegs reg) = s.gpRegs reg
    split_ifs with used
    · rw [keeps.gp reg absent, CEnv.loaded_gp used, Option.getD_some]
    · rw [keeps.gpRegs]
      rfl
  · intro reg occurs
    have used := traced.fp reg occurs
    change env.fp reg = some (if reg ∈ fp then (env.fp reg).getD 0 else env.state.fpRegs reg)
    rw [if_pos used]
    exact keeps.fp_eq used
  · intro reg absent
    change (if reg ∈ fp then (env.fp reg).getD 0 else env.state.fpRegs reg) = s.fpRegs reg
    split_ifs with used
    · rw [keeps.fp reg absent, CEnv.loaded_fp used, Option.getD_some]
    · rw [keeps.fpRegs]
      rfl

/-- A call that returns ends somewhere. -/
theorem exits_of_start (start : Start F source s s') :
    ∃ last, Exits F source s last ∧ last.state = s' := by
  obtain ⟨at_, steps, leaves⟩ := Iteration.returns_iff_steps_leave.mp start
  obtain ⟨⟨env, target⟩, ran, leaves⟩ := bind_ok.mp leaves
  cases target with
  | none =>
      cases leaves
      exact ⟨env, ⟨at_, steps, ran⟩, rfl⟩
  | some target =>
      simp only at leaves
      cases found : findLabel target source with
      | none =>
          rw [found] at leaves
          cases leaves
      | some lines =>
          rw [found] at leaves
          cases leaves

end Exit

/-- **Register tracing is sound.** In a generated source every variable of the body is
declared and loaded before it and stored after it, and `x0` occurs nowhere; and when a
call of the function returns, the registers whose variables occur in the body have the
final values of these, and the others are as before. -/
theorem machineGenblock_traced {insn : Insn} {mem : Bytes.Memory} {pc : U64} {source : Source}
    (generated : machineGenblock insn mem pc = .ok source) :
    ∃ gp fp body, Traced gp fp body source ∧ ∀ F s s', Start F source s s' →
      ∃ last, Exits F source s last ∧ last.state = s' ∧ Stored body s last := by
  obtain ⟨visited, tracer, gen⟩ := machineGenblock_spec generated
  refine ⟨tracer.gpUsed, tracer.fpUsed, _, gen.traced, fun F s s' start => ?_⟩
  obtain ⟨last, exits, state⟩ := exits_of_start start
  exact ⟨last, exits, state, gen.traced.stored exits⟩

/-- The countdown uses `ra` and `a0`. -/
theorem machineGenblock_traced_countdown : ∃ source gp fp body,
    machineGenblock {} countdown 0x1000 = .ok source ∧ Traced gp fp body source ∧
      ∀ F s s', Start F source s s' →
        ∃ last, Exits F source s last ∧ last.state = s' ∧ Stored body s last := by
  have generated : machineGenblock {} countdown 0x1000 = .ok _ := rfl
  obtain ⟨gp, fp, body, traced, runs⟩ := machineGenblock_traced generated
  exact ⟨_, gp, fp, body, generated, traced, runs⟩

end RiscvEmu
