import RiscvEmu.Genblock
import RiscvEmu.Foundation.Worklist

/-!
# The control flow of a generated block

`Insn.staticSuccs` gives the pcs to which an instruction can pass control inside
a block, and `staticSuccs` those of the instruction at a pc. The block that is
generated from a pc is the exploration of this graph: one label block for each
pc that can be reached, in the order of the visits.

What a generator prints has one of four shapes (`EmissionShape`), and the shape
gives the lines and the pushed pcs of a label block (`blockAt_shape`). The rest
is the worklist: `GenInv` is the invariant of the loop, every round keeps it
(`GenInv.step`), and at the end it describes the source (`machineGenblock_spec`).

* `machineGenblock_closed`: the generated block is closed and complete.
-/

set_option autoImplicit false

namespace RiscvEmu

open Codegen Worklist

/-! ## Static successors -/

/-- How an instruction passes control on. -/
inductive Transfer where
  /-- To the next instruction. -/
  | next
  /-- To the target or to the next instruction. -/
  | branch
  /-- To the target. -/
  | jump
  /-- Out of the block. -/
  | leave
  deriving DecidableEq, Repr

/-- The instructions that the generator leaves to the interpreter. -/
def InsnType.interpOnly : InsnType → Bool
  | .mulh | .mulhsu | .mulhu | .fsqrtS | .fsqrtD
  | .fcvtWS | .fcvtWuS | .fcvtWD | .fcvtWuD | .fcvtLS | .fcvtLuS | .fcvtLD | .fcvtLuD
  | .fclassS | .fclassD
  | .fsgnjS | .fsgnjnS | .fsgnjxS | .fsgnjD | .fsgnjnD | .fsgnjxD => true
  | _ => false

def InsnType.transfer (type : InsnType) : Transfer :=
  match type with
  | .beq | .bne | .blt | .bge | .bltu | .bgeu => .branch
  | .jal => .jump
  | .jalr | .ecall => .leave
  | _ => if type.interpOnly then .leave else .next

/-- The pcs to which an instruction can pass control inside a block. -/
def Insn.staticSuccs (insn : Insn) (pc : U64) : List U64 :=
  match insn.type.transfer with
  | .next => [pc + insn.len]
  | .branch => [pc + insn.imm64, pc + insn.len]
  | .jump => [pc + insn.imm64]
  | .leave => []

/-- The static successors of the instruction at a pc. -/
def staticSuccs (mem : Bytes.Memory) (pc : U64) : List U64 :=
  match insnDecode {} (Bytes.load mem pc 32) with
  | .ok insn => insn.staticSuccs pc
  | .error _ => []

/-! ## What a generator prints -/

/-- A line that neither opens nor closes a label block and cannot jump. -/
def Line.plain : Line → Bool
  | .label _ | .close | .goto _ | .ifGoto _ _ => false
  | _ => true

/-- What a line may jump to. -/
def Line.jumps : Line → List Target
  | .goto target => [target]
  | .ifGoto _ pc => [.insn pc]
  | _ => []

/-- The four shapes of an emission. -/
inductive EmissionShape (insn : Insn) (pc : U64) : Emission → Transfer → Prop where
  | next {lines : List Line} {gp fp : List Reg} (plain : lines.all Line.plain = true) :
      EmissionShape insn pc { lines, gp, fp } .next
  | branch {lines : List Line} {test : CExpr} {gp fp : List Reg}
      (plain : lines.all Line.plain = true) :
      EmissionShape insn pc
        { lines := lines ++ [.ifGoto test (pc + insn.imm64)], gp, fp,
          target := some (pc + insn.imm64) } .branch
  | jump {lines : List Line} {gp fp : List Reg} (plain : lines.all Line.plain = true) :
      EmissionShape insn pc
        { lines := lines ++ [.goto (.insn (pc + insn.imm64)), .close], gp, fp,
          target := some (pc + insn.imm64) } .jump
  | leave {lines : List Line} {gp fp : List Reg} {cont : Bool}
      (plain : lines.all Line.plain = true) (ends : cont = insn.type.interpOnly) :
      EmissionShape insn pc { lines := lines ++ [.goto .finish, .close], gp, fp, cont } .leave

namespace Codegen

@[simp] theorem plain_regGet (reg : Reg) (name : Local) :
    (regGet reg name).all Line.plain = true := by
  unfold regGet
  split <;> rfl

@[simp] theorem plain_regSetExpr (reg : Reg) (value : CExpr) :
    (regSetExpr reg value).all Line.plain = true := by
  unfold regSetExpr
  split <;> rfl

@[simp] theorem plain_fregGet (reg : Reg) (name : Local) (type : CType) (field : FpField) :
    (fregGet reg name type field).all Line.plain = true := rfl

@[simp] theorem plain_fregSetExpr (reg : Reg) (value : CExpr) (field : FpField) :
    (fregSetExpr reg value field).all Line.plain = true := rfl

@[simp] theorem plain_memLoad (addr : CExpr) (type : CInt) (name : Local) :
    (memLoad addr type name).all Line.plain = true := rfl

@[simp] theorem plain_memStore (addr : CExpr) (type : CInt) (data : Local) :
    (memStore addr type data).all Line.plain = true := rfl

/-- A generator whose lines are plain and that pushes nothing. -/
def Straight (gen : Generator) : Prop :=
  ∀ insn pc e, gen insn pc = .ok e → EmissionShape insn pc e .next

theorem straight_empty : Straight funcEmpty := by
  rintro insn pc e ⟨⟩
  exact .next rfl

theorem straight_load (typ : CInt) : Straight (funcLoad typ) := by
  rintro insn pc e ⟨⟩
  exact .next (by simp)

theorem straight_imm (expr : Insn → CExpr) : Straight (funcImm expr) := by
  rintro insn pc e ⟨⟩
  exact .next (by simp)

theorem straight_auipc : Straight funcAuipc := by
  rintro insn pc e ⟨⟩
  exact .next (plain_regSetExpr ..)

theorem straight_store (typ : CInt) : Straight (funcStore typ) := by
  rintro insn pc e ⟨⟩
  exact .next (by simp)

theorem straight_reg (expr : CExpr) : Straight (funcReg expr) := by
  rintro insn pc e ⟨⟩
  exact .next (by simp)

theorem straight_choose (arms : List (CExpr × CExpr)) (other : CExpr) :
    Straight (funcChoose arms other) := by
  rintro insn pc e ⟨⟩
  exact .next (by simp [Line.plain])

theorem straight_lui : Straight funcLui := by
  rintro insn pc e ⟨⟩
  exact .next (plain_regSetExpr ..)

theorem straight_csr : Straight funcCsr := by
  intro insn pc e generated
  simp only [funcCsr] at generated
  split at generated
  · cases generated
    exact .next (plain_regSetExpr ..)
  · cases generated

theorem straight_fload (typ : CInt) (expr : CExpr) : Straight (funcFload typ expr) := by
  rintro insn pc e ⟨⟩
  exact .next (by simp)

theorem straight_fstore (typ : CInt) : Straight (funcFstore typ) := by
  rintro insn pc e ⟨⟩
  exact .next (by simp)

theorem straight_fused (type : CType) (field : FpField) (expr : CExpr) :
    Straight (funcFused type field expr) := by
  rintro insn pc e ⟨⟩
  exact .next (by simp)

theorem straight_arith (type : CType) (field : FpField) (expr : CExpr) :
    Straight (funcArith type field expr) := by
  rintro insn pc e ⟨⟩
  exact .next (by simp)

theorem straight_fpOfGp (expr : CExpr) (field : FpField) : Straight (funcFpOfGp expr field) := by
  rintro insn pc e ⟨⟩
  exact .next (by simp)

theorem straight_gpOfFp (type : CInt) (field : FpField) (expr : CExpr) :
    Straight (funcGpOfFp type field expr) := by
  rintro insn pc e ⟨⟩
  exact .next (by simp)

theorem straight_compare (type : CType) (field : FpField) (op : BinOp) :
    Straight (funcCompare type field op) := by
  rintro insn pc e ⟨⟩
  exact .next (by simp)

theorem straight_fpOfFp (type : CType) (field : FpField) (expr : CExpr) (result : FpField) :
    Straight (funcFpOfFp type field expr result) := by
  rintro insn pc e ⟨⟩
  exact .next (by simp)

/-- The generators of the instructions that go on to the next one. -/
theorem straight_of_next {type : InsnType} (goesOn : type.transfer = .next) :
    Straight (codegenFuncs type) := by
  cases type with
  | lb | lh | lw | ld | lbu | lhu | lwu => exact straight_load _
  | fence | fenceI => exact straight_empty
  | addi | slli | slti | sltiu | xori | srli | srai | ori | andi | addiw | slliw | srliw | sraiw =>
      exact straight_imm _
  | auipc => exact straight_auipc
  | sb | sh | sw | sd => exact straight_store _
  | add | sll | slt | sltu | xor | srl | or | and | mul | remu | sub | sra | addw | sllw | srlw
  | mulw | divw | divuw | remw | remuw | subw | sraw => exact straight_reg _
  | div | divu | rem => exact straight_choose _ _
  | lui => exact straight_lui
  | csrrc | csrrci | csrrs | csrrsi | csrrw | csrrwi => exact straight_csr
  | flw | fld => exact straight_fload _ _
  | fsw | fsd => exact straight_fstore _
  | fmaddS | fmsubS | fnmsubS | fnmaddS | fmaddD | fmsubD | fnmsubD | fnmaddD =>
      exact straight_fused _ _ _
  | faddS | fsubS | fmulS | fdivS | fminS | fmaxS | faddD | fsubD | fmulD | fdivD | fminD
  | fmaxD => exact straight_arith _ _ _
  | fcvtSW | fcvtSWu | fmvWX | fcvtSL | fcvtSLu | fcvtDW | fcvtDWu | fcvtDL | fcvtDLu | fmvDX =>
      exact straight_fpOfGp _ _
  | fmvXW | fmvXD => exact straight_gpOfFp _ _ _
  | feqS | fltS | fleS | feqD | fltD | fleD => exact straight_compare _ _ _
  | fcvtSD | fcvtDS => exact straight_fpOfFp _ _ _ _
  | _ => cases goesOn

theorem shape_branch {insn : Insn} {pc : U64} {e : Emission} {typ : CInt} {op : BinOp}
    (generated : funcBranch typ op insn pc = .ok e) : EmissionShape insn pc e .branch := by
  cases generated
  exact .branch (by simp)

theorem shape_leave {insn : Insn} {pc : U64} (lines : List Line) (gp fp : List Reg)
    {cont : Bool} (plain : lines.all Line.plain = true) (ends : cont = insn.type.interpOnly) :
    EmissionShape insn pc { lines := lines ++ [.goto .finish, .close], gp, fp, cont } .leave :=
  .leave plain ends

theorem shape_interp {insn : Insn} {pc : U64} {e : Emission} (only : insn.type.interpOnly = true)
    (generated : funcInterp insn pc = .ok e) : EmissionShape insn pc e .leave := by
  cases generated
  exact shape_leave [.setExit .interp, _] _ _ rfl only.symm

end Codegen

section Shapes

variable {mem : Bytes.Memory} {insn : Insn} {pc : U64} {e : Emission} {block : Block}

/-- **What a generator prints has the shape of its instruction.** -/
theorem codegenFuncs_shape {type : InsnType} (same : insn.type = type)
    (generated : codegenFuncs type insn pc = .ok e) :
    EmissionShape insn pc e type.transfer := by
  cases type with
  | beq | bne | blt | bge | bltu | bgeu => exact shape_branch generated
  | jal =>
      cases generated
      exact .jump (plain_regSetExpr ..)
  | jalr =>
      cases generated
      have shape : EmissionShape insn pc _ .leave := shape_leave
        (regGet insn.rs1 .rs1 ++ regSetVal insn.rd (pc + insn.len) ++
          [.setExit .indirectBranch, .setReenter (jalrTarget insn)]) [insn.rs1, insn.rd] []
        (by simp [regSetVal, Line.plain]) (by rw [same])
      rw [List.append_assoc] at shape
      exact shape
  | ecall =>
      cases generated
      exact shape_leave [.setExit .ecall, _] _ _ rfl (by rw [same]; rfl)
  | mulh | mulhsu | mulhu | fsqrtS | fsqrtD | fcvtWS | fcvtWuS | fcvtWD | fcvtWuD | fcvtLS
  | fcvtLuS | fcvtLD | fcvtLuD | fclassS | fclassD | fsgnjS | fsgnjnS | fsgnjxS | fsgnjD
  | fsgnjnD | fsgnjxD => exact shape_interp (by rw [same]; rfl) generated
  | _ => exact straight_of_next rfl insn pc e generated

/-- What the block at a pc is made of. -/
theorem blockAt_ok (generated : blockAt mem pc = .ok block) :
    ∃ insn e, insnDecode {} (Bytes.load mem pc 32) = .ok insn ∧
      codegenFuncs insn.type insn pc = .ok e ∧ block = insn.block pc e := by
  simp only [blockAt, blockFrom, bind_ok] at generated
  obtain ⟨insn, decoded, e, generated, same⟩ := generated
  cases same
  exact ⟨insn, e, decoded, generated, rfl⟩

/-- The generator sets `cont` exactly for the instructions it leaves to the interpreter. -/
theorem EmissionShape.cont_eq (shape : EmissionShape insn pc e insn.type.transfer) :
    e.cont = insn.type.interpOnly := by
  have others : insn.type.transfer ≠ .leave → insn.type.interpOnly = false := by
    cases insn.type <;> simp [InsnType.transfer, InsnType.interpOnly]
  generalize transfer : insn.type.transfer = t at shape others
  cases shape with
  | next _ | branch _ | jump _ => exact (others (by simp)).symm
  | leave _ ends => exact ends

/-- A block ends after the instructions that jump or leave. -/
theorem ends_block (shape : EmissionShape insn pc e insn.type.transfer)
    (cont : insn.cont = insn.type.jumps) :
    (insn.cont || e.cont) =
      (insn.type.transfer == .jump || insn.type.transfer == .leave) := by
  rw [cont, shape.cont_eq]
  cases insn.type <;> rfl

/-! ## Label blocks -/

/-- A line that may stand between a label and the jump that closes its block. -/
def Line.inside : Line → Bool
  | .label _ | .close | .goto _ => false
  | _ => true

theorem Line.inside_of_plain {lines : List Line} (plain : lines.all Line.plain = true) :
    ∀ line ∈ lines, line.inside = true ∧ line.jumps = [] := by
  intro line mem
  have isPlain : line.plain = true := List.all_eq_true.mp plain line mem
  cases line <;> first | exact ⟨rfl, rfl⟩ | cases isPlain

/-- The lines of a label block: nothing between the label and the last two lines
leaves the block but conditional jumps, and every jump goes to a successor or out. -/
structure LabelBlock (lines : List Line) (pc : U64) (succs : List U64) : Prop where
  closed : ∃ mid target, lines = .label (.insn pc) :: (mid ++ [.goto target, .close]) ∧
    ∀ line ∈ mid, line.inside = true
  jumps : ∀ target ∈ lines.flatMap Line.jumps, target = .finish ∨ ∃ a ∈ succs, target = .insn a

theorem jumps_of_plain {lines : List Line} (plain : lines.all Line.plain = true) :
    lines.flatMap Line.jumps = [] := by
  rw [List.flatMap_eq_nil_iff]
  exact fun line mem => (Line.inside_of_plain plain line mem).2

/-- **The label block of a pc.** It is closed, and it pushes the static successors. -/
theorem blockAt_shape (generated : blockAt mem pc = .ok block) :
    LabelBlock (block.lines pc) pc (staticSuccs mem pc) ∧ block.succs = staticSuccs mem pc := by
  obtain ⟨insn, e, decoded, emitted, rfl⟩ := blockAt_ok generated
  have shape := codegenFuncs_shape rfl emitted
  have ends := ends_block shape (insnDecode_shape rfl decoded).cont_eq
  have succs : staticSuccs mem pc = insn.staticSuccs pc := by rw [staticSuccs, decoded]
  rw [succs, Insn.staticSuccs]
  simp only [Block.lines, Block.succs, Insn.block, ends]
  generalize insn.type.transfer = t at shape
  cases shape with
  | @next lines gp fp plain =>
      refine ⟨⟨⟨lines, .insn (pc + insn.len), rfl, fun l h => (Line.inside_of_plain plain l h).1⟩,
        ?_⟩, ?_⟩
      · simp [jumps_of_plain plain, Line.jumps]
      · simp
  | @branch lines test gp fp plain =>
      refine ⟨⟨⟨lines ++ [.ifGoto test (pc + insn.imm64)], .insn (pc + insn.len), rfl, ?_⟩, ?_⟩, ?_⟩
      · intro line mem
        rcases List.mem_append.mp mem with mem | mem
        · exact (Line.inside_of_plain plain line mem).1
        · rw [List.mem_singleton.mp mem]
          rfl
      · simp [jumps_of_plain plain, Line.jumps]
      · simp
  | @jump lines gp fp plain =>
      refine ⟨⟨⟨lines, .insn (pc + insn.imm64), by simp,
        fun l h => (Line.inside_of_plain plain l h).1⟩, ?_⟩, ?_⟩
      · simp [jumps_of_plain plain, Line.jumps]
      · simp
  | @leave lines gp fp cont plain _ =>
      refine ⟨⟨⟨lines, .finish, by simp, fun l h => (Line.inside_of_plain plain l h).1⟩, ?_⟩, ?_⟩
      · simp [jumps_of_plain plain, Line.jumps]
      · simp

end Shapes

/-! ## The invariant of the loop -/

/-- The lines that a pc contributes to the body. -/
def linesAt (mem : Bytes.Memory) (pc : U64) : List Line :=
  match blockAt mem pc with
  | .ok block => block.lines pc
  | .error _ => []

/-- The tracer has the registers that an emission uses. -/
def Tracer.Has (t : Tracer) (e : Emission) : Prop :=
  (∀ reg ∈ e.gp, t.gpReg reg = true) ∧ ∀ reg ∈ e.fp, t.fpReg reg = true

/-- What a list of visited pcs says about the variables of the loop. -/
structure GenInv (mem : Bytes.Memory) (entry : U64) (visited : List U64) (g : GenState) : Prop where
  explores : Explores (staticSuccs mem) entry visited g.stack.elems
  set : ∀ x, g.set.Has x ↔ x ∈ visited
  body : g.body = visited.flatMap (linesAt mem)
  blocks : ∀ x ∈ visited, ∃ block, blockAt mem x = .ok block ∧ g.tracer.Has block.emission

section Loop

variable {mem : Bytes.Memory} {entry pc : U64} {visited : List U64} {g g' : GenState}
  {block : Block}

theorem GenInv.explored (inv : GenInv mem entry visited g) :
    Explored (staticSuccs mem) entry visited g.stack.elems := inv.explores.explored

theorem GenInv.start (insn : Insn) : GenInv mem entry [] (.start insn entry) where
  explores := .start
  set x := iff_of_false WorkSet.not_has_reset List.not_mem_nil
  body := rfl
  blocks := by simp

theorem Tracer.Has.addUsage {t : Tracer} {e : Emission} (has : t.Has e) (gp fp : List Reg) :
    (t.addUsage gp fp).Has e :=
  ⟨fun reg mem => by simp [Tracer.addUsage, has.1 reg mem],
    fun reg mem => by simp [Tracer.addUsage, has.2 reg mem]⟩

theorem Tracer.has_addUsage (t : Tracer) (e : Emission) : (t.addUsage e.gp e.fp).Has e :=
  ⟨fun reg mem => by simp [Tracer.addUsage, mem], fun reg mem => by simp [Tracer.addUsage, mem]⟩

/-- A pc that has been visited is dropped. -/
theorem GenInv.skip {stack : WorkStack} (inv : GenInv mem entry visited g)
    (elems : g.stack.elems = pc :: stack.elems) (seen : pc ∈ visited) :
    GenInv mem entry visited { g with stack := stack } :=
  ⟨(elems ▸ inv.explores).skip seen, inv.set, inv.body, inv.blocks⟩

/-- Emitting the block of a pc that is not in the set visits the pc. -/
theorem GenInv.emit {stack : WorkStack} {set : WorkSet} (inv : GenInv mem entry visited g)
    (elems : g.stack.elems = pc :: stack.elems) (add : g.set.add pc = .ok (true, set))
    (generated : blockAt mem pc = .ok block)
    (emits : Emits { g with stack := stack, set := set } g' pc block) :
    GenInv mem entry (visited ++ [pc]) g' := by
  obtain ⟨_, new, added, _⟩ := WorkSet.add_true add
  have fresh : pc ∉ visited := fun seen => new ((inv.set pc).mpr seen)
  constructor
  · rw [emits.pushes.1, (blockAt_shape generated).2]
    exact (elems ▸ inv.explores).visit fresh
  · intro x
    rw [emits.set, added x, inv.set x, List.mem_append, List.mem_singleton]
  · rw [emits.body, inv.body, List.flatMap_append]
    simp [linesAt, generated]
  · intro x seen
    rw [emits.tracer]
    rcases List.mem_append.mp seen with seen | here
    · obtain ⟨old, generatedOld, has⟩ := inv.blocks x seen
      exact ⟨old, generatedOld, has.addUsage ..⟩
    · obtain rfl := List.mem_singleton.mp here
      exact ⟨block, generated, Tracer.has_addUsage ..⟩

/-- **A round keeps the invariant.** -/
theorem GenInv.step (inv : GenInv mem entry visited g)
    (round : genIter mem g = .ok (.inl g')) : ∃ visited', GenInv mem entry visited' g' := by
  rcases genIter_cases round with ⟨_, same⟩ | ⟨pc, stack, elems, seen, same⟩ |
    ⟨pc, stack, set, block, g₁, elems, add, generated, emits, same⟩
  · cases same
  · cases same
    exact ⟨visited, inv.skip elems ((inv.set pc).mp seen)⟩
  · cases same
    exact ⟨visited ++ [pc], inv.emit elems add generated emits⟩

/-- The invariant holds whenever the loop is at its head. -/
theorem GenInv.steps {insn : Insn}
    (steps : Iteration.Steps (genIter mem) (.start insn entry) g) :
    ∃ visited, GenInv mem entry visited g := by
  refine Iteration.Steps.invariant (fun g => ∃ visited, GenInv mem entry visited g) ?_ steps
    ⟨[], .start insn⟩
  rintro a b ⟨visited, inv⟩ round
  exact inv.step round

/-- What the source of a block is, in terms of the pcs that were visited. -/
structure Generated (mem : Bytes.Memory) (entry : U64) (visited : List U64) (tracer : Tracer)
    (source : Source) : Prop where
  explored : Explored (staticSuccs mem) entry visited []
  nonzero : ∀ x ∈ visited, x ≠ 0
  blocks : ∀ x ∈ visited, ∃ block, blockAt mem x = .ok block ∧ tracer.Has block.emission
  source : source =
    tracer.prologue ++ visited.flatMap (linesAt mem) ++ .label .finish :: tracer.epilogue

/-- **The source of a block**: the label blocks of the pcs that were visited, and
the registers they use loaded before and stored after them. -/
theorem machineGenblock_spec {insn : Insn} {source : Source}
    (generated : machineGenblock insn mem pc = .ok source) :
    ∃ visited tracer, Generated mem pc visited tracer source := by
  obtain ⟨g, returns, rfl⟩ := machineGenblock_ok.mp generated
  obtain ⟨last, steps, leaves⟩ := Iteration.returns_iff_steps_leave.mp returns
  obtain ⟨visited, inv⟩ := GenInv.steps steps
  rcases genIter_cases leaves with ⟨empty, same⟩ | ⟨_, _, _, _, same⟩ |
    ⟨_, _, _, _, _, _, _, _, _, same⟩
  · cases same
    refine ⟨visited, g.tracer, empty ▸ inv.explored, ?_, inv.blocks, ?_⟩
    · intro x seen
      obtain ⟨_, _, nonzero⟩ := (inv.set x).mpr seen
      exact nonzero
    · rw [GenState.source, inv.body]
  · cases same
  · cases same

end Loop

/-- The source starts with the label block of the entry, after the registers are loaded. -/
theorem Generated.starts {mem : Bytes.Memory} {pc : U64} {visited : List U64} {tracer : Tracer}
    {source : Source} (gen : Generated mem pc visited tracer source) :
    ∃ rest, source = tracer.prologue ++ (linesAt mem pc ++ rest) := by
  obtain ⟨others, order⟩ := List.head?_eq_some_iff.mp gen.explored.head
  refine ⟨others.flatMap (linesAt mem) ++ .label .finish :: tracer.epilogue, ?_⟩
  rw [gen.source, order, List.flatMap_cons, List.append_assoc, List.append_assoc]

/-! ## Closed blocks -/

/-- The pcs of the labels `insn_%lx` of a source, in order. -/
def Source.insnLabels (source : Source) : List U64 :=
  source.filterMap fun
    | .label (.insn pc) => some pc
    | _ => none

/-- Every target that a line of a source jumps to. -/
def Source.jumps (source : Source) : List Target := source.flatMap Line.jumps

/-- The source of a block is closed and complete. -/
structure BlockClosed (mem : Bytes.Memory) (pc : U64) (source : Source) : Prop where
  distinct : source.insnLabels.Nodup
  entry_first : source.insnLabels.head? = some pc
  /-- The labels are the least set with the entry that is closed under static successors. -/
  least : IsLeast (ClosedSets (staticSuccs mem) pc) {l | l ∈ source.insnLabels}
  /-- Every jump goes to a label that is there: that of a block, or `end`. -/
  jumps_labelled : ∀ target ∈ source.jumps,
    target = .finish ∨ ∃ l ∈ source.insnLabels, target = .insn l
  /-- The lines from a label end in an unconditional jump before the next label. -/
  blocks_end : ∀ l ∈ source.insnLabels, ∃ before mid target next after,
    source = before ++ .label (.insn l) ::
      (mid ++ .goto target :: .close :: .label next :: after) ∧
    ∀ line ∈ mid, line.inside = true

section Closed

variable {mem : Bytes.Memory} {pc : U64} {visited : List U64} {tracer : Tracer} {source : Source}

/-- Lines that are not labels. -/
theorem insnLabels_of_inside {lines : List Line} (inside : ∀ line ∈ lines, line.inside = true) :
    Source.insnLabels lines = [] := by
  rw [Source.insnLabels, List.filterMap_eq_nil_iff]
  intro line mem
  have isInside := inside line mem
  cases line <;> first | rfl | cases isInside

theorem Tracer.prologue_inside (t : Tracer) : ∀ line ∈ t.prologue, line.plain = true := by
  intro line mem
  simp only [Tracer.prologue, List.mem_append, List.mem_map] at mem
  rcases mem with ⟨_, _, rfl⟩ | ⟨_, _, rfl⟩ <;> rfl

theorem Tracer.epilogue_inside (t : Tracer) : ∀ line ∈ t.epilogue, line.plain = true := by
  intro line mem
  simp only [Tracer.epilogue, List.mem_append, List.mem_map] at mem
  rcases mem with ⟨_, _, rfl⟩ | ⟨_, _, rfl⟩ <;> rfl

theorem insnLabels_of_plain {lines : List Line} (plain : ∀ line ∈ lines, line.plain = true) :
    Source.insnLabels lines = [] :=
  insnLabels_of_inside fun line mem =>
    (Line.inside_of_plain (List.all_eq_true.mpr plain) line mem).1

theorem insnLabels_append (a b : List Line) :
    Source.insnLabels (a ++ b) = Source.insnLabels a ++ Source.insnLabels b :=
  List.filterMap_append

theorem LabelBlock.insnLabels {lines : List Line} {succs : List U64}
    (block : LabelBlock lines pc succs) : Source.insnLabels lines = [pc] := by
  obtain ⟨mid, target, rfl, inside⟩ := block.closed
  have labels : Source.insnLabels (.label (.insn pc) :: (mid ++ [.goto target, .close])) =
      pc :: Source.insnLabels (mid ++ [.goto target, .close]) := rfl
  rw [labels, insnLabels_append, insnLabels_of_inside inside]
  rfl

/-- A visited pc contributes a label block. -/
theorem Generated.labelBlock (gen : Generated mem pc visited tracer source) {l : U64}
    (seen : l ∈ visited) : LabelBlock (linesAt mem l) l (staticSuccs mem l) := by
  obtain ⟨block, generated, _⟩ := gen.blocks l seen
  have lines : linesAt mem l = block.lines l := by rw [linesAt, generated]
  rw [lines]
  exact (blockAt_shape generated).1

/-- The labels of the blocks of some pcs are these pcs. -/
theorem insnLabels_blocks {pcs : List U64} (blocks : ∀ l ∈ pcs, ∃ block, blockAt mem l = .ok block) :
    Source.insnLabels (pcs.flatMap (linesAt mem)) = pcs := by
  induction pcs with
  | nil => rfl
  | cons l pcs ih =>
      obtain ⟨block, generated⟩ := blocks l (List.mem_cons_self ..)
      have lines : linesAt mem l = block.lines l := by rw [linesAt, generated]
      have here : Source.insnLabels (linesAt mem l) = [l] := by
        rw [lines]
        exact (blockAt_shape generated).1.insnLabels
      rw [List.flatMap_cons, insnLabels_append, here,
        ih fun x known => blocks x (List.mem_cons_of_mem l known)]
      rfl

/-- The labels of the source are the visited pcs. -/
theorem Generated.insnLabels (gen : Generated mem pc visited tracer source) :
    source.insnLabels = visited := by
  have blocks : ∀ l ∈ visited, ∃ block, blockAt mem l = .ok block := by
    intro l seen
    obtain ⟨block, generated, _⟩ := gen.blocks l seen
    exact ⟨block, generated⟩
  have last : Source.insnLabels (.label .finish :: tracer.epilogue) =
      Source.insnLabels tracer.epilogue := rfl
  rw [gen.source, insnLabels_append, insnLabels_append,
    insnLabels_of_plain tracer.prologue_inside, insnLabels_blocks blocks, last,
    insnLabels_of_plain tracer.epilogue_inside, List.nil_append, List.append_nil]

/-- The jumps of the source are those of its label blocks. -/
theorem Generated.jumps (gen : Generated mem pc visited tracer source) :
    source.jumps = visited.flatMap fun l => (linesAt mem l).flatMap Line.jumps := by
  have last : (Line.label .finish :: tracer.epilogue).flatMap Line.jumps =
      tracer.epilogue.flatMap Line.jumps := rfl
  rw [Source.jumps, gen.source, List.flatMap_append, List.flatMap_append,
    jumps_of_plain (List.all_eq_true.mpr tracer.prologue_inside), last,
    jumps_of_plain (List.all_eq_true.mpr tracer.epilogue_inside), List.nil_append,
    List.append_nil, List.flatMap_assoc]

/-- What follows a label block starts with a label. -/
theorem Generated.next_label (gen : Generated mem pc visited tracer source) {vs : List U64}
    (sub : ∀ l ∈ vs, l ∈ visited) : ∃ next after,
      vs.flatMap (linesAt mem) ++ .label .finish :: tracer.epilogue = .label next :: after := by
  cases vs with
  | nil => exact ⟨.finish, tracer.epilogue, rfl⟩
  | cons l vs =>
      obtain ⟨mid, target, lines, _⟩ := (gen.labelBlock (sub l (List.mem_cons_self ..))).closed
      rw [List.flatMap_cons, lines]
      exact ⟨.insn l, _, rfl⟩

/-- **A generated block is closed and complete.** -/
theorem machineGenblock_closed {insn : Insn} (generated : machineGenblock insn mem pc = .ok source) :
    BlockClosed mem pc source := by
  obtain ⟨visited, tracer, gen⟩ := machineGenblock_spec generated
  have labels := gen.insnLabels
  constructor
  · rw [labels]
    exact gen.explored.nodup
  · rw [labels]
    exact gen.explored.head
  · rw [labels]
    exact gen.explored.isLeast
  · intro target jumped
    rw [gen.jumps, List.mem_flatMap] at jumped
    obtain ⟨l, seen, jumped⟩ := jumped
    rcases (gen.labelBlock seen).jumps target jumped with finish | ⟨a, successor, rfl⟩
    · exact .inl finish
    · have visitedA : a ∈ visited :=
        (gen.explored.covered l seen a successor).resolve_right List.not_mem_nil
      exact .inr ⟨a, labels ▸ visitedA, rfl⟩
  · intro l labelled
    rw [labels] at labelled
    obtain ⟨first, rest, split⟩ := List.append_of_mem labelled
    obtain ⟨mid, target, lines, inside⟩ := (gen.labelBlock labelled).closed
    have sub : ∀ x ∈ rest, x ∈ visited := fun x known =>
      split ▸ List.mem_append_right first (List.mem_cons_of_mem l known)
    obtain ⟨next, after, follows⟩ := gen.next_label sub
    refine ⟨tracer.prologue ++ first.flatMap (linesAt mem), mid, target, next, after, ?_, inside⟩
    rw [gen.source, split, List.flatMap_append, List.flatMap_cons, lines, ← follows]
    simp

end Closed

/-- A loop that counts `a0` down, and a return: `addi a0, a0, -1`, `bnez a0, -4`, `ret`. -/
def countdown : Bytes.Memory :=
  Bytes.copy (fun _ => 0) 0x1000
    [0x13, 0x05, 0xf5, 0xff, 0xe3, 0x1e, 0x05, 0xfe, 0x67, 0x80, 0x00, 0x00]

theorem machineGenblock_closed_countdown : ∃ source,
    machineGenblock {} countdown 0x1000 = .ok source ∧
    source.insnLabels = [0x1000, 0x1004, 0x1008] ∧ BlockClosed countdown 0x1000 source :=
  ⟨_, rfl, rfl, machineGenblock_closed (show machineGenblock {} countdown 0x1000 = .ok _ from rfl)⟩

end RiscvEmu
