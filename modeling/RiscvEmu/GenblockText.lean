import RiscvEmu.CodegenFaithful
import RiscvEmu.Genblock

/-!
# The text of a block

`machine_genblock` again, with the texts that it appends to `body` and to `source`. What comes out
is a C file: the two headers and the definitions of `CODEGEN_PROLOGUE`, and the function `start`.
`readFile` reads such a file.

* `machineGenblockTexts_means`: the text means what the source of `machineGenblock` means, and the
  one dies where the other does.
-/

set_option autoImplicit false

namespace RiscvEmu

open Printing CReader Iteration

section Definitions

/-! ## The tracer -/

/-- A line for each of some registers. -/
def Appends.each (regs : List Reg) (line : Reg → Buffer) : Appends := regs.mapM line

/-- `tracer_append_prologue`. -/
def Tracer.prologueText (t : Tracer) : Appends :=
  .each t.gpUsed (fun i =>
    sprintf "    uint64_t x%d = state->gp_regs[%d];\n" [.d i.toNat, .d i.toNat]) ++
  .each t.fpUsed fun i =>
    sprintf "    fp_reg_t f%d = state->fp_regs[%d];\n" [.d i.toNat, .d i.toNat]

/-- `tracer_append_epilogue`. -/
def Tracer.epilogueText (t : Tracer) : Appends :=
  .each t.gpUsed (fun i =>
    sprintf "    state->gp_regs[%d] = x%d;\n" [.d i.toNat, .d i.toNat]) ++
  .each t.fpUsed fun i =>
    sprintf "    state->fp_regs[%d] = f%d;\n" [.d i.toNat, .d i.toNat]

/-! ## The loop -/

/-- The variables of `machine_genblock`; the body is the texts that are appended to it. -/
structure GenText where
  body : List Text
  stack : WorkStack
  set : WorkSet
  tracer : Tracer
  insn : Insn

/-- The end of a round, after the generator. -/
def GenText.emit (g : GenText) (pc : U64) (insn : Insn) (texts : List Text) (emission : Emission) :
    Except Abort GenText := do
  let body := g.body ++ texts
  let tracer := g.tracer.addUsage emission.gp emission.fp
  let stack ← pushTarget g.stack emission.target
  let insn := { insn with cont := insn.cont || emission.cont }
  if insn.cont then .ok { g with body, stack, tracer, insn }
  else do
    let pc := pc + insn.len
    let jump ← CodegenText.goto "    goto insn_%lx;\n" pc ++ .lit "\x7d\n"
    let stack ← stack.push pc
    .ok { g with body := body ++ jump, stack, tracer, insn }

/-- One round of the loop. The generator appends its texts and has the effects of its emission. -/
def textIter (mem : Bytes.Memory) (g : GenText) : Except Abort (GenText ⊕ GenText) :=
  match g.stack.pop with
  | none => .ok (.inr g)
  | some (pc, stack) => do
      let (added, set) ← g.set.add pc
      if added then
        let label ← Appends.text (sprintf "insn_%lx: \x7b\n" [.lx pc.toNat])
        let insn ← insnDecode g.insn (Bytes.load mem pc 32)
        let texts ← codegenTexts insn.type insn pc
        let emission ← codegenFuncs insn.type insn pc
        let g ← { g with body := g.body ++ label, stack, set }.emit pc insn texts emission
        return .inl g
      else return .inl { g with stack, set }

/-- `CODEGEN_PROLOGUE`. -/
def codegenPrologue : String :=
  "#define OFFSET 0x088800000000ULL               \n" ++
  "#define TO_HOST(addr) (addr + OFFSET)          \n" ++
  "enum exit_reason_t \x7b                           \n" ++
  "   none,                                       \n" ++
  "   direct_branch,                              \n" ++
  "   indirect_branch,                            \n" ++
  "   interp,                                     \n" ++
  "   ecall,                                      \n" ++
  "\x7d;                                             \n" ++
  "typedef union \x7b                                \n" ++
  "    uint64_t v;                                \n" ++
  "    uint32_t w;                                \n" ++
  "    double d;                                  \n" ++
  "    float f;                                   \n" ++
  "\x7d fp_reg_t;                                    \n" ++
  "typedef struct \x7b                               \n" ++
  "    enum exit_reason_t exit_reason;            \n" ++
  "    uint64_t reenter_pc;                       \n" ++
  "    uint64_t gp_regs[32];                      \n" ++
  "    fp_reg_t fp_regs[32];                      \n" ++
  "    uint64_t pc;                               \n" ++
  "    uint32_t fcsr;                             \n" ++
  "\x7d state_t;                                     \n" ++
  "void start(volatile state_t *restrict state) \x7b \n"

/-- What is in front of the lines of the function. -/
def fileHeader : List Text :=
  ["#include <stdint.h>\n".toList, "#include <stdbool.h>\n".toList, codegenPrologue.toList]

/-- The texts of the function after the loop. -/
def GenText.function (g : GenText) : Appends :=
  g.tracer.prologueText ++ .ok [g.body.flatten] ++ .lit "end:;\n" ++ g.tracer.epilogueText ++
    .lit "\x7d"

/-- The texts that are appended to `source`. -/
def GenText.source (g : GenText) : Appends := .ok fileHeader ++ g.function

/-- The variables before the loop. -/
def GenText.start (insn : Insn) (pc : U64) : GenText where
  body := []
  stack := (GenState.start insn pc).stack
  set := .reset
  tracer := .reset
  insn := insn

/-- The texts that `machine_genblock` appends to `source`, at a pc. -/
def machineGenblockTexts (insn : Insn) (mem : Bytes.Memory) (pc : U64) : Appends :=
  match Iteration.run (textIter mem) (2 * setSize + 2) (.start insn pc) with
  | none => .error .hang
  | some (.error abort) => .error abort
  | some (.ok g) => g.source

/-! ## Reading a file -/

/-- The function in a file that starts with the header, without its last brace. -/
def readFile (text : Text) : Option Source := do
  let function ← (fileHeader.flatten).isPrefixOf? text
  let lines ← readLines (← lex function)
  match lines.getLast? with
  | some .close => some lines.dropLast
  | _ => none

end Definitions

/-! ## The tracer prints its lines -/

section Registers

variable {reg : Reg}

/-- `%d` twice, behind `a` and behind `b`, for the number of a register. -/
theorem Around.dd {format before after : String} {left right : List Token}
    (around : Around before after left right) (reg : Reg) (a b : Text) (plain : '%' ∉ a ++ b)
    (short : (a ++ b).length ≤ 40)
    (literal : format.toList =
      before.toList ++ (((a ++ ['%', 'd']) ++ (b ++ ['%', 'd'])) ++ after.toList)) :
    RiscvEmu.sprintf format [.d reg.toNat, .d reg.toNat] =
      .ok (before.toList ++ (((a ++ Nat.toDigits 10 reg.toNat) ++
        (b ++ Nat.toDigits 10 reg.toNat)) ++ after.toList)) := by
  obtain ⟨plain, plain'⟩ : '%' ∉ a ∧ '%' ∉ b := by simpa using plain
  apply around.sprintf literal
  · intro rest
    rw [← signed_reg]
    simp only [List.append_assoc, printf_append plain]
    cases read : printf rest [] <;> simp [printf, read, printf_append plain']
  · have digits := length_reg reg
    simp only [List.length_append] at short ⊢
    omega

theorem prints_loadGp : Prints (.text (sprintf "    uint64_t x%d = state->gp_regs[%d];\n"
    [.d reg.toNat, .d reg.toNat])) [.loadGp reg] := by
  have around : Around "    uint64_t " "];\n" [.type (.int .u64)] [.rbracket, .semi] := by decide
  have member : lex " = state->gp_regs[".toList =
      some [.assign, .state, .arrow, .gpRegs, .lbracket] := lex_lit rfl (by decide)
  have words := lex_append (apart_head rfl) (lex_x reg)
    (lex_append (apart_last rfl) member (lex_reg reg))
  exact .around (.loadGp reg) around
    (around.dd reg ['x'] " = state->gp_regs[".toList (by decide) (by decide) (by decide)) words
    (by decide) (List.cons_ne_nil _ _) (fun rest => if_pos rfl) rfl

theorem prints_loadFp : Prints (.text (sprintf "    fp_reg_t f%d = state->fp_regs[%d];\n"
    [.d reg.toNat, .d reg.toNat])) [.loadFp reg] := by
  have around : Around "    fp_reg_t " "];\n" [.fpRegT] [.rbracket, .semi] := by decide
  have member : lex " = state->fp_regs[".toList =
      some [.assign, .state, .arrow, .fpRegs, .lbracket] := lex_lit rfl (by decide)
  have words := lex_append (apart_head rfl) (lex_f reg)
    (lex_append (apart_last rfl) member (lex_reg reg))
  exact .around (.loadFp reg) around
    (around.dd reg ['f'] " = state->fp_regs[".toList (by decide) (by decide) (by decide)) words
    (by decide) (List.cons_ne_nil _ _) (fun rest => if_pos rfl) rfl

theorem prints_saveGp : Prints (.text (sprintf "    state->gp_regs[%d] = x%d;\n"
    [.d reg.toNat, .d reg.toNat])) [.saveGp reg] := by
  have around : Around "    state->gp_regs[" ";\n"
      [.state, .arrow, .gpRegs, .lbracket] [.semi] := by decide
  have assigned : lex "] = ".toList = some [.rbracket, .assign] := lex_lit rfl (by decide)
  have words := lex_append (apart_head rfl) (lex_reg reg)
    (lex_append (apart_last rfl) assigned (lex_x reg))
  exact .around (.saveGp reg) around
    (around.dd reg [] "] = x".toList (by decide) (by decide) (by decide)) words
    (by decide) (List.cons_ne_nil _ _) (fun rest => if_pos rfl) rfl

theorem prints_saveFp : Prints (.text (sprintf "    state->fp_regs[%d] = f%d;\n"
    [.d reg.toNat, .d reg.toNat])) [.saveFp reg] := by
  have around : Around "    state->fp_regs[" ";\n"
      [.state, .arrow, .fpRegs, .lbracket] [.semi] := by decide
  have assigned : lex "] = ".toList = some [.rbracket, .assign] := lex_lit rfl (by decide)
  have words := lex_append (apart_head rfl) (lex_reg reg)
    (lex_append (apart_last rfl) assigned (lex_f reg))
  exact .around (.saveFp reg) around
    (around.dd reg [] "] = f".toList (by decide) (by decide) (by decide)) words
    (by decide) (List.cons_ne_nil _ _) (fun rest => if_pos rfl) rfl

theorem prints_each {line : Reg → Buffer} {out : Reg → Line}
    (prints : ∀ reg, Prints (.text (line reg)) [out reg]) (regs : List Reg) :
    Prints (.each regs line) (regs.map out) := by
  induction regs with
  | nil => exact .nothing
  | cons reg regs ih =>
      have split : Appends.each (reg :: regs) line = .text (line reg) ++ .each regs line := by
        rw [Appends.each, List.mapM_cons, Appends.each]
        match line reg, regs.mapM line with
        | .error _, _ | .ok _, .error _ | .ok _, .ok _ => rfl
      rw [split, List.map_cons]
      exact (prints reg).append ih

theorem prints_prologue (t : Tracer) : Prints t.prologueText t.prologue :=
  (prints_each (fun _ => prints_loadGp) _).append (prints_each (fun _ => prints_loadFp) _)

theorem prints_epilogue (t : Tracer) : Prints t.epilogueText t.epilogue :=
  (prints_each (fun _ => prints_saveGp) _).append (prints_each (fun _ => prints_saveFp) _)

end Registers

/-! ## The loop prints the body -/

section Loop

variable {mem : Bytes.Memory} {g g' : GenState} {t : GenText} {pc : U64} {insn : Insn}
  {emission : Emission} {texts : List Text}

/-- The two loops have the same variables, and the texts of the body read as its lines. -/
structure Alike (g : GenState) (t : GenText) : Prop where
  body : Reads t.body g.body
  stack : t.stack = g.stack
  set : t.set = g.set
  tracer : t.tracer = g.tracer
  insn : t.insn = g.insn

theorem alike_start (insn : Insn) (pc : U64) : Alike (.start insn pc) (.start insn pc) :=
  ⟨.nil, rfl, rfl, rfl, rfl⟩

/-- The end of a round, when the label and the texts of the generator read as their lines. -/
theorem emit_alike (body : Reads t.body (g.body ++ [.label (.insn pc)])) (stack : t.stack = g.stack)
    (set : t.set = g.set) (tracer : t.tracer = g.tracer) (reads : Reads texts emission.lines) :
    Same Alike (emitBlock g pc insn emission) (t.emit pc insn texts emission) := by
  have block : Reads (t.body ++ texts) (g.body ++ .label (.insn pc) :: emission.lines) := by
    have lines := body.append reads
    rwa [List.append_assoc] at lines
  obtain ⟨jump, printed, jumps⟩ := (prints_goto (pc + insn.len)).append prints_close
  rw [emitBlock, GenText.emit, stack]
  refine (Same.refl _).bind ?_
  rintro stack₁ _ rfl
  generalize (insn.cont || emission.cont) = cont
  cases cont with
  | true => exact .ends ⟨block, rfl, set, tracer ▸ rfl, rfl⟩
  | false =>
      change Same Alike (stack₁.push (pc + insn.len) >>= _)
        (CodegenText.goto "    goto insn_%lx;\n" (pc + insn.len) ++ .lit "\x7d\n" >>= _)
      refine Same.after printed (Same.bind (Same.refl (stack₁.push (pc + insn.len))) ?_)
      rintro stack₂ _ rfl
      exact .ends ⟨block.append jumps, rfl, set, tracer ▸ rfl, rfl⟩

/-- **A round prints** what the round of the model adds. -/
theorem textIter_alike (alike : Alike g t) :
    Same (Sum.LiftRel Alike Alike) (genIter mem g) (textIter mem t) := by
  rw [genIter, textIter, alike.stack]
  cases g.stack.pop with
  | none => exact .ends (.inr alike)
  | some entry =>
      obtain ⟨pc, stack⟩ := entry
      simp only [alike.set, alike.insn]
      refine (Same.refl _).bind ?_
      rintro ⟨added, set⟩ _ rfl
      cases added with
      | false => exact .ends (.inl ⟨alike.body, rfl, rfl, alike.tracer, rfl⟩)
      | true =>
          obtain ⟨label, named, names⟩ := prints_label pc
          refine Same.after named (Same.bind (Same.refl (insnDecode g.insn _)) ?_)
          rintro insn _ rfl
          rcases codegenTexts_faithful insn.type insn pc with
            ⟨emission, generated, ⟨texts, printed, reads⟩, -⟩ | ⟨abort, died, died'⟩
          · rw [generated]
            have same : Same Alike (emitBlock { g with stack, set } pc insn emission)
                (GenText.emit { t with body := t.body ++ label, stack, set, insn := g.insn } pc insn
                  texts emission) :=
              emit_alike (alike.body.append names) rfl rfl alike.tracer reads
            exact Same.after printed (same.bind fun _ _ alike => .ends (.inl alike))
          · rw [died, died']
            exact .dies abort

end Loop

/-! ## The file reads back -/

section Files

variable {mem : Bytes.Memory} {g : GenState} {t : GenText} {insn : Insn} {pc : U64}

/-- The texts of a file read as the lines of its function. -/
def ReadsAs (source : Source) (texts : List Text) : Prop :=
  ∃ read, readFile texts.flatten = some read ∧ SameLiterals read source

theorem Line.fold_close {line : Line} (close : line.fold = .close) : line = .close := by
  cases line <;> cases close
  rfl

/-- Lines that read as those of a function and its last brace. -/
theorem SameLiterals.close {read source : Source} (same : SameLiterals read (source ++ [.close])) :
    read.getLast? = some .close ∧ SameLiterals read.dropLast source := by
  rw [SameLiterals, List.map_append] at same
  obtain ⟨lines, last, rfl, folded, close⟩ := List.map_eq_append_iff.mp same
  obtain ⟨line, rfl, brace⟩ := List.map_eq_singleton_iff.mp close
  rw [Line.fold_close brace]
  exact ⟨List.getLast?_concat, by rwa [List.dropLast_concat]⟩

theorem Reads.file {texts : List Text} {source : Source}
    (reads : Reads texts (source ++ [.close])) : ReadsAs source (fileHeader ++ texts) := by
  obtain ⟨-, -, tokens, read, lexed, parsed, same⟩ := reads
  obtain ⟨last, same⟩ := same.close
  have lines : readLines tokens = some read := by
    have all := parsed []
    rw [List.append_nil, readLines] at all
    simpa using all
  refine ⟨read.dropLast, ?_, same⟩
  have function : fileHeader.flatten.isPrefixOf? (fileHeader ++ texts).flatten =
      some texts.flatten := List.isPrefixOf?_eq_some_iff_append_eq.mpr List.flatten_append.symm
  rw [readFile, function]
  simp only [Option.bind_eq_bind, Option.bind_some, lexed, lines, last]

/-- The function that is put together after the loop. -/
theorem prints_function (alike : Alike g t) : Prints t.function (g.source ++ [.close]) := by
  have body : Prints (.ok [t.body.flatten]) g.body := by
    obtain ⟨closed, short, tokens, read, lexed, parsed, same⟩ := alike.body
    have flat : [t.body.flatten].flatten = t.body.flatten := List.flatten_singleton
    exact ⟨_, rfl, by rwa [flat], by rwa [flat], tokens, read, by rwa [flat], parsed, same⟩
  have finish : Prints (.lit "end:;\n") [.label .finish] :=
    .lit rfl rfl (by decide) (by decide : lex _ = some [.endName, .colon, .semi])
      (List.cons_ne_nil _ _) fun rest => rfl
  have close : Prints (.lit "\x7d") [.close] :=
    .lit rfl rfl (by decide) (by decide : lex _ = some [.rbrace]) (List.cons_ne_nil _ _)
      fun rest => rfl
  have lines := ((((prints_prologue t.tracer).append body).append finish).append
    (prints_epilogue t.tracer)).append close
  rw [alike.tracer] at lines
  rw [GenText.function, GenState.source, alike.tracer]
  simpa only [List.append_assoc, List.singleton_append] using lines

/-- **The printed file** reads as the source, and the one dies where the other does. -/
theorem machineGenblockTexts_same (insn : Insn) (mem : Bytes.Memory) (pc : U64) :
    Same ReadsAs (machineGenblock insn mem pc) (machineGenblockTexts insn mem pc) := by
  have same : Option.Rel (Same Alike) (run (genIter mem) (2 * setSize + 2) (.start insn pc))
      (run (textIter mem) (2 * setSize + 2) (.start insn pc)) :=
    run_sideBySide (fun _ _ => textIter_alike) _ (alike_start insn pc)
  rw [machineGenblock, machineGenblockTexts]
  generalize run (genIter mem) (2 * setSize + 2) (.start insn pc) = first at same
  generalize run (textIter mem) (2 * setSize + 2) (.start insn pc) = second at same
  cases same with
  | none => exact .dies Abort.hang
  | some same =>
      cases same with
      | dies abort => exact .dies abort
      | @ends g t alike =>
          obtain ⟨texts, printed, reads⟩ := prints_function alike
          change Same ReadsAs (.ok g.source) (.ok fileHeader ++ t.function)
          rw [printed]
          exact .ends reads.file

/-- **What is printed means what is generated**: the file reads as a function that does what the
source does, and the one dies where the other does. -/
theorem machineGenblockTexts_means (insn : Insn) (mem : Bytes.Memory) (pc : U64) :
    Same (fun source texts => ∃ read, readFile texts.flatten = some read ∧
        ∀ F s s', Start F read s s' ↔ Start F source s s')
      (machineGenblock insn mem pc) (machineGenblockTexts insn mem pc) := by
  have same := machineGenblockTexts_same insn mem pc
  generalize machineGenblock insn mem pc = first at same
  generalize machineGenblockTexts insn mem pc = second at same
  cases same with
  | dies abort => exact .dies abort
  | ends reads =>
      obtain ⟨read, file, same⟩ := reads
      exact .ends ⟨read, file, fun _ s s' => same.start s s'⟩

end Files

end RiscvEmu
