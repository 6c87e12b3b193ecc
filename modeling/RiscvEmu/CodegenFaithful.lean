import RiscvEmu.CodegenReads

/-!
# The generators print what they mean

The texts of every generator read as its lines, and it dies where the model of it does
(`codegenTexts_faithful`).
-/

set_option autoImplicit false

namespace RiscvEmu

open Printing CReader

/-! ## The generators -/

section Generators

variable {typ : String} {insn : Insn}

theorem Appends.append_assoc (a b c : Appends) : a ++ b ++ c = a ++ (b ++ c) := by
  match a, b, c with
  | .error _, _, _ | .ok _, .error _, _ | .ok _, .ok _, .error _ => rfl
  | .ok x, .ok y, .ok z => exact congrArg Except.ok (List.append_assoc x y z)

/-- The texts of a generator read as its lines, at most six, and it dies as the other does. -/
def Faithful (texts : TextGenerator) (generator : Generator) : Prop := ∀ insn pc,
  (∃ emission, generator insn pc = .ok emission ∧ Prints (texts insn pc) emission.lines ∧
    emission.lines.length ≤ 6) ∨
  ∃ abort, generator insn pc = .error abort ∧ texts insn pc = .error abort

theorem Faithful.of_prints {texts : TextGenerator} {emission : Insn → U64 → Emission}
    (few : ∀ insn pc, (emission insn pc).lines.length ≤ 6)
    (prints : ∀ insn pc, Prints (texts insn pc) (emission insn pc).lines) :
    Faithful texts fun insn pc => .ok (emission insn pc) :=
  fun insn pc => .inl ⟨_, rfl, prints insn pc, few insn pc⟩

@[simp] theorem length_regGet (reg : Reg) (name : Local) :
    (Codegen.regGet reg name).length = 1 := by
  unfold Codegen.regGet
  split <;> rfl

theorem length_regSetExpr (reg : Reg) (value : CExpr) :
    (Codegen.regSetExpr reg value).length ≤ 1 := by
  unfold Codegen.regSetExpr
  split
  · exact le_rfl
  · exact Nat.zero_le 1

/-- Some lines and an assignment. -/
theorem few_set {lines : List Line} {reg : Reg} {value : CExpr} (few : lines.length ≤ 5) :
    (lines ++ Codegen.regSetExpr reg value).length ≤ 6 := by
  rw [List.length_append]
  exact Nat.add_le_add few (length_regSetExpr reg value)

/-- The name of an integer type. -/
def intName : CInt → String
  | .i8 => "int8_t"
  | .u8 => "uint8_t"
  | .i16 => "int16_t"
  | .u16 => "uint16_t"
  | .i32 => "int32_t"
  | .u32 => "uint32_t"
  | .i64 => "int64_t"
  | .u64 => "uint64_t"

theorem typeName_int (type : CInt) : TypeName (intName type) (.int type) := by
  cases type <;> exact ⟨lex_lit rfl (by decide), by decide, by decide⟩

theorem typeName_float : TypeName "float" .float := ⟨lex_lit rfl (by decide), by decide, by decide⟩

theorem typeName_double : TypeName "double" .double :=
  ⟨lex_lit rfl (by decide), by decide, by decide⟩

theorem spells_rd : Spells "rd".toList (.var .rd) := .lit rfl rfl (by decide)

theorem faithful_load {type : CInt} (typeName : TypeName typ (.int type)) :
    Faithful (CodegenText.funcLoad typ) (Codegen.funcLoad type) := by
  refine .of_prints (fun _ _ => few_set (by simp [Codegen.memLoad])) fun insn pc => ?_
  obtain ⟨addr, stored, addresses⟩ := addresses_immAddr insn
  rw [CodegenText.funcLoad, stored]
  exact ((prints_regGet .rs1).append (prints_memLoad addresses typeName)).append
    (prints_regSetExpr spells_rd)

theorem faithful_store {type : CInt} (typeName : TypeName typ (.int type)) :
    Faithful (CodegenText.funcStore typ) (Codegen.funcStore type) := by
  refine .of_prints (fun _ _ => by simp [Codegen.memStore]) fun insn pc => ?_
  obtain ⟨addr, stored, addresses⟩ := addresses_immAddr insn
  rw [CodegenText.funcStore, stored]
  exact ((prints_regGet .rs1).append (prints_regGet .rs2)).append
    (prints_memStore addresses typeName)

theorem faithful_imm {stmt : Insn → Buffer} {value : Insn → CExpr}
    (stores : ∀ insn, Stores (stmt insn) (value insn)) :
    Faithful (CodegenText.funcImm stmt) (Codegen.funcImm value) := by
  refine .of_prints (fun _ _ => few_set (by simp)) fun insn pc => ?_
  obtain ⟨text, stored, spells⟩ := stores insn
  rw [CodegenText.funcImm, stored]
  exact (prints_regGet .rs1).append (prints_regSetExpr spells)

theorem faithful_reg {expr : String} {value : CExpr} (spells : Spells expr.toList value) :
    Faithful (CodegenText.funcReg expr) (Codegen.funcReg value) :=
  .of_prints (fun _ _ => few_set (by simp)) fun _ _ =>
    ((prints_regGet .rs1).append (prints_regGet .rs2)).append (prints_regSetExpr spells)

theorem faithful_choose {chain : String} {arms : List (CExpr × CExpr)} {other : CExpr}
    (prints : Prints (.lit chain) [.declZero .rd, .choose .rd arms other]) :
    Faithful (CodegenText.funcChoose chain) (Codegen.funcChoose arms other) :=
  .of_prints (fun _ _ => few_set (by simp)) fun _ _ =>
    (((prints_regGet .rs1).append (prints_regGet .rs2)).append prints).append
      (prints_regSetExpr spells_rd)

theorem faithful_branch {op : String} {type : CInt} {binOp : BinOp}
    (typeName : TypeName typ (.int type)) (opName : OpName op binOp) :
    Faithful (CodegenText.funcBranch typ op) (Codegen.funcBranch type binOp) := by
  refine .of_prints (fun _ _ => by simp) fun insn pc => ?_
  rw [CodegenText.funcBranch, Appends.append_assoc, Appends.append_assoc]
  exact ((prints_regGet .rs1).append (prints_regGet .rs2)).append (prints_branch typeName opName)

theorem faithful_jalr : Faithful CodegenText.funcJalr Codegen.funcJalr := by
  refine .of_prints (fun insn pc => ?_) fun insn pc => ?_
  · have few : (Codegen.regSetVal insn.rd (pc + insn.len)).length ≤ 1 := length_regSetExpr _ _
    simp only [List.length_append, length_regGet, List.length_cons, List.length_nil]
    omega
  · exact ((prints_regGet .rs1).append (prints_regSetVal _)).append
      (prints_leave (lex_lit rfl (by decide)) (by decide) (prints_jalr insn))

theorem faithful_jal : Faithful CodegenText.funcJal Codegen.funcJal := by
  refine .of_prints (fun insn pc => ?_) fun insn pc => ?_
  · have few : (Codegen.regSetVal insn.rd (pc + insn.len)).length ≤ 1 := length_regSetExpr _ _
    simp only [List.length_append, List.length_cons, List.length_nil]
    omega
  · rw [CodegenText.funcJal, Appends.append_assoc]
    exact (prints_regSetVal _).append ((prints_goto _).append prints_close)

theorem faithful_ecall : Faithful CodegenText.funcEcall Codegen.funcEcall :=
  .of_prints (fun _ _ => (by decide : 4 ≤ 6)) fun _ _ =>
    prints_leave (lex_lit rfl (by decide)) (by decide) (prints_reenter _)

theorem faithful_interp : Faithful CodegenText.funcInterp Codegen.funcInterp :=
  .of_prints (fun _ _ => (by decide : 4 ≤ 6)) fun _ _ =>
    prints_leave (lex_lit rfl (by decide)) (by decide) (prints_reenter _)

theorem faithful_val {value : Insn → U64 → U64} {generator : Generator}
    (lines : ∀ insn pc, generator insn pc = .ok
      { lines := Codegen.regSetVal insn.rd (value insn pc), gp := [insn.rd] }) :
    Faithful (fun insn pc => CodegenText.regSetVal insn.rd (value insn pc)) generator :=
  fun insn pc => .inl ⟨_, lines insn pc, prints_regSetVal _,
    (length_regSetExpr _ _).trans (by decide)⟩

/-- The value that is read from a CSR. -/
theorem prints_zero {reg : Reg} :
    Prints (if reg ≠ 0 then .text (sprintf "    x%d = 0;\n" [.d reg.toNat]) else .nothing)
      (Codegen.regSetExpr reg 0) := by
  by_cases zero : reg = 0
  · subst zero
    exact .nothing
  rw [if_pos zero, Codegen.regSetExpr, if_pos zero]
  have around : Around "    " " = 0;\n" [] [.assign, .num .i32 0, .semi] := by decide
  have printed : sprintf "    x%d = 0;\n" [.d reg.toNat] =
      .ok ("    ".toList ++ (('x' :: Nat.toDigits 10 reg.toNat) ++ " = 0;\n".toList)) := by
    refine around.sprintf (by decide : _ = _ ++ (['x', '%', 'd'] ++ _)) (fun rest => ?_) ?_
    · rw [← signed_reg]
      cases read : printf rest [] <;> simp [printf, read]
    · have digits := length_reg reg
      simp
      omega
  exact .around (.setGp reg 0) around printed (lex_x reg) (by decide) (List.cons_ne_nil _ _)
    (fun rest => rfl) rfl

theorem faithful_csr : Faithful CodegenText.funcCsr Codegen.funcCsr := by
  intro insn pc
  by_cases supported : csrSupported insn.csr
  · left
    refine ⟨_, if_pos supported, ?_⟩
    rw [CodegenText.funcCsr, if_pos supported]
    exact ⟨prints_zero, (length_regSetExpr _ _).trans (by decide)⟩
  · right
    exact ⟨_, if_neg supported, if_neg supported⟩

theorem faithful_fload {type : CInt} {expr : String} {value : CExpr}
    (typeName : TypeName typ (.int type)) (spells : Spells expr.toList value) :
    Faithful (CodegenText.funcFload typ expr) (Codegen.funcFload type value) := by
  refine .of_prints (fun _ _ => by simp [Codegen.memLoad, Codegen.fregSetExpr]) fun insn pc => ?_
  obtain ⟨addr, stored, addresses⟩ := addresses_immAddr insn
  rw [CodegenText.funcFload, stored]
  exact ((prints_regGet .rs1).append (prints_memLoad addresses typeName)).append
    (prints_fregSetExpr spells)

theorem faithful_fstore {type : CInt} (typeName : TypeName typ (.int type)) :
    Faithful (CodegenText.funcFstore typ) (Codegen.funcFstore type) := by
  refine .of_prints (fun _ _ => by simp [Codegen.fregGet, Codegen.memStore]) fun insn pc => ?_
  obtain ⟨addr, stored, addresses⟩ := addresses_immAddr insn
  rw [CodegenText.funcFstore, stored]
  exact ((prints_regGet .rs1).append (prints_fregGet (typeName_int .u64))).append
    (prints_memStore addresses typeName)

section Float

variable {type : CType} {field result : FpField} {expr : String} {value : CExpr}

theorem faithful_fused (typeName : TypeName typ type) (spells : Spells expr.toList value) :
    Faithful (CodegenText.funcFused typ field expr) (Codegen.funcFused type field value) :=
  .of_prints (fun _ _ => (by decide : 4 ≤ 6)) fun _ _ =>
    (((prints_fregGet typeName).append (prints_fregGet typeName)).append
      (prints_fregGet typeName)).append (prints_fregSetExpr spells)

theorem faithful_arith (typeName : TypeName typ type) (spells : Spells expr.toList value) :
    Faithful (CodegenText.funcArith typ field expr) (Codegen.funcArith type field value) :=
  .of_prints (fun _ _ => (by decide : 3 ≤ 6)) fun _ _ =>
    ((prints_fregGet typeName).append (prints_fregGet typeName)).append (prints_fregSetExpr spells)

theorem faithful_fpOfGp (spells : Spells expr.toList value) :
    Faithful (CodegenText.funcFpOfGp expr field) (Codegen.funcFpOfGp value field) :=
  .of_prints (fun _ _ => by simp [Codegen.fregSetExpr]) fun _ _ =>
    (prints_regGet .rs1).append (prints_fregSetExpr spells)

theorem faithful_gpOfFp {type : CInt} (typeName : TypeName typ (.int type))
    (spells : Spells expr.toList value) :
    Faithful (CodegenText.funcGpOfFp typ field expr) (Codegen.funcGpOfFp type field value) :=
  .of_prints (fun _ _ => few_set (by decide : 1 ≤ 5)) fun _ _ =>
    (prints_fregGet typeName).append (prints_regSetExpr spells)

theorem faithful_compare {op : BinOp} (typeName : TypeName typ type)
    (spells : Spells expr.toList (.bin op (.var .rs1) (.var .rs2))) :
    Faithful (CodegenText.funcCompare typ field expr) (Codegen.funcCompare type field op) :=
  .of_prints (fun _ _ => few_set (by decide : 2 ≤ 5)) fun _ _ =>
    ((prints_fregGet typeName).append (prints_fregGet typeName)).append (prints_regSetExpr spells)

theorem faithful_fpOfFp (typeName : TypeName typ type) (spells : Spells expr.toList value) :
    Faithful (CodegenText.funcFpOfFp typ field expr result)
      (Codegen.funcFpOfFp type field value result) :=
  .of_prints (fun _ _ => (by decide : 2 ≤ 6)) fun _ _ =>
    (prints_fregGet typeName).append (prints_fregSetExpr spells)

end Float

end Generators

/-! ## The divisions -/

section Divisions

variable {a b : String} {left right tokens : List Token} {m n : Nat}

/-- Some complete lines. -/
structure LexedLines (n : Nat) (string : String) (tokens : List Token) : Prop where
  lexed : lex string.toList = some tokens
  ended : string.toList.getLast? = some '\n'
  short : string.toList.length ≤ 60 * n

theorem LexedLines.append (first : LexedLines m a left) (second : LexedLines n b right) :
    LexedLines (m + n) (a ++ b) (left ++ right) := by
  refine ⟨?_, ?_, ?_⟩
  · rw [String.toList_append]
    exact lex_append (apart_last (first.ended ▸ rfl)) first.lexed second.lexed
  · rw [String.toList_append, List.getLast?_append, second.ended]
    rfl
  · rw [String.toList_append, List.length_append, Nat.mul_add]
    exact Nat.add_le_add first.short second.short

/-- The declaration of the result and the chain after it. -/
theorem prints_chain {chain : String} {arms : List (CExpr × CExpr)} {other : CExpr}
    (lines : LexedLines n chain left) (few : n ≤ 10)
    (decl : left = [.type (.int .u64), .var .rd, .assign, .num .i32 0, .semi] ++ tokens)
    (nonempty : tokens ≠ [])
    (parsed : ∀ rest, readLine (tokens ++ rest) = some (.choose .rd arms other, rest)) :
    Prints (.lit chain) [.declZero .rd, .choose .rd arms other] := by
  have reads : ∀ rest, readLines (left ++ rest) =
      ([.declZero .rd, .choose .rd arms other] ++ ·) <$> readLines rest := by
    intro rest
    rw [decl, List.append_assoc, readLines_cons (List.cons_ne_nil _ _) rfl,
      readLines_cons nonempty (parsed rest)]
    cases readLines rest <;> rfl
  refine ⟨_, rfl, ⟨?_, ?_, left, _, ?_, reads, rfl⟩⟩
  · rw [List.flatten_singleton, lines.ended]
    rfl
  · rw [List.flatten_singleton]
    exact lines.short.trans (Nat.mul_le_mul_left 60 few)
  · rw [List.flatten_singleton, lines.lexed]

theorem lines_decl :
    LexedLines 1 "    uint64_t rd = 0;                                   \n"
      [.type (.int .u64), .var .rd, .assign, .num .i32 0, .semi] :=
  ⟨lex_lit rfl (by decide), by decide, by decide⟩

theorem lines_zero :
    LexedLines 1 "    if (rs2 == 0) \x7b                                    \n"
      [.ifKw, .lparen, .var .rs2, .op .eq, .num .i32 0, .rparen, .lbrace] :=
  ⟨lex_lit rfl (by decide), by decide, by decide⟩

theorem lines_overflow :
    LexedLines 1 "    \x7d else if (rs1 == INT64_MIN && rs2 == UINT64_MAX) \x7b\n"
      [.rbrace, .elseKw, .ifKw, .lparen, .var .rs1, .op .eq, .num .i64 (BitVec.intMin 64),
        .op .land, .var .rs2, .op .eq, .num .u64 (-1), .rparen, .lbrace] :=
  ⟨lex_lit rfl (by decide), by decide, by decide⟩

theorem lines_else :
    LexedLines 1 "    \x7d else \x7b                                           \n"
      [.rbrace, .elseKw, .lbrace] :=
  ⟨lex_lit rfl (by decide), by decide, by decide⟩

theorem lines_close :
    LexedLines 1 "    \x7d                                                  \n" [.rbrace] :=
  ⟨lex_lit rfl (by decide), by decide, by decide⟩

theorem faithful_div : Faithful CodegenText.funcDiv Codegen.funcDiv := by
  have ones : LexedLines 1 "        rd = UINT64_MAX;                               \n"
      [.var .rd, .assign, .num .u64 (-1), .semi] := ⟨lex_lit rfl (by decide), by decide, by decide⟩
  have least : LexedLines 1 "        rd = INT64_MIN;                                \n"
      [.var .rd, .assign, .num .i64 (BitVec.intMin 64), .semi] :=
    ⟨lex_lit rfl (by decide), by decide, by decide⟩
  have quotient : LexedLines 1 "        rd = (int64_t)rs1 / (int64_t)rs2;              \n"
      [.var .rd, .assign, .lparen, .type (.int .i64), .rparen, .var .rs1, .op .div, .lparen,
        .type (.int .i64), .rparen, .var .rs2, .semi] := ⟨lex_lit rfl (by decide), by decide, by decide⟩
  exact faithful_choose (prints_chain (((((((lines_decl.append lines_zero).append ones).append
    lines_overflow).append least).append lines_else).append quotient).append lines_close)
    (by decide) rfl (List.cons_ne_nil _ _) fun rest => rfl)

theorem faithful_rem : Faithful CodegenText.funcRem Codegen.funcRem := by
  have first : LexedLines 1 "        rd = rs1;                                      \n"
      [.var .rd, .assign, .var .rs1, .semi] := ⟨lex_lit rfl (by decide), by decide, by decide⟩
  have zero : LexedLines 1 "        rd = 0;                                        \n"
      [.var .rd, .assign, .num .i32 0, .semi] := ⟨lex_lit rfl (by decide), by decide, by decide⟩
  have remainder : LexedLines 1 "        rd = (int64_t)rs1 % (int64_t)rs2;              \n"
      [.var .rd, .assign, .lparen, .type (.int .i64), .rparen, .var .rs1, .op .rem, .lparen,
        .type (.int .i64), .rparen, .var .rs2, .semi] := ⟨lex_lit rfl (by decide), by decide, by decide⟩
  exact faithful_choose (prints_chain (((((((lines_decl.append lines_zero).append first).append
    lines_overflow).append zero).append lines_else).append remainder).append lines_close)
    (by decide) rfl (List.cons_ne_nil _ _) fun rest => rfl)

theorem faithful_divu : Faithful CodegenText.funcDivu Codegen.funcDivu := by
  have decl : LexedLines 1 "    uint64_t rd = 0;    \n"
      [.type (.int .u64), .var .rd, .assign, .num .i32 0, .semi] :=
    ⟨lex_lit rfl (by decide), by decide, by decide⟩
  have test : LexedLines 1 "    if (rs2 == 0) \x7b     \n"
      [.ifKw, .lparen, .var .rs2, .op .eq, .num .i32 0, .rparen, .lbrace] :=
    ⟨lex_lit rfl (by decide), by decide, by decide⟩
  have ones : LexedLines 1 "        rd = UINT64_MAX;\n"
      [.var .rd, .assign, .num .u64 (-1), .semi] := ⟨lex_lit rfl (by decide), by decide, by decide⟩
  have other : LexedLines 1 "    \x7d else \x7b            \n" [.rbrace, .elseKw, .lbrace] :=
    ⟨lex_lit rfl (by decide), by decide, by decide⟩
  have quotient : LexedLines 1 "        rd = rs1 / rs2; \n"
      [.var .rd, .assign, .var .rs1, .op .div, .var .rs2, .semi] :=
    ⟨lex_lit rfl (by decide), by decide, by decide⟩
  have close : LexedLines 1 "    \x7d                   \n" [.rbrace] :=
    ⟨lex_lit rfl (by decide), by decide, by decide⟩
  exact faithful_choose (prints_chain (((((decl.append test).append ones).append other).append
    quotient).append close) (by decide) rfl (List.cons_ne_nil _ _) fun rest => rfl)

end Divisions

/-! ## The register-immediate operations -/

section Immediates

open CExpr Local

theorem faithful_addi : Faithful CodegenText.funcAddi Codegen.funcAddi := by
  have around : Around "rs1 + (int64_t)" ""
      [.var .rs1, .op .add, .lparen, .type (.int .i64), .rparen] [] := by decide
  exact faithful_imm fun insn => stores_immLd (fun e => var rs1 + e.as .i64)
    around (by decide) (fun v => rfl) (fun v => rfl) fun v => rfl

theorem faithful_slti : Faithful CodegenText.funcSlti Codegen.funcSlti := by
  have around : Around "(int64_t)rs1 < (int64_t)" " ? 1 : 0"
      [.lparen, .type (.int .i64), .rparen, .var .rs1, .op .lt, .lparen, .type (.int .i64), .rparen]
      [.question, .num .i32 1, .colon, .num .i32 0] := by decide
  exact faithful_imm fun insn =>
    stores_immLd (fun e => cond (bin .lt ((var rs1).as .i64) (e.as .i64)) 1 0)
      around (by decide) (fun v => rfl) (fun v => rfl) fun v => rfl

theorem faithful_xori : Faithful CodegenText.funcXori Codegen.funcXori := by
  have around : Around "rs1 ^ " "" [.var .rs1, .op .xor] [] := by decide
  exact faithful_imm fun insn => stores_immLd (fun e => var rs1 ^^^ e)
    around (by decide) (fun v => rfl) (fun v => rfl) fun v => rfl

theorem faithful_addiw : Faithful CodegenText.funcAddiw Codegen.funcAddiw := by
  have around : Around "(int64_t)(int32_t)(rs1 + (int64_t)" ")"
      [.lparen, .type (.int .i64), .rparen, .lparen, .type (.int .i32), .rparen, .lparen,
        .var .rs1, .op .add, .lparen, .type (.int .i64), .rparen] [.rparen] := by decide
  exact faithful_imm fun insn => stores_immLd (fun e => ((var rs1 + e.as .i64).as .i32).as .i64)
    around (by decide) (fun v => rfl) (fun v => rfl) fun v => rfl

theorem faithful_sltiu : Faithful CodegenText.funcSltiu Codegen.funcSltiu := by
  have around : Around "rs1 < " " ? 1 : 0"
      [.var .rs1, .op .lt] [.question, .num .i32 1, .colon, .num .i32 0] := by decide
  exact faithful_imm fun insn => stores_immLu (fun e => cond (bin .lt (var rs1) e) 1 0)
    around (by decide) fun v => rfl

theorem faithful_ori : Faithful CodegenText.funcOri Codegen.funcOri := by
  have around : Around "rs1 | " "" [.var .rs1, .op .or] [] := by decide
  exact faithful_imm fun insn => stores_immLu (fun e => var rs1 ||| e)
    around (by decide) fun v => rfl

theorem faithful_andi : Faithful CodegenText.funcAndi Codegen.funcAndi := by
  have around : Around "rs1 & " "" [.var .rs1, .op .and] [] := by decide
  exact faithful_imm fun insn => stores_immLu (fun e => var rs1 &&& e)
    around (by decide) fun v => rfl

theorem faithful_slli : Faithful CodegenText.funcSlli Codegen.funcSlli := by
  have around : Around "rs1 << " "" [.var .rs1, .op .shl] [] := by decide
  exact faithful_imm fun insn => stores_immAnd (fun e => var rs1 <<< e)
    around (by decide) (by decide) fun v => rfl

theorem faithful_srli : Faithful CodegenText.funcSrli Codegen.funcSrli := by
  have around : Around "rs1 >> " "" [.var .rs1, .op .shr] [] := by decide
  exact faithful_imm fun insn => stores_immAnd (fun e => var rs1 >>> e)
    around (by decide) (by decide) fun v => rfl

theorem faithful_srai : Faithful CodegenText.funcSrai Codegen.funcSrai := by
  have around : Around "(int64_t)rs1 >> " ""
      [.lparen, .type (.int .i64), .rparen, .var .rs1, .op .shr] [] := by decide
  exact faithful_imm fun insn => stores_immAnd (fun e => (var rs1).as .i64 >>> e)
    around (by decide) (by decide) fun v => rfl

theorem faithful_slliw : Faithful CodegenText.funcSlliw Codegen.funcSlliw := by
  have around : Around "(int64_t)(int32_t)(rs1 << " ")"
      [.lparen, .type (.int .i64), .rparen, .lparen, .type (.int .i32), .rparen, .lparen,
        .var .rs1, .op .shl] [.rparen] := by decide
  exact faithful_imm fun insn => stores_immAnd (fun e => ((var rs1 <<< e).as .i32).as .i64)
    around (by decide) (by decide) fun v => rfl

theorem faithful_srliw : Faithful CodegenText.funcSrliw Codegen.funcSrliw := by
  have around : Around "(int64_t)(int32_t)((uint32_t)rs1 >> " ")"
      [.lparen, .type (.int .i64), .rparen, .lparen, .type (.int .i32), .rparen, .lparen,
        .lparen, .type (.int .u32), .rparen, .var .rs1, .op .shr] [.rparen] := by decide
  exact faithful_imm fun insn =>
    stores_immAnd (fun e => (((var rs1).as .u32 >>> e).as .i32).as .i64)
      around (by decide) (by decide) fun v => rfl

theorem faithful_sraiw : Faithful CodegenText.funcSraiw Codegen.funcSraiw := by
  have around : Around "(int64_t)((int32_t)rs1 >> " ")"
      [.lparen, .type (.int .i64), .rparen, .lparen, .lparen, .type (.int .i32), .rparen,
        .var .rs1, .op .shr] [.rparen] := by decide
  exact faithful_imm fun insn => stores_immAnd (fun e => ((var rs1).as .i32 >>> e).as .i64)
    around (by decide) (by decide) fun v => rfl

end Immediates

/-! ## Dispatch -/

/-- **The printed text reads back**, for every kind of instruction. -/
theorem codegenTexts_faithful (type : InsnType) :
    Faithful (codegenTexts type) (codegenFuncs type) := by
  cases type with
  | lb =>
      exact faithful_load (typeName_int .i8)
  | lh =>
      exact faithful_load (typeName_int .i16)
  | lw =>
      exact faithful_load (typeName_int .i32)
  | ld =>
      exact faithful_load (typeName_int .i64)
  | lbu =>
      exact faithful_load (typeName_int .u8)
  | lhu =>
      exact faithful_load (typeName_int .u16)
  | lwu =>
      exact faithful_load (typeName_int .u32)
  | fence | fenceI =>
      exact .of_prints (fun _ _ => Nat.zero_le 6) fun _ _ => .nothing
  | addi =>
      exact faithful_addi
  | slli =>
      exact faithful_slli
  | slti =>
      exact faithful_slti
  | sltiu =>
      exact faithful_sltiu
  | xori =>
      exact faithful_xori
  | srli =>
      exact faithful_srli
  | srai =>
      exact faithful_srai
  | ori =>
      exact faithful_ori
  | andi =>
      exact faithful_andi
  | auipc | lui =>
      exact faithful_val fun _ _ => rfl
  | addiw =>
      exact faithful_addiw
  | slliw =>
      exact faithful_slliw
  | srliw =>
      exact faithful_srliw
  | sraiw =>
      exact faithful_sraiw
  | sb =>
      exact faithful_store (typeName_int .u8)
  | sh =>
      exact faithful_store (typeName_int .u16)
  | sw =>
      exact faithful_store (typeName_int .u32)
  | sd =>
      exact faithful_store (typeName_int .u64)
  | add | sll | slt | sltu | xor | srl | or | and | mul | remu | sub | sra | addw | sllw | srlw
  | mulw | divw | divuw | remw | remuw | subw | sraw =>
      exact faithful_reg (.lit rfl rfl (by decide))
  | mulh | mulhsu | mulhu | fsqrtS | fsgnjS | fsgnjnS | fsgnjxS | fcvtWS | fcvtWuS | fclassS
  | fcvtLS | fcvtLuS | fsqrtD | fsgnjD | fsgnjnD | fsgnjxD | fclassD | fcvtWD | fcvtWuD | fcvtLD
  | fcvtLuD =>
      exact faithful_interp
  | div =>
      exact faithful_div
  | divu =>
      exact faithful_divu
  | rem =>
      exact faithful_rem
  | beq | bne | bltu | bgeu =>
      exact faithful_branch (typeName_int .u64) ⟨lex_lit rfl (by decide), by decide⟩
  | blt | bge =>
      exact faithful_branch (typeName_int .i64) ⟨lex_lit rfl (by decide), by decide⟩
  | jalr =>
      exact faithful_jalr
  | jal =>
      exact faithful_jal
  | ecall =>
      exact faithful_ecall
  | csrrc | csrrci | csrrs | csrrsi | csrrw | csrrwi =>
      exact faithful_csr
  | flw =>
      exact faithful_fload (typeName_int .u32) (.lit rfl rfl (by decide))
  | fsw =>
      exact faithful_fstore (typeName_int .u32)
  | fmaddS | fmsubS | fnmsubS | fnmaddS =>
      exact faithful_fused typeName_float (.lit rfl rfl (by decide))
  | faddS | fsubS | fmulS | fdivS | fminS | fmaxS =>
      exact faithful_arith typeName_float (.lit rfl rfl (by decide))
  | fmvXW =>
      exact faithful_gpOfFp (typeName_int .u32) (.lit rfl rfl (by decide))
  | feqS | fltS | fleS =>
      exact faithful_compare typeName_float (.lit rfl rfl (by decide))
  | fcvtSW | fcvtSWu | fmvWX | fcvtSL | fcvtSLu | fcvtDW | fcvtDWu | fcvtDL | fcvtDLu | fmvDX =>
      exact faithful_fpOfGp (.lit rfl rfl (by decide))
  | fld =>
      exact faithful_fload (typeName_int .u64) (.lit rfl rfl (by decide))
  | fsd =>
      exact faithful_fstore (typeName_int .u64)
  | fmaddD | fmsubD | fnmsubD | fnmaddD =>
      exact faithful_fused typeName_double (.lit rfl rfl (by decide))
  | faddD | fsubD | fmulD | fdivD | fminD | fmaxD =>
      exact faithful_arith typeName_double (.lit rfl rfl (by decide))
  | fcvtSD =>
      exact faithful_fpOfFp typeName_double (.lit rfl rfl (by decide))
  | fcvtDS =>
      exact faithful_fpOfFp typeName_float (.lit rfl rfl (by decide))
  | feqD | fltD | fleD =>
      exact faithful_compare typeName_double (.lit rfl rfl (by decide))
  | fmvXD =>
      exact faithful_gpOfFp (typeName_int .u64) (.lit rfl rfl (by decide))

theorem length_codegenFuncs {type : InsnType} {insn : Insn} {pc : U64} {emission : Emission}
    (generated : codegenFuncs type insn pc = .ok emission) : emission.lines.length ≤ 6 := by
  rcases codegenTexts_faithful type insn pc with ⟨emission', generated', -, few⟩ | ⟨_, died, -⟩
  · rw [generated] at generated'
    cases generated'
    exact few
  · rw [generated] at died
    cases died

end RiscvEmu
