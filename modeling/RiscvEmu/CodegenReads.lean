import RiscvEmu.CLexing
import RiscvEmu.CFolding
import RiscvEmu.CodegenText

/-!
# The printed text reads back

What a macro of the generators prints is C that reads as the lines it stands for, up to the minus in
front of a literal (`Prints`), and no `sprintf` overflows its buffer on the way.

An expression in a buffer takes at most 102 characters, those of the longest one of `funcRemw`,
and the line around it at most 25 more with the terminator.
-/

set_option autoImplicit false

namespace RiscvEmu

open Printing Scanning CReader

section Definitions

/-- A text in a buffer is an expression, and leaves room for what is printed around it. -/
structure Spells (text : Text) (expr : CExpr) : Prop where
  reads : ∃ read, readExpr text = some read ∧ read.fold = expr.fold
  short : text.length ≤ 102

/-- What has been appended reads as lines of the function. -/
structure Reads (texts : List Text) (lines : List Line) : Prop where
  /-- The last line is complete. -/
  closed : texts.flatten.getLast?.all loose = true
  short : texts.flatten.length ≤ 300 * lines.length
  reads : ∃ tokens read, lex texts.flatten = some tokens ∧
    (∀ rest, readLines (tokens ++ rest) = (read ++ ·) <$> readLines rest) ∧
    SameLiterals read lines

/-- A generator appends texts that read as the lines. -/
def Prints (appends : Appends) (lines : List Line) : Prop :=
  ∃ texts, appends = .ok texts ∧ Reads texts lines

/-- The name of a type, as a macro pastes or prints it. -/
structure TypeName (typ : String) (type : CType) : Prop where
  lexed : lex typ.toList = some [.type type]
  plain : '%' ∉ typ.toList
  short : typ.toList.length ≤ 8

end Definitions

/-! ## Buffers -/

theorem sprintf_ok {format : String} {chars : List Char} {args : List Arg} {text : Text}
    (literal : format = String.ofList chars) (prints : printf chars args = some text)
    (short : text.length < bufSize) : sprintf format args = .ok text := by
  rw [sprintf, literal, String.toList_ofList, prints]
  exact if_pos short

theorem length_sprintf {format : String} {args : List Arg} {text : Text}
    (printed : sprintf format args = .ok text) : text.length < bufSize := by
  unfold sprintf at printed
  split at printed
  · split at printed
    · next small =>
        cases printed
        exact small
    · cases printed
  · cases printed

theorem lex_lit {string : String} {chars : List Char} {tokens : List Token}
    (literal : string = String.ofList chars) (lexed : lex chars = some tokens) :
    lex string.toList = some tokens := by
  rw [literal, String.toList_ofList, lexed]

/-- Strings that are pasted together. -/
theorem pasted {a b : String} {as bs : List Char} (first : a = String.ofList as)
    (second : b = String.ofList bs) : a ++ b = String.ofList (as ++ bs) := by
  rw [first, second, String.ofList_append]

/-- A string that is pasted as an argument of a macro. -/
theorem pasted_self (string : String) : string = String.ofList string.toList :=
  String.ofList_toList.symm

theorem lex_name (name : Local) : lex name.name.toList = some [.var name] := by
  cases name <;> exact lex_lit rfl (by decide)

theorem lex_field (field : FpField) : lex field.name.toList = some [.field field] := by
  cases field <;> exact lex_lit rfl (by decide)

theorem plain_name (name : Local) : '%' ∉ name.name.toList := by cases name <;> decide

theorem plain_field (field : FpField) : '%' ∉ field.name.toList := by cases field <;> decide

theorem length_name (name : Local) : name.name.toList.length ≤ 3 := by cases name <;> decide

theorem length_field (field : FpField) : field.name.toList.length ≤ 1 := by cases field <;> decide

theorem length_reg (reg : Reg) : (Nat.toDigits 10 reg.toNat).length ≤ 2 :=
  length_toDigits_le (by decide) (reg.isLt.trans (by decide))

theorem length_pc (pc : U64) : (Nat.toDigits 16 pc.toNat).length ≤ 16 :=
  length_toDigits_le (by decide) (pc.isLt.trans_eq (by decide))

theorem length_unsigned (value : U64) : (Nat.toDigits 10 value.toNat).length ≤ 20 :=
  length_toDigits_le (by decide) (value.isLt.trans (by decide))

theorem length_signed (value : U64) : (signed value.toInt).length ≤ 20 := by
  apply length_signed_le
  have bounds := BitVec.toInt_eq_toNat_cond value
  have range := value.isLt
  omega

theorem signed_reg (reg : Reg) : signed reg.toNat = Nat.toDigits 10 reg.toNat := by
  rw [signed, if_neg (by omega), Int.natAbs_natCast]

/-- `%d` of a register number. -/
theorem lex_reg (reg : Reg) :
    lex (Nat.toDigits 10 reg.toNat) = some [.num .i32 (reg.setWidth 64)] := by
  have small : reg.toNat < 2 ^ 31 := reg.isLt.trans (by decide)
  rw [← signed_reg, lex_int small, BitVec.ofNat_toNat]

/-! ## Expressions -/

section Expressions

variable {text : Text} {expr : CExpr}

/-- An expression without a number in it. -/
theorem Spells.lit {string : String} {chars : List Char} (literal : string = String.ofList chars)
    (reads : readExpr chars = some expr) (short : chars.length ≤ 102) :
    Spells string.toList expr := by
  rw [literal, String.toList_ofList]
  exact ⟨⟨expr, reads, rfl⟩, short⟩

theorem Spells.of_lexed {tokens : List Token} {read : CExpr} (lexed : lex text = some tokens)
    (parsed : readCond nesting tokens = some (read, [])) (folded : read.fold = expr.fold)
    (short : text.length ≤ 102) : Spells text expr := by
  refine ⟨⟨read, ?_, folded⟩, short⟩
  rw [readExpr, lexed, Option.bind_eq_bind, Option.bind_some, parsed]
  rfl

theorem Spells.lexed (spells : Spells text expr) : ∃ tokens read, lex text = some tokens ∧
    readCond nesting tokens = some (read, []) ∧ read.fold = expr.fold := by
  obtain ⟨⟨read, reads, same⟩, -⟩ := spells
  rw [readExpr] at reads
  obtain ⟨tokens, lexed, reads⟩ := Option.bind_eq_some_iff.mp reads
  obtain ⟨⟨read', rest⟩, parsed, found⟩ := Option.bind_eq_some_iff.mp reads
  match rest with
  | [] =>
      cases found
      exact ⟨tokens, read, lexed, parsed, same⟩

theorem readTo_of {tokens rest : List Token} {read : CExpr} {last : Token}
    (parsed : readCond nesting tokens = some (read, [])) (stops : Stops [last]) :
    readTo last (tokens ++ last :: rest) = some (read, rest) := by
  have goesOn : Stops (last :: rest) := fun t head => stops t head
  have inner := local_readCond nesting tokens [] (last :: rest) read goesOn parsed
  simp [readTo, inner]

theorem stops_semi : Stops [.semi] := by simp [Stops]

theorem stops_rparen : Stops [.rparen] := by simp [Stops]

end Expressions

/-! ## Appends -/

section Appends

variable {a b : Appends} {left right : List Line} {out : Line} {text : Text}
  {format : String} {args : List Arg} {tokens : List Token}

theorem Reads.append {first second : List Text} (before : Reads first left)
    (after : Reads second right) : Reads (first ++ second) (left ++ right) := by
  obtain ⟨closed, short, tokens, read, lexed, parsed, same⟩ := before
  obtain ⟨closed', short', tokens', read', lexed', parsed', same'⟩ := after
  refine ⟨?_, ?_, tokens ++ tokens', read ++ read', ?_, ?_, ?_⟩
  · rw [List.flatten_append, List.getLast?_append]
    match last : second.flatten.getLast? with
    | none => exact closed
    | some c => rwa [last] at closed'
  · rw [List.flatten_append, List.length_append, List.length_append]
    omega
  · rw [List.flatten_append]
    exact lex_append (apart_last closed) lexed lexed'
  · intro rest
    rw [List.append_assoc, parsed, parsed']
    cases readLines rest <;> simp
  · rw [SameLiterals, List.map_append, List.map_append, same, same']

theorem Reads.nil : Reads [] [] :=
  ⟨rfl, le_rfl, [], [], rfl, fun rest => by cases h : readLines rest <;> simp [h], rfl⟩

theorem Prints.nothing : Prints .nothing [] := ⟨[], rfl, .nil⟩

theorem Prints.append (before : Prints a left) (after : Prints b right) :
    Prints (a ++ b) (left ++ right) := by
  obtain ⟨first, rfl, reads⟩ := before
  obtain ⟨second, rfl, reads'⟩ := after
  exact ⟨first ++ second, rfl, reads.append reads'⟩

theorem closed_append {a b : Text} (closed : b.getLast?.all loose = true) (nonempty : b ≠ []) :
    (a ++ b).getLast?.all loose = true := by
  rw [List.getLast?_append_of_ne_nil a nonempty, closed]

/-- The text of one line. -/
theorem Reads.line {texts : List Text} (flat : texts.flatten = text) (read : Line)
    (closed : text.getLast?.all loose = true) (short : text.length ≤ 300)
    (lexed : lex text = some tokens) (nonempty : tokens ≠ [])
    (parsed : ∀ rest, readLine (tokens ++ rest) = some (read, rest))
    (folded : read.fold = out.fold) : Reads texts [out] := by
  refine ⟨by rwa [flat], by rwa [flat], tokens, [read], by rwa [flat], fun rest => ?_, ?_⟩
  · rw [readLines_cons nonempty (parsed rest)]
    rfl
  · rw [SameLiterals, List.map_singleton, List.map_singleton, folded]

theorem Prints.line (read : Line) (printed : sprintf format args = .ok text)
    (closed : text.getLast?.all loose = true) (lexed : lex text = some tokens)
    (nonempty : tokens ≠ []) (parsed : ∀ rest, readLine (tokens ++ rest) = some (read, rest))
    (folded : read.fold = out.fold) : Prints (.text (sprintf format args)) [out] := by
  have short := (length_sprintf printed).le.trans (by decide : bufSize ≤ 300)
  rw [printed]
  exact ⟨_, rfl, .line List.flatten_singleton read closed short lexed nonempty parsed folded⟩

/-- A line that is a string literal. -/
theorem Prints.lit {string : String} {chars : List Char} (literal : string = String.ofList chars)
    (closed : chars.getLast?.all loose = true) (short : chars.length ≤ 300)
    (lexed : lex chars = some tokens) (nonempty : tokens ≠ [])
    (parsed : ∀ rest, readLine (tokens ++ rest) = some (out, rest)) :
    Prints (.lit string) [out] := by
  have text : string.toList = chars := by rw [literal, String.toList_ofList]
  exact ⟨_, rfl, .line (List.flatten_singleton.trans text) out closed short lexed nonempty parsed
    rfl⟩

end Appends

/-! ## The macros -/

section Macros

variable {reg : Reg} {expr : Text} {value : CExpr} {typ : String}

theorem lex_indent : lex "    ".toList = some [] := lex_lit rfl (by decide)
theorem lex_space : lex " ".toList = some [] := lex_lit rfl (by decide)
theorem lex_assign : lex " = ".toList = some [.assign] := lex_lit rfl (by decide)
theorem lex_semi : lex ";\n".toList = some [.semi] := lex_lit rfl (by decide)
theorem lex_zero : lex " = 0;\n".toList = some [.assign, .num .i32 0, .semi] :=
  lex_lit rfl (by decide)
theorem lex_uint64 : lex "    uint64_t ".toList = some [.type (.int .u64)] :=
  lex_lit rfl (by decide)
theorem lex_dot : lex ".".toList = some [.dot] := lex_lit rfl (by decide)

/-- `REG_SET_EXPR`. -/
theorem prints_regSetExpr (spells : Spells expr value) :
    Prints (CodegenText.regSetExpr reg expr) (Codegen.regSetExpr reg value) := by
  by_cases zero : reg = 0
  · subst zero
    exact .nothing
  rw [CodegenText.regSetExpr, if_pos zero, Codegen.regSetExpr, if_pos zero]
  obtain ⟨tokens, read, lexed, parsed, folded⟩ := spells.lexed
  have printed : sprintf "    x%d = %s;\n" [.d reg.toNat, .s expr] = .ok ("    ".toList ++
      (('x' :: Nat.toDigits 10 reg.toNat) ++ (" = ".toList ++ expr)) ++ ";\n".toList) := by
    apply sprintf_ok rfl
    · rw [← signed_reg]
      simp [printf]
    · have digits := length_reg reg
      have short := spells.short
      simp [bufSize]
      omega
  have words := lex_append (apart_head rfl) (lex_x reg)
    (lex_append (apart_last rfl) lex_assign lexed)
  refine .line (.setGp reg read) printed (closed_append rfl (by simp))
    (lex_append (apart_head rfl) (lex_append (apart_last rfl) lex_indent words) lex_semi)
    (List.cons_ne_nil _ _) (fun rest => ?_) ?_
  · rw [List.append_assoc]
    exact Option.bind_eq_some_iff.mpr ⟨_, readTo_of parsed stops_semi, rfl⟩
  · rw [Line.fold, folded, Line.fold]

/-- `REG_SET_VAL`. -/
theorem prints_regSetVal (val : U64) :
    Prints (CodegenText.regSetVal reg val) (Codegen.regSetVal reg val) := by
  by_cases zero : reg = 0
  · subst zero
    exact .nothing
  rw [CodegenText.regSetVal, if_pos zero, Codegen.regSetVal, Codegen.regSetExpr, if_pos zero]
  obtain ⟨tokens, read, literal, lexed⟩ := lex_signed val
  have printed : sprintf "    x%d = %ldLL;\n" [.d reg.toNat, .ld val.toInt] = .ok ("    ".toList ++
      (('x' :: Nat.toDigits 10 reg.toNat) ++ (" = ".toList ++ (signed val.toInt ++ ['L', 'L']))) ++
      ";\n".toList) := by
    apply sprintf_ok rfl
    · rw [← signed_reg]
      simp [printf]
    · have digits := length_reg reg
      have short := length_signed val
      simp [bufSize]
      omega
  have words := lex_append (apart_head rfl) (lex_x reg)
    (lex_append (apart_last rfl) lex_assign lexed)
  have lexed := lex_append (apart_head rfl) (lex_append (apart_last rfl) lex_indent words) lex_semi
  cases literal with
  | pos =>
      exact .line (.setGp reg (.lit .i64 val)) printed (closed_append rfl (by simp)) lexed
        (List.cons_ne_nil _ _) (fun rest => rfl) rfl
  | neg =>
      refine .line (.setGp reg (.neg (.lit .i64 (-val)))) printed
        (closed_append rfl (by simp)) lexed (List.cons_ne_nil _ _) (fun rest => rfl) ?_
      simp [Line.fold, CExpr.fold, CExpr.negate]
  | least =>
      exact .line (.setGp reg (.neg (.lit .u64 (BitVec.intMin 64)))) printed
        (closed_append rfl (by simp)) lexed (List.cons_ne_nil _ _) (fun rest => rfl)
        (congrArg (Line.setGp reg) (by decide))

/-- `REG_GET`. -/
theorem prints_regGet (name : Local) :
    Prints (CodegenText.regGet reg name) (Codegen.regGet reg name) := by
  by_cases zero : reg = 0
  · rw [CodegenText.regGet, if_pos zero, Codegen.regGet, if_pos zero]
    have words := lex_append (apart_head rfl)
      (lex_append (apart_last rfl) lex_uint64 (lex_name name)) lex_zero
    refine .lit (pasted (pasted (pasted_self _) (pasted_self _)) (pasted_self _))
      (closed_append rfl (by simp)) ?_ words (List.cons_ne_nil _ _) (fun rest => rfl)
    have short := length_name name
    simp at short ⊢
    omega
  rw [CodegenText.regGet, if_neg zero, Codegen.regGet, if_neg zero]
  have printed : sprintf ("    uint64_t " ++ name.name ++ " = x%d;\n") [.d reg.toNat] =
      .ok ("    uint64_t ".toList ++ (name.name.toList ++ (" = ".toList ++
        ('x' :: Nat.toDigits 10 reg.toNat))) ++ ";\n".toList) := by
    have plain := plain_name name
    apply sprintf_ok (pasted (pasted rfl (pasted_self _)) rfl)
    · rw [← signed_reg, printf_append (by simp [plain])]
      simp [printf]
    · have digits := length_reg reg
      have short := length_name name
      simp [bufSize] at short ⊢
      omega
  have words := lex_append (apart_head rfl) (lex_name name)
    (lex_append (apart_last rfl) lex_assign (lex_x reg))
  exact .line (.declGp name reg) printed (closed_append rfl (by simp))
    (lex_append (apart_head rfl) (lex_append (apart_last rfl) lex_uint64 words) lex_semi)
    (List.cons_ne_nil _ _) (fun rest => rfl) rfl

/-- `FREG_SET_EXPR`. -/
theorem prints_fregSetExpr {field : FpField} (spells : Spells expr value) :
    Prints (CodegenText.fregSetExpr reg expr field) (Codegen.fregSetExpr reg value field) := by
  obtain ⟨tokens, read, lexed, parsed, folded⟩ := spells.lexed
  have printed : sprintf ("    f%d." ++ field.name ++ " = %s;\n") [.d reg.toNat, .s expr] =
      .ok ("    ".toList ++ (('f' :: Nat.toDigits 10 reg.toNat) ++ (".".toList ++
        (field.name.toList ++ (" = ".toList ++ expr)))) ++ ";\n".toList) := by
    have plain := plain_field field
    apply sprintf_ok (pasted (pasted rfl (pasted_self _)) rfl)
    · rw [← signed_reg]
      simp [printf, printf_append plain]
    · have digits := length_reg reg
      have name := length_field field
      have short := spells.short
      simp [bufSize] at name ⊢
      omega
  have member := lex_append (apart_last rfl) lex_dot (lex_append (apart_head rfl) (lex_field field)
    (lex_append (apart_last rfl) lex_assign lexed))
  have words := lex_append (apart_last rfl) lex_indent
    (lex_append (apart_head rfl) (lex_f reg) member)
  refine .line (.setFp reg field read) printed (closed_append rfl (by simp))
    (lex_append (apart_head rfl) words lex_semi) (List.cons_ne_nil _ _) (fun rest => ?_) ?_
  · rw [List.append_assoc]
    exact Option.bind_eq_some_iff.mpr ⟨_, readTo_of parsed stops_semi, rfl⟩
  · rw [Line.fold, folded, Line.fold]

/-- `FREG_GET`. -/
theorem prints_fregGet {name : Local} {type : CType} {field : FpField}
    (typeName : TypeName typ type) :
    Prints (CodegenText.fregGet reg name typ field) (Codegen.fregGet reg name type field) := by
  have printed : sprintf ("    " ++ typ ++ " " ++ name.name ++ " = f%d." ++ field.name ++ ";\n")
      [.d reg.toNat] = .ok ("    ".toList ++ (typ.toList ++ (" ".toList ++ (name.name.toList ++
        (" = ".toList ++ (('f' :: Nat.toDigits 10 reg.toNat) ++ (".".toList ++
          field.name.toList)))))) ++ ";\n".toList) := by
    have plain := plain_field field
    have plain' := plain_name name
    apply sprintf_ok (pasted (pasted (pasted (pasted (pasted (pasted rfl (pasted_self _)) rfl)
      (pasted_self _)) rfl) (pasted_self _)) rfl)
    · rw [← signed_reg]
      simp [printf, printf_append plain, printf_append plain', printf_append typeName.plain]
    · have digits := length_reg reg
      have member := length_field field
      have short := length_name name
      have type := typeName.short
      simp [bufSize] at member short type ⊢
      omega
  have member := lex_append (apart_head rfl) (lex_f reg)
    (lex_append (apart_last rfl) lex_dot (lex_field field))
  have assigned := lex_append (apart_head rfl) (lex_name name)
    (lex_append (apart_last rfl) lex_assign member)
  have words := lex_append (apart_last rfl) lex_indent (lex_append (apart_head rfl) typeName.lexed
    (lex_append (apart_last rfl) lex_space assigned))
  refine .line (.declFp type name reg field) printed (closed_append rfl (by simp))
    (lex_append (apart_head rfl) words lex_semi) (List.cons_ne_nil _ _) (fun rest => ?_) rfl
  cases type with
  | int type => cases type <;> rfl
  | float | double => rfl

end Macros

/-! ## Memory -/

section Memory

variable {insn : Insn} {typ : String} {type : CInt} {addr : Text} {tokens : List Token}
  {value read : CExpr}

/-- A text in a buffer is an argument for `TO_HOST`. -/
structure Addresses (addr : Text) (value : CExpr) : Prop where
  reads : ∃ tokens read, lex addr = some tokens ∧
    readBinary nesting (level .add) tokens = some (read, []) ∧ read.fold = value.fold
  short : addr.length ≤ 40

theorem readAddr_of {rest : List Token}
    (parsed : readBinary nesting (level .add) tokens = some (read, [])) :
    readAddr (tokens ++ .rparen :: rest) = some (read, rest) := by
  have stops : Stops (.rparen :: rest) := fun t head => stops_rparen t head
  have inner := local_readBinary nesting (level .add) tokens [] (.rparen :: rest) read stops parsed
  simp [readAddr, inner]

theorem lex_toHost : lex " *)TO_HOST(".toList = some [.op .mul, .rparen, .toHost, .lparen] :=
  lex_lit rfl (by decide)
theorem lex_load : lex " = *(".toList = some [.assign, .op .mul, .lparen] := lex_lit rfl (by decide)
theorem lex_loaded : lex ");\n".toList = some [.rparen, .semi] := lex_lit rfl (by decide)
theorem lex_store : lex "    *(".toList = some [.op .mul, .lparen] := lex_lit rfl (by decide)
theorem lex_stored : lex ") = (".toList = some [.rparen, .assign, .lparen] :=
  lex_lit rfl (by decide)
theorem lex_rparen : lex ")".toList = some [.rparen] := lex_lit rfl (by decide)

/-- `MEM_LOAD`. -/
theorem prints_memLoad {name : Local} (addresses : Addresses addr value)
    (typeName : TypeName typ (.int type)) :
    Prints (CodegenText.memLoad addr typ name) (Codegen.memLoad value type name) := by
  obtain ⟨tokens, read, lexed, parsed, folded⟩ := addresses.reads
  have printed : sprintf ("    %s " ++ name.name ++ " = *(%s *)TO_HOST(%s);\n")
      [.s typ.toList, .s typ.toList, .s addr] = .ok ("    ".toList ++ (typ.toList ++ (" ".toList ++
        (name.name.toList ++ (" = *(".toList ++ (typ.toList ++ (" *)TO_HOST(".toList ++
          addr)))))) ++ ");\n".toList) := by
    have plain := plain_name name
    apply sprintf_ok (pasted (pasted rfl (pasted_self _)) rfl)
    · simp [printf, printf_append plain]
    · have short := length_name name
      have short' := typeName.short
      have short'' := addresses.short
      simp [bufSize] at short short' ⊢
      omega
  have loaded := lex_append (apart_last rfl) lex_load (lex_append (apart_head rfl) typeName.lexed
    (lex_append (apart_last rfl) lex_toHost lexed))
  have words := lex_append (apart_last rfl) lex_indent (lex_append (apart_head rfl) typeName.lexed
    (lex_append (apart_last rfl) lex_space (lex_append (apart_head rfl) (lex_name name) loaded)))
  refine .line (.declLoad type name read) printed (closed_append rfl (by simp))
    (lex_append (apart_head rfl) words lex_loaded) (List.cons_ne_nil _ _) (fun rest => ?_) ?_
  · rw [List.append_assoc]
    have decl : readDecl (.int type) name (.op .mul :: .lparen :: .type (.int type) :: .op .mul ::
        .rparen :: .toHost :: .lparen :: (tokens ++ .rparen :: .semi :: rest)) =
        some (.declLoad type name read, rest) :=
      Option.bind_eq_some_iff.mpr ⟨_, readAddr_of parsed, if_pos rfl⟩
    rw [← decl]
    cases type <;> rfl
  · rw [Line.fold, folded, Line.fold]

/-- `MEM_STORE`. -/
theorem prints_memStore {data : Local} (addresses : Addresses addr value)
    (typeName : TypeName typ (.int type)) :
    Prints (CodegenText.memStore addr typ data) (Codegen.memStore value type data) := by
  obtain ⟨tokens, read, lexed, parsed, folded⟩ := addresses.reads
  have printed : sprintf ("    *(%s *)TO_HOST(%s) = (%s)" ++ data.name ++ ";\n")
      [.s typ.toList, .s addr, .s typ.toList] = .ok ("    *(".toList ++ (typ.toList ++
        (" *)TO_HOST(".toList ++ (addr ++ (") = (".toList ++ (typ.toList ++ (")".toList ++
          data.name.toList)))))) ++ ";\n".toList) := by
    have plain := plain_name data
    apply sprintf_ok (pasted (pasted rfl (pasted_self _)) rfl)
    · simp [printf, printf_append plain]
    · have short := length_name data
      have short' := typeName.short
      have short'' := addresses.short
      simp [bufSize] at short short' ⊢
      omega
  have stored := lex_append (apart_last rfl) lex_stored (lex_append (apart_head rfl) typeName.lexed
    (lex_append (apart_last rfl) lex_rparen (lex_name data)))
  have words := lex_append (apart_last rfl) lex_store (lex_append (apart_head rfl) typeName.lexed
    (lex_append (apart_last rfl) lex_toHost (lex_append (apart_head rfl) lexed stored)))
  refine .line (.store type read data) printed (closed_append rfl (by simp))
    (lex_append (apart_head rfl) words lex_semi) (List.cons_ne_nil _ _) (fun rest => ?_) ?_
  · rw [List.append_assoc]
    simp only [List.append_assoc, List.cons_append, List.nil_append]
    exact Option.bind_eq_some_iff.mpr ⟨_, readAddr_of parsed, if_pos rfl⟩
  · rw [Line.fold, folded, Line.fold]

end Memory

/-! ## Numbers in expressions -/

section Numbers

variable {format before after : String} {left right : List Token} {insn : Insn}

/-- What a format prints around its number. -/
structure Around (before after : String) (left right : List Token) : Prop where
  lexed : lex before.toList = some left
  lexed' : lex after.toList = some right
  apart : before.toList.getLast?.all loose = true
  apart' : after.toList.head?.all loose = true
  plain : '%' ∉ before.toList
  plain' : '%' ∉ after.toList
  short : before.toList.length + after.toList.length ≤ 60

instance : Decidable (Around before after left right) :=
  decidable_of_iff (lex before.toList = some left ∧ lex after.toList = some right ∧
      before.toList.getLast?.all loose = true ∧ after.toList.head?.all loose = true ∧
      '%' ∉ before.toList ∧ '%' ∉ after.toList ∧
      before.toList.length + after.toList.length ≤ 60)
    ⟨fun ⟨lexed, lexed', apart, apart', plain, plain', short⟩ =>
        ⟨lexed, lexed', apart, apart', plain, plain', short⟩,
      fun around => ⟨around.lexed, around.lexed', around.apart, around.apart', around.plain,
        around.plain', around.short⟩⟩

theorem Around.lex {number : Text} {tokens : List Token} (around : Around before after left right)
    (lexed : CReader.lex number = some tokens) :
    CReader.lex (before.toList ++ (number ++ after.toList)) = some (left ++ (tokens ++ right)) :=
  lex_append (apart_last around.apart) around.lexed
    (lex_append (apart_head around.apart') lexed around.lexed')

theorem Around.length {number : Text} (around : Around before after left right) :
    (before.toList ++ (number ++ after.toList)).length ≤ 60 + number.length := by
  have bound := around.short
  simp only [List.length_append]
  omega

theorem printf_plain {text : Text} (plain : '%' ∉ text) : printf text [] = some text := by
  rw [← List.append_nil text, printf_append plain]
  rfl

/-- A format whose conversions are in one place. -/
theorem Around.sprintf {conversion number : Text} {args : List Arg}
    (around : Around before after left right)
    (literal : format.toList = before.toList ++ (conversion ++ after.toList))
    (prints : ∀ rest, printf (conversion ++ rest) args = (number ++ ·) <$> printf rest [])
    (short : number.length ≤ 60) :
    sprintf format args = .ok (before.toList ++ (number ++ after.toList)) := by
  have printed : printf format.toList args = some (before.toList ++ (number ++ after.toList)) := by
    rw [literal, printf_append around.plain, prints, printf_plain around.plain']
    rfl
  rw [RiscvEmu.sprintf, printed]
  exact if_pos (around.length.trans_lt ((Nat.add_le_add_left short 60).trans_lt (by decide)))

/-- `%ldLL`. -/
theorem Around.ld (around : Around before after left right) (value : U64)
    (literal : format.toList = before.toList ++ (['%', 'l', 'd', 'L', 'L'] ++ after.toList)) :
    RiscvEmu.sprintf format [.ld value.toInt] =
      .ok (before.toList ++ ((signed value.toInt ++ ['L', 'L']) ++ after.toList)) := by
  apply around.sprintf literal
  · intro rest
    cases read : printf rest [] <;> simp [printf, read]
  · have digits := length_signed value
    simp
    omega

/-- `%luULL`. -/
theorem Around.lu (around : Around before after left right) (value : U64)
    (literal : format.toList = before.toList ++ (['%', 'l', 'u', 'U', 'L', 'L'] ++ after.toList)) :
    RiscvEmu.sprintf format [.lu value.toNat] =
      .ok (before.toList ++ ((Nat.toDigits 10 value.toNat ++ ['U', 'L', 'L']) ++ after.toList)) := by
  apply around.sprintf literal
  · intro rest
    cases read : printf rest [] <;> simp [printf, read]
  · have digits := length_unsigned value
    simp
    omega

/-- `insn_%lx`. -/
theorem Around.lx (around : Around before after left right) (pc : U64)
    (literal : format.toList =
      before.toList ++ (['i', 'n', 's', 'n', '_', '%', 'l', 'x'] ++ after.toList)) :
    RiscvEmu.sprintf format [.lx pc.toNat] = .ok (before.toList ++
      ((['i', 'n', 's', 'n', '_'] ++ Nat.toDigits 16 pc.toNat) ++ after.toList)) := by
  apply around.sprintf literal
  · intro rest
    cases read : printf rest [] <;> simp [printf, read]
  · have digits := length_pc pc
    simp
    omega

/-! ### Expressions with a number -/

theorem imm64_ne_least (insn : Insn) : insn.imm64 ≠ BitVec.intMin 64 := by
  intro least
  have same : insn.imm64.toInt = insn.imm.toInt := BitVec.toInt_signExtend_of_le (by decide)
  have bound := BitVec.le_toInt insn.imm
  have value : (BitVec.intMin 64).toInt = -2 ^ 63 := by decide
  rw [← same, least, value] at bound
  exact absurd bound (by decide)

/-- `%ldLL` of `(i64)insn->imm`. -/
theorem lex_immLL (insn : Insn) :
    lex (signed insn.imm64.toInt ++ ['L', 'L']) = some [.num .i64 insn.imm64] ∨
    lex (signed insn.imm64.toInt ++ ['L', 'L']) = some [.op .sub, .num .i64 (-insn.imm64)] := by
  obtain ⟨tokens, read, literal, lexed⟩ := lex_signed insn.imm64
  have other := imm64_ne_least insn
  generalize insn.imm64 = value at literal lexed other
  cases literal with
  | pos => exact .inl lexed
  | neg => exact .inr lexed
  | least => exact absurd rfl other

/-- What a `sprintf` leaves in a buffer is an expression. -/
def Stores (buffer : Buffer) (value : CExpr) : Prop := ∃ text, buffer = .ok text ∧ Spells text value

/-- A format for `(i64)insn->imm` as `%ld`. -/
theorem stores_immLd (value : CExpr → CExpr) (around : Around before after left right)
    (literal : format.toList = before.toList ++ (['%', 'l', 'd', 'L', 'L'] ++ after.toList))
    (parsed : ∀ v, readCond nesting (left ++ ([.num .i64 v] ++ right)) =
      some (value (.lit .i64 v), []))
    (negative : ∀ v, readCond nesting (left ++ ([.op .sub, .num .i64 v] ++ right)) =
      some (value (.neg (.lit .i64 v)), []))
    (folded : ∀ v, (value (.neg (.lit .i64 v))).fold = (value (.lit .i64 (-v))).fold) :
    Stores (CodegenText.immLd format insn) (value (Codegen.immLL insn)) := by
  have digits := length_signed insn.imm64
  refine ⟨_, around.ld insn.imm64 literal, ?_⟩
  rcases lex_immLL insn with lexed | lexed
  · exact .of_lexed (around.lex lexed) (parsed _) rfl (around.length.trans (by simp; omega))
  · refine .of_lexed (around.lex lexed) (negative _) ?_ (around.length.trans (by simp; omega))
    rw [folded, BitVec.neg_neg, Codegen.immLL]

/-- A format for `(i64)insn->imm` as `%lu`. -/
theorem stores_immLu (value : CExpr → CExpr) (around : Around before after left right)
    (literal : format.toList = before.toList ++ (['%', 'l', 'u', 'U', 'L', 'L'] ++ after.toList))
    (parsed : ∀ v, readCond nesting (left ++ ([.num .u64 v] ++ right)) =
      some (value (.lit .u64 v), [])) :
    Stores (CodegenText.immLu format insn) (value (Codegen.immULL insn)) := by
  refine ⟨_, around.lu insn.imm64 literal, .of_lexed (around.lex (lex_unsigned _)) (parsed _) rfl ?_⟩
  have digits := length_unsigned insn.imm64
  refine around.length.trans ?_
  simp
  omega

/-- A format for `insn->imm & mask`. -/
theorem stores_immAnd (value : CExpr → CExpr) (around : Around before after left right)
    {mask : U32} (small : mask.toNat < 64)
    (literal : format.toList = before.toList ++ (['%', 'd'] ++ after.toList))
    (parsed : ∀ v, readCond nesting (left ++ ([.num .i32 v] ++ right)) =
      some (value (.lit .i32 v), [])) :
    Stores (CodegenText.immAnd format mask insn) (value (Codegen.immAnd insn mask)) := by
  have masked : (insn.imm &&& mask).toNat < 64 := by
    rw [BitVec.toNat_and]
    exact Nat.and_lt_two_pow (n := 6) _ small
  have number : (insn.imm &&& mask).toInt = (insn.imm &&& mask).toNat :=
    BitVec.toInt_eq_toNat_of_lt (by omega)
  have extended : BitVec.ofNat 64 (insn.imm &&& mask).toNat = (insn.imm &&& mask).signExtend 64 := by
    rw [BitVec.signExtend, number, BitVec.ofInt_natCast]
  have digits : (signed (insn.imm &&& mask).toInt).length ≤ 3 :=
    length_signed_le (k := 1) (by omega)
  have printed : CodegenText.immAnd format mask insn = .ok (before.toList ++
      (signed (insn.imm &&& mask).toInt ++ after.toList)) := by
    apply around.sprintf literal
    · intro rest
      cases read : printf rest [] <;> simp [printf, read]
    · omega
  have lexed := lex_int (n := (insn.imm &&& mask).toNat) (by omega)
  rw [← number, extended] at lexed
  exact ⟨_, printed, .of_lexed (around.lex lexed) (parsed _) rfl (around.length.trans (by omega))⟩

theorem addresses_immAddr (insn : Insn) :
    ∃ text, CodegenText.immAddr insn = .ok text ∧ Addresses text (Codegen.immAddr insn) := by
  have around : Around "rs1 + (int64_t)" "" [.var .rs1, .op .add, .lparen, .type (.int .i64),
      .rparen] [] := by decide
  have literal : "rs1 + (int64_t)%ldLL".toList = "rs1 + (int64_t)".toList ++
      (['%', 'l', 'd', 'L', 'L'] ++ "".toList) := by decide
  have digits := length_signed insn.imm64
  refine ⟨_, around.ld insn.imm64 literal, ?_, ?_⟩
  · rcases lex_immLL insn with lexed | lexed
    · exact ⟨_, _, around.lex lexed, rfl, rfl⟩
    · refine ⟨_, _, around.lex lexed, rfl, ?_⟩
      simp [CExpr.fold, CExpr.negate, Codegen.immAddr, Codegen.immLL, CExpr.as]
  · simp
    omega

end Numbers

/-! ## Lines with a number -/

section Transfers

variable {before after : String} {left right tokens : List Token} {number : Text} {format : String}
  {args : List Arg}  {out : Line} {pc : U64}

/-- A line whose text is printed around a number. -/
theorem Prints.around (read : Line) (around : Around before after left right)
    (printed : sprintf format args = .ok (before.toList ++ (number ++ after.toList)))
    (lexed : lex number = some tokens) (ended : after.toList.getLast? = some '\n')
    (nonempty : left ++ (tokens ++ right) ≠ [])
    (parsed : ∀ rest, readLine (left ++ (tokens ++ right) ++ rest) = some (read, rest))
    (folded : read.fold = out.fold) : Prints (.text (sprintf format args)) [out] := by
  refine .line read printed ?_ (around.lex lexed) nonempty parsed folded
  rw [← List.append_assoc, List.getLast?_append, ended]
  rfl

theorem prints_goto (pc : U64) :
    Prints (CodegenText.goto "    goto insn_%lx;\n" pc) [.goto (.insn pc)] := by
  have around : Around "    goto " ";\n" [.goto] [.semi] := by decide
  exact .around (.goto (.insn pc)) around (around.lx pc (by decide)) (lex_insn pc) (by decide)
    (List.cons_ne_nil _ _) (fun rest => rfl) rfl

/-- The label of a pc. -/
theorem prints_label (pc : U64) :
    Prints (.text (sprintf "insn_%lx: \x7b\n" [.lx pc.toNat])) [.label (.insn pc)] := by
  have around : Around "" ": \x7b\n" [] [.colon, .lbrace] := by decide
  exact .around (.label (.insn pc)) around (around.lx pc (by decide)) (lex_insn pc) (by decide)
    (List.cons_ne_nil _ _) (fun rest => rfl) rfl

/-- The pc to reenter at. -/
theorem prints_reenter (pc : U64) :
    Prints (.text (sprintf "    state->reenter_pc = %luULL;\n" [.lu pc.toNat]))
      [.setReenter (.lit .u64 pc)] := by
  have around : Around "    state->reenter_pc = " ";\n" [.state, .arrow, .reenterPc, .assign]
      [.semi] := by decide
  exact .around (.setReenter (.lit .u64 pc)) around (around.lu pc (by decide)) (lex_unsigned pc)
    (by decide) (List.cons_ne_nil _ _) (fun rest => rfl) rfl

/-- The target of a JALR. -/
theorem prints_jalr (insn : Insn) :
    Prints (.text (sprintf "    state->reenter_pc = (rs1 + (int64_t)%ldLL) & ~(uint64_t)1;\n"
      [.ld insn.imm64.toInt])) [.setReenter (Codegen.jalrTarget insn)] := by
  have around : Around "    state->reenter_pc = (rs1 + (int64_t)" ") & ~(uint64_t)1;\n"
      [.state, .arrow, .reenterPc, .assign, .lparen, .var .rs1, .op .add, .lparen,
        .type (.int .i64), .rparen]
      [.rparen, .op .and, .tilde, .lparen, .type (.int .u64), .rparen, .num .i32 1, .semi] := by decide
  have printed := around.ld insn.imm64 (by decide :
    "    state->reenter_pc = (rs1 + (int64_t)%ldLL) & ~(uint64_t)1;\n".toList = _ ++ (_ ++ _))
  rcases lex_immLL insn with lexed | lexed
  · exact .around (.setReenter (Codegen.jalrTarget insn)) around printed lexed (by decide)
      (List.cons_ne_nil _ _) (fun rest => rfl) rfl
  · refine .around (.setReenter (.bin .and (.bin .add (.var .rs1) (.cast (.int .i64)
      (.neg (.lit .i64 (-insn.imm64))))) (.not (.cast (.int .u64) (.lit .i32 1))))) around printed
      lexed (by decide) (List.cons_ne_nil _ _) (fun rest => rfl) ?_
    simp [Line.fold, CExpr.fold, CExpr.negate, Codegen.jalrTarget, Codegen.immAddr, Codegen.immLL]
    rfl

theorem prints_close : Prints (.lit "\x7d\n") [.close] :=
  .lit rfl rfl (by decide) (by decide : lex _ = some [.rbrace]) (List.cons_ne_nil _ _) (fun rest => rfl)

/-- The exit of a block. -/
theorem prints_leave {reason : String} {exit : ExitReason} {reenter : CExpr} {buffer : Buffer}
    (lexed : lex reason.toList = some [.exit exit]) (short : reason.toList.length ≤ 15)
    (printed : Prints (.text buffer) [.setReenter reenter]) :
    Prints (CodegenText.leave reason buffer)
      [.setExit exit, .setReenter reenter, .goto .finish, .close] := by
  have before : lex "    state->exit_reason = ".toList =
      some [.state, .arrow, .exitReason, .assign] := lex_lit rfl (by decide)
  have setExit : Prints (.lit ("    state->exit_reason = " ++ reason ++ ";\n")) [.setExit exit] := by
    have words := lex_append (apart_head rfl) (lex_append (apart_last rfl) before lexed) lex_semi
    refine .lit (pasted (pasted (pasted_self _) (pasted_self _)) (pasted_self _))
      (closed_append rfl (by simp)) ?_ words (List.cons_ne_nil _ _) (fun rest => rfl)
    simp at short ⊢
    omega
  have finish : Prints (.lit "    goto end;\n") [.goto .finish] :=
    .lit rfl rfl (by decide) (by decide : lex _ = some [.goto, .endName, .semi]) (List.cons_ne_nil _ _)
      (fun rest => rfl)
  exact ((setExit.append printed).append finish).append prints_close

/-- The name of an operator. -/
structure OpName (name : String) (op : BinOp) : Prop where
  lexed : lex name.toList = some [.op op]
  short : name.toList.length ≤ 2

/-- A conditional branch. -/
theorem prints_branch {typ op : String} {type : CInt} {binOp : BinOp}
    (typeName : TypeName typ (.int type)) (opName : OpName op binOp) :
    Prints (.text (sprintf "    if ((%s)rs1 %s (%s)rs2) \x7b\n"
        [.s typ.toList, .s op.toList, .s typ.toList]) ++
      (CodegenText.goto "        goto insn_%lx;\n" pc ++ .lit "    \x7d\n"))
      [.ifGoto (.bin binOp (.cast (.int type) (.var .rs1)) (.cast (.int type) (.var .rs2))) pc] := by
  have printed : sprintf "    if ((%s)rs1 %s (%s)rs2) \x7b\n"
      [.s typ.toList, .s op.toList, .s typ.toList] = .ok ("    if ((".toList ++ (typ.toList ++
        (")rs1 ".toList ++ (op.toList ++ (" (".toList ++ (typ.toList ++ ")rs2) \x7b\n".toList)))))) := by
    apply sprintf_ok rfl
    · simp [printf]
    · have short := typeName.short
      have short' := opName.short
      simp [bufSize] at short short' ⊢
      omega
  have around : Around "        goto " ";\n" [.goto] [.semi] := by decide
  have target := around.lx pc (by decide : "        goto insn_%lx;\n".toList = _ ++ (_ ++ _))
  have jump : CodegenText.goto "        goto insn_%lx;\n" pc = _ := congrArg Appends.text target
  have test : lex "    if ((".toList = some [.ifKw, .lparen, .lparen] := lex_lit rfl (by decide)
  have first : lex ")rs1 ".toList = some [.rparen, .var .rs1] := lex_lit rfl (by decide)
  have between : lex " (".toList = some [.lparen] := lex_lit rfl (by decide)
  have second : lex ")rs2) \x7b\n".toList = some [.rparen, .var .rs2, .rparen, .lbrace] :=
    lex_lit rfl (by decide)
  have close : lex "    \x7d\n".toList = some [.rbrace] := lex_lit rfl (by decide)
  have compared := lex_append (apart_head rfl) opName.lexed (lex_append (apart_last rfl) between
    (lex_append (apart_head rfl) typeName.lexed second))
  have words := lex_append (apart_last rfl) test (lex_append (apart_head rfl) typeName.lexed
    (lex_append (apart_last rfl) first compared))
  have lexed := lex_append (apart_head rfl) words (lex_append (apart_head rfl)
    (around.lex (lex_insn pc)) close)
  rw [printed, jump]
  refine ⟨_, rfl, .line ?_ (.ifGoto (.bin binOp (.cast (.int type) (.var .rs1))
    (.cast (.int type) (.var .rs2))) pc) ?_ ?_ lexed (List.cons_ne_nil _ _) (fun rest => ?_) rfl⟩
  · simp
  · exact closed_append (closed_append rfl (by simp)) (by simp)
  · have short := length_sprintf printed
    have short' := length_sprintf target
    have last : "    \x7d\n".toList.length = 6 := by decide
    have total : ∀ a b c : Text, (a ++ (b ++ c)).length = a.length + b.length + c.length := by
      simp [Nat.add_assoc]
    refine (total _ _ _).trans_le ?_
    simp only [bufSize] at short short'
    omega
  · cases binOp <;> rfl

end Transfers

end RiscvEmu
