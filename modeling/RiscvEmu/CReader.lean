import RiscvEmu.CLang
import RiscvEmu.Foundation.Printing
import RiscvEmu.Foundation.Scanning

/-!
# Reading C

The text of a function that the generator prints, read as C: `lex` cuts it into tokens by maximal
munch, `readExpr` parses an expression with the precedences of C, and `readLine` one line of the
function. `stdint.h` and the definitions that the generator prints before the function are known
to the reader: the names of the types and of the members, `TO_HOST`, `UINT64_MAX` and `INT64_MIN`.

* `local_readCond`: a parser does not look further than the token after an expression.
* `readLines_cons`: the lines of a function are read one after the other.
-/

set_option autoImplicit false

namespace RiscvEmu

open Printing

/-! ## Tokens -/

inductive Token where
  /-- `x%d` and `f%d`, the variables of the function. -/
  | x (reg : Reg)
  | f (reg : Reg)
  /-- `insn_%lx`. -/
  | insn (pc : U64)
  | num (type : CInt) (value : U64)
  | var (name : Local)
  | type (type : CType)
  | field (field : FpField)
  | exit (reason : ExitReason)
  | op (op : BinOp)
  | lparen | rparen | lbrace | rbrace | lbracket | rbracket
  | semi | colon | question | dot | arrow | assign | tilde
  | goto | ifKw | elseKw | endName
  | state | exitReason | reenterPc | gpRegs | fpRegs | fpRegT | toHost
  deriving DecidableEq, Repr

namespace CReader

/-- The words and the punctuation that stand for themselves. -/
def keywords : List (String × Token) := [
  ("rs1", .var .rs1), ("rs2", .var .rs2), ("rs3", .var .rs3), ("rd", .var .rd),
  ("int8_t", .type (.int .i8)), ("uint8_t", .type (.int .u8)),
  ("int16_t", .type (.int .i16)), ("uint16_t", .type (.int .u16)),
  ("int32_t", .type (.int .i32)), ("uint32_t", .type (.int .u32)),
  ("int64_t", .type (.int .i64)), ("uint64_t", .type (.int .u64)),
  ("float", .type .float), ("double", .type .double),
  ("v", .field .v), ("w", .field .w), ("d", .field .d), ("f", .field .f),
  ("none", .exit .none), ("direct_branch", .exit .directBranch),
  ("indirect_branch", .exit .indirectBranch), ("interp", .exit .interp), ("ecall", .exit .ecall),
  ("goto", .goto), ("if", .ifKw), ("else", .elseKw), ("end", .endName),
  ("state", .state), ("exit_reason", .exitReason), ("reenter_pc", .reenterPc),
  ("gp_regs", .gpRegs), ("fp_regs", .fpRegs), ("fp_reg_t", .fpRegT), ("TO_HOST", .toHost),
  ("UINT64_MAX", .num .u64 (-1)), ("INT64_MIN", .num .i64 (BitVec.intMin 64)),
  ("+", .op .add), ("-", .op .sub), ("*", .op .mul), ("/", .op .div), ("%", .op .rem),
  ("&", .op .and), ("|", .op .or), ("^", .op .xor), ("<<", .op .shl), (">>", .op .shr),
  ("==", .op .eq), ("!=", .op .ne), ("<", .op .lt), (">", .op .gt), ("<=", .op .le),
  (">=", .op .ge), ("&&", .op .land),
  ("=", .assign), ("->", .arrow), ("~", .tilde), (".", .dot), (";", .semi), (":", .colon),
  ("?", .question), ("(", .lparen), (")", .rparen), ("\x7b", .lbrace), ("\x7d", .rbrace),
  ("[", .lbracket), ("]", .rbracket)]

/-- The type of a literal by its suffix. One without a suffix has to be an `int`; a decimal
literal that is too large for `long long` is unsigned. -/
def numType (suffix : Text) (n : Nat) : Option CInt :=
  if suffix = [] ∧ n < 2 ^ 31 then some .i32
  else if suffix = ['L', 'L'] ∧ n < 2 ^ 63 then some .i64
  else if (suffix = ['L', 'L'] ∨ suffix = ['U', 'L', 'L']) ∧ n < 2 ^ 64 then some .u64
  else none

/-- An integer literal. -/
def number : Text → Option Token
  | '0' :: 'x' :: digits => do
      let n ← readNumeral 16 digits
      let type ← numType [] n
      return .num type (BitVec.ofNat 64 n)
  | word => do
      let n ← readNumeral 10 (word.takeWhile Char.isDigit)
      let type ← numType (word.dropWhile Char.isDigit) n
      return .num type (BitVec.ofNat 64 n)

/-- A register number. -/
def regNumber (digits : Text) : Option Reg := do
  let n ← readNumeral 10 digits
  if n < 32 then return BitVec.ofNat 5 n else none

/-- A word with a number in it. -/
def numbered : Text → Option Token
  | 'x' :: digits => .x <$> regNumber digits
  | 'f' :: digits => .f <$> regNumber digits
  | 'i' :: 'n' :: 's' :: 'n' :: '_' :: digits => do
      return .insn (BitVec.ofNat 64 (← readNumeral 16 digits))
  | word => number word

/-- The token of a run of characters; blanks have none. -/
def readRun : Text → Option (List Token)
  | [' '] | ['\n'] => some []
  | run => do
      let token ← (numbered run).or (keywords.lookup (String.ofList run))
      return [token]

def wordChar (c : Char) : Bool := c.isAlphanum || c = '_'

/-- A character of an operator that can be longer than one character. -/
def opChar : Char → Bool
  | '+' | '-' | '*' | '/' | '%' | '<' | '>' | '=' | '!' | '&' | '|' | '^' => true
  | _ => false

/-- Neighbours in one token. -/
def sticks (a b : Char) : Bool := wordChar a && wordChar b || opChar a && opChar b

/-- The tokens of a text. -/
def lex (text : Text) : Option (List Token) := Scanning.scan sticks readRun text

/-! ## Expressions -/

/-- The level of a binary operator; the higher ones bind more tightly. -/
def level : BinOp → Nat
  | .land => 1
  | .or => 2
  | .xor => 3
  | .and => 4
  | .eq | .ne => 5
  | .lt | .gt | .le | .ge => 6
  | .shl | .shr => 7
  | .add | .sub => 8
  | .mul | .div | .rem => 9

/-- What a parser finds: an expression, and the tokens after it. -/
abbrev Found := Option (CExpr × List Token)

/-- The type of a cast, after its left parenthesis. -/
def castType : List Token → Option (CType × List Token)
  | .type type :: .rparen :: ts => some (type, ts)
  | _ => none

mutual

/-- A unary expression; the first argument of the parsers bounds how deep they nest. -/
def readUnary : Nat → List Token → Found
  | 0, _ => none
  | depth + 1, .op .sub :: ts => do
      let (e, ts) ← readUnary depth ts
      return (.neg e, ts)
  | depth + 1, .tilde :: ts => do
      let (e, ts) ← readUnary depth ts
      return (.not e, ts)
  | depth + 1, .lparen :: ts =>
      match castType ts with
      | some (type, ts) => do
          let (e, ts) ← readUnary depth ts
          return (.cast type e, ts)
      | none => do
          match ← readCond depth ts with
          | (e, .rparen :: ts) => return (e, ts)
          | _ => none
  | _ + 1, .var name :: ts => some (.var name, ts)
  | _ + 1, .num type value :: ts => some (.lit type value, ts)
  | _ + 1, _ => none

/-- An expression of the operators from a level on. -/
def readBinary : Nat → Nat → List Token → Found
  | 0, _, _ => none
  | depth + 1, least, ts => do
      let (e, ts) ← readUnary depth ts
      readMore depth least e ts

/-- The operators and operands after an expression. -/
def readMore : Nat → Nat → CExpr → List Token → Found
  | 0, _, _, _ => none
  | depth + 1, least, e, .op op :: ts =>
      if least ≤ level op then do
        let (right, ts) ← readBinary depth (level op + 1) ts
        readMore depth least (.bin op e right) ts
      else some (e, .op op :: ts)
  | _ + 1, _, e, ts => some (e, ts)

/-- A conditional expression. -/
def readCond : Nat → List Token → Found
  | 0, _ => none
  | depth + 1, ts => do
      match ← readBinary depth 1 ts with
      | (test, .question :: ts) => do
          match ← readCond depth ts with
          | (a, .colon :: ts) => do
              let (b, ts) ← readCond depth ts
              return (.cond test a b, ts)
          | _ => none
      | (e, ts) => return (e, ts)

end

/-- How deep the parsers nest. -/
def nesting : Nat := 64

/-- A text that is an expression. -/
def readExpr (text : Text) : Option CExpr := do
  match ← readCond nesting (← lex text) with
  | (e, []) => return e
  | _ => none

/-! ## The parsers look one token ahead -/

/-- The tokens after an expression do not go on with it. -/
def Stops (more : List Token) : Prop := ∀ t ∈ more.head?, (∀ op, t ≠ .op op) ∧ t ≠ .question

/-- What a parser finds does not depend on the tokens after it. -/
def LocalReader (read : List Token → Found) : Prop :=
  ∀ ts rest more e, Stops more → read ts = some (e, rest) →
    read (ts ++ more) = some (e, rest ++ more)

section Locality

variable {depth least : Nat} {ts rest more : List Token} {e : CExpr} {read : List Token → Found}

theorem castType_some {type : CType} (cast : castType ts = some (type, rest)) :
    ts = .type type :: .rparen :: rest := by
  unfold castType at cast
  split at cast
  · cases cast
    rfl
  · cases cast

theorem castType_append {type : CType} (cast : castType ts = some (type, rest)) :
    castType (ts ++ more) = some (type, rest ++ more) := by
  rw [castType_some cast]
  rfl

/-- A sequence of a local parser and another. -/
theorem LocalReader.bind (reader : LocalReader read) {next : CExpr × List Token → Found}
    (stops : Stops more) (found : (read ts >>= next) = some (e, rest)) :
    ∃ e' mid, read (ts ++ more) = some (e', mid ++ more) ∧ next (e', mid) = some (e, rest) := by
  obtain ⟨⟨e', mid⟩, first, second⟩ := Option.bind_eq_some_iff.mp found
  exact ⟨e', mid, reader ts mid more e' stops first, second⟩

/-- An expression starts neither with nothing nor with a type. -/
theorem readUnary_type (depth : Nat) {type : CType} :
    readUnary depth [] = none ∧ readUnary depth (.type type :: ts) = none := by
  cases depth <;> exact ⟨rfl, rfl⟩

theorem readCond_type (depth : Nat) {type : CType} :
    readCond depth [] = none ∧ readCond depth (.type type :: ts) = none := by
  cases depth with
  | zero => exact ⟨rfl, rfl⟩
  | succ depth =>
      cases depth with
      | zero => exact ⟨rfl, rfl⟩
      | succ depth =>
          have none := @readUnary_type ts depth type
          simp [readCond, readBinary, none]

/-- What is not a cast does not become one. -/
theorem castType_none (cast : castType ts = none) (found : readCond depth ts ≠ none) :
    castType (ts ++ more) = none := by
  match ts with
  | [] => exact absurd (@readCond_type [] depth .float).1 found
  | [t] =>
      by_cases type : ∃ type, t = .type type
      · obtain ⟨type, rfl⟩ := type
        exact absurd (readCond_type depth).2 found
      · unfold castType
        split
        · next same => cases same; exact absurd ⟨_, rfl⟩ type
        · rfl
  | t :: t' :: ts =>
      unfold castType at cast ⊢
      split at cast
      · cases cast
      · next other =>
          split
          · next same => cases same; exact absurd rfl (other _ _)
          · rfl

theorem localReader_unary (unary : LocalReader (readUnary depth))
    (cond : LocalReader (readCond depth)) : LocalReader (readUnary (depth + 1)) := by
  intro ts rest more e stops found
  cases ts with
  | nil => cases found
  | cons t ts =>
      cases t with
      | var | num =>
          cases found
          rfl
      | tilde =>
          obtain ⟨e', mid, inner, same⟩ := unary.bind stops found
          cases same
          simp [readUnary, inner]
      | op op =>
          cases op with
          | sub =>
              obtain ⟨e', mid, inner, same⟩ := unary.bind stops found
              cases same
              simp [readUnary, inner]
          | _ => cases found
      | lparen =>
          simp only [List.cons_append, readUnary] at found ⊢
          match cast : castType ts with
          | some (type, ts') =>
              rw [cast] at found
              rw [castType_append cast]
              obtain ⟨e', mid, inner, same⟩ := unary.bind stops found
              cases same
              simp [inner]
          | none =>
              rw [cast] at found
              obtain ⟨e', mid, inner, same⟩ := cond.bind stops found
              have read : readCond depth ts ≠ none := by
                intro none
                simp [none] at found
              rw [castType_none cast read]
              match mid with
              | .rparen :: mid =>
                  cases same
                  simp [inner]
      | _ => cases found

theorem localReader_binary (unary : LocalReader (readUnary depth))
    (more : ∀ e, LocalReader (readMore depth least e)) :
    LocalReader (readBinary (depth + 1) least) := by
  intro ts rest after e stops found
  obtain ⟨e', mid, inner, same⟩ := unary.bind stops found
  rw [readBinary, inner]
  exact more e' mid rest after e stops same

theorem localReader_more (binary : ∀ least, LocalReader (readBinary depth least))
    (more : ∀ e, LocalReader (readMore depth least e)) (e : CExpr) :
    LocalReader (readMore (depth + 1) least e) := by
  intro ts rest after e' stops found
  match ts with
  | [] =>
      cases found
      match after with
      | [] => rfl
      | t :: after =>
          have other : ∀ op, t ≠ .op op := (stops t rfl).1
          cases t with
          | op op => exact absurd rfl (other op)
          | _ => rfl
  | t :: ts =>
      cases t with
      | op op =>
          by_cases least : least ≤ level op
          · simp only [readMore, least, if_true, List.cons_append] at found ⊢
            obtain ⟨right, mid, inner, same⟩ := (binary _).bind stops found
            rw [inner]
            exact more _ mid rest after e' stops same
          · simp only [readMore, least, if_false, List.cons_append] at found ⊢
            cases found
            rfl
      | _ =>
          cases found
          rfl

theorem localReader_cond (binary : ∀ least, LocalReader (readBinary depth least))
    (cond : LocalReader (readCond depth)) : LocalReader (readCond (depth + 1)) := by
  intro ts rest more e stops found
  rw [readCond] at found ⊢
  obtain ⟨test, mid, inner, same⟩ := (binary 1).bind stops found
  rw [inner]
  match mid with
  | [] =>
      cases same
      match more with
      | [] => rfl
      | t :: more =>
          have other : t ≠ .question := (stops t rfl).2
          cases t with
          | question => exact absurd rfl other
          | _ => rfl
  | t :: mid =>
      cases t with
      | question =>
          obtain ⟨a, mid', innerA, same⟩ := cond.bind stops same
          match mid' with
          | .colon :: mid' =>
              obtain ⟨b, mid'', innerB, same⟩ := cond.bind stops same
              cases same
              simp [innerA, innerB]
      | _ =>
          cases same
          rfl

/-- **The parsers are local.** -/
theorem local_readers (depth : Nat) : LocalReader (readUnary depth) ∧
    (∀ least, LocalReader (readBinary depth least)) ∧
    (∀ least e, LocalReader (readMore depth least e)) ∧ LocalReader (readCond depth) := by
  induction depth with
  | zero =>
      refine ⟨?_, fun _ => ?_, fun _ _ => ?_, ?_⟩ <;>
        · intro ts rest more e _ found
          cases found
  | succ depth ih =>
      obtain ⟨unary, binary, more, cond⟩ := ih
      exact ⟨localReader_unary unary cond, fun least => localReader_binary unary (more least),
        fun least => localReader_more binary (more least), localReader_cond binary cond⟩

theorem local_readBinary (depth least : Nat) : LocalReader (readBinary depth least) :=
  (local_readers depth).2.1 least

theorem local_readCond (depth : Nat) : LocalReader (readCond depth) := (local_readers depth).2.2.2

end Locality

/-! ## Lines -/

/-- An expression and the token that ends it. -/
def readTo (last : Token) (ts : List Token) : Found := do
  match ← readCond nesting ts with
  | (e, t :: ts) => if t = last then return (e, ts) else none
  | _ => none

/-- The argument of `TO_HOST`, and the parenthesis. The macro adds to it, so it has to be a sum. -/
def readAddr (ts : List Token) : Found := do
  match ← readBinary nesting (level .add) ts with
  | (e, .rparen :: ts) => return (e, ts)
  | _ => none

/-- `rd = ..;` and the brace after it. -/
def readArm (name : Local) : List Token → Found
  | .var name' :: .assign :: ts => do
      match ← readTo .semi ts with
      | (e, .rbrace :: ts) => if name' = name then return (e, ts) else none
      | _ => none
  | _ => none

/-- The arms of an `if` chain, from the one after an `else` on. -/
def readElse (name : Local) : Nat → List Token →
    Option (List (CExpr × CExpr) × CExpr × List Token)
  | 0, _ => none
  | _ + 1, .lbrace :: ts => do
      let (other, ts) ← readArm name ts
      return ([], other, ts)
  | arms + 1, .ifKw :: .lparen :: ts => do
      match ← readTo .rparen ts with
      | (test, .lbrace :: ts) => do
          match ← readArm name ts with
          | (value, .elseKw :: ts) => do
              let (rest, other, ts) ← readElse name arms ts
              return ((test, value) :: rest, other, ts)
          | _ => none
      | _ => none
  | _ + 1, _ => none

/-- What follows `if (`. -/
def readIf (ts : List Token) : Option (Line × List Token) := do
  match ← readTo .rparen ts with
  | (test, .lbrace :: .goto :: .insn pc :: .semi :: .rbrace :: ts) => return (.ifGoto test pc, ts)
  | (test, .lbrace :: .var name :: ts) => do
      match ← readArm name (.var name :: ts) with
      | (value, .elseKw :: ts) => do
          let (rest, other, ts) ← readElse name nesting ts
          return (.choose name ((test, value) :: rest) other, ts)
      | _ => none
  | _ => none

/-- What follows the `=` of a declaration. -/
def readDecl (type : CType) (name : Local) : List Token → Option (Line × List Token)
  | .num .i32 value :: .semi :: ts =>
      if type = .int .u64 ∧ value = 0 then some (.declZero name, ts) else none
  | .x reg :: .semi :: ts => if type = .int .u64 then some (.declGp name reg, ts) else none
  | .f reg :: .dot :: .field field :: .semi :: ts => some (.declFp type name reg field, ts)
  | .op .mul :: .lparen :: .type (.int of) :: .op .mul :: .rparen :: .toHost :: .lparen :: ts => do
      match ← readAddr ts with
      | (addr, .semi :: ts) => if type = .int of then return (.declLoad of name addr, ts) else none
      | _ => none
  | _ => none

/-- A line. -/
def readLine : List Token → Option (Line × List Token)
  | .insn pc :: .colon :: .lbrace :: ts => some (.label (.insn pc), ts)
  | .endName :: .colon :: .semi :: ts => some (.label .finish, ts)
  | .rbrace :: ts => some (.close, ts)
  | .goto :: .insn pc :: .semi :: ts => some (.goto (.insn pc), ts)
  | .goto :: .endName :: .semi :: ts => some (.goto .finish, ts)
  | .type (.int .u64) :: .x reg :: .assign :: .state :: .arrow :: .gpRegs :: .lbracket ::
      .num .i32 i :: .rbracket :: .semi :: ts =>
      if i = reg.setWidth 64 then some (.loadGp reg, ts) else none
  | .fpRegT :: .f reg :: .assign :: .state :: .arrow :: .fpRegs :: .lbracket ::
      .num .i32 i :: .rbracket :: .semi :: ts =>
      if i = reg.setWidth 64 then some (.loadFp reg, ts) else none
  | .state :: .arrow :: .gpRegs :: .lbracket :: .num .i32 i :: .rbracket :: .assign :: .x reg ::
      .semi :: ts => if i = reg.setWidth 64 then some (.saveGp reg, ts) else none
  | .state :: .arrow :: .fpRegs :: .lbracket :: .num .i32 i :: .rbracket :: .assign :: .f reg ::
      .semi :: ts => if i = reg.setWidth 64 then some (.saveFp reg, ts) else none
  | .state :: .arrow :: .exitReason :: .assign :: .exit reason :: .semi :: ts =>
      some (.setExit reason, ts)
  | .state :: .arrow :: .reenterPc :: .assign :: ts => do
      let (value, ts) ← readTo .semi ts
      return (.setReenter value, ts)
  | .type type :: .var name :: .assign :: ts => readDecl type name ts
  | .x reg :: .assign :: ts => do
      let (value, ts) ← readTo .semi ts
      return (.setGp reg value, ts)
  | .f reg :: .dot :: .field field :: .assign :: ts => do
      let (value, ts) ← readTo .semi ts
      return (.setFp reg field value, ts)
  | .op .mul :: .lparen :: .type (.int type) :: .op .mul :: .rparen :: .toHost :: .lparen :: ts => do
      match ← readAddr ts with
      | (addr, .assign :: .lparen :: .type (.int type') :: .rparen :: .var data :: .semi :: ts) =>
          if type' = type then return (.store type addr data, ts) else none
      | _ => none
  | .ifKw :: .lparen :: ts => readIf ts
  | _ => none

/-- The lines of a function. -/
def readLines (ts : List Token) : Option Source :=
  match ts with
  | [] => some []
  | t :: ts =>
      match readLine (t :: ts) with
      | none => none
      | some (line, rest) =>
          if rest.length < (t :: ts).length then (line :: ·) <$> readLines rest else none
termination_by ts.length
decreasing_by assumption

/-- A line, and then the others. -/
theorem readLines_cons {ts rest : List Token} {line : Line} (nonempty : ts ≠ [])
    (first : readLine (ts ++ rest) = some (line, rest)) :
    readLines (ts ++ rest) = (line :: ·) <$> readLines rest := by
  obtain ⟨t, ts, rfl⟩ := List.exists_cons_of_ne_nil nonempty
  have shorter : rest.length < (t :: (ts ++ rest)).length := by
    rw [List.length_cons, List.length_append]
    omega
  rw [List.cons_append] at first ⊢
  rw [readLines, first]
  exact if_pos shorter

end CReader

end RiscvEmu
