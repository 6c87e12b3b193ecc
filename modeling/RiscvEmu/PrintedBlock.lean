import RiscvEmu.BlockSimulation
import RiscvEmu.Compile
import RiscvEmu.GenblockText
import RiscvEmu.Str

/-!
# What the compiler gets

`machine_genblock` puts its text together in two strings that it keeps from call to call, `body`
and `source`, and `machine_compile` writes the bytes of `source` to the compiler.

* `staticStrings_sound`: whatever the guest memory holds and however many blocks came before, no
  append writes outside its string.
* `compilerInput_refines`: the bytes read as a C function that refines interpretation.
-/

set_option autoImplicit false

namespace RiscvEmu

open Printing CReader Iteration

section Definitions

/-- What a call of `machine_genblock` has appended to `body` at a round of its loop. -/
def BodyTexts (texts : List Text) : Prop :=
  ∃ insn mem pc t, Steps (textIter mem) (.start insn pc) t ∧ t.body = texts

/-- What a call has appended to `body` when its loop has ended. -/
def FinishedBody (texts : List Text) : Prop :=
  ∃ insn mem pc t, Returns (textIter mem) (.start insn pc) t ∧ t.body = texts

/-- What a call appends to `source`. -/
def SourceTexts (texts : List Text) : Prop :=
  ∃ insn mem pc, machineGenblockTexts insn mem pc = .ok texts

/-- The calls on a string that is static in `machine_genblock`, the newest first:
`DECLEAR_STATIC_STR` creates the string at the first call and clears it at the others, and then
the texts are appended. -/
def staticLog : List (List Text) → List StrCall
  | [] => []
  | texts :: before =>
      (texts.map fun text => .append (chars text)).reverse ++
        if before = [] then [] else .clear :: staticLog before

/-- The string is used as it has to be: `strlen` finds the end of each text, and every call on
the string does what is expected of it. -/
structure StaticSound (calls : List (List Text)) : Prop where
  plain : ∀ texts ∈ calls, ∀ text ∈ texts, ∀ c ∈ text, Ascii c
  sound : GrowableSound (staticLog calls)

/-- The characters of some bytes. -/
def unchars (bytes : List U8) : Text := bytes.map fun b => Char.ofNat b.toNat

end Definitions

/-! ## How long the texts get -/

section Lengths

variable {mem : Bytes.Memory} {g g' : GenState} {t t' : GenText} {insn : Insn} {pc : U64}
  {block : Block} {texts : List Text}

theorem length_lines (generated : blockAt mem pc = .ok block) : (block.lines pc).length ≤ 9 := by
  obtain ⟨insn, emission, -, emitted, rfl⟩ := blockAt_ok generated
  have few := length_codegenFuncs emitted
  rw [Block.lines, List.length_append, List.length_cons]
  change emission.lines.length + 1 + _ ≤ 9
  cases (insn.block pc emission).next with
  | none =>
      rw [List.length_nil]
      omega
  | some next =>
      rw [List.length_cons, List.length_singleton]
      omega

/-- The lines of the body are paid for by what is left to do. -/
theorem length_body (steps : Steps (genIter mem) (.start insn pc) g) :
    g.body.length + 9 * g.measure ≤ 9 * (2 * setSize + 1) := by
  apply steps.invariant fun g => g.body.length + 9 * g.measure ≤ 9 * (2 * setSize + 1)
  · intro a b paid round
    have fewer := genIter_decreases round
    rcases genIter_cases round with ⟨_, same⟩ | ⟨pc, stack, _, _, same⟩ |
      ⟨pc, stack, set, block, g₁, _, _, generated, emits, same⟩
    · cases same
    · cases same
      change a.body.length + _ ≤ _
      omega
    · cases same
      have lines := length_lines generated
      rw [emits.body, List.length_append]
      change a.body.length + _ + _ ≤ _
      omega
  · have slots : (GenState.start insn pc).set.free.card ≤ setSize := by
      simpa using Finset.card_le_univ (GenState.start insn pc).set.free
    have entry : (GenState.start insn pc).stack.elems.length = 1 := rfl
    have none : (GenState.start insn pc).body.length = 0 := rfl
    rw [GenState.measure, entry, none]
    omega

/-- The loop of the model that a round of the text belongs to. -/
theorem alike_of_steps (steps : Steps (textIter mem) (.start insn pc) t) :
    ∃ g, Steps (genIter mem) (.start insn pc) g ∧ Alike g t :=
  Steps.sideBySide (fun _ _ => textIter_alike) steps (alike_start insn pc)

/-- More than enough for each of the strings. -/
def textBound : Nat := 2 ^ 32

theorem BodyTexts.short (body : BodyTexts texts) : texts.flatten.length ≤ textBound := by
  obtain ⟨insn, mem, pc, t, steps, rfl⟩ := body
  obtain ⟨g, steps, alike⟩ := alike_of_steps steps
  have lines := length_body steps
  have chars := alike.body.short
  have slots : setSize = 32 * 1024 := rfl
  simp only [textBound]
  omega

end Lengths

/-! ## Where the texts start -/

section Starts

variable {mem : Bytes.Memory} {t t' : GenText} {insn : Insn} {pc : U64} {emission : Emission}
  {texts : List Text} {lines : List Line} {buffer : Buffer} {line : Line}

/-- The text of a line is not empty. -/
theorem Reads.ne_nil (reads : Reads texts lines) (filled : lines ≠ []) : texts.flatten ≠ [] := by
  intro none
  obtain ⟨-, -, tokens, read, lexed, parsed, same⟩ := reads
  rw [none] at lexed
  cases lexed
  have read : read = [] := by
    have nothing : readLines [] = some [] := by rw [readLines]
    have all : readLines [] = (read ++ ·) <$> readLines [] := parsed []
    rw [nothing] at all
    simpa using all.symm
  rw [read, SameLiterals, List.map_nil, eq_comm, List.map_eq_nil_iff] at same
  exact filled same

theorem text_ne_nil (prints : Prints (.text buffer) [line]) :
    ∃ text, Appends.text buffer = .ok [text] ∧ text ≠ [] := by
  obtain ⟨texts, printed, reads⟩ := prints
  cases buffer with
  | error abort => cases printed
  | ok text =>
      cases printed
      have filled := reads.ne_nil (List.cons_ne_nil _ _)
      rw [List.flatten_singleton] at filled
      exact ⟨text, rfl, filled⟩

theorem emit_body (emits : t.emit pc insn texts emission = .ok t') :
    ∃ more, t'.body = t.body ++ more := by
  simp only [GenText.emit, bind_ok] at emits
  obtain ⟨stack, -, emits⟩ := emits
  split at emits
  · cases emits
    exact ⟨texts, rfl⟩
  · obtain ⟨jump, -, emits⟩ := bind_ok.mp emits
    obtain ⟨stack', -, emits⟩ := bind_ok.mp emits
    cases emits
    exact ⟨texts ++ jump, List.append_assoc ..⟩

/-- What a round appends to the body starts with a label. -/
theorem textIter_cases {next : GenText ⊕ GenText} (round : textIter mem t = .ok next) :
    (t.stack.pop = none ∧ next = .inr t) ∨
    ∃ t', next = .inl t' ∧ ((∃ pc, t.set.Has pc ∧ t'.body = t.body) ∨
      ∃ label more, label ≠ [] ∧ t'.body = t.body ++ label :: more) := by
  simp only [textIter] at round
  split at round
  · next empty =>
      cases round
      exact .inl ⟨empty, rfl⟩
  · next pc stack _ =>
      right
      obtain ⟨⟨added, set⟩, add, round⟩ := bind_ok.mp round
      cases added with
      | false =>
          cases round
          exact ⟨_, rfl, .inl ⟨pc, (WorkSet.add_false add).1, rfl⟩⟩
      | true =>
          obtain ⟨label, named, filled⟩ := text_ne_nil (prints_label pc)
          rw [if_pos rfl, named] at round
          obtain ⟨_, ⟨⟩, round⟩ := bind_ok.mp round
          obtain ⟨insn, -, round⟩ := bind_ok.mp round
          obtain ⟨texts, -, round⟩ := bind_ok.mp round
          obtain ⟨emission, -, round⟩ := bind_ok.mp round
          obtain ⟨t₁, emits, round⟩ := bind_ok.mp round
          cases round
          obtain ⟨more, body⟩ := emit_body emits
          exact ⟨t₁, rfl, .inr ⟨label, more, filled, body.trans (by simp)⟩⟩

/-- The first text of the body is not empty. -/
theorem BodyTexts.starts (body : BodyTexts texts) : ∀ text ∈ texts.head?, text ≠ [] := by
  obtain ⟨insn, mem, pc, t, steps, rfl⟩ := body
  apply steps.invariant fun t => ∀ text ∈ t.body.head?, text ≠ []
  · intro a b starts round text head
    rcases textIter_cases round with
      ⟨_, same⟩ | ⟨b, same, ⟨_, _, body⟩ | ⟨label, more, filled, body⟩⟩
    · cases same
    · cases same
      rw [body] at head
      exact starts text head
    · cases same
      rw [body, List.head?_append] at head
      cases first : a.body.head? with
      | none =>
          rw [first] at head
          cases head
          exact filled
      | some text' =>
          rw [first] at head
          exact starts text (first.trans head)
  · intro text head
    cases head

/-- The loop ends with the variables of its last round. -/
theorem steps_of_returns (returns : Returns (textIter mem) t t') : Steps (textIter mem) t t' := by
  obtain ⟨last, steps, leaves⟩ := returns_iff_steps_leave.mp returns
  rcases textIter_cases leaves with ⟨_, same⟩ | ⟨_, same, _⟩
  · cases same
    exact steps
  · cases same

theorem FinishedBody.body (finished : FinishedBody texts) : BodyTexts texts := by
  obtain ⟨insn, mem, pc, t, returns, rfl⟩ := finished
  exact ⟨insn, mem, pc, t, steps_of_returns returns, rfl⟩

/-- A body that is finished has a label: the first round emits the block of the entry. -/
theorem FinishedBody.ne_nil (finished : FinishedBody texts) : texts ≠ [] := by
  obtain ⟨insn, mem, pc, t, returns, rfl⟩ := finished
  cases returns with
  | leave leaves =>
      rcases textIter_cases leaves with ⟨empty, _⟩ | ⟨_, same, _⟩
      · cases empty
      · cases same
  | again continues returns =>
      apply (steps_of_returns returns).invariant fun t => t.body ≠ []
      · intro a b some round
        rcases textIter_cases round with ⟨_, same⟩ | ⟨b, same, ⟨_, _, body⟩ | ⟨_, _, _, body⟩⟩
        · cases same
        · cases same
          rwa [body]
        · cases same
          simp [body]
      · rcases textIter_cases continues with ⟨empty, _⟩ | ⟨_, same, ⟨_, has, _⟩ | ⟨_, _, _, body⟩⟩
        · cases empty
        · exact absurd has WorkSet.not_has_reset
        · cases same
          simp [body]

end Starts

/-! ## The static strings -/

section Strings

variable {log : List StrCall} {texts : List Text} {calls : List (List Text)}

/-- The appends of some texts, the newest first. -/
theorem appended_texts (texts : List Text) (rest : List StrCall) :
    appended ((texts.map fun text => StrCall.append (chars text)).reverse ++ rest) =
      appended rest ++ chars texts.flatten := by
  induction texts generalizing rest with
  | nil => simp [chars]
  | cons text texts ih =>
      rw [List.map_cons, List.reverse_cons, List.append_assoc, List.singleton_append, ih]
      simp [appended, chars]

/-- At no call the texts since the last clear are longer than a bound. -/
def Bounded (log : List StrCall) : Prop :=
  ∀ before, before <:+ log → (appended before).length ≤ textBound

theorem Bounded.fits (bounded : Bounded log) {before : List StrCall} (suffix : before <:+ log) :
    Fits before := by
  have bound := bounded before suffix
  have limit : strMaxPrealloc.toNat = 1048576 := rfl
  have header : strHdrSize.toNat = 16 := rfl
  rw [Fits]
  simp only [textBound] at bound
  omega

theorem Bounded.cons {call : StrCall} (bounded : Bounded log)
    (short : (appended (call :: log)).length ≤ textBound) : Bounded (call :: log) := by
  intro before suffix
  rcases List.suffix_cons_iff.mp suffix with rfl | earlier
  · exact short
  · exact bounded before earlier

theorem Bounded.appends (bounded : Bounded log) (fresh : appended log = [])
    (short : texts.flatten.length ≤ textBound) :
    Bounded ((texts.map fun text => StrCall.append (chars text)).reverse ++ log) := by
  induction texts using List.reverseRecOn with
  | nil => exact bounded
  | append_singleton texts text ih =>
      rw [List.flatten_append, List.length_append] at short
      have all := appended_texts (texts ++ [text]) log
      rw [List.map_append, List.reverse_append, List.map_singleton, List.reverse_singleton,
        List.singleton_append, List.cons_append] at all ⊢
      refine (ih (by omega)).cons ?_
      rw [all, fresh, List.nil_append, chars, List.length_map, List.flatten_append,
        List.length_append]
      exact short

theorem bounded_staticLog (short : ∀ texts ∈ calls, texts.flatten.length ≤ textBound) :
    Bounded (staticLog calls) := by
  have empty : Bounded [] := by
    intro before suffix
    rw [List.suffix_nil.mp suffix]
    exact Nat.zero_le _
  induction calls with
  | nil => exact empty
  | cons texts before ih =>
      rw [staticLog]
      by_cases first : before = []
      · rw [if_pos first]
        exact empty.appends rfl (short texts List.mem_cons_self)
      · rw [if_neg first]
        have older := ih fun texts member => short texts (List.mem_cons_of_mem _ member)
        have cleared : Bounded (.clear :: staticLog before) := older.cons (Nat.zero_le textBound)
        exact cleared.appends rfl (short texts List.mem_cons_self)

/-- The oldest call on a static string appends the first text of the first call. -/
theorem getLast?_staticLog (starts : ∀ texts ∈ calls, ∀ text ∈ texts.head?, text ≠ [])
    (older : ∀ texts ∈ calls.tail, texts ≠ []) :
    ∀ first ∈ (staticLog calls).getLast?, ∃ t, first = .append t ∧ t ≠ [] := by
  induction calls with
  | nil =>
      intro first last
      cases last
  | cons texts before ih =>
      intro first last
      rw [staticLog] at last
      cases before with
      | nil =>
          rw [if_pos rfl, List.append_nil, List.getLast?_reverse, List.head?_map] at last
          obtain ⟨text, head, rfl⟩ := Option.map_eq_some_iff.mp last
          have filled := starts texts List.mem_cons_self text head
          exact ⟨_, rfl, by simpa [chars] using filled⟩
      | cons texts' before =>
          have filled : staticLog (texts' :: before) ≠ [] := by
            have some := older texts' List.mem_cons_self
            rw [staticLog]
            simp [some]
          rw [if_neg (List.cons_ne_nil _ _), List.getLast?_append_of_ne_nil _ (List.cons_ne_nil _ _),
            List.getLast?_cons_of_ne_nil filled] at last
          exact ih (fun texts member => starts texts (List.mem_cons_of_mem _ member))
            (fun texts member => older texts (List.mem_cons_of_mem _ member)) first last

/-- A static string is sound when its texts are short and start with some text. -/
theorem StaticSound.of_texts (plain : ∀ texts ∈ calls, ∀ text ∈ texts, ∀ c ∈ text, Ascii c)
    (short : ∀ texts ∈ calls, texts.flatten.length ≤ textBound)
    (starts : ∀ texts ∈ calls, ∀ text ∈ texts.head?, text ≠ [])
    (older : ∀ texts ∈ calls.tail, texts ≠ []) : StaticSound calls := by
  refine ⟨plain, .of_first ?_ (getLast?_staticLog starts older)⟩
  intro call before suffix
  exact (bounded_staticLog short).fits suffix

end Strings

/-! ## The text of a file -/

section Files

variable {texts : List Text} {mem : Bytes.Memory} {insn : Insn} {pc : U64} {g : GenState}
  {t : GenText}

/-- Some lines of a file: plain characters, at most 50 in a line. -/
structure PlainLines (n : Nat) (string : String) : Prop where
  plain : ∀ c ∈ string.toList, Ascii c
  short : string.toList.length ≤ 50 * n

theorem PlainLines.single {string : String} {chars : List Char}
    (literal : string = String.ofList chars) (plain : chars.all (fun c => decide (Ascii c)) = true)
    (short : chars.length ≤ 50) : PlainLines 1 string := by
  rw [literal]
  refine ⟨?_, ?_⟩
  · rw [String.toList_ofList]
    exact ascii_of_all plain
  · rwa [String.toList_ofList]

theorem PlainLines.append {m n : Nat} {a b : String} (first : PlainLines m a)
    (second : PlainLines n b) : PlainLines (m + n) (a ++ b) := by
  refine ⟨?_, ?_⟩
  · intro c member
    rw [String.toList_append] at member
    rcases List.mem_append.mp member with before | after
    · exact first.plain c before
    · exact second.plain c after
  · have bounds := Nat.add_le_add first.short second.short
    rwa [String.toList_append, List.length_append, Nat.mul_add]

theorem plainLines_prologue : PlainLines 24 codegenPrologue := by
  unfold codegenPrologue
  repeat refine PlainLines.append (n := 1) ?_ (.single rfl (by decide) (by decide))
  exact .single rfl (by decide) (by decide)

theorem plainLines_stdint : PlainLines 1 "#include <stdint.h>\n" :=
  .single rfl (by decide) (by decide)

theorem plainLines_stdbool : PlainLines 1 "#include <stdbool.h>\n" :=
  .single rfl (by decide) (by decide)

theorem plain_header : ∀ text ∈ fileHeader, ∀ c ∈ text, Ascii c := by
  rw [fileHeader, List.forall_mem_cons, List.forall_mem_cons, List.forall_mem_singleton]
  exact ⟨plainLines_stdint.plain, plainLines_stdbool.plain, plainLines_prologue.plain⟩

theorem length_header : fileHeader.flatten.length ≤ 1300 := by
  have first := plainLines_stdint.short
  have second := plainLines_stdbool.short
  have rest := plainLines_prologue.short
  rw [fileHeader, List.flatten_cons, List.flatten_cons, List.flatten_singleton, List.length_append,
    List.length_append]
  omega

theorem Reads.plain {lines : List Line} (reads : Reads texts lines) :
    ∀ text ∈ texts, ∀ c ∈ text, Ascii c := by
  obtain ⟨-, -, tokens, read, lexed, -⟩ := reads
  intro text member c inText
  exact ascii_of_lex lexed c (List.mem_flatten.mpr ⟨text, member, inText⟩)

theorem BodyTexts.plain (body : BodyTexts texts) : ∀ text ∈ texts, ∀ c ∈ text, Ascii c := by
  obtain ⟨insn, mem, pc, t, steps, rfl⟩ := body
  obtain ⟨g, -, alike⟩ := alike_of_steps steps
  exact alike.body.plain

/-- A call that returns has ended its loop. -/
theorem returns_of_texts (generated : machineGenblockTexts insn mem pc = .ok texts) :
    ∃ t, Returns (textIter mem) (.start insn pc) t ∧ t.source = .ok texts := by
  rw [machineGenblockTexts] at generated
  split at generated
  · cases generated
  · cases generated
  · next t done => exact ⟨t, returns_of_run done, generated⟩

/-- Behind the header there is the function of the model. -/
theorem SourceTexts.function (printed : SourceTexts texts) : ∃ insn mem pc g function,
    Steps (genIter mem) (.start insn pc) g ∧ Reads function (g.source ++ [.close]) ∧
    texts = fileHeader ++ function := by
  obtain ⟨insn, mem, pc, generated⟩ := printed
  obtain ⟨t, returns, source⟩ := returns_of_texts generated
  obtain ⟨g, steps, alike⟩ := alike_of_steps (steps_of_returns returns)
  obtain ⟨function, prints, reads⟩ := prints_function alike
  rw [GenText.source, prints] at source
  cases source
  exact ⟨insn, mem, pc, g, function, steps, reads, rfl⟩

theorem length_source (steps : Steps (genIter mem) (.start insn pc) g) :
    g.source.length ≤ 9 * (2 * setSize + 1) + 129 := by
  have body := length_body steps
  have used : ∀ used : Reg → Bool, (Tracer.regs.filter used).length ≤ 32 := fun used =>
    List.length_filter_le used Tracer.regs
  have gp : g.tracer.gpUsed.length ≤ 32 := used _
  have fp : g.tracer.fpUsed.length ≤ 32 := used _
  simp only [GenState.source, Tracer.prologue, Tracer.epilogue, List.length_append,
    List.length_map, List.length_cons]
  omega

theorem SourceTexts.plain (printed : SourceTexts texts) : ∀ text ∈ texts, ∀ c ∈ text, Ascii c := by
  obtain ⟨insn, mem, pc, g, function, -, reads, rfl⟩ := printed.function
  intro text member
  rcases List.mem_append.mp member with header | inside
  · exact plain_header text header
  · exact reads.plain text inside

theorem SourceTexts.short (printed : SourceTexts texts) : texts.flatten.length ≤ textBound := by
  obtain ⟨insn, mem, pc, g, function, steps, reads, rfl⟩ := printed.function
  have header := length_header
  have lines := length_source steps
  have chars := reads.short
  have slots : setSize = 32 * 1024 := rfl
  rw [List.length_append, List.length_singleton] at chars
  rw [List.flatten_append, List.length_append]
  simp only [textBound]
  omega

/-- The file starts with its first header. -/
theorem SourceTexts.starts (printed : SourceTexts texts) :
    texts ≠ [] ∧ ∀ text ∈ texts.head?, text ≠ [] := by
  obtain ⟨insn, mem, pc, g, function, -, -, rfl⟩ := printed.function
  refine ⟨List.cons_ne_nil _ _, ?_⟩
  intro text head
  cases head
  have literal : "#include <stdint.h>\n" = String.ofList ('#' :: _) := rfl
  rw [literal, String.toList_ofList]
  exact List.cons_ne_nil _ _

end Files

/-! ## The bytes that the compiler reads -/

section Compiler

variable {texts : List Text} {sources : List (List Text)} {str : Str} {log : List StrCall}
  {text : Text}

theorem unchars_chars (plain : ∀ c ∈ text, Ascii c) : unchars (chars text) = text := by
  rw [unchars, chars, List.map_map]
  have same : ∀ c ∈ text, Char.ofNat (BitVec.ofNat 8 c.toNat).toNat = c := by
    intro c member
    have byte : c.toNat < 2 ^ 8 := (plain c member).2.trans (by decide)
    rw [BitVec.toNat_ofNat, Nat.mod_eq_of_lt byte, Char.ofNat_toNat]
  exact (List.map_congr_left same).trans (List.map_id text)

theorem appended_staticLog (texts : List Text) (before : List (List Text)) :
    appended (staticLog (texts :: before)) = chars texts.flatten := by
  rw [staticLog, appended_texts]
  split <;> rfl

/-- The bytes of the string are the text of the newest call. -/
theorem unchars_source (printed : SourceTexts texts)
    (run : StrRun (staticLog (texts :: sources)) str) :
    unchars (Bytes.block str.buf 0 str.len.toNat) = texts.flatten := by
  have inside : Inside str.size [] := by
    intro range member
    exact absurd member List.not_mem_nil
  have holds := (run.inv.sound inside).holds
  rw [holds, appended_staticLog, unchars_chars]
  intro c member
  obtain ⟨text, inTexts, inText⟩ := List.mem_flatten.mp member
  exact printed.plain text inTexts c inText

/-- **No append writes outside its string**: whatever the memory holds at a call, and whatever the
calls before have printed, the two static strings are used as they have to be. -/
theorem staticStrings_sound {bodies sources : List (List Text)} {body : List Text}
    (current : BodyTexts body) (finished : ∀ texts ∈ bodies, FinishedBody texts)
    (printed : ∀ texts ∈ sources, SourceTexts texts) :
    StaticSound (body :: bodies) ∧ StaticSound sources := by
  have all : ∀ texts ∈ body :: bodies, BodyTexts texts :=
    List.forall_mem_cons.mpr ⟨current, fun texts member => (finished texts member).body⟩
  constructor
  · apply StaticSound.of_texts
    · exact fun texts member => (all texts member).plain
    · exact fun texts member => (all texts member).short
    · exact fun texts member => (all texts member).starts
    · exact fun texts member => (finished texts member).ne_nil
  · apply StaticSound.of_texts
    · exact fun texts member => (printed texts member).plain
    · exact fun texts member => (printed texts member).short
    · exact fun texts member => (printed texts member).starts.2
    · exact fun texts member => (printed texts (List.mem_of_mem_tail member)).starts.1

/-- What is generated is printed. -/
theorem machineGenblockTexts_of_ok {insn : Insn} {mem : Bytes.Memory} {pc : U64} {source : Source}
    (generated : machineGenblock insn mem pc = .ok source) :
    ∃ texts, machineGenblockTexts insn mem pc = .ok texts := by
  have same := machineGenblockTexts_same insn mem pc
  rw [generated] at same
  generalize machineGenblockTexts insn mem pc = second at same
  cases same with
  | @ends _ texts _ => exact ⟨texts, rfl⟩

theorem staticStrings_sound_ret : ∃ body texts, machineGenblockTexts {} retCode 0x1000 = .ok texts ∧
    StaticSound [body, body] ∧ StaticSound [texts, texts] := by
  obtain ⟨texts, generated⟩ := machineGenblockTexts_of_ok
    (show machineGenblock {} retCode 0x1000 = .ok retSource from rfl)
  obtain ⟨t, returns, -⟩ := returns_of_texts generated
  have finished : FinishedBody t.body := ⟨{}, retCode, 0x1000, t, returns, rfl⟩
  have printed : SourceTexts texts := ⟨{}, retCode, 0x1000, generated⟩
  exact ⟨t.body, texts, generated, staticStrings_sound finished.body
    (List.forall_mem_singleton.mpr finished)
    (List.forall_mem_cons.mpr ⟨printed, List.forall_mem_singleton.mpr printed⟩)⟩

/-- **What the compiler reads refines interpretation**: the bytes that `machine_compile` writes are
a C file, whose function returns at a point of exit of interpretation exactly when no dropped trap
is on the way, and returns whenever interpretation gets to a point of exit. -/
theorem compilerInput_refines {F : FloatOps} {insn : Insn} {mem : Bytes.Memory} {pc : U64}
    {s : State} (generated : machineGenblockTexts insn mem pc = .ok texts)
    (run : StrRun (staticLog (texts :: sources)) str) (entry : s.pc = pc) (zero : s.gpRegs 0 = 0)
    (intact : Intact F mem pc s) :
    ∃ read, readFile (unchars (Bytes.block str.buf 0 str.len.toNat)) = some read ∧
      (∀ s', Start F read s s' → ((∃ t, Steps (followIter F) s t ∧ ExitPoint F t s') ↔
        ∀ t, Steps (blockIter F) s t → ¬ DropsTrap t)) ∧
      ∀ t r, Steps (followIter F) s t → ExitPoint F t r →
        ∃ t' s', Steps (followIter F) s t' ∧ Steps (followIter F) t' t ∧ ExitPoint F t' s' ∧
          Start F read s s' := by
  have same := machineGenblockTexts_same insn mem pc
  rw [generated] at same
  generalize source : machineGenblock insn mem pc = first at same
  cases same with
  | ends reads =>
      obtain ⟨read, file, literals⟩ := reads
      obtain ⟨visited, tracer, gen⟩ := machineGenblock_spec source
      rw [unchars_source ⟨insn, mem, pc, generated⟩ run]
      refine ⟨read, file, ?_, ?_⟩
      · intro s' call
        exact gen.exit_iff entry zero intact ((literals.start s s').mp call)
      · intro t r steps exit
        obtain ⟨t', s', before, after, exit', call⟩ :=
          gen.start_of_exit entry zero intact steps exit
        exact ⟨t', s', before, after, exit', (literals.start s s').mpr call⟩

/-- The file of the countdown, after another block has been printed. -/
theorem compilerInput_refines_countdown : ∃ texts earlier str,
    machineGenblockTexts {} countdown 0x1000 = .ok texts ∧
    machineGenblockTexts {} retCode 0x1000 = .ok earlier ∧
    StrRun (staticLog [texts, earlier]) str ∧
    ∃ read, readFile (unchars (Bytes.block str.buf 0 str.len.toNat)) = some read ∧
      ∃ s', Start default read countdownState s' ∧
        ∃ t, Steps (followIter default) countdownState t ∧ ExitPoint default t s' := by
  obtain ⟨source, generated, s', call⟩ : ∃ source,
      machineGenblock {} countdown 0x1000 = .ok source ∧ ∃ s', Iteration.run
        (sourceIter default source) 9 (CEnv.enter countdownState, source) = some (.ok s') :=
    ⟨_, rfl, _, rfl⟩
  obtain ⟨texts, printed⟩ := machineGenblockTexts_of_ok generated
  obtain ⟨earlier, before⟩ := machineGenblockTexts_of_ok
    (show machineGenblock {} retCode 0x1000 = .ok retSource from rfl)
  have text : SourceTexts texts := ⟨{}, countdown, 0x1000, printed⟩
  have text' : SourceTexts earlier := ⟨{}, retCode, 0x1000, before⟩
  have short : ∀ texts' ∈ [texts, earlier], texts'.flatten.length ≤ textBound :=
    List.forall_mem_cons.mpr ⟨text.short, List.forall_mem_singleton.mpr text'.short⟩
  obtain ⟨str, run⟩ := StrRun.of_fits fun call before suffix =>
    (bounded_staticLog short).fits suffix
  obtain ⟨visited, tracer, gen⟩ := machineGenblock_spec generated
  have computes : ∀ t, Steps (blockIter default) countdownState t → ¬ DropsTrap t :=
    fun t steps => (countdown_counts steps).not_dropsTrap
  obtain ⟨t, steps, exit⟩ :=
    (gen.exit_iff rfl rfl countdown_intact (returns_of_run call)).mpr computes
  obtain ⟨read, file, points, returns⟩ :=
    compilerInput_refines printed run rfl rfl countdown_intact
  obtain ⟨_, r, _, _, _, start⟩ := returns t s' steps exit
  exact ⟨texts, earlier, str, printed, before, run, read, file, r, start,
    (points r start).mpr computes⟩

end Compiler

end RiscvEmu
