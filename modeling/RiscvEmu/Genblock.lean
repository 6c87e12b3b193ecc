import RiscvEmu.Codegen
import RiscvEmu.Foundation.Iteration
import Mathlib.Data.Fintype.Card

/-!
# Generating a block

`machine_genblock`: from a pc, the source of a C function that executes the
guest code from there, following direct branches. A stack holds the pcs that
are pending and a set those that have been emitted; every pc gets one label
block.

The instruction record is static in the source, so a round starts with the
record of the round before it, and the first round with that of the previous
call. `Block` is what a pc contributes, and `blockAt` computes it from a fresh
record; `genIter_cases` says what one round does in these terms, whatever the
static record holds.

The source does not depend on what the record holds at the call (`machineGenblock_insn`).

The loop ends (`run_ne_none`): a round that emits a block uses up a slot of the
set and pushes at most two pcs.
-/

set_option autoImplicit false

namespace RiscvEmu

/-- The variables of `machine_genblock`. -/
structure GenState where
  body : List Line
  stack : WorkStack
  set : WorkSet
  tracer : Tracer
  insn : Insn

/-- `stack_push` of the target that a generator pushes, if it does. -/
def pushTarget (stack : WorkStack) : Option U64 → Except Abort WorkStack
  | none => .ok stack
  | some target => stack.push target

/-- The end of a round: what the generator adds, and the step to the next pc. -/
def emitBlock (g : GenState) (pc : U64) (insn : Insn) (emission : Emission) :
    Except Abort GenState := do
  let body := g.body ++ .label (.insn pc) :: emission.lines
  let tracer := g.tracer.addUsage emission.gp emission.fp
  let stack ← pushTarget g.stack emission.target
  let insn := { insn with cont := insn.cont || emission.cont }
  if insn.cont then .ok { g with body, stack, tracer, insn }
  else do
    let pc := pc + insn.len
    let stack ← stack.push pc
    .ok { g with body := body ++ [.goto (.insn pc), .close], stack, tracer, insn }

/-- One round of the loop. -/
def genIter (mem : Bytes.Memory) (g : GenState) : Except Abort (GenState ⊕ GenState) :=
  match g.stack.pop with
  | none => .ok (.inr g)
  | some (pc, stack) => do
      let (added, set) ← g.set.add pc
      if added then
        let insn ← insnDecode g.insn (Bytes.load mem pc 32)
        let emission ← codegenFuncs insn.type insn pc
        let g ← emitBlock { g with stack, set } pc insn emission
        return .inl g
      else return .inl { g with stack, set }

/-- The source that is put together after the loop. -/
def GenState.source (g : GenState) : Source :=
  g.tracer.prologue ++ g.body ++ .label .finish :: g.tracer.epilogue

/-- The variables before the loop; the entry is on the stack. -/
def GenState.start (insn : Insn) (pc : U64) : GenState where
  body := []
  stack := ⟨[pc], by simp [stackCap], List.nodup_singleton pc⟩
  set := .reset
  tracer := .reset
  insn := insn

/-- The push before the loop finds room. -/
theorem push_start (insn : Insn) (pc : U64) :
    WorkStack.reset.push pc = .ok (GenState.start insn pc).stack := rfl

/-- `machine_genblock` at a pc; `insn` is what the static record holds. -/
def machineGenblock (insn : Insn) (mem : Bytes.Memory) (pc : U64) : Except Abort Source :=
  match Iteration.run (genIter mem) (2 * setSize + 2) (.start insn pc) with
  | none => .error .hang
  | some (.error abort) => .error abort
  | some (.ok g) => .ok g.source

/-! ## What a pc contributes -/

/-- What a pc adds to the block: the emission of its generator, and the pc after
it unless the generator or the decoder has ended the block. -/
structure Block where
  emission : Emission
  next : Option U64

namespace Block

/-- The lines of a label block. -/
def lines (block : Block) (pc : U64) : List Line :=
  .label (.insn pc) :: block.emission.lines ++
    match block.next with
    | none => []
    | some next => [.goto (.insn next), .close]

/-- The pcs that are pushed. -/
def succs (block : Block) : List U64 := block.emission.target.toList ++ block.next.toList

end Block

/-- The block of a decoded instruction. -/
def Insn.block (insn : Insn) (pc : U64) (emission : Emission) : Block where
  emission := emission
  next := if insn.cont || emission.cont then none else some (pc + insn.len)

/-- The block at a pc, decoded into a given record. -/
def blockFrom (old : Insn) (mem : Bytes.Memory) (pc : U64) : Except Abort Block := do
  let insn ← insnDecode old (Bytes.load mem pc 32)
  let emission ← codegenFuncs insn.type insn pc
  return insn.block pc emission

/-- The block at a pc. -/
def blockAt (mem : Bytes.Memory) (pc : U64) : Except Abort Block := blockFrom {} mem pc

/-- The static record does not show: only an ECALL keeps it, and its generator does
not look at it. -/
theorem blockFrom_old (old : Insn) (mem : Bytes.Memory) (pc : U64) :
    blockFrom old mem pc = blockAt mem pc := by
  by_cases ecall : Bytes.load mem pc 32 = 0x73
  · simp only [blockAt, blockFrom, ecall, insnDecode_ecall]
    rfl
  · rw [blockAt, blockFrom, insnDecode_old old {} ecall, blockFrom]

/-! ## Spec of a round -/

section Round

variable {mem : Bytes.Memory} {g g' : GenState} {stack stack' : WorkStack} {pc x : U64}
  {target : Option U64} {insn : Insn} {emission : Emission}

theorem pushTarget_eq : pushTarget stack target = target.toList.foldlM WorkStack.push stack := by
  cases target with
  | none => rfl
  | some target =>
      rw [Option.toList_some, List.foldlM_cons, pushTarget]
      cases stack.push target <;> rfl

/-- What the end of a round does with the block of the instruction. -/
structure Emits (g g' : GenState) (pc : U64) (block : Block) : Prop where
  body : g'.body = g.body ++ block.lines pc
  tracer : g'.tracer = g.tracer.addUsage block.emission.gp block.emission.fp
  set : g'.set = g.set
  stack : block.succs.foldlM WorkStack.push g.stack = .ok g'.stack

/-- The end of a round pushes the pcs of the block. -/
theorem emitBlock_stack : (insn.block pc emission).succs.foldlM WorkStack.push g.stack =
    GenState.stack <$> emitBlock g pc insn emission := by
  rw [Block.succs, List.foldlM_append, ← pushTarget_eq, emitBlock]
  change pushTarget g.stack emission.target >>= _ = _
  cases pushTarget g.stack emission.target with
  | error abort => rfl
  | ok stack =>
      by_cases cont : insn.cont || emission.cont
      · simp only [Insn.block, if_pos cont]
        rfl
      · simp only [Insn.block, if_neg cont, Option.toList_some, List.foldlM_cons, List.foldlM_nil]
        change stack.push (pc + insn.len) >>= _ = _ <$> (stack.push (pc + insn.len) >>= _)
        cases stack.push (pc + insn.len) <;> rfl

/-- The end of a round dies at a push that finds no room. -/
theorem emitBlock_error {abort : Abort} (died : emitBlock g pc insn emission = .error abort) :
    abort = .assertion "stack->top < STACK_CAP" ∧
      ∃ before next after, (insn.block pc emission).succs = before ++ next :: after ∧
        stackCap ≤ (before.foldl Worklist.push g.stack.elems).length := by
  apply WorkStack.pushes_error
  rw [emitBlock_stack, died]
  rfl

theorem emitBlock_ok (emits : emitBlock g pc insn emission = .ok g') :
    Emits g g' pc (insn.block pc emission) := by
  have stack : (insn.block pc emission).succs.foldlM WorkStack.push g.stack = .ok g'.stack := by
    rw [emitBlock_stack, emits]
    rfl
  simp only [emitBlock, bind_ok] at emits
  obtain ⟨stack₁, _, emits⟩ := emits
  by_cases cont : insn.cont || emission.cont
  · rw [if_pos cont] at emits
    cases emits
    refine ⟨?_, rfl, rfl, stack⟩
    simp [Block.lines, Insn.block, cont]
  · rw [if_neg cont, bind_ok] at emits
    obtain ⟨stack₂, _, emits⟩ := emits
    cases emits
    refine ⟨?_, rfl, rfl, stack⟩
    simp [Block.lines, Insn.block, cont, Insn.len]

/-- What becomes pending, and that each push has found room. -/
theorem Emits.pushes {block : Block} (emits : Emits g g' pc block) :
    g'.stack.elems = block.succs.foldl Worklist.push g.stack.elems ∧
      ∀ before next after, block.succs = before ++ next :: after →
        (before.foldl Worklist.push g.stack.elems).length < stackCap :=
  WorkStack.pushes_ok emits.stack

theorem Emits.length {block : Block} (emits : Emits g g' pc block) :
    g'.stack.elems.length ≤ g.stack.elems.length + 2 := by
  rw [emits.pushes.1]
  refine (Worklist.length_foldl_push ..).trans (Nat.add_le_add_left ?_ _)
  rw [Block.succs, List.length_append]
  exact Nat.add_le_add Option.length_toList_le Option.length_toList_le

/-- **One round.** The loop ends with an empty stack; or the top of the stack is
dropped, having been emitted already; or its block is emitted. -/
theorem genIter_cases {next : GenState ⊕ GenState} (round : genIter mem g = .ok next) :
    (g.stack.elems = [] ∧ next = .inr g) ∨
    (∃ pc stack, g.stack.elems = pc :: stack.elems ∧ g.set.Has pc ∧
      next = .inl { g with stack := stack }) ∨
    (∃ pc stack set block g', g.stack.elems = pc :: stack.elems ∧
      g.set.add pc = .ok (true, set) ∧ blockAt mem pc = .ok block ∧
      Emits { g with stack := stack, set := set } g' pc block ∧ next = .inl g') := by
  simp only [genIter] at round
  split at round
  · next empty =>
      cases round
      exact .inl ⟨WorkStack.pop_none.mp empty, rfl⟩
  · next pc stack popped =>
      right
      have elems := WorkStack.pop_some popped
      obtain ⟨⟨added, set⟩, add, round⟩ := bind_ok.mp round
      cases added with
      | false =>
          obtain ⟨has, rfl⟩ := WorkSet.add_false add
          cases round
          exact .inl ⟨pc, stack, elems, has, rfl⟩
      | true =>
          simp only [if_true, bind_ok] at round
          obtain ⟨insn, decoded, emission, generated, g', emits, round⟩ := round
          cases round
          have block : blockAt mem pc = .ok (insn.block pc emission) := by
            rw [← blockFrom_old g.insn]
            simp only [blockFrom, bind_ok]
            exact ⟨insn, decoded, emission, generated, rfl⟩
          exact .inr ⟨pc, stack, set, _, g', elems, add, block, emitBlock_ok emits, rfl⟩

/-- **How a round dies**: its pc cannot be added to the set; or the pc has no block; or the stack
has no room for a pc that the block pushes. -/
theorem genIter_died {abort : Abort} (died : genIter mem g = .error abort) :
    ∃ (pc : U64) (stack : WorkStack), g.stack.elems = pc :: stack.elems ∧
      (g.set.add pc = .error abort ∨ ∃ set, g.set.add pc = .ok (true, set) ∧
        (blockAt mem pc = .error abort ∨ ∃ block, blockAt mem pc = .ok block ∧
          abort = .assertion "stack->top < STACK_CAP" ∧
          ∃ before next after, block.succs = before ++ next :: after ∧
            stackCap ≤ (before.foldl Worklist.push stack.elems).length)) := by
  simp only [genIter] at died
  split at died
  · cases died
  · next pc stack popped =>
      refine ⟨pc, stack, WorkStack.pop_some popped, ?_⟩
      rcases bind_error.mp died with died | ⟨⟨added, set⟩, add, died⟩
      · exact .inl died
      · cases added with
        | false => cases died
        | true =>
            refine .inr ⟨set, add, ?_⟩
            rw [← blockFrom_old g.insn, blockFrom]
            rw [if_pos rfl] at died
            rcases bind_error.mp died with died | ⟨insn, decoded, died⟩
            · exact .inl (bind_error.mpr (.inl died))
            rcases bind_error.mp died with died | ⟨emission, generated, died⟩
            · exact .inl (bind_error.mpr (.inr ⟨insn, decoded, bind_error.mpr (.inl died)⟩))
            rcases bind_error.mp died with died | ⟨_, _, died⟩
            · refine .inr ⟨insn.block pc emission, ?_, emitBlock_error died⟩
              exact bind_ok.mpr ⟨insn, decoded, bind_ok.mpr ⟨emission, generated, rfl⟩⟩
            · cases died

/-! ## The loop ends -/

/-- What is left to do: a slot of the set pays for two pushes. -/
def GenState.measure (g : GenState) : Nat := 2 * g.set.free.card + g.stack.elems.length

theorem genIter_decreases (round : genIter mem g = .ok (.inl g')) : g'.measure < g.measure := by
  rcases genIter_cases round with ⟨_, same⟩ | ⟨pc, stack, elems, _, same⟩ |
    ⟨pc, stack, set, block, g₁, elems, add, _, emits, same⟩
  · cases same
  · cases same
    simp [GenState.measure, elems]
  · cases same
    obtain ⟨_, _, _, fewer⟩ := WorkSet.add_true add
    have pushed : g'.stack.elems.length ≤ stack.elems.length + 2 := emits.length
    have sets : g'.set = set := emits.set
    simp only [GenState.measure, elems, sets, List.length_cons]
    omega

/-- The rounds of `machineGenblock` suffice. -/
theorem run_ne_none (insn : Insn) (mem : Bytes.Memory) (pc : U64) :
    Iteration.run (genIter mem) (2 * setSize + 2) (.start insn pc) ≠ none := by
  have slots : (GenState.start insn pc).set.free.card ≤ setSize := by
    simpa using Finset.card_le_univ (GenState.start insn pc).set.free
  have entry : (GenState.start insn pc).measure < 2 * setSize + 2 := by
    have one : (GenState.start insn pc).stack.elems.length = 1 := rfl
    rw [GenState.measure, one]
    omega
  have decreases : ∀ a b, True → genIter mem a = .ok (.inl b) → True ∧ b.measure < a.measure :=
    fun _ _ _ round => ⟨trivial, genIter_decreases round⟩
  exact Iteration.run_ne_none_of_measure GenState.measure decreases trivial entry

/-- **A block is generated exactly when the loop returns.** -/
theorem machineGenblock_ok {source : Source} :
    machineGenblock insn mem pc = .ok source ↔
      ∃ g, Iteration.Returns (genIter mem) (.start insn pc) g ∧ g.source = source := by
  have enough := run_ne_none insn mem pc
  constructor
  · intro generated
    simp only [machineGenblock] at generated
    split at generated
    · cases generated
    · cases generated
    · next g found =>
        cases generated
        exact ⟨g, Iteration.returns_of_run found, rfl⟩
  · rintro ⟨g, returns, rfl⟩
    rw [machineGenblock, Iteration.run_of_returns enough returns]

/-- The host process dies exactly when a round of the loop does. -/
theorem machineGenblock_error {abort : Abort} :
    machineGenblock insn mem pc = .error abort ↔
      Iteration.Aborts (genIter mem) (.start insn pc) abort := by
  have enough := run_ne_none insn mem pc
  constructor
  · intro died
    simp only [machineGenblock] at died
    split at died
    · next found => exact absurd found enough
    · next e found =>
        cases died
        exact Iteration.aborts_of_run found
    · cases died
  · intro aborts
    rw [machineGenblock, Iteration.run_of_aborts enough aborts]

end Round

/-! ## The static record -/

section Record

variable {mem : Bytes.Memory}

/-- The variables with another record in `insn`. -/
def GenState.withInsn (g : GenState) (insn : Insn) : GenState := { g with insn := insn }

/-- The outcomes of two rounds agree but for the record. -/
inductive SameButInsn : Except Abort (GenState ⊕ GenState) → Except Abort (GenState ⊕ GenState) →
    Prop where
  | died (abort : Abort) : SameButInsn (.error abort) (.error abort)
  | next (g : GenState) (insn : Insn) : SameButInsn (.ok (.inl g)) (.ok (.inl (g.withInsn insn)))
  | done (g : GenState) (insn : Insn) : SameButInsn (.ok (.inr g)) (.ok (.inr (g.withInsn insn)))

theorem SameButInsn.refl (out : Except Abort (GenState ⊕ GenState)) : SameButInsn out out := by
  match out with
  | .error abort => exact .died abort
  | .ok (.inl g) => exact .next g g.insn
  | .ok (.inr g) => exact .done g g.insn

/-- A round does not depend on the record, but for the record it passes on. -/
theorem genIter_withInsn (g : GenState) (insn : Insn) :
    SameButInsn (genIter mem g) (genIter mem (g.withInsn insn)) := by
  have popped : (g.withInsn insn).stack.pop = g.stack.pop := rfl
  rw [genIter, genIter, popped]
  cases g.stack.pop with
  | none => exact .done g insn
  | some top =>
      obtain ⟨pc, stack⟩ := top
      have added : (g.withInsn insn).set.add pc = g.set.add pc := rfl
      simp only [added]
      cases g.set.add pc with
      | error abort => exact .died abort
      | ok result =>
          obtain ⟨added, set⟩ := result
          cases added with
          | false => exact .next { g with stack := stack, set := set } insn
          | true =>
              by_cases call : Bytes.load mem pc 32 = 0x73
              · have record := insnDecode_ecall g.insn
                have record' := insnDecode_ecall (g.withInsn insn).insn
                simp only [call, record, record']
                exact .next _ _
              · have record : insnDecode (g.withInsn insn).insn (Bytes.load mem pc 32) =
                    insnDecode g.insn (Bytes.load mem pc 32) := insnDecode_old _ _ call
                simp only [record]
                exact .refl _

/-- The record does not show in the source. -/
theorem run_withInsn (rounds : Nat) (g : GenState) (insn : Insn) :
    (Iteration.run (genIter mem) rounds (g.withInsn insn)).map (Except.map GenState.source) =
      (Iteration.run (genIter mem) rounds g).map (Except.map GenState.source) := by
  induction rounds generalizing g insn with
  | zero => rfl
  | succ rounds ih =>
      have same := @genIter_withInsn mem g insn
      rw [Iteration.run, Iteration.run]
      generalize genIter mem g = first at same
      generalize genIter mem (g.withInsn insn) = second at same
      cases same with
      | died => rfl
      | next g' insn' => exact ih g' insn'
      | done => rfl

/-- **What the static record holds does not matter.** -/
theorem machineGenblock_insn (insn : Insn) (mem : Bytes.Memory) (pc : U64) :
    machineGenblock insn mem pc = machineGenblock {} mem pc := by
  have same := @run_withInsn mem (2 * setSize + 2) (.start {} pc) insn
  have start : (GenState.start {} pc).withInsn insn = .start insn pc := rfl
  rw [start] at same
  rw [machineGenblock, machineGenblock]
  generalize Iteration.run (genIter mem) (2 * setSize + 2) (.start insn pc) = a at same
  generalize Iteration.run (genIter mem) (2 * setSize + 2) (.start {} pc) = b at same
  match a, b with
  | none, none => rfl
  | some (.error _), some (.error _) =>
      cases same
      rfl
  | some (.ok _), some (.ok _) =>
      simpa [Except.map] using same
  | none, some _ => cases same
  | some _, none => cases same
  | some (.error _), some (.ok _) => cases same
  | some (.ok _), some (.error _) => cases same

end Record

end RiscvEmu
