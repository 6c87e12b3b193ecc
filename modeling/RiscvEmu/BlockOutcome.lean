import RiscvEmu.BlockGraph
import RiscvEmu.Trajectory
import Mathlib.Data.Set.Function

/-!
# When a block can be generated

The generator visits every instruction that can be reached statically, also the
sides of branches that no run takes, and its work structures have a fixed size.
So it can die at a pc from which interpretation goes on, in the decoder (`notTaken`),
with a full stack (`branchRow`) and with a crowded set (`jumpRow`).

`Compilable` is what the generator needs of an instruction. What it needs of its work
structures is a property of the static graph: `StackSuffices` bounds the pcs that are
pending along the exploration, and `SetSuffices` asks that every pc finds a slot that
those before it leave.

* `machineGenblock_outcome`: exactly when a block is generated.
-/

set_option autoImplicit false

namespace RiscvEmu

open Worklist Iteration

/-- The assertion of `stack_push`. -/
abbrev stackFull : Abort := .assertion "stack->top < STACK_CAP"

/-- The assertion of `set_add` on the length of the walk. -/
abbrev searchFull : Abort := .assertion "++search_count <= MAX_SEARCH_COUNT"

/-- The instructions that name a control and status register. -/
def InsnType.isCsr : InsnType → Bool
  | .csrrc | .csrrci | .csrrs | .csrrsi | .csrrw | .csrrwi => true
  | _ => false

/-- What the generator needs of the instruction at a pc. -/
structure Compilable (mem : Bytes.Memory) (pc : U64) : Prop where
  nonzero : pc ≠ 0
  decodes : ∃ insn, insnDecode {} (Bytes.load mem pc 32) = .ok insn ∧
    (insn.type.isCsr = true → csrSupported insn.csr = true)

/-- Fewer than `STACK_CAP` pcs are pending at each push of the exploration. -/
def StackSuffices (mem : Bytes.Memory) (pc : U64) : Prop := PushesFit (staticSuccs mem) stackCap pc

/-- Every pc that the exploration gets to has been visited, or finds a slot that is not crowded by
the pcs that have been, within the bound of its walk. -/
def SetSuffices (mem : Bytes.Memory) (pc : U64) : Prop :=
  ∀ visited node pending, Explores (staticSuccs mem) pc visited (node :: pending) →
    node ∈ visited ∨ ∃ slot, (slot - setHash node).val ≤ setSearchCount ∧
      ¬ Probing.Crowded setHash visited.toFinset slot

/-- There is room for a pc that is visited when these have been visited and these are pending. -/
structure RoomFor (mem : Bytes.Memory) (visited pending : List U64) (pc : U64) : Prop where
  slot : ∃ slot, (slot - setHash pc).val ≤ setSearchCount ∧
    ¬ Probing.Crowded setHash visited.toFinset slot
  pushes : ∀ before next after, staticSuccs mem pc = before ++ next :: after →
    (before.foldl push pending).length < stackCap

section Generators

variable {mem : Bytes.Memory} {pc : U64} {insn : Insn}

/-- A generator dies for an unsupported register only. -/
theorem codegenFuncs_ok {type : InsnType} :
    (∃ e, codegenFuncs type insn pc = .ok e) ↔
      (type.isCsr = true → csrSupported insn.csr = true) := by
  cases type with
  | csrrc | csrrci | csrrs | csrrsi | csrrw | csrrwi =>
      by_cases supported : csrSupported insn.csr = true
      · exact iff_of_true ⟨_, if_pos supported⟩ fun _ => supported
      · refine iff_of_false ?_ fun known => supported (known rfl)
        rintro ⟨e, generated⟩
        have dies : Codegen.funcCsr insn pc = .error (.fatal "unsupported csr") := if_neg supported
        cases dies.symm.trans generated
  | _ => exact iff_of_true ⟨_, rfl⟩ fun isCsr => by cases isCsr

theorem blockAt_isOk : (∃ block, blockAt mem pc = .ok block) ↔
    ∃ insn, insnDecode {} (Bytes.load mem pc 32) = .ok insn ∧
      (insn.type.isCsr = true → csrSupported insn.csr = true) := by
  constructor
  · rintro ⟨block, generated⟩
    obtain ⟨insn, e, decoded, emitted, _⟩ := blockAt_ok generated
    exact ⟨insn, decoded, codegenFuncs_ok.mp ⟨e, emitted⟩⟩
  · rintro ⟨insn, decoded, supported⟩
    obtain ⟨e, emitted⟩ := codegenFuncs_ok.mpr supported
    refine ⟨insn.block pc e, ?_⟩
    simp only [blockAt, blockFrom, bind_ok]
    exact ⟨insn, decoded, e, emitted, rfl⟩

end Generators

/-! ## Rounds and the exploration -/

theorem WorkSet.add_error {set : WorkSet} {elem : U64} {abort : Abort}
    (died : set.add elem = .error abort) (nonzero : elem ≠ 0) :
    abort = searchFull ∧ set.walk elem = none := by
  simp only [WorkSet.add, if_neg nonzero] at died
  split at died
  · next walk =>
      cases died
      exact ⟨rfl, walk⟩
  · split at died <;> cases died

section Round

variable {mem : Bytes.Memory} {g g' : GenState} {entry pc : U64} {visited pending : List U64}
  {abort : Abort}

/-- The walk for a pc fails when it is not in the set and finds no slot that the others leave. -/
theorem GenInv.walk_eq_none (inv : GenInv mem entry visited g) (nonzero : pc ≠ 0) :
    g.set.walk pc = none ↔ pc ∉ visited ∧ ∀ slot, (slot - setHash pc).val ≤ setSearchCount →
      Probing.Crowded setHash visited.toFinset slot := by
  have stored : Probing.stored g.set.table 0 = visited.toFinset := by
    ext x
    rw [Probing.mem_stored, List.mem_toFinset, ← inv.set x, WorkSet.Has]
    constructor
    · rintro ⟨nonzero, i, here⟩
      exact ⟨i, here, nonzero⟩
    · rintro ⟨i, here, nonzero⟩
      exact ⟨nonzero, i, here⟩
  rw [WorkSet.walk, g.set.placed.probe_eq_none_iff nonzero, stored, List.mem_toFinset]

/-- **A round that does not die** takes the exploration on, and has found room for what it
visits. -/
theorem GenInv.round {next : GenState ⊕ GenState} (inv : GenInv mem entry visited g)
    (elems : g.stack.elems = pc :: pending) (round : genIter mem g = .ok next) :
    ∃ g', next = .inl g' ∧
      (pc ∈ visited ∧ GenInv mem entry visited g' ∧ g'.stack.elems = pending ∨
        pc ∉ visited ∧ GenInv mem entry (visited ++ [pc]) g' ∧
          g'.stack.elems = (staticSuccs mem pc).foldl push pending ∧
          RoomFor mem visited pending pc) := by
  rcases genIter_cases round with ⟨empty, _⟩ | ⟨top, stack, elems', has, rfl⟩ |
    ⟨top, stack, set, block, g', elems', add, at_, emits, rfl⟩
  · cases elems.symm.trans empty
  · cases elems.symm.trans elems'
    have seen := (inv.set pc).mp has
    exact ⟨_, rfl, .inl ⟨seen, inv.skip elems' seen, rfl⟩⟩
  · cases elems.symm.trans elems'
    obtain ⟨nonzero, new, -⟩ := WorkSet.add_true add
    have fresh : pc ∉ visited := fun seen => new ((inv.set pc).mpr seen)
    have succs := (blockAt_shape at_).2
    refine ⟨g', rfl, .inr ⟨fresh, inv.emit elems' add at_ emits, ?_, ?_, ?_⟩⟩
    · rw [emits.pushes.1, succs]
    · by_contra missing
      refine WorkSet.add_ne_ok ((inv.walk_eq_none nonzero).mpr ⟨fresh, fun slot near => ?_⟩) add
      by_contra left
      exact missing ⟨slot, near, left⟩
    · intro before next after split
      exact emits.pushes.2 before next after (succs.trans split)

/-- A round dies where there is no room, when everything that is reached is compilable. -/
theorem GenInv.round_died (inv : GenInv mem entry visited g)
    (compilable : ∀ a, Reaches (staticSuccs mem) entry a → Compilable mem a)
    (died : genIter mem g = .error abort) :
    (abort = searchFull ∧ ¬ SetSuffices mem entry) ∨
      (abort = stackFull ∧ ¬ StackSuffices mem entry) := by
  obtain ⟨pc, stack, elems, outcome⟩ := genIter_died died
  have explores := elems ▸ inv.explores
  obtain ⟨nonzero, decodes⟩ :=
    compilable pc (inv.explored.reached pc (.inr (elems ▸ List.mem_cons_self)))
  rcases outcome with died | ⟨set, add, outcome⟩
  · obtain ⟨same, walk⟩ := WorkSet.add_error died nonzero
    obtain ⟨fresh, crowded⟩ := (inv.walk_eq_none nonzero).mp walk
    refine .inl ⟨same, fun enough => ?_⟩
    rcases enough _ _ _ explores with seen | ⟨slot, near, left⟩
    · exact fresh seen
    · exact left (crowded slot near)
  · have fresh : pc ∉ visited := fun seen => (WorkSet.add_true add).2.1 ((inv.set pc).mpr seen)
    obtain ⟨block, generated⟩ := blockAt_isOk.mpr decodes
    rcases outcome with died | ⟨_, same, full, before, next, after, split, long⟩
    · cases generated.symm.trans died
    · rw [(blockAt_shape same).2] at split
      refine .inr ⟨full, fun enough => ?_⟩
      exact absurd (enough _ _ _ explores fresh before next after split) (Nat.not_lt.mpr long)

end Round

/-! ## The capacities -/

section Capacity

variable {mem : Bytes.Memory} {pc : U64} {insn : Insn} {source : Source} {visited : List U64}
  {pending : List U64} {abort : Abort}

/-- A call that dies does so because of a capacity, when everything is compilable. -/
theorem machineGenblock_died
    (compilable : ∀ a, Reaches (staticSuccs mem) pc a → Compilable mem a)
    (died : machineGenblock insn mem pc = .error abort) :
    (abort = searchFull ∧ ¬ SetSuffices mem pc) ∨ (abort = stackFull ∧ ¬ StackSuffices mem pc) := by
  obtain ⟨g, steps, died⟩ := aborts_iff_steps_die.mp (machineGenblock_error.mp died)
  obtain ⟨visited, inv⟩ := GenInv.steps steps
  exact inv.round_died compilable died

/-- A call that returns does not die on the way. -/
theorem genIter_of_ok (generated : machineGenblock insn mem pc = .ok source) {g : GenState}
    (steps : Steps (genIter mem) (.start insn pc) g) : ∃ next, genIter mem g = .ok next := by
  obtain ⟨last, returns, -⟩ := machineGenblock_ok.mp generated
  cases round : genIter mem g with
  | error abort => exact absurd (Aborts.of_steps steps (.here round)) returns.not_aborts
  | ok next => exact ⟨next, rfl⟩

/-- A call that returns goes through the exploration to its end. -/
theorem genState_of_explores (generated : machineGenblock insn mem pc = .ok source)
    (explores : Explores (staticSuccs mem) pc visited pending) :
    ∃ g, Steps (genIter mem) (.start insn pc) g ∧ GenInv mem pc visited g ∧
      g.stack.elems = pending := by
  refine Explores.invariant (P := fun visited pending => ∃ g,
    Steps (genIter mem) (.start insn pc) g ∧ GenInv mem pc visited g ∧ g.stack.elems = pending)
    ⟨_, .refl, .start insn, rfl⟩ ?_ ?_ explores
  · rintro node visited pending _ seen ⟨g, steps, inv, elems⟩
    obtain ⟨next, round⟩ := genIter_of_ok generated steps
    obtain ⟨g', rfl, ⟨_, inv', rest⟩ | ⟨fresh, _⟩⟩ := inv.round elems round
    · exact ⟨g', steps.tail round, inv', rest⟩
    · exact absurd seen fresh
  · rintro node visited pending _ fresh ⟨g, steps, inv, elems⟩
    obtain ⟨next, round⟩ := genIter_of_ok generated steps
    obtain ⟨g', rfl, ⟨seen, _⟩ | ⟨_, inv', pushed, _⟩⟩ := inv.round elems round
    · exact absurd seen fresh
    · exact ⟨g', steps.tail round, inv', pushed⟩

/-- A call that returns has found room for every pc. -/
theorem room_of_ok {node : U64} (generated : machineGenblock insn mem pc = .ok source)
    (explores : Explores (staticSuccs mem) pc visited (node :: pending)) (fresh : node ∉ visited) :
    RoomFor mem visited pending node := by
  obtain ⟨g, steps, inv, elems⟩ := genState_of_explores generated explores
  obtain ⟨next, round⟩ := genIter_of_ok generated steps
  obtain ⟨g', -, ⟨seen, _⟩ | ⟨_, _, _, room⟩⟩ := inv.round elems round
  · exact absurd seen fresh
  · exact room

theorem suffices_of_ok (generated : machineGenblock insn mem pc = .ok source) :
    StackSuffices mem pc ∧ SetSuffices mem pc := by
  constructor
  · intro visited node pending explores fresh
    exact (room_of_ok generated explores fresh).pushes
  · intro visited node pending explores
    by_cases seen : node ∈ visited
    · exact .inl seen
    · exact .inr (room_of_ok generated explores seen).slot

/-- Pcs with different hashes do not crowd each other. -/
theorem SetSuffices.of_injOn
    (injective : Set.InjOn setHash {a | Reaches (staticSuccs mem) pc a}) : SetSuffices mem pc := by
  intro visited node pending explores
  by_cases seen : node ∈ visited
  · exact .inl seen
  right
  have reached := explores.explored.reached
  refine ⟨setHash node, by simp, Probing.not_crowded_of_injOn ?_ ?_⟩
  · intro x known y known' same
    exact injective (reached x (.inl (List.mem_toFinset.mp known)))
      (reached y (.inl (List.mem_toFinset.mp known'))) same
  · intro x known same
    have known := List.mem_toFinset.mp known
    have here : x = node := injective (reached x (.inl known))
      (reached node (.inr List.mem_cons_self)) same
    exact seen (here ▸ known)

end Capacity

/-! ## When a block is generated -/

/-- Interpretation from a pc, to the next indirect jump or ECALL, does not die,
whatever the registers hold. -/
def Survives (mem : Bytes.Memory) (pc : U64) : Prop :=
  ∀ (F : FloatOps) (s : State), s.mem = mem → s.pc = pc → s.gpRegs 0 = 0 →
    ∀ abort, ¬ Iteration.Aborts (followIter F) s abort

/-- **When a block is generated**: exactly when every instruction that can be reached
statically is compilable, and along the exploration the stack has room for every pc that
becomes pending and the set for every pc that is visited. -/
theorem machineGenblock_outcome (insn : Insn) (mem : Bytes.Memory) (pc : U64) :
    (∃ source, machineGenblock insn mem pc = .ok source) ↔
      (∀ a, Reaches (staticSuccs mem) pc a → Compilable mem a) ∧ StackSuffices mem pc ∧
        SetSuffices mem pc := by
  constructor
  · rintro ⟨source, generated⟩
    refine ⟨?_, suffices_of_ok generated⟩
    obtain ⟨visited, tracer, gen⟩ := machineGenblock_spec generated
    intro a reaches
    have seen : a ∈ visited := gen.explored.mem_of_reaches reaches
    obtain ⟨block, generated, _⟩ := gen.blocks a seen
    exact ⟨gen.nonzero a seen, blockAt_isOk.mp ⟨block, generated⟩⟩
  · rintro ⟨compilable, stack, set⟩
    cases outcome : machineGenblock insn mem pc with
    | ok source => exact ⟨source, rfl⟩
    | error abort =>
        rcases machineGenblock_died compilable outcome with ⟨_, crowded⟩ | ⟨_, full⟩
        · exact absurd set crowded
        · exact absurd stack full

/-! ## Calls that die -/

/-- `beq zero, zero, 8` over a word that is no instruction, then `ret`. -/
def notTaken : Bytes.Memory :=
  Bytes.copy (fun _ => 0) 0x1000
    [0x63, 0x04, 0x00, 0x00, 0xff, 0xff, 0xff, 0xff, 0x67, 0x80, 0x00, 0x00]

/-- The pcs of a row of instructions that lie some bytes apart. -/
def rowPc (stride i : Nat) : U64 := BitVec.ofNat 64 (0x1000 + stride * i)

/-- A memory of one word up to an address, and of `ret` from there. -/
def rowCode (word : U32) (bound : U64) : Bytes.Memory := fun x =>
  (if x < bound then word else 0x8067).extractLsb' (8 * (x.toNat % 4)) 8

/-- `beq zero, zero, 0x400`, 256 times, and then `ret`. -/
def branchRow : Bytes.Memory := rowCode 0x40000063 0x1400

/-- `jal zero, 0x8000` over and over, and after 34 of these jumps `ret`. -/
def jumpRow : Bytes.Memory := rowCode 0x806f 0x111000

section Rows

variable {stride i j k : Nat}

theorem toNat_rowPc (small : stride * i < 2 ^ 32) :
    (rowPc stride i).toNat = 0x1000 + stride * i := by
  rw [rowPc, BitVec.toNat_ofNat]
  exact Nat.mod_eq_of_lt (by omega)

theorem rowPc_ne_zero (small : stride * i < 2 ^ 32) : rowPc stride i ≠ 0 := by
  intro zero
  have value := toNat_rowPc small
  rw [zero] at value
  change 0 = _ at value
  omega

theorem rowPc_inj (positive : 0 < stride) (small : stride * i < 2 ^ 32)
    (small' : stride * j < 2 ^ 32) (same : rowPc stride i = rowPc stride j) : i = j := by
  have equal := congrArg BitVec.toNat same
  rw [toNat_rowPc small, toNat_rowPc small'] at equal
  exact Nat.eq_of_mul_eq_mul_left positive (Nat.add_left_cancel equal)

theorem rowPc_add (stride i d : Nat) :
    rowPc stride i + BitVec.ofNat 64 (stride * d) = rowPc stride (i + d) := by
  rw [rowPc, rowPc, ← BitVec.ofNat_add, Nat.mul_add, Nat.add_assoc]

/-- A pc of a row is not among others of the row. -/
theorem rowPc_notMem (positive : 0 < stride) (small : stride * i < 2 ^ 32) {others : List Nat}
    (different : ∀ j ∈ others, j ≠ i ∧ stride * j < 2 ^ 32) :
    rowPc stride i ∉ others.map (rowPc stride) := by
  intro member
  obtain ⟨j, known, same⟩ := List.mem_map.mp member
  obtain ⟨other, small'⟩ := different j known
  exact other (rowPc_inj positive small' small same)

/-! ### What the words are -/

theorem decode_ret : insnDecode {} 0x8067 = .ok { rs1 := 1, type := .jalr, cont := true } := rfl

theorem decode_branch : insnDecode {} 0x40000063 = .ok { imm := 0x400, type := .beq } := rfl

theorem decode_jump : insnDecode {} 0x806f = .ok { imm := 0x8000, type := .jal, cont := true } := rfl

theorem load_branchRow : ∀ i < 512, Bytes.load branchRow (rowPc 4 i) 32 =
    if i < 256 then 0x40000063 else 0x8067 := by
  decide +kernel

theorem load_jumpRow : ∀ i < 35, Bytes.load jumpRow (rowPc 0x8000 i) 32 =
    if i < 34 then 0x806f else 0x8067 := by
  decide +kernel

theorem staticSuccs_of_load {mem : Bytes.Memory} {pc : U64} {word : U32} {insn : Insn}
    (load : Bytes.load mem pc 32 = word) (decoded : insnDecode {} word = .ok insn) :
    staticSuccs mem pc = insn.staticSuccs pc := by
  rw [staticSuccs, load, decoded]

theorem succs_branchRow (before : i < 256) :
    staticSuccs branchRow (rowPc 4 i) = [rowPc 4 (i + 256), rowPc 4 (i + 1)] := by
  have load := load_branchRow i (by omega)
  rw [if_pos before] at load
  rw [staticSuccs_of_load load decode_branch, ← rowPc_add, ← rowPc_add]
  rfl

theorem succs_branchRow_ret (after : 256 ≤ i) (small : i < 512) :
    staticSuccs branchRow (rowPc 4 i) = [] := by
  have load := load_branchRow i small
  rw [if_neg (Nat.not_lt.mpr after)] at load
  rw [staticSuccs_of_load load decode_ret]
  rfl

theorem succs_jumpRow (before : i < 34) :
    staticSuccs jumpRow (rowPc 0x8000 i) = [rowPc 0x8000 (i + 1)] := by
  have load := load_jumpRow i (by omega)
  rw [if_pos before] at load
  rw [staticSuccs_of_load load decode_jump, ← rowPc_add]
  rfl

theorem succs_jumpRow_ret : staticSuccs jumpRow (rowPc 0x8000 34) = [] := by
  have load := load_jumpRow 34 (by decide)
  rw [if_neg (by decide)] at load
  rw [staticSuccs_of_load load decode_ret]
  rfl

theorem reaches_branchRow {a : U64} (reaches : Reaches (staticSuccs branchRow) (rowPc 4 0) a) :
    ∃ i < 512, a = rowPc 4 i := by
  induction reaches with
  | refl => exact ⟨0, by decide, rfl⟩
  | tail _ successor ih =>
      obtain ⟨i, small, rfl⟩ := ih
      by_cases before : i < 256
      · rw [succs_branchRow before, List.mem_cons, List.mem_singleton] at successor
        rcases successor with rfl | rfl
        · exact ⟨i + 256, by omega, rfl⟩
        · exact ⟨i + 1, by omega, rfl⟩
      · rw [succs_branchRow_ret (Nat.not_lt.mp before) small] at successor
        cases successor

theorem reaches_jumpRow {a : U64} (reaches : Reaches (staticSuccs jumpRow) (rowPc 0x8000 0) a) :
    ∃ i < 35, a = rowPc 0x8000 i := by
  induction reaches with
  | refl => exact ⟨0, by decide, rfl⟩
  | tail _ successor ih =>
      obtain ⟨i, small, rfl⟩ := ih
      by_cases before : i < 34
      · rw [succs_jumpRow before, List.mem_singleton] at successor
        exact ⟨i + 1, by omega, successor⟩
      · obtain rfl : i = 34 := by omega
        rw [succs_jumpRow_ret] at successor
        cases successor

theorem compilable_of_load {mem : Bytes.Memory} {word : U32} {insn : Insn}
    (small : stride * i < 2 ^ 32) (load : Bytes.load mem (rowPc stride i) 32 = word)
    (decoded : insnDecode {} word = .ok insn) (plain : insn.type.isCsr = false) :
    Compilable mem (rowPc stride i) := by
  refine ⟨rowPc_ne_zero small, insn, by rw [load, decoded], fun csr => ?_⟩
  rw [plain] at csr
  cases csr

theorem compilable_branchRow {a : U64} (reaches : Reaches (staticSuccs branchRow) (rowPc 4 0) a) :
    Compilable branchRow a := by
  obtain ⟨i, small, rfl⟩ := reaches_branchRow reaches
  have load := load_branchRow i small
  split at load
  · exact compilable_of_load (by omega) load decode_branch rfl
  · exact compilable_of_load (by omega) load decode_ret rfl

theorem compilable_jumpRow {a : U64} (reaches : Reaches (staticSuccs jumpRow) (rowPc 0x8000 0) a) :
    Compilable jumpRow a := by
  obtain ⟨i, small, rfl⟩ := reaches_jumpRow reaches
  have load := load_jumpRow i small
  split at load
  · exact compilable_of_load (by omega) load decode_jump rfl
  · exact compilable_of_load (by omega) load decode_ret rfl

/-! ### What the exploration needs -/

/-- Every branch leaves its target pending. -/
theorem explores_branchRow (k : Nat) (small : k ≤ 255) :
    Explores (staticSuccs branchRow) (rowPc 4 0) ((List.range k).map (rowPc 4))
      (rowPc 4 k :: ((List.range k).map (· + 256)).reverse.map (rowPc 4)) := by
  induction k with
  | zero => exact .start
  | succ k ih =>
      have fresh : rowPc 4 k ∉ (List.range k).map (rowPc 4) :=
        rowPc_notMem (by decide) (by omega) fun j member => by
          have := List.mem_range.mp member
          omega
      have target : rowPc 4 (k + 256) ∉ ((List.range k).map (· + 256)).reverse.map (rowPc 4) :=
        rowPc_notMem (by decide) (by omega) fun j member => by
          obtain ⟨i, known, rfl⟩ := List.mem_map.mp (List.mem_reverse.mp member)
          have := List.mem_range.mp known
          omega
      have next : rowPc 4 (k + 1) ∉
          ((k + 256) :: ((List.range k).map (· + 256)).reverse).map (rowPc 4) :=
        rowPc_notMem (by decide) (by omega) fun j member => by
          rcases List.mem_cons.mp member with rfl | old
          · omega
          · obtain ⟨i, known, rfl⟩ := List.mem_map.mp (List.mem_reverse.mp old)
            have := List.mem_range.mp known
            omega
      have visits := (ih (by omega)).visit fresh
      rw [succs_branchRow (by omega), List.foldl_cons, List.foldl_cons, List.foldl_nil, push,
        push, if_neg target] at visits
      rw [List.map_cons] at next
      rw [if_neg next] at visits
      rw [List.range_succ, List.map_append, List.map_append, List.reverse_append]
      exact visits

theorem explores_jumpRow (k : Nat) (small : k ≤ 34) :
    Explores (staticSuccs jumpRow) (rowPc 0x8000 0) ((List.range k).map (rowPc 0x8000))
      [rowPc 0x8000 k] := by
  induction k with
  | zero => exact .start
  | succ k ih =>
      have fresh : rowPc 0x8000 k ∉ (List.range k).map (rowPc 0x8000) :=
        rowPc_notMem (by decide) (by omega) fun j member => by
          have := List.mem_range.mp member
          omega
      have visits := (ih (by omega)).visit fresh
      rw [succs_jumpRow (by omega)] at visits
      rw [List.range_succ, List.map_append]
      exact visits

theorem branchRow_full : ¬ StackSuffices branchRow (rowPc 4 0) := by
  intro enough
  have explores := explores_branchRow 255 (by decide)
  have fresh : rowPc 4 255 ∉ (List.range 255).map (rowPc 4) :=
    rowPc_notMem (by decide) (by decide) fun j member => by
      have := List.mem_range.mp member
      omega
  have room := enough _ _ _ explores fresh [rowPc 4 511] (rowPc 4 256) []
    (succs_branchRow (by decide))
  have target : rowPc 4 511 ∉ ((List.range 255).map (· + 256)).reverse.map (rowPc 4) :=
    rowPc_notMem (by decide) (by decide) fun j member => by
      obtain ⟨i, known, rfl⟩ := List.mem_map.mp (List.mem_reverse.mp member)
      have := List.mem_range.mp known
      omega
  rw [List.foldl_cons, List.foldl_nil, push, if_neg target, List.length_cons, List.length_map,
    List.length_reverse, List.length_map, List.length_range] at room
  exact absurd room (by decide)

theorem setHash_jumpRow (small : i < 35) : setHash (rowPc 0x8000 i) = setHash (rowPc 0x8000 0) := by
  apply Fin.ext
  change (rowPc 0x8000 i).toNat % setSize = (rowPc 0x8000 0).toNat % setSize
  have size : setSize = 0x8000 := rfl
  rw [toNat_rowPc (by omega), toNat_rowPc (by omega), size]
  omega

theorem jumpRow_crowded : ¬ SetSuffices jumpRow (rowPc 0x8000 0) := by
  intro enough
  have distinct : ((List.range 33).map (rowPc 0x8000)).Nodup := by
    refine List.Nodup.map_on ?_ List.nodup_range
    intro i member j member' same
    have := List.mem_range.mp member
    have := List.mem_range.mp member'
    exact rowPc_inj (by decide) (by omega) (by omega) same
  rcases enough _ _ _ (explores_jumpRow 33 (by decide)) with seen | ⟨slot, near, left⟩
  · refine rowPc_notMem (by decide) (by decide) (fun j member => ?_) seen
    have := List.mem_range.mp member
    omega
  · apply left
    rw [setHash_jumpRow (by decide)] at near
    refine ⟨(slot - setHash (rowPc 0x8000 0)).val + 1, Nat.succ_pos _,
      (slot - setHash (rowPc 0x8000 0)).isLt, ?_⟩
    rw [Finset.filter_true_of_mem, List.toFinset_card_of_nodup distinct, List.length_map,
      List.length_range]
    · have bound : setSearchCount = 32 := rfl
      omega
    · intro x member
      obtain ⟨i, known, rfl⟩ := List.mem_map.mp (List.mem_toFinset.mp member)
      have := List.mem_range.mp known
      rw [setHash_jumpRow (by omega)]
      exact Nat.lt_succ_self _

theorem branchRow_dies : machineGenblock {} branchRow (rowPc 4 0) = .error stackFull := by
  have distinct : SetSuffices branchRow (rowPc 4 0) := by
    apply SetSuffices.of_injOn
    intro a reached b reached' same
    obtain ⟨i, small, rfl⟩ := reaches_branchRow reached
    obtain ⟨j, small', rfl⟩ := reaches_branchRow reached'
    have equal : (rowPc 4 i).toNat % setSize = (rowPc 4 j).toNat % setSize := congrArg Fin.val same
    have size : setSize = 0x8000 := rfl
    rw [toNat_rowPc (by omega), toNat_rowPc (by omega), size] at equal
    have : i = j := by omega
    rw [this]
  cases outcome : machineGenblock {} branchRow (rowPc 4 0) with
  | ok source => exact absurd (suffices_of_ok outcome).1 branchRow_full
  | error abort =>
      rcases machineGenblock_died (fun _ => compilable_branchRow) outcome with
        ⟨_, crowded⟩ | ⟨same, _⟩
      · exact absurd distinct crowded
      · rw [same]

theorem jumpRow_dies : machineGenblock {} jumpRow (rowPc 0x8000 0) = .error searchFull := by
  have few : StackSuffices jumpRow (rowPc 0x8000 0) := by
    refine PushesFit.of_few ((List.range 35).map (rowPc 0x8000)).toFinset ?_ ?_
    · intro a reaches
      obtain ⟨i, small, rfl⟩ := reaches_jumpRow reaches
      exact List.mem_toFinset.mpr (List.mem_map_of_mem (List.mem_range.mpr small))
    · refine (List.toFinset_card_le _).trans_lt ?_
      rw [List.length_map, List.length_range]
      decide
  cases outcome : machineGenblock {} jumpRow (rowPc 0x8000 0) with
  | ok source => exact absurd (suffices_of_ok outcome).2 jumpRow_crowded
  | error abort =>
      rcases machineGenblock_died (fun _ => compilable_jumpRow) outcome with ⟨same, _⟩ | ⟨_, full⟩
      · rw [same]
      · exact absurd few full

end Rows

/-! ### Interpretation goes on -/

section Survivors

variable {F : FloatOps} {s : State} {mem : Bytes.Memory} {insn : Insn}

/-- `ret` ends interpretation. -/
theorem returns_ret (fetched : Fetched s { rs1 := 1, type := .jalr, cont := true }) :
    ∃ r, Returns (followIter F) s r := by
  have back : execBlockIter F s = .ok (.inr _) := execBlockIter_of_handler fetched rfl
  exact ⟨_, .leave (followIter_of_leave back (by simp [State.setGp]))⟩

/-- Where a round of interpretation that jumps directly gets to. -/
structure JumpsTo (F : FloatOps) (s : State) (target : U64) (t : State) : Prop where
  round : followIter F s = .ok (.inl t)
  pc : t.pc = target
  mem : t.mem = s.mem
  zero : t.gpRegs 0 = 0

theorem jumpsTo_branch {imm : U32} (fetched : Fetched s { imm := imm, type := .beq }) :
    ∃ t, JumpsTo F s (s.pc + imm.signExtend 64) t := by
  have exec : interpFuncs F .beq s { imm := imm, type := .beq } = .ok (_, _) :=
    if_pos (beq_self_eq_true _)
  exact ⟨_, followIter_of_direct (execBlockIter_of_clean fetched exec fetched.zero) rfl, rfl, rfl,
    fetched.zero⟩

theorem jumpsTo_jump {imm : U32} (fetched : Fetched s { imm := imm, type := .jal, cont := true }) :
    ∃ t, JumpsTo F s (s.pc + imm.signExtend 64) t := by
  have exec : interpFuncs F .jal s { imm := imm, type := .jal, cont := true } = .ok (_, _) := rfl
  exact ⟨_, followIter_of_direct (execBlockIter_of_handler fetched exec) rfl, rfl, rfl,
    by simp [State.setGp]⟩

theorem fetched_of_load {stride i : Nat} {word : U32} (small : stride * i < 2 ^ 32)
    (here : s.pc = rowPc stride i) (code : s.mem = mem) (zero : s.gpRegs 0 = 0)
    (load : Bytes.load mem (rowPc stride i) 32 = word) (decoded : insnDecode {} word = .ok insn) :
    Fetched s insn :=
  ⟨here ▸ rowPc_ne_zero small, zero, by rw [State.fetch, code, here, load, decoded]⟩

theorem notTaken_survives : Survives notTaken 0x1000 := by
  intro F s code here zero abort
  have branch : Fetched s { imm := 8, type := .beq } :=
    ⟨by rw [here]; decide, zero, by rw [State.fetch, code, here]; rfl⟩
  obtain ⟨t, jumps⟩ := jumpsTo_branch (F := F) branch
  have there : t.pc = 0x1008 := by
    rw [jumps.pc, here]
    rfl
  have ret : Fetched t { rs1 := 1, type := .jalr, cont := true } :=
    ⟨by rw [there]; decide, jumps.zero, by rw [State.fetch, jumps.mem, code, there]; rfl⟩
  obtain ⟨r, returns⟩ := returns_ret (F := F) ret
  exact (Returns.again jumps.round returns).not_aborts

theorem branchRow_survives : Survives branchRow (rowPc 4 0) := by
  intro F s code here zero abort
  have load := load_branchRow 0 (by decide)
  have target := load_branchRow 256 (by decide)
  rw [if_pos (by decide)] at load
  rw [if_neg (by decide)] at target
  obtain ⟨t, jumps⟩ := jumpsTo_branch (F := F)
    (fetched_of_load (by decide) here code zero load decode_branch)
  have there : t.pc = rowPc 4 256 := by
    rw [jumps.pc, here]
    exact rowPc_add 4 0 256
  obtain ⟨r, returns⟩ := returns_ret (F := F)
    (fetched_of_load (by decide) there (jumps.mem.trans code) jumps.zero target decode_ret)
  exact (Returns.again jumps.round returns).not_aborts

/-- From `k` jumps before `ret`. -/
theorem jumpRow_returns (k : Nat) (small : k ≤ 34) (code : s.mem = jumpRow)
    (here : s.pc = rowPc 0x8000 (34 - k)) (zero : s.gpRegs 0 = 0) :
    ∃ r, Returns (followIter F) s r := by
  induction k generalizing s with
  | zero =>
      have load := load_jumpRow 34 (by decide)
      rw [if_neg (by decide)] at load
      exact returns_ret (fetched_of_load (by decide) here code zero load decode_ret)
  | succ k ih =>
      have load := load_jumpRow (34 - (k + 1)) (by omega)
      rw [if_pos (by omega)] at load
      obtain ⟨t, jumps⟩ := jumpsTo_jump (F := F)
        (fetched_of_load (by omega) here code zero load decode_jump)
      have there : t.pc = rowPc 0x8000 (34 - k) := by
        rw [jumps.pc, here, ← (by omega : 34 - (k + 1) + 1 = 34 - k)]
        exact rowPc_add 0x8000 (34 - (k + 1)) 1
      obtain ⟨r, returns⟩ := ih (by omega) (jumps.mem.trans code) there jumps.zero
      exact ⟨r, .again jumps.round returns⟩

theorem jumpRow_survives : Survives jumpRow (rowPc 0x8000 0) := by
  intro F s code here zero abort
  obtain ⟨r, returns⟩ := jumpRow_returns (F := F) 34 le_rfl code here zero
  exact returns.not_aborts

end Survivors

/-- The generator dies where interpretation goes on: in the decoder, at a word that no run gets to;
in `stack_push`, when 256 branches in a row leave their targets pending; and in `set_add`, when 34
pcs have one hash. -/
theorem machineGenblock_dies :
    (Survives notTaken 0x1000 ∧ machineGenblock {} notTaken 0x1000 = .error .unreachable) ∧
    (Survives branchRow 0x1000 ∧ machineGenblock {} branchRow 0x1000 = .error stackFull) ∧
    (Survives jumpRow 0x1000 ∧ machineGenblock {} jumpRow 0x1000 = .error searchFull) :=
  ⟨⟨notTaken_survives, rfl⟩, ⟨branchRow_survives, branchRow_dies⟩, jumpRow_survives, jumpRow_dies⟩

end RiscvEmu
