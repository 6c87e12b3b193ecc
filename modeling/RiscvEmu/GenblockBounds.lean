import RiscvEmu.BlockOutcome

/-!
# The generator terminates

A round of the loop of `machine_genblock` pops one entry of the stack. It pushes at most two,
and only when it emits a label, which takes a slot of the set. So the entries popped and those
pending are bounded by the labels (`GenBounds`), and the labels by the slots.

* `machineGenblock_terminates`: for any memory and record the loop drains the stack or ends the
  process in `fatal`, `unreachable` or an assertion, within these bounds.
-/

set_option autoImplicit false

namespace RiscvEmu

section Definitions

/-- The number of labels that have been emitted. -/
def GenState.labels (g : GenState) : Nat := (Source.insnLabels g.body).length

/-- What the labels bound at the head of the loop, after a number of pops. The entries that are
pending count as well, since a round that ends the process has popped one of them. -/
structure GenBounds (pops : Nat) (g : GenState) : Prop where
  labels : g.labels ≤ setSize
  /-- The next label has its slot, also when its round ends the process. -/
  next : ∀ pc set, g.set.add pc = .ok (true, set) → g.labels + 1 ≤ setSize
  pops : pops + g.stack.elems.length ≤ 1 + 2 * g.labels

/-- The loop of `machine_genblock` terminates within the bounds. -/
structure GenTerminates (insn : Insn) (mem : Bytes.Memory) (pc : U64) : Prop where
  ends : (∃ g, Iteration.Returns (genIter mem) (.start insn pc) g ∧ g.stack.elems = []) ∨
    ∃ abort : Abort, Iteration.Aborts (genIter mem) (.start insn pc) abort ∧ abort.Deliberate
  bounds : ∀ pops g, Iteration.Rounds (genIter mem) pops (.start insn pc) g → GenBounds pops g

end Definitions

/-! ## How a round ends the process -/

section Failures

variable {mem : Bytes.Memory} {g : GenState} {pc : U64} {insn : Insn} {abort : Abort}

theorem codegenFuncs_fails {type : InsnType} (died : codegenFuncs type insn pc = .error abort) :
    abort.Deliberate := by
  cases type with
  | csrrc | csrrci | csrrs | csrrsi | csrrw | csrrwi =>
      change Codegen.funcCsr insn pc = .error abort at died
      by_cases supported : csrSupported insn.csr = true
      · rw [Codegen.funcCsr, if_pos supported] at died
        cases died
      · rw [Codegen.funcCsr, if_neg supported] at died
        cases died
        exact .fatal _
  | _ => cases died

/-- **A round ends the process deliberately**, whatever the memory holds. -/
theorem genIter_fails (died : genIter mem g = .error abort) : abort.Deliberate := by
  obtain ⟨pc, stack, _, died | ⟨set, _, died | ⟨_, _, full, _⟩⟩⟩ := genIter_died died
  · by_cases zero : pc = 0
    · rw [WorkSet.add, if_pos zero] at died
      cases died
      exact .assertion _
    · rw [(WorkSet.add_error died zero).1]
      exact .assertion _
  · rcases bind_error.mp died with died | ⟨insn, _, died⟩
    · exact (insnDecode_fails _ _).deliberate abort died
    rcases bind_error.mp died with died | ⟨emission, _, died⟩
    · exact codegenFuncs_fails died
    · cases died
  · rw [full]
    exact .assertion _

end Failures

/-! ## Counting -/

section Counting

variable {mem : Bytes.Memory} {entry : U64} {visited : List U64} {g g' : GenState}

/-- Elements that are different take different slots. -/
theorem WorkSet.length_le (set : WorkSet) {elems : List U64} (nodup : elems.Nodup)
    (has : ∀ x ∈ elems, set.Has x) : elems.length ≤ setSize := by
  have slots : elems.toFinset ⊆ Finset.univ.image set.table := by
    intro x member
    obtain ⟨i, here, -⟩ := has x (List.mem_toFinset.mp member)
    exact Finset.mem_image.mpr ⟨i, Finset.mem_univ i, here⟩
  calc elems.length = elems.toFinset.card := (List.toFinset_card_of_nodup nodup).symm
    _ ≤ (Finset.univ.image set.table).card := Finset.card_le_card slots
    _ ≤ (Finset.univ : Finset (Fin setSize)).card := Finset.card_image_le
    _ = setSize := Finset.card_fin setSize

/-- The labels are those of the visited pcs. -/
theorem GenInv.labels (inv : GenInv mem entry visited g) : g.labels = visited.length := by
  have blocks : ∀ l ∈ visited, ∃ block, blockAt mem l = .ok block := by
    intro l seen
    obtain ⟨block, generated, _⟩ := inv.blocks l seen
    exact ⟨block, generated⟩
  rw [GenState.labels, inv.body, insnLabels_blocks blocks]

/-- **The pops are paid for by the labels.** -/
theorem GenInv.rounds {insn : Insn} {pops : Nat}
    (rounds : Iteration.Rounds (genIter mem) pops (.start insn entry) g) :
    ∃ visited, GenInv mem entry visited g ∧
      pops + g.stack.elems.length ≤ 1 + 2 * visited.length := by
  generalize start : GenState.start insn entry = first at rounds
  induction rounds with
  | none => exact ⟨[], start ▸ .start insn, start ▸ le_rfl⟩
  | more _ round ih =>
      obtain ⟨visited, inv, paid⟩ := ih start
      rcases genIter_cases round with ⟨_, same⟩ | ⟨pc, stack, elems, seen, same⟩ |
        ⟨pc, stack, set, block, g₁, elems, add, generated, emits, same⟩
      · cases same
      · cases same
        rw [elems, List.length_cons] at paid
        refine ⟨visited, inv.skip elems ((inv.set pc).mp seen), ?_⟩
        change _ + stack.elems.length ≤ _
        omega
      · cases same
        rw [elems, List.length_cons] at paid
        have pushed : _ ≤ stack.elems.length + 2 := emits.length
        refine ⟨visited ++ [pc], inv.emit elems add generated emits, ?_⟩
        rw [List.length_append, List.length_singleton]
        omega

/-- The invariant of the loop gives the bounds. -/
theorem GenInv.bounds {pops : Nat} (inv : GenInv mem entry visited g)
    (paid : pops + g.stack.elems.length ≤ 1 + 2 * visited.length) : GenBounds pops g := by
  refine ⟨?_, ?_, inv.labels ▸ paid⟩
  · rw [inv.labels]
    exact g.set.length_le inv.explored.nodup fun x seen => (inv.set x).mpr seen
  · intro pc set add
    obtain ⟨_, new, has, _⟩ := WorkSet.add_true add
    have fresh : pc ∉ visited := fun seen => new ((inv.set pc).mpr seen)
    have longer : (pc :: visited).length ≤ setSize := by
      apply set.length_le (List.nodup_cons.mpr ⟨fresh, inv.explored.nodup⟩)
      intro x member
      rcases List.mem_cons.mp member with rfl | seen
      · exact (has x).mpr (.inr rfl)
      · exact (has x).mpr (.inl ((inv.set x).mpr seen))
    rw [inv.labels]
    exact longer

end Counting

/-- **Block generation terminates.** -/
theorem machineGenblock_terminates (insn : Insn) (mem : Bytes.Memory) (pc : U64) :
    GenTerminates insn mem pc where
  ends := by
    have enough := run_ne_none insn mem pc
    match outcome : Iteration.run (genIter mem) (2 * setSize + 2) (.start insn pc) with
    | none => exact absurd outcome enough
    | some (.ok g) =>
        have returns := Iteration.returns_of_run outcome
        obtain ⟨last, -, leaves⟩ := Iteration.returns_iff_steps_leave.mp returns
        rcases genIter_cases leaves with ⟨empty, same⟩ | ⟨_, _, _, _, same⟩ |
          ⟨_, _, _, _, _, _, _, _, _, same⟩
        · cases same
          exact .inl ⟨g, returns, empty⟩
        · cases same
        · cases same
    | some (.error abort) =>
        have aborts := Iteration.aborts_of_run outcome
        obtain ⟨last, -, dies⟩ := Iteration.aborts_iff_steps_die.mp aborts
        exact .inr ⟨abort, aborts, genIter_fails dies⟩
  bounds pops g rounds := by
    obtain ⟨visited, inv, paid⟩ := GenInv.rounds rounds
    exact inv.bounds paid

end RiscvEmu
