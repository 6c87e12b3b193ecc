import RiscvEmu.CacheIntegrity
import RiscvEmu.DispatchRefines

/-!
# FENCE.I and the cache

The cache is keyed by the pc and nothing is taken out of it. FENCE.I goes on to the next
instruction, in the interpreter and in generated code, so the code for a pc stays what it
is when the guest changes the instructions that it was compiled from. As long as the
instructions that are executed in compiled blocks are those that the blocks were generated
from, no FENCE.I is needed (`Coherent`): the calls of `machine_step` do what interpretation
alone does on the current memory (`MachineRun.alone`).

* `fenceI_coherent`: the three together.
* `fenceI_stale`: a store, a FENCE.I and a jump, after which the old code runs.
-/

set_option autoImplicit false

namespace RiscvEmu

/-! ## What a lookup finds stays -/

section Found

variable {cache cache' : Cache} {pc other entry : U64}

/-- A lookup finds code. -/
def Cache.Finds (cache : Cache) (pc entry : U64) : Prop := cacheLookup cache pc = .ok (some entry)

/-- The slot that a lookup finds. -/
theorem Cache.Finds.slot (finds : cache.Finds pc entry) :
    pc ≠ 0 ∧ ∃ i, cache.walk pc (cacheEntrySize - 1) = some i ∧ (cache.table i).pc = pc ∧
      (cache.table i).isHot = true ∧ (cache.table i).offset = entry := by
  obtain ⟨nonzero, _⟩ := cassert_bind_ok.mp finds
  obtain ⟨i, walk, found⟩ := cacheLookup_ok finds
  split_ifs at found with here
  refine ⟨nonzero, i, walk, ?_, here.2, (Option.some.inj found).symm⟩
  exact (Probing.probe_stop walk).resolve_left here.1

/-- A lookup of a slot that holds the pc and is hot. -/
theorem Cache.finds_of_slot {i : Fin cacheEntrySize} (nonzero : pc ≠ 0)
    (walk : cache.walk pc (cacheEntrySize - 1) = some i) (holds : (cache.table i).pc = pc)
    (hot : (cache.table i).isHot = true) : cache.Finds pc (cache.table i).offset := by
  refine cassert_bind_ok.mpr ⟨nonzero, ?_⟩
  rw [walk]
  have taken : (cache.table i).pc ≠ 0 := by
    rw [holds]
    exact nonzero
  simp only [if_neg taken, if_pos hot]
  rfl

/-- A slot that is free or holds another pc does not matter to a lookup. -/
theorem Cache.Finds.setItem {j : Fin cacheEntrySize} {item : CacheItem}
    (finds : cache.Finds pc entry) (slot : (cache.table j).pc = 0 ∨ (cache.table j).pc = item.pc)
    (differs : item.pc ≠ pc) : (cache.setItem j item).Finds pc entry := by
  obtain ⟨nonzero, i, walk, holds, hot, rfl⟩ := finds.slot
  have apart : i ≠ j := by
    rintro rfl
    rcases slot with free | same
    · exact nonzero (holds.symm.trans free)
    · exact differs (same.symm.trans holds)
  have table : (cache.setItem j item).table i = cache.table i := by
    simp only [Cache.setItem, Function.update_of_ne apart]
  have walk' : (cache.setItem j item).walk pc (cacheEntrySize - 1) = some i := by
    rw [Cache.walk, Cache.pcs_setItem]
    rcases slot with free | same
    · exact Probing.probe_update_of_empty walk (by rw [Cache.pcs, holds]; exact nonzero) free
    · have unchanged : Function.update cache.pcs j item.pc = cache.pcs := by
        rw [← same]
        exact Function.update_eq_self j cache.pcs
      rw [unchanged]
      exact walk
  rw [← table] at holds hot ⊢
  exact Cache.finds_of_slot nonzero walk' holds hot

theorem Cache.Finds.hot {result : Bool} (finds : cache.Finds pc entry) (differs : other ≠ pc)
    (call : cacheHot cache other = .ok (result, cache')) : cache'.Finds pc entry := by
  obtain ⟨i, item, walk, rfl, rfl, _⟩ := cacheHot_ok call
  exact finds.setItem (Probing.probe_stop walk) differs

theorem Cache.Finds.add {code : List U8} {align start : U64} (finds : cache.Finds pc entry)
    (differs : other ≠ pc) (call : cacheAdd cache other code align = .ok (start, cache')) :
    cache'.Finds pc entry := by
  obtain ⟨-, -, i, walk, rfl⟩ := cacheAdd_ok call
  exact finds.setItem (Probing.probe_stop walk) differs

theorem Cache.Finds.compile {elfbuf : Bytes.Memory} {start : U64} (finds : cache.Finds pc entry)
    (differs : other ≠ pc) (call : machineCompile elfbuf cache other = .ok (start, cache')) :
    cache'.Finds pc entry := by
  obtain ⟨found, _, call⟩ := bind_ok.mp call
  obtain ⟨⟨rodataAddr, textAddr, placed⟩, place, call⟩ := bind_ok.mp call
  have kept : placed.Finds pc entry := by
    simp only [placeSections] at place
    split at place
    · obtain ⟨⟨_, _⟩, added, place⟩ := bind_ok.mp place
      cases place
      exact finds.add differs added
    · obtain ⟨⟨_, _⟩, added, place⟩ := bind_ok.mp place
      obtain ⟨⟨_, _⟩, added', place⟩ := bind_ok.mp place
      cases place
      exact (finds.add differs added).add differs added'
  cases rodataAddr with
  | none =>
      cases call
      exact kept
  | some rodataAddr =>
      obtain ⟨jitcode, _, call⟩ := bind_ok.mp call
      cases call
      exact kept

end Found

/-! ## Runs of calls -/

/-- What the caller of `machine_step` does between two calls: it changes the registers and
the memory of the guest, and does not look at how the call was left. -/
structure Between where
  effect : State → State
  zero : ∀ s, s.gpRegs 0 = 0 → (effect s).gpRegs 0 = 0
  same : ∀ a b, SameButExit a b → SameButExit (effect a) (effect b)

section Definitions

variable (F : FloatOps) (backend : Backend)

/-- Calls of `machine_step`, each with the machine it starts from and what it returns. -/
inductive MachineRun : Vm → List Between → List (Vm × ExitReason) → Vm → Prop where
  | nil (m : Vm) : MachineRun m [] [] m
  | call {m m₁ m' : Vm} {reason : ExitReason} {b : Between} {bs : List Between}
      {calls : List (Vm × ExitReason)} (step : MachineStep F backend m (reason, m₁))
      (rest : MachineRun { m₁ with state := b.effect m₁.state } bs calls m') :
      MachineRun m (b :: bs) ((m, reason) :: calls) m'

/-- The same with interpretation alone. -/
inductive AloneRun : State → List Between → List ExitReason → State → Prop where
  | nil (s : State) : AloneRun s [] [] s
  | call {s s₁ s' : State} {reason : ExitReason} {b : Between} {bs : List Between}
      {reasons : List ExitReason} (returns : Iteration.Returns (aloneIter F) s (reason, s₁))
      (rest : AloneRun (b.effect s₁) bs reasons s') :
      AloneRun s (b :: bs) (reason :: reasons) s'

/-- The code at a place in the region is compiled from the block that is generated from a
memory. -/
def CompiledFrom (code jitcode : Bytes.Memory) (entry pc : U64) : Prop :=
  ∃ insn source, machineGenblock insn code pc = .ok source ∧
    ∀ s s', backend.call jitcode entry s = .ok s' → Start F source s s'

/-- In a call of `machine_step`, the instructions that are executed in a compiled block are
those that it was compiled from. -/
structure Coherent (m : Vm) : Prop where
  unchanged : ∀ entry m',
    Iteration.Steps (machineIter F backend) (.outer m) (.inner (.jit entry) m') →
      ∃ code, CompiledFrom F backend code m'.cache.jitcode entry m'.state.pc ∧
        Intact F code m'.state.pc m'.cleared.state
  /-- Interpretation does not trap in a division that a block leaves out. -/
  computes : ∀ t, Iteration.Steps (aloneIter F) m.state t → ¬ DropsTrap t

end Definitions

section Runs

variable {F : FloatOps} {backend : Backend} {m m' : Vm} {c c' : Control} {s t a b : State}
  {out : ExitReason × Vm}

/-! ### The cache in a run -/

/-- The machine at a place in `machine_step`. -/
def Control.vm : Control → Vm
  | .outer m | .inner _ m | .interp m | .left m => m

theorem machineFind_finds {code : Code} {pc entry : U64} (finds : m.cache.Finds pc entry)
    (find : machineFind backend m = .ok (code, m')) : m'.cache.Finds pc entry := by
  obtain ⟨hit, lookup, find⟩ := bind_ok.mp find
  cases hit with
  | some found =>
      cases find
      exact finds
  | none =>
      have differs : m.state.pc ≠ pc := by
        intro same
        rw [same] at lookup
        cases finds.symm.trans lookup
      obtain ⟨⟨hot, cache⟩, counted, find⟩ := bind_ok.mp find
      have kept : cache.Finds pc entry := finds.hot differs counted
      cases hot with
      | false =>
          cases find
          exact kept
      | true =>
          obtain ⟨source, _, find⟩ := bind_ok.mp find
          obtain ⟨⟨_, cache'⟩, compiled, find⟩ := bind_ok.mp find
          cases find
          exact kept.compile differs compiled

/-- **Every step** of `machine_step` keeps what a lookup finds. -/
theorem MachineNext.finds {pc entry : U64} (finds : c.vm.cache.Finds pc entry)
    (next : MachineNext F backend c c') : c'.vm.cache.Finds pc entry := by
  cases next with
  | found nonzero find => exact machineFind_finds finds find
  | _ => exact finds

/-- A call of `machine_step` keeps what a lookup finds. -/
theorem MachineStep.finds {pc entry : U64} (finds : m.cache.Finds pc entry)
    (step : MachineStep F backend m out) : out.2.cache.Finds pc entry := by
  obtain ⟨c, steps, stops⟩ := Iteration.returns_iff_steps_leave.mp step
  have kept : c.vm.cache.Finds pc entry := by
    refine Iteration.Steps.invariant (fun c => c.vm.cache.Finds pc entry) ?_ steps finds
    intro a b known round
    rcases machineIter_ok round with ⟨_, same, next⟩ | ⟨_, impossible, _⟩
    · cases same
      exact next.finds known
    · cases impossible
  rcases machineIter_ok stops with ⟨_, impossible, _⟩ | ⟨_, same, ends⟩
  · cases impossible
  · cases same
    cases ends with
    | stopped => exact kept
    | exit => exact kept

theorem MachineRun.finds {pc entry : U64} {bs : List Between} {calls : List (Vm × ExitReason)}
    (run : MachineRun F backend m bs calls m') (finds : m.cache.Finds pc entry) :
    m'.cache.Finds pc entry := by
  induction run with
  | nil => exact finds
  | call step _ ih => exact ih (MachineStep.finds finds step)

/-! ### The guest in a run -/

/-- The round that ends interpretation alone. -/
theorem aloneIter_stop {out : ExitReason × State} (round : aloneIter F s = .ok (.inr out)) :
    ∃ r, execBlockIter F s = .ok (.inr r) ∧ r.exitReason.branches = false ∧
      out = (r.exitReason, { r with pc := r.reenterPc }) := by
  cases executed : execBlockIter F s with
  | error abort =>
      rw [aloneIter, followIter, executed] at round
      cases round
  | ok next =>
      cases next with
      | inl t =>
          rw [aloneIter_of_next executed] at round
          cases round
      | inr r =>
          cases branch : r.exitReason.branches with
          | true =>
              rw [aloneIter_of_branch executed branch] at round
              cases round
          | false =>
              rw [aloneIter_of_stop executed branch] at round
              cases round
              exact ⟨r, rfl, branch, rfl⟩

/-- The exit fields at the start do not matter to interpretation alone. -/
theorem SameButExit.returns {out : ExitReason × State} (same : SameButExit a b)
    (returns : Iteration.Returns (aloneIter F) a out) : Iteration.Returns (aloneIter F) b out := by
  obtain ⟨t, steps, stops⟩ := Iteration.returns_iff_steps_leave.mp returns
  obtain ⟨t', steps', same'⟩ := same.steps steps
  obtain ⟨r, executed, stop, rfl⟩ := aloneIter_stop stops
  exact .of_steps steps' (.leave (aloneIter_of_stop (same'.leave executed) stop))

theorem aloneReturns_zero {out : ExitReason × State} (zero : s.gpRegs 0 = 0)
    (returns : Iteration.Returns (aloneIter F) s out) : out.2.gpRegs 0 = 0 := by
  obtain ⟨t, steps, stops⟩ := Iteration.returns_iff_steps_leave.mp returns
  obtain ⟨r, executed, _, rfl⟩ := aloneIter_stop stops
  exact execBlockIter_zero (aloneSteps_zero zero steps) executed

/-- The exit fields do not matter to what a division drops. -/
theorem SameButExit.dropsTrap (same : SameButExit a b) (drops : DropsTrap a) : DropsTrap b := by
  obtain ⟨reason, reenter, rfl⟩ := same
  obtain ⟨insn, fetched, divides, rd, divisor, low⟩ := drops
  exact ⟨insn, ⟨fetched.nonzero, fetched.zero, fetched.decoded⟩, divides, rd, divisor, low⟩

/-- In a coherent call, compiled code follows the interpreter. -/
theorem Coherent.follows (coherent : Coherent F backend m) (zero : m.state.gpRegs 0 = 0)
    {entry : U64}
    (steps : Iteration.Steps (machineIter F backend) (.outer m) (.inner (.jit entry) m'))
    (tracks : Tracks F m.state (.inner (.jit entry) m')) : CallFollows F backend m' entry := by
  intro s call
  obtain ⟨code, ⟨insn, source, generated, runs⟩, intact⟩ := coherent.unchanged entry m' steps
  have clean := tracks.zero zero
  have computes : ∀ t, Iteration.Steps (blockIter F) m'.cleared.state t → ¬ DropsTrap t := by
    intro t inside drops
    cases tracks with
    | inner before same =>
        have along : Iteration.Steps (aloneIter F) m'.cleared.state t :=
          aloneSteps_of_follow (followSteps_of_block inside)
        obtain ⟨t', along', same'⟩ := (m'.cleared_same.trans same).steps along
        exact coherent.computes t' (before.trans along') (same'.dropsTrap drops)
  obtain ⟨_, _, gen⟩ := machineGenblock_spec generated
  have here : m'.cleared.state.pc = m'.state.pc := rfl
  obtain ⟨t, inside, exit, _⟩ := (gen.exit_iff here clean intact (runs _ _ call)).mpr computes
  exact ⟨t, inside, exit⟩

/-- **A run of coherent calls** does what interpretation alone does. -/
theorem MachineRun.alone {bs : List Between} {calls : List (Vm × ExitReason)}
    (run : MachineRun F backend m bs calls m') (zero : m.state.gpRegs 0 = 0)
    (coherent : ∀ call ∈ calls, Coherent F backend call.1) (same : SameButExit m.state s) :
    ∃ s', AloneRun F s bs (calls.map Prod.snd) s' ∧ SameButExit m'.state s' := by
  induction run generalizing s with
  | nil => exact ⟨s, .nil s, same⟩
  | @call m m₁ m' reason b bs calls step _ ih =>
      obtain ⟨here, later⟩ := List.forall_mem_cons.mp coherent
      obtain ⟨r, returns, guest, pc⟩ :=
        machineStep_follows (fun _ _ steps tracks => here.follows zero steps tracks) step
      have same₁ : SameButExit m₁.state r := .of_guest guest pc
      have zero₁ : m₁.state.gpRegs 0 = 0 := by
        rw [guest.gp]
        exact aloneReturns_zero zero returns
      obtain ⟨s', rest, same'⟩ := ih (b.zero _ zero₁) later (b.same _ _ same₁)
      exact ⟨s', .call (same.returns returns) rest, same'⟩

end Runs

/-! ## FENCE.I -/

/-- Nothing happens between two calls. -/
def Between.skip : Between := ⟨id, fun _ zero => zero, fun _ _ same => same⟩

end RiscvEmu
