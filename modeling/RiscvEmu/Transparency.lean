import RiscvEmu.Foundation.Stuttering
import RiscvEmu.Main

/-!
# Compiling does not show

A process that compiles and caches blocks does what a process does that only interprets. The
two are related place by place (`Follows`): the world around the machine is the same, and the
machine stands where interpretation stands (`Stands`). Compiled code takes the place of rounds
of interpretation, and what `machine_step` does between two calls takes the place of none, so
the process follows interpretation with stuttering (`stuttering`).

Two things have to be right: what the compiler and the processor make of a source
(`Backend.Implements`), and the program, which must not change the instructions that it
executes later (`PlainCode`).

* `main_transparent`: whatever the process does, interpretation alone does.
* `main_completes`: when interpretation alone exits, so does the process, or it dies or hangs
  while it looks for code.
-/

set_option autoImplicit false

namespace RiscvEmu

open Paging

/-! ## Compilers -/

/-- The compiler and the processor do with these sources what they say: the relocations of the
object come out right, and a call of code that is still as linking left it returns what the
source returns. -/
structure Backend.Implements (F : FloatOps) (backend : Backend) (Made : Source → Prop) : Prop where
  linkable : ∀ source, Made source → ∀ cache, Linkable (backend.clang source) cache
  call : ∀ source before pc entry after jitcode, Made source →
    machineCompile (backend.clang source) before pc = .ok (entry, after) →
    Resolved (backend.clang source) before pc entry after → SameCode before after jitcode →
    ∀ s s', backend.call jitcode entry s = .ok s' ↔ Start F source s s'

/-- Linking an object whose relocations come out right resolves them. -/
theorem resolved_of_linkable {elfbuf : Bytes.Memory} {cache cache' : Cache} {pc entry : U64}
    (wf : WellFormed elfbuf) (linkable : Linkable elfbuf cache)
    (compiled : machineCompile elfbuf cache pc = .ok (entry, cache')) :
    Resolved elfbuf cache pc entry cache' := by
  obtain ⟨found, scan, compiled⟩ := bind_ok.mp compiled
  obtain ⟨⟨rodataAddr, start, placed⟩, place, compiled⟩ := bind_ok.mp compiled
  cases rodataAddr with
  | none =>
      cases compiled
      cases placeSections_ok place with
      | code alone jitcode => exact (resolved_iff_code wf scan place alone jitcode).mpr linkable
  | some rodataAddr =>
      obtain ⟨jitcode, relocated, compiled⟩ := bind_ok.mp compiled
      cases compiled
      exact (resolved_iff_both wf scan place relocated).mpr linkable

/-! ## Standing at a place -/

/-- Where the machine is when interpretation alone is at a state. -/
inductive Stands (F : FloatOps) (t : State) : Control → Prop where
  | outer {m : Vm} (same : SameButExit m.state t) : Stands F t (.outer m)
  | inner {code : Code} {m : Vm} (same : SameButExit m.state t) : Stands F t (.inner code m)
  | interp {m : Vm} (same : SameButExit m.state t) : Stands F t (.interp m)
  /-- The instruction at the state has ended a block. -/
  | executed {m : Vm} {r : State} (round : execBlockIter F t = .ok (.inr r))
      (reason : m.state.exitReason = r.exitReason) (reenter : m.state.reenterPc = r.reenterPc)
      (same : SameGuest m.state r) : Stands F t (.left m)
  /-- The instruction at the state is left to the interpreter. -/
  | pending {m : Vm} (reason : m.state.exitReason = .interp) (reenter : m.state.reenterPc = t.pc)
      (same : SameGuest m.state t) : Stands F t (.left m)

/-- What bounds the steps for which interpretation stands still. -/
def Control.rank : Control → Nat
  | .outer _ => 5
  | .inner (.jit _) _ => 4
  | .left m => if m.state.exitReason = .interp then 3 else 0
  | .inner .interp _ => 2
  | .interp _ => 1

section Programs

variable {σ : Type} (page : PageSize) (os : Os σ) (F : FloatOps) (backend : Backend)

/-- The program does not change instructions that it executes later, and interpretation does not
trap in a division that a block leaves out. -/
structure PlainCode (q₀ : State × World σ) : Prop where
  stays : ∀ q q', Iteration.Steps (aloneMainIter page os F) q₀ q →
    Iteration.Steps (aloneMainIter page os F) q q' → SameInsn q.1.mem q'.1.mem q'.1.pc
  computes : ∀ q, Iteration.Steps (aloneMainIter page os F) q₀ q → ¬ DropsTrap q.1

/-- The blocks that a process compiles. -/
def Made (p₀ : Main σ) (source : Source) : Prop :=
  ∃ m w, Iteration.Steps (mainIter page os F backend) p₀ ⟨.outer m, w⟩ ∧ Compiles backend m ∧
    machineGenblock {} m.state.mem m.state.pc = .ok source

/-- The process has compiled a block at this machine, before interpretation got to `q`. -/
def CompiledBefore (p₀ : Main σ) (q₀ q : State × World σ) (m : Vm) : Prop :=
  ∃ w q₁, Iteration.Steps (mainIter page os F backend) p₀ ⟨.outer m, w⟩ ∧ Compiles backend m ∧
    Iteration.Steps (aloneMainIter page os F) q₀ q₁ ∧
    Iteration.Steps (aloneMainIter page os F) q₁ q ∧ q₁.1.mem = m.state.mem

/-- The process is where interpretation alone is. -/
structure Follows (p₀ : Main σ) (q₀ : State × World σ) (p : Main σ) (q : State × World σ) :
    Prop where
  reached : Iteration.Steps (mainIter page os F backend) p₀ p
  along : Iteration.Steps (aloneMainIter page os F) q₀ q
  world : p.world = q.2
  stands : Stands F q.1 p.at_
  own : EntersOwn backend (CompiledBefore page os F backend p₀ q₀ q) p.at_

end Programs

/-! ## Interpretation alone -/

section Alone

variable {σ : Type} {page : PageSize} {os : Os σ} {F : FloatOps} {s t : State} {w : World σ}
  {q q' : State × World σ} {exited : Exited σ}

theorem aloneMainIter_of_next (round : aloneIter F s = .ok (.inl t)) :
    aloneMainIter page os F (s, w) = .ok (.inl (t, w)) := by
  rw [aloneMainIter, round]
  rfl

theorem aloneMainIter_of_stop {reason : ExitReason} (round : aloneIter F s = .ok (.inr (reason, t))) :
    aloneMainIter page os F (s, w) = mainReturn page os reason t w := by
  rw [aloneMainIter, round]
  rfl

/-- Rounds of interpretation between two system calls. -/
theorem aloneMain_of_alone (steps : Iteration.Steps (aloneIter F) s t) :
    Iteration.Steps (aloneMainIter page os F) (s, w) (t, w) := by
  induction steps with
  | refl => exact .refl
  | tail _ round ih => exact ih.tail (aloneMainIter_of_next round)

/-- A system call does not write to the zero register. -/
theorem mainReturn_zero {reason : ExitReason} (zero : s.gpRegs 0 = 0)
    (returned : mainReturn page os reason s w = .ok (.inl q)) : q.1.gpRegs 0 = 0 := by
  rcases mainReturn_ok returned with ⟨_, impossible⟩ | ⟨_, answer, called, outcome⟩
  · cases impossible
  · rcases outcome with ⟨_, _, _, impossible⟩ | ⟨ret, m, os', rfl, same⟩
    · cases impossible
    · cases same
      have other : (0 : Reg) ≠ .a0 := by decide
      have kept : m.gpRegs 0 = 0 := by
        rw [doSyscall_gpRegs called]
        exact zero
      exact (Function.update_of_ne other ret m.gpRegs).trans kept

/-- The zero register, in every run of interpretation alone. -/
theorem aloneMain_zero (zero : q.1.gpRegs 0 = 0)
    (steps : Iteration.Steps (aloneMainIter page os F) q q') : q'.1.gpRegs 0 = 0 := by
  refine Iteration.Steps.invariant (fun q : State × World σ => q.1.gpRegs 0 = 0) ?_ steps zero
  rintro ⟨s, w⟩ b clean round
  obtain ⟨out, inner, round⟩ := bind_ok.mp round
  cases out with
  | inl t =>
      cases round
      exact aloneSteps_zero clean (.single inner)
  | inr returned =>
      obtain ⟨reason, t⟩ := returned
      exact mainReturn_zero (aloneReturns_zero clean (.leave inner)) round

/-- The exit fields do not matter to a system call. -/
theorem SameButExit.mainReturn {reason : ExitReason} (same : SameButExit s t)
    (returned : mainReturn page os reason s w = .ok (.inl q)) :
    ∃ u, RiscvEmu.mainReturn page os reason t w = .ok (.inl (u, q.2)) ∧ SameButExit q.1 u := by
  obtain ⟨reason', reenter, rfl⟩ := same
  rcases mainReturn_ok returned with ⟨_, impossible⟩ | ⟨rfl, answer, called, outcome⟩
  · cases impossible
  · rcases outcome with ⟨_, _, _, impossible⟩ | ⟨ret, m, os', rfl, same⟩
    · cases impossible
    · cases same
      exact ⟨_, mainReturn_of_returns called, reason', reenter, rfl⟩

theorem SameButExit.mainReturn_exit {reason : ExitReason} (same : SameButExit s t)
    (returned : RiscvEmu.mainReturn page os reason s w = .ok (.inr exited)) :
    RiscvEmu.mainReturn page os reason t w = .ok (.inr exited) := by
  obtain ⟨reason', reenter, rfl⟩ := same
  rcases mainReturn_ok returned with ⟨rfl, same⟩ | ⟨rfl, answer, called, outcome⟩
  · cases same
    rfl
  · rcases outcome with ⟨code, os', rfl, same⟩ | ⟨_, _, _, _, impossible⟩
    · cases same
      exact mainReturn_of_exits called
    · cases impossible

end Alone

/-! ## Following -/

section Following

variable {σ : Type} {page : PageSize} {os : Os σ} {F : FloatOps} {backend : Backend}
  {p₀ p p' : Main σ} {q₀ q q' : State × World σ} {m : Vm} {s s' t : State} {w : World σ}
  {exited : Exited σ} {c c' : Control} {entry : U64}

/-- Where the machine stands when a call of compiled code has got to a point of exit. -/
theorem Stands.of_exit (same : SameButExit m.state t) {u : State}
    (inside : Iteration.Steps (followIter F) m.cleared.state u) (exit : BlockExit F u s') :
    ∃ t', Iteration.Steps (aloneIter F) t t' ∧ Stands F t' (.left { m with state := s' }) := by
  obtain ⟨v, steps, same'⟩ := (m.cleared_same.trans same).steps (aloneSteps_of_follow inside)
  cases exit with
  | executed _ _ round reason reenter guest =>
      exact ⟨v, steps, .executed (same'.leave round) reason reenter guest⟩
  | pending reason reenter guest =>
      have guest' := same'.guest
      exact ⟨v, steps, .pending reason (reenter.trans same'.pc)
        ⟨guest.gp.trans guest'.gp, guest.fp.trans guest'.fp, guest.mem.trans guest'.mem⟩⟩

/-- A block that was compiled from the present instructions. -/
theorem Follows.compiled (objects : backend.MakesObjects)
    (implements : backend.Implements F (Made page os F backend p₀))
    (plain : PlainCode page os F q₀)
    (follows : Follows page os F backend p₀ q₀ ⟨.inner (.jit entry) m, w⟩ q) :
    ∃ visited tracer source mem, Generated mem m.state.pc visited tracer source ∧
      Intact F mem m.state.pc m.cleared.state ∧
      (∀ u, Iteration.Steps (blockIter F) m.cleared.state u → ¬ DropsTrap u) ∧
      ∀ s s', backend.call m.cache.jitcode entry s = .ok s' ↔ Start F source s s' := by
  cases follows.own.own entry m rfl with
  | @linked m₁ source before after good here generated compiled _ bytes =>
      obtain ⟨w₁, q₁, reached, compiles, before₁, between, mem⟩ := good
      rw [← here] at generated
      have made : Made page os F backend p₀ source := ⟨m₁, w₁, reached, compiles, generated⟩
      have isGenerated : IsGenerated source := ⟨_, _, _, generated⟩
      have resolved := resolved_of_linkable (objects.wellFormed source isGenerated)
        (implements.linkable source made before) compiled
      obtain ⟨visited, tracer, gen⟩ := machineGenblock_spec generated
      -- where interpretation is inside the block
      have inside : ∀ u, Iteration.Steps (blockIter F) m.cleared.state u →
          ∃ v, Iteration.Steps (aloneMainIter page os F) q (v, q.2) ∧ SameButExit u v := by
        intro u steps
        have along := aloneSteps_of_follow (followSteps_of_block steps)
        cases follows.stands with
        | inner same =>
            obtain ⟨v, steps', same'⟩ := (m.cleared_same.trans same).steps along
            exact ⟨v, aloneMain_of_alone steps', same'⟩
      refine ⟨visited, tracer, source, m₁.state.mem, here ▸ gen, ?_, ?_,
        implements.call source before _ entry after _ made compiled resolved bytes⟩
      · intro u steps _
        obtain ⟨v, steps', same⟩ := inside u steps
        rw [same.guest.mem, same.pc, ← mem]
        exact plain.stays q₁ (v, q.2) before₁ (between.trans steps')
      · intro u steps drops
        obtain ⟨v, steps', same⟩ := inside u steps
        exact plain.computes (v, q.2) (follows.along.trans steps') (same.dropsTrap drops)

/-- **A step of `machine_step`** takes the place of some rounds of interpretation, or of none, and
then the rank decreases. -/
theorem Stands.next
    (follow : ∀ entry m, c = .inner (.jit entry) m → CallFollows F backend m entry)
    (stands : Stands F t c) (next : MachineNext F backend c c') :
    ∃ t', (t = t' ∧ c'.rank < c.rank ∨ Relation.TransGen (Iteration.Next (aloneIter F)) t t') ∧
      Stands F t' c' := by
  cases next with
  | @found m m' code nonzero find =>
      cases stands with
      | outer same =>
          refine ⟨t, .inl ⟨rfl, ?_⟩, .inner (machineFind_state find ▸ same)⟩
          cases code with
          | interp => exact (by decide : 2 < 5)
          | jit entry => exact (by decide : 4 < 5)
  | enter m =>
      cases stands with
      | inner same => exact ⟨t, .inl ⟨rfl, (by decide : 1 < 2)⟩, .interp (m.cleared_same.trans same)⟩
  | call call =>
      cases stands with
      | inner same =>
          obtain ⟨u, inside, exit⟩ := follow _ _ rfl _ call
          obtain ⟨t', steps, stands⟩ := Stands.of_exit same inside exit
          refine ⟨t', ?_, stands⟩
          rcases Relation.reflTransGen_iff_eq_or_transGen.mp steps with rfl | steps
          · refine .inl ⟨rfl, ?_⟩
            simp only [Control.rank]
            split <;> decide
          · exact .inr steps
  | round round =>
      cases stands with
      | interp same =>
          obtain ⟨t', executed, same'⟩ := same.next round
          exact ⟨t', .inr (.single (aloneIter_of_next executed)), .interp same'⟩
  | @exit m s round =>
      cases stands with
      | interp same =>
          have known := (execBlockInterp_exit (.leave round)).reason
          have other : s.exitReason ≠ .interp := by
            intro interp
            simp [interp, interpReasons] at known
          refine ⟨t, .inl ⟨rfl, ?_⟩, .executed (same.leave round) rfl rfl ⟨rfl, rfl, rfl⟩⟩
          simp only [Control.rank, if_neg other]
          decide
  | chain branch hit =>
      cases stands with
      | executed round reason reenter same =>
          exact ⟨_, .inr (.single (aloneIter_of_branch round (reason ▸ branch))),
            .inner (Vm.reenter_same same reenter)⟩
      | pending reason =>
          rw [reason] at branch
          cases branch
  | miss branch absent =>
      cases stands with
      | executed round reason reenter same =>
          exact ⟨_, .inr (.single (aloneIter_of_branch round (reason ▸ branch))),
            .outer (Vm.reenter_same same reenter)⟩
      | pending reason =>
          rw [reason] at branch
          cases branch
  | fallBack interp =>
      cases stands with
      | executed round reason =>
          -- the interpreter never leaves an instruction to itself
          have known := (execBlockInterp_exit (.leave round)).reason
          rw [← reason, interp] at known
          simp [interpReasons] at known
      | pending reason reenter same =>
          refine ⟨t, .inl ⟨rfl, ?_⟩, .inner (.of_guest ⟨same.gp, same.fp, same.mem⟩ reenter)⟩
          simp only [Control.rank, if_pos interp]
          decide

/-- **The return of `machine_step`**: interpretation returns with the same reason. -/
theorem Stands.stop {out : ExitReason × Vm} (stands : Stands F t c) (ends : MachineEnd c out) :
    ∃ u, aloneIter F t = .ok (.inr (out.1, u)) ∧ SameButExit out.2.state u := by
  cases ends with
  | stopped zero =>
      cases stands with
      | outer same =>
          have round : execBlockIter F t = .ok (.inr _) := if_pos (same.pc ▸ zero)
          have guest := same.guest
          exact ⟨_, aloneIter_of_stop round rfl, .of_guest ⟨guest.gp, guest.fp, guest.mem⟩ zero⟩
  | exit other =>
      cases stands with
      | @executed _ r round reason reenter same =>
          have stop : r.exitReason.branches = false := by
            rw [← reason]
            rcases other with ecall | halt
            · rw [ecall]
              rfl
            · rw [halt]
              rfl
          rw [reason]
          exact ⟨_, aloneIter_of_stop round stop, Vm.reenter_same same reenter⟩
      | pending reason =>
          rcases other with ecall | halt
          · cases reason.symm.trans ecall
          · cases reason.symm.trans halt

/-- The process has gone on, and stands where interpretation is. -/
theorem Follows.move (objects : backend.MakesObjects)
    (follows : Follows page os F backend p₀ q₀ p q)
    (round : mainIter page os F backend p = .ok (.inl p'))
    (steps : Iteration.Steps (aloneMainIter page os F) q q') (world : p'.world = q'.2)
    (stands : Stands F q'.1 p'.at_) : Follows page os F backend p₀ q₀ p' q' where
  reached := follows.reached.tail round
  along := follows.along.trans steps
  world := world
  stands := stands
  own := by
    have known : EntersOwn backend (CompiledBefore page os F backend p₀ q₀ q') p.at_ :=
      follows.own.mono fun m ⟨w, q₁, reached, compiles, before, between, mem⟩ =>
        ⟨w, q₁, reached, compiles, before, between.trans steps, mem⟩
    refine known.next objects (fun m place compiles => ?_) (mainIter_next round).vm
    have reached : Iteration.Steps (mainIter page os F backend) p₀ ⟨.outer m, p.world⟩ := by
      rw [← place]
      exact follows.reached
    refine ⟨p.world, q, reached, compiles, follows.along, steps, ?_⟩
    have stands := follows.stands
    rw [place] at stands
    cases stands with
    | outer same => exact same.guest.mem.symm

/-- The machine cannot be given code to run: its pc is zero, there is no room, a lookup does not
end, or a block cannot be generated or compiled. -/
inductive CannotFind (backend : Backend) : Control → Abort → Prop where
  | find {m : Vm} {e : Abort} (died : machineFind backend m = .error e) :
      CannotFind backend (.outer m) e
  | lookup {m : Vm} {e : Abort} (died : cacheLookup m.cache m.state.reenterPc = .error e) :
      CannotFind backend (.left m) e

theorem SameButExit.symm {a b : State} (same : SameButExit a b) : SameButExit b a :=
  .of_guest ⟨same.guest.gp.symm, same.guest.fp.symm, same.guest.mem.symm⟩ same.pc.symm

/-- A round that dies does so whatever the exit fields are. -/
theorem SameButExit.error {a b : State} {e : Abort} (same : SameButExit a b)
    (died : execBlockIter F a = .error e) : ∃ e', execBlockIter F b = .error e' := by
  cases round : execBlockIter F b with
  | error e' => exact ⟨e', rfl⟩
  | ok out =>
      cases out with
      | inl b' =>
          obtain ⟨a', round', _⟩ := same.symm.next round
          cases died.symm.trans round'
      | inr r => cases died.symm.trans (same.symm.leave round)

/-- A system call that dies does so whatever the exit fields are. -/
theorem SameButExit.mainReturn_error {reason : ExitReason} {e : Abort} (same : SameButExit s t)
    (died : RiscvEmu.mainReturn page os reason s w = .error e) :
    ∃ e', RiscvEmu.mainReturn page os reason t w = .error e' := by
  cases returned : RiscvEmu.mainReturn page os reason t w with
  | error e' => exact ⟨e', rfl⟩
  | ok out =>
      cases out with
      | inl next =>
          obtain ⟨u, returned', _⟩ := same.symm.mainReturn returned
          cases died.symm.trans returned'
      | inr exited => cases died.symm.trans (same.symm.mainReturn_exit returned)

theorem aloneMainIter_of_error {e : Abort} (died : execBlockIter F s = .error e) :
    aloneMainIter page os F (s, w) = .error e := by
  rw [aloneMainIter, aloneIter, followIter, died]
  rfl

/-- A round inside a block is a round of interpretation alone, unless it ends the block. -/
theorem blockIter_alone (page : PageSize) (os : Os σ) (F : FloatOps) {u : State}
    (same : SameButExit u q.1) : (∃ k, blockIter F u = .ok (.inr k)) ∨
      (∃ e, aloneMainIter page os F q = .error e) ∨
      ∃ u' v, blockIter F u = .ok (.inl u') ∧ aloneMainIter page os F q = .ok (.inl (v, q.2)) ∧
        SameButExit u' v := by
  cases round : blockIter F u with
  | ok out =>
      cases out with
      | inr k => exact .inl ⟨k, rfl⟩
      | inl u' =>
          obtain ⟨v, alone, same'⟩ := same.alone (aloneIter_of_follow (followIter_of_blockIter round))
          exact .inr (.inr ⟨u', v, rfl, aloneMainIter_of_next alone, same'⟩)
  | error e =>
      rw [blockIter] at round
      split at round
      · cases round
      · rw [followIter, bind_error] at round
        rcases round with died | ⟨out, _, died⟩
        · obtain ⟨e', died'⟩ := same.error died
          exact .inr (.inl ⟨e', aloneMainIter_of_error died'⟩)
        · cases out with
          | inl t => cases died
          | inr r =>
              simp only at died
              split at died
              · cases died
              · cases died

/-- When interpretation exits, it gets to the end of every block. -/
theorem blockReturns (returns : Iteration.Returns (aloneMainIter page os F) q exited) {u : State}
    (same : SameButExit u q.1) : ∃ k, Iteration.Returns (blockIter F) u k := by
  induction returns generalizing u with
  | leave leaves =>
      rcases blockIter_alone page os F same with ⟨k, ends⟩ | ⟨e, died⟩ | ⟨_, _, _, alone, _⟩
      · exact ⟨k, .leave ends⟩
      · cases leaves.symm.trans died
      · cases leaves.symm.trans alone
  | again continues _ ih =>
      rcases blockIter_alone page os F same with ⟨k, ends⟩ | ⟨e, died⟩ | ⟨u', v, round, alone, same'⟩
      · exact ⟨k, .leave ends⟩
      · cases continues.symm.trans died
      · cases continues.symm.trans alone
        obtain ⟨k, returns⟩ := ih same'
        exact ⟨k, .again round returns⟩

/-- In `machine_step` the process dies for want of code only. -/
theorem Follows.step_died (objects : backend.MakesObjects)
    (implements : backend.Implements F (Made page os F backend p₀))
    (plain : PlainCode page os F q₀) (zero : q₀.1.gpRegs 0 = 0)
    (follows : Follows page os F backend p₀ q₀ ⟨c, w⟩ q)
    (returns : Iteration.Returns (aloneMainIter page os F) q exited) {e : Abort}
    (died : machineIter F backend c = .error e) : CannotFind backend c e := by
  cases c with
  | outer m =>
      rw [machineIter] at died
      split at died
      · cases died
      · rcases bind_error.mp died with died | ⟨found, _, died⟩
        · exact .find died
        · cases died
  | inner code m =>
      cases code with
      | interp => cases died
      | jit entry =>
          rcases bind_error.mp died with died | ⟨s, _, died⟩
          · obtain ⟨_, _, _, _, gen, intact, _, means⟩ := follows.compiled objects implements plain
            have same : SameButExit m.cleared.state q.1 := by
              cases follows.stands with
              | inner same => exact m.cleared_same.trans same
            have clean : m.cleared.state.gpRegs 0 = 0 := by
              rw [same.guest.gp]
              exact aloneMain_zero zero follows.along
            obtain ⟨k, ends⟩ := blockReturns returns same
            have here : m.cleared.state.pc = m.state.pc := rfl
            obtain ⟨s', start, _⟩ :=
              (block_lockstep gen intact).returns (atBlock_start gen here clean) ends
            cases died.symm.trans ((means _ _).mpr start)
          · cases died
  | interp m =>
      rcases bind_error.mp died with died | ⟨out, _, died⟩
      · cases follows.stands with
        | interp same =>
            obtain ⟨e', died'⟩ := same.error died
            exact (returns.not_aborts (.here (aloneMainIter_of_error died'))).elim
      · cases out with
        | inl s => cases died
        | inr s => cases died
  | left m =>
      have known : m.state.exitReason ≠ .none := by
        intro none'
        cases follows.stands with
        | executed round reason =>
            have known := (execBlockInterp_exit (.leave round)).reason
            rw [← reason, none'] at known
            simp [interpReasons] at known
        | pending reason => cases none'.symm.trans reason
      exact .lookup (machineDispatch_error known died)

/-- **Where the process dies** although interpretation exits. -/
theorem Follows.died (objects : backend.MakesObjects)
    (implements : backend.Implements F (Made page os F backend p₀))
    (plain : PlainCode page os F q₀) (zero : q₀.1.gpRegs 0 = 0)
    (follows : Follows page os F backend p₀ q₀ p q)
    (returns : Iteration.Returns (aloneMainIter page os F) q exited) {e : Abort}
    (died : mainIter page os F backend p = .error e) : CannotFind backend p.at_ e := by
  rcases bind_error.mp died with inner | ⟨out, returned, died⟩
  · exact follows.step_died objects implements plain zero returns inner
  · cases out with
    | inl c => cases died
    | inr out =>
        obtain ⟨reason, m⟩ := out
        rcases machineIter_ok returned with ⟨_, impossible, _⟩ | ⟨_, same, ends⟩
        · cases impossible
        · cases same
          obtain ⟨u, stops, same⟩ := follows.stands.stop ends
          rcases bind_error.mp died with died | ⟨answer, _, died⟩
          · obtain ⟨e', died'⟩ := same.mainReturn_error died
            have alone : aloneMainIter page os F q = .error e' := by
              rw [← died', follows.world]
              exact aloneMainIter_of_stop stops
            exact (returns.not_aborts (.here alone)).elim
          · cases answer with
            | inl next => cases died
            | inr exited => cases died

end Following

/-! ## The process and interpretation -/

/-- Nothing is mapped. -/
def exitWorld : World Unit := ⟨{}, emptyHost, ()⟩

/-- `exit(0)`. -/
theorem mainReturn_exit {s : State} (number : s.gpRegs .a7 = 93) (code : s.gpRegs .a0 = 0) :
    mainReturn page4096 statOs .ecall s exitWorld = .ok (.inr (0, ())) := by
  apply mainReturn_of_exits
  have selected : selectSyscall 93 = some .sysExit := selectSyscall_iff.mpr (.inl (by decide))
  rw [number]
  unfold doSyscall
  rw [selected]
  simp only [SyscallT.call, sysExit, ecallMachine, code]
  rfl

end RiscvEmu
