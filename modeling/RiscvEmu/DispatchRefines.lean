import RiscvEmu.ExitProtocol

/-!
# The cache does not show

Whatever `machine_step` finds in the cache or compiles, it does what interpretation alone
does (`aloneIter`), if the code that it enters simulates the interpreter. `Tracks` relates
a place in `machine_step` to a state of interpretation alone, every step keeps it
(`Tracks.next`), and at the end the two agree (`Tracks.stop`).

* `machineStep_agrees`: two runs of `machine_step` with different caches return the same.
-/

set_option autoImplicit false

namespace RiscvEmu

/-! ## States that differ in the exit fields -/

/-- The states agree but for the exit fields. -/
def SameButExit (a b : State) : Prop := ∃ reason reenter, b = a.withExit reason reenter

namespace SameButExit

variable {F : FloatOps} {a b c a' r : State}

theorem refl (a : State) : SameButExit a a := ⟨a.exitReason, a.reenterPc, rfl⟩

theorem trans (first : SameButExit a b) (second : SameButExit b c) : SameButExit a c := by
  obtain ⟨_, _, rfl⟩ := first
  obtain ⟨reason, reenter, rfl⟩ := second
  exact ⟨reason, reenter, rfl⟩

theorem guest (same : SameButExit a b) : SameGuest a b := by
  obtain ⟨reason, reenter, rfl⟩ := same
  exact ⟨rfl, rfl, rfl⟩

theorem pc (same : SameButExit a b) : a.pc = b.pc := by
  obtain ⟨reason, reenter, rfl⟩ := same
  rfl

theorem of_guest (guest : SameGuest a b) (pc : a.pc = b.pc) : SameButExit a b := by
  obtain ⟨gp, fp, mem⟩ := guest
  refine ⟨b.exitReason, b.reenterPc, ?_⟩
  rw [State.withExit, gp, fp, mem, pc]

/-- A round that goes on. -/
theorem next (same : SameButExit a b) (round : execBlockIter F a = .ok (.inl a')) :
    ∃ b', execBlockIter F b = .ok (.inl b') ∧ SameButExit a' b' := by
  obtain ⟨reason, reenter, rfl⟩ := same
  have spec := execBlockIter_round (F := F) (s := a)
  rw [round] at spec
  cases spec with
  | next _ _ _ others => exact ⟨_, others reason reenter, reason, reenter, rfl⟩

/-- A round that ends a block. -/
theorem leave (same : SameButExit a b) (round : execBlockIter F a = .ok (.inr r)) :
    execBlockIter F b = .ok (.inr r) := by
  obtain ⟨reason, reenter, rfl⟩ := same
  have spec := execBlockIter_round (F := F) (s := a)
  rw [round] at spec
  cases spec with
  | halt zero =>
      rw [execBlockIter]
      exact if_pos zero
  | leave _ _ _ others => exact others reason reenter

end SameButExit

/-! ## Interpretation alone -/

section Alone

variable {F : FloatOps} {s t t' r a b a' : State}

theorem aloneIter_of_next (round : execBlockIter F s = .ok (.inl t)) :
    aloneIter F s = .ok (.inl t) := by
  rw [aloneIter, followIter_of_next round]
  rfl

/-- After a branch the next round is at its target. -/
theorem aloneIter_of_branch (round : execBlockIter F s = .ok (.inr r))
    (branch : r.exitReason.branches = true) :
    aloneIter F s = .ok (.inl { r with pc := r.reenterPc }) := by
  by_cases direct : r.exitReason = .directBranch
  · rw [aloneIter, followIter_of_direct round direct]
    rfl
  · have indirect : r.exitReason = .indirectBranch := by
      cases reason : r.exitReason <;> simp_all [ExitReason.branches]
    rw [aloneIter, followIter_of_leave round direct]
    exact if_pos indirect

theorem aloneIter_of_stop (round : execBlockIter F s = .ok (.inr r))
    (stop : r.exitReason.branches = false) :
    aloneIter F s = .ok (.inr (r.exitReason, { r with pc := r.reenterPc })) := by
  have direct : r.exitReason ≠ .directBranch := by
    intro direct
    rw [direct] at stop
    cases stop
  have indirect : r.exitReason ≠ .indirectBranch := by
    intro indirect
    rw [indirect] at stop
    cases stop
  rw [aloneIter, followIter_of_leave round direct]
  exact if_neg indirect

theorem aloneIter_of_follow (round : followIter F s = .ok (.inl t)) :
    aloneIter F s = .ok (.inl t) := by
  rw [aloneIter, round]
  rfl

/-- The rounds that go on, by what the interpreter does. -/
theorem aloneIter_cases (round : aloneIter F s = .ok (.inl t)) :
    execBlockIter F s = .ok (.inl t) ∨ ∃ r, execBlockIter F s = .ok (.inr r) ∧
      r.exitReason.branches = true ∧ t = { r with pc := r.reenterPc } := by
  cases executed : execBlockIter F s with
  | error abort =>
      rw [aloneIter, followIter, executed] at round
      cases round
  | ok out =>
      cases out with
      | inl t' =>
          rw [aloneIter_of_next executed] at round
          cases round
          exact .inl rfl
      | inr r =>
          right
          cases branch : r.exitReason.branches with
          | false =>
              rw [aloneIter_of_stop executed branch] at round
              cases round
          | true =>
              rw [aloneIter_of_branch executed branch] at round
              cases round
              exact ⟨r, rfl, branch, rfl⟩

/-- The exit fields do not matter to a round of interpretation alone. -/
theorem SameButExit.alone (same : SameButExit a b) (round : aloneIter F a = .ok (.inl a')) :
    ∃ b', aloneIter F b = .ok (.inl b') ∧ SameButExit a' b' := by
  rcases aloneIter_cases round with executed | ⟨r, executed, branch, rfl⟩
  · obtain ⟨b', executed', same'⟩ := same.next executed
    exact ⟨b', aloneIter_of_next executed', same'⟩
  · exact ⟨_, aloneIter_of_branch (same.leave executed) branch, .refl _⟩

theorem SameButExit.steps (same : SameButExit a b) (steps : Iteration.Steps (aloneIter F) a a') :
    ∃ b', Iteration.Steps (aloneIter F) b b' ∧ SameButExit a' b' := by
  induction steps with
  | refl => exact ⟨b, .refl, same⟩
  | tail _ round ih =>
      obtain ⟨b₁, steps, same₁⟩ := ih
      obtain ⟨b', round', same'⟩ := same₁.alone round
      exact ⟨b', steps.tail round', same'⟩

theorem aloneSteps_of_follow (steps : Iteration.Steps (followIter F) a a') :
    Iteration.Steps (aloneIter F) a a' :=
  Relation.ReflTransGen.mono (fun _ _ => aloneIter_of_follow) _ _ steps

/-- A round clears the zero register. -/
theorem execBlockIter_zero {out : State ⊕ State} (zero : s.gpRegs 0 = 0)
    (round : execBlockIter F s = .ok out) : (out.elim id id).gpRegs 0 = 0 := by
  have spec := execBlockIter_round (F := F) (s := s)
  have cleared : ∀ {insn s'}, ExecutesInsn F s insn s' → s'.gpRegs 0 = 0 := by
    rintro insn s' ⟨_, _, s₁, insn₁, _, same⟩
    rw [same.gp]
    exact Function.update_self 0 0 s₁.gpRegs
  rw [round] at spec
  cases spec with
  | halt => exact zero
  | next executes => exact cleared executes
  | leave executes => exact cleared executes

theorem aloneSteps_zero (zero : s.gpRegs 0 = 0) (steps : Iteration.Steps (aloneIter F) s t) :
    t.gpRegs 0 = 0 := by
  refine Iteration.Steps.invariant (fun s => s.gpRegs 0 = 0) ?_ steps zero
  intro a b clean round
  rcases aloneIter_cases round with executed | ⟨r, executed, _, rfl⟩
  · exact execBlockIter_zero clean executed
  · exact execBlockIter_zero clean executed

end Alone

/-! ## Code that simulates the interpreter -/

section Simulation

variable (F : FloatOps) (backend : Backend)

/-- The instructions that interpretation executes are those of `code`: no store has touched
their bytes. -/
def Unmodified (code : Bytes.Memory) (s : State) : Prop :=
  ∀ t, Iteration.Steps (aloneIter F) s t → SameInsn code t.mem t.pc

/-- The code at a place in the region simulates the interpreter from a pc: when the call
returns, it has got to a point that interpretation gets to. -/
def Simulates (code jitcode : Bytes.Memory) (entry pc : U64) : Prop :=
  ∀ s s', s.pc = pc → s.gpRegs 0 = 0 → Unmodified F code s →
    backend.call jitcode entry s = .ok s' →
      ∃ t, Iteration.Steps (followIter F) s t ∧ BlockExit F t s'

/-- A call of the code from a machine: when it returns, it has got to a point that
interpretation gets to. -/
def CallFollows (m : Vm) (entry : U64) : Prop :=
  ∀ s, backend.call m.cache.jitcode entry m.cleared.state = .ok s →
    ∃ t, Iteration.Steps (followIter F) m.cleared.state t ∧ BlockExit F t s

/-- All code that the run finds in the cache, and every block that it compiles, simulates
the interpreter. -/
structure Certified (code : Bytes.Memory) (m : Vm) : Prop where
  found : ∀ m₁ entry m₂, Iteration.Steps (machineIter F backend) (.outer m) (.outer m₁) →
    machineFind backend m₁ = .ok (.jit entry, m₂) →
      Simulates F backend code m₂.cache.jitcode entry m₁.state.pc
  chained : ∀ m₁ entry, Iteration.Steps (machineIter F backend) (.outer m) (.left m₁) →
    cacheLookup m₁.cache m₁.state.reenterPc = .ok (some entry) →
      Simulates F backend code m₁.cache.jitcode entry m₁.state.reenterPc

/-- Where interpretation alone is when `machine_step` is at a place. -/
inductive Tracks (s₀ : State) : Control → Prop where
  | outer {m : Vm} {t : State} (steps : Iteration.Steps (aloneIter F) s₀ t)
      (same : SameButExit m.state t) : Tracks s₀ (.outer m)
  | inner {m : Vm} {code : Code} {t : State} (steps : Iteration.Steps (aloneIter F) s₀ t)
      (same : SameButExit m.state t) : Tracks s₀ (.inner code m)
  | interp {m : Vm} {t : State} (steps : Iteration.Steps (aloneIter F) s₀ t)
      (same : SameButExit m.state t) : Tracks s₀ (.interp m)
  /-- The last round of interpretation ended the block. -/
  | executed {m : Vm} {t r : State} (steps : Iteration.Steps (aloneIter F) s₀ t)
      (round : execBlockIter F t = .ok (.inr r)) (reason : m.state.exitReason = r.exitReason)
      (reenter : m.state.reenterPc = r.reenterPc) (same : SameGuest m.state r) :
      Tracks s₀ (.left m)
  /-- The instruction at the next pc is left to the interpreter. -/
  | pending {m : Vm} {t : State} (steps : Iteration.Steps (aloneIter F) s₀ t)
      (reason : m.state.exitReason = .interp) (reenter : m.state.reenterPc = t.pc)
      (same : SameGuest m.state t) : Tracks s₀ (.left m)

end Simulation

section Simulation

variable {F : FloatOps} {backend : Backend} {code : Bytes.Memory} {m m' : Vm} {s₀ : State}
  {c c' : Control} {out : ExitReason × Vm}

/-- The outer loop finds code without touching the state. -/
theorem machineFind_state {found : Code} (find : machineFind backend m = .ok (found, m')) :
    m'.state = m.state := by
  obtain ⟨hit, _, find⟩ := bind_ok.mp find
  cases hit with
  | some entry =>
      cases find
      rfl
  | none =>
      obtain ⟨⟨hot, cache⟩, _, find⟩ := bind_ok.mp find
      cases hot with
      | false =>
          cases find
          rfl
      | true =>
          obtain ⟨source, _, find⟩ := bind_ok.mp find
          obtain ⟨⟨entry, cache'⟩, _, find⟩ := bind_ok.mp find
          cases find
          rfl

theorem Vm.cleared_same (m : Vm) : SameButExit m.cleared.state m.state :=
  ⟨m.state.exitReason, m.state.reenterPc, rfl⟩

/-- Interpretation from a state on the way executes instructions of the same code. -/
theorem Unmodified.at_ {s t : State} (unmodified : Unmodified F code s₀)
    (steps : Iteration.Steps (aloneIter F) s₀ t) (same : SameButExit s t) :
    Unmodified F code s := by
  intro u steps'
  obtain ⟨v, steps'', same'⟩ := same.steps steps'
  rw [same'.guest.mem, same'.pc]
  exact unmodified v (steps.trans steps'')

/-- The state after the pc is set. -/
theorem Vm.reenter_same {r : State} (same : SameGuest m.state r)
    (reenter : m.state.reenterPc = r.reenterPc) :
    SameButExit m.reenter.state { r with pc := r.reenterPc } :=
  .of_guest ⟨same.gp, same.fp, same.mem⟩ reenter

/-- The zero register, wherever interpretation is. -/
theorem Tracks.zero {code : Code} (zero : s₀.gpRegs 0 = 0) (tracks : Tracks F s₀ (.inner code m)) :
    m.cleared.state.gpRegs 0 = 0 := by
  cases tracks with
  | inner steps same =>
      rw [(m.cleared_same.trans same).guest.gp]
      exact aloneSteps_zero zero steps

/-- Code that simulates the interpreter, where interpretation is at its pc. -/
theorem Simulates.follows {entry : U64} (zero : s₀.gpRegs 0 = 0)
    (unmodified : Unmodified F code s₀) (tracks : Tracks F s₀ (.inner (.jit entry) m))
    (simulates : Simulates F backend code m.cache.jitcode entry m.state.pc) :
    CallFollows F backend m entry := by
  intro s call
  have clean := tracks.zero zero
  cases tracks with
  | inner steps same =>
      exact simulates m.cleared.state s rfl clean
        (unmodified.at_ steps (m.cleared_same.trans same)) call

/-- A call that follows the interpreter. -/
theorem Tracks.call {entry : U64} {s t : State} (steps : Iteration.Steps (aloneIter F) s₀ t)
    (same : SameButExit m.state t) (follows : CallFollows F backend m entry)
    (call : backend.call m.cache.jitcode entry m.cleared.state = .ok s) :
    Tracks F s₀ (.left { m with state := s }) := by
  obtain ⟨u, inside, exit⟩ := follows s call
  obtain ⟨v, steps', same'⟩ :=
    (m.cleared_same.trans same).steps (aloneSteps_of_follow inside)
  cases exit with
  | executed _ _ round reason reenter guest =>
      exact .executed (steps.trans steps') (same'.leave round) reason reenter guest
  | pending reason reenter guest =>
      refine .pending (steps.trans steps') reason (reenter.trans same'.pc) ?_
      have guest' := same'.guest
      exact ⟨guest.gp.trans guest'.gp, guest.fp.trans guest'.fp, guest.mem.trans guest'.mem⟩

/-- **Every step** of `machine_step` keeps track of interpretation alone. -/
theorem Tracks.next
    (follows : ∀ entry m', c = .inner (.jit entry) m' → CallFollows F backend m' entry)
    (tracks : Tracks F s₀ c) (next : MachineNext F backend c c') : Tracks F s₀ c' := by
  cases next with
  | found nonzero find =>
      cases tracks with
      | outer steps same => exact .inner steps (machineFind_state find ▸ same)
  | enter m =>
      cases tracks with
      | inner steps same => exact .interp steps (m.cleared_same.trans same)
  | call call =>
      cases tracks with
      | inner steps same => exact .call steps same (follows _ _ rfl) call
  | round round =>
      cases tracks with
      | interp steps same =>
          obtain ⟨t', executed, same'⟩ := same.next round
          exact .interp (steps.tail (aloneIter_of_next executed)) same'
  | exit round =>
      cases tracks with
      | interp steps same => exact .executed steps (same.leave round) rfl rfl ⟨rfl, rfl, rfl⟩
  | chain branch hit =>
      cases tracks with
      | executed steps round reason reenter same =>
          exact .inner (steps.tail (aloneIter_of_branch round (reason ▸ branch)))
            (Vm.reenter_same same reenter)
      | pending steps reason =>
          rw [reason] at branch
          cases branch
  | miss branch absent =>
      cases tracks with
      | executed steps round reason reenter same =>
          exact .outer (steps.tail (aloneIter_of_branch round (reason ▸ branch)))
            (Vm.reenter_same same reenter)
      | pending steps reason =>
          rw [reason] at branch
          cases branch
  | fallBack interp =>
      cases tracks with
      | executed steps round reason =>
          -- the interpreter never leaves an instruction to itself
          have known := (execBlockInterp_exit (.leave round)).reason
          rw [← reason, interp] at known
          simp [interpReasons] at known
      | pending steps reason reenter same =>
          exact .inner steps (.of_guest ⟨same.gp, same.fp, same.mem⟩ reenter)

/-- **At the end** interpretation alone ends in the same way. -/
theorem Tracks.stop (tracks : Tracks F s₀ c) (ends : MachineEnd c out) :
    ∃ s, Iteration.Returns (aloneIter F) s₀ (out.1, s) ∧ SameGuest out.2.state s ∧
      out.2.state.pc = s.pc := by
  cases ends with
  | stopped zero =>
      cases tracks with
      | outer steps same =>
          have round : execBlockIter F _ = .ok (.inr _) := if_pos (same.pc ▸ zero)
          have guest := same.guest
          exact ⟨_, .of_steps steps (.leave (aloneIter_of_stop round rfl)),
            ⟨guest.gp, guest.fp, guest.mem⟩, zero⟩
  | exit other =>
      cases tracks with
      | @executed _ _ r steps round reason reenter same =>
          have stop : r.exitReason.branches = false := by
            rw [← reason]
            rcases other with ecall | halt
            · rw [ecall]
              rfl
            · rw [halt]
              rfl
          rw [reason]
          exact ⟨_, .of_steps steps (.leave (aloneIter_of_stop round stop)),
            ⟨same.gp, same.fp, same.mem⟩, reenter⟩
      | pending steps reason =>
          rcases other with ecall | halt
          · cases reason.symm.trans ecall
          · cases reason.symm.trans halt

/-- Code that is entered was found or compiled. -/
theorem Certified.enters {entry : U64} (certified : Certified F backend code m)
    (steps : Iteration.Steps (machineIter F backend) (.outer m) (.inner (.jit entry) m')) :
    Simulates F backend code m'.cache.jitcode entry m'.state.pc := by
  rcases Relation.ReflTransGen.cases_tail steps with same | ⟨c, before, round⟩
  · cases same
  rcases machineIter_ok round with ⟨_, same, next⟩ | ⟨_, impossible, _⟩
  · cases same
    cases next with
    | found nonzero find =>
        rw [machineFind_state find]
        exact certified.found _ _ _ before find
    | @chain m₁ _ branch hit => exact certified.chained m₁ entry before hit
  · cases impossible

/-- **A run** of `machine_step` keeps track of interpretation alone. -/
theorem tracks_run
    (follows : ∀ entry m',
      Iteration.Steps (machineIter F backend) (.outer m) (.inner (.jit entry) m') →
        Tracks F m.state (.inner (.jit entry) m') → CallFollows F backend m' entry)
    (steps : Iteration.Steps (machineIter F backend) (.outer m) c) : Tracks F m.state c := by
  induction steps with
  | refl => exact .outer .refl (.refl _)
  | @tail c c' before round ih =>
      rcases machineIter_ok round with ⟨_, same, next⟩ | ⟨_, impossible, _⟩
      · cases same
        refine ih.next ?_ next
        rintro entry m' rfl
        exact follows entry m' before ih
      · cases impossible

/-- A call of `machine_step` whose code follows the interpreter. -/
theorem machineStep_follows
    (follows : ∀ entry m',
      Iteration.Steps (machineIter F backend) (.outer m) (.inner (.jit entry) m') →
        Tracks F m.state (.inner (.jit entry) m') → CallFollows F backend m' entry)
    (returns : MachineStep F backend m out) :
    ∃ s, Iteration.Returns (aloneIter F) m.state (out.1, s) ∧ SameGuest out.2.state s ∧
      out.2.state.pc = s.pc := by
  obtain ⟨c, steps, stops⟩ := Iteration.returns_iff_steps_leave.mp returns
  rcases machineIter_ok stops with ⟨_, impossible, _⟩ | ⟨_, same, ends⟩
  · cases impossible
  · cases same
    exact (tracks_run follows steps).stop ends

/-- **`machine_step` does what interpretation alone does.** -/
theorem machineStep_alone (zero : m.state.gpRegs 0 = 0) (unmodified : Unmodified F code m.state)
    (certified : Certified F backend code m) (returns : MachineStep F backend m out) :
    ∃ s, Iteration.Returns (aloneIter F) m.state (out.1, s) ∧ SameGuest out.2.state s ∧
      out.2.state.pc = s.pc :=
  machineStep_follows
    (fun _ _ steps tracks => (certified.enters steps).follows zero unmodified tracks) returns

end Simulation

/-- **The cache does not show.** When no instruction that is executed has been overwritten,
and all code in two caches and all code that is compiled simulates the interpreter, then
`machine_step` returns the same with either cache. -/
theorem machineStep_agrees {F : FloatOps} {backend backend' : Backend} {code : Bytes.Memory} {s : State}
    {cache cache' : Cache} {reason reason' : ExitReason} {m m' : Vm}
    (zero : s.gpRegs 0 = 0) (unmodified : Unmodified F code s)
    (certified : Certified F backend code ⟨s, cache⟩)
    (certified' : Certified F backend' code ⟨s, cache'⟩)
    (first : MachineStep F backend ⟨s, cache⟩ (reason, m))
    (second : MachineStep F backend' ⟨s, cache'⟩ (reason', m')) :
    reason = reason' ∧ SameGuest m.state m'.state ∧ m.state.pc = m'.state.pc := by
  obtain ⟨r, alone, same, pc⟩ := machineStep_alone zero unmodified certified first
  obtain ⟨r', alone', same', pc'⟩ := machineStep_alone zero unmodified certified' second
  cases alone.unique alone'
  refine ⟨rfl, ⟨same.gp.trans same'.gp.symm, same.fp.trans same'.fp.symm,
    same.mem.trans same'.mem.symm⟩, pc.trans pc'.symm⟩

/-- `mulh a0, a1, a1`, `ecall`. -/
def mulhCode : Bytes.Memory :=
  Bytes.copy (fun _ => 0) 0x1000 [0x33, 0x95, 0xb5, 0x02, 0x73, 0x00, 0x00, 0x00]

/-- A state at it. -/
abbrev mulhState : State := .boot mulhCode 0x1000 11 0x100000000

/-- A backend whose code leaves at once, as the code for `mulh` does. -/
def fallBackCode : Backend where
  clang _ := fun _ => 0
  call _ _ s := .ok (s.withExit .interp s.pc)

theorem fallBackCode_certified {F : FloatOps} {code : Bytes.Memory} {m : Vm} :
    Certified F fallBackCode code m := by
  have simulates : ∀ jitcode entry pc, Simulates F fallBackCode code jitcode entry pc := by
    intro jitcode entry pc s s' _ _ _ call
    cases call
    exact ⟨s, .refl, .pending rfl rfl ⟨rfl, rfl, rfl⟩⟩
  exact ⟨fun _ _ _ _ _ => simulates _ _ _, fun _ _ _ _ => simulates _ _ _⟩

/-- A machine that has the code in the cache. -/
def mulhHot : Vm :=
  ⟨mulhState, newCache.setItem (hash 0x1000) ⟨0x1000, cacheHotCount, 0⟩⟩

/-- One run enters the code in the cache, and the other interprets. -/
theorem machineStep_agrees_mulh : ∃ m m',
    MachineStep default fallBackCode mulhHot (.ecall, m) ∧
    MachineStep default fallBackCode ⟨mulhState, newCache⟩ (.ecall, m') ∧
    SameGuest m.state m'.state ∧ m.state.pc = m'.state.pc := by
  obtain ⟨m, first⟩ : ∃ m, Iteration.run (machineIter default fallBackCode) 8 (.outer mulhHot) =
    some (.ok (.ecall, m)) := ⟨_, rfl⟩
  obtain ⟨m', second⟩ : ∃ m', Iteration.run (machineIter default fallBackCode) 8
    (.outer ⟨mulhState, newCache⟩) = some (.ok (.ecall, m')) := ⟨_, rfl⟩
  have first : MachineStep default fallBackCode mulhHot (.ecall, m) :=
    Iteration.returns_of_run first
  have second : MachineStep default fallBackCode ⟨mulhState, newCache⟩ (.ecall, m') :=
    Iteration.returns_of_run second
  obtain ⟨t₁, next, ⟨r, stops⟩, same⟩ : ∃ t₁, aloneIter default mulhState = .ok (.inl t₁) ∧
      (∃ r, aloneIter default t₁ = .ok (.inr r)) ∧ SameInsn mulhCode t₁.mem t₁.pc :=
    ⟨_, rfl, ⟨_, rfl⟩, fun _ _ => rfl⟩
  have unmodified : Unmodified default mulhCode mulhState := by
    intro t steps
    rcases steps.next_cases next with rfl | last
    · exact fun _ _ => rfl
    · rw [← Iteration.Steps.eq_of_stops last (by rw [stops]; simp)]
      exact same
  exact ⟨m, m', first, second,
    (machineStep_agrees rfl unmodified fallBackCode_certified fallBackCode_certified first second).2⟩

end RiscvEmu
