import RiscvEmu.Transparency
import RiscvEmu.ProcessMemory

/-!
# What a program changes

An instruction changes at most the register that it names and, if it stores, the bytes that it
stores to (`interpFuncs_frames`, one case for each kind of handler). Over a whole run of the
process this says where a byte can have come from: it is the byte from before, unless a store,
a system call or the break has been there (`aloneMain_frame`).

* `plainCode_iff`: when compiling does not show in a process that writes to no byte of its code.
-/

set_option autoImplicit false

namespace RiscvEmu

open Paging

/-! ## Instructions -/

/-- The number of bytes that an instruction stores. -/
def InsnType.storeBytes : InsnType → Nat
  | .sb => 1
  | .sh => 2
  | .sw | .fsw => 4
  | .sd | .fsd => 8
  | _ => 0

/-- An instruction stores to an address. -/
def Insn.Stores (insn : Insn) (s : State) (x : U64) : Prop :=
  InRange (s.gpRegs insn.rs1 + insn.imm64) insn.type.storeBytes x

/-- The two register files. -/
inductive RegFile where
  | gp | fp
  deriving DecidableEq

/-- The register file that an instruction writes to. -/
def InsnType.writes : InsnType → Option RegFile
  | .fence | .fenceI | .ecall | .sb | .sh | .sw | .sd | .fsw | .fsd | .beq | .bne | .blt | .bge
  | .bltu | .bgeu => none
  | .flw | .fmaddS | .fmsubS | .fnmsubS | .fnmaddS | .faddS | .fsubS | .fmulS | .fdivS | .fsqrtS
  | .fsgnjS | .fsgnjnS | .fsgnjxS | .fminS | .fmaxS | .fcvtSW | .fcvtSWu | .fmvWX | .fcvtSL
  | .fcvtSLu | .fld | .fmaddD | .fmsubD | .fnmsubD | .fnmaddD | .faddD | .fsubD | .fmulD | .fdivD
  | .fsqrtD | .fsgnjD | .fsgnjnD | .fsgnjxD | .fminD | .fmaxD | .fcvtSD | .fcvtDS | .fcvtDW
  | .fcvtDWu | .fcvtDL | .fcvtDLu | .fmvDX => some .fp
  | _ => some .gp

/-- What an instruction leaves as it was. -/
structure Insn.Effect (insn : Insn) (s s' : State) : Prop where
  memory : ∀ x, ¬ insn.Stores s x → s'.mem x = s.mem x
  gp : ∀ r, (insn.type.writes = some .gp → r ≠ insn.rd) → s'.gpRegs r = s.gpRegs r
  fp : ∀ r, (insn.type.writes = some .fp → r ≠ insn.rd) → s'.fpRegs r = s.fpRegs r

section Handlers

variable {F : FloatOps} {s s' : State} {insn insn' : Insn}

theorem Insn.Effect.of_same (same : SameGuest s' s) : insn.Effect s s' :=
  ⟨fun x _ => congrFun same.mem x, fun r _ => congrFun same.gp r, fun r _ => congrFun same.fp r⟩

/-- An instruction that only writes a register. -/
theorem Insn.Effect.setGp (writes : insn.type.writes = some .gp) (value : U64) :
    insn.Effect s (s.setGp insn.rd value) :=
  ⟨fun _ _ => rfl, fun _ other => Function.update_of_ne (other writes) .., fun _ _ => rfl⟩

theorem Insn.Effect.setFp (writes : insn.type.writes = some .fp) (value : U64) :
    insn.Effect s (s.setFp insn.rd value) :=
  ⟨fun _ _ => rfl, fun _ _ => rfl, fun _ other => Function.update_of_ne (other writes) ..⟩

/-- An instruction that only stores. -/
theorem Insn.Effect.write {type : CInt} {value : U64}
    (bytes : insn.type.storeBytes = type.width / 8) :
    insn.Effect s (s.write type (s.gpRegs insn.rs1 + insn.imm64) value) := by
  refine ⟨fun x outside => ?_, fun _ _ => rfl, fun _ _ => rfl⟩
  rw [Insn.Stores, bytes] at outside
  cases type <;> exact Bytes.store_of_out outside

theorem Insn.Effect.congr {t : State} (effect : insn.Effect s s') (same : SameGuest t s') :
    insn.Effect s t := by
  refine ⟨fun x outside => ?_, fun r other => ?_, fun r other => ?_⟩
  · rw [same.mem]
    exact effect.memory x outside
  · rw [same.gp]
    exact effect.gp r other
  · rw [same.fp]
    exact effect.fp r other

/-- Clearing the zero register does not show. -/
theorem Insn.Effect.clear (effect : insn.Effect s s') (zero : s.gpRegs 0 = 0) :
    insn.Effect s (s'.setGp 0 0) := by
  refine ⟨effect.memory, fun r other => ?_, effect.fp⟩
  by_cases isZero : r = 0
  · rw [isZero, zero]
    exact Function.update_self 0 0 s'.gpRegs
  · exact (Function.update_of_ne isZero ..).trans (effect.gp r other)

/-- A handler leaves all else as it was. -/
def Frames (handler : Handler) (s : State) (insn : Insn) : Prop :=
  ∀ s' insn', handler s insn = .ok (s', insn') → insn.Effect s s'

theorem frames_regTrap (writes : insn.type.writes = some .gp)
    (expr : U64 → U64 → Except Abort U64) : Frames (funcRegTrap expr) s insn := by
  intro s' insn' done
  obtain ⟨value, -, done⟩ := bind_ok.mp done
  cases done
  exact .setGp writes value

theorem frames_csr (writes : insn.type.writes = some .gp) : Frames funcCsr s insn := by
  intro s' insn' done
  rw [funcCsr] at done
  split at done
  · cases done
    exact .setGp writes 0
  · cases done

theorem frames_branch (expr : U64 → U64 → Bool) : Frames (funcBranch expr) s insn := by
  intro s' insn' done
  rw [funcBranch] at done
  split at done
  · cases done
    exact .of_same ⟨rfl, rfl, rfl⟩
  · cases done
    exact .of_same ⟨rfl, rfl, rfl⟩

/-- **What a handler leaves as it was.** -/
theorem interpFuncs_frames : Frames (interpFuncs F insn.type) s insn := by
  cases type : insn.type with
  | fence | fenceI | ecall =>
      intro s' insn' done
      cases done
      exact .of_same ⟨rfl, rfl, rfl⟩
  | sb | sh | sw | sd | fsw | fsd =>
      intro s' insn' done
      cases done
      exact .write (by rw [type]; rfl)
  | beq | bne | blt | bge | bltu | bgeu =>
      rw [interpFuncs]
      apply frames_branch
  | csrrw | csrrs | csrrc | csrrwi | csrrsi | csrrci => exact frames_csr (by rw [type]; rfl)
  | div | divu | rem | remu | divw | divuw | remw | remuw =>
      rw [interpFuncs]
      apply frames_regTrap
      rw [type]
      rfl
  | jal | jalr =>
      intro s' insn' done
      cases done
      have linked : insn.Effect s (s.setGp insn.rd (s.pc + insn.len)) :=
        .setGp (by rw [type]; rfl) _
      exact linked.congr ⟨rfl, rfl, rfl⟩
  | flw | fmaddS | fmsubS | fnmsubS | fnmaddS | faddS | fsubS | fmulS | fdivS | fsqrtS
  | fsgnjS | fsgnjnS | fsgnjxS | fminS | fmaxS | fcvtSW | fcvtSWu | fmvWX | fcvtSL
  | fcvtSLu | fld | fmaddD | fmsubD | fnmsubD | fnmaddD | faddD | fsubD | fmulD | fdivD
  | fsqrtD | fsgnjD | fsgnjnD | fsgnjxD | fminD | fmaxD | fcvtSD | fcvtDS | fcvtDW
  | fcvtDWu | fcvtDL | fcvtDLu | fmvDX =>
      intro s' insn' done
      cases done
      exact .setFp (by rw [type]; rfl) _
  | _ =>
      intro s' insn' done
      cases done
      exact .setGp (by rw [type]; rfl) _

end Handlers

/-! ## Rounds of interpretation alone -/

section Rounds

variable {F : FloatOps} {s s' t : State} {insn : Insn} {reason : ExitReason}

theorem ExecutesInsn.frames (executes : ExecutesInsn F s insn s') (zero : s.gpRegs 0 = 0) :
    Fetched s insn ∧ insn.Effect s s' := by
  obtain ⟨s₁, insn₁, done, same⟩ := executes.effect
  refine ⟨⟨executes.nonzero, zero, executes.decoded⟩, ?_⟩
  have effect := interpFuncs_frames s₁ insn₁ done
  exact (effect.clear zero).congr same

/-- A round that goes on executes an instruction. -/
theorem aloneIter_frames (zero : s.gpRegs 0 = 0) (round : aloneIter F s = .ok (.inl t)) :
    ∃ insn, Fetched s insn ∧ insn.Effect s t := by
  have spec := execBlockIter_round (F := F) (s := s)
  rcases aloneIter_cases round with next | ⟨r, left, branch, rfl⟩
  · rw [next] at spec
    cases spec with
    | @next insn s' executes _ _ _ => exact ⟨insn, executes.frames zero⟩
  · rw [left] at spec
    cases spec with
    | halt => cases branch
    | @leave insn s' executes _ _ _ =>
        obtain ⟨fetched, effect⟩ := executes.frames zero
        exact ⟨insn, fetched, effect.congr ⟨rfl, rfl, rfl⟩⟩

/-- The round of an ECALL executes an instruction. -/
theorem aloneIter_frames_ecall (zero : s.gpRegs 0 = 0)
    (round : aloneIter F s = .ok (.inr (.ecall, t))) : ∃ insn, Fetched s insn ∧ insn.Effect s t := by
  have spec := execBlockIter_round (F := F) (s := s)
  obtain ⟨r, left, -, same⟩ := aloneIter_stop round
  rw [left] at spec
  cases spec with
  | halt => cases same
  | @leave insn s' executes _ _ _ =>
      obtain ⟨fetched, effect⟩ := executes.frames zero
      cases congrArg Prod.snd same
      exact ⟨insn, fetched, effect.congr ⟨rfl, rfl, rfl⟩⟩

end Rounds

/-! ## Runs of the process -/

section Definitions

variable {σ : Type} (page : PageSize) (os : Os σ) (F : FloatOps)

/-- What is written to an address at a place of the process: a store, a system call, or the pages
that the break moves over. -/
inductive Touches (q : State × World σ) (x : U64) : Prop where
  | store {insn : Insn} (fetched : Fetched q.1 insn) (stores : insn.Stores q.1 x)
  | call {t : State} {f : SyscallT} (stops : aloneIter F q.1 = .ok (.inr (.ecall, t)))
      (listed : Listed (t.gpRegs .a7) f) (writes : f.Writes (ecallMachine t q.2) (toHost x))
  | move {q' : State × World σ} (round : aloneMainIter page os F q = .ok (.inl q'))
      (crosses : ¬ Aside q.2.mmu q'.2.mmu (toHost x))

/-- A register that is written to at a place: by an instruction, or with the result of a call. -/
inductive SetsGp (q : State × World σ) (r : Reg) : Prop where
  | insn {insn : Insn} (fetched : Fetched q.1 insn) (writes : insn.type.writes = some .gp)
      (names : r = insn.rd)
  | result {t : State} (stops : aloneIter F q.1 = .ok (.inr (.ecall, t))) (names : r = .a0)

/-- A floating-point register that is written to at a place. -/
def SetsFp (q : State × World σ) (r : Reg) : Prop :=
  ∃ insn, Fetched q.1 insn ∧ insn.type.writes = some .fp ∧ r = insn.rd

/-- The guest has zero at an address that is not mapped. -/
def Backed (q : State × World σ) (x : U64) : Prop :=
  q.2.host.mem (toHost x) = none → q.1.mem x = 0

end Definitions

section Runs

variable {σ : Type} {page : PageSize} {os : Os σ} {F : FloatOps} {q q' : State × World σ}
  {s s' : State} {w w' : World σ} {reason : ExitReason} {x : U64} {r : Reg}

/-- A system call keeps the end of the host allocation at a page boundary. -/
theorem mainReturn_aligned (contract : os.Contract) (aligned : page.bytes ∣ w.mmu.hostAlloc.toNat)
    (returned : mainReturn page os reason s w = .ok (.inl (s', w'))) :
    page.bytes ∣ w'.mmu.hostAlloc.toNat := by
  rcases mainReturn_ok returned with ⟨-, impossible⟩ | ⟨-, answer, called, outcome⟩
  · cases impossible
  obtain ⟨code, os', -, impossible⟩ | ⟨ret, m', os', rfl, same⟩ := outcome
  · cases impossible
  cases same
  obtain ⟨f, -, called⟩ := doSyscall_ok called
  by_cases brk : f = .sysBrk
  · subst brk
    obtain ⟨⟨addr, m₁⟩, moved, done⟩ := bind_ok.mp called
    cases done
    have aligned' : page.bytes ∣ (ecallMachine s w).mmu.hostAlloc.toNat := aligned
    exact sysBrk_aligned aligned' moved
  · have frame := f.call_frame contract (fun same => absurd same brk) called
    rw [(frame.others brk).1]
    exact aligned

/-- What is known of a process throughout a run. -/
structure Regular (page : PageSize) (q : State × World σ) : Prop where
  zero : q.1.gpRegs 0 = 0
  aligned : page.bytes ∣ q.2.mmu.hostAlloc.toNat

theorem Regular.next (contract : os.Contract) (regular : Regular page q)
    (round : aloneMainIter page os F q = .ok (.inl q')) : Regular page q' := by
  refine ⟨aloneMain_zero regular.zero (.single round), ?_⟩
  obtain ⟨out, inner, round⟩ := bind_ok.mp round
  cases out with
  | inl t =>
      cases round
      exact regular.aligned
  | inr returned => exact mainReturn_aligned contract regular.aligned round

/-- **A round and an address** that it does not write to. -/
theorem aloneMainIter_memory (contract : os.Contract) (regular : Regular page q)
    (round : aloneMainIter page os F q = .ok (.inl q')) (untouched : ¬ Touches page os F q x)
    (backed : Backed q x) : Backed q' x ∧ q'.1.mem x = q.1.mem x := by
  have aside : Aside q.2.mmu q'.2.mmu (toHost x) := by
    by_contra crosses
    exact untouched (.move round crosses)
  obtain ⟨out, inner, round⟩ := bind_ok.mp round
  cases out with
  | inl t =>
      cases round
      obtain ⟨insn, fetched, effect⟩ := aloneIter_frames regular.zero inner
      have same := effect.memory x fun stores => untouched (.store fetched stores)
      exact ⟨fun none' => same.trans (backed none'), same⟩
  | inr returned =>
      obtain ⟨reason, t⟩ := returned
      obtain ⟨rfl, f, listed, answered⟩ := mainReturn_answered contract regular.aligned round
      obtain ⟨insn, fetched, effect⟩ := aloneIter_frames_ecall regular.zero inner
      have same := effect.memory x fun stores => untouched (.store fetched stores)
      have outside := fun writes => untouched (.call inner listed writes)
      cases byte : q.2.host.mem (toHost x) with
      | none =>
          have gone := answered.unmapped x aside byte
          exact ⟨fun _ => gone, gone.trans (backed byte).symm⟩
      | some v =>
          have some' : (q.2.host.mem (toHost x)).isSome := Option.isSome_of_eq_some byte
          have mapped := answered.mapped x aside
          refine ⟨fun none' => ?_, (answered.memory x aside some' outside).trans same⟩
          rw [none', some'] at mapped
          cases mapped

/-- **A round and a register** that it does not write to. -/
theorem aloneMainIter_gp (contract : os.Contract) (regular : Regular page q)
    (round : aloneMainIter page os F q = .ok (.inl q')) (unset : ¬ SetsGp F q r) :
    q'.1.gpRegs r = q.1.gpRegs r := by
  have unnamed : ∀ insn, Fetched q.1 insn → insn.type.writes = some .gp → r ≠ insn.rd :=
    fun insn fetched writes names => unset (.insn fetched writes names)
  obtain ⟨out, inner, round⟩ := bind_ok.mp round
  cases out with
  | inl t =>
      cases round
      obtain ⟨insn, fetched, effect⟩ := aloneIter_frames regular.zero inner
      exact effect.gp r (unnamed insn fetched)
  | inr returned =>
      obtain ⟨reason, t⟩ := returned
      obtain ⟨rfl, f, listed, answered⟩ := mainReturn_answered contract regular.aligned round
      obtain ⟨insn, fetched, effect⟩ := aloneIter_frames_ecall regular.zero inner
      obtain ⟨ret, same⟩ := answered.state
      have other : r ≠ .a0 := fun names => unset (.result inner names)
      rw [same]
      exact (Function.update_of_ne other ..).trans (effect.gp r (unnamed insn fetched))

/-- **A round and a floating-point register** that it does not write to. -/
theorem aloneMainIter_fp (contract : os.Contract) (regular : Regular page q)
    (round : aloneMainIter page os F q = .ok (.inl q')) (unset : ¬ SetsFp q r) :
    q'.1.fpRegs r = q.1.fpRegs r := by
  have unnamed : ∀ insn, Fetched q.1 insn → insn.type.writes = some .fp → r ≠ insn.rd :=
    fun insn fetched writes names => unset ⟨insn, fetched, writes, names⟩
  obtain ⟨out, inner, round⟩ := bind_ok.mp round
  cases out with
  | inl t =>
      cases round
      obtain ⟨insn, fetched, effect⟩ := aloneIter_frames regular.zero inner
      exact effect.fp r (unnamed insn fetched)
  | inr returned =>
      obtain ⟨reason, t⟩ := returned
      obtain ⟨rfl, f, listed, answered⟩ := mainReturn_answered contract regular.aligned round
      obtain ⟨insn, fetched, effect⟩ := aloneIter_frames_ecall regular.zero inner
      obtain ⟨ret, same⟩ := answered.state
      rw [same]
      exact effect.fp r (unnamed insn fetched)

theorem Regular.steps (contract : os.Contract) (regular : Regular page q)
    (steps : Iteration.Steps (aloneMainIter page os F) q q') : Regular page q' :=
  Iteration.Steps.invariant (Regular page) (fun _ _ before round => before.next contract round)
    steps regular

/-- The process is regular when it starts, and reads zero where nothing is mapped. -/
theorem regular_of_started {files : CString → Option (List U8)} {argv : Argv} {o : σ} {p₀ : Main σ}
    (started : mainStart page files emptyHost argv o = .ok p₀) :
    Regular page (p₀.at_.vm.state, p₀.world) ∧ ∀ x, Backed (p₀.at_.vm.state, p₀.world) x := by
  have aligned := aligned_of_started started
  obtain ⟨file, loaded, m, -, -, setup, rfl⟩ := mainStart_ok started
  have zero : m.gpRegs 0 = 0 := machineSetup_gpRegs setup (by decide) (by decide) (by decide)
  refine ⟨⟨zero, aligned⟩, fun x none' => ?_⟩
  change (m.host.mem (toHost x)).getD 0 = 0
  rw [none']
  rfl

/-- A run and an address that it does not write to. -/
theorem aloneMain_memory (contract : os.Contract) (regular : Regular page q)
    (steps : Iteration.Steps (aloneMainIter page os F) q q') (backed : Backed q x)
    (untouched : ∀ a, Iteration.Passes (aloneMainIter page os F) q q' a →
      ¬ Touches page os F a x) : Backed q' x ∧ q'.1.mem x = q.1.mem x := by
  have inv := Iteration.Steps.invariant_along
    (fun a => Regular page a ∧ Backed a x ∧ a.1.mem x = q.1.mem x) steps ?_ ⟨regular, backed, rfl⟩
  · exact inv.2
  · rintro a b passes ⟨regular, backed, same⟩ round
    obtain ⟨backed', same'⟩ :=
      aloneMainIter_memory contract regular round (untouched a passes) backed
    exact ⟨regular.next contract round, backed', same'.trans same⟩

/-- **What a run changes.** In every run of the process an address, a register and a
floating-point register that nothing on the way writes to hold what they held. -/
theorem aloneMain_frame (contract : os.Contract) (regular : Regular page q)
    (steps : Iteration.Steps (aloneMainIter page os F) q q') :
    (∀ x, Backed q x → (∀ a, Iteration.Passes (aloneMainIter page os F) q q' a →
      ¬ Touches page os F a x) → q'.1.mem x = q.1.mem x) ∧
    (∀ r, (∀ a, Iteration.Passes (aloneMainIter page os F) q q' a → ¬ SetsGp F a r) →
      q'.1.gpRegs r = q.1.gpRegs r) ∧
    (∀ r, (∀ a, Iteration.Passes (aloneMainIter page os F) q q' a → ¬ SetsFp a r) →
      q'.1.fpRegs r = q.1.fpRegs r) := by
  refine ⟨fun x backed untouched => (aloneMain_memory contract regular steps backed untouched).2,
    fun r unset => ?_, fun r unset => ?_⟩
  · have inv := Iteration.Steps.invariant_along
      (fun a => Regular page a ∧ a.1.gpRegs r = q.1.gpRegs r) steps ?_ ⟨regular, rfl⟩
    · exact inv.2
    · rintro a b passes ⟨regular, same⟩ round
      exact ⟨regular.next contract round,
        (aloneMainIter_gp contract regular round (unset a passes)).trans same⟩
  · have inv := Iteration.Steps.invariant_along
      (fun a => Regular page a ∧ a.1.fpRegs r = q.1.fpRegs r) steps ?_ ⟨regular, rfl⟩
    · exact inv.2
    · rintro a b passes ⟨regular, same⟩ round
      exact ⟨regular.next contract round,
        (aloneMainIter_fp contract regular round (unset a passes)).trans same⟩

end Runs

/-! ## Code that is not written to -/

/-- The process executes instructions of `code` only, and writes to no address of it. -/
structure Separate {σ : Type} (page : PageSize) (os : Os σ) (F : FloatOps) (code : U64 → Prop)
    (q₀ : State × World σ) : Prop where
  executes : ∀ q, Iteration.Steps (aloneMainIter page os F) q₀ q →
    ∀ i < insnBytes q.1.mem q.1.pc, code (q.1.pc + BitVec.ofNat 64 i)
  backed : ∀ x, code x → Backed q₀ x
  untouched : ∀ q x, Iteration.Steps (aloneMainIter page os F) q₀ q → code x →
    ¬ Touches page os F q x

section Separate

variable {σ : Type} {page : PageSize} {os : Os σ} {F : FloatOps} {code : U64 → Prop}
  {q₀ q q' : State × World σ} {mem mem' : Bytes.Memory} {pc : U64}

theorem two_le_insnBytes : 2 ≤ insnBytes mem pc := by
  rw [insnBytes]
  split_ifs <;> omega

theorem insnBytes_le : insnBytes mem pc ≤ 4 := by
  rw [insnBytes]
  split_ifs <;> omega

/-- The first two bytes of an instruction decide how many it has. -/
theorem insnBytes_congr (same : ∀ i < 2, mem' (pc + BitVec.ofNat 64 i) =
    mem (pc + BitVec.ofNat 64 i)) : insnBytes mem' pc = insnBytes mem pc := by
  have half : (Bytes.load mem' pc 16 : BitVec 16) = Bytes.load mem pc 16 := Bytes.load_congr same
  have cut : ∀ m, (Bytes.load m pc 32).setWidth 16 = Bytes.load m pc 16 :=
    fun m => Bytes.setWidth_load (by decide) (by decide)
  have low : lowHalf (Bytes.load mem' pc 32) = lowHalf (Bytes.load mem pc 32) := by
    rw [lowHalf, lowHalf, cut, cut, half]
  rw [insnBytes, insnBytes, ← quadrant_lowHalf, low, quadrant_lowHalf]

/-- The code is the same throughout a run. -/
theorem Separate.code_same (contract : os.Contract) (regular : Regular page q₀)
    (separate : Separate page os F code q₀)
    (steps : Iteration.Steps (aloneMainIter page os F) q₀ q) {x : U64} (inside : code x) :
    q.1.mem x = q₀.1.mem x :=
  (aloneMain_memory contract regular steps (separate.backed x inside)
    fun a passes => separate.untouched a x passes.1 inside).2

/-- An instruction is executed as it was at every earlier place. -/
theorem Separate.stays (contract : os.Contract) (regular : Regular page q₀)
    (separate : Separate page os F code q₀)
    (first : Iteration.Steps (aloneMainIter page os F) q₀ q)
    (second : Iteration.Steps (aloneMainIter page os F) q q') :
    SameInsn q.1.mem q'.1.mem q'.1.pc := by
  have later := first.trans second
  have agree : ∀ x, code x → q'.1.mem x = q.1.mem x := fun x inside =>
    (separate.code_same contract regular later inside).trans
      (separate.code_same contract regular first inside).symm
  have executed := separate.executes q' later
  have length : insnBytes q'.1.mem q'.1.pc = insnBytes q.1.mem q'.1.pc :=
    insnBytes_congr fun i bound => agree _ (executed i (bound.trans_le two_le_insnBytes))
  intro i bound
  rw [← length] at bound
  exact agree _ (executed i bound)

/-- **When separate code is plain.** A process that writes to no byte of the code that it executes
does not execute an instruction that it has changed. So compiling does not show in it, exactly when
it comes to no division whose trap a block drops. -/
theorem plainCode_iff (contract : os.Contract) (regular : Regular page q₀)
    (separate : Separate page os F code q₀) :
    (∀ q q', Iteration.Steps (aloneMainIter page os F) q₀ q →
      Iteration.Steps (aloneMainIter page os F) q q' → SameInsn q.1.mem q'.1.mem q'.1.pc) ∧
      (PlainCode page os F q₀ ↔
        ∀ q, Iteration.Steps (aloneMainIter page os F) q₀ q → ¬ DropsTrap q.1) := by
  have stays : ∀ q q', Iteration.Steps (aloneMainIter page os F) q₀ q →
      Iteration.Steps (aloneMainIter page os F) q q' → SameInsn q.1.mem q'.1.mem q'.1.pc :=
    fun _ _ first second => separate.stays contract regular first second
  exact ⟨stays, fun plain => plain.computes, fun computes => ⟨stays, computes⟩⟩

end Separate

/-! ### The program that asks for its break -/

/-- A place where nothing is stored, and at most `sys_brk` and `sys_exit` are called, without moving
the break. -/
structure Quiet (q : State × World Unit) : Prop where
  inside : ∀ i < 4, InRange 0x10078 20 (q.1.pc + BitVec.ofNat 64 i)
  decoded : ∃ insn, insnDecode {} q.1.fetch = .ok insn ∧ insn.type.storeBytes = 0 ∧
    insn.type.divides32 = false
  calls : ∀ t, aloneIter default q.1 = .ok (.inr (.ecall, t)) →
    t.gpRegs .a7 = 214 ∨ t.gpRegs .a7 = 93
  stays : ∀ q', aloneMainIter page4096 statOs default q = .ok (.inl q') →
    q'.2.mmu.hostAlloc = q.2.mmu.hostAlloc

theorem Quiet.not_touches {q : State × World Unit} (quiet : Quiet q) (x : U64) :
    ¬ Touches page4096 statOs default q x := by
  intro touches
  cases touches with
  | @store insn fetched stores =>
      obtain ⟨insn', decoded, none', -⟩ := quiet.decoded
      cases decoded.symm.trans fetched.decoded
      rw [Insn.Stores, none'] at stores
      exact Nat.not_lt_zero _ stores
  | @call t f stops listed writes =>
      have brk : Listed 214 .sysBrk := .inl (by decide)
      have exit : Listed 93 .sysExit := .inl (by decide)
      rcases quiet.calls t stops with number | number
      · rw [number] at listed
        cases listed.unique brk
        exact writes
      · rw [number] at listed
        cases listed.unique exit
        exact writes
  | @move q' round crosses =>
      rw [Aside, quiet.stays q' round] at crosses
      by_cases below : toHost x < q.2.mmu.hostAlloc
      · exact crosses (.inl ⟨below, below⟩)
      · exact crosses (.inr ⟨BitVec.not_lt.mp below, BitVec.not_lt.mp below⟩)

theorem Quiet.not_dropsTrap {q : State × World Unit} (quiet : Quiet q) : ¬ DropsTrap q.1 := by
  rintro ⟨insn, fetched, divides, -⟩
  obtain ⟨insn', decoded, -, other⟩ := quiet.decoded
  cases decoded.symm.trans fetched.decoded
  cases other.symm.trans divides

/-- Before a round that goes on inside. -/
theorem Quiet.of_next {s t : State} {w : World Unit} {insn : Insn}
    (inside : ∀ i < 4, InRange 0x10078 20 (s.pc + BitVec.ofNat 64 i))
    (decoded : insnDecode {} s.fetch = .ok insn) (plain : insn.type = .addi)
    (round : aloneIter default s = .ok (.inl t)) : Quiet (s, w) := by
  refine ⟨inside, ⟨insn, decoded, by rw [plain]; rfl, by rw [plain]; rfl⟩, fun t' stops => ?_,
    fun q' next => ?_⟩
  · cases round.symm.trans stops
  · cases (aloneMainIter_of_next round).symm.trans next
    rfl

/-- Before an ECALL. -/
theorem Quiet.of_ecall {s t : State} {w : World Unit} {insn : Insn}
    (inside : ∀ i < 4, InRange 0x10078 20 (s.pc + BitVec.ofNat 64 i))
    (decoded : insnDecode {} s.fetch = .ok insn) (plain : insn.type = .ecall)
    (round : aloneIter default s = .ok (.inr (.ecall, t)))
    (number : t.gpRegs .a7 = 214 ∨ t.gpRegs .a7 = 93)
    (stays : ∀ q', aloneMainIter page4096 statOs default (s, w) = .ok (.inl q') →
      q'.2.mmu.hostAlloc = w.mmu.hostAlloc) : Quiet (s, w) := by
  refine ⟨inside, ⟨insn, decoded, by rw [plain]; rfl, by rw [plain]; rfl⟩, fun t' stops => ?_, stays⟩
  cases round.symm.trans stops
  exact number

set_option maxRecDepth 10000 in
/-- The rounds of the program, interpreted. -/
theorem brkElf_rounds : ∃ p₀ s₁ s₂ t₂ s₃ w₃ s₄ t₄,
    mainStart page4096 (fun _ => some brkElf) emptyHost twoStrings () = .ok p₀ ∧
    (p₀.at_.vm.state.pc = 0x10078 ∧
      insnDecode {} p₀.at_.vm.state.fetch = .ok { type := .addi, rd := 10 } ∧
      aloneIter default p₀.at_.vm.state = .ok (.inl s₁)) ∧
    (s₁.pc = 0x1007c ∧ insnDecode {} s₁.fetch = .ok { type := .addi, rd := 17, imm := 214 } ∧
      aloneIter default s₁ = .ok (.inl s₂)) ∧
    (s₂.pc = 0x10080 ∧ insnDecode {} s₂.fetch = .ok { type := .ecall, cont := true } ∧
      aloneIter default s₂ = .ok (.inr (.ecall, t₂)) ∧ t₂.gpRegs .a7 = 214 ∧
      mainReturn page4096 statOs .ecall t₂ p₀.world = .ok (.inl (s₃, w₃)) ∧
      w₃.mmu.hostAlloc = p₀.world.mmu.hostAlloc) ∧
    (s₃.pc = 0x10084 ∧ insnDecode {} s₃.fetch = .ok { type := .addi, rd := 17, imm := 93 } ∧
      aloneIter default s₃ = .ok (.inl s₄)) ∧
    s₄.pc = 0x10088 ∧ insnDecode {} s₄.fetch = .ok { type := .ecall, cont := true } ∧
      aloneIter default s₄ = .ok (.inr (.ecall, t₄)) ∧ t₄.gpRegs .a7 = 93 ∧
      mainReturn page4096 statOs .ecall t₄ w₃ = .ok (.inr (0x2011007, ())) :=
  ⟨_, _, _, _, _, _, _, _, rfl, ⟨rfl, rfl, rfl⟩, ⟨rfl, rfl, rfl⟩, ⟨rfl, rfl, rfl, rfl, rfl, rfl⟩,
    ⟨rfl, rfl, rfl⟩, rfl, rfl, rfl, rfl, rfl⟩

/-- Every place of the program is quiet, and it comes to the return of its first ECALL. -/
theorem brkElf_quiet : ∃ (p₀ : Main Unit) (q₃ : State × World Unit),
    mainStart page4096 (fun _ => some brkElf) emptyHost twoStrings () = .ok p₀ ∧
    Iteration.Steps (aloneMainIter page4096 statOs default) (p₀.at_.vm.state, p₀.world) q₃ ∧
    q₃.1.pc = 0x10084 ∧
    ∀ q, Iteration.Steps (aloneMainIter page4096 statOs default) (p₀.at_.vm.state, p₀.world) q →
      Quiet q := by
  obtain ⟨p₀, s₁, s₂, t₂, s₃, w₃, s₄, t₄, started, ⟨pc₀, decoded₀, round₀⟩, ⟨pc₁, decoded₁, round₁⟩,
    ⟨pc₂, decoded₂, round₂, number₂, answered₂, same⟩, ⟨pc₃, decoded₃, round₃⟩, pc₄, decoded₄, round₄,
    number₄, answered₄⟩ := brkElf_rounds
  have third := (aloneMainIter_of_stop round₂ (w := p₀.world)).trans answered₂
  have fifth := (aloneMainIter_of_stop round₄ (w := w₃)).trans answered₄
  have once : Iteration.Steps (aloneMainIter page4096 statOs default)
      (p₀.at_.vm.state, p₀.world) (s₁, p₀.world) := .single (aloneMainIter_of_next round₀)
  have twice := once.tail (aloneMainIter_of_next round₁)
  refine ⟨p₀, (s₃, w₃), started, twice.tail third, pc₃, fun q steps => ?_⟩
  rcases steps.next_cases (aloneMainIter_of_next round₀) with rfl | steps
  · exact .of_next (by rw [pc₀]; decide) decoded₀ rfl round₀
  rcases Iteration.Steps.next_cases steps (aloneMainIter_of_next round₁) with rfl | steps
  · exact .of_next (by rw [pc₁]; decide) decoded₁ rfl round₁
  rcases Iteration.Steps.next_cases steps third with rfl | steps
  · refine .of_ecall (by rw [pc₂]; decide) decoded₂ rfl round₂ (.inl number₂) fun q' next => ?_
    cases third.symm.trans next
    exact same
  rcases Iteration.Steps.next_cases steps (aloneMainIter_of_next round₃) with rfl | steps
  · exact .of_next (by rw [pc₃]; decide) decoded₃ rfl round₃
  cases Iteration.Steps.eq_of_stops steps (by rw [fifth]; simp)
  refine .of_ecall (by rw [pc₄]; decide) decoded₄ rfl round₄ (.inr number₄) fun q' next => ?_
  cases fifth.symm.trans next

/-- The program has the memory that it started with after it has asked for its break. -/
theorem aloneMain_frame_brkElf : ∃ (p₀ : Main Unit) (q : State × World Unit),
    mainStart page4096 (fun _ => some brkElf) emptyHost twoStrings () = .ok p₀ ∧
    q.1.pc = 0x10084 ∧ ∀ x, q.1.mem x = p₀.at_.vm.state.mem x := by
  obtain ⟨p₀, q, started, steps, pc, quiet⟩ := brkElf_quiet
  obtain ⟨regular, backed⟩ := regular_of_started started
  obtain ⟨memory, -, -⟩ := aloneMain_frame statOs_contract regular steps
  exact ⟨p₀, q, started, pc, fun x =>
    memory x (backed x) fun a passes => (quiet a passes.1).not_touches x⟩

/-- What the program executes is in the 20 bytes after its headers, and it does not divide. -/
theorem plainCode_iff_brkElf : ∃ p₀ : Main Unit,
    mainStart page4096 (fun _ => some brkElf) emptyHost twoStrings () = .ok p₀ ∧
    PlainCode page4096 statOs default (p₀.at_.vm.state, p₀.world) := by
  obtain ⟨p₀, -, started, -, -, quiet⟩ := brkElf_quiet
  obtain ⟨regular, backed⟩ := regular_of_started started
  have separate : Separate page4096 statOs default (InRange 0x10078 20)
      (p₀.at_.vm.state, p₀.world) := by
    refine ⟨fun q steps i bound => ?_, fun x _ => backed x,
      fun q x steps _ => (quiet q steps).not_touches x⟩
    exact (quiet q steps).inside i (bound.trans_le insnBytes_le)
  exact ⟨p₀, started, (plainCode_iff statOs_contract regular separate).2.mpr
    fun q steps => (quiet q steps).not_dropsTrap⟩

end RiscvEmu
