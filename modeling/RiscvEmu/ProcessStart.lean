import RiscvEmu.Main

/-!
# What a program finds when it starts

`main` loads the file, sets up the stack and enters its loop. Loading and setup work on the same
memory, and the guest finds both: setup writes nothing below the end of what loading has
allocated (`machineSetup_below`).

* `main_starts`: the registers, the image of the file and the stack at the entry of the loop.
-/

set_option autoImplicit false

namespace RiscvEmu

open Alignment Paging

/-! ## What setup leaves as it was -/

section Setup

variable {page : PageSize} {start : Mmu} {m m' : Machine} {mem mem' : Space} {d : Nat} {x : U64}
  {data : List U8} {strings rest : List CString} {s : CString} {r : Reg} {argv : Argv}

/-- A block that is written above the start leaves what is below it. -/
theorem write_below (written : mem.write (start.hostAt d) data = some mem')
    (fits : start.hostAlloc.toNat + d + data.length < 2 ^ 64)
    (below : x.toNat < start.hostAlloc.toNat) : mem' x = mem x := by
  have here := start.toNat_hostAt (d := d) (by omega)
  apply write_out written
  rw [inRange_iff (by omega)]
  omega

/-- One round of the loop over the arguments. -/
theorem Frame.push_below (at' : AtStart page start) (frame : Frame page start rest m)
    (room : 8 * (rest.length + 4) ≤ stackBytes) (bounded : total (s :: rest) < 2 ^ 63)
    (pushed : pushArg page m s = .ok m') (below : x.toNat < start.hostAlloc.toNat) :
    m'.host.mem x = m.host.mem x := by
  obtain ⟨addr, mmu, host₁, host₂, called, copied, stored, -, -⟩ := pushArg_ok pushed
  have stackBytes_eq : stackBytes = 2 ^ 25 := rfl
  have bounds : s.size = s.bytes.length + 1 := rfl
  rw [total_cons] at bounded
  have size := s.toNat_size (by omega)
  obtain ⟨addr_eq, grown', zeroed⟩ := frame.grown.step at' (by omega) (by omega) (by omega) called
  rw [size] at grown' zeroed
  have fits := grown'.hostAlloc ▸ mmu.hostAlloc.isLt
  have covers : stackBytes + total rest + s.size ≤
      ceil (stackBytes + total rest + s.size) page.bytes := le_ceil page.bytes_pos
  obtain ⟨slot, inStack⟩ := frameOffset_cons (s := s) room
  have words := length_leBytes addr
  rw [addr_eq, frame.alloc_eq, at'.toHost_offset] at copied
  rw [frame.slot_eq (s := s) room, at'.toHost_offset] at stored
  rw [write_below stored (by omega) below, write_below copied (by omega) below, zeroed,
    if_neg (by omega)]

theorem pushAll_below (at' : AtStart page start) (frame : Frame page start [] m)
    (room : 8 * (strings.length + 4) ≤ stackBytes) (bounded : total strings < 2 ^ 63)
    (pushed : strings.reverse.foldlM (pushArg page) m = .ok m')
    (below : x.toNat < start.hostAlloc.toNat) : m'.host.mem x = m.host.mem x := by
  induction strings generalizing m' with
  | nil =>
      cases pushed
      rfl
  | cons s rest ih =>
      rw [List.foldlM_reverse, List.foldrM_cons, ← List.foldlM_reverse] at pushed
      obtain ⟨m₁, before, pushed⟩ := bind_ok.mp pushed
      rw [List.length_cons] at room
      have bounded' : total rest < 2 ^ 63 := by
        rw [total_cons] at bounded
        omega
      have frame₁ := frame.pushAll at' (by omega) bounded' before
      exact (frame₁.push_below at' (by omega) bounded pushed below).trans
        (ih (by omega) bounded' before)

theorem Frame.pushArgc_below (at' : AtStart page start) (frame : Frame page start strings m)
    (room : 8 * (strings.length + 4) ≤ stackBytes) {args : U64}
    (pushed : RiscvEmu.pushArgc m args = .ok m') (below : x.toNat < start.hostAlloc.toNat) :
    m'.host.mem x = m.host.mem x := by
  obtain ⟨host', stored, done⟩ := bind_ok.mp pushed
  cases done
  have sp : Function.update m.gpRegs Reg.sp (m.gpRegs .sp - argcSize) Reg.sp =
      m.gpRegs .sp - argcSize := Function.update_self ..
  have stored := mmuWrite_ok stored
  simp only [Machine.setGp, sp] at stored
  rw [frame.argc_slot room, at'.toHost_offset] at stored
  have fits := frame.grown.hostAlloc ▸ m.mmu.hostAlloc.isLt
  have covers : stackBytes + total strings ≤ ceil (stackBytes + total strings) page.bytes :=
    le_ceil page.bytes_pos
  have words := length_leBytes args
  exact write_below stored (by omega) below

theorem Finished.align_below (at' : AtStart page start) (wide : 16 ∣ page.bytes)
    (frame : Finished start strings (stackBytes - 8 * (strings.length + 4)) m)
    (room : 8 * (strings.length + 4) ≤ stackBytes)
    (fits : start.alloc.toNat + (stackBytes + total strings) < 2 ^ 64)
    (fits' : start.hostAlloc.toNat + (stackBytes + total strings) < 2 ^ 64)
    (done : alignStack m start.alloc = .ok m')
    (low : x.toNat < start.hostAlloc.toNat) : m'.host.mem x = m.host.mem x := by
  generalize offset : stackBytes - 8 * (strings.length + 4) = d at frame
  have below : d / 16 * 16 ≤ d := Nat.div_mul_le_self ..
  have round := guestAt_aligned (d := d) (wide.trans at'.aligned') (by omega)
  rw [alignStack, frame.sp, round] at done
  by_cases moves : start.guestAt (d / 16 * 16) ≠ start.guestAt d
  · rw [if_pos moves] at done
    obtain ⟨host', moved, done⟩ := bind_ok.mp done
    rw [toNat_used room offset (by omega), at'.toHost_offset, at'.toHost_offset] at moved
    have length : (stackFrame start strings).length = 8 * (strings.length + 4) :=
      length_stackFrame
    cases done
    exact write_below (memmove_ok frame.frame moved) (by omega) low
  · rw [if_neg moves] at done
    cases done
    rfl

/-- **Setup leaves what has been loaded.** -/
theorem machineSetup_below (at' : AtStart page m.mmu) (wide : 16 ∣ page.bytes)
    (room : 8 * (argv.strings.length + 4) ≤ stackBytes)
    (done : machineSetup page m argv = .ok m') (below : x.toNat < m.mmu.hostAlloc.toNat) :
    m'.host.mem x = m.host.mem x := by
  obtain ⟨⟨stack, mmu, host⟩, called, done⟩ := bind_ok.mp done
  obtain ⟨m₂, looped, done⟩ := bind_ok.mp done
  obtain ⟨m₃, pushed, done⟩ := bind_ok.mp done
  have size : stackSize.toNat = stackBytes := rfl
  have stackBytes_eq : stackBytes = 2 ^ 25 := rfl
  obtain ⟨stack_eq, empty⟩ := setup_empty at' called
  obtain ⟨-, -, zeroed⟩ := Grown.zero.step at' (by omega) (by omega) (by omega) called
  have frame := empty.pushAll at' room argv.bounded looped
  have finished := frame.pushArgc at' room pushed
  have fits := frame.grown.alloc ▸ m₂.mmu.alloc.isLt
  have fits' := frame.grown.hostAlloc ▸ m₂.mmu.hostAlloc.isLt
  have covers : stackBytes + total argv.strings ≤
      ceil (stackBytes + total argv.strings) page.bytes := le_ceil page.bytes_pos
  rw [stack_eq] at done
  rw [finished.align_below at' wide room (by omega) (by omega) done below,
    frame.pushArgc_below at' room pushed below, pushAll_below at' empty room argv.bounded looped below]
  change host.mem x = _
  rw [zeroed, if_neg (by omega)]

/-! ### Registers -/

theorem pushArg_gpRegs (pushed : pushArg page m s = .ok m') (other : r ≠ .sp) :
    m'.gpRegs r = m.gpRegs r := by
  obtain ⟨⟨addr, mmu, host₁⟩, -, pushed⟩ := bind_ok.mp pushed
  obtain ⟨host₂, -, pushed⟩ := bind_ok.mp pushed
  obtain ⟨host₃, -, pushed⟩ := bind_ok.mp pushed
  cases pushed
  exact Function.update_of_ne other ..

theorem pushAll_gpRegs (pushed : strings.foldlM (pushArg page) m = .ok m') (other : r ≠ .sp) :
    m'.gpRegs r = m.gpRegs r := by
  induction strings generalizing m with
  | nil =>
      cases pushed
      rfl
  | cons s rest ih =>
      rw [List.foldlM_cons] at pushed
      obtain ⟨m₁, first, pushed⟩ := bind_ok.mp pushed
      exact (ih pushed).trans (pushArg_gpRegs first other)

/-- Setup sets three registers. -/
theorem machineSetup_gpRegs (done : machineSetup page m argv = .ok m') (sp : r ≠ .sp)
    (a0 : r ≠ .a0) (a1 : r ≠ .a1) : m'.gpRegs r = m.gpRegs r := by
  obtain ⟨⟨stack, mmu, host⟩, -, done⟩ := bind_ok.mp done
  obtain ⟨m₂, looped, done⟩ := bind_ok.mp done
  obtain ⟨m₃, pushed, done⟩ := bind_ok.mp done
  obtain ⟨host₃, -, pushed⟩ := bind_ok.mp pushed
  have before : m₂.gpRegs r = m.gpRegs r := by
    rw [pushAll_gpRegs looped sp]
    exact (Function.update_of_ne sp ..).trans (Function.update_of_ne sp ..)
  have middle : m₃.gpRegs r = m₂.gpRegs r := by
    cases pushed
    exact (Function.update_of_ne a1 ..).trans
      ((Function.update_of_ne a0 ..).trans (Function.update_of_ne sp ..))
  rw [alignStack] at done
  split at done
  · obtain ⟨host₄, -, done⟩ := bind_ok.mp done
    cases done
    exact ((Function.update_of_ne a1 ..).trans (Function.update_of_ne sp ..)).trans
      (middle.trans before)
  · cases done
    exact middle.trans before

end Setup

/-! ## The entry of a file -/

theorem mmuLoadElf_entry {page : PageSize} {file : List U8} {mmu : Mmu} {host : Host}
    {result : Mmu × Host} (load : mmuLoadElf page file mmu host = .ok result) :
    ∃ ehdr, readEhdr file = .ok ehdr ∧ result.1.entry = ehdr.entry := by
  obtain ⟨ehdr, read, rounds⟩ := bind_ok.mp load
  refine ⟨ehdr, read, ?_⟩
  have kept : ∀ (segments : List Phdr) (state : Mmu × Host),
      segments.foldlM (mmuLoadSegment page file) state = .ok result →
        result.1.entry = state.1.entry := by
    intro segments
    induction segments with
    | nil =>
        intro state done
        cases done
        rfl
    | cons phdr segments ih =>
        intro state done
        rw [List.foldlM_cons] at done
        obtain ⟨next, first, rest⟩ := bind_ok.mp done
        rw [ih next rest, (mmuLoadSegment_ok first).1]
  exact kept _ _ (foldlM_mmuLoadRound rounds)

/-! ## The start of the process -/

/-- The machine at a place, as the system calls see it. -/
def Main.machine {σ : Type} (p : Main σ) : Machine :=
  ⟨p.at_.vm.state.gpRegs, p.world.mmu, p.world.host⟩

/-- The process at the entry of its loop: nothing is compiled, the guest has the image of the file
and a stack above it, and is at the entry of the file. -/
structure Started {σ : Type} (page : PageSize) (file : List U8) (argv : Argv) (p : Main σ) :
    Prop where
  outer : ∃ s, p.at_ = .outer ⟨s, newCache⟩
  entry : ∃ ehdr, readEhdr file = .ok ehdr ∧ p.at_.vm.state.pc = ehdr.entry
  gp : ∀ r, r ≠ .sp → r ≠ .a0 → r ≠ .a1 → p.at_.vm.state.gpRegs r = 0
  fp : ∀ r, p.at_.vm.state.fpRegs r = 0
  image : ∀ phdr ∈ loadableSegments file, ∀ k < phdr.memsz.toNat,
    phdr.byte page file k = some (p.at_.vm.state.mem (phdr.vaddr + BitVec.ofNat 64 k))
  stack : ∃ stack, (∀ phdr ∈ loadableSegments file,
      phdr.vaddr.toNat + phdr.memsz.toNat ≤ stack.toNat) ∧
    InitialStack stack argv.strings p.machine
  view : p.at_.vm.state.mem = guestView p.world.host.mem

section Start

variable {σ : Type} {page : PageSize} {files : CString → Option (List U8)} {argv : Argv} {s : σ}
  {p₀ : Main σ} {host : Host} {file : List U8} {loaded : Mmu × Host} {phdr : Phdr}

/-- `main` comes to its loop after loading and setup. -/
theorem mainStart_ok (started : mainStart page files host argv s = .ok p₀) :
    ∃ file loaded m, argv.strings.head?.bind files = some file ∧
      mmuLoadElf page file {} host = .ok loaded ∧
      machineSetup page ⟨fun _ => 0, loaded.1, loaded.2⟩ argv = .ok m ∧
      p₀ = ⟨.outer ⟨⟨.none, 0, m.gpRegs, fun _ => 0, loaded.1.entry, guestView m.host.mem⟩, newCache⟩,
        ⟨m.mmu, m.host, s⟩⟩ := by
  obtain ⟨-, started⟩ := cassert_bind_ok.mp started
  obtain ⟨⟨pc, mmu, host'⟩, load, started⟩ := bind_ok.mp started
  obtain ⟨m, setup, done⟩ := bind_ok.mp started
  cases done
  cases opened : argv.strings.head?.bind files with
  | none =>
      rw [opened] at load
      cases load
  | some file =>
      rw [opened] at load
      obtain ⟨⟨mmu', host₁⟩, load, done⟩ := bind_ok.mp load
      cases done
      exact ⟨file, _, m, rfl, load, setup, rfl⟩

/-- What setup leaves when the process comes to its loop. -/
theorem reserved_of_started (opened : argv.strings.head?.bind files = some file)
    (load : mmuLoadElf page file {} emptyHost = .ok loaded)
    (started : mainStart page files emptyHost argv s = .ok p₀) :
    AtStart page loaded.1 ∧
      Reserved page loaded.1 loaded.2.mem (stackBytes + total argv.strings) p₀.machine := by
  obtain ⟨file', loaded', m, opened', load', setup, rfl⟩ := mainStart_ok started
  cases opened.symm.trans opened'
  cases load.symm.trans load'
  exact reserved_of_setup load setup

/-- The host allocation ends at a page when the process comes to its loop. -/
theorem aligned_of_started (started : mainStart page files emptyHost argv s = .ok p₀) :
    page.bytes ∣ p₀.world.mmu.hostAlloc.toNat := by
  obtain ⟨file, loaded, m, opened, load, -, -⟩ := mainStart_ok started
  obtain ⟨at', reserved⟩ := reserved_of_started opened load started
  have end' : p₀.world.mmu.hostAlloc.toNat = _ := reserved.grown.hostAlloc
  rw [end']
  exact Nat.dvd_add at'.aligned dvd_ceil

/-- The bytes of a loaded segment are below the end of the host allocation. -/
theorem Loaded.inside (done : Loaded page file (loadableSegments file) loaded)
    (valid : phdr.Valid page file) (member : phdr ∈ loadableSegments file) {k : Nat}
    (inside : k < phdr.memsz.toNat) :
    (toHost (phdr.vaddr + BitVec.ofNat 64 k)).toNat < loaded.1.hostAlloc.toNat := by
  have reach := valid.end_le
  have below := done.below phdr member
  have last : phdr.vaddr.toNat + phdr.memsz.toNat ≤ phdr.pageEnd page := le_ceil page.bytes_pos
  have lt := loaded.1.hostAlloc.isLt
  have guest : (phdr.vaddr + BitVec.ofNat 64 k).toNat = phdr.vaddr.toNat + k := by
    rw [BitVec.toNat_add, BitVec.toNat_ofNat]
    omega
  rw [toNat_toHost (by omega), guest]
  omega

/-- **The start of the process.** For a valid file and arguments that fit the stack, the guest
finds its registers cleared but for the stack and the arguments, the image of the file in memory,
and its stack above that. -/
theorem main_starts (opened : argv.strings.head?.bind files = some file)
    (valid : ValidElf page file) (wide : 16 ∣ page.bytes)
    (room : 8 * (argv.strings.length + 4) ≤ stackSize.toNat)
    (started : mainStart page files emptyHost argv s = .ok p₀) : Started page file argv p₀ := by
  obtain ⟨file', loaded, m, opened', load, setup, rfl⟩ := mainStart_ok started
  cases opened.symm.trans opened'
  obtain ⟨at', -⟩ := reserved_of_setup load setup
  have done := mmuLoadElf_loaded valid load
  refine ⟨⟨_, rfl⟩, mmuLoadElf_entry load, fun r sp a0 a1 => machineSetup_gpRegs setup sp a0 a1,
    fun r => rfl, fun phdr member k inside => ?_, ⟨loaded.1.alloc, fun phdr member => ?_, ?_⟩, rfl⟩
  · have here := valid.segments phdr member
    have byte := done.bytes phdr member k inside
    have kept : m.host.mem (toHost (phdr.vaddr + BitVec.ofNat 64 k)) = phdr.byte page file k :=
      (machineSetup_below at' wide room setup (done.inside here member inside)).trans byte
    have some' : (phdr.byte page file k).isSome := by
      by_cases inFile : k < phdr.filesz.toNat
      · have present := here.present
        rw [here.byte_of_lt inFile, List.getElem?_eq_getElem (by omega)]
        rfl
      · rw [here.byte_of_ge k]
        rfl
    obtain ⟨v, value⟩ := Option.isSome_iff_exists.mp some'
    change _ = some ((m.host.mem _).getD 0)
    rw [kept, value]
    rfl
  · have below := done.below phdr member
    have last : phdr.vaddr.toNat + phdr.memsz.toNat ≤ phdr.pageEnd page := le_ceil page.bytes_pos
    simp only at below
    rw [at'.guest, toGuest, toNat_sub_of_le (by omega)]
    omega
  · exact machineSetup_ok at' wide room setup

/-- A file of a header, one program header, and the code `li a0, 0`, `li a7, 214`, `ecall`,
`li a7, 93`, `ecall`. Its segment is the whole file, at guest address `0x10000`. -/
def brkElf : List U8 :=
  [0x7f, 0x45, 0x4c, 0x46, 2, 1, 1, 0, 0, 0, 0, 0, 0, 0, 0, 0,
   2, 0, 243, 0, 1, 0, 0, 0, 0x78, 0, 1, 0, 0, 0, 0, 0,
   64, 0, 0, 0, 0, 0, 0, 0, 0, 0, 0, 0, 0, 0, 0, 0,
   0, 0, 0, 0, 64, 0, 56, 0, 1, 0, 0, 0, 0, 0, 0, 0,
   1, 0, 0, 0, 6, 0, 0, 0, 0, 0, 0, 0, 0, 0, 0, 0,
   0, 0, 1, 0, 0, 0, 0, 0, 0, 0, 1, 0, 0, 0, 0, 0,
   140, 0, 0, 0, 0, 0, 0, 0, 140, 0, 0, 0, 0, 0, 0, 0,
   0, 16, 0, 0, 0, 0, 0, 0, 0x13, 0x05, 0, 0, 0x93, 0x08, 0x60, 0x0d,
   0x73, 0, 0, 0, 0x93, 0x08, 0xd0, 0x05, 0x73, 0, 0, 0]

set_option maxRecDepth 10000 in
theorem loadableSegments_brkElf : loadableSegments brkElf = [⟨1, 6, 0, 0x10000, 140, 140⟩] := rfl

set_option maxRecDepth 10000 in
theorem valid_brkElf : ValidElf page4096 brkElf := by
  constructor
  · intro phdr member
    rw [loadableSegments_brkElf, List.mem_singleton] at member
    subst member
    exact ⟨by decide, by decide, by decide, by decide, by decide⟩
  · rw [loadableSegments_brkElf]
    exact List.pairwise_singleton ..

set_option maxRecDepth 10000 in
/-- A program and one argument. -/
theorem main_starts_brkElf : ∃ p₀ : Main Unit,
    mainStart page4096 (fun _ => some brkElf) emptyHost twoStrings () = .ok p₀ ∧
      Started page4096 brkElf twoStrings p₀ := by
  obtain ⟨p₀, started⟩ : ∃ p₀,
    mainStart page4096 (fun _ => some brkElf) emptyHost twoStrings () = .ok p₀ := ⟨_, rfl⟩
  exact ⟨p₀, started, main_starts rfl valid_brkElf (by decide) (by decide) started⟩

end Start

end RiscvEmu
