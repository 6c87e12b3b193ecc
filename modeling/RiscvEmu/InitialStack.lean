import Mathlib.Algebra.Order.BigOperators.Group.List
import RiscvEmu.SetupLayout

/-!
# The initial stack

The end of `machine_setup` pushes the number of arguments and moves the frame down to
an aligned address (`Finished`). `InitialStack` says what the program then finds: its
registers, the words of the frame, and a copy of every argument.

* `machineSetup_layout`: after `machine_setup` that is so, for every program and every
  list of arguments whose frame fits the stack.
-/

set_option autoImplicit false

namespace RiscvEmu

open Alignment Paging

/-! ## The end of setup -/

/-- The whole frame: the number of arguments, the pointers and the terminators. -/
def stackFrame (start : Mmu) (strings : List CString) : List U8 :=
  leBytes (BitVec.ofNat 64 strings.length) ++ frameBytes start strings

/-- The frame at an offset, with the registers that describe it. -/
structure Finished (start : Mmu) (strings : List CString) (d : Nat) (m : Machine) : Prop where
  sp : m.gpRegs .sp = start.guestAt d
  a0 : m.gpRegs .a0 = BitVec.ofNat 64 strings.length
  a1 : m.gpRegs .a1 = m.gpRegs .sp + argcSize
  frame : m.host.mem.Holds (start.hostAt d) (stackFrame start strings)
  copies : ∀ placed ∈ strings.zip (offsets strings),
    m.host.mem.Holds (start.hostAt placed.2) (placed.1.bytes ++ [0])
  stack : ∀ d < stackBytes, (m.host.mem (start.hostAt d)).isSome

section Finish

variable {page : PageSize} {start : Mmu} {m m' : Machine} {host host' : Host} {d : Nat}
  {strings : List CString} {target source : U64} {data : List U8}

theorem length_stackFrame : (stackFrame start strings).length = 8 * (strings.length + 4) := by
  rw [stackFrame, List.length_append, length_leBytes, length_frameBytes]
  omega

theorem frameOffset_eq (room : 8 * (strings.length + 4) ≤ stackBytes) :
    frameOffset strings = stackBytes - 8 * (strings.length + 4) + 8 := by
  rw [frameOffset]
  omega

/-- The number of arguments goes below the frame. -/
theorem Frame.argc_slot (frame : Frame page start strings m)
    (room : 8 * (strings.length + 4) ≤ stackBytes) :
    m.gpRegs .sp - argcSize = start.guestAt (stackBytes - 8 * (strings.length + 4)) := by
  have eight : BitVec.ofNat 64 8 = argcSize := rfl
  rw [frame.sp, frameOffset_eq room, Mmu.guestAt, Mmu.guestAt, BitVec.ofNat_add,
    ← BitVec.add_assoc, eight, BitVec.add_sub_cancel]

theorem Frame.pushArgc (at' : AtStart page start) (frame : Frame page start strings m)
    (room : 8 * (strings.length + 4) ≤ stackBytes)
    (pushed : pushArgc m (BitVec.ofNat 64 strings.length) = .ok m') :
    Finished start strings (stackBytes - 8 * (strings.length + 4)) m' := by
  have stackBytes_eq : stackBytes = 2 ^ 25 := rfl
  obtain ⟨host', stored, done⟩ := bind_ok.mp pushed
  have stored := mmuWrite_ok stored
  have sp : Function.update m.gpRegs Reg.sp (m.gpRegs .sp - argcSize) Reg.sp =
      m.gpRegs .sp - argcSize := Function.update_self ..
  simp only [Machine.setGp, sp] at stored
  have slot := frameOffset_eq room
  have sp' := frame.argc_slot room
  rw [sp', at'.toHost_offset] at stored
  have fits := frame.grown.hostAlloc ▸ m.mmu.hostAlloc.isLt
  have covers : stackBytes + total strings ≤ ceil (stackBytes + total strings) page.bytes :=
    le_ceil page.bytes_pos
  have here := start.toNat_hostAt (d := stackBytes - 8 * (strings.length + 4)) (by omega)
  have words := length_leBytes (BitVec.ofNat 64 strings.length)
  cases done
  refine ⟨sp.trans sp', rfl, rfl, holds_append.mpr ⟨write_holds stored (by omega), ?_⟩, ?_,
    fun d below => (write_isSome stored).trans (frame.stack d below)⟩
  · have above := start.toNat_hostAt (d := frameOffset strings) (by omega)
    have frameLength : (frameBytes start strings).length = 8 * strings.length + 24 :=
      length_frameBytes
    rw [length_leBytes, Mmu.hostAt_add, ← slot]
    exact frame.frame.write stored (by omega) (by omega) (by omega)
  · intro placed member
    have placedAt := mem_offsets member
    have length : (placed.1.bytes ++ [0]).length = placed.1.size := List.length_append
    have above := start.toNat_hostAt (d := placed.2) (by omega)
    exact (frame.copies placed member).write stored (by omega) (by omega) (by omega)

theorem Frame.pushArgc_returns (at' : AtStart page start) (frame : Frame page start strings m)
    (room : 8 * (strings.length + 4) ≤ stackBytes) (args : U64) :
    ∃ m', RiscvEmu.pushArgc m args = .ok m' := by
  obtain ⟨host', stored, -⟩ : ∃ host', mmuWrite m.host (m.gpRegs .sp - argcSize) (leBytes args) =
      .ok host' ∧ _ := by
    apply mmuWrite_of_mapped
    intro i inside
    rw [length_leBytes] at inside
    rw [frame.argc_slot room, at'.toHost_offset, Mmu.hostAt_add]
    exact frame.stack _ (by omega)
  refine ⟨_, bind_ok.mpr ⟨host', ?_, rfl⟩⟩
  simpa only [Machine.setGp, Function.update_self] using stored

theorem memmove_ok (holds : host.mem.Holds source data)
    (moved : memmove host target source data.length = .ok host') :
    host.mem.write target data = some host'.mem := by
  rw [memmove, holds.read, Option.bind_eq_bind, Option.bind_some] at moved
  cases result : host.mem.write target data with
  | none =>
      rw [result] at moved
      cases moved
  | some mem =>
      rw [result] at moved
      cases moved
      rfl

theorem memmove_of_mapped (holds : host.mem.Holds source data)
    (mapped : host.mem.Mapped target data.length) :
    ∃ host', memmove host target source data.length = .ok host' := by
  obtain ⟨mem, written⟩ := write_of_mapped mapped
  have both : (host.mem.read source data.length >>= host.mem.write target) = some mem := by
    rw [holds.read]
    exact written
  refine ⟨{ host with mem := mem }, ?_⟩
  rw [memmove, both]

/-- The number of bytes that are moved is that of the frame. -/
theorem toNat_used (room : 8 * (strings.length + 4) ≤ stackBytes)
    (offset : stackBytes - 8 * (strings.length + 4) = d)
    (fits : start.alloc.toNat + stackBytes < 2 ^ 64) :
    (start.alloc + stackSize - start.guestAt d).toNat = (stackFrame start strings).length := by
  have top : (start.alloc + stackSize).toNat = start.alloc.toNat + stackBytes :=
    start.toNat_guestAt fits
  have here := start.toNat_guestAt (d := d) (by omega)
  rw [toNat_sub_of_le (by omega), top, here, length_stackFrame]
  omega

/-- The stack pointer rounded down. -/
theorem guestAt_aligned (aligned : 16 ∣ start.alloc.toNat) (fits : start.alloc.toNat + d < 2 ^ 64) :
    start.guestAt d &&& ~~~0xf = start.guestAt (d / 16 * 16) := by
  have power : PowerOfTwo (16 : U64) := ⟨4, by decide, rfl⟩
  have down : start.guestAt d &&& ~~~0xf = down (start.guestAt d) 16 := rfl
  have below : d / 16 * 16 ≤ d := Nat.div_mul_le_self ..
  have unit : (16 : U64).toNat = 16 := rfl
  apply BitVec.eq_of_toNat_eq
  rw [down, toNat_down power, start.toNat_guestAt fits, start.toNat_guestAt (by omega), unit,
    floor_add_of_dvd (by decide) aligned, floor]

theorem Finished.align (at' : AtStart page start) (wide : 16 ∣ page.bytes)
    (frame : Finished start strings (stackBytes - 8 * (strings.length + 4)) m)
    (room : 8 * (strings.length + 4) ≤ stackBytes)
    (fits : start.alloc.toNat + (stackBytes + total strings) < 2 ^ 64)
    (fits' : start.hostAlloc.toNat + (stackBytes + total strings) < 2 ^ 64)
    (done : alignStack m start.alloc = .ok m') :
    Finished start strings ((stackBytes - 8 * (strings.length + 4)) / 16 * 16) m' := by
  generalize offset : stackBytes - 8 * (strings.length + 4) = d at frame ⊢
  have aligned : 16 ∣ start.alloc.toNat := wide.trans at'.aligned'
  have below : d / 16 * 16 ≤ d := Nat.div_mul_le_self ..
  have round := guestAt_aligned (d := d) aligned (by omega)
  rw [alignStack, frame.sp, round] at done
  by_cases moves : start.guestAt (d / 16 * 16) ≠ start.guestAt d
  · rw [if_pos moves] at done
    obtain ⟨host', moved, done⟩ := bind_ok.mp done
    rw [toNat_used room offset (by omega), at'.toHost_offset, at'.toHost_offset] at moved
    have written := memmove_ok frame.frame moved
    have length : (stackFrame start strings).length = 8 * (strings.length + 4) :=
      length_stackFrame
    have here := start.toNat_hostAt (d := d / 16 * 16) (by omega)
    cases done
    refine ⟨rfl, frame.a0, rfl, write_holds written (by omega), ?_,
      fun d below => (write_isSome written).trans (frame.stack d below)⟩
    intro placed member
    have placedAt := mem_offsets member
    have size : (placed.1.bytes ++ [0]).length = placed.1.size := List.length_append
    have above := start.toNat_hostAt (d := placed.2) (by omega)
    exact (frame.copies placed member).write written (by omega) (by omega) (by omega)
  · rw [if_neg moves] at done
    cases done
    have same : d / 16 * 16 = d := by
      have equal := congrArg BitVec.toNat (not_not.mp moves)
      rw [start.toNat_guestAt (by omega), start.toNat_guestAt (by omega)] at equal
      omega
    rw [same]
    exact frame

theorem Finished.align_returns (at' : AtStart page start) (wide : 16 ∣ page.bytes)
    (frame : Finished start strings (stackBytes - 8 * (strings.length + 4)) m)
    (room : 8 * (strings.length + 4) ≤ stackBytes)
    (fits : start.alloc.toNat + stackBytes < 2 ^ 64) :
    ∃ m', alignStack m start.alloc = .ok m' := by
  generalize offset : stackBytes - 8 * (strings.length + 4) = d at frame
  have round := guestAt_aligned (d := d) (wide.trans at'.aligned') (by omega)
  rw [alignStack, frame.sp, round]
  split_ifs with moves
  · have below : d / 16 * 16 ≤ d := Nat.div_mul_le_self ..
    have length : (stackFrame start strings).length = 8 * (strings.length + 4) :=
      length_stackFrame
    have mapped : m.host.mem.Mapped (start.hostAt (d / 16 * 16))
        (stackFrame start strings).length := by
      intro i inside
      rw [Mmu.hostAt_add]
      exact frame.stack _ (by omega)
    obtain ⟨host', moved⟩ := memmove_of_mapped frame.frame mapped
    rw [← toNat_used room offset fits, ← at'.toHost_offset, ← at'.toHost_offset] at moved
    exact ⟨_, bind_ok.mpr ⟨host', moved, rfl⟩⟩
  · exact ⟨m, rfl⟩

/-! ## The words of the frame -/

/-- The words of the frame. -/
def frameWords (start : Mmu) (strings : List CString) : List U64 :=
  BitVec.ofNat 64 strings.length :: (offsets strings).map start.guestAt ++ [0, 0, 0]

theorem stackFrame_eq : stackFrame start strings = (frameWords start strings).flatMap leBytes := by
  have zeros : List.replicate 24 0 = [0, 0, 0].flatMap leBytes := by decide
  have words : frameWords start strings =
      BitVec.ofNat 64 strings.length :: ((offsets strings).map start.guestAt ++ [0, 0, 0]) := rfl
  rw [words, List.flatMap_cons, List.flatMap_append, List.flatMap_map, ← zeros]
  rfl

/-- A block of words holds each of them. -/
theorem holds_word {words : List U64} {mem : Space} (holds : mem.Holds (start.hostAt d)
    (words.flatMap leBytes)) {k : Nat} {word : U64} (at_ : words[k]? = some word) :
    mem.Holds (start.hostAt (d + 8 * k)) (leBytes word) := by
  induction words generalizing d k with
  | nil => cases at_
  | cons first words ih =>
      obtain ⟨here, rest⟩ := holds_append.mp holds
      cases k with
      | zero =>
          cases at_
          exact here
      | succ k =>
          rw [length_leBytes, Mmu.hostAt_add] at rest
          have next := ih rest at_
          rwa [Nat.add_assoc, Nat.add_comm 8, ← Nat.mul_succ] at next

end Finish

/-- The word at a guest address. -/
def Machine.Word (m : Machine) (addr value : U64) : Prop :=
  m.host.mem.Holds (toHost addr) (leBytes value)

/-- The stack that a program is started with. -/
structure InitialStack (stack : U64) (strings : List CString) (m : Machine) : Prop where
  aligned : m.gpRegs .sp &&& 0xf = 0
  /-- The frame lies in the stack. -/
  inside : stack.toNat ≤ (m.gpRegs .sp).toNat ∧
    (m.gpRegs .sp).toNat + 8 * (strings.length + 4) ≤ stack.toNat + stackSize.toNat
  argc : m.Word (m.gpRegs .sp) (BitVec.ofNat 64 strings.length)
  a0 : m.gpRegs .a0 = BitVec.ofNat 64 strings.length
  a1 : m.gpRegs .a1 = m.gpRegs .sp + 8
  /-- The ends of `argv`, `envp` and `auxv`. -/
  terminators : ∀ i < 3, m.Word (m.gpRegs .a1 + BitVec.ofNat 64 (8 * (strings.length + i))) 0
  /-- Each argument is copied to a place of its own. -/
  copies : ∃ copy : Nat → U64, ∀ k (bound : k < strings.length),
    m.Word (m.gpRegs .a1 + BitVec.ofNat 64 (8 * k)) (copy k) ∧
    m.host.mem.Holds (toHost (copy k)) (strings[k].bytes ++ [0]) ∧
    (∀ x, InRange (copy k) strings[k].size x → ¬ InRange stack stackSize.toNat x) ∧
    ∀ j (bound' : j < strings.length), j ≠ k →
      ∀ x, InRange (copy k) strings[k].size x → ¬ InRange (copy j) strings[j].size x

section Layout

variable {page : PageSize} {start : Mmu} {m m' : Machine} {d : Nat} {strings : List CString}

/-- The offset of the copy of an argument. -/
def offsetOf (strings : List CString) (k : Nat) : Nat := ((offsets strings)[k]?).getD 0

theorem offsets_getElem? {k : Nat} (bound : k < strings.length) :
    (offsets strings)[k]? = some (offsetOf strings k) := by
  have inside : k < (offsets strings).length := length_offsets.symm ▸ bound
  rw [offsetOf, List.getElem?_eq_getElem inside, Option.getD_some]

theorem mem_zip_offsets {k : Nat} (bound : k < strings.length) :
    (strings[k], offsetOf strings k) ∈ strings.zip (offsets strings) := by
  rw [List.mem_iff_getElem?]
  exact ⟨k, List.getElem?_zip_eq_some.mpr
    ⟨List.getElem?_eq_getElem bound, offsets_getElem? bound⟩⟩

/-- An argument is copied above the arguments after it. -/
theorem offsets_apart {j k : Nat} (less : j < k) (bound : k < strings.length) :
    offsetOf strings k + strings[k].size ≤ offsetOf strings j := by
  induction strings generalizing j k with
  | nil => cases bound
  | cons s rest ih =>
      obtain ⟨k, rfl⟩ : ∃ k', k = k' + 1 := ⟨k - 1, by omega⟩
      have bound' : k < rest.length := Nat.lt_of_succ_lt_succ bound
      cases j with
      | zero => exact (mem_offsets (mem_zip_offsets bound')).2
      | succ j => exact ih (Nat.lt_of_succ_lt_succ less) bound'

theorem Finished.initialStack (at' : AtStart page start) (finished : Finished start strings d m)
    (aligned : 16 ∣ start.alloc.toNat + d) (inside : d + 8 * (strings.length + 4) ≤ stackBytes)
    (fits : start.alloc.toNat + (stackBytes + total strings) < 2 ^ 64) :
    InitialStack start.alloc strings m := by
  have size : stackSize.toNat = stackBytes := rfl
  have word : ∀ {k : Nat} {value : U64}, (frameWords start strings)[k]? = some value →
      m.Word (m.gpRegs .sp + BitVec.ofNat 64 (8 * k)) value := by
    intro k value at_
    have held := holds_word (stackFrame_eq ▸ finished.frame) at_
    rw [Machine.Word, finished.sp, Mmu.guestAt, BitVec.add_assoc, ← BitVec.ofNat_add]
    rw [← at'.toHost_offset] at held
    exact held
  have argument : ∀ k, m.gpRegs .a1 + BitVec.ofNat 64 (8 * k) =
      m.gpRegs .sp + BitVec.ofNat 64 (8 * (k + 1)) := by
    intro k
    have eight : BitVec.ofNat 64 8 = argcSize := rfl
    rw [finished.a1, BitVec.add_assoc, ← eight, ← BitVec.ofNat_add, Nat.mul_succ, Nat.add_comm]
  have sp : (m.gpRegs .sp).toNat = start.alloc.toNat + d := by
    rw [finished.sp, start.toNat_guestAt (by omega)]
  refine ⟨?_, by omega, ?_, finished.a0, finished.a1, ?_, ?_⟩
  · apply BitVec.eq_of_toNat_eq
    have mask : (0xf : U64).toNat = 2 ^ 4 - 1 := rfl
    rw [BitVec.toNat_and, mask, Nat.and_two_pow_sub_one_eq_mod, sp]
    exact Nat.mod_eq_zero_of_dvd aligned
  · have first : m.Word (m.gpRegs .sp + BitVec.ofNat 64 (8 * 0)) _ := word rfl
    rwa [Nat.mul_zero, BitVec.add_zero] at first
  · intro i small
    rw [argument]
    apply word
    rw [frameWords, List.cons_append, List.getElem?_cons_succ, List.getElem?_append_right
      (by rw [List.length_map, length_offsets]; omega), List.length_map, length_offsets,
      Nat.add_sub_cancel_left]
    have zeros : ∀ i < 3, ([0, 0, 0] : List U64)[i]? = some 0 := by decide
    exact zeros i small
  · -- a block of the guest is an interval
    have interval : ∀ k (bound : k < strings.length) (x : U64),
        InRange (start.guestAt (offsetOf strings k)) strings[k].size x ↔
          start.alloc.toNat + offsetOf strings k ≤ x.toNat ∧
          x.toNat < start.alloc.toNat + offsetOf strings k + strings[k].size := by
      intro k bound x
      have placed := mem_offsets (mem_zip_offsets bound)
      simp only at placed
      have here := start.toNat_guestAt (d := offsetOf strings k) (by omega)
      rw [inRange_iff (by omega), here]
    refine ⟨fun k => start.guestAt (offsetOf strings k), fun k bound => ⟨?_, ?_, ?_, ?_⟩⟩
    · rw [argument]
      apply word
      have inside : k < ((offsets strings).map start.guestAt).length := by
        rw [List.length_map, length_offsets]
        exact bound
      rw [frameWords, List.cons_append, List.getElem?_cons_succ, List.getElem?_append_left inside,
        List.getElem?_map, offsets_getElem? bound]
      rfl
    · rw [at'.toHost_offset]
      exact finished.copies _ (mem_zip_offsets bound)
    · intro x inCopy inStack
      have placed := mem_offsets (mem_zip_offsets bound)
      rw [interval k bound] at inCopy
      rw [size, inRange_iff (by omega)] at inStack
      simp only at placed
      omega
    · intro j bound' other x inCopy inOther
      rw [interval k bound] at inCopy
      rw [interval j bound'] at inOther
      rcases Nat.lt_or_gt_of_ne other with less | more
      · have apart := offsets_apart less bound
        omega
      · have apart := offsets_apart more bound'
        omega

/-- The stack before the loop, after `mmu_alloc` has returned it. -/
theorem setup_empty {stack : U64} {mmu : Mmu} {host : Host} (at' : AtStart page m.mmu)
    (called : mmuAlloc page m.mmu m.host stackSize = .ok (stack, mmu, host)) :
    let m₁ := { m with mmu := mmu, host := host }.setGp .sp (stack + stackSize)
    stack = m.mmu.alloc ∧ Frame page m.mmu []
      (m₁.setGp .sp (m₁.gpRegs .sp - (auxvSize + envpSize + argvEndSize))) := by
  apply Frame.empty at' called rfl rfl
  simp only [Machine.setGp, Function.update_self]

/-- Setup from a break that nothing has been allocated from. -/
theorem machineSetup_ok (at' : AtStart page m.mmu) (wide : 16 ∣ page.bytes) {argv : Argv}
    (room : 8 * (argv.strings.length + 4) ≤ stackBytes)
    (done : machineSetup page m argv = .ok m') : InitialStack m.mmu.alloc argv.strings m' := by
  obtain ⟨⟨stack, mmu, host⟩, called, done⟩ := bind_ok.mp done
  obtain ⟨m₂, looped, done⟩ := bind_ok.mp done
  obtain ⟨m₃, pushed, done⟩ := bind_ok.mp done
  have bounded : total argv.strings < 2 ^ 63 := argv.bounded
  obtain ⟨stack_eq, empty⟩ := setup_empty at' called
  have frame := empty.pushAll at' room bounded looped
  have finished := frame.pushArgc at' room pushed
  have fits := frame.grown.alloc ▸ m₂.mmu.alloc.isLt
  have fits' := frame.grown.hostAlloc ▸ m₂.mmu.hostAlloc.isLt
  have covers : stackBytes + total argv.strings ≤
      ceil (stackBytes + total argv.strings) page.bytes := le_ceil page.bytes_pos
  rw [stack_eq] at done
  have aligned := finished.align at' wide room (by omega) (by omega) done
  have stackBytes_eq : stackBytes = 2 ^ 25 := rfl
  have below := Nat.div_mul_le_self (stackBytes - 8 * (argv.strings.length + 4)) 16
  refine aligned.initialStack at' ?_ (by omega) (by omega)
  exact Nat.dvd_add (wide.trans at'.aligned') (Nat.dvd_mul_left ..)

/-- Setup returns when the address space is not exhausted. -/
theorem machineSetup_returns (at' : AtStart page m.mmu) (wide : 16 ∣ page.bytes) {argv : Argv}
    (room : 8 * (argv.strings.length + 4) ≤ stackBytes)
    (space : m.mmu.alloc.toNat + stackBytes + total argv.strings < 2 ^ 62) :
    ∃ m', machineSetup page m argv = .ok m' := by
  have size : stackSize.toNat = stackBytes := rfl
  obtain ⟨stack, mmu, host, called⟩ : ∃ stack mmu host, mmuAlloc page m.mmu m.host stackSize =
      .ok (stack, mmu, host) := Grown.zero.returns at' (by omega)
  obtain ⟨stack_eq, empty⟩ := setup_empty at' called
  obtain ⟨m₂, looped⟩ := empty.pushAll_returns at' room space
  have frame := empty.pushAll at' room argv.bounded looped
  obtain ⟨m₃, pushed⟩ := frame.pushArgc_returns at' room (BitVec.ofNat 64 argv.strings.length)
  have finished := frame.pushArgc at' room pushed
  obtain ⟨m', aligned⟩ := finished.align_returns at' wide room (by omega)
  rw [← stack_eq] at aligned
  exact ⟨m', bind_ok.mpr ⟨_, called, bind_ok.mpr ⟨m₂, looped, bind_ok.mpr ⟨m₃, pushed, aligned⟩⟩⟩⟩

theorem atStart_of_loaded {file : List U8} {mmu : Mmu} {host host' : Host}
    (loaded : mmuLoadElf page file {} host = .ok (mmu, host'))
    (segment : loadableSegments file ≠ []) : AtStart page mmu := by
  have settled := mmuLoadElf_settled loaded
  obtain ⟨base, alloc⟩ := settled.break_eq segment
  exact ⟨base.trans alloc.symm, alloc, settled.aligned⟩

end Layout

/-! ## A file without segments -/

section Unloaded

variable {page : PageSize} {m m' : Machine} {mmu mmu' : Mmu} {host host' : Host}

/-- A host that maps nothing for the guest, and a break that starts at zero. -/
structure Unloaded (mmu : Mmu) (host : Host) : Prop where
  hostAlloc : mmu.hostAlloc = 0
  mem : ∀ x, host.mem x = none

/-- An allocation below the end of the address space, seen from the guest, maps nothing. -/
theorem Unloaded.alloc (unloaded : Unloaded mmu host) {size result : U64}
    (positive : 0 < size.toNat) (small : size.toNat < 2 ^ 63)
    (below : mmu.alloc.toNat + size.toNat < 2 ^ 63 + 2 ^ 26)
    (called : mmuAlloc page mmu host size = .ok (result, mmu', host')) :
    Unloaded mmu' host' ∧ mmu'.alloc.toNat = mmu.alloc.toNat + size.toNat := by
  obtain ⟨-, -, alloc, -, -, moved⟩ := mmuAlloc_ok called
  have sum : (mmu.alloc + size).toNat = mmu.alloc.toNat + size.toNat := by
    rw [BitVec.toNat_add]
    omega
  have guest : (toGuest mmu.hostAlloc).toNat = 2 ^ 64 - 0x088800000000 := by
    rw [unloaded.hostAlloc]
    rfl
  refine ⟨?_, alloc ▸ sum⟩
  cases moved with
  | grow grows =>
      have past := BitVec.lt_def.mp grows.2
      omega
  | shrink shrinks => exact absurd shrinks.1 (slt_of_small positive small).2
  | stay _ _ hostAlloc mem => exact ⟨hostAlloc.trans unloaded.hostAlloc, mem ▸ unloaded.mem⟩

theorem Unloaded.mmuWrite (unloaded : Unloaded mmu host) {addr : U64} {data : List U8}
    (nonempty : 0 < data.length) : mmuWrite host addr data ≠ .ok host' := by
  intro written
  have mapped := (write_ok (mmuWrite_ok written)).1 0 nonempty
  rw [unloaded.mem] at mapped
  cases mapped

/-- Without memory for the guest setup dies at the first word of the stack. -/
theorem machineSetup_unloaded (unloaded : Unloaded m.mmu m.host) (start : m.mmu.alloc = 0)
    (argv : Argv) : machineSetup page m argv ≠ .ok m' := by
  intro done
  obtain ⟨⟨stack, mmu, host⟩, called, done⟩ := bind_ok.mp done
  obtain ⟨m₂, looped, done⟩ := bind_ok.mp done
  obtain ⟨m₃, pushed, -⟩ := bind_ok.mp done
  have size : stackSize.toNat = 2 ^ 25 := rfl
  have zero : m.mmu.alloc.toNat = 0 := by
    rw [start]
    rfl
  obtain ⟨unloaded₁, alloc⟩ := unloaded.alloc (by omega) (by omega) (by omega) called
  -- the last argument is pushed first
  cases strings : argv.strings.reverse with
  | nil =>
      rw [strings] at looped
      cases looped
      obtain ⟨host', stored, -⟩ := bind_ok.mp pushed
      exact unloaded₁.mmuWrite (by rw [length_leBytes]; decide) stored
  | cons s rest =>
      rw [strings, List.foldlM_cons] at looped
      obtain ⟨m₄, first, -⟩ := bind_ok.mp looped
      have member : s ∈ argv.strings := by
        rw [← List.mem_reverse, strings]
        exact List.mem_cons_self ..
      have bounded : s.size < 2 ^ 63 :=
        Nat.lt_of_le_of_lt (List.le_sum_of_mem (List.mem_map_of_mem member))
          argv.bounded
      have positive : s.size = s.bytes.length + 1 := rfl
      obtain ⟨⟨addr, mmu', host₁⟩, called', first⟩ := bind_ok.mp first
      obtain ⟨host₂, copied, first⟩ := bind_ok.mp first
      obtain ⟨host₃, stored, -⟩ := bind_ok.mp first
      have toNat := s.toNat_size bounded
      obtain ⟨unloaded₂, -⟩ := unloaded₁.alloc (by omega) (by omega) (by omega) called'
      have unloaded₃ : Unloaded mmu' host₂ := by
        refine ⟨unloaded₂.hostAlloc, fun x => ?_⟩
        have same := write_isSome (x := x) (mmuWrite_ok copied)
        rw [unloaded₂.mem] at same
        exact Option.not_isSome_iff_eq_none.mp (by simp [same])
      exact unloaded₃.mmuWrite (by rw [length_leBytes]; decide) stored

end Unloaded

/-- **The initial stack.** After loading a program into an empty guest memory, setup
leaves the stack described by `InitialStack` for every list of arguments whose frame
fits the stack; and when a segment has been loaded and the address space is not
exhausted, setup returns. -/
theorem machineSetup_layout {page : PageSize} {file : List U8} {mmu : Mmu} {host : Host}
    (gpRegs : Reg → U64) (argv : Argv) (wide : 16 ∣ page.bytes)
    (loaded : mmuLoadElf page file {} emptyHost = .ok (mmu, host))
    (room : 8 * (argv.strings.length + 4) ≤ stackSize.toNat) :
    (∀ m', machineSetup page ⟨gpRegs, mmu, host⟩ argv = .ok m' →
      InitialStack mmu.alloc argv.strings m') ∧
    (loadableSegments file ≠ [] →
      mmu.alloc.toNat + stackSize.toNat + (argv.strings.map CString.size).sum < 2 ^ 62 →
      ∃ m', machineSetup page ⟨gpRegs, mmu, host⟩ argv = .ok m') := by
  constructor
  · intro m' done
    by_cases segment : loadableSegments file = []
    · obtain ⟨entry, empty⟩ := mmuLoadElf_ok loaded
      rw [segment] at empty
      cases empty
      exact absurd done (machineSetup_unloaded ⟨rfl, fun x => rfl⟩ rfl argv)
    · exact machineSetup_ok (atStart_of_loaded loaded segment) wide room done
  · intro segment space
    have at' : AtStart page (Machine.mk gpRegs mmu host).mmu := atStart_of_loaded loaded segment
    exact machineSetup_returns at' wide room space

/-- `prog x`. -/
def twoStrings : Argv where
  strings := [⟨[0x70, 0x72, 0x6f, 0x67], by decide⟩, ⟨[0x78], by decide⟩]
  bounded := by decide

set_option maxRecDepth 4000 in
/-- A small program with one argument. -/
theorem machineSetup_layout_twoStrings : ∃ mmu host m',
    mmuLoadElf page4096 (oneSegmentElf 120 160) {} emptyHost = .ok (mmu, host) ∧
      machineSetup page4096 ⟨fun _ => 0, mmu, host⟩ twoStrings = .ok m' ∧
      InitialStack mmu.alloc twoStrings.strings m' := by
  have segment : loadableSegments (oneSegmentElf 120 160) ≠ [] := by
    rw [loadableSegments_oneSegmentElf_full]
    simp
  obtain ⟨mmu, host, loaded, space⟩ : ∃ mmu host,
      mmuLoadElf page4096 (oneSegmentElf 120 160) {} emptyHost = .ok (mmu, host) ∧
        mmu.alloc.toNat + stackSize.toNat + (twoStrings.strings.map CString.size).sum < 2 ^ 62 :=
    ⟨_, _, rfl, by decide⟩
  obtain ⟨layout, returns⟩ :=
    machineSetup_layout (fun _ => 0) twoStrings (by decide) loaded (by decide)
  obtain ⟨m', done⟩ := returns segment space
  exact ⟨mmu, host, m', loaded, done, layout m' done⟩

end RiscvEmu
