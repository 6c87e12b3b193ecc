import RiscvEmu.Setup

/-!
# The loop over the arguments

What the loop of `machine_setup` leaves: the pointers to the arguments that have been
pushed, in order, with the zeros of the terminators above them, and the strings one
after the other above the stack, the last argument lowest (`Frame`). Addresses are
counted from where setup starts, so a guest address and its host address have the same
offset (`toHost_offset`).

* `Frame.pushAll`: the loop pushes every argument.
* `Frame.pushAll_returns`: it returns when the address space is not exhausted.
-/

set_option autoImplicit false

namespace RiscvEmu

open Alignment Paging

/-! ## Offsets -/

/-- The host address at an offset from the start. -/
def Mmu.hostAt (start : Mmu) (d : Nat) : U64 := start.hostAlloc + BitVec.ofNat 64 d

/-- The guest address at an offset from the start. -/
def Mmu.guestAt (start : Mmu) (d : Nat) : U64 := start.alloc + BitVec.ofNat 64 d

/-- The bytes that some strings occupy. -/
def total (strings : List CString) : Nat := (strings.map CString.size).sum

/-- The bytes of the stack. -/
def stackBytes : Nat := 2 ^ 25

/-- The offset of each string; the last one comes first, right above the stack. -/
def offsets : List CString → List Nat
  | [] => []
  | _ :: rest => (stackBytes + total rest) :: offsets rest

/-- The frame above the number of arguments: the pointers and three zero words. -/
def frameBytes (start : Mmu) (strings : List CString) : List U8 :=
  (offsets strings).flatMap (fun d => leBytes (start.guestAt d)) ++ List.replicate 24 0

/-- The offset of the frame. -/
def frameOffset (strings : List CString) : Nat := stackBytes - 24 - 8 * strings.length

section Offsets

variable {page : PageSize} {start : Mmu} {d : Nat} {strings : List CString}

theorem AtStart.toHost_offset (at' : AtStart page start) : toHost (start.guestAt d) =
    start.hostAt d := by
  have back : toHost start.alloc = start.hostAlloc := by
    rw [at'.guest, toHost, toGuest, BitVec.sub_add_cancel]
  rw [Mmu.guestAt, Mmu.hostAt, ← back, toHost, toHost, BitVec.add_assoc, BitVec.add_assoc,
    BitVec.add_comm guestMemoryOffset]

theorem Mmu.toNat_hostAt (fits : start.hostAlloc.toNat + d < 2 ^ 64) :
    (start.hostAt d).toNat = start.hostAlloc.toNat + d := toNat_offset fits

theorem Mmu.toNat_guestAt (fits : start.alloc.toNat + d < 2 ^ 64) :
    (start.guestAt d).toNat = start.alloc.toNat + d := toNat_offset fits

theorem Mmu.hostAt_add (i : Nat) : start.hostAt d + BitVec.ofNat 64 i = start.hostAt (d + i) := by
  rw [Mmu.hostAt, Mmu.hostAt, BitVec.add_assoc, BitVec.ofNat_add]

theorem total_cons (s : CString) : total (s :: strings) = s.size + total strings := rfl

@[simp] theorem length_leBytes (value : U64) : (leBytes value).length = 8 := by
  simp [leBytes]

@[simp] theorem length_offsets : (offsets strings).length = strings.length := by
  induction strings with
  | nil => rfl
  | cons s rest ih => rw [offsets, List.length_cons, List.length_cons, ih]

@[simp] theorem length_frameBytes : (frameBytes start strings).length = 8 * strings.length + 24 := by
  have words : ((offsets strings).flatMap fun d => leBytes (start.guestAt d)).length =
      8 * strings.length := by
    rw [← length_offsets]
    induction offsets strings with
    | nil => rfl
    | cons d ds ih =>
        rw [List.flatMap_cons, List.length_append, ih, length_leBytes, List.length_cons]
        omega
  rw [frameBytes, List.length_append, words, List.length_replicate]

/-- Every string lies above the stack and below the break. -/
theorem mem_offsets {placed : CString × Nat} (member : placed ∈ strings.zip (offsets strings)) :
    stackBytes ≤ placed.2 ∧ placed.2 + placed.1.size ≤ stackBytes + total strings := by
  induction strings with
  | nil => cases member
  | cons s rest ih =>
      rw [offsets, List.zip_cons_cons] at member
      rw [total_cons]
      rcases List.mem_cons.mp member with rfl | later
      · simp only
        omega
      · have := ih later
        omega

end Offsets

/-! ## The loop -/

/-- The machine after some arguments, the last ones of the list, have been pushed. -/
structure Frame (page : PageSize) (start : Mmu) (strings : List CString) (m : Machine) : Prop where
  grown : Grown page start (stackBytes + total strings) m.mmu
  sp : m.gpRegs .sp = start.guestAt (frameOffset strings)
  frame : m.host.mem.Holds (start.hostAt (frameOffset strings)) (frameBytes start strings)
  copies : ∀ placed ∈ strings.zip (offsets strings),
    m.host.mem.Holds (start.hostAt placed.2) (placed.1.bytes ++ [0])
  /-- The rest of the last page has not been written. -/
  fresh : ∀ x : U64, start.hostAlloc.toNat + (stackBytes + total strings) ≤ x.toNat →
    x.toNat < start.hostAlloc.toNat + ceil (stackBytes + total strings) page.bytes →
    m.host.mem x = some 0
  stack : ∀ d < stackBytes, (m.host.mem (start.hostAt d)).isSome

section Loop

variable {page : PageSize} {start : Mmu} {m m' : Machine} {host host' : Host} {addr : U64}
  {data : List U8} {rest strings : List CString} {s : CString}

theorem mmuWrite_ok (written : mmuWrite host addr data = .ok host') :
    host.mem.write (toHost addr) data = some host'.mem := by
  rw [mmuWrite] at written
  cases result : host.mem.write (toHost addr) data with
  | none =>
      rw [result] at written
      cases written
  | some mem =>
      rw [result] at written
      cases written
      rfl

/-- The parts of one round. -/
theorem pushArg_ok (pushed : pushArg page m s = .ok m') :
    ∃ (addr : U64) (mmu : Mmu) (host₁ host₂ : Host),
      mmuAlloc page m.mmu m.host (BitVec.ofNat 64 s.bytes.length + 1) = .ok (addr, mmu, host₁) ∧
      host₁.mem.write (toHost addr) s.bytes = some host₂.mem ∧
      host₂.mem.write (toHost (m.gpRegs .sp - 8)) (leBytes addr) = some m'.host.mem ∧
      m'.mmu = mmu ∧ m'.gpRegs .sp = m.gpRegs .sp - 8 := by
  obtain ⟨⟨addr, mmu, host₁⟩, called, pushed⟩ := bind_ok.mp pushed
  obtain ⟨host₂, copied, pushed⟩ := bind_ok.mp pushed
  obtain ⟨host₃, stored, pushed⟩ := bind_ok.mp pushed
  cases pushed
  have sp : Function.update m.gpRegs Reg.sp (m.gpRegs .sp - 8) Reg.sp = m.gpRegs .sp - 8 :=
    Function.update_self ..
  have stored := mmuWrite_ok stored
  simp only [Machine.setGp, sp] at stored
  exact ⟨addr, mmu, host₁, host₂, called, mmuWrite_ok copied, stored, rfl, sp⟩

/-- The memory after one round. -/
structure Pushed (start : Mmu) (mem mem' : Space) (slot sum : Nat) (top' : Nat) (s : CString)
    (addr : U64) : Prop where
  slot_holds : mem'.Holds (start.hostAt slot) (leBytes addr)
  copy_holds : mem'.Holds (start.hostAt sum) (s.bytes ++ [0])
  fresh : ∀ x : U64, start.hostAlloc.toNat + (sum + s.size) ≤ x.toNat →
    x.toNat < start.hostAlloc.toNat + top' → mem' x = some 0
  kept : ∀ x : U64, x.toNat < start.hostAlloc.toNat + sum →
    ¬ (start.hostAlloc.toNat + slot ≤ x.toNat ∧ x.toNat < start.hostAlloc.toNat + slot + 8) →
    mem' x = mem x

/-- What one round does to the memory, from its three steps. -/
theorem pushed_of_steps {mem mem₁ mem₂ mem₃ : Space} {slot sum top top' : Nat}
    (fits : start.hostAlloc.toNat + top' < 2 ^ 64) (below : slot + 8 ≤ sum) (covers : sum ≤ top)
    (covers' : sum + s.size ≤ top')
    (fresh : ∀ x : U64, start.hostAlloc.toNat + sum ≤ x.toNat →
      x.toNat < start.hostAlloc.toNat + top → mem x = some 0)
    (zeroed : Zeroed mem mem₁ (start.hostAlloc.toNat + top) (start.hostAlloc.toNat + top'))
    (copied : mem₁.write (start.hostAt sum) s.bytes = some mem₂)
    (stored : mem₂.write (start.hostAt slot) (leBytes addr) = some mem₃) :
    Pushed start mem mem₃ slot sum top' s addr := by
  have size : s.size = s.bytes.length + 1 := rfl
  have copyAt := start.toNat_hostAt (d := sum) (by omega)
  have slotAt := start.toNat_hostAt (d := slot) (by omega)
  have words := length_leBytes addr
  -- the two writes are intervals
  have outCopy : ∀ x : U64, (x.toNat < start.hostAlloc.toNat + sum ∨
      start.hostAlloc.toNat + sum + s.bytes.length ≤ x.toNat) → mem₂ x = mem₁ x := by
    intro x outside
    apply write_out copied
    rw [inRange_iff (by omega)]
    omega
  have outSlot : ∀ x : U64, ¬ (start.hostAlloc.toNat + slot ≤ x.toNat ∧
      x.toNat < start.hostAlloc.toNat + slot + 8) → mem₃ x = mem₂ x := by
    intro x outside
    apply write_out stored
    rw [inRange_iff (by omega)]
    omega
  have zero : ∀ x : U64, start.hostAlloc.toNat + sum ≤ x.toNat →
      x.toNat < start.hostAlloc.toNat + top' → mem₁ x = some 0 := by
    intro x low high
    rw [zeroed x]
    split_ifs with new
    · rfl
    · exact fresh x low (by omega)
  have fresh' : ∀ x : U64, start.hostAlloc.toNat + sum + s.bytes.length ≤ x.toNat →
      x.toNat < start.hostAlloc.toNat + top' → mem₃ x = some 0 := by
    intro x low high
    rw [outSlot x (by omega), outCopy x (by omega), zero x (by omega) high]
  refine ⟨write_holds stored (by omega), ?_, fun x low high => fresh' x (by omega) high, ?_⟩
  · have copy : mem₃.Holds (start.hostAt sum) s.bytes :=
      (write_holds copied (by omega)).write stored (by omega) (by omega) (by omega)
    refine holds_append.mpr ⟨copy, fun i inside => ?_⟩
    have last : i = 0 := Nat.lt_one_iff.mp inside
    subst last
    have terminator := start.toNat_hostAt (d := sum + s.bytes.length) (by omega)
    rw [Mmu.hostAt_add, BitVec.add_zero]
    exact fresh' _ (by omega) (by omega)
  · intro x low outside
    rw [outSlot x outside, outCopy x (by omega), zeroed x, if_neg (by omega)]

theorem frameBytes_cons : frameBytes start (s :: rest) =
    leBytes (start.guestAt (stackBytes + total rest)) ++ frameBytes start rest := by
  rw [frameBytes, offsets, List.flatMap_cons, List.append_assoc, ← frameBytes]

/-- A block below the new string and off the pushed pointer is kept. -/
theorem Pushed.holds {mem mem' : Space} {slot sum top' d : Nat}
    (pushed : Pushed start mem mem' slot sum top' s addr)
    (fits : start.hostAlloc.toNat + sum < 2 ^ 64) (holds : mem.Holds (start.hostAt d) data)
    (below : d + data.length ≤ sum) (apart : d + data.length ≤ slot ∨ slot + 8 ≤ d) :
    mem'.Holds (start.hostAt d) data := by
  apply holds.congr
  intro i inside
  have here := start.toNat_hostAt (d := d + i) (by omega)
  rw [Mmu.hostAt_add]
  apply pushed.kept <;> omega

theorem CString.toNat_size (bounded : s.size < 2 ^ 63) :
    (BitVec.ofNat 64 s.bytes.length + 1).toNat = s.size := by
  have one : (1 : U64).toNat = 1 := rfl
  have size : s.size = s.bytes.length + 1 := rfl
  rw [BitVec.toNat_add, BitVec.toNat_ofNat, one]
  omega

/-- The break is above the strings that have been copied. -/
theorem Frame.alloc_eq (frame : Frame page start rest m) :
    m.mmu.alloc = start.guestAt (stackBytes + total rest) := by
  apply BitVec.eq_of_toNat_eq
  have alloc := frame.grown.alloc
  have lt := m.mmu.alloc.isLt
  rw [alloc, start.toNat_guestAt (by omega)]

theorem frameOffset_cons (room : 8 * (rest.length + 4) ≤ stackBytes) :
    frameOffset (s :: rest) + 8 = frameOffset rest ∧ frameOffset rest ≤ stackBytes := by
  have stackBytes_eq : stackBytes = 2 ^ 25 := rfl
  rw [frameOffset, frameOffset, List.length_cons]
  omega

/-- The next pointer goes below the frame. -/
theorem Frame.slot_eq (frame : Frame page start rest m)
    (room : 8 * (rest.length + 4) ≤ stackBytes) :
    m.gpRegs .sp - 8 = start.guestAt (frameOffset (s :: rest)) := by
  have eight : BitVec.ofNat 64 8 = (8 : U64) := rfl
  rw [frame.sp, ← (frameOffset_cons room).1, Mmu.guestAt, Mmu.guestAt, BitVec.ofNat_add,
    ← BitVec.add_assoc, eight, BitVec.add_sub_cancel]

/-- **One round** pushes one more argument. -/
theorem Frame.push (at' : AtStart page start) (frame : Frame page start rest m)
    (room : 8 * (rest.length + 4) ≤ stackBytes) (bounded : total (s :: rest) < 2 ^ 63)
    (pushed : pushArg page m s = .ok m') : Frame page start (s :: rest) m' := by
  obtain ⟨addr, mmu, host₁, host₂, called, copied, stored, mmu_eq, sp_eq⟩ := pushArg_ok pushed
  have stackBytes_eq : stackBytes = 2 ^ 25 := rfl
  have bounds : s.size = s.bytes.length + 1 := rfl
  rw [total_cons] at bounded
  have size := s.toNat_size (by omega)
  obtain ⟨addr_eq, grown', zeroed⟩ := frame.grown.step at' (by omega) (by omega) (by omega) called
  rw [size] at grown' zeroed
  have fits := grown'.hostAlloc ▸ mmu.hostAlloc.isLt
  have covers : stackBytes + total rest ≤ ceil (stackBytes + total rest) page.bytes :=
    le_ceil page.bytes_pos
  have covers' : stackBytes + total rest + s.size ≤
      ceil (stackBytes + total rest + s.size) page.bytes := le_ceil page.bytes_pos
  -- the addresses of the two writes
  obtain ⟨slot, inStack⟩ := frameOffset_cons (s := s) room
  have sp' : m.gpRegs .sp - 8 = start.guestAt (frameOffset (s :: rest)) := frame.slot_eq room
  rw [addr_eq, frame.alloc_eq, at'.toHost_offset] at copied
  rw [sp', at'.toHost_offset, addr_eq, frame.alloc_eq] at stored
  have changed := pushed_of_steps fits (by omega) covers covers' frame.fresh zeroed copied stored
  have regroup : stackBytes + total (s :: rest) = stackBytes + total rest + s.size := by
    rw [total_cons]
    omega
  have inside : start.hostAlloc.toNat + (stackBytes + total rest) < 2 ^ 64 := by omega
  refine ⟨?_, sp_eq.trans sp', ?_, ?_, ?_, ?_⟩
  · rw [regroup, mmu_eq]
    exact grown'
  · rw [frameBytes_cons]
    refine holds_append.mpr ⟨changed.slot_holds, ?_⟩
    rw [length_leBytes, Mmu.hostAt_add, slot]
    refine changed.holds inside frame.frame ?_ ?_
    · rw [length_frameBytes, frameOffset]
      omega
    · omega
  · intro placed member
    rw [offsets, List.zip_cons_cons] at member
    rcases List.mem_cons.mp member with rfl | later
    · exact changed.copy_holds
    · have above := mem_offsets later
      have length : (placed.1.bytes ++ [0]).length = placed.1.size := List.length_append
      exact changed.holds inside (frame.copies placed later) (by omega) (by omega)
  · rw [regroup]
    exact changed.fresh
  · intro d below
    have here := start.toNat_hostAt (d := d) (by omega)
    by_cases pointer : frameOffset (s :: rest) ≤ d ∧ d < frameOffset (s :: rest) + 8
    · have mapped := changed.slot_holds.mapped (d - frameOffset (s :: rest))
        (by rw [length_leBytes]; omega)
      rwa [Mmu.hostAt_add, Nat.add_sub_cancel' pointer.1] at mapped
    · rw [changed.kept _ (by omega) (by omega)]
      exact frame.stack d below

theorem mmuWrite_of_mapped (mapped : host.mem.Mapped (toHost addr) data.length) :
    ∃ host', mmuWrite host addr data = .ok host' ∧
      ∀ x, (host'.mem x).isSome = (host.mem x).isSome := by
  obtain ⟨mem, written⟩ := write_of_mapped mapped
  refine ⟨{ host with mem := mem }, ?_, fun x => write_isSome written⟩
  rw [mmuWrite, written]

/-- The next round returns when the address space is not exhausted. -/
theorem Frame.push_returns (at' : AtStart page start) (frame : Frame page start rest m)
    (room : 8 * (rest.length + 4) ≤ stackBytes)
    (space : start.alloc.toNat + stackBytes + total (s :: rest) < 2 ^ 62) :
    ∃ m', pushArg page m s = .ok m' := by
  have stackBytes_eq : stackBytes = 2 ^ 25 := rfl
  have bounds : s.size = s.bytes.length + 1 := rfl
  rw [total_cons] at space
  have size := s.toNat_size (by omega)
  obtain ⟨addr, mmu, host₁, called⟩ : ∃ addr mmu host₁, mmuAlloc page m.mmu m.host
      (BitVec.ofNat 64 s.bytes.length + 1) = .ok (addr, mmu, host₁) :=
    frame.grown.returns at' (by omega)
  obtain ⟨addr_eq, grown', zeroed⟩ := frame.grown.step at' (by omega) (by omega) (by omega) called
  rw [size] at grown' zeroed
  have fits := grown'.hostAlloc ▸ mmu.hostAlloc.isLt
  have covers' : stackBytes + total rest + s.size ≤
      ceil (stackBytes + total rest + s.size) page.bytes := le_ceil page.bytes_pos
  have mapped : ∀ d, d < stackBytes ∨ stackBytes + total rest ≤ d →
      d < stackBytes + total rest + s.size → (host₁.mem (start.hostAt d)).isSome := by
    intro d where_ below
    have here := start.toNat_hostAt (d := d) (by omega)
    rw [zeroed]
    split_ifs with new
    · rfl
    · rcases where_ with stack | string
      · exact frame.stack d stack
      · rw [frame.fresh _ (by omega) (by omega)]
        rfl
  obtain ⟨slot, inStack⟩ := frameOffset_cons (s := s) room
  obtain ⟨host₂, copied, same⟩ : ∃ host₂, mmuWrite host₁ addr s.bytes = .ok host₂ ∧ _ := by
    apply mmuWrite_of_mapped
    intro i inside
    rw [addr_eq, frame.alloc_eq, at'.toHost_offset, Mmu.hostAt_add]
    exact mapped _ (.inr (by omega)) (by omega)
  obtain ⟨host₃, stored, -⟩ : ∃ host₃, mmuWrite host₂ (m.gpRegs .sp - 8) (leBytes addr) =
      .ok host₃ ∧ _ := by
    apply mmuWrite_of_mapped
    intro i inside
    rw [length_leBytes] at inside
    rw [same, frame.slot_eq (s := s) room, at'.toHost_offset, Mmu.hostAt_add]
    exact mapped _ (.inl (by omega)) (by omega)
  refine ⟨_, bind_ok.mpr ⟨_, called, bind_ok.mpr ⟨_, copied, bind_ok.mpr ⟨host₃, ?_, rfl⟩⟩⟩⟩
  simpa only [Machine.setGp, Function.update_self] using stored

/-- The loop pushes all arguments, the last one first. -/
theorem Frame.pushAll (at' : AtStart page start) (frame : Frame page start [] m)
    (room : 8 * (strings.length + 4) ≤ stackBytes) (bounded : total strings < 2 ^ 63)
    (pushed : strings.reverse.foldlM (pushArg page) m = .ok m') :
    Frame page start strings m' := by
  rw [List.foldlM_reverse] at pushed
  induction strings generalizing m' with
  | nil =>
      cases pushed
      exact frame
  | cons s rest ih =>
      rw [List.foldrM_cons] at pushed
      obtain ⟨m₁, before, pushed⟩ := bind_ok.mp pushed
      rw [List.length_cons] at room
      have bounded' : total rest < 2 ^ 63 := by
        rw [total_cons] at bounded
        omega
      exact (ih (by omega) bounded' before).push at' (by omega) bounded pushed

theorem Frame.pushAll_returns (at' : AtStart page start) (frame : Frame page start [] m)
    (room : 8 * (strings.length + 4) ≤ stackBytes)
    (space : start.alloc.toNat + stackBytes + total strings < 2 ^ 62) :
    ∃ m', strings.reverse.foldlM (pushArg page) m = .ok m' := by
  induction strings with
  | nil => exact ⟨m, rfl⟩
  | cons s rest ih =>
      rw [total_cons] at space
      rw [List.length_cons] at room
      obtain ⟨m₁, before⟩ := ih (by omega) (by omega)
      have frame₁ := frame.pushAll at' (by omega) (by omega) before
      obtain ⟨m', pushed⟩ := frame₁.push_returns (s := s) at' (by omega)
        (by rw [total_cons]; omega)
      rw [List.foldlM_reverse] at before ⊢
      rw [List.foldrM_cons]
      exact ⟨m', bind_ok.mpr ⟨m₁, before, pushed⟩⟩

/-- Before the loop the stack is zero. -/
theorem Frame.empty (at' : AtStart page start) {stack : U64} {mmu : Mmu}
    (called : mmuAlloc page start host stackSize = .ok (stack, mmu, host'))
    (mmu_eq : m.mmu = mmu) (host_eq : m.host = host')
    (sp : m.gpRegs .sp = stack + stackSize - (auxvSize + envpSize + argvEndSize)) :
    stack = start.alloc ∧ Frame page start [] m := by
  have size : stackSize.toNat = stackBytes := rfl
  have stackBytes_eq : stackBytes = 2 ^ 25 := rfl
  obtain ⟨stack_eq, grown, zeroed⟩ :=
    Grown.zero.step at' (by omega) (by omega) (by omega) called
  rw [size, Nat.zero_add, ceil_of_dvd page.bytes_pos (Nat.dvd_zero _), Nat.add_zero] at *
  have fits := grown.hostAlloc ▸ mmu.hostAlloc.isLt
  have covers : stackBytes ≤ ceil stackBytes page.bytes := le_ceil page.bytes_pos
  have zero : ∀ x : U64, start.hostAlloc.toNat ≤ x.toNat →
      x.toNat < start.hostAlloc.toNat + ceil stackBytes page.bytes → m.host.mem x = some 0 := by
    intro x low high
    rw [host_eq, zeroed x]
    exact if_pos ⟨low, high⟩
  refine ⟨stack_eq, mmu_eq ▸ grown, ?_, ?_, fun placed member => (nomatch member), ?_, ?_⟩
  · rw [sp, stack_eq]
    change start.alloc + stackSize - (auxvSize + envpSize + argvEndSize) =
      start.alloc + BitVec.ofNat 64 (stackBytes - 24 - 8 * 0)
    rw [BitVec.sub_eq_add_neg, BitVec.add_assoc]
    rfl
  · intro i inside
    rw [length_frameBytes, List.length_nil] at inside
    have here := start.toNat_hostAt (d := frameOffset [] + i)
      (by rw [frameOffset, List.length_nil]; omega)
    rw [frameOffset, List.length_nil] at here ⊢
    rw [Mmu.hostAt_add, zero _ (by omega) (by omega)]
    exact congrArg some (List.getElem_replicate ..).symm
  · intro x low high
    exact zero x (by omega) high
  · intro d below
    have here := start.toNat_hostAt (d := d) (by omega)
    rw [zero _ (by omega) (by omega)]
    rfl

end Loop

end RiscvEmu
