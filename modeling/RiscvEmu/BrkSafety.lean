import RiscvEmu.InitialStack

/-!
# Moving the break with `brk`

After setup the guest moves the break with `sys_brk`, to any address that is not below
the base. `BrkRun` is a run of such calls; between them the guest changes registers
and mapped bytes. Two questions are answered for every call of every run.

* `sysBrk_safe_iff`: the break stays between the base and the end of the host
  allocation, with every page below it mapped, exactly when the argument is not past
  that end or is above the break by less than half of the range and not in the last
  page (`BrkFits`). The signed difference and the rounding wrap otherwise.
* `sysBrk_keeps_setup_iff`: the pages that setup allocated stay as they are exactly
  when the call does not release pages from below their end (`Releases`). The check
  against the base protects the segments of the program only.
-/

set_option autoImplicit false

namespace RiscvEmu

open Alignment Paging

/-! ## What setup reserves -/

/-- The machine during and after setup: the pages from the start to the break are
mapped, and nothing has been unmapped. -/
structure Reserved (page : PageSize) (start : Mmu) (mem₀ : Space) (sum : Nat) (m : Machine) :
    Prop where
  grown : Grown page start sum m.mmu
  mapped : ∀ d < ceil sum page.bytes, (m.host.mem (start.hostAt d)).isSome
  kept : ∀ x, (mem₀ x).isSome → (m.host.mem x).isSome

section Reserve

variable {page : PageSize} {start : Mmu} {mem₀ : Space} {sum : Nat} {m m' : Machine}
  {mmu' : Mmu} {host' : Host} {size result : U64} {strings : List CString} {s : CString}

/-- Changing mapped bytes and registers keeps what is reserved. -/
theorem Reserved.congr (reserved : Reserved page start mem₀ sum m) (mmu : m'.mmu = m.mmu)
    (same : ∀ x, (m'.host.mem x).isSome = (m.host.mem x).isSome) :
    Reserved page start mem₀ sum m' := by
  refine ⟨mmu ▸ reserved.grown, fun d below => ?_, fun x some' => ?_⟩
  · rw [same]
    exact reserved.mapped d below
  · rw [same]
    exact reserved.kept x some'

theorem Reserved.step (at' : AtStart page start) (reserved : Reserved page start mem₀ sum m)
    (positive : 0 < size.toNat) (small : size.toNat < 2 ^ 63) (total : sum + size.toNat < 2 ^ 64)
    (called : mmuAlloc page m.mmu m.host size = .ok (result, mmu', host')) :
    Reserved page start mem₀ (sum + size.toNat) { m with mmu := mmu', host := host' } := by
  obtain ⟨-, grown, zeroed⟩ := reserved.grown.step at' positive small total called
  have fits := grown.hostAlloc ▸ mmu'.hostAlloc.isLt
  have some' : ∀ x, (m.host.mem x).isSome → (host'.mem x).isSome := by
    intro x old
    rw [zeroed x]
    split_ifs
    · rfl
    · exact old
  refine ⟨grown, fun d below => ?_, fun x old => some' x (reserved.kept x old)⟩
  by_cases inside : d < ceil sum page.bytes
  · exact some' _ (reserved.mapped d inside)
  · have here := start.toNat_hostAt (d := d) (by omega)
    change (host'.mem (start.hostAt d)).isSome
    rw [zeroed, if_pos (by omega)]
    rfl

theorem Reserved.push (at' : AtStart page start)
    (reserved : Reserved page start mem₀ (stackBytes + total strings) m)
    (bounded : total (s :: strings) < 2 ^ 63) (pushed : pushArg page m s = .ok m') :
    Reserved page start mem₀ (stackBytes + total (s :: strings)) m' := by
  have stackBytes_eq : stackBytes = 2 ^ 25 := rfl
  have positive : s.size = s.bytes.length + 1 := rfl
  rw [total_cons] at bounded
  have size := s.toNat_size (by omega)
  obtain ⟨addr, mmu, host₁, host₂, called, copied, stored, mmu_eq, -⟩ := pushArg_ok pushed
  have grown := reserved.step at' (by omega) (by omega) (by omega) called
  have regroup : stackBytes + total (s :: strings) = stackBytes + total strings + s.size := by
    rw [total_cons]
    omega
  rw [size, ← regroup] at grown
  exact grown.congr mmu_eq fun x => (write_isSome stored).trans (write_isSome copied)

theorem Reserved.pushAll (at' : AtStart page start)
    (reserved : Reserved page start mem₀ (stackBytes + total []) m)
    (bounded : total strings < 2 ^ 63)
    (pushed : strings.reverse.foldlM (pushArg page) m = .ok m') :
    Reserved page start mem₀ (stackBytes + total strings) m' := by
  rw [List.foldlM_reverse] at pushed
  induction strings generalizing m' with
  | nil =>
      cases pushed
      exact reserved
  | cons s rest ih =>
      rw [List.foldrM_cons] at pushed
      obtain ⟨m₁, before, pushed⟩ := bind_ok.mp pushed
      have bounded' : total rest < 2 ^ 63 := by
        rw [total_cons] at bounded
        omega
      exact (ih bounded' before).push at' bounded pushed

theorem memmove_isSome {host : Host} {target source x : U64} {count : Nat}
    (moved : memmove host target source count = .ok host') :
    (host'.mem x).isSome = (host.mem x).isSome := by
  rw [memmove] at moved
  cases result : host.mem.read source count >>= host.mem.write target with
  | none =>
      rw [result] at moved
      cases moved
  | some mem =>
      rw [result] at moved
      cases moved
      obtain ⟨data, -, written⟩ := Option.bind_eq_some_iff.mp result
      exact write_isSome written

/-- After setup. -/
theorem machineSetup_reserved (at' : AtStart page m.mmu) {argv : Argv}
    (done : machineSetup page m argv = .ok m') :
    Reserved page m.mmu m.host.mem (stackBytes + total argv.strings) m' := by
  obtain ⟨⟨stack, mmu, host⟩, called, done⟩ := bind_ok.mp done
  obtain ⟨m₂, looped, done⟩ := bind_ok.mp done
  obtain ⟨m₃, pushed, done⟩ := bind_ok.mp done
  have size : stackSize.toNat = 2 ^ 25 := rfl
  have none' : Reserved page m.mmu m.host.mem 0 m := by
    refine ⟨Grown.zero, fun d below => ?_, fun x old => old⟩
    rw [ceil_of_dvd page.bytes_pos (Nat.dvd_zero _)] at below
    omega
  have stack := none'.step at' (by omega) (by omega) (by omega) called
  rw [Nat.zero_add] at stack
  have loop : Reserved page m.mmu m.host.mem (stackBytes + total argv.strings) m₂ := by
    refine Reserved.pushAll at' ?_ argv.bounded looped
    exact stack.congr rfl fun x => rfl
  have count : Reserved page m.mmu m.host.mem (stackBytes + total argv.strings) m₃ := by
    obtain ⟨host', stored, pushed⟩ := bind_ok.mp pushed
    cases pushed
    exact loop.congr rfl fun x => write_isSome (mmuWrite_ok stored)
  rw [alignStack] at done
  split at done
  · obtain ⟨host', moved, done⟩ := bind_ok.mp done
    cases done
    exact count.congr rfl fun x => memmove_isSome moved
  · cases done
    exact count

end Reserve

/-! ## Runs of `brk` -/

/-- The machines that calls of `sys_brk` reach, each made at a machine that `admits`
allows. Between the calls the guest changes its registers and mapped bytes. -/
inductive BrkRun (page : PageSize) (admits : Machine → Prop) (first : Machine) : Machine → Prop where
  | start : BrkRun page admits first first
  | brk {m m' : Machine} {result : U64} : BrkRun page admits first m → admits m →
      sysBrk page m = .ok (result, m') → BrkRun page admits first m'
  | guest {m : Machine} {gpRegs : Reg → U64} {mem : Space} : BrkRun page admits first m →
      (∀ x, (mem x).isSome = (m.host.mem x).isSome) →
      BrkRun page admits first { m with gpRegs := gpRegs, host := { m.host with mem := mem } }

/-- A call that returns has moved the break to its argument. -/
theorem sysBrk_ok {page : PageSize} {m m' : Machine} {result : U64}
    (called : sysBrk page m = .ok (result, m')) : result = brkAddr m ∧ m'.mmu.alloc = brkAddr m ∧
      Allocated page m.mmu m'.mmu m.host m'.host (brkAddr m - m.mmu.alloc) m.mmu.alloc := by
  obtain ⟨-, called⟩ := cassert_bind_ok.mp called
  obtain ⟨⟨old, mmu, host⟩, called, done⟩ := bind_ok.mp called
  have allocated := mmuAlloc_ok called
  have moved : m.mmu.alloc + (brkAddr m - m.mmu.alloc) = brkAddr m := by
    rw [BitVec.add_comm, BitVec.sub_add_cancel]
  cases done
  exact ⟨rfl, allocated.alloc.trans moved, allocated.result_eq ▸ allocated⟩

/-- A positive difference is not negative. -/
theorem slt_asymm {x : U64} (positive : (0 : U64).slt x = true) : x.slt 0 = false := by
  rw [BitVec.slt_iff_toInt_lt] at positive
  rw [Bool.eq_false_iff, ne_eq, BitVec.slt_iff_toInt_lt]
  exact Int.not_lt.mpr positive.le

/-- A difference that is not zero and not positive is negative. -/
theorem slt_of_not_positive {x : U64} (nonzero : x ≠ 0) (notPositive : ¬ (0 : U64).slt x = true) :
    x.slt 0 = true := by
  apply Bool.of_not_eq_false
  intro signed
  rw [Bool.eq_false_iff, ne_eq, BitVec.slt_iff_toInt_lt] at signed
  rw [BitVec.slt_iff_toInt_lt] at notPositive
  have both := Int.le_antisymm (Int.not_lt.mp notPositive) (Int.not_lt.mp signed)
  exact nonzero (BitVec.eq_of_toInt_eq both)

/-- A call that neither maps nor unmaps. -/
theorem sysBrk_of_stay {page : PageSize} {m : Machine} (above : m.mmu.base ≤ m.mmu.alloc)
    (above' : m.mmu.base ≤ brkAddr m)
    (grows : ¬ ((0 : U64).slt (brkAddr m - m.mmu.alloc) = true ∧
      brkAddr m > toGuest m.mmu.hostAlloc))
    (shrinks : ¬ ((brkAddr m - m.mmu.alloc).slt 0 = true ∧
      up (brkAddr m) page.word < toGuest m.mmu.hostAlloc)) :
    sysBrk page m = .ok (brkAddr m, { m with mmu := { m.mmu with alloc := brkAddr m } }) := by
  have target : m.mmu.alloc + (brkAddr m - m.mmu.alloc) = brkAddr m := by
    rw [BitVec.add_comm, BitVec.sub_add_cancel]
  simp only [sysBrk, mmuAlloc, target, cassert, if_pos above, if_pos above', if_neg grows,
    if_neg shrinks]
  rfl

/-- A call that unmaps. -/
theorem sysBrk_of_shrink {page : PageSize} {m : Machine} (above : m.mmu.base ≤ m.mmu.alloc)
    (above' : m.mmu.base ≤ brkAddr m)
    (shrinks : (brkAddr m - m.mmu.alloc).slt 0 = true ∧
      up (brkAddr m) page.word < toGuest m.mmu.hostAlloc)
    (accepts : Accepts page (toHost (up (brkAddr m) page.word))
      (toGuest m.mmu.hostAlloc - up (brkAddr m) page.word)) :
    ∃ m', sysBrk page m = .ok (brkAddr m, m') ∧
      m'.host.mem = m.host.mem.unmap (toHost (up (brkAddr m) page.word))
        (pagesOf page (toGuest m.mmu.hostAlloc - up (brkAddr m) page.word)) := by
  have target : m.mmu.alloc + (brkAddr m - m.mmu.alloc) = brkAddr m := by
    rw [BitVec.add_comm, BitVec.sub_add_cancel]
  have grows : ¬ ((0 : U64).slt (brkAddr m - m.mmu.alloc) = true ∧
      brkAddr m > toGuest m.mmu.hostAlloc) := by
    rintro ⟨positive, -⟩
    rw [slt_asymm positive] at shrinks
    exact absurd shrinks.1 Bool.false_ne_true
  refine ⟨{ m with
    mmu := { m.mmu with
      alloc := brkAddr m
      hostAlloc := m.mmu.hostAlloc - (toGuest m.mmu.hostAlloc - up (brkAddr m) page.word) }
    host := {
      mem := m.host.mem.unmap (toHost (up (brkAddr m) page.word))
        (pagesOf page (toGuest m.mmu.hostAlloc - up (brkAddr m) page.word))
      calls := .unmap (toHost (up (brkAddr m) page.word))
        (toGuest m.mmu.hostAlloc - up (brkAddr m) page.word) :: m.host.calls } }, ?_, rfl⟩
  simp only [sysBrk, mmuAlloc, target, cassert, if_pos above, if_pos above', if_neg grows,
    if_pos shrinks, munmap_of_accepts page accepts, orAbort]
  rfl

/-! ## Safety -/

/-- The end of the host allocation, seen from the guest. -/
def Mmu.guestEnd (mmu : Mmu) : U64 := toGuest mmu.hostAlloc

/-- What `sys_brk` should leave behind: the break lies between the base and the end of
the host allocation, the pages between the base and the break are mapped, and the
pages of the program are as mapped as loading left them. -/
structure BrkSafe (page : PageSize) (loaded : Mmu × Host) (m : Machine) : Prop where
  base_eq : m.mmu.base = loaded.1.base
  base_le : m.mmu.base ≤ m.mmu.alloc
  alloc_le : m.mmu.alloc ≤ m.mmu.guestEnd
  mapped : ∀ x : U64, m.mmu.base.toNat ≤ x.toNat → x.toNat < ceil m.mmu.alloc.toNat page.bytes →
    (m.host.mem (toHost x)).isSome
  kept : ∀ x : U64, x < m.mmu.base → (loaded.2.mem (toHost x)).isSome →
    (m.host.mem (toHost x)).isSome

/-- The invariant that carries it: all pages up to the end of the host allocation are
mapped, and the end is a page boundary. -/
structure BrkInv (page : PageSize) (loaded : Mmu × Host) (m : Machine) : Prop where
  base_eq : m.mmu.base = loaded.1.base
  aligned : page.bytes ∣ m.mmu.guestEnd.toNat
  base_le : m.mmu.base.toNat ≤ m.mmu.alloc.toNat
  alloc_le : m.mmu.alloc.toNat ≤ m.mmu.guestEnd.toNat
  mapped : ∀ x : U64, m.mmu.base.toNat ≤ x.toNat → x.toNat < m.mmu.guestEnd.toNat →
    (m.host.mem (toHost x)).isSome
  kept : ∀ x : U64, x.toNat < m.mmu.base.toNat → (loaded.2.mem (toHost x)).isSome →
    (m.host.mem (toHost x)).isSome

/-- The arguments that are handled: those up to the end of the host allocation, and those
above the break, as signed difference, that are not in the last page. -/
def BrkFits (page : PageSize) (m : Machine) : Prop :=
  brkAddr m ≤ m.mmu.guestEnd ∨
    (brkAddr m - m.mmu.alloc).slt 0 = false ∧ (brkAddr m).toNat + page.bytes ≤ 2 ^ 64

section Safety

variable {page : PageSize} {loaded : Mmu × Host} {m m' : Machine} {result : U64}

theorem BrkInv.safe (inv : BrkInv page loaded m) : BrkSafe page loaded m := by
  have rounded : ceil m.mmu.alloc.toNat page.bytes ≤ m.mmu.guestEnd.toNat :=
    ceil_le_of_dvd page.bytes_pos inv.aligned inv.alloc_le
  exact ⟨inv.base_eq, BitVec.le_def.mpr inv.base_le, BitVec.le_def.mpr inv.alloc_le,
    fun x above below => inv.mapped x above (by omega),
    fun x below => inv.kept x (BitVec.lt_def.mp below)⟩

/-- The distance between two guest addresses is that of their host addresses. -/
theorem inRange_toHost {x y : U64} {bytes : Nat} :
    InRange (toHost x) bytes (toHost y) ↔ InRange x bytes y := by
  have same : toHost y - toHost x = y - x := by
    rw [toHost, toHost]
    bv_omega
  rw [InRange, InRange, same]

theorem toHost_add_distance (top h : U64) : toHost top + (toGuest h - top) = h := by
  rw [toHost, toGuest]
  bv_omega

theorem toHost_guestEnd (mmu : Mmu) : toHost mmu.guestEnd = mmu.hostAlloc :=
  BitVec.sub_add_cancel ..

/-- Up to a page boundary, rounding up does not wrap. -/
theorem toNat_up_of_le {a g : U64} (aligned : page.bytes ∣ g.toNat) (le : a.toNat ≤ g.toNat) :
    (up a page.word).toNat = ceil a.toNat page.bytes := by
  have fits : g.toNat + page.bytes ≤ 2 ^ 64 := by
    apply Nat.le_of_not_lt
    intro wraps
    have reached := Nat.le_of_lt_add_of_dvd wraps (page.bytes_dvd (by omega)) aligned
    exact Nat.not_le.mpr g.isLt reached
  rw [toNat_up page.powerOfTwo (by rw [PageSize.toNat_word]; omega), PageSize.toNat_word]

/-- The end of the host allocation after a call that maps pages, and after one that unmaps
those from `top` on. -/
theorem guestEnd_grow {mmu mmu' : Mmu} {len : U64} (hostAlloc : mmu'.hostAlloc = mmu.hostAlloc + len) :
    mmu'.guestEnd = mmu.guestEnd + len := by
  rw [Mmu.guestEnd, Mmu.guestEnd, hostAlloc, toGuest, toGuest]
  bv_omega

theorem guestEnd_shrink {mmu mmu' : Mmu} {top : U64}
    (hostAlloc : mmu'.hostAlloc = mmu.hostAlloc - (toGuest mmu.hostAlloc - top)) :
    mmu'.guestEnd = top := by
  rw [Mmu.guestEnd, hostAlloc, toGuest, toGuest]
  bv_omega

/-- Mapping more pages keeps the mapped ones. -/
theorem isSome_map_zero {space : Space} {address x : U64} {bytes : Nat} (old : (space x).isSome) :
    (space.map address bytes (fun _ => some 0) x).isSome := by
  by_cases inside : InRange address bytes x
  · rw [map_of_in inside]
    rfl
  · rw [map_of_out inside]
    exact old

theorem BrkInv.grow (inv : BrkInv page loaded m) {len : U64} (base : m'.mmu.base = m.mmu.base)
    (above : m.mmu.base.toNat ≤ m'.mmu.alloc.toNat)
    (covers : m'.mmu.alloc.toNat ≤ m.mmu.guestEnd.toNat + len.toNat)
    (aligned : page.bytes ∣ m.mmu.guestEnd.toNat + len.toNat)
    (fits : m.mmu.guestEnd.toNat + len.toNat < 2 ^ 64)
    (hostAlloc : m'.mmu.hostAlloc = m.mmu.hostAlloc + len)
    (mem : m'.host.mem = m.host.mem.map m.mmu.hostAlloc (pagesOf page len) fun _ => some 0) :
    BrkInv page loaded m' := by
  have end' : m'.mmu.guestEnd.toNat = m.mmu.guestEnd.toNat + len.toNat := by
    rw [guestEnd_grow hostAlloc, BitVec.toNat_add, Nat.mod_eq_of_lt fits]
  have length : len.toNat ≤ pagesOf page len := le_ceil page.bytes_pos
  refine ⟨base.trans inv.base_eq, end' ▸ aligned, base ▸ above, end' ▸ covers, ?_, ?_⟩
  · intro x low high
    rw [base] at low
    by_cases old : x.toNat < m.mmu.guestEnd.toNat
    · rw [mem]
      exact isSome_map_zero (inv.mapped x low old)
    · have inside : InRange m.mmu.guestEnd (pagesOf page len) x := by
        rw [InRange, toNat_sub_of_le (by omega)]
        omega
      rw [mem, map_of_in (toHost_guestEnd m.mmu ▸ inRange_toHost.mpr inside)]
      rfl
  · intro x low old
    rw [base] at low
    rw [mem]
    exact isSome_map_zero (inv.kept x low old)

theorem BrkInv.shrink (inv : BrkInv page loaded m) {top len : U64}
    (base : m'.mmu.base = m.mmu.base) (above : m.mmu.base.toNat ≤ m'.mmu.alloc.toNat)
    (covers : m'.mmu.alloc.toNat ≤ top.toNat) (aligned : page.bytes ∣ top.toNat)
    (below : top.toNat < m.mmu.guestEnd.toNat) (len_eq : len = toGuest m.mmu.hostAlloc - top)
    (hostAlloc : m'.mmu.hostAlloc = m.mmu.hostAlloc - len)
    (mem : m'.host.mem = m.host.mem.unmap (toHost top) (pagesOf page len)) :
    BrkInv page loaded m' := by
  have end' : m'.mmu.guestEnd = top := guestEnd_shrink (len_eq ▸ hostAlloc)
  have length : len.toNat = m.mmu.guestEnd.toNat - top.toNat :=
    len_eq ▸ toNat_sub_of_le (x := m.mmu.guestEnd) below.le
  have pages : pagesOf page len = m.mmu.guestEnd.toNat - top.toNat := by
    rw [pagesOf, length, ceil_of_dvd page.bytes_pos (Nat.dvd_sub inv.aligned aligned)]
  have lt := m.mmu.guestEnd.isLt
  have outside : ∀ x : U64, x.toNat < top.toNat →
      m'.host.mem (toHost x) = m.host.mem (toHost x) := by
    intro x less
    rw [mem, unmap_of_out]
    rw [inRange_toHost, inRange_iff (by omega)]
    omega
  refine ⟨base.trans inv.base_eq, end' ▸ aligned, base ▸ above, end' ▸ covers, ?_, ?_⟩
  · intro x low high
    rw [base] at low
    rw [end'] at high
    rw [outside x high]
    exact inv.mapped x low (high.trans below)
  · intro x low old
    rw [base] at low
    rw [outside x (by omega)]
    exact inv.kept x low old

theorem BrkInv.stay (inv : BrkInv page loaded m) (base : m'.mmu.base = m.mmu.base)
    (above : m.mmu.base.toNat ≤ m'.mmu.alloc.toNat)
    (covers : m'.mmu.alloc.toNat ≤ m.mmu.guestEnd.toNat)
    (hostAlloc : m'.mmu.hostAlloc = m.mmu.hostAlloc) (mem : m'.host.mem = m.host.mem) :
    BrkInv page loaded m' := by
  have end' : m'.mmu.guestEnd = m.mmu.guestEnd := congrArg toGuest hostAlloc
  refine ⟨base.trans inv.base_eq, end' ▸ inv.aligned, base ▸ above, end' ▸ covers, ?_, ?_⟩
  · intro x low high
    rw [mem]
    exact inv.mapped x (base ▸ low) (end' ▸ high)
  · intro x low old
    rw [mem]
    exact inv.kept x (base ▸ low) old

/-- The arguments that are not handled. -/
theorem not_brkFits (past : ¬ brkAddr m ≤ m.mmu.guestEnd)
    (wrong : (brkAddr m - m.mmu.alloc).slt 0 = true ∨ 2 ^ 64 < (brkAddr m).toNat + page.bytes) :
    ¬ BrkFits page m := by
  rintro (inside | ⟨signed, fits⟩)
  · exact past inside
  · rcases wrong with negative | last
    · rw [signed] at negative
      cases negative
    · exact Nat.not_lt.mpr fits last

/-- **One call.** The break stays below the end of the host allocation exactly when the
argument fits, and then the invariant is kept. -/
theorem BrkInv.step (inv : BrkInv page loaded m) (called : sysBrk page m = .ok (result, m')) :
    (m'.mmu.alloc ≤ m'.mmu.guestEnd ↔ BrkFits page m) ∧
      (BrkFits page m → BrkInv page loaded m') := by
  obtain ⟨-, alloc, -, base, sum, -, above', moved⟩ := sysBrk_ok called
  have target : m.mmu.alloc + (brkAddr m - m.mmu.alloc) = brkAddr m := sum.symm.trans alloc
  have whole : page.bytes ∣ 2 ^ 64 := page.bytes_dvd (by omega)
  have lt := (brkAddr m).isLt
  rw [target] at above'
  have above : m.mmu.base.toNat ≤ m'.mmu.alloc.toNat := alloc ▸ above'
  cases moved with
  | @grow len grows len_eq accepts hostAlloc mem =>
      rw [target] at grows len_eq
      have past : m.mmu.guestEnd.toNat < (brkAddr m).toNat := BitVec.lt_def.mp grows.2
      have signed := slt_asymm grows.1
      have length : m.mmu.guestEnd.toNat + len.toNat = ceil (brkAddr m).toNat page.bytes :=
        len_eq ▸ toNat_growth inv.aligned past (len_eq ▸ accepts.1)
      have covers : (brkAddr m).toNat ≤ ceil (brkAddr m).toNat page.bytes := le_ceil page.bytes_pos
      by_cases last : (brkAddr m).toNat + page.bytes ≤ 2 ^ 64
      · have rounded : ceil (brkAddr m).toNat page.bytes ≤ 2 ^ 64 - page.bytes :=
          ceil_le_of_dvd page.bytes_pos (Nat.dvd_sub whole (dvd_refl _)) (by omega)
        have pos := page.bytes_pos
        have inv' : BrkInv page loaded m' :=
          inv.grow base above (by rw [alloc]; omega) (length ▸ dvd_ceil) (by omega) hostAlloc mem
        exact ⟨iff_of_true inv'.safe.alloc_le (.inr ⟨signed, last⟩), fun _ => inv'⟩
      · -- the end of the host allocation wraps to zero
        have rounded : 2 ^ 64 ≤ ceil (brkAddr m).toNat page.bytes :=
          Nat.le_of_lt_add_of_dvd (by omega) whole dvd_ceil
        have end' : m'.mmu.guestEnd.toNat ≤ m.mmu.guestEnd.toNat := by
          rw [guestEnd_grow hostAlloc, BitVec.toNat_add]
          have bounded := len.isLt
          omega
        have tooFar : ¬ m'.mmu.alloc ≤ m'.mmu.guestEnd := by
          rw [BitVec.le_def, alloc]
          omega
        have unfit : ¬ BrkFits page m :=
          not_brkFits (BitVec.not_le.mpr grows.2) (.inr (Nat.lt_of_not_le last))
        exact ⟨iff_of_false tooFar unfit, fun fits => absurd fits unfit⟩
  | @shrink len shrinks len_eq accepts hostAlloc mem =>
      rw [target] at shrinks len_eq mem
      have end' : m'.mmu.guestEnd = up (brkAddr m) page.word := guestEnd_shrink (len_eq ▸ hostAlloc)
      have below : (up (brkAddr m) page.word).toNat < m.mmu.guestEnd.toNat :=
        BitVec.lt_def.mp shrinks.2
      by_cases inside : brkAddr m ≤ m.mmu.guestEnd
      · have rounded := toNat_up_of_le inv.aligned (BitVec.le_def.mp inside)
        have covers : (brkAddr m).toNat ≤ (up (brkAddr m) page.word).toNat :=
          rounded ▸ le_ceil page.bytes_pos
        have inv' : BrkInv page loaded m' :=
          inv.shrink base above (alloc ▸ covers) (rounded ▸ dvd_ceil) below len_eq hostAlloc mem
        exact ⟨iff_of_true inv'.safe.alloc_le (.inl inside), fun _ => inv'⟩
      · -- all pages from the first of the address space on are unmapped
        have tooFar : ¬ m'.mmu.alloc ≤ m'.mmu.guestEnd := by
          intro le
          rw [end', alloc] at le
          exact inside (BitVec.le_trans le (BitVec.le_of_lt shrinks.2))
        have unfit : ¬ BrkFits page m := not_brkFits inside (.inl shrinks.1)
        exact ⟨iff_of_false tooFar unfit, fun fits => absurd fits unfit⟩
  | stay grows shrinks hostAlloc mem =>
      rw [target] at grows
      have end' : m'.mmu.guestEnd = m.mmu.guestEnd := congrArg toGuest hostAlloc
      rw [end', alloc]
      by_cases inside : brkAddr m ≤ m.mmu.guestEnd
      · have covers := BitVec.le_def.mp inside
        exact ⟨iff_of_true inside (.inl inside),
          fun _ => inv.stay base above (alloc ▸ covers) hostAlloc mem⟩
      · -- the difference is negative as an `i64`
        have nonzero : brkAddr m - m.mmu.alloc ≠ 0 := by
          intro zero
          rw [zero] at target
          have same : m.mmu.alloc = brkAddr m := (BitVec.add_zero _).symm.trans target
          exact inside (BitVec.le_def.mpr (same ▸ inv.alloc_le))
        have negative : (brkAddr m - m.mmu.alloc).slt 0 = true :=
          slt_of_not_positive nonzero fun positive => grows ⟨positive, BitVec.not_le.mp inside⟩
        have unfit : ¬ BrkFits page m := not_brkFits inside (.inl negative)
        exact ⟨iff_of_false inside unfit, fun fits => absurd fits unfit⟩

/-- What the guest does between the calls keeps the invariant. -/
theorem BrkInv.guest (inv : BrkInv page loaded m) {gpRegs : Reg → U64} {mem : Space}
    (same : ∀ x, (mem x).isSome = (m.host.mem x).isSome) :
    BrkInv page loaded { m with gpRegs := gpRegs, host := { m.host with mem := mem } } := by
  refine ⟨inv.base_eq, inv.aligned, inv.base_le, inv.alloc_le, fun x low high => ?_,
    fun x low old => ?_⟩
  · change (mem _).isSome
    rw [same]
    exact inv.mapped x low high
  · change (mem _).isSome
    rw [same]
    exact inv.kept x low old

/-- The invariant holds after setup unless the last page of the address space is used up. -/
theorem Reserved.brkInv {sum : Nat} (at' : AtStart page loaded.1)
    (reserved : Reserved page loaded.1 loaded.2.mem sum m) (positive : 0 < sum)
    (room : m.mmu.alloc ≤ m.mmu.guestEnd) : BrkInv page loaded m := by
  obtain ⟨grown, mapped, kept⟩ := reserved
  have room := BitVec.le_def.mp room
  have top := grown.top_le at'
  have alloc := grown.alloc
  have end' : m.mmu.guestEnd.toNat = (loaded.1.alloc.toNat + ceil sum page.bytes) % 2 ^ 64 :=
    grown.guestEnd at'
  -- at the end of the address space it would be zero
  have inside : loaded.1.alloc.toNat + ceil sum page.bytes < 2 ^ 64 := by
    omega
  rw [Nat.mod_eq_of_lt inside] at end'
  have base : m.mmu.base.toNat = loaded.1.alloc.toNat :=
    congrArg BitVec.toNat (grown.base.trans at'.base)
  refine ⟨grown.base, ?_, by omega, room, fun x low high => ?_, fun x _ old => kept _ old⟩
  · rw [end']
    exact Nat.dvd_add at'.aligned' dvd_ceil
  · have here := mapped (x.toNat - loaded.1.alloc.toNat) (by omega)
    have address : loaded.1.guestAt (x.toNat - loaded.1.alloc.toNat) = x := by
      apply BitVec.eq_of_toNat_eq
      rw [loaded.1.toNat_guestAt (by omega)]
      omega
    rw [← at'.toHost_offset, address] at here
    exact here

theorem BrkRun.brkInv {first : Machine} (start : BrkInv page loaded first)
    (run : BrkRun page (BrkFits page) first m) : BrkInv page loaded m := by
  induction run with
  | start => exact start
  | brk _ fits called inv => exact (inv.step called).2 fits
  | guest _ same inv => exact inv.guest same

/-- A program without segments does not come through setup. -/
theorem reserved_of_setup {file : List U8} {gpRegs : Reg → U64} {argv : Argv} {first : Machine}
    (load : mmuLoadElf page file {} emptyHost = .ok loaded)
    (setup : machineSetup page ⟨gpRegs, loaded.1, loaded.2⟩ argv = .ok first) :
    AtStart page loaded.1 ∧
      Reserved page loaded.1 loaded.2.mem (stackBytes + total argv.strings) first := by
  by_cases segment : loadableSegments file = []
  · obtain ⟨entry, empty⟩ := mmuLoadElf_ok load
    rw [segment] at empty
    cases empty
    exact absurd setup (machineSetup_unloaded ⟨rfl, fun x => rfl⟩ rfl argv)
  · have at' : AtStart page loaded.1 := atStart_of_loaded load segment
    exact ⟨at', machineSetup_reserved at' setup⟩

end Safety

/-- **Moving the break.** After loading and setup that do not use up the last page of the
address space, in every run whose calls fit every machine is safe, and a further call
leaves a safe machine exactly when it fits. -/
theorem sysBrk_safe_iff {page : PageSize} {file : List U8} {loaded : Mmu × Host}
    {gpRegs : Reg → U64} {argv : Argv} {first m : Machine}
    (load : mmuLoadElf page file {} emptyHost = .ok loaded)
    (setup : machineSetup page ⟨gpRegs, loaded.1, loaded.2⟩ argv = .ok first)
    (room : first.mmu.alloc ≤ first.mmu.guestEnd) (run : BrkRun page (BrkFits page) first m) :
    BrkSafe page loaded m ∧ ∀ result m', sysBrk page m = .ok (result, m') →
      (BrkSafe page loaded m' ↔ BrkFits page m) := by
  obtain ⟨at', reserved⟩ := reserved_of_setup load setup
  have start := reserved.brkInv at' (Nat.add_pos_left (Nat.two_pow_pos 25) _) room
  have inv := run.brkInv start
  refine ⟨inv.safe, fun result m' called => ?_⟩
  obtain ⟨reaches, keeps⟩ := inv.step called
  constructor
  · intro safe
    exact reaches.mp safe.alloc_le
  · intro fits
    exact (keeps fits).safe

set_option maxRecDepth 4000 in
/-- Setup with two strings: the stack and the strings follow a program that ends at `0x11000`. -/
theorem twoStrings_setup (gpRegs : Reg → U64) : ∃ loaded first,
    mmuLoadElf page4096 (oneSegmentElf 120 160) {} emptyHost = .ok loaded ∧
      machineSetup page4096 ⟨gpRegs, loaded.1, loaded.2⟩ twoStrings = .ok first ∧
      loaded.1.alloc = 0x11000 ∧ first.mmu.base = 0x11000 ∧ first.mmu.alloc = 0x2011007 ∧
      first.mmu.guestEnd = 0x2012000 := by
  have segment : loadableSegments (oneSegmentElf 120 160) ≠ [] := by
    rw [loadableSegments_oneSegmentElf_full]
    simp
  obtain ⟨mmu, host, load, start⟩ : ∃ mmu host,
      mmuLoadElf page4096 (oneSegmentElf 120 160) {} emptyHost = .ok (mmu, host) ∧
        mmu.alloc = 0x11000 := ⟨_, _, rfl, rfl⟩
  have at' : AtStart page4096 (Machine.mk gpRegs mmu host).mmu := atStart_of_loaded load segment
  have size : stackBytes + total twoStrings.strings = 2 ^ 25 + 7 := rfl
  have space : mmu.alloc.toNat + stackBytes + total twoStrings.strings < 2 ^ 62 := by
    rw [Nat.add_assoc, size, start]
    decide
  obtain ⟨first, setup⟩ : ∃ m', machineSetup page4096 ⟨gpRegs, mmu, host⟩ twoStrings = .ok m' :=
    machineSetup_returns at' (by decide) (by decide) space
  have grown := (machineSetup_reserved at' setup).grown
  rw [size] at grown
  have alloc := grown.alloc
  have end' := grown.guestEnd at'
  change _ = mmu.alloc.toNat + _ at alloc
  change _ = (mmu.alloc.toNat + _) % _ at end'
  rw [start] at alloc end'
  exact ⟨(mmu, host), first, load, setup, start, (grown.base.trans at'.base).trans start,
    BitVec.eq_of_toNat_eq alloc, BitVec.eq_of_toNat_eq end'⟩

/-- The guest has put its argument in `a0`. -/
def Machine.ask (m : Machine) (addr : U64) : Machine := { m with gpRegs := fun _ => addr }

theorem brkAddr_ask {m : Machine} {addr : U64} (nonzero : addr ≠ 0) :
    brkAddr (m.ask addr) = addr := if_neg nonzero

theorem BrkRun.ask {page : PageSize} {admits : Machine → Prop} {first m : Machine}
    (run : BrkRun page admits first m) (addr : U64) : BrkRun page admits first (m.ask addr) :=
  .guest run fun _ => rfl

/-- The program sets the break to an address that is more than half of the range above
it: the break moves and no page is mapped. -/
theorem sysBrk_unsafe : ∃ loaded first m result m',
    mmuLoadElf page4096 (oneSegmentElf 120 160) {} emptyHost = .ok loaded ∧
      machineSetup page4096 ⟨fun _ => 0, loaded.1, loaded.2⟩ twoStrings = .ok first ∧
      BrkRun page4096 (fun _ => True) first m ∧ sysBrk page4096 m = .ok (result, m') ∧
      ¬ BrkSafe page4096 loaded m' := by
  obtain ⟨loaded, first, load, setup, -, base, alloc, end'⟩ := twoStrings_setup fun _ => 0
  have addr : brkAddr (first.ask 0x8000010000000000) = 0x8000010000000000 :=
    brkAddr_ask (by decide)
  have base' : (first.ask 0x8000010000000000).mmu.base = 0x11000 := base
  have alloc' : (first.ask 0x8000010000000000).mmu.alloc = 0x2011007 := alloc
  have hostEnd : toGuest (first.ask 0x8000010000000000).mmu.hostAlloc = 0x2012000 := end'
  have called : sysBrk page4096 (first.ask 0x8000010000000000) = .ok (brkAddr _, _) :=
    sysBrk_of_stay (by rw [base', alloc']; decide) (by rw [base', addr]; decide)
      (by rw [addr, alloc', hostEnd]; decide) (by rw [addr, alloc', hostEnd]; decide)
  refine ⟨loaded, first, _, _, _, load, setup, .ask .start 0x8000010000000000, called, ?_⟩
  intro safe
  have le : brkAddr (first.ask 0x8000010000000000) ≤ first.mmu.guestEnd := safe.alloc_le
  rw [addr, end'] at le
  exact absurd le (by decide)

set_option maxRecDepth 10000 in
/-- After setup the program moves the break up by 15 pages, and then back by 13. -/
theorem twoStrings_breaks : ∃ loaded first m m',
    mmuLoadElf page4096 (oneSegmentElf 120 160) {} emptyHost = .ok loaded ∧
      machineSetup page4096 ⟨fun _ => 0, loaded.1, loaded.2⟩ twoStrings = .ok first ∧
      first.mmu.alloc = 0x2011007 ∧ first.mmu.guestEnd = 0x2012000 ∧
      sysBrk page4096 (first.ask 0x2020001) = .ok (0x2020001, m) ∧ m.mmu.guestEnd = 0x2021000 ∧
      sysBrk page4096 (m.ask 0x2013001) = .ok (0x2013001, m') ∧ m'.mmu.guestEnd = 0x2014000 :=
  ⟨_, _, _, _, rfl, rfl, rfl, rfl, rfl, rfl, rfl, rfl⟩

/-- The second of these calls. -/
theorem sysBrk_safe_iff_breaks : ∃ (loaded : Mmu × Host) (m m' : Machine),
    mmuLoadElf page4096 (oneSegmentElf 120 160) {} emptyHost = .ok loaded ∧
      sysBrk page4096 (m.ask 0x2013001) = .ok (0x2013001, m') ∧ m.mmu.guestEnd = 0x2021000 ∧
      m'.mmu.guestEnd = 0x2014000 ∧ BrkSafe page4096 loaded m' := by
  obtain ⟨loaded, first, m, m', load, setup, alloc, end', grown, grownEnd, shrunk, shrunkEnd⟩ :=
    twoStrings_breaks
  have room : first.mmu.alloc ≤ first.mmu.guestEnd := by
    rw [alloc, end']
    decide
  have up : BrkFits page4096 (first.ask 0x2020001) := by
    right
    rw [brkAddr_ask (by decide)]
    change ((0x2020001 : U64) - first.mmu.alloc).slt 0 = false ∧ _
    rw [alloc]
    decide
  have down : BrkFits page4096 (m.ask 0x2013001) := by
    left
    rw [brkAddr_ask (by decide)]
    change (0x2013001 : U64) ≤ m.mmu.guestEnd
    rw [grownEnd]
    decide
  have run : BrkRun page4096 (BrkFits page4096) first (m.ask 0x2013001) :=
    .ask (.brk (.ask .start _) up grown) _
  obtain ⟨-, calls⟩ := sysBrk_safe_iff load setup room run
  exact ⟨loaded, m, m', load, shrunk, grownEnd, shrunkEnd, (calls _ _ shrunk).mpr down⟩

/-! ## What setup allocated -/

/-- The pages of the stack and of the argument strings. -/
def SetupPages (page : PageSize) (loaded : Mmu) (argv : Argv) (x : U64) : Prop :=
  InRange loaded.alloc
    (ceil (stackSize.toNat + (argv.strings.map CString.size).sum) page.bytes) x

/-- The call gives back pages from below the end of those that setup allocated. -/
def Releases (page : PageSize) (first m : Machine) : Prop :=
  (brkAddr m - m.mmu.alloc).slt 0 = true ∧ up (brkAddr m) page.word < m.mmu.guestEnd ∧
    toHost (up (brkAddr m) page.word) < first.mmu.hostAlloc

/-- The pages of setup are mapped, and below the end of the host allocation. -/
structure SetupKept (page : PageSize) (loaded : Mmu) (argv : Argv) (first m : Machine) : Prop where
  hostAlloc : first.mmu.hostAlloc.toNat ≤ m.mmu.hostAlloc.toNat
  mapped : ∀ x, SetupPages page loaded argv x → (m.host.mem (toHost x)).isSome

section Kept

variable {page : PageSize} {loaded : Mmu × Host} {gpRegs : Reg → U64} {argv : Argv}
  {first m m' : Machine} {result : U64}

/-- The host addresses of the pages. -/
theorem setupPages_iff (at' : AtStart page loaded.1)
    (grown : Grown page loaded.1 (stackBytes + total argv.strings) first.mmu) (x : U64) :
    SetupPages page loaded.1 argv x ↔ loaded.1.hostAlloc.toNat ≤ (toHost x).toNat ∧
      (toHost x).toNat < first.mmu.hostAlloc.toNat := by
  have start : toHost loaded.1.alloc = loaded.1.hostAlloc := by
    rw [at'.guest]
    exact BitVec.sub_add_cancel ..
  have fits := first.mmu.hostAlloc.isLt
  have end' := grown.hostAlloc
  change InRange _ (ceil (stackBytes + total argv.strings) page.bytes) x ↔ _
  rw [← inRange_toHost, start, inRange_iff (by omega), end']

/-- The last byte of the pages. -/
theorem setupPages_last (at' : AtStart page loaded.1)
    (grown : Grown page loaded.1 (stackBytes + total argv.strings) first.mmu) :
    SetupPages page loaded.1 argv (toGuest (first.mmu.hostAlloc - 1)) ∧
      (toHost (toGuest (first.mmu.hostAlloc - 1))).toNat + 1 = first.mmu.hostAlloc.toNat := by
  have nonempty : 0 < ceil (stackBytes + total argv.strings) page.bytes := by
    have positive := Nat.two_pow_pos 25
    have covers : stackBytes + total argv.strings ≤
        ceil (stackBytes + total argv.strings) page.bytes := le_ceil page.bytes_pos
    have stackBytes_eq : stackBytes = 2 ^ 25 := rfl
    omega
  have grew := grown.hostAlloc
  have last : (toHost (toGuest (first.mmu.hostAlloc - 1))).toNat + 1 =
      first.mmu.hostAlloc.toNat := by
    have one : (1 : U64).toNat = 1 := rfl
    rw [toHost, toGuest, BitVec.sub_add_cancel, toNat_sub_of_le (by omega), one]
    omega
  refine ⟨(setupPages_iff at' grown _).mpr ?_, last⟩
  omega

/-- **One call.** The pages stay as they are exactly when none of them is given back. -/
theorem SetupKept.step (at' : AtStart page loaded.1)
    (grown : Grown page loaded.1 (stackBytes + total argv.strings) first.mmu)
    (inv : SetupKept page loaded.1 argv first m) (called : sysBrk page m = .ok (result, m')) :
    ((∀ x, SetupPages page loaded.1 argv x → m'.host.mem (toHost x) = m.host.mem (toHost x)) ↔
      ¬ Releases page first m) ∧
      (¬ Releases page first m → SetupKept page loaded.1 argv first m') := by
  obtain ⟨-, alloc, -, base, sum, -, -, moved⟩ := sysBrk_ok called
  have target : m.mmu.alloc + (brkAddr m - m.mmu.alloc) = brkAddr m := sum.symm.trans alloc
  -- a call that keeps the contents keeps the pages mapped
  have keeps : ∀ same : (∀ x, SetupPages page loaded.1 argv x →
      m'.host.mem (toHost x) = m.host.mem (toHost x)),
      first.mmu.hostAlloc.toNat ≤ m'.mmu.hostAlloc.toNat → SetupKept page loaded.1 argv first m' :=
    fun same above => ⟨above, fun x inside => same x inside ▸ inv.mapped x inside⟩
  have above := inv.hostAlloc
  cases moved with
  | @grow len grows len_eq accepts hostAlloc mem =>
      obtain ⟨-, -, fits⟩ := accepts
      have length : len.toNat ≤ pagesOf page len := le_ceil page.bytes_pos
      have same : ∀ x, SetupPages page loaded.1 argv x →
          m'.host.mem (toHost x) = m.host.mem (toHost x) := by
        intro x inside
        have below := (setupPages_iff at' grown x).mp inside
        rw [mem, map_of_out]
        rw [inRange_iff fits.le]
        omega
      have kept : ¬ Releases page first m := by
        rintro ⟨negative, -⟩
        rw [slt_asymm grows.1] at negative
        cases negative
      refine ⟨iff_of_true same kept, fun _ => keeps same ?_⟩
      rw [hostAlloc, BitVec.toNat_add, Nat.mod_eq_of_lt (by omega)]
      omega
  | @shrink len shrinks len_eq accepts hostAlloc mem =>
      rw [target] at shrinks len_eq accepts mem
      obtain ⟨-, -, fits⟩ := accepts
      have end' : m'.mmu.hostAlloc = toHost (up (brkAddr m) page.word) := by
        rw [← toHost_guestEnd, guestEnd_shrink (len_eq ▸ hostAlloc)]
      have length : len.toNat ≤ pagesOf page len := le_ceil page.bytes_pos
      by_cases below : toHost (up (brkAddr m) page.word) < first.mmu.hostAlloc
      · -- the last byte of the pages is unmapped
        have below' := BitVec.lt_def.mp below
        have hostEnd : (toHost (up (brkAddr m) page.word)).toNat + len.toNat =
            m.mmu.hostAlloc.toNat := by
          have whole := toHost_add_distance (up (brkAddr m) page.word) m.mmu.hostAlloc
          rw [← whole, ← len_eq, BitVec.toNat_add, Nat.mod_eq_of_lt (by omega)]
        have released : Releases page first m := ⟨shrinks.1, shrinks.2, below⟩
        refine ⟨iff_of_false ?_ (not_not_intro released), fun kept => absurd released kept⟩
        intro same
        obtain ⟨inside, last⟩ := setupPages_last at' grown
        have unmapped := same _ inside
        rw [mem, unmap_of_in (by rw [inRange_iff fits.le]; omega)] at unmapped
        have mapped := inv.mapped _ inside
        rw [← unmapped] at mapped
        cases mapped
      · have kept : ¬ Releases page first m := fun released => below released.2.2
        have above' : first.mmu.hostAlloc.toNat ≤ (toHost (up (brkAddr m) page.word)).toNat :=
          Nat.le_of_not_lt below
        have same : ∀ x, SetupPages page loaded.1 argv x →
            m'.host.mem (toHost x) = m.host.mem (toHost x) := by
          intro x inside
          have low := (setupPages_iff at' grown x).mp inside
          rw [mem, unmap_of_out]
          rw [inRange_iff fits.le]
          omega
        exact ⟨iff_of_true same kept, fun _ => keeps same (end' ▸ above')⟩
  | stay grows shrinks hostAlloc mem =>
      rw [target] at shrinks
      have kept : ¬ Releases page first m := fun released => shrinks ⟨released.1, released.2.1⟩
      have same : ∀ x, SetupPages page loaded.1 argv x →
          m'.host.mem (toHost x) = m.host.mem (toHost x) := fun x _ => congrFun mem _
      exact ⟨iff_of_true same kept, fun _ => keeps same (hostAlloc ▸ above)⟩

theorem SetupKept.guest (inv : SetupKept page loaded.1 argv first m) {gpRegs : Reg → U64}
    {mem : Space} (same : ∀ x, (mem x).isSome = (m.host.mem x).isSome) :
    SetupKept page loaded.1 argv first
      { m with gpRegs := gpRegs, host := { m.host with mem := mem } } := by
  refine ⟨inv.hostAlloc, fun x inside => ?_⟩
  change (mem _).isSome
  rw [same]
  exact inv.mapped x inside

theorem SetupKept.start (at' : AtStart page loaded.1)
    (reserved : Reserved page loaded.1 loaded.2.mem (stackBytes + total argv.strings) first) :
    SetupKept page loaded.1 argv first first := by
  refine ⟨le_rfl, fun x inside => ?_⟩
  have host := (setupPages_iff at' reserved.grown x).mp inside
  have end' := reserved.grown.hostAlloc
  have fits := first.mmu.hostAlloc.isLt
  have mapped := reserved.mapped ((toHost x).toNat - loaded.1.hostAlloc.toNat) (by omega)
  have address : loaded.1.hostAt ((toHost x).toNat - loaded.1.hostAlloc.toNat) = toHost x := by
    apply BitVec.eq_of_toNat_eq
    rw [loaded.1.toNat_hostAt (by omega)]
    omega
  rwa [address] at mapped

theorem BrkRun.setupKept (at' : AtStart page loaded.1)
    (reserved : Reserved page loaded.1 loaded.2.mem (stackBytes + total argv.strings) first)
    (run : BrkRun page (fun m => ¬ Releases page first m) first m) :
    SetupKept page loaded.1 argv first m := by
  induction run with
  | start => exact .start at' reserved
  | brk _ kept called inv => exact (inv.step at' reserved.grown called).2 kept
  | guest _ same inv => exact inv.guest same

end Kept

/-- **The stack and the break.** In every run whose calls give back no page from below the
end of what setup allocated, the pages of setup stay mapped, and a further call leaves
them as they are exactly when it gives back none. -/
theorem sysBrk_keeps_setup_iff {page : PageSize} {file : List U8} {loaded : Mmu × Host}
    {gpRegs : Reg → U64} {argv : Argv} {first m : Machine}
    (load : mmuLoadElf page file {} emptyHost = .ok loaded)
    (setup : machineSetup page ⟨gpRegs, loaded.1, loaded.2⟩ argv = .ok first)
    (run : BrkRun page (fun m => ¬ Releases page first m) first m) :
    (∀ x, SetupPages page loaded.1 argv x → (m.host.mem (toHost x)).isSome) ∧
      ∀ result m', sysBrk page m = .ok (result, m') →
        ((∀ x, SetupPages page loaded.1 argv x → m'.host.mem (toHost x) = m.host.mem (toHost x)) ↔
          ¬ Releases page first m) := by
  obtain ⟨at', reserved⟩ := reserved_of_setup load setup
  have inv := run.setupKept at' reserved
  exact ⟨inv.mapped, fun result m' called => (inv.step at' reserved.grown called).1⟩

/-- The break moves up and back, and none of the pages of setup is given back. -/
theorem sysBrk_keeps_setup_iff_breaks : ∃ (loaded : Mmu × Host) (m m' : Machine),
    mmuLoadElf page4096 (oneSegmentElf 120 160) {} emptyHost = .ok loaded ∧
      sysBrk page4096 (m.ask 0x2013001) = .ok (0x2013001, m') ∧ m.mmu.guestEnd = 0x2021000 ∧
      m'.mmu.guestEnd = 0x2014000 ∧
      (∀ x, SetupPages page4096 loaded.1 twoStrings x → (m.host.mem (toHost x)).isSome) ∧
      ∀ x, SetupPages page4096 loaded.1 twoStrings x →
        m'.host.mem (toHost x) = m.host.mem (toHost x) := by
  obtain ⟨loaded, first, m, m', load, setup, alloc, end', grown, grownEnd, shrunk, shrunkEnd⟩ :=
    twoStrings_breaks
  have up : ¬ Releases page4096 first (first.ask 0x2020001) := by
    rintro ⟨negative, -⟩
    rw [brkAddr_ask (by decide)] at negative
    change ((0x2020001 : U64) - first.mmu.alloc).slt 0 = true at negative
    rw [alloc] at negative
    exact absurd negative (by decide)
  have down : ¬ Releases page4096 first (m.ask 0x2013001) := by
    rintro ⟨-, -, below⟩
    rw [brkAddr_ask (by decide), ← toHost_guestEnd, end'] at below
    exact absurd below (by decide)
  have run : BrkRun page4096 (fun m => ¬ Releases page4096 first m) first (m.ask 0x2013001) :=
    .ask (.brk (.ask .start _) up grown) _
  obtain ⟨mapped, calls⟩ := sysBrk_keeps_setup_iff load setup run
  exact ⟨loaded, m, m', load, shrunk, grownEnd, shrunkEnd, mapped, (calls _ _ shrunk).mpr down⟩

/-- The program sets the break to the base, which is accepted: the stack is unmapped. -/
theorem sysBrk_unmaps_stack : ∃ loaded first m result m' x,
    mmuLoadElf page4096 (oneSegmentElf 120 160) {} emptyHost = .ok loaded ∧
      machineSetup page4096 ⟨fun _ => 0, loaded.1, loaded.2⟩ twoStrings = .ok first ∧
      BrkRun page4096 (fun _ => True) first m ∧ sysBrk page4096 m = .ok (result, m') ∧
      SetupPages page4096 loaded.1 twoStrings x ∧ m'.host.mem (toHost x) = none := by
  obtain ⟨loaded, first, load, setup, start, base, alloc, end'⟩ := twoStrings_setup fun _ => 0
  have addr : brkAddr (first.ask 0x11000) = 0x11000 := brkAddr_ask (by decide)
  have base' : (first.ask 0x11000).mmu.base = 0x11000 := base
  have alloc' : (first.ask 0x11000).mmu.alloc = 0x2011007 := alloc
  have hostEnd : toGuest (first.ask 0x11000).mmu.hostAlloc = 0x2012000 := end'
  have rounded : up (0x11000 : U64) page4096.word = 0x11000 := by decide
  have accepts : Accepts page4096 (toHost 0x11000) (0x2012000 - 0x11000) := by decide
  obtain ⟨m', called, mem⟩ : ∃ m', sysBrk page4096 (first.ask 0x11000) = .ok (brkAddr _, m') ∧ _ :=
    sysBrk_of_shrink (by rw [base', alloc']; decide) (by rw [base', addr]; decide)
      (by rw [addr, alloc', hostEnd, rounded]; decide) (by rw [addr, hostEnd, rounded]; exact accepts)
  rw [addr, hostEnd, rounded] at mem
  refine ⟨loaded, first, _, _, m', 0x11000, load, setup, .ask .start 0x11000, called, ?_, ?_⟩
  · rw [SetupPages, start]
    decide
  · rw [mem]
    exact unmap_of_in (by decide)

end RiscvEmu
