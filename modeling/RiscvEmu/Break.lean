import RiscvEmu.ElfImage

/-!
# The break over whole runs

The break starts where loading left it and is moved by `mmu_alloc`. Two numbers
describe it: `alloc` is the break itself, in bytes of the guest, and
`host_alloc` is the end of what the host has mapped for it. The equation between
them is that `host_alloc` is the host address of the break rounded up to a page
(`BreakInv.boundary`), and both ways to move the break preserve it.

* `mmuAlloc_cases`: what one call does, from the rounded break before and after:
  it maps the pages between them, unmaps them, or leaves the host alone.
* `mmuAlloc_invariant`: after every call of every run, the mapped pages are those
  below the break, the contents below it are kept and new pages are zero.
-/

set_option autoImplicit false

namespace RiscvEmu

open Alignment Paging

/-! ## Runs -/

/-- The break after a call, as an integer, is at least the base and below `2 ^ 62`. -/
def BreakInBounds (mmu : Mmu) (size : U64) : Prop :=
  (mmu.base.toNat : Int) ≤ mmu.alloc.toNat + size.toInt ∧ mmu.alloc.toNat + size.toInt < 2 ^ 62

/-- The states that calls of `mmu_alloc` reach from a start. Between the calls the
guest may change mapped bytes. -/
inductive BreakRun (page : PageSize) (start : Mmu × Host) : Mmu × Host → Prop where
  | start : BreakRun page start start
  | alloc {mmu mmu' : Mmu} {host host' : Host} {size result : U64} :
      BreakRun page start (mmu, host) → BreakInBounds mmu size →
      mmuAlloc page mmu host size = .ok (result, mmu', host') →
      BreakRun page start (mmu', host')
  | write {mmu : Mmu} {host : Host} {mem : Space} :
      BreakRun page start (mmu, host) → (∀ x, (mem x).isSome = (host.mem x).isSome) →
      BreakRun page start (mmu, { host with mem := mem })

/-- The addresses that a system call maps. -/
def Syscall.Maps (page : PageSize) : Syscall → U64 → Prop
  | .mapFile addr len _ _, x => InRange addr (pagesOf page len) x
  | .mapAnon addr len _, x => InRange addr (pagesOf page len) x
  | .unmap _ _, _ => False

/-! ## One call -/

/-- The rounded break. -/
def Mmu.top (page : PageSize) (mmu : Mmu) : Nat := ceil mmu.alloc.toNat page.bytes

/-- The end of the host allocation is the host address of the rounded break. -/
structure AtBoundary (page : PageSize) (mmu : Mmu) : Prop where
  base_dvd : page.bytes ∣ mmu.base.toNat
  base_le : mmu.base.toNat ≤ mmu.alloc.toNat
  boundary : toGuest mmu.hostAlloc = BitVec.ofNat 64 (mmu.top page)
  /-- The break is in the bounds, or has not been moved. -/
  bounded : mmu.alloc.toNat < 2 ^ 62 ∨ mmu.alloc = mmu.base

/-- How a call moves the pages below the break. -/
inductive PagesMoved (page : PageSize) (mmu mmu' : Mmu) (host host' : Host) : Prop where
  | grow (up : mmu.top page < mmu'.top page)
      (mem : host'.mem = host.mem.map mmu.hostAlloc (mmu'.top page - mmu.top page)
        fun _ => some 0)
      (call : ∃ len prot, pagesOf page len = mmu'.top page - mmu.top page ∧
        host'.calls = .mapAnon mmu.hostAlloc len prot :: host.calls)
  | shrink (down : mmu'.top page < mmu.top page)
      (mem : host'.mem = host.mem.unmap mmu'.hostAlloc (mmu.top page - mmu'.top page))
      (call : ∃ len, host'.calls = .unmap mmu'.hostAlloc len :: host.calls)
  | stay (same : mmu'.top page = mmu.top page) (host_eq : host' = host)

section Call

variable {page : PageSize} {mmu : Mmu} {host : Host} {size : U64}

theorem toNat_guestMemoryOffset : guestMemoryOffset.toNat = 0x088800000000 := rfl

theorem AtBoundary.alloc_lt (at' : AtBoundary page mmu) (bounds : BreakInBounds mmu size) :
    mmu.alloc.toNat < 2 ^ 62 := by
  obtain ⟨low, high⟩ := bounds
  rcases at'.bounded with lt | unmoved
  · exact lt
  · have same := congrArg BitVec.toNat unmoved
    omega

/-- The break after a call in the bounds is the sum of the integers. -/
theorem BreakInBounds.toNat_add (bounds : BreakInBounds mmu size) :
    ((mmu.alloc + size).toNat : Int) = mmu.alloc.toNat + size.toInt := by
  obtain ⟨low, high⟩ := bounds
  have signed := BitVec.toInt_eq_toNat_cond size
  rw [BitVec.toNat_add]
  split at signed <;> omega

theorem top_le {alloc : Nat} (lt : alloc < 2 ^ 62) : ceil alloc page.bytes ≤ 2 ^ 62 :=
  ceil_le_of_dvd page.bytes_pos (page.bytes_dvd (by omega)) lt.le

/-- The end of the host allocation, as a number. -/
theorem AtBoundary.toNat_hostAlloc (at' : AtBoundary page mmu) (small : mmu.alloc.toNat < 2 ^ 62) :
    (toGuest mmu.hostAlloc).toNat = mmu.top page ∧
      mmu.hostAlloc.toNat = guestMemoryOffset.toNat + mmu.top page := by
  have top : mmu.top page ≤ 2 ^ 62 := top_le small
  have guest : (toGuest mmu.hostAlloc).toNat = mmu.top page := by
    rw [at'.boundary, BitVec.toNat_ofNat, Nat.mod_eq_of_lt (by omega)]
  refine ⟨guest, ?_⟩
  rw [toGuest, BitVec.toNat_sub] at guest
  have := mmu.hostAlloc.isLt
  rw [toNat_guestMemoryOffset] at guest ⊢
  omega

/-- The end after a call maps pages, when the number of their bytes does not wrap. -/
theorem toNat_growth {alloc guest : U64} (dvd : page.bytes ∣ guest.toNat)
    (above : guest.toNat < alloc.toNat) (nonzero : up (alloc - guest) page.word ≠ 0) :
    guest.toNat + (up (alloc - guest) page.word).toNat = ceil alloc.toNat page.bytes := by
  have difference : (alloc - guest).toNat = alloc.toNat - guest.toNat := toNat_sub_of_le above.le
  have regroup : alloc.toNat = guest.toNat + (alloc.toNat - guest.toNat) := by omega
  -- the number of bytes wraps to zero in the last page only
  have fits : (alloc - guest).toNat + page.word.toNat ≤ 2 ^ 64 := by
    apply Nat.le_of_not_lt
    intro wraps
    exact nonzero (up_of_wrap page.powerOfTwo wraps)
  rw [toNat_up page.powerOfTwo fits, difference, PageSize.toNat_word]
  conv_rhs => rw [regroup, ceil_add_of_dvd page.bytes_pos dvd]

/-- Above the end, and not in the last page, there are bytes to map. -/
theorem growth_ne_zero {alloc guest : U64} (above : guest.toNat < alloc.toNat)
    (fits : alloc.toNat + page.bytes ≤ 2 ^ 64) : up (alloc - guest) page.word ≠ 0 := by
  intro zero
  have difference : (alloc - guest).toNat = alloc.toNat - guest.toNat := toNat_sub_of_le above.le
  have none' := congrArg BitVec.toNat zero
  rw [toNat_up page.powerOfTwo (by rw [PageSize.toNat_word]; omega), difference] at none'
  have covers : alloc.toNat - guest.toNat ≤ ceil (alloc.toNat - guest.toNat) page.word.toNat :=
    le_ceil page.powerOfTwo.pos
  simp only [BitVec.toNat_zero, BitVec.ofNat_eq_ofNat] at none'
  omega

/-- The break rounded up, before and after a call in the bounds. -/
structure Rounded (page : PageSize) (mmu : Mmu) (alloc : U64) : Prop where
  small : mmu.alloc.toNat < 2 ^ 62
  small' : alloc.toNat < 2 ^ 62
  above : mmu.base.toNat ≤ mmu.alloc.toNat
  above' : mmu.base.toNat ≤ alloc.toNat
  guest : (toGuest mmu.hostAlloc).toNat = mmu.top page
  hostAlloc : mmu.hostAlloc.toNat = guestMemoryOffset.toNat + mmu.top page

theorem AtBoundary.rounded (at' : AtBoundary page mmu) (bounds : BreakInBounds mmu size) :
    Rounded page mmu (mmu.alloc + size) := by
  have small := at'.alloc_lt bounds
  have sum := bounds.toNat_add
  obtain ⟨low, high⟩ := bounds
  obtain ⟨guest, hostAlloc⟩ := at'.toNat_hostAlloc small
  exact ⟨small, by omega, at'.base_le, by omega, guest, hostAlloc⟩

theorem Mmu.dvd_top : page.bytes ∣ mmu.top page := dvd_ceil

/-- What a call in the bounds amounts to. -/
def Moves (page : PageSize) (mmu : Mmu) (host : Host) (size : U64) : Prop :=
  ∃ mmu' host', mmuAlloc page mmu host size = .ok (mmu.alloc, mmu', host') ∧
    mmu'.base = mmu.base ∧ mmu'.alloc = mmu.alloc + size ∧
    mmu'.hostAlloc.toNat = guestMemoryOffset.toNat + mmu'.top page ∧
    PagesMoved page mmu mmu' host host'

/-- The two assertions hold. -/
theorem Rounded.asserts (rounded : Rounded page mmu (mmu.alloc + size)) :
    mmu.alloc ≥ mmu.base ∧ mmu.alloc + size ≥ mmu.base :=
  ⟨BitVec.le_def.mpr rounded.above, BitVec.le_def.mpr rounded.above'⟩

/-- A call that moves the break past the mapped pages maps more of them. -/
theorem mmuAlloc_grow (rounded : Rounded page mmu (mmu.alloc + size))
    (grows : (0 : U64).slt size = true ∧ mmu.alloc + size > toGuest mmu.hostAlloc) :
    Moves page mmu host size := by
  obtain ⟨before, after⟩ := rounded.asserts
  obtain ⟨small, small', -, -, guest, hostAlloc⟩ := rounded
  have offset := toNat_guestMemoryOffset
  have past : (toGuest mmu.hostAlloc).toNat < (mmu.alloc + size).toNat := BitVec.lt_def.mp grows.2
  have top' : ceil (mmu.alloc + size).toNat page.bytes ≤ 2 ^ 62 := top_le small'
  have covers : (mmu.alloc + size).toNat ≤ ceil (mmu.alloc + size).toNat page.bytes :=
    le_ceil page.bytes_pos
  have pageLe := page.bytes_le
  have nonzero : up (mmu.alloc + size - toGuest mmu.hostAlloc) page.word ≠ 0 :=
    growth_ne_zero past (by omega)
  have len : (up (mmu.alloc + size - toGuest mmu.hostAlloc) page.word).toNat =
      ceil (mmu.alloc + size).toNat page.bytes - mmu.top page := by
    rw [← toNat_growth (guest.symm ▸ Mmu.dvd_top) past nonzero, guest, Nat.add_sub_cancel_left]
  have pages : pagesOf page (up (mmu.alloc + size - toGuest mmu.hostAlloc) page.word) =
      ceil (mmu.alloc + size).toNat page.bytes - mmu.top page := by
    rw [pagesOf, len, ceil_of_dvd page.bytes_pos (Nat.dvd_sub dvd_ceil Mmu.dvd_top)]
  have accepts : Accepts page mmu.hostAlloc
      (up (mmu.alloc + size - toGuest mmu.hostAlloc) page.word) := by
    refine ⟨nonzero, ?_, ?_⟩
    · rw [hostAlloc]
      exact Nat.dvd_add dvd_guestMemoryOffset Mmu.dvd_top
    · rw [pages]
      omega
  refine ⟨{ mmu with
      alloc := mmu.alloc + size
      hostAlloc := mmu.hostAlloc + up (mmu.alloc + size - toGuest mmu.hostAlloc) page.word },
    { mem := host.mem.map mmu.hostAlloc
        (pagesOf page (up (mmu.alloc + size - toGuest mmu.hostAlloc) page.word)) fun _ => some 0
      calls := .mapAnon mmu.hostAlloc (up (mmu.alloc + size - toGuest mmu.hostAlloc) page.word)
        (protRead ||| protWrite) :: host.calls }, ?_, rfl, rfl, ?_, .grow ?_ ?_ ⟨_, _, pages, rfl⟩⟩
  · simp only [mmuAlloc, cassert, if_pos before, if_pos after, if_pos grows,
      mmapAnon_of_accepts page accepts, orAbort]
    rfl
  · change (mmu.hostAlloc + up _ page.word).toNat =
      guestMemoryOffset.toNat + ceil (mmu.alloc + size).toNat page.bytes
    rw [BitVec.toNat_add, len, hostAlloc]
    omega
  · change mmu.top page < ceil (mmu.alloc + size).toNat page.bytes
    omega
  · rw [pages]
    rfl

/-- A call that moves the break below the last mapped page unmaps some of them. -/
theorem mmuAlloc_shrink (rounded : Rounded page mmu (mmu.alloc + size))
    (shrinks : size.slt 0 = true ∧ up (mmu.alloc + size) page.word < toGuest mmu.hostAlloc) :
    Moves page mmu host size := by
  obtain ⟨before, after⟩ := rounded.asserts
  obtain ⟨small, small', -, -, guest, hostAlloc⟩ := rounded
  have offset := toNat_guestMemoryOffset
  have pageLe := page.bytes_le
  have top : mmu.top page ≤ 2 ^ 62 := top_le small
  have rounded' : (up (mmu.alloc + size) page.word).toNat =
      ceil (mmu.alloc + size).toNat page.bytes := by
    rw [toNat_up page.powerOfTwo (by rw [PageSize.toNat_word]; omega), PageSize.toNat_word]
  have below : (up (mmu.alloc + size) page.word).toNat < (toGuest mmu.hostAlloc).toNat :=
    BitVec.lt_def.mp shrinks.2
  have len : (toGuest mmu.hostAlloc - up (mmu.alloc + size) page.word).toNat =
      mmu.top page - ceil (mmu.alloc + size).toNat page.bytes := by
    rw [toNat_sub_of_le below.le, guest, rounded']
  have pages : pagesOf page (toGuest mmu.hostAlloc - up (mmu.alloc + size) page.word) =
      mmu.top page - ceil (mmu.alloc + size).toNat page.bytes := by
    rw [pagesOf, len, ceil_of_dvd page.bytes_pos (Nat.dvd_sub Mmu.dvd_top dvd_ceil)]
  have address : (toHost (up (mmu.alloc + size) page.word)).toNat =
      guestMemoryOffset.toNat + ceil (mmu.alloc + size).toNat page.bytes := by
    rw [toNat_toHost (by omega), rounded']
  have accepts : Accepts page (toHost (up (mmu.alloc + size) page.word))
      (toGuest mmu.hostAlloc - up (mmu.alloc + size) page.word) := by
    refine ⟨fun zero => ?_, ?_, ?_⟩
    · have none' := congrArg BitVec.toNat zero
      rw [len] at none'
      simp only [BitVec.toNat_zero, BitVec.ofNat_eq_ofNat] at none'
      omega
    · rw [address]
      exact Nat.dvd_add dvd_guestMemoryOffset dvd_ceil
    · rw [pages]
      omega
  have signs : ¬ ((0 : U64).slt size = true ∧ mmu.alloc + size > toGuest mmu.hostAlloc) := by
    rintro ⟨positive, -⟩
    have negative := shrinks.1
    rw [BitVec.slt_iff_toInt_lt] at positive negative
    omega
  -- the new end of the host allocation is the address that is unmapped
  have hostAlloc' : mmu.hostAlloc - (toGuest mmu.hostAlloc - up (mmu.alloc + size) page.word) =
      toHost (up (mmu.alloc + size) page.word) := by
    rw [toGuest, toHost]
    generalize up (mmu.alloc + size) page.word = top
    bv_omega
  refine ⟨{ mmu with
      alloc := mmu.alloc + size
      hostAlloc := mmu.hostAlloc - (toGuest mmu.hostAlloc - up (mmu.alloc + size) page.word) },
    { mem := host.mem.unmap (toHost (up (mmu.alloc + size) page.word))
        (pagesOf page (toGuest mmu.hostAlloc - up (mmu.alloc + size) page.word))
      calls := .unmap (toHost (up (mmu.alloc + size) page.word))
        (toGuest mmu.hostAlloc - up (mmu.alloc + size) page.word) :: host.calls },
    ?_, rfl, rfl, ?_, .shrink ?_ ?_ ?_⟩
  · simp only [mmuAlloc, cassert, if_pos before, if_pos after, if_neg signs, if_pos shrinks,
      munmap_of_accepts page accepts, orAbort]
    rfl
  · rw [hostAlloc', address]
    rfl
  · change ceil (mmu.alloc + size).toNat page.bytes < mmu.top page
    omega
  · rw [hostAlloc', pages]
    rfl
  · rw [hostAlloc']
    exact ⟨_, rfl⟩

/-- A call between the page boundaries leaves the host alone. -/
theorem mmuAlloc_stay (rounded : Rounded page mmu (mmu.alloc + size))
    (sum : ((mmu.alloc + size).toNat : Int) = mmu.alloc.toNat + size.toInt)
    (signs : ¬ ((0 : U64).slt size = true ∧ mmu.alloc + size > toGuest mmu.hostAlloc))
    (shrinks : ¬ (size.slt 0 = true ∧ up (mmu.alloc + size) page.word < toGuest mmu.hostAlloc)) :
    Moves page mmu host size := by
  obtain ⟨before, after⟩ := rounded.asserts
  obtain ⟨small, small', -, -, guest, hostAlloc⟩ := rounded
  have pageLe := page.bytes_le
  have rounded' : (up (mmu.alloc + size) page.word).toNat =
      ceil (mmu.alloc + size).toNat page.bytes := by
    rw [toNat_up page.powerOfTwo (by rw [PageSize.toNat_word]; omega), PageSize.toNat_word]
  have same : ceil (mmu.alloc + size).toNat page.bytes = mmu.top page := by
    rw [BitVec.slt_iff_toInt_lt, gt_iff_lt, BitVec.lt_def, guest] at signs
    rw [BitVec.slt_iff_toInt_lt, BitVec.lt_def, guest, rounded'] at shrinks
    have zero : (0 : U64).toInt = 0 := rfl
    rw [zero] at signs shrinks
    rcases lt_trichotomy size.toInt 0 with negative | unmoved | positive
    · have lower : ceil (mmu.alloc + size).toNat page.bytes ≤ mmu.top page :=
        ceil_mono page.bytes_pos (by omega)
      omega
    · have alloc : (mmu.alloc + size).toNat = mmu.alloc.toNat := by omega
      rw [alloc, Mmu.top]
    · have upper : mmu.top page ≤ ceil (mmu.alloc + size).toNat page.bytes :=
        ceil_mono page.bytes_pos (by omega)
      have inside : ceil (mmu.alloc + size).toNat page.bytes ≤ mmu.top page :=
        ceil_le_of_dvd page.bytes_pos Mmu.dvd_top (by omega)
      omega
  refine ⟨{ mmu with alloc := mmu.alloc + size }, host, ?_, rfl, rfl, ?_, .stay same rfl⟩
  · simp only [mmuAlloc, cassert, if_pos before, if_pos after, if_neg signs, if_neg shrinks]
    rfl
  · change mmu.hostAlloc.toNat =
      guestMemoryOffset.toNat + ceil (mmu.alloc + size).toNat page.bytes
    rw [same, hostAlloc]

/-- **One call.** In the bounds it returns the break before the call, moves it by the
size, and brings the host allocation to the rounded break. -/
theorem mmuAlloc_cases (at' : AtBoundary page mmu) (bounds : BreakInBounds mmu size) :
    Moves page mmu host size := by
  have rounded := at'.rounded bounds
  by_cases grows : (0 : U64).slt size = true ∧ mmu.alloc + size > toGuest mmu.hostAlloc
  · exact mmuAlloc_grow rounded grows
  · by_cases shrinks : size.slt 0 = true ∧ up (mmu.alloc + size) page.word < toGuest mmu.hostAlloc
    · exact mmuAlloc_shrink rounded shrinks
    · exact mmuAlloc_stay rounded bounds.toNat_add grows shrinks

end Call

/-! ## Whole runs -/

/-- What holds at every state of a run: the pages from the base to the rounded break
are mapped, and an address that the allocator ever mapped is one of them or is
not mapped any more. -/
structure BreakInv (page : PageSize) (start : Mmu × Host) (mmu : Mmu) (host : Host) : Prop where
  atBoundary : AtBoundary page mmu
  base_eq : mmu.base = start.1.base
  mapped : ∀ addr : U64, mmu.base.toNat ≤ addr.toNat → addr.toNat < mmu.top page →
    (host.mem (toHost addr)).isSome
  retired : ∃ calls, host.calls = calls ++ start.2.calls ∧ ∀ call ∈ calls, ∀ x : U64,
    call.Maps page x → host.mem x = none ∨
      guestMemoryOffset.toNat ≤ x.toNat ∧ x.toNat < guestMemoryOffset.toNat + mmu.top page

section Runs

variable {page : PageSize} {start : Mmu × Host} {mmu mmu' : Mmu} {host host' : Host} {size : U64}

/-- The state after loading a file with a segment. -/
theorem breakInv_start {file : List U8} {host₀ : Host} (segment : loadableSegments file ≠ [])
    (loaded : mmuLoadElf page file {} host₀ = .ok start) :
    BreakInv page start start.1 start.2 := by
  have settled := mmuLoadElf_settled loaded
  obtain ⟨base, alloc⟩ := settled.break_eq segment
  have aligned : page.bytes ∣ start.1.alloc.toNat := alloc ▸ dvd_toNat_toGuest settled.aligned
  have same : start.1.base = start.1.alloc := base.trans alloc.symm
  have top : start.1.top page = start.1.alloc.toNat := ceil_of_dvd page.bytes_pos aligned
  refine ⟨⟨same ▸ aligned, same ▸ le_rfl, ?_, .inr same.symm⟩, rfl, ?_, [], rfl, by simp⟩
  · rw [top, BitVec.ofNat_toNat, BitVec.setWidth_eq, alloc]
  · intro addr above below
    rw [top, ← same] at below
    omega

/-- A call keeps the boundary. -/
theorem AtBoundary.step (at' : AtBoundary page mmu) (bounds : BreakInBounds mmu size)
    (base : mmu'.base = mmu.base) (alloc : mmu'.alloc = mmu.alloc + size)
    (hostAlloc : mmu'.hostAlloc.toNat = guestMemoryOffset.toNat + mmu'.top page) :
    AtBoundary page mmu' := by
  obtain ⟨-, small', -, above', -, -⟩ := at'.rounded bounds
  have top' : mmu'.top page ≤ 2 ^ 62 := by rw [Mmu.top, alloc]; exact top_le small'
  refine ⟨base ▸ at'.base_dvd, by rw [base, alloc]; exact above', ?_, .inl (alloc ▸ small')⟩
  apply BitVec.eq_of_toNat_eq
  rw [toGuest, toNat_sub_of_le (by omega), BitVec.toNat_ofNat]
  omega

theorem BreakInv.step (inv : BreakInv page start mmu host) (bounds : BreakInBounds mmu size)
    (base : mmu'.base = mmu.base) (alloc : mmu'.alloc = mmu.alloc + size)
    (hostAlloc' : mmu'.hostAlloc.toNat = guestMemoryOffset.toNat + mmu'.top page)
    (moved : PagesMoved page mmu mmu' host host') : BreakInv page start mmu' host' := by
  have small := inv.atBoundary.alloc_lt bounds
  obtain ⟨-, hostAlloc⟩ := inv.atBoundary.toNat_hostAlloc small
  have at' := inv.atBoundary.step bounds base alloc hostAlloc'
  have small' : mmu'.alloc.toNat < 2 ^ 62 := alloc ▸ (inv.atBoundary.rounded bounds).small'
  have top : mmu.top page ≤ 2 ^ 62 := top_le small
  have top' : mmu'.top page ≤ 2 ^ 62 := top_le small'
  have offset := toNat_guestMemoryOffset
  obtain ⟨calls, recorded, retired⟩ := inv.retired
  refine ⟨at', base.trans inv.base_eq, ?_, ?_⟩
  · intro addr above below
    have hostAddr : (toHost addr).toNat = guestMemoryOffset.toNat + addr.toNat :=
      toNat_toHost (by omega)
    rw [base] at above
    cases moved with
    | grow up mem call =>
        by_cases old : addr.toNat < mmu.top page
        · rw [mem, map_of_out (by rw [inRange_iff (by omega)]; omega)]
          exact inv.mapped addr above old
        · rw [mem, map_of_in ((inRange_iff (by omega)).mpr (by omega))]
          rfl
    | shrink down mem call =>
        rw [mem, unmap_of_out (by rw [inRange_iff (by omega)]; omega)]
        exact inv.mapped addr above (by omega)
    | stay same host_eq =>
        rw [host_eq]
        exact inv.mapped addr above (by omega)
  · cases moved with
    | grow up mem call =>
        obtain ⟨len, prot, pages, recorded'⟩ := call
        refine ⟨.mapAnon mmu.hostAlloc len prot :: calls, by rw [recorded', recorded]; rfl, ?_⟩
        intro call member x maps
        by_cases new : InRange mmu.hostAlloc (mmu'.top page - mmu.top page) x
        · rw [inRange_iff (by omega)] at new
          right
          omega
        · rw [mem, map_of_out new]
          rcases List.mem_cons.mp member with rfl | old
          · rw [Syscall.Maps, pages] at maps
            exact absurd maps new
          · exact (retired call old x maps).imp_right (by omega)
    | shrink down mem call =>
        obtain ⟨len, recorded'⟩ := call
        refine ⟨.unmap mmu'.hostAlloc len :: calls, by rw [recorded', recorded]; rfl, ?_⟩
        intro call member x maps
        rcases List.mem_cons.mp member with rfl | old
        · exact absurd maps id
        · by_cases gone : InRange mmu'.hostAlloc (mmu.top page - mmu'.top page) x
          · exact .inl (by rw [mem, unmap_of_in gone])
          · rw [mem, unmap_of_out gone]
            rw [inRange_iff (by omega)] at gone
            exact (retired call old x maps).imp_right (by omega)
    | stay same host_eq =>
        rw [host_eq, same]
        exact ⟨calls, recorded, retired⟩

theorem BreakRun.invariant {file : List U8} {host₀ : Host} (segment : loadableSegments file ≠ [])
    (loaded : mmuLoadElf page file {} host₀ = .ok start) {state : Mmu × Host}
    (run : BreakRun page start state) : BreakInv page start state.1 state.2 := by
  induction run with
  | start => exact breakInv_start segment loaded
  | @alloc mmu mmu' host host' size result _ bounds called inv =>
      obtain ⟨mmu'', host'', called', base, alloc, hostAlloc, moved⟩ :=
        mmuAlloc_cases inv.atBoundary bounds
      rw [called'] at called
      cases called
      exact inv.step bounds base alloc hostAlloc moved
  | @write mmu host mem _ same inv =>
      refine ⟨inv.atBoundary, inv.base_eq, fun addr above below => ?_, ?_⟩
      · change (mem _).isSome
        rw [same]
        exact inv.mapped addr above below
      · obtain ⟨calls, recorded, retired⟩ := inv.retired
        refine ⟨calls, recorded, fun call member x maps => ?_⟩
        refine (retired call member x maps).imp_left fun none' => ?_
        have unmapped := same x
        rw [none'] at unmapped
        exact Option.not_isSome_iff_eq_none.mp (by simp [unmapped])

/-- What holds after a call that changes the first state to the second. -/
structure AfterCall (page : PageSize) (start : Mmu × Host) (mmu mmu' : Mmu) (host host' : Host) :
    Prop where
  boundary : toGuest mmu'.hostAlloc = up mmu'.alloc page.word
  base_le : mmu'.base = start.1.base ∧ mmu'.base ≤ mmu'.alloc
  /-- Every page from the base to the rounded break is mapped. -/
  mapped : ∀ addr : U64, mmu'.base ≤ addr → addr < up mmu'.alloc page.word →
    (host'.mem (toHost addr)).isSome
  /-- No address that a call of the run mapped is mapped at or above the rounded break. -/
  unmapped : ∃ calls, host'.calls = calls ++ start.2.calls ∧ ∀ call ∈ calls, ∀ addr : U64,
    up mmu'.alloc page.word ≤ addr → call.Maps page (toHost addr) →
      host'.mem (toHost addr) = none
  /-- The bytes below both breaks are kept. -/
  kept : ∀ addr : U64, addr < mmu.alloc → addr < mmu'.alloc →
    host'.mem (toHost addr) = host.mem (toHost addr)
  /-- The pages that the call maps are zero. -/
  zero : ∃ calls, host'.calls = calls ++ host.calls ∧ ∀ call ∈ calls, ∀ x,
    call.Maps page x → host'.mem x = some 0

/-- Moving the pages keeps the bytes below both breaks. -/
theorem PagesMoved.kept (moved : PagesMoved page mmu mmu' host host')
    (hostAlloc : mmu.hostAlloc.toNat = guestMemoryOffset.toNat + mmu.top page)
    (hostAlloc' : mmu'.hostAlloc.toNat = guestMemoryOffset.toNat + mmu'.top page)
    (top : mmu.top page ≤ 2 ^ 62) (top' : mmu'.top page ≤ 2 ^ 62) {addr : U64}
    (old : addr.toNat < mmu.top page) (new : addr.toNat < mmu'.top page) :
    host'.mem (toHost addr) = host.mem (toHost addr) := by
  have offset := toNat_guestMemoryOffset
  have hostAddr : (toHost addr).toNat = guestMemoryOffset.toNat + addr.toNat :=
    toNat_toHost (by omega)
  cases moved with
  | grow up mem call => rw [mem, map_of_out (by rw [inRange_iff (by omega)]; omega)]
  | shrink down mem call => rw [mem, unmap_of_out (by rw [inRange_iff (by omega)]; omega)]
  | stay same host_eq => rw [host_eq]

/-- The pages that a call maps are zero. -/
theorem PagesMoved.zero (moved : PagesMoved page mmu mmu' host host') :
    ∃ calls, host'.calls = calls ++ host.calls ∧ ∀ call ∈ calls, ∀ x,
      call.Maps page x → host'.mem x = some 0 := by
  cases moved with
  | grow up mem call =>
      obtain ⟨len, prot, pages, recorded⟩ := call
      refine ⟨[.mapAnon mmu.hostAlloc len prot], recorded, ?_⟩
      intro call member x maps
      rw [List.mem_singleton] at member
      subst member
      rw [Syscall.Maps, pages] at maps
      rw [mem, map_of_in maps]
  | shrink down mem call =>
      obtain ⟨len, recorded⟩ := call
      refine ⟨[.unmap mmu'.hostAlloc len], recorded, ?_⟩
      intro call member x maps
      rw [List.mem_singleton] at member
      subst member
      exact absurd maps id
  | stay same host_eq => exact ⟨[], by rw [host_eq]; rfl, by simp⟩

/-- **The allocator invariant.** After loading a file with a segment, every call of
every run in the bounds returns the break before it, and the pages, the bytes and
the two counters are as they should be afterwards. -/
theorem mmuAlloc_invariant {file : List U8} {host₀ : Host}
    (loaded : mmuLoadElf page file {} host₀ = .ok start) (segment : loadableSegments file ≠ [])
    (run : BreakRun page start (mmu, host)) (bounds : BreakInBounds mmu size) :
    ∃ mmu' host', mmuAlloc page mmu host size = .ok (mmu.alloc, mmu', host') ∧
      (mmu'.alloc.toNat : Int) = mmu.alloc.toNat + size.toInt ∧
      AfterCall page start mmu mmu' host host' := by
  have inv : BreakInv page start mmu host := run.invariant segment loaded
  have small := inv.atBoundary.alloc_lt bounds
  obtain ⟨-, hostAlloc⟩ := inv.atBoundary.toNat_hostAlloc small
  obtain ⟨mmu', host', called, base, alloc, hostAlloc', moved⟩ :=
    mmuAlloc_cases inv.atBoundary bounds
  have inv' := inv.step bounds base alloc hostAlloc' moved
  have small' : mmu'.alloc.toNat < 2 ^ 62 := alloc ▸ (inv.atBoundary.rounded bounds).small'
  have pageLe := page.bytes_le
  have rounded : (up mmu'.alloc page.word).toNat = mmu'.top page := by
    rw [toNat_up page.powerOfTwo (by rw [PageSize.toNat_word]; omega), PageSize.toNat_word]
    rfl
  refine ⟨mmu', host', called, by rw [alloc]; exact bounds.toNat_add, ?_, ?_, ?_, ?_, ?_, ?_⟩
  · rw [inv'.atBoundary.boundary, ← rounded, BitVec.ofNat_toNat, BitVec.setWidth_eq]
  · exact ⟨inv'.base_eq, BitVec.le_def.mpr inv'.atBoundary.base_le⟩
  · intro addr above below
    rw [BitVec.lt_def, rounded] at below
    exact inv'.mapped addr (BitVec.le_def.mp above) below
  · obtain ⟨calls, recorded, retired⟩ := inv'.retired
    refine ⟨calls, recorded, fun call member addr above maps => ?_⟩
    rw [BitVec.le_def, rounded] at above
    refine (retired call member _ maps).resolve_right fun inside => ?_
    have offset := toNat_guestMemoryOffset
    rw [toHost, BitVec.toNat_add] at inside
    omega
  · intro addr old new
    rw [BitVec.lt_def] at old new
    have top : mmu.alloc.toNat ≤ mmu.top page := le_ceil page.bytes_pos
    have top' : mmu'.alloc.toNat ≤ mmu'.top page := le_ceil page.bytes_pos
    exact moved.kept hostAlloc hostAlloc' (top_le small) (top_le small') (by omega) (by omega)
  · exact moved.zero

end Runs

set_option maxRecDepth 10000 in
/-- A small file is loaded, and its break grows by 5000 bytes and shrinks by 3000. -/
theorem oneSegment_breaks : ∃ start mmu host mmu' host',
    mmuLoadElf page4096 (oneSegmentElf 120 160) {} emptyHost = .ok start ∧
    BreakInBounds start.1 5000 ∧
    mmuAlloc page4096 start.1 start.2 5000 = .ok (start.1.alloc, mmu, host) ∧
    BreakInBounds mmu (-3000) ∧ mmuAlloc page4096 mmu host (-3000) = .ok (mmu.alloc, mmu', host') ∧
    BreakInBounds mmu' 9000 ∧ mmu'.alloc = start.1.alloc + 2000 :=
  ⟨_, _, _, _, _, rfl, ⟨by decide, by decide⟩, rfl, ⟨by decide, by decide⟩, rfl,
    ⟨by decide, by decide⟩, rfl⟩

/-- The call after these. -/
theorem mmuAlloc_invariant_thirdCall : ∃ start mmu host mmu' host',
    mmuLoadElf page4096 (oneSegmentElf 120 160) {} emptyHost = .ok start ∧
      BreakRun page4096 start (mmu, host) ∧ mmu.alloc = start.1.alloc + 2000 ∧
      mmuAlloc page4096 mmu host 9000 = .ok (mmu.alloc, mmu', host') ∧
      AfterCall page4096 start mmu mmu' host host' := by
  have segment : loadableSegments (oneSegmentElf 120 160) ≠ [] := by
    rw [loadableSegments_oneSegmentElf_full]
    simp
  obtain ⟨start, _, _, mmu, host, loaded, grows, grown, shrinks, shrunk, bounds, alloc⟩ :=
    oneSegment_breaks
  have run : BreakRun page4096 start (mmu, host) :=
    .alloc (.alloc .start grows grown) shrinks shrunk
  obtain ⟨mmu', host', called, -, after⟩ := mmuAlloc_invariant loaded segment run bounds
  exact ⟨start, mmu, host, mmu', host', loaded, run, alloc, called, after⟩

end RiscvEmu
