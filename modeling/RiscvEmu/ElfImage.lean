import RiscvEmu.Mmu

/-!
# The memory image of an ELF file

What a program header describes is stated on the file alone (`Loadable`), and
what is in memory after loading is one formula for every header
(`Phdr.byte`): the file up to the end of the last page that holds file bytes,
zeros in the pages after it.

* `mmuLoadElf_settled`: after loading any file with a loadable segment, the
  break is at the end of the host allocation, which is a page boundary.
* `mmuLoadElf_image_iff`: a valid file is loaded as its headers describe exactly
  when the file continues with zeros between the file part of each segment and
  the end of that page or of the segment. `mmu_load_segment` maps the last page
  from the file and does not clear its tail.
-/

set_option autoImplicit false

namespace RiscvEmu

open Alignment Paging

/-! ## The loadable segments of a file -/

/-- The program headers with type `PT_LOAD`, in the order of the file. -/
def loadableSegments (file : List U8) : List Phdr :=
  match readEhdr file with
  | .error _ => []
  | .ok ehdr => (List.range ehdr.phnum.toNat).filterMap fun i =>
      match loadPhdr ehdr i file with
      | .error _ => none
      | .ok phdr => if phdr.type = ptLoad then some phdr else none

/-- The rounds over the program headers load the loadable ones in order. -/
theorem foldlM_mmuLoadRound {page : PageSize} {file : List U8} {ehdr : Ehdr} {indices : List Nat}
    {state result : Mmu × Host}
    (loaded : indices.foldlM (mmuLoadRound page file ehdr) state = .ok result) :
    (indices.filterMap fun i =>
      match loadPhdr ehdr i file with
      | .error _ => none
      | .ok phdr => if phdr.type = ptLoad then some phdr else none).foldlM
        (mmuLoadSegment page file) state = .ok result := by
  induction indices generalizing state with
  | nil => exact loaded
  | cons i indices ih =>
      rw [List.foldlM_cons] at loaded
      obtain ⟨next, round, rest⟩ := bind_ok.mp loaded
      obtain ⟨phdr, read, round⟩ := bind_ok.mp round
      by_cases load : phdr.type = ptLoad
      · rw [if_pos load] at round
        rw [List.filterMap_cons_some (by rw [read]; exact if_pos load), List.foldlM_cons]
        exact bind_ok.mpr ⟨next, round, ih rest⟩
      · rw [if_neg load] at round
        cases round
        rw [List.filterMap_cons_none (by rw [read]; exact if_neg load)]
        exact ih rest

/-- Loading a file is loading its loadable segments. -/
theorem mmuLoadElf_ok {page : PageSize} {file : List U8} {mmu : Mmu} {host : Host}
    {result : Mmu × Host} (loaded : mmuLoadElf page file mmu host = .ok result) :
    ∃ entry, (loadableSegments file).foldlM (mmuLoadSegment page file)
      ({ mmu with entry := entry }, host) = .ok result := by
  obtain ⟨ehdr, read, rounds⟩ := bind_ok.mp loaded
  refine ⟨ehdr.entry, ?_⟩
  rw [loadableSegments, read]
  exact foldlM_mmuLoadRound rounds

/-! ## The break after loading -/

/-- The host address of the first page of a segment. -/
def Phdr.hostStart (page : PageSize) (phdr : Phdr) : U64 := down (toHost phdr.vaddr) page.word

/-- The distance from the first page of a segment to the segment. -/
def Phdr.lead (page : PageSize) (phdr : Phdr) : U64 := toHost phdr.vaddr - phdr.hostStart page

theorem mapRemainingBss_ok {page : PageSize} {host host' : Host} {addr remainingBss : U64}
    {prot : U32} (cleared : mapRemainingBss page host addr remainingBss prot = .ok host') :
    host'.mem = if remainingBss > 0 then
      host.mem.map addr (pagesOf page remainingBss) fun _ => some 0 else host.mem := by
  rw [mapRemainingBss] at cleared
  split at cleared
  · next some' => rw [if_pos some', (mmapAnon_ok (orAbort_ok.mp cleared)).2.1]
  · next none' =>
      rw [if_neg none']
      cases cleared
      rfl

/-- Loading a segment: the two mappings, and the end of the host allocation. -/
theorem mmuLoadSegment_ok {page : PageSize} {file : List U8} {mmu : Mmu} {host : Host} {phdr : Phdr}
    {result : Mmu × Host} (loaded : mmuLoadSegment page file (mmu, host) phdr = .ok result) :
    let start := phdr.hostStart page
    let filesz := phdr.filesz + phdr.lead page
    let memsz := phdr.memsz + phdr.lead page
    let rest := up memsz page.word - up filesz page.word
    let hostAlloc := cmax mmu.hostAlloc (start + up memsz page.word)
    result.1 = { mmu with
        hostAlloc := hostAlloc, base := toGuest hostAlloc, alloc := toGuest hostAlloc } ∧
      ∃ mem, mem = host.mem.map start (pagesOf page filesz)
          (fun d => fileByte page file ((down phdr.offset page.word).toNat + d)) ∧
        result.2.mem = if rest > 0 then
          mem.map (start + up filesz page.word) (pagesOf page rest) fun _ => some 0 else mem := by
  simp only [mmuLoadSegment, bind_ok, orAbort_ok] at loaded
  simp only [Phdr.lead, Phdr.hostStart]
  obtain ⟨host₁, mapped, host₂, cleared, loaded⟩ := loaded
  cases loaded
  exact ⟨rfl, host₁.mem, (mmapFile_ok mapped).2.1, mapRemainingBss_ok cleared⟩

/-- The host allocation ends at a page, and the break is there once a segment is loaded. -/
structure Settled (page : PageSize) (segments : List Phdr) (mmu : Mmu) : Prop where
  aligned : page.bytes ∣ mmu.hostAlloc.toNat
  break_eq : segments ≠ [] → mmu.base = toGuest mmu.hostAlloc ∧ mmu.alloc = toGuest mmu.hostAlloc

theorem dvd_toNat_add {page : PageSize} {x y : U64} (first : page.bytes ∣ x.toNat)
    (second : page.bytes ∣ y.toNat) : page.bytes ∣ (x + y).toNat := by
  rw [BitVec.toNat_add]
  exact (Nat.dvd_mod_iff (page.bytes_dvd (by omega))).mpr (Nat.dvd_add first second)

theorem dvd_guestMemoryOffset {page : PageSize} : page.bytes ∣ guestMemoryOffset.toNat :=
  (page.bytes_dvd (le_refl 30)).trans ⟨8736, rfl⟩

/-- The two views of a page boundary. -/
theorem dvd_toNat_toGuest {page : PageSize} {x : U64} (dvd : page.bytes ∣ x.toNat) :
    page.bytes ∣ (toGuest x).toNat := by
  have whole : page.bytes ∣ 2 ^ 64 := page.bytes_dvd (by omega)
  rw [toGuest, BitVec.toNat_sub]
  exact (Nat.dvd_mod_iff whole).mpr
    (Nat.dvd_add (Nat.dvd_sub whole dvd_guestMemoryOffset) dvd)

theorem dvd_toNat_down {page : PageSize} (x : U64) : page.bytes ∣ (down x page.word).toNat := by
  rw [toNat_down page.powerOfTwo, PageSize.toNat_word]
  exact dvd_floor

theorem settled_foldlM {page : PageSize} {file : List U8} {segments done : List Phdr}
    {state result : Mmu × Host} (settled : Settled page done state.1)
    (loaded : segments.foldlM (mmuLoadSegment page file) state = .ok result) :
    Settled page (done ++ segments) result.1 := by
  induction segments generalizing done state with
  | nil =>
      cases loaded
      rwa [List.append_nil]
  | cons phdr segments ih =>
      rw [List.foldlM_cons] at loaded
      obtain ⟨next, first, rest⟩ := bind_ok.mp loaded
      obtain ⟨mmu, -⟩ := mmuLoadSegment_ok first
      rw [List.append_cons]
      refine ih ?_ rest
      rw [mmu]
      refine ⟨?_, fun _ => ⟨rfl, rfl⟩⟩
      rw [cmax]
      split_ifs
      · exact settled.aligned
      · exact dvd_toNat_add (dvd_toNat_down _) (up_eq_down ▸ dvd_toNat_down _)

/-- **The break after loading.** -/
theorem mmuLoadElf_settled {page : PageSize} {file : List U8} {host host' : Host} {mmu : Mmu}
    (loaded : mmuLoadElf page file {} host = .ok (mmu, host')) :
    Settled page (loadableSegments file) mmu := by
  obtain ⟨entry, loaded⟩ := mmuLoadElf_ok loaded
  have start : Settled page [] { entry := entry } :=
    ⟨Nat.dvd_zero _, fun some' => absurd rfl some'⟩
  exact settled_foldlM start loaded

/-! ## Valid segments -/

section Geometry

variable (page : PageSize) (phdr : Phdr)

/-- The guest address of the first page of a segment. -/
def Phdr.pageStart : Nat := floor phdr.vaddr.toNat page.bytes

/-- The guest address after the last page of a segment. -/
def Phdr.pageEnd : Nat := ceil (phdr.vaddr.toNat + phdr.memsz.toNat) page.bytes

/-- The guest address after the last page that holds file bytes of a segment. -/
def Phdr.fileEnd : Nat := ceil (phdr.vaddr.toNat + phdr.filesz.toNat) page.bytes

/-- A program header of a valid file: the segment has file bytes, they are in the
file, the offset agrees with the address in a page, and `TO_HOST` of its pages
is in the address space. -/
structure Phdr.Valid (file : List U8) : Prop where
  filled : 0 < phdr.filesz.toNat
  sizes : phdr.filesz.toNat ≤ phdr.memsz.toNat
  congruent : phdr.vaddr.toNat % page.bytes = phdr.offset.toNat % page.bytes
  present : phdr.offset.toNat + phdr.filesz.toNat ≤ file.length
  reachable : guestMemoryOffset.toNat + phdr.pageEnd page < 2 ^ 64

/-- What is in memory at a distance from the address of a segment. -/
def Phdr.byte (file : List U8) (k : Nat) : Option U8 :=
  if phdr.vaddr.toNat + k < phdr.fileEnd page then fileByte page file (phdr.offset.toNat + k)
  else some 0

end Geometry

section ValidSegment

variable {page : PageSize} {file : List U8} {phdr : Phdr}

theorem toNat_toHost {addr : U64} (fits : guestMemoryOffset.toNat + addr.toNat < 2 ^ 64) :
    (toHost addr).toNat = guestMemoryOffset.toNat + addr.toNat := by
  rw [toHost, BitVec.toNat_add, Nat.mod_eq_of_lt (by omega)]
  omega

/-- The pages of the segment and of its file part, from the distance of the segment to its page. -/
theorem Phdr.ends (page : PageSize) (phdr : Phdr) :
    phdr.pageEnd page = phdr.pageStart page +
        ceil (phdr.memsz.toNat + phdr.vaddr.toNat % page.bytes) page.bytes ∧
      phdr.fileEnd page = phdr.pageStart page +
        ceil (phdr.filesz.toNat + phdr.vaddr.toNat % page.bytes) page.bytes := by
  have split : floor phdr.vaddr.toNat page.bytes + phdr.vaddr.toNat % page.bytes =
      phdr.vaddr.toNat := floor_add_mod
  constructor
  · rw [Phdr.pageEnd, Phdr.pageStart, ← ceil_add_of_dvd page.bytes_pos dvd_floor]
    congr 1
    omega
  · rw [Phdr.fileEnd, Phdr.pageStart, ← ceil_add_of_dvd page.bytes_pos dvd_floor]
    congr 1
    omega

theorem Phdr.Valid.fileEnd_le (valid : phdr.Valid page file) :
    phdr.fileEnd page ≤ phdr.pageEnd page :=
  ceil_mono page.bytes_pos (Nat.add_le_add_left valid.sizes _)

theorem Phdr.Valid.end_le (valid : phdr.Valid page file) :
    guestMemoryOffset.toNat + (phdr.vaddr.toNat + phdr.memsz.toNat) < 2 ^ 64 := by
  have := valid.reachable
  have : phdr.vaddr.toNat + phdr.memsz.toNat ≤ phdr.pageEnd page := le_ceil page.bytes_pos
  omega

theorem Phdr.Valid.toNat_hostStart (valid : phdr.Valid page file) :
    (phdr.hostStart page).toNat = guestMemoryOffset.toNat + phdr.pageStart page := by
  have := valid.end_le
  rw [Phdr.hostStart, toNat_down page.powerOfTwo, PageSize.toNat_word,
    toNat_toHost (by omega), floor_add_of_dvd page.bytes_pos dvd_guestMemoryOffset, Phdr.pageStart]

theorem Phdr.Valid.toNat_lead (valid : phdr.Valid page file) :
    (phdr.lead page).toNat = phdr.vaddr.toNat % page.bytes := by
  have := valid.end_le
  have split : floor phdr.vaddr.toNat page.bytes + phdr.vaddr.toNat % page.bytes =
      phdr.vaddr.toNat := floor_add_mod
  have start := valid.toNat_hostStart
  have vaddr : (toHost phdr.vaddr).toNat = guestMemoryOffset.toNat + phdr.vaddr.toNat :=
    toNat_toHost (by omega)
  rw [Phdr.pageStart] at start
  rw [Phdr.lead, toNat_sub_of_le (by omega)]
  omega

/-- A size of the segment, extended to the start of its page and rounded up. -/
theorem Phdr.Valid.toNat_up (valid : phdr.Valid page file) {size : U64}
    (le : size.toNat ≤ phdr.memsz.toNat) :
    (size + phdr.lead page).toNat = size.toNat + phdr.vaddr.toNat % page.bytes ∧
      (up (size + phdr.lead page) page.word).toNat =
        ceil (size.toNat + phdr.vaddr.toNat % page.bytes) page.bytes := by
  have reach := valid.end_le
  have small := page.bytes_le
  have offset : guestMemoryOffset.toNat = 0x088800000000 := rfl
  have below : phdr.vaddr.toNat % page.bytes ≤ phdr.vaddr.toNat := Nat.mod_le ..
  have sum : (size + phdr.lead page).toNat = size.toNat + phdr.vaddr.toNat % page.bytes := by
    rw [BitVec.toNat_add, valid.toNat_lead, Nat.mod_eq_of_lt (by omega)]
  refine ⟨sum, ?_⟩
  rw [Alignment.toNat_up page.powerOfTwo (by rw [sum, PageSize.toNat_word]; omega), sum,
    PageSize.toNat_word]

/-- The two mappings of a valid segment: its pages up to the end of the file part
are mapped from the file, the others from zeros, and nothing else changes. -/
theorem mmuLoadSegment_mem {mmu : Mmu} {host : Host} {result : Mmu × Host}
    (valid : phdr.Valid page file)
    (loaded : mmuLoadSegment page file (mmu, host) phdr = .ok result) (x : U64) :
    result.2.mem x =
      if InRange (phdr.hostStart page) (phdr.fileEnd page - phdr.pageStart page) x then
        fileByte page file (floor phdr.offset.toNat page.bytes + (x - phdr.hostStart page).toNat)
      else if InRange (phdr.hostStart page) (phdr.pageEnd page - phdr.pageStart page) x then some 0
      else host.mem x := by
  obtain ⟨-, mem, mapped, cleared⟩ := mmuLoadSegment_ok loaded
  obtain ⟨pageEnd, fileEnd⟩ := phdr.ends page
  obtain ⟨filesz, fileUp⟩ := valid.toNat_up valid.sizes
  obtain ⟨-, memUp⟩ := valid.toNat_up le_rfl
  have start := valid.toNat_hostStart
  have reach := valid.reachable
  have le := valid.fileEnd_le
  have fromFile : pagesOf page (phdr.filesz + phdr.lead page) =
      phdr.fileEnd page - phdr.pageStart page := by
    rw [pagesOf, filesz, fileEnd, Nat.add_sub_cancel_left]
  have offset : (down phdr.offset page.word).toNat = floor phdr.offset.toNat page.bytes := by
    rw [toNat_down page.powerOfTwo, PageSize.toNat_word]
  rw [fromFile, offset] at mapped
  -- the pages without file bytes
  have rest : (up (phdr.memsz + phdr.lead page) page.word -
      up (phdr.filesz + phdr.lead page) page.word).toNat =
        phdr.pageEnd page - phdr.fileEnd page := by
    rw [toNat_sub_of_le (by omega)]
    omega
  have fromZeros : pagesOf page (up (phdr.memsz + phdr.lead page) page.word -
      up (phdr.filesz + phdr.lead page) page.word) = phdr.pageEnd page - phdr.fileEnd page := by
    have dvd : page.bytes ∣ phdr.pageEnd page - phdr.fileEnd page := Nat.dvd_sub dvd_ceil dvd_ceil
    rw [pagesOf, rest, ceil_of_dvd page.bytes_pos dvd]
  have second : (phdr.hostStart page + up (phdr.filesz + phdr.lead page) page.word).toNat =
      guestMemoryOffset.toNat + phdr.fileEnd page := by
    rw [BitVec.toNat_add, Nat.mod_eq_of_lt (by omega)]
    omega
  rw [fromZeros] at cleared
  have inFile := @inRange_iff (phdr.hostStart page) x (phdr.fileEnd page - phdr.pageStart page)
    (by omega)
  have inPages := @inRange_iff (phdr.hostStart page) x (phdr.pageEnd page - phdr.pageStart page)
    (by omega)
  have inZeros := @inRange_iff
    (phdr.hostStart page + up (phdr.filesz + phdr.lead page) page.word) x
    (phdr.pageEnd page - phdr.fileEnd page) (by omega)
  split at cleared
  · rw [cleared, mapped]
    simp only [Space.map, inFile, inPages, inZeros]
    split_ifs <;> first | rfl | omega
  · next none' =>
      have same : phdr.pageEnd page = phdr.fileEnd page := by
        rw [gt_iff_lt, BitVec.lt_def, rest] at none'
        simp only [BitVec.toNat_zero, BitVec.ofNat_eq_ofNat] at none'
        omega
      rw [cleared, mapped]
      simp only [Space.map, inFile, inPages]
      split_ifs <;> first | rfl | omega

/-- A byte of a valid segment after it is loaded. -/
theorem mmuLoadSegment_byte {mmu : Mmu} {host : Host} {result : Mmu × Host}
    (valid : phdr.Valid page file)
    (loaded : mmuLoadSegment page file (mmu, host) phdr = .ok result) {k : Nat}
    (inside : k < phdr.memsz.toNat) :
    result.2.mem (toHost (phdr.vaddr + BitVec.ofNat 64 k)) = phdr.byte page file k := by
  have reach := valid.end_le
  have split : floor phdr.vaddr.toNat page.bytes + phdr.vaddr.toNat % page.bytes =
      phdr.vaddr.toNat := floor_add_mod
  have split' : floor phdr.offset.toNat page.bytes + phdr.offset.toNat % page.bytes =
      phdr.offset.toNat := floor_add_mod
  have start := valid.toNat_hostStart
  have congruent := valid.congruent
  have pageStart : phdr.pageStart page = floor phdr.vaddr.toNat page.bytes := rfl
  have last : phdr.vaddr.toNat + phdr.memsz.toNat ≤ phdr.pageEnd page := le_ceil page.bytes_pos
  have guest : (phdr.vaddr + BitVec.ofNat 64 k).toNat = phdr.vaddr.toNat + k := by
    rw [BitVec.toNat_add, BitVec.toNat_ofNat]
    omega
  have host' : (toHost (phdr.vaddr + BitVec.ofNat 64 k)).toNat =
      guestMemoryOffset.toNat + (phdr.vaddr.toNat + k) := by
    rw [toNat_toHost (by omega), guest]
  have distance : (toHost (phdr.vaddr + BitVec.ofNat 64 k) - phdr.hostStart page).toNat =
      phdr.vaddr.toNat + k - phdr.pageStart page := by
    rw [toNat_sub_of_le (by omega)]
    omega
  have position : floor phdr.offset.toNat page.bytes +
      (phdr.vaddr.toNat + k - phdr.pageStart page) = phdr.offset.toNat + k := by
    omega
  rw [mmuLoadSegment_mem valid loaded, Phdr.byte]
  simp only [InRange, distance, position]
  split_ifs <;> first | rfl | omega

/-- Outside the pages of a valid segment nothing changes. -/
theorem mmuLoadSegment_frame {mmu : Mmu} {host : Host} {result : Mmu × Host}
    (valid : phdr.Valid page file)
    (loaded : mmuLoadSegment page file (mmu, host) phdr = .ok result) {x : U64}
    (outside : x.toNat < guestMemoryOffset.toNat + phdr.pageStart page ∨
      guestMemoryOffset.toNat + phdr.pageEnd page ≤ x.toNat) :
    result.2.mem x = host.mem x := by
  have start := valid.toNat_hostStart
  have reach := valid.reachable
  have le := valid.fileEnd_le
  obtain ⟨pageEnd, fileEnd⟩ := phdr.ends page
  rw [mmuLoadSegment_mem valid loaded, if_neg, if_neg]
  · rw [inRange_iff (by omega)]
    omega
  · rw [inRange_iff (by omega)]
    omega

/-- The end of the host allocation covers a valid segment and what it covered before. -/
theorem mmuLoadSegment_hostAlloc {mmu : Mmu} {host : Host} {result : Mmu × Host}
    (valid : phdr.Valid page file)
    (loaded : mmuLoadSegment page file (mmu, host) phdr = .ok result) :
    mmu.hostAlloc.toNat ≤ result.1.hostAlloc.toNat ∧
      guestMemoryOffset.toNat + phdr.pageEnd page ≤ result.1.hostAlloc.toNat := by
  obtain ⟨same, -⟩ := mmuLoadSegment_ok loaded
  obtain ⟨pageEnd, -⟩ := phdr.ends page
  obtain ⟨-, memUp⟩ := valid.toNat_up le_rfl
  have start := valid.toNat_hostStart
  have reach := valid.reachable
  have sum : (phdr.hostStart page + up (phdr.memsz + phdr.lead page) page.word).toNat =
      guestMemoryOffset.toNat + phdr.pageEnd page := by
    rw [BitVec.toNat_add, Nat.mod_eq_of_lt (by omega)]
    omega
  have hostAlloc : result.1.hostAlloc = cmax mmu.hostAlloc
      (phdr.hostStart page + up (phdr.memsz + phdr.lead page) page.word) := by rw [same]
  rw [hostAlloc, cmax]
  split_ifs with lt
  · rw [BitVec.lt_def] at lt
    exact ⟨le_rfl, by omega⟩
  · rw [BitVec.lt_def] at lt
    exact ⟨by omega, sum.ge⟩

end ValidSegment

/-! ## Valid files -/

/-- The pages of two segments are disjoint. -/
def PagesApart (page : PageSize) (first second : Phdr) : Prop :=
  first.pageEnd page ≤ second.pageStart page ∨ second.pageEnd page ≤ first.pageStart page

/-- A valid file, in any order of its headers. -/
structure ValidElf (page : PageSize) (file : List U8) : Prop where
  segments : ∀ phdr ∈ loadableSegments file, phdr.Valid page file
  disjoint : (loadableSegments file).Pairwise (PagesApart page)

/-- The segments loaded so far are in memory and below the host allocation. -/
structure Loaded (page : PageSize) (file : List U8) (done : List Phdr) (state : Mmu × Host) :
    Prop where
  bytes : ∀ phdr ∈ done, ∀ k < phdr.memsz.toNat,
    state.2.mem (toHost (phdr.vaddr + BitVec.ofNat 64 k)) = phdr.byte page file k
  below : ∀ phdr ∈ done,
    guestMemoryOffset.toNat + phdr.pageEnd page ≤ state.1.hostAlloc.toNat

section ValidFile

variable {page : PageSize} {file : List U8}

/-- One more segment, whose pages are apart from those of the segments before. -/
theorem Loaded.step {done : List Phdr} {phdr : Phdr} {state result : Mmu × Host}
    (before : Loaded page file done state) (valid : ∀ ph ∈ done ++ [phdr], ph.Valid page file)
    (apart : ∀ ph ∈ done, PagesApart page ph phdr)
    (loaded : mmuLoadSegment page file state phdr = .ok result) :
    Loaded page file (done ++ [phdr]) result := by
  have here : phdr.Valid page file := valid phdr (by simp)
  obtain ⟨keeps, covers⟩ := mmuLoadSegment_hostAlloc here loaded
  constructor
  · intro ph member k inside
    rcases List.mem_append.mp member with old | new
    · have there : ph.Valid page file := valid ph member
      have reach := there.end_le
      have first : ph.pageStart page ≤ ph.vaddr.toNat := floor_le
      have last : ph.vaddr.toNat + ph.memsz.toNat ≤ ph.pageEnd page := le_ceil page.bytes_pos
      have guest : (ph.vaddr + BitVec.ofNat 64 k).toNat = ph.vaddr.toNat + k := by
        rw [BitVec.toNat_add, BitVec.toNat_ofNat]
        omega
      have host : (toHost (ph.vaddr + BitVec.ofNat 64 k)).toNat =
          guestMemoryOffset.toNat + (ph.vaddr.toNat + k) := by
        rw [toNat_toHost (by omega), guest]
      rw [mmuLoadSegment_frame here loaded, before.bytes ph old k inside]
      rcases apart ph old with lower | upper
      · left; omega
      · right; omega
    · rw [List.mem_singleton] at new
      subst new
      exact mmuLoadSegment_byte here loaded inside
  · intro ph member
    rcases List.mem_append.mp member with old | new
    · exact (before.below ph old).trans keeps
    · rw [List.mem_singleton] at new
      subst new
      exact covers

theorem Loaded.foldlM {segments done : List Phdr} {state result : Mmu × Host}
    (before : Loaded page file done state)
    (valid : ∀ ph ∈ done ++ segments, ph.Valid page file)
    (disjoint : (done ++ segments).Pairwise (PagesApart page))
    (loaded : segments.foldlM (mmuLoadSegment page file) state = .ok result) :
    Loaded page file (done ++ segments) result := by
  induction segments generalizing done state with
  | nil =>
      cases loaded
      rwa [List.append_nil]
  | cons phdr segments ih =>
      rw [List.foldlM_cons] at loaded
      obtain ⟨next, first, rest⟩ := bind_ok.mp loaded
      have apart : ∀ ph ∈ done, PagesApart page ph phdr := fun ph member =>
        (List.pairwise_append.mp disjoint).2.2 ph member phdr (by simp)
      rw [List.append_cons] at valid disjoint ⊢
      exact ih (before.step (fun ph member => valid ph (List.mem_append_left _ member)) apart first)
        valid disjoint rest

/-- After loading a valid file every segment is in memory and below the break. -/
theorem mmuLoadElf_loaded {host host' : Host} {mmu : Mmu} (valid : ValidElf page file)
    (loaded : mmuLoadElf page file {} host = .ok (mmu, host')) :
    Loaded page file (loadableSegments file) (mmu, host') := by
  obtain ⟨entry, loaded⟩ := mmuLoadElf_ok loaded
  have start : Loaded page file [] ({ entry := entry }, host) :=
    ⟨by simp, by simp⟩
  exact start.foldlM valid.segments valid.disjoint loaded

/-- Without a loadable segment the break is not set. -/
theorem mmuLoadElf_empty {host host' : Host} {mmu : Mmu} (none' : loadableSegments file = [])
    (loaded : mmuLoadElf page file {} host = .ok (mmu, host')) :
    mmu.alloc = 0 ∧ mmu.hostAlloc = 0 := by
  obtain ⟨entry, loaded⟩ := mmuLoadElf_ok loaded
  rw [none'] at loaded
  cases loaded
  exact ⟨rfl, rfl⟩

/-- What the program headers describe: the file bytes of every segment, zeros in
the rest of it, and a break at a page boundary that no segment exceeds. -/
structure ImageDescribed (page : PageSize) (file : List U8) (mmu : Mmu) (host : Host) : Prop where
  contents : ∀ phdr ∈ loadableSegments file, ∀ k < phdr.filesz.toNat,
    host.mem (toHost (phdr.vaddr + BitVec.ofNat 64 k)) = file[phdr.offset.toNat + k]?
  zeros : ∀ phdr ∈ loadableSegments file, ∀ k, phdr.filesz.toNat ≤ k → k < phdr.memsz.toNat →
    host.mem (toHost (phdr.vaddr + BitVec.ofNat 64 k)) = some 0
  break_eq : mmu.base = mmu.alloc ∧ mmu.alloc = toGuest mmu.hostAlloc
  aligned : page.bytes ∣ mmu.base.toNat
  above : ∀ phdr ∈ loadableSegments file, phdr.vaddr.toNat + phdr.memsz.toNat ≤ mmu.base.toNat

/-- The file continues with zeros, if at all, from the end of the file part of the
segment to the end of the segment or of the page. -/
def Phdr.ZeroTail (page : PageSize) (file : List U8) (phdr : Phdr) : Prop :=
  ∀ k, phdr.filesz.toNat ≤ k → k < phdr.memsz.toNat →
    phdr.vaddr.toNat + k < phdr.fileEnd page → (file[phdr.offset.toNat + k]?).getD 0 = 0

/-- The bytes of the file part are in the file. -/
theorem Phdr.Valid.byte_of_lt {phdr : Phdr} (valid : phdr.Valid page file) {k : Nat}
    (inside : k < phdr.filesz.toNat) :
    phdr.byte page file k = file[phdr.offset.toNat + k]? := by
  have present := valid.present
  have whole : phdr.vaddr.toNat + phdr.filesz.toNat ≤ phdr.fileEnd page := le_ceil page.bytes_pos
  have length : file.length ≤ ceil file.length page.bytes := le_ceil page.bytes_pos
  have bound : phdr.offset.toNat + k < file.length := by omega
  rw [Phdr.byte, if_pos (by omega), fileByte, if_pos (by omega), List.getElem?_eq_getElem bound,
    Option.getD_some]

/-- A byte after the file part is zero in the pages without file bytes, and the
byte of the file in the last page with file bytes. -/
theorem Phdr.Valid.byte_of_ge {phdr : Phdr} (valid : phdr.Valid page file) (k : Nat) :
    phdr.byte page file k = some (if phdr.vaddr.toNat + k < phdr.fileEnd page then
      (file[phdr.offset.toNat + k]?).getD 0 else 0) := by
  rw [Phdr.byte]
  split_ifs with inFile
  · -- the last page of the file part is a page of the file
    have split : floor phdr.vaddr.toNat page.bytes + phdr.vaddr.toNat % page.bytes =
        phdr.vaddr.toNat := floor_add_mod
    have split' : floor phdr.offset.toNat page.bytes + phdr.offset.toNat % page.bytes =
        phdr.offset.toNat := floor_add_mod
    have congruent := valid.congruent
    have pageStart : phdr.pageStart page = floor phdr.vaddr.toNat page.bytes := rfl
    have last : floor phdr.offset.toNat page.bytes +
        ceil (phdr.filesz.toNat + phdr.vaddr.toNat % page.bytes) page.bytes ≤
          ceil file.length page.bytes := by
      rw [← ceil_add_of_dvd page.bytes_pos dvd_floor]
      have present := valid.present
      exact ceil_mono page.bytes_pos (by omega)
    obtain ⟨-, fileEnd⟩ := phdr.ends page
    rw [fileByte, if_pos (by omega)]
  · rfl

/-- **The image of a valid file.** It is the one that the headers describe exactly
when there is a segment and no segment is followed, in its last file page, by
other bytes of the file. -/
theorem mmuLoadElf_image_iff {host host' : Host} {mmu : Mmu} (valid : ValidElf page file)
    (returns : mmuLoadElf page file {} host = .ok (mmu, host')) :
    ImageDescribed page file mmu host' ↔
      loadableSegments file ≠ [] ∧ ∀ phdr ∈ loadableSegments file, phdr.ZeroTail page file := by
  have loaded := mmuLoadElf_loaded valid returns
  have settled := mmuLoadElf_settled returns
  constructor
  · intro image
    constructor
    · intro none'
      obtain ⟨alloc, hostAlloc⟩ := mmuLoadElf_empty none' returns
      have break_eq := image.break_eq.2
      rw [alloc, hostAlloc] at break_eq
      exact absurd break_eq (by decide)
    · intro phdr member k past inside inPage
      have zero := image.zeros phdr member k past inside
      rw [loaded.bytes phdr member k inside, (valid.segments phdr member).byte_of_ge k,
        if_pos inPage] at zero
      exact Option.some.inj zero
  · rintro ⟨some', zeroTail⟩
    obtain ⟨base, alloc⟩ := settled.break_eq some'
    have guest : ∀ phdr ∈ loadableSegments file,
        phdr.pageEnd page ≤ (toGuest mmu.hostAlloc).toNat := by
      intro phdr member
      have below := loaded.below phdr member
      rw [toGuest, toNat_sub_of_le (by simp only at below; omega)]
      simp only at below
      omega
    refine ⟨?_, ?_, ⟨base.trans alloc.symm, alloc⟩, ?_, ?_⟩
    · intro phdr member k inside
      have here := valid.segments phdr member
      have sizes := here.sizes
      rw [loaded.bytes phdr member k (by omega), here.byte_of_lt inside]
    · intro phdr member k past inside
      rw [loaded.bytes phdr member k inside, (valid.segments phdr member).byte_of_ge k]
      split_ifs with inPage
      · rw [zeroTail phdr member k past inside inPage]
      · rfl
    · rw [base]
      exact dvd_toNat_toGuest settled.aligned
    · intro phdr member
      have last : phdr.vaddr.toNat + phdr.memsz.toNat ≤ phdr.pageEnd page := le_ceil page.bytes_pos
      rw [base]
      exact last.trans (guest phdr member)

end ValidFile

/-! ## A file whose segment ends inside a page -/

/-- A file of a header and one program header. Its segment starts at the start of
the file and at guest address `0x10000`. -/
def oneSegmentElf (filesz memsz : U8) : List U8 :=
  [0x7f, 0x45, 0x4c, 0x46, 2, 1, 1, 0, 0, 0, 0, 0, 0, 0, 0, 0,
   2, 0, 243, 0, 1, 0, 0, 0, 0, 0, 1, 0, 0, 0, 0, 0,
   64, 0, 0, 0, 0, 0, 0, 0, 0, 0, 0, 0, 0, 0, 0, 0,
   0, 0, 0, 0, 64, 0, 56, 0, 1, 0, 0, 0, 0, 0, 0, 0,
   1, 0, 0, 0, 6, 0, 0, 0, 0, 0, 0, 0, 0, 0, 0, 0,
   0, 0, 1, 0, 0, 0, 0, 0, 0, 0, 1, 0, 0, 0, 0, 0,
   filesz, 0, 0, 0, 0, 0, 0, 0, memsz, 0, 0, 0, 0, 0, 0, 0,
   0, 16, 0, 0, 0, 0, 0, 0]

/-- Pages of 4096 bytes. -/
def page4096 : PageSize := ⟨12, by decide⟩

/-- A host process without guest memory. -/
def emptyHost : Host := ⟨fun _ => none, []⟩

set_option maxRecDepth 4000 in
theorem loadableSegments_oneSegmentElf :
    loadableSegments (oneSegmentElf 64 72) = [⟨1, 6, 0, 0x10000, 64, 72⟩] := rfl

set_option maxRecDepth 4000 in
theorem loadableSegments_oneSegmentElf_full :
    loadableSegments (oneSegmentElf 120 160) = [⟨1, 6, 0, 0x10000, 120, 160⟩] := rfl

theorem valid_oneSegment {filesz memsz : U64} (filled : 0 < filesz.toNat)
    (sizes : filesz.toNat ≤ memsz.toNat) (present : filesz.toNat ≤ 120)
    (small : memsz.toNat ≤ 4096) (f m : U8) :
    Phdr.Valid page4096 ⟨1, 6, 0, 0x10000, filesz, memsz⟩ (oneSegmentElf f m) := by
  have end' : ceil (0x10000 + memsz.toNat) 4096 ≤ 0x11000 :=
    ceil_le_of_dvd (by decide) (by decide) (by omega)
  refine ⟨filled, sizes, ?_, ?_, ?_⟩
  · change 0x10000 % 4096 = 0 % 4096
    decide
  · change 0 + filesz.toNat ≤ 120
    omega
  · change 0x088800000000 + ceil (0x10000 + memsz.toNat) 4096 < 2 ^ 64
    omega

theorem valid_oneSegmentElf : ValidElf page4096 (oneSegmentElf 64 72) := by
  constructor
  · rw [loadableSegments_oneSegmentElf]
    simpa using valid_oneSegment (by decide) (by decide) (by decide) (by decide) 64 72
  · rw [loadableSegments_oneSegmentElf]
    simp

theorem valid_oneSegmentElf_full : ValidElf page4096 (oneSegmentElf 120 160) := by
  constructor
  · rw [loadableSegments_oneSegmentElf_full]
    simpa using valid_oneSegment (by decide) (by decide) (by decide) (by decide) 120 160
  · rw [loadableSegments_oneSegmentElf_full]
    simp

set_option maxRecDepth 4000 in
/-- The segment of 64 file bytes and 72 bytes is followed in its page by the program
header, whose first byte is where the first byte of `.bss` should be zero. -/
theorem mmuLoadElf_tail_not_cleared :
    ∃ mmu host, ValidElf page4096 (oneSegmentElf 64 72) ∧
      mmuLoadElf page4096 (oneSegmentElf 64 72) {} emptyHost = .ok (mmu, host) ∧
      ¬ ImageDescribed page4096 (oneSegmentElf 64 72) mmu host := by
  refine ⟨_, _, valid_oneSegmentElf, rfl, ?_⟩
  intro image
  have member : (⟨1, 6, 0, 0x10000, 64, 72⟩ : Phdr) ∈ loadableSegments (oneSegmentElf 64 72) := by
    rw [loadableSegments_oneSegmentElf]
    exact List.mem_singleton.mpr rfl
  have zero := image.zeros _ member 64 (by decide) (by decide)
  exact absurd zero (by decide)

set_option maxRecDepth 4000 in
/-- A segment that contains the whole file is loaded with a cleared `.bss`. -/
theorem mmuLoadElf_image_iff_wholeFile :
    ∃ mmu host, mmuLoadElf page4096 (oneSegmentElf 120 160) {} emptyHost = .ok (mmu, host) ∧
      ImageDescribed page4096 (oneSegmentElf 120 160) mmu host := by
  refine ⟨_, _, rfl, (mmuLoadElf_image_iff valid_oneSegmentElf_full rfl).mpr ⟨?_, ?_⟩⟩
  · rw [loadableSegments_oneSegmentElf_full]
    simp
  · rw [loadableSegments_oneSegmentElf_full]
    intro phdr member k past inside inPage
    rw [List.mem_singleton] at member
    subst member
    have beyond : (oneSegmentElf 120 160).length ≤ 0 + k := (Nat.zero_add k).symm ▸ past
    change ((oneSegmentElf 120 160)[0 + k]?).getD 0 = 0
    rw [List.getElem?_eq_none beyond, Option.getD_none]

end RiscvEmu
