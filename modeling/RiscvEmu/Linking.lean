import RiscvEmu.CacheIntegrity
import RiscvEmu.Compile

/-!
# What the linker resolves

A relocation of the code is resolved when its field holds the distance from the field to
its symbol, at the place where the section of the symbol was put (`Resolved`). The linker
puts two sections into the cache at most, the code and the last section of read-only data,
takes every symbol for one of the read-only data, and does nothing without such a section.

* `machineCompile_resolves_iff`: an object that is linked is resolved exactly when this
  happens to be right for each of its relocations (`Linkable`).
-/

set_option autoImplicit false

namespace RiscvEmu

/-! ## Objects -/

section Objects

variable (elfbuf : Bytes.Memory)

/-- A section with a name. Index 0 is not a section. -/
def Named (name : List U8) (idx : Nat) : Prop :=
  0 < idx ∧ idx < (shnum elfbuf).toNat ∧ strEq elfbuf (sectionStr elfbuf idx) name = true

/-- A section of read-only data. -/
def IsRodata (idx : Nat) : Prop :=
  0 < idx ∧ idx < (shnum elfbuf).toNat ∧
    strPrefix elfbuf (sectionStr elfbuf idx) rodataPrefix = true

/-- The relocations in a section. -/
abbrev relas (rela : Nat) : List Rela := relaEntries elfbuf (shdrAt elfbuf rela)

/-- The symbol of a relocation. -/
abbrev symOf (symtab : Nat) (rel : Rela) : Sym := symAt elfbuf (shdrAt elfbuf symtab) rel.sym

/-- The fields of two relocations do not overlap. -/
def FieldsApart (a b : Rela) : Prop :=
  a.offset.toNat + 4 ≤ b.offset.toNat ∨ b.offset.toNat + 4 ≤ a.offset.toNat

/-- The code, its relocations and the symbols are one section each, and the fields of the
relocations lie apart from one another in the code. -/
structure WellFormed : Prop where
  single : ∀ name ∈ [textName, relaName, symtabName], ∀ i j, Named elfbuf name i →
    Named elfbuf name j → i = j
  inside : ∀ text rela, Named elfbuf textName text → Named elfbuf relaName rela →
    ∀ rel ∈ relas elfbuf rela, rel.offset.toNat + 4 ≤ (shdrAt elfbuf text).size.toNat
  apart : ∀ rela, Named elfbuf relaName rela → (relas elfbuf rela).Pairwise FieldsApart

/-- The value for the field of a relocation, with the section of its symbol at `addr` and
the field at `field`. -/
def relocated (addr : U64) (sym : Sym) (rel : Rela) (field : U64) : U32 :=
  (addr + sym.value + rel.addend - field).setWidth 32

/-- The sections that are put into the cache, and where. -/
inductive Placed (cache : Cache) (pc : U64) : Nat → U64 → Prop where
  | text {found : SectionIdxs} {rodataAddr : Option U64} {textAddr : U64} {cache' : Cache}
      (scan : scanSections elfbuf = .ok found)
      (place : placeSections elfbuf cache pc found = .ok (rodataAddr, textAddr, cache')) :
      Placed cache pc found.text textAddr
  | rodata {found : SectionIdxs} {rodataAddr textAddr : U64} {cache' : Cache}
      (scan : scanSections elfbuf = .ok found)
      (place : placeSections elfbuf cache pc found = .ok (some rodataAddr, textAddr, cache')) :
      Placed cache pc found.rodata rodataAddr

/-- Every relocation of the code at `textAddr` is resolved. -/
def Resolved (cache : Cache) (pc textAddr : U64) (cache' : Cache) : Prop :=
  ∀ rela symtab, Named elfbuf relaName rela → Named elfbuf symtabName symtab →
    ∀ rel ∈ relas elfbuf rela, ∃ addr,
      Placed elfbuf cache pc (symOf elfbuf symtab rel).shndx.toNat addr ∧
      Bytes.load cache'.jitcode (textAddr + rel.offset) 32 =
        relocated addr (symOf elfbuf symtab rel) rel (textAddr + rel.offset)

/-- The section of read-only data that the scan finds. -/
def LastRodata (idx : Nat) : Prop := IsRodata elfbuf idx ∧ ∀ i, IsRodata elfbuf i → i ≤ idx

/-- Two sections that are put into the cache one after the other get one address, up to the
width of a field. -/
def SamePlace (cache : Cache) (first second : Shdr) : Prop :=
  (alignTo (alignTo cache.offset first.addralign + first.size) second.addralign).setWidth 32 =
    (alignTo cache.offset first.addralign).setWidth 32

/-- The relocations that come out right. -/
inductive LinksRight (cache : Cache) (text symtab : Nat) (rel : Rela) : Prop where
  /-- The symbol is one of the read-only data that the scan finds. -/
  | rodata {rodata : Nat} (last : LastRodata elfbuf rodata)
      (defined : (symOf elfbuf symtab rel).shndx.toNat = rodata)
  /-- The symbol is one of the code, and the read-only data takes no place. -/
  | together {rodata : Nat} (last : LastRodata elfbuf rodata)
      (defined : (symOf elfbuf symtab rel).shndx.toNat = text)
      (same : SamePlace cache (shdrAt elfbuf rodata) (shdrAt elfbuf text))
  /-- Nothing is done, and the field holds the value as it is. -/
  | already (none' : ∀ idx, ¬ IsRodata elfbuf idx)
      (defined : (symOf elfbuf symtab rel).shndx.toNat = text)
      (holds : Bytes.load elfbuf ((shdrAt elfbuf text).offset + rel.offset) 32 =
        ((symOf elfbuf symtab rel).value + rel.addend - rel.offset).setWidth 32)

/-- All relocations come out right. -/
def Linkable (cache : Cache) : Prop :=
  ∀ text rela symtab, Named elfbuf textName text → Named elfbuf relaName rela →
    Named elfbuf symtabName symtab → ∀ rel ∈ relas elfbuf rela,
      LinksRight elfbuf cache text symtab rel

end Objects

/-! ## The scan -/

section Scan

variable {elfbuf : Bytes.Memory} {found : SectionIdxs}

/-- A loop that keeps the last index at which a test holds. -/
theorem foldl_last (p : Nat → Bool) (n : Nat) :
    (∀ i < n, p i = true → i ≤ (List.range n).foldl (fun found i => if p i then i else found) 0) ∧
      ((List.range n).foldl (fun found i => if p i then i else found) 0 ≠ 0 →
        (List.range n).foldl (fun found i => if p i then i else found) 0 < n ∧
        p ((List.range n).foldl (fun found i => if p i then i else found) 0) = true) := by
  induction n with
  | zero => simp
  | succ n ih =>
      obtain ⟨last, holds⟩ := ih
      rw [List.range_succ, List.foldl_append, List.foldl_cons, List.foldl_nil]
      split_ifs with here
      · exact ⟨fun i bound _ => Nat.lt_succ_iff.mp bound, fun _ => ⟨Nat.lt_succ_self n, here⟩⟩
      · refine ⟨fun i bound test => ?_, fun nonzero => ?_⟩
        · rcases Nat.lt_succ_iff_lt_or_eq.mp bound with less | rfl
          · exact last i less test
          · exact absurd test here
        · obtain ⟨less, test⟩ := holds nonzero
          exact ⟨Nat.lt_succ_of_lt less, test⟩

/-- What the scan finds. -/
structure Scanned (elfbuf : Bytes.Memory) (found : SectionIdxs) : Prop where
  text : Named elfbuf textName found.text
  symtab : Named elfbuf symtabName found.symtab
  rela : found.rela = 0 ∧ (∀ idx, ¬ Named elfbuf relaName idx) ∨ Named elfbuf relaName found.rela
  rodata : found.rodata = 0 ∧ (∀ idx, ¬ IsRodata elfbuf idx) ∨ LastRodata elfbuf found.rodata

theorem scanSections_ok (scan : scanSections elfbuf = .ok found) : Scanned elfbuf found := by
  obtain ⟨-, scan⟩ := cassert_bind_ok.mp scan
  obtain ⟨⟨text, symtab⟩, scan⟩ := cassert_bind_ok.mp scan
  have keeps : ∀ (field : SectionIdxs → Nat) (test : Nat → Bool), field {} = 0 →
      (∀ found idx, (if test idx then idx else field found) = field (scanSection elfbuf found idx)) →
      (∀ i < (shnum elfbuf).toNat, test i = true → i ≤ field found) ∧
        (field found ≠ 0 → field found < (shnum elfbuf).toNat ∧ test (field found) = true) := by
    intro field test zero step
    cases scan
    have folded : (List.range (shnum elfbuf).toNat).foldl
        (fun found idx => if test idx then idx else found) (field {}) =
          field ((List.range (shnum elfbuf).toNat).foldl (scanSection elfbuf) {}) :=
      List.foldl_hom field step
    rw [zero] at folded
    rw [← folded]
    exact foldl_last test _
  -- a field that is not zero is an index at which its test holds
  have text' := (keeps SectionIdxs.text (fun idx => strEq elfbuf (sectionStr elfbuf idx) textName)
    rfl fun _ _ => rfl).2
  have symtab' := (keeps SectionIdxs.symtab
    (fun idx => strEq elfbuf (sectionStr elfbuf idx) symtabName) rfl fun _ _ => rfl).2
  obtain ⟨relaLast, relaAt⟩ := keeps SectionIdxs.rela
    (fun idx => strEq elfbuf (sectionStr elfbuf idx) relaName) rfl fun _ _ => rfl
  obtain ⟨rodataLast, rodataAt⟩ := keeps SectionIdxs.rodata
    (fun idx => strPrefix elfbuf (sectionStr elfbuf idx) rodataPrefix) rfl fun _ _ => rfl
  have same := Except.ok.inj scan
  rw [same] at text symtab
  refine ⟨⟨Nat.pos_of_ne_zero text, text' text⟩, ⟨Nat.pos_of_ne_zero symtab, symtab' symtab⟩, ?_, ?_⟩
  · by_cases zero : found.rela = 0
    · refine .inl ⟨zero, fun idx named => ?_⟩
      have last := relaLast idx named.2.1 named.2.2
      exact Nat.not_lt.mpr (zero ▸ last) named.1
    · exact .inr ⟨Nat.pos_of_ne_zero zero, relaAt zero⟩
  · by_cases zero : found.rodata = 0
    · refine .inl ⟨zero, fun idx named => ?_⟩
      have last := rodataLast idx named.2.1 named.2.2
      exact Nat.not_lt.mpr (zero ▸ last) named.1
    · exact .inr ⟨⟨Nat.pos_of_ne_zero zero, rodataAt zero⟩, fun i named =>
        rodataLast i named.2.1 named.2.2⟩

end Scan

/-! ## The relocations -/

section Relocations

variable {elfbuf jitcode jitcode' : Bytes.Memory} {symtab : Shdr} {textAddr rodataAddr : U64}
  {rel : Rela} {rels : List Rela}

/-- A word apart from the one that is stored. -/
theorem load_store_apart {memory : Bytes.Memory} {base a b : U64} {value : U32}
    (apart : a.toNat + 4 ≤ b.toNat ∨ b.toNat + 4 ≤ a.toNat) (fits : a.toNat + 4 ≤ 2 ^ 64)
    (fits' : b.toNat + 4 ≤ 2 ^ 64) :
    Bytes.load (Bytes.store memory (base + a) value) (base + b) 32 =
      Bytes.load memory (base + b) 32 := by
  apply Bytes.load_congr
  intro i bound
  apply Bytes.store_of_out
  rw [Bytes.InWord]
  have distance : base + b + BitVec.ofNat 64 i - (base + a) = b + BitVec.ofNat 64 i - a := by
    bv_omega
  rw [distance, BitVec.toNat_sub, BitVec.toNat_add, BitVec.toNat_ofNat]
  omega

/-- **One relocation** takes its symbol for one of the read-only data. -/
theorem relocate_ok (done : relocate elfbuf symtab textAddr rodataAddr jitcode rel = .ok jitcode') :
    jitcode' = Bytes.store jitcode (textAddr + rel.offset)
      (relocated rodataAddr (symAt elfbuf symtab rel.sym) rel (textAddr + rel.offset)) := by
  obtain ⟨-, done⟩ := cassert_bind_ok.mp done
  obtain ⟨-, done⟩ := cassert_bind_ok.mp done
  cases done
  rfl

/-- **The loop over the relocations.** -/
theorem relocations_ok {size : U64} (inside : ∀ rel ∈ rels, rel.offset.toNat + 4 ≤ size.toNat)
    (apart : rels.Pairwise FieldsApart)
    (done : rels.foldlM (relocate elfbuf symtab textAddr rodataAddr) jitcode = .ok jitcode') :
    (∀ rel ∈ rels, Bytes.load jitcode' (textAddr + rel.offset) 32 =
      relocated rodataAddr (symAt elfbuf symtab rel.sym) rel (textAddr + rel.offset)) ∧
    ∀ other : Rela, other.offset.toNat + 4 ≤ 2 ^ 64 → (∀ rel ∈ rels, FieldsApart rel other) →
      Bytes.load jitcode' (textAddr + other.offset) 32 =
        Bytes.load jitcode (textAddr + other.offset) 32 := by
  induction rels generalizing jitcode with
  | nil =>
      cases done
      exact ⟨List.forall_mem_nil _, fun _ _ _ => rfl⟩
  | cons rel rels ih =>
      rw [List.foldlM_cons] at done
      obtain ⟨jitcode₁, first, done⟩ := bind_ok.mp done
      obtain ⟨head, apart⟩ := List.pairwise_cons.mp apart
      obtain ⟨fits, inside⟩ := List.forall_mem_cons.mp inside
      obtain ⟨fields, others⟩ := ih inside apart done
      have bound := size.isLt
      have stored := relocate_ok first
      constructor
      · rw [List.forall_mem_cons]
        refine ⟨?_, fields⟩
        rw [others rel (by omega) fun later member => (head later member).symm, stored]
        exact @Bytes.load_store _ _ 4 (by decide) _
      · intro other fits' away
        obtain ⟨here, away⟩ := List.forall_mem_cons.mp away
        rw [others other fits' away, stored]
        exact load_store_apart here (by omega) fits'

/-- The value that is stored is right for another address of the section exactly when the
two addresses agree in the width of a field. -/
theorem relocated_eq_iff {a b field : U64} {sym : Sym} :
    relocated a sym rel field = relocated b sym rel field ↔ b.setWidth 32 = a.setWidth 32 := by
  have split : ∀ x : U64, relocated x sym rel field =
      x.setWidth 32 + (sym.value + rel.addend - field).setWidth 32 := by
    intro x
    have regroup : x + sym.value + rel.addend - field = x + (sym.value + rel.addend - field) := by
      bv_omega
    rw [relocated, regroup, BitVec.setWidth_add _ _ (by decide)]
  rw [split, split, BitVec.add_left_inj]
  exact eq_comm

/-- For a symbol of the code its place does not matter. -/
theorem relocated_self {sym : Sym} : relocated textAddr sym rel (textAddr + rel.offset) =
    (sym.value + rel.addend - rel.offset).setWidth 32 := by
  have cancel : textAddr + sym.value + rel.addend - (textAddr + rel.offset) =
      sym.value + rel.addend - rel.offset := by
    bv_omega
  rw [relocated, cancel]

end Relocations

/-! ## The places of the sections -/

section Places

variable {elfbuf : Bytes.Memory} {cache cache' : Cache} {pc textAddr : U64} {found : SectionIdxs}
  {rodataAddr : Option U64}

/-- What the linker puts into the cache. -/
inductive Placement (elfbuf : Bytes.Memory) (cache : Cache) (found : SectionIdxs) (textAddr : U64)
    (cache' : Cache) : Option U64 → Prop where
  | code (alone : found.rela = 0 ∨ found.rodata = 0)
      (jitcode : cache'.jitcode =
        Bytes.copy cache.jitcode textAddr (sectionBytes elfbuf (shdrAt elfbuf found.text))) :
      Placement elfbuf cache found textAddr cache' none
  | both {rodataAddr : U64} (rela : found.rela ≠ 0) (rodata : found.rodata ≠ 0)
      (first : rodataAddr = alignTo cache.offset (shdrAt elfbuf found.rodata).addralign)
      (second : textAddr = alignTo (rodataAddr + (shdrAt elfbuf found.rodata).size)
        (shdrAt elfbuf found.text).addralign) :
      Placement elfbuf cache found textAddr cache' (some rodataAddr)

theorem placeSections_ok
    (place : placeSections elfbuf cache pc found = .ok (rodataAddr, textAddr, cache')) :
    Placement elfbuf cache found textAddr cache' rodataAddr := by
  rw [placeSections] at place
  by_cases alone : found.rela = 0 ∨ found.rodata = 0
  · rw [if_pos alone] at place
    obtain ⟨⟨start, placed⟩, added, place⟩ := bind_ok.mp place
    obtain ⟨-, -, i, -, same⟩ := cacheAdd_ok added
    obtain ⟨rfl, rfl, rfl⟩ : none = rodataAddr ∧ start = textAddr ∧ placed = cache' := by
      simpa only [Prod.mk.injEq] using Except.ok.inj place
    have jitcode : placed.jitcode =
        Bytes.copy cache.jitcode start (sectionBytes elfbuf (shdrAt elfbuf found.text)) := by
      rw [same]
    exact .code alone jitcode
  · rw [if_neg alone] at place
    obtain ⟨⟨first, placed⟩, added, place⟩ := bind_ok.mp place
    obtain ⟨⟨start, placed'⟩, added', place⟩ := bind_ok.mp place
    obtain ⟨first', -, i, -, same⟩ := cacheAdd_ok added
    obtain ⟨start', -⟩ := cacheAdd_ok added'
    obtain ⟨rfl, rfl, rfl⟩ : some first = rodataAddr ∧ start = textAddr ∧ placed' = cache' := by
      simpa only [Prod.mk.injEq] using Except.ok.inj place
    obtain ⟨rela, rodata⟩ := not_or.mp alone
    refine .both rela rodata first' ?_
    rw [start', same, sectionBytes, Bytes.length_block, BitVec.ofNat_toNat,
      BitVec.setWidth_eq]

/-- The places are determined. -/
theorem placed_iff (scan : scanSections elfbuf = .ok found)
    (place : placeSections elfbuf cache pc found = .ok (rodataAddr, textAddr, cache'))
    {idx : Nat} {addr : U64} : Placed elfbuf cache pc idx addr ↔
      idx = found.text ∧ addr = textAddr ∨ idx = found.rodata ∧ rodataAddr = some addr := by
  constructor
  · intro placed
    cases placed with
    | text scan' place' =>
        rw [scan] at scan'
        cases scan'
        rw [place] at place'
        cases place'
        exact .inl ⟨rfl, rfl⟩
    | rodata scan' place' =>
        rw [scan] at scan'
        cases scan'
        rw [place] at place'
        cases place'
        exact .inr ⟨rfl, rfl⟩
  · rintro (⟨rfl, rfl⟩ | ⟨rfl, rfl⟩)
    · exact .text scan place
    · exact .rodata scan place

/-- Only the sections that the scan found are placed. -/
theorem Placed.idx (scan : scanSections elfbuf = .ok found) {idx : Nat} {addr : U64}
    (placed : Placed elfbuf cache pc idx addr) : idx = found.text ∨ idx = found.rodata := by
  cases placed with
  | text scan' =>
      rw [scan] at scan'
      exact .inl (congrArg SectionIdxs.text (Except.ok.inj scan').symm)
  | rodata scan' =>
      rw [scan] at scan'
      exact .inr (congrArg SectionIdxs.rodata (Except.ok.inj scan').symm)

end Places

/-! ## What is resolved -/

section Resolution

variable {elfbuf : Bytes.Memory} {cache cache' : Cache} {pc textAddr : U64} {found : SectionIdxs}

/-- Only the code is placed, as it is. -/
theorem resolved_iff_code (wf : WellFormed elfbuf) (scan : scanSections elfbuf = .ok found)
    (place : placeSections elfbuf cache pc found = .ok (none, textAddr, cache'))
    (alone : found.rela = 0 ∨ found.rodata = 0)
    (jitcode : cache'.jitcode =
      Bytes.copy cache.jitcode textAddr (sectionBytes elfbuf (shdrAt elfbuf found.text))) :
    Resolved elfbuf cache pc textAddr cache' ↔ Linkable elfbuf cache := by
  obtain ⟨text, symtab, relaScan, rodataScan⟩ := scanSections_ok scan
  have none' : ∀ rela, Named elfbuf relaName rela → ∀ idx, ¬ IsRodata elfbuf idx := by
    intro rela named
    rcases alone with zero | zero
    · rcases relaScan with ⟨-, absent⟩ | present
      · exact absurd named (absent rela)
      · exact absurd (zero ▸ present.1) (Nat.lt_irrefl 0)
    · rcases rodataScan with ⟨-, absent⟩ | last
      · exact absent
      · exact absurd (zero ▸ last.1.1) (Nat.lt_irrefl 0)
  have field : ∀ rela, Named elfbuf relaName rela → ∀ rel ∈ relas elfbuf rela,
      Bytes.load cache'.jitcode (textAddr + rel.offset) 32 =
        Bytes.load elfbuf ((shdrAt elfbuf found.text).offset + rel.offset) 32 := by
    intro rela named rel member
    have inside := wf.inside found.text rela text named rel member
    have offset : rel.offset = BitVec.ofNat 64 rel.offset.toNat := by
      rw [BitVec.ofNat_toNat, BitVec.setWidth_eq]
    rw [jitcode, offset]
    exact Bytes.load_copy_block inside (shdrAt elfbuf found.text).size.isLt.le
  constructor
  · intro resolved text' rela symtab' textNamed relaNamed symtabNamed rel member
    obtain ⟨addr, placed, holds⟩ := resolved rela symtab' relaNamed symtabNamed rel member
    rcases (placed_iff scan place).mp placed with ⟨defined, rfl⟩ | ⟨-, impossible⟩
    · have same := wf.single textName (by simp) _ _ text textNamed
      rw [field rela relaNamed rel member, relocated_self] at holds
      exact .already (none' rela relaNamed) (same ▸ defined) (same ▸ holds)
    · cases impossible
  · intro linkable rela symtab' relaNamed symtabNamed rel member
    cases linkable found.text rela symtab' text relaNamed symtabNamed rel member with
    | rodata last => exact absurd last.1 (none' rela relaNamed _)
    | together last => exact absurd last.1 (none' rela relaNamed _)
    | already _ defined holds =>
        refine ⟨textAddr, (placed_iff scan place).mpr (.inl ⟨defined, rfl⟩), ?_⟩
        rw [field rela relaNamed rel member, relocated_self]
        exact holds

/-- The read-only data and the code are placed, and every field is stored. -/
theorem resolved_iff_both {rodataAddr : U64} {jitcode : Bytes.Memory} (wf : WellFormed elfbuf)
    (scan : scanSections elfbuf = .ok found)
    (place : placeSections elfbuf cache pc found = .ok (some rodataAddr, textAddr, cache'))
    (relocated' : (relas elfbuf found.rela).foldlM
      (relocate elfbuf (shdrAt elfbuf found.symtab) textAddr rodataAddr) cache'.jitcode = .ok jitcode) :
    Resolved elfbuf cache pc textAddr { cache' with jitcode := jitcode } ↔
      Linkable elfbuf cache := by
  obtain ⟨text, symtab, relaScan, rodataScan⟩ := scanSections_ok scan
  cases placeSections_ok place with
  | both rela rodata first second =>
      have relaNamed := relaScan.resolve_left fun none' => rela none'.1
      have last := rodataScan.resolve_left fun none' => rodata none'.1
      obtain ⟨fields, -⟩ := relocations_ok (wf.inside found.text found.rela text relaNamed)
        (wf.apart found.rela relaNamed) relocated'
      have place' : ∀ idx addr, Placed elfbuf cache pc idx addr ↔ idx = found.text ∧ addr = textAddr ∨
          idx = found.rodata ∧ some rodataAddr = some addr := fun _ _ => placed_iff scan place
      constructor
      · intro resolved text' rela' symtab' textNamed relaNamed' symtabNamed rel member
        obtain ⟨addr, placed, holds⟩ := resolved rela' symtab' relaNamed' symtabNamed rel member
        obtain rfl := wf.single relaName (by simp) _ _ relaNamed relaNamed'
        obtain rfl := wf.single symtabName (by simp) _ _ symtab symtabNamed
        obtain rfl := wf.single textName (by simp) _ _ text textNamed
        rcases (place' _ _).mp placed with ⟨defined, rfl⟩ | ⟨defined, -⟩
        · rw [fields rel member, relocated_eq_iff] at holds
          refine .together last defined ?_
          rw [SamePlace, ← first, ← second]
          exact holds
        · exact .rodata last defined
      · intro linkable rela' symtab' relaNamed' symtabNamed rel member
        obtain rfl := wf.single relaName (by simp) _ _ relaNamed relaNamed'
        obtain rfl := wf.single symtabName (by simp) _ _ symtab symtabNamed
        cases linkable found.text _ _ text relaNamed symtab rel member with
        | rodata last' defined =>
            have same := Nat.le_antisymm (last.2 _ last'.1) (last'.2 _ last.1)
            exact ⟨rodataAddr, (place' _ _).mpr (.inr ⟨defined.trans same, rfl⟩), fields rel member⟩
        | together last' defined together =>
            have same := Nat.le_antisymm (last.2 _ last'.1) (last'.2 _ last.1)
            refine ⟨textAddr, (place' _ _).mpr (.inl ⟨defined, rfl⟩), ?_⟩
            rw [fields rel member, relocated_eq_iff, second, first, ← same]
            exact together
        | already none' => exact absurd last.1 (none' _)

end Resolution

/-! ## An object with two sections of read-only data -/

section Example

/-- The words of an object, up to the names of its sections. There are two sections of
read-only data, and the only symbol is in one of them. -/
def twoRodataWords (last : Bool) : List U64 :=
  List.flatten
    [[0x00010102464C457F, 0, 0x00000001003E0001, 0, 0, 64, 0x0000004000000000, 0x0006000700400000],
      -- the sections: none, code, two of read-only data, relocations, symbols and names
      [0, 0, 0, 0, 0, 0, 0, 0],
      [0x100000006, 0x06, 0, 512, 8, 0, 16, 0],
      [0x10000000C, 0x12, 0, 520, 8, 0, 8, 8],
      [0x100000019, 0x12, 0, 528, 16, 0, 16, 16],
      [0x400000001, 0x40, 0, 544, 24, 0x100000005, 8, 24],
      [0x200000027, 0, 0, 568, 48, 0x200000006, 8, 24],
      [0x300000000, 0, 0, 616, 47, 0, 1, 0],
      -- their contents
      [0x05100FF2],
      [0x3FF0000000000000],
      [0x8000000000000000, 0x8000000000000000],
      [4, 0x0000000100000002, -4],
      [0, 0, 0, 0x300000000 + (if last then 3 else 2) <<< 48, 0, 0]]

/-- The object. -/
def twoRodata (last : Bool) : Bytes.Memory :=
  Bytes.copy (fun address => ((twoRodataWords last).getD (address.toNat / 8) 0).extractLsb'
      (8 * (address.toNat % 8)) 8) 616
    (0 :: relaName ++ 0 :: rodataPrefix ++ chars ['c', 's', 't', '8'] ++
      0 :: rodataPrefix ++ chars ['c', 's', 't', '1', '6'] ++ 0 :: symtabName)

theorem twoRodata_count : ∀ last, shnum (twoRodata last) = 7 := by
  decide +kernel

/-- The sections with a name. -/
theorem twoRodata_names : ∀ last, ∀ entry ∈ [(textName, 1), (relaName, 4), (symtabName, 5)],
    ∀ idx < 7, strEq (twoRodata last) (sectionStr (twoRodata last) idx) entry.1 = true →
      idx = entry.2 := by
  decide +kernel

theorem twoRodata_size : ∀ last, (shdrAt (twoRodata last) 1).size = 8 := by
  decide +kernel

theorem twoRodata_relas : ∀ last, relas (twoRodata last) 4 = [⟨4, 2, 1, -4⟩] := by
  decide +kernel

section Names

variable {last : Bool}

theorem twoRodata_only {entry : List U8 × Nat} {idx : Nat}
    (member : entry ∈ [(textName, 1), (relaName, 4), (symtabName, 5)])
    (named : Named (twoRodata last) entry.1 idx) : idx = entry.2 := by
  obtain ⟨-, bound, same⟩ := named
  rw [twoRodata_count] at bound
  exact twoRodata_names last entry member idx bound same

theorem twoRodata_text {idx : Nat} (named : Named (twoRodata last) textName idx) : idx = 1 :=
  @twoRodata_only last (textName, 1) idx (by simp) named

theorem twoRodata_rela {idx : Nat} (named : Named (twoRodata last) relaName idx) : idx = 4 :=
  @twoRodata_only last (relaName, 4) idx (by simp) named

theorem twoRodata_symtab {idx : Nat} (named : Named (twoRodata last) symtabName idx) : idx = 5 :=
  @twoRodata_only last (symtabName, 5) idx (by simp) named

theorem twoRodata_relaNamed : Named (twoRodata last) relaName 4 := by
  refine ⟨by decide, ?_, ?_⟩
  · rw [twoRodata_count]
    decide
  · revert last
    decide +kernel

theorem twoRodata_symtabNamed : Named (twoRodata last) symtabName 5 := by
  refine ⟨by decide, ?_, ?_⟩
  · rw [twoRodata_count]
    decide
  · revert last
    decide +kernel

theorem twoRodata_wellFormed : WellFormed (twoRodata last) where
  single := by
    intro name member i j first second
    simp only [List.mem_cons, List.not_mem_nil, or_false] at member
    rcases member with rfl | rfl | rfl
    · rw [twoRodata_text first, twoRodata_text second]
    · rw [twoRodata_rela first, twoRodata_rela second]
    · rw [twoRodata_symtab first, twoRodata_symtab second]
  inside := by
    intro text rela textNamed relaNamed rel member
    rw [twoRodata_rela relaNamed, twoRodata_relas] at member
    rw [twoRodata_text textNamed, twoRodata_size, List.mem_singleton.mp member]
    decide
  apart := by
    intro rela relaNamed
    rw [twoRodata_rela relaNamed, twoRodata_relas]
    exact List.pairwise_singleton _ _

end Names

theorem twoRodata_scan : ∀ last,
    scanSections (twoRodata last) = .ok { text := 1, symtab := 5, rela := 4, rodata := 3 } := by
  decide +kernel

theorem twoRodata_shndx : ∀ last, (symOf (twoRodata last) 5 ⟨4, 2, 1, -4⟩).shndx.toNat =
    if last then 3 else 2 := by
  decide +kernel

/-- The object is linked. -/
theorem twoRodata_compiles : ∀ last,
    ∃ cache', machineCompile (twoRodata last) newCache 4096 = .ok (16, cache') := by
  intro last
  cases last with
  | false => exact ⟨_, rfl⟩
  | true => exact ⟨_, rfl⟩

end Example

/-! ## The main result -/

/-- **What is resolved.** When a well-formed object is linked, its relocations are resolved
exactly when each of them is against the section of read-only data that the scan finds,
or comes out right by itself. -/
theorem machineCompile_resolves_iff {elfbuf : Bytes.Memory} {cache cache' : Cache}
    {pc textAddr : U64} (wf : WellFormed elfbuf)
    (compiled : machineCompile elfbuf cache pc = .ok (textAddr, cache')) :
    Resolved elfbuf cache pc textAddr cache' ↔ Linkable elfbuf cache := by
  obtain ⟨found, scan, compiled⟩ := bind_ok.mp compiled
  obtain ⟨⟨rodataAddr, start, placed⟩, place, compiled⟩ := bind_ok.mp compiled
  cases rodataAddr with
  | none =>
      cases compiled
      cases placeSections_ok place with
      | code alone jitcode => exact resolved_iff_code wf scan place alone jitcode
  | some rodataAddr =>
      obtain ⟨jitcode, relocated, compiled⟩ := bind_ok.mp compiled
      cases compiled
      exact resolved_iff_both wf scan place relocated

/-- A constant in the section that is found last. -/
theorem machineCompile_resolves_iff_last :
    ∃ cache', machineCompile (twoRodata true) newCache 4096 = .ok (16, cache') ∧
      Resolved (twoRodata true) newCache 4096 16 cache' := by
  obtain ⟨cache', compiled⟩ := twoRodata_compiles true
  refine ⟨cache', compiled, (machineCompile_resolves_iff twoRodata_wellFormed compiled).mpr ?_⟩
  intro text rela symtab textNamed relaNamed symtabNamed rel member
  rw [twoRodata_rela relaNamed, twoRodata_relas] at member
  rw [twoRodata_symtab symtabNamed, List.mem_singleton.mp member]
  have last := (scanSections_ok (twoRodata_scan true)).rodata.resolve_left
    fun none' => absurd none'.1 (by decide)
  exact .rodata last (twoRodata_shndx true)

/-- The section of a constant that is not the last one found is not placed. -/
theorem machineCompile_misplaces_rodata : WellFormed (twoRodata false) ∧
    ∃ cache', machineCompile (twoRodata false) newCache 4096 = .ok (16, cache') ∧
      ¬ Resolved (twoRodata false) newCache 4096 16 cache' := by
  obtain ⟨cache', compiled⟩ := twoRodata_compiles false
  refine ⟨twoRodata_wellFormed, cache', compiled, fun resolved => ?_⟩
  obtain ⟨addr, placed, -⟩ := resolved 4 5 twoRodata_relaNamed twoRodata_symtabNamed
    ⟨4, 2, 1, -4⟩ (by rw [twoRodata_relas]; exact List.mem_singleton_self _)
  rw [twoRodata_shndx] at placed
  -- only the sections 1 and 3 are placed
  rcases placed.idx (twoRodata_scan false) with text | rodata
  · exact absurd text (by decide)
  · exact absurd rodata (by decide)

end RiscvEmu
