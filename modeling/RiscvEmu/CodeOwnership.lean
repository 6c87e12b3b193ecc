import RiscvEmu.FenceI
import RiscvEmu.Linking

/-!
# Whose code is entered

The cache is asked for code by pc, and the region that holds the code only grows: linking an
object writes behind everything that is there (`machineCompile_extends`). So the code that a
slot points to stays the code that was linked for the pc of the slot (`Cache.Owns`,
`CodeInv`), through every step of `machine_step` and whatever its caller does to the guest
between two calls (`Calls`).

* `entered_code_is_own`: code that is entered at a pc was linked for a block that was
  generated at this pc, at an earlier place of the run, and its bytes are still those.
* `compiled_once`: no pc is compiled twice in a run.
-/

set_option autoImplicit false

namespace RiscvEmu

/-! ## Objects -/

/-- A source that `machine_genblock` returns. -/
def IsGenerated (source : Source) : Prop :=
  ∃ insn mem pc, machineGenblock insn mem pc = .ok source

/-- The sections that are put into the cache have sizes and alignments as sections have. -/
def SectionsSized (elfbuf : Bytes.Memory) : Prop :=
  ∀ idx, Named elfbuf textName idx ∨ IsRodata elfbuf idx →
    (shdrAt elfbuf idx).size.toNat < 2 ^ 63 ∧
      ((shdrAt elfbuf idx).addralign = 0 ∨ Alignment.PowerOfTwo (shdrAt elfbuf idx).addralign)

/-- The compiler leaves well-formed objects for the sources that are generated. -/
structure Backend.MakesObjects (backend : Backend) : Prop where
  wellFormed : ∀ source, IsGenerated source → WellFormed (backend.clang source)
  sized : ∀ source, IsGenerated source → SectionsSized (backend.clang source)

/-! ## Linking writes behind what is there -/

/-- The region has grown, and what was in use is as it was. -/
structure Extends (cache cache' : Cache) : Prop where
  le : cache.offset.toNat ≤ cache'.offset.toNat
  inside : cache'.offset.toNat ≤ cacheSize
  kept : ∀ x : U64, x.toNat < cache.offset.toNat → cache'.jitcode x = cache.jitcode x

/-- What putting code into the cache does to the table: it fills the slot where the walk for
the pc ends, and the slot stays as hot as it was. -/
structure Fills (cache cache' : Cache) (pc entry : U64) (i : Fin cacheEntrySize) : Prop where
  walk : cache.walk pc maxSearchCount = some i
  pc : (cache'.table i).pc = pc
  offset : (cache'.table i).offset = entry
  hot : (cache'.table i).hot = (cache.table i).hot
  others : ∀ j, j ≠ i → cache'.table j = cache.table j

section Linking

variable {elfbuf : Bytes.Memory} {cache cache₁ cache' : Cache} {pc entry start align : U64}
  {code : List U8} {i : Fin cacheEntrySize}

theorem Extends.refl (inside : cache.offset.toNat ≤ cacheSize) : Extends cache cache :=
  ⟨le_rfl, inside, fun _ _ => rfl⟩

theorem Extends.trans (first : Extends cache cache₁) (second : Extends cache₁ cache') :
    Extends cache cache' where
  le := first.le.trans second.le
  inside := second.inside
  kept := by
    intro x below
    rw [second.kept x (below.trans_le first.le), first.kept x below]

/-- **`cache_add`** puts the code behind what is in use. -/
theorem cacheAdd_extends (inside : cache.offset.toNat ≤ cacheSize) (size : code.length < 2 ^ 63)
    (valid : align = 0 ∨ Alignment.PowerOfTwo align)
    (call : cacheAdd cache pc code align = .ok (start, cache')) :
    Extends cache cache' ∧ cache.offset.toNat ≤ start.toNat ∧
      start.toNat + code.length = cache'.offset.toNat := by
  obtain ⟨position, fits, i, -, rfl⟩ := cacheAdd_ok call
  have region : cacheSize = 2 ^ 26 := rfl
  have after : cache.offset.toNat ≤ start.toNat := position ▸ le_alignTo valid (by omega)
  have high : start.toNat ≤ 2 ^ 63 := position ▸ alignTo_le valid (by omega)
  -- the end of the code does not wrap
  have stop : (start + BitVec.ofNat 64 code.length).toNat = start.toNat + code.length := by
    rw [BitVec.toNat_add, BitVec.toNat_ofNat]
    omega
  refine ⟨⟨?_, fits, fun x below => ?_⟩, after, stop.symm⟩
  · exact stop ▸ after.trans (Nat.le_add_right _ _)
  · apply Bytes.copy_of_ge
    rw [BitVec.toNat_sub]
    omega

theorem cacheAdd_fills (call : cacheAdd cache pc code align = .ok (start, cache')) :
    ∃ i, Fills cache cache' pc start i := by
  obtain ⟨-, -, i, walk, rfl⟩ := cacheAdd_ok call
  have here : (cache.setItem i { cache.table i with pc := pc, offset := start }).table i =
    ⟨pc, (cache.table i).hot, start⟩ := Function.update_self ..
  have hot := congrArg CacheItem.hot here
  exact ⟨i, walk, congrArg CacheItem.pc here, congrArg CacheItem.offset here, hot,
    fun j other => Function.update_of_ne other ..⟩

/-- A walk ends where it ended before when the slot there is replaced by one with its pc. -/
theorem Cache.walk_setItem {item : CacheItem} (walk : cache.walk pc maxSearchCount = some i)
    (key : item.pc = pc) : (cache.setItem i item).walk pc maxSearchCount = some i := by
  rw [Cache.walk, Cache.pcs_setItem, key]
  exact Probing.probe_update_self walk

/-- The same when code has been put into the cache. -/
theorem Fills.walk_again (fills : Fills cache cache₁ pc entry i) :
    cache₁.walk pc maxSearchCount = some i := by
  have pcs : cache₁.pcs = Function.update cache.pcs i pc := by
    funext j
    by_cases same : j = i
    · subst same
      rw [Function.update_self]
      exact fills.pc
    · rw [Function.update_of_ne same, Cache.pcs, Cache.pcs, fills.others j same]
  rw [Cache.walk, pcs]
  exact Probing.probe_update_self fills.walk

/-- Two sections for one pc go to one slot. -/
theorem Fills.again {entry' : U64} {j : Fin cacheEntrySize} (first : Fills cache cache₁ pc entry i)
    (second : Fills cache₁ cache' pc entry' j) : Fills cache cache' pc entry' i := by
  have same : i = j := Option.some.inj (first.walk_again.symm.trans second.walk)
  subst same
  refine ⟨first.walk, second.pc, second.offset, second.hot.trans first.hot, fun j other => ?_⟩
  rw [second.others j other, first.others j other]

/-- A relocation inside the code writes nothing before it. -/
theorem relocations_kept {symtab : Shdr} {textAddr rodataAddr size : U64} {rels : List Rela}
    {jitcode jitcode' : Bytes.Memory} (inside : ∀ rel ∈ rels, rel.offset.toNat + 4 ≤ size.toNat)
    (fits : textAddr.toNat + size.toNat ≤ 2 ^ 63)
    (done : rels.foldlM (relocate elfbuf symtab textAddr rodataAddr) jitcode = .ok jitcode')
    {x : U64} (below : x.toNat < textAddr.toNat) : jitcode' x = jitcode x := by
  induction rels generalizing jitcode with
  | nil =>
      cases done
      rfl
  | cons rel rels ih =>
      rw [List.foldlM_cons] at done
      obtain ⟨jitcode₁, first, done⟩ := bind_ok.mp done
      obtain ⟨here, inside⟩ := List.forall_mem_cons.mp inside
      rw [ih inside done, relocate_ok first]
      apply Bytes.store_of_out
      rw [Bytes.InWord, BitVec.toNat_sub, BitVec.toNat_add]
      omega

/-- What `machine_compile` puts into the cache: the code, and before it the section of read-only
data when there is something to relocate. -/
inductive Links (elfbuf : Bytes.Memory) (cache : Cache) (pc entry : U64) (cache' : Cache) : Prop where
  | code {text : Nat} (named : Named elfbuf textName text)
      (add : cacheAdd cache pc (sectionBytes elfbuf (shdrAt elfbuf text))
        (shdrAt elfbuf text).addralign = .ok (entry, cache')) : Links elfbuf cache pc entry cache'
  | both {text rela rodata : Nat} {symtab : Shdr} {rodataAddr : U64} {cache₁ cache₂ : Cache}
      {jitcode : Bytes.Memory} (named : Named elfbuf textName text)
      (relaNamed : Named elfbuf relaName rela) (isRodata : IsRodata elfbuf rodata)
      (first : cacheAdd cache pc (sectionBytes elfbuf (shdrAt elfbuf rodata))
        (shdrAt elfbuf rodata).addralign = .ok (rodataAddr, cache₁))
      (second : cacheAdd cache₁ pc (sectionBytes elfbuf (shdrAt elfbuf text))
        (shdrAt elfbuf text).addralign = .ok (entry, cache₂))
      (relocated : (relas elfbuf rela).foldlM (relocate elfbuf symtab entry rodataAddr)
        cache₂.jitcode = .ok jitcode)
      (same : cache' = { cache₂ with jitcode := jitcode }) : Links elfbuf cache pc entry cache'

theorem machineCompile_links (compiled : machineCompile elfbuf cache pc = .ok (entry, cache')) :
    Links elfbuf cache pc entry cache' := by
  obtain ⟨found, scan, compiled⟩ := bind_ok.mp compiled
  obtain ⟨⟨rodataAddr, textAddr, placed⟩, place, compiled⟩ := bind_ok.mp compiled
  obtain ⟨text, -, relaScan, rodataScan⟩ := scanSections_ok scan
  rw [placeSections] at place
  by_cases alone : found.rela = 0 ∨ found.rodata = 0
  · rw [if_pos alone] at place
    obtain ⟨⟨start, placed₁⟩, added, place⟩ := bind_ok.mp place
    obtain ⟨rfl, rfl, rfl⟩ : none = rodataAddr ∧ start = textAddr ∧ placed₁ = placed := by
      simpa only [Prod.mk.injEq] using Except.ok.inj place
    cases compiled
    exact .code text added
  · rw [if_neg alone] at place
    obtain ⟨⟨first, placed₁⟩, added, place⟩ := bind_ok.mp place
    obtain ⟨⟨start, placed₂⟩, added', place⟩ := bind_ok.mp place
    obtain ⟨rfl, rfl, rfl⟩ : some first = rodataAddr ∧ start = textAddr ∧ placed₂ = placed := by
      simpa only [Prod.mk.injEq] using Except.ok.inj place
    obtain ⟨jitcode, relocated, compiled⟩ := bind_ok.mp compiled
    cases compiled
    obtain ⟨rela, rodata⟩ := not_or.mp alone
    have relaNamed := relaScan.resolve_left fun none' => rela none'.1
    have last := rodataScan.resolve_left fun none' => rodata none'.1
    exact .both text relaNamed last.1 added added' relocated rfl

/-- Linking fills the slot of the pc with the address that it returns. -/
theorem Links.fills (links : Links elfbuf cache pc entry cache') :
    ∃ i, Fills cache cache' pc entry i := by
  cases links with
  | code _ add => exact cacheAdd_fills add
  | both _ _ _ first second _ same =>
      obtain ⟨i, fills₁⟩ := cacheAdd_fills first
      obtain ⟨j, fills₂⟩ := cacheAdd_fills second
      obtain ⟨walk, pc', offset, hot, others⟩ := fills₁.again fills₂
      subst same
      exact ⟨i, walk, pc', offset, hot, others⟩

/-- **Linking** writes behind what is in use. -/
theorem Links.extends (wf : WellFormed elfbuf) (sized : SectionsSized elfbuf)
    (inside : cache.offset.toNat ≤ cacheSize) (links : Links elfbuf cache pc entry cache') :
    Extends cache cache' := by
  have length : ∀ idx, (sectionBytes elfbuf (shdrAt elfbuf idx)).length =
      (shdrAt elfbuf idx).size.toNat := fun idx => Bytes.length_block
  cases links with
  | code named add =>
      obtain ⟨size, valid⟩ := sized _ (.inl named)
      exact (cacheAdd_extends inside (length _ ▸ size) valid add).1
  | @both text rela _ _ _ cache₁ cache₂ _ named relaNamed isRodata first second relocated same =>
      obtain ⟨size, valid⟩ := sized _ (.inr isRodata)
      obtain ⟨size', valid'⟩ := sized _ (.inl named)
      obtain ⟨extends₁, -, -⟩ := cacheAdd_extends inside (length _ ▸ size) valid first
      obtain ⟨extends₂, after, stop⟩ :=
        cacheAdd_extends extends₁.inside (length _ ▸ size') valid' second
      have grown := extends₁.trans extends₂
      have region : cacheSize = 2 ^ 26 := rfl
      have fits : entry.toNat + (shdrAt elfbuf text).size.toNat ≤ 2 ^ 63 := by
        have inside' := extends₂.inside
        rw [length] at stop
        omega
      subst same
      refine ⟨grown.le, grown.inside, fun x below => ?_⟩
      have before : x.toNat < entry.toNat := below.trans_le (extends₁.le.trans after)
      exact (relocations_kept (wf.inside text rela named relaNamed) fits relocated
        before).trans (grown.kept x below)

/-- After linking, a lookup of a hot pc finds the address that was returned. -/
theorem Fills.finds (fills : Fills cache cache' pc entry i) (nonzero : pc ≠ 0)
    (hot : (cache.table i).isHot = true) : cache'.Finds pc entry := by
  have walk : cache'.walk pc (cacheEntrySize - 1) = some i :=
    Probing.probe_mono (by decide) fills.walk_again
  have hot' : (cache'.table i).isHot = true := by
    rw [CacheItem.isHot, fills.hot]
    exact hot
  rw [← fills.offset]
  exact Cache.finds_of_slot nonzero walk fills.pc hot'

end Linking

/-! ## Runs of calls -/

section Definitions

variable (F : FloatOps) (backend : Backend)

/-- A step of `machine_step`, or its return and the next call. The caller may have done
anything to the state of the guest; it does not touch the cache. -/
inductive VmNext : Control → Control → Prop where
  | step {c c' : Control} (round : machineIter F backend c = .ok (.inl c')) : VmNext c c'
  | call {c : Control} {reason : ExitReason} {m : Vm}
      (returned : machineIter F backend c = .ok (.inr (reason, m))) (s : State) :
      VmNext c (.outer { m with state := s })

/-- A run of calls of `machine_step`, from one place to another. -/
abbrev Calls : Control → Control → Prop := Relation.ReflTransGen (VmNext F backend)

/-- The bytes between the ends of two caches are those that the second one holds. -/
def SameCode (before after : Cache) (jitcode : Bytes.Memory) : Prop :=
  ∀ x : U64, before.offset.toNat ≤ x.toNat → x.toNat < after.offset.toNat →
    jitcode x = after.jitcode x

/-- The code at `entry` was linked for a block that was generated at the pc, from a machine
that is `Good`, and all bytes that linking added are still there. -/
inductive Cache.Owns (Good : Vm → Prop) (cache : Cache) (pc entry : U64) : Prop where
  | linked {m : Vm} {source : Source} {before after : Cache} (good : Good m)
      (here : m.state.pc = pc) (generated : machineGenblock {} m.state.mem pc = .ok source)
      (compiled : machineCompile (backend.clang source) before pc = .ok (entry, after))
      (below : after.offset.toNat ≤ cache.offset.toNat)
      (bytes : SameCode before after cache.jitcode) : Cache.Owns Good cache pc entry

/-- All code that the slots point to is owned by their pcs. -/
structure CodeInv (Good : Vm → Prop) (cache : Cache) : Prop where
  inside : cache.offset.toNat ≤ cacheSize
  owned : ∀ i, (cache.table i).pc ≠ 0 → (cache.table i).isHot = true →
    cache.Owns backend Good (cache.table i).pc (cache.table i).offset

/-- The same at a place in `machine_step`: code that is about to be called is owned by the pc. -/
structure EntersOwn (Good : Vm → Prop) (c : Control) : Prop where
  code : CodeInv backend Good c.vm.cache
  own : ∀ entry m, c = .inner (.jit entry) m → m.cache.Owns backend Good m.state.pc entry

/-- No slot is hot, as in a new cache. -/
structure Cache.Cold (cache : Cache) : Prop where
  inside : cache.offset.toNat ≤ cacheSize
  cold : ∀ i, (cache.table i).isHot = false

/-- The outer loop compiles a block here. -/
structure Compiles (m : Vm) : Prop where
  nonzero : m.state.pc ≠ 0
  absent : cacheLookup m.cache m.state.pc = .ok none
  compiled : ∃ entry m', machineFind backend m = .ok (.jit entry, m')

end Definitions

theorem newCache_cold : newCache.Cold := ⟨by decide, fun _ => rfl⟩

section Owned

variable {F : FloatOps} {backend : Backend} {Good Good' : Vm → Prop} {cache cache' : Cache}
  {pc entry : U64} {m m' m₁ : Vm} {c c' : Control}

theorem Cache.Owns.mono (owns : cache.Owns backend Good pc entry) (sub : ∀ m, Good m → Good' m) :
    cache.Owns backend Good' pc entry := by
  cases owns with
  | linked good here generated compiled below bytes =>
      exact .linked (sub _ good) here generated compiled below bytes

theorem CodeInv.mono (inv : CodeInv backend Good cache) (sub : ∀ m, Good m → Good' m) :
    CodeInv backend Good' cache :=
  ⟨inv.inside, fun i stored hot => (inv.owned i stored hot).mono sub⟩

theorem EntersOwn.mono (inv : EntersOwn backend Good c) (sub : ∀ m, Good m → Good' m) :
    EntersOwn backend Good' c :=
  ⟨inv.code.mono sub, fun entry m same => (inv.own entry m same).mono sub⟩

/-- Code that is owned stays so while the region grows. -/
theorem Cache.Owns.extend (owns : cache.Owns backend Good pc entry) (grows : Extends cache cache') :
    cache'.Owns backend Good pc entry := by
  cases owns with
  | linked good here generated compiled below bytes =>
      refine .linked good here generated compiled (below.trans grows.le) fun x low high => ?_
      rw [grows.kept x (high.trans_le below)]
      exact bytes x low high

theorem CodeInv.finds (inv : CodeInv backend Good cache) (finds : cache.Finds pc entry) :
    cache.Owns backend Good pc entry := by
  obtain ⟨nonzero, i, -, rfl, hot, rfl⟩ := finds.slot
  exact inv.owned i nonzero hot

theorem CodeInv.of_cold (cold : cache.Cold) : CodeInv backend Good cache := by
  refine ⟨cold.inside, fun i _ hot => ?_⟩
  rw [cold.cold i] at hot
  cases hot

/-- A slot that is replaced by one that is not hot. -/
theorem CodeInv.setItem {i : Fin cacheEntrySize} {item : CacheItem} (inv : CodeInv backend Good cache)
    (cool : item.isHot = false) : CodeInv backend Good (cache.setItem i item) := by
  refine ⟨inv.inside, fun j stored hot => ?_⟩
  by_cases same : j = i
  · subst same
    simp only [Cache.setItem, Function.update_self, cool] at hot
    cases hot
  · simp only [Cache.setItem, Function.update_of_ne same] at stored hot ⊢
    exact (inv.owned j stored hot).extend ⟨le_rfl, inv.inside, fun _ _ => rfl⟩

/-- Linking for a pc whose slot has turned hot. -/
theorem CodeInv.compile {i j : Fin cacheEntrySize} {item : CacheItem}
    (inv : CodeInv backend Good cache) (walk : cache.walk pc maxSearchCount = some i)
    (key : item.pc = pc) (grows : Extends (cache.setItem i item) cache')
    (fills : Fills (cache.setItem i item) cache' pc entry j)
    (owns : cache'.Owns backend Good pc entry) : CodeInv backend Good cache' := by
  have same : j = i := Option.some.inj (fills.walk.symm.trans (Cache.walk_setItem walk key))
  subst same
  refine ⟨grows.inside, fun k stored hot => ?_⟩
  by_cases here : k = j
  · subst here
    rw [fills.pc, fills.offset]
    exact owns
  · have table : cache'.table k = cache.table k := by
      rw [fills.others k here]
      exact Function.update_of_ne here ..
    rw [table] at stored hot ⊢
    have grows' : Extends cache cache' := ⟨grows.le, grows.inside, grows.kept⟩
    exact (inv.owned k stored hot).extend grows'

/-- **The outer loop** finds code that is owned by the pc. -/
theorem machineFind_owned {code : Code} (objects : backend.MakesObjects)
    (inv : CodeInv backend Good m.cache) (nonzero : m.state.pc ≠ 0)
    (good : Compiles backend m → Good m)
    (find : machineFind backend m = .ok (code, m')) : CodeInv backend Good m'.cache ∧
      ∀ entry, code = .jit entry → m'.cache.Owns backend Good m'.state.pc entry := by
  have whole := find
  obtain ⟨hit, lookup, find⟩ := bind_ok.mp find
  cases hit with
  | some found =>
      cases find
      refine ⟨inv, fun entry same => ?_⟩
      cases same
      exact inv.finds lookup
  | none =>
      obtain ⟨⟨hot, cache⟩, counted, find⟩ := bind_ok.mp find
      obtain ⟨i, item, walk, rfl, key, -, turned, -⟩ := cacheHot_ok counted
      cases hot with
      | false =>
          cases find
          refine ⟨inv.setItem turned, fun entry same => ?_⟩
          cases same
      | true =>
          obtain ⟨source, generated, find⟩ := bind_ok.mp find
          obtain ⟨⟨start, cache'⟩, compiled, find⟩ := bind_ok.mp find
          cases find
          have isGenerated : IsGenerated source := ⟨_, _, _, generated⟩
          have links := machineCompile_links compiled
          have grows : Extends (m.cache.setItem i item) cache' := links.extends
            (objects.wellFormed source isGenerated) (objects.sized source isGenerated) inv.inside
          obtain ⟨j, fills⟩ := links.fills
          have owns : cache'.Owns backend Good m.state.pc start :=
            .linked (good ⟨nonzero, lookup, _, _, whole⟩) rfl generated compiled le_rfl fun _ _ _ => rfl
          refine ⟨inv.compile walk key grows fills owns, fun entry same => ?_⟩
          cases same
          exact owns

/-- **One step**, or the next call. -/
theorem EntersOwn.next (objects : backend.MakesObjects) (inv : EntersOwn backend Good c)
    (good : ∀ m, c = .outer m → Compiles backend m → Good m) (next : VmNext F backend c c') :
    EntersOwn backend Good c' := by
  cases next with
  | step round =>
      rcases machineIter_ok round with ⟨_, same, next⟩ | ⟨_, impossible, _⟩
      · cases same
        cases next with
        | found nonzero find =>
            obtain ⟨code, own⟩ := machineFind_owned objects inv.code nonzero (good _ rfl) find
            refine ⟨code, fun entry m' same => ?_⟩
            cases same
            exact own entry rfl
        | chain branch hit =>
            refine ⟨inv.code, fun entry m' same => ?_⟩
            cases same
            exact inv.code.finds hit
        | enter | call | round | exit | miss | fallBack =>
            refine ⟨inv.code, fun entry m' same => ?_⟩
            cases same
      · cases impossible
  | call returned s =>
      rcases machineIter_ok returned with ⟨_, impossible, _⟩ | ⟨_, same, ends⟩
      · cases impossible
      · cases same
        cases ends with
        | stopped | exit =>
            refine ⟨inv.code, fun entry m' same => ?_⟩
            cases same

/-- **A run** from a cache in which nothing is hot. -/
theorem entersOwn_run (objects : backend.MakesObjects) (cold : m.cache.Cold)
    (run : Calls F backend (.outer m) c) :
    EntersOwn backend (fun m₁ => Calls F backend (.outer m) (.outer m₁) ∧
      Calls F backend (.outer m₁) c) c := by
  induction run with
  | refl =>
      refine ⟨.of_cold cold, fun entry m' same => ?_⟩
      cases same
  | @tail c c' before next ih =>
      -- the machine at this place has been reached, and the next place is reached from it
      have here : EntersOwn backend (fun m₁ => Calls F backend (.outer m) (.outer m₁) ∧
          Calls F backend (.outer m₁) c') c :=
        ih.mono fun m₁ reached => ⟨reached.1, reached.2.tail next⟩
      refine here.next objects ?_ next
      rintro m₁ rfl -
      exact ⟨before, .single next⟩

/-- A compiled block is found from then on. -/
theorem Compiles.finds (compiles : Compiles backend m)
    (next : VmNext F backend (.outer m) c) : ∃ entry, c.vm.cache.Finds m.state.pc entry := by
  obtain ⟨nonzero, absent, entry, m', find⟩ := compiles
  have round : machineIter F backend (.outer m) = .ok (.inl (.inner (.jit entry) m')) := by
    rw [machineIter, if_neg nonzero, find]
    rfl
  have place : c = .inner (.jit entry) m' := by
    cases next with
    | step round' =>
        rw [round] at round'
        cases round'
        rfl
    | call returned =>
        rw [round] at returned
        cases returned
  subst place
  obtain ⟨hit, lookup, find⟩ := bind_ok.mp find
  rw [absent] at lookup
  cases lookup
  obtain ⟨⟨hot, cache⟩, counted, find⟩ := bind_ok.mp find
  cases hot with
  | false => cases find
  | true =>
      obtain ⟨source, _, find⟩ := bind_ok.mp find
      obtain ⟨⟨start, cache'⟩, compiled, find⟩ := bind_ok.mp find
      cases find
      obtain ⟨i, item, walk, rfl, key, -, turned, -⟩ := cacheHot_ok counted
      obtain ⟨j, fills⟩ := (machineCompile_links compiled).fills
      have same : j = i := Option.some.inj (fills.walk.symm.trans (Cache.walk_setItem walk key))
      subst same
      have hot : ((m.cache.setItem j item).table j).isHot = true := by
        simp only [Cache.setItem, Function.update_self, turned]
      exact ⟨entry, fills.finds nonzero hot⟩

/-- What a lookup finds it finds through the whole run. -/
theorem VmNext.finds (finds : c.vm.cache.Finds pc entry) (next : VmNext F backend c c') :
    c'.vm.cache.Finds pc entry := by
  cases next with
  | step round =>
      rcases machineIter_ok round with ⟨_, same, next⟩ | ⟨_, impossible, _⟩
      · cases same
        exact next.finds finds
      · cases impossible
  | call returned s =>
      rcases machineIter_ok returned with ⟨_, impossible, _⟩ | ⟨_, same, ends⟩
      · cases impossible
      · cases same
        cases ends with
        | stopped => exact finds
        | exit => exact finds

theorem Calls.finds (finds : c.vm.cache.Finds pc entry) (run : Calls F backend c c') :
    c'.vm.cache.Finds pc entry := by
  induction run with
  | refl => exact finds
  | tail _ next ih => exact next.finds ih

end Owned

/-! ## Entered code -/

/-- **Entered code belongs to its pc.** In every run of calls from a cache in which nothing is
hot, whatever the caller does to the guest between two calls: when code is entered at a pc, the
block that it was linked for had been generated at this pc from the memory at an earlier place
of the run, and every byte of it is still as linking left it. -/
theorem entered_code_is_own {F : FloatOps} {backend : Backend} (objects : backend.MakesObjects)
    {m₀ m : Vm} {entry : U64} (cold : m₀.cache.Cold)
    (run : Calls F backend (.outer m₀) (.inner (.jit entry) m)) :
    ∃ m₁ source before after, Calls F backend (.outer m₀) (.outer m₁) ∧
      Calls F backend (.outer m₁) (.inner (.jit entry) m) ∧ m₁.state.pc = m.state.pc ∧
      machineGenblock {} m₁.state.mem m.state.pc = .ok source ∧
      machineCompile (backend.clang source) before m.state.pc = .ok (entry, after) ∧
      SameCode before after m.cache.jitcode := by
  obtain ⟨-, own⟩ := entersOwn_run objects cold run
  cases own entry m rfl with
  | linked good here generated compiled _ bytes =>
      exact ⟨_, _, _, _, good.1, good.2, here, generated, compiled, bytes⟩

/-- A compiler for the source of `ret`, with a constant in the section that is found last. -/
def retLinked : Backend where
  clang source := if source = retSource then twoRodata true else fun _ => 0
  call _ _ s := (Iteration.run (sourceIter default retSource) 2 (CEnv.enter s, retSource)).getD
    (.error .hang)

theorem nothing_wellFormed : WellFormed (fun _ => 0) := by
  have unnamed : ∀ name i, ¬ Named (fun _ => 0) name i := by
    rintro name i ⟨_, bound, _⟩
    exact absurd bound (Nat.not_lt_zero i)
  exact ⟨fun name _ i j named => absurd named (unnamed name i),
    fun text rela named => absurd named (unnamed _ text), fun rela named => absurd named (unnamed _ rela)⟩

theorem retLinked_objects : retLinked.MakesObjects where
  wellFormed source _ := by
    by_cases same : source = retSource
    · simp only [retLinked, if_pos same]
      exact twoRodata_wellFormed
    · simp only [retLinked, if_neg same]
      exact nothing_wellFormed
  sized source _ := by
    by_cases same : source = retSource
    · simp only [retLinked, if_pos same]
      have sections : ∀ idx < 7, (shdrAt (twoRodata true) idx).size.toNat < 2 ^ 63 ∧
          ((shdrAt (twoRodata true) idx).addralign = 0 ∨ ∃ e < 64,
            (shdrAt (twoRodata true) idx).addralign = BitVec.twoPow 64 e) := by
        decide +kernel
      intro idx known
      have bound : idx < (shnum (twoRodata true)).toNat :=
        known.elim (fun named => named.2.1) (fun rodata => rodata.2.1)
      rw [twoRodata_count] at bound
      exact sections idx bound
    · simp only [retLinked, if_neg same]
      intro idx known
      have bound : idx < (shnum fun _ => 0).toNat :=
        known.elim (fun named => named.2.1) (fun rodata => rodata.2.1)
      exact absurd bound (Nat.not_lt_zero idx)

/-- A machine at `ret` that has been there almost often enough. -/
def retWarm : Vm := ⟨retState, newCache.setItem (hash 0x1000) ⟨0x1000, 99999, 0⟩⟩

/-- The block is compiled and entered. -/
theorem entered_code_is_own_ret : ∃ m,
    Calls default retLinked (.outer retWarm) (.inner (.jit 16) m) ∧
    ∃ m₁ source before after, Calls default retLinked (.outer retWarm) (.outer m₁) ∧
      Calls default retLinked (.outer m₁) (.inner (.jit 16) m) ∧ m₁.state.pc = m.state.pc ∧
      machineGenblock {} m₁.state.mem m.state.pc = .ok source ∧
      machineCompile (retLinked.clang source) before m.state.pc = .ok (16, after) ∧
      SameCode before after m.cache.jitcode := by
  obtain ⟨m, round⟩ : ∃ m, machineIter default retLinked (.outer retWarm) =
    .ok (.inl (.inner (.jit 16) m)) := ⟨_, rfl⟩
  have run : Calls default retLinked (.outer retWarm) (.inner (.jit 16) m) :=
    .single (.step round)
  have cold : retWarm.cache.Cold := by
    refine ⟨by decide, fun i => ?_⟩
    simp only [retWarm, Cache.setItem]
    by_cases here : i = hash 0x1000
    · rw [here, Function.update_self]
      rfl
    · rw [Function.update_of_ne here]
      rfl
  exact ⟨m, run, entered_code_is_own retLinked_objects cold run⟩

/-! ## Compiling once -/

/-- **No pc is compiled twice.** -/
theorem compiled_once {F : FloatOps} {backend : Backend} {m m' : Vm} (first : Compiles backend m)
    (run : Relation.TransGen (VmNext F backend) (.outer m) (.outer m'))
    (second : Compiles backend m') : m'.state.pc ≠ m.state.pc := by
  obtain ⟨c, next, rest⟩ := Relation.TransGen.head'_iff.mp run
  obtain ⟨entry, finds⟩ := first.finds next
  intro same
  have still : m'.cache.Finds m.state.pc entry := Calls.finds finds rest
  rw [← same] at still
  cases second.absent.symm.trans still

/-- A backend whose code goes to 0x2000, wherever it is entered. -/
def toSecondRet : Backend where
  clang _ := twoRodata true
  call _ _ s := .ok (s.withExit .indirectBranch 0x2000)

/-- A machine at the first of two `ret`s, both of which are about to turn hot. -/
def twoWarm : Vm where
  state := .boot (Bytes.copy retCode 0x2000 [0x67, 0x80, 0x00, 0x00]) 0x1000 1 0x2000
  cache := (newCache.setItem (hash 0x1000) ⟨0x1000, 99999, 0⟩).setItem (hash 0x2000) ⟨0x2000, 99999, 0⟩

/-- Two blocks are compiled one after the other. -/
theorem compiled_once_two : ∃ m, Compiles toSecondRet twoWarm ∧
    Relation.TransGen (VmNext default toSecondRet) (.outer twoWarm) (.outer m) ∧
    Compiles toSecondRet m ∧ m.state.pc ≠ twoWarm.state.pc := by
  obtain ⟨m₁, m₂, m, find, enter, call, back, absent, again⟩ : ∃ m₁ m₂ m : Vm,
      machineFind toSecondRet twoWarm = .ok (.jit 16, m₁) ∧
      machineIter default toSecondRet (.outer twoWarm) = .ok (.inl (.inner (.jit 16) m₁)) ∧
      machineIter default toSecondRet (.inner (.jit 16) m₁) = .ok (.inl (.left m₂)) ∧
      machineIter default toSecondRet (.left m₂) = .ok (.inl (.outer m)) ∧
      cacheLookup m.cache m.state.pc = .ok none ∧
      ∃ entry m', machineFind toSecondRet m = .ok (.jit entry, m') :=
    ⟨_, _, _, rfl, rfl, rfl, rfl, rfl, _, _, rfl⟩
  have nonzero : m.state.pc ≠ 0 := by
    intro zero
    rw [zero] at absent
    cases absent
  have first : Compiles toSecondRet twoWarm := ⟨by decide, rfl, 16, m₁, find⟩
  have second : Compiles toSecondRet m := ⟨nonzero, absent, again⟩
  have run := ((Relation.TransGen.single (VmNext.step enter)).tail (.step call)).tail (.step back)
  exact ⟨m, first, run, second, compiled_once first run second⟩

end RiscvEmu
