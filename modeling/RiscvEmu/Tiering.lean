import RiscvEmu.CodeOwnership
import RiscvEmu.HotCounting

/-!
# When a pc is compiled

The outer loop of `machine_step` counts a pc whenever it comes to it without code. The counter
in the slot of the pc is a function of the visits (`Tiered.counter`): it starts at one, every
other visit adds two, and it stops at `CACHE_HOT_COUNT`.

* `tiers`: in every run from a new cache, the first 50000 visits of a pc are interpreted, the
  next one compiles its block, and all later ones enter the code.
-/

set_option autoImplicit false

namespace RiscvEmu

section Definitions

variable (F : FloatOps) (backend : Backend)

/-- The pc that the outer loop visits at a place. -/
def Control.visit : Control → List U64
  | .outer m => [m.state.pc]
  | _ => []

/-- The runs from a new cache, with the pcs that the outer loop has visited, newest first. -/
inductive Visits : List U64 → Control → Prop where
  | start (s : State) : Visits [] (.outer ⟨s, newCache⟩)
  | next {visits : List U64} {c c' : Control} (run : Visits visits c)
      (next : VmNext F backend c c') : Visits (c.visit ++ visits) c'

end Definitions

/-- Two caches differ in the region at most. -/
structure SameTable (a b : Cache) : Prop where
  table : a.table = b.table
  offset : a.offset = b.offset

/-- The cache has been filled by visits of these pcs. The table is that of a cache without the
relocations, which have changed the region only. -/
structure Tiered (visits : List U64) (cache : Cache) : Prop where
  filled : ∃ seen shadow, CacheFilled seen shadow ∧ SameTable shadow cache ∧
    ∀ pc, pc ≠ 0 → (pc ∈ seen ↔ pc ∈ visits)
  counter : ∀ pc, pc ≠ 0 → cache.counter pc = min (2 * visits.count pc - 1) cacheHotCount.toNat

section SameTable

variable {shadow cache cache' : Cache} {pc start align : U64} {code : List U8} {result : Bool}
  {budget : Nat}

theorem SameTable.eq (same : SameTable shadow cache) :
    cache = { shadow with jitcode := cache.jitcode } := by
  rw [same.table, same.offset]

theorem SameTable.walk (same : SameTable shadow cache) :
    shadow.walk pc budget = cache.walk pc budget := by
  rw [same.eq]
  rfl

theorem SameTable.counter (same : SameTable shadow cache) : shadow.counter pc = cache.counter pc := by
  rw [same.eq]
  rfl

/-- `cache_hot` does not look at the region. -/
theorem SameTable.hot (same : SameTable shadow cache)
    (call : cacheHot cache pc = .ok (result, cache')) :
    ∃ shadow', cacheHot shadow pc = .ok (result, shadow') ∧ SameTable shadow' cache' := by
  rw [cacheHot] at call ⊢
  rw [same.walk]
  cases walk : cache.walk pc maxSearchCount with
  | none =>
      rw [walk] at call
      cases call
  | some i =>
      simp only [walk, same.table] at call ⊢
      split at call
      · next free =>
          rw [if_pos free]
          cases call
          exact ⟨_, rfl, by simp only [Cache.setItem, same.table], same.offset⟩
      · next taken =>
          rw [if_neg taken]
          cases call
          exact ⟨_, rfl, by simp only [Cache.setItem, same.table], same.offset⟩

/-- `cache_add` does not look at the region. -/
theorem SameTable.add (same : SameTable shadow cache)
    (call : cacheAdd cache pc code align = .ok (start, cache')) :
    ∃ shadow', cacheAdd shadow pc code align = .ok (start, shadow') ∧ SameTable shadow' cache' := by
  obtain ⟨rfl, fits, i, walk, rfl⟩ := cacheAdd_ok call
  rw [← same.walk] at walk
  rw [← same.offset] at fits
  rw [cacheAdd, cassert, if_pos fits]
  simp only [walk, bind, Except.bind, pure, Except.pure, Except.ok.injEq, Prod.mk.injEq]
  refine ⟨_, ⟨by rw [same.offset], rfl⟩, ?_, ?_⟩
  · simp only [Cache.setItem, same.table, same.offset]
  · simp only [same.offset]

end SameTable

/-! ## Visits -/

section Tiered

variable {F : FloatOps} {backend : Backend} {visits : List U64} {cache cache' : Cache}
  {pc entry : U64} {result : Bool} {c c' : Control} {m m' : Vm}

/-- Two tables with the same keys and counters. -/
theorem counter_congr (pcs : cache'.pcs = cache.pcs)
    (hot : ∀ i, (cache'.table i).hot = (cache.table i).hot) :
    cache'.counter pc = cache.counter pc := by
  rw [Cache.counter, Cache.counter, Cache.walk, Cache.walk, pcs]
  split
  · rfl
  · rw [hot]

theorem Tiered.new : Tiered [] newCache where
  filled := ⟨[], newCache, .new, ⟨rfl, rfl⟩, fun _ _ => Iff.rfl⟩
  counter _ nonzero := counter_of_absent fun _ zero => nonzero zero.symm

/-- **A lookup** finds code after 50000 visits. -/
theorem Tiered.lookup (tiered : Tiered visits cache) (nonzero : pc ≠ 0) {found : Option U64}
    (call : cacheLookup cache pc = .ok found) : found.isSome = true ↔ 50000 < visits.count pc := by
  have threshold : cacheHotCount.toNat = 100000 := rfl
  have counter := tiered.counter pc nonzero
  obtain ⟨i, walk, rfl⟩ := cacheLookup_ok call
  rw [Cache.counter, walk] at counter
  by_cases holds : cache.pcs i = pc
  · have taken : (cache.table i).pc ≠ 0 := by
      rw [← Cache.pcs, holds]
      exact nonzero
    have hotness : (cache.table i).isHot = true ↔ cacheHotCount.toNat ≤ (cache.table i).hot.toNat := by
      rw [CacheItem.isHot, decide_eq_true_eq]
      rfl
    simp only [if_pos holds] at counter
    by_cases hot : (cache.table i).isHot = true
    · rw [if_pos ⟨taken, hot⟩]
      have reached := hotness.mp hot
      exact iff_of_true rfl (by omega)
    · rw [if_neg fun both => hot both.2]
      have short := mt hotness.mpr hot
      exact iff_of_false Bool.false_ne_true (by omega)
  · -- the walk has ended at an empty slot
    have free : (cache.table i).pc = 0 := (Probing.probe_stop walk).resolve_right holds
    simp only [if_neg holds] at counter
    rw [if_neg fun both => both.1 free]
    exact iff_of_false Bool.false_ne_true (by omega)

/-- **Counting a visit.** -/
theorem Tiered.hot (tiered : Tiered visits cache) (nonzero : pc ≠ 0)
    (call : cacheHot cache pc = .ok (result, cache')) :
    Tiered (pc :: visits) cache' ∧ (result = true ↔ 50000 ≤ visits.count pc) := by
  have threshold : cacheHotCount.toNat = 100000 := rfl
  obtain ⟨seen, shadow, filled, same, known⟩ := tiered.filled
  obtain ⟨shadow', call', same'⟩ := same.hot call
  have counter := tiered.counter pc nonzero
  rw [← same.counter] at counter
  obtain ⟨self, turned⟩ := filled.counter_self call' nonzero (by omega)
  have member : 0 < visits.count pc ↔ pc ∈ seen := List.count_pos_iff.trans (known pc nonzero).symm
  have self' : shadow'.counter pc = min (2 * visits.count pc + 1) cacheHotCount.toNat := by
    rw [self]
    split_ifs with seen'
    · have positive := member.mpr seen'
      omega
    · have none : ¬ 0 < visits.count pc := mt member.mp seen'
      omega
  refine ⟨⟨⟨pc :: seen, shadow', filled.hot call', same', fun other nonzero' => ?_⟩, ?_⟩, ?_⟩
  · rw [List.mem_cons, List.mem_cons, known other nonzero']
  · intro other nonzero'
    rw [← same'.counter]
    by_cases here : other = pc
    · subst here
      rw [self', List.count_cons_self]
      rfl
    · rw [filled.counter_of_ne call' nonzero' here, same.counter, tiered.counter other nonzero',
        List.count_cons_of_ne (Ne.symm here)]
  · rw [turned, self']
    omega

/-- A pc that has been visited is stored where its walk ends. -/
theorem Tiered.stored (tiered : Tiered visits cache) (nonzero : pc ≠ 0) (member : pc ∈ visits)
    {i : Fin cacheEntrySize} (walk : cache.walk pc maxSearchCount = some i) : cache.pcs i = pc := by
  obtain ⟨seen, shadow, filled, same, known⟩ := tiered.filled
  obtain ⟨j, rfl⟩ := (filled.exists_pc_iff nonzero).mpr ((known pc nonzero).mpr member)
  have found := filled.placed j nonzero
  change shadow.walk _ _ = _ at found
  rw [same.walk, walk, Option.some_inj] at found
  rw [found, Cache.pcs, Cache.pcs, same.table]

theorem Tiered.add {code : List U8} {align start : U64} (tiered : Tiered visits cache)
    (nonzero : pc ≠ 0) (member : pc ∈ visits)
    (call : cacheAdd cache pc code align = .ok (start, cache')) : Tiered visits cache' := by
  obtain ⟨seen, shadow, filled, same, known⟩ := tiered.filled
  obtain ⟨shadow', call', same'⟩ := same.add call
  obtain ⟨i, fills⟩ := cacheAdd_fills call
  have stored := tiered.stored nonzero member fills.walk
  have pcs : cache'.pcs = cache.pcs := by
    funext j
    by_cases here : j = i
    · subst here
      exact fills.pc.trans stored.symm
    · rw [Cache.pcs, Cache.pcs, fills.others j here]
  have hot : ∀ j, (cache'.table j).hot = (cache.table j).hot := by
    intro j
    by_cases here : j = i
    · subst here
      exact fills.hot
    · rw [fills.others j here]
  refine ⟨⟨pc :: seen, shadow', filled.add call', same', fun other nonzero' => ?_⟩, ?_⟩
  · rw [List.mem_cons, known other nonzero']
    exact ⟨fun either => either.elim (fun here => here ▸ member) id, .inr⟩
  · intro other nonzero'
    rw [counter_congr pcs hot]
    exact tiered.counter other nonzero'

theorem Tiered.relocate (tiered : Tiered visits cache) (jitcode : Bytes.Memory) :
    Tiered visits { cache with jitcode := jitcode } := by
  obtain ⟨⟨seen, shadow, filled, same, known⟩, counter⟩ := tiered
  exact ⟨⟨seen, shadow, filled, ⟨same.table, same.offset⟩, known⟩, counter⟩

theorem Tiered.compile {elfbuf : Bytes.Memory} (tiered : Tiered visits cache) (nonzero : pc ≠ 0)
    (member : pc ∈ visits) (compiled : machineCompile elfbuf cache pc = .ok (entry, cache')) :
    Tiered visits cache' := by
  cases machineCompile_links compiled with
  | code _ add => exact tiered.add nonzero member add
  | both _ _ _ first second _ same =>
      rw [same]
      exact ((tiered.add nonzero member first).add nonzero member second).relocate _

/-- **What the outer loop does at a pc** depends on the number of its visits. -/
theorem machineFind_tiers {code : Code} (tiered : Tiered visits m.cache) (nonzero : m.state.pc ≠ 0)
    (find : machineFind backend m = .ok (code, m')) :
    Tiered (m.state.pc :: visits) m'.cache ∧
      (code = .interp ↔ visits.count m.state.pc < 50000) ∧
      (Compiles backend m ↔ visits.count m.state.pc = 50000) := by
  have whole := find
  obtain ⟨hit, lookup, find⟩ := bind_ok.mp find
  have found := tiered.lookup nonzero lookup
  cases hit with
  | some start =>
      cases find
      have more : 50000 < visits.count m.state.pc := found.mp rfl
      have member : m.state.pc ∈ visits := List.count_pos_iff.mp (by omega)
      refine ⟨⟨?_, ?_⟩, ?_, ?_⟩
      · obtain ⟨seen, shadow, filled, same, known⟩ := tiered.filled
        refine ⟨seen, shadow, filled, same, fun other nonzero' => ?_⟩
        rw [List.mem_cons, known other nonzero']
        exact ⟨.inr, fun either => either.elim (fun here => here ▸ member) id⟩
      · -- the counter has reached its end
        have threshold : cacheHotCount.toNat = 100000 := rfl
        intro other nonzero'
        rw [tiered.counter other nonzero', List.count_cons]
        split_ifs with here
        · have same : m.state.pc = other := by simpa using here
          subst same
          omega
        · rfl
      · exact iff_of_false (by simp) (by omega)
      · refine iff_of_false (fun compiles => ?_) (by omega)
        cases compiles.absent.symm.trans lookup
  | none =>
      obtain ⟨⟨hot, cache⟩, counted, find⟩ := bind_ok.mp find
      have few : ¬ 50000 < visits.count m.state.pc := mt found.mpr Bool.false_ne_true
      obtain ⟨tiered', turned⟩ := tiered.hot nonzero counted
      cases hot with
      | false =>
          cases find
          have short : ¬ 50000 ≤ visits.count m.state.pc := mt turned.mpr Bool.false_ne_true
          refine ⟨tiered', iff_of_true rfl (by omega), iff_of_false ?_ (by omega)⟩
          rintro ⟨-, -, entry, m', compiled⟩
          cases whole.symm.trans compiled
      | true =>
          obtain ⟨source, _, find⟩ := bind_ok.mp find
          obtain ⟨⟨start, cache'⟩, compiled, find⟩ := bind_ok.mp find
          cases find
          have enough : 50000 ≤ visits.count m.state.pc := turned.mp rfl
          exact ⟨tiered'.compile nonzero List.mem_cons_self compiled,
            iff_of_false (by simp) (by omega), iff_of_true ⟨nonzero, lookup, _, _, whole⟩ (by omega)⟩

/-- A visit of pc 0 is not counted. -/
theorem Tiered.zero (tiered : Tiered visits cache) : Tiered (0 :: visits) cache := by
  obtain ⟨⟨seen, shadow, filled, same, known⟩, counter⟩ := tiered
  refine ⟨⟨seen, shadow, filled, same, fun pc nonzero => ?_⟩, fun pc nonzero => ?_⟩
  · rw [List.mem_cons, known pc nonzero]
    exact ⟨.inr, fun either => either.resolve_left nonzero⟩
  · rw [counter pc nonzero, List.count_cons_of_ne (Ne.symm nonzero)]

/-- **A run** from a new cache. -/
theorem Visits.tiered (run : Visits F backend visits c) : Tiered visits c.vm.cache := by
  induction run with
  | start => exact .new
  | @next visits c c' _ next ih =>
      cases next with
      | step round =>
          rcases machineIter_ok round with ⟨_, same, next⟩ | ⟨_, impossible, _⟩
          · cases same
            cases next with
            | found nonzero find => exact (machineFind_tiers ih nonzero find).1
            | enter | call | round | exit | chain | miss | fallBack => exact ih
          · cases impossible
      | call returned =>
          rcases machineIter_ok returned with ⟨_, impossible, _⟩ | ⟨_, same, ends⟩
          · cases impossible
          · cases same
            cases ends with
            | stopped zero =>
                rw [Control.visit, zero]
                exact ih.zero
            | exit => exact ih

end Tiered

/-- **Tiers.** In every run from a new cache, whatever the caller does between two calls: the
outer loop interprets at the first 50000 visits of a pc, it compiles a block for the pc at the
visit after these and at no other, and at all later visits it enters the code. -/
theorem tiers {F : FloatOps} {backend : Backend} {visits : List U64} {m m' : Vm} {code : Code}
    (run : Visits F backend visits (.outer m)) (nonzero : m.state.pc ≠ 0)
    (find : machineFind backend m = .ok (code, m')) :
    (code = .interp ↔ visits.count m.state.pc < 50000) ∧
      (Compiles backend m ↔ visits.count m.state.pc = 50000) ∧
      (50000 < visits.count m.state.pc → ∃ entry, code = .jit entry ∧ m' = m) := by
  obtain ⟨-, interp, compiles⟩ := machineFind_tiers run.tiered nonzero find
  refine ⟨interp, compiles, fun more => ?_⟩
  obtain ⟨hit, lookup, find⟩ := bind_ok.mp find
  obtain ⟨entry, rfl⟩ := Option.isSome_iff_exists.mp ((run.tiered.lookup nonzero lookup).mpr more)
  cases find
  exact ⟨entry, rfl, rfl⟩

/-! ### A pc that is visited over and over -/

/-- The cache after visits of 0x1000, whose counter stands here. -/
def countedCache (hot : U64) : Cache := newCache.setItem (hash 0x1000) ⟨0x1000, hot, 0⟩

/-- A state that has come back to its `ret`. -/
def spinState : State := (State.boot retCode 0x1000 1 0x1000).withExit .indirectBranch 0x1000

section Spin

variable {F : FloatOps} {backend : Backend} {hot : U64} {visits : List U64} {cache : Cache}

theorem countedCache_item : (countedCache hot).table (hash 0x1000) = ⟨0x1000, hot, 0⟩ := by
  simp only [countedCache, Cache.setItem, Function.update_self]

theorem countedCache_walk (budget : Nat) :
    (countedCache hot).walk 0x1000 budget = some (hash 0x1000) := by
  apply Probing.probe_of_stop
  right
  rw [Cache.pcs, countedCache_item]

theorem countedCache_lookup (cold : hot < cacheHotCount) :
    cacheLookup (countedCache hot) 0x1000 = .ok none := by
  have nonzero : (0x1000 : U64) ≠ 0 := by decide
  have unfinished : ¬ (⟨0x1000, hot, 0⟩ : CacheItem).isHot = true := fun isHot =>
    absurd (of_decide_eq_true isHot) (BitVec.not_le.mpr cold)
  refine (cacheLookup_iff_returns nonzero).mpr (.leave ?_)
  rw [lookupIter, countedCache_item, if_neg nonzero, if_pos rfl, if_neg unfinished]

theorem countedCache_hot : cacheHot (countedCache hot) 0x1000 =
    .ok (decide (cacheHotCount ≤ bumpHot hot), countedCache (bumpHot hot)) := by
  have twice : (countedCache hot).setItem (hash 0x1000) ⟨0x1000, bumpHot hot, 0⟩ =
      countedCache (bumpHot hot) := by
    simp only [countedCache, Cache.setItem, Function.update_idem]
  rw [cacheHot, countedCache_walk, ← twice]
  change (if ((countedCache hot).table (hash 0x1000)).pc = 0 then _ else _) = _
  rw [countedCache_item]
  rfl

theorem spin_find (cold : hot < cacheHotCount) (next : bumpHot hot < cacheHotCount) :
    machineFind backend ⟨spinState, countedCache hot⟩ =
      .ok (.interp, ⟨spinState, countedCache (bumpHot hot)⟩) := by
  have lookup := countedCache_lookup cold
  have counted : cacheHot (countedCache hot) 0x1000 = _ := countedCache_hot
  rw [decide_eq_false (BitVec.not_le.mpr next)] at counted
  exact bind_ok.mpr ⟨none, lookup, bind_ok.mpr ⟨(false, _), counted, rfl⟩⟩

/-- Interpretation comes back to the same state. -/
theorem spin_round :
    execBlockIter F { spinState with exitReason := .none } = .ok (.inr spinState) := by
  have fetched : Fetched { spinState with exitReason := .none }
    { rs1 := 1, type := .jalr, cont := true } := ⟨by decide, rfl, rfl⟩
  have exec : interpFuncs F .jalr { spinState with exitReason := .none }
      { rs1 := 1, type := .jalr, cont := true } = .ok (_, _) := rfl
  rw [execBlockIter_of_handler fetched exec]
  change Except.ok (Sum.inr ((spinState.setGp 0 0x1004).setGp 0 0)) = _
  rw [State.setGp_zero_setGp rfl, State.writeGp, if_pos rfl]

/-- A visit that only counts. -/
theorem visits_spin (cold : hot < cacheHotCount)
    (find : machineFind backend ⟨spinState, cache⟩ = .ok (.interp, ⟨spinState, countedCache hot⟩))
    (run : Visits F backend visits (.outer ⟨spinState, cache⟩)) :
    Visits F backend (0x1000 :: visits) (.outer ⟨spinState, countedCache hot⟩) := by
  have here : spinState.pc = 0x1000 := rfl
  have found : machineIter F backend (.outer ⟨spinState, cache⟩) =
      .ok (.inl (.inner .interp ⟨spinState, countedCache hot⟩)) := by
    rw [machineIter, if_neg (by rw [here]; decide), find]
    rfl
  have executed : machineIter F backend
      (.interp (Vm.mk spinState (countedCache hot)).cleared) =
        .ok (.inl (.left ⟨spinState, countedCache hot⟩)) := by
    rw [machineIter]
    change (execBlockIter F { spinState with exitReason := .none } >>= _) = _
    rw [spin_round]
    rfl
  have missed : machineIter F backend (.left ⟨spinState, countedCache hot⟩) =
      .ok (.inl (.outer ⟨spinState, countedCache hot⟩)) :=
    bind_ok.mpr ⟨(), rfl, bind_ok.mpr ⟨none, countedCache_lookup cold, rfl⟩⟩
  exact (((run.next (.step found)).next (.step rfl)).next (.step executed)).next (.step missed)

/-- One visit after the other adds two to the counter. -/
theorem visits_replicate (k : Nat) (small : k < 50000) :
    Visits F backend (List.replicate (k + 1) 0x1000)
      (.outer ⟨spinState, countedCache (BitVec.ofNat 64 (2 * k + 1))⟩) := by
  induction k with
  | zero => exact visits_spin (by decide) rfl (.start spinState)
  | succ k ih =>
      have threshold : cacheHotCount = 100000 := rfl
      have bumped : bumpHot (BitVec.ofNat 64 (2 * k + 1)) = BitVec.ofNat 64 (2 * (k + 1) + 1) := by
        rw [bumpHot, threshold, if_pos (by bv_omega)]
        bv_omega
      have next : bumpHot (BitVec.ofNat 64 (2 * k + 1)) < cacheHotCount := by
        rw [bumped, threshold]
        bv_omega
      rw [← bumped]
      exact visits_spin next (spin_find (by rw [threshold]; bv_omega) next) (ih (by omega))

end Spin

/-- The block of a `ret` that returns to itself is compiled at the visit after the first 50000. -/
theorem tiers_spin : ∃ visits m m', Visits default retLinked visits (.outer m) ∧
    visits.count m.state.pc = 50000 ∧ machineFind retLinked m = .ok (.jit 16, m') ∧
    Compiles retLinked m := by
  have run := @visits_replicate default retLinked 49999 (by decide)
  have count : (List.replicate (49999 + 1) (0x1000 : U64)).count spinState.pc = 50000 :=
    List.count_replicate_self
  obtain ⟨m', find⟩ : ∃ m', machineFind retLinked
      ⟨spinState, countedCache (BitVec.ofNat 64 (2 * 49999 + 1))⟩ = .ok (.jit 16, m') := ⟨_, rfl⟩
  exact ⟨_, _, m', run, count, find, (tiers run (by decide) find).2.1.mpr count⟩

end RiscvEmu
