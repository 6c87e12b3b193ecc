import RiscvEmu.CacheFilling

/-!
# Counting block entries

`cache_hot` counts the calls for a pc, and a pc is hot at `CACHE_HOT_COUNT`. The macro that
saturates the counter evaluates the increment a second time, so that every call after the
first one adds two (`hotAll_counter`): a pc turns hot after half the calls.

* `counting_exact_iff`: the counters are exact in a run in which no pc is counted twice, and
  in no other. Which calls return true is right as long as no pc is counted more than 50000
  times.
-/

set_option autoImplicit false

namespace RiscvEmu

section Definitions

/-- The counter of a pc. -/
def Cache.counter (cache : Cache) (pc : U64) : Nat :=
  match cache.walk pc (cacheEntrySize - 1) with
  | none => 0
  | some i => if cache.pcs i = pc then (cache.table i).hot.toNat else 0

/-- The call for a pc that follows these calls in a run, with the caches before and after. -/
structure CallAfter (calls before : List U64) (pc : U64) (result : Bool)
    (cache cache' : Cache) : Prop where
  within : before ++ [pc] <+: calls
  reached : hotAll newCache before = .ok cache
  call : cacheHot cache pc = .ok (result, cache')

/-- A call returns true when it is at least the `CACHE_HOT_COUNT`-th one for its pc. -/
def TurnsHotInTime (calls : List U64) : Prop :=
  ∀ before pc result cache cache', CallAfter calls before pc result cache cache' →
    (result = true ↔ cacheHotCount.toNat ≤ before.count pc + 1)

/-- A call increases the counter of its pc by one, up to `CACHE_HOT_COUNT`, and no other. -/
def CountsOneByOne (calls : List U64) : Prop :=
  ∀ before pc result cache cache', CallAfter calls before pc result cache cache' →
    cache'.counter pc = min (cache.counter pc + 1) cacheHotCount.toNat ∧
      ∀ other, other ≠ 0 → other ≠ pc → cache'.counter other = cache.counter other

end Definitions

/-! ## The counter of a slot -/

section Counter

variable {seen : List U64} {cache cache' : Cache} {pc : U64} {result : Bool}

/-- The counter of a stored pc is in its slot. -/
theorem CacheFilled.counter_eq (filled : CacheFilled seen cache) {i : Fin cacheEntrySize}
    (nonzero : cache.pcs i ≠ 0) :
    cache.counter (cache.pcs i) = (cache.table i).hot.toNat := by
  have walk : cache.walk (cache.pcs i) (cacheEntrySize - 1) = some i :=
    filled.placed.probe_stored nonzero (by decide)
  rw [Cache.counter, walk]
  exact if_pos rfl

/-- A pc that is not stored has no counter. -/
theorem counter_of_absent (absent : ∀ i, cache.pcs i ≠ pc) : cache.counter pc = 0 := by
  rw [Cache.counter]
  split
  · rfl
  · exact if_neg (absent _)

/-- Away from its upper end the macro adds two. -/
theorem toNat_bumpHot {hot : U64} (bound : hot.toNat ≤ cacheHotCount.toNat) :
    (bumpHot hot).toNat = min (hot.toNat + 2) cacheHotCount.toNat := by
  have threshold : cacheHotCount.toNat = 100000 := rfl
  have sum : (hot + 1).toNat = hot.toNat + 1 := by
    rw [BitVec.toNat_add]
    exact Nat.mod_eq_of_lt (by change _ + 1 < _; omega)
  have sum' : (hot + 2).toNat = hot.toNat + 2 := by
    rw [BitVec.toNat_add]
    exact Nat.mod_eq_of_lt (by change _ + 2 < _; omega)
  rw [bumpHot]
  split
  · next below =>
      have below' : (hot + 1).toNat < cacheHotCount.toNat := below
      rw [sum']
      omega
  · next above =>
      have above' : ¬ (hot + 1).toNat < cacheHotCount.toNat := above
      omega

/-- A call leaves the counters of the other pcs alone. -/
theorem CacheFilled.counter_of_ne (filled : CacheFilled seen cache)
    (call : cacheHot cache pc = .ok (result, cache')) {other : U64} (nonzero : other ≠ 0)
    (ne : other ≠ pc) : cache'.counter other = cache.counter other := by
  have filled' := filled.hot call
  obtain ⟨i, item, walk, rfl, key, -⟩ := cacheHot_ok call
  have pcs := Cache.pcs_setItem cache i item
  rw [key] at pcs
  by_cases stored : ∃ j, cache.pcs j = other
  · obtain ⟨j, rfl⟩ := stored
    have away : j ≠ i := by
      rintro rfl
      exact (Probing.probe_stop walk).elim nonzero ne
    have here : (cache.setItem i item).pcs j = cache.pcs j := by
      rw [pcs, Function.update_of_ne away]
    rw [filled.counter_eq nonzero, ← here, filled'.counter_eq (here ▸ nonzero)]
    exact congrArg (fun item : CacheItem => item.hot.toNat) (Function.update_of_ne away ..)
  · rw [counter_of_absent (fun j here => stored ⟨j, here⟩)]
    apply counter_of_absent
    intro j here
    rw [pcs] at here
    by_cases same : j = i
    · subst same
      rw [Function.update_self] at here
      exact ne here.symm
    · rw [Function.update_of_ne same] at here
      exact stored ⟨j, here⟩

/-- **What a call does to the counter of its pc**: it starts it at one, or adds two. -/
theorem CacheFilled.counter_self (filled : CacheFilled seen cache)
    (call : cacheHot cache pc = .ok (result, cache')) (nonzero : pc ≠ 0)
    (bound : cache.counter pc ≤ cacheHotCount.toNat) :
    cache'.counter pc = (if pc ∈ seen then min (cache.counter pc + 2) cacheHotCount.toNat else 1) ∧
      (result = true ↔ cacheHotCount.toNat ≤ cache'.counter pc) := by
  have filled' := filled.hot call
  obtain ⟨i, item, walk, rfl, key, -, turned, hot⟩ := cacheHot_ok call
  have here : (cache.setItem i item).table i = item := Function.update_self ..
  have pcs : (cache.setItem i item).pcs i = pc := (congrArg CacheItem.pc here).trans key
  have counter : (cache.setItem i item).counter pc = item.hot.toNat := by
    rw [← pcs, filled'.counter_eq (pcs ▸ nonzero), here]
  have hotness : result = true ↔ cacheHotCount.toNat ≤ item.hot.toNat := by
    rw [← turned, CacheItem.isHot, decide_eq_true_eq]
    rfl
  rw [counter]
  refine ⟨?_, hotness⟩
  have known := filled.exists_pc_iff nonzero
  by_cases free : (cache.table i).pc = 0
  · have absent : ¬ ∃ j, cache.pcs j = pc := by
      rintro ⟨j, rfl⟩
      have found := filled.placed j nonzero
      change cache.walk _ _ = _ at found
      rw [walk, Option.some_inj] at found
      exact nonzero (found ▸ free)
    rw [hot, if_pos free, if_neg (mt known.mpr absent)]
    rfl
  · have holds : cache.pcs i = pc := (Probing.probe_stop walk).resolve_left free
    subst holds
    have slot := filled.counter_eq nonzero
    rw [hot, if_neg free, if_pos (known.mp ⟨i, rfl⟩), slot]
    exact toNat_bumpHot (slot ▸ bound)

end Counter

/-! ## Whole runs -/

section Runs

variable {calls before : List U64} {pc : U64} {cache cache' : Cache} {result : Bool}

/-- **The counter of a pc** after a run: one for the first call and two for every other. -/
theorem hotAll_counter (run : hotAll newCache calls = .ok cache) (nonzero : pc ≠ 0)
    (pcs : ∀ pc ∈ calls, pc ≠ 0) :
    cache.counter pc = min (2 * calls.count pc - 1) cacheHotCount.toNat := by
  have threshold : cacheHotCount.toNat = 100000 := rfl
  induction calls using List.reverseRecOn generalizing cache with
  | nil =>
      cases run
      rw [counter_of_absent fun i here => nonzero here.symm]
      rfl
  | append_singleton calls last ih =>
      rw [hotAll_append] at run
      obtain ⟨cache₀, first, run⟩ := bind_ok.mp run
      obtain ⟨⟨result, next⟩, call, done⟩ := bind_ok.mp run
      cases done
      have filled := CacheFilled.new.of_hotAll first
      have old := ih first fun pc member => pcs pc (List.mem_append_left _ member)
      by_cases same : pc = last
      · subst same
        have new := (filled.counter_self call nonzero (by omega)).1
        rw [new, List.count_append, List.count_singleton_self]
        have member : pc ∈ calls.reverse ++ [] ↔ 0 < calls.count pc := by
          rw [List.append_nil, List.mem_reverse, List.count_pos_iff]
        split_ifs with known
        · have positive := member.mp known
          omega
        · have none : ¬ 0 < calls.count pc := mt member.mpr known
          omega
      · rw [filled.counter_of_ne call nonzero same, old, List.count_append,
          List.count_singleton, if_neg (by simpa using Ne.symm same)]
        rfl

/-- What one call of a run does, in the number of the calls for its pc before. -/
theorem CallAfter.spec (after : CallAfter calls before pc result cache cache')
    (pcs : ∀ pc ∈ calls, pc ≠ 0) :
    cache.counter pc = min (2 * before.count pc - 1) cacheHotCount.toNat ∧
      cache'.counter pc = min (2 * before.count pc + 1) cacheHotCount.toNat ∧
      (result = true ↔ cacheHotCount.toNat ≤ cache'.counter pc) ∧
      ∀ other, other ≠ 0 → other ≠ pc → cache'.counter other = cache.counter other := by
  have threshold : cacheHotCount.toNat = 100000 := rfl
  have sub : ∀ x ∈ before ++ [pc], x ∈ calls := fun x member => after.within.subset member
  have nonzero : pc ≠ 0 := pcs pc (sub pc (List.mem_append_right _ (List.mem_singleton_self pc)))
  have pcs' : ∀ x ∈ before ++ [pc], x ≠ 0 := fun x member => pcs x (sub x member)
  have filled := CacheFilled.new.of_hotAll after.reached
  have old := hotAll_counter after.reached nonzero
    fun x member => pcs' x (List.mem_append_left _ member)
  have run : hotAll newCache (before ++ [pc]) = .ok cache' := by
    rw [hotAll_append]
    exact bind_ok.mpr ⟨cache, after.reached, bind_ok.mpr ⟨_, after.call, rfl⟩⟩
  have new := hotAll_counter run nonzero pcs'
  rw [List.count_append, List.count_singleton_self] at new
  refine ⟨old, new.trans (congrArg (min · _) (by omega)), ?_, ?_⟩
  · exact (filled.counter_self after.call nonzero (by omega)).2
  · exact fun other nonzero' ne => filled.counter_of_ne after.call nonzero' ne

/-- The call that follows a number of calls for its pc. -/
theorem exists_callAfter (run : hotAll newCache calls = .ok cache) {k : Nat}
    (enough : k < calls.count pc) : ∃ before result cache cache',
      CallAfter calls before pc result cache cache' ∧ before.count pc = k := by
  induction calls using List.reverseRecOn generalizing cache with
  | nil => exact absurd enough (Nat.not_lt_zero _)
  | append_singleton calls last ih =>
      rw [hotAll_append] at run
      obtain ⟨cache₀, first, run⟩ := bind_ok.mp run
      obtain ⟨⟨result, next⟩, call, done⟩ := bind_ok.mp run
      by_cases earlier : k < calls.count pc
      · obtain ⟨before, result, cache, cache', after, count⟩ := ih first earlier
        exact ⟨before, result, cache, cache',
          ⟨after.within.trans (List.prefix_append ..), after.reached, after.call⟩, count⟩
      · have same : last = pc := by
          by_contra other
          rw [List.count_append, List.count_singleton, if_neg (by simpa using other)] at enough
          exact earlier enough
        subst same
        rw [List.count_append, List.count_singleton_self] at enough
        exact ⟨calls, result, cache₀, next, ⟨List.prefix_rfl, first, call⟩, by omega⟩

theorem CallAfter.count_le (after : CallAfter calls before pc result cache cache') :
    before.count pc + 1 ≤ calls.count pc := by
  have le := after.within.sublist.count_le pc
  rwa [List.count_append, List.count_singleton_self] at le

/-- The calls return true in time while no pc is counted more than 50000 times. -/
theorem turnsHotInTime_iff (run : hotAll newCache calls = .ok cache)
    (pcs : ∀ pc ∈ calls, pc ≠ 0) :
    TurnsHotInTime calls ↔ ∀ pc, calls.count pc ≤ 50000 := by
  have threshold : cacheHotCount.toNat = 100000 := rfl
  constructor
  · intro inTime pc
    by_contra more
    obtain ⟨before, result, cache, cache', after, count⟩ :=
      exists_callAfter (k := 50000) run (not_le.mp more)
    obtain ⟨-, new, turned, -⟩ := after.spec pcs
    have claimed := inTime before pc result cache cache' after
    have hot : result = true := turned.mpr (by omega)
    have := claimed.mp hot
    omega
  · intro few before pc result cache cache' after
    obtain ⟨-, new, turned, -⟩ := after.spec pcs
    have le := after.count_le.trans (few pc)
    rw [turned]
    omega

/-- The counters are exact when no pc is counted twice. -/
theorem countsOneByOne_iff (run : hotAll newCache calls = .ok cache)
    (pcs : ∀ pc ∈ calls, pc ≠ 0) : CountsOneByOne calls ↔ calls.Nodup := by
  have threshold : cacheHotCount.toNat = 100000 := rfl
  rw [List.nodup_iff_count_le_one]
  constructor
  · intro exact' pc
    by_contra more
    obtain ⟨before, result, cache, cache', after, count⟩ :=
      exists_callAfter (k := 1) run (not_le.mp more)
    obtain ⟨old, new, -, -⟩ := after.spec pcs
    have claimed := (exact' before pc result cache cache' after).1
    omega
  · intro once before pc result cache cache' after
    obtain ⟨old, new, -, others⟩ := after.spec pcs
    have le := after.count_le.trans (once pc)
    exact ⟨by omega, others⟩

/-- **Hotness.** In a run the counters and the results of `cache_hot` are exact if and only if
no pc is counted twice; the results alone are exact as long as no pc is counted more than
50000 times. -/
theorem counting_exact_iff (run : hotAll newCache calls = .ok cache)
    (pcs : ∀ pc ∈ calls, pc ≠ 0) :
    (TurnsHotInTime calls ∧ CountsOneByOne calls ↔ calls.Nodup) ∧
      (TurnsHotInTime calls ↔ ∀ pc, calls.count pc ≤ 50000) := by
  have turns := turnsHotInTime_iff run pcs
  have counts := countsOneByOne_iff run pcs
  refine ⟨?_, turns⟩
  rw [turns, counts, and_iff_right_iff_imp]
  intro nodup pc
  have once := List.nodup_iff_count_le_one.mp nodup pc
  omega

/-- Two block entries at different pcs. -/
theorem counting_exact_iff_two :
    (TurnsHotInTime [0x1000, 0x2000] ∧ CountsOneByOne [0x1000, 0x2000] ↔
      ([0x1000, 0x2000] : List U64).Nodup) ∧
      (TurnsHotInTime [0x1000, 0x2000] ↔
        ∀ pc, ([0x1000, 0x2000] : List U64).count pc ≤ 50000) := by
  obtain ⟨cache, run⟩ : ∃ cache, hotAll newCache [0x1000, 0x2000] = .ok cache := ⟨_, rfl⟩
  exact counting_exact_iff run (by simp)

/-- One pc can be counted any number of times. -/
theorem hotAll_replicate (times : Nat) :
    ∃ cache, hotAll newCache (List.replicate times 0x1000) = .ok cache := by
  apply CacheFilled.new.hotAll_ok (S := {0x1000})
  · exact fun pc member => absurd member List.not_mem_nil
  · decide
  · intro pc member
    obtain rfl := Finset.mem_singleton.mp member
    refine ⟨hash 0x1000, by simp, ?_⟩
    rintro ⟨len, positive, -, enough⟩
    simp at enough
    omega
  · intro pc member
    exact Finset.mem_singleton.mpr (List.eq_of_mem_replicate member)

/-- The 50001st call for a pc returns true. -/
theorem cacheHot_early : ∃ cache cache',
    hotAll newCache (List.replicate 50000 0x1000) = .ok cache ∧
      cacheHot cache 0x1000 = .ok (true, cache') ∧ 50000 + 1 < cacheHotCount.toNat := by
  obtain ⟨final, run⟩ := hotAll_replicate (50000 + 1)
  have split : List.replicate (50000 + 1) (0x1000 : U64) = List.replicate 50000 0x1000 ++ [0x1000] :=
    List.replicate_succ' ..
  have nonzero : ∀ pc ∈ List.replicate (50000 + 1) (0x1000 : U64), pc ≠ 0 := by
    intro pc member
    rw [List.eq_of_mem_replicate member]
    decide
  have all := run
  rw [split, hotAll_append] at run
  obtain ⟨cache, before, run⟩ := bind_ok.mp run
  obtain ⟨⟨result, cache'⟩, call, -⟩ := bind_ok.mp run
  have after : CallAfter (List.replicate (50000 + 1) 0x1000) (List.replicate 50000 0x1000) 0x1000
      result cache cache' := ⟨split ▸ List.prefix_rfl, before, call⟩
  obtain ⟨-, new, turned, -⟩ := after.spec nonzero
  rw [List.count_replicate_self] at new
  have threshold : cacheHotCount.toNat = 100000 := rfl
  have hot : result = true := turned.mpr (by omega)
  subst hot
  exact ⟨cache, cache', before, call, by decide⟩

end Runs

end RiscvEmu
