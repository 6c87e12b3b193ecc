import RiscvEmu.CacheIntegrity

/-!
# How full the code cache can get

Nothing is ever removed from the table of the cache, so what a call meets is decided by the
pcs of the calls before it (`CacheFilled`). There are two limits. The operations that insert
assert that they pass over at most `MAX_SEARCH_COUNT` slots. The lookup has no such bound,
its loop stops only at a slot that is empty or holds the pc (`lookupIter`).

* `lookup_terminates_iff`: the loop of the lookup terminates exactly when the pc has been
  inserted or a slot is left.
* `counting_never_fails_iff`: the pcs for which no order of counting them fails are those
  where each finds, near its home, a slot that the others do not crowd.
-/

set_option autoImplicit false

namespace RiscvEmu

section Definitions

/-- The caches reached by `cache_hot` and `cache_add`, with the pcs of the calls, newest first. -/
inductive CacheFilled : List U64 → Cache → Prop where
  | new : CacheFilled [] newCache
  | hot {seen : List U64} {cache cache' : Cache} {pc : U64} {result : Bool} :
      CacheFilled seen cache → cacheHot cache pc = .ok (result, cache') →
      CacheFilled (pc :: seen) cache'
  | add {seen : List U64} {cache cache' : Cache} {pc start align : U64} {code : List U8} :
      CacheFilled seen cache → cacheAdd cache pc code align = .ok (start, cache') →
      CacheFilled (pc :: seen) cache'

/-- `cache_hot` on one pc after the other. -/
def hotAll (cache : Cache) : List U64 → Except Abort Cache
  | [] => .ok cache
  | pc :: pcs => do
      let (_, cache') ← cacheHot cache pc
      hotAll cache' pcs

/-- No call of `cache_hot` on these pcs fails, in any order and multiplicity. -/
def CountingNeverFails (S : Finset U64) : Prop :=
  ∀ calls : List U64, (∀ pc ∈ calls, pc ∈ S) → ∃ cache, hotAll newCache calls = .ok cache

/-- A round of the loop of `cache_lookup`. -/
def lookupIter (cache : Cache) (pc : U64) (index : Fin cacheEntrySize) :
    Except Abort (Fin cacheEntrySize ⊕ Option U64) :=
  if (cache.table index).pc = 0 then .ok (.inr none)
  else if (cache.table index).pc = pc then
    if (cache.table index).isHot then .ok (.inr (some (cache.table index).offset))
    else .ok (.inr none)
  else .ok (.inl (index + 1))

/-- The loop of `cache_lookup` terminates. -/
def LookupTerminates (cache : Cache) (pc : U64) : Prop :=
  ∃ found, Iteration.Returns (lookupIter cache pc) (hash pc) found

end Definitions

/-! ## The pcs that are stored -/

section Filled

variable {seen : List U64} {cache cache' : Cache} {pc : U64}

/-- `cache_hot` stores its pc where its walk ends. -/
theorem cacheHot_pcs {result : Bool} (call : cacheHot cache pc = .ok (result, cache')) :
    ∃ i, cache.walk pc maxSearchCount = some i ∧ cache'.pcs = Function.update cache.pcs i pc := by
  obtain ⟨i, item, walk, rfl, rfl, -⟩ := cacheHot_ok call
  exact ⟨i, walk, Cache.pcs_setItem cache i item⟩

/-- `cache_add` stores its pc where its walk ends. -/
theorem cacheAdd_pcs {code : List U8} {align start : U64}
    (call : cacheAdd cache pc code align = .ok (start, cache')) :
    ∃ i, cache.walk pc maxSearchCount = some i ∧ cache'.pcs = Function.update cache.pcs i pc := by
  obtain ⟨-, -, i, walk, rfl⟩ := cacheAdd_ok call
  exact ⟨i, walk, Cache.pcs_setItem cache i _⟩

theorem CacheFilled.placed (filled : CacheFilled seen cache) :
    Probing.Placed cache.pcs 0 hash maxSearchCount := by
  induction filled with
  | new => exact Probing.placed_of_empty fun _ => rfl
  | hot _ call ih =>
      obtain ⟨i, walk, pcs⟩ := cacheHot_pcs call
      rw [pcs]
      exact ih.insert walk
  | add _ call ih =>
      obtain ⟨i, walk, pcs⟩ := cacheAdd_pcs call
      rw [pcs]
      exact ih.insert walk

/-- Storing a pc where its walk ends adds it to the stored pcs. -/
theorem stored_update {i : Fin cacheEntrySize} (walk : cache.walk pc maxSearchCount = some i)
    (known : Probing.stored cache.pcs 0 = seen.toFinset.erase 0) :
    Probing.stored (Function.update cache.pcs i pc) 0 = (pc :: seen).toFinset.erase 0 := by
  rw [Probing.stored_insert (Probing.probe_stop walk), known, List.toFinset_cons]
  ext x
  simp only [Finset.mem_erase, Finset.mem_insert]
  tauto

/-- **The stored pcs are those of the calls.** -/
theorem CacheFilled.stored (filled : CacheFilled seen cache) :
    Probing.stored cache.pcs 0 = seen.toFinset.erase 0 := by
  induction filled with
  | new =>
      ext x
      rw [Probing.mem_stored]
      constructor
      · rintro ⟨nonzero, i, here⟩
        exact absurd here.symm nonzero
      · intro member
        simp at member
  | hot _ call ih =>
      obtain ⟨i, walk, pcs⟩ := cacheHot_pcs call
      rw [pcs]
      exact stored_update walk ih
  | add _ call ih =>
      obtain ⟨i, walk, pcs⟩ := cacheAdd_pcs call
      rw [pcs]
      exact stored_update walk ih

/-- A non-zero pc is stored when it is one of the calls. -/
theorem CacheFilled.exists_pc_iff (filled : CacheFilled seen cache) (nonzero : pc ≠ 0) :
    (∃ i, cache.pcs i = pc) ↔ pc ∈ seen := by
  have stored : pc ∈ Probing.stored cache.pcs 0 ↔ pc ∈ seen.toFinset.erase 0 := by
    rw [filled.stored]
  rw [Probing.mem_stored, Finset.mem_erase, List.mem_toFinset] at stored
  constructor
  · intro here
    exact (stored.mp ⟨nonzero, here⟩).2
  · intro member
    exact (stored.mpr ⟨nonzero, member⟩).2

end Filled

/-! ## Calls that fail -/

section Counting

variable {seen calls : List U64} {cache cache' : Cache} {pc : U64} {S : Finset U64}

/-- A call returns when its walk ends. -/
theorem cacheHot_ok_iff :
    (∃ result cache', cacheHot cache pc = .ok (result, cache')) ↔
      cache.walk pc maxSearchCount ≠ none := by
  constructor
  · rintro ⟨result, cache', call⟩
    obtain ⟨i, walk, -⟩ := cacheHot_pcs call
    rw [walk]
    exact Option.some_ne_none i
  · intro ends
    obtain ⟨i, walk⟩ := Option.ne_none_iff_exists'.mp ends
    rw [cacheHot, walk]
    by_cases free : (cache.table i).pc = 0
    · exact ⟨_, _, if_pos free⟩
    · exact ⟨_, _, if_neg free⟩

theorem hotAll_append {more : List U64} :
    hotAll cache (calls ++ more) = hotAll cache calls >>= fun cache' => hotAll cache' more := by
  induction calls generalizing cache with
  | nil => rfl
  | cons pc calls ih =>
      rw [List.cons_append, hotAll, hotAll]
      cases call : cacheHot cache pc with
      | error e => rfl
      | ok result => exact ih

theorem CacheFilled.of_hotAll (filled : CacheFilled seen cache)
    (run : hotAll cache calls = .ok cache') : CacheFilled (calls.reverse ++ seen) cache' := by
  induction calls generalizing cache seen with
  | nil =>
      cases run
      exact filled
  | cons pc calls ih =>
      obtain ⟨⟨result, next⟩, call, rest⟩ := bind_ok.mp run
      rw [List.reverse_cons, List.append_assoc]
      exact ih (.hot filled call) rest

/-- A call finds a slot when the other pcs leave one near its home. -/
theorem CacheFilled.walk_ne_none (filled : CacheFilled seen cache) (nonzero : pc ≠ 0)
    (known : ∀ pc ∈ seen, pc ∈ S) {slot : Fin cacheEntrySize}
    (near : (slot - hash pc).val ≤ maxSearchCount)
    (left : ¬ Probing.Crowded hash (S.erase pc) slot) :
    cache.walk pc maxSearchCount ≠ none := by
  intro none
  -- the pc is not stored, so that what crowds the slot are the others
  obtain ⟨absent, crowded⟩ := (filled.placed.probe_eq_none_iff nonzero).mp none
  have others : Probing.stored cache.pcs 0 ⊆ S.erase pc := by
    intro x member
    have stored := member
    rw [filled.stored, Finset.mem_erase, List.mem_toFinset] at stored
    refine Finset.mem_erase.mpr ⟨?_, known x stored.2⟩
    rintro rfl
    exact absent member
  exact left ((crowded slot near).mono others)

/-- Counting goes on as long as every pc finds a slot that the others leave. -/
theorem CacheFilled.hotAll_ok (filled : CacheFilled seen cache) (known : ∀ pc ∈ seen, pc ∈ S)
    (nonzero : (0 : U64) ∉ S)
    (slots : ∀ pc ∈ S, ∃ slot, (slot - hash pc).val ≤ maxSearchCount ∧
      ¬ Probing.Crowded hash (S.erase pc) slot)
    (members : ∀ pc ∈ calls, pc ∈ S) : ∃ cache', hotAll cache calls = .ok cache' := by
  induction calls generalizing seen cache with
  | nil => exact ⟨cache, rfl⟩
  | cons pc calls ih =>
      have member := members pc (List.mem_cons_self ..)
      obtain ⟨slot, near, left⟩ := slots pc member
      have ends := filled.walk_ne_none (fun zero => nonzero (zero ▸ member)) known near left
      obtain ⟨result, next, call⟩ := cacheHot_ok_iff.mpr ends
      obtain ⟨final, rest⟩ := ih (.hot filled call) (List.forall_mem_cons.mpr ⟨member, known⟩)
        fun x later => members x (List.mem_cons_of_mem _ later)
      exact ⟨final, bind_ok.mpr ⟨_, call, rest⟩⟩

/-- **Counting never fails** for the pcs of a set exactly when each of them finds, within the
bound of its walk, a slot that is not crowded by the others. -/
theorem counting_never_fails_iff (nonzero : (0 : U64) ∉ S) :
    CountingNeverFails S ↔ ∀ pc ∈ S, ∃ slot, (slot - hash pc).val ≤ maxSearchCount ∧
      ¬ Probing.Crowded hash (S.erase pc) slot := by
  constructor
  · intro never pc member
    -- the worst order for a pc is the one in which it comes last
    have others : ∀ x ∈ (S.erase pc).toList ++ [pc], x ∈ S := by
      intro x known
      rcases List.mem_append.mp known with other | last
      · exact Finset.mem_of_mem_erase (Finset.mem_toList.mp other)
      · rw [List.mem_singleton.mp last]
        exact member
    obtain ⟨final, run⟩ := never _ others
    rw [hotAll_append] at run
    obtain ⟨cache, before, last⟩ := bind_ok.mp run
    obtain ⟨⟨result, next⟩, call, -⟩ := bind_ok.mp last
    have filled := CacheFilled.new.of_hotAll before
    have stored : Probing.stored cache.pcs 0 = S.erase pc := by
      rw [filled.stored, List.append_nil, List.toFinset_reverse, Finset.toList_toFinset]
      exact Finset.erase_eq_of_notMem fun zero => nonzero (Finset.mem_of_mem_erase zero)
    have pcNonzero : pc ≠ 0 := fun zero => nonzero (zero ▸ member)
    by_contra missing
    apply cacheHot_ok_iff.mp ⟨result, next, call⟩
    refine (filled.placed.probe_eq_none_iff pcNonzero).mpr ⟨?_, ?_⟩
    · rw [stored]
      exact Finset.notMem_erase pc S
    · intro slot near
      rw [stored]
      by_contra left
      exact missing ⟨slot, near, left⟩
  · intro slots calls members
    exact CacheFilled.new.hotAll_ok (fun pc member => absurd member List.not_mem_nil) nonzero
      slots members

/-- Pcs that lie 64 KiB apart. -/
def sameHome : List U64 := (List.range 34).map fun k => BitVec.ofNat 64 (0x10000 * (k + 1))

theorem hash_sameHome (member : pc ∈ sameHome.take 33) : hash pc = 0 := by
  obtain ⟨k, _, rfl⟩ := List.mem_map.mp (List.mem_of_mem_take member)
  apply Fin.ext
  change (BitVec.ofNat 64 (0x10000 * (k + 1))).toNat % 65536 = 0
  rw [BitVec.toNat_ofNat]
  omega

/-- Of 33 pcs with one hash each finds a slot, whatever the order. -/
theorem counting_never_fails_iff_sameHome : CountingNeverFails (sameHome.take 33).toFinset := by
  have inside : 32 < cacheEntrySize := by decide
  refine (counting_never_fails_iff (by decide)).mpr fun pc member => ⟨⟨32, inside⟩, ?_, ?_⟩
  · rw [hash_sameHome (List.mem_toFinset.mp member), sub_zero]
    exact le_rfl
  · apply Probing.not_crowded_of_far
    intro x other
    rw [hash_sameHome (List.mem_toFinset.mp (Finset.mem_of_mem_erase other)), sub_zero,
      Finset.card_erase_of_mem member]
    exact Nat.sub_le_sub_right (List.toFinset_card_le _) 1

/-- Of 34 pcs with one hash the last one finds no slot. -/
theorem counting_fails : ∃ S : Finset U64, S.card < cacheEntrySize ∧ 0 ∉ S ∧
    ∃ calls : List U64, (∀ pc ∈ calls, pc ∈ S) ∧ hotAll newCache calls =
      .error (.assertion "++search_count <= MAX_SEARCH_COUNT") := by
  refine ⟨sameHome.toFinset, ?_, by decide, sameHome, fun pc => List.mem_toFinset.mpr, by rfl⟩
  exact (List.toFinset_card_le sameHome).trans_lt (by decide)

end Counting

/-! ## The lookup -/

section Lookup

variable {seen : List U64} {cache : Cache} {pc : U64}

/-- The result of the lookup at the slot where its loop stops. -/
def lookupResult (cache : Cache) (i : Fin cacheEntrySize) : Option U64 :=
  if (cache.table i).pc ≠ 0 ∧ (cache.table i).isHot then some (cache.table i).offset else none

theorem lookupIter_body (i : Fin cacheEntrySize) : lookupIter cache pc i =
    if cache.pcs i = 0 ∨ cache.pcs i = pc then .ok (.inr (lookupResult cache i))
    else .ok (.inl (i + 1)) := by
  rw [lookupIter, lookupResult, Cache.pcs]
  by_cases free : (cache.table i).pc = 0
  · simp only [free, true_or, if_true, ne_eq, not_true, false_and, if_false]
  · by_cases holds : (cache.table i).pc = pc
    · have stop : (cache.table i).pc = 0 ∨ (cache.table i).pc = pc := .inr holds
      rw [if_neg free, if_pos holds, if_pos stop]
      by_cases hot : (cache.table i).isHot = true
      · rw [if_pos hot, if_pos ⟨free, hot⟩]
      · rw [if_neg hot, if_neg fun both => hot both.2]
    · have passed : ¬ ((cache.table i).pc = 0 ∨ (cache.table i).pc = pc) := by
        rintro (empty | same)
        · exact free empty
        · exact holds same
      rw [if_neg free, if_neg holds, if_neg passed]

/-- The lookup returns what its loop returns. -/
theorem cacheLookup_iff_returns (nonzero : pc ≠ 0) {found : Option U64} :
    cacheLookup cache pc = .ok found ↔
      Iteration.Returns (lookupIter cache pc) (hash pc) found := by
  rw [Probing.returns_iff_probe lookupIter_body]
  constructor
  · intro call
    obtain ⟨i, walk, same⟩ := cacheLookup_ok call
    exact ⟨i, walk, same⟩
  · rintro ⟨i, walk, rfl⟩
    change cache.walk pc (cacheEntrySize - 1) = some i at walk
    rw [cacheLookup, cassert, if_pos nonzero, walk, lookupResult]
    by_cases free : (cache.table i).pc = 0
    · rw [if_neg fun both => both.1 free]
      exact if_pos free
    · by_cases hot : (cache.table i).isHot = true
      · rw [if_pos ⟨free, hot⟩]
        exact (if_neg free).trans (if_pos hot)
      · rw [if_neg fun both => hot both.2]
        exact (if_neg free).trans (if_neg hot)

/-- The loop of the lookup terminates when a slot is empty or holds the pc. -/
theorem lookupTerminates_iff_stop : LookupTerminates cache pc ↔
    (∃ i, cache.pcs i = pc) ∨ ∃ i, cache.pcs i = 0 := by
  constructor
  · rintro ⟨found, returns⟩
    obtain ⟨i, walk, -⟩ := (Probing.returns_iff_probe lookupIter_body).mp returns
    rcases Probing.probe_stop walk with free | holds
    · exact .inr ⟨i, free⟩
    · exact .inl ⟨i, holds⟩
  · intro stops
    obtain ⟨i, stop⟩ : ∃ i, cache.pcs i = 0 ∨ cache.pcs i = pc := by
      rcases stops with ⟨i, holds⟩ | ⟨i, free⟩
      · exact ⟨i, .inr holds⟩
      · exact ⟨i, .inl free⟩
    have inside : (i - hash pc).val ≤ cacheEntrySize - 1 := Nat.le_sub_one_of_lt (i - hash pc).isLt
    obtain ⟨j, walk⟩ := Probing.probe_ends stop inside
    exact ⟨_, (Probing.returns_iff_probe lookupIter_body).mpr ⟨j, walk, rfl⟩⟩

end Lookup

/-! ## A full table -/

section Full

/-- The addresses of the halfwords of two runs of code that lie 64 KiB apart, taken in turns. -/
def halfwordPc (i : Nat) : U64 :=
  if i % 2 = 0 then BitVec.ofNat 64 (0x10000 + i) else BitVec.ofNat 64 (0x20000 + (i - 1))

theorem toNat_halfwordPc {i : Nat} (bound : i < cacheEntrySize) : (halfwordPc i).toNat =
    if i % 2 = 0 then 0x10000 + i else 0x20000 + (i - 1) := by
  have size : cacheEntrySize = 65536 := rfl
  rw [halfwordPc]
  split_ifs
  · exact Nat.mod_eq_of_lt (by omega)
  · exact Nat.mod_eq_of_lt (by omega)

/-- `cache_hot` on a pc whose walk ends at an empty slot. -/
theorem cacheHot_of_free {cache : Cache} {pc : U64} {i : Fin cacheEntrySize}
    (walk : cache.walk pc maxSearchCount = some i) (free : cache.pcs i = 0) :
    ∃ cache', cacheHot cache pc = .ok (false, cache') ∧
      cache'.pcs = Function.update cache.pcs i pc := by
  have call : cacheHot cache pc =
      .ok (false, cache.setItem i { cache.table i with pc := pc, hot := 1 }) := by
    rw [cacheHot, walk]
    exact if_pos free
  exact ⟨_, call, Cache.pcs_setItem cache i _⟩

/-- The first slots hold these pcs, in order. -/
def HalfwordsTo (cache : Cache) (i : Nat) : Prop :=
  ∀ j, cache.pcs j = if j.val < i then halfwordPc j.val else 0

/-- A pc of the second run finds its home taken by the first and the next slot empty. -/
theorem HalfwordsTo.walk {cache : Cache} {i : Nat} (holds : HalfwordsTo cache i)
    (bound : i < cacheEntrySize) :
    cache.walk (halfwordPc i) maxSearchCount = some ⟨i, bound⟩ := by
  have size : cacheEntrySize = 65536 := rfl
  have free : cache.pcs ⟨i, bound⟩ = 0 := (holds _).trans (if_neg (lt_irrefl i))
  have value := toNat_halfwordPc bound
  by_cases even : i % 2 = 0
  · rw [if_pos even] at value
    have home : hash (halfwordPc i) = ⟨i, bound⟩ := by
      rw [hash, Fin.ext_iff]
      change (halfwordPc i).toNat % 65536 = i
      omega
    rw [Cache.walk, home]
    exact Probing.probe_of_stop (.inl free)
  · rw [if_neg even] at value
    have home : hash (halfwordPc i) = ⟨i - 1, by omega⟩ := by
      rw [hash, Fin.ext_iff]
      change (halfwordPc i).toNat % 65536 = i - 1
      omega
    have next : (⟨i - 1, by omega⟩ + 1 : Fin cacheEntrySize) = ⟨i, bound⟩ := by
      rw [Fin.ext_iff, Fin.val_add]
      change (i - 1 + 1) % 65536 = i
      omega
    have taken : cache.pcs ⟨i - 1, by omega⟩ = halfwordPc (i - 1) :=
      (holds _).trans (if_pos (by change i - 1 < i; omega))
    have before := toNat_halfwordPc (i := i - 1) (by omega)
    rw [if_pos (by omega)] at before
    have passed : ¬ (cache.pcs ⟨i - 1, by omega⟩ = 0 ∨
        cache.pcs ⟨i - 1, by omega⟩ = halfwordPc i) := by
      rw [taken]
      rintro (zero | same)
      · rw [zero] at before
        change 0 = _ at before
        omega
      · rw [same] at before
        omega
    rw [Cache.walk, home, maxSearchCount, Probing.probe, if_neg passed, next]
    exact Probing.probe_of_stop (.inl free)

/-- Counting these pcs fills one slot after the other. -/
theorem cacheFilled_halfwords {i : Nat} (bound : i ≤ cacheEntrySize) :
    ∃ cache, CacheFilled ((List.range i).map halfwordPc).reverse cache ∧ HalfwordsTo cache i := by
  induction i with
  | zero => exact ⟨newCache, .new, fun j => (if_neg (Nat.not_lt_zero _)).symm⟩
  | succ i ih =>
      obtain ⟨cache, filled, holds⟩ := ih (Nat.le_of_succ_le bound)
      have walk := holds.walk bound
      have free : cache.pcs ⟨i, bound⟩ = 0 := (holds _).trans (if_neg (lt_irrefl i))
      obtain ⟨cache', call, pcs⟩ := cacheHot_of_free walk free
      refine ⟨cache', ?_, ?_⟩
      · rw [List.range_succ, List.map_append, List.reverse_append]
        exact .hot filled call
      · intro j
        rw [pcs]
        by_cases here : j = ⟨i, bound⟩
        · subst here
          rw [Function.update_self]
          exact (if_pos (Nat.lt_succ_self i)).symm
        · have other : j.val ≠ i := fun same => here (Fin.ext same)
          rw [Function.update_of_ne here, holds j]
          by_cases before : j.val < i
          · rw [if_pos before, if_pos (by omega)]
          · rw [if_neg before, if_neg (by omega)]

/-- The slots of the table that these pcs fill. -/
theorem HalfwordsTo.toNat_pcs {cache : Cache} (holds : HalfwordsTo cache cacheEntrySize)
    (i : Fin cacheEntrySize) : (cache.pcs i).toNat =
      if i.val % 2 = 0 then 0x10000 + i.val else 0x20000 + (i.val - 1) := by
  rw [holds i, if_pos i.isLt]
  exact toNat_halfwordPc i.isLt

theorem HalfwordsTo.full {cache : Cache} (holds : HalfwordsTo cache cacheEntrySize)
    (i : Fin cacheEntrySize) : cache.pcs i ≠ 0 := by
  intro free
  have value := holds.toNat_pcs i
  rw [free] at value
  change 0 = _ at value
  split_ifs at value <;> omega

/-- **The loop of the lookup terminates** exactly when its pc is one of the calls or the
calls had fewer pcs than the table has slots. -/
theorem lookup_terminates_iff {seen : List U64} {cache : Cache} {pc : U64}
    (filled : CacheFilled seen cache) (nonzero : pc ≠ 0) :
    LookupTerminates cache pc ↔ pc ∈ seen ∨ (seen.toFinset.erase 0).card < cacheEntrySize := by
  rw [lookupTerminates_iff_stop, filled.exists_pc_iff nonzero, filled.placed.exists_empty_iff,
    filled.stored]

/-- In a full table the lookup of a pc that is stored next to its home. -/
theorem lookup_terminates_iff_full : ∃ seen cache, CacheFilled seen cache ∧
    (∀ i, cache.pcs i ≠ 0) ∧ LookupTerminates cache 0x20000 := by
  obtain ⟨cache, filled, holds⟩ := cacheFilled_halfwords le_rfl
  refine ⟨_, cache, filled, holds.full, (lookup_terminates_iff filled (by decide)).mpr (.inl ?_)⟩
  rw [List.mem_reverse]
  exact List.mem_map.mpr ⟨1, List.mem_range.mpr (by decide), rfl⟩

/-- The loop of the lookup does not terminate for the next run of code. -/
theorem lookup_hangs : ∃ seen cache, CacheFilled seen cache ∧ (0x30000 : U64) ≠ 0 ∧
    ¬ LookupTerminates cache 0x30000 := by
  obtain ⟨cache, filled, holds⟩ := cacheFilled_halfwords le_rfl
  refine ⟨_, cache, filled, by decide, ?_⟩
  rw [lookupTerminates_iff_stop]
  rintro (⟨i, same⟩ | ⟨i, free⟩)
  · have value := holds.toNat_pcs i
    have bound := i.isLt
    have size : cacheEntrySize = 65536 := rfl
    rw [same] at value
    change 0x30000 = _ at value
    split_ifs at value <;> omega
  · exact holds.full i free

end Full

end RiscvEmu
