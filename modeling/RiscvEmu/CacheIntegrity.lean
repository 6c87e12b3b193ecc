import RiscvEmu.Cache

/-!
# Integrity of the code cache over whole runs

A run of the cache is a sequence of calls, recorded newest first with their
results (`CacheCall`, `CacheRun`). What the cache is for is stated on the
record alone: whether a pc became hot (`BecameHot`), where its last range
starts (`lastAdded`), and the ranges handed out (`addedRanges`).

The invariant has two halves that do not share a field of the cache: the table
represents the record (`TableInv`) and the region holds the bytes of the record
(`RegionInv`). Every operation finds its slot by a walk, and what is known
about the slot where a walk ends is one lemma (`TableInv.at_walk`).

* `cache_integrity`: after every run, each pc has one slot that all three
  operations resolve to, the ranges are disjoint, aligned, inside the region
  and hold their bytes, and a lookup finds the last range of a hot pc.
-/

set_option autoImplicit false

namespace RiscvEmu

/-! ## Calls and runs -/

/-- A call on the cache that returned, with its result. -/
inductive CacheCall where
  | hot (pc : U64) (result : Bool)
  | lookup (pc : U64) (found : Option U64)
  | add (pc : U64) (code : List U8) (align start : U64)

/-- `cache_hot` has returned true for the pc. -/
def BecameHot (log : List CacheCall) (pc : U64) : Prop := .hot pc true ∈ log

/-- The start of the last range added for the pc. -/
def lastAdded (pc : U64) : List CacheCall → Option U64
  | [] => none
  | .add pc' _ _ start :: log => if pc' = pc then some start else lastAdded pc log
  | .hot _ _ :: log => lastAdded pc log
  | .lookup _ _ :: log => lastAdded pc log

/-- `cache_hot` has returned true for the pc and no `cache_add` for it followed. -/
def AwaitsAdd (pc : U64) : List CacheCall → Prop
  | [] => False
  | .hot pc' result :: log => (pc' = pc ∧ result = true) ∨ AwaitsAdd pc log
  | .add pc' _ _ _ :: log => pc' ≠ pc ∧ AwaitsAdd pc log
  | .lookup _ _ :: log => AwaitsAdd pc log

/-- The ranges handed out, as a first position and the position after the last. -/
def addedRanges (log : List CacheCall) : List (Nat × Nat) :=
  log.filterMap fun
    | .add _ code _ start => some (start.toNat, start.toNat + code.length)
    | _ => none

/-- One range ends before the other starts. -/
def Apart (a b : Nat × Nat) : Prop := a.2 ≤ b.1 ∨ b.2 ≤ a.1

/-- The runs of the cache: calls on non-zero pcs that return, with the sizes and
alignments of compiled sections, where a pc that turned hot is added before it
is looked up again. -/
inductive CacheRun : List CacheCall → Cache → Prop where
  | new : CacheRun [] newCache
  | hot {log : List CacheCall} {cache cache' : Cache} {pc : U64} {result : Bool} :
      CacheRun log cache → pc ≠ 0 → cacheHot cache pc = .ok (result, cache') →
      CacheRun (.hot pc result :: log) cache'
  | lookup {log : List CacheCall} {cache : Cache} {pc : U64} {found : Option U64} :
      CacheRun log cache → pc ≠ 0 → ¬ AwaitsAdd pc log → cacheLookup cache pc = .ok found →
      CacheRun (.lookup pc found :: log) cache
  | add {log : List CacheCall} {cache cache' : Cache} {pc start align : U64} {code : List U8} :
      CacheRun log cache → pc ≠ 0 → code.length < 2 ^ 63 →
      align = 0 ∨ Alignment.PowerOfTwo align →
      cacheAdd cache pc code align = .ok (start, cache') →
      CacheRun (.add pc code align start :: log) cache'

/-! ## What each operation does -/

section Operations

variable {cache cache' : Cache} {pc start align : U64} {code : List U8} {result : Bool}
  {found : Option U64}

theorem cacheLookup_ok (call : cacheLookup cache pc = .ok found) :
    ∃ i, cache.walk pc (cacheEntrySize - 1) = some i ∧
      found = if (cache.table i).pc ≠ 0 ∧ (cache.table i).isHot then
        some (cache.table i).offset else none := by
  obtain ⟨-, call⟩ := cassert_bind_ok.mp call
  cases walk : cache.walk pc (cacheEntrySize - 1) with
  | none =>
      rw [walk] at call
      cases call
  | some i =>
      rw [walk] at call
      refine ⟨i, rfl, ?_⟩
      by_cases free : (cache.table i).pc = 0
      · simp only [if_pos free] at call
        cases call
        simp [free]
      · by_cases hot : (cache.table i).isHot = true
        · simp only [if_neg free, if_pos hot] at call
          cases call
          exact (if_pos ⟨free, hot⟩).symm
        · simp only [if_neg free, if_neg hot] at call
          cases call
          simp [hot]

/-- `cache_hot` replaces the slot where its walk ends; the slot is hot afterwards
exactly when the call returned true. -/
theorem cacheHot_ok (call : cacheHot cache pc = .ok (result, cache')) :
    ∃ i item, cache.walk pc maxSearchCount = some i ∧ cache' = cache.setItem i item ∧
      item.pc = pc ∧ item.offset = (cache.table i).offset ∧ item.isHot = result ∧
      item.hot = if (cache.table i).pc = 0 then 1 else bumpHot (cache.table i).hot := by
  simp only [cacheHot] at call
  cases walk : cache.walk pc maxSearchCount with
  | none => simp [walk] at call
  | some i =>
      simp only [walk, pure, Except.pure] at call
      split at call
      · next free =>
          cases call
          exact ⟨i, _, rfl, rfl, rfl, rfl, rfl, (if_pos free).symm⟩
      · next taken =>
          cases call
          have holds : (cache.table i).pc = pc := (Probing.probe_stop walk).resolve_left taken
          exact ⟨i, _, rfl, rfl, holds, rfl, rfl, (if_neg taken).symm⟩

theorem cacheAdd_ok (call : cacheAdd cache pc code align = .ok (start, cache')) :
    start = alignTo cache.offset align ∧
      (start + BitVec.ofNat 64 code.length).toNat ≤ cacheSize ∧
      ∃ i, cache.walk pc maxSearchCount = some i ∧
        cache' = { cache.setItem i { cache.table i with pc := pc, offset := start } with
          jitcode := Bytes.copy cache.jitcode start code
          offset := start + BitVec.ofNat 64 code.length } := by
  obtain ⟨fits, call⟩ := cassert_bind_ok.mp call
  cases walk : cache.walk pc maxSearchCount with
  | none => simp [walk] at call
  | some i =>
      simp only [walk, pure, Except.pure] at call
      cases call
      exact ⟨rfl, fits, i, rfl, rfl⟩

end Operations

/-! ## The table represents the record -/

/-- The table agrees with the record. -/
structure TableInv (log : List CacheCall) (cache : Cache) : Prop where
  /-- Every stored pc is where a walk looks for it. -/
  placed : Probing.Placed cache.pcs 0 hash maxSearchCount
  /-- The counters saturate. -/
  bounded : ∀ i, (cache.table i).hot ≤ cacheHotCount
  /-- An empty slot is not hot. -/
  idle : ∀ i, (cache.table i).pc = 0 → (cache.table i).isHot = false
  /-- A slot is hot when its pc became hot. -/
  hot_iff : ∀ i, (cache.table i).pc ≠ 0 →
    ((cache.table i).isHot = true ↔ BecameHot log (cache.table i).pc)
  /-- A slot holds the last range of its pc. -/
  last : ∀ i start, (cache.table i).pc ≠ 0 → lastAdded (cache.table i).pc log = some start →
    (cache.table i).offset = start
  /-- A pc of the record is stored. -/
  known : ∀ pc, BecameHot log pc ∨ lastAdded pc log ≠ none →
    pc ≠ 0 ∧ ∃ i, (cache.table i).pc = pc
  /-- A pc that became hot has a range or awaits one. -/
  served : ∀ pc, BecameHot log pc → AwaitsAdd pc log ∨ lastAdded pc log ≠ none

section Table

variable {log log' : List CacheCall} {cache cache' : Cache} {pc : U64}
  {i : Fin cacheEntrySize} {item : CacheItem}

theorem tableInv_new : TableInv [] newCache where
  placed := Probing.placed_of_empty fun _ => rfl
  bounded _ := show (0 : U64) ≤ cacheHotCount by decide
  idle _ _ := rfl
  hot_iff _ nonzero := absurd rfl nonzero
  last _ _ nonzero := absurd rfl nonzero
  known _ member := by simp [BecameHot, lastAdded] at member
  served _ member := by simp [BecameHot] at member

/-- The slot where a walk ends is hot when the pc became hot and holds its last
range, whether it stores the pc or is empty. -/
theorem TableInv.at_walk (inv : TableInv log cache) (nonzero : pc ≠ 0) {budget : Nat}
    (le : maxSearchCount ≤ budget) (walk : cache.walk pc budget = some i) :
    ((cache.table i).isHot = true ↔ BecameHot log pc) ∧
      ∀ start, lastAdded pc log = some start → (cache.table i).offset = start := by
  rcases Probing.probe_stop walk with free | holds
  · -- an empty slot ends the walk only when the pc is not stored
    have absent : ¬ ∃ j, (cache.table j).pc = pc := by
      rintro ⟨j, rfl⟩
      have found := inv.placed.probe_stored nonzero le
      rw [Cache.walk] at walk
      rw [Cache.pcs, walk, Option.some_inj] at found
      subst found
      exact nonzero free
    refine ⟨⟨fun hot => ?_, fun hot => absurd (inv.known pc (.inl hot)).2 absent⟩, ?_⟩
    · simp [inv.idle i free] at hot
    · intro start added
      exact absurd (inv.known pc (.inr (by simp [added]))).2 absent
  · change (cache.table i).pc = pc at holds
    subst holds
    exact ⟨inv.hot_iff i nonzero, fun start added => inv.last i start nonzero added⟩

/-- Replacing the slot where the walk for a pc ends: the record may change at
this pc only, and the new slot has to agree with it. -/
theorem TableInv.set (inv : TableInv log cache) (nonzero : pc ≠ 0)
    (walk : cache.walk pc maxSearchCount = some i) (key : item.pc = pc)
    (small : item.hot ≤ cacheHotCount) (hotness : item.isHot = true ↔ BecameHot log' pc)
    (last : ∀ start, lastAdded pc log' = some start → item.offset = start)
    (others : ∀ pc', pc' ≠ pc → (BecameHot log' pc' ↔ BecameHot log pc') ∧
      lastAdded pc' log' = lastAdded pc' log)
    (served : ∀ pc', BecameHot log' pc' → AwaitsAdd pc' log' ∨ lastAdded pc' log' ≠ none) :
    TableInv log' (cache.setItem i item) := by
  have here : (cache.setItem i item).table i = item := Function.update_self ..
  have there : ∀ j, j ≠ i → (cache.setItem i item).table j = cache.table j :=
    fun j other => Function.update_of_ne other ..
  have placed : Probing.Placed (cache.setItem i item).pcs 0 hash maxSearchCount := by
    rw [Cache.pcs_setItem, key]
    exact inv.placed.insert walk
  -- a slot other than the replaced one does not hold the pc
  have distinct : ∀ j, j ≠ i → (cache.table j).pc ≠ 0 → (cache.table j).pc ≠ pc := by
    intro j other stored same
    refine other (placed.slot_unique ?_ ?_)
    · rw [Cache.pcs, there j other]; exact stored
    · rw [Cache.pcs, Cache.pcs, there j other, here, key, same]
  refine ⟨placed, fun j => ?_, fun j free => ?_, fun j stored => ?_, fun j start stored added => ?_,
    fun pc' member => ?_, served⟩
  all_goals try by_cases same : j = i
  · subst same; rw [here]; exact small
  · rw [there j same]; exact inv.bounded j
  · subst same; rw [here, key] at free; exact absurd free nonzero
  · rw [there j same] at free ⊢; exact inv.idle j free
  · subst same; rw [here, key]; exact hotness
  · rw [there j same] at stored ⊢
    rw [(others _ (distinct j same stored)).1]
    exact inv.hot_iff j stored
  · subst same; rw [here, key] at added; rw [here]; exact last start added
  · rw [there j same] at stored added ⊢
    rw [(others _ (distinct j same stored)).2] at added
    exact inv.last j start stored added
  · by_cases this : pc' = pc
    · exact ⟨this ▸ nonzero, i, by rw [here, key, this]⟩
    · rw [(others pc' this).1, (others pc' this).2] at member
      obtain ⟨nonzero', j, stored⟩ := inv.known pc' member
      have other : j ≠ i := by
        rintro rfl
        rcases Probing.probe_stop walk with free | holds
        · exact nonzero' (stored.symm.trans free)
        · exact this (stored.symm.trans holds)
      exact ⟨nonzero', j, by rw [there j other, stored]⟩

theorem TableInv.hot (inv : TableInv log cache) (nonzero : pc ≠ 0) {result : Bool}
    (call : cacheHot cache pc = .ok (result, cache')) :
    TableInv (.hot pc result :: log) cache' := by
  obtain ⟨i, item, walk, rfl, key, offset, isHot, count⟩ := cacheHot_ok call
  obtain ⟨hotness, last⟩ := inv.at_walk nonzero le_rfl walk
  have bounded := inv.bounded i
  -- a hot slot stays hot, because the counter saturates at the threshold
  have small : item.hot ≤ cacheHotCount := by
    rw [count, bumpHot]
    split_ifs <;> simp only [cacheHotCount] at * <;> bv_omega
  have stays : (cache.table i).isHot = true → item.isHot = true := by
    intro hot
    have taken : (cache.table i).pc ≠ 0 := fun free => by simp [inv.idle i free] at hot
    simp only [CacheItem.isHot, decide_eq_true_eq, count, if_neg taken, bumpHot] at hot ⊢
    split_ifs <;> simp only [cacheHotCount] at * <;> bv_omega
  have member : ∀ pc', BecameHot (.hot pc result :: log) pc' ↔
      (pc' = pc ∧ result = true) ∨ BecameHot log pc' := by
    intro pc'
    simp [BecameHot, eq_comm]
  refine inv.set nonzero walk key small ?_ ?_ ?_ ?_
  · rw [member, isHot, ← hotness]
    refine ⟨fun turned => .inl ⟨rfl, turned⟩, ?_⟩
    rintro (⟨-, turned⟩ | hot)
    · exact turned
    · exact isHot ▸ stays hot
  · intro start added
    exact offset.trans (last start added)
  · intro pc' other
    exact ⟨by simp [member, other], rfl⟩
  · intro pc' turned
    rcases (member pc').mp turned with ⟨rfl, true'⟩ | before
    · exact .inl (.inl ⟨rfl, true'⟩)
    · exact (inv.served pc' before).imp .inr id

theorem TableInv.lookup (inv : TableInv log cache) {found : Option U64} :
    TableInv (.lookup pc found :: log) cache := by
  have member : ∀ pc', BecameHot (.lookup pc found :: log) pc' ↔ BecameHot log pc' := by
    intro pc'
    simp [BecameHot]
  exact ⟨inv.placed, inv.bounded, inv.idle, fun i stored => by rw [member]; exact inv.hot_iff i stored,
    inv.last, fun pc' turned => inv.known pc' (by rwa [member] at turned),
    fun pc' turned => inv.served pc' ((member pc').mp turned)⟩

theorem TableInv.add (inv : TableInv log cache) (nonzero : pc ≠ 0) {code : List U8}
    {align start : U64} (call : cacheAdd cache pc code align = .ok (start, cache')) :
    TableInv (.add pc code align start :: log) cache' := by
  obtain ⟨-, -, i, walk, rfl⟩ := cacheAdd_ok call
  obtain ⟨hotness, -⟩ := inv.at_walk nonzero le_rfl walk
  have member : ∀ pc', BecameHot (.add pc code align start :: log) pc' ↔ BecameHot log pc' := by
    intro pc'
    simp [BecameHot]
  have set : TableInv (.add pc code align start :: log)
      (cache.setItem i { cache.table i with pc := pc, offset := start }) := by
    refine inv.set nonzero walk rfl (inv.bounded i) ?_ ?_ ?_ ?_
    · rw [member]; exact hotness
    · intro start' added
      rw [lastAdded, if_pos rfl] at added
      exact Option.some.inj added
    · intro pc' other
      exact ⟨member pc', by rw [lastAdded, if_neg (Ne.symm other)]⟩
    · intro pc' turned
      by_cases same : pc = pc'
      · exact .inr (by rw [lastAdded, if_pos same]; simp)
      · rw [AwaitsAdd, lastAdded, if_neg same]
        exact (inv.served pc' ((member pc').mp turned)).imp (fun awaits => ⟨same, awaits⟩) id
  exact ⟨set.placed, set.bounded, set.idle, set.hot_iff, set.last, set.known, set.served⟩

end Table

/-! ## The region holds the record -/

section Region

variable {log : List CacheCall} {cache cache' : Cache} {pc start align val : U64} {code : List U8}

theorem le_alignTo (valid : align = 0 ∨ Alignment.PowerOfTwo align)
    (small : val.toNat ≤ 2 ^ 63) : val.toNat ≤ (alignTo val align).toNat := by
  rcases valid with none | power
  · simp [alignTo, none]
  · have bound := power.le
    have nonzero := power.pos
    rw [alignTo, if_neg (by rintro rfl; simp at nonzero), Alignment.not_sub_one,
      ← Alignment.up, Alignment.toNat_up power (by omega)]
    exact Alignment.le_ceil nonzero

/-- Aligning a position of the region does not reach the upper half of the numbers. -/
theorem alignTo_le (valid : align = 0 ∨ Alignment.PowerOfTwo align)
    (small : val.toNat ≤ 2 ^ 63) : (alignTo val align).toNat ≤ 2 ^ 63 := by
  rcases valid with none | power
  · simpa [alignTo, none] using small
  · have bound := power.le
    have nonzero := power.pos
    rw [alignTo, if_neg (by rintro rfl; simp at nonzero), Alignment.not_sub_one,
      ← Alignment.up, Alignment.toNat_up power (by omega)]
    exact Alignment.ceil_le_of_dvd nonzero power.dvd small

theorem dvd_alignTo (power : Alignment.PowerOfTwo align) (small : val.toNat ≤ 2 ^ 63) :
    align.toNat ∣ (alignTo val align).toNat := by
  have bound := power.le
  have nonzero := power.pos
  rw [alignTo, if_neg (by rintro rfl; simp at nonzero), Alignment.not_sub_one,
    ← Alignment.up, Alignment.toNat_up power (by omega)]
  exact Alignment.dvd_ceil

/-- The region agrees with the record. -/
structure RegionInv (log : List CacheCall) (cache : Cache) : Prop where
  /-- The next position is in the region. -/
  inside : cache.offset.toNat ≤ cacheSize
  /-- Every range ends before the next position. -/
  below : ∀ pc code align start, .add pc code align start ∈ log →
    start.toNat + code.length ≤ cache.offset.toNat
  /-- Every range is aligned as requested. -/
  aligned : ∀ pc code align start, .add pc code align start ∈ log → align ≠ 0 →
    align.toNat ∣ start.toNat
  apart : (addedRanges log).Pairwise Apart
  /-- Every range holds its bytes. -/
  kept : ∀ pc code align start, .add pc code align start ∈ log →
    ∀ k (h : k < code.length), cache.jitcode (start + BitVec.ofNat 64 k) = code[k]

theorem regionInv_new : RegionInv [] newCache where
  inside := by decide
  below _ _ _ _ member := by simp at member
  aligned _ _ _ _ member := by simp at member
  apart := .nil
  kept _ _ _ _ member := by simp at member

/-- A call that adds nothing and leaves the region alone keeps the invariant. -/
theorem RegionInv.of_same (inv : RegionInv log cache) {call : CacheCall}
    (adds : ∀ pc code align start, call ≠ .add pc code align start)
    (jitcode : cache'.jitcode = cache.jitcode) (offset : cache'.offset = cache.offset) :
    RegionInv (call :: log) cache' := by
  have older : ∀ {pc code align start}, CacheCall.add pc code align start ∈ call :: log →
      .add pc code align start ∈ log := fun member =>
    (List.mem_cons.mp member).resolve_left fun same => adds _ _ _ _ same.symm
  have ranges : addedRanges (call :: log) = addedRanges log := by
    cases call with
    | hot => rfl
    | lookup => rfl
    | add => exact absurd rfl (adds _ _ _ _)
  refine ⟨offset ▸ inv.inside, ?_, ?_, ranges ▸ inv.apart, ?_⟩
  · intro pc code align start member
    rw [offset]
    exact inv.below pc code align start (older member)
  · intro pc code align start member
    exact inv.aligned pc code align start (older member)
  · intro pc code align start member
    rw [jitcode]
    exact inv.kept pc code align start (older member)

theorem RegionInv.add (inv : RegionInv log cache) (size : code.length < 2 ^ 63)
    (valid : align = 0 ∨ Alignment.PowerOfTwo align)
    (call : cacheAdd cache pc code align = .ok (start, cache')) :
    RegionInv (.add pc code align start :: log) cache' := by
  obtain ⟨position, fits, i, -, rfl⟩ := cacheAdd_ok call
  have inside := inv.inside
  have region : cacheSize = 2 ^ 26 := rfl
  have after : cache.offset.toNat ≤ start.toNat := position ▸ le_alignTo valid (by omega)
  have high : start.toNat ≤ 2 ^ 63 := position ▸ alignTo_le valid (by omega)
  -- the sum in the assertion does not wrap
  have stop : (start + BitVec.ofNat 64 code.length).toNat = start.toNat + code.length := by
    rw [BitVec.toNat_add, BitVec.toNat_ofNat]
    omega
  have older : ∀ {pc' code' align' start'},
      CacheCall.add pc' code' align' start' ∈ CacheCall.add pc code align start :: log →
      (pc' = pc ∧ code' = code ∧ align' = align ∧ start' = start) ∨
        .add pc' code' align' start' ∈ log := by
    intro pc' code' align' start' member
    simpa using member
  refine ⟨fits, ?_, ?_, ?_, ?_⟩
  · intro pc' code' align' start' member
    change _ ≤ (start + BitVec.ofNat 64 code.length).toNat
    rcases older member with ⟨-, rfl, -, rfl⟩ | old
    · omega
    · have := inv.below _ _ _ _ old
      omega
  · intro pc' code' align' start' member nonzero
    rcases older member with ⟨-, -, rfl, rfl⟩ | old
    · rw [position]
      exact dvd_alignTo (valid.resolve_left nonzero) (by omega)
    · exact inv.aligned _ _ _ _ old nonzero
  · refine List.Pairwise.cons ?_ inv.apart
    intro range member
    obtain ⟨event, old, same⟩ := List.mem_filterMap.mp member
    cases event with
    | hot => cases same
    | lookup => cases same
    | add pc' code' align' start' =>
        cases same
        right
        have := inv.below _ _ _ _ old
        omega
  · intro pc' code' align' start' member k bound
    rcases older member with ⟨-, rfl, -, rfl⟩ | old
    · exact Bytes.copy_add bound (by omega)
    · -- an older range lies before the bytes that are copied
      have before := inv.below _ _ _ _ old
      have outside : code.length ≤ (start' + BitVec.ofNat 64 k - start).toNat := by
        rw [BitVec.toNat_sub, BitVec.toNat_add, BitVec.toNat_ofNat]
        omega
      change Bytes.copy cache.jitcode start code _ = _
      rw [Bytes.copy_of_ge outside]
      exact inv.kept _ _ _ _ old k bound

end Region

/-! ## Whole runs -/

/-- What all three operations do on a pc that is stored at a slot: they use that
slot and no other. -/
structure Resolves (cache : Cache) (i : Fin cacheEntrySize) : Prop where
  lookup : cacheLookup cache (cache.table i).pc =
    .ok (if (cache.table i).isHot then some (cache.table i).offset else none)
  hot : cacheHot cache (cache.table i).pc =
    .ok (({ cache.table i with hot := bumpHot (cache.table i).hot } : CacheItem).isHot,
      cache.setItem i { cache.table i with hot := bumpHot (cache.table i).hot })
  add : ∀ code align start cache',
    cacheAdd cache (cache.table i).pc code align = .ok (start, cache') →
      cache'.table = (cache.setItem i { cache.table i with offset := start }).table

/-- The four properties of the cache after a run. -/
structure CacheIntegrity (log : List CacheCall) (cache : Cache) : Prop where
  oneSlot : ∀ i j, (cache.table i).pc ≠ 0 → (cache.table i).pc = (cache.table j).pc → i = j
  resolves : ∀ i, (cache.table i).pc ≠ 0 → Resolves cache i
  apart : (addedRanges log).Pairwise Apart
  placement : ∀ pc code align start, .add pc code align start ∈ log →
    (align ≠ 0 → align.toNat ∣ start.toNat) ∧ start.toNat + code.length ≤ cacheSize
  kept : ∀ pc code align start, .add pc code align start ∈ log →
    ∀ k (h : k < code.length), cache.jitcode (start + BitVec.ofNat 64 k) = code[k]
  looksUp : ∀ pc found, pc ≠ 0 → ¬ AwaitsAdd pc log → cacheLookup cache pc = .ok found →
    (BecameHot log pc → found = lastAdded pc log ∧ found ≠ none) ∧
      (¬ BecameHot log pc → found = none)

theorem TableInv.resolves {log : List CacheCall} {cache : Cache} (inv : TableInv log cache)
    {i : Fin cacheEntrySize} (stored : (cache.table i).pc ≠ 0) : Resolves cache i := by
  have walk : ∀ budget, maxSearchCount ≤ budget →
      cache.walk (cache.table i).pc budget = some i :=
    fun budget le => inv.placed.probe_stored stored le
  refine ⟨?_, ?_, ?_⟩
  · have wide := walk (cacheEntrySize - 1) (by decide)
    rw [cacheLookup, wide]
    by_cases hot : (cache.table i).isHot = true
    · simp only [cassert, if_pos stored, if_neg stored, if_pos hot]; rfl
    · simp only [cassert, if_pos stored, if_neg stored, if_neg hot]; rfl
  · rw [cacheHot, walk _ le_rfl]
    exact if_neg stored
  · intro code align start cache' call
    obtain ⟨-, -, j, walk', rfl⟩ := cacheAdd_ok call
    rw [walk _ le_rfl] at walk'
    cases walk'
    rfl

theorem CacheRun.invariants {log : List CacheCall} {cache : Cache} (run : CacheRun log cache) :
    TableInv log cache ∧ RegionInv log cache := by
  induction run with
  | new => exact ⟨tableInv_new, regionInv_new⟩
  | hot _ nonzero call ih =>
      refine ⟨ih.1.hot nonzero call, ?_⟩
      obtain ⟨i, item, -, rfl, -⟩ := cacheHot_ok call
      exact ih.2.of_same (by simp) rfl rfl
  | lookup _ _ _ _ ih => exact ⟨ih.1.lookup, ih.2.of_same (by simp) rfl rfl⟩
  | add _ nonzero size valid call ih =>
      exact ⟨ih.1.add nonzero call, ih.2.add size valid call⟩

/-- **Integrity of the code cache.** -/
theorem cache_integrity {log : List CacheCall} {cache : Cache} (run : CacheRun log cache) :
    CacheIntegrity log cache := by
  obtain ⟨table, region⟩ := run.invariants
  refine ⟨fun i j stored same => table.placed.slot_unique stored same,
    fun i stored => table.resolves stored, region.apart, ?_, region.kept, ?_⟩
  · intro pc code align start member
    have := region.below pc code align start member
    have := region.inside
    exact ⟨region.aligned pc code align start member, by omega⟩
  · intro pc found nonzero ready call
    obtain ⟨i, walk, rfl⟩ := cacheLookup_ok call
    obtain ⟨hotness, last⟩ := table.at_walk nonzero (by decide) walk
    constructor
    · intro turned
      have hot := hotness.mpr turned
      have taken : (cache.table i).pc ≠ 0 := fun free => by simp [table.idle i free] at hot
      rw [if_pos ⟨taken, hot⟩]
      obtain ⟨start, added⟩ : ∃ start, lastAdded pc log = some start :=
        Option.ne_none_iff_exists'.mp ((table.served pc turned).resolve_left ready)
      rw [added, last start added]
      exact ⟨rfl, by simp⟩
    · intro cold
      exact if_neg fun hot => cold (hotness.mp hot.2)

/-- A pc that is counted once and added twice, as for read-only data and code. -/
theorem cache_integrity_twoSections : ∃ cache, CacheIntegrity
    [.add 0x1000 [0xc3] 16 16, .add 0x1000 [0x90] 16 0, .hot 0x1000 false] cache := by
  have power : Alignment.PowerOfTwo 16 := ⟨4, by decide, rfl⟩
  exact ⟨_, cache_integrity
    (.add (.add (.hot .new (by decide) rfl) (by decide) (by decide) (.inr power) rfl)
      (by decide) (by decide) (.inr power) rfl)⟩

end RiscvEmu
