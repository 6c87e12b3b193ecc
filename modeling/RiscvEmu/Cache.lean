import RiscvEmu.Basic
import RiscvEmu.Foundation.Alignment
import RiscvEmu.Foundation.Probing

/-!
# The code cache

`cache.c`: an open-addressing table from guest pcs to compiled code, and the
region the code is copied into. The start of the region is a host address that
nothing depends on; `jitcode` gives the bytes of the region and everything the
source points to in it is a distance from its start.

The three operations walk the same way from the slot of the hash, with linear
steps and wrap-around. `cache_lookup` has no bound on its walk, so a walk that
has passed over all slots never ends; the other two assert that at most
`MAX_SEARCH_COUNT` slots are passed over.
-/

set_option autoImplicit false

namespace RiscvEmu

/-- `CACHE_ENTRY_SIZE`. -/
abbrev cacheEntrySize : Nat := 64 * 1024

instance : NeZero cacheEntrySize := ⟨by decide⟩

/-- `CACHE_SIZE`. -/
def cacheSize : Nat := 64 * 1024 * 1024

/-- `MAX_SEARCH_COUNT`. -/
def maxSearchCount : Nat := 32

/-- `CACHE_HOT_COUNT`. -/
def cacheHotCount : U64 := 100000

/-- `cache_item_t`. The pc is the key, and zero marks an empty slot. -/
structure CacheItem where
  pc : U64
  hot : U64
  offset : U64
  deriving DecidableEq

/-- `cache_t`. -/
structure Cache where
  jitcode : Bytes.Memory
  offset : U64
  table : Fin cacheEntrySize → CacheItem

/-- `new_cache`. Both `calloc` and `mmap` give zeros. -/
def newCache : Cache where
  jitcode _ := 0
  offset := 0
  table _ := ⟨0, 0, 0⟩

/-- `hash`. -/
def hash (pc : U64) : Fin cacheEntrySize := Fin.ofNat _ pc.toNat

namespace Cache

/-- The key of each slot. -/
def pcs (cache : Cache) (i : Fin cacheEntrySize) : U64 := (cache.table i).pc

/-- The walk for a pc: the first slot from its hash that is empty or holds the
pc, if at most `budget` slots are passed over before it. -/
def walk (cache : Cache) (pc : U64) (budget : Nat) : Option (Fin cacheEntrySize) :=
  Probing.probe cache.pcs 0 pc budget (hash pc)

/-- The cache with one slot replaced. -/
def setItem (cache : Cache) (i : Fin cacheEntrySize) (item : CacheItem) : Cache :=
  { cache with table := Function.update cache.table i item }

theorem pcs_setItem (cache : Cache) (i : Fin cacheEntrySize) (item : CacheItem) :
    (cache.setItem i item).pcs = Function.update cache.pcs i item.pc := by
  funext j
  by_cases same : j = i
  · subst same
    simp only [pcs, setItem, Function.update_self]
  · simp only [pcs, setItem, Function.update_of_ne same]

end Cache

/-- `CACHE_IS_HOT`. -/
def CacheItem.isHot (item : CacheItem) : Bool := decide (cacheHotCount ≤ item.hot)

/-- `cache_lookup`. `none` is `NULL`. -/
def cacheLookup (cache : Cache) (pc : U64) : Except Abort (Option U64) := do
  cassert (pc ≠ 0) "pc != 0"
  match cache.walk pc (cacheEntrySize - 1) with
  | none => .error .hang
  | some i =>
      if (cache.table i).pc = 0 then return none
      else if (cache.table i).isHot then return some (cache.table i).offset
      else return none

/-- `align_to`. -/
def alignTo (val align : U64) : U64 :=
  if align = 0 then val else (val + align - 1) &&& ~~~(align - 1)

/-- `cache_add`; the bytes come with their number `sz`. -/
def cacheAdd (cache : Cache) (pc : U64) (code : List U8) (align : U64) :
    Except Abort (U64 × Cache) := do
  let offset := alignTo cache.offset align
  let sz := BitVec.ofNat 64 code.length
  cassert ((offset + sz).toNat ≤ cacheSize) "cache->offset + sz <= CACHE_SIZE"
  match cache.walk pc maxSearchCount with
  | none => .error (.assertion "++search_count <= MAX_SEARCH_COUNT")
  | some i =>
      let item := { cache.table i with pc := pc, offset := offset }
      return (offset, { cache.setItem i item with
        jitcode := Bytes.copy cache.jitcode offset code
        offset := offset + sz })

/-- `hot = MIN(++hot, CACHE_HOT_COUNT)`: the macro evaluates `++hot` a second
time when it is the smaller one. -/
def bumpHot (hot : U64) : U64 := if cacheHotCount > hot + 1 then hot + 2 else cacheHotCount

/-- `cache_hot`. -/
def cacheHot (cache : Cache) (pc : U64) : Except Abort (Bool × Cache) :=
  match cache.walk pc maxSearchCount with
  | none => .error (.assertion "++search_count <= MAX_SEARCH_COUNT")
  | some i =>
      if (cache.table i).pc = 0 then
        return (false, cache.setItem i { cache.table i with pc := pc, hot := 1 })
      else
        let item := { cache.table i with hot := bumpHot (cache.table i).hot }
        return (item.isHot, cache.setItem i item)

end RiscvEmu
