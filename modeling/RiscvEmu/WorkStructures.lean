import RiscvEmu.Basic
import RiscvEmu.Foundation.Probing
import RiscvEmu.Foundation.Worklist
import Mathlib.Data.Finset.Card
import Mathlib.Data.Fintype.Basic

/-!
# The work structures of the generator

`stack.c` and `set.c`: the stack of pending pcs and the set of visited ones.
Both have a fixed size and assert that it suffices. The stack drops a pc that it
already holds. The set is an open-addressing table in which zero marks an empty
slot, so zero cannot be an element.

Each structure carries its invariant: the stack is within its capacity and free
of duplicates, and the table is one that every element is found in.
-/

set_option autoImplicit false

namespace RiscvEmu

/-! ## The stack -/

/-- `STACK_CAP`. -/
def stackCap : Nat := 256

/-- `stack_t`; the list has the top of the stack first. -/
structure WorkStack where
  elems : List U64
  bound : elems.length ≤ stackCap
  nodup : elems.Nodup

namespace WorkStack

/-- `stack_reset`. -/
def reset : WorkStack := ⟨[], Nat.zero_le _, .nil⟩

/-- `stack_push`. -/
def push (stack : WorkStack) (elem : U64) : Except Abort WorkStack :=
  if room : stack.elems.length < stackCap then
    if dup : elem ∈ stack.elems then .ok stack
    else .ok ⟨elem :: stack.elems, room, List.nodup_cons.mpr ⟨dup, stack.nodup⟩⟩
  else .error (.assertion "stack->top < STACK_CAP")

/-- `stack_pop`. -/
def pop : WorkStack → Option (U64 × WorkStack)
  | ⟨[], _, _⟩ => none
  | ⟨elem :: elems, bound, nodup⟩ =>
      some (elem, ⟨elems, Nat.le_of_succ_le bound, (List.nodup_cons.mp nodup).2⟩)

variable {stack stack' : WorkStack} {elem : U64}

/-- A push that returns has found room. -/
theorem push_ok (pushed : stack.push elem = .ok stack') :
    stack.elems.length < stackCap ∧ stack'.elems = Worklist.push stack.elems elem := by
  simp only [push] at pushed
  split at pushed
  · next room =>
      refine ⟨room, ?_⟩
      split at pushed
      · next dup =>
          cases pushed
          exact (if_pos dup).symm
      · next fresh =>
          cases pushed
          exact (if_neg fresh).symm
  · cases pushed

theorem push_error {abort : Abort} (died : stack.push elem = .error abort) :
    abort = .assertion "stack->top < STACK_CAP" ∧ stackCap ≤ stack.elems.length := by
  simp only [push] at died
  split at died
  · split at died <;> cases died
  · next full =>
      cases died
      exact ⟨rfl, Nat.le_of_not_lt full⟩

/-- Some pushes that return have all found room. -/
theorem pushes_ok {elems : List U64} (pushed : elems.foldlM push stack = .ok stack') :
    stack'.elems = elems.foldl Worklist.push stack.elems ∧
      ∀ before next after, elems = before ++ next :: after →
        (before.foldl Worklist.push stack.elems).length < stackCap := by
  induction elems generalizing stack with
  | nil =>
      cases pushed
      refine ⟨rfl, ?_⟩
      intro before next after split
      simp at split
  | cons elem elems ih =>
      rw [List.foldlM_cons] at pushed
      obtain ⟨stack₁, first, others⟩ := bind_ok.mp pushed
      obtain ⟨room, top⟩ := push_ok first
      obtain ⟨last, rooms⟩ := ih others
      rw [top] at last rooms
      refine ⟨last, ?_⟩
      intro before next after split
      cases before with
      | nil => exact room
      | cons _ before =>
          obtain ⟨rfl, rest⟩ := List.cons.inj split
          exact rooms before next after rest

/-- Some pushes die at the one that finds no room. -/
theorem pushes_error {elems : List U64} {abort : Abort}
    (died : elems.foldlM push stack = .error abort) :
    abort = .assertion "stack->top < STACK_CAP" ∧
      ∃ before next after, elems = before ++ next :: after ∧
        stackCap ≤ (before.foldl Worklist.push stack.elems).length := by
  induction elems generalizing stack with
  | nil => cases died
  | cons elem elems ih =>
      rw [List.foldlM_cons] at died
      rcases bind_error.mp died with first | ⟨stack₁, first, others⟩
      · obtain ⟨same, full⟩ := push_error first
        exact ⟨same, [], elem, elems, rfl, full⟩
      · obtain ⟨same, before, next, after, rfl, full⟩ := ih others
        rw [(push_ok first).2] at full
        exact ⟨same, elem :: before, next, after, rfl, full⟩

theorem pop_none : stack.pop = none ↔ stack.elems = [] := by
  obtain ⟨elems, bound, nodup⟩ := stack
  cases elems <;> simp [pop]

theorem pop_some (popped : stack.pop = some (elem, stack')) :
    stack.elems = elem :: stack'.elems := by
  obtain ⟨elems, bound, nodup⟩ := stack
  cases elems with
  | nil => cases popped
  | cons top rest => cases popped; rfl

end WorkStack

/-! ## The set -/

/-- `SET_SIZE`. -/
abbrev setSize : Nat := 32 * 1024

/-- `MAX_SEARCH_COUNT` of the set. -/
def setSearchCount : Nat := 32

/-- `hash` of the set. -/
def setHash (elem : U64) : Fin setSize := Fin.ofNat _ elem.toNat

/-- `set_t`. -/
structure WorkSet where
  table : Fin setSize → U64
  placed : Probing.Placed table 0 setHash setSearchCount

namespace WorkSet

/-- `set_reset`. -/
def reset : WorkSet := ⟨fun _ => 0, Probing.placed_of_empty fun _ => rfl⟩

/-- The slot where the walk of `set_add` stops. -/
def walk (set : WorkSet) (elem : U64) : Option (Fin setSize) :=
  Probing.probe set.table 0 elem setSearchCount (setHash elem)

/-- The set after an element is stored at the slot where its walk stopped. -/
def store (set : WorkSet) (elem : U64) (i : Fin setSize) (stop : set.walk elem = some i) :
    WorkSet :=
  ⟨Function.update set.table i elem, set.placed.insert stop⟩

/-- `set_add`: whether the element is new, and the set. -/
def add (set : WorkSet) (elem : U64) : Except Abort (Bool × WorkSet) :=
  if elem = 0 then .error (.assertion "elem != 0")
  else match stop : set.walk elem with
    | none => .error (.assertion "++search_count <= MAX_SEARCH_COUNT")
    | some i =>
        if set.table i = 0 then .ok (true, set.store elem i stop)
        else .ok (false, set)

/-- The elements. -/
def Has (set : WorkSet) (elem : U64) : Prop := ∃ i, set.table i = elem ∧ elem ≠ 0

/-- The slots that are empty. -/
def free (set : WorkSet) : Finset (Fin setSize) := Finset.univ.filter fun i => set.table i = 0

variable {set set' : WorkSet} {elem : U64}

theorem not_has_reset : ¬ WorkSet.reset.Has elem := by
  rintro ⟨i, here, nonzero⟩
  exact nonzero here.symm

/-- The walk for an element ends where the element is. -/
theorem walk_of_has (has : set.Has elem) : ∃ i, set.walk elem = some i ∧ set.table i = elem := by
  obtain ⟨i, rfl, stored⟩ := has
  exact ⟨i, set.placed i stored, rfl⟩

theorem mem_free (i : Fin setSize) : i ∈ set.free ↔ set.table i = 0 := by
  simp [free]

section Store

variable {i : Fin setSize} {stop : set.walk elem = some i}

theorem table_store : (set.store elem i stop).table = Function.update set.table i elem := rfl

/-- Filling an empty slot adds one element. -/
theorem has_store (empty : set.table i = 0) (nonzero : elem ≠ 0) (x : U64) :
    (set.store elem i stop).Has x ↔ set.Has x ∨ x = elem := by
  simp only [Has, table_store]
  constructor
  · rintro ⟨j, here, stored⟩
    by_cases same : j = i
    · subst same
      rw [Function.update_self] at here
      exact .inr here.symm
    · rw [Function.update_of_ne same] at here
      exact .inl ⟨j, here, stored⟩
  · rintro (⟨j, rfl, stored⟩ | rfl)
    · have other : j ≠ i := fun same => stored (same ▸ empty)
      exact ⟨j, Function.update_of_ne other .., stored⟩
    · exact ⟨i, Function.update_self .., nonzero⟩

theorem free_store (empty : set.table i = 0) (nonzero : elem ≠ 0) :
    (set.store elem i stop).free.card < set.free.card := by
  apply Finset.card_lt_card
  constructor
  · intro j
    rw [mem_free, mem_free, table_store]
    by_cases same : j = i
    · exact fun _ => same ▸ empty
    · rw [Function.update_of_ne same]
      exact id
  · intro sub
    have still : i ∈ (set.store elem i stop).free := sub ((mem_free i).mpr empty)
    rw [mem_free, table_store, Function.update_self] at still
    exact nonzero still

end Store

/-- An addition that says `false` changes nothing: the element is there. -/
theorem add_false (result : set.add elem = .ok (false, set')) : set.Has elem ∧ set' = set := by
  simp only [add] at result
  split at result
  · cases result
  · next nonzero =>
      split at result
      · cases result
      · next i stop =>
          split at result
          · cases result
          · next full =>
              cases result
              exact ⟨⟨i, (Probing.probe_stop stop).resolve_left full, nonzero⟩, rfl⟩

/-- An addition whose walk fails does not return. -/
theorem add_ne_ok {result : Bool × WorkSet} (walk : set.walk elem = none) :
    set.add elem ≠ .ok result := by
  intro returned
  simp only [add] at returned
  split at returned
  · cases returned
  · split at returned
    · cases returned
    · next i stop => cases walk.symm.trans stop

/-- An addition that says `true` adds an element that was not there. -/
theorem add_true (result : set.add elem = .ok (true, set')) :
    elem ≠ 0 ∧ ¬ set.Has elem ∧ (∀ x, set'.Has x ↔ set.Has x ∨ x = elem) ∧
      set'.free.card < set.free.card := by
  simp only [add] at result
  split at result
  · cases result
  · next nonzero =>
      split at result
      · cases result
      · next i stop =>
          split at result
          · next empty =>
              cases result
              refine ⟨nonzero, ?_, has_store empty nonzero, free_store empty nonzero⟩
              intro has
              obtain ⟨j, walk, here⟩ := walk_of_has has
              obtain rfl : i = j := Option.some.inj (stop.symm.trans walk)
              exact nonzero (here.symm.trans empty)
          · cases result

end WorkSet

end RiscvEmu
