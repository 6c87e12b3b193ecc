import RiscvEmu.Foundation.Iteration
import RiscvEmu.WorkStructures

/-!
# The set as a set

The runs of the set are recorded by the elements added since the last reset (`SetRun`). What
`set_add` returns is right for all of them. `set_has` walks like `set_add`, but its loop does
not move on from a slot that holds another element (`hasIter`).

* `behavesAsSet_iff`: the two operations are right about an element exactly when the slot of its
  hash is empty or holds it.
-/

set_option autoImplicit false

namespace RiscvEmu

section Definitions

/-- A round of the loop of `set_has`. -/
def hasIter (set : WorkSet) (elem : U64) (index : Fin setSize) :
    Except Abort (Fin setSize ⊕ Bool) :=
  if set.table index = 0 then .ok (.inr false)
  else if set.table index = elem then .ok (.inr true)
  else .ok (.inl index)

/-- `set_has` on a non-zero element. -/
def SetHas (set : WorkSet) (elem : U64) (result : Bool) : Prop :=
  Iteration.Returns (hasIter set elem) (setHash elem) result

/-- The sets reached by `set_reset` and `set_add`, with the elements added since the last
reset. -/
inductive SetRun : List U64 → WorkSet → Prop where
  | new : SetRun [] .reset
  | reset {log : List U64} {set : WorkSet} : SetRun log set → SetRun [] .reset
  | add {log : List U64} {set set' : WorkSet} {elem : U64} {result : Bool} :
      SetRun log set → elem ≠ 0 → set.add elem = .ok (result, set') → SetRun (elem :: log) set'

/-- What the set says about an element is right. -/
structure BehavesAsSet (log : List U64) (set : WorkSet) (elem : U64) : Prop where
  has : ∃ result, SetHas set elem result ∧ (result = true ↔ elem ∈ log)
  add : ∀ result set', set.add elem = .ok (result, set') → (result = true ↔ elem ∉ log)

end Definitions

section Runs

variable {log : List U64} {set : WorkSet} {elem : U64}

/-- The elements of the set are those added. -/
theorem SetRun.has_iff (run : SetRun log set) (x : U64) : set.Has x ↔ x ∈ log := by
  induction run with
  | new => simpa using WorkSet.not_has_reset
  | reset _ _ => simpa using WorkSet.not_has_reset
  | @add log set set' elem result _ nonzero call ih =>
      cases result with
      | false =>
          obtain ⟨has, rfl⟩ := WorkSet.add_false call
          rw [ih, List.mem_cons]
          constructor
          · exact .inr
          · rintro (rfl | known)
            · rwa [ih] at has
            · exact known
      | true =>
          obtain ⟨-, -, has, -⟩ := WorkSet.add_true call
          rw [has, ih, List.mem_cons, or_comm]

/-- **An addition says whether the element is new.** -/
theorem SetRun.add_result (run : SetRun log set) {result : Bool} {set' : WorkSet}
    (call : set.add elem = .ok (result, set')) : result = true ↔ elem ∉ log := by
  rw [← run.has_iff]
  cases result with
  | false =>
      have has := (WorkSet.add_false call).1
      simpa using has
  | true =>
      have absent := (WorkSet.add_true call).2.1
      simpa using absent

/-- The loop of `set_has` stays at a slot that holds another element. -/
theorem setHas_hangs (taken : set.table (setHash elem) ≠ 0)
    (other : set.table (setHash elem) ≠ elem) (result : Bool) : ¬ SetHas set elem result := by
  apply Iteration.not_returns_of_stuck
  rw [hasIter, if_neg taken, if_neg other]

/-- **The set behaves as a set** for an element exactly when no other element is in the slot of
its hash. -/
theorem behavesAsSet_iff (run : SetRun log set) (nonzero : elem ≠ 0) :
    BehavesAsSet log set elem ↔
      set.table (setHash elem) = 0 ∨ set.table (setHash elem) = elem := by
  constructor
  · rintro ⟨⟨result, has, -⟩, -⟩
    by_contra neither
    rw [not_or] at neither
    exact setHas_hangs neither.1 neither.2 result has
  · intro home
    refine ⟨?_, fun result set' call => run.add_result call⟩
    by_cases empty : set.table (setHash elem) = 0
    · refine ⟨false, .leave (if_pos empty), ?_⟩
      -- the walk for an element that is there would stop at the empty slot
      have absent : ¬ set.Has elem := by
        intro has
        obtain ⟨i, walk, here⟩ := WorkSet.walk_of_has has
        rw [WorkSet.walk, Probing.probe_of_stop (.inl empty), Option.some_inj] at walk
        rw [← walk, empty] at here
        exact nonzero here.symm
      simpa [run.has_iff] using absent
    · have holds := home.resolve_left empty
      refine ⟨true, .leave ((if_neg empty).trans (if_pos holds)), ?_⟩
      simpa using (run.has_iff elem).mp ⟨_, holds, nonzero⟩

/-- Of two elements with one hash the set behaves as a set for the first one only. -/
theorem behavesAsSet_iff_colliding : ∃ set, SetRun [0x9000, 0x1000] set ∧
    BehavesAsSet [0x9000, 0x1000] set 0x1000 ∧ ¬ BehavesAsSet [0x9000, 0x1000] set 0x9000 := by
  obtain ⟨first, call, set, call', home, other⟩ : ∃ first,
      WorkSet.reset.add 0x1000 = .ok (true, first) ∧ ∃ set, first.add 0x9000 = .ok (true, set) ∧
        set.table (setHash 0x1000) = 0x1000 ∧ set.table (setHash 0x9000) = 0x1000 :=
    ⟨_, rfl, _, rfl, rfl, rfl⟩
  have run : SetRun [0x9000, 0x1000] set := .add (.add .new (by decide) call) (by decide) call'
  refine ⟨set, run, (behavesAsSet_iff run (by decide)).mpr (.inr home), fun behaves => ?_⟩
  have slot := (behavesAsSet_iff run (by decide)).mp behaves
  rw [other] at slot
  revert slot
  decide

/-- With one element in the set `set_has` never returns for another one of its hash. -/
theorem setHas_never_returns : ∃ set, SetRun [0x1000] set ∧ ∀ result, ¬ SetHas set 0x9000 result := by
  obtain ⟨set, call, table⟩ : ∃ set, WorkSet.reset.add 0x1000 = .ok (true, set) ∧
      set.table = Function.update (fun _ => 0) (setHash 0x1000) 0x1000 := ⟨_, rfl, rfl⟩
  refine ⟨set, .add .new (by decide) call, ?_⟩
  have here : set.table (setHash 0x9000) = 0x1000 := by
    rw [table]
    rfl
  apply setHas_hangs
  · rw [here]
    decide
  · rw [here]
    decide

end Runs

end RiscvEmu
