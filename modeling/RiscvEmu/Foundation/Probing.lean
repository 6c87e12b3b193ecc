import RiscvEmu.Foundation.Iteration
import Mathlib.Algebra.Group.Fin.Basic
import Mathlib.Algebra.GroupWithZero.Nat
import Mathlib.Data.Finset.Max
import Mathlib.Data.Fintype.Fin
import Mathlib.Logic.Function.Basic

/-!
# Linear probing

A table of `n` slots holds keys; one key value marks a slot as empty. A key is
looked for from its home slot onwards, wrapping around, until a slot is empty
or holds the key, and at most `budget` slots are passed over.

The invariant of a table that is only ever inserted into is that every stored
key is found at the slot that holds it (`Placed`). It says at once that a key
occupies one slot (`Placed.slot_unique`) and that every walk with at least that
budget resolves the key to that slot (`Placed.probe_stored`), and inserting at
the slot where a walk stopped preserves it (`Placed.insert`).

A walk without a bound is one over all slots (`returns_iff_probe`). Whether it ends is a
matter of counting (`Placed.exists_empty_iff`), and so is which slots are taken: these do
not depend on the order in which the keys were inserted (`Placed.occupied_iff`).
-/

set_option autoImplicit false

namespace Probing

variable {n : Nat} [NeZero n] {κ : Type*} [DecidableEq κ]

/-- Walk from a slot to the first slot that is empty or holds the key, passing
over at most `budget` slots. -/
def probe (keys : Fin n → κ) (empty key : κ) : Nat → Fin n → Option (Fin n)
  | 0, i => if keys i = empty ∨ keys i = key then some i else none
  | budget + 1, i =>
      if keys i = empty ∨ keys i = key then some i
      else probe keys empty key budget (i + 1)

section Walks

variable {keys : Fin n → κ} {empty key : κ} {budget : Nat} {i j : Fin n}

theorem probe_of_stop (stop : keys i = empty ∨ keys i = key) :
    probe keys empty key budget i = some i := by
  cases budget <;> simp [probe, stop]

/-- A walk ends at a slot that is empty or holds the key. -/
theorem probe_stop (walk : probe keys empty key budget i = some j) :
    keys j = empty ∨ keys j = key := by
  induction budget generalizing i with
  | zero =>
      simp only [probe] at walk
      split at walk
      · next stop => cases walk; exact stop
      · cases walk
  | succ budget ih =>
      simp only [probe] at walk
      split at walk
      · next stop => cases walk; exact stop
      · exact ih walk

/-- A larger budget does not change where a walk ends. -/
theorem probe_mono {larger : Nat} (le : budget ≤ larger)
    (walk : probe keys empty key budget i = some j) :
    probe keys empty key larger i = some j := by
  induction budget generalizing i larger with
  | zero =>
      simp only [probe] at walk
      split at walk
      · next stop => cases walk; exact probe_of_stop stop
      · cases walk
  | succ budget ih =>
      obtain ⟨larger, rfl⟩ : ∃ m, larger = m + 1 := ⟨larger - 1, by omega⟩
      simp only [probe] at walk ⊢
      split at walk
      · next stop => rw [if_pos stop]; exact walk
      · next stop => rw [if_neg stop]; exact ih (by omega) walk

/-- Filling the slot where a walk stopped with its key keeps the walk. -/
theorem probe_update_self (walk : probe keys empty key budget i = some j) :
    probe (Function.update keys j key) empty key budget i = some j := by
  induction budget generalizing i with
  | zero =>
      simp only [probe] at walk
      split at walk
      · cases walk; exact probe_of_stop (.inr (Function.update_self ..))
      · cases walk
  | succ budget ih =>
      by_cases here : i = j
      · subst here; exact probe_of_stop (.inr (Function.update_self ..))
      · simp only [probe] at walk ⊢
        rw [Function.update_of_ne here]
        split at walk
        · next stop => cases walk; exact absurd rfl here
        · next stop => rw [if_neg stop]; exact ih walk

/-- Filling an empty slot does not disturb a walk that ends at a stored key:
the walk passes over occupied slots only. -/
theorem probe_update_of_empty {slot : Fin n} {new : κ}
    (walk : probe keys empty key budget i = some j) (stored : keys j ≠ empty)
    (free : keys slot = empty) :
    probe (Function.update keys slot new) empty key budget i = some j := by
  have final : j ≠ slot := fun same => stored (same ▸ free)
  induction budget generalizing i with
  | zero =>
      simp only [probe] at walk
      split at walk
      · next stop =>
          cases walk
          exact probe_of_stop (by rwa [Function.update_of_ne final])
      · cases walk
  | succ budget ih =>
      simp only [probe] at walk
      split at walk
      · next stop =>
          cases walk
          exact probe_of_stop (by rwa [Function.update_of_ne final])
      · next stop =>
          have passed : ¬ (Function.update keys slot new i = empty ∨
              Function.update keys slot new i = key) := by
            by_cases here : i = slot
            · subst here; exact absurd (.inl free) stop
            · rwa [Function.update_of_ne here]
          simp only [probe, if_neg passed]
          exact ih walk

end Walks

/-! ## How far a walk goes -/

section Distance
variable {keys : Fin n → κ} {empty key : κ} {budget : Nat} {i j m : Fin n}

theorem val_sub_succ (ne : j ≠ i) : (j - (i + 1)).val + 1 = (j - i).val := by
  have nonzero : j - i ≠ 0 := sub_ne_zero.mpr ne
  have positive : (j - i).val ≠ 0 := fun zero => nonzero (Fin.val_eq_zero_iff.mp zero)
  rw [sub_add_eq_sub_sub, Fin.val_sub_one_of_ne_zero nonzero]
  exact Nat.sub_add_cancel (Nat.one_le_iff_ne_zero.mpr positive)

/-- A walk is as long as its budget allows. -/
theorem probe_distance (walk : probe keys empty key budget i = some j) :
    (j - i).val ≤ budget := by
  induction budget generalizing i with
  | zero =>
      simp only [probe] at walk
      split at walk
      · cases walk
        simp
      · cases walk
  | succ budget ih =>
      simp only [probe] at walk
      split at walk
      · cases walk
        simp
      · by_cases here : j = i
        · simp [here]
        · have := ih walk
          have := val_sub_succ here
          omega

/-- The slots before the one where a walk ends are passed over. -/
theorem probe_passes (walk : probe keys empty key budget i = some j)
    (before : (m - i).val < (j - i).val) : ¬ (keys m = empty ∨ keys m = key) := by
  induction budget generalizing i with
  | zero =>
      simp only [probe] at walk
      split at walk
      · cases walk
        simp at before
      · cases walk
  | succ budget ih =>
      simp only [probe] at walk
      split at walk
      · cases walk
        simp at before
      · next passed =>
          by_cases here : m = i
          · exact here ▸ passed
          · have later : j ≠ i := by
              rintro rfl
              simp at before
            have := val_sub_succ here
            have := val_sub_succ later
            exact ih walk (by omega)

/-- A walk ends when a slot within its budget stops it. -/
theorem probe_ends (stop : keys j = empty ∨ keys j = key) (near : (j - i).val ≤ budget) :
    ∃ m, probe keys empty key budget i = some m := by
  induction budget generalizing i with
  | zero =>
      have here : j = i := sub_eq_zero.mp (Fin.val_eq_zero_iff.mp (Nat.le_zero.mp near))
      exact ⟨i, probe_of_stop (here ▸ stop)⟩
  | succ budget ih =>
      simp only [probe]
      split
      · exact ⟨i, rfl⟩
      · next passed =>
          have later : j ≠ i := by
            rintro rfl
            exact passed stop
          have := val_sub_succ later
          exact ih (by omega)

theorem probe_eq_none_iff : probe keys empty key budget i = none ↔
    ∀ j, (j - i).val ≤ budget → ¬ (keys j = empty ∨ keys j = key) := by
  constructor
  · intro none j near stop
    obtain ⟨m, ends⟩ := probe_ends stop near
    rw [none] at ends
    cases ends
  · intro passed
    cases walk : probe keys empty key budget i with
    | none => rfl
    | some j => exact absurd (probe_stop walk) (passed j (probe_distance walk))

end Distance

/-! ## The walk without a bound -/

section Unbounded

variable {keys : Fin n → κ} {empty key : κ} {i : Fin n} {ε ρ : Type*}
  {step : Fin n → Except ε (Fin n ⊕ ρ)} {result : Fin n → ρ}

/-- **A walk without a bound** ends where the walk over all slots ends, if that one ends. -/
theorem returns_iff_probe
    (body : ∀ i, step i = if keys i = empty ∨ keys i = key then .ok (.inr (result i))
      else .ok (.inl (i + 1))) {r : ρ} :
    Iteration.Returns step i r ↔ ∃ j, probe keys empty key (n - 1) i = some j ∧ r = result j := by
  constructor
  · intro returns
    induction returns with
    | @leave start r leaves =>
        rw [body] at leaves
        split at leaves
        · next stop =>
            cases leaves
            exact ⟨_, probe_of_stop stop, rfl⟩
        · cases leaves
    | @again start next r continues _ ih =>
        rw [body] at continues
        split at continues
        · cases continues
        · next passed =>
            cases continues
            obtain ⟨j, walk, same⟩ := ih
            have far : probe keys empty key (n - 1 + 1) start = some j := by
              rw [probe, if_neg passed]
              exact walk
            have inside : (j - start).val ≤ n - 1 := Nat.le_sub_one_of_lt (j - start).isLt
            obtain ⟨m, near⟩ := probe_ends (probe_stop walk) inside
            have again : probe keys empty key (n - 1 + 1) start = some m :=
              probe_mono (Nat.le_succ _) near
            rw [far] at again
            cases again
            exact ⟨j, near, same⟩
  · rintro ⟨j, walk, rfl⟩
    generalize n - 1 = budget at walk
    induction budget generalizing i with
    | zero =>
        simp only [probe] at walk
        split at walk
        · next stop =>
            cases walk
            exact .leave ((body _).trans (if_pos stop))
        · cases walk
    | succ budget ih =>
        simp only [probe] at walk
        split at walk
        · next stop =>
            cases walk
            exact .leave ((body _).trans (if_pos stop))
        · next passed => exact .again ((body _).trans (if_neg passed)) (ih walk)

end Unbounded

/-! ## Tables that are only inserted into -/

/-- Every stored key is found, within the budget, at the slot that holds it. -/
def Placed (keys : Fin n → κ) (empty : κ) (home : κ → Fin n) (budget : Nat) : Prop :=
  ∀ i, keys i ≠ empty → probe keys empty (keys i) budget (home (keys i)) = some i

variable {keys : Fin n → κ} {empty : κ} {home : κ → Fin n} {budget : Nat}

theorem placed_of_empty (allEmpty : ∀ i, keys i = empty) : Placed keys empty home budget :=
  fun i stored => absurd (allEmpty i) stored

/-- A key occupies at most one slot. -/
theorem Placed.slot_unique (placed : Placed keys empty home budget) {i j : Fin n}
    (stored : keys i ≠ empty) (same : keys i = keys j) : i = j := by
  have first := placed i stored
  have second := placed j (same ▸ stored)
  rw [← same, first] at second
  exact Option.some.inj second

/-- Every walk with at least the budget resolves a stored key to its slot. -/
theorem Placed.probe_stored (placed : Placed keys empty home budget) {i : Fin n} {larger : Nat}
    (stored : keys i ≠ empty) (le : budget ≤ larger) :
    probe keys empty (keys i) larger (home (keys i)) = some i :=
  probe_mono le (placed i stored)

/-- **Insertion.** Storing a key at the slot where its walk stopped keeps every
stored key where it is found. -/
theorem Placed.insert (placed : Placed keys empty home budget) {key : κ} {slot : Fin n}
    (walk : probe keys empty key budget (home key) = some slot) :
    Placed (Function.update keys slot key) empty home budget := by
  intro i stored
  by_cases here : i = slot
  · subst here
    rw [Function.update_self]
    exact probe_update_self walk
  · rw [Function.update_of_ne here] at stored ⊢
    rcases probe_stop walk with free | holds
    · exact probe_update_of_empty (placed i stored) stored free
    · rw [← holds, Function.update_eq_self]
      exact placed i stored

/-! ## How full a table is -/

section Counting

/-- The stored keys. -/
def stored (keys : Fin n → κ) (empty : κ) : Finset κ := (Finset.univ.image keys).erase empty

omit [NeZero n] in
theorem mem_stored {x : κ} : x ∈ stored keys empty ↔ x ≠ empty ∧ ∃ i, keys i = x := by
  simp [stored]

omit [NeZero n] in
/-- Storing a key adds it to the stored keys. -/
theorem stored_insert {key : κ} {slot : Fin n} (stop : keys slot = empty ∨ keys slot = key) :
    stored (Function.update keys slot key) empty = (insert key (stored keys empty)).erase empty := by
  ext x
  rw [mem_stored, Finset.mem_erase, Finset.mem_insert, mem_stored]
  constructor
  · rintro ⟨nonempty, i, here⟩
    refine ⟨nonempty, ?_⟩
    by_cases same : i = slot
    · subst same
      rw [Function.update_self] at here
      exact .inl here.symm
    · rw [Function.update_of_ne same] at here
      exact .inr ⟨nonempty, i, here⟩
  · rintro ⟨nonempty, rfl | ⟨-, i, here⟩⟩
    · exact ⟨nonempty, slot, Function.update_self ..⟩
    · refine ⟨nonempty, ?_⟩
      by_cases same : i = slot
      · subst same
        have holds : keys i = key := stop.resolve_left fun free => nonempty (here.symm.trans free)
        exact ⟨i, by rw [Function.update_self, ← holds, here]⟩
      · exact ⟨i, by rw [Function.update_of_ne same, here]⟩

/-- The number of stored keys is the number of taken slots. -/
theorem Placed.card_stored (placed : Placed keys empty home budget) :
    (stored keys empty).card = (Finset.univ.filter fun i => keys i ≠ empty).card := by
  have image : stored keys empty = (Finset.univ.filter fun i => keys i ≠ empty).image keys := by
    ext x
    rw [mem_stored, Finset.mem_image]
    constructor
    · rintro ⟨nonempty, i, rfl⟩
      exact ⟨i, Finset.mem_filter.mpr ⟨Finset.mem_univ i, nonempty⟩, rfl⟩
    · rintro ⟨i, member, rfl⟩
      exact ⟨(Finset.mem_filter.mp member).2, i, rfl⟩
  rw [image]
  apply Finset.card_image_of_injOn
  intro i member j _ same
  exact placed.slot_unique (Finset.mem_filter.mp member).2 same

/-- **A slot is empty exactly when fewer keys are stored than there are slots.** -/
theorem Placed.exists_empty_iff (placed : Placed keys empty home budget) :
    (∃ i, keys i = empty) ↔ (stored keys empty).card < n := by
  rw [placed.card_stored]
  constructor
  · rintro ⟨i, free⟩
    have outside : i ∉ Finset.univ.filter fun i => keys i ≠ empty := by
      simp [free]
    simpa using Finset.card_lt_univ_of_notMem outside
  · intro fewer
    by_contra none
    have all : (Finset.univ.filter fun i => keys i ≠ empty) = Finset.univ := by
      rw [Finset.filter_true_of_mem]
      intro i _ free
      exact none ⟨i, free⟩
    rw [all, Finset.card_univ, Fintype.card_fin] at fewer
    exact Nat.lt_irrefl n fewer

/-- A slot is crowded by a set of keys: some arc of slots that ends there has at most as many
slots as keys of the set have their home in it. -/
def Crowded (home : κ → Fin n) (S : Finset κ) (c : Fin n) : Prop :=
  ∃ len, 0 < len ∧ len ≤ n ∧ len ≤ (S.filter fun x => (c - home x).val < len).card

omit [NeZero n] [DecidableEq κ] in
theorem Crowded.mono {S T : Finset κ} {c : Fin n} (sub : S ⊆ T) (crowded : Crowded home S c) :
    Crowded home T c := by
  obtain ⟨len, positive, le, enough⟩ := crowded
  exact ⟨len, positive, le, enough.trans (Finset.card_le_card (Finset.filter_subset_filter _ sub))⟩

/-- The distance to a slot is the distance over one on the way. -/
theorem val_sub_of_le {c f h : Fin n} (between : (c - f).val ≤ (c - h).val) :
    (f - h).val = (c - h).val - (c - f).val := by
  rw [← sub_sub_sub_cancel_left h f c, Fin.sub_val_of_le between]

/-- An arc that ends at a slot has as many slots as its length says. -/
theorem card_arc (c : Fin n) {len : Nat} (le : len ≤ n) :
    (Finset.univ.filter fun m => (c - m).val < len).card = len := by
  have image : (Finset.univ.filter fun m => (c - m).val < len) =
      (Finset.univ.filter fun d : Fin n => d.val < len).image (c - ·) := by
    ext m
    simp only [Finset.mem_filter, Finset.mem_univ, true_and, Finset.mem_image]
    constructor
    · intro inside
      exact ⟨c - m, inside, sub_sub_cancel c m⟩
    · rintro ⟨d, inside, rfl⟩
      rwa [sub_sub_cancel]
  rw [image, Finset.card_image_of_injective _ sub_right_injective]
  rw [Fin.card_filter_val_lt]
  exact Nat.min_eq_right le

/-- Before a taken slot and after a free one lie the home of the key and the way to it. -/
theorem Placed.home_after (placed : Placed keys empty home budget) {c f m : Fin n}
    (taken : keys m ≠ empty) (free : keys f = empty) (between : (c - m).val < (c - f).val) :
    (c - home (keys m)).val < (c - f).val := by
  by_contra far
  have start := val_sub_of_le (not_lt.mp far)
  have target := val_sub_of_le (between.le.trans (not_lt.mp far))
  have passed := probe_passes (m := f) (placed m taken) (by omega)
  exact passed (.inl free)

/-- A key whose home lies before a free slot is stored before it. -/
theorem Placed.stored_before (placed : Placed keys empty home budget) {c m : Fin n}
    (taken : keys m ≠ empty) (free : keys c = empty) :
    0 < (c - m).val ∧ (c - m).val ≤ (c - home (keys m)).val := by
  constructor
  · apply Nat.pos_of_ne_zero
    intro zero
    have here : c = m := sub_eq_zero.mp (Fin.val_eq_zero_iff.mp zero)
    exact taken (here ▸ free)
  · have reached : (m - home (keys m)).val ≤ (c - home (keys m)).val := by
      by_contra short
      exact probe_passes (placed m taken) (not_le.mp short) (.inl free)
    rw [← sub_sub_sub_cancel_right c m (home (keys m)), Fin.sub_val_of_le reached]
    exact Nat.sub_le _ _

/-- **The occupied slots are the crowded ones**, whatever the order in which the keys came. -/
theorem Placed.occupied_iff (placed : Placed keys empty home budget) {c : Fin n} :
    keys c ≠ empty ↔ Crowded home (stored keys empty) c := by
  constructor
  · intro occupied
    -- the arc of taken slots that ends here and starts after a free slot, if there is one
    obtain ⟨len, positive, le, taken, inside⟩ : ∃ len, 0 < len ∧ len ≤ n ∧
        (∀ m, (c - m).val < len → keys m ≠ empty) ∧
        ∀ m, (c - m).val < len → keys m ≠ empty → (c - home (keys m)).val < len := by
      by_cases some : ∃ f, keys f = empty
      · obtain ⟨f, member, least⟩ := Finset.exists_min_image
          (Finset.univ.filter fun f => keys f = empty) (fun f => (c - f).val)
          (some.imp fun f free => Finset.mem_filter.mpr ⟨Finset.mem_univ f, free⟩)
        have free : keys f = empty := (Finset.mem_filter.mp member).2
        refine ⟨(c - f).val, ?_, (c - f).isLt.le, ?_, ?_⟩
        · apply Nat.pos_of_ne_zero
          intro zero
          have here : c = f := sub_eq_zero.mp (Fin.val_eq_zero_iff.mp zero)
          exact occupied (here ▸ free)
        · intro m nearer free'
          have := least m (Finset.mem_filter.mpr ⟨Finset.mem_univ m, free'⟩)
          exact absurd nearer (not_lt.mpr this)
        · intro m nearer taken
          exact placed.home_after taken free nearer
      · refine ⟨n, Nat.pos_of_neZero n, le_rfl, fun m _ free => some ⟨m, free⟩, ?_⟩
        intro m _ _
        exact (c - home (keys m)).isLt
    refine ⟨len, positive, le, ?_⟩
    calc len = (Finset.univ.filter fun m => (c - m).val < len).card := (card_arc c le).symm
      _ ≤ _ := by
        apply Finset.card_le_card_of_injOn keys
        · intro m member
          have near : (c - m).val < len := (Finset.mem_filter.mp member).2
          have full := taken m near
          rw [Finset.mem_coe, Finset.mem_filter, mem_stored]
          exact ⟨⟨full, m, rfl⟩, inside m near full⟩
        · intro m member m' _ same
          exact placed.slot_unique (taken m (Finset.mem_filter.mp member).2) same
  · rintro ⟨len, positive, le, enough⟩ free
    -- the keys at home in the arc are stored in it, but not in its last slot
    have sub : (stored keys empty).filter (fun x => (c - home x).val < len) ⊆
        ((Finset.univ.filter fun m => (c - m).val < len).erase c).image keys := by
      intro x member
      obtain ⟨known, near⟩ := Finset.mem_filter.mp member
      obtain ⟨taken, m, rfl⟩ := mem_stored.mp known
      obtain ⟨after, before⟩ := placed.stored_before taken free
      apply Finset.mem_image_of_mem
      rw [Finset.mem_erase, Finset.mem_filter]
      refine ⟨?_, Finset.mem_univ m, before.trans_lt near⟩
      rintro rfl
      exact taken free
    have last : c ∈ Finset.univ.filter fun m => (c - m).val < len := by
      simpa using positive
    have few := (Finset.card_le_card sub).trans Finset.card_image_le
    rw [Finset.card_erase_of_mem last, card_arc c le] at few
    omega

/-- **When a walk fails**: the key is not stored, and every slot within its budget is crowded. -/
theorem Placed.probe_eq_none_iff (placed : Placed keys empty home budget) {key : κ}
    (nonempty : key ≠ empty) : probe keys empty key budget (home key) = none ↔
      key ∉ stored keys empty ∧
        ∀ slot, (slot - home key).val ≤ budget → Crowded home (stored keys empty) slot := by
  constructor
  · intro none
    constructor
    · intro known
      obtain ⟨-, i, rfl⟩ := mem_stored.mp known
      cases none.symm.trans (placed i nonempty)
    · intro slot near
      exact placed.occupied_iff.mp fun free =>
        Probing.probe_eq_none_iff.mp none slot near (.inl free)
  · rintro ⟨unknown, crowded⟩
    apply Probing.probe_eq_none_iff.mpr
    rintro slot near (free | holds)
    · exact placed.occupied_iff.mpr (crowded slot near) free
    · exact unknown (mem_stored.mpr ⟨nonempty, slot, holds⟩)

omit [DecidableEq κ] in
/-- A slot is not crowded by keys with homes of their own, none of them this slot. -/
theorem not_crowded_of_injOn {S : Finset κ} {c : Fin n} (injective : Set.InjOn home S)
    (others : ∀ x ∈ S, home x ≠ c) : ¬ Crowded home S c := by
  rintro ⟨len, positive, le, enough⟩
  have sub : (S.filter fun x => (c - home x).val < len).image home ⊆
      (Finset.univ.filter fun m => (c - m).val < len).erase c := by
    intro m member
    obtain ⟨x, filtered, rfl⟩ := Finset.mem_image.mp member
    obtain ⟨known, near⟩ := Finset.mem_filter.mp filtered
    rw [Finset.mem_erase, Finset.mem_filter]
    exact ⟨others x known, Finset.mem_univ _, near⟩
  have last : c ∈ Finset.univ.filter fun m => (c - m).val < len := by
    simpa using positive
  have few := Finset.card_le_card sub
  rw [Finset.card_erase_of_mem last, card_arc c le, Finset.card_image_of_injOn] at few
  · omega
  · exact injective.mono fun x member => (Finset.mem_filter.mp member).1

omit [NeZero n] [DecidableEq κ] in
/-- A slot is not crowded by keys that all have their homes further away than there are keys. -/
theorem not_crowded_of_far {S : Finset κ} {c : Fin n}
    (far : ∀ x ∈ S, S.card ≤ (c - home x).val) : ¬ Crowded home S c := by
  rintro ⟨len, positive, -, enough⟩
  obtain ⟨x, filtered⟩ : (S.filter fun x => (c - home x).val < len).Nonempty :=
    Finset.card_pos.mp (positive.trans_le enough)
  obtain ⟨known, near⟩ := Finset.mem_filter.mp filtered
  have few := enough.trans (Finset.card_le_card (Finset.filter_subset _ S))
  exact absurd (far x known) (not_le.mpr (near.trans_le few))

end Counting
end Probing
