import Mathlib.Data.List.SplitBy

/-!
# Scanning

A scanner cuts a text into runs, as long as neighbours stick together, and reads each run on its
own. So it reads two texts one after the other when the end of the first does not stick to the
start of the second (`scan_append`).
-/

set_option autoImplicit false

namespace Scanning

variable {α τ : Type*} (sticks : α → α → Bool) (read : List α → Option (List τ))

/-- The tokens of a text. -/
def scan (text : List α) : Option (List τ) := ((text.splitBy sticks).mapM read).map List.flatten

/-- The end of a text does not stick to the start of another. -/
def Parted (a b : List α) : Prop := ∀ x ∈ a.getLast?, ∀ y ∈ b.head?, sticks x y = false

/-- A character that sticks to no other. -/
def Loose (x : α) : Prop := ∀ y, sticks x y = false ∧ sticks y x = false

variable {sticks read} {a b : List α} {left right : List τ}

theorem apart_of_last (loose : ∀ x ∈ a.getLast?, Loose sticks x) : Parted sticks a b := by
  intro x last y _
  exact (loose x last y).1

theorem apart_of_head (loose : ∀ y ∈ b.head?, Loose sticks y) : Parted sticks a b := by
  intro x _ y head
  exact (loose y head x).2

@[simp] theorem scan_nil : scan sticks read [] = some [] := rfl

/-- **Two texts** that stay apart are scanned one after the other. -/
theorem scan_append (apart : Parted sticks a b) (first : scan sticks read a = some left)
    (second : scan sticks read b = some right) :
    scan sticks read (a ++ b) = some (left ++ right) := by
  simp only [scan, Option.map_eq_some_iff] at first second
  obtain ⟨runsA, readsA, rfl⟩ := first
  obtain ⟨runsB, readsB, rfl⟩ := second
  rw [scan, List.splitBy_append apart, List.mapM_append, readsA, readsB]
  simp

/-- A text that sticks together is one run. -/
theorem scan_run (nonempty : a ≠ []) (chain : a.IsChain fun x y => sticks x y = true) :
    scan sticks read a = read a := by
  rw [scan, List.splitBy_of_isChain nonempty chain, List.mapM_cons]
  cases read a <;> simp

/-- Characters that stick pairwise form a run. -/
theorem isChain_of_forall (pairs : ∀ x ∈ a, ∀ y ∈ a, sticks x y = true) :
    a.IsChain fun x y => sticks x y = true := by
  apply List.Pairwise.isChain
  rw [List.pairwise_iff_forall_sublist]
  intro x y sub
  exact pairs x (sub.subset (by simp)) y (sub.subset (by simp))

/-- When all runs are read, each is. -/
theorem read_of_mapM {runs : List (List α)} {tokens : List (List τ)}
    (reads : runs.mapM read = some tokens) : ∀ run ∈ runs, ∃ ts, read run = some ts := by
  induction runs generalizing tokens with
  | nil =>
      intro run member
      exact absurd member List.not_mem_nil
  | cons first runs ih =>
      rw [List.mapM_cons] at reads
      obtain ⟨ts, here, reads⟩ := Option.bind_eq_some_iff.mp reads
      obtain ⟨rest, others, -⟩ := Option.bind_eq_some_iff.mp reads
      intro run member
      rcases List.mem_cons.mp member with rfl | later
      · exact ⟨ts, here⟩
      · exact ih others run later

/-- Every character of a text that is scanned is in a run that is read. -/
theorem mem_run_of_scan (scanned : scan sticks read a = some left) {x : α} (member : x ∈ a) :
    ∃ run ts, x ∈ run ∧ read run = some ts := by
  obtain ⟨tokens, reads, -⟩ := Option.map_eq_some_iff.mp scanned
  rw [← List.flatten_splitBy sticks a] at member
  obtain ⟨run, inRuns, inRun⟩ := List.mem_flatten.mp member
  obtain ⟨ts, found⟩ := read_of_mapM reads run inRuns
  exact ⟨run, ts, inRun, found⟩

end Scanning
