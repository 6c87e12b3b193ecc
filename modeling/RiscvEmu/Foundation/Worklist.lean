import Mathlib.Logic.Relation
import Mathlib.Data.Finset.Card
import Mathlib.Data.List.Nodup
import Mathlib.Order.Bounds.Basic

/-!
# Exploration with a worklist

A worklist algorithm collects everything that can be reached from an entry. It
keeps the nodes it has visited and the nodes that are pending. It takes a
pending node, drops it when it is visited already, and otherwise visits it and
adds its successors to the pending ones.

`Explored` is the invariant. It holds at the start (`Explored.start`), survives
both kinds of round (`Explored.skip`, `Explored.visit`) in whatever order the
nodes are taken, and when nothing is pending the visited nodes are the least
set that contains the entry and is closed under successors
(`Explored.isLeast`).

`Explores` is the exploration that takes the node that became pending last. It is a
matter of the graph alone, so what it needs of bounded work structures is a property
of the graph: `PushesFit` for the pending nodes.
-/

set_option autoImplicit false

namespace Worklist

variable {α : Type*} {succs : α → List α} {entry node : α} {visited pending : List α}

/-- The nodes that a path of successors leads to. -/
abbrev Reaches (succs : α → List α) : α → α → Prop :=
  Relation.ReflTransGen fun a b => b ∈ succs a

/-- The sets that contain the entry and the successors of their elements. -/
def ClosedSets (succs : α → List α) (entry : α) : Set (Set α) :=
  {S | entry ∈ S ∧ ∀ a ∈ S, ∀ b ∈ succs a, b ∈ S}

/-- What is known while the work goes on. -/
structure Explored (succs : α → List α) (entry : α) (visited pending : List α) : Prop where
  nodup : visited.Nodup
  /-- A successor of a visited node is not forgotten. -/
  covered : ∀ a ∈ visited, ∀ b ∈ succs a, b ∈ visited ∨ b ∈ pending
  reached : ∀ a, a ∈ visited ∨ a ∈ pending → Reaches succs entry a
  /-- The entry is visited first. -/
  first : visited.head? = some entry ∨ (visited = [] ∧ pending = [entry])

theorem Explored.start : Explored succs entry [] [entry] where
  nodup := .nil
  covered := by simp
  reached := by
    intro a known
    obtain rfl : a = entry := by simpa using known
    exact .refl
  first := .inr ⟨rfl, rfl⟩

/-- Dropping a pending node that is visited. -/
theorem Explored.skip (explored : Explored succs entry visited (node :: pending))
    (seen : node ∈ visited) : Explored succs entry visited pending where
  nodup := explored.nodup
  covered := by
    intro a visitedA b successor
    rcases explored.covered a visitedA b successor with known | known
    · exact .inl known
    · rcases List.mem_cons.mp known with rfl | known
      · exact .inl seen
      · exact .inr known
  reached := fun a known =>
    explored.reached a (known.imp_right (List.mem_cons_of_mem node))
  first := by
    rcases explored.first with first | ⟨rfl, _⟩
    · exact .inl first
    · cases seen

/-- Visiting a pending node: what becomes pending are its successors. -/
theorem Explored.visit {pending' : List α}
    (explored : Explored succs entry visited (node :: pending)) (fresh : node ∉ visited)
    (pushed : ∀ b, b ∈ pending' ↔ b ∈ pending ∨ b ∈ succs node) :
    Explored succs entry (visited ++ [node]) pending' where
  nodup := by
    rw [List.nodup_append]
    refine ⟨explored.nodup, List.nodup_singleton node, ?_⟩
    intro a visitedA b same
    obtain rfl : b = node := by simpa using same
    rintro rfl
    exact fresh visitedA
  covered := by
    intro a visitedA b successor
    rw [List.mem_append, List.mem_singleton] at visitedA ⊢
    rcases visitedA with visitedA | rfl
    · rcases explored.covered a visitedA b successor with known | known
      · exact .inl (.inl known)
      · rcases List.mem_cons.mp known with rfl | known
        · exact .inl (.inr rfl)
        · exact .inr ((pushed b).mpr (.inl known))
    · exact .inr ((pushed b).mpr (.inr successor))
  reached := by
    have here : Reaches succs entry node := explored.reached node (.inr (List.mem_cons_self ..))
    intro a known
    rw [List.mem_append, List.mem_singleton, pushed] at known
    rcases known with (known | rfl) | known | successor
    · exact explored.reached a (.inl known)
    · exact here
    · exact explored.reached a (.inr (List.mem_cons_of_mem node known))
    · exact here.tail successor
  first := by
    rcases explored.first with first | ⟨rfl, pendingEntry⟩
    · left
      rw [List.head?_append, first, Option.some_or]
    · left
      rw [(List.cons.inj pendingEntry).1]
      rfl

/-- The visited nodes are reached. -/
theorem Explored.reaches (explored : Explored succs entry visited pending) {a : α}
    (visitedA : a ∈ visited) : Reaches succs entry a :=
  explored.reached a (.inl visitedA)

/-- The first visited node is the entry, once a node is visited. -/
theorem Explored.head (explored : Explored succs entry visited []) :
    visited.head? = some entry := by
  rcases explored.first with first | ⟨_, pendingEntry⟩
  · exact first
  · cases pendingEntry

/-- When nothing is pending, everything that is reached has been visited. -/
theorem Explored.mem_of_reaches (explored : Explored succs entry visited []) {a : α}
    (reaches : Reaches succs entry a) : a ∈ visited := by
  induction reaches with
  | refl => exact List.mem_of_mem_head? explored.head
  | tail _ successor ih =>
      exact (explored.covered _ ih _ successor).resolve_right List.not_mem_nil

/-- **When nothing is pending, the visited nodes are the least closed set.** -/
theorem Explored.isLeast (explored : Explored succs entry visited []) :
    IsLeast (ClosedSets succs entry) {a | a ∈ visited} := by
  refine ⟨⟨List.mem_of_mem_head? explored.head, ?_⟩, ?_⟩
  · intro a visitedA b successor
    exact (explored.covered a visitedA b successor).resolve_right (by simp)
  · intro S closed a visitedA
    have reaches : Reaches succs entry a := explored.reaches visitedA
    clear visitedA
    induction reaches with
    | refl => exact closed.1
    | tail _ successor ih => exact closed.2 _ ih _ successor

/-! ## The last node first -/

section LastFirst

variable [DecidableEq α]

/-- Adding a node to the pending ones, which hold it at most once. -/
def push (pending : List α) (node : α) : List α :=
  if node ∈ pending then pending else node :: pending

theorem mem_push {b : α} : b ∈ push pending node ↔ b ∈ pending ∨ b = node := by
  rw [push]
  split
  · next known => exact ⟨.inl, fun either => either.elim id fun same => same ▸ known⟩
  · rw [List.mem_cons, or_comm]

theorem mem_foldl_push {nodes : List α} {b : α} :
    b ∈ nodes.foldl push pending ↔ b ∈ pending ∨ b ∈ nodes := by
  induction nodes generalizing pending with
  | nil => simp
  | cons first nodes ih => rw [List.foldl_cons, ih, mem_push, List.mem_cons, or_assoc]

theorem length_push (pending : List α) (node : α) :
    (push pending node).length ≤ pending.length + 1 := by
  rw [push]
  split
  · exact Nat.le_succ _
  · exact Nat.le_refl _

theorem length_foldl_push (nodes pending : List α) :
    (nodes.foldl push pending).length ≤ pending.length + nodes.length := by
  induction nodes generalizing pending with
  | nil => exact Nat.le_refl _
  | cons first nodes ih =>
      have one := length_push pending first
      have rest := ih (push pending first)
      rw [List.foldl_cons, List.length_cons]
      omega

theorem nodup_push (nodup : pending.Nodup) : (push pending node).Nodup := by
  rw [push]
  split
  · exact nodup
  · next fresh => exact List.nodup_cons.mpr ⟨fresh, nodup⟩

theorem nodup_foldl_push {nodes : List α} (nodup : pending.Nodup) :
    (nodes.foldl push pending).Nodup := by
  induction nodes generalizing pending with
  | nil => exact nodup
  | cons first nodes ih => exact ih (nodup_push nodup)

/-- One round, on the visited and the pending nodes. -/
inductive Round (succs : α → List α) : List α × List α → List α × List α → Prop
  | skip {node : α} {visited pending : List α} (seen : node ∈ visited) :
      Round succs (visited, node :: pending) (visited, pending)
  | visit {node : α} {visited pending : List α} (fresh : node ∉ visited) :
      Round succs (visited, node :: pending) (visited ++ [node], (succs node).foldl push pending)

/-- The visited and the pending nodes at a head of the loop. -/
def Explores (succs : α → List α) (entry : α) (visited pending : List α) : Prop :=
  Relation.ReflTransGen (Round succs) ([], [entry]) (visited, pending)

theorem Explores.start : Explores succs entry [] [entry] := .refl

theorem Explores.skip (explores : Explores succs entry visited (node :: pending))
    (seen : node ∈ visited) : Explores succs entry visited pending :=
  Relation.ReflTransGen.tail explores (.skip seen)

theorem Explores.visit (explores : Explores succs entry visited (node :: pending))
    (fresh : node ∉ visited) :
    Explores succs entry (visited ++ [node]) ((succs node).foldl push pending) :=
  Relation.ReflTransGen.tail explores (.visit fresh)

/-- A property of the heads of the loop: it holds at the start, and both kinds of round keep it. -/
theorem Explores.invariant {P : List α → List α → Prop} (start : P [] [entry])
    (skip : ∀ {node visited pending}, Explores succs entry visited (node :: pending) →
      node ∈ visited → P visited (node :: pending) → P visited pending)
    (visit : ∀ {node visited pending}, Explores succs entry visited (node :: pending) →
      node ∉ visited → P visited (node :: pending) →
      P (visited ++ [node]) ((succs node).foldl push pending))
    (explores : Explores succs entry visited pending) : P visited pending := by
  suffices all : ∀ s, Relation.ReflTransGen (Round succs) ([], [entry]) s → P s.1 s.2 from
    all _ explores
  intro s steps
  induction steps with
  | refl => exact start
  | tail before round ih =>
      cases round with
      | skip seen => exact skip before seen ih
      | visit fresh => exact visit before fresh ih

/-- **Taking the last node first** is an exploration. -/
theorem Explores.explored (explores : Explores succs entry visited pending) :
    Explored succs entry visited pending :=
  explores.invariant .start (fun _ seen ih => ih.skip seen)
    fun _ fresh ih => ih.visit fresh fun _ => mem_foldl_push

theorem Explores.nodup (explores : Explores succs entry visited pending) : pending.Nodup :=
  explores.invariant (List.nodup_singleton entry) (fun _ _ ih => (List.nodup_cons.mp ih).2)
    fun _ _ ih => nodup_foldl_push (List.nodup_cons.mp ih).2

/-- Fewer than `cap` nodes are pending at each push of an exploration. -/
def PushesFit (succs : α → List α) (cap : Nat) (entry : α) : Prop :=
  ∀ visited node pending, Explores succs entry visited (node :: pending) → node ∉ visited →
    ∀ before next after, succs node = before ++ next :: after →
      (before.foldl push pending).length < cap

/-- Fewer nodes than the capacity cannot fill it. -/
theorem PushesFit.of_few {cap : Nat} (nodes : Finset α)
    (all : ∀ a, Reaches succs entry a → a ∈ nodes) (few : nodes.card < cap) :
    PushesFit succs cap entry := by
  intro visited node pending explores _ before next after split
  have reached := explores.explored.reached
  have here : Reaches succs entry node := reached node (.inr List.mem_cons_self)
  have known : ∀ x ∈ before.foldl push pending, x ∈ nodes := by
    intro x member
    rcases mem_foldl_push.mp member with old | pushed
    · exact all x (reached x (.inr (List.mem_cons_of_mem _ old)))
    · exact all x (here.tail (split ▸ List.mem_append_left _ pushed))
  have distinct : (before.foldl push pending).Nodup :=
    nodup_foldl_push (List.nodup_cons.mp explores.nodup).2
  calc (before.foldl push pending).length
      = (before.foldl push pending).toFinset.card := (List.toFinset_card_of_nodup distinct).symm
    _ ≤ nodes.card := Finset.card_le_card fun x member => known x (List.mem_toFinset.mp member)
    _ < cap := few

end LastFirst

end Worklist
