import RiscvEmu.Foundation.Iteration

/-!
# Loops that stutter behind another loop

A concrete loop follows an abstract one when every round of it is matched by some rounds of
the abstract loop. A round that is matched by none has to decrease a rank, so the concrete
loop cannot stay where it is for ever.

* `Stuttering.returned`: when the concrete loop returns, so does the abstract one.
* `Stuttering.ends`: when the abstract loop returns, the concrete one returns or aborts.
-/

set_option autoImplicit false

namespace Iteration

variable {σ τ ρ κ ε : Type*} {first : σ → Except ε (σ ⊕ ρ)} {second : τ → Except ε (τ ⊕ κ)}
  {Related : σ → τ → Prop} {Results : ρ → κ → Prop} {rank : σ → Nat}

/-- The rounds that match a round of the concrete loop from `a` to `a'`: at least one, or none
and the rank decreases. -/
inductive Matched (second : τ → Except ε (τ ⊕ κ)) (rank : σ → Nat) (a a' : σ) : τ → τ → Prop where
  | moved {b b' : τ} (steps : Relation.TransGen (Next second) b b') : Matched second rank a a' b b'
  | stayed {b : τ} (smaller : rank a' < rank a) : Matched second rank a a' b b

/-- The first loop follows the second. -/
structure Stuttering (first : σ → Except ε (σ ⊕ ρ)) (second : τ → Except ε (τ ⊕ κ))
    (Related : σ → τ → Prop) (Results : ρ → κ → Prop) (rank : σ → Nat) : Prop where
  next : ∀ {a a' b}, Related a b → first a = .ok (.inl a') →
    ∃ b', Matched second rank a a' b b' ∧ Related a' b'
  leave : ∀ {a b r}, Related a b → first a = .ok (.inr r) → ∃ k, Returns second b k ∧ Results r k

theorem Matched.steps {a a' : σ} {b b' : τ} (matched : Matched second rank a a' b b') :
    Steps second b b' := by
  cases matched with
  | moved steps => exact steps.to_reflTransGen
  | stayed => exact .refl

/-- A loop that returns has no infinite path. -/
theorem Returns.acc {step : τ → Except ε (τ ⊕ κ)} {b : τ} {k : κ} (returns : Returns step b k) :
    Acc (fun b' b => Next step b b') b := by
  induction returns with
  | leave leaves =>
      refine Acc.intro _ fun b' next => ?_
      rw [Next, leaves] at next
      simp at next
  | again continues _ ih =>
      refine Acc.intro _ fun b' next => ?_
      rw [Next, continues] at next
      cases next
      exact ih

namespace Stuttering

/-- **A path** of the concrete loop is matched by one of the abstract loop. -/
theorem steps (follows : Stuttering first second Related Results rank) {a a' : σ} {b : τ}
    (related : Related a b) (path : Steps first a a') :
    ∃ b', Steps second b b' ∧ Related a' b' := by
  induction path with
  | refl => exact ⟨b, .refl, related⟩
  | tail _ round ih =>
      obtain ⟨b₁, before, related₁⟩ := ih
      obtain ⟨b', matched, related'⟩ := follows.next related₁ round
      exact ⟨b', before.trans matched.steps, related'⟩

/-- **The abstract loop returns when the concrete one does.** -/
theorem returned (follows : Stuttering first second Related Results rank) {a : σ} {b : τ} {r : ρ}
    (related : Related a b) (returns : Returns first a r) :
    ∃ k, Returns second b k ∧ Results r k := by
  induction returns generalizing b with
  | leave leaves => exact follows.leave related leaves
  | again continues _ ih =>
      obtain ⟨b', matched, related'⟩ := follows.next related continues
      obtain ⟨k, returns, results⟩ := ih related'
      exact ⟨k, .of_steps matched.steps returns, results⟩

/-- **The concrete loop ends when the abstract one returns.** -/
theorem ends (follows : Stuttering first second Related Results rank) {a : σ} {b : τ} {k : κ}
    (related : Related a b) (returns : Returns second b k) :
    (∃ r, Returns first a r ∧ Results r k) ∨ ∃ e, Aborts first a e := by
  -- the rounds that are left of the abstract loop, and with the same number of them the rank
  have acc : Acc (fun b' b => Relation.TransGen (Next second) b b') b := by
    have closed := returns.acc.transGen
    refine Subrelation.accessible ?_ closed
    intro b' b path
    exact Relation.transGen_swap.mpr path
  induction acc generalizing a with
  | intro b _ left =>
      induction level : rank a using Nat.strongRecOn generalizing a with
      | ind level lower =>
          cases round : first a with
          | error e => exact .inr ⟨e, .here round⟩
          | ok out =>
              cases out with
              | inr r =>
                  obtain ⟨k', returns', results⟩ := follows.leave related round
                  exact .inl ⟨r, .leave round, returns'.unique returns ▸ results⟩
              | inl a' =>
                  have later : (∃ r, Returns first a' r ∧ Results r k) ∨ ∃ e, Aborts first a' e := by
                    obtain ⟨b', matched, related'⟩ := follows.next related round
                    cases matched with
                    | moved path =>
                        exact left b' path related' (returns.at_steps path.to_reflTransGen)
                    | stayed smaller => exact lower _ (level ▸ smaller) related' rfl
                  rcases later with ⟨r, ends, results⟩ | ⟨e, aborts⟩
                  · exact .inl ⟨r, .again round ends, results⟩
                  · exact .inr ⟨e, .again round aborts⟩

end Stuttering

end Iteration
