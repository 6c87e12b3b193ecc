import Mathlib.Logic.Relation

/-!
# Loops that continue, leave or abort

A loop is given by its body: from a state the body either aborts, or passes a
state to the next round, or leaves the loop with a result. Three readings of
the same loop are provided and connected.

* `run` executes a loop for a number of rounds; it is the reading that a
  concrete input can be evaluated on.
* `Returns` and `Aborts` say that the loop ends, without a bound on the rounds.
  A number of rounds that suffices finds the outcome (`run_of_returns`, `run_of_aborts`).
* `Steps` is the relation between the states at the head of the loop. A loop
  returns exactly when some reachable state leaves it
  (`returns_iff_steps_leave`). `Rounds` is the same with the rounds counted.

`Lockstep` relates two loops round by round, and with the rounds their outcomes;
`run_sideBySide` is for two loops that die alike as well.

The body is a function, so a loop has at most one outcome
(`Returns.unique`), and two states reached from one state are reached one from
the other (`Steps.total`).
-/

set_option autoImplicit false

namespace Iteration

variable {σ ρ ε : Type*} {step : σ → Except ε (σ ⊕ ρ)}

/-! ## The three readings -/

/-- Execute at most `rounds` rounds; `none` when they do not suffice. -/
def run (step : σ → Except ε (σ ⊕ ρ)) : Nat → σ → Option (Except ε ρ)
  | 0, _ => none
  | rounds + 1, s =>
      match step s with
      | .error e => some (.error e)
      | .ok (.inl s') => run step rounds s'
      | .ok (.inr r) => some (.ok r)

/-- The loop entered at a state is left with a result. -/
inductive Returns (step : σ → Except ε (σ ⊕ ρ)) : σ → ρ → Prop where
  | leave {s : σ} {r : ρ} : step s = .ok (.inr r) → Returns step s r
  | again {s s' : σ} {r : ρ} : step s = .ok (.inl s') → Returns step s' r → Returns step s r

/-- The loop entered at a state aborts. -/
inductive Aborts (step : σ → Except ε (σ ⊕ ρ)) : σ → ε → Prop where
  | here {s : σ} {e : ε} : step s = .error e → Aborts step s e
  | again {s s' : σ} {e : ε} : step s = .ok (.inl s') → Aborts step s' e → Aborts step s e

/-- One round that continues. -/
abbrev Next (step : σ → Except ε (σ ⊕ ρ)) (s s' : σ) : Prop := step s = .ok (.inl s')

/-- Zero or more rounds that continue. -/
abbrev Steps (step : σ → Except ε (σ ⊕ ρ)) : σ → σ → Prop := Relation.ReflTransGen (Next step)

/-- A number of rounds that continue. -/
inductive Rounds (step : σ → Except ε (σ ⊕ ρ)) : Nat → σ → σ → Prop where
  | none {s : σ} : Rounds step 0 s s
  | more {n : Nat} {s s' s'' : σ} : Rounds step n s s' → step s' = .ok (.inl s'') →
      Rounds step (n + 1) s s''

/-! ## Rounds and outcomes -/

theorem returns_of_run {rounds : Nat} {s : σ} {r : ρ}
    (done : run step rounds s = some (.ok r)) : Returns step s r := by
  induction rounds generalizing s with
  | zero => cases done
  | succ rounds ih =>
      simp only [run] at done
      split at done
      · cases done
      · next s' continues => exact .again continues (ih done)
      · next r' leaves =>
          cases done
          exact .leave leaves

theorem aborts_of_run {rounds : Nat} {s : σ} {e : ε}
    (done : run step rounds s = some (.error e)) : Aborts step s e := by
  induction rounds generalizing s with
  | zero => cases done
  | succ rounds ih =>
      simp only [run] at done
      split at done
      · next e' aborts =>
          cases done
          exact .here aborts
      · next s' continues => exact .again continues (ih done)
      · cases done

/-! ## One outcome -/

theorem Returns.unique {s : σ} {r r' : ρ} (first : Returns step s r)
    (second : Returns step s r') : r = r' := by
  induction first with
  | leave leaves =>
      cases second with
      | leave leaves' => simpa [leaves] using leaves'
      | again continues _ => simp [leaves] at continues
  | again continues _ ih =>
      cases second with
      | leave leaves => simp [continues] at leaves
      | again continues' second =>
          rw [continues] at continues'
          cases continues'
          exact ih second

theorem Aborts.unique {s : σ} {e e' : ε} (first : Aborts step s e)
    (second : Aborts step s e') : e = e' := by
  induction first with
  | here aborts =>
      cases second with
      | here aborts' => simpa [aborts] using aborts'
      | again continues _ => simp [aborts] at continues
  | again continues _ ih =>
      cases second with
      | here aborts => simp [continues] at aborts
      | again continues' second =>
          rw [continues] at continues'
          cases continues'
          exact ih second

theorem Returns.not_aborts {s : σ} {r : ρ} {e : ε} (returns : Returns step s r)
    (aborts : Aborts step s e) : False := by
  induction returns with
  | leave leaves =>
      cases aborts with
      | here aborts => simp [leaves] at aborts
      | again continues _ => simp [leaves] at continues
  | again continues _ ih =>
      cases aborts with
      | here aborts => simp [continues] at aborts
      | again continues' aborts =>
          rw [continues] at continues'
          cases continues'
          exact ih aborts

/-- A round that changes nothing is repeated for ever. -/
theorem not_returns_of_stuck {s : σ} {r : ρ} (stuck : step s = .ok (.inl s)) :
    ¬ Returns step s r := by
  intro returns
  induction returns with
  | leave leaves => simp [leaves] at stuck
  | again continues _ ih =>
      rw [stuck] at continues
      cases continues
      exact ih stuck

/-- Any number of rounds that suffices finds the result. -/
theorem run_of_returns {rounds : Nat} {s : σ} {r : ρ} (enough : run step rounds s ≠ none)
    (returns : Returns step s r) : run step rounds s = some (.ok r) := by
  match found : run step rounds s with
  | none => exact absurd found enough
  | some (.ok r') => rw [(returns_of_run found).unique returns]
  | some (.error e) => exact (returns.not_aborts (aborts_of_run found)).elim

/-- Any number of rounds that suffices finds the abort. -/
theorem run_of_aborts {rounds : Nat} {s : σ} {e : ε} (enough : run step rounds s ≠ none)
    (aborts : Aborts step s e) : run step rounds s = some (.error e) := by
  match found : run step rounds s with
  | none => exact absurd found enough
  | some (.ok r) => exact ((returns_of_run found).not_aborts aborts).elim
  | some (.error e') => rw [(aborts_of_run found).unique aborts]

/-- Two states reached from one state are on one path. -/
theorem Steps.total {s first second : σ} (left : Steps step s first)
    (right : Steps step s second) : Steps step first second ∨ Steps step second first :=
  Relation.ReflTransGen.total_of_right_unique
    (fun _ _ _ h h' => by rw [Next, h] at h'; simpa using h') left right

/-! ## Reachable states and outcomes -/

theorem Returns.of_steps {s s' : σ} {r : ρ} (steps : Steps step s s')
    (returns : Returns step s' r) : Returns step s r := by
  induction steps using Relation.ReflTransGen.head_induction_on with
  | refl => exact returns
  | head continues _ ih => exact .again continues ih

theorem Aborts.of_steps {s s' : σ} {e : ε} (steps : Steps step s s')
    (aborts : Aborts step s' e) : Aborts step s e := by
  induction steps using Relation.ReflTransGen.head_induction_on with
  | refl => exact aborts
  | head continues _ ih => exact .again continues ih

/-- The outcome is the outcome from any state on the way. -/
theorem Returns.at_steps {s s' : σ} {r : ρ} (steps : Steps step s s')
    (returns : Returns step s r) : Returns step s' r := by
  induction steps using Relation.ReflTransGen.head_induction_on with
  | refl => exact returns
  | head continues _ ih =>
      apply ih
      cases returns with
      | leave leaves => simp [Next, leaves] at continues
      | again continues' returns =>
          rw [Next, continues'] at continues
          cases continues
          exact returns

/-- **A loop returns exactly when a reachable state leaves it.** -/
theorem returns_iff_steps_leave {s : σ} {r : ρ} :
    Returns step s r ↔ ∃ s', Steps step s s' ∧ step s' = .ok (.inr r) := by
  constructor
  · intro returns
    induction returns with
    | leave leaves => exact ⟨_, .refl, leaves⟩
    | again continues _ ih =>
        obtain ⟨s', steps, leaves⟩ := ih
        exact ⟨s', .head continues steps, leaves⟩
  · rintro ⟨s', steps, leaves⟩
    exact .of_steps steps (.leave leaves)

/-- A loop aborts exactly when a reachable state does. -/
theorem aborts_iff_steps_die {s : σ} {e : ε} :
    Aborts step s e ↔ ∃ s', Steps step s s' ∧ step s' = .error e := by
  constructor
  · intro aborts
    induction aborts with
    | here dies => exact ⟨_, .refl, dies⟩
    | again continues _ ih =>
        obtain ⟨s', steps, dies⟩ := ih
        exact ⟨s', .head continues steps, dies⟩
  · rintro ⟨s', steps, dies⟩
    exact .of_steps steps (.here dies)

/-- **Invariant rule.** What holds at entry and survives a round holds at every
state reached. -/
theorem Steps.invariant (Inv : σ → Prop) {s s' : σ}
    (preserved : ∀ a b, Inv a → step a = .ok (.inl b) → Inv b)
    (steps : Steps step s s') (entry : Inv s) : Inv s' := by
  induction steps with
  | refl => exact entry
  | tail _ continues ih => exact preserved _ _ ih continues

/-- On the way from one state to another there is a round that continues from this one. -/
def Passes (step : σ → Except ε (σ ⊕ ρ)) (s s' a : σ) : Prop :=
  Steps step s a ∧ ∃ b, step a = .ok (.inl b) ∧ Steps step b s'

/-- **Invariant rule**, when only the rounds on the way are known to preserve it. -/
theorem Steps.invariant_along (Inv : σ → Prop) {s s' : σ}
    (steps : Steps step s s')
    (preserved : ∀ a b, Passes step s s' a → Inv a → step a = .ok (.inl b) → Inv b)
    (entry : Inv s) : Inv s' := by
  induction steps with
  | refl => exact entry
  | @tail b c before continues ih =>
      have earlier : Inv b := by
        refine ih fun a a' passes => preserved a a' ?_
        obtain ⟨reached, a₁, round, rest⟩ := passes
        exact ⟨reached, a₁, round, rest.tail continues⟩
      exact preserved b c ⟨before, c, continues, .refl⟩ earlier continues

/-- The states reached from a state whose round is known to continue. -/
theorem Steps.next_cases {s s' s'' : σ} (steps : Steps step s s'') (next : step s = .ok (.inl s')) :
    s = s'' ∨ Steps step s' s'' := by
  rcases Relation.ReflTransGen.cases_head steps with same | ⟨b, continues, rest⟩
  · exact .inl same
  · rw [Next, next] at continues
    cases continues
    exact .inr rest

/-- A state whose round does not continue reaches itself only. -/
theorem Steps.eq_of_stops {s s' : σ} (steps : Steps step s s')
    (stops : ∀ b, step s ≠ .ok (.inl b)) : s = s' := by
  cases steps using Relation.ReflTransGen.head_induction_on with
  | refl => rfl
  | head continues _ => exact absurd continues (stops _)

/-- A loop is left from one state only. -/
theorem leaves_unique {s first second : σ} {r r' : ρ} (left : Steps step s first)
    (leavesFirst : step first = .ok (.inr r)) (right : Steps step s second)
    (leavesSecond : step second = .ok (.inr r')) : first = second := by
  rcases left.total right with forward | backward
  · exact forward.eq_of_stops (by simp [leavesFirst])
  · exact (backward.eq_of_stops (by simp [leavesSecond])).symm

/-- A loop whose states are the images of those of another returns what the other returns. -/
theorem returns_image {τ : Type*} {step' : τ → Except ε (τ ⊕ ρ)} (image : σ → τ)
    (same : ∀ s, step' (image s) = (step s).map (Sum.map image id)) {s : σ} {r : ρ} :
    Returns step' (image s) r ↔ Returns step s r := by
  constructor
  · intro returns
    generalize start : image s = t at returns
    induction returns generalizing s with
    | leave leaves =>
        rw [← start, same] at leaves
        match round : step s with
        | .error _ | .ok (.inl _) =>
            rw [round] at leaves
            cases leaves
        | .ok (.inr _) =>
            rw [round] at leaves
            cases leaves
            exact .leave round
    | again continues _ ih =>
        rw [← start, same] at continues
        match round : step s with
        | .error _ | .ok (.inr _) =>
            rw [round] at continues
            cases continues
        | .ok (.inl _) =>
            rw [round] at continues
            cases continues
            exact .again round (ih rfl)
  · intro returns
    induction returns with
    | leave leaves => exact .leave (by rw [same, leaves]; rfl)
    | again continues _ ih => exact .again (by rw [same, continues]; rfl) ih

/-- A measure that every continuing round decreases bounds the rounds. -/
theorem run_ne_none_of_measure {Inv : σ → Prop} (measure : σ → Nat)
    (decreases : ∀ a b, Inv a → step a = .ok (.inl b) → Inv b ∧ measure b < measure a)
    {s : σ} (entry : Inv s) {rounds : Nat} (enough : measure s < rounds) :
    run step rounds s ≠ none := by
  induction rounds generalizing s with
  | zero => omega
  | succ rounds ih =>
      simp only [run]
      split
      · simp
      · next s' continues =>
          obtain ⟨inv, smaller⟩ := decreases _ _ entry continues
          exact ih inv (by omega)
      · simp

/-! ## Lockstep -/

section Lockstep

variable {τ κ : Type*} {first : σ → Except ε (σ ⊕ ρ)} {second : τ → Except ε (τ ⊕ κ)}
  {Related : σ → τ → Prop} {Results : ρ → κ → Prop}

/-- Two loops in lockstep: from related states a round of the second is matched by
the first. -/
structure Lockstep (first : σ → Except ε (σ ⊕ ρ)) (second : τ → Except ε (τ ⊕ κ))
    (Related : σ → τ → Prop) (Results : ρ → κ → Prop) : Prop where
  next : ∀ {a b b'}, Related a b → second b = .ok (.inl b') →
    ∃ a', first a = .ok (.inl a') ∧ Related a' b'
  leave : ∀ {a b k}, Related a b → second b = .ok (.inr k) →
    ∃ r, Returns first a r ∧ Results r k

namespace Lockstep

/-- **The first loop returns when the second does.** -/
theorem returns (lock : Lockstep first second Related Results) {a : σ} {b : τ} {k : κ}
    (related : Related a b) (ends : Returns second b k) :
    ∃ r, Returns first a r ∧ Results r k := by
  induction ends generalizing a with
  | leave leaves => exact lock.leave related leaves
  | again continues _ ih =>
      obtain ⟨a', matched, related'⟩ := lock.next related continues
      obtain ⟨r, ends, results⟩ := ih related'
      exact ⟨r, .again matched ends, results⟩

/-- **The second loop returns when the first does**, if it aborts only where the first
aborts. -/
theorem returned (lock : Lockstep first second Related Results)
    (die : ∀ {a b e}, Related a b → second b = .error e → ∃ e', Aborts first a e')
    {a : σ} {b : τ} {r : ρ} (related : Related a b) (ends : Returns first a r) :
    ∃ k, Returns second b k ∧ Results r k := by
  have nextOrLeave : ∀ {a b r}, Related a b → Returns first a r →
      (∃ b', second b = .ok (.inl b')) ∨ ∃ k, Returns second b k ∧ Results r k := by
    intro a b r related ends
    match round : second b with
    | .error e =>
        obtain ⟨e', aborts⟩ := die related round
        exact (ends.not_aborts aborts).elim
    | .ok (.inl b') => exact .inl ⟨b', rfl⟩
    | .ok (.inr k) =>
        obtain ⟨r', ends', results⟩ := lock.leave related round
        exact .inr ⟨k, .leave round, ends.unique ends' ▸ results⟩
  induction ends generalizing b with
  | leave leaves =>
      rcases nextOrLeave related (.leave leaves) with ⟨b', round⟩ | ended
      · obtain ⟨a', matched, _⟩ := lock.next related round
        cases leaves.symm.trans matched
      · exact ended
  | again continues ends ih =>
      rcases nextOrLeave related (.again continues ends) with ⟨b', round⟩ | ended
      · obtain ⟨a', matched, related'⟩ := lock.next related round
        cases continues.symm.trans matched
        obtain ⟨k, ends', results⟩ := ih related'
        exact ⟨k, .again round ends', results⟩
      · exact ended

end Lockstep

end Lockstep

/-! ## Side by side -/

section SideBySide

universe u

variable {α β γ δ : Type u} {R : α → β → Prop} {S : γ → δ → Prop}

/-- Two results that do the same: both die with one error, or both end with related values. -/
inductive Same (R : α → β → Prop) : Except ε α → Except ε β → Prop where
  | dies (e : ε) : Same R (.error e) (.error e)
  | ends {a : α} {b : β} : R a b → Same R (.ok a) (.ok b)

theorem Same.refl (x : Except ε α) : Same (· = ·) x x := by
  cases x with
  | error e => exact .dies e
  | ok a => exact .ends rfl

/-- What is done next is the same when it is for related values. -/
theorem Same.bind {x : Except ε α} {y : Except ε β} {next : α → Except ε γ}
    {next' : β → Except ε δ} (same : Same R x y)
    (nexts : ∀ a b, R a b → Same S (next a) (next' b)) : Same S (x >>= next) (y >>= next') := by
  cases same with
  | dies e => exact .dies e
  | ends related => exact nexts _ _ related

/-- What only the second does first. -/
theorem Same.after {x : Except ε γ} {y : Except ε β} {next : β → Except ε δ} {b : β}
    (done : y = .ok b) (same : Same S x (next b)) : Same S x (y >>= next) := by
  rw [done]
  exact same

/-- **Two loops side by side** whose rounds do the same. -/
theorem run_sideBySide {first : α → Except ε (α ⊕ γ)} {second : β → Except ε (β ⊕ δ)}
    (round : ∀ a b, R a b → Same (Sum.LiftRel R S) (first a) (second b)) (rounds : Nat)
    {a : α} {b : β} (related : R a b) :
    Option.Rel (Same S) (run first rounds a) (run second rounds b) := by
  induction rounds generalizing a b with
  | zero => exact .none
  | succ rounds ih =>
      have same := round a b related
      rw [run, run]
      generalize first a = x at same
      generalize second b = y at same
      cases same with
      | dies e => exact .some (.dies e)
      | ends related =>
          cases related with
          | inl related => exact ih related
          | inr results => exact .some (.ends results)

/-- A state of the second loop has its counterpart in the first. -/
theorem Steps.sideBySide {first : α → Except ε (α ⊕ γ)} {second : β → Except ε (β ⊕ δ)}
    (round : ∀ a b, R a b → Same (Sum.LiftRel R S) (first a) (second b)) {a : α} {b b' : β}
    (steps : Steps second b b') (related : R a b) : ∃ a', Steps first a a' ∧ R a' b' := by
  induction steps with
  | refl => exact ⟨a, .refl, related⟩
  | @tail c c' _ continues ih =>
      obtain ⟨a', steps, related⟩ := ih
      have same := round a' c related
      rw [Next] at continues
      rw [continues] at same
      generalize here : first a' = x at same
      cases same with
      | ends related =>
          cases related with
          | inl related => exact ⟨_, steps.tail here, related⟩

end SideBySide

end Iteration
