/-! Transition systems given by a partial step function: the states reachable from an initial
one, the invariant rule over them, and the variant rule for one process that keeps taking its
own steps.  A step function returns `none` where the transition is not enabled. -/

namespace Keystore2.Lib

variable {S A : Type}

/-- The states that some sequence of enabled steps leads to from `init`. -/
inductive Reachable (init : S) (step : S → A → Option S) : S → Prop
  | init : Reachable init step init
  | step {s s' : S} (a : A) : Reachable init step s → step s a = some s' → Reachable init step s'

/-- The invariant rule: what holds initially and is kept by every enabled step holds of every
reachable state. -/
theorem Reachable.invariant {init : S} {step : S → A → Option S} {inv : S → Prop}
    (hinit : inv init) (hstep : ∀ s a s', inv s → step s a = some s' → inv s') {s : S}
    (h : Reachable init step s) : inv s := by
  induction h with
  | init => exact hinit
  | step a _ ha ih => exact hstep _ a _ ih ha

/-- Take up to `n` steps of `f`, stopping where no step is enabled. -/
def iterateSome (f : S → Option S) : Nat → S → S
  | 0, s => s
  | n + 1, s =>
    match f s with
    | some s' => iterateSome f n s'
    | none => s

section Variant

variable {f : S → Option S} {inv goal : S → Prop}

theorem iterateSome_invariant (hinv : ∀ s s', inv s → f s = some s' → inv s') :
    ∀ n s, inv s → inv (iterateSome f n s)
  | 0, _, hs => hs
  | n + 1, s, hs => by
    simp only [iterateSome]
    split
    · exact iterateSome_invariant hinv n _ (hinv s _ hs ‹_›)
    · exact hs

/-- Once at a goal that every step keeps, the iteration stays at goals. -/
theorem iterateSome_goal_of_goal (hinv : ∀ s s', inv s → f s = some s' → inv s')
    (hstay : ∀ s s', inv s → goal s → f s = some s' → goal s') :
    ∀ n s, inv s → goal s → goal (iterateSome f n s)
  | 0, _, _, hg => hg
  | n + 1, s, hs, hg => by
    simp only [iterateSome]
    split
    · exact iterateSome_goal_of_goal hinv hstay n _ (hinv s _ hs ‹_›) (hstay s _ hs hg ‹_›)
    · exact hg

/-- The variant rule: if every state short of the goal has a step that lowers the measure `μ`,
then `μ s` steps from `s` reach the goal. -/
theorem iterateSome_goal (μ : S → Nat) (hinv : ∀ s s', inv s → f s = some s' → inv s')
    (hstay : ∀ s s', inv s → goal s → f s = some s' → goal s')
    (hprogress : ∀ s, inv s → ¬goal s → ∃ s', f s = some s' ∧ μ s' < μ s) :
    ∀ n s, inv s → μ s ≤ n → goal (iterateSome f n s) := by
  intro n
  induction n with
  | zero =>
    intro s hs hμ
    by_cases hg : goal s
    · exact hg
    · obtain ⟨s', -, hlt⟩ := hprogress s hs hg
      omega
  | succ n ih =>
    intro s hs hμ
    by_cases hg : goal s
    · exact iterateSome_goal_of_goal hinv hstay (n + 1) s hs hg
    · obtain ⟨s', hs', hlt⟩ := hprogress s hs hg
      simp only [iterateSome, hs']
      exact ih s' (hinv s s' hs hs') (by omega)

end Variant

end Keystore2.Lib
