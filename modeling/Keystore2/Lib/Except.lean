/-! Inversion of a successful computation in the exception monad: a bind succeeds exactly
when its first computation does and the continuation succeeds on that value.  Proofs about
a function written as a chain of checks peel it apart with this lemma instead of unfolding
the monad. -/

namespace Except

variable {ε α β : Type _}

theorem bind_eq_ok {x : Except ε α} {f : α → Except ε β} {b : β} :
    (x >>= f) = .ok b ↔ ∃ a, x = .ok a ∧ f a = .ok b := by
  cases x <;> simp [bind, Except.bind]

theorem map_eq_ok {f : α → β} {x : Except ε α} {b : β} :
    (f <$> x) = .ok b ↔ ∃ a, x = .ok a ∧ f a = b := by
  cases x <;> simp [Functor.map, Except.map]

@[simp] theorem pure_eq_ok {a b : α} : (pure a : Except ε α) = .ok b ↔ a = b := by
  simp [pure, Except.pure]

@[simp] theorem throw_bind {e : ε} {f : α → Except ε β} : (throw e >>= f) = throw e := rfl

@[simp] theorem throw_ne_ok {e : ε} {b : β} : (throw e : Except ε β) ≠ .ok b := by
  simp [throw, throwThe, MonadExceptOf.throw]

/-- A loop of checks over a list succeeds exactly when every check does. -/
theorem forM_eq_ok {xs : List α} {g : α → Except ε PUnit} :
    forM xs g = .ok ⟨⟩ ↔ ∀ x ∈ xs, g x = .ok ⟨⟩ := by
  induction xs with
  | nil => simp [pure, Except.pure]
  | cons x xs ih =>
    simp only [List.forM_cons, bind_eq_ok, ih, List.mem_cons, forall_eq_or_imp]
    constructor
    · rintro ⟨⟨⟩, hx, hs⟩
      exact ⟨hx, hs⟩
    · rintro ⟨hx, hs⟩
      exact ⟨_, hx, hs⟩

/-- A pass over a list ends in an error only at an element whose step does. -/
theorem mapM_eq_error {xs : List α} {f : α → Except ε β} {e : ε} (h : xs.mapM f = .error e) :
    ∃ x ∈ xs, f x = .error e := by
  induction xs with
  | nil => simp [pure, Except.pure] at h
  | cons x xs ih =>
    simp only [List.mapM_cons] at h
    cases hx : f x with
    | error e' =>
      rw [hx] at h
      have he : e' = e := by simpa [bind, Except.bind] using h
      exact ⟨x, List.mem_cons_self, he ▸ hx⟩
    | ok b =>
      rw [hx] at h
      cases hxs : xs.mapM f with
      | error e' =>
        rw [hxs] at h
        have he : e' = e := by simpa [bind, Except.bind] using h
        obtain ⟨y, hy, hfy⟩ := ih (he ▸ hxs)
        exact ⟨y, List.mem_cons_of_mem x hy, hfy⟩
      | ok bs => simp [hxs, bind, Except.bind, pure, Except.pure] at h

/-- A pass over a list that succeeds returns one result for each element. -/
theorem length_of_mapM_eq_ok {xs : List α} {f : α → Except ε β} {ys : List β}
    (h : xs.mapM f = .ok ys) : ys.length = xs.length := by
  induction xs generalizing ys with
  | nil =>
    have hys : [] = ys := by simpa [pure, Except.pure] using h
    rw [← hys]
    rfl
  | cons x xs ih =>
    simp only [List.mapM_cons, bind_eq_ok, pure_eq_ok] at h
    obtain ⟨b, -, bs, hbs, rfl⟩ := h
    simp [ih hbs]

end Except

/-! The exception monad over `Option`, whose `none` is a panic: a bind runs its continuation
exactly on the value of a successful first computation. -/

namespace ExceptT

variable {ε α β : Type _}

theorem run_bind_option (x : ExceptT ε Option α) (f : α → ExceptT ε Option β) :
    (x >>= f).run = x.run.bind fun
      | .ok a => (f a).run
      | .error e => some (.error e) :=
  rfl

theorem bind_of_run_eq_ok {x : ExceptT ε Option α} {a : α} (hx : x.run = some (.ok a))
    (f : α → ExceptT ε Option β) : x >>= f = f a := by
  show ExceptT.mk (Option.bind x.run _) = _
  rw [hx]
  rfl

/-- A bind depends on its continuation only at the value of a successful first
computation. -/
theorem bind_congr_of_ok {x : ExceptT ε Option α} {f g : α → ExceptT ε Option β}
    (h : ∀ a, x.run = some (.ok a) → f a = g a) : x >>= f = x >>= g := by
  rcases hx : x.run with _ | _ | a
  · show ExceptT.mk (Option.bind x.run _) = ExceptT.mk (Option.bind x.run _)
    rw [hx]
    rfl
  · show ExceptT.mk (Option.bind x.run _) = ExceptT.mk (Option.bind x.run _)
    rw [hx]
    rfl
  · rw [bind_of_run_eq_ok hx, bind_of_run_eq_ok hx, h a hx]

theorem run_bind_eq_ok {x : ExceptT ε Option α} {f : α → ExceptT ε Option β} {b : β} :
    (x >>= f).run = some (.ok b) ↔ ∃ a, x.run = some (.ok a) ∧ (f a).run = some (.ok b) := by
  rw [run_bind_option]
  rcases x.run with _ | e | a <;> simp

end ExceptT
