import Mathlib

/-! One pass of a validator over a list: each element is checked on its own and, when it
passes, recorded in an accumulator; the first element that fails stops the pass with its
error.  The pass succeeds exactly when every element passes, and its result is then the pure
fold of the recording step.  What such a pass records is of three shapes, each a fold with a
closed form: a flag (was an element of some kind seen), a last value (the value of the last
element of some kind) and a collection (the values of all elements of some kind).  A pass may
also keep the best value seen, which a later element replaces only by one of strictly higher
rank: the result is the value of the first element of the highest rank, if that rank beats the
initial value. -/

namespace Scan

variable {α β ε σ : Type*}

/-- A pass whose every successful step checks its element and records it by `update`
succeeds only on a list of checked elements, with the fold of `update` as its result. -/
theorem foldlM_eq_ok {f : σ → α → Except ε σ} {P : α → Prop} {update : σ → α → σ}
    (hf : ∀ s x t, f s x = .ok t → P x ∧ t = update s x) (l : List α) (s r : σ)
    (h : l.foldlM f s = .ok r) : (∀ x ∈ l, P x) ∧ l.foldl update s = r := by
  induction l generalizing s with
  | nil => simpa [pure, Except.pure] using h
  | cons x l ih =>
    simp only [List.foldlM_cons] at h
    cases hx : f s x with
    | error e => simp [hx, bind, Except.bind] at h
    | ok t =>
      obtain ⟨hP, rfl⟩ := hf s x t hx
      have hrest := ih (update s x) (by simpa [hx, bind, Except.bind] using h)
      simpa [hP] using hrest

section Record

variable (l : List α)

theorem foldl_or (p : α → Bool) (b : Bool) :
    l.foldl (fun b x => b || p x) b = (b || l.any p) := by
  induction l generalizing b with
  | nil => simp
  | cons x l ih => simp [ih, Bool.or_assoc]

theorem foldl_ite (p : α → Prop) [DecidablePred p] (c : β) (o : β) :
    l.foldl (fun o x => if p x then c else o) o = if l.any (fun x => decide (p x)) then c else o := by
  induction l generalizing o with
  | nil => simp
  | cons x l ih => by_cases hx : p x <;> simp [ih, hx]

theorem foldl_getD (f : α → Option β) (b : β) :
    l.foldl (fun b x => (f x).getD b) b = ((l.filterMap f).getLast?).getD b := by
  induction l generalizing b with
  | nil => rfl
  | cons x l ih =>
    cases hx : f x with
    | none => simp [ih, hx]
    | some a =>
      rw [List.foldl_cons, ih, List.filterMap_cons_some hx, hx, Option.getD_some]
      cases h : (l.filterMap f).getLast? with
      | none => simp [List.getLast?_eq_none_iff.mp h]
      | some c => simp [List.getLast?_cons, h]

theorem foldl_or_option (f : α → Option β) (o : Option β) :
    l.foldl (fun o x => (f x).or o) o = ((l.filterMap f).getLast?).or o := by
  induction l generalizing o with
  | nil => rfl
  | cons x l ih =>
    cases hx : f x with
    | none => simp [ih, hx]
    | some a =>
      rw [List.foldl_cons, ih, List.filterMap_cons_some hx, hx, Option.some_or]
      cases h : (l.filterMap f).getLast? with
      | none => simp [List.getLast?_eq_none_iff.mp h]
      | some c => simp [List.getLast?_cons, h]

theorem foldl_append (f : α → Option β) (v : List β) :
    l.foldl (fun v x => v ++ (f x).toList) v = v ++ l.filterMap f := by
  induction l generalizing v with
  | nil => simp
  | cons x l ih => cases hx : f x <;> simp [ih, hx]

end Record

section Best

variable {γ : Type*} [LinearOrder γ] (rank : β → γ) (f : α → β) (l : List α)

/-- The step of a pass that keeps the best value seen: the value of the next element replaces
the kept one only when its rank is strictly higher. -/
def keepBest (r : β) (x : α) : β := if rank r < rank (f x) then f x else r

/-- The kept value ranks at least as high as the initial value and every element's value. -/
theorem foldl_keepBest_ge (b : β) :
    rank b ≤ rank (l.foldl (keepBest rank f) b) ∧
      ∀ x ∈ l, rank (f x) ≤ rank (l.foldl (keepBest rank f) b) := by
  induction l using List.reverseRecOn with
  | nil => simp
  | append_singleton l x ih =>
    obtain ⟨hb, hl⟩ := ih
    rw [List.foldl_append, List.foldl_cons, List.foldl_nil, keepBest]
    simp only [List.mem_append, List.mem_singleton]
    split
    · rename_i h
      refine ⟨le_of_lt (lt_of_le_of_lt hb h), ?_⟩
      rintro y (hy | rfl)
      · exact le_of_lt (lt_of_le_of_lt (hl y hy) h)
      · exact le_refl _
    · rename_i h
      refine ⟨hb, ?_⟩
      rintro y (hy | rfl)
      · exact hl y hy
      · exact not_lt.mp h

/-- The pass keeps the initial value, which no element beats, or the value of an element that
beats it, every element before, and no element after. -/
theorem foldl_keepBest (b : β) :
    (l.foldl (keepBest rank f) b = b ∧ ∀ x ∈ l, rank (f x) ≤ rank b) ∨
      ∃ l₁ x l₂, l = l₁ ++ x :: l₂ ∧ l.foldl (keepBest rank f) b = f x ∧ rank b < rank (f x) ∧
        (∀ y ∈ l₁, rank (f y) < rank (f x)) ∧ ∀ y ∈ l₂, rank (f y) ≤ rank (f x) := by
  induction l using List.reverseRecOn with
  | nil => exact .inl ⟨rfl, by simp⟩
  | append_singleton l x ih =>
    have hge := foldl_keepBest_ge rank f l b
    rw [List.foldl_append, List.foldl_cons, List.foldl_nil, keepBest]
    split
    · -- The last element beats everything kept so far.
      rename_i h
      refine .inr ⟨l, x, [], rfl, rfl, lt_of_le_of_lt hge.1 h,
        fun y hy => lt_of_le_of_lt (hge.2 y hy) h, by simp⟩
    · rename_i h
      simp only [List.mem_append, List.mem_singleton]
      rcases ih with ⟨hr, hl⟩ | ⟨l₁, x', l₂, hl, hr, hb, h₁, h₂⟩
      · rw [hr] at h ⊢
        refine .inl ⟨rfl, ?_⟩
        rintro y (hy | rfl)
        · exact hl y hy
        · exact not_lt.mp h
      · rw [hr] at h ⊢
        refine .inr ⟨l₁, x', l₂ ++ [x], by simp [hl], rfl, hb, h₁, ?_⟩
        simp only [List.mem_append, List.mem_singleton]
        rintro y (hy | rfl)
        · exact h₂ y hy
        · exact not_lt.mp h

/-- In a list of elements paired with their positions, the elements from a cut on are at the
position of the cut or later. -/
theorem le_snd_of_zipIdx_eq_append_cons {l : List α} {L₁ L₂ : List (α × Nat)} {x : α × Nat}
    (h : l.zipIdx = L₁ ++ x :: L₂) : ∀ y ∈ x :: L₂, x.2 ≤ y.2 := by
  obtain ⟨l₁, l₂, -, -, h₂⟩ := List.zipIdx_eq_append_iff.mp h
  cases l₂ with
  | nil => simp at h₂
  | cons a r =>
    rw [List.zipIdx_cons] at h₂
    obtain ⟨rfl, rfl⟩ := List.cons.inj h₂
    intro y hy
    rcases List.mem_cons.mp hy with rfl | hy
    · exact le_refl _
    · exact Nat.le_of_succ_le (List.le_snd_of_mem_zipIdx hy)

end Best

section Higher

variable (rank : β → Nat) (f : α → β) (l : List α)

/-- The best value of a pass ranked by a natural number. -/
def keepHigher (r : β) (x : α) : β := if rank r < rank (f x) then f x else r

theorem foldl_keepHigher_ge (b : β) :
    rank b ≤ rank (l.foldl (keepHigher rank f) b) ∧
      ∀ x ∈ l, rank (f x) ≤ rank (l.foldl (keepHigher rank f) b) :=
  foldl_keepBest_ge rank f l b

theorem foldl_keepHigher (b : β) :
    (l.foldl (keepHigher rank f) b = b ∧ ∀ x ∈ l, rank (f x) ≤ rank b) ∨
      ∃ l₁ x l₂, l = l₁ ++ x :: l₂ ∧ l.foldl (keepHigher rank f) b = f x ∧ rank b < rank (f x) ∧
        (∀ y ∈ l₁, rank (f y) < rank (f x)) ∧ ∀ y ∈ l₂, rank (f y) ≤ rank (f x) :=
  foldl_keepBest rank f l b

end Higher

end Scan
