import Mathlib.Data.List.Destutter
import Mathlib.Data.List.Sort

/-! Sorting followed by the removal of adjacent repeats, over a linear order: the `ORDER BY`
of a `SELECT DISTINCT`, or a `sort_unstable` followed by `dedup`.  The result is the strictly
increasing list of the values of its input, and it is determined by them. -/

namespace SortDedup

/-- The last element of a list sorted by `R` is `R`-above every other element. -/
theorem rel_of_mem_of_getLast? {β : Type*} {R : β → β → Prop} {l : List β} (hl : l.Pairwise R)
    {a b : β} (ha : a ∈ l) (hb : l.getLast? = some b) : a = b ∨ R a b := by
  obtain ⟨init, rfl⟩ := List.getLast?_eq_some_iff.mp hb
  rcases List.mem_append.mp ha with ha | ha
  · exact .inr ((List.pairwise_append.mp hl).2.2 a ha b List.mem_cons_self)
  · exact .inl (List.mem_singleton.mp ha)

variable {α : Type*} [LinearOrder α]

def sortDedup (l : List α) : List α :=
  (l.mergeSort (fun a b => decide (a ≤ b))).destutter (· ≠ ·)

theorem mem_destutter'_ne {a b : α} {l : List α} (h : b ∈ a :: l) :
    b ∈ l.destutter' (· ≠ ·) a := by
  induction l generalizing a with
  | nil => simpa using h
  | cons c l ih =>
    by_cases hac : a = c
    · subst hac
      rw [List.destutter'_cons_neg _ (by simp)]
      apply ih
      rcases List.mem_cons.mp h with rfl | h
      · exact List.mem_cons_self
      · exact h
    · rw [List.destutter'_cons_pos _ hac]
      rcases List.mem_cons.mp h with rfl | h
      · exact List.mem_cons_self
      · exact List.mem_cons_of_mem _ (ih h)

theorem mem_destutter_ne {b : α} {l : List α} : b ∈ l.destutter (· ≠ ·) ↔ b ∈ l := by
  refine ⟨fun h => (List.destutter_sublist _ l).subset h, fun h => ?_⟩
  cases l with
  | nil => simp at h
  | cons a l => exact mem_destutter'_ne h

@[simp] theorem mem_sortDedup {a : α} {l : List α} : a ∈ sortDedup l ↔ a ∈ l := by
  simp [sortDedup, mem_destutter_ne]

theorem length_sortDedup_le (l : List α) : (sortDedup l).length ≤ l.length :=
  calc (sortDedup l).length
      ≤ (l.mergeSort (fun a b => decide (a ≤ b))).length := (List.destutter_sublist _ _).length_le
    _ = l.length := List.length_mergeSort l

theorem isChain_lt {l : List α} (hle : l.IsChain (· ≤ ·)) (hne : l.IsChain (· ≠ ·)) :
    l.IsChain (· < ·) := by
  induction l with
  | nil => exact .nil
  | cons a l ih =>
    cases l with
    | nil => exact .singleton a
    | cons b l =>
      rw [List.isChain_cons_cons] at hle hne ⊢
      exact ⟨lt_of_le_of_ne hle.1 hne.1, ih hle.2 hne.2⟩

theorem pairwise_lt_sortDedup (l : List α) : (sortDedup l).Pairwise (· < ·) := by
  have hsorted : (l.mergeSort (fun a b => decide (a ≤ b))).Pairwise (· ≤ ·) := by
    have : (l.mergeSort (fun a b => decide (a ≤ b))).Pairwise (fun a b => decide (a ≤ b)) :=
      List.pairwise_mergeSort
        (fun a b c hab hbc => by simp only [decide_eq_true_eq] at *; exact le_trans hab hbc)
        (fun a b => by simpa using le_total a b) l
    simpa using this
  have hsub := List.destutter_sublist (· ≠ ·) (l.mergeSort (fun a b => decide (a ≤ b)))
  have hle : (sortDedup l).Pairwise (· ≤ ·) := hsorted.sublist hsub
  have hne : (sortDedup l).IsChain (· ≠ ·) := List.isChain_destutter _ _
  exact (List.sortedLT_iff_isChain.mpr (isChain_lt hle.isChain hne)).pairwise

/-- A strictly increasing list is determined by its members. -/
theorem eq_of_pairwise_lt {l₁ l₂ : List α} (h₁ : l₁.Pairwise (· < ·)) (h₂ : l₂.Pairwise (· < ·))
    (h : ∀ a, a ∈ l₁ ↔ a ∈ l₂) : l₁ = l₂ := by
  have hperm : l₁.Perm l₂ :=
    (List.perm_ext_iff_of_nodup (h₁.imp ne_of_lt) (h₂.imp ne_of_lt)).mpr h
  exact hperm.eq_of_pairwise' h₁ h₂

theorem sortDedup_eq_of_pairwise_lt {l : List α} (h : l.Pairwise (· < ·)) : sortDedup l = l :=
  eq_of_pairwise_lt (pairwise_lt_sortDedup l) h (fun _ => mem_sortDedup)

end SortDedup
