import Mathlib

/-! Maps of counters, as a hash map from keys to counts is used: `*map.entry(k).or_insert(0) += 1`
bumps the count of a key, adding the key with count one when it is new.  A count map is an
association list; its size is its number of keys.  Bumping a key adds one to its count and
leaves the other counts alone, grows the size by one exactly when the key is new, and adds one to
the sum of the counts.  Underneath is a fact about any association list: the sum of a function
over its entries changes on an insert by what the new value adds and the old value took away. -/

universe u v w

namespace AList

variable {α : Type u} {β : α → Type v} [DecidableEq α] {M : Type w} [AddCommMonoid M]

/-- The sum of `f` over the entries. -/
def sumBy (f : (a : α) → β a → M) (s : AList β) : M := (s.entries.map fun e => f e.1 e.2).sum

theorem sum_map_kerase (f : (a : α) → β a → M) (a : α) (l : List (Sigma β)) :
    ((l.kerase a).map fun e => f e.1 e.2).sum + ((l.dlookup a).map (f a)).getD 0 =
      (l.map fun e => f e.1 e.2).sum := by
  induction l with
  | nil => simp
  | cons e l ih =>
    obtain ⟨a', b'⟩ := e
    by_cases ha : a = a'
    · -- the first entry of the key is the one erased and the one looked up
      subst ha
      rw [List.kerase_cons_eq (s := ⟨a, b'⟩) rfl, List.dlookup_cons_eq]
      simp [add_comm]
    · rw [List.kerase_cons_ne (s := ⟨a', b'⟩) ha, List.dlookup_cons_ne _ _ ha, List.map_cons,
        List.sum_cons, add_assoc, ih]
      rfl

theorem sumBy_insert (f : (a : α) → β a → M) (s : AList β) (a : α) (b : β a) :
    sumBy f (s.insert a b) + ((s.lookup a).map (f a)).getD 0 = sumBy f s + f a b := by
  rw [sumBy, entries_insert, List.map_cons, List.sum_cons, add_assoc, lookup, sum_map_kerase,
    add_comm]
  rfl

end AList

/-- Counts of keys. -/
abbrev CountMap (κ : Type u) := AList fun _ : κ => Nat

namespace CountMap

variable {κ : Type u} (m : CountMap κ)

/-- The number of keys, the `len()` of a hash map. -/
def size : Nat := m.keys.length

/-- The sum of the counts. -/
def total : Nat := m.sumBy fun _ n => n

@[simp] theorem size_empty : size (∅ : CountMap κ) = 0 := rfl

@[simp] theorem total_empty : total (∅ : CountMap κ) = 0 := rfl

theorem length_entries : m.entries.length = m.size := by
  simp [size, AList.keys, List.keys]

variable [DecidableEq κ]

/-- The count of a key, zero when it is absent. -/
def count (k : κ) : Nat := (m.lookup k).getD 0

/-- `*m.entry(k).or_insert(0) += 1`. -/
def bump (k : κ) : CountMap κ := m.insert k (m.count k + 1)

/-- Every key present has a positive count, as in a map that only bumps. -/
def Positive : Prop := ∀ k ∈ m, 0 < m.count k

@[simp] theorem count_empty (k : κ) : count (∅ : CountMap κ) k = 0 := rfl

theorem positive_empty : Positive (∅ : CountMap κ) := fun _ hk => absurd hk (AList.notMem_empty _)

theorem count_bump (k k' : κ) : (m.bump k).count k' = m.count k' + if k' = k then 1 else 0 := by
  by_cases h : k' = k
  · subst h
    simp [bump, count, AList.lookup_insert]
  · simp [bump, count, AList.lookup_insert_ne h, h]

@[simp] theorem count_bump_self (k : κ) : (m.bump k).count k = m.count k + 1 := by
  simp [count_bump]

theorem count_bump_of_ne {k k' : κ} (h : k' ≠ k) : (m.bump k).count k' = m.count k' := by
  simp [count_bump, h]

theorem mem_bump (k k' : κ) : k' ∈ m.bump k ↔ k' = k ∨ k' ∈ m := AList.mem_insert m

/-- The size grows by one exactly when the key is new. -/
theorem size_bump (k : κ) : (m.bump k).size = if k ∈ m then m.size else m.size + 1 := by
  have hmem : k ∈ m ↔ k ∈ m.keys := AList.mem_keys
  rw [size, bump, AList.keys_insert, List.length_cons, List.length_erase, size]
  split_ifs with h₁ h₂ h₂
  · have hpos : 0 < m.keys.length := List.length_pos_of_mem h₁
    omega
  · exact absurd (hmem.mpr h₁) h₂
  · exact absurd (hmem.mp h₂) h₁
  · rfl

theorem size_bump_of_mem {k : κ} (h : k ∈ m) : (m.bump k).size = m.size := by
  rw [size_bump, if_pos h]

theorem size_bump_le (k : κ) : (m.bump k).size ≤ m.size + 1 := by
  rw [size_bump]
  split_ifs <;> omega

theorem total_bump (k : κ) : (m.bump k).total = m.total + 1 := by
  have h := AList.sumBy_insert (fun _ n => n) m k (m.count k + 1)
  have hcount : ((m.lookup k).map fun n => n).getD 0 = m.count k := by
    simp [count]
  rw [hcount] at h
  change (m.bump k).total + m.count k = m.total + (m.count k + 1) at h
  omega

theorem Positive.bump {m : CountMap κ} (hm : m.Positive) (k : κ) : (m.bump k).Positive := by
  intro k' hk'
  rw [count_bump]
  rcases (mem_bump m k k').mp hk' with rfl | hk'
  · simp
  · have := hm k' hk'
    omega

/-- Under positive counts, a key is present exactly when its count is positive. -/
theorem Positive.mem_iff {m : CountMap κ} (hm : m.Positive) (k : κ) : k ∈ m ↔ 0 < m.count k := by
  refine ⟨hm k, fun hpos => ?_⟩
  by_contra hk
  have hnone : m.lookup k = none := AList.lookup_eq_none.mpr hk
  simp [count, hnone] at hpos

theorem size_eq_card : m.size = m.keys.toFinset.card := by
  rw [size, List.toFinset_card_of_nodup m.keys_nodup]

theorem keys_bump_subset (k : κ) : (m.bump k).keys ⊆ k :: m.keys := by
  intro k' hk'
  rw [← AList.mem_keys, mem_bump] at hk'
  rcases hk' with rfl | hk'
  · exact List.mem_cons_self
  · exact List.mem_cons_of_mem _ (AList.mem_keys.mp hk')

/-- The entries are the keys present with their counts. -/
theorem mem_entries_iff {k : κ} {n : Nat} : (⟨k, n⟩ : Sigma fun _ : κ => Nat) ∈ m.entries ↔
    k ∈ m ∧ m.count k = n := by
  rw [← AList.mem_lookup_iff, Option.mem_def]
  constructor
  · intro h
    exact ⟨AList.lookup_isSome.mp (by simp [h]), by simp [count, h]⟩
  · rintro ⟨hk, rfl⟩
    obtain ⟨n', hn'⟩ := Option.isSome_iff_exists.mp (AList.lookup_isSome.mpr hk)
    simp [count, hn']

end CountMap
