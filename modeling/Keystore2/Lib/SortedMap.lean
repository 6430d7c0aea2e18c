import Mathlib

/-! An ordered map with unique keys, as C++'s std::map holds it: its entries in strictly
increasing order of their keys, so that two maps with the same entries are equal.  Assigning
to a key puts the entry in its place, replacing the value of an equal key; iterating lists the
entries in order.  A map written out in iteration order and read back by assigning entry after
entry into an empty map is the map it was, which is all a serializer of a map relies on. -/

universe u v

variable {κ : Type u} {α : Type v} [LinearOrder κ]

/-- The entries of a map in increasing order of their keys. -/
structure SortedMap (κ : Type u) (α : Type v) [LinearOrder κ] where
  entries : List (κ × α)
  sorted : entries.Pairwise (fun a b => a.1 < b.1)

namespace SortedMap

/-- The entries with `(k, v)` put in its place, in place of an entry of key `k`. -/
def insertEntry (k : κ) (v : α) : List (κ × α) → List (κ × α)
  | [] => [(k, v)]
  | e :: es =>
    if k < e.1 then (k, v) :: e :: es
    else if k = e.1 then (k, v) :: es
    else e :: insertEntry k v es

theorem mem_insertEntry {k : κ} {v : α} {es : List (κ × α)} {e : κ × α}
    (h : e ∈ insertEntry k v es) : e = (k, v) ∨ e ∈ es := by
  induction es with
  | nil => simpa [insertEntry] using h
  | cons d es ih =>
    simp only [insertEntry] at h
    split at h
    · simpa using h
    · split at h
      · simp only [List.mem_cons] at h
        rcases h with h | h
        · exact .inl h
        · exact .inr (List.mem_cons_of_mem d h)
      · simp only [List.mem_cons] at h
        rcases h with h | h
        · exact .inr (h ▸ List.mem_cons_self)
        · rcases ih h with h | h
          · exact .inl h
          · exact .inr (List.mem_cons_of_mem d h)

theorem pairwise_insertEntry (k : κ) (v : α) {es : List (κ × α)}
    (h : es.Pairwise (fun a b => a.1 < b.1)) :
    (insertEntry k v es).Pairwise (fun a b => a.1 < b.1) := by
  induction es with
  | nil => simp [insertEntry]
  | cons d es ih =>
    rw [List.pairwise_cons] at h
    simp only [insertEntry]
    split
    · rename_i hk
      refine List.Pairwise.cons ?_ (List.Pairwise.cons h.1 h.2)
      intro e he
      rcases List.mem_cons.mp he with rfl | he
      · exact hk
      · exact lt_trans hk (h.1 e he)
    · split
      · rename_i hk
        refine List.Pairwise.cons ?_ h.2
        intro e he
        exact hk ▸ h.1 e he
      · rename_i hlt heq
        refine List.Pairwise.cons ?_ (ih h.2)
        intro e he
        rcases mem_insertEntry he with rfl | he
        · exact lt_of_le_of_ne (not_lt.mp hlt) (Ne.symm heq)
        · exact h.1 e he

/-- A key above every key of the map goes last. -/
theorem insertEntry_of_lt {k : κ} {v : α} {es : List (κ × α)} (h : ∀ e ∈ es, e.1 < k) :
    insertEntry k v es = es ++ [(k, v)] := by
  induction es with
  | nil => rfl
  | cons d es ih =>
    have hd := h d List.mem_cons_self
    simp only [insertEntry, not_lt.mpr (le_of_lt hd), if_false, ne_of_gt hd,
      List.cons_append, List.cons.injEq, true_and]
    exact ih fun e he => h e (List.mem_cons_of_mem d he)

def empty : SortedMap κ α := ⟨[], .nil⟩

/-- Assignment to a key, as operator[] followed by an assignment. -/
def insert (m : SortedMap κ α) (k : κ) (v : α) : SortedMap κ α :=
  ⟨insertEntry k v m.entries, pairwise_insertEntry k v m.sorted⟩

theorem ext {m m' : SortedMap κ α} (h : m.entries = m'.entries) : m = m' := by
  cases m
  cases m'
  cases h
  rfl

/-- Assigning, in order, entries whose keys rise above every key of the map appends them.  The
induction is on the entries, with the map extended by the ones assigned so far. -/
theorem foldl_insert (m : SortedMap κ α) (es : List (κ × α))
    (h : (m.entries ++ es).Pairwise (fun a b => a.1 < b.1)) :
    (es.foldl (fun m e => m.insert e.1 e.2) m).entries = m.entries ++ es := by
  induction es generalizing m with
  | nil => simp
  | cons e es ih =>
    have hlt : ∀ d ∈ m.entries, d.1 < e.1 :=
      fun d hd => (List.pairwise_append.mp h).2.2 d hd e List.mem_cons_self
    have hins : (m.insert e.1 e.2).entries = m.entries ++ [e] := insertEntry_of_lt hlt
    rw [List.foldl_cons, ih (m.insert e.1 e.2) (by rw [hins, List.append_assoc]; exact h), hins,
      List.append_assoc, List.singleton_append]

/-- A map read back entry by entry, in iteration order, into an empty map. -/
theorem foldl_insert_entries (m : SortedMap κ α) :
    m.entries.foldl (fun m e => m.insert e.1 e.2) empty = m :=
  ext (foldl_insert empty m.entries m.sorted)

end SortedMap
