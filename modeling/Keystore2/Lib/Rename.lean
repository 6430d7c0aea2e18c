import Mathlib.Data.List.AList

/-! Renaming files of a directory.  A directory is a map from names to contents; `rename` moves
the contents at one name to another, replacing what was there, and fails when the source is
missing, as `rename(2)` does.  Moving a file only when it exists is one rename that does nothing
on a missing source.  A run of such moves whose names are all distinct takes each content to its
new name, or keeps what was at the new name when there was nothing to move, empties every old
name, and leaves every other name alone. -/

namespace AList

variable {α β : Type*}

/-- The names that a run of moves touches: each move's source and destination. -/
def names (moves : List (α × α)) : List α := moves.flatMap fun m => [m.1, m.2]

theorem names_cons (m : α × α) (moves : List (α × α)) :
    names (m :: moves) = m.1 :: m.2 :: names moves := rfl

theorem mem_names_of_mem {moves : List (α × α)} {m : α × α} (hm : m ∈ moves) :
    m.1 ∈ names moves ∧ m.2 ∈ names moves :=
  ⟨List.mem_flatMap.mpr ⟨m, hm, List.mem_cons_self⟩,
    List.mem_flatMap.mpr ⟨m, hm, List.mem_cons_of_mem _ List.mem_cons_self⟩⟩

variable [DecidableEq α]

/-- Moves the value at `src` to `dest`, replacing the value there; `none` when `src` holds
none. -/
def rename (s : AList fun _ : α => β) (src dest : α) : Option (AList fun _ : α => β) :=
  (s.lookup src).map fun b => (s.erase src).insert dest b

/-- A rename that does nothing when the source is missing. -/
def renameIfExists (s : AList fun _ : α => β) (src dest : α) : AList fun _ : α => β :=
  (s.rename src dest).getD s

/-- The renames of a list of moves, one after the other. -/
def renameAll (s : AList fun _ : α => β) (moves : List (α × α)) : AList fun _ : α => β :=
  moves.foldl (fun s m => s.renameIfExists m.1 m.2) s

variable {s : AList fun _ : α => β} {src dest : α}

theorem lookup_renameIfExists (hne : src ≠ dest) (p : α) :
    (s.renameIfExists src dest).lookup p =
      if p = dest then (s.lookup src).or (s.lookup dest) else if p = src then none
      else s.lookup p := by
  unfold renameIfExists rename
  cases hsrc : s.lookup src with
  | none =>
    -- nothing moves, and the source reads `none` already
    by_cases hd : p = dest
    · subst hd
      simp
    · by_cases hs : p = src
      · subst hs
        simp [hd, hsrc]
      · simp [hd, hs]
  | some b =>
    by_cases hd : p = dest
    · subst hd
      simp
    · by_cases hs : p = src
      · subst hs
        simp [hd, lookup_insert_ne hd]
      · simp [hd, hs, lookup_insert_ne hd, lookup_erase_ne hs]

@[simp] theorem renameAll_nil : s.renameAll [] = s := rfl

theorem renameAll_cons (m : α × α) (moves : List (α × α)) :
    s.renameAll (m :: moves) = (s.renameIfExists m.1 m.2).renameAll moves := rfl

theorem renameAll_append (moves moves' : List (α × α)) :
    s.renameAll (moves ++ moves') = (s.renameAll moves).renameAll moves' :=
  List.foldl_append

theorem lookup_renameAll_of_notMem {moves : List (α × α)} {p : α} (hp : p ∉ names moves) :
    (s.renameAll moves).lookup p = s.lookup p := by
  induction moves generalizing s with
  | nil => rfl
  | cons m moves ih =>
    rw [names_cons, List.mem_cons, List.mem_cons, not_or, not_or] at hp
    obtain ⟨hsrc, hdest, hp⟩ := hp
    rw [renameAll_cons, ih hp]
    -- the first move may have the same source and destination, which renames nothing
    by_cases hm : m.1 = m.2
    · unfold renameIfExists rename
      cases hb : s.lookup m.1 with
      | none => rfl
      | some b => simp [lookup_insert_ne hdest, lookup_erase_ne hsrc]
    · rw [lookup_renameIfExists hm, if_neg hdest, if_neg hsrc]

/-- A move of the run, when no two names of the run are the same, leaves its source empty and
its destination holding what the source held, or what it held itself when the source was
empty. -/
theorem lookup_renameAll_of_mem {moves : List (α × α)} (hnodup : (names moves).Nodup)
    {m : α × α} (hm : m ∈ moves) :
    (s.renameAll moves).lookup m.2 = (s.lookup m.1).or (s.lookup m.2) ∧
      (s.renameAll moves).lookup m.1 = none := by
  induction moves generalizing s with
  | nil => cases hm
  | cons m' moves ih =>
    rw [names_cons, List.nodup_cons, List.nodup_cons, List.mem_cons, not_or] at hnodup
    obtain ⟨⟨hne, hsrc⟩, hdest, hnodup⟩ := hnodup
    rw [renameAll_cons]
    rcases List.mem_cons.mp hm with rfl | hm
    · -- the later moves touch neither name of the first
      rw [lookup_renameAll_of_notMem hsrc, lookup_renameAll_of_notMem hdest,
        lookup_renameIfExists hne, lookup_renameIfExists hne, if_pos rfl, if_neg hne, if_pos rfl]
      exact ⟨rfl, rfl⟩
    · -- the first move touches neither name of a later one
      have hm₁ : m.1 ≠ m'.1 ∧ m.1 ≠ m'.2 := by
        have := (mem_names_of_mem hm).1
        exact ⟨fun h => hsrc (h ▸ this), fun h => hdest (h ▸ this)⟩
      have hm₂ : m.2 ≠ m'.1 ∧ m.2 ≠ m'.2 := by
        have := (mem_names_of_mem hm).2
        exact ⟨fun h => hsrc (h ▸ this), fun h => hdest (h ▸ this)⟩
      rw [(ih hnodup hm).1, (ih hnodup hm).2, lookup_renameIfExists hne,
        lookup_renameIfExists hne, if_neg hm₁.2, if_neg hm₁.1, if_neg hm₂.2, if_neg hm₂.1]
      exact ⟨rfl, rfl⟩

end AList
