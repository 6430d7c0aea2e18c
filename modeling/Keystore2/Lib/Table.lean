import Mathlib.Data.List.Pairwise
import Mathlib.Data.List.MinMax

/-! Tables of a relational store as lists of rows in insertion order, and the statements
that change them: `UPDATE ... WHERE`, `DELETE ... WHERE` and `INSERT`, which appends.
`Unique p key t` is a unique constraint on `key` restricted to the rows that satisfy `p`;
it survives a delete, an update that moves no row into `p` or changes no key of a `p` row,
and an insert whose row clashes with no other.  A query whose condition fixes the key then
meets at most one row.

`Newest id grp t r` says that no row of `r`'s group has a larger number than `r`: what
`ORDER BY id DESC` puts first, or `MAX(id) ... GROUP BY` selects.  It reads the rows only
through their numbers and groups, so an update that keeps both keeps it, and a delete keeps it
for every row whose group kept its newest row. -/

namespace Table

variable {ρ κ : Type _}

/-- `UPDATE t SET f WHERE p`. -/
def update (p : ρ → Bool) (f : ρ → ρ) (t : List ρ) : List ρ :=
  t.map fun r => if p r then f r else r

/-- `DELETE FROM t WHERE p`. -/
def delete (p : ρ → Bool) (t : List ρ) : List ρ :=
  t.filter fun r => !p r

section Statements

variable {p : ρ → Bool} {f : ρ → ρ} {t : List ρ} {r : ρ}

@[simp] theorem mem_delete : r ∈ delete p t ↔ r ∈ t ∧ p r = false := by
  simp [delete]

theorem mem_update : r ∈ update p f t ↔ ∃ s ∈ t, (if p s then f s else s) = r := by
  simp [update]

theorem forall_mem_update {P : ρ → Prop} :
    (∀ r ∈ update p f t, P r) ↔ ∀ s ∈ t, P (if p s then f s else s) := by
  simp [update]

theorem delete_sublist : List.Sublist (delete p t) t := List.filter_sublist

/-- An update that keeps a column keeps the column's values. -/
theorem map_update {key : ρ → κ} (hf : ∀ r, key (f r) = key r) :
    (update p f t).map key = t.map key := by
  simp only [update, List.map_map]
  apply List.map_congr_left
  intro r _
  simp only [Function.comp_apply]
  split
  · exact hf r
  · rfl

theorem mem_update_of_mem (h : r ∈ t) : (if p r then f r else r) ∈ update p f t :=
  List.mem_map_of_mem h

/-- A statement whose condition holds of at most one row never meets two. -/
theorem pairwise_of_countP_le_one (h : t.countP p ≤ 1) :
    t.Pairwise fun r s => ¬(p r = true ∧ p s = true) := by
  induction t with
  | nil => exact List.Pairwise.nil
  | cons a t ih =>
    rw [List.countP_cons] at h
    apply List.pairwise_cons.2
    constructor
    · intro s hs ⟨ha, hps⟩
      have hpos : 0 < t.countP p := List.countP_pos_iff.2 ⟨s, hs, hps⟩
      simp only [ha, if_true] at h
      omega
    · apply ih
      split at h <;> omega

@[simp] theorem update_nil : update p f [] = [] := rfl

@[simp] theorem delete_nil : delete p [] = [] := rfl

theorem update_of_forall_not (h : ∀ s ∈ t, p s = false) : update p f t = t := by
  simp only [update]
  conv => rhs; rw [← List.map_id t]
  apply List.map_congr_left
  intro s hs
  simp [h s hs]

theorem delete_of_forall_not (h : ∀ s ∈ t, p s = false) : delete p t = t :=
  List.filter_eq_self.mpr (by simpa using h)

theorem update_of_forall (h : ∀ s ∈ t, p s = true) : update p f t = t.map f := by
  simp only [update]
  apply List.map_congr_left
  intro s hs
  simp [h s hs]

theorem update_congr {p' : ρ → Bool} (h : ∀ s ∈ t, p s = p' s) :
    update p f t = update p' f t := by
  simp only [update]
  apply List.map_congr_left
  intro s hs
  rw [h s hs]

/-- A query on a column that an update keeps sees the update of its rows. -/
theorem filter_update {q : ρ → Bool} (hq : ∀ r, q (f r) = q r) :
    (update p f t).filter q = update p f (t.filter q) := by
  simp only [update, List.filter_map]
  congr 1
  apply List.filter_congr
  intro r _
  simp only [Function.comp_apply]
  split
  · exact hq r
  · rfl

theorem filter_delete {q : ρ → Bool} : (delete p t).filter q = delete p (t.filter q) := by
  simp only [delete, List.filter_filter, Bool.and_comm]

/-- After a delete, no row satisfies its condition. -/
theorem filter_delete_self : (delete p t).filter p = [] := by
  simp [delete, List.filter_filter]

end Statements

/-- No two rows that satisfy `p` share a key. -/
def Unique (p : ρ → Prop) (key : ρ → κ) (t : List ρ) : Prop :=
  t.Pairwise fun r s => p r → p s → key r ≠ key s

section Unique

variable {p : ρ → Prop} {key : ρ → κ} {t t' : List ρ}

theorem Unique.sublist (h : Unique p key t) (hs : List.Sublist t' t) : Unique p key t' :=
  List.Pairwise.sublist hs h

theorem Unique.delete (h : Unique p key t) (q : ρ → Bool) : Unique p key (delete q t) :=
  h.sublist delete_sublist

@[simp] theorem unique_nil : Unique p key [] := List.Pairwise.nil

theorem unique_append_singleton {r : ρ} :
    Unique p key (t ++ [r]) ↔ Unique p key t ∧ ∀ s ∈ t, p s → p r → key s ≠ key r := by
  simp only [Unique, List.pairwise_append, List.pairwise_singleton, List.mem_singleton,
    forall_eq, true_and]

/-- Two `p` rows with one key are the same row. -/
theorem Unique.eq_of_key_eq (h : Unique p key t) {r s : ρ} (hr : r ∈ t) (hs : s ∈ t)
    (hpr : p r) (hps : p s) (hk : key r = key s) : r = s := by
  by_contra hne
  have : Std.Symm fun r s : ρ => p r → p s → key r ≠ key s :=
    ⟨fun r s hrs hps hpr => (hrs hpr hps).symm⟩
  exact List.Pairwise.forall h hr hs hne hpr hps hk

/-- An update keeps the constraint when every row it changes into a `p` row was a `p` row
with the same key. -/
theorem Unique.update (h : Unique p key t) {q : ρ → Bool} {f : ρ → ρ}
    (hf : ∀ r ∈ t, q r = true → p (f r) → p r ∧ key (f r) = key r) :
    Unique p key (Table.update q f t) := by
  have hrow : ∀ r ∈ t, p (if q r then f r else r) →
      p r ∧ key (if q r then f r else r) = key r := by
    intro r hr hp
    by_cases hq : q r = true
    · rw [if_pos hq] at hp ⊢
      exact hf r hr hq hp
    · rw [if_neg hq] at hp ⊢
      exact ⟨hp, rfl⟩
  simp only [Unique, Table.update, List.pairwise_map]
  apply List.Pairwise.imp_of_mem _ h
  intro r s hr hs hrs hpr hps
  obtain ⟨hpr', hkr⟩ := hrow r hr hpr
  obtain ⟨hps', hks⟩ := hrow s hs hps
  rw [hkr, hks]
  exact hrs hpr' hps'

/-- An update of at most one row keeps the constraint when the changed row clashes with no
row that the update leaves alone. -/
theorem Unique.update_of_countP_le_one (h : Unique p key t) {q : ρ → Bool} {f : ρ → ρ}
    (hq : t.countP q ≤ 1)
    (hf : ∀ r ∈ t, ∀ s ∈ t, q r = true → q s = false → p (f r) → p s → key (f r) ≠ key s) :
    Unique p key (Table.update q f t) := by
  simp only [Unique, Table.update, List.pairwise_map]
  apply List.Pairwise.imp_of_mem _ (h.and (pairwise_of_countP_le_one hq))
  intro r s hr hs ⟨hrs, hx⟩ hpr hps
  cases hqr : q r <;> cases hqs : q s
  · simp only [hqr, hqs, Bool.false_eq_true, if_false] at hpr hps ⊢
    exact hrs hpr hps
  · simp only [hqr, hqs, Bool.false_eq_true, if_false, if_true] at hpr hps ⊢
    exact (hf s hs r hr hqs hqr hps hpr).symm
  · simp only [hqr, hqs, Bool.false_eq_true, if_false, if_true] at hpr hps ⊢
    exact hf r hr s hs hqr hqs hpr hps
  · exact absurd ⟨hqr, hqs⟩ hx

/-- A query whose condition selects only `p` rows of one key meets at most one row. -/
theorem Unique.length_filter_le_one (h : Unique p key t) {q : ρ → Bool} {k : κ}
    (hq : ∀ r, q r = true → p r ∧ key r = k) : (t.filter q).length ≤ 1 := by
  have hf : (t.filter q).Pairwise fun r s => p r → p s → key r ≠ key s :=
    List.Pairwise.sublist List.filter_sublist h
  match hl : t.filter q, hf with
  | [], _ => simp
  | [_], _ => simp
  | r :: s :: _, hf' =>
    have hr : q r = true := (List.mem_filter.1 (hl ▸ List.mem_cons_self)).2
    have hs : q s = true :=
      (List.mem_filter.1 (hl ▸ List.mem_cons_of_mem _ List.mem_cons_self)).2
    obtain ⟨hpr, hkr⟩ := hq r hr
    obtain ⟨hps, hks⟩ := hq s hs
    exact absurd (hkr.trans hks.symm) ((List.pairwise_cons.1 hf').1 s List.mem_cons_self hpr hps)

end Unique

/-- No row of `r`'s group in `t` has a larger number than `r`. -/
def Newest (id : ρ → Nat) (grp : ρ → κ) (t : List ρ) (r : ρ) : Prop :=
  ∀ s ∈ t, grp s = grp r → id s ≤ id r

instance [DecidableEq κ] {id : ρ → Nat} {grp : ρ → κ} {t : List ρ} {r : ρ} :
    Decidable (Newest id grp t r) :=
  inferInstanceAs (Decidable (∀ s ∈ t, grp s = grp r → id s ≤ id r))

section Newest

variable {id : ρ → Nat} {grp : ρ → κ} {t t' : List ρ} {r : ρ}

theorem newest_update {p : ρ → Bool} {f : ρ → ρ} (hid : ∀ s, id (f s) = id s)
    (hgrp : ∀ s, grp (f s) = grp s) : Newest id grp (update p f t) r ↔ Newest id grp t r := by
  have hmap : (update p f t).map (fun s => (id s, grp s)) = t.map (fun s => (id s, grp s)) := by
    apply map_update
    intro s
    rw [hid, hgrp]
  have key : ∀ l : List ρ, Newest id grp l r ↔
      ∀ x ∈ l.map (fun s => (id s, grp s)), x.2 = grp r → x.1 ≤ id r := by
    intro l
    simp only [Newest, List.forall_mem_map]
  rw [key, key, hmap]

theorem newest_append_singleton {n : ρ} :
    Newest id grp (t ++ [n]) r ↔ Newest id grp t r ∧ (grp n = grp r → id n ≤ id r) := by
  simp only [Newest, List.mem_append, List.mem_singleton, or_imp, forall_and, forall_eq]

theorem Newest.sublist (h : Newest id grp t r) (hs : List.Sublist t' t) : Newest id grp t' r :=
  fun s hs' => h s (hs.subset hs')

/-- Every row has a newest row of its group above it. -/
theorem exists_newest [DecidableEq κ] {s : ρ} (hs : s ∈ t) :
    ∃ m ∈ t, grp m = grp s ∧ id s ≤ id m ∧ Newest id grp t m := by
  have hne : s ∈ t.filter (fun m => grp m = grp s) := List.mem_filter.2 ⟨hs, by simp⟩
  cases hm : (t.filter (fun m => grp m = grp s)).argmax id with
  | none =>
    rw [List.argmax_eq_none] at hm
    rw [hm] at hne
    cases hne
  | some m =>
    have hmem := List.mem_filter.1 (List.argmax_mem hm)
    have hgm : grp m = grp s := of_decide_eq_true hmem.2
    refine ⟨m, hmem.1, hgm, List.le_of_mem_argmax hne hm, ?_⟩
    intro s' hs' hg
    exact List.le_of_mem_argmax (List.mem_filter.2 ⟨hs', by simp [hg, hgm]⟩) hm

/-- A delete keeps `r` newest when it keeps every newest row of `r`'s group. -/
theorem Newest.of_delete [DecidableEq κ] {q : ρ → Bool} (hr : Newest id grp (delete q t) r)
    (hkept : ∀ m ∈ t, grp m = grp r → Newest id grp t m → q m = false) :
    Newest id grp t r := by
  intro s hs hgrp
  obtain ⟨m, hm, hgm, hsm, hnm⟩ : ∃ m ∈ t, grp m = grp s ∧ id s ≤ id m ∧ Newest id grp t m :=
    exists_newest hs
  have hm' : m ∈ delete q t := mem_delete.2 ⟨hm, hkept m hm (hgm.trans hgrp) hnm⟩
  exact hsm.trans (hr m hm' (hgm.trans hgrp))

end Newest

end Table
