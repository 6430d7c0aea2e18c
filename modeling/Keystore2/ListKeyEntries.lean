import Keystore2.Lib.SortDedup
import Mathlib

/-! Batched key listing: `list_key_entries` of `utils.rs` with the pieces it calls,
`merge_and_filter_key_entry_lists`, `estimate_safe_amount_to_return` and the query of
`KeystoreDB::list_past_alias`.  The descriptors of one listing all carry the caller's domain and
namespace and no blob (`list_uid` and `list_past_alias` build them so), so their derived order
is the order of their aliases and the model keeps the aliases.  `legacyAliases` is what
`LegacyImporter::list_uid` returns and `dbAliases` the `alias` column of the namespace's live
client key entries; both stay fixed while a client pages through the namespace. -/

namespace Keystore2.ListKeyEntries

open SortDedup

/-- The `LIMIT` of the `list_past_alias` query. -/
def listPastAliasLimit : Nat := 10000

def responseSizeLimit : Nat := 358400

/-- `alias > start_past_alias`, or every alias when none is given. -/
def isPastAlias (startPastAlias : Option String) (keyAlias : String) : Bool :=
  match startPastAlias with
  | some pastAlias => decide (pastAlias < keyAlias)
  | none => true

/-- `SELECT DISTINCT alias ... [AND alias > ?] ORDER BY alias ASC LIMIT 10000`. -/
def listPastAlias (dbAliases : List String) (startPastAlias : Option String) : List String :=
  (sortDedup (dbAliases.filter (isPastAlias startPastAlias))).take listPastAliasLimit

def mergeAndFilterKeyEntryLists (legacyDescriptors dbDescriptors : List String)
    (startPastAlias : Option String) : List String :=
  let result := match startPastAlias with
    | some _ => legacyDescriptors.filter (isPastAlias startPastAlias)
    | none => legacyDescriptors
  sortDedup (result ++ dbDescriptors)

/-- The bytes counted for one descriptor: domain, namespace and the length-prefixed alias. -/
def descriptorSize (keyAlias : String) : Nat := 4 + 8 + (4 + keyAlias.utf8ByteSize)

def estimateSafeAmountToReturn (keyDescriptors : List String) (responseSizeLimit : Nat) : Nat :=
  go keyDescriptors 0 0
where
  go : List String → Nat → Nat → Nat
    | [], count, _ => count
    | kd :: rest, count, bytes =>
      if bytes + descriptorSize kd > responseSizeLimit then count
      else go rest (count + 1) (bytes + descriptorSize kd)

def listKeyEntries (legacyAliases dbAliases : List String) (startPastAlias : Option String) :
    List String :=
  let merged := mergeAndFilterKeyEntryLists legacyAliases
    (listPastAlias dbAliases startPastAlias) startPastAlias
  merged.take (estimateSafeAmountToReturn merged responseSizeLimit)

/-- A client paging through a namespace: no alias on the first call, the last alias of the
previous batch on every later one, until a batch comes back empty (at most `fuel` calls). -/
def listBatches (legacyAliases dbAliases : List String) :
    Nat → Option String → List (List String)
  | 0, _ => []
  | fuel + 1, startPastAlias =>
    let batch := listKeyEntries legacyAliases dbAliases startPastAlias
    match batch.getLast? with
    | none => []
    | some last => batch :: listBatches legacyAliases dbAliases fuel (some last)

section Batch

theorem isPastAlias_some {pastAlias keyAlias : String} :
    isPastAlias (some pastAlias) keyAlias = true ↔ pastAlias < keyAlias := by
  simp [isPastAlias]

theorem pairwise_lt_listPastAlias (dbAliases : List String) (startPastAlias : Option String) :
    (listPastAlias dbAliases startPastAlias).Pairwise (· < ·) :=
  (pairwise_lt_sortDedup _).sublist (List.take_sublist _ _)

theorem mem_of_mem_listPastAlias {dbAliases : List String} {startPastAlias : Option String}
    {a : String} (h : a ∈ listPastAlias dbAliases startPastAlias) :
    a ∈ dbAliases ∧ isPastAlias startPastAlias a = true := by
  have hmem := List.mem_of_mem_take h
  rwa [mem_sortDedup, List.mem_filter] at hmem

theorem mem_mergeAndFilterKeyEntryLists {legacy db : List String} {startPastAlias : Option String}
    {a : String} : a ∈ mergeAndFilterKeyEntryLists legacy db startPastAlias ↔
      (a ∈ legacy ∧ isPastAlias startPastAlias a = true) ∨ a ∈ db := by
  cases startPastAlias <;> simp [mergeAndFilterKeyEntryLists, isPastAlias]

theorem estimateSafeAmountToReturn_go_ge (limit : Nat) :
    ∀ (l : List String) (count bytes : Nat),
      count ≤ estimateSafeAmountToReturn.go limit l count bytes := by
  intro l
  induction l with
  | nil => intro count bytes; exact Nat.le_refl _
  | cons kd rest ih =>
    intro count bytes
    simp only [estimateSafeAmountToReturn.go]
    split
    · exact Nat.le_refl _
    · exact Nat.le_trans (Nat.le_succ count) (ih _ _)

theorem estimateSafeAmountToReturn_pos {kd : String} {rest : List String} {limit : Nat}
    (h : descriptorSize kd ≤ limit) : 0 < estimateSafeAmountToReturn (kd :: rest) limit := by
  simp only [estimateSafeAmountToReturn, estimateSafeAmountToReturn.go, Nat.zero_add]
  rw [if_neg (Nat.not_lt.mpr h)]
  exact estimateSafeAmountToReturn_go_ge limit rest 1 _

/-- When every descriptor takes at most `size` bytes and all of them fit, the whole list is
returned. -/
theorem estimateSafeAmountToReturn_go_eq {limit size : Nat} :
    ∀ (l : List String) (count bytes : Nat), (∀ kd ∈ l, descriptorSize kd ≤ size) →
      bytes + size * l.length ≤ limit →
      estimateSafeAmountToReturn.go limit l count bytes = count + l.length := by
  intro l
  induction l with
  | nil => intro count bytes _ _; rfl
  | cons kd rest ih =>
    intro count bytes hsize hfit
    have hkd : descriptorSize kd ≤ size := hsize kd List.mem_cons_self
    have hrest : bytes + descriptorSize kd + size * rest.length ≤ limit := by
      rw [List.length_cons, Nat.mul_succ] at hfit
      omega
    simp only [estimateSafeAmountToReturn.go]
    rw [if_neg (by omega), ih _ _ (fun b hb => hsize b (List.mem_cons_of_mem _ hb)) hrest,
      List.length_cons]
    omega

theorem pairwise_lt_listKeyEntries (legacy db : List String) (startPastAlias : Option String) :
    (listKeyEntries legacy db startPastAlias).Pairwise (· < ·) :=
  (pairwise_lt_sortDedup _).sublist (List.take_sublist _ _)

theorem isPastAlias_of_mem_listKeyEntries {legacy db : List String}
    {startPastAlias : Option String} {a : String}
    (h : a ∈ listKeyEntries legacy db startPastAlias) : isPastAlias startPastAlias a = true := by
  rcases mem_mergeAndFilterKeyEntryLists.mp (List.mem_of_mem_take h) with ⟨-, hp⟩ | hdb
  · exact hp
  · exact (mem_of_mem_listPastAlias hdb).2

/-- While an alias past `start_past_alias` remains and every descriptor fits the response on
its own, a batch is not empty. -/
theorem listKeyEntries_ne_nil {legacy db : List String} {startPastAlias : Option String}
    {a : String} (ha : a ∈ legacy ∨ a ∈ db) (hp : isPastAlias startPastAlias a = true)
    (hfit : ∀ b ∈ legacy ++ db, descriptorSize b ≤ responseSizeLimit) :
    listKeyEntries legacy db startPastAlias ≠ [] := by
  have hmerged : ∃ b, b ∈ mergeAndFilterKeyEntryLists legacy
      (listPastAlias db startPastAlias) startPastAlias := by
    rcases ha with ha | ha
    · exact ⟨a, mem_mergeAndFilterKeyEntryLists.mpr (Or.inl ⟨ha, hp⟩)⟩
    · have hsorted : sortDedup (db.filter (isPastAlias startPastAlias)) ≠ [] :=
        List.ne_nil_of_mem (mem_sortDedup.mpr (List.mem_filter.mpr ⟨ha, hp⟩))
      have hpast : listPastAlias db startPastAlias ≠ [] := by
        simp only [listPastAlias, ne_eq, List.take_eq_nil_iff, not_or]
        exact ⟨by decide, hsorted⟩
      obtain ⟨b, hb⟩ := List.exists_mem_of_ne_nil _ hpast
      exact ⟨b, mem_mergeAndFilterKeyEntryLists.mpr (Or.inr hb)⟩
  obtain ⟨b, hb⟩ := hmerged
  unfold listKeyEntries
  generalize hm : mergeAndFilterKeyEntryLists legacy (listPastAlias db startPastAlias)
    startPastAlias = merged at hb
  cases merged with
  | nil => simp at hb
  | cons kd rest =>
    have hkd : descriptorSize kd ≤ responseSizeLimit := by
      apply hfit
      rcases mem_mergeAndFilterKeyEntryLists.mp (hm ▸ List.mem_cons_self) with ⟨h, -⟩ | h
      · exact List.mem_append_left _ h
      · exact List.mem_append_right _ (mem_of_mem_listPastAlias h).1
    simp only [ne_eq, List.take_eq_nil_iff, reduceCtorEq, or_false]
    exact Nat.pos_iff_ne_zero.mp (estimateSafeAmountToReturn_pos hkd)

/-- Every later call of the paging loop returns aliases above the one it was passed. -/
theorem lt_of_mem_listBatches (legacy db : List String) :
    ∀ (fuel : Nat) (pastAlias : String), ∀ batch ∈ listBatches legacy db fuel (some pastAlias),
      ∀ a ∈ batch, pastAlias < a := by
  intro fuel
  induction fuel with
  | zero => intro pastAlias batch hb; simp [listBatches] at hb
  | succ fuel ih =>
    intro pastAlias batch hb a ha
    simp only [listBatches] at hb
    split at hb
    · simp at hb
    · rename_i last hlast
      rcases List.mem_cons.mp hb with rfl | hb
      · exact isPastAlias_some.mp (isPastAlias_of_mem_listKeyEntries ha)
      · have hmem : last ∈ listKeyEntries legacy db (some pastAlias) :=
          List.mem_of_getLast? hlast
        exact lt_trans (isPastAlias_some.mp (isPastAlias_of_mem_listKeyEntries hmem))
          (ih last batch hb a ha)

theorem le_of_mem_of_getLast? {l : List String} (hl : l.Pairwise (· < ·)) {a last : String}
    (ha : a ∈ l) (hlast : l.getLast? = some last) : a ≤ last := by
  obtain ⟨init, rfl⟩ := List.getLast?_eq_some_iff.mp hlast
  rcases List.mem_append.mp ha with ha | ha
  · exact le_of_lt ((List.pairwise_append.mp hl).2.2 a ha last List.mem_cons_self)
  · rw [List.mem_singleton.mp ha]

/-- The first call's database query was cut by its `LIMIT` before the alias `d`, and a legacy
alias `l` above `d` still entered that batch.  When the whole batch fits the response, the
client goes on from an alias at or above `l`, and `d` is in no batch at all. -/
theorem listBatches_skips_cut_alias {legacy db : List String} {d l : String} (fuel : Nat)
    (_hdb : d ∈ db) (hcut : d ∉ listPastAlias db none) (hd : d ∉ legacy) (hl : l ∈ legacy)
    (hdl : d < l)
    (hfit : estimateSafeAmountToReturn
        (mergeAndFilterKeyEntryLists legacy (listPastAlias db none) none) responseSizeLimit =
      (mergeAndFilterKeyEntryLists legacy (listPastAlias db none) none).length) :
    ∀ batch ∈ listBatches legacy db fuel none, d ∉ batch := by
  have hfirst : listKeyEntries legacy db none =
      mergeAndFilterKeyEntryLists legacy (listPastAlias db none) none := by
    simp only [listKeyEntries, hfit, List.take_length]
  have hlmem : l ∈ listKeyEntries legacy db none := by
    rw [hfirst]
    exact mem_mergeAndFilterKeyEntryLists.mpr (Or.inl ⟨hl, rfl⟩)
  have hdmem : d ∉ listKeyEntries legacy db none := by
    rw [hfirst, mem_mergeAndFilterKeyEntryLists]
    rintro (⟨h, -⟩ | h)
    · exact hd h
    · exact hcut h
  intro batch hbatch
  cases fuel with
  | zero => simp [listBatches] at hbatch
  | succ fuel =>
    simp only [listBatches] at hbatch
    split at hbatch
    · simp at hbatch
    · rename_i last hlast
      rcases List.mem_cons.mp hbatch with rfl | hlater
      · exact hdmem
      · have hll : l ≤ last :=
          le_of_mem_of_getLast? (pairwise_lt_listKeyEntries _ _ _) hlmem hlast
        intro hdb
        exact lt_irrefl d (lt_of_lt_of_le hdl
          (le_trans hll (le_of_lt (lt_of_mem_listBatches legacy db fuel last batch hlater d hdb))))

end Batch

section CutBatch

/-! A namespace with one more database alias than the query's `LIMIT` and one legacy alias
above all of them.  The aliases are single characters, so that their order is the order of
their code points and every descriptor takes at most 20 bytes. -/

theorem toNat_ofNat_of_lt {n : Nat} (h : n < 0xd800) : (Char.ofNat n).toNat = n := by
  rw [Char.toNat_ofNat, if_pos (Or.inl h)]

theorem singleton_lt_singleton {c d : Char} :
    String.singleton c < String.singleton d ↔ c < d := by
  rw [String.lt_iff_toList_lt, String.toList_singleton, String.toList_singleton,
    List.cons_lt_cons_iff]
  simp

theorem descriptorSize_singleton_le (c : Char) : descriptorSize (String.singleton c) ≤ 20 := by
  have := c.utf8Size_le_four
  simp only [descriptorSize, String.utf8ByteSize_singleton]
  omega

/-- The alias made of the one character U+0100 + i. -/
def charAlias (i : Nat) : String := String.singleton (Char.ofNat (256 + i))

theorem charAlias_lt_charAlias {i j : Nat} (hij : i < j) (hj : j < 0xd700) :
    charAlias i < charAlias j := by
  rw [charAlias, charAlias, singleton_lt_singleton, Char.lt_def,
    UInt32.lt_iff_toNat_lt, Char.toNat_val, Char.toNat_val, toNat_ofNat_of_lt (by omega),
    toNat_ofNat_of_lt (by omega)]
  omega

def cutDbAliases : List String := (List.range 10001).map charAlias

def cutLegacyAliases : List String := [charAlias 20000]

theorem pairwise_lt_cutDbAliases : cutDbAliases.Pairwise (· < ·) := by
  apply List.pairwise_map.mpr
  apply List.pairwise_lt_range.imp_of_mem
  intro i j _ hj hij
  exact charAlias_lt_charAlias hij (by have := List.mem_range.mp hj; omega)

theorem listPastAlias_cutDbAliases :
    listPastAlias cutDbAliases none = (List.range 10000).map charAlias := by
  have hall : cutDbAliases.filter (isPastAlias none) = cutDbAliases :=
    List.filter_eq_self.mpr (fun _ _ => rfl)
  rw [listPastAlias, hall, sortDedup_eq_of_pairwise_lt pairwise_lt_cutDbAliases,
    listPastAliasLimit, cutDbAliases, ← List.map_take, List.take_range]
  rfl

/-- Ten thousand database aliases and the legacy alias fill the first batch, the second
batch starts past the legacy alias, and the database alias cut by the first query's
`LIMIT` is never listed. -/
theorem listBatches_never_lists_cut_alias :
    charAlias 10000 ∈ cutDbAliases ∧
      ∀ fuel, ∀ batch ∈ listBatches cutLegacyAliases cutDbAliases fuel none,
        charAlias 10000 ∉ batch := by
  have hlt : charAlias 10000 < charAlias 20000 := charAlias_lt_charAlias (by omega) (by omega)
  have hcut : charAlias 10000 ∉ listPastAlias cutDbAliases none := by
    rw [listPastAlias_cutDbAliases, List.mem_map]
    rintro ⟨i, hi, heq⟩
    exact ne_of_lt (charAlias_lt_charAlias (List.mem_range.mp hi) (by omega)) heq
  have hsingle : ∀ a ∈ mergeAndFilterKeyEntryLists cutLegacyAliases
      (listPastAlias cutDbAliases none) none, descriptorSize a ≤ 20 := by
    intro a ha
    rcases mem_mergeAndFilterKeyEntryLists.mp ha with ⟨h, -⟩ | h
    · rw [cutLegacyAliases, List.mem_singleton] at h
      rw [h]
      exact descriptorSize_singleton_le _
    · rw [listPastAlias_cutDbAliases, List.mem_map] at h
      obtain ⟨i, -, rfl⟩ := h
      exact descriptorSize_singleton_le _
  have hlength : (mergeAndFilterKeyEntryLists cutLegacyAliases
      (listPastAlias cutDbAliases none) none).length ≤ 10001 := by
    apply le_trans (length_sortDedup_le _)
    -- rewritten by hand: a simp set holding the 10000 aliases costs the kernel seconds
    rw [List.length_append, listPastAlias_cutDbAliases, List.length_map, List.length_range]
    simp [cutLegacyAliases]
  -- the whole first batch fits the response: at most 10001 descriptors of 20 bytes
  have hfit : estimateSafeAmountToReturn (mergeAndFilterKeyEntryLists cutLegacyAliases
        (listPastAlias cutDbAliases none) none) responseSizeLimit =
      (mergeAndFilterKeyEntryLists cutLegacyAliases (listPastAlias cutDbAliases none) none).length := by
    rw [estimateSafeAmountToReturn, estimateSafeAmountToReturn_go_eq _ 0 0 hsingle, Nat.zero_add]
    simp only [responseSizeLimit]
    omega
  have hmem : charAlias 10000 ∈ cutDbAliases :=
    List.mem_map.mpr ⟨10000, List.mem_range.mpr (by omega), rfl⟩
  exact ⟨hmem, fun fuel => listBatches_skips_cut_alias fuel hmem hcut
    (fun h => ne_of_lt hlt (List.mem_singleton.mp h)) List.mem_cons_self hlt hfit⟩

end CutBatch

end Keystore2.ListKeyEntries
