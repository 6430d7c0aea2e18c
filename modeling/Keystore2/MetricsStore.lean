import Keystore2.Lib.CountMap

/-! The in-memory metrics store of keystore (`metrics_store.rs`).  For each atom id it holds a
hash map from atom payloads to the number of times each was logged; statsd pulls the atoms of an
id with their counts.  Statsd tolerates a few hundred atoms of one id, so a map of an id holds at
most `SINGLE_ATOM_STORE_MAX_SIZE` payloads: an insert of an id whose map is full counts the
overflow atom of that id instead, and is lost when the map of overflow atoms is full as well.
Hash maps are association lists, whose order the hash order does not follow: the statements
below are about lookups and membership only.  Counts are `i32` in the source; they are natural
numbers here, which differs only after 2^31 inserts of one atom. -/

namespace Keystore2.Metrics

/-- `AtomID`, the statsd ids of the atoms keystore logs. -/
structure AtomID where
  val : Int32
  deriving DecidableEq, Repr

namespace AtomID

def storageStats : AtomID := ⟨10103⟩
def keyCreationWithGeneralInfo : AtomID := ⟨10118⟩
def keyCreationWithAuthInfo : AtomID := ⟨10119⟩
def keyCreationWithPurposeAndModesInfo : AtomID := ⟨10120⟩
def keystore2AtomWithOverflow : AtomID := ⟨10121⟩
def keyOperationWithPurposeAndModesInfo : AtomID := ⟨10122⟩
def keyOperationWithGeneralInfo : AtomID := ⟨10123⟩
def rkpErrorStats : AtomID := ⟨10124⟩
def crashStats : AtomID := ⟨10125⟩

end AtomID

/-- `KeystoreAtomPayload`.  The store builds two variants itself, the overflow atom of an id and
the crash statistics; the payloads of the other variants, which it only compares, are `α`. -/
inductive KeystoreAtomPayload (α : Type)
  | keystore2AtomWithOverflow (atomId : AtomID)
  | crashStats (countOfCrashEvents : Int32)
  | other (payload : α)
  deriving DecidableEq, Repr

/-- `KeystoreAtom`: a payload and its count. -/
structure KeystoreAtom (α : Type) where
  payload : KeystoreAtomPayload α
  count : Nat
  deriving DecidableEq, Repr

/-- `MetricsStore`: the map behind the mutex. -/
structure MetricsStore (α : Type) [DecidableEq α] where
  metricsStore : AList fun _ : AtomID => CountMap (KeystoreAtomPayload α)

variable {α : Type} [DecidableEq α]

namespace MetricsStore

def singleAtomStoreMaxSize : Nat := 250

instance : EmptyCollection (MetricsStore α) := ⟨⟨∅⟩⟩

/-- `metrics_store.entry(atom_id).or_default()`, the map of an id as it is read. -/
def atomCountMap (store : MetricsStore α) (atomId : AtomID) : CountMap (KeystoreAtomPayload α) :=
  (store.metricsStore.lookup atomId).getD ∅

/-- The count of a payload of an id, zero when it is absent. -/
def countOf (store : MetricsStore α) (atomId : AtomID) (atom : KeystoreAtomPayload α) : Nat :=
  (store.atomCountMap atomId).count atom

/-- `insert_atom`.  The entry of the id is created even when its map is full, and the entry of
the overflow atoms when it is full too. -/
def insertAtom (store : MetricsStore α) (atomId : AtomID) (atom : KeystoreAtomPayload α) :
    MetricsStore α :=
  let atomCountMap := store.atomCountMap atomId
  if atomCountMap.size < singleAtomStoreMaxSize then
    ⟨store.metricsStore.insert atomId (atomCountMap.bump atom)⟩
  else
    let store : MetricsStore α := ⟨store.metricsStore.insert atomId atomCountMap⟩
    let overflowAtomCountMap := store.atomCountMap .keystore2AtomWithOverflow
    if overflowAtomCountMap.size < singleAtomStoreMaxSize then
      ⟨store.metricsStore.insert .keystore2AtomWithOverflow
        (overflowAtomCountMap.bump (.keystore2AtomWithOverflow atomId))⟩
    -- "Maximum storage limit reached for overflow atom."
    else store

/-- `get_atoms`.  The storage statistics are pulled from the database and the crash count read
from a system property; both are given as they come back. -/
def getAtoms (store : MetricsStore α) (pullStorageStats : Except String (List (KeystoreAtom α)))
    (crashCount : Except String (Option Int32)) (atomId : AtomID) :
    Except String (List (KeystoreAtom α)) :=
  if atomId = .storageStats then pullStorageStats
  else if atomId = .crashStats then
    match crashCount with
    -- the count field is left at its default
    | .ok (some count) => pure [⟨.crashStats count, 0⟩]
    | .ok none => throw "Crash count property is not set"
    | .error e => throw e
  else
    pure (((store.metricsStore.lookup atomId).map fun atomCountMap =>
      atomCountMap.entries.map fun e => ⟨e.1, e.2⟩).getD [])

/-- The store after a sequence of `insert_atom` calls. -/
def run (store : MetricsStore α) (inserts : List (AtomID × KeystoreAtomPayload α)) :
    MetricsStore α :=
  inserts.foldl (fun store i => store.insertAtom i.1 i.2) store

/-! ### One insert -/

section Insert

variable (store : MetricsStore α)

/-- The sum of all counts of the store. -/
def total : Nat := store.metricsStore.sumBy fun _ atomCountMap => atomCountMap.total

@[simp] theorem atomCountMap_empty (atomId : AtomID) :
    (∅ : MetricsStore α).atomCountMap atomId = ∅ := rfl

theorem atomCountMap_insert (atomId : AtomID) (m : CountMap (KeystoreAtomPayload α))
    (id : AtomID) :
    (⟨store.metricsStore.insert atomId m⟩ : MetricsStore α).atomCountMap id =
      if id = atomId then m else store.atomCountMap id := by
  by_cases h : id = atomId
  · subst h
    simp [atomCountMap, AList.lookup_insert]
  · simp [atomCountMap, AList.lookup_insert_ne h, h]

/-- Writing back the map of an id as it was read changes no map. -/
theorem atomCountMap_insert_self (atomId id : AtomID) :
    (⟨store.metricsStore.insert atomId (store.atomCountMap atomId)⟩ : MetricsStore α).atomCountMap
      id = store.atomCountMap id := by
  rw [atomCountMap_insert]
  split_ifs with h
  · rw [h]
  · rfl

theorem total_insert (atomId : AtomID) (m : CountMap (KeystoreAtomPayload α)) :
    total ⟨store.metricsStore.insert atomId m⟩ + (store.atomCountMap atomId).total =
      store.total + m.total := by
  have h := AList.sumBy_insert (fun _ atomCountMap => CountMap.total atomCountMap)
    store.metricsStore atomId m
  have hold : ((store.metricsStore.lookup atomId).map CountMap.total).getD 0 =
      (store.atomCountMap atomId).total := by
    unfold atomCountMap
    cases store.metricsStore.lookup atomId <;> rfl
  rw [hold] at h
  exact h

/-- Everything `insert_atom` can do to the map of an id: with room in the map of its id it
bumps the payload there; without, it bumps the overflow atom of its id in the map of overflow
atoms if that has room; otherwise it changes nothing. -/
theorem atomCountMap_insertAtom (atomId : AtomID) (atom : KeystoreAtomPayload α) (id : AtomID) :
    (store.insertAtom atomId atom).atomCountMap id =
      if (store.atomCountMap atomId).size < singleAtomStoreMaxSize then
        if id = atomId then (store.atomCountMap atomId).bump atom else store.atomCountMap id
      else if (store.atomCountMap .keystore2AtomWithOverflow).size < singleAtomStoreMaxSize then
        if id = .keystore2AtomWithOverflow then
          (store.atomCountMap .keystore2AtomWithOverflow).bump (.keystore2AtomWithOverflow atomId)
        else store.atomCountMap id
      else store.atomCountMap id := by
  unfold insertAtom
  dsimp only
  by_cases hroom : (store.atomCountMap atomId).size < singleAtomStoreMaxSize
  · rw [if_pos hroom, if_pos hroom, atomCountMap_insert]
  · -- the map of the id is written back as it was read
    simp only [if_neg hroom, atomCountMap_insert_self]
    by_cases hover : (store.atomCountMap .keystore2AtomWithOverflow).size < singleAtomStoreMaxSize
    · rw [if_pos hover, if_pos hover, atomCountMap_insert, atomCountMap_insert_self]
    · rw [if_neg hover, if_neg hover, atomCountMap_insert_self]

/-- The atoms `get_atoms` reports for an id of the store: the entries of its map. -/
theorem getAtoms_of_ne (pull : Except String (List (KeystoreAtom α)))
    (crash : Except String (Option Int32)) {atomId : AtomID} (hs : atomId ≠ .storageStats)
    (hc : atomId ≠ .crashStats) :
    store.getAtoms pull crash atomId =
      .ok ((store.atomCountMap atomId).entries.map fun e => ⟨e.1, e.2⟩) := by
  unfold getAtoms atomCountMap
  rw [if_neg hs, if_neg hc]
  cases store.metricsStore.lookup atomId <;> rfl

theorem mem_entries_map_iff {m : CountMap (KeystoreAtomPayload α)} {atom : KeystoreAtom α} :
    atom ∈ m.entries.map (fun e => (⟨e.1, e.2⟩ : KeystoreAtom α)) ↔
      atom.payload ∈ m ∧ m.count atom.payload = atom.count := by
  rw [← CountMap.mem_entries_iff, List.mem_map]
  constructor
  · rintro ⟨e, he, rfl⟩
    exact he
  · intro h
    exact ⟨_, h, rfl⟩

end Insert

/-! ### Whole runs -/

section Runs

variable {store : MetricsStore α}

@[simp] theorem run_nil (store : MetricsStore α) : store.run [] = store := rfl

theorem run_cons (store : MetricsStore α) (i : AtomID × KeystoreAtomPayload α)
    (inserts : List (AtomID × KeystoreAtomPayload α)) :
    store.run (i :: inserts) = (store.insertAtom i.1 i.2).run inserts := rfl

/-- What every insert preserves holds after any run of inserts. -/
theorem run_invariant (P : MetricsStore α → Prop)
    (hstep : ∀ s atomId atom, P s → P (s.insertAtom atomId atom)) (h : P store)
    (inserts : List (AtomID × KeystoreAtomPayload α)) : P (store.run inserts) := by
  induction inserts generalizing store with
  | nil => exact h
  | cons i inserts ih => exact ih (hstep _ i.1 i.2 h)

/-- Every map holds at most `SINGLE_ATOM_STORE_MAX_SIZE` payloads. -/
def Bounded (store : MetricsStore α) : Prop :=
  ∀ id, (store.atomCountMap id).size ≤ singleAtomStoreMaxSize

theorem bounded_empty : Bounded (∅ : MetricsStore α) := fun _ => Nat.zero_le _

theorem Bounded.insertAtom (h : store.Bounded) (atomId : AtomID) (atom : KeystoreAtomPayload α) :
    (store.insertAtom atomId atom).Bounded := by
  intro id
  rw [atomCountMap_insertAtom]
  -- a map is only bumped while it has room
  split_ifs with hroom hid hover hid'
  · have := CountMap.size_bump_le (store.atomCountMap atomId) atom
    omega
  · exact h id
  · have := CountMap.size_bump_le (store.atomCountMap .keystore2AtomWithOverflow)
      (.keystore2AtomWithOverflow atomId)
    omega
  · exact h id
  · exact h id

theorem Bounded.run (h : store.Bounded) (inserts : List (AtomID × KeystoreAtomPayload α)) :
    (store.run inserts).Bounded :=
  run_invariant Bounded (fun _ atomId atom hs => hs.insertAtom atomId atom) h inserts

/-- Statsd is never handed more than `SINGLE_ATOM_STORE_MAX_SIZE` atoms of one id: after any
sequence of inserts, `get_atoms` of an id the store holds reports at most that many atoms. -/
theorem getAtoms_run_length_le (inserts : List (AtomID × KeystoreAtomPayload α))
    (pull : Except String (List (KeystoreAtom α))) (crash : Except String (Option Int32))
    {atomId : AtomID} (hs : atomId ≠ .storageStats) (hc : atomId ≠ .crashStats) :
    ∃ atoms, ((∅ : MetricsStore α).run inserts).getAtoms pull crash atomId = .ok atoms ∧
      atoms.length ≤ singleAtomStoreMaxSize := by
  refine ⟨_, getAtoms_of_ne _ pull crash hs hc, ?_⟩
  rw [List.length_map, CountMap.length_entries]
  exact bounded_empty.run inserts atomId

theorem getAtoms_run_length_le_rkpErrorStats :
    AtomID.rkpErrorStats ≠ .storageStats ∧ AtomID.rkpErrorStats ≠ .crashStats ∧
      ∃ atoms, ((∅ : MetricsStore Nat).run [(.rkpErrorStats, .other 1)]).getAtoms (.ok [])
          (.ok none) .rkpErrorStats = .ok atoms ∧ atoms.length ≤ singleAtomStoreMaxSize :=
  ⟨by decide, by decide,
    getAtoms_run_length_le [(.rkpErrorStats, .other 1)] (.ok []) (.ok none) (by decide) (by decide)⟩

/-- While the inserts keep every map below its limit, the store counts each payload of each id
exactly as often as it was inserted: the hypothesis bounds, for each id, the payloads the map
holds together with those the inserts bring. -/
theorem countOf_run {inserts : List (AtomID × KeystoreAtomPayload α)}
    (hroom : ∀ id, ((store.atomCountMap id).keys ++
      (inserts.filter (·.1 = id)).map (·.2)).toFinset.card < singleAtomStoreMaxSize)
    (id : AtomID) (p : KeystoreAtomPayload α) :
    (store.run inserts).countOf id p = store.countOf id p + inserts.count (id, p) := by
  induction inserts generalizing store with
  | nil => simp
  | cons i inserts ih =>
    obtain ⟨a, q⟩ := i
    -- the map of `a` has room: its keys are among the payloads the hypothesis counts
    have hsize : (store.atomCountMap a).size < singleAtomStoreMaxSize := by
      refine lt_of_le_of_lt ?_ (hroom a)
      rw [CountMap.size_eq_card]
      exact Finset.card_le_card fun x hx =>
        List.mem_toFinset.mpr (List.mem_append_left _ (List.mem_toFinset.mp hx))
    have hstep : ∀ id, (store.insertAtom a q).atomCountMap id =
        if id = a then (store.atomCountMap a).bump q else store.atomCountMap id := by
      intro id
      rw [atomCountMap_insertAtom, if_pos hsize]
    rw [run_cons, ih]
    · -- the insert bumps `q` of `a` and nothing else
      simp only [countOf, hstep, List.count_cons, beq_iff_eq, Prod.mk.injEq]
      by_cases ha : id = a
      · subst ha
        rw [if_pos rfl, CountMap.count_bump]
        by_cases hq : p = q
        · simp only [hq, if_true, and_self]
          omega
        · simp [hq, Ne.symm hq]
      · simp [ha, Ne.symm ha]
    · -- the keys after the insert are among those before and the payload inserted
      intro id
      refine lt_of_le_of_lt (Finset.card_le_card fun x hx => List.mem_toFinset.mpr ?_) (hroom id)
      replace hx := List.mem_toFinset.mp hx
      rw [hstep] at hx
      by_cases ha : id = a
      · subst ha
        rw [if_pos rfl, List.mem_append] at hx
        rcases hx with hx | hx
        · rcases List.mem_cons.mp (CountMap.keys_bump_subset _ q hx) with rfl | hx
          · simp
          · exact List.mem_append_left _ hx
        · simp only [List.filter_cons, decide_true, if_true, List.map_cons]
          exact List.mem_append_right _ (List.mem_cons_of_mem _ hx)
      · rw [if_neg ha] at hx
        simpa [List.filter_cons, Ne.symm ha] using hx

/-- Every payload stored has a positive count. -/
def Positive (store : MetricsStore α) : Prop := ∀ id, (store.atomCountMap id).Positive

theorem positive_empty : Positive (∅ : MetricsStore α) := fun _ => CountMap.positive_empty

theorem Positive.insertAtom (h : store.Positive) (atomId : AtomID)
    (atom : KeystoreAtomPayload α) : (store.insertAtom atomId atom).Positive := by
  intro id
  rw [atomCountMap_insertAtom]
  split_ifs
  · exact (h atomId).bump atom
  · exact h id
  · exact (h _).bump _
  · exact h id
  · exact h id

theorem Positive.run (h : store.Positive) (inserts : List (AtomID × KeystoreAtomPayload α)) :
    (store.run inserts).Positive :=
  run_invariant Positive (fun _ atomId atom hs => hs.insertAtom atomId atom) h inserts

theorem atomCountMap_insertAtom_of_full {id : AtomID}
    (hfull : singleAtomStoreMaxSize ≤ (store.atomCountMap id).size) (atomId : AtomID)
    (atom : KeystoreAtomPayload α) :
    (store.insertAtom atomId atom).atomCountMap id = store.atomCountMap id := by
  rw [atomCountMap_insertAtom]
  -- a full map is never the one bumped
  split_ifs with hroom hid hover hid'
  · subst hid
    omega
  · rfl
  · subst hid'
    omega
  · rfl
  · rfl

theorem atomCountMap_run_of_full {id : AtomID}
    (hfull : singleAtomStoreMaxSize ≤ (store.atomCountMap id).size)
    (inserts : List (AtomID × KeystoreAtomPayload α)) :
    (store.run inserts).atomCountMap id = store.atomCountMap id := by
  -- the map of `id` stays the full map it was
  refine run_invariant (fun s => s.atomCountMap id = store.atomCountMap id) ?_ rfl inserts
  intro s atomId atom hs
  have hfull' : singleAtomStoreMaxSize ≤ (s.atomCountMap id).size := by rwa [hs]
  rw [atomCountMap_insertAtom_of_full hfull' atomId atom, hs]

/-- Once the map of an id holds `SINGLE_ATOM_STORE_MAX_SIZE` payloads, `get_atoms` reports the
same atoms with the same counts for that id after any further inserts: from then on an insert
of a payload already stored is not counted either. -/
theorem getAtoms_run_of_full {atomId : AtomID}
    (hfull : singleAtomStoreMaxSize ≤ (store.atomCountMap atomId).size)
    (inserts : List (AtomID × KeystoreAtomPayload α))
    (pull : Except String (List (KeystoreAtom α))) (crash : Except String (Option Int32)) :
    (store.run inserts).getAtoms pull crash atomId = store.getAtoms pull crash atomId := by
  by_cases hs : atomId = .storageStats
  · simp [getAtoms, hs]
  by_cases hc : atomId = .crashStats
  · simp [getAtoms, hc]
  rw [getAtoms_of_ne _ pull crash hs hc, getAtoms_of_ne _ pull crash hs hc,
    atomCountMap_run_of_full hfull]

theorem getAtoms_run_of_full_rkpErrorStats :
    let full : CountMap (KeystoreAtomPayload Nat) :=
      ⟨(List.range 250).map fun i => ⟨.other i, 1⟩, by
        simpa [List.NodupKeys, List.keys, Function.comp_def] using
          List.nodup_range.map fun _ _ h => KeystoreAtomPayload.other.inj h⟩
    let store : MetricsStore Nat := ⟨(∅ : AList _).insert .rkpErrorStats full⟩
    singleAtomStoreMaxSize ≤ (store.atomCountMap .rkpErrorStats).size ∧
      (store.run [(.rkpErrorStats, .other 0)]).getAtoms (.ok []) (.ok none) .rkpErrorStats =
        store.getAtoms (.ok []) (.ok none) .rkpErrorStats :=
  have hfull : singleAtomStoreMaxSize ≤ _ := by
    rw [atomCountMap, AList.lookup_insert]
    simp [CountMap.size, AList.keys, List.keys, singleAtomStoreMaxSize]
  ⟨hfull, getAtoms_run_of_full hfull _ _ _⟩

end Runs

end MetricsStore

end Keystore2.Metrics
