import Keystore2.Database.Blobs
import Mathlib.Data.List.Nodup

/-! The garbage collector of the key database, `GcInternal` in `gc.rs`, and the blob rows it
must leave alone.  A row is `Protected` when it is the newest row of its subcomponent type for
a key entry in state `Existing` or `Live`: the collector may not return it from
`handle_next_superseded_blobs`, pass it to `invalidate_key`, or delete it.

`GcInvariant db held` is what the collector relies on in a state of the database, with `held`
the blob ids it holds: blob ids are unique, a protected row is `Current`, and every id held
names an unprotected key blob.  Every statement of the other operations keeps it, once a new
key entry takes an id that no blob row refers to; the collector's own transaction keeps it
and returns only unprotected key blobs, with either selection query.

The two selection queries do not agree.  `rebind_alias` leaves the old entry `Unreferenced`
without touching its blobs, and `cleanup_unreferenced` then deletes the entry: its key blob
stays `Current` with no entry, which the legacy query returns and the state-column query
never does. -/

namespace Keystore2.Database

open KeystoreDB Table

/-- The collector's own state: the blob ids it is done with, which its next call of
`handle_next_superseded_blobs` deletes, and the superseded blobs it has yet to process. -/
structure GcInternal where
  deletedBlobIds : List Nat
  supersededBlobs : List SupersededBlob

namespace GcInternal

/-- The first part of `process_one_key`: with no superseded blob left, one call of
`handle_next_superseded_blobs` deletes the blobs done with and fetches up to 20 more. -/
def refill (gc : GcInternal) (db : KeystoreDB) (useBlobStateColumn : Bool) :
    GcInternal × KeystoreDB :=
  if gc.supersededBlobs.isEmpty then
    let (blobs, db) := db.handleNextSupersededBlobs useBlobStateColumn gc.deletedBlobIds 20
    (⟨[], blobs⟩, db)
  else (gc, db)

/-- The second part: `Vec::pop` takes the last superseded blob, and its id joins the deleted
ids before KeyMint is asked to delete the key, so that the row goes whether or not that
succeeds. -/
def pop (gc : GcInternal) : GcInternal × Option SupersededBlob :=
  match gc.supersededBlobs.getLast? with
  | some b => (⟨gc.deletedBlobIds ++ [b.blobId], gc.supersededBlobs.dropLast⟩, some b)
  | none => (gc, none)

/-- `process_one_key`, with the blob it popped.  That blob is the one passed to
`invalidate_key`, after `unwrap_key_if_required`, when its metadata names a KeyMint
instance; an error of either call leaves the collector as it is after the pop. -/
def processOneKey (gc : GcInternal) (db : KeystoreDB) (useBlobStateColumn : Bool) :
    GcInternal × KeystoreDB × Option SupersededBlob :=
  let (gc, db) := gc.refill db useBlobStateColumn
  let (gc, popped) := gc.pop
  (gc, db, popped)

/-- The blob ids the collector holds: returned by `handle_next_superseded_blobs` and not yet
deleted. -/
def pending (gc : GcInternal) : List Nat :=
  gc.deletedBlobIds ++ gc.supersededBlobs.map (·.blobId)

/-- The pop moves a blob from the superseded blobs to the deleted ids. -/
theorem mem_pending_pop {gc : GcInternal} {i : Nat} : i ∈ gc.pop.1.pending ↔ i ∈ gc.pending := by
  unfold pop
  split
  · rename_i b hb
    have hsplit := List.dropLast_append_getLast? b hb
    simp only [pending]
    conv => rhs; rw [← hsplit]
    simp only [List.map_append, List.map_cons, List.map_nil, List.mem_append, List.mem_singleton]
    tauto
  · rfl

/-- Every blob the collector holds after a pop, the popped one among them, is pending. -/
theorem blobId_mem_pending_pop {gc : GcInternal} {sb : SupersededBlob}
    (h : sb ∈ gc.pop.1.supersededBlobs ++ gc.pop.2.toList) : sb.blobId ∈ gc.pop.1.pending := by
  unfold pop at h ⊢
  split
  · rename_i b hb
    rw [hb] at h
    simp only [pending, List.mem_append, List.mem_map, List.mem_singleton]
    simp only [Option.toList_some, List.mem_append, List.mem_singleton] at h
    rcases h with h | rfl
    · exact Or.inr ⟨sb, h, rfl⟩
    · exact Or.inl (Or.inr rfl)
  · rename_i hb
    rw [hb] at h
    simp only [Option.toList_none, List.append_nil] at h
    exact List.mem_append_right _ (List.mem_map_of_mem h)

end GcInternal

/-- The group of a blob row: its key and subcomponent type. -/
def BlobEntryRow.slot (b : BlobEntryRow) : Int64 × SubComponentType :=
  (b.keyentryid, b.subcomponentType)

/-- A key entry of this id exists, in state `Existing` or `Live`. -/
def KeyExists (keyentry : List KeyEntryRow) (keyId : Int64) : Prop :=
  ∃ k ∈ keyentry, k.id = keyId ∧ (k.state = .existing ∨ k.state = .live)

/-- A blob row the collector must leave alone: the newest of its key and subcomponent type,
for a key entry in state `Existing` or `Live`. -/
def Protected (db : KeystoreDB) (b : BlobEntryRow) : Prop :=
  Newest BlobEntryRow.id BlobEntryRow.slot db.blobentry b ∧ KeyExists db.keyentry b.keyentryid

instance {keyentry : List KeyEntryRow} {keyId : Int64} : Decidable (KeyExists keyentry keyId) :=
  inferInstanceAs (Decidable (∃ k ∈ keyentry, _))

instance {db : KeystoreDB} {b : BlobEntryRow} : Decidable (Protected db b) :=
  inferInstanceAs (Decidable (_ ∧ _))

section KeyExists

variable {t : List KeyEntryRow} {keyId : Int64}

theorem KeyExists.of_delete {p : KeyEntryRow → Bool} (h : KeyExists (delete p t) keyId) :
    KeyExists t keyId := by
  obtain ⟨k, hk, hid, hs⟩ := h
  exact ⟨k, (mem_delete.1 hk).1, hid, hs⟩

/-- An update keeps no entry alive that was not: it keeps ids, and a row it leaves `Existing`
or `Live` was so before. -/
theorem KeyExists.of_update {p : KeyEntryRow → Bool} {f : KeyEntryRow → KeyEntryRow}
    (hf : ∀ k ∈ t, p k = true → (f k).id = k.id ∧
      ((f k).state = .existing ∨ (f k).state = .live → k.state = .existing ∨ k.state = .live))
    (h : KeyExists (update p f t) keyId) : KeyExists t keyId := by
  obtain ⟨k', hk', hid, hs⟩ := h
  obtain ⟨k, hk, rfl⟩ := mem_update.1 hk'
  by_cases hp : p k = true
  · rw [if_pos hp] at hid hs
    obtain ⟨hfid, hfs⟩ := hf k hk hp
    exact ⟨k, hk, hfid ▸ hid, hfs hs⟩
  · rw [if_neg hp] at hid hs
    exact ⟨k, hk, hid, hs⟩

theorem KeyExists.of_append_singleton {k : KeyEntryRow} (h : KeyExists (t ++ [k]) keyId)
    (hne : keyId ≠ k.id) : KeyExists t keyId := by
  obtain ⟨k', hk', hid, hs⟩ := h
  rcases List.mem_append.1 hk' with hk' | hk'
  · exact ⟨k', hk', hid, hs⟩
  · rw [List.mem_singleton.1 hk'] at hid
    exact absurd hid.symm hne

theorem KeyExists.any (h : KeyExists t keyId) : t.any (·.id == keyId) = true := by
  obtain ⟨k, hk, hid, -⟩ := h
  exact List.any_eq_true.2 ⟨k, hk, by simp [hid]⟩

/-- `cleanup_unreferenced` deletes no entry that exists. -/
theorem KeyExists.cleanupUnreferenced {db : KeystoreDB} (h : KeyExists db.keyentry keyId) :
    KeyExists db.cleanupUnreferenced.keyentry keyId := by
  obtain ⟨k, hk, hid, hs⟩ := h
  refine ⟨k, mem_delete.2 ⟨hk, ?_⟩, hid, hs⟩
  rcases hs with hs | hs <;> simp [hs]

end KeyExists

/-- A key blob is among the group maxima of a set of rows that holds it as its newest. -/
theorem id_mem_groupMaxIds {rows : List BlobEntryRow} {b : BlobEntryRow} (hb : b ∈ rows)
    (hn : Newest BlobEntryRow.id BlobEntryRow.slot rows b) : b.id ∈ groupMaxIds rows := by
  refine List.mem_map.2 ⟨b, List.mem_filter.2 ⟨hb, List.all_eq_true.2 fun c hc => ?_⟩, rfl⟩
  by_cases hs : c.slot = b.slot
  · simp [hn c hc hs]
  · simp only [BlobEntryRow.slot, Prod.mk.injEq, not_and] at hs
    by_cases hk : c.keyentryid = b.keyentryid
    · simp [hk, hs hk]
    · simp [hk]

/-- A row whose id is a group maximum is the newest of its group, when ids are unique. -/
theorem newest_of_id_mem_groupMaxIds {rows : List BlobEntryRow} {b : BlobEntryRow}
    (hnodup : (rows.map (·.id)).Nodup) (hb : b ∈ rows) (hmax : b.id ∈ groupMaxIds rows) :
    Newest BlobEntryRow.id BlobEntryRow.slot rows b := by
  obtain ⟨b', hb', hid⟩ := List.mem_map.1 hmax
  obtain ⟨hb'', hall⟩ := List.mem_filter.1 hb'
  rw [← List.inj_on_of_nodup_map hnodup hb'' hb hid]
  intro c hc hslot
  have hc' := List.all_eq_true.1 hall c hc
  simp only [BlobEntryRow.slot, Prod.mk.injEq] at hslot
  simpa [hslot.1, hslot.2] using hc'

/-- What the collector relies on in a state of the database, with `held` the blob ids it
holds. -/
structure GcInvariant (db : KeystoreDB) (held : List Nat) : Prop where
  idsNodup : (db.blobentry.map (·.id)).Nodup
  protectedCurrent : ∀ b ∈ db.blobentry, Protected db b → b.state = .current
  heldUnprotected : ∀ i ∈ held, ∃ b ∈ db.blobentry, b.id = i ∧
    b.subcomponentType = .keyBlob ∧ ¬Protected db b

namespace GcInvariant

variable {db db' : KeystoreDB} {held : List Nat}

theorem empty : GcInvariant {} [] where
  idsNodup := List.nodup_nil
  protectedCurrent := fun _ hb => nomatch hb
  heldUnprotected := fun _ hi => nomatch hi

theorem eq_of_id_eq (h : GcInvariant db held) {b c : BlobEntryRow} (hb : b ∈ db.blobentry)
    (hc : c ∈ db.blobentry) (hid : b.id = c.id) : b = c :=
  List.inj_on_of_nodup_map h.idsNodup hb hc hid

/-- The collector may hold fewer ids. -/
theorem mono (h : GcInvariant db held) {held' : List Nat} (hsub : ∀ i ∈ held', i ∈ held) :
    GcInvariant db held' where
  idsNodup := h.idsNodup
  protectedCurrent := h.protectedCurrent
  heldUnprotected := fun i hi => h.heldUnprotected i (hsub i hi)

/-- The collector takes hold of unprotected key blobs. -/
theorem hold (h : GcInvariant db []) {held' : List Nat}
    (hheld : ∀ i ∈ held', ∃ b ∈ db.blobentry, b.id = i ∧ b.subcomponentType = .keyBlob ∧
      ¬Protected db b) : GcInvariant db held' where
  idsNodup := h.idsNodup
  protectedCurrent := h.protectedCurrent
  heldUnprotected := hheld

/-- The row a held id names is not protected. -/
theorem not_protected_of_held (h : GcInvariant db held) {b : BlobEntryRow}
    (hb : b ∈ db.blobentry) (hi : b.id ∈ held) : ¬Protected db b := by
  obtain ⟨c, hc, hid, -, hnp⟩ := h.heldUnprotected b.id hi
  rw [h.eq_of_id_eq hb hc hid.symm]
  exact hnp

/-- A step of another operation keeps the invariant when it keeps ids unique and every key
blob, and each row it leaves protected was protected before, or is a new `Current` row. -/
theorem of_back (h : GcInvariant db held) (hnodup : (db'.blobentry.map (·.id)).Nodup)
    (hback : ∀ b ∈ db'.blobentry, Protected db' b →
      (b.state = .current ∧ b.id ∉ db.blobentry.map (·.id)) ∨ (b ∈ db.blobentry ∧ Protected db b))
    (hkept : ∀ b ∈ db.blobentry, b.id ∈ held → b.subcomponentType = .keyBlob →
      ∃ b' ∈ db'.blobentry, b'.id = b.id ∧ b'.subcomponentType = .keyBlob) :
    GcInvariant db' held where
  idsNodup := hnodup
  protectedCurrent := by
    intro b hb hp
    rcases hback b hb hp with ⟨hcur, -⟩ | ⟨hb', hp'⟩
    · exact hcur
    · exact h.protectedCurrent b hb' hp'
  heldUnprotected := by
    intro i hi
    obtain ⟨b, hb, rfl, hkb, hnp⟩ := h.heldUnprotected i hi
    obtain ⟨b', hb', hid, hkb'⟩ := hkept b hb hi hkb
    refine ⟨b', hb', hid, hkb', fun hp => ?_⟩
    rcases hback b' hb' hp with ⟨-, hnew⟩ | ⟨hb'', hp'⟩
    · exact hnew (List.mem_map.2 ⟨b, hb, hid.symm⟩)
    · rw [h.eq_of_id_eq hb'' hb hid] at hp'
      exact hnp hp'

/-- A step that keeps the blob table and makes no entry of a blob's key exist anew keeps the
invariant. -/
theorem of_keys (h : GcInvariant db held) (hb : db'.blobentry = db.blobentry)
    (hk : ∀ b ∈ db.blobentry, KeyExists db'.keyentry b.keyentryid →
      KeyExists db.keyentry b.keyentryid) : GcInvariant db' held := by
  apply h.of_back
  · rw [hb]
    exact h.idsNodup
  · intro b hb' hp
    rw [hb] at hb'
    refine Or.inr ⟨hb', ?_, hk b hb' hp.2⟩
    rw [← hb]
    exact hp.1
  · intro b hb' _ hkb
    exact ⟨b, hb ▸ hb', rfl, hkb⟩

theorem of_frame (h : GcInvariant db held) (hb : db'.blobentry = db.blobentry)
    (hk : db'.keyentry = db.keyentry) : GcInvariant db' held :=
  h.of_keys hb fun _ _ h' => hk ▸ h'

/-- A new key entry keeps the invariant when no blob row refers to its id. -/
theorem of_append_key (h : GcInvariant db held) {k : KeyEntryRow}
    (hb : db'.blobentry = db.blobentry) (hk : db'.keyentry = db.keyentry ++ [k])
    (hfresh : k.id ∉ db.blobentry.map (·.keyentryid)) : GcInvariant db' held := by
  apply h.of_keys hb
  intro b hb' he
  rw [hk] at he
  apply he.of_append_singleton
  intro hid
  exact hfresh (List.mem_map.2 ⟨b, hb', hid⟩)

/-- A row left by a delete is protected only if it was, when every row deleted was not
protected or went with its whole group. -/
theorem protected_of_delete {q : BlobEntryRow → Bool}
    (hb : db'.blobentry = delete q db.blobentry)
    (hk : ∀ keyId, KeyExists db'.keyentry keyId → KeyExists db.keyentry keyId)
    (hq : ∀ m ∈ db.blobentry, q m = true →
      ¬Protected db m ∨ ∀ c ∈ db.blobentry, c.slot = m.slot → q c = true)
    {b : BlobEntryRow} (hb' : b ∈ db'.blobentry) (hp : Protected db' b) : Protected db b := by
  rw [hb] at hb'
  have hke := hk _ hp.2
  refine ⟨?_, hke⟩
  have hn := hp.1
  rw [hb] at hn
  apply hn.of_delete
  intro m hm hslot hnm
  cases hqm : q m
  · rfl
  · rcases hq m hm hqm with hnp | hall
    · have hkey : m.keyentryid = b.keyentryid := congrArg Prod.fst hslot
      rw [← hkey] at hke
      exact absurd ⟨hnm, hke⟩ hnp
    · exact absurd (hall b (mem_delete.1 hb').1 hslot.symm) (by simp [(mem_delete.1 hb').2])

/-- A delete keeps the invariant when every row deleted was not protected or went with its
whole group, and no held key blob is deleted. -/
theorem of_delete (h : GcInvariant db held) {q : BlobEntryRow → Bool}
    (hb : db'.blobentry = delete q db.blobentry)
    (hk : ∀ keyId, KeyExists db'.keyentry keyId → KeyExists db.keyentry keyId)
    (hq : ∀ m ∈ db.blobentry, q m = true →
      ¬Protected db m ∨ ∀ c ∈ db.blobentry, c.slot = m.slot → q c = true)
    (hkept : ∀ b ∈ db.blobentry, b.id ∈ held → b.subcomponentType = .keyBlob → q b = false) :
    GcInvariant db' held := by
  apply h.of_back
  · rw [hb]
    exact h.idsNodup.sublist (delete_sublist.map _)
  · intro b hb' hp
    refine Or.inr ⟨?_, protected_of_delete hb hk hq hb' hp⟩
    rw [hb] at hb'
    exact (mem_delete.1 hb').1
  · intro b hb' hi hkb
    exact ⟨b, hb ▸ mem_delete.2 ⟨hb', hkept b hb' hi hkb⟩, rfl, hkb⟩

end GcInvariant

section Steps

variable {db db' : KeystoreDB} {held : List Nat} {keyId : Int64} {scType : SubComponentType}

/-- `set_blob_internal` on the blob table: with a blob, the rows of the key and type are
superseded and the new row takes `MAX(id) + 1`; without one, the rows of a certificate type
are deleted. -/
theorem setBlobInternal_blobentry {blob : Option (List UInt8)}
    {blobMetadata : Option BlobMetaData}
    (h : db.setBlobInternal keyId scType blob blobMetadata = .ok db') :
    (∃ bl, db'.blobentry = update (fun b => b.keyentryid == keyId && b.subcomponentType == scType)
        (fun b => { b with state := .superseded }) db.blobentry ++
        [⟨maxRowid db.blobentry + 1, scType, keyId, bl, .current⟩]) ∨
      (scType ≠ .keyBlob ∧ db'.blobentry =
        delete (fun b => b.subcomponentType == scType && b.keyentryid == keyId) db.blobentry) := by
  cases blob with
  | some bl =>
    refine Or.inl ⟨bl, ?_⟩
    unfold setBlobInternal at h
    dsimp only at h
    rw [maxRowid_update] at h
    · split at h <;>
      · rw [Except.pure_eq_ok] at h
        rw [← h]
    · intro b
      rfl
  | none =>
    cases scType with
    | keyBlob => exact absurd h Except.throw_ne_ok
    | cert | certChain =>
      simp only [setBlobInternal, Except.pure_eq_ok] at h
      exact Or.inr ⟨by decide, by rw [← h]⟩

/-- The row appended by `set_blob_internal` leaves no older row of its group newest. -/
theorem not_newest_of_superseded {t : List BlobEntryRow} {n b : BlobEntryRow}
    (hn : n.id = maxRowid t + 1) (hb : b ∈ t) (hslot : n.slot = b.slot) :
    ¬Newest BlobEntryRow.id BlobEntryRow.slot (t ++ [n]) b := by
  intro hnew
  have hle := (newest_append_singleton.1 hnew).2 hslot
  have hlt := le_maxRowid hb
  omega

theorem GcInvariant.setBlobInternal (h : GcInvariant db held) {blob : Option (List UInt8)}
    {blobMetadata : Option BlobMetaData}
    (hs : db.setBlobInternal keyId scType blob blobMetadata = .ok db') : GcInvariant db' held := by
  have hk := (setBlobInternal_frame hs).1
  rcases setBlobInternal_blobentry hs with ⟨bl, hb⟩ | ⟨hsc, hb⟩
  · -- The old rows keep their ids; the new one is above them all.
    have hupd : (update (fun b => b.keyentryid == keyId && b.subcomponentType == scType)
        (fun b => { b with state := .superseded }) db.blobentry).map (·.id) =
        db.blobentry.map (·.id) := by
      apply map_update
      intro b
      rfl
    have hmax : maxRowid (update (fun b => b.keyentryid == keyId && b.subcomponentType == scType)
        (fun b => { b with state := .superseded }) db.blobentry) = maxRowid db.blobentry := by
      apply maxRowid_update
      intro b
      rfl
    have hfresh : maxRowid db.blobentry + 1 ∉ db.blobentry.map (·.id) := by
      intro hm
      obtain ⟨c, hc, hid⟩ := List.mem_map.1 hm
      have := le_maxRowid hc
      omega
    apply h.of_back
    · rw [hb, List.map_append, hupd]
      refine List.nodup_append.2 ⟨h.idsNodup, List.nodup_singleton _,
        fun a ha c hc he => ?_⟩
      rw [List.mem_singleton.1 hc] at he
      rw [he] at ha
      exact hfresh ha
    · intro b hb' hp
      rw [hb] at hb'
      rcases List.mem_append.1 hb' with hb' | hb'
      · obtain ⟨r, hr, rfl⟩ := mem_update.1 hb'
        right
        by_cases hpr : (r.keyentryid == keyId && r.subcomponentType == scType) = true
        · -- A superseded row is below the new one.
          exfalso
          rw [if_pos hpr] at hp hb'
          have hn := hp.1
          rw [hb] at hn
          apply not_newest_of_superseded _ hb' _ hn
          · rw [hmax]
          · simp only [Bool.and_eq_true, beq_iff_eq] at hpr
            simp [BlobEntryRow.slot, hpr]
        · rw [if_neg hpr] at hp ⊢
          refine ⟨hr, ?_, hk ▸ hp.2⟩
          have hn := hp.1
          rw [hb] at hn
          have hnu : Newest BlobEntryRow.id BlobEntryRow.slot (update
              (fun b => b.keyentryid == keyId && b.subcomponentType == scType)
              (fun b => { b with state := .superseded }) db.blobentry) r ↔
              Newest BlobEntryRow.id BlobEntryRow.slot db.blobentry r := by
            apply newest_update <;>
            · intro b
              rfl
          exact hnu.1 (newest_append_singleton.1 hn).1
      · rw [List.mem_singleton.1 hb']
        exact Or.inl ⟨rfl, hfresh⟩
    · intro b hb' _ hkb
      refine ⟨if (b.keyentryid == keyId && b.subcomponentType == scType) then
        { b with state := .superseded } else b, ?_, ?_, ?_⟩
      · rw [hb]
        exact List.mem_append_left _ (mem_update_of_mem hb')
      · split <;> rfl
      · split <;> exact hkb
  · apply h.of_delete hb (fun _ he => hk ▸ he)
    · intro m _ hqm
      right
      intro c _ hslot
      simp only [BlobEntryRow.slot, Prod.mk.injEq] at hslot
      simpa [hslot.1, hslot.2] using hqm
    · intro b _ _ hkb
      simp [hkb, Ne.symm hsc]

theorem GcInvariant.markUnreferenced (h : GcInvariant db held) (keyId : Int64) :
    GcInvariant (db.markUnreferenced keyId).2 held := by
  have hids : (db.markUnreferenced keyId).2.blobentry.map (·.id) = db.blobentry.map (·.id) := by
    apply map_update
    intro b
    rfl
  apply h.of_back
  · rw [hids]
    exact h.idsNodup
  · intro b hb hp
    right
    obtain ⟨r, hr, rfl⟩ := mem_update.1 hb
    by_cases hpr : (r.keyentryid == keyId) = true
    · -- No entry of the unbound key is left to protect its orphaned rows.
      exfalso
      rw [if_pos hpr] at hp
      obtain ⟨k, hk, hid, -⟩ := hp.2
      have hkd := (mem_delete.1 hk).2
      simp only [beq_iff_eq] at hpr
      simp [hid, hpr] at hkd
    · rw [if_neg hpr] at hp ⊢
      have hnu : Newest BlobEntryRow.id BlobEntryRow.slot (update (·.keyentryid == keyId)
          (fun b => { b with state := .orphaned }) db.blobentry) r ↔
          Newest BlobEntryRow.id BlobEntryRow.slot db.blobentry r := by
        apply newest_update <;>
        · intro b
          rfl
      exact ⟨hr, hnu.1 hp.1, KeyExists.of_delete hp.2⟩
  · intro b hb _ hkb
    refine ⟨if (b.keyentryid == keyId) then { b with state := .orphaned } else b,
      mem_update_of_mem hb, ?_, ?_⟩
    · split <;> rfl
    · split <;> exact hkb

theorem GcInvariant.foldl_markUnreferenced (h : GcInvariant db held) (keyIds : List Int64) :
    GcInvariant (keyIds.foldl (fun db keyId => (db.markUnreferenced keyId).2) db) held := by
  induction keyIds generalizing db with
  | nil => exact h
  | cons keyId keyIds ih => exact ih (h.markUnreferenced keyId)

end Steps

section Collector

variable {db : KeystoreDB} {held : List Nat}

theorem foldl_deleteBlob_blobentry (ids : List Nat) (db : KeystoreDB) :
    (ids.foldl deleteBlob db).blobentry = delete (fun b => ids.contains b.id) db.blobentry := by
  induction ids generalizing db with
  | nil => simp [delete]
  | cons i ids ih =>
    rw [List.foldl_cons, ih]
    simp only [deleteBlob, delete, List.filter_filter, List.contains_cons]
    apply List.filter_congr
    intro b _
    simp [Bool.and_comm]

/-- A key blob the state-column query selects is not protected: a protected row is
`Current`. -/
theorem GcInvariant.mem_supersededKeyBlobsV2 (h : GcInvariant db held) {b : BlobEntryRow}
    (hb : b ∈ db.supersededKeyBlobsV2) :
    b ∈ db.blobentry ∧ b.subcomponentType = .keyBlob ∧ ¬Protected db b := by
  obtain ⟨hb, hsel⟩ := List.mem_filter.1 hb
  simp only [Bool.and_eq_true, beq_iff_eq, bne_iff_ne, ne_eq] at hsel
  exact ⟨hb, hsel.1, fun hp => hsel.2 (h.protectedCurrent b hb hp)⟩

/-- A key blob the legacy query selects is not protected: it is not the newest of its key,
or its key has no entry. -/
theorem mem_supersededKeyBlobsV1 {b : BlobEntryRow} (hb : b ∈ db.supersededKeyBlobsV1) :
    b ∈ db.blobentry ∧ b.subcomponentType = .keyBlob ∧ ¬Protected db b := by
  obtain ⟨hkb, hsel⟩ := List.mem_filter.1 hb
  obtain ⟨hb, htype⟩ := List.mem_filter.1 hkb
  refine ⟨hb, by simpa using htype, fun hp => ?_⟩
  have hmax := id_mem_groupMaxIds hkb (hp.1.sublist List.filter_sublist)
  have hany := hp.2.any
  simp [hmax, hany] at hsel

/-- `handle_next_superseded_blobs` called with the ids the collector holds, statement by
statement: the held rows go, then the unreferenced entries; then either a batch of
unprotected key blobs is returned, or there is none and rows are deleted none of which is a
key blob or protected. -/
theorem GcInvariant.handleNextSupersededBlobs_spec (h : GcInvariant db held)
    (useBlobStateColumn : Bool) (maxBlobs : Nat) :
    GcInvariant (held.foldl deleteBlob db).cleanupUnreferenced [] ∧
      ((∀ sb ∈ (db.handleNextSupersededBlobs useBlobStateColumn held maxBlobs).1,
          ∃ b ∈ (held.foldl deleteBlob db).cleanupUnreferenced.blobentry, b.id = sb.blobId ∧
            b.subcomponentType = .keyBlob ∧ ¬Protected (held.foldl deleteBlob db).cleanupUnreferenced b) ∧
        (db.handleNextSupersededBlobs useBlobStateColumn held maxBlobs).2 =
          (held.foldl deleteBlob db).cleanupUnreferenced ∨
      (db.handleNextSupersededBlobs useBlobStateColumn held maxBlobs).1 = [] ∧
        ∃ q : BlobEntryRow → Bool,
          (db.handleNextSupersededBlobs useBlobStateColumn held maxBlobs).2 =
            { (held.foldl deleteBlob db).cleanupUnreferenced with
              blobentry := delete q (held.foldl deleteBlob db).cleanupUnreferenced.blobentry } ∧
          ∀ b ∈ (held.foldl deleteBlob db).cleanupUnreferenced.blobentry, q b = true →
            b.subcomponentType ≠ .keyBlob ∧ ¬Protected (held.foldl deleteBlob db).cleanupUnreferenced b) := by
  -- The held rows are unprotected, so deleting them protects nothing anew.
  have h₁ : GcInvariant (held.foldl deleteBlob db) [] := by
    have h₀ : GcInvariant db [] := h.mono fun _ hi => nomatch hi
    apply h₀.of_delete (foldl_deleteBlob_blobentry held db)
    · intro keyId he
      rw [(foldl_deleteBlob_frame db held).1] at he
      exact he
    · intro m hm hq
      exact Or.inl (h.not_protected_of_held hm (List.contains_iff_mem.1 hq))
    · intro b _ hi
      nomatch hi
  have h₂ : GcInvariant (held.foldl deleteBlob db).cleanupUnreferenced [] :=
    h₁.of_keys rfl fun _ _ he => KeyExists.of_delete he
  refine ⟨h₂, ?_⟩
  -- Either query selects only unprotected key blobs.
  have hsel₂ : ∀ b ∈ (held.foldl deleteBlob db).cleanupUnreferenced.supersededKeyBlobsV2.take
      maxBlobs, b ∈ (held.foldl deleteBlob db).cleanupUnreferenced.blobentry ∧
        b.subcomponentType = .keyBlob ∧ ¬Protected (held.foldl deleteBlob db).cleanupUnreferenced b :=
    fun b hb => h₂.mem_supersededKeyBlobsV2 (List.mem_of_mem_take hb)
  have hsel₁ : ∀ b ∈ (held.foldl deleteBlob db).cleanupUnreferenced.supersededKeyBlobsV1.take
      maxBlobs, b ∈ (held.foldl deleteBlob db).cleanupUnreferenced.blobentry ∧
        b.subcomponentType = .keyBlob ∧ ¬Protected (held.foldl deleteBlob db).cleanupUnreferenced b :=
    fun b hb => mem_supersededKeyBlobsV1 (List.mem_of_mem_take hb)
  unfold handleNextSupersededBlobs
  dsimp only
  split_ifs with hu hne hne
  · -- A batch by the state column.
    refine Or.inl ⟨?_, rfl⟩
    intro sb hsb
    obtain ⟨b, hb, rfl⟩ := List.mem_map.1 hsb
    obtain ⟨hb', hkb, hnp⟩ := hsel₂ b hb
    exact ⟨b, hb', rfl, hkb, hnp⟩
  · -- No batch: the other rows that are not `Current` go, and a protected row is `Current`.
    refine Or.inr ⟨rfl, _, rfl, ?_⟩
    intro b hb hq
    simp only [Bool.and_eq_true, bne_iff_ne, ne_eq] at hq
    exact ⟨hq.1, fun hp => hq.2 (h₂.protectedCurrent b hb hp)⟩
  · -- A batch by the legacy query.
    refine Or.inl ⟨?_, rfl⟩
    intro sb hsb
    obtain ⟨b, hb, rfl⟩ := List.mem_map.1 hsb
    obtain ⟨hb', hkb, hnp⟩ := hsel₁ b hb
    exact ⟨b, hb', rfl, hkb, hnp⟩
  · -- No batch: the other rows that are not the newest of their group, or of no entry, go.
    refine Or.inr ⟨rfl, _, rfl, ?_⟩
    intro b hb hq
    simp only [Bool.and_eq_true, bne_iff_ne, ne_eq] at hq
    refine ⟨hq.1, fun hp => ?_⟩
    have hbo : b ∈ (held.foldl deleteBlob db).cleanupUnreferenced.blobentry.filter
        (·.subcomponentType != .keyBlob) := List.mem_filter.2 ⟨hb, by simpa using hq.1⟩
    have hmax := id_mem_groupMaxIds hbo (hp.1.sublist List.filter_sublist)
    simp [hmax, hp.2.any] at hq

/-- The collector's transaction keeps the invariant, and the collector then holds the batch
it returned. -/
theorem GcInvariant.handleNextSupersededBlobs (h : GcInvariant db held)
    (useBlobStateColumn : Bool) (maxBlobs : Nat) :
    GcInvariant (db.handleNextSupersededBlobs useBlobStateColumn held maxBlobs).2
      ((db.handleNextSupersededBlobs useBlobStateColumn held maxBlobs).1.map (·.blobId)) := by
  rcases h.handleNextSupersededBlobs_spec useBlobStateColumn maxBlobs with
    ⟨h₂, ⟨hbatch, heq⟩ | ⟨hnil, q, heq, hq⟩⟩
  · rw [heq]
    apply h₂.hold
    intro i hi
    obtain ⟨sb, hsb, rfl⟩ := List.mem_map.1 hi
    exact hbatch sb hsb
  · rw [hnil, heq, List.map_nil]
    refine h₂.of_delete (show _ = delete q _ from rfl) (fun _ he => he) ?_ ?_
    · intro m hm hqm
      exact Or.inl (hq m hm hqm).2
    · intro b _ hi
      nomatch hi

/-- Every row the collector's transaction deletes was unprotected, and a deleted key blob was
one the collector held. -/
theorem GcInvariant.handleNextSupersededBlobs_deleted (h : GcInvariant db held)
    (useBlobStateColumn : Bool) (maxBlobs : Nat) {b : BlobEntryRow} (hb : b ∈ db.blobentry)
    (hgone : b.id ∉ (db.handleNextSupersededBlobs useBlobStateColumn held maxBlobs).2.blobentry.map
      (·.id)) :
    ¬Protected db b ∧ (b.subcomponentType = .keyBlob → b.id ∈ held) := by
  by_cases hi : b.id ∈ held
  · exact ⟨h.not_protected_of_held hb hi, fun _ => hi⟩
  -- Otherwise the row outlived the first delete, and the second deleted it.
  have hb₂ : b ∈ (held.foldl deleteBlob db).cleanupUnreferenced.blobentry := by
    show b ∈ (held.foldl deleteBlob db).blobentry
    rw [foldl_deleteBlob_blobentry]
    exact mem_delete.2 ⟨hb, by simpa using hi⟩
  rcases h.handleNextSupersededBlobs_spec useBlobStateColumn maxBlobs with
    ⟨-, ⟨-, heq⟩ | ⟨-, q, heq, hq⟩⟩
  · rw [heq] at hgone
    exact absurd (List.mem_map_of_mem hb₂) hgone
  · rw [heq] at hgone
    have hqb : q b = true := by
      by_contra hqb
      exact hgone (List.mem_map_of_mem (mem_delete.2 ⟨hb₂, by simpa using hqb⟩))
    obtain ⟨hkb, hnp⟩ := hq b hb₂ hqb
    refine ⟨fun hp => hnp ⟨?_, ?_⟩, fun h' => absurd h' hkb⟩
    · show Newest BlobEntryRow.id BlobEntryRow.slot (held.foldl deleteBlob db).blobentry b
      rw [foldl_deleteBlob_blobentry]
      exact hp.1.sublist delete_sublist
    · show KeyExists (delete _ (held.foldl deleteBlob db).keyentry) b.keyentryid
      rw [(foldl_deleteBlob_frame db held).1]
      exact hp.2.cleanupUnreferenced

end Collector

end Keystore2.Database
