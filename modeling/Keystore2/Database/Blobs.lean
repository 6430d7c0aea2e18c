import Keystore2.Database.Access

/-! How the blob tables answer a load.  A new blob row takes the rowid one above the largest,
so it is the newest row of its key and subcomponent type, and `load_blob_components` returns
it.  Its metadata is what `store_in_db` wrote, provided no row of `blobmetadata` was already
filed under that rowid.  That proviso can fail: `set_blob` with no blob deletes the
certificate rows of a key but not their metadata, so the next blob takes a freed rowid and
loads that metadata as its own. -/

namespace Keystore2.Database

open KeystoreDB Table MetaEntry

namespace Metadata

variable {E K : Type} [MetaEntry E] [DecidableEq K]

theorem get_new (tag : Int64) : (new : Metadata E).get tag = none := rfl

/-- The entry under a tag after `add`: the added one if it has the tag, and otherwise the one
that was there. -/
theorem get_add (m : Metadata E) (entry : E) (tag : Int64) :
    (m.add entry).get tag = if dbTag entry = tag then some entry else m.get tag := by
  by_cases h : dbTag entry = tag
  · simp [get, add, h]
  · -- The filter drops only entries of another tag than the one looked up.
    rw [if_neg h]
    simp only [get, add, List.find?_cons, beq_eq_false_iff_ne.2 h, List.find?_filter]
    congr 1
    funext e
    by_cases he : dbTag e = tag
    · simp [he, Ne.symm h]
    · simp [he]

/-- Adding entries with distinct tags one after another: a tag gets the entry that has it, if
any, and otherwise keeps what it had. -/
theorem get_foldl_add (es : List E) (hes : (es.map dbTag).Nodup) (acc : Metadata E)
    (tag : Int64) :
    (es.foldl add acc).get tag = (es.find? fun e => dbTag e == tag).or (acc.get tag) := by
  induction es generalizing acc with
  | nil => rfl
  | cons e es ih =>
    rw [List.map_cons, List.nodup_cons] at hes
    rw [List.foldl_cons, ih hes.2, get_add, List.find?_cons]
    by_cases he : dbTag e = tag
    · -- No later entry has the tag of `e`.
      have hnone : (es.find? fun e => dbTag e == tag) = none := by
        rw [List.find?_eq_none]
        intro e' he' heq
        rw [beq_iff_eq, ← he] at heq
        exact hes.1 (heq ▸ List.mem_map_of_mem he')
      simp [he, hnone]
    · simp only [he, if_false, beq_eq_false_iff_ne.2 he]

/-- The rows of the owner after `store_in_db`, when none of them had a tag of the set. -/
theorem filter_foldl_store (o : K) (es : List E) (hes : (es.map dbTag).Nodup)
    (t : List (MetaRow K E))
    (ht : ∀ r ∈ t, r.owner = o → dbTag r.data ∉ es.map dbTag) :
    (es.foldl (fun t entry =>
        Table.delete (fun r => r.owner == o && dbTag r.data == dbTag entry) t ++ [⟨o, entry⟩])
        t).filter (·.owner == o) =
      t.filter (·.owner == o) ++ es.map fun e => ⟨o, e⟩ := by
  induction es generalizing t with
  | nil => simp
  | cons e es ih =>
    rw [List.map_cons, List.nodup_cons] at hes
    rw [List.foldl_cons, ih hes.2]
    · -- The delete for `e` meets no row of the owner.
      have hkeep : (Table.delete (fun r => r.owner == o && dbTag r.data == dbTag e) t).filter
          (·.owner == o) = t.filter (·.owner == o) := by
        simp only [Table.delete, List.filter_filter]
        apply List.filter_congr
        intro r hr
        by_cases ho : r.owner = o
        · have hne : dbTag r.data ≠ dbTag e := fun heq =>
            ht r hr ho (heq ▸ List.mem_cons_self)
          simp [ho, hne]
        · simp [ho]
      rw [List.filter_append, hkeep]
      simp
    · intro r hr ho
      rw [List.mem_append, mem_delete, List.mem_singleton] at hr
      rcases hr with ⟨hr, -⟩ | rfl
      · exact fun hmem => ht r hr ho (List.mem_cons_of_mem _ hmem)
      · exact hes.1

/-- `load_from_db` after `store_in_db` gives back every entry of the set, when the owner had
no rows before. -/
theorem get_loadFromDb_storeInDb (m : Metadata E) (o : K) (t : List (MetaRow K E))
    (ht : ∀ r ∈ t, r.owner ≠ o) (tag : Int64) :
    (loadFromDb o (m.storeInDb o t)).get tag = m.get tag := by
  have hnil : t.filter (·.owner == o) = [] := by
    rw [List.filter_eq_nil_iff]
    intro r hr
    simpa using ht r hr
  unfold loadFromDb storeInDb
  rw [filter_foldl_store o m.data m.nodup t (fun r hr ho => absurd ho (ht r hr)), hnil,
    List.nil_append, List.foldl_map, get_foldl_add m.data m.nodup, get_new, Option.or_none]
  rfl

end Metadata

section Rowid

/-- The running maximum of a fold over blob rows bounds its start and every id. -/
theorem le_foldl_max (l : List BlobEntryRow) (init : Nat) :
    init ≤ l.foldl (fun m b => max m b.id) init ∧
      ∀ b ∈ l, b.id ≤ l.foldl (fun m b => max m b.id) init := by
  induction l generalizing init with
  | nil => simp
  | cons a l ih =>
    obtain ⟨h₁, h₂⟩ := ih (max init a.id)
    refine ⟨le_trans (le_max_left _ _) h₁, ?_⟩
    intro b hb
    rcases List.mem_cons.1 hb with rfl | hb
    · exact le_trans (le_max_right _ _) h₁
    · exact h₂ b hb

theorem le_maxRowid {l : List BlobEntryRow} {b : BlobEntryRow} (hb : b ∈ l) :
    b.id ≤ maxRowid l :=
  (le_foldl_max l 0).2 b hb

theorem maxRowid_update {p : BlobEntryRow → Bool} {f : BlobEntryRow → BlobEntryRow}
    (hf : ∀ b, (f b).id = b.id) (l : List BlobEntryRow) :
    maxRowid (update p f l) = maxRowid l := by
  have hmap : ∀ l : List BlobEntryRow, maxRowid l = (l.map (·.id)).foldl max 0 := by
    intro l
    rw [List.foldl_map]
    rfl
  rw [hmap, hmap, map_update hf]

theorem maxRowid_append_singleton (l : List BlobEntryRow) (b : BlobEntryRow) :
    maxRowid (l ++ [b]) = max (maxRowid l) b.id := by
  simp only [maxRowid, List.foldl_append, List.foldl_cons, List.foldl_nil]

end Rowid

section SetBlob

variable {db db' : KeystoreDB} {keyId : Int64} {scType : SubComponentType}

/-- A row appended with an id above every other is the newest of its key and type. -/
theorem newestBlob_append {t : List BlobEntryRow} {b : BlobEntryRow}
    (hdb : db.blobentry = t ++ [b]) (hb : b.keyentryid = keyId)
    (hs : b.subcomponentType = scType) (hlt : ∀ c ∈ t, c.id < b.id) :
    db.newestBlob keyId scType = some b := by
  unfold newestBlob
  rw [hdb, List.filter_append, List.filter_cons_of_pos (by simp [hb, hs]), List.filter_nil,
    List.argmax_concat]
  cases hmax : (t.filter fun c => c.keyentryid == keyId && c.subcomponentType == scType).argmax
      (·.id) with
  | none => rfl
  | some c =>
    have hc : c ∈ t := (List.mem_filter.1 (List.argmax_mem hmax)).1
    simp [hlt c hc]

/-- `set_blob_internal` with a blob appends it as the newest row of its key and type, and
files its metadata under the new rowid. -/
theorem setBlobInternal_some {blob : List UInt8} {blobMetadata : Option BlobMetaData}
    (h : db.setBlobInternal keyId scType (some blob) blobMetadata = .ok db') :
    db'.newestBlob keyId scType =
        some ⟨maxRowid db.blobentry + 1, scType, keyId, blob, .current⟩ ∧
      db'.blobmetadata = blobMetadata.elim db.blobmetadata
        (·.storeInDb (maxRowid db.blobentry + 1) db.blobmetadata) := by
  unfold setBlobInternal at h
  dsimp only at h
  rw [maxRowid_update] at h
  · -- The new row has the largest id, which is also the rowid its metadata is filed under.
    have hu : maxRowid (update (fun b => b.keyentryid == keyId && b.subcomponentType == scType)
        (fun b => { b with state := .superseded }) db.blobentry) = maxRowid db.blobentry := by
      apply maxRowid_update
      intro b
      rfl
    have hids : ∀ c ∈ update (fun b => b.keyentryid == keyId && b.subcomponentType == scType)
        (fun b => { b with state := .superseded }) db.blobentry,
        c.id < maxRowid db.blobentry + 1 := by
      intro c hc
      rw [← hu]
      exact Nat.lt_succ_of_le (le_maxRowid hc)
    have hmax : maxRowid (update (fun b => b.keyentryid == keyId && b.subcomponentType == scType)
        (fun b => { b with state := .superseded }) db.blobentry ++
        [⟨maxRowid db.blobentry + 1, scType, keyId, blob, .current⟩]) =
        maxRowid db.blobentry + 1 := by
      rw [maxRowid_append_singleton, hu]
      exact max_eq_right (Nat.le_succ _)
    split at h
    · rw [Except.pure_eq_ok] at h
      subst h
      rw [hmax]
      exact ⟨newestBlob_append rfl rfl rfl hids, rfl⟩
    · rw [Except.pure_eq_ok] at h
      subst h
      exact ⟨newestBlob_append rfl rfl rfl hids, rfl⟩
  · intro b
    rfl

/-- After `set_blob`, the newest row of the key and type holds the blob it was given, and
there is no row when it was given none. -/
theorem setBlob_newestBlob {blob : Option (List UInt8)} {blobMetadata : Option BlobMetaData}
    (h : db.setBlob keyId scType blob blobMetadata = .ok db') :
    (db'.newestBlob keyId scType).map (·.blob) = blob := by
  cases blob with
  | some blob => rw [(setBlobInternal_some h).1]; rfl
  | none =>
    -- Without a blob the rows of a certificate type are deleted; a key blob cannot be.
    have hdel : db'.blobentry =
        delete (fun b => b.subcomponentType == scType && b.keyentryid == keyId) db.blobentry := by
      cases scType with
      | keyBlob => exact absurd h Except.throw_ne_ok
      | cert | certChain =>
        simp only [setBlob, setBlobInternal, Except.pure_eq_ok] at h
        rw [← h]
    have hnil : (db'.blobentry.filter fun b =>
        b.keyentryid == keyId && b.subcomponentType == scType) = [] := by
      rw [List.filter_eq_nil_iff, hdel]
      intro b hb
      rw [mem_delete] at hb
      simpa [Bool.and_comm] using hb.2
    simp only [newestBlob, hnil, List.argmax_nil, Option.map_none]

/-- A key blob stored by `set_blob` is the newest of its key, and its metadata loads back as
stored, provided no metadata row was filed under the new rowid before. -/
theorem setBlob_keyBlob_metadata {blob : List UInt8} {m : BlobMetaData}
    (h : db.setBlob keyId .keyBlob (some blob) (some m) = .ok db')
    (hclean : ∀ r ∈ db.blobmetadata, r.owner ≠ maxRowid db.blobentry + 1) :
    ∃ b, db'.newestBlob keyId .keyBlob = some b ∧ b.blob = blob ∧
      ∀ tag, (Metadata.loadFromDb b.id db'.blobmetadata).get tag = m.get tag := by
  obtain ⟨hnewest, hmeta⟩ := setBlobInternal_some h
  refine ⟨_, hnewest, rfl, fun tag => ?_⟩
  rw [hmeta]
  exact Metadata.get_loadFromDb_storeInDb m _ _ hclean tag

end SetBlob

/-- `load_key_components` with both load bits returns the newest row of each subcomponent
type, the key blob with the metadata filed under its rowid. -/
theorem loadKeyComponents_both {db : KeystoreDB} {keyId : Int64} {e : KeyEntry}
    (h : db.loadKeyComponents .both keyId = .ok e) :
    e.keyBlobInfo = (db.newestBlob keyId .keyBlob).map
        (fun b => (b.blob, Metadata.loadFromDb b.id db.blobmetadata)) ∧
      e.cert = (db.newestBlob keyId .cert).map (·.blob) ∧
      e.certChain = (db.newestBlob keyId .certChain).map (·.blob) := by
  unfold loadKeyComponents at h
  obtain ⟨kmUuid, -, h⟩ := Except.bind_eq_ok.1 h
  rw [Except.pure_eq_ok] at h
  subst h
  exact ⟨rfl, rfl, rfl⟩

/-- Blob metadata with a salt. -/
def saltMetadata : BlobMetaData := (Metadata.new : BlobMetaData).add (.salt [5])

/-- The app stores a certificate with metadata and then deletes it; the next key blob takes
the freed rowid.  A load returns that key blob with the certificate's salt, although
`set_blob` stored it with empty metadata. -/
theorem setBlob_reuses_rowid_of_deleted_cert :
    ∃ db, ({} : KeystoreDB).run [storeAppKey 7, .setBlob 7 .cert (some [2]) (some saltMetadata),
        .setBlob 7 .cert none none, .setBlob 7 .keyBlob (some [3]) (some Metadata.new)] =
        .ok db ∧ Reachable db ∧
      (db.loadKeyEntry none appKeyDescriptor .client .both 10
        (checkKeyPermission allowAll 10 () .use)).map
        (fun r => r.2.keyBlobInfo.map fun b => (b.1, b.2.get 1)) =
        .ok (some ([3], some (.salt [5]))) := by
  refine ⟨_, rfl, ?_, ?_⟩
  · exact Reachable.step (.setBlob 7 .keyBlob (some [3]) (some Metadata.new))
      (Reachable.step (.setBlob 7 .cert none none)
        (Reachable.step (.setBlob 7 .cert (some [2]) (some saltMetadata))
          (Reachable.step (storeAppKey 7) Reachable.empty (by apply And.intro <;> decide) rfl)
          trivial rfl) trivial rfl) trivial rfl
  · decide

end Keystore2.Database
