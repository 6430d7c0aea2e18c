import Keystore2.Database.Effects

/-! The invariants of the key database in every reachable state: a location has at most one
live entry, no entry is left `Existing` once a transaction commits, a key has at most one
grant row per grantee, grant ids are unique and every grant row names an entry of the key
table.  Each operation keeps them; `rebind_alias` is the one step that needs all of its
checks, and `migrate_key_namespace` the one that needs its destination probe.  From them
follow what the lookups rely on: `load_key_entry_id` never meets two rows, and a grant id
resolves to the key of its own row, which no later operation changes. -/

namespace Keystore2.Database

open KeyParameter Table KeystoreDB

structure Invariant (db : KeystoreDB) : Prop where
  liveUnique : Unique (·.state = .live) KeyEntryRow.location db.keyentry
  noExisting : ∀ k ∈ db.keyentry, k.state ≠ .existing
  grantUnique : Unique (fun _ => True) (fun g => (g.keyentryid, g.grantee)) db.grantTable
  grantIdUnique : Unique (fun _ => True) (·.id) db.grantTable
  grantReferenced : ∀ g ∈ db.grantTable, g.keyentryid ∈ db.keyentry.map (·.id)
  liveDomain : ∀ k ∈ db.keyentry, k.state = .live → k.domain = some .app ∨ k.domain = some .selinux

namespace Invariant

variable {db db' : KeystoreDB}

theorem empty : Invariant {} where
  liveUnique := unique_nil
  noExisting := fun _ hk => nomatch hk
  grantUnique := unique_nil
  grantIdUnique := unique_nil
  grantReferenced := fun _ hg => nomatch hg
  liveDomain := fun _ hk => nomatch hk

/-- A step that keeps the key table and only deletes grant rows keeps the invariant. -/
theorem of_grants_sublist (h : Invariant db) (hk : db'.keyentry = db.keyentry)
    (hg : List.Sublist db'.grantTable db.grantTable) : Invariant db' where
  liveUnique := by rw [hk]; exact h.liveUnique
  noExisting := by rw [hk]; exact h.noExisting
  grantUnique := h.grantUnique.sublist hg
  grantIdUnique := h.grantIdUnique.sublist hg
  grantReferenced := by
    rw [hk]
    intro g hg'
    exact h.grantReferenced g (hg.subset hg')
  liveDomain := by rw [hk]; exact h.liveDomain

theorem of_frame (h : Invariant db) (hk : db'.keyentry = db.keyentry)
    (hg : db'.grantTable = db.grantTable) : Invariant db' :=
  h.of_grants_sublist hk (hg ▸ List.Sublist.refl _)

/-- Deleting key entries keeps the invariant when no grant row left names a deleted entry. -/
theorem of_delete (h : Invariant db) {p : KeyEntryRow → Bool}
    (hk : db'.keyentry = delete p db.keyentry) (hg : List.Sublist db'.grantTable db.grantTable)
    (href : ∀ g ∈ db'.grantTable, ∀ k ∈ db.keyentry, k.id = g.keyentryid → p k = false) :
    Invariant db' where
  liveUnique := by rw [hk]; exact h.liveUnique.delete p
  noExisting := by
    rw [hk]
    intro k hk'
    exact h.noExisting k (mem_delete.1 hk').1
  grantUnique := h.grantUnique.sublist hg
  grantIdUnique := h.grantIdUnique.sublist hg
  grantReferenced := by
    intro g hg'
    obtain ⟨k, hk', hid⟩ := List.mem_map.1 (h.grantReferenced g (hg.subset hg'))
    rw [hk]
    exact List.mem_map.2 ⟨k, mem_delete.2 ⟨hk', href g hg' k hk' hid⟩, hid⟩
  liveDomain := by
    rw [hk]
    intro k hk' hlive
    exact h.liveDomain k (mem_delete.1 hk').1 hlive

/-- A key id is deleted with the grant rows that name it. -/
theorem of_delete_ids (h : Invariant db) {p : KeyEntryRow → Bool} {q : GrantRow → Bool}
    (hk : db'.keyentry = delete p db.keyentry)
    (hg : db'.grantTable = delete (fun g => q g || ((db.keyentry.filter p).map (·.id)).contains
      g.keyentryid) db.grantTable) :
    Invariant db' := by
  apply h.of_delete hk (hg ▸ delete_sublist)
  intro g hg' k hk hid
  rw [hg, mem_delete, Bool.or_eq_false_iff] at hg'
  cases hp : p k
  · rfl
  · have : k.id ∈ (db.keyentry.filter p).map (·.id) :=
      List.mem_map_of_mem (List.mem_filter.2 ⟨hk, hp⟩)
    rw [hid, ← List.contains_iff_mem, hg'.2.2] at this
    cases this

theorem markUnreferenced (h : Invariant db) (keyId : Int64) :
    Invariant (db.markUnreferenced keyId).2 := by
  apply h.of_delete rfl delete_sublist
  intro g hg k _ hid
  rw [KeystoreDB.markUnreferenced, mem_delete, ← hid] at hg
  exact hg.2

theorem foldl_markUnreferenced (h : Invariant db) (keyIds : List Int64) :
    Invariant (keyIds.foldl (fun db keyId => (db.markUnreferenced keyId).2) db) :=
  List.foldlRecOn keyIds _ h fun _ h keyId _ => h.markUnreferenced keyId

theorem cleanupUnreferenced (h : Invariant db) : Invariant db.cleanupUnreferenced :=
  h.of_delete_ids (q := fun _ => false) rfl rfl

theorem deleteReceivedGrants (h : Invariant db) (userId : UInt32) :
    Invariant (db.deleteReceivedGrants userId) :=
  h.of_grants_sublist rfl delete_sublist

theorem unbindKeysForUser (h : Invariant db) (userId : UInt32) :
    Invariant (db.unbindKeysForUser userId) :=
  (h.deleteReceivedGrants userId).foldl_markUnreferenced _

theorem unbindAuthBoundKeysForUser (h : Invariant db) (userId : UInt32) :
    Invariant (db.unbindAuthBoundKeysForUser userId) := by
  apply List.foldlRecOn _ _ h
  intro db h keyId _
  split
  · exact h.markUnreferenced keyId
  · exact h

theorem unbindKeysForNamespace (h : Invariant db) {domain : Domain} {nspace : Int64}
    (hu : db.unbindKeysForNamespace domain nspace = .ok db') : Invariant db' := by
  obtain ⟨hk, hg, -⟩ := unbindKeysForNamespace_eq_ok hu
  split_ifs at hg with happ
  · apply h.of_delete_ids (q := (·.grantee == nspace)) hk
    rw [hg, delete, delete, List.filter_filter]
    congr 1
    funext g
    simp only [Bool.not_or, Bool.and_comm]
  · exact h.of_delete_ids (q := fun _ => false) hk hg

/-- With no entry `Existing`, `cleanup_leftovers` changes nothing. -/
theorem cleanupLeftovers (h : Invariant db) : Invariant db.cleanupLeftovers := by
  have hk : db.cleanupLeftovers.keyentry = db.keyentry := by
    apply update_of_forall_not
    intro k hk
    simpa using h.noExisting k hk
  exact h.of_frame hk rfl

theorem checkAndUpdateKeyUsageCount (h : Invariant db) {keyId : Int64}
    (hc : db.checkAndUpdateKeyUsageCount keyId = .ok db') : Invariant db' := by
  obtain ⟨db₁, hk, hg, -, rfl | rfl⟩ := checkAndUpdateKeyUsageCount_eq_ok hc
  · exact h.of_frame hk hg
  · exact (h.of_frame hk hg).markUnreferenced keyId

section Rebind

variable {newId : Int64} {keyType : KeyType} {domain : Domain} {nspace : Int64}
  {keyAlias : String} {kmUuid : Uuid}

/-- After `rebind_alias` unbinds the alias, no live entry is left in the location. -/
theorem live_of_mem_cleared {t : List KeyEntryRow} {s : KeyEntryRow}
    (hs : s ∈ update (fun k => decide (k.location = (keyType, some domain, some nspace,
      some keyAlias)))
      (fun k => { k with keyAlias := none, domain := none, nspace := none, state := .unreferenced })
      t) (hlive : s.state = .live) :
    s ∈ t ∧ s.location ≠ (keyType, some domain, some nspace, some keyAlias) := by
  obtain ⟨r, hr, rfl⟩ := mem_update.1 hs
  split at hlive
  · cases hlive
  · rename_i hb
    rw [if_neg hb]
    exact ⟨hr, of_decide_eq_false (Bool.eq_false_iff.2 hb)⟩

/-- The entry a store adds, `Existing` and without an alias, becomes the one live entry of its
location when `rebind_alias` binds the alias to it. -/
theorem rebindAlias (h : Invariant db) {db₁ : KeystoreDB} {b : Bool}
    (hk : db₁.keyentry = db.keyentry ++
      [⟨newId, keyType, some domain, some nspace, none, .existing, kmUuid⟩])
    (hg : db₁.grantTable = db.grantTable)
    (hr : db₁.rebindAlias newId keyAlias domain nspace keyType = .ok (b, db')) :
    Invariant db' := by
  obtain ⟨hd, hcount, rfl⟩ := rebindAlias_eq_ok hr
  have hu₁ : Unique (·.state = .live) KeyEntryRow.location db₁.keyentry := by
    rw [hk, unique_append_singleton]
    exact ⟨h.liveUnique, fun _ _ _ hp => nomatch hp⟩
  constructor
  · -- Unbinding the alias makes no entry live.
    refine Unique.update_of_countP_le_one (hu₁.update fun _ _ _ hp => ?_) hcount.le ?_
    · simp at hp
    intro r _ s hs hr _ _ hlive heq
    simp only [Bool.and_eq_true, beq_iff_eq] at hr
    obtain ⟨⟨⟨⟨-, hd⟩, hn⟩, -⟩, ht⟩ := hr
    apply (live_of_mem_cleared hs hlive).2
    rw [← heq]
    simp only [KeyEntryRow.location, hd, hn, ht]
  · rw [forall_mem_update]
    intro s hs
    split
    · simp
    · rename_i hfresh
      obtain ⟨r, hr, rfl⟩ := mem_update.1 hs
      split
      · simp
      · rw [hk, List.mem_append, List.mem_singleton] at hr
        rcases hr with hr | rfl
        · exact h.noExisting r hr
        · simp [KeyEntryRow.location] at hfresh
  · exact hg ▸ h.grantUnique
  · exact hg ▸ h.grantIdUnique
  · intro g hg'
    -- Neither update changes an id.
    rw [map_update, map_update, hk, List.map_append]
    · exact List.mem_append_left _ (h.grantReferenced g (by rw [← hg]; exact hg'))
    · intro r; rfl
    · intro r; rfl
  · rw [forall_mem_update]
    intro s hs
    split
    · -- The bound entry is in the store's domain.
      rename_i hfresh
      intro _
      simp only [Bool.and_eq_true, beq_iff_eq] at hfresh
      simp only [hfresh.1.1.1.2, Option.some.injEq]
      exact hd
    · intro hlive
      obtain ⟨hs', -⟩ := live_of_mem_cleared hs hlive
      rw [hk, List.mem_append, List.mem_singleton] at hs'
      rcases hs' with hs' | rfl
      · exact h.liveDomain s hs' hlive
      · cases hlive

end Rebind

theorem storeNewKey (h : Invariant db) {key : KeyDescriptor} {keyType : KeyType}
    {params : List KeyParameter} {blobInfo : BlobInfo} {certInfo : CertificateInfo}
    {metadata : KeyMetaData} {kmUuid : Uuid} {newId keyId : Int64}
    (hs : db.storeNewKey key keyType params blobInfo certInfo metadata kmUuid newId =
      .ok (keyId, db')) : Invariant db' := by
  obtain ⟨keyAlias, domain, nspace, db₁, b, -, -, hk, hg, hr⟩ := storeNewKey_eq_ok hs
  exact h.rebindAlias hk hg hr

theorem storeNewCertificate (h : Invariant db) {key : KeyDescriptor} {keyType : KeyType}
    {cert : List UInt8} {kmUuid : Uuid} {now : DateTime} {newId keyId : Int64}
    (hs : db.storeNewCertificate key keyType cert kmUuid now newId = .ok (keyId, db')) :
    Invariant db' := by
  obtain ⟨keyAlias, domain, nspace, db₁, b, -, -, hk, hg, hr⟩ := storeNewCertificate_eq_ok hs
  exact h.rebindAlias hk hg hr

/-- A super key goes into a location where `load_super_key` found no live key. -/
theorem storeSuperKey (h : Invariant db) {userId : UInt32} {keyTypeAlias : String}
    {blob : List UInt8} {blobMetadata : BlobMetaData} {keyMetadata : KeyMetaData}
    {newId : Int64} {e : KeyEntry} (hnone : db.loadSuperKey keyTypeAlias userId = .ok none)
    (hs : db.storeSuperKey userId keyTypeAlias blob blobMetadata keyMetadata newId =
      .ok (e, db')) : Invariant db' := by
  obtain ⟨hk, hg⟩ := storeSuperKey_eq_ok hs
  have hfree := loadSuperKey_eq_none hnone
  constructor
  · rw [hk, unique_append_singleton]
    exact ⟨h.liveUnique, fun s hs hlive _ => hfree s hs hlive⟩
  · rw [hk]
    intro k hk'
    rcases List.mem_append.1 hk' with hk' | hk'
    · exact h.noExisting k hk'
    · rw [List.mem_singleton.1 hk']
      simp
  · exact hg ▸ h.grantUnique
  · exact hg ▸ h.grantIdUnique
  · rw [hk, hg, List.map_append]
    intro g hg'
    exact List.mem_append_left _ (h.grantReferenced g hg')
  · rw [hk]
    intro k hk' hlive
    rcases List.mem_append.1 hk' with hk' | hk'
    · exact h.liveDomain k hk' hlive
    · rw [List.mem_singleton.1 hk']
      exact Or.inl rfl

/-- The destination probe finds no entry at all in the new location, so the moved entry
clashes with none. -/
theorem migrateKeyNamespace (h : Invariant db) {keyIdGuard : Int64}
    {destination : KeyDescriptor} {callerUid : UInt32}
    {checkPermission : KeyDescriptor → Except Error Unit}
    (hm : db.migrateKeyNamespace keyIdGuard destination callerUid checkPermission = .ok db') :
    Invariant db' := by
  obtain ⟨domain, nspace, keyAlias, hd, hprobe, hcount, rfl⟩ := migrateKeyNamespace_eq_ok hm
  constructor
  · apply h.liveUnique.update_of_countP_le_one (Nat.le_of_eq hcount)
    intro r _ s hs _ _ _ _ heq
    simp only [KeyEntryRow.location, Prod.mk.injEq] at heq
    obtain ⟨-, hd, hn, ha⟩ := heq
    rcases hprobe s hs with hne | hne | hne
    · exact hne ha.symm
    · exact hne hd.symm
    · exact hne hn.symm
  · rw [forall_mem_update]
    intro s hs
    split
    · exact h.noExisting s hs
    · exact h.noExisting s hs
  · exact h.grantUnique
  · exact h.grantIdUnique
  · intro g hg
    rw [map_update]
    · exact h.grantReferenced g hg
    · intro r; rfl
  · rw [forall_mem_update]
    intro s hs
    split
    · intro _
      simp only [Option.some.injEq]
      exact hd
    · exact h.liveDomain s hs

/-- `grant` updates the row of the key and grantee if there is one and otherwise adds a row
with a fresh id for a live key. -/
theorem grant (h : Invariant db) {key : KeyDescriptor} {callerUid granteeUid : UInt32}
    {accessVector : KeyPermSet} {checkPermission : KeyDescriptor → KeyPermSet → Except Error Unit}
    {newId : Int64} {kd : KeyDescriptor} (hfresh : FreshId (db.grantTable.map (·.id)) newId)
    (hgr : db.grant key callerUid granteeUid accessVector checkPermission newId = .ok (kd, db')) :
    Invariant db' := by
  obtain ⟨info, hinfo, -, hk, -, hcase⟩ := grant_eq_ok hgr
  rcases hcase with ⟨g, -, -, -, hupd⟩ | ⟨hnot, happ⟩
  · constructor
    · rw [hk]; exact h.liveUnique
    · rw [hk]; exact h.noExisting
    · rw [hupd]
      exact h.grantUnique.update fun _ _ _ _ => ⟨trivial, rfl⟩
    · rw [hupd]
      exact h.grantIdUnique.update fun _ _ _ _ => ⟨trivial, rfl⟩
    · rw [hupd, hk, forall_mem_update]
      intro s hs
      split
      · exact h.grantReferenced s hs
      · exact h.grantReferenced s hs
    · rw [hk]; exact h.liveDomain
  · constructor
    · rw [hk]; exact h.liveUnique
    · rw [hk]; exact h.noExisting
    · rw [happ, unique_append_singleton]
      refine ⟨h.grantUnique, fun s hs _ _ heq => ?_⟩
      simp only [Prod.mk.injEq] at heq
      exact hnot s hs heq
    · rw [happ, unique_append_singleton]
      refine ⟨h.grantIdUnique, fun s hs _ _ heq => ?_⟩
      apply hfresh.2
      rw [← show s.id = newId from heq]
      exact List.mem_map_of_mem hs
    · rw [happ, hk]
      intro g hg
      rcases List.mem_append.1 hg with hg | hg
      · exact h.grantReferenced g hg
      · obtain ⟨k, hk', hid, -⟩ := loadAccessTuple_live hinfo
        rw [List.mem_singleton.1 hg]
        exact List.mem_map.2 ⟨k, hk', hid⟩
    · rw [hk]; exact h.liveDomain

/-- The invariant holds after every admissible operation that commits. -/
theorem exec (h : Invariant db) {op : Op} (hadm : op.Admissible db)
    (hexec : db.exec op = .ok db') : Invariant db' := by
  cases op with
  | storeNewKey key keyType params blobInfo certInfo metadata kmUuid newId =>
    rw [KeystoreDB.exec] at hexec
    obtain ⟨⟨keyId, db₁⟩, hs, rfl⟩ := Except.map_eq_ok.1 hexec
    exact h.storeNewKey hs
  | storeNewCertificate key keyType cert kmUuid now newId =>
    rw [KeystoreDB.exec] at hexec
    obtain ⟨⟨keyId, db₁⟩, hs, rfl⟩ := Except.map_eq_ok.1 hexec
    exact h.storeNewCertificate hs
  | storeSuperKey userId keyTypeAlias blob blobMetadata keyMetadata newId =>
    rw [KeystoreDB.exec] at hexec
    obtain ⟨⟨e, db₁⟩, hs, rfl⟩ := Except.map_eq_ok.1 hexec
    exact h.storeSuperKey hadm.2 hs
  | migrateKeyNamespace keyIdGuard destination callerUid checkPermission =>
    exact h.migrateKeyNamespace hexec
  | setBlob keyId scType blob blobMetadata =>
    obtain ⟨hk, hg⟩ := setBlobInternal_frame hexec
    exact h.of_frame hk hg
  | setDeletedBlob blob blobMetadata =>
    rw [KeystoreDB.exec, setDeletedBlob] at hexec
    obtain ⟨hk, hg⟩ := setBlobInternal_frame hexec
    exact h.of_frame hk hg
  | unbindKey key keyType callerUid checkPermission =>
    obtain ⟨info, -, -, rfl⟩ := unbindKey_eq_ok hexec
    exact h.markUnreferenced info.keyId
  | unbindKeysForNamespace domain nspace =>
    exact h.unbindKeysForNamespace hexec
  | unbindKeysForUser userId =>
    rw [← Except.pure_eq_ok.1 hexec]
    exact h.unbindKeysForUser userId
  | unbindAuthBoundKeysForUser userId =>
    rw [← Except.pure_eq_ok.1 hexec]
    exact h.unbindAuthBoundKeysForUser userId
  | checkAndUpdateKeyUsageCount keyId =>
    exact h.checkAndUpdateKeyUsageCount hexec
  | grant key callerUid granteeUid accessVector checkPermission newId =>
    rw [KeystoreDB.exec] at hexec
    obtain ⟨⟨kd, db₁⟩, hs, rfl⟩ := Except.map_eq_ok.1 hexec
    exact h.grant hadm hs
  | ungrant key callerUid granteeUid checkPermission =>
    obtain ⟨info, -, -, rfl⟩ := ungrant_eq_ok hexec
    exact h.of_grants_sublist rfl delete_sublist
  | cleanupLeftovers =>
    rw [← Except.pure_eq_ok.1 hexec]
    exact h.cleanupLeftovers
  | handleNextSupersededBlobs useBlobStateColumn blobIdsToDelete maxBlobs =>
    rw [← Except.pure_eq_ok.1 hexec]
    obtain ⟨hk, hg⟩ := handleNextSupersededBlobs_frame db useBlobStateColumn blobIdsToDelete
      maxBlobs
    exact h.cleanupUnreferenced.of_frame hk hg

theorem of_reachable (h : Reachable db) : Invariant db :=
  Reachable.induction empty (fun _ _ _ _ hi hadm hexec => hi.exec hadm hexec) h

/-- In a state with at most one live entry per location, `load_key_entry_id` never meets two
rows. -/
theorem loadKeyEntryId_ok_or_keyNotFound (h : Invariant db) {key : KeyDescriptor}
    {keyType : KeyType} {keyAlias : String} (hAlias : key.keyAlias = some keyAlias) :
    (∃ id, db.loadKeyEntryId key keyType = .ok id) ∨
      db.loadKeyEntryId key keyType = .error (.rc .keyNotFound) := by
  apply KeystoreDB.loadKeyEntryId_ok_or_keyNotFound hAlias
  apply h.liveUnique.length_filter_le_one
  intro k hk
  simp only [Bool.and_eq_true, decide_eq_true_eq, beq_iff_eq] at hk
  exact ⟨hk.2, hk.1⟩

/-- A grant id names one grant row, and a descriptor by grant resolves to that row's key. -/
theorem loadAccessTuple_grant (h : Invariant db) {key : KeyDescriptor} {keyType : KeyType}
    {callerUid : UInt32} {info : KeyAccessInfo} (hd : key.domain = .grant)
    (hl : db.loadAccessTuple key keyType callerUid = .ok info) :
    ∃ g ∈ db.grantTable, g.id = key.nspace ∧ info.keyId = g.keyentryid ∧
      ∀ g' ∈ db.grantTable, g'.id = key.nspace → g' = g := by
  obtain ⟨g, hg, hid, -, -, rfl⟩ := KeystoreDB.loadAccessTuple_grant hd hl
  refine ⟨g, hg, hid, rfl, fun g' hg' hid' => ?_⟩
  exact h.grantIdUnique.eq_of_key_eq hg' hg trivial trivial (hid'.trans hid.symm)

end Invariant

/-- Every grant row after a step is a row from before with its id and key, or has an id
that no row had before: no step moves a grant to another key. -/
def GrantRowsKept (db db' : KeystoreDB) : Prop :=
  ∀ g' ∈ db'.grantTable, (∃ g ∈ db.grantTable, g.id = g'.id ∧ g.keyentryid = g'.keyentryid) ∨
    g'.id ∉ db.grantTable.map (·.id)

namespace GrantRowsKept

variable {db db' : KeystoreDB}

theorem of_sublist (h : List.Sublist db'.grantTable db.grantTable) : GrantRowsKept db db' :=
  fun g' hg' => Or.inl ⟨g', h.subset hg', rfl, rfl⟩

theorem of_eq (h : db'.grantTable = db.grantTable) : GrantRowsKept db db' :=
  of_sublist (h ▸ List.Sublist.refl _)

theorem grant {key : KeyDescriptor} {callerUid granteeUid : UInt32} {accessVector : KeyPermSet}
    {checkPermission : KeyDescriptor → KeyPermSet → Except Error Unit} {newId : Int64}
    {kd : KeyDescriptor} (hfresh : FreshId (db.grantTable.map (·.id)) newId)
    (hgr : db.grant key callerUid granteeUid accessVector checkPermission newId = .ok (kd, db')) :
    GrantRowsKept db db' := by
  obtain ⟨info, -, -, -, -, hcase⟩ := grant_eq_ok hgr
  intro g' hg'
  rcases hcase with ⟨g, -, -, -, hupd⟩ | ⟨-, happ⟩
  · -- Only the access vector of the row changes.
    rw [hupd] at hg'
    obtain ⟨s, hs, rfl⟩ := mem_update.1 hg'
    left
    refine ⟨s, hs, ?_, ?_⟩
    · split <;> rfl
    · split <;> rfl
  · rw [happ, List.mem_append, List.mem_singleton] at hg'
    rcases hg' with hg' | rfl
    · exact Or.inl ⟨g', hg', rfl, rfl⟩
    · exact Or.inr hfresh.2

theorem exec {op : Op} (hadm : op.Admissible db) (hexec : db.exec op = .ok db') :
    GrantRowsKept db db' := by
  cases op with
  | storeNewKey key keyType params blobInfo certInfo metadata kmUuid newId =>
    rw [KeystoreDB.exec] at hexec
    obtain ⟨⟨keyId, db₁⟩, hs, rfl⟩ := Except.map_eq_ok.1 hexec
    obtain ⟨keyAlias, domain, nspace, db₂, b, -, -, -, hg, hr⟩ := storeNewKey_eq_ok hs
    exact of_eq ((rebindAlias_grantTable hr).trans hg)
  | storeNewCertificate key keyType cert kmUuid now newId =>
    rw [KeystoreDB.exec] at hexec
    obtain ⟨⟨keyId, db₁⟩, hs, rfl⟩ := Except.map_eq_ok.1 hexec
    obtain ⟨keyAlias, domain, nspace, db₂, b, -, -, -, hg, hr⟩ := storeNewCertificate_eq_ok hs
    exact of_eq ((rebindAlias_grantTable hr).trans hg)
  | storeSuperKey userId keyTypeAlias blob blobMetadata keyMetadata newId =>
    rw [KeystoreDB.exec] at hexec
    obtain ⟨⟨e, db₁⟩, hs, rfl⟩ := Except.map_eq_ok.1 hexec
    exact of_eq (storeSuperKey_eq_ok hs).2
  | migrateKeyNamespace keyIdGuard destination callerUid checkPermission =>
    obtain ⟨-, -, -, -, -, -, rfl⟩ := migrateKeyNamespace_eq_ok hexec
    exact of_eq rfl
  | setBlob keyId scType blob blobMetadata =>
    exact of_eq (setBlobInternal_frame hexec).2
  | setDeletedBlob blob blobMetadata =>
    rw [KeystoreDB.exec, setDeletedBlob] at hexec
    exact of_eq (setBlobInternal_frame hexec).2
  | unbindKey key keyType callerUid checkPermission =>
    obtain ⟨info, -, -, rfl⟩ := unbindKey_eq_ok hexec
    exact of_sublist delete_sublist
  | unbindKeysForNamespace domain nspace =>
    obtain ⟨-, hg, -⟩ := unbindKeysForNamespace_eq_ok hexec
    apply of_sublist
    rw [hg]
    split_ifs
    · exact delete_sublist.trans delete_sublist
    · exact delete_sublist
  | unbindKeysForUser userId =>
    rw [← Except.pure_eq_ok.1 hexec]
    exact of_sublist (unbindKeysForUser_grantTable db userId)
  | unbindAuthBoundKeysForUser userId =>
    rw [← Except.pure_eq_ok.1 hexec]
    exact of_sublist (unbindAuthBoundKeysForUser_grantTable db userId)
  | checkAndUpdateKeyUsageCount keyId =>
    obtain ⟨db₁, -, hg, -, rfl | rfl⟩ := checkAndUpdateKeyUsageCount_eq_ok hexec
    · exact of_eq hg
    · exact of_sublist (hg ▸ delete_sublist)
  | grant key callerUid granteeUid accessVector checkPermission newId =>
    rw [KeystoreDB.exec] at hexec
    obtain ⟨⟨kd, db₁⟩, hs, rfl⟩ := Except.map_eq_ok.1 hexec
    exact grant hadm hs
  | ungrant key callerUid granteeUid checkPermission =>
    obtain ⟨info, -, -, rfl⟩ := ungrant_eq_ok hexec
    exact of_sublist delete_sublist
  | cleanupLeftovers =>
    rw [← Except.pure_eq_ok.1 hexec]
    exact of_eq rfl
  | handleNextSupersededBlobs useBlobStateColumn blobIdsToDelete maxBlobs =>
    rw [← Except.pure_eq_ok.1 hexec]
    apply of_sublist
    rw [(handleNextSupersededBlobs_frame db useBlobStateColumn blobIdsToDelete maxBlobs).2]
    exact delete_sublist

/-- With unique grant ids, a row that keeps its id keeps its key. -/
theorem keyentryid_eq (hk : GrantRowsKept db db')
    (hu : Unique (fun _ => True) (·.id) db.grantTable) {g g' : GrantRow} (hg : g ∈ db.grantTable)
    (hg' : g' ∈ db'.grantTable) (hid : g'.id = g.id) : g'.keyentryid = g.keyentryid := by
  rcases hk g' hg' with ⟨g₀, hg₀, hid₀, hkey₀⟩ | hnew
  · have : g₀ = g := hu.eq_of_key_eq hg₀ hg trivial trivial (hid₀.trans hid)
    rw [← hkey₀, this]
  · exact absurd (hid ▸ List.mem_map_of_mem hg) hnew

end GrantRowsKept

/-- The guarantees of the key database in one state: the constraints on its two tables, and
what they give the lookups.  A grant id names one row and resolves to that row's key, which
no step changes while the row exists; a key that later takes over the alias has another id. -/
structure KeystoreGuarantees (db : KeystoreDB) : Prop where
  liveAtMostOne : ∀ loc, (db.keyentry.filter fun k =>
    k.state == .live && decide (k.location = loc)).length ≤ 1
  existingUnbound : ∀ k ∈ db.keyentry, k.state = .existing → k.keyAlias = none
  grantAtMostOne : ∀ keyId grantee, (db.grantTable.filter fun g =>
    g.keyentryid == keyId && g.grantee == grantee).length ≤ 1
  grantNamesEntry : ∀ g ∈ db.grantTable, ∃ k ∈ db.keyentry, k.id = g.keyentryid
  loadKeyEntryIdNeverTwo : ∀ key keyType keyAlias, key.keyAlias = some keyAlias →
    (∃ id, db.loadKeyEntryId key keyType = .ok id) ∨
      db.loadKeyEntryId key keyType = .error (.rc .keyNotFound)
  grantResolvesToItsKey : ∀ key keyType callerUid info, key.domain = .grant →
    db.loadAccessTuple key keyType callerUid = .ok info →
    ∃ g ∈ db.grantTable, g.id = key.nspace ∧ info.keyId = g.keyentryid ∧
      (∀ g' ∈ db.grantTable, g'.id = key.nspace → g' = g) ∧
      ∀ op db', op.Admissible db → db.exec op = .ok db' →
        ∀ g' ∈ db'.grantTable, g'.id = g.id → g'.keyentryid = g.keyentryid

end Keystore2.Database
