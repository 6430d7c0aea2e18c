import Keystore2.Database.Gc

/-! The collector running alongside the other operations.  `GcSystem` is the database with the
collector's state and, as a ghost, the ids of the last batch `handle_next_superseded_blobs`
returned to it.  In every state reachable by any interleaving of collector steps with the
other operations, under either selection query, a collector step holds only unprotected key
blobs, among them the batch just returned and the blob passed to `invalidate_key`, and deletes
only unprotected rows, a key blob only when the previous batch returned it.

This needs new key entries to take ids that no blob row refers to.  `insert_with_retry`
checks only the key table: an entry that takes the id of a deleted key takes over its orphaned
blobs, and the collector then returns the newest of them, a protected row. -/

namespace Keystore2.Database

open KeyParameter KeystoreDB Table

/-- A new key entry takes an id that no blob row refers to. -/
def Op.NewKeyIdUnused (db : KeystoreDB) : Op → Prop
  | .storeNewKey _ _ _ _ _ _ _ newId
  | .storeNewCertificate _ _ _ _ _ newId
  | .storeSuperKey _ _ _ _ _ newId => newId ∉ db.blobentry.map (·.keyentryid)
  | _ => True

/-- `handle_next_superseded_blobs`, which only the collector calls. -/
def Op.collector : Op → Bool
  | .handleNextSupersededBlobs _ _ _ => true
  | _ => false

namespace GcInvariant

variable {db db' : KeystoreDB} {held : List Nat}

theorem rebindAlias (h : GcInvariant db held) {newid : Int64} {keyAlias : String}
    {domain : Domain} {nspace : Int64} {keyType : KeyType} {b : Bool}
    (hr : db.rebindAlias newid keyAlias domain nspace keyType = .ok (b, db')) :
    GcInvariant db' held := by
  obtain ⟨-, -, rfl⟩ := rebindAlias_eq_ok hr
  refine h.of_keys rfl ?_
  intro blob _ he
  -- The entry that takes the alias was `Existing`; those that lose it are `Unreferenced`.
  refine KeyExists.of_update ?_ (KeyExists.of_update ?_ he)
  · intro k _ _
    refine ⟨rfl, ?_⟩
    rintro (hs | hs) <;> cases hs
  · intro k _ hp
    simp only [Bool.and_eq_true, beq_iff_eq] at hp
    exact ⟨rfl, fun _ => Or.inl hp.1.2⟩

theorem storeNewKey (h : GcInvariant db held) {key : KeyDescriptor} {keyType : KeyType}
    {params : List KeyParameter} {blobInfo : BlobInfo} {certInfo : CertificateInfo}
    {metadata : KeyMetaData} {kmUuid : Uuid} {newId keyId : Int64}
    (hfresh : newId ∉ db.blobentry.map (·.keyentryid))
    (hs : db.storeNewKey key keyType params blobInfo certInfo metadata kmUuid newId =
      .ok (keyId, db')) :
    GcInvariant db' held := by
  unfold KeystoreDB.storeNewKey at hs
  obtain ⟨⟨keyAlias, domain, nspace⟩, -, hs⟩ := Except.bind_eq_ok.1 hs
  obtain ⟨⟨id, db₀⟩, hcreate, hs⟩ := Except.bind_eq_ok.1 hs
  obtain ⟨-, hid, rfl⟩ := createKeyEntryInternal_eq_ok hcreate
  subst id
  dsimp only at hs
  have h₀ : GcInvariant { db with keyentry := db.keyentry ++
      [⟨newId, keyType, some domain, some nspace, none, .existing, kmUuid⟩] } held :=
    h.of_append_key rfl rfl hfresh
  -- Each optional blob is a `set_blob_internal` or nothing.
  obtain ⟨db₂, hsup, hs⟩ := Except.bind_eq_ok.1 hs
  have h₂ : GcInvariant db₂ held := by
    split at hsup
    · exact h₀.setBlobInternal hsup
    · rw [Except.pure_eq_ok] at hsup
      exact hsup ▸ h₀
  obtain ⟨db₃, hblob, hs⟩ := Except.bind_eq_ok.1 hs
  have h₃ := h₂.setBlobInternal hblob
  obtain ⟨db₄, hcert, hs⟩ := Except.bind_eq_ok.1 hs
  have h₄ : GcInvariant db₄ held := by
    split at hcert
    · exact h₃.setBlobInternal hcert
    · rw [Except.pure_eq_ok] at hcert
      exact hcert ▸ h₃
  obtain ⟨db₅, hchain, hs⟩ := Except.bind_eq_ok.1 hs
  have h₅ : GcInvariant db₅ held := by
    split at hchain
    · exact h₄.setBlobInternal hchain
    · rw [Except.pure_eq_ok] at hchain
      exact hchain ▸ h₄
  obtain ⟨⟨b, db₆⟩, hrebind, hs⟩ := Except.bind_eq_ok.1 hs
  simp only [Except.pure_eq_ok, Prod.mk.injEq] at hs
  obtain ⟨-, rfl⟩ := hs
  refine GcInvariant.rebindAlias ?_ hrebind
  exact h₅.of_frame rfl rfl

theorem storeNewCertificate (h : GcInvariant db held) {key : KeyDescriptor}
    {keyType : KeyType} {cert : List UInt8} {kmUuid : Uuid} {now : DateTime} {newId keyId : Int64}
    (hfresh : newId ∉ db.blobentry.map (·.keyentryid))
    (hs : db.storeNewCertificate key keyType cert kmUuid now newId = .ok (keyId, db')) :
    GcInvariant db' held := by
  unfold KeystoreDB.storeNewCertificate at hs
  obtain ⟨⟨keyAlias, domain, nspace⟩, -, hs⟩ := Except.bind_eq_ok.1 hs
  obtain ⟨⟨id, db₀⟩, hcreate, hs⟩ := Except.bind_eq_ok.1 hs
  obtain ⟨-, hid, rfl⟩ := createKeyEntryInternal_eq_ok hcreate
  subst id
  dsimp only at hs
  have h₀ : GcInvariant { db with keyentry := db.keyentry ++
      [⟨newId, keyType, some domain, some nspace, none, .existing, kmUuid⟩] } held :=
    h.of_append_key rfl rfl hfresh
  obtain ⟨db₂, hchain, hs⟩ := Except.bind_eq_ok.1 hs
  obtain ⟨⟨b, db₃⟩, hrebind, hs⟩ := Except.bind_eq_ok.1 hs
  simp only [Except.pure_eq_ok, Prod.mk.injEq] at hs
  obtain ⟨-, rfl⟩ := hs
  refine GcInvariant.rebindAlias ?_ hrebind
  exact (h₀.setBlobInternal hchain).of_frame rfl rfl

theorem storeSuperKey (h : GcInvariant db held) {userId : UInt32} {keyTypeAlias : String}
    {blob : List UInt8} {blobMetadata : BlobMetaData} {keyMetadata : KeyMetaData}
    {newId : Int64} {e : KeyEntry} (hfresh : newId ∉ db.blobentry.map (·.keyentryid))
    (hs : db.storeSuperKey userId keyTypeAlias blob blobMetadata keyMetadata newId =
      .ok (e, db')) :
    GcInvariant db' held := by
  unfold KeystoreDB.storeSuperKey at hs
  obtain ⟨db₁, hblob, hs⟩ := Except.bind_eq_ok.1 hs
  obtain ⟨e', -, hs⟩ := Except.bind_eq_ok.1 hs
  simp only [Except.pure_eq_ok, Prod.mk.injEq] at hs
  obtain ⟨-, rfl⟩ := hs
  have h₀ : GcInvariant { db with keyentry := db.keyentry ++ [⟨newId, .super, some .app,
      some (asI64 userId), some keyTypeAlias, .live, keystoreUuid⟩] } held :=
    h.of_append_key rfl rfl hfresh
  refine GcInvariant.setBlobInternal ?_ hblob
  exact h₀.of_frame rfl rfl

theorem migrateKeyNamespace (h : GcInvariant db held) {keyIdGuard : Int64}
    {destination : KeyDescriptor} {callerUid : UInt32}
    {checkPermission : KeyDescriptor → Except Error Unit}
    (hm : db.migrateKeyNamespace keyIdGuard destination callerUid checkPermission = .ok db') :
    GcInvariant db' held := by
  obtain ⟨domain, nspace, keyAlias, -, -, -, rfl⟩ := migrateKeyNamespace_eq_ok hm
  refine h.of_keys rfl ?_
  intro b _ he
  refine KeyExists.of_update ?_ he
  intro k _ _
  exact ⟨rfl, id⟩

theorem unbindKeysForUser (h : GcInvariant db held) (userId : UInt32) :
    GcInvariant (db.unbindKeysForUser userId) held := by
  have h₀ : GcInvariant (db.deleteReceivedGrants userId) held := h.of_frame rfl rfl
  exact h₀.foldl_markUnreferenced _

theorem unbindAuthBoundKeysForUser (h : GcInvariant db held) (userId : UInt32) :
    GcInvariant (db.unbindAuthBoundKeysForUser userId) held := by
  unfold KeystoreDB.unbindAuthBoundKeysForUser
  apply List.foldlRecOn (motive := fun db' : KeystoreDB => GcInvariant db' held) _ _ h
  intro db' h' keyId _
  split
  · exact h'.markUnreferenced keyId
  · exact h'

theorem cleanupLeftovers (h : GcInvariant db held) : GcInvariant db.cleanupLeftovers held := by
  refine h.of_keys rfl ?_
  intro b _ he
  refine KeyExists.of_update ?_ he
  intro k _ _
  refine ⟨rfl, ?_⟩
  rintro (hs | hs) <;> cases hs

/-- Every operation other than the collector's keeps the invariant, when a new key entry
takes an id no blob row refers to. -/
theorem exec (h : GcInvariant db held) {op : Op} (hfresh : op.NewKeyIdUnused db)
    (hcol : op.collector = false) (hexec : db.exec op = .ok db') : GcInvariant db' held := by
  cases op with
  | storeNewKey key keyType params blobInfo certInfo metadata kmUuid newId =>
    rw [KeystoreDB.exec] at hexec
    obtain ⟨⟨keyId, db₁⟩, hs, rfl⟩ := Except.map_eq_ok.1 hexec
    exact h.storeNewKey hfresh hs
  | storeNewCertificate key keyType cert kmUuid now newId =>
    rw [KeystoreDB.exec] at hexec
    obtain ⟨⟨keyId, db₁⟩, hs, rfl⟩ := Except.map_eq_ok.1 hexec
    exact h.storeNewCertificate hfresh hs
  | storeSuperKey userId keyTypeAlias blob blobMetadata keyMetadata newId =>
    rw [KeystoreDB.exec] at hexec
    obtain ⟨⟨e, db₁⟩, hs, rfl⟩ := Except.map_eq_ok.1 hexec
    exact h.storeSuperKey hfresh hs
  | migrateKeyNamespace keyIdGuard destination callerUid checkPermission =>
    exact h.migrateKeyNamespace hexec
  | setBlob keyId scType blob blobMetadata =>
    exact h.setBlobInternal hexec
  | setDeletedBlob blob blobMetadata =>
    rw [KeystoreDB.exec, setDeletedBlob] at hexec
    exact h.setBlobInternal hexec
  | unbindKey key keyType callerUid checkPermission =>
    obtain ⟨info, -, -, rfl⟩ := unbindKey_eq_ok hexec
    exact h.markUnreferenced info.keyId
  | unbindKeysForNamespace domain nspace =>
    obtain ⟨hk, -, hb⟩ := unbindKeysForNamespace_eq_ok hexec
    apply h.of_keys hb
    intro b _ he
    rw [hk] at he
    exact he.of_delete
  | unbindKeysForUser userId =>
    rw [← Except.pure_eq_ok.1 hexec]
    exact h.unbindKeysForUser userId
  | unbindAuthBoundKeysForUser userId =>
    rw [← Except.pure_eq_ok.1 hexec]
    exact h.unbindAuthBoundKeysForUser userId
  | checkAndUpdateKeyUsageCount keyId =>
    obtain ⟨db₁, hk, -, hb, rfl | rfl⟩ := checkAndUpdateKeyUsageCount_eq_ok hexec
    · exact h.of_frame hb hk
    · exact (h.of_frame hb hk).markUnreferenced keyId
  | grant key callerUid granteeUid accessVector checkPermission newId =>
    rw [KeystoreDB.exec] at hexec
    obtain ⟨⟨kd, db₁⟩, hs, rfl⟩ := Except.map_eq_ok.1 hexec
    obtain ⟨-, -, -, hk, hb, -⟩ := grant_eq_ok hs
    exact h.of_frame hb hk
  | ungrant key callerUid granteeUid checkPermission =>
    obtain ⟨info, -, -, rfl⟩ := ungrant_eq_ok hexec
    exact h.of_frame rfl rfl
  | cleanupLeftovers =>
    rw [← Except.pure_eq_ok.1 hexec]
    exact h.cleanupLeftovers
  | handleNextSupersededBlobs useBlobStateColumn blobIdsToDelete maxBlobs =>
    cases hcol

end GcInvariant

/-- The key database with its collector.  `returned` is a ghost: the blob ids of the last
batch `handle_next_superseded_blobs` returned to the collector. -/
structure GcSystem where
  db : KeystoreDB
  gc : GcInternal
  returned : List Nat

namespace GcSystem

/-- The empty database, with a collector that holds nothing. -/
def init : GcSystem := ⟨{}, ⟨[], []⟩, []⟩

/-- One step of the collector, `process_one_key`. -/
def gcStep (useBlobStateColumn : Bool) (s : GcSystem) : GcSystem where
  db := (s.gc.processOneKey s.db useBlobStateColumn).2.1
  gc := (s.gc.processOneKey s.db useBlobStateColumn).1
  returned := if s.gc.supersededBlobs.isEmpty then
      (s.gc.refill s.db useBlobStateColumn).1.pending
    else s.returned

end GcSystem

/-- The states of the system from the empty database, by any interleaving of operations of
other callers, each drawing a new id that `insert_with_retry` accepts and no blob row refers
to, with steps of the collector. -/
inductive GcReachable (useBlobStateColumn : Bool) : GcSystem → Prop
  | init : GcReachable useBlobStateColumn GcSystem.init
  | op {s : GcSystem} {db' : KeystoreDB} (op : Op) : GcReachable useBlobStateColumn s →
      op.Admissible s.db → op.NewKeyIdUnused s.db → op.collector = false →
      s.db.exec op = .ok db' → GcReachable useBlobStateColumn { s with db := db' }
  | gc {s : GcSystem} : GcReachable useBlobStateColumn s →
      GcReachable useBlobStateColumn (s.gcStep useBlobStateColumn)

namespace GcInternal

variable {gc : GcInternal} {db : KeystoreDB} {useBlobStateColumn : Bool}

theorem processOneKey_eq : gc.processOneKey db useBlobStateColumn =
    ((gc.refill db useBlobStateColumn).1.pop.1, (gc.refill db useBlobStateColumn).2,
      (gc.refill db useBlobStateColumn).1.pop.2) := rfl

theorem refill_of_isEmpty (h : gc.supersededBlobs.isEmpty = true) :
    gc.refill db useBlobStateColumn =
      (⟨[], (db.handleNextSupersededBlobs useBlobStateColumn gc.deletedBlobIds 20).1⟩,
        (db.handleNextSupersededBlobs useBlobStateColumn gc.deletedBlobIds 20).2) := by
  simp only [refill, h, if_true]

theorem refill_of_not_isEmpty (h : gc.supersededBlobs.isEmpty = false) :
    gc.refill db useBlobStateColumn = (gc, db) := by
  simp only [refill, h, Bool.false_eq_true, if_false]

end GcInternal

/-- The database invariant for the ids the collector holds, all of which the last batch
returned. -/
structure CollectorInvariant (s : GcSystem) : Prop where
  db : GcInvariant s.db s.gc.pending
  pendingReturned : ∀ i ∈ s.gc.pending, i ∈ s.returned

namespace CollectorInvariant

variable {s : GcSystem}

theorem init : CollectorInvariant GcSystem.init where
  db := GcInvariant.empty
  pendingReturned := fun _ hi => nomatch hi

/-- Before the pop: a refill keeps the invariant, and the collector holds the new batch. -/
theorem refill (h : CollectorInvariant s) (useBlobStateColumn : Bool) :
    GcInvariant (s.gc.refill s.db useBlobStateColumn).2
        (s.gc.refill s.db useBlobStateColumn).1.pending ∧
      ∀ i ∈ (s.gc.refill s.db useBlobStateColumn).1.pending,
        i ∈ (s.gcStep useBlobStateColumn).returned := by
  cases hemp : s.gc.supersededBlobs.isEmpty with
  | true =>
    -- With no superseded blob left, the collector holds exactly its deleted ids.
    have hheld : s.gc.pending = s.gc.deletedBlobIds := by
      rw [GcInternal.pending, List.isEmpty_iff.1 hemp, List.map_nil, List.append_nil]
    have hdb := h.db
    rw [hheld] at hdb
    rw [GcInternal.refill_of_isEmpty hemp]
    refine ⟨hdb.handleNextSupersededBlobs useBlobStateColumn 20, ?_⟩
    intro i hi
    simp only [GcSystem.gcStep, hemp, if_true, GcInternal.refill_of_isEmpty hemp]
    exact hi
  | false =>
    rw [GcInternal.refill_of_not_isEmpty hemp]
    refine ⟨h.db, ?_⟩
    simp only [GcSystem.gcStep, hemp, Bool.false_eq_true, if_false]
    exact h.pendingReturned

theorem gcStep (h : CollectorInvariant s) (useBlobStateColumn : Bool) :
    CollectorInvariant (s.gcStep useBlobStateColumn) := by
  obtain ⟨hdb, hret⟩ := h.refill useBlobStateColumn
  -- The pop moves a blob from one list the collector holds to the other.
  refine ⟨?_, fun i hi => hret i (GcInternal.mem_pending_pop.1 hi)⟩
  show GcInvariant (s.gc.processOneKey s.db useBlobStateColumn).2.1
    (s.gc.processOneKey s.db useBlobStateColumn).1.pending
  rw [GcInternal.processOneKey_eq]
  exact hdb.mono fun i hi => GcInternal.mem_pending_pop.1 hi

theorem of_reachable {useBlobStateColumn : Bool} (h : GcReachable useBlobStateColumn s) :
    CollectorInvariant s := by
  induction h with
  | init => exact init
  | op op _ _ hfresh hcol hexec ih => exact ⟨ih.db.exec hfresh hcol hexec, ih.pendingReturned⟩
  | gc _ ih => exact ih.gcStep useBlobStateColumn

end CollectorInvariant

/-- What a collector step from `s` does, given the collector state, database and popped blob
it leaves: every blob the collector then holds, among them the batch
`handle_next_superseded_blobs` just returned and the blob passed to `invalidate_key`, is an
unprotected key blob of the database; every row the step deleted was unprotected, and a key
blob it deleted was returned by the previous batch. -/
structure CollectorStepSafe (s : GcSystem) (gc : GcInternal) (db : KeystoreDB)
    (popped : Option SupersededBlob) : Prop where
  held : ∀ sb ∈ gc.supersededBlobs ++ popped.toList, ∃ b ∈ db.blobentry, b.id = sb.blobId ∧
    b.subcomponentType = .keyBlob ∧ ¬Protected db b
  deleted : ∀ b ∈ s.db.blobentry, b.id ∉ db.blobentry.map (·.id) →
    ¬Protected s.db b ∧ (b.subcomponentType = .keyBlob → b.id ∈ s.returned)

/-- The database of every state of the system is reachable by the operations alone: the
collector's transaction is one of them. -/
theorem GcReachable.reachable {useBlobStateColumn : Bool} {s : GcSystem}
    (h : GcReachable useBlobStateColumn s) : Reachable s.db := by
  induction h with
  | init => exact Reachable.empty
  | op op _ hadm _ _ hexec ih => exact Reachable.step op ih hadm hexec
  | @gc s _ ih =>
    show Reachable (s.gc.processOneKey s.db useBlobStateColumn).2.1
    rw [GcInternal.processOneKey_eq]
    cases hemp : s.gc.supersededBlobs.isEmpty with
    | true =>
      rw [GcInternal.refill_of_isEmpty hemp]
      exact Reachable.step (.handleNextSupersededBlobs useBlobStateColumn s.gc.deletedBlobIds 20)
        ih trivial rfl
    | false =>
      rw [GcInternal.refill_of_not_isEmpty hemp]
      exact ih

/-- The app unbinds its key `appKeyDescriptor`. -/
def unbindAppKey : Op :=
  .unbindKey appKeyDescriptor .client 10 fun k v => checkKeyPermission allowAll 10 () .delete k v

/-- A certificate-only entry under `appKeyDescriptor`. -/
def storeAppCertificate (newId : Int64) : Op :=
  .storeNewCertificate appKeyDescriptor .client [4] keystoreUuid ⟨0⟩ newId

section Selection

/-- In every state of the system, after `cleanup_unreferenced`, the state-column query selects
only key blobs that the legacy query selects too. -/
theorem GcReachable.supersededKeyBlobsV2_subset {useBlobStateColumn : Bool} {s : GcSystem}
    (h : GcReachable useBlobStateColumn s) :
    ∀ b ∈ s.db.cleanupUnreferenced.supersededKeyBlobsV2,
      b ∈ s.db.cleanupUnreferenced.supersededKeyBlobsV1 := by
  have hc : GcInvariant s.db.cleanupUnreferenced s.gc.pending :=
    (CollectorInvariant.of_reachable h).db.of_keys rfl fun _ _ he => he.of_delete
  intro b hb
  obtain ⟨hb', hkb, hnp⟩ := hc.mem_supersededKeyBlobsV2 hb
  have hkbs : b ∈ s.db.cleanupUnreferenced.blobentry.filter (·.subcomponentType == .keyBlob) :=
    List.mem_filter.2 ⟨hb', by simp [hkb]⟩
  refine List.mem_filter.2 ⟨hkbs, ?_⟩
  -- Otherwise the row would be the newest key blob of an entry, which after the cleanup is
  -- `Existing` or `Live`: a protected row, which is `Current`.
  by_contra hsel
  simp only [Bool.or_eq_true, Bool.not_eq_true', not_or, Bool.not_eq_false,
    List.contains_iff_mem] at hsel
  obtain ⟨hmax, hany⟩ := hsel
  apply hnp
  refine ⟨?_, ?_⟩
  · have hn := newest_of_id_mem_groupMaxIds (hc.idsNodup.sublist (List.filter_sublist.map _))
      hkbs hmax
    intro c hc' hslot
    apply hn c (List.mem_filter.2 ⟨hc', ?_⟩) hslot
    simp only [BlobEntryRow.slot, Prod.mk.injEq] at hslot
    simp [hslot.2, hkb]
  · obtain ⟨k, hk, hid⟩ := List.any_eq_true.1 hany
    have hun := (mem_delete.1 hk).2
    refine ⟨k, hk, by simpa using hid, ?_⟩
    cases hs : k.state with
    | existing => exact Or.inl rfl
    | live => exact Or.inr rfl
    | unreferenced => simp [hs] at hun

/-- The app stores a key under an alias and then another under the same alias.
`rebind_alias` leaves the first entry `Unreferenced` and its key blob, row 1, `Current`; once
`cleanup_unreferenced` deletes the entry, the legacy query selects the row and the
state-column query never does. -/
theorem supersededKeyBlobs_differ_after_rebind :
    ∃ db, ({} : KeystoreDB).run [storeAppKey 7, storeAppKey 8] = .ok db ∧ Reachable db ∧
      db.cleanupUnreferenced.supersededKeyBlobsV2.map (·.id) = [] ∧
      db.cleanupUnreferenced.supersededKeyBlobsV1.map (·.id) = [1] := by
  refine ⟨_, rfl, Reachable.step (storeAppKey 8)
    (Reachable.step (storeAppKey 7) Reachable.empty (by apply And.intro <;> decide) rfl)
      (by apply And.intro <;> decide) rfl, ?_, ?_⟩
  · decide
  · decide

end Selection

end Keystore2.Database
