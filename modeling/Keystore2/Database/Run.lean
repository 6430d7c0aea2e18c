import Keystore2.Database.KeystoreDB

/-! Runs of the key database.  `Op` lists the methods that change the persistent database,
with their arguments; `KeystoreDB.exec` runs one as its own transaction.  A state is
`Reachable` when some sequence of committed operations leads to it from the empty
database; each operation that draws a random id draws one that `insert_with_retry` accepts,
and `store_super_key` is called only after `load_super_key` found no key, as its callers
do.  A failed operation leaves the database as it was, so it needs no step of its own. -/

namespace Keystore2.Database

open KeyParameter

inductive Op
  | storeNewKey (key : KeyDescriptor) (keyType : KeyType) (params : List KeyParameter)
      (blobInfo : BlobInfo) (certInfo : CertificateInfo) (metadata : KeyMetaData) (kmUuid : Uuid)
      (newId : Int64)
  | storeNewCertificate (key : KeyDescriptor) (keyType : KeyType) (cert : List UInt8)
      (kmUuid : Uuid) (now : DateTime) (newId : Int64)
  | storeSuperKey (userId : UInt32) (keyTypeAlias : String) (blob : List UInt8)
      (blobMetadata : BlobMetaData) (keyMetadata : KeyMetaData) (newId : Int64)
  | migrateKeyNamespace (keyIdGuard : Int64) (destination : KeyDescriptor) (callerUid : UInt32)
      (checkPermission : KeyDescriptor → Except Error Unit)
  | setBlob (keyId : Int64) (scType : SubComponentType) (blob : Option (List UInt8))
      (blobMetadata : Option BlobMetaData)
  | setDeletedBlob (blob : List UInt8) (blobMetadata : BlobMetaData)
  | unbindKey (key : KeyDescriptor) (keyType : KeyType) (callerUid : UInt32)
      (checkPermission : KeyDescriptor → Option KeyPermSet → Except Error Unit)
  | unbindKeysForNamespace (domain : Domain) (nspace : Int64)
  | unbindKeysForUser (userId : UInt32)
  | unbindAuthBoundKeysForUser (userId : UInt32)
  | checkAndUpdateKeyUsageCount (keyId : Int64)
  | grant (key : KeyDescriptor) (callerUid granteeUid : UInt32) (accessVector : KeyPermSet)
      (checkPermission : KeyDescriptor → KeyPermSet → Except Error Unit) (newId : Int64)
  | ungrant (key : KeyDescriptor) (callerUid granteeUid : UInt32)
      (checkPermission : KeyDescriptor → Except Error Unit)
  | cleanupLeftovers
  | handleNextSupersededBlobs (useBlobStateColumn : Bool) (blobIdsToDelete : List Nat)
      (maxBlobs : Nat)

namespace KeystoreDB

variable (db : KeystoreDB)

/-- One operation as a transaction; its result other than the database is dropped. -/
def exec : Op → Except Error KeystoreDB
  | .storeNewKey key keyType params blobInfo certInfo metadata kmUuid newId =>
    (·.2) <$> db.storeNewKey key keyType params blobInfo certInfo metadata kmUuid newId
  | .storeNewCertificate key keyType cert kmUuid now newId =>
    (·.2) <$> db.storeNewCertificate key keyType cert kmUuid now newId
  | .storeSuperKey userId keyTypeAlias blob blobMetadata keyMetadata newId =>
    (·.2) <$> db.storeSuperKey userId keyTypeAlias blob blobMetadata keyMetadata newId
  | .migrateKeyNamespace keyIdGuard destination callerUid checkPermission =>
    db.migrateKeyNamespace keyIdGuard destination callerUid checkPermission
  | .setBlob keyId scType blob blobMetadata => db.setBlob keyId scType blob blobMetadata
  | .setDeletedBlob blob blobMetadata => db.setDeletedBlob blob blobMetadata
  | .unbindKey key keyType callerUid checkPermission =>
    db.unbindKey key keyType callerUid checkPermission
  | .unbindKeysForNamespace domain nspace => db.unbindKeysForNamespace domain nspace
  | .unbindKeysForUser userId => pure (db.unbindKeysForUser userId)
  | .unbindAuthBoundKeysForUser userId => pure (db.unbindAuthBoundKeysForUser userId)
  | .checkAndUpdateKeyUsageCount keyId => db.checkAndUpdateKeyUsageCount keyId
  | .grant key callerUid granteeUid accessVector checkPermission newId =>
    (·.2) <$> db.grant key callerUid granteeUid accessVector checkPermission newId
  | .ungrant key callerUid granteeUid checkPermission =>
    db.ungrant key callerUid granteeUid checkPermission
  | .cleanupLeftovers => pure db.cleanupLeftovers
  | .handleNextSupersededBlobs useBlobStateColumn blobIdsToDelete maxBlobs =>
    pure (db.handleNextSupersededBlobs useBlobStateColumn blobIdsToDelete maxBlobs).2

/-- The operations one after another, each in its own transaction, up to the first that
fails. -/
def run : KeystoreDB → List Op → Except Error KeystoreDB
  | db, [] => pure db
  | db, op :: ops => do
    let db' ← db.exec op
    run db' ops

/-- An id that `insert_with_retry` accepts for a table with these ids. -/
def FreshId (ids : List Int64) (newId : Int64) : Prop :=
  newId ≠ unassignedKeyId ∧ newId ∉ ids

end KeystoreDB

open KeystoreDB

/-- What a run asks of an operation in the state where it runs. -/
def Op.Admissible (db : KeystoreDB) : Op → Prop
  | .storeNewKey _ _ _ _ _ _ _ newId => FreshId (db.keyentry.map (·.id)) newId
  | .storeNewCertificate _ _ _ _ _ newId => FreshId (db.keyentry.map (·.id)) newId
  | .storeSuperKey userId keyTypeAlias _ _ _ newId =>
    FreshId (db.keyentry.map (·.id)) newId ∧ db.loadSuperKey keyTypeAlias userId = .ok none
  | .grant _ _ _ _ _ newId => FreshId (db.grantTable.map (·.id)) newId
  | _ => True

inductive Reachable : KeystoreDB → Prop
  | empty : Reachable {}
  | step {db db' : KeystoreDB} (op : Op) :
      Reachable db → op.Admissible db → db.exec op = .ok db' → Reachable db'

/-- The induction principle of every invariant: it holds of the empty database and each
admissible operation keeps it. -/
theorem Reachable.induction {P : KeystoreDB → Prop} (hempty : P {})
    (hstep : ∀ db db' op, Reachable db → P db → op.Admissible db → db.exec op = .ok db' → P db')
    {db : KeystoreDB} (h : Reachable db) : P db := by
  induction h with
  | empty => exact hempty
  | step op hr hadm hexec ih => exact hstep _ _ op hr ih hadm hexec

end Keystore2.Database
