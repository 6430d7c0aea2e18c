import Mathlib.Data.List.MinMax
import Keystore2.Database.Schema

/-! The operations of `KeystoreDB`.  A public method runs in one transaction: it maps the
database to a result and the new database, or to an error, and then the caller keeps the
database it had (the transaction is rolled back).  The helpers that take a `Transaction` in
the source take the database here and run inside their caller's transaction.

Three things the source leaves to its environment are arguments.  `insert_with_retry` draws
random ids until the insert succeeds: its result, `newId`, is an argument, and the loop's
exit condition (the id is not `UNASSIGNED_KEY_ID` and not yet in the table) is what a run
of the database asks of it.  `DateTime::now` is the argument `now`.  The permission
callbacks are functions to `Except Error Unit`.  The garbage-collector notification that
some methods send after committing is not modelled; the collector may run at any time. -/

namespace Keystore2.Database

open KeyParameter Table

def unassignedKeyId : Int64 := -1

/-- `AID_USER_OFFSET`, the uid range of one Android user. -/
def aidUserOffset : Int64 := 100000

/-- `SELECT MAX(id) FROM persistent.blobentry`, zero for an empty table; SQLite gives a new
row the rowid one above it. -/
def maxRowid (blobentry : List BlobEntryRow) : Nat :=
  blobentry.foldl (fun m b => max m b.id) 0

/-- `SELECT MAX(id) ... GROUP BY keyentryid, subcomponent_type` over `rows`: the ids of the
rows that no row of their group exceeds. -/
def groupMaxIds (rows : List BlobEntryRow) : List Nat :=
  (rows.filter fun b => rows.all fun b' =>
    !(b'.keyentryid == b.keyentryid && b'.subcomponentType == b.subcomponentType) ||
      decide (b'.id ≤ b.id)).map (·.id)

/-- `db_utils::with_rows_extract_one`: the extractor sees the first row, if any, and a second
row is an error. -/
def withRowsExtractOne {ρ α : Type} (rows : List ρ)
    (rowExtractor : Option ρ → Except Error α) : Except Error α :=
  match rows with
  | [] => rowExtractor none
  | [r] => rowExtractor (some r)
  | _ :: _ :: _ => throw Error.sys

/-- The columns `key_type`, `domain`, `namespace` and `alias` by which a descriptor names an
entry. -/
def KeyEntryRow.location (k : KeyEntryRow) :
    KeyType × Option Domain × Option Int64 × Option String :=
  (k.keyType, k.domain, k.nspace, k.keyAlias)

namespace KeystoreDB

variable (db : KeystoreDB)

/-- The state of the key entry with the given id, as the subquery
`(SELECT state FROM persistent.keyentry WHERE id = keyentryid)` reads it. -/
def keyState (keyId : Int64) : Option KeyLifeCycle :=
  (db.keyentry.find? (·.id == keyId)).map (·.state)

def createKeyEntryInternal (domain : Domain) (nspace : Int64) (keyType : KeyType)
    (kmUuid : Uuid) (newId : Int64) : Except Error (Int64 × KeystoreDB) :=
  if domain = .app ∨ domain = .selinux then
    pure (newId, { db with
      keyentry := db.keyentry ++ [⟨newId, keyType, some domain, some nspace, none, .existing,
        kmUuid⟩] })
  else throw Error.sys

def setBlobInternal (keyId : Int64) (scType : SubComponentType) (blob : Option (List UInt8))
    (blobMetadata : Option BlobMetaData) : Except Error KeystoreDB :=
  match blob, scType with
  | some blob, _ =>
    let blobentry := update (fun b => b.keyentryid == keyId && b.subcomponentType == scType)
      (fun b => { b with state := .superseded }) db.blobentry
    let blobentry := blobentry ++ [⟨maxRowid blobentry + 1, scType, keyId, blob, .current⟩]
    let db := { db with blobentry := blobentry }
    match blobMetadata with
    | some blobMetadata =>
      pure { db with
        blobmetadata := blobMetadata.storeInDb (maxRowid db.blobentry) db.blobmetadata }
    | none => pure db
  | none, .cert | none, .certChain =>
    pure { db with
      blobentry := delete (fun b => b.subcomponentType == scType && b.keyentryid == keyId)
        db.blobentry }
  | none, .keyBlob => throw Error.sys

def setBlob (keyId : Int64) (scType : SubComponentType) (blob : Option (List UInt8))
    (blobMetadata : Option BlobMetaData) : Except Error KeystoreDB :=
  db.setBlobInternal keyId scType blob blobMetadata

/-- A key blob of no key, for the garbage collector to delete. -/
def setDeletedBlob (blob : List UInt8) (blobMetadata : BlobMetaData) :
    Except Error KeystoreDB :=
  db.setBlobInternal unassignedKeyId .keyBlob (some blob) (some blobMetadata)

def insertKeyparameterInternal (keyId : Int64) (params : List KeyParameter) : KeystoreDB :=
  { db with keyparameter := db.keyparameter ++ params.map fun p => ⟨keyId, p⟩ }

/-- Binds the alias to the entry `newid`, which must be the one `Existing` entry of that id in
the location, and unbinds every entry of the key type that had the alias there.  The result
says whether an entry was unbound. -/
def rebindAlias (newid : Int64) (keyAlias : String) (domain : Domain) (nspace : Int64)
    (keyType : KeyType) : Except Error (Bool × KeystoreDB) := do
  if ¬(domain = .app ∨ domain = .selinux) then throw Error.sys
  let bound := fun (k : KeyEntryRow) =>
    decide (k.location = (keyType, some domain, some nspace, some keyAlias))
  let updated := db.keyentry.countP bound
  let keyentry := update bound
    (fun k => { k with keyAlias := none, domain := none, nspace := none, state := .unreferenced })
    db.keyentry
  let fresh := fun (k : KeyEntryRow) => k.id == newid && k.domain == some domain &&
    k.nspace == some nspace && k.state == .existing && k.keyType == keyType
  let result := keyentry.countP fresh
  let keyentry := update fresh (fun k => { k with keyAlias := some keyAlias, state := .live })
    keyentry
  if result ≠ 1 then throw Error.sys
  pure (updated ≠ 0, { db with keyentry := keyentry })

/-- The location of a new key: an alias in `Domain::APP` or `Domain::SELINUX`, and no blob. -/
def storeLocation (key : KeyDescriptor) : Except Error (String × Domain × Int64) :=
  match key.keyAlias, key.blob with
  | some keyAlias, none =>
    if key.domain = .app ∨ key.domain = .selinux then pure (keyAlias, key.domain, key.nspace)
    else throw (.rc .invalidArgument)
  | _, _ => throw (.rc .invalidArgument)

def migrateKeyNamespace (keyIdGuard : Int64) (destination : KeyDescriptor) (callerUid : UInt32)
    (checkPermission : KeyDescriptor → Except Error Unit) : Except Error KeystoreDB := do
  let destination ← (
    if destination.domain = .app then pure { destination with nspace := asI64 callerUid }
    else if destination.domain = .selinux then pure destination
    else throw (.rc .invalidArgument))
  checkPermission destination
  let some keyAlias := destination.keyAlias | throw (.rc .invalidArgument)
  -- The destination probe looks at every entry, whatever its key type and state.
  if db.keyentry.any fun k => k.keyAlias == some keyAlias &&
      k.domain == some destination.domain && k.nspace == some destination.nspace then
    throw (.rc .invalidArgument)
  let updated := db.keyentry.countP (·.id == keyIdGuard)
  if updated ≠ 1 then throw Error.sys
  let moved := fun (k : KeyEntryRow) => { k with
    keyAlias := some keyAlias
    domain := some destination.domain
    nspace := some destination.nspace }
  pure { db with keyentry := update (·.id == keyIdGuard) moved db.keyentry }

def storeNewKey (key : KeyDescriptor) (keyType : KeyType) (params : List KeyParameter)
    (blobInfo : BlobInfo) (certInfo : CertificateInfo) (metadata : KeyMetaData) (kmUuid : Uuid)
    (newId : Int64) : Except Error (Int64 × KeystoreDB) := do
  let (keyAlias, domain, nspace) ← storeLocation key
  let (keyId, db) ← db.createKeyEntryInternal domain nspace keyType kmUuid newId
  -- A blob upgraded during import goes in first, to be superseded at once.
  let db ← (match blobInfo.supersededBlob with
    | some (blob, blobMetadata) => db.setBlobInternal keyId .keyBlob (some blob) (some blobMetadata)
    | none => pure db)
  let db ← db.setBlobInternal keyId .keyBlob (some blobInfo.blob) (some blobInfo.metadata)
  let db ← (match certInfo.cert with
    | some cert => db.setBlobInternal keyId .cert (some cert) none
    | none => pure db)
  let db ← (match certInfo.certChain with
    | some certChain => db.setBlobInternal keyId .certChain (some certChain) none
    | none => pure db)
  let db := db.insertKeyparameterInternal keyId params
  let db := { db with keymetadata := metadata.storeInDb keyId db.keymetadata }
  let (_, db) ← db.rebindAlias keyId keyAlias domain nspace keyType
  pure (keyId, db)

def storeNewCertificate (key : KeyDescriptor) (keyType : KeyType) (cert : List UInt8)
    (kmUuid : Uuid) (now : DateTime) (newId : Int64) : Except Error (Int64 × KeystoreDB) := do
  let (keyAlias, domain, nspace) ← storeLocation key
  let (keyId, db) ← db.createKeyEntryInternal domain nspace keyType kmUuid newId
  let db ← db.setBlobInternal keyId .certChain (some cert) none
  let metadata := (Metadata.new : KeyMetaData).add (.creationDate now)
  let db := { db with keymetadata := metadata.storeInDb keyId db.keymetadata }
  let (_, db) ← db.rebindAlias keyId keyAlias domain nspace keyType
  pure (keyId, db)

def loadKeyEntryId (key : KeyDescriptor) (keyType : KeyType) : Except Error Int64 := do
  let some keyAlias := key.keyAlias | throw Error.sys
  let rows := db.keyentry.filter fun k =>
    decide (k.location = (keyType, some key.domain, some key.nspace, some keyAlias)) &&
      k.state == .live
  withRowsExtractOne rows fun
    | some k => pure k.id
    | none => throw (.rc .keyNotFound)

/-- Completes the access tuple of a key descriptor: the key id, the descriptor that the
permission check sees and, for an access by grant, the granted access vector. -/
def loadAccessTuple (key : KeyDescriptor) (keyType : KeyType) (callerUid : UInt32) :
    Except Error KeyAccessInfo :=
  if key.domain = .app ∨ key.domain = .selinux then do
    let accessKey := if key.domain = .app then { key with nspace := asI64 callerUid } else key
    let keyId ← db.loadKeyEntryId accessKey keyType
    pure ⟨keyId, accessKey, none⟩
  else if key.domain = .grant then do
    let rows := db.grantTable.filter fun g => g.grantee == asI64 callerUid &&
      g.id == key.nspace && db.keyState g.keyentryid == some .live
    let (keyId, accessVector) ← withRowsExtractOne rows fun
      | some g => pure (g.keyentryid, g.accessVector)
      | none => throw (.rc .keyNotFound)
    pure ⟨keyId, key, some ⟨accessVector⟩⟩
  else if key.domain = .keyId then do
    let (domain, nspace) ← withRowsExtractOne
      (db.keyentry.filter fun k => k.id == key.nspace && k.state == .live) fun
      | some k => match k.domain, k.nspace with
        | some domain, some nspace => pure (domain, nspace)
        | _, _ => throw Error.sys
      | none => throw (.rc .keyNotFound)
    -- The caller may use by id a key it loaded by grant: look for a grant unless the caller
    -- owns the key.
    let accessVector : Option KeyPermSet :=
      if domain ≠ .app ∨ nspace ≠ asI64 callerUid then
        (db.grantTable.find? fun g =>
          g.grantee == asI64 callerUid && g.keyentryid == key.nspace).map
          fun g => ⟨g.accessVector⟩
      else none
    pure ⟨key.nspace, { key with domain := domain, nspace := nspace }, accessVector⟩
  else throw (.rc .invalidArgument)

/-- The row of the newest blob of a subcomponent type of a key, which the `GROUP BY
subcomponent_type` row with `MAX(id)` reads. -/
def newestBlob (keyId : Int64) (scType : SubComponentType) : Option BlobEntryRow :=
  (db.blobentry.filter fun b => b.keyentryid == keyId && b.subcomponentType == scType).argmax
    (·.id)

/-- One row per subcomponent type present, each read when the load bits ask for it; the
result says whether a key blob is present, and gives the key blob with its metadata, the
certificate and the certificate chain. -/
def loadBlobComponents (keyId : Int64) (loadBits : KeyEntryLoadBits) :
    Bool × Option (List UInt8 × BlobMetaData) × Option (List UInt8) × Option (List UInt8) :=
  let keyBlob := db.newestBlob keyId .keyBlob
  let hasKmBlob := keyBlob.isSome
  let keyBlob := if loadBits.loadKm then keyBlob else none
  let certBlob := if loadBits.loadPublic then (db.newestBlob keyId .cert).map (·.blob) else none
  let certChainBlob :=
    if loadBits.loadPublic then (db.newestBlob keyId .certChain).map (·.blob) else none
  let blobInfo := keyBlob.map fun b => (b.blob, Metadata.loadFromDb b.id db.blobmetadata)
  (hasKmBlob, blobInfo, certBlob, certChainBlob)

def loadKeyParameters (keyId : Int64) : List KeyParameter :=
  (db.keyparameter.filter (·.keyentryid == keyId)).map (·.param)

def getKeyKmUuid (keyId : Int64) : Except Error Uuid :=
  match db.keyentry.find? (·.id == keyId) with
  | some k => pure k.kmUuid
  | none => throw Error.sys

def loadKeyComponents (loadBits : KeyEntryLoadBits) (keyId : Int64) : Except Error KeyEntry := do
  let metadata := Metadata.loadFromDb keyId db.keymetadata
  let (hasKmBlob, keyBlobInfo, certBlob, certChainBlob) := db.loadBlobComponents keyId loadBits
  let parameters := db.loadKeyParameters keyId
  let kmUuid ← db.getKeyKmUuid keyId
  pure {
    id := keyId
    keyBlobInfo := keyBlobInfo
    cert := certBlob
    certChain := certChainBlob
    kmUuid := kmUuid
    parameters := parameters
    metadata := metadata
    pureCert := !hasKmBlob }

def storeSuperKey (userId : UInt32) (keyTypeAlias : String) (blob : List UInt8)
    (blobMetadata : BlobMetaData) (keyMetadata : KeyMetaData) (newId : Int64) :
    Except Error (KeyEntry × KeystoreDB) := do
  let db := { db with
    keyentry := db.keyentry ++ [(⟨newId, .super, some .app, some (asI64 userId),
      some keyTypeAlias, .live, keystoreUuid⟩ : KeyEntryRow)] }
  let db := { db with keymetadata := keyMetadata.storeInDb newId db.keymetadata }
  let db ← db.setBlobInternal newId .keyBlob (some blob) (some blobMetadata)
  let keyEntry ← db.loadKeyComponents .km newId
  pure (keyEntry, db)

def loadSuperKey (keyTypeAlias : String) (userId : UInt32) :
    Except Error (Option (Int64 × KeyEntry)) :=
  match db.loadKeyEntryId ⟨.app, asI64 userId, some keyTypeAlias, none⟩ .super with
  | .ok id => do
    let keyEntry ← db.loadKeyComponents .km id
    pure (some (id, keyEntry))
  | .error (.rc .keyNotFound) => pure none
  | .error e => throw e

/-- Deletes the key entry with its metadata, parameters and grants; its blobs stay, marked
`Orphaned`, for the garbage collector.  The result says whether an entry was deleted. -/
def markUnreferenced (keyId : Int64) : Bool × KeystoreDB :=
  (db.keyentry.any (·.id == keyId),
    { db with
      keyentry := delete (·.id == keyId) db.keyentry
      keymetadata := delete (·.owner == keyId) db.keymetadata
      keyparameter := delete (·.keyentryid == keyId) db.keyparameter
      grantTable := delete (·.keyentryid == keyId) db.grantTable
      blobentry := update (·.keyentryid == keyId) (fun b => { b with state := .orphaned })
        db.blobentry })

def checkAndUpdateKeyUsageCount (keyId : Int64) : Except Error KeystoreDB := do
  let limit := (db.keyparameter.find? fun r => r.keyentryid == keyId &&
    r.param.value.getTag == .usageCountLimit).bind (·.param.value.usageCountLimit?)
  let some limit := limit | throw (.km .invalidKeyBlob)
  let db := { db with
    keyparameter := update (fun r => r.keyentryid == keyId &&
        r.param.value.usageCountLimit?.any (0 < ·))
      (fun r => { r with param := { r.param with
        value := .usageCountLimit ((r.param.value.usageCountLimit?.getD 0) - 1) } })
      db.keyparameter }
  if limit = 1 then pure (db.markUnreferenced keyId).2
  else if limit = 0 then throw (.km .invalidKeyBlob)
  else pure db

/-- `load_key_entry`.  Unless the descriptor is by key id, the key-id lock is tried only once
the key id is known, inside the transaction; when it is held elsewhere the transaction is
rolled back and, once the lock is free, a second transaction reloads the key by its id,
without a second permission check.  `lockDeferred` is `none` when the lock was free at once
and otherwise the database as the second transaction finds it. -/
def loadKeyEntry (lockDeferred : Option KeystoreDB) (key : KeyDescriptor) (keyType : KeyType)
    (loadBits : KeyEntryLoadBits) (callerUid : UInt32)
    (checkPermission : KeyDescriptor → Option KeyPermSet → Except Error Unit) :
    Except Error (Int64 × KeyEntry) := do
  let access ← db.loadAccessTuple key keyType callerUid
  checkPermission access.descriptor access.vector
  let db ← (
    match lockDeferred with
    | some db' =>
      if key.domain = .keyId then pure db
      else do
        let _ ← db'.loadAccessTuple ⟨.keyId, access.keyId, none, none⟩ keyType callerUid
        pure db'
    | none => pure db)
  let keyEntry ← db.loadKeyComponents loadBits access.keyId
  pure (access.keyId, keyEntry)

def unbindKey (key : KeyDescriptor) (keyType : KeyType) (callerUid : UInt32)
    (checkPermission : KeyDescriptor → Option KeyPermSet → Except Error Unit) :
    Except Error KeystoreDB := do
  let access ← db.loadAccessTuple key keyType callerUid
  checkPermission access.descriptor access.vector
  pure (db.markUnreferenced access.keyId).2

/-- Deletes the client keys of a namespace with their metadata, parameters and grants, and
for an app namespace the grants it received; the blobs stay for the garbage collector. -/
def unbindKeysForNamespace (domain : Domain) (nspace : Int64) : Except Error KeystoreDB := do
  if ¬(domain = .app ∨ domain = .selinux) then throw (.rc .invalidArgument)
  let inNamespace := fun (k : KeyEntryRow) =>
    k.domain == some domain && k.nspace == some nspace && k.keyType == .client
  let ids := (db.keyentry.filter inNamespace).map (·.id)
  let grants := delete (fun g => ids.contains g.keyentryid) db.grantTable
  pure { db with
    keymetadata := delete (fun r => ids.contains r.owner) db.keymetadata
    keyparameter := delete (fun r => ids.contains r.keyentryid) db.keyparameter
    grantTable := if domain = .app then delete (·.grantee == nspace) grants else grants
    keyentry := delete inNamespace db.keyentry }

/-- Deletes the entries in state `Unreferenced` with their metadata, parameters and grants. -/
def cleanupUnreferenced : KeystoreDB :=
  let ids := (db.keyentry.filter (·.state == .unreferenced)).map (·.id)
  { db with
    keymetadata := delete (fun r => ids.contains r.owner) db.keymetadata
    keyparameter := delete (fun r => ids.contains r.keyentryid) db.keyparameter
    grantTable := delete (fun g => ids.contains g.keyentryid) db.grantTable
    keyentry := delete (·.state == .unreferenced) db.keyentry }

/-- `cast ((namespace / AID_USER_OFFSET) as int) = user_id`. -/
def ofUser (userId : UInt32) (nspace : Int64) : Bool :=
  (nspace / aidUserOffset).toInt == (userId.toNat : Int)

def deleteReceivedGrants (userId : UInt32) : KeystoreDB :=
  { db with grantTable := delete (fun g => ofUser userId g.grantee) db.grantTable }

/-- The live client keys of the apps of a user. -/
def appKeysOfUser (userId : UInt32) : List Int64 :=
  (db.keyentry.filter fun k => k.keyType == .client && k.domain == some .app &&
    k.nspace.any (ofUser userId) && k.state == .live).map (·.id)

def unbindKeysForUser (userId : UInt32) : KeystoreDB :=
  let db := db.deleteReceivedGrants userId
  let keyIds := (db.keyentry.filter fun k =>
    (k.keyType == .client && k.domain == some .app && k.nspace.any (ofUser userId) &&
      k.state == .live) ||
    (k.keyType == .super && k.nspace == some (asI64 userId) && k.state == .live)).map (·.id)
  keyIds.foldl (fun db keyId => (db.markUnreferenced keyId).2) db

/-- Deletes the app keys of a user that require user authentication, which a
`USER_SECURE_ID` parameter marks. -/
def unbindAuthBoundKeysForUser (userId : UInt32) : KeystoreDB :=
  (db.appKeysOfUser userId).foldl (fun db keyId =>
    if (db.loadKeyParameters keyId).any (·.value.userSecureID?.isSome) then
      (db.markUnreferenced keyId).2
    else db) db

def grant (key : KeyDescriptor) (callerUid granteeUid : UInt32) (accessVector : KeyPermSet)
    (checkPermission : KeyDescriptor → KeyPermSet → Except Error Unit) (newId : Int64) :
    Except Error (KeyDescriptor × KeystoreDB) := do
  let access ← db.loadAccessTuple key .client callerUid
  checkPermission access.descriptor accessVector
  let (grantId, db) :=
    match db.grantTable.find? fun g =>
        g.keyentryid == access.keyId && g.grantee == asI64 granteeUid with
    | some g =>
      (g.id, { db with
        grantTable := update (·.id == g.id) (fun g => { g with accessVector := accessVector.val })
          db.grantTable })
    | none =>
      (newId, { db with
        grantTable :=
          db.grantTable ++ [⟨newId, asI64 granteeUid, access.keyId, accessVector.val⟩] })
  pure (⟨.grant, grantId, none, none⟩, db)

def ungrant (key : KeyDescriptor) (callerUid granteeUid : UInt32)
    (checkPermission : KeyDescriptor → Except Error Unit) : Except Error KeystoreDB := do
  let access ← db.loadAccessTuple key .client callerUid
  checkPermission access.descriptor
  pure { db with
    grantTable := delete (fun g => g.keyentryid == access.keyId && g.grantee == asI64 granteeUid)
      db.grantTable }

/-- Moves every entry left `Existing` by a crash to `Unreferenced`. -/
def cleanupLeftovers : KeystoreDB :=
  { db with
    keyentry := update (·.state == .existing) (fun k => { k with state := .unreferenced })
      db.keyentry }

/-- The key blobs the collector must see, by the state column. -/
def supersededKeyBlobsV2 : List BlobEntryRow :=
  db.blobentry.filter fun b => b.subcomponentType == .keyBlob && b.state != .current

/-- The key blobs the collector must see, by the legacy query: not the newest of their key,
or of no key entry. -/
def supersededKeyBlobsV1 : List BlobEntryRow :=
  let keyBlobs := db.blobentry.filter (·.subcomponentType == .keyBlob)
  keyBlobs.filter fun b => !(groupMaxIds keyBlobs).contains b.id ||
    !db.keyentry.any (·.id == b.keyentryid)

/-- The two statements that delete a blob the collector is done with: its metadata, then
the blob. -/
def deleteBlob (blobId : Nat) : KeystoreDB :=
  { db with
    blobmetadata := delete (·.owner == blobId) db.blobmetadata
    blobentry := delete (·.id == blobId) db.blobentry }

/-- Deletes the blobs the collector is done with, removes the unreferenced entries and
returns up to `maxBlobs` superseded key blobs; when there are none, it deletes the other
superseded blobs, which need no call into KeyMint. -/
def handleNextSupersededBlobs (useBlobStateColumn : Bool) (blobIdsToDelete : List Nat)
    (maxBlobs : Nat) : List SupersededBlob × KeystoreDB :=
  let db := blobIdsToDelete.foldl deleteBlob db
  let db := db.cleanupUnreferenced
  let result := (if useBlobStateColumn then db.supersededKeyBlobsV2
    else db.supersededKeyBlobsV1).take maxBlobs
  let result := result.map fun b => ⟨b.id, b.blob, Metadata.loadFromDb b.id db.blobmetadata⟩
  if !result.isEmpty then (result, db)
  else if useBlobStateColumn then
    ([], { db with
      blobentry := delete (fun b => b.subcomponentType != .keyBlob && b.state != .current)
        db.blobentry })
  else
    let others := db.blobentry.filter (·.subcomponentType != .keyBlob)
    ([], { db with
      blobentry := delete (fun b => b.subcomponentType != .keyBlob &&
          (!(groupMaxIds others).contains b.id || !db.keyentry.any (·.id == b.keyentryid)))
        db.blobentry })

end KeystoreDB

end Keystore2.Database
