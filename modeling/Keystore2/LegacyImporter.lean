import Mathlib.Data.List.AList
import Keystore2.Database.Effects
import Keystore2.Lib.Transition

/-! The transparent import of legacy keys (`legacy_importer.rs`).  A call that reads or deletes a
key by alias first runs its accessor on the key database; if that fails with `KEY_NOT_FOUND`,
`with_try_import` asks the importer to move the legacy entry of the caller and alias into the
database and then runs the accessor once more.  The importer remembers what it imported
(`recently_imported`) and deletes the legacy files of an imported entry.

The legacy database is a finite map from a uid and an alias to what `load_by_uid_alias` finds
there.  The importer runs on its own thread with its own connection; calls are taken one after
another here, each import request seeing the key database as the caller left it.  What a
request to import gets from its environment, `ImportEnv`, is an argument.

Key creation stores into the database alone and deletion unbinds the database entry alone: the
legacy entry of the alias stays where it was.  So a legacy entry that a new key shadowed comes
back once that key is deleted, which `legacyKey_resurfaces_after_delete` shows on a run. -/

namespace Keystore2.LegacyImporter

open Database KeyParameter

/-- `LegacyImporter::WIFI_NAMESPACE`, the SELinux namespace whose keys belong to `AID_WIFI`. -/
def wifiNamespace : Int64 := 102

def aidWifi : UInt32 := 1010

structure RecentImport where
  uid : UInt32
  keyAlias : String
  deriving DecidableEq, Repr

/-- A key of the legacy database as its import writes it: the key parameters, the blob with
the blob it supersedes when the characteristics were upgraded, the user certificate, the key
metadata and the KeyMint uuid. -/
structure LegacyKey where
  params : List KeyParameter
  blobInfo : BlobInfo
  userCert : Option (List UInt8)
  metadata : KeyMetaData
  kmUuid : Uuid

/-- What `load_by_uid_alias` finds for a uid and an alias: the key, if any, and the CA
certificate. -/
structure LegacyEntry where
  key : Option LegacyKey
  caCert : Option (List UInt8)

/-- The legacy database, the importer's `recently_imported`, and the key database.  `ready`
is `STATE_READY`: the legacy database was not yet found empty. -/
structure World where
  legacy : AList fun _ : RecentImport => LegacyEntry
  recentlyImported : List RecentImport
  db : KeystoreDB
  ready : Bool

/-- What an import request gets from outside: the outcome of loading and preparing the legacy
entry (reading and decrypting its files, upgrading its characteristics, finding the super key
id and the KeyMint uuid), the id that `insert_with_retry` draws, the time, and the outcome of
`remove_keystore_entry`. -/
structure ImportEnv where
  prepare : Except Error Unit
  newId : Int64
  now : DateTime
  remove : Except Error Unit

namespace World

/-- `load_by_uid_alias`: nothing at all where the legacy database has no entry. -/
def load (w : World) (r : RecentImport) : LegacyEntry :=
  (w.legacy.lookup r).getD ⟨none, none⟩

end World

/-- `LegacyImporterState::check_and_import`. -/
def checkAndImport (env : ImportEnv) (uid : UInt32) (key : KeyDescriptor) (w : World) :
    Except Error Unit × World :=
  match key.keyAlias with
  | none => (throw Error.sys, w)
  | some keyAlias =>
    if ⟨uid, keyAlias⟩ ∈ w.recentlyImported then (pure (), w)
    else
      let key := if key.domain = .app then { key with nspace := asI64 uid } else key
      match env.prepare with
      | .error e => (throw e, w)
      | .ok () =>
        let entry := w.load ⟨uid, keyAlias⟩
        let result : Except Error KeystoreDB :=
          match entry.key with
          | some k =>
            (w.db.storeNewKey key .client k.params k.blobInfo ⟨k.userCert, entry.caCert⟩
              k.metadata k.kmUuid env.newId).map (·.2)
          | none =>
            match entry.caCert with
            | some caCert =>
              (w.db.storeNewCertificate key .client caCert keystoreUuid env.now env.newId).map (·.2)
            | none => throw (.rc .keyNotFound)
        match result with
        | .error e => (throw e, w)
        | .ok db =>
          -- The import is recorded before the legacy files go; `remove_keystore_entry` only
          -- logs a failed file removal, and its error is that of the user directory's cleanup.
          (env.remove, { w with
            db := db
            recentlyImported := ⟨uid, keyAlias⟩ :: w.recentlyImported
            legacy := w.legacy.erase ⟨uid, keyAlias⟩ })

/-- `do_serialized`: no request once the legacy database was found empty; after a request,
the importer checks whether it is empty now. -/
def doSerialized {α : Type} (f : World → Except Error α × World) (w : World) :
    Option (Except Error α × World) :=
  if w.ready then
    let (result, w) := f w
    some (result, { w with ready := !w.legacy.entries.isEmpty })
  else none

/-- The uid whose legacy keys a descriptor may name: the caller's for an app key, `AID_WIFI`
for a key of the wifi namespace. -/
def importUid (key : KeyDescriptor) (callerUid : UInt32) : Except Error UInt32 :=
  if key.domain = .app ∧ key.keyAlias.isSome then pure callerUid
  else if key.domain = .selinux ∧ key.keyAlias.isSome then
    if key.nspace = wifiNamespace then pure aidWifi else throw (.rc .keyNotFound)
  else throw (.rc .keyNotFound)

/-- `with_try_import`.  The accessor is a transaction on the key database: it gives its result
and the database it commits, or an error, and then nothing is written. -/
def withTryImport {α : Type} (env : ImportEnv) (key : KeyDescriptor) (callerUid : UInt32)
    (keyAccessor : KeystoreDB → Except Error (α × KeystoreDB)) (w : World) :
    Except Error α × World :=
  match keyAccessor w.db with
  | .ok (result, db) => (pure result, { w with db := db })
  | .error e =>
    if e ≠ .rc .keyNotFound then (throw e, w)
    else
      match importUid key callerUid with
      | .error e => (throw e, w)
      | .ok uid =>
        match doSerialized (checkAndImport env uid key) w with
        | none => (throw (.rc .keyNotFound), w)
        | some (.error e, w) => (throw e, w)
        | some (.ok (), w) =>
          -- After a successful import the accessor runs again.
          match keyAccessor w.db with
          | .ok (result, db) => (pure result, { w with db := db })
          | .error e => (throw e, w)

section Service

variable (env : ImportEnv) (callerUid : UInt32)
  (checkPermission : KeyDescriptor → Option KeyPermSet → Except Error Unit)

/-- `KeystoreService::get_key_entry`, up to the entry it loads. -/
def getKeyEntry (key : KeyDescriptor) (w : World) : Except Error (Int64 × KeyEntry) × World :=
  withTryImport env key callerUid
    (fun db => (db.loadKeyEntry none key .client .pub callerUid checkPermission).map (·, db)) w

/-- `KeystoreService::delete_key`. -/
def deleteKey (key : KeyDescriptor) (w : World) : Except Error Unit × World :=
  withTryImport env key callerUid
    (fun db => (db.unbindKey key .client callerUid checkPermission).map ((), ·)) w

end Service

/-- `KeystoreSecurityLevel::store_new_key` for a key that `generate_key` or `import_key` made
under an app alias, which names the caller's namespace: the database write alone. -/
def storeNewKey (callerUid : UInt32) (keyAlias : String) (params : List KeyParameter)
    (blobInfo : BlobInfo) (certInfo : CertificateInfo) (metadata : KeyMetaData) (kmUuid : Uuid)
    (newId : Int64) (w : World) : Except Error Int64 × World :=
  match w.db.storeNewKey ⟨.app, asI64 callerUid, some keyAlias, none⟩ .client params blobInfo
      certInfo metadata kmUuid newId with
  | .ok (keyId, db) => (pure keyId, { w with db := db })
  | .error e => (throw e, w)

/-- The calls of an app on its keys, each with what it gets from outside; `access` stands for
the other calls that load a key through `with_try_import` (`updateSubcomponent`, `grant`,
`createOperation`), given by their database transaction. -/
inductive Call
  | storeNewKey (keyAlias : String) (params : List KeyParameter) (blobInfo : BlobInfo)
      (certInfo : CertificateInfo) (metadata : KeyMetaData) (kmUuid : Uuid) (newId : Int64)
  | getKeyEntry (key : KeyDescriptor) (env : ImportEnv)
      (checkPermission : KeyDescriptor → Option KeyPermSet → Except Error Unit)
  | deleteKey (key : KeyDescriptor) (env : ImportEnv)
      (checkPermission : KeyDescriptor → Option KeyPermSet → Except Error Unit)
  | access (key : KeyDescriptor) (env : ImportEnv)
      (keyAccessor : KeystoreDB → Except Error (Unit × KeystoreDB))

namespace World

def step (callerUid : UInt32) (w : World) : Call → World
  | .storeNewKey keyAlias params blobInfo certInfo metadata kmUuid newId =>
    (storeNewKey callerUid keyAlias params blobInfo certInfo metadata kmUuid newId w).2
  | .getKeyEntry key env checkPermission => (getKeyEntry env callerUid checkPermission key w).2
  | .deleteKey key env checkPermission => (deleteKey env callerUid checkPermission key w).2
  | .access key env keyAccessor => (withTryImport env key callerUid keyAccessor w).2

/-- The worlds that calls of the app lead to from `w₀`. -/
def Reachable (callerUid : UInt32) (w₀ : World) : World → Prop :=
  Lib.Reachable w₀ fun w c => some (w.step callerUid c)

/-- The importer's record: no entry is imported twice, and an imported entry is gone from the
legacy database. -/
structure Inv (w : World) : Prop where
  nodup : w.recentlyImported.Nodup
  imported_gone : ∀ r ∈ w.recentlyImported, w.legacy.lookup r = none

theorem inv_of_nil {w : World} (h : w.recentlyImported = []) : w.Inv where
  nodup := h ▸ List.nodup_nil
  imported_gone := by
    rw [h]
    simp

end World

section Import

variable {env : ImportEnv} {uid callerUid : UInt32} {key : KeyDescriptor} {w : World}

/-- `check_and_import` changes nothing, or imports the entry of an alias it had not imported:
it records the alias and the legacy entry is gone. -/
theorem checkAndImport_cases (env : ImportEnv) (uid : UInt32) (key : KeyDescriptor) (w : World) :
    (checkAndImport env uid key w).2 = w ∨
      ∃ keyAlias db, key.keyAlias = some keyAlias ∧ ⟨uid, keyAlias⟩ ∉ w.recentlyImported ∧
        (checkAndImport env uid key w).2 = { w with
          db := db
          recentlyImported := ⟨uid, keyAlias⟩ :: w.recentlyImported
          legacy := w.legacy.erase ⟨uid, keyAlias⟩ } := by
  unfold checkAndImport
  split
  · exact .inl rfl
  · rename_i keyAlias hkey
    split
    · exact .inl rfl
    · rename_i hnot
      dsimp only
      split
      · exact .inl rfl
      · split
        · exact .inl rfl
        · rename_i db _
          exact .inr ⟨keyAlias, db, hkey, hnot, rfl⟩

/-- An entry the importer recorded is never imported again. -/
theorem checkAndImport_of_recentlyImported {keyAlias : String} (hkey : key.keyAlias = some keyAlias)
    (hmem : ⟨uid, keyAlias⟩ ∈ w.recentlyImported) : checkAndImport env uid key w = (pure (), w) := by
  unfold checkAndImport
  rw [hkey]
  dsimp only
  rw [if_pos hmem]

theorem doSerialized_eq_some {α : Type} {f : World → Except Error α × World}
    {r : Except Error α} {w' : World} (h : doSerialized f w = some (r, w')) :
    (f w).1 = r ∧ w' = { (f w).2 with ready := !(f w).2.legacy.entries.isEmpty } := by
  unfold doSerialized at h
  split at h
  · rcases hf : f w with ⟨r₁, w₁⟩
    rw [hf] at h
    cases h
    exact ⟨rfl, rfl⟩
  · cases h

/-- An import happens only after the accessor found no key. -/
theorem withTryImport_keyNotFound {α : Type}
    {keyAccessor : KeystoreDB → Except Error (α × KeystoreDB)}
    (h : (withTryImport env key callerUid keyAccessor w).2.recentlyImported ≠ w.recentlyImported) :
    keyAccessor w.db = .error (.rc .keyNotFound) := by
  unfold withTryImport at h
  split at h
  · exact absurd rfl h
  · rename_i e he
    by_cases hnf : e = .rc .keyNotFound
    · rw [he, hnf]
    · rw [if_pos hnf] at h
      exact absurd rfl h

end Import

namespace World.Inv

variable {env : ImportEnv} {uid callerUid : UInt32} {key : KeyDescriptor} {w : World}

theorem withDb (h : w.Inv) (db : KeystoreDB) : World.Inv { w with db := db } :=
  ⟨h.nodup, h.imported_gone⟩

theorem checkAndImport (h : w.Inv) : (LegacyImporter.checkAndImport env uid key w).2.Inv := by
  rcases checkAndImport_cases env uid key w with heq | ⟨keyAlias, db, -, hnot, heq⟩
  · rw [heq]
    exact h
  · rw [heq]
    constructor
    · exact List.nodup_cons.mpr ⟨hnot, h.nodup⟩
    · intro r hr
      by_cases hne : r = ⟨uid, keyAlias⟩
      · subst hne
        exact AList.lookup_erase _ _
      · rw [AList.lookup_erase_ne hne]
        exact h.imported_gone r ((List.mem_cons.mp hr).resolve_left hne)

theorem doSerialized {α : Type} {f : World → Except Error α × World} (hf : ∀ w, w.Inv → (f w).2.Inv)
    (h : w.Inv) {r : Except Error α} {w' : World} (hs : LegacyImporter.doSerialized f w = some (r, w')) :
    w'.Inv := by
  obtain ⟨-, rfl⟩ := doSerialized_eq_some hs
  have h₁ := hf w h
  exact ⟨h₁.nodup, h₁.imported_gone⟩

theorem withTryImport {α : Type} (h : w.Inv)
    (keyAccessor : KeystoreDB → Except Error (α × KeystoreDB)) :
    (LegacyImporter.withTryImport env key callerUid keyAccessor w).2.Inv := by
  unfold LegacyImporter.withTryImport
  split
  · exact h.withDb _
  · split
    · exact h
    · split
      · exact h
      · rename_i uid _
        have hser := @doSerialized _ _ _ (fun w' hw => @World.Inv.checkAndImport env uid key w' hw) h
        split
        · exact h
        · exact hser ‹_›
        · have h' := hser ‹_›
          split
          · exact h'.withDb _
          · exact h'

theorem storeNewKey (h : w.Inv) (keyAlias : String) (params : List KeyParameter)
    (blobInfo : BlobInfo) (certInfo : CertificateInfo) (metadata : KeyMetaData) (kmUuid : Uuid)
    (newId : Int64) :
    (LegacyImporter.storeNewKey callerUid keyAlias params blobInfo certInfo metadata kmUuid newId
      w).2.Inv := by
  unfold LegacyImporter.storeNewKey
  split
  · exact h.withDb _
  · exact h

theorem step (h : w.Inv) (c : Call) : (w.step callerUid c).Inv := by
  cases c with
  | storeNewKey keyAlias params blobInfo certInfo metadata kmUuid newId =>
    exact h.storeNewKey keyAlias params blobInfo certInfo metadata kmUuid newId
  | getKeyEntry key env checkPermission => exact h.withTryImport _
  | deleteKey key env checkPermission => exact h.withTryImport _
  | access key env keyAccessor => exact h.withTryImport keyAccessor

end World.Inv

/-- Over every run of calls from a world whose importer has recorded nothing, no entry is
ever imported twice and every imported entry is gone from the legacy database. -/
theorem World.Reachable.inv {callerUid : UInt32} {w₀ w : World} (h₀ : w₀.recentlyImported = [])
    (h : World.Reachable callerUid w₀ w) : w.Inv :=
  @Lib.Reachable.invariant _ _ w₀ _ World.Inv (World.inv_of_nil h₀)
    (fun w c w' hw hstep => by
      cases hstep
      exact hw.step c) w h

/-- The app with uid `10` has a legacy key under the alias `"a"` that was never imported.  It
generates a new key under `"a"`, which shadows the legacy key, and deletes it; `getKeyEntry`
then finds no key, imports the legacy key under the new id `2`, and returns it. -/
theorem legacyKey_resurfaces_after_delete :
    let key : KeyDescriptor := ⟨.app, 0, some "a", none⟩
    let legacyKey : LegacyKey := ⟨[], ⟨[1], Metadata.new, none⟩, none, Metadata.new, keystoreUuid⟩
    let w₀ : World := ⟨(∅ : AList fun _ : RecentImport => LegacyEntry).insert ⟨10, "a"⟩
      ⟨some legacyKey, none⟩, [], {}, true⟩
    let env : ImportEnv := ⟨.ok (), 2, ⟨0⟩, .ok ()⟩
    let allow : KeyDescriptor → Option KeyPermSet → Except Error Unit := fun _ _ => .ok ()
    let generated := storeNewKey 10 "a" [] ⟨[2], Metadata.new, none⟩ ⟨none, none⟩ Metadata.new
      keystoreUuid 1 w₀
    let deleted := deleteKey env 10 allow key generated.2
    let loaded := getKeyEntry env 10 allow key deleted.2
    generated.1.toOption = some 1 ∧ deleted.1.isOk = true ∧ deleted.2.recentlyImported = [] ∧
      loaded.1.toOption.map (·.1) = some 2 ∧ loaded.2.recentlyImported = [⟨10, "a"⟩] := by
  decide

end Keystore2.LegacyImporter
