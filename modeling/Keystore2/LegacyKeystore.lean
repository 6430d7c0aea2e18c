import Keystore2.LegacyBlob
import Keystore2.Lib.SortDedup
import Keystore2.Permission

/-! The `ILegacyKeystore` service of `legacykeystore/lib.rs`: a per-uid map from aliases to
entries kept in the `profiles` table of its own database, and still in the entry files of the
legacy blob database, which a read imports into the table on demand.  The legacy work runs on
an `AsyncTask`, whose shelf holds the set `recently_imported` of the entries imported so far;
calls come one after another, so each is a step on the state of the table, the files and that
set.  A call returns its result and the state after it, which persists whether the call
succeeds or fails.  A panic of the legacy listing on the async task reaches the caller as the
failure of the channel it waits on, a system error. -/

namespace Keystore2.LegacyKeystore

open LegacyBlob (Bytes LegacyFile uidToAndroidUser aidUserOffset readLegacyKeystoreEntry
  removeLegacyKeystoreEntry userDir listLegacyKeystoreEntriesForUid
  listLegacyKeystoreEntriesForUser)

/-- The service-specific errors of `ILegacyKeystore`: `ERROR_SYSTEM_ERROR`,
`ERROR_PERMISSION_DENIED` and `ERROR_ENTRY_NOT_FOUND`. -/
inductive ErrorCode
  | systemError
  | permissionDenied
  | entryNotFound
  deriving DecidableEq, Repr

/-- The flags `disable_legacy_keystore_put_v2` and `disable_legacy_keystore_get`. -/
structure Flags where
  disableLegacyKeystorePutV2 : Bool
  disableLegacyKeystoreGet : Bool

/-- A row of the `profiles` table; `(owner, alias)` is unique. -/
structure Profile where
  owner : UInt32
  entryAlias : Bytes
  profile : Bytes
  deriving DecidableEq, Repr

/-- The `profiles` table of `DB`. -/
structure DB where
  profiles : List Profile

/-- `sort_unstable` and `dedup` of a `Vec<String>`: byte order, then adjacent repeats
dropped. -/
def sortDedup (l : List Bytes) : List Bytes :=
  (l.mergeSort fun a b => !decide (b < a)).destutter (· ≠ ·)

namespace DB

variable (flags : Flags)

def isRow (callerUid : UInt32) (entryAlias : Bytes) (p : Profile) : Bool :=
  p.owner = callerUid && p.entryAlias = entryAlias

/-- `DB::list`: the aliases of a uid, in order. -/
def list (db : DB) (callerUid : UInt32) : List Bytes :=
  ((db.profiles.filter (·.owner = callerUid)).map (·.entryAlias)).mergeSort
    fun a b => !decide (b < a)

/-- `DB::put`: `INSERT OR REPLACE`. -/
def put (db : DB) (callerUid : UInt32) (entryAlias entry : Bytes) : Except ErrorCode DB :=
  if flags.disableLegacyKeystorePutV2 then throw .systemError
  else
    pure ⟨db.profiles.filter (!isRow callerUid entryAlias ·) ++ [⟨callerUid, entryAlias, entry⟩]⟩

/-- `DB::get`. -/
def get (db : DB) (callerUid : UInt32) (entryAlias : Bytes) : Except ErrorCode (Option Bytes) :=
  if flags.disableLegacyKeystoreGet then throw .systemError
  else pure ((db.profiles.find? (isRow callerUid entryAlias)).map (·.profile))

/-- `DB::remove`: the table after the `DELETE`, and whether it deleted one row. -/
def remove (db : DB) (callerUid : UInt32) (entryAlias : Bytes) : DB × Bool :=
  let kept := db.profiles.filter (!isRow callerUid entryAlias ·)
  (⟨kept⟩, db.profiles.length - kept.length == 1)

/-- `DB::remove_uid`. -/
def removeUid (db : DB) (uid : UInt32) : DB := ⟨db.profiles.filter (·.owner ≠ uid)⟩

/-- `DB::remove_user`: `cast ( ( owner/? ) as int) = ?` with `AID_USER_OFFSET`. -/
def removeUser (db : DB) (userId : UInt32) : DB :=
  ⟨db.profiles.filter (·.owner / aidUserOffset ≠ userId)⟩

end DB

/-- The state the service's calls act on: the table, the legacy files, and the shelf's
`recently_imported`. -/
structure LegacyKeystoreState where
  db : DB
  files : List LegacyFile
  recentlyImported : List (UInt32 × Bytes)

/-- `UID_SELF`. -/
def uidSelf : Int32 := -1

def aidSystem : UInt32 := 1000

def aidWifi : UInt32 := 1010

def wifiNamespace : Int64 := 102

/-- `get_effective_uid`: the caller's own uid, or the WIFI uid for the system. -/
def getEffectiveUid (callingUid : UInt32) (uid : Int32) : Except ErrorCode UInt32 :=
  let uid := uid.toUInt32
  if uid = uidSelf.toUInt32 ∨ uid = callingUid then pure callingUid
  else if callingUid = aidSystem ∧ uid = aidWifi then pure aidWifi
  else throw .permissionDenied

/-- A call of the service: its result and the state after it. -/
abbrev Call (α : Type) := LegacyKeystoreState → Except ErrorCode α × LegacyKeystoreState

variable (flags : Flags)

/-- `import_one_legacy_entry`: the entry of the file, stored in the table and its file
removed. -/
def importOneLegacyEntry (uid : UInt32) (entryAlias : Bytes) : Call Bool := fun s =>
  match readLegacyKeystoreEntry s.files uid entryAlias with
  | none => (pure false, s)
  | some entry =>
    match s.db.put flags uid entryAlias entry with
    | .error e => (throw e, s)
    | .ok db =>
      (pure true, { s with db, files := (removeLegacyKeystoreEntry s.files uid entryAlias).1 })

/-- `get_legacy`: true when the entry was imported, now or before. -/
def getLegacy (uid : UInt32) (entryAlias : Bytes) : Call Bool := fun s =>
  if (uid, entryAlias) ∈ s.recentlyImported then (pure true, s)
  else
    match importOneLegacyEntry flags uid entryAlias s with
    | (.ok true, s) =>
      (pure true, { s with recentlyImported := s.recentlyImported ++ [(uid, entryAlias)] })
    | r => r

/-- `remove_legacy`: an imported entry has no file left to remove. -/
def removeLegacy (uid : UInt32) (entryAlias : Bytes) : Call Bool := fun s =>
  if (uid, entryAlias) ∈ s.recentlyImported then (pure false, s)
  else
    let (files, removed) := removeLegacyKeystoreEntry s.files uid entryAlias
    (pure removed, { s with files })

/-- `list_legacy`. -/
def listLegacy (uid : UInt32) (s : LegacyKeystoreState) : Except ErrorCode (List Bytes) :=
  match listLegacyKeystoreEntriesForUid uid (some (userDir s.files (uidToAndroidUser uid))) with
  | none => throw .systemError
  | some (.error _) => throw .systemError
  | some (.ok entries) => pure entries

/-- Removes the files of the given entries; a failed removal is only logged. -/
def removeAll (files : List LegacyFile) (entries : List (UInt32 × Bytes)) : List LegacyFile :=
  entries.foldl (fun files e => (removeLegacyKeystoreEntry files e.1 e.2).1) files

/-- `bulk_delete_uid`: the files of the entries the listing of the uid reports are removed;
when the listing fails nothing is. -/
def bulkDeleteUid (uid : UInt32) (s : LegacyKeystoreState) : LegacyKeystoreState :=
  match listLegacy uid s with
  | .ok entries => { s with files := removeAll s.files (entries.map (uid, ·)) }
  | .error _ => s

/-- `bulk_delete_user`. -/
def bulkDeleteUser (userId : UInt32) (s : LegacyKeystoreState) : LegacyKeystoreState :=
  { s with files := removeAll s.files (listLegacyKeystoreEntriesForUser (userDir s.files userId)) }

/-- `LegacyKeystore::get`. -/
def get (callingUid : UInt32) (entryAlias : Bytes) (uid : Int32) : Call Bytes := fun s =>
  if flags.disableLegacyKeystoreGet then (throw .systemError, s)
  else
    match getEffectiveUid callingUid uid with
    | .error e => (throw e, s)
    | .ok uid =>
      match s.db.get flags uid entryAlias with
      | .error e => (throw e, s)
      | .ok (some entry) => (pure entry, s)
      | .ok none =>
        match getLegacy flags uid entryAlias s with
        | (.error e, s) => (throw e, s)
        | (.ok false, s) => (throw .entryNotFound, s)
        | (.ok true, s) =>
          -- the entry was imported: read it again from the table
          match s.db.get flags uid entryAlias with
          | .ok (some entry) => (pure entry, s)
          | .ok none => (throw .entryNotFound, s)
          | .error e => (throw e, s)

/-- `LegacyKeystore::put`; the result of removing a stale legacy file is ignored. -/
def put (callingUid : UInt32) (entryAlias : Bytes) (uid : Int32) (entry : Bytes) : Call Unit :=
  fun s =>
  if flags.disableLegacyKeystorePutV2 then (throw .systemError, s)
  else
    match getEffectiveUid callingUid uid with
    | .error e => (throw e, s)
    | .ok uid =>
      match s.db.put flags uid entryAlias entry with
      | .error e => (throw e, s)
      | .ok db => (pure (), (removeLegacy uid entryAlias { s with db }).2)

/-- `LegacyKeystore::remove`: when a legacy file is removed the table is not looked at. -/
def remove (callingUid : UInt32) (entryAlias : Bytes) (uid : Int32) : Call Unit := fun s =>
  match getEffectiveUid callingUid uid with
  | .error e => (throw e, s)
  | .ok uid =>
    match removeLegacy uid entryAlias s with
    | (.ok true, s) => (pure (), s)
    | (.ok false, s) =>
      let (db, removed) := s.db.remove uid entryAlias
      (if removed then pure () else throw .entryNotFound, { s with db })
    | (.error e, s) => (throw e, s)

/-- `LegacyKeystore::list`: the legacy listing and the table's, those with the prefix, sorted
and without repeats. -/
def list (callingUid : UInt32) (pre : Bytes) (uid : Int32) : Call (List Bytes) := fun s =>
  match getEffectiveUid callingUid uid with
  | .error e => (throw e, s)
  | .ok uid =>
    match listLegacy uid s with
    | .error e => (throw e, s)
    | .ok legacy =>
      (pure (sortDedup ((legacy ++ s.db.list uid).filter pre.isPrefixOf)), s)

/-- `LegacyKeystore::delete_namespace`: an app namespace is its uid, the WIFI SELinux
namespace is `AID_WIFI`, and nothing is deleted for any other. -/
def deleteNamespace (domain : Domain) (nspace : Int64) : Call Unit := fun s =>
  let uid? : Option UInt32 :=
    -- `namespace as u32`
    if domain = .app then some nspace.toUInt64.toUInt32
    else if domain = .selinux ∧ nspace = wifiNamespace then some aidWifi
    else none
  match uid? with
  | none => (pure (), s)
  | some uid =>
    let s := bulkDeleteUid uid s
    (pure (), { s with db := s.db.removeUid uid })

/-- `LegacyKeystore::delete_user`. -/
def deleteUser (userId : UInt32) : Call Unit := fun s =>
  let s := bulkDeleteUser userId s
  (pure (), { s with db := s.db.removeUser userId })

/-! ## The map a uid sees -/

/-- The entry at an alias of a uid: the table's, else the legacy file's. -/
def LegacyKeystoreState.entries (s : LegacyKeystoreState) (uid : UInt32) (entryAlias : Bytes) :
    Option Bytes :=
  ((s.db.profiles.find? (DB.isRow uid entryAlias)).map (·.profile)).orElse
    fun _ => readLegacyKeystoreEntry s.files uid entryAlias

section Listing

open LegacyBlob (uidString encodeAlias utf8Valid isKeystoreAlias)

/-- The state of an empty table whose only legacy file is the entry `a` of `u'`. -/
def oneLegacyEntry (u' : UInt32) (a entry : Bytes) : LegacyKeystoreState :=
  ⟨⟨[]⟩, [⟨uidToAndroidUser u', uidString u' ++ 0x5F :: encodeAlias a, entry⟩], []⟩

variable {u u' : UInt32} {d : UInt8} {a : Bytes}

theorem entries_oneLegacyEntry (hka : isKeystoreAlias a = false) (entry : Bytes) :
    (oneLegacyEntry u' a entry).entries u' a = some entry := by
  simp [LegacyKeystoreState.entries, oneLegacyEntry, readLegacyKeystoreEntry,
    LegacyBlob.makeLegacyKeystoreEntryFilename, hka, LegacyFile.isAt]

/-- The legacy listing of `u` reports the file of `u'`, a uid one digit longer in the same
user directory, as the alias `_a`. -/
theorem listLegacy_oneLegacyEntry (hd : d ≤ 0x7F) (hu' : uidString u' = uidString u ++ [d])
    (huser : uidToAndroidUser u' = uidToAndroidUser u) (ha : utf8Valid a = true)
    (entry : Bytes) :
    listLegacy u (oneLegacyEntry u' a entry) = .ok [0x5F :: a] := by
  have hdir : userDir (oneLegacyEntry u' a entry).files (uidToAndroidUser u) =
      [uidString u ++ d :: 0x5F :: encodeAlias a] := by
    simp [oneLegacyEntry, userDir, huser, hu']
  simp only [listLegacy, hdir, listLegacyKeystoreEntriesForUid,
    LegacyBlob.listEntries_longer_uid (fun _ => LegacyBlob.le_of_mem_uidString) hd ha]
  rfl

/-- `u` has no legacy file at `_a`: its name would have `_` where the file has a digit. -/
theorem readLegacyKeystoreEntry_oneLegacyEntry (hd : d ≠ 0x5F)
    (hu' : uidString u' = uidString u ++ [d]) (entry : Bytes) :
    readLegacyKeystoreEntry (oneLegacyEntry u' a entry).files u (0x5F :: a) = none := by
  have hname : uidString u' ++ 0x5F :: encodeAlias a ≠
      uidString u ++ 0x5F :: encodeAlias (0x5F :: a) := by
    rw [hu', List.append_assoc]
    simp [hd]
  simp [oneLegacyEntry, readLegacyKeystoreEntry, LegacyBlob.makeLegacyKeystoreEntryFilename,
    LegacyBlob.isKeystoreAlias_underscore, LegacyFile.isAt, hname]

theorem getEffectiveUid_self (callingUid : UInt32) :
    getEffectiveUid callingUid uidSelf = .ok callingUid := by
  simp [getEffectiveUid, pure, Except.pure]

theorem list_reports_alias_of_other_uid (flags : Flags)
    (hget : flags.disableLegacyKeystoreGet = false) (hd : 0x30 ≤ d ∧ d ≤ 0x39)
    (hu' : uidString u' = uidString u ++ [d]) (huser : uidToAndroidUser u' = uidToAndroidUser u)
    (ha : utf8Valid a = true) (hka : isKeystoreAlias a = false) (entry : Bytes) :
    (oneLegacyEntry u' a entry).entries u' a = some entry ∧
      (list u [] uidSelf (oneLegacyEntry u' a entry)).1 = .ok [0x5F :: a] ∧
      (oneLegacyEntry u' a entry).entries u (0x5F :: a) = none ∧
      (get flags u (0x5F :: a) uidSelf (oneLegacyEntry u' a entry)).1 = .error .entryNotFound := by
  have hascii : d ≤ 0x7F := UInt8.le_trans hd.2 (show (0x39 : UInt8) ≤ 0x7F by decide)
  have hne : d ≠ 0x5F := by
    rintro rfl
    exact absurd hd.2 (by decide)
  have hprofiles : (oneLegacyEntry u' a entry).db.profiles = [] := rfl
  have himported : (oneLegacyEntry u' a entry).recentlyImported = [] := rfl
  have hread : readLegacyKeystoreEntry (oneLegacyEntry u' a entry).files u (0x5F :: a) = none :=
    readLegacyKeystoreEntry_oneLegacyEntry hne hu' entry
  refine ⟨entries_oneLegacyEntry hka entry, ?_, ?_, ?_⟩
  · simp [list, getEffectiveUid_self, listLegacy_oneLegacyEntry hascii hu' huser ha, DB.list,
      hprofiles, sortDedup, pure, Except.pure]
  · simp [LegacyKeystoreState.entries, hprofiles, hread]
  · -- the table has no row and the import finds no file
    simp [get, hget, getEffectiveUid_self, DB.get, hprofiles, getLegacy, himported,
      importOneLegacyEntry, hread, pure, Except.pure, throw, throwThe, MonadExceptOf.throw]

/-- Uid 1000 is listed the alias `_x` of the entry `x` of uid 10001. -/
theorem list_reports_alias_of_other_uid_1000 :
    (oneLegacyEntry 10001 (LegacyBlob.ascii "x") []).entries 10001 (LegacyBlob.ascii "x") =
        some [] ∧
      (list 1000 [] uidSelf (oneLegacyEntry 10001 (LegacyBlob.ascii "x") [])).1 =
        .ok [0x5F :: LegacyBlob.ascii "x"] ∧
      (oneLegacyEntry 10001 (LegacyBlob.ascii "x") []).entries 1000
        (0x5F :: LegacyBlob.ascii "x") = none ∧
      (get ⟨false, false⟩ 1000 (0x5F :: LegacyBlob.ascii "x") uidSelf
        (oneLegacyEntry 10001 (LegacyBlob.ascii "x") [])).1 = .error .entryNotFound :=
  @list_reports_alias_of_other_uid 1000 10001 0x31 (LegacyBlob.ascii "x") ⟨false, false⟩ rfl
    (by decide) (by decide +kernel) (by decide) (by decide +kernel) (by decide +kernel) []

end Listing

end Keystore2.LegacyKeystore
