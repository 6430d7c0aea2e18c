import Keystore2.LegacyBlob.Characteristics
import Keystore2.Lib.Rename
import Keystore2.Lib.SortDedup

/-! The key entries of `LegacyBlobLoader` in `legacy_blob.rs`.  The loader works on the files of
the legacy database: a directory `user_<user id>` for each Android user, holding the files of
the uids of that user.  A key entry `alias` of `uid` is up to six files: the key blob
`<uid>_USRPKEY_<alias>` (or `USRSKEY` before Android P), the certificates `<uid>_USRCERT_<alias>`
and `<uid>_CACERT_<alias>`, and the characteristics `.<uid>_chr_USRPKEY_<alias>` of the key
blob, with `prefix_alias` encoded by `encode_alias`.  `load_by_uid_alias` reads an entry,
`remove_keystore_entry` deletes it, `move_keystore_entry` renames it to another uid of the same
user, and `list_keystore_entries_for_uid` lists the aliases of a uid.

The database is the set of user directories and the files by path.  An IO error other than
`NotFound` is not modelled, and `Interrupted`, which `with_retry_interrupted` retries, never
happens.  A panic of `new_from_stream` is the result `none`, as in the reader of blob files. -/

namespace Keystore2.LegacyBlob

open KeyParameter (SecurityLevel)
open SortDedup (sortDedup)

/-- `Error::AndroidUserMismatch`, the error of `move_keystore_entry`. -/
inductive MoveError
  | androidUserMismatch
  deriving DecidableEq, Repr

namespace Flags

/-- `flags::STRONGBOX`. -/
def strongbox : UInt8 := 16

end Flags

def Blob.isStrongbox (blob : Blob) : Bool := blob.flags &&& Flags.strongbox != 0

/-- The AIDL constants that the loader names beside those of the reader:
`SecurityLevel::TRUSTED_ENVIRONMENT` and `SecurityLevel::STRONGBOX`. -/
structure LoaderConstants extends AidlConstants where
  trustedEnvironment : SecurityLevel
  strongbox : SecurityLevel

/-- A path of the database: the user directory and the name of the file in it. -/
abbrev Path := UInt32 × Bytes

/-- The legacy database: the user directories that exist, and the files with their contents. -/
structure LegacyDb where
  userDirs : Finset UInt32
  files : AList fun _ : Path => Bytes

/-! ## File names -/

/-- `make_blob_filename`: `user_<user id>/<uid>_<encode_alias("<prefix>_<alias>")>`. -/
def makeBlobFilename (uid : UInt32) (entryAlias pre : Bytes) : Path :=
  (uidToAndroidUser uid, uidString uid ++ 0x5F :: encodeAlias (pre ++ 0x5F :: entryAlias))

/-- `make_chr_filename`: `user_<user id>/.<uid>_chr_<encode_alias("<prefix>_<alias>")>`. -/
def makeChrFilename (uid : UInt32) (entryAlias pre : Bytes) : Path :=
  (uidToAndroidUser uid,
    0x2E :: uidString uid ++ ascii "_chr_" ++ encodeAlias (pre ++ 0x5F :: entryAlias))

/-- `make_super_key_filename`: `user_<user id>/.masterkey`. -/
def makeSuperKeyFilename (userId : UInt32) : Path := (userId, ascii ".masterkey")

/-- `extract_keystore_alias`: the decoded rest of a name after the first known prefix that it
starts with. -/
def extractKeystoreAlias (encodedAlias : Bytes) : Option Bytes :=
  match knownKeystorePrefixes.find? (·.isPrefixOf encodedAlias) with
  | some pre =>
    match decodeAlias (encodedAlias.drop pre.length) with
    | .ok decoded => some decoded
    | .error _ => none
  | none => none

namespace LegacyDb

/-! ## The calls of the file system -/

/-- `fs::remove_file`: the database without the file, or `NotFound`. -/
def removeFile (db : LegacyDb) (path : Path) : Option LegacyDb :=
  if path ∈ db.files then some { db with files := db.files.erase path } else none

/-- `fs::rename` within a user directory: the file moves to its new name, replacing the file
there, or `NotFound`. -/
def rename (db : LegacyDb) (src dest : Path) : Option LegacyDb :=
  (db.files.rename src dest).map fun files => { db with files }

/-- `is_empty_user`: `user_<user id>` does not exist or holds no file. -/
def isEmptyUser (db : LegacyDb) (userId : UInt32) : Bool :=
  userId ∉ db.userDirs || db.files.keys.all (·.1 != userId)

/-- `is_empty`: no directory `user_*` is left. -/
def isEmpty (db : LegacyDb) : Bool := db.userDirs = ∅

/-- `remove_user_dir_if_empty`; `fs::remove_dir` of a missing directory fails, which is
ignored. -/
def removeUserDirIfEmpty (db : LegacyDb) (userId : UInt32) : LegacyDb :=
  if db.isEmptyUser userId then { db with userDirs := db.userDirs.erase userId } else db

/-! ## Reading an entry -/

/-- `read_generic_blob`: the blob of the file, none when there is no file. -/
def readGenericBlob (db : LegacyDb) (path : Path) : ExceptT ReadError Option (Option Blob) :=
  match db.files.lookup path with
  | none => pure none
  | some buffer => ExceptT.mk ((newFromStream buffer).map fun blob => (blob.map some).mapError .blob)

/-- The loop of `read_km_blob_file` over the prefixes: the blob of the first of them whose key
blob file exists, with the prefix. -/
def readKmBlobFileLoop (db : LegacyDb) (uid : UInt32) (entryAlias : Bytes) :
    List Bytes → ExceptT ReadError Option (Option (Blob × Bytes))
  | [] => pure none
  | pre :: prefixes => do
    match ← db.readGenericBlob (makeBlobFilename uid entryAlias pre) with
    | some blob => pure (some (blob, pre))
    | none => db.readKmBlobFileLoop uid entryAlias prefixes

/-- `read_km_blob_file`. -/
def readKmBlobFile (db : LegacyDb) (uid : UInt32) (entryAlias : Bytes) :
    ExceptT ReadError Option (Option (Blob × Bytes)) :=
  db.readKmBlobFileLoop uid entryAlias [ascii "USRPKEY", ascii "USRSKEY"]

/-- The certificate that `load_by_uid_alias` reads from the file of a prefix: decrypted if
required, and a generic blob or `VALUE_CORRUPTED`. -/
def loadCert (db : LegacyDb) (uid : UInt32) (entryAlias pre : Bytes)
    (superKey : Option (Bytes → Bytes → Bytes → Except BlobError Bytes)) :
    ExceptT ReadError Option (Option Bytes) := do
  match ← db.readGenericBlob (makeBlobFilename uid entryAlias pre) with
  | none => pure none
  | some blob =>
    let blob ← ExceptT.mk (some ((decryptIfRequired superKey blob).mapError .blob))
    match blob.value with
    | .generic data => pure (some data)
    | _ => throw (.blob (.rc .valueCorrupted))

/-- `load_by_uid_alias`: the key blob with its characteristics, the user certificate and the
certificate chain of an entry. -/
def loadByUidAlias (consts : LoaderConstants) (db : LegacyDb) (uid : UInt32) (entryAlias : Bytes)
    (superKey : Option (Bytes → Bytes → Bytes → Except BlobError Bytes)) :
    ExceptT ReadError Option
      (Option (Blob × LegacyKeyCharacteristics) × Option Bytes × Option Bytes) := do
  let kmBlob ← match ← db.readKmBlobFile uid entryAlias with
    | some (kmBlob, pre) => do
      match kmBlob.value with
      | .decrypted _ | .encrypted .. => pure ()
      | _ => throw (.blob (.rc .valueCorrupted))
      let hwSecLevel := if kmBlob.isStrongbox then consts.strongbox else consts.trustedEnvironment
      let keyParameters ← ExceptT.mk (readCharacteristicsFile consts.toAidlConstants
        (db.files.lookup (makeChrFilename uid entryAlias pre)) hwSecLevel superKey)
      pure (some (kmBlob, keyParameters))
    | none => pure none
  let userCert ← db.loadCert uid entryAlias (ascii "USRCERT") superKey
  let caCert ← db.loadCert uid entryAlias (ascii "CACERT") superKey
  pure (kmBlob, userCert, caCert)

/-! ## Removing and moving an entry -/

/-- The loop of `remove_keystore_entry` over `USRPKEY` and `USRSKEY`: the first key blob file
found goes, with its characteristics file if there is one, and the loop ends; whether one was
found. -/
def removeKeyBlobLoop (uid : UInt32) (entryAlias : Bytes) : List Bytes → LegacyDb → LegacyDb × Bool
  | [], db => (db, false)
  | pre :: prefixes, db =>
    match db.removeFile (makeBlobFilename uid entryAlias pre) with
    -- `NotFound`: only a subset of the files is expected
    | none => removeKeyBlobLoop uid entryAlias prefixes db
    | some db => ((db.removeFile (makeChrFilename uid entryAlias pre)).getD db, true)

/-- `remove_keystore_entry`: the database without the entry, and whether it had a key blob.
A certificate file that goes does not count as something deleted: the flag is set after the
removal only when it fails with an error other than `NotFound`, which is not modelled. -/
def removeKeystoreEntry (db : LegacyDb) (uid : UInt32) (entryAlias : Bytes) : LegacyDb × Bool :=
  let (db, somethingWasDeleted) :=
    removeKeyBlobLoop uid entryAlias [ascii "USRPKEY", ascii "USRSKEY"] db
  let db := [ascii "USRCERT", ascii "CACERT"].foldl
    (fun db pre => (db.removeFile (makeBlobFilename uid entryAlias pre)).getD db) db
  if somethingWasDeleted then (db.removeUserDirIfEmpty (uidToAndroidUser uid), true)
  else (db, false)

/-- `move_keystore_file_if_exists`: the file that `makeFilename` names for the source moves to
the name for the destination; nothing happens when there is no such file. -/
def moveKeystoreFileIfExists (db : LegacyDb) (srcUid destUid : UInt32) (srcAlias destAlias pre : Bytes)
    (makeFilename : UInt32 → Bytes → Bytes → Path) : LegacyDb :=
  (db.rename (makeFilename srcUid srcAlias pre) (makeFilename destUid destAlias pre)).getD db

/-- `move_keystore_entry`: the files of an entry move to another uid and alias of the same
Android user.  With the same uid nothing happens, even to a different alias. -/
def moveKeystoreEntry (db : LegacyDb) (srcUid destUid : UInt32) (srcAlias destAlias : Bytes) :
    Except MoveError LegacyDb :=
  if srcUid = destUid then pure db
  else if uidToAndroidUser srcUid ≠ uidToAndroidUser destUid then throw .androidUserMismatch
  else
    let db := [ascii "USRPKEY", ascii "USRSKEY", ascii "USRCERT", ascii "CACERT"].foldl
      (fun db pre => db.moveKeystoreFileIfExists srcUid destUid srcAlias destAlias pre
        makeBlobFilename) db
    pure ([ascii "USRPKEY", ascii "USRSKEY"].foldl
      (fun db pre => db.moveKeystoreFileIfExists srcUid destUid srcAlias destAlias pre
        makeChrFilename) db)

/-! ## Listing -/

/-- `list_user`: the names in `user_<user id>` that are UTF-8, none when it does not exist. -/
def listUser (db : LegacyDb) (userId : UInt32) : List Bytes :=
  if userId ∈ db.userDirs then
    ((db.files.keys.filter (·.1 = userId)).map (·.2)).filter utf8Valid
  else []

section Listing

/-- Byte strings in the order of `str`'s `Ord`: lexicographic, bytes by value. -/
local instance byteOrder : LinearOrder UInt8 :=
  LinearOrder.lift' UInt8.toNat fun _ _ h => UInt8.toNat_inj.mp h

/-- `list_keystore_entries_for_uid`: the aliases of the names `<uid>_<known prefix><alias>`,
sorted, without repeats. -/
def listKeystoreEntriesForUid (db : LegacyDb) (uid : UInt32) : List Bytes :=
  let uidStr := uidString uid ++ [0x5F]
  sortDedup ((db.listUser (uidToAndroidUser uid)).filterMap fun v =>
    if uidStr.isPrefixOf v then extractKeystoreAlias (v.drop uidStr.length) else none)

end Listing

/-- `list_keystore_entries_for_user`, over the names of `user_<user id>`: the uid and the alias
of each name `<uid>_<known prefix><alias>`.  The source collects them in a map of sets; only
their membership is read. -/
def listKeystoreEntriesForUser (db : LegacyDb) (userId : UInt32) : List (UInt32 × Bytes) :=
  (db.listUser userId).filterMap fun v =>
    match v.idxOf? 0x5F with
    | none => none
    | some sepPos => do
      let uid ← parseU32 (v.take sepPos)
      let decoded ← extractKeystoreAlias (v.drop (sepPos + 1))
      pure (uid, decoded)

/-! ## The super key -/

/-- `has_super_key`. -/
def hasSuperKey (db : LegacyDb) (userId : UInt32) : Bool := makeSuperKeyFilename userId ∈ db.files

/-- `remove_super_key`: the file goes, and the user directory with it when it is left empty. -/
def removeSuperKey (db : LegacyDb) (userId : UInt32) : LegacyDb :=
  let db := (db.removeFile (makeSuperKeyFilename userId)).getD db
  if db.isEmptyUser userId then { db with userDirs := db.userDirs.erase userId } else db

/-- `load_super_key`, with the cipher of `aes_gcm_decrypt` and the key derivation `derive_key_pbkdf2` of the password: the
decrypted super key of a password-encrypted blob, the plain one when the flags say it is not
encrypted, and `VALUE_CORRUPTED` for any other blob. -/
def loadSuperKey (gcm : Crypto.Gcm) (db : LegacyDb) (userId : UInt32)
    (deriveKeyPbkdf2 : Bytes → Nat → Except Crypto.Error Bytes) :
    ExceptT ReadError Option (Option Bytes) := do
  match ← db.readGenericBlob (makeSuperKeyFilename userId) with
  | none => pure none
  | some { flags, value := .pwEncrypted iv tag data salt keySize } =>
    if flags &&& Flags.encrypted != 0 then
      let key ← ExceptT.mk (some ((deriveKeyPbkdf2 salt keySize).mapError (.blob ∘ .crypto)))
      let blob ← ExceptT.mk (some ((Crypto.aesGcmDecrypt gcm data iv tag key).mapError
        (.blob ∘ .crypto)))
      pure (some blob)
    else pure (some data)
  | some _ => throw (.blob (.rc .valueCorrupted))

/-! ## Runs of calls -/

/-- The calls of the loader that change the database. -/
inductive Call
  | removeKeystoreEntry (uid : UInt32) (entryAlias : Bytes)
  | moveKeystoreEntry (srcUid destUid : UInt32) (srcAlias destAlias : Bytes)
  | removeSuperKey (userId : UInt32)

/-- The database after a call; a move that fails changes nothing. -/
def step (db : LegacyDb) : Call → LegacyDb
  | .removeKeystoreEntry uid entryAlias => (db.removeKeystoreEntry uid entryAlias).1
  | .moveKeystoreEntry srcUid destUid srcAlias destAlias =>
    match db.moveKeystoreEntry srcUid destUid srcAlias destAlias with
    | .ok db => db
    | .error _ => db
  | .removeSuperKey userId => db.removeSuperKey userId

def run (db : LegacyDb) (calls : List Call) : LegacyDb := calls.foldl step db

end LegacyDb

/-! ## File names

The name of a file of an entry gives back its uid and its prefix: `to_string` writes digits,
which `_` follows, and no prefix of an entry starts another. -/

theorem append_cons_inj_of_notMem_heads {sep : UInt8} :
    ∀ {x y r r' : Bytes}, sep ∉ x → sep ∉ y → x ++ sep :: r = y ++ sep :: r' → x = y ∧ r = r'
  | [], [], _, _, _, _, h => ⟨rfl, (List.cons.inj h).2⟩
  | [], _ :: _, _, _, _, hy, h => absurd ((List.cons.inj h).1 ▸ List.mem_cons_self) hy
  | _ :: _, [], _, _, hx, _, h => absurd ((List.cons.inj h).1.symm ▸ List.mem_cons_self) hx
  | _ :: _, _ :: _, _, _, hx, hy, h => by
    obtain ⟨rfl, htail⟩ := List.cons.inj h
    obtain ⟨rfl, rfl⟩ := append_cons_inj_of_notMem_heads (fun h' => hx (List.mem_cons_of_mem _ h'))
      (fun h' => hy (List.mem_cons_of_mem _ h')) htail
    exact ⟨rfl, rfl⟩

theorem digit_of_mem_uidString {uid : UInt32} {b : UInt8} (hb : b ∈ uidString uid) :
    0x30 ≤ b ∧ b ≤ 0x39 := by
  obtain ⟨c, hc, rfl⟩ := List.mem_map.mp hb
  have hdigit := Nat.isDigit_of_mem_toDigits (by decide) (by decide) hc
  simp only [Char.isDigit, Bool.and_eq_true, decide_eq_true_eq] at hdigit
  have h₁ : 48 ≤ c.toNat := hdigit.1
  have h₂ : c.toNat ≤ 57 := hdigit.2
  -- the byte of a digit is its code
  simp only [UInt8.le_iff_toNat_le, Nat.toUInt8_eq, UInt8.toNat_ofNat', Nat.reducePow,
    UInt8.reduceToNat]
  omega

theorem parseU32_uidString (uid : UInt32) : parseU32 (uidString uid) = some uid := by
  have hdigits : ∀ b ∈ uidString uid, 0x30 ≤ b ∧ b ≤ 0x39 := fun _ => digit_of_mem_uidString
  -- the loop of `parse` reads the digits of `to_string` back
  have hfold : (uidString uid).foldl (fun acc b => 10 * acc + (b - 0x30).toNat) 0 = uid.toNat := by
    rw [uidString, List.foldl_map,
      List.foldl_ext _ (fun sofar c => 10 * sofar + (c.toNat - '0'.toNat)) 0 ?_]
    · exact Nat.ofDigitChars_ten_toDigits
    intro acc c hc
    have hdigit := Nat.isDigit_of_mem_toDigits (by decide) (by decide) hc
    simp only [Char.isDigit, Bool.and_eq_true, decide_eq_true_eq] at hdigit
    have h₁ : 48 ≤ c.toNat := hdigit.1
    have h₂ : c.toNat ≤ 57 := hdigit.2
    have hzero : '0'.toNat = 48 := rfl
    simp only [Nat.toUInt8_eq, UInt8.toNat_sub, UInt8.toNat_ofNat', UInt8.reduceToNat,
      Nat.reducePow, hzero]
    omega
  have hne : uidString uid ≠ [] := by simp [uidString, Nat.toDigits_ne_nil]
  have hall : (uidString uid).all (fun b => 0x30 ≤ b && b ≤ 0x39) = true := by
    simpa using hdigits
  unfold parseU32
  -- `to_string` writes no sign
  split
  · rename_i rest h
    exact absurd (hdigits 0x2B (h ▸ List.mem_cons_self)) (by decide)
  · rw [if_pos ⟨hne, hall⟩, hfold, if_pos uid.toNat_lt, UInt32.ofNat_toNat]

theorem encodeAlias_append (x y : Bytes) :
    encodeAlias (x ++ y) = encodeAlias x ++ encodeAlias y :=
  List.flatMap_append

theorem encodeAlias_of_printable {x : Bytes} (h : ∀ b ∈ x, (0x30 ≤ b && b ≤ 0x7E) = true) :
    encodeAlias x = x := by
  induction x with
  | nil => rfl
  | cons b x ih =>
    rw [encodeAlias_cons, if_pos (h b List.mem_cons_self),
      ih fun b' hb' => h b' (List.mem_cons_of_mem _ hb')]
    rfl

/-- The prefixes of the files of an entry are printable, and none of them starts another. -/
theorem entryPrefixes_spec :
    ∀ pre ∈ [ascii "USRPKEY", ascii "USRSKEY", ascii "USRCERT", ascii "CACERT"],
      (∀ b ∈ pre ++ [0x5F], (0x30 ≤ b && b ≤ 0x7E) = true) ∧
      ∀ pre' ∈ [ascii "USRPKEY", ascii "USRSKEY", ascii "USRCERT", ascii "CACERT"],
        pre.isPrefixOf pre' = true → pre = pre' := by
  decide +kernel

/-- The encoded `<prefix>_<alias>` of a file of an entry: the prefix and `_` as they are. -/
theorem encodeAlias_entryPrefix {pre : Bytes}
    (hpre : pre ∈ [ascii "USRPKEY", ascii "USRSKEY", ascii "USRCERT", ascii "CACERT"])
    (entryAlias : Bytes) :
    encodeAlias (pre ++ 0x5F :: entryAlias) = pre ++ 0x5F :: encodeAlias entryAlias := by
  have h := encodeAlias_append (pre ++ [0x5F]) entryAlias
  rw [encodeAlias_of_printable (entryPrefixes_spec pre hpre).1] at h
  simpa using h

/-- Two names that start with the prefixes of entries have the same prefix. -/
theorem entryPrefix_eq_of_append_eq {pre pre' x x' : Bytes}
    (hpre : pre ∈ [ascii "USRPKEY", ascii "USRSKEY", ascii "USRCERT", ascii "CACERT"])
    (hpre' : pre' ∈ [ascii "USRPKEY", ascii "USRSKEY", ascii "USRCERT", ascii "CACERT"])
    (h : pre ++ x = pre' ++ x') : pre = pre' := by
  have h₁ : pre <+: pre' ++ x' := h ▸ List.prefix_append pre x
  rcases List.prefix_or_prefix_of_prefix h₁ (List.prefix_append pre' x') with hp | hp
  · exact (entryPrefixes_spec pre hpre).2 pre' hpre' (List.isPrefixOf_iff_prefix.mpr hp)
  · exact ((entryPrefixes_spec pre' hpre').2 pre hpre (List.isPrefixOf_iff_prefix.mpr hp)).symm

theorem uidString_injective : Function.Injective uidString := fun u u' h => by
  have h' := congrArg parseU32 h
  rwa [parseU32_uidString, parseU32_uidString, Option.some_inj] at h'

theorem underscore_notMem_uidString (uid : UInt32) : (0x5F : UInt8) ∉ uidString uid :=
  fun h => absurd (digit_of_mem_uidString h) (by decide)

/-- A name `<uid>_<rest>` gives back its uid and its rest. -/
theorem uidString_append_inj {u u' : UInt32} {r r' : Bytes}
    (h : uidString u ++ 0x5F :: r = uidString u' ++ 0x5F :: r') : u = u' ∧ r = r' := by
  obtain ⟨hu, hr⟩ := append_cons_inj_of_notMem_heads (underscore_notMem_uidString u)
    (underscore_notMem_uidString u') h
  exact ⟨uidString_injective hu, hr⟩

section Names

variable {u u' : UInt32} {a a' pre pre' : Bytes}

theorem eq_of_makeBlobFilename_eq
    (hpre : pre ∈ [ascii "USRPKEY", ascii "USRSKEY", ascii "USRCERT", ascii "CACERT"])
    (hpre' : pre' ∈ [ascii "USRPKEY", ascii "USRSKEY", ascii "USRCERT", ascii "CACERT"])
    (h : makeBlobFilename u a pre = makeBlobFilename u' a' pre') : u = u' ∧ pre = pre' := by
  obtain ⟨hu, hr⟩ := uidString_append_inj (Prod.mk.inj h).2
  rw [encodeAlias_entryPrefix hpre, encodeAlias_entryPrefix hpre'] at hr
  exact ⟨hu, entryPrefix_eq_of_append_eq hpre hpre' hr⟩

theorem eq_of_makeChrFilename_eq
    (hpre : pre ∈ [ascii "USRPKEY", ascii "USRSKEY", ascii "USRCERT", ascii "CACERT"])
    (hpre' : pre' ∈ [ascii "USRPKEY", ascii "USRSKEY", ascii "USRCERT", ascii "CACERT"])
    (h : makeChrFilename u a pre = makeChrFilename u' a' pre') : u = u' ∧ pre = pre' := by
  have hchr : ascii "_chr_" = 0x5F :: ascii "chr_" := rfl
  have hname : uidString u ++ 0x5F :: (ascii "chr_" ++ encodeAlias (pre ++ 0x5F :: a)) =
      uidString u' ++ 0x5F :: (ascii "chr_" ++ encodeAlias (pre' ++ 0x5F :: a')) := by
    have h₂ := (Prod.mk.inj h).2
    simpa only [makeChrFilename, List.cons.injEq, true_and, hchr, List.append_assoc,
      List.cons_append] using h₂
  obtain ⟨hu, hr⟩ := uidString_append_inj hname
  rw [encodeAlias_entryPrefix hpre, encodeAlias_entryPrefix hpre'] at hr
  exact ⟨hu, entryPrefix_eq_of_append_eq hpre hpre' (List.append_cancel_left hr)⟩

/-- A key or certificate file is never a characteristics file: its name starts with a digit,
the other with a dot. -/
theorem makeBlobFilename_ne_makeChrFilename : makeBlobFilename u a pre ≠ makeChrFilename u' a' pre' := by
  intro h
  obtain ⟨b, bs, hb⟩ := List.exists_cons_of_ne_nil
    (show uidString u ≠ [] by simp [uidString, Nat.toDigits_ne_nil])
  have hname := (Prod.mk.inj h).2
  simp only [hb, List.cons_append] at hname
  have hdot := (List.cons.inj hname).1
  exact absurd (digit_of_mem_uidString (hb ▸ List.mem_cons_self : b ∈ uidString u)) (hdot ▸ by decide)

end Names


/-! ## Reading an entry

`load_by_uid_alias` reads an entry through its key blob files, the characteristics file of the
key blob it finds, and its certificate files, and through nothing else. -/

namespace LegacyDb

section Read

variable {db db' : LegacyDb} {u u' : UInt32} {a a' : Bytes}

theorem readGenericBlob_congr {p p' : Path} (h : db'.files.lookup p' = db.files.lookup p) :
    db'.readGenericBlob p' = db.readGenericBlob p := by
  unfold readGenericBlob
  rw [h]

theorem readGenericBlob_of_lookup_eq_none {p : Path} (h : db.files.lookup p = none) :
    db.readGenericBlob p = pure none := by
  unfold readGenericBlob
  rw [h]

theorem readKmBlobFileLoop_congr (prefixes : List Bytes)
    (h : ∀ pre ∈ prefixes,
      db'.files.lookup (makeBlobFilename u' a' pre) = db.files.lookup (makeBlobFilename u a pre)) :
    db'.readKmBlobFileLoop u' a' prefixes = db.readKmBlobFileLoop u a prefixes := by
  induction prefixes with
  | nil => rfl
  | cons pre prefixes ih =>
    unfold readKmBlobFileLoop
    rw [readGenericBlob_congr (h pre List.mem_cons_self),
      ih fun pre' hpre' => h pre' (List.mem_cons_of_mem _ hpre')]

/-- The key blob that `read_km_blob_file` finds is one of the prefixes it tries. -/
theorem mem_of_readKmBlobFileLoop {prefixes : List Bytes} {blob : Blob} {pre : Bytes}
    (h : (db.readKmBlobFileLoop u a prefixes).run = some (.ok (some (blob, pre)))) :
    pre ∈ prefixes := by
  induction prefixes with
  | nil => cases h
  | cons pre' prefixes ih =>
    unfold readKmBlobFileLoop at h
    obtain ⟨r, -, hr⟩ := ExceptT.run_bind_eq_ok.mp h
    cases r with
    | some blob' =>
      have hpre : (blob', pre') = (blob, pre) := by simpa using hr
      exact (Prod.mk.inj hpre).2 ▸ List.mem_cons_self
    | none => exact List.mem_cons_of_mem _ (ih hr)

theorem loadCert_congr {pre : Bytes}
    (h : db'.files.lookup (makeBlobFilename u' a' pre) = db.files.lookup (makeBlobFilename u a pre))
    (superKey : Option (Bytes → Bytes → Bytes → Except BlobError Bytes)) :
    db'.loadCert u' a' pre superKey = db.loadCert u a pre superKey := by
  unfold loadCert
  rw [readGenericBlob_congr h]

/-- `load_by_uid_alias` reads the same from two entries whose files hold the same. -/
theorem loadByUidAlias_congr
    (hblob : ∀ pre ∈ [ascii "USRPKEY", ascii "USRSKEY", ascii "USRCERT", ascii "CACERT"],
      db'.files.lookup (makeBlobFilename u' a' pre) = db.files.lookup (makeBlobFilename u a pre))
    (hchr : ∀ pre ∈ [ascii "USRPKEY", ascii "USRSKEY"],
      db'.files.lookup (makeChrFilename u' a' pre) = db.files.lookup (makeChrFilename u a pre))
    (consts : LoaderConstants) (superKey : Option (Bytes → Bytes → Bytes → Except BlobError Bytes)) :
    db'.loadByUidAlias consts u' a' superKey = db.loadByUidAlias consts u a superKey := by
  have hkm : db'.readKmBlobFile u' a' = db.readKmBlobFile u a :=
    readKmBlobFileLoop_congr _ fun pre hpre =>
      hblob pre (List.mem_append_left [ascii "USRCERT", ascii "CACERT"] hpre)
  unfold loadByUidAlias
  rw [hkm, loadCert_congr (hblob _ (by simp)), loadCert_congr (hblob _ (by simp))]
  -- the characteristics file read is the one of a prefix that `read_km_blob_file` tries
  apply ExceptT.bind_congr_of_ok
  rintro (_ | ⟨blob, pre⟩) hr
  · rfl
  · dsimp only
    rw [hchr pre (mem_of_readKmBlobFileLoop hr)]

theorem loadByUidAlias_of_lookup_eq_none
    (h : ∀ pre ∈ [ascii "USRPKEY", ascii "USRSKEY", ascii "USRCERT", ascii "CACERT"],
      db.files.lookup (makeBlobFilename u a pre) = none)
    (consts : LoaderConstants) (superKey : Option (Bytes → Bytes → Bytes → Except BlobError Bytes)) :
    db.loadByUidAlias consts u a superKey = pure (none, none, none) := by
  have h₁ := readGenericBlob_of_lookup_eq_none (h (ascii "USRPKEY") (by simp))
  have h₂ := readGenericBlob_of_lookup_eq_none (h (ascii "USRSKEY") (by simp))
  have h₃ := readGenericBlob_of_lookup_eq_none (h (ascii "USRCERT") (by simp))
  have h₄ := readGenericBlob_of_lookup_eq_none (h (ascii "CACERT") (by simp))
  unfold loadByUidAlias readKmBlobFile loadCert
  simp only [readKmBlobFileLoop, h₁, h₂, h₃, h₄, pure_bind]

end Read

end LegacyDb

/-! ## Moving an entry

With two uids of one Android user, `move_keystore_entry` is six renames, and the twelve names
they touch are all different; so each file of the entry moves to its new name and nothing else
changes. -/

/-- The renames of `move_keystore_entry`, in its order: the key and certificate files, then the
characteristics files. -/
def entryMoves (srcUid destUid : UInt32) (srcAlias destAlias : Bytes) : List (Path × Path) :=
  [ascii "USRPKEY", ascii "USRSKEY", ascii "USRCERT", ascii "CACERT"].map (fun pre =>
      (makeBlobFilename srcUid srcAlias pre, makeBlobFilename destUid destAlias pre)) ++
    [ascii "USRPKEY", ascii "USRSKEY"].map fun pre =>
      (makeChrFilename srcUid srcAlias pre, makeChrFilename destUid destAlias pre)

namespace LegacyDb

section Move

variable {srcUid destUid : UInt32} {srcAlias destAlias : Bytes}

theorem moveKeystoreFileIfExists_eq (db : LegacyDb) (pre : Bytes)
    (makeFilename : UInt32 → Bytes → Bytes → Path) :
    db.moveKeystoreFileIfExists srcUid destUid srcAlias destAlias pre makeFilename =
      { db with
        files := db.files.renameIfExists (makeFilename srcUid srcAlias pre)
          (makeFilename destUid destAlias pre) } := by
  unfold moveKeystoreFileIfExists rename AList.renameIfExists
  cases db.files.rename (makeFilename srcUid srcAlias pre) (makeFilename destUid destAlias pre) <;>
    rfl

theorem foldl_moveKeystoreFileIfExists (pres : List Bytes)
    (makeFilename : UInt32 → Bytes → Bytes → Path) (db : LegacyDb) :
    pres.foldl (fun db pre =>
        db.moveKeystoreFileIfExists srcUid destUid srcAlias destAlias pre makeFilename) db =
      { db with
        files := db.files.renameAll (pres.map fun pre =>
          (makeFilename srcUid srcAlias pre, makeFilename destUid destAlias pre)) } := by
  induction pres generalizing db with
  | nil => rfl
  | cons pre pres ih =>
    rw [List.foldl_cons, ih, moveKeystoreFileIfExists_eq]
    rfl

theorem moveKeystoreEntry_eq_ok (db : LegacyDb) (hne : srcUid ≠ destUid)
    (huser : uidToAndroidUser srcUid = uidToAndroidUser destUid) :
    db.moveKeystoreEntry srcUid destUid srcAlias destAlias =
      .ok { db with files := db.files.renameAll (entryMoves srcUid destUid srcAlias destAlias) } := by
  unfold moveKeystoreEntry
  rw [if_neg hne, if_neg (not_not.mpr huser)]
  simp only [foldl_moveKeystoreFileIfExists, entryMoves, AList.renameAll_append]
  rfl

/-- The twelve names that a move touches are all different. -/
theorem nodup_names_entryMoves (hne : srcUid ≠ destUid) :
    (AList.names (entryMoves srcUid destUid srcAlias destAlias)).Nodup := by
  -- a name is fixed by the kind of file, the side of the move and the prefix
  let g : Bool × Bool × Bytes → Path := fun x =>
    (bif x.1 then makeChrFilename else makeBlobFilename) (bif x.2.1 then destUid else srcUid)
      (bif x.2.1 then destAlias else srcAlias) x.2.2
  let ix : List (Bool × Bool × Bytes) :=
    [(false, false, ascii "USRPKEY"), (false, true, ascii "USRPKEY"),
      (false, false, ascii "USRSKEY"), (false, true, ascii "USRSKEY"),
      (false, false, ascii "USRCERT"), (false, true, ascii "USRCERT"),
      (false, false, ascii "CACERT"), (false, true, ascii "CACERT"),
      (true, false, ascii "USRPKEY"), (true, true, ascii "USRPKEY"),
      (true, false, ascii "USRSKEY"), (true, true, ascii "USRSKEY")]
  have hnames : AList.names (entryMoves srcUid destUid srcAlias destAlias) = ix.map g := rfl
  have hix : ix.Nodup := by decide +kernel
  have hpre : ∀ x ∈ ix,
      x.2.2 ∈ [ascii "USRPKEY", ascii "USRSKEY", ascii "USRCERT", ascii "CACERT"] := by
    decide +kernel
  rw [hnames]
  refine hix.map_on fun x hx y hy hxy => ?_
  obtain ⟨k, side, pre⟩ := x
  obtain ⟨k', side', pre'⟩ := y
  have hk : k = k' := by
    cases k <;> cases k'
    case false.true => exact absurd hxy makeBlobFilename_ne_makeChrFilename
    case true.false => exact absurd hxy.symm makeBlobFilename_ne_makeChrFilename
    all_goals rfl
  subst hk
  obtain ⟨huid, rfl⟩ : (bif side then destUid else srcUid) = (bif side' then destUid else srcUid) ∧
      pre = pre' := by
    cases k
    · exact eq_of_makeBlobFilename_eq (hpre _ hx) (hpre _ hy) hxy
    · exact eq_of_makeChrFilename_eq (hpre _ hx) (hpre _ hy) hxy
  have hside : side = side' := by
    cases side <;> cases side'
    case false.true => exact absurd huid hne
    case true.false => exact absurd huid.symm hne
    all_goals rfl
  rw [hside]

/-- `move_keystore_entry` between two uids of one Android user, to an alias that has no files,
moves the entry: `load_by_uid_alias` then reads at the destination what it read at the source,
finds nothing left at the source, and every other file keeps its contents. -/
theorem moveKeystoreEntry_loadByUidAlias (consts : LoaderConstants) (db : LegacyDb)
    (hne : srcUid ≠ destUid) (huser : uidToAndroidUser srcUid = uidToAndroidUser destUid)
    (hfree : ∀ pre ∈ [ascii "USRPKEY", ascii "USRSKEY", ascii "USRCERT", ascii "CACERT"],
      makeBlobFilename destUid destAlias pre ∉ db.files)
    (hfreeChr : ∀ pre ∈ [ascii "USRPKEY", ascii "USRSKEY"],
      makeChrFilename destUid destAlias pre ∉ db.files)
    (superKey : Option (Bytes → Bytes → Bytes → Except BlobError Bytes)) :
    ∃ db', db.moveKeystoreEntry srcUid destUid srcAlias destAlias = .ok db' ∧
      db'.loadByUidAlias consts destUid destAlias superKey =
        db.loadByUidAlias consts srcUid srcAlias superKey ∧
      db'.loadByUidAlias consts srcUid srcAlias superKey = pure (none, none, none) ∧
      ∀ p ∉ AList.names (entryMoves srcUid destUid srcAlias destAlias),
        db'.files.lookup p = db.files.lookup p := by
  have hnodup : (AList.names (entryMoves srcUid destUid srcAlias destAlias)).Nodup :=
    nodup_names_entryMoves hne
  -- each file of the source moves to the same file of the destination
  have hblob (pre : Bytes)
      (hpre : pre ∈ [ascii "USRPKEY", ascii "USRSKEY", ascii "USRCERT", ascii "CACERT"]) :
      (db.files.renameAll (entryMoves srcUid destUid srcAlias destAlias)).lookup
          (makeBlobFilename destUid destAlias pre) =
        (db.files.lookup (makeBlobFilename srcUid srcAlias pre)).or
          (db.files.lookup (makeBlobFilename destUid destAlias pre)) ∧
      (db.files.renameAll (entryMoves srcUid destUid srcAlias destAlias)).lookup
          (makeBlobFilename srcUid srcAlias pre) = none :=
    AList.lookup_renameAll_of_mem hnodup (List.mem_append_left _ (List.mem_map_of_mem hpre))
  have hchr (pre : Bytes) (hpre : pre ∈ [ascii "USRPKEY", ascii "USRSKEY"]) :
      (db.files.renameAll (entryMoves srcUid destUid srcAlias destAlias)).lookup
          (makeChrFilename destUid destAlias pre) =
        (db.files.lookup (makeChrFilename srcUid srcAlias pre)).or
          (db.files.lookup (makeChrFilename destUid destAlias pre)) ∧
      (db.files.renameAll (entryMoves srcUid destUid srcAlias destAlias)).lookup
          (makeChrFilename srcUid srcAlias pre) = none :=
    AList.lookup_renameAll_of_mem hnodup (List.mem_append_right _ (List.mem_map_of_mem hpre))
  refine ⟨_, db.moveKeystoreEntry_eq_ok hne huser, ?_, ?_, ?_⟩
  · apply loadByUidAlias_congr
    · intro pre hpre
      rw [(hblob pre hpre).1, AList.lookup_eq_none.mpr (hfree pre hpre), Option.or_none]
    · intro pre hpre
      rw [(hchr pre hpre).1, AList.lookup_eq_none.mpr (hfreeChr pre hpre), Option.or_none]
  · exact loadByUidAlias_of_lookup_eq_none (fun pre hpre => (hblob pre hpre).2) consts superKey
  · intro p hp
    exact AList.lookup_renameAll_of_notMem hp

/-- A certificate of uid 10001 moves to uid 10002 of the same user. -/
theorem moveKeystoreEntry_loadByUidAlias_cert :
    let consts : LoaderConstants := ⟨⟨fun _ => 0, ⟨100⟩⟩, ⟨1⟩, ⟨2⟩⟩
    let db : LegacyDb := ⟨{0}, (∅ : AList fun _ : Path => Bytes).insert
      (makeBlobFilename 10001 (ascii "a") (ascii "USRCERT")) [1, 2, 3]⟩
    (10001 : UInt32) ≠ 10002 ∧ uidToAndroidUser 10001 = uidToAndroidUser 10002 ∧
      (∀ pre ∈ [ascii "USRPKEY", ascii "USRSKEY", ascii "USRCERT", ascii "CACERT"],
        makeBlobFilename 10002 (ascii "b") pre ∉ db.files) ∧
      (∀ pre ∈ [ascii "USRPKEY", ascii "USRSKEY"],
        makeChrFilename 10002 (ascii "b") pre ∉ db.files) ∧
      ∃ db', db.moveKeystoreEntry 10001 10002 (ascii "a") (ascii "b") = .ok db' ∧
        db'.loadByUidAlias consts 10002 (ascii "b") none =
          db.loadByUidAlias consts 10001 (ascii "a") none ∧
        db'.loadByUidAlias consts 10001 (ascii "a") none = pure (none, none, none) ∧
        ∀ p ∉ AList.names (entryMoves 10001 10002 (ascii "a") (ascii "b")),
          db'.files.lookup p = db.files.lookup p :=
  have hne : (10001 : UInt32) ≠ 10002 := by decide
  have huser : uidToAndroidUser 10001 = uidToAndroidUser 10002 := by decide
  have hfree : ∀ pre ∈ [ascii "USRPKEY", ascii "USRSKEY", ascii "USRCERT", ascii "CACERT"],
      makeBlobFilename 10002 (ascii "b") pre ∉ ((∅ : AList fun _ : Path => Bytes).insert
        (makeBlobFilename 10001 (ascii "a") (ascii "USRCERT")) [1, 2, 3]) := by
    decide +kernel
  have hfreeChr : ∀ pre ∈ [ascii "USRPKEY", ascii "USRSKEY"],
      makeChrFilename 10002 (ascii "b") pre ∉ ((∅ : AList fun _ : Path => Bytes).insert
        (makeBlobFilename 10001 (ascii "a") (ascii "USRCERT")) [1, 2, 3]) := by
    decide +kernel
  ⟨hne, huser, hfree, hfreeChr,
    moveKeystoreEntry_loadByUidAlias _ ⟨{0}, _⟩ hne huser hfree hfreeChr none⟩

end Move

end LegacyDb

/-! ## Removing an entry -/

namespace LegacyDb

section Remove

variable {db : LegacyDb} {uid : UInt32} {entryAlias : Bytes}

theorem lookup_removeFile_getD (db : LegacyDb) (p q : Path) :
    ((db.removeFile p).getD db).files.lookup q = if q = p then none else db.files.lookup q := by
  unfold removeFile
  split_ifs with hp hq hq
  · subst hq
    exact AList.lookup_erase _ _
  · exact AList.lookup_erase_ne hq
  · subst hq
    exact AList.lookup_eq_none.mpr hp
  · rfl

theorem lookup_of_removeFile_eq_some {p : Path} {db' : LegacyDb} (h : db.removeFile p = some db')
    (q : Path) : db'.files.lookup q = if q = p then none else db.files.lookup q := by
  rw [← lookup_removeFile_getD, h]
  rfl

theorem userDirs_removeFile_getD (db : LegacyDb) (p : Path) :
    ((db.removeFile p).getD db).userDirs = db.userDirs := by
  unfold removeFile
  split_ifs <;> rfl

theorem removeFile_isSome (db : LegacyDb) (p : Path) : (db.removeFile p).isSome ↔ p ∈ db.files := by
  unfold removeFile
  split_ifs with hp <;> simp [hp]

/-- The loop over the key blob prefixes removes files only. -/
theorem lookup_removeKeyBlobLoop_of_eq_none {q : Path} (prefixes : List Bytes)
    (h : db.files.lookup q = none) :
    (removeKeyBlobLoop uid entryAlias prefixes db).1.files.lookup q = none := by
  induction prefixes with
  | nil => exact h
  | cons pre prefixes ih =>
    unfold removeKeyBlobLoop
    cases hrem : db.removeFile (makeBlobFilename uid entryAlias pre) with
    | none => exact ih
    | some db' =>
      dsimp only
      rw [lookup_removeFile_getD, lookup_of_removeFile_eq_some hrem, h]
      split_ifs <;> rfl

/-- The loop over the key blob prefixes touches no file other than the key blob and
characteristics files of its prefixes. -/
theorem lookup_removeKeyBlobLoop_of_ne {q : Path} (prefixes : List Bytes)
    (hq : ∀ pre ∈ prefixes,
      q ≠ makeBlobFilename uid entryAlias pre ∧ q ≠ makeChrFilename uid entryAlias pre) :
    (removeKeyBlobLoop uid entryAlias prefixes db).1.files.lookup q = db.files.lookup q := by
  induction prefixes with
  | nil => rfl
  | cons pre prefixes ih =>
    obtain ⟨hblob, hchr⟩ := hq pre List.mem_cons_self
    unfold removeKeyBlobLoop
    cases hrem : db.removeFile (makeBlobFilename uid entryAlias pre) with
    | none => exact ih fun pre' hpre' => hq pre' (List.mem_cons_of_mem _ hpre')
    | some db' =>
      dsimp only
      rw [lookup_removeFile_getD, lookup_of_removeFile_eq_some hrem, if_neg hchr, if_neg hblob]

/-- The loop reports whether a key blob file of one of its prefixes exists, and when at most
one of them does, none is left. -/
theorem removeKeyBlobLoop_spec (prefixes : List Bytes)
    (hone : ∀ pre ∈ prefixes, ∀ pre' ∈ prefixes, makeBlobFilename uid entryAlias pre ∈ db.files →
      makeBlobFilename uid entryAlias pre' ∈ db.files → pre = pre') :
    ((removeKeyBlobLoop uid entryAlias prefixes db).2 = true ↔
        ∃ pre ∈ prefixes, makeBlobFilename uid entryAlias pre ∈ db.files) ∧
      ∀ pre ∈ prefixes,
        (removeKeyBlobLoop uid entryAlias prefixes db).1.files.lookup
          (makeBlobFilename uid entryAlias pre) = none := by
  induction prefixes with
  | nil => simp [removeKeyBlobLoop]
  | cons pre prefixes ih =>
    unfold removeKeyBlobLoop
    cases hrem : db.removeFile (makeBlobFilename uid entryAlias pre) with
    | none =>
      -- no key blob of this prefix: the loop goes on to the next
      have hpre : makeBlobFilename uid entryAlias pre ∉ db.files := by
        rw [← removeFile_isSome, hrem]
        simp
      obtain ⟨hfound, hgone⟩ := ih fun p hp p' hp' =>
        hone p (List.mem_cons_of_mem _ hp) p' (List.mem_cons_of_mem _ hp')
      refine ⟨?_, ?_⟩
      · rw [hfound]
        constructor
        · rintro ⟨p, hp, hmem⟩
          exact ⟨p, List.mem_cons_of_mem _ hp, hmem⟩
        · rintro ⟨p, hp, hmem⟩
          rcases List.mem_cons.mp hp with rfl | hp
          · exact absurd hmem hpre
          · exact ⟨p, hp, hmem⟩
      · intro p hp
        rcases List.mem_cons.mp hp with rfl | hp
        · exact lookup_removeKeyBlobLoop_of_eq_none _ (AList.lookup_eq_none.mpr hpre)
        · exact hgone p hp
    | some db' =>
      -- the key blob of this prefix goes; those of the others were never there
      have hpre : makeBlobFilename uid entryAlias pre ∈ db.files := by
        rw [← removeFile_isSome, hrem]
        rfl
      refine ⟨⟨fun _ => ⟨pre, List.mem_cons_self, hpre⟩, fun _ => rfl⟩, fun p hp => ?_⟩
      dsimp only
      rw [lookup_removeFile_getD, lookup_of_removeFile_eq_some hrem]
      by_cases hp' : makeBlobFilename uid entryAlias p = makeBlobFilename uid entryAlias pre
      · rw [if_pos hp']
        split_ifs <;> rfl
      · have hnot : makeBlobFilename uid entryAlias p ∉ db.files := fun hmem =>
          hp' (congrArg _ (hone p hp pre List.mem_cons_self hmem hpre))
        rw [if_neg hp', AList.lookup_eq_none.mpr hnot]
        split_ifs <;> rfl

theorem lookup_foldl_removeFile (pres : List Bytes) (f : Bytes → Path) (db : LegacyDb)
    (q : Path) :
    (pres.foldl (fun db pre => (db.removeFile (f pre)).getD db) db).files.lookup q =
      if q ∈ pres.map f then none else db.files.lookup q := by
  induction pres generalizing db with
  | nil => simp
  | cons pre pres ih =>
    rw [List.foldl_cons, ih, lookup_removeFile_getD]
    by_cases hq : q = f pre
    · simp [hq]
    · simp [hq]

theorem files_removeUserDirIfEmpty (db : LegacyDb) (userId : UInt32) :
    (db.removeUserDirIfEmpty userId).files = db.files := by
  unfold removeUserDirIfEmpty
  split_ifs <;> rfl

theorem removeKeystoreEntry_snd (db : LegacyDb) (uid : UInt32) (entryAlias : Bytes) :
    (db.removeKeystoreEntry uid entryAlias).2 =
      (removeKeyBlobLoop uid entryAlias [ascii "USRPKEY", ascii "USRSKEY"] db).2 := by
  unfold removeKeystoreEntry
  generalize removeKeyBlobLoop uid entryAlias [ascii "USRPKEY", ascii "USRSKEY"] db = r
  obtain ⟨db', b⟩ := r
  cases b <;> rfl

theorem removeKeystoreEntry_files (db : LegacyDb) (uid : UInt32) (entryAlias : Bytes) :
    (db.removeKeystoreEntry uid entryAlias).1.files =
      ([ascii "USRCERT", ascii "CACERT"].foldl
        (fun db pre => (db.removeFile (makeBlobFilename uid entryAlias pre)).getD db)
        (removeKeyBlobLoop uid entryAlias [ascii "USRPKEY", ascii "USRSKEY"] db).1).files := by
  unfold removeKeystoreEntry
  generalize removeKeyBlobLoop uid entryAlias [ascii "USRPKEY", ascii "USRSKEY"] db = r
  obtain ⟨db', b⟩ := r
  cases b
  · rfl
  · exact files_removeUserDirIfEmpty _ _

end Remove

end LegacyDb

/-! ## Listing the aliases of a uid

A name is listed for a uid when it is `<uid>_`, a known prefix and a spelling of the alias that
`decode_alias` reads; the names of a user directory are its files, as long as every file lies
in an existing user directory. -/

/-- A spelling of an alias is ASCII. -/
theorem Spells.le_of_mem {a t : Bytes} (h : Spells a t) {b : UInt8} (hb : b ∈ t) : b ≤ 0x7F := by
  induction h with
  | nil => cases hb
  | literal hc _ ih =>
    rcases List.mem_cons.mp hb with rfl | hb
    · simp only [Bool.and_eq_true, decide_eq_true_eq] at hc
      exact UInt8.le_trans hc.2 (by decide)
    · exact ih hb
  | @escape c _ _ _ ih =>
    rcases List.mem_append.mp hb with hb | hb
    · obtain ⟨h1, ⟨-, h2⟩, -⟩ := encodePair_decodes c
      rcases List.mem_pair.mp hb with rfl | rfl
      · exact UInt8.le_trans h1.2 (by decide)
      · exact UInt8.le_trans h2 (by decide)
    · exact ih hb

/-- The known prefixes are ASCII, and none of them starts another. -/
theorem knownKeystorePrefixes_spec :
    ∀ pre ∈ knownKeystorePrefixes, (∀ b ∈ pre, b ≤ 0x7F) ∧
      ∀ pre' ∈ knownKeystorePrefixes, pre.isPrefixOf pre' = true → pre = pre' := by
  decide +kernel

/-- `extract_keystore_alias` of a known prefix and a spelling is the alias spelled. -/
theorem extractKeystoreAlias_append {pre t : Bytes} (hpre : pre ∈ knownKeystorePrefixes) :
    ∀ a, extractKeystoreAlias (pre ++ t) = some a ↔ decodeAlias t = .ok a := by
  -- the first known prefix of the name is `pre`: two prefixes of one name are comparable
  have hfind : knownKeystorePrefixes.find? (·.isPrefixOf (pre ++ t)) = some pre := by
    have hself : pre.isPrefixOf (pre ++ t) = true :=
      List.isPrefixOf_iff_prefix.mpr (List.prefix_append pre t)
    have hsome : (knownKeystorePrefixes.find? (·.isPrefixOf (pre ++ t))).isSome :=
      List.find?_isSome.mpr ⟨pre, hpre, hself⟩
    obtain ⟨x, hx⟩ := Option.isSome_iff_exists.mp hsome
    have hxmem := List.mem_of_find?_eq_some hx
    have hxtrue : x.isPrefixOf (pre ++ t) = true := by simpa using List.find?_some hx
    have hxpre := List.isPrefixOf_iff_prefix.mp hxtrue
    rw [hx]
    rcases List.prefix_or_prefix_of_prefix hxpre (List.prefix_append pre t) with h | h
    · rw [(knownKeystorePrefixes_spec x hxmem).2 pre hpre (List.isPrefixOf_iff_prefix.mpr h)]
    · rw [(knownKeystorePrefixes_spec pre hpre).2 x hxmem (List.isPrefixOf_iff_prefix.mpr h)]
  intro a
  unfold extractKeystoreAlias
  rw [hfind]
  dsimp only
  rw [List.drop_left]
  cases decodeAlias t <;> simp

/-- A name that `extract_keystore_alias` reads is a known prefix and a name that
`decode_alias` reads. -/
theorem exists_of_extractKeystoreAlias_eq_some {r a : Bytes} (h : extractKeystoreAlias r = some a) :
    ∃ pre ∈ knownKeystorePrefixes, ∃ t, r = pre ++ t ∧ decodeAlias t = .ok a := by
  cases hfind : knownKeystorePrefixes.find? (·.isPrefixOf r) with
  | none =>
    unfold extractKeystoreAlias at h
    simp [hfind] at h
  | some pre =>
    have hpre := List.mem_of_find?_eq_some hfind
    have hpred : pre.isPrefixOf r = true := by simpa using List.find?_some hfind
    obtain ⟨t, rfl⟩ := List.isPrefixOf_iff_prefix.mp hpred
    exact ⟨pre, hpre, t, rfl, (extractKeystoreAlias_append hpre a).mp h⟩

namespace LegacyDb

theorem mem_listUser {db : LegacyDb} {userId : UInt32} {v : Bytes} :
    v ∈ db.listUser userId ↔ userId ∈ db.userDirs ∧ (userId, v) ∈ db.files ∧ utf8Valid v = true := by
  unfold listUser
  split_ifs with hdir
  · simp only [List.mem_filter, List.mem_map, hdir, true_and]
    constructor
    · rintro ⟨⟨p, hp, rfl⟩, hv⟩
      obtain ⟨hp, hu⟩ := hp
      simp only [decide_eq_true_eq] at hu
      exact ⟨by rw [← hu]; exact AList.mem_keys.mp hp, hv⟩
    · rintro ⟨hmem, hv⟩
      exact ⟨⟨(userId, v), ⟨AList.mem_keys.mpr hmem, by simp⟩, rfl⟩, hv⟩
  · simp [hdir]

/-- Every file lies in an existing user directory. -/
def FilesInUserDirs (db : LegacyDb) : Prop := ∀ p ∈ db.files, p.1 ∈ db.userDirs

/-- In a database whose files lie in its user directories, `list_keystore_entries_for_uid`
lists exactly the UTF-8 aliases that some file of the uid spells after a known prefix. -/
theorem mem_listKeystoreEntriesForUid {db : LegacyDb} (hdirs : db.FilesInUserDirs)
    (uid : UInt32) (entryAlias : Bytes) :
    entryAlias ∈ db.listKeystoreEntriesForUid uid ↔
      utf8Valid entryAlias = true ∧ ∃ pre ∈ knownKeystorePrefixes, ∃ t, Spells entryAlias t ∧
        (uidToAndroidUser uid, uidString uid ++ 0x5F :: (pre ++ t)) ∈ db.files := by
  let _ : LinearOrder UInt8 := byteOrder
  unfold listKeystoreEntriesForUid
  rw [SortDedup.mem_sortDedup, List.mem_filterMap]
  constructor
  · rintro ⟨v, hv, hext⟩
    obtain ⟨-, hfile, -⟩ := mem_listUser.mp hv
    split_ifs at hext with hprefix
    obtain ⟨r, rfl⟩ := List.isPrefixOf_iff_prefix.mp hprefix
    rw [List.drop_left] at hext
    -- the rest of the name is a known prefix and a spelling of the alias
    obtain ⟨pre, hpre, t, rfl, hdec⟩ := exists_of_extractKeystoreAlias_eq_some hext
    obtain ⟨hutf8, hspells⟩ := (decodeAlias_eq_ok_iff t entryAlias).mp hdec
    exact ⟨hutf8, pre, hpre, t, hspells, by simpa using hfile⟩
  · rintro ⟨hutf8, pre, hpre, t, hspells, hfile⟩
    refine ⟨uidString uid ++ 0x5F :: (pre ++ t), mem_listUser.mpr ⟨hdirs _ hfile, hfile, ?_⟩, ?_⟩
    · -- the name is ASCII
      apply utf8Valid_of_forall_le
      intro b hb
      simp only [List.mem_append, List.mem_cons] at hb
      rcases hb with hb | rfl | hb | hb
      · exact le_of_mem_uidString hb
      · decide
      · exact (knownKeystorePrefixes_spec pre hpre).1 b hb
      · exact hspells.le_of_mem hb
    · have hprefix : (uidString uid ++ [0x5F]).isPrefixOf (uidString uid ++ 0x5F :: (pre ++ t)) =
          true := List.isPrefixOf_iff_prefix.mpr ⟨pre ++ t, by simp⟩
      have hdrop : (uidString uid ++ 0x5F :: (pre ++ t)).drop (uidString uid ++ [0x5F]).length =
          pre ++ t := by simp
      rw [if_pos hprefix, hdrop, extractKeystoreAlias_append hpre]
      exact (decodeAlias_eq_ok_iff t entryAlias).mpr ⟨hutf8, hspells⟩

theorem mem_listKeystoreEntriesForUid_usrpkey :
    let db : LegacyDb := ⟨{0}, (∅ : AList fun _ : Path => Bytes).insert
      (makeBlobFilename 10001 (ascii "a") (ascii "USRPKEY")) [1, 2, 3]⟩
    db.FilesInUserDirs ∧
      (ascii "a" ∈ db.listKeystoreEntriesForUid 10001 ↔
        utf8Valid (ascii "a") = true ∧ ∃ pre ∈ knownKeystorePrefixes, ∃ t,
          Spells (ascii "a") t ∧ (uidToAndroidUser 10001, uidString 10001 ++ 0x5F :: (pre ++ t)) ∈
            db.files) :=
  have hdirs : FilesInUserDirs ⟨{0}, (∅ : AList fun _ : Path => Bytes).insert
      (makeBlobFilename 10001 (ascii "a") (ascii "USRPKEY")) [1, 2, 3]⟩ := by
    intro p hp
    rw [AList.mem_insert] at hp
    rcases hp with rfl | hp
    · decide +kernel
    · cases hp
  ⟨hdirs, mem_listKeystoreEntriesForUid hdirs 10001 (ascii "a")⟩

end LegacyDb

end Keystore2.LegacyBlob
