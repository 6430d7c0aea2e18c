import Keystore2.Lib.Cbor
import Keystore2.Lib.SortedMap
import Mathlib.Data.String.Basic

/-! The state credstore keeps for an identity credential, and its file (CredentialData.cpp).
The state is written as one CBOR map: saveToDisk encodes all of it, and loadFromDisk resets
the state and reads it back key by key, checking the type of each field.  A read can fail,
where the C++ returns false, or crash: parseAuthKeyData reads the 7th element of a record
through an unchecked cast.  What is read back is what was written, for every state that
loadFromDisk's final checks accept (`loadFromDisk_saveToDisk`). -/

namespace Keystore2.Identity

open Cbor

abbrev Bytes := List UInt8

/-- The files of the credential store by name.  A write always succeeds. -/
abbrev Files := String → Option Bytes

def hexDigits : List Char := "0123456789abcdef".toList

/-- encodeHex of the identity-credential support library: two lower-case digits a byte. -/
def encodeHex (data : Bytes) : String :=
  String.ofList (data.flatMap fun b => [hexDigits.getD (b.toNat / 16) '0', hexDigits.getD (b.toNat % 16) '0'])

/-- "%s/%d-%s" of the data path, the owner's uid as an int and the credential's name in hex. -/
def calculateCredentialFileName (dataPath : String) (ownerUid : UInt32) (name : String) : String :=
  dataPath ++ "/" ++ toString ownerUid.toInt32.toInt ++ "-" ++ encodeHex name.toUTF8.toList

structure SecureAccessControlProfile where
  id : Int32
  /-- The encoded certificate of the reader. -/
  readerCertificate : Bytes
  userAuthenticationRequired : Bool
  timeoutMillis : Int64
  secureUserId : Int64
  mac : Bytes
  deriving DecidableEq, Repr

structure EntryData where
  size : UInt64 := 0
  accessControlProfileIds : List Int32 := []
  encryptedChunks : List Bytes := []
  deriving DecidableEq, Repr

structure AuthKeyData where
  certificate : Bytes := []
  keyBlob : Bytes := []
  expirationDateMillisSinceEpoch : Int64 := 0
  staticAuthenticationData : Bytes := []
  pendingCertificate : Bytes := []
  pendingKeyBlob : Bytes := []
  useCount : Int32 := 0
  deriving DecidableEq, Repr

/-- The fields of CredentialData; of the three the constructor takes, only the file name they
make is read again. -/
structure CredentialData where
  fileName : String
  secureUserId : Int64 := 0
  credentialData : Bytes := []
  attestationCertificate : Bytes := []
  secureAccessControlProfiles : List SecureAccessControlProfile := []
  /-- Entries keyed by "namespace:name". -/
  idToEncryptedChunks : SortedMap String EntryData := .empty
  keyCount : Int32 := 0
  maxUsesPerKey : Int32 := 1
  minValidTimeMillis : Int64 := 0
  authKeyDatas : List AuthKeyData := []

namespace CredentialData

def new (dataPath : String) (ownerUid : UInt32) (name : String) : CredentialData :=
  { fileName := calculateCredentialFileName dataPath ownerUid name }

end CredentialData

/-! ### saveToDisk -/

def SecureAccessControlProfile.toItem (sacp : SecureAccessControlProfile) : Item :=
  .array [.int sacp.id.toInt64, .bstr sacp.readerCertificate, .bool sacp.userAuthenticationRequired,
    .int sacp.timeoutMillis, .int sacp.secureUserId, .bstr sacp.mac]

/-- The entry's size goes out as an unsigned integer, read back as its 64-bit signed value. -/
def EntryData.toItem (entryData : EntryData) : Item :=
  .array [.int entryData.size.toInt64,
    .array (entryData.accessControlProfileIds.map fun id => .int id.toInt64),
    .array (entryData.encryptedChunks.map .bstr)]

/-- Fields 0-5 as in Android 11; the expiration date, field 6, was added in Android 12. -/
def AuthKeyData.toItem (data : AuthKeyData) : Item :=
  .array [.bstr data.certificate, .bstr data.keyBlob, .bstr data.staticAuthenticationData,
    .bstr data.pendingCertificate, .bstr data.pendingKeyBlob, .int data.useCount.toInt64,
    .int data.expirationDateMillisSinceEpoch]

namespace CredentialData

/-- The entries of the map saveToDisk encodes, in the order it adds them. -/
def mapEntries (cd : CredentialData) : List (Item × Item) :=
  [(.tstr "secureUserId", .int cd.secureUserId),
    (.tstr "credentialData", .bstr cd.credentialData),
    (.tstr "attestationCertificate", .bstr cd.attestationCertificate),
    (.tstr "secureAccessControlProfiles",
      .array (cd.secureAccessControlProfiles.map SecureAccessControlProfile.toItem)),
    (.tstr "entryData",
      .map (cd.idToEncryptedChunks.entries.map fun e => (.tstr e.1, e.2.toItem))),
    (.tstr "authKeyCount", .int cd.keyCount.toInt64),
    (.tstr "maxUsesPerAuthKey", .int cd.maxUsesPerKey.toInt64),
    (.tstr "minValidTimeMillis", .int cd.minValidTimeMillis),
    (.tstr "authKeyData", .array (cd.authKeyDatas.map AuthKeyData.toItem))]

def toItem (cd : CredentialData) : Item := .map cd.mapEntries

def saveToDisk (C : Codec) (files : Files) (cd : CredentialData) : Files :=
  fun name => if name = cd.fileName then some (C.encode cd.toItem) else files name

end CredentialData

/-! ### loadFromDisk -/

/-- How a read that does not return a value ends: the code reports an error (loadFromDisk
returns false, an optional is empty), or the process crashes. -/
inductive Fault
  | fail
  | crash
  deriving DecidableEq, Repr

/-- A cast the code checks: a null pointer is an error. -/
def orFail {α : Type} : Option α → Except Fault α
  | some a => .ok a
  | none => .error .fail

def parseSacp : Item → Option SecureAccessControlProfile
  | .array (itemId :: itemReaderCertificate :: simple :: itemTimeoutMillis :: itemSecureUserId ::
      itemMac :: _) => do
    let id ← itemId.asInt
    let readerCertificate ← itemReaderCertificate.asBstr
    let userAuthenticationRequired ← simple.asBool
    let timeoutMillis ← itemTimeoutMillis.asInt
    let secureUserId ← itemSecureUserId.asInt
    let mac ← itemMac.asBstr
    pure ⟨id.toInt32, readerCertificate, userAuthenticationRequired, timeoutMillis, secureUserId, mac⟩
  | _ => none

/-- The expiration date of a record from the elements after its 6th: INT64_MAX when there is
none, and the 7th read through its cast with no check for null. -/
def parseExpirationDate : List Item → Except Fault Int64
  | [] => pure Int64.maxValue
  | itemExpirationDateMillisSinceEpoch :: _ =>
    match itemExpirationDateMillisSinceEpoch.asInt with
    | some expirationDateMillisSinceEpoch => pure expirationDateMillisSinceEpoch
    | none => throw .crash

def parseAuthKeyData : Item → Except Fault AuthKeyData
  | .array (itemCertificate :: itemKeyBlob :: itemStaticAuthenticationData ::
      itemPendingCertificate :: itemPendingKeyBlob :: itemUseCount :: rest) =>
    match itemCertificate.asBstr, itemKeyBlob.asBstr, itemStaticAuthenticationData.asBstr,
      itemPendingCertificate.asBstr, itemPendingKeyBlob.asBstr, itemUseCount.asInt with
    | some certificate, some keyBlob, some staticAuthenticationData, some pendingCertificate,
        some pendingKeyBlob, some useCount => do
      let expirationDateMillisSinceEpoch ← parseExpirationDate rest
      pure
        { certificate, keyBlob, expirationDateMillisSinceEpoch, staticAuthenticationData,
          pendingCertificate, pendingKeyBlob, useCount := useCount.toInt32 }
    | _, _, _, _, _, _ => throw .fail
  | _ => throw .fail

/-- An item that is not an array of integers gives no ids, not an error. -/
def parseAccessControlProfileIds : Item → List Int32
  | .array items => ((items.mapM Item.asInt).map (·.map Int64.toInt32)).getD []
  | _ => []

def parseEncryptedChunks : Item → Option (List Bytes)
  | .array items => items.mapM Item.asBstr
  | _ => none

/-- One entry of the "entryData" map: a "namespace:name" key and an array of at least three
elements, the size, the profile ids and the chunks. -/
def loadEntryData (m : SortedMap String EntryData) : Item × Item → Except Fault (SortedMap String EntryData)
  | (ecKeyItem, ecValueItem) => do
    let ecId ← orFail ecKeyItem.asTstr
    match ecValueItem.asArray with
    | some (ecEntrySizeItem :: idsItem :: chunksItem :: _) =>
      let entrySize ← orFail ecEntrySizeItem.asInt
      let accessControlProfileIds := parseAccessControlProfileIds idsItem
      let encryptedChunks ← orFail (parseEncryptedChunks chunksItem)
      pure (m.insert ecId
        { size := entrySize.toUInt64, accessControlProfileIds, encryptedChunks })
    | _ => throw .fail

namespace CredentialData

/-- One entry of the top-level map; a key loadFromDisk does not know is skipped. -/
def loadEntry (cd : CredentialData) : Item × Item → Except Fault CredentialData
  | (keyItem, valueItem) => do
    let key ← orFail keyItem.asTstr
    if key = "secureUserId" then
      let number ← orFail valueItem.asInt
      pure { cd with secureUserId := number }
    else if key = "credentialData" then
      let valueBstr ← orFail valueItem.asBstr
      pure { cd with credentialData := valueBstr }
    else if key = "attestationCertificate" then
      let valueBstr ← orFail valueItem.asBstr
      pure { cd with attestationCertificate := valueBstr }
    else if key = "secureAccessControlProfiles" then
      let array ← orFail valueItem.asArray
      let sacps ← orFail (array.mapM parseSacp)
      pure { cd with secureAccessControlProfiles := cd.secureAccessControlProfiles ++ sacps }
    else if key = "entryData" then
      let map ← orFail valueItem.asMap
      let idToEncryptedChunks ← map.foldlM loadEntryData cd.idToEncryptedChunks
      pure { cd with idToEncryptedChunks }
    else if key = "authKeyData" then
      let array ← orFail valueItem.asArray
      let authKeyDatas ← array.mapM parseAuthKeyData
      pure { cd with authKeyDatas := cd.authKeyDatas ++ authKeyDatas }
    else if key = "authKeyCount" then
      let number ← orFail valueItem.asInt
      pure { cd with keyCount := number.toInt32 }
    else if key = "maxUsesPerAuthKey" then
      let number ← orFail valueItem.asInt
      pure { cd with maxUsesPerKey := number.toInt32 }
    else if key = "minValidTimeMillis" then
      let number ← orFail valueItem.asInt
      pure { cd with minValidTimeMillis := number }
    else pure cd

/-- "Reset all data": every field but the secure user id and the file name. -/
def reset (cd : CredentialData) : CredentialData :=
  { cd with
    credentialData := [], attestationCertificate := [], secureAccessControlProfiles := [],
    idToEncryptedChunks := .empty, authKeyDatas := [], keyCount := 0, maxUsesPerKey := 1,
    minValidTimeMillis := 0 }

def loadFromDisk (C : Codec) (files : Files) (cd : CredentialData) : Except Fault CredentialData := do
  let cd := cd.reset
  let data ← orFail (files cd.fileName)
  let item ← orFail (C.parse data)
  let map ← orFail item.asMap
  let cd ← map.foldlM loadEntry cd
  if cd.credentialData.length = 0 then throw .fail
  if cd.attestationCertificate.length = 0 then throw .fail
  -- size_t(keyCount_) is the count modulo 2^64
  if (cd.keyCount.toInt % 2 ^ 64).toNat ≠ cd.authKeyDatas.length then throw .fail
  pure cd

end CredentialData

/-! ### Reading back what was written -/

section RoundTrip

@[simp] theorem parseSacp_toItem (sacp : SecureAccessControlProfile) :
    parseSacp sacp.toItem = some sacp := by
  simp [parseSacp, SecureAccessControlProfile.toItem, Item.asInt, Item.asBstr, Item.asBool]

@[simp] theorem parseAuthKeyData_toItem (data : AuthKeyData) :
    parseAuthKeyData data.toItem = .ok data := by
  simp [parseAuthKeyData, AuthKeyData.toItem, parseExpirationDate, Item.asInt, Item.asBstr, pure,
    Except.pure, bind, Except.bind]

/-- A list read back through a parser that inverts the writer of each element. -/
theorem mapM_map_of_pure {m : Type → Type} [Monad m] [LawfulMonad m] {α β : Type}
    {f : β → m α} {g : α → β} (hfg : ∀ a, f (g a) = pure a) (l : List α) :
    (l.map g).mapM f = pure l := by
  induction l with
  | nil => rfl
  | cons a l ih => simp [hfg, ih]

theorem parseAccessControlProfileIds_toItem (ids : List Int32) :
    parseAccessControlProfileIds (.array (ids.map fun id => .int id.toInt64)) = ids := by
  -- the ids go out widened to int64_t and come back narrowed
  have h : ((ids.map Int32.toInt64).map Item.int).mapM Item.asInt = some (ids.map Int32.toInt64) :=
    mapM_map_of_pure (fun _ => rfl : ∀ n, Item.asInt (.int n) = pure n) _
  rw [List.map_map, Function.comp_def] at h
  rw [parseAccessControlProfileIds, h]
  simp [Function.comp_def]

theorem parseEncryptedChunks_toItem (encryptedChunks : List Bytes) :
    parseEncryptedChunks (.array (encryptedChunks.map .bstr)) = some encryptedChunks :=
  mapM_map_of_pure (fun _ => rfl : ∀ c, Item.asBstr (.bstr c) = pure c) encryptedChunks

theorem loadEntryData_toItem (m : SortedMap String EntryData) (e : String × EntryData) :
    loadEntryData m (.tstr e.1, e.2.toItem) = .ok (m.insert e.1 e.2) := by
  obtain ⟨ecId, size, ids, chunks⟩ := e
  simp [loadEntryData, EntryData.toItem, orFail, Item.asTstr, Item.asArray, Item.asInt,
    parseAccessControlProfileIds_toItem, parseEncryptedChunks_toItem, pure, Except.pure, bind,
    Except.bind]

/-- The entries of the "entryData" map are assigned one after the other. -/
theorem foldlM_loadEntryData (m : SortedMap String EntryData) (es : List (String × EntryData)) :
    (es.map fun e => (Item.tstr e.1, e.2.toItem)).foldlM loadEntryData m =
      .ok (es.foldl (fun m e => m.insert e.1 e.2) m) := by
  induction es generalizing m with
  | nil => rfl
  | cons e es ih =>
    simp only [List.map_cons, List.foldlM_cons, loadEntryData_toItem, List.foldl_cons]
    exact ih (m.insert e.1 e.2)

namespace CredentialData

/-- Reading the entries saveToDisk writes into a reset state sets every field from them; the
lists and the map start empty, since the state was reset, and each key comes once. -/
theorem foldlM_loadEntry_mapEntries (cd r : CredentialData) (hs : r.secureAccessControlProfiles = [])
    (hm : r.idToEncryptedChunks = .empty) (ha : r.authKeyDatas = []) :
    cd.mapEntries.foldlM loadEntry r = .ok { cd with fileName := r.fileName } := by
  have hmap := foldlM_loadEntryData .empty cd.idToEncryptedChunks.entries
  rw [SortedMap.foldl_insert_entries] at hmap
  obtain ⟨fileName, secureUserId, credentialData, attestationCertificate, sacps, map, keyCount,
    maxUsesPerKey, minValidTimeMillis, authKeyDatas⟩ := r
  dsimp only at hs hm ha
  subst hs hm ha
  simp [mapEntries, loadEntry, orFail, Item.asTstr, Item.asInt, Item.asBstr, Item.asArray,
    Item.asMap, mapM_map_of_pure parseSacp_toItem, mapM_map_of_pure parseAuthKeyData_toItem, hmap,
    pure, Except.pure, bind, Except.bind]

/-- saveToDisk followed by loadFromDisk on a fresh CredentialData of the same file gives the
state back, field by field, when the state passes loadFromDisk's final checks. -/
theorem loadFromDisk_saveToDisk (C : Codec) (files : Files) (s : CredentialData)
    (dataPath : String) (ownerUid : UInt32) (name : String)
    (hfile : s.fileName = calculateCredentialFileName dataPath ownerUid name)
    (hcd : s.credentialData ≠ []) (hac : s.attestationCertificate ≠ [])
    (hkc : s.keyCount.toInt = s.authKeyDatas.length) :
    (new dataPath ownerUid name).loadFromDisk C (s.saveToDisk C files) = .ok s := by
  have hname : (new dataPath ownerUid name).reset.fileName = s.fileName := hfile.symm
  have hload := foldlM_loadEntry_mapEntries s (new dataPath ownerUid name).reset rfl rfl rfl
  rw [hname] at hload
  -- size_t(keyCount_) is the count itself, which is below 2^31
  have hkey : (s.keyCount.toInt % 2 ^ 64).toNat = s.authKeyDatas.length := by
    have := s.keyCount.toInt_lt
    omega
  have hread : s.saveToDisk C files s.fileName = some (C.encode s.toItem) := if_pos rfl
  simp only [loadFromDisk, hname, hread, orFail, C.parse_encode, toItem, Item.asMap, bind,
    Except.bind, hload, List.length_eq_zero_iff, hcd, hac, hkey, if_false, ne_eq, not_true_eq_false]
  rfl

end CredentialData

end RoundTrip

end Keystore2.Identity
