import Keystore2.Identity.AuthKeys

/-! The calls of credstore's Credential that keep the authentication keys (Credential.cpp).
Each call builds a fresh CredentialData for the credential's file, loads it, updates it and,
for the calls that change it, saves it back; a credential opened within a presentation session
refuses them.  A call returns a binder status, or the service crashes: the model's `none`. -/

namespace Keystore2.Identity

/-- The codes of ICredentialStore that these calls return. -/
def errorGeneric : Int32 := 1

def errorNoAuthenticationKeyAvailable : Int32 := 6

def errorAuthenticationKeyNotFound : Int32 := 9

/-- A service-specific error: its code and its message. -/
structure ServiceError where
  code : Int32
  message : String
  deriving DecidableEq, Repr

/-- The binder status of a call that returns an `α`. -/
abbrev Status (α : Type) := Except ServiceError α

structure Credential where
  dataPath : String
  credentialName : String
  callingUid : UInt32
  /-- Whether the credential belongs to a presentation session (halSessionBinder_ is set). -/
  inSession : Bool
  /-- selectedChallenge_, 0 while no challenge is selected. -/
  selectedChallenge : Int64 := 0

namespace Credential

/-- The fresh CredentialData each call builds. -/
def data (cred : Credential) : CredentialData :=
  CredentialData.new cred.dataPath cred.callingUid cred.credentialName

def sessionError : ServiceError := ⟨errorGeneric, "Cannot be used with session"⟩

def loadError : ServiceError := ⟨errorGeneric, "Error loading data for credential"⟩

/-- What every call does first: refuse a session, then load the credential's state and hand it
to the rest of the call, with `s` what the call changes when it returns early.  A load that
crashes crashes the call. -/
def withLoadedData {α σ : Type} (C : Cbor.Codec) (files : Files) (cred : Credential) (s : σ)
    (update : CredentialData → Option (Status α × σ)) : Option (Status α × σ) :=
  if cred.inSession then some (.error sessionError, s)
  else
    match cred.data.loadFromDisk C files with
    | .ok data => update data
    | .error .fail => some (.error loadError, s)
    | .error .crash => none

def setAvailableAuthenticationKeys (C : Cbor.Codec) (keyCount maxUsesPerKey : Int32)
    (minValidTimeMillis : Int64) (cred : Credential) (files : Files) :
    Option (Status Unit × Files) :=
  withLoadedData C files cred files fun data => do
    let data ← data.setAvailableAuthenticationKeys keyCount maxUsesPerKey minValidTimeMillis
    pure (.ok (), data.saveToDisk C files)

/-- The certificates to certify, with the HAL's generateSigningKeyPair for the record at each
position and the clock's `now` in seconds. -/
def getAuthKeysNeedingCertification (C : Cbor.Codec)
    (generateSigningKeyPair : Nat → Option (Bytes × Bytes)) (now : Int64) (cred : Credential)
    (files : Files) : Option (Status (List Bytes) × Files) :=
  withLoadedData C files cred files fun data =>
    match data.getAuthKeysNeedingCertification generateSigningKeyPair now with
    | .ok (keysNeedingCert, data) => some (.ok keysNeedingCert, data.saveToDisk C files)
    | .error .fail =>
      some (.error ⟨errorGeneric, "Error getting auth keys neededing certification"⟩, files)
    | .error .crash => none

def storeStaticAuthenticationDataWithExpiration (C : Cbor.Codec) (authenticationKey : Bytes)
    (expirationDateMillisSinceEpoch : Int64) (staticAuthData : Bytes) (cred : Credential)
    (files : Files) : Option (Status Unit × Files) :=
  withLoadedData C files cred files fun data =>
    match data.storeStaticAuthenticationData authenticationKey expirationDateMillisSinceEpoch
        staticAuthData with
    | (true, data) => some (.ok (), data.saveToDisk C files)
    | (false, _) =>
      some (.error ⟨errorAuthenticationKeyNotFound,
        "Error finding authentication key to store static authentication data for"⟩, files)

/-- The same call with the latest expiration date. -/
def storeStaticAuthenticationData (C : Cbor.Codec) (authenticationKey staticAuthData : Bytes)
    (cred : Credential) (files : Files) : Option (Status Unit × Files) :=
  storeStaticAuthenticationDataWithExpiration C authenticationKey Int64.maxValue staticAuthData
    cred files

/-- ensureChallenge, with the challenge the HAL (or the session) hands out: the credential with a
nonzero challenge selected, or none when it returns false. -/
def ensureChallenge (authChallenge : Option Int64) (cred : Credential) : Option Credential :=
  if cred.selectedChallenge ≠ 0 then some cred
  else
    match authChallenge with
    | some challenge => if challenge = 0 then none else some { cred with selectedChallenge := challenge }
    | none => none

/-- Checks that a key is available and returns the challenge; the state, with any raised use
count, is not saved. -/
def selectAuthKey (C : Cbor.Codec) (authChallenge : Option Int64)
    (allowUsingExhaustedKeys allowUsingExpiredKeys incrementUsageCount : Bool) (now : Int64)
    (cred : Credential) (files : Files) : Option (Status Int64 × Credential) :=
  withLoadedData C files cred cred fun data => do
    let (authKey, _) ← data.selectAuthKey allowUsingExhaustedKeys allowUsingExpiredKeys
      incrementUsageCount now
    match authKey with
    | none =>
      pure (.error ⟨errorNoAuthenticationKeyAvailable, "No suitable authentication key available"⟩,
        cred)
    | some _ =>
      match ensureChallenge authChallenge cred with
      | some cred => pure (.ok cred.selectedChallenge, cred)
      | none => pure (.error ⟨errorGeneric, "Error getting challenge (bug in HAL or TA)"⟩, cred)

section Frame

variable {α σ : Type} {C : Cbor.Codec} {files : Files} {cred : Credential} {s : σ}
  {update : CredentialData → Option (Status α × σ)}

theorem withLoadedData_of_crash (hs : cred.inSession = false)
    (h : cred.data.loadFromDisk C files = .error .crash) :
    withLoadedData C files cred s update = none := by
  simp [withLoadedData, hs, h]

theorem withLoadedData_of_ok {data : CredentialData} (hs : cred.inSession = false)
    (h : cred.data.loadFromDisk C files = .ok data) :
    withLoadedData C files cred s update = update data := by
  simp [withLoadedData, hs, h]

end Frame

/-! ### Three ways to crash the service -/

/-- A credential file whose one record has a 7th element that is not an integer. -/
def unreadableExpirationFile : Cbor.Item :=
  .map [(.tstr "authKeyData",
    .array [.array [.bstr [], .bstr [], .bstr [], .bstr [], .bstr [], .int 0, .null]])]

theorem loadFromDisk_unreadableExpirationFile (C : Cbor.Codec) (files : Files) (cd : CredentialData)
    (h : files cd.fileName = some (C.encode unreadableExpirationFile)) :
    cd.loadFromDisk C files = .error .crash := by
  have hread : files cd.reset.fileName = some (C.encode unreadableExpirationFile) := h
  simp [CredentialData.loadFromDisk, hread, orFail, C.parse_encode, unreadableExpirationFile,
    Cbor.Item.asMap, CredentialData.loadEntry, Cbor.Item.asTstr, Cbor.Item.asArray,
    parseAuthKeyData, parseExpirationDate, Cbor.Item.asBstr, Cbor.Item.asInt, bind, Except.bind,
    throw, throwThe, MonadExceptOf.throw]

/-- A credential file that loads, whose minimal validity is -1 ms and whose one record has no
7th element, so that its expiration date is INT64_MAX. -/
def overflowingExpirationFile : Cbor.Item :=
  .map [(.tstr "credentialData", .bstr [0]), (.tstr "attestationCertificate", .bstr [0]),
    (.tstr "authKeyCount", .int 1), (.tstr "minValidTimeMillis", .int (-1)),
    (.tstr "authKeyData", .array [.array [.bstr [], .bstr [], .bstr [], .bstr [], .bstr [], .int 0]])]

theorem loadFromDisk_overflowingExpirationFile (C : Cbor.Codec) (files : Files)
    (cd : CredentialData) (h : files cd.fileName = some (C.encode overflowingExpirationFile)) :
    ∃ data, cd.loadFromDisk C files = .ok data ∧ data.minValidTimeMillis = -1 ∧
      data.authKeyDatas = [{ expirationDateMillisSinceEpoch := Int64.maxValue }] := by
  refine ⟨{ cd.reset with
    credentialData := [0], attestationCertificate := [0], keyCount := 1,
    minValidTimeMillis := -1,
    authKeyDatas := [{ expirationDateMillisSinceEpoch := Int64.maxValue }] }, ?_, rfl, rfl⟩
  simp [CredentialData.loadFromDisk, h, orFail, C.parse_encode, overflowingExpirationFile,
    Cbor.Item.asMap, CredentialData.loadEntry, Cbor.Item.asTstr, Cbor.Item.asArray,
    parseAuthKeyData, parseExpirationDate, Cbor.Item.asBstr, Cbor.Item.asInt, bind, Except.bind,
    pure, Except.pure, CredentialData.reset]

end Credential

end Keystore2.Identity
