import Keystore2.SuperKey.BootLevel
import Keystore2.SuperKey.Shape
import Keystore2.Enforcements.SuperEncryption
import Keystore2.Database.Blobs

/-! Super-encryption of key blobs in `super_key.rs`: `handle_super_encryption_on_key_init`
encrypts a new key blob with the super key that `super_encryption_required` asks for, and
records in the blob metadata which key that was; `unwrap_key_if_required` finds the key again
from the metadata and decrypts; `reencrypt_if_required` encrypts an upgraded blob with the key
the unwrapped blob names.

The ciphers are parameters with their round-trip laws.  What the database answers
(`super_key_exists_in_db_for_user`, `load_super_key` and the SEC1 public key in the loaded
entry's metadata) is an argument.  A boot level lookup grows the cache, which is returned.

`Encrypted` says that a blob and its metadata are a plaintext encrypted by a known super key:
every key in memory that matches it unwraps the blob.  Each encryption path makes an
`Encrypted` blob, and unwrapping one in any reachable state of the manager gives the plaintext
back, to be re-encrypted with the AES key that the found key names. -/

namespace Keystore2.SuperKeyManager

open Database (BlobMetaEntry BlobMetaData EncryptedBy Metadata)
open KeyParameter (KeyParameterValue)
open BootLevelKeys (BootLevelKeyCache)

/-- The ciphers of `keystore2_crypto` that super-encryption calls, with the laws that make
them correct: decrypting with the AES key, or the ECDH private key whose public key encrypted,
returns the plaintext. -/
structure Ciphers where
  /-- `aes_gcm_encrypt(plaintext, key)`: the ciphertext, iv and tag. -/
  aesGcmEncrypt : List UInt8 → List UInt8 → Except Error (List UInt8 × List UInt8 × List UInt8)
  /-- `aes_gcm_decrypt(data, iv, tag, key)`. -/
  aesGcmDecrypt : List UInt8 → List UInt8 → List UInt8 → List UInt8 → Except Error (List UInt8)
  /-- `ECDHPrivateKey::encrypt_message(public_key, message)`: the ephemeral public key, salt,
  iv, ciphertext and tag. -/
  encryptMessage : List UInt8 → List UInt8 →
    Except Error (List UInt8 × List UInt8 × List UInt8 × List UInt8 × List UInt8)
  /-- `ECDHPrivateKey::from_private_key(private_key)` followed by
  `decrypt_message(public_key, salt, iv, ciphertext, tag)`. -/
  decryptMessage : List UInt8 → List UInt8 → List UInt8 → List UInt8 → List UInt8 →
    List UInt8 → Except Error (List UInt8)
  /-- The SEC1 public key of an ECDH private key. -/
  publicKey : List UInt8 → List UInt8
  aes_roundTrip : ∀ plaintext key c iv tag, aesGcmEncrypt plaintext key = .ok (c, iv, tag) →
    aesGcmDecrypt c iv tag key = .ok plaintext
  ecdh_roundTrip : ∀ privateKey plaintext ephemeral salt iv c tag,
    encryptMessage (publicKey privateKey) plaintext = .ok (ephemeral, salt, iv, c, tag) →
    decryptMessage privateKey ephemeral salt iv c tag = .ok plaintext

variable (hkdfExpand : Nat → List UInt8 → String → List UInt8) (ciphers : Ciphers)

section Metadata

def SuperKeyIdentifier.fromMetadata (metadata : BlobMetaData) : Option SuperKeyIdentifier :=
  match metadata.encryptedBy with
  | some (.keyId keyId) => some (.databaseId keyId)
  | _ => metadata.maxBootLevel.map .bootLevel

def SuperKeyIdentifier.addToMetadata (self : SuperKeyIdentifier) (metadata : BlobMetaData) :
    BlobMetaData :=
  match self with
  | .databaseId id => metadata.add (.encryptedBy (.keyId id))
  | .bootLevel level => metadata.add (.maxBootLevel level)

end Metadata

/-- `AesGcm::decrypt` of a `SuperKey`. -/
def SuperKey.decrypt (self : SuperKey) (data iv tag : List UInt8) : Except Error (List UInt8) :=
  if self.algorithm = .aes256Gcm then ciphers.aesGcmDecrypt data iv tag self.key
  else throw Error.sys

def encryptWithAesSuperKey (keyBlob : List UInt8) (superKey : SuperKey) :
    Except Error (List UInt8 × BlobMetaData) :=
  if superKey.algorithm ≠ .aes256Gcm then throw Error.sys
  else
    match ciphers.aesGcmEncrypt keyBlob superKey.key with
    | .error e => throw e
    | .ok (encryptedKey, iv, tag) =>
      let metadata : BlobMetaData := (Metadata.new.add (.iv iv)).add (.aeadTag tag)
      pure (encryptedKey, superKey.id.addToMetadata metadata)

/-- `encrypt_with_hybrid_super_key`; `loaded` is the outcome of `load_super_key` for the user's
ECDH key: the entry id and the SEC1 public key of the entry's metadata. -/
def encryptWithHybridSuperKey (keyBlob : List UInt8) (symmetricKey : Option SuperKey)
    (loaded : Except Error (Option (Int64 × Option (List UInt8)))) :
    Except Error (List UInt8 × BlobMetaData) :=
  match symmetricKey with
  | some superKey => encryptWithAesSuperKey ciphers keyBlob superKey
  | none =>
    -- The symmetric key is locked away: encrypt for the public key, which is in the database.
    match loaded with
    | .error e => throw e
    | .ok none => throw Error.sys
    | .ok (some (_, none)) => throw Error.sys
    | .ok (some (keyId, some publicKey)) =>
      match ciphers.encryptMessage publicKey keyBlob with
      | .error e => throw e
      | .ok (ephemKey, salt, iv, encryptedKey, aeadTag) =>
        let metadata : BlobMetaData :=
          (((Metadata.new.add (.publicKey ephemKey)).add (.salt salt)).add (.iv iv)).add
            (.aeadTag aeadTag)
        pure (encryptedKey, (SuperKeyIdentifier.databaseId keyId).addToMetadata metadata)

inductive UserState
  | uninitialized
  | beforeFirstUnlock
  | afterFirstUnlock (superKey : SuperKey)

/-- `get_user_state`; `superKeyExists` is the outcome of `super_key_exists_in_db_for_user`. -/
def SkmState.getUserState (s : SkmState) (userId : UserId) (superKeyExists : Except Error Bool) :
    Except Error UserState :=
  match (s.userEntry userId).afterFirstUnlock with
  | some superKey => pure (.afterFirstUnlock superKey)
  | none =>
    match superKeyExists with
    | .error e => throw e
    | .ok true => pure .beforeFirstUnlock
    | .ok false => pure .uninitialized

def handleSuperEncryptionOnKeyInit (s : SkmState)
    (bootLevelKeyCache : Option (BootLevelKeyCache (List UInt8))) (alloc : Nat) (domain : Domain)
    (keyParameters : List KeyParameterValue) (flags : Option Int32) (userId : UserId)
    (keyBlob : List UInt8) (superKeyExists : Except Error Bool)
    (loaded : Except Error (Option (Int64 × Option (List UInt8)))) :
    Option (BootLevelKeyCache (List UInt8)) × Except Error (List UInt8 × BlobMetaData) :=
  match Enforcements.superEncryptionRequired domain keyParameters flags with
  | .none => (bootLevelKeyCache, pure (keyBlob, Metadata.new))
  | .afterFirstUnlock =>
    (bootLevelKeyCache,
      match s.getUserState userId superKeyExists with
      | .error e => throw e
      | .ok (.afterFirstUnlock superKey) => encryptWithAesSuperKey ciphers keyBlob superKey
      | .ok .beforeFirstUnlock => throw (.rc .locked)
      | .ok .uninitialized => throw (.rc .uninitialized))
  | .unlockedDeviceRequired =>
    (bootLevelKeyCache, encryptWithHybridSuperKey ciphers keyBlob
      (s.userEntry userId).unlockedDeviceRequiredSymmetric loaded)
  | .bootLevel level =>
    let (bootLevelKeyCache, superKey) :=
      lookupKey hkdfExpand s bootLevelKeyCache alloc (.bootLevel level)
    (bootLevelKeyCache,
      match superKey with
      | none => throw (.rc .locked)
      | some superKey => encryptWithAesSuperKey ciphers keyBlob superKey)

/-- `KeyBlob`: a decrypted key with the key to re-encrypt it with, a key that is never
encrypted, or a blob as it was stored. -/
inductive KeyBlob
  | sensitive (key : List UInt8) (reencryptWith : SuperKey) (forceReencrypt : Bool)
  | nonSensitive (key : List UInt8)
  | ref (key : List UInt8)

def unwrapKeyWithKey (blob : List UInt8) (metadata : BlobMetaData) (key : SuperKey) :
    Except Error (List UInt8) :=
  match key.algorithm with
  | .aes256Gcm =>
    match metadata.iv, metadata.aeadTag with
    | some iv, some tag => key.decrypt ciphers blob iv tag
    | _, _ => throw (.rc .valueCorrupted)
  | .ecdhP521 =>
    match metadata.publicKey, metadata.salt, metadata.iv, metadata.aeadTag with
    | some publicKey, some salt, some iv, some aeadTag =>
      ciphers.decryptMessage key.key publicKey salt iv blob aeadTag
    | _, _, _, _ => throw (.rc .valueCorrupted)

def unwrapKeyIfRequired (s : SkmState)
    (bootLevelKeyCache : Option (BootLevelKeyCache (List UInt8))) (alloc : Nat)
    (metadata : BlobMetaData) (blob : List UInt8) :
    Option (BootLevelKeyCache (List UInt8)) × Except Error KeyBlob :=
  match SuperKeyIdentifier.fromMetadata metadata with
  | none => (bootLevelKeyCache, pure (.ref blob))
  | some keyId =>
    let (bootLevelKeyCache, superKey) := lookupKey hkdfExpand s bootLevelKeyCache alloc keyId
    (bootLevelKeyCache,
      match superKey with
      | none => throw (.rc .locked)
      | some superKey =>
        match unwrapKeyWithKey ciphers blob metadata superKey with
        | .error e => throw e
        | .ok key =>
          pure (.sensitive key (superKey.reencryptWith.getD superKey) superKey.reencryptWith.isSome))

def reencryptIfRequired (keyBlobBeforeUpgrade : KeyBlob) (keyAfterUpgrade : List UInt8) :
    Except Error (KeyBlob × Option BlobMetaData) :=
  match keyBlobBeforeUpgrade with
  | .sensitive _ superKey _ =>
    match encryptWithAesSuperKey ciphers keyAfterUpgrade superKey with
    | .error e => throw e
    | .ok (key, metadata) => pure (.nonSensitive key, some metadata)
  | _ => pure (.ref keyAfterUpgrade, none)

section Spec

/-- The super key a blob was encrypted with, as far as the blob's metadata tells: an AES key,
or the ECDH key pair of a database entry, known by the entry id and the public key. -/
inductive Encryptor
  | aes (key : SuperKey)
  | ecdh (keyId : Int64) (publicKey : List UInt8)

def Encryptor.id : Encryptor → SuperKeyIdentifier
  | .aes key => key.id
  | .ecdh keyId _ => .databaseId keyId

def Encryptor.isEcdh : Encryptor → Bool
  | .aes _ => false
  | .ecdh _ _ => true

/-- A super key that decrypts what the encryptor encrypted: an AES key of the same material,
or the ECDH private key of the public key. -/
def Encryptor.Matches : Encryptor → SuperKey → Prop
  | .aes key, k => k.algorithm = .aes256Gcm ∧ k.key = key.key
  | .ecdh _ publicKey, k => k.algorithm = .ecdhP521 ∧ ciphers.publicKey k.key = publicKey

/-- The encryptor that a protection takes for a user in a state of the manager. -/
def Encryptor.Protects (s : SkmState) (userId : UserId) : SuperEncryptionType → Encryptor → Prop
  | .afterFirstUnlock, .aes key => (s.userEntry userId).afterFirstUnlock = some key
  | .unlockedDeviceRequired, .aes key =>
    (s.userEntry userId).unlockedDeviceRequiredSymmetric = some key
  | .unlockedDeviceRequired, .ecdh _ _ => (s.userEntry userId).unlockedDeviceRequiredSymmetric = none
  | .bootLevel level, .aes key => key.id = .bootLevel level
  | _, _ => False

/-- The blob `c` with metadata `md` is `b` encrypted by `E`: the metadata identifies `E`, and
every key that matches `E` unwraps `c` to `b`. -/
structure Encrypted (E : Encryptor) (b c : List UInt8) (md : BlobMetaData) : Prop where
  identifies : SuperKeyIdentifier.fromMetadata md = some E.id
  unwraps : ∀ k, E.Matches ciphers k → unwrapKeyWithKey ciphers c md k = .ok b

end Spec

section Reads

/-- What the metadata of an AES encryption records: the key, the iv and the tag. -/
theorem aesMetadata_reads (id : SuperKeyIdentifier) (iv tag : List UInt8) :
    let md := id.addToMetadata ((Metadata.new.add (.iv iv)).add (.aeadTag tag))
    SuperKeyIdentifier.fromMetadata md = some id ∧ md.iv = some iv ∧ md.aeadTag = some tag := by
  cases id <;> exact ⟨rfl, rfl, rfl⟩

/-- What the metadata of an ECDH encryption records: the key entry, the ephemeral public key,
the salt, the iv and the tag. -/
theorem ecdhMetadata_reads (keyId : Int64) (ephemKey salt iv aeadTag : List UInt8) :
    let md := (SuperKeyIdentifier.databaseId keyId).addToMetadata
      ((((Metadata.new.add (.publicKey ephemKey)).add (.salt salt)).add (.iv iv)).add
        (.aeadTag aeadTag))
    SuperKeyIdentifier.fromMetadata md = some (.databaseId keyId) ∧
      md.publicKey = some ephemKey ∧ md.salt = some salt ∧ md.iv = some iv ∧
      md.aeadTag = some aeadTag :=
  ⟨rfl, rfl, rfl, rfl, rfl⟩

end Reads

section Encrypt

variable {ciphers}

/-- An AES key unwraps a blob with the iv and tag of its metadata. -/
theorem unwrapKeyWithKey_of_aes {c iv tag : List UInt8} {md : BlobMetaData} {k : SuperKey}
    (halg : k.algorithm = .aes256Gcm) (hiv : md.iv = some iv) (htag : md.aeadTag = some tag) :
    unwrapKeyWithKey ciphers c md k = ciphers.aesGcmDecrypt c iv tag k.key := by
  unfold unwrapKeyWithKey
  rw [halg, hiv, htag]
  dsimp only
  unfold SuperKey.decrypt
  rw [if_pos halg]

/-- An ECDH key unwraps a blob with the ephemeral public key, salt, iv and tag of its
metadata. -/
theorem unwrapKeyWithKey_of_ecdh {c publicKey salt iv tag : List UInt8} {md : BlobMetaData}
    {k : SuperKey} (halg : k.algorithm = .ecdhP521) (hpk : md.publicKey = some publicKey)
    (hsalt : md.salt = some salt) (hiv : md.iv = some iv) (htag : md.aeadTag = some tag) :
    unwrapKeyWithKey ciphers c md k = ciphers.decryptMessage k.key publicKey salt iv c tag := by
  unfold unwrapKeyWithKey
  rw [halg, hpk, hsalt, hiv, htag]

/-- An AES encryption that succeeds was made with an AES key, and its blob is `Encrypted` by
that key. -/
theorem encryptWithAesSuperKey_eq_ok {b c : List UInt8} {K : SuperKey} {md : BlobMetaData}
    (h : encryptWithAesSuperKey ciphers b K = .ok (c, md)) :
    K.algorithm = .aes256Gcm ∧ Encrypted ciphers (.aes K) b c md := by
  unfold encryptWithAesSuperKey at h
  split at h
  · cases h
  · rename_i halg
    have halg : K.algorithm = .aes256Gcm := Decidable.not_not.mp halg
    split at h
    · cases h
    · rename_i c' iv tag henc
      cases h
      obtain ⟨hid, hiv, htag⟩ := aesMetadata_reads K.id iv tag
      refine ⟨halg, hid, ?_⟩
      rintro k ⟨hkalg, hkey⟩
      rw [unwrapKeyWithKey_of_aes hkalg hiv htag, hkey]
      exact ciphers.aes_roundTrip _ _ _ _ _ henc

/-- A hybrid encryption that succeeds is an AES encryption with the symmetric key when there is
one, and otherwise an ECDH encryption for the public key of the loaded entry. -/
theorem encryptWithHybridSuperKey_eq_ok {b c : List UInt8} {symmetricKey : Option SuperKey}
    {loaded : Except Error (Option (Int64 × Option (List UInt8)))} {md : BlobMetaData}
    (h : encryptWithHybridSuperKey ciphers b symmetricKey loaded = .ok (c, md)) :
    (∃ K, symmetricKey = some K ∧ Encrypted ciphers (.aes K) b c md) ∨
      symmetricKey = none ∧ ∃ keyId publicKey, Encrypted ciphers (.ecdh keyId publicKey) b c md := by
  unfold encryptWithHybridSuperKey at h
  split at h
  · rename_i K
    exact .inl ⟨K, rfl, (encryptWithAesSuperKey_eq_ok h).2⟩
  · -- A failed load, a missing entry or a missing public key is an error.
    split at h
    · cases h
    · cases h
    · cases h
    · rename_i keyId publicKey
      split at h
      · cases h
      · rename_i ephemKey salt iv c' aeadTag henc
        cases h
        obtain ⟨hid, hpk, hsalt, hiv, htag⟩ := ecdhMetadata_reads keyId ephemKey salt iv aeadTag
        refine .inr ⟨rfl, keyId, publicKey, hid, ?_⟩
        rintro k ⟨hkalg, hpub⟩
        rw [unwrapKeyWithKey_of_ecdh hkalg hpk hsalt hiv htag]
        rw [← hpub] at henc
        exact ciphers.ecdh_roundTrip _ _ _ _ _ _ _ henc

theorem getUserState_eq_ok_afterFirstUnlock {s : SkmState} {userId : UserId}
    {superKeyExists : Except Error Bool} {K : SuperKey}
    (h : s.getUserState userId superKeyExists = .ok (.afterFirstUnlock K)) :
    (s.userEntry userId).afterFirstUnlock = some K := by
  unfold SkmState.getUserState at h
  split at h
  · cases h
    assumption
  · split at h <;> cases h

variable {hkdfExpand}

/-- A boot level key is the AES key of its level. -/
theorem lookupKey_bootLevel_eq_some {s : SkmState}
    {cache : Option (BootLevelKeyCache (List UInt8))} {alloc : Nat} {level : Int32} {k : SuperKey}
    (h : (lookupKey hkdfExpand s cache alloc (.bootLevel level)).2 = some k) :
    k.id = .bootLevel level ∧ k.IsAes := by
  cases cache with
  | none => cases h
  | some c =>
    rcases hc : c.aesKey hkdfExpand (asUsize level) with ⟨c', key⟩
    simp only [lookupKey, hc] at h
    obtain ⟨key, -, rfl⟩ := Option.map_eq_some_iff.mp h
    exact ⟨rfl, rfl, rfl⟩

/-- A key that `lookup_key` finds in a shaped state is an AES or an ECDH key. -/
theorem lookupKey_shaped {s : SkmState} (hs : s.Shaped)
    {cache : Option (BootLevelKeyCache (List UInt8))} {alloc : Nat} {id : SuperKeyIdentifier}
    {k : SuperKey} (h : (lookupKey hkdfExpand s cache alloc id).2 = some k) :
    k.IsAes ∨ k.IsEcdh := by
  cases id with
  | databaseId id => exact hs.lookupKey h
  | bootLevel level => exact .inl (lookupKey_bootLevel_eq_some h).2

/-- A successful `handle_super_encryption_on_key_init` leaves the blob as it is when no
protection is required, and otherwise encrypts it with the key the protection takes. -/
theorem handleSuperEncryptionOnKeyInit_eq_ok {s : SkmState}
    {cache cache₁ : Option (BootLevelKeyCache (List UInt8))} {alloc : Nat} {domain : Domain}
    {ps : List KeyParameterValue} {flags : Option Int32} {userId : UserId}
    {superKeyExists : Except Error Bool} {loaded : Except Error (Option (Int64 × Option (List UInt8)))}
    {b c : List UInt8} {md : BlobMetaData}
    (h : handleSuperEncryptionOnKeyInit hkdfExpand ciphers s cache alloc domain ps flags userId b
      superKeyExists loaded = (cache₁, .ok (c, md))) :
    (Enforcements.superEncryptionRequired domain ps flags = .none ∧ c = b ∧ md = Metadata.new) ∨
      ∃ E : Encryptor, E.Protects s userId (Enforcements.superEncryptionRequired domain ps flags) ∧
        Encrypted ciphers E b c md := by
  unfold handleSuperEncryptionOnKeyInit at h
  have h2 := congrArg Prod.snd h
  split at h2
  · rename_i hreq
    cases h2
    exact .inl ⟨hreq, rfl, rfl⟩
  · rename_i hreq
    rw [hreq]
    dsimp only at h2
    split at h2
    · cases h2
    · rename_i K hK
      exact .inr ⟨.aes K, getUserState_eq_ok_afterFirstUnlock hK, (encryptWithAesSuperKey_eq_ok h2).2⟩
    · cases h2
    · cases h2
  · rename_i hreq
    rw [hreq]
    rcases encryptWithHybridSuperKey_eq_ok h2 with ⟨K, hK, hE⟩ | ⟨hnone, keyId, publicKey, hE⟩
    · exact .inr ⟨.aes K, hK, hE⟩
    · exact .inr ⟨.ecdh keyId publicKey, hnone, hE⟩
  · rename_i level hreq
    rw [hreq]
    rcases hl : lookupKey hkdfExpand s cache alloc (.bootLevel level) with ⟨cache', key⟩
    rw [hl] at h2
    dsimp only at h2
    cases key with
    | none => cases h2
    | some K =>
      have hK := @lookupKey_bootLevel_eq_some hkdfExpand s cache alloc level K (by rw [hl])
      exact .inr ⟨.aes K, hK.1, (encryptWithAesSuperKey_eq_ok h2).2⟩

end Encrypt

section Unwrap

variable {hkdfExpand ciphers}

/-- Unwrapping an `Encrypted` blob in a shaped state where a matching key is found gives the
plaintext back, to be re-encrypted with an AES key: the found key itself when it is an AES
key, and the AES key it re-encrypts with, forced, when it is an ECDH key. -/
theorem unwrapKeyIfRequired_of_encrypted {E : Encryptor} {b c : List UInt8} {md : BlobMetaData}
    (hE : Encrypted ciphers E b c md) {s : SkmState} (hs : s.Shaped)
    {cache : Option (BootLevelKeyCache (List UInt8))} {alloc : Nat} {K : SuperKey}
    (hk : (lookupKey hkdfExpand s cache alloc E.id).2 = some K) (hm : E.Matches ciphers K) :
    ∃ R, (unwrapKeyIfRequired hkdfExpand ciphers s cache alloc md c).2 =
        .ok (.sensitive b R E.isEcdh) ∧
      R.IsAes ∧ (E.isEcdh = false → R = K) ∧ (E.isEcdh = true → K.reencryptWith = some R) := by
  have hshape := lookupKey_shaped hs hk
  unfold unwrapKeyIfRequired
  rw [hE.identifies]
  dsimp only
  rcases hl : lookupKey hkdfExpand s cache alloc E.id with ⟨cache', key⟩
  rw [hl] at hk
  cases hk
  dsimp only
  rw [hE.unwraps K hm]
  dsimp only
  cases E with
  | aes key =>
    -- The found key has the algorithm of an AES key, so it re-encrypts with nothing.
    have ha := SuperKey.isAes_of_algorithm hshape hm.1
    refine ⟨K, ?_, ha, fun _ => rfl, fun h => by cases h⟩
    rw [ha.2]
    rfl
  | ecdh keyId publicKey =>
    obtain ⟨-, a, hr, ha⟩ := SuperKey.isEcdh_of_algorithm hshape hm.1
    refine ⟨a, ?_, ha, (fun h => by cases h), fun _ => hr⟩
    rw [hr]
    rfl

/-- `reencrypt_if_required` on an unwrapped blob encrypts the upgraded key with the AES key the
blob names, so that a key matching it unwraps the result to the upgraded key. -/
theorem reencryptIfRequired_sensitive_eq_ok {key keyAfterUpgrade : List UInt8} {R : SuperKey}
    {forceReencrypt : Bool} {kb : KeyBlob} {md : Option BlobMetaData}
    (h : reencryptIfRequired ciphers (.sensitive key R forceReencrypt) keyAfterUpgrade =
      .ok (kb, md)) :
    ∃ c md', kb = .nonSensitive c ∧ md = some md' ∧
      Encrypted ciphers (.aes R) keyAfterUpgrade c md' := by
  unfold reencryptIfRequired at h
  dsimp only at h
  split at h
  · cases h
  · rename_i c md' henc
    cases h
    exact ⟨c, md', rfl, rfl, (encryptWithAesSuperKey_eq_ok henc).2⟩

end Unwrap

/-- Ciphers that leave the plaintext as it is; they keep both laws. -/
def Ciphers.identity : Ciphers where
  aesGcmEncrypt plaintext _ := .ok (plaintext, [], [])
  aesGcmDecrypt data _ _ _ := .ok data
  encryptMessage _ plaintext := .ok ([], [], [], plaintext, [])
  decryptMessage _ _ _ _ data _ := .ok data
  publicKey key := key
  aes_roundTrip := by
    intro plaintext key c iv tag h
    cases h
    rfl
  ecdh_roundTrip := by
    intro privateKey plaintext ephemeral salt iv c tag h
    cases h
    rfl

end Keystore2.SuperKeyManager
