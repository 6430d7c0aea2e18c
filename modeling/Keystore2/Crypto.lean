import Mathlib

/-! AES-GCM as `keystore2_crypto` (crypto/lib.rs) offers it over the primitives of crypto.cpp.
`aes_gcm_encrypt` draws a 12-byte nonce and seals the message under a 16- or 32-byte key;
`aes_gcm_decrypt` checks the lengths of its arguments first and also takes the 16-byte nonces of
older versions of keystore, whose last four bytes it ignores.  The primitives are the fields of
`Gcm`, whose one law is that opening what was sealed, with the same key and nonce, gives the
message back; the buffers they fill have the lengths the Rust code allocates. -/

namespace Keystore2.Crypto

abbrev Bytes := List UInt8

def gcmIvLength : Nat := 12

def tagLength : Nat := 16

def aes256KeyLength : Nat := 32

def aes128KeyLength : Nat := 16

def saltLength : Nat := 16

/-- Older versions of keystore produced nonces with four extra zero bytes at the end. -/
def legacyIvLength : Nat := 16

/-- The variants of `keystore2_crypto::Error` that the AES-GCM functions return. -/
inductive Error
  | invalidIvLength
  | invalidAeadTagLength
  | invalidKeyLength
  | decryptionFailed
  | encryptionFailed
  deriving DecidableEq, Repr

/-- `AES_gcm_encrypt` and `AES_gcm_decrypt` of crypto.cpp, which return false on failure.  The
ciphertext buffer has the length of the message and the tag buffer 16 bytes; the buffer of a
decryption has the length of the ciphertext. -/
structure Gcm where
  /-- The ciphertext and the tag of a message, under a key and a nonce. -/
  encrypt : Bytes → Bytes → Bytes → Option (Bytes × Bytes)
  /-- The message of a ciphertext, under a key, a nonce and a tag. -/
  decrypt : Bytes → Bytes → Bytes → Bytes → Option Bytes
  length_ciphertext : ∀ {plaintext key iv c tag}, encrypt plaintext key iv = some (c, tag) →
    c.length = plaintext.length
  length_tag : ∀ {plaintext key iv c tag}, encrypt plaintext key iv = some (c, tag) →
    tag.length = tagLength
  decrypt_encrypt : ∀ {plaintext key iv c tag}, encrypt plaintext key iv = some (c, tag) →
    decrypt c key iv tag = some plaintext

/-- The cipher that leaves the message as it is and tags it with zeros: the laws of `Gcm` hold
of it, and the examples run on it. -/
def Gcm.plain : Gcm where
  encrypt plaintext _ _ := some (plaintext, List.replicate tagLength 0)
  decrypt c _ _ _ := some c
  length_ciphertext h := by cases h; rfl
  length_tag h := by cases h; exact List.length_replicate
  decrypt_encrypt h := by cases h; rfl

/-- A nonce as `aes_gcm_encrypt` draws it: `GCM_IV_LENGTH` random bytes. -/
abbrev Nonce := {iv : Bytes // iv.length = gcmIvLength}

variable (gcm : Gcm)

/-- The key sizes of AES-128 and AES-256. -/
def validKeyLength (key : Bytes) : Bool :=
  key.length = aes128KeyLength || key.length = aes256KeyLength

/-- The nonce `aes_gcm_decrypt` uses: a legacy one is trimmed to its first twelve bytes. -/
def trimIv (iv : Bytes) : Except Error Bytes :=
  if iv.length = gcmIvLength then pure iv
  else if iv.length = legacyIvLength then pure (iv.take gcmIvLength)
  else throw .invalidIvLength

/-- `aes_gcm_decrypt(data, iv, tag, key)`. -/
def aesGcmDecrypt (data iv tag key : Bytes) : Except Error Bytes := do
  let iv ← trimIv iv
  if tag.length ≠ tagLength then throw .invalidAeadTagLength
  if !validKeyLength key then throw .invalidKeyLength
  match gcm.decrypt data key iv tag with
  | some result => pure result
  | none => throw .decryptionFailed

/-- `aes_gcm_encrypt(plaintext, key)` with the nonce it draws: the ciphertext, nonce and tag. -/
def aesGcmEncrypt (iv : Nonce) (plaintext key : Bytes) : Except Error (Bytes × Bytes × Bytes) :=
  if !validKeyLength key then throw .invalidKeyLength
  else
    match gcm.encrypt plaintext key iv.1 with
    | some (ciphertext, tag) => pure (ciphertext, iv.1, tag)
    | none => throw .encryptionFailed

section RoundTrip

variable {gcm} {iv : Nonce} {plaintext key c iv' tag : Bytes}

theorem aesGcmEncrypt_eq_ok (h : aesGcmEncrypt gcm iv plaintext key = .ok (c, iv', tag)) :
    validKeyLength key = true ∧ iv' = iv.1 ∧ gcm.encrypt plaintext key iv.1 = some (c, tag) := by
  unfold aesGcmEncrypt at h
  split at h
  · cases h
  · rename_i hkey
    split at h
    · rename_i c' tag' he
      cases h
      exact ⟨by simpa using hkey, rfl, he⟩
    · cases h

/-- What `aes_gcm_encrypt` seals, `aes_gcm_decrypt` opens with the same key, whether it is given
the nonce or the nonce followed by the four bytes an older keystore wrote after it. -/
theorem aesGcmDecrypt_aesGcmEncrypt (h : aesGcmEncrypt gcm iv plaintext key = .ok (c, iv', tag))
    {pad : Bytes} (hpad : pad = [] ∨ pad.length = legacyIvLength - gcmIvLength) :
    aesGcmDecrypt gcm c (iv' ++ pad) tag key = .ok plaintext := by
  obtain ⟨hkey, rfl, he⟩ := aesGcmEncrypt_eq_ok h
  have hiv := iv.2
  have htag := gcm.length_tag he
  -- the nonce the decryption uses is the drawn one in both cases
  have htrim : trimIv (iv.1 ++ pad) = pure iv.1 := by
    unfold trimIv
    rcases hpad with rfl | hpad
    · simp [hiv]
    · have hlen : (iv.1 ++ pad).length = legacyIvLength := by
        simp only [List.length_append, hiv, hpad]
        decide
      rw [if_neg (by rw [hlen]; decide), if_pos hlen, List.take_left' hiv]
  simp only [aesGcmDecrypt, htrim, htag, hkey, gcm.decrypt_encrypt he, bind, Except.bind, pure,
    Except.pure, ne_eq, not_true_eq_false, if_false, Bool.not_true, Bool.false_eq_true]

end RoundTrip

end Keystore2.Crypto
