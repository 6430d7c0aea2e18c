import Keystore2.Crypto
import Keystore2.Error
import Keystore2.LegacyBlob
import Keystore2.Lib.Except
import Keystore2.Lib.LittleEndian

/-! The blob files of the legacy keystore (`legacy_blob.rs`).  A file is a 40-byte header, the
payload, and for a password-encrypted super key a salt at its very end.  The header holds the
version, the blob type, the flags, the size of that trailing info field, a 16-byte nonce, a
16-byte tag and the big-endian length of the payload.  `new_from_stream` reads a file into a
`Blob`, `decrypt_if_required` opens its encrypted payload with a super key, and the test
utilities write a blob (`write_legacy_blob`), encrypting it first when its flags ask for it
(`prepare_blob`).  Slicing out of range and `unwrap` on an error panic; a panic is the result
`none`. -/

namespace Keystore2.LegacyBlob

open Crypto (Gcm Nonce)

def supportedLegacyBlobVersion : UInt8 := 3

-- the flags of `mod flags` that the modelled functions read
namespace Flags

def encrypted : UInt8 := 1

def superEncrypted : UInt8 := 4

end Flags

-- `mod blob_types`
namespace BlobTypes

def generic : UInt8 := 1

def superKey : UInt8 := 2

def kmBlob : UInt8 := 4

def keyCharacteristics : UInt8 := 5

def keyCharacteristicsCache : UInt8 := 6

def superKeyAes256 : UInt8 := 7

end BlobTypes

/-- How reading a blob fails: `Error::BadLen` and `Error::LockedComponent` of the module, a
keystore response code, or an error of the cipher. -/
inductive BlobError
  | badLen
  | lockedComponent
  | rc (code : ResponseCode)
  | crypto (e : Crypto.Error)
  deriving DecidableEq, Repr

inductive BlobValue
  | generic (data : Bytes)
  | characteristics (data : Bytes)
  | encryptedCharacteristics (iv tag data : Bytes)
  | characteristicsCache (data : Bytes)
  | pwEncrypted (iv tag data salt : Bytes) (keySize : Nat)
  | encrypted (iv tag data : Bytes)
  | encryptedGeneric (iv tag data : Bytes)
  | decrypted (data : Bytes)
  deriving DecidableEq, Repr

structure Blob where
  flags : UInt8
  value : BlobValue
  deriving DecidableEq, Repr

def Blob.isEncrypted (blob : Blob) : Bool :=
  blob.flags &&& (Flags.superEncrypted ||| Flags.encrypted) != 0

/-! ### Reading a blob file -/

def ivSize : Nat := Crypto.legacyIvLength

def gcmTagLength : Nat := Crypto.tagLength

def saltSize : Nat := Crypto.saltLength

def commonHeaderSize : Nat := 4 + ivSize + gcmTagLength + 4

def versionOffset : Nat := 0

def typeOffset : Nat := 1

def flagsOffset : Nat := 2

def saltSizeOffset : Nat := 3

def lengthOffset : Nat := 4 + ivSize + gcmTagLength

def ivOffset : Nat := 4

def aeadTagOffset : Nat := ivOffset + ivSize

/-- `&buffer[start..stop]`, which panics out of range. -/
def slice (buffer : Bytes) (start stop : Nat) : Option Bytes :=
  if start ≤ stop ∧ stop ≤ buffer.length then some ((buffer.drop start).take (stop - start))
  else none

/-- `u32::from_be_bytes(..) as usize`. -/
def u32FromBeBytes (bytes : Bytes) : Nat := LittleEndian.decode bytes.reverse

/-- The payload of a blob by its type, whether its flags say it is encrypted, and its salt: the
match at the end of `new_from_stream`, arm by arm. -/
def blobValue (blobType : UInt8) (isEncrypted : Bool) (salt : Option Bytes) (iv tag value : Bytes) :
    Except BlobError BlobValue :=
  if blobType = BlobTypes.generic then
    pure (if isEncrypted then .encryptedGeneric iv tag value else .generic value)
  else if blobType = BlobTypes.keyCharacteristics then
    pure (if isEncrypted then .encryptedCharacteristics iv tag value else .characteristics value)
  else if blobType = BlobTypes.keyCharacteristicsCache then pure (.characteristicsCache value)
  else if blobType = BlobTypes.superKey then
    match salt with
    | some salt => pure (.pwEncrypted iv tag value salt Crypto.aes128KeyLength)
    -- "Super key without salt for key derivation."
    | none => throw (.rc .valueCorrupted)
  else if blobType = BlobTypes.superKeyAes256 then
    match salt with
    | some salt => pure (.pwEncrypted iv tag value salt Crypto.aes256KeyLength)
    | none => throw (.rc .valueCorrupted)
  else if blobType = BlobTypes.kmBlob then
    pure (if isEncrypted then .encrypted iv tag value else .decrypted value)
  -- "Unknown blob type."
  else throw (.rc .valueCorrupted)

/-- The salt of a password-encrypted super key: the last `SALT_SIZE` bytes of the file, when the
info byte of the header gives that size. -/
def trailingSalt (buffer : Bytes) (info : UInt8) : Option (Option Bytes) :=
  if info.toNat = saltSize then some <$> slice buffer (buffer.length - saltSize) buffer.length
  else pure none

/-- The rest of `new_from_stream` once the first bytes of the header and the salt are read: the
version check, the length check and the payload. -/
def readPayload (buffer : Bytes) (version flags blobType : UInt8) (salt : Option Bytes) :
    Option (Except BlobError Blob) := do
  if version ≠ supportedLegacyBlobVersion then return .error (.rc .valueCorrupted)
  let length := u32FromBeBytes (← slice buffer lengthOffset (lengthOffset + 4))
  if buffer.length < commonHeaderSize + length then return .error .badLen
  let value ← slice buffer commonHeaderSize (commonHeaderSize + length)
  let iv ← slice buffer ivOffset (ivOffset + ivSize)
  let tag ← slice buffer aeadTagOffset (aeadTagOffset + gcmTagLength)
  let isEncrypted := flags &&& (Flags.encrypted ||| Flags.superEncrypted) != 0
  return (blobValue blobType isEncrypted salt iv tag value).map fun value => { flags, value }

/-- `new_from_stream`, on the bytes of the file; the salt is read before the version is
checked. -/
def newFromStream (buffer : Bytes) : Option (Except BlobError Blob) := do
  if buffer.length < commonHeaderSize then return .error .badLen
  let version ← buffer[versionOffset]?
  let flags ← buffer[flagsOffset]?
  let blobType ← buffer[typeOffset]?
  let salt ← trailingSalt buffer (← buffer[saltSizeOffset]?)
  readPayload buffer version flags blobType salt

/-- `decrypt_if_required`, with the `AesGcm::decrypt` of the super key if there is one. -/
def decryptIfRequired (superKey : Option (Bytes → Bytes → Bytes → Except BlobError Bytes))
    (blob : Blob) : Except BlobError Blob :=
  match blob.value, superKey with
  | .generic _, _ | .characteristics _, _ | .characteristicsCache _, _ | .decrypted _, _ =>
    pure blob
  | .encryptedCharacteristics iv tag data, some decrypt => do
    pure { flags := blob.flags, value := .characteristics (← decrypt data iv tag) }
  | .encrypted iv tag data, some decrypt => do
    pure { flags := blob.flags, value := .decrypted (← decrypt data iv tag) }
  | .encryptedGeneric iv tag data, some decrypt => do
    pure { flags := blob.flags, value := .generic (← decrypt data iv tag) }
  -- no super key, or a password-encrypted blob, which no super key opens
  | _, _ => throw .lockedComponent

/-- The `AesGcm::decrypt` of an AES super key with key material `key`. -/
def aesSuperKey (gcm : Gcm) (key : Bytes) : Bytes → Bytes → Bytes → Except BlobError Bytes :=
  fun data iv tag => (Crypto.aesGcmDecrypt gcm data iv tag key).mapError .crypto

/-! ### Writing a blob file (test utilities) -/

/-- `LegacyBlobHeader`, whose nonce and tag are arrays of 12 and 16 bytes. -/
structure LegacyBlobHeader where
  version : UInt8
  blobType : UInt8
  flags : UInt8
  info : UInt8
  iv : Bytes
  tag : Bytes
  blobSize : UInt32
  iv_length : iv.length = Crypto.gcmIvLength
  tag_length : tag.length = Crypto.tagLength

/-- `u32::to_be_bytes`. -/
def u32ToBeBytes (x : UInt32) : Bytes := (LittleEndian.encode 4 x.toNat).reverse

/-- The first eight writes of `write_legacy_blob_helper`: the header, with four zero bytes after
the 12-byte nonce. -/
def LegacyBlobHeader.bytes (header : LegacyBlobHeader) : Bytes :=
  [header.version, header.blobType, header.flags, header.info] ++ header.iv ++ [0, 0, 0, 0] ++
    header.tag ++ u32ToBeBytes header.blobSize

/-- `write_legacy_blob_helper`, on a writer that takes every byte: the header, the payload and
the info. -/
def writeLegacyBlobHelper (header : LegacyBlobHeader) (data : Bytes) (info : Option Bytes) :
    Bytes :=
  header.bytes ++ data ++ info.getD []

/-- A header of version 3 with no info, for a payload of `size` bytes. -/
def header3 (blobType flags : UInt8) (iv tag : Bytes) (size : Nat)
    (hiv : iv.length = Crypto.gcmIvLength) (htag : tag.length = Crypto.tagLength) :
    LegacyBlobHeader :=
  ⟨3, blobType, flags, 0, iv, tag, UInt32.ofNat size, hiv, htag⟩

/-- The all-zero nonce and tag of the blobs that are not encrypted. -/
def zeroHeader (blobType flags : UInt8) (size : Nat) : LegacyBlobHeader :=
  header3 blobType flags (List.replicate 12 0) (List.replicate 16 0) size (by decide) (by decide)

/-- `iv.try_into().unwrap()` and `tag[..].try_into().unwrap()` into the arrays of the header:
a panic unless the lengths are right. -/
def encryptedHeader (blobType flags : UInt8) (iv tag : Bytes) (size : Nat) :
    Option LegacyBlobHeader :=
  if hiv : iv.length = Crypto.gcmIvLength then
    if htag : tag.length = Crypto.tagLength then some (header3 blobType flags iv tag size hiv htag)
    else none
  else none

/-- `write_legacy_blob`: the bytes written, with `data.len() as u32` for the size. -/
def writeLegacyBlob (blob : Blob) : Option Bytes := do
  let (header, data, salt) ← match blob with
    | ⟨flags, .generic data⟩ => some (zeroHeader BlobTypes.generic flags data.length, data, none)
    | ⟨flags, .characteristics data⟩ =>
      some (zeroHeader BlobTypes.keyCharacteristics flags data.length, data, none)
    | ⟨flags, .characteristicsCache data⟩ =>
      some (zeroHeader BlobTypes.keyCharacteristicsCache flags data.length, data, none)
    | ⟨flags, .pwEncrypted iv tag data salt keySize⟩ => do
      let blobType :=
        if keySize = Crypto.aes128KeyLength then BlobTypes.superKey else BlobTypes.superKeyAes256
      pure (← encryptedHeader blobType flags iv tag data.length, data, some salt)
    | ⟨flags, .encrypted iv tag data⟩ => do
      pure (← encryptedHeader BlobTypes.kmBlob flags iv tag data.length, data, none)
    | ⟨flags, .encryptedGeneric iv tag data⟩ => do
      pure (← encryptedHeader BlobTypes.generic flags iv tag data.length, data, none)
    | ⟨flags, .encryptedCharacteristics iv tag data⟩ => do
      pure (← encryptedHeader BlobTypes.keyCharacteristics flags iv tag data.length, data, none)
    | ⟨flags, .decrypted data⟩ => some (zeroHeader BlobTypes.kmBlob flags data.length, data, none)
  pure (writeLegacyBlobHelper header data salt)

variable (gcm : Gcm)

/-- `prepare_blob`: a plain payload whose flags say it is encrypted is encrypted under `key`, and
an encrypted payload whose flags say it is not is decrypted; the rest is left as it is.  `iv` is
the nonce the encryption draws; `unwrap` on a failed encryption or decryption panics. -/
def prepareBlob (iv : Nonce) (blob : Blob) (key : Bytes) : Option Blob :=
  let encrypt (data : Bytes) (mk : Bytes → Bytes → Bytes → BlobValue) : Option Blob :=
    match Crypto.aesGcmEncrypt gcm iv data key with
    | .ok (ciphertext, iv, tag) => some { flags := blob.flags, value := mk iv tag ciphertext }
    | .error _ => none
  let decrypt (iv tag data : Bytes) (mk : Bytes → BlobValue) : Option Blob :=
    match Crypto.aesGcmDecrypt gcm data iv tag key with
    | .ok plaintext => some { flags := blob.flags, value := mk plaintext }
    | .error _ => none
  match blob.value, blob.isEncrypted with
  | .generic data, true => encrypt data .encryptedGeneric
  | .characteristics data, true => encrypt data .encryptedCharacteristics
  | .decrypted data, true => encrypt data .encrypted
  | .encryptedGeneric iv tag data, false => decrypt iv tag data .generic
  | .encryptedCharacteristics iv tag data, false => decrypt iv tag data .characteristics
  | .encrypted iv tag data, false => decrypt iv tag data .decrypted
  | _, _ => some blob


/-! ### What the writer and the reader agree on -/

/-- The bytes of the payload. -/
def BlobValue.data : BlobValue → Bytes
  | .generic data | .characteristics data | .characteristicsCache data | .decrypted data => data
  | .encryptedCharacteristics _ _ data | .pwEncrypted _ _ data _ _ | .encrypted _ _ data
  | .encryptedGeneric _ _ data => data

/-- Whether a payload is an encrypted one; `none` for the payloads that are read the same
whatever the flags say, a characteristics cache and a password-encrypted super key. -/
def BlobValue.encryptedVariant : BlobValue → Option Bool
  | .generic _ | .characteristics _ | .decrypted _ => some false
  | .encryptedGeneric .. | .encryptedCharacteristics .. | .encrypted .. => some true
  | .characteristicsCache _ | .pwEncrypted .. => none

/-- The flags of the blob agree with its payload on encryption, as `prepare_blob` makes them. -/
def Blob.consistent (blob : Blob) : Bool :=
  match blob.value.encryptedVariant with
  | some encrypted => blob.isEncrypted == encrypted
  | none => true

def BlobValue.isPwEncrypted : BlobValue → Bool
  | .pwEncrypted .. => true
  | _ => false

/-- The nonces and tags of an encrypted payload have the lengths of the arrays of the header. -/
def BlobValue.writable : BlobValue → Bool
  | .encryptedGeneric iv tag _ | .encryptedCharacteristics iv tag _ | .encrypted iv tag _
  | .pwEncrypted iv tag _ _ _ => iv.length == Crypto.gcmIvLength && tag.length == Crypto.tagLength
  | _ => true

/-- The payload as a file holds it: the nonce is followed by the four zero bytes the writer puts
after the twelve it is given. -/
def BlobValue.withLegacyIv : BlobValue → BlobValue
  | .encryptedGeneric iv tag data => .encryptedGeneric (iv ++ [0, 0, 0, 0]) tag data
  | .encryptedCharacteristics iv tag data => .encryptedCharacteristics (iv ++ [0, 0, 0, 0]) tag data
  | .encrypted iv tag data => .encrypted (iv ++ [0, 0, 0, 0]) tag data
  | .pwEncrypted iv tag data salt keySize => .pwEncrypted (iv ++ [0, 0, 0, 0]) tag data salt keySize
  | value => value

/-- The encrypted payload `prepare_blob` makes of a plain one. -/
def BlobValue.sealed (iv tag ciphertext : Bytes) : BlobValue → BlobValue
  | .generic _ => .encryptedGeneric iv tag ciphertext
  | .characteristics _ => .encryptedCharacteristics iv tag ciphertext
  | .decrypted _ => .encrypted iv tag ciphertext
  | value => value

/-- The layout of the header, for the arithmetic of the proofs. -/
theorem header_layout : commonHeaderSize = 40 ∧ lengthOffset = 36 ∧ ivOffset = 4 ∧
    aeadTagOffset = 20 ∧ ivSize = 16 ∧ gcmTagLength = 16 ∧ saltSize = 16 :=
  ⟨rfl, rfl, rfl, rfl, rfl, rfl, rfl⟩

section Slices

variable {buffer l m r : Bytes} {start stop k : Nat}

theorem slice_eq_some (h : start ≤ stop) (h' : stop ≤ buffer.length) :
    slice buffer start stop = some ((buffer.drop start).take (stop - start)) := by
  simp [slice, h, h']

theorem slice_append_left (h : stop ≤ l.length) :
    slice (l ++ r) start stop = slice l start stop := by
  unfold slice
  by_cases hs : start ≤ stop
  · have hlr : stop ≤ (l ++ r).length := by simp only [List.length_append]; omega
    rw [if_pos ⟨hs, hlr⟩, if_pos ⟨hs, h⟩, List.drop_append_of_le_length (by omega),
      List.take_append_of_le_length (by simp only [List.length_drop]; omega)]
  · simp [hs]

theorem slice_append_right (h : start = l.length) (h' : stop = l.length + k) (hk : k ≤ r.length) :
    slice (l ++ r) start stop = some (r.take k) := by
  subst h h'
  rw [slice_eq_some (by omega) (by simp only [List.length_append]; omega), List.drop_left,
    Nat.add_sub_cancel_left]

/-- The slice of the middle part of a concatenation, from where it starts. -/
theorem slice_append_middle (h : start = l.length) (h' : stop = l.length + k) (hk : k ≤ m.length) :
    slice (l ++ m ++ r) start stop = some (m.take k) := by
  rw [slice_append_left (by simp only [List.length_append]; omega), slice_append_right h h' hk]

end Slices

/-! ### Reading a file -/

section Read

variable {buffer : Bytes} {version flags blobType info : UInt8} {salt : Option Bytes} {blob : Blob}

/-- With the whole header there, `new_from_stream` reads its first four bytes and the salt
without a panic and goes on to the payload. -/
theorem newFromStream_eq_readPayload (h : commonHeaderSize ≤ buffer.length) :
    ∃ version flags blobType info salt, buffer[0]? = some version ∧ buffer[2]? = some flags ∧
      buffer[1]? = some blobType ∧ buffer[3]? = some info ∧ trailingSalt buffer info = some salt ∧
      newFromStream buffer = readPayload buffer version flags blobType salt := by
  have h40 : 40 ≤ buffer.length := h
  have hsalt : ∀ info, ∃ salt, trailingSalt buffer info = some salt := by
    intro info
    unfold trailingSalt
    split
    · exact ⟨_, by rw [slice_eq_some (by omega) le_rfl]; rfl⟩
    · exact ⟨none, rfl⟩
  obtain ⟨salt, hs⟩ := hsalt buffer[3]
  refine ⟨buffer[0], buffer[2], buffer[1], buffer[3], salt, List.getElem?_eq_getElem _,
    List.getElem?_eq_getElem _, List.getElem?_eq_getElem _, List.getElem?_eq_getElem _, hs, ?_⟩
  unfold newFromStream
  simp only [Nat.not_lt.mpr h, if_false, versionOffset, flagsOffset, typeOffset, saltSizeOffset,
    List.getElem?_eq_getElem (show 0 < buffer.length by omega),
    List.getElem?_eq_getElem (show 1 < buffer.length by omega),
    List.getElem?_eq_getElem (show 2 < buffer.length by omega),
    List.getElem?_eq_getElem (show 3 < buffer.length by omega), hs, Option.bind_eq_bind,
    Option.bind_some]

/-- Past the version and the length checks, every slice of the payload lies within the
buffer. -/
theorem readPayload_ne_none (h : commonHeaderSize ≤ buffer.length) :
    readPayload buffer version flags blobType salt ≠ none := by
  obtain ⟨hc, hl, hio, hao, his, hts, -⟩ := header_layout
  unfold readPayload
  rw [slice_eq_some (by omega) (by omega), slice_eq_some (by omega) (by omega),
    slice_eq_some (by omega) (by omega)]
  simp only [Option.bind_eq_bind, Option.bind_some]
  split_ifs with hver hfits
  · simp
  · simp
  · rw [slice_eq_some (by omega) (by omega)]
    simp

/-- `new_from_stream` never panics: every access and slice it makes is within the file. -/
theorem newFromStream_ne_none (buffer : Bytes) : newFromStream buffer ≠ none := by
  by_cases hshort : buffer.length < commonHeaderSize
  · simp [newFromStream, hshort]
  · obtain ⟨version, flags, blobType, info, salt, -, -, -, -, -, h⟩ :=
      newFromStream_eq_readPayload (Nat.not_lt.mp hshort)
    rw [h]
    exact readPayload_ne_none (Nat.not_lt.mp hshort)

theorem blobValue_data {iv tag v : Bytes} {isEncrypted : Bool} {value : BlobValue}
    (h : blobValue blobType isEncrypted salt iv tag v = .ok value) : value.data = v := by
  unfold blobValue at h
  split_ifs at h <;> (try split at h) <;> cases h <;> rfl

/-- What the payload part accepts: the supported version, and a payload of the length the
header states, right after the header. -/
theorem readPayload_eq_ok (h : commonHeaderSize ≤ buffer.length)
    (hr : readPayload buffer version flags blobType salt = some (.ok blob)) :
    version = supportedLegacyBlobVersion ∧ blob.flags = flags ∧
      commonHeaderSize + blob.value.data.length ≤ buffer.length ∧
      blob.value.data = (buffer.drop commonHeaderSize).take blob.value.data.length ∧
      u32FromBeBytes ((buffer.drop lengthOffset).take 4) = blob.value.data.length := by
  obtain ⟨hc, hl, hio, hao, his, hts, -⟩ := header_layout
  unfold readPayload at hr
  rw [slice_eq_some (by omega) (by omega), slice_eq_some (by omega) (by omega),
    slice_eq_some (by omega) (by omega)] at hr
  simp only [Option.bind_eq_bind, Option.bind_some, Nat.add_sub_cancel_left] at hr
  split_ifs at hr with hver hfits
  · cases hr
  · cases hr
  · rw [slice_eq_some (by omega) (by omega), Option.bind_some, Option.pure_def,
      Option.some.injEq, Nat.add_sub_cancel_left] at hr
    obtain ⟨value, hvalue, rfl⟩ := Except.map_eq_ok.mp hr
    have hdata := blobValue_data hvalue
    -- the payload is as long as the length field says, since the check passed
    have hlength : value.data.length = u32FromBeBytes ((buffer.drop lengthOffset).take 4) := by
      rw [hdata, List.length_take, List.length_drop]
      omega
    refine ⟨not_not.mp hver, rfl, ?_, ?_, hlength.symm⟩
    · rw [hlength]
      omega
    · rw [hlength]
      exact hdata

/-- What `new_from_stream` accepts: a file of the supported version whose header is followed by
a payload of exactly the length the header states; the flags of the blob are those of the
header. -/
theorem newFromStream_eq_ok (h : newFromStream buffer = some (.ok blob)) :
    buffer[versionOffset]? = some supportedLegacyBlobVersion ∧
      buffer[flagsOffset]? = some blob.flags ∧
      commonHeaderSize + blob.value.data.length ≤ buffer.length ∧
      blob.value.data = (buffer.drop commonHeaderSize).take blob.value.data.length ∧
      u32FromBeBytes ((buffer.drop lengthOffset).take 4) = blob.value.data.length := by
  by_cases hshort : buffer.length < commonHeaderSize
  · simp [newFromStream, hshort] at h
  · have hlong := Nat.not_lt.mp hshort
    obtain ⟨version, flags, blobType, info, salt, h0, h2, -, -, -, heq⟩ :=
      newFromStream_eq_readPayload hlong
    rw [heq] at h
    obtain ⟨rfl, rfl, hrest⟩ := readPayload_eq_ok hlong h
    exact ⟨h0, h2, hrest⟩

theorem newFromStream_eq_ok_generic :
    let buffer := writeLegacyBlobHelper (zeroHeader BlobTypes.generic 0 3) [1, 2, 3] none
    newFromStream buffer = some (.ok ⟨0, .generic [1, 2, 3]⟩) ∧
      buffer[versionOffset]? = some supportedLegacyBlobVersion ∧ buffer[flagsOffset]? = some 0 ∧
      commonHeaderSize + 3 ≤ buffer.length ∧ [1, 2, 3] = (buffer.drop commonHeaderSize).take 3 ∧
      u32FromBeBytes ((buffer.drop lengthOffset).take 4) = 3 :=
  ⟨by decide, @newFromStream_eq_ok
    (writeLegacyBlobHelper (zeroHeader BlobTypes.generic 0 3) [1, 2, 3] none) ⟨0, .generic [1, 2, 3]⟩
    (by decide)⟩

end Read

/-! ### Reading what was written -/

section Write

variable {header : LegacyBlobHeader} {data : Bytes} {info : Option Bytes}

theorem length_u32ToBeBytes (x : UInt32) : (u32ToBeBytes x).length = 4 := by
  simp [u32ToBeBytes]

/-- `from_be_bytes` undoes `to_be_bytes`. -/
theorem u32FromBeBytes_u32ToBeBytes (x : UInt32) : u32FromBeBytes (u32ToBeBytes x) = x.toNat := by
  unfold u32FromBeBytes u32ToBeBytes
  have hx : x.toNat < 256 ^ 4 := x.toNat_lt
  rw [List.reverse_reverse, LittleEndian.decode_encode_of_lt hx]

/-- The header the writer puts before the payload is `COMMON_HEADER_SIZE` bytes long. -/
theorem length_bytes (header : LegacyBlobHeader) : header.bytes.length = commonHeaderSize := by
  have hiv := header.iv_length
  have htag := header.tag_length
  simp only [LegacyBlobHeader.bytes, List.length_append, hiv, htag, length_u32ToBeBytes]
  rfl

/-- The fields the reader slices out of the header are those the writer put there, the nonce
with its four zero bytes. -/
theorem slice_bytes (header : LegacyBlobHeader) :
    slice header.bytes lengthOffset (lengthOffset + 4) = some (u32ToBeBytes header.blobSize) ∧
      slice header.bytes ivOffset (ivOffset + ivSize) = some (header.iv ++ [0, 0, 0, 0]) ∧
      slice header.bytes aeadTagOffset (aeadTagOffset + gcmTagLength) = some header.tag := by
  obtain ⟨-, hl, hio, hao, his, hts, -⟩ := header_layout
  have hiv : header.iv.length = 12 := header.iv_length
  have htag : header.tag.length = 16 := header.tag_length
  unfold LegacyBlobHeader.bytes
  refine ⟨?_, ?_, ?_⟩
  · rw [slice_append_right (by simp [hl, hiv, htag]) (by simp [hl, hiv, htag])
      (length_u32ToBeBytes _).ge, List.take_of_length_le (length_u32ToBeBytes _).le]
  · -- the nonce and the four bytes after it lie within the first twenty bytes
    rw [slice_append_left (by simp [hio, his, hiv, htag]),
      slice_append_left (by simp [hio, his, hiv]), List.append_assoc,
      slice_append_right (k := 16) (by simp [hio]) (by simp [hio, his]) (by simp [hiv]),
      List.take_of_length_le (by simp [hiv])]
  · rw [slice_append_middle (by simp [hao, hiv]) (by simp [hao, hts, hiv])
      htag.ge, List.take_of_length_le htag.le]

theorem slice_writeLegacyBlobHelper_header {start stop : Nat} (h : stop ≤ commonHeaderSize) :
    slice (writeLegacyBlobHelper header data info) start stop = slice header.bytes start stop := by
  rw [writeLegacyBlobHelper, List.append_assoc, slice_append_left (by rw [length_bytes]; exact h)]

theorem slice_writeLegacyBlobHelper_data {k : Nat} (hk : k ≤ data.length) :
    slice (writeLegacyBlobHelper header data info) commonHeaderSize (commonHeaderSize + k) =
      some (data.take k) :=
  slice_append_middle (length_bytes header).symm (by rw [length_bytes]) hk

theorem getElem?_writeLegacyBlobHelper (header : LegacyBlobHeader) (data : Bytes)
    (info : Option Bytes) :
    (writeLegacyBlobHelper header data info)[0]? = some header.version ∧
      (writeLegacyBlobHelper header data info)[1]? = some header.blobType ∧
      (writeLegacyBlobHelper header data info)[2]? = some header.flags ∧
      (writeLegacyBlobHelper header data info)[3]? = some header.info := by
  simp [writeLegacyBlobHelper, LegacyBlobHeader.bytes]

/-- The reader on what the writer wrote, with version 3 and no info byte: the fields of the
header come back, and the payload is the first `blob_size` bytes after the header. -/
theorem newFromStream_writeLegacyBlobHelper (hv : header.version = supportedLegacyBlobVersion)
    (hi : header.info = 0) (hsize : header.blobSize.toNat ≤ data.length) :
    newFromStream (writeLegacyBlobHelper header data info) =
      some ((blobValue header.blobType
        (header.flags &&& (Flags.encrypted ||| Flags.superEncrypted) != 0) none
        (header.iv ++ [0, 0, 0, 0]) header.tag (data.take header.blobSize.toNat)).map
          fun value => { flags := header.flags, value }) := by
  have hlong : commonHeaderSize ≤ (writeLegacyBlobHelper header data info).length := by
    simp only [writeLegacyBlobHelper, List.length_append, length_bytes]
    omega
  obtain ⟨version, flags, blobType, info', salt, h0, h2, h1, h3, hs, heq⟩ :=
    newFromStream_eq_readPayload hlong
  obtain ⟨g0, g1, g2, g3⟩ := getElem?_writeLegacyBlobHelper header data info
  -- the fields read are those written
  obtain rfl : version = header.version := Option.some.inj (h0.symm.trans g0)
  obtain rfl : flags = header.flags := Option.some.inj (h2.symm.trans g2)
  obtain rfl : blobType = header.blobType := Option.some.inj (h1.symm.trans g1)
  obtain rfl : info' = 0 := Option.some.inj (h3.symm.trans (hi ▸ g3))
  -- an info byte of 0 gives no salt
  obtain rfl : salt = none := Option.some.inj (hs.symm.trans (if_neg (by decide)))
  obtain ⟨hlf, hivs, htags⟩ := slice_bytes header
  rw [heq]
  unfold readPayload
  simp only [hv, ne_eq, not_true_eq_false, if_false,
    slice_writeLegacyBlobHelper_header (show lengthOffset + 4 ≤ commonHeaderSize by decide), hlf,
    Option.bind_eq_bind, Option.bind_some, u32FromBeBytes_u32ToBeBytes]
  rw [if_neg (by simp only [writeLegacyBlobHelper, List.length_append, length_bytes]; omega),
    slice_writeLegacyBlobHelper_data hsize, Option.bind_some,
    slice_writeLegacyBlobHelper_header (show ivOffset + ivSize ≤ commonHeaderSize by decide), hivs,
    Option.bind_some,
    slice_writeLegacyBlobHelper_header
      (show aeadTagOffset + gcmTagLength ≤ commonHeaderSize by decide), htags, Option.bind_some]
  rfl

/-- The reader on a header the writer builds, whose size field holds the payload's length. -/
theorem newFromStream_header3 {blobType flags : UInt8} {iv tag : Bytes}
    {hiv : iv.length = Crypto.gcmIvLength} {htag : tag.length = Crypto.tagLength}
    (hlen : data.length < 2 ^ 32) :
    newFromStream (writeLegacyBlobHelper (header3 blobType flags iv tag data.length hiv htag) data
      info) =
      some ((blobValue blobType (flags &&& (Flags.encrypted ||| Flags.superEncrypted) != 0) none
        (iv ++ [0, 0, 0, 0]) tag data).map fun value => { flags, value }) := by
  have hsize : (UInt32.ofNat data.length).toNat = data.length := UInt32.toNat_ofNat_of_lt' hlen
  rw [newFromStream_writeLegacyBlobHelper rfl rfl (by rw [header3, hsize])]
  simp only [header3, hsize, List.take_length]

theorem isEncrypted_flags (flags : UInt8) (value : BlobValue) :
    (flags &&& (Flags.encrypted ||| Flags.superEncrypted) != 0) =
      ({ flags, value } : Blob).isEncrypted := by
  have h : Flags.encrypted ||| Flags.superEncrypted = Flags.superEncrypted ||| Flags.encrypted := by
    decide
  rw [Blob.isEncrypted, h]

theorem encryptedHeader_eq_some {blobType flags : UInt8} {iv tag : Bytes} {size : Nat}
    (h : encryptedHeader blobType flags iv tag size = some header) :
    ∃ hiv htag, header = header3 blobType flags iv tag size hiv htag := by
  unfold encryptedHeader at h
  split at h
  · split at h
    · cases h
      exact ⟨_, _, rfl⟩
    · cases h
  · cases h

/-- Every payload but a password-encrypted super key is read back from what `write_legacy_blob`
wrote, when the flags agree with it and its length fits the size field. -/
theorem newFromStream_writeLegacyBlob {blob : Blob} {bytes : Bytes}
    (hw : writeLegacyBlob blob = some bytes) (hc : blob.consistent = true)
    (hpw : blob.value.isPwEncrypted = false) (hlen : blob.value.data.length < 2 ^ 32) :
    newFromStream bytes = some (.ok { blob with value := blob.value.withLegacyIv }) := by
  obtain ⟨flags, value⟩ := blob
  -- the flags the reader tests are those the consistency speaks of
  have henc : ∀ b, value.encryptedVariant = some b →
      (flags &&& (Flags.encrypted ||| Flags.superEncrypted) != 0) = b := by
    intro b hb
    rw [isEncrypted_flags flags value]
    simpa [Blob.consistent, hb] using hc
  dsimp only at hpw hlen ⊢
  -- one case per payload; the plain ones are written with a zero header, the encrypted ones
  -- with the header `encryptedHeader` checks
  cases value <;> dsimp only [BlobValue.data] at hlen
  case pwEncrypted => cases hpw
  case characteristicsCache data =>
    simp only [writeLegacyBlob, Option.bind_eq_bind, Option.bind_some, Option.pure_def,
      Option.some.injEq] at hw
    subst hw
    rw [zeroHeader, newFromStream_header3 hlen]
    rfl
  case generic | characteristics | decrypted =>
    simp only [writeLegacyBlob, Option.bind_eq_bind, Option.bind_some, Option.pure_def,
      Option.some.injEq] at hw
    subst hw
    rw [zeroHeader, newFromStream_header3 hlen, henc false rfl]
    rfl
  case encrypted | encryptedGeneric | encryptedCharacteristics =>
    simp only [writeLegacyBlob, Option.bind_eq_bind, Option.pure_def] at hw
    obtain ⟨header, hh, hw⟩ := Option.bind_eq_some_iff.mp hw
    obtain ⟨hiv, htag, rfl⟩ := encryptedHeader_eq_some hh
    cases hw
    rw [newFromStream_header3 hlen, henc true rfl]
    rfl

/-- `write_legacy_blob` panics only on a nonce or a tag that does not fit the header. -/
theorem writeLegacyBlob_ne_none {blob : Blob} (hw : blob.value.writable = true) :
    writeLegacyBlob blob ≠ none := by
  obtain ⟨flags, value⟩ := blob
  cases value <;> simp_all [writeLegacyBlob, BlobValue.writable, encryptedHeader]

/-- A password-encrypted super key is written with an info byte of 0 and no salt in the header
field that announces it, so that the reader, which takes the salt from that field, rejects
the file as a super key without salt. -/
theorem newFromStream_writeLegacyBlob_pwEncrypted {flags : UInt8} {iv tag data salt : Bytes}
    {keySize : Nat} {bytes : Bytes}
    (hw : writeLegacyBlob ⟨flags, .pwEncrypted iv tag data salt keySize⟩ = some bytes) :
    newFromStream bytes = some (.error (.rc .valueCorrupted)) := by
  simp only [writeLegacyBlob, Option.bind_eq_bind, Option.pure_def] at hw
  obtain ⟨header, hh, hw⟩ := Option.bind_eq_some_iff.mp hw
  obtain ⟨hiv, htag, rfl⟩ := encryptedHeader_eq_some hh
  cases hw
  -- the size field holds the length modulo 2^32, which the payload always covers
  have hsize : (UInt32.ofNat data.length).toNat ≤ data.length := by
    rw [UInt32.toNat_ofNat']
    exact Nat.mod_le _ _
  rw [newFromStream_writeLegacyBlobHelper rfl rfl hsize]
  -- both super key types need a salt
  dsimp only [header3]
  split_ifs <;> rfl

theorem newFromStream_writeLegacyBlob_pwEncrypted_superKey :
    ∃ bytes, writeLegacyBlob ⟨0, .pwEncrypted (List.replicate 12 0) (List.replicate 16 0) [1, 2, 3]
        (List.replicate 16 7) Crypto.aes128KeyLength⟩ = some bytes ∧
      newFromStream bytes = some (.error (.rc .valueCorrupted)) :=
  ⟨_, rfl, @newFromStream_writeLegacyBlob_pwEncrypted 0 (List.replicate 12 0) (List.replicate 16 0)
    [1, 2, 3] (List.replicate 16 7) Crypto.aes128KeyLength _ rfl⟩

/-- Writing a blob and reading the file back gives the blob, with the nonce as the file holds
it: for every payload but a password-encrypted super key, whose nonce and tag fit the header,
whose flags agree with it and whose length fits the size field. -/
theorem map_newFromStream_writeLegacyBlob {blob : Blob} (hw : blob.value.writable = true)
    (hc : blob.consistent = true) (hpw : blob.value.isPwEncrypted = false)
    (hlen : blob.value.data.length < 2 ^ 32) :
    (writeLegacyBlob blob).map newFromStream =
      some (some (.ok { blob with value := blob.value.withLegacyIv })) := by
  obtain ⟨bytes, hbytes⟩ := Option.ne_none_iff_exists'.mp (writeLegacyBlob_ne_none hw)
  rw [hbytes, Option.map_some, newFromStream_writeLegacyBlob hbytes hc hpw hlen]

theorem map_newFromStream_writeLegacyBlob_encryptedGeneric :
    let blob : Blob :=
      ⟨Flags.encrypted, .encryptedGeneric (List.replicate 12 7) (List.replicate 16 9) [1, 2, 3]⟩
    blob.value.writable = true ∧ blob.consistent = true ∧ blob.value.isPwEncrypted = false ∧
      blob.value.data.length < 2 ^ 32 ∧
      (writeLegacyBlob blob).map newFromStream =
        some (some (.ok { blob with value := blob.value.withLegacyIv })) :=
  ⟨by decide, by decide, rfl, by decide,
    map_newFromStream_writeLegacyBlob (by decide) (by decide) rfl (by decide)⟩

end Write

/-! ### Preparing, writing, reading and decrypting -/

section Prepare

variable {gcm} {iv : Nonce} {flags : UInt8} {value : BlobValue} {key bytes : Bytes} {blob : Blob}

theorem prepareBlob_of_not_isEncrypted (hplain : value.encryptedVariant = some false)
    (henc : ({ flags, value } : Blob).isEncrypted = false) :
    prepareBlob gcm iv { flags, value } key = some { flags, value } := by
  cases value <;> simp_all [prepareBlob, BlobValue.encryptedVariant]

/-- A plain payload whose flags ask for encryption is sealed under the key with the drawn
nonce. -/
theorem prepareBlob_of_isEncrypted (hplain : value.encryptedVariant = some false)
    (henc : ({ flags, value } : Blob).isEncrypted = true)
    (hp : prepareBlob gcm iv { flags, value } key = some blob) :
    ∃ c tag, Crypto.aesGcmEncrypt gcm iv value.data key = .ok (c, iv.1, tag) ∧
      blob = { flags, value := value.sealed iv.1 tag c } := by
  -- only the three plain payloads are encrypted, each by its own arm of the source
  cases value <;> simp only [BlobValue.encryptedVariant, Option.some.injEq, reduceCtorEq,
    Bool.true_eq_false] at hplain
  all_goals
    simp only [prepareBlob, henc] at hp
    split at hp
    · rename_i c iv' tag he
      obtain ⟨-, rfl, -⟩ := Crypto.aesGcmEncrypt_eq_ok he
      cases hp
      exact ⟨c, tag, he, rfl⟩
    · cases hp

theorem consistent_sealed (iv tag c : Bytes) (hplain : value.encryptedVariant = some false)
    (henc : ({ flags, value } : Blob).isEncrypted = true) :
    ({ flags, value := value.sealed iv tag c } : Blob).consistent = true := by
  cases value <;> simp_all [Blob.consistent, BlobValue.sealed, BlobValue.encryptedVariant,
    Blob.isEncrypted]

/-- The test utilities and the reader agree: a plain blob that `prepare_blob` encrypts (or
leaves alone) under a key and `write_legacy_blob` writes is read back by `new_from_stream` and
opened by `decrypt_if_required` with that key as the blob it was. -/
theorem newFromStream_decryptIfRequired_prepareBlob
    (hp : (prepareBlob gcm iv blob key).bind writeLegacyBlob = some bytes)
    (hplain : blob.value.encryptedVariant = some false) (hlen : blob.value.data.length < 2 ^ 32) :
    (newFromStream bytes).map (·.bind (decryptIfRequired (some (aesSuperKey gcm key)))) =
      some (.ok blob) := by
  obtain ⟨flags, value⟩ := blob
  obtain ⟨prepared, hprep, hw⟩ := Option.bind_eq_some_iff.mp hp
  dsimp only at hplain hlen
  cases henc : ({ flags, value } : Blob).isEncrypted with
  | false =>
    -- the flags ask for no encryption: the blob is written and read as it is
    rw [prepareBlob_of_not_isEncrypted hplain henc] at hprep
    cases hprep
    have hc : ({ flags, value } : Blob).consistent = true := by
      simp [Blob.consistent, hplain, henc]
    have hpw : value.isPwEncrypted = false := by
      cases value <;> simp_all [BlobValue.encryptedVariant, BlobValue.isPwEncrypted]
    rw [newFromStream_writeLegacyBlob hw hc hpw hlen]
    -- a plain payload is read as it was written and needs no super key
    cases value <;> simp only [BlobValue.encryptedVariant, Option.some.injEq, reduceCtorEq,
      Bool.true_eq_false] at hplain <;> rfl
  | true =>
    -- sealed under the key with the drawn nonce, then opened with the same key and the nonce
    -- as the file holds it
    obtain ⟨c, tag, he, rfl⟩ := prepareBlob_of_isEncrypted hplain henc hprep
    obtain ⟨-, -, hseal⟩ := Crypto.aesGcmEncrypt_eq_ok he
    have hclen : c.length = value.data.length := gcm.length_ciphertext hseal
    have hdec : Crypto.aesGcmDecrypt gcm c (iv.1 ++ [0, 0, 0, 0]) tag key = .ok value.data :=
      Crypto.aesGcmDecrypt_aesGcmEncrypt he (Or.inr rfl)
    have hc := consistent_sealed iv.1 tag c hplain henc
    cases value <;> simp only [BlobValue.encryptedVariant, Option.some.injEq, reduceCtorEq,
      Bool.true_eq_false] at hplain
    all_goals
      rw [newFromStream_writeLegacyBlob hw hc rfl (by rw [BlobValue.sealed, BlobValue.data]; omega)]
      simp only [Option.map_some, Option.some.injEq, BlobValue.sealed, BlobValue.withLegacyIv,
        Except.bind, decryptIfRequired, aesSuperKey, hdec, BlobValue.data]
      rfl

theorem newFromStream_decryptIfRequired_prepareBlob_generic :
    ∃ bytes, (prepareBlob Crypto.Gcm.plain ⟨List.replicate 12 0, rfl⟩
        ⟨Flags.encrypted, .generic [1, 2, 3]⟩ (List.replicate 16 5)).bind writeLegacyBlob =
          some bytes ∧
      BlobValue.encryptedVariant (.generic [1, 2, 3]) = some false ∧
      (BlobValue.generic [1, 2, 3]).data.length < 2 ^ 32 ∧
      (newFromStream bytes).map
          (·.bind (decryptIfRequired (some (aesSuperKey Crypto.Gcm.plain (List.replicate 16 5))))) =
        some (.ok ⟨Flags.encrypted, .generic [1, 2, 3]⟩) :=
  ⟨_, rfl, rfl, by decide,
    @newFromStream_decryptIfRequired_prepareBlob Crypto.Gcm.plain ⟨List.replicate 12 0, rfl⟩ _ _ _
      rfl rfl (by decide)⟩

end Prepare

end Keystore2.LegacyBlob
