import Keystore2.SwKeyblob
import Keystore2.Lib.Der

/-! `KeyBlob` of `sw_keyblob.rs` and `export_key`, which reads one back to import its key into
KeyMint.  A serialized blob is a version byte, the key material with its `u32` length, the
hardware- and software-enforced parameter lists, and an 8-byte tag: the first bytes of
HMAC-SHA256 under a fixed key over what precedes it and the serialized hidden parameters.  The
HMAC is a parameter of the model.  Slicing out of range panics; a panic is the result
`none`. -/

namespace Keystore2.SwKeyblob

open Keystore2.KeyParameter (Algorithm EcCurve)

structure KeyBlob where
  keyMaterial : Bytes
  hwEnforced : List KeyParameter
  swEnforced : List KeyParameter
  deriving DecidableEq, Repr

/-- `get_tag_value`: the value of the first parameter with the tag. -/
def getTagValue (params : List KeyParameter) (tag : Tag) : Option KeyParameterValue :=
  params.findSome? fun kp => if kp.tag = tag then some kp.value else none

/-- `SOFTWARE_ROOT_OF_TRUST`, the bytes of `"SW"`. -/
def softwareRootOfTrust : Bytes := [0x53, 0x57]

/-- `hidden_params`: the application id and data of `params` if present, and a root of trust
parameter for each of `rots`. -/
def hiddenParams (params : List KeyParameter) (rots : List Bytes) : List KeyParameter :=
  (getTagValue params .applicationId).toList.map (⟨.applicationId, ·⟩) ++
    (getTagValue params .applicationData).toList.map (⟨.applicationData, ·⟩) ++
    rots.map fun rot => ⟨.rootOfTrust, .blob rot⟩

namespace KeyBlob

def keyBlobVersion : UInt8 := 0

/-- `LEGACY_HMAC_KEY`, the bytes of `"IntegrityAssuredBlob0\0"`. -/
def legacyHmacKey : Bytes :=
  "IntegrityAssuredBlob0".toList.map (fun c => c.toNat.toUInt8) ++ [0]

def macLen : Nat := 8

variable (hmacSha256 : Bytes → Bytes → Bytes)

/-- `compute_hmac`: the tag truncated to `MAC_LEN` bytes. -/
def computeHmac (data : Bytes) (hidden : List KeyParameter) : Except BlobError Bytes := do
  let hiddenData ← serializeParams hidden
  pure ((hmacSha256 legacyHmacKey (data ++ hiddenData)).take macLen)

/-- The fields of a blob as `new_from_serialized` reads them after the MAC check: from the
whole of `data`, the MAC included, with what is left. -/
def parseFields (data : Bytes) : Except BlobError (KeyBlob × Bytes) := do
  let (version, data) ← consumeU8 data
  if version ≠ keyBlobVersion then throw (.unexpectedVersion version)
  let (keyMaterial, data) ← consumeVec data
  let (hwEnforced, data) ← deserializeParams data
  let (swEnforced, data) ← deserializeParams data
  pure (⟨keyMaterial, hwEnforced, swEnforced⟩, data)

/-- `new_from_serialized`. -/
def newFromSerialized (data : Bytes) (hidden : List KeyParameter) :
    Option (Except BlobError KeyBlob) :=
  if data.length < 1 + 3 * 4 + macLen then some (throw (.notLongEnough data.length))
  else
    let mac := data.drop (data.length - macLen)
    match computeHmac hmacSha256 (data.take (data.length - macLen)) hidden with
    | .error e => some (throw e)
    | .ok computedMac =>
      if mac ≠ computedMac then some (throw .invalidMac)
      else
        match parseFields data with
        | .error e => some (throw e)
        | .ok (blob, data) =>
          -- `&data[Self::MAC_LEN..]`, which panics when fewer than `MAC_LEN` bytes are left
          if data.length < macLen then none
          else
            let rest := data.drop macLen
            if rest ≠ [] then some (throw (.extraData rest.length)) else some (pure blob)

end KeyBlob

/-! ## Export -/

/-- The AIDL `KeyFormat`s that `export_key` returns. -/
inductive KeyFormat
  | pkcs8
  | raw
  deriving DecidableEq, Repr

def derAlgorithmIdP224 : Bytes :=
  [0x30, 0x10, 0x06, 0x07, 0x2a, 0x86, 0x48, 0xce, 0x3d, 0x02, 0x01, 0x06, 0x05, 0x2b, 0x81, 0x04,
    0x00, 0x21]

def derAlgorithmIdP256 : Bytes :=
  [0x30, 0x13, 0x06, 0x07, 0x2a, 0x86, 0x48, 0xce, 0x3d, 0x02, 0x01, 0x06, 0x08, 0x2a, 0x86, 0x48,
    0xce, 0x3d, 0x03, 0x01, 0x07]

def derAlgorithmIdP384 : Bytes :=
  [0x30, 0x10, 0x06, 0x07, 0x2a, 0x86, 0x48, 0xce, 0x3d, 0x02, 0x01, 0x06, 0x05, 0x2b, 0x81, 0x04,
    0x00, 0x22]

def derAlgorithmIdP521 : Bytes :=
  [0x30, 0x10, 0x06, 0x07, 0x2a, 0x86, 0x48, 0xce, 0x3d, 0x02, 0x01, 0x06, 0x05, 0x2b, 0x81, 0x04,
    0x00, 0x23]

def derVersion0 : Bytes := [0x02, 0x01, 0x00]

/-- `add_der_len`: `buf` with the DER encoding of `len` appended. -/
def addDerLen (buf : Bytes) (len : Nat) : Except BlobError Bytes :=
  if len ≤ 0x7f then pure (buf ++ [len.toUInt8])
  else if len ≤ 0xff then pure (buf ++ [0x81, len.toUInt8])
  else if len ≤ 0xffff then
    pure (buf ++ [(0x82 : UInt8), (len >>> 8).toUInt8, (len &&& 0xff).toUInt8])
  else throw (.unsupportedDerLen len)

/-- `pkcs8_wrap_nist_key`: an `ECPrivateKey` of a NIST curve as a PKCS#8 `PrivateKeyInfo`. -/
def pkcs8WrapNistKey (nistKey : Bytes) (curve : EcCurve) : Except BlobError Bytes := do
  let derAlgId ←
    if curve = .p224 then pure derAlgorithmIdP224
    else if curve = .p256 then pure derAlgorithmIdP256
    else if curve = .p384 then pure derAlgorithmIdP384
    else if curve = .p521 then pure derAlgorithmIdP521
    else throw (.unknownCurve curve)
  let nistKeyOctetString ← addDerLen [0x04] nistKey.length
  let nistKeyOctetString := nistKeyOctetString ++ nistKey
  let buf ← addDerLen [0x30] (derVersion0.length + derAlgId.length + nistKeyOctetString.length)
  pure (buf ++ derVersion0 ++ derAlgId ++ nistKeyOctetString)

/-- The key material of an EC key in `export_key`, by the curve among the parameters. -/
def ecKeyMaterial (combined : List KeyParameter) (keyMaterial : Bytes) : Except BlobError Bytes :=
  match getTagValue combined .ecCurve with
  | none => throw .noCurve
  | some curve =>
    match curve with
    | .ecCurve c =>
      if c = .curve25519 then pure keyMaterial
      else if c = .p224 ∨ c = .p256 ∨ c = .p384 ∨ c = .p521 then pkcs8WrapNistKey keyMaterial c
      else throw (.unexpectedCurve curve)
    | _ => throw (.unexpectedCurve curve)

/-- The format `export_key` gives a key by its algorithm. -/
def keyFormat (algoVal : KeyParameterValue) : Except BlobError KeyFormat :=
  match algoVal with
  | .algorithm a =>
    if a = .aes ∨ a = .tripleDes ∨ a = .hmac then pure .raw
    else if a = .rsa ∨ a = .ec then pure .pkcs8
    else throw (.unexpectedAlgorithm algoVal)
  | _ => throw (.unexpectedAlgorithm algoVal)

variable (hmacSha256 : Bytes → Bytes → Bytes)

/-- `export_key`: the format, the key material and the combined parameters of a software
keyblob.  Only raw keys and EC keys are exported; an RSA key, of format PKCS#8, is an
unsupported combination. -/
def exportKey (data : Bytes) (params : List KeyParameter) :
    Option (Except BlobError (KeyFormat × Bytes × List KeyParameter)) :=
  let hidden := hiddenParams params [softwareRootOfTrust]
  (KeyBlob.newFromSerialized hmacSha256 data hidden).map fun blob => do
    let ⟨keyMaterial, hwEnforced, swEnforced⟩ ← blob
    let combined := hwEnforced ++ swEnforced
    let algoVal ←
      match getTagValue combined .algorithm with
      | some v => pure v
      | none => throw .noAlgorithm
    let format ← keyFormat algoVal
    let keyMaterial ←
      if format = .pkcs8 ∧ algoVal = .algorithm .ec then ecKeyMaterial combined keyMaterial
      else if format = .raw then pure keyMaterial
      else throw .unsupportedCombination
    pure (format, keyMaterial, combined)

/-! ## PKCS#8 -/

section Pkcs8

/-- The NIST curves with the algorithm identifiers `pkcs8_wrap_nist_key` gives them. -/
def nistAlgorithmIds : List (EcCurve × Bytes) :=
  [(.p224, derAlgorithmIdP224), (.p256, derAlgorithmIdP256), (.p384, derAlgorithmIdP384),
    (.p521, derAlgorithmIdP521)]

/-- `add_der_len` appends the DER length of `len` when it fits in two bytes. -/
theorem addDerLen_eq (buf : Bytes) (len : Nat) :
    addDerLen buf len =
      if len ≤ 0xffff then .ok (buf ++ Der.lengthOctets len)
      else .error (.unsupportedDerLen len) := by
  unfold addDerLen
  split
  · rw [if_pos (by omega), Der.lengthOctets_of_lt_128 (by omega)]
    rfl
  · split
    · rw [if_pos (by omega), Der.lengthOctets_of_lt_256 (by omega) (by omega)]
      rfl
    · split
      · -- two length bytes: the shift and the mask are the base-256 digits
        rw [Der.lengthOctets_of_lt_65536 (by omega) (by omega),
          Nat.shiftRight_eq_div_pow, show (0xff : Nat) = 2 ^ 8 - 1 from rfl,
          Nat.and_two_pow_sub_one_eq_mod]
        rfl
      · rfl

/-- The `match` on the curve picks the identifier of the table. -/
theorem pkcs8WrapNistKey_of_mem {c : EcCurve} {algId : Bytes} (hc : (c, algId) ∈ nistAlgorithmIds)
    (nistKey : Bytes) :
    pkcs8WrapNistKey nistKey c = (do
      let nistKeyOctetString ← addDerLen [0x04] nistKey.length
      let nistKeyOctetString := nistKeyOctetString ++ nistKey
      let buf ← addDerLen [0x30]
        (derVersion0.length + algId.length + nistKeyOctetString.length)
      pure (buf ++ derVersion0 ++ algId ++ nistKeyOctetString)) := by
  simp only [nistAlgorithmIds, List.mem_cons, Prod.mk.injEq, List.not_mem_nil, or_false] at hc
  rcases hc with ⟨rfl, rfl⟩ | ⟨rfl, rfl⟩ | ⟨rfl, rfl⟩ | ⟨rfl, rfl⟩ <;> rfl

/-- `pkcs8_wrap_nist_key` on a NIST curve: the DER `PrivateKeyInfo` of the key, unless one of
the two lengths it encodes is beyond two bytes. -/
theorem pkcs8WrapNistKey_eq {c : EcCurve} {algId : Bytes} (hc : (c, algId) ∈ nistAlgorithmIds)
    (nistKey : Bytes) :
    pkcs8WrapNistKey nistKey c =
      if 0xffff < nistKey.length then .error (.unsupportedDerLen nistKey.length)
      else if 0xffff < (derVersion0 ++ algId ++ Der.tlv 0x04 nistKey).length then
        .error (.unsupportedDerLen (derVersion0 ++ algId ++ Der.tlv 0x04 nistKey).length)
      else .ok (Der.tlv 0x30 (derVersion0 ++ algId ++ Der.tlv 0x04 nistKey)) := by
  rw [pkcs8WrapNistKey_of_mem hc, addDerLen_eq]
  by_cases hk : nistKey.length ≤ 0xffff
  · -- the OCTET STRING is built first
    rw [if_pos hk, if_neg (by omega)]
    have hoct : [(0x04 : UInt8)] ++ Der.lengthOctets nistKey.length ++ nistKey =
        Der.tlv 0x04 nistKey := rfl
    simp only [bind, Except.bind, hoct, ← List.length_append]
    rw [addDerLen_eq]
    by_cases hl : (derVersion0 ++ algId ++ Der.tlv 0x04 nistKey).length ≤ 0xffff
    · rw [if_pos hl, if_neg (by omega)]
      simp only [pure, Except.pure, Der.tlv, List.append_assoc, List.cons_append, List.nil_append]
    · rw [if_neg hl, if_pos (by omega)]
  · rw [if_neg hk, if_pos (by omega)]
    rfl

/-- `pkcs8_wrap_nist_key` writes well-formed DER, and fails exactly on a length of more than
two bytes. -/
theorem pkcs8WrapNistKey_der (nistKey : Bytes) {c : EcCurve} {algId : Bytes}
    (hc : (c, algId) ∈ nistAlgorithmIds) :
    (∀ out, pkcs8WrapNistKey nistKey c = .ok out →
      out = Der.tlv 0x30 (derVersion0 ++ algId ++ Der.tlv 0x04 nistKey)) ∧
    ((∃ e, pkcs8WrapNistKey nistKey c = .error e) ↔
      0xffff < nistKey.length ∨ 0xffff < (derVersion0 ++ algId ++ Der.tlv 0x04 nistKey).length) := by
  rw [pkcs8WrapNistKey_eq hc]
  constructor
  · intro out hout
    split at hout
    · cases hout
    · split at hout
      · cases hout
      · cases hout
        rfl
  · split
    · exact iff_of_true ⟨_, rfl⟩ (.inl ‹_›)
    · split
      · exact iff_of_true ⟨_, rfl⟩ (.inr ‹_›)
      · exact iff_of_false (fun ⟨_, h⟩ => by cases h) (by omega)

/-- A 121-byte P-256 key: the OCTET STRING and the SEQUENCE both take one length byte
`0x81`. -/
theorem pkcs8WrapNistKey_der_p256 :
    ((EcCurve.p256, derAlgorithmIdP256) ∈ nistAlgorithmIds) ∧
      ((∀ out, pkcs8WrapNistKey (List.replicate 121 0) .p256 = .ok out →
        out = Der.tlv 0x30 (derVersion0 ++ derAlgorithmIdP256 ++
          Der.tlv 0x04 (List.replicate 121 0))) ∧
      ((∃ e, pkcs8WrapNistKey (List.replicate 121 0) .p256 = .error e) ↔
        0xffff < (List.replicate 121 (0 : UInt8)).length ∨
          0xffff < (derVersion0 ++ derAlgorithmIdP256 ++
            Der.tlv 0x04 (List.replicate 121 0)).length)) :=
  ⟨by decide, pkcs8WrapNistKey_der _ (by decide)⟩

end Pkcs8

/-! ## Reading into the MAC -/

section Panic

variable {hmacSha256 : Bytes → Bytes → Bytes}

/-- `new_from_serialized` panics exactly when the blob is long enough, its MAC matches, and its
fields parse with fewer than `MAC_LEN` bytes left: when the fields reach into the MAC. -/
theorem KeyBlob.newFromSerialized_eq_none {data : Bytes} {hidden : List KeyParameter} :
    KeyBlob.newFromSerialized hmacSha256 data hidden = none ↔
      1 + 3 * 4 + KeyBlob.macLen ≤ data.length ∧
        KeyBlob.computeHmac hmacSha256 (data.take (data.length - KeyBlob.macLen)) hidden =
          .ok (data.drop (data.length - KeyBlob.macLen)) ∧
        ∃ blob rest, KeyBlob.parseFields data = .ok (blob, rest) ∧ rest.length < KeyBlob.macLen := by
  unfold KeyBlob.newFromSerialized
  by_cases hshort : data.length < 1 + 3 * 4 + KeyBlob.macLen
  · simp only [hshort, if_true, reduceCtorEq, false_iff]
    omega
  rw [if_neg hshort]
  cases hmac : KeyBlob.computeHmac hmacSha256 (data.take (data.length - KeyBlob.macLen)) hidden with
  | error e => simp
  | ok computed =>
    by_cases hne : data.drop (data.length - KeyBlob.macLen) = computed
    · subst hne
      cases hparse : KeyBlob.parseFields data with
      | error e => simp
      | ok r =>
        obtain ⟨blob, rest⟩ := r
        by_cases hrest : rest.length < KeyBlob.macLen
        · simp [hrest]
          omega
        · simp only [hrest, if_false, ne_eq, not_true_eq_false]
          split_ifs <;> simp [hrest]
    · simp [hne, Ne.symm hne]

/-- The fields of a blob up to its last value: no key material, no hardware-enforced
parameters, and one software-enforced parameter of tag `tag`, whose value is not there. -/
def dateBeforeMac (tag : Tag) : Bytes :=
  [KeyBlob.keyBlobVersion] ++ u32ToNeBytes 0 ++
    (u32ToNeBytes 0 ++ u32ToNeBytes 0 ++ u32ToNeBytes 0) ++
    (u32ToNeBytes 0 ++ u32ToNeBytes 1 ++ u32ToNeBytes 0 ++ u32ToNeBytes tag.val.toUInt32)

/-- The blob whose MAC over `dateBeforeMac tag` is the value of its last parameter. -/
def macAsDate (hmacSha256 : Bytes → Bytes → Bytes) (tag : Tag) (hiddenData : Bytes) : Bytes :=
  dateBeforeMac tag ++
    (hmacSha256 KeyBlob.legacyHmacKey (dateBeforeMac tag ++ hiddenData)).take KeyBlob.macLen

theorem length_dateBeforeMac (tag : Tag) : (dateBeforeMac tag).length = 33 := by
  simp [dateBeforeMac]

theorem consumeI64_of_length {chunk : Bytes} (h : chunk.length = 8) :
    consumeI64 chunk = .ok (i64FromNeBytes chunk, []) := by
  have hsplit := consumeBytes_append [] h
  rw [List.append_nil] at hsplit
  simp [consumeI64, hsplit, bind, Except.bind, pure, Except.pure]

/-- The fields of `dateBeforeMac` of a `DATE` tag followed by 8 bytes parse, and take those 8
bytes as the value of the tag. -/
theorem parseFields_dateBeforeMac {tag : Tag} (hdate : tagType tag = .date) {mac : Bytes}
    (hmac : mac.length = 8) :
    KeyBlob.parseFields (dateBeforeMac tag ++ mac) =
      .ok (⟨[], [], [⟨tag, .dateTime (i64FromNeBytes mac)⟩]⟩, []) := by
  have hvalue : consumeValue [] tag 0 mac = .ok (.dateTime (i64FromNeBytes mac), 0, []) := by
    simp [consumeValue_of_date [] 0 hdate, consumeI64_of_length hmac, Functor.map, Except.map]
  simp [KeyBlob.parseFields, dateBeforeMac, KeyBlob.keyBlobVersion, consumeU8, consumeVec,
    deserializeParams, deserializeEach, consumeParam, hvalue, bind, Except.bind, pure,
    Except.pure]

/-- The blob `macAsDate` passes the length and MAC checks and its fields leave nothing, so
`&data[MAC_LEN..]` is out of range. -/
theorem KeyBlob.newFromSerialized_macAsDate
    (hmac : ∀ key msg, KeyBlob.macLen ≤ (hmacSha256 key msg).length) {tag : Tag}
    (hdate : tagType tag = .date) {hidden : List KeyParameter} {hiddenData : Bytes}
    (hser : serializeParams hidden = .ok hiddenData) :
    KeyBlob.newFromSerialized hmacSha256 (macAsDate hmacSha256 tag hiddenData) hidden = none := by
  let mac := (hmacSha256 KeyBlob.legacyHmacKey (dateBeforeMac tag ++ hiddenData)).take KeyBlob.macLen
  have hlen : mac.length = 8 := by
    have := hmac KeyBlob.legacyHmacKey (dateBeforeMac tag ++ hiddenData)
    simp only [mac, List.length_take, KeyBlob.macLen] at this ⊢
    omega
  have hdata : (macAsDate hmacSha256 tag hiddenData).length - KeyBlob.macLen =
      (dateBeforeMac tag).length := by
    simp only [macAsDate, List.length_append, length_dateBeforeMac]
    change 33 + mac.length - 8 = 33
    omega
  rw [KeyBlob.newFromSerialized_eq_none, hdata]
  refine ⟨?_, ?_, _, [], parseFields_dateBeforeMac hdate hlen, by decide⟩
  · simp only [macAsDate, List.length_append, length_dateBeforeMac]
    change _ ≤ 33 + mac.length
    simp only [KeyBlob.macLen]
    omega
  · -- the MAC is the tag of the fields before it
    simp only [macAsDate, LittleEndian.take_append_of_length rfl,
      LittleEndian.drop_append_of_length rfl]
    simp [KeyBlob.computeHmac, hser, bind, Except.bind, pure, Except.pure]

theorem newFromSerialized_panics_on_macAsDate (hmacSha256 : Bytes → Bytes → Bytes)
    (hmac : ∀ key msg, KeyBlob.macLen ≤ (hmacSha256 key msg).length) {tag : Tag}
    (hdate : tagType tag = .date) :
    (∀ hidden hiddenData, serializeParams hidden = .ok hiddenData →
      KeyBlob.newFromSerialized hmacSha256 (macAsDate hmacSha256 tag hiddenData) hidden = none) ∧
    (∀ params hiddenData,
      serializeParams (hiddenParams params [softwareRootOfTrust]) = .ok hiddenData →
        exportKey hmacSha256 (macAsDate hmacSha256 tag hiddenData) params = none) := by
  refine ⟨fun hidden hiddenData hser => KeyBlob.newFromSerialized_macAsDate hmac hdate hser,
    fun params hiddenData hser => ?_⟩
  simp [exportKey, KeyBlob.newFromSerialized_macAsDate hmac hdate hser]

/-- Under an HMAC whose tags are all zero bytes, with a `CREATION_DATETIME` parameter. -/
theorem newFromSerialized_panics_on_creationDatetime :
    (∀ hidden hiddenData, serializeParams hidden = .ok hiddenData →
      KeyBlob.newFromSerialized (fun _ _ => List.replicate 32 0)
        (macAsDate (fun _ _ => List.replicate 32 0) ⟨0x600002BD⟩ hiddenData) hidden = none) ∧
    (∀ params hiddenData,
      serializeParams (hiddenParams params [softwareRootOfTrust]) = .ok hiddenData →
        exportKey (fun _ _ => List.replicate 32 0)
          (macAsDate (fun _ _ => List.replicate 32 0) ⟨0x600002BD⟩ hiddenData) params = none) :=
  newFromSerialized_panics_on_macAsDate (fun _ _ => List.replicate 32 0)
    (fun _ _ => by simp [KeyBlob.macLen]) (by decide)

end Panic

end Keystore2.SwKeyblob
