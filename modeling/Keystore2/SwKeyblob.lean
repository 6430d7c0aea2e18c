import Keystore2.KeyParameter
import Keystore2.Lib.LittleEndian

/-! The parameter lists of the software keyblobs of `sw_keyblob.rs`, the format of the C++
reference KeyMint.  Parameters here are the AIDL `KeyParameter`s, a `Tag` with a
`KeyParameterValue` union, not keystore's own typed parameters.  A serialized list is the
concatenated contents of its blob parameters, then the parameters one after another, each a tag
and a value whose width the tag's `TagType` gives; a blob parameter holds the length and
offset of its contents.  Integers are in host order, which is little-endian on every supported
platform.  A `&mut &[u8]` cursor is the byte list passed in and the rest handed back; the
`bloberr!` errors all carry `ErrorCode::INVALID_KEY_BLOB`, so an error here is the check that
failed with the values its message prints. -/

namespace Keystore2.SwKeyblob

open Keystore2.KeyParameter (Algorithm BlockMode PaddingMode Digest EcCurve KeyOrigin KeyPurpose
  HardwareAuthenticatorType SecurityLevel)

abbrev Bytes := List UInt8

/-- The AIDL `TagType`: the top four bits of a tag. -/
structure TagType where
  val : Int32
  deriving DecidableEq, Repr

namespace TagType

-- An `i32` literal is taken modulo `2^32`, so the types from `BIGNUM` on are negative.
def invalid : TagType := ⟨0⟩
def enum : TagType := ⟨0x10000000⟩
def enumRep : TagType := ⟨0x20000000⟩
def uint : TagType := ⟨0x30000000⟩
def uintRep : TagType := ⟨0x40000000⟩
def ulong : TagType := ⟨0x50000000⟩
def date : TagType := ⟨0x60000000⟩
def bool : TagType := ⟨0x70000000⟩
def bignum : TagType := ⟨0x80000000⟩
def bytes : TagType := ⟨0x90000000⟩
def ulongRep : TagType := ⟨0xA0000000⟩

end TagType

/-- The AIDL `Tag`, its `TagType` or'ed with a number. -/
structure Tag where
  val : Int32
  deriving DecidableEq, Repr

namespace Tag

def purpose : Tag := ⟨0x20000001⟩
def algorithm : Tag := ⟨0x10000002⟩
def blockMode : Tag := ⟨0x20000004⟩
def digest : Tag := ⟨0x20000005⟩
def padding : Tag := ⟨0x20000006⟩
def ecCurve : Tag := ⟨0x1000000A⟩
def rsaOaepMgfDigest : Tag := ⟨0x200000CB⟩
def userAuthType : Tag := ⟨0x100001F8⟩
def applicationId : Tag := ⟨0x90000259⟩
def applicationData : Tag := ⟨0x900002BC⟩
def origin : Tag := ⟨0x100002BE⟩
def rootOfTrust : Tag := ⟨0x900002C0⟩

end Tag

/-- `tag_type`. -/
def tagType (tag : Tag) : TagType := ⟨(tag.val.toUInt32 &&& 0xF0000000).toInt32⟩

/-- The AIDL `KeyParameterValue` union. -/
inductive KeyParameterValue
  | invalid (v : Int32)
  | algorithm (v : Algorithm)
  | blockMode (v : BlockMode)
  | paddingMode (v : PaddingMode)
  | digest (v : Digest)
  | ecCurve (v : EcCurve)
  | origin (v : KeyOrigin)
  | keyPurpose (v : KeyPurpose)
  | hardwareAuthenticatorType (v : HardwareAuthenticatorType)
  | securityLevel (v : SecurityLevel)
  | boolValue (v : Bool)
  | integer (v : Int32)
  | longInteger (v : Int64)
  | dateTime (v : Int64)
  | blob (v : Bytes)
  deriving DecidableEq, Repr

structure KeyParameter where
  tag : Tag
  value : KeyParameterValue
  deriving DecidableEq, Repr

/-- The check of `sw_keyblob.rs` that failed, with what its `bloberr!` message prints. -/
inductive BlobError
  | notLongEnough (len : Nat)
  | invalidMac
  | unexpectedVersion (version : UInt8)
  | missingByte
  | boolNotOne
  | missingBytes (len : Nat)
  | blobOffset (offset expected : Nat)
  | blobBeyond (offset len size : Nat)
  | blobDataSize (size len : Nat)
  | sizeMismatch (blobDataSize paramSize len : Nat)
  | invalidTag (tag : Tag)
  | unexpectedTagType (tag : Tag)
  | extraData (len : Nat)
  | blobTagType (tag : Tag)
  | invalidValue (param : KeyParameter)
  | unknownValue (param : KeyParameter)
  | noAlgorithm
  | unexpectedAlgorithm (value : KeyParameterValue)
  | noCurve
  | unexpectedCurve (value : KeyParameterValue)
  | unsupportedCombination
  | unknownCurve (curve : EcCurve)
  | unsupportedDerLen (len : Nat)
  deriving DecidableEq, Repr

/-! ## Host-order integers -/

/-- `u32::to_ne_bytes`. -/
def u32ToNeBytes (x : UInt32) : Bytes := LittleEndian.encode 4 x.toNat

/-- `u64::to_ne_bytes`. -/
def u64ToNeBytes (x : UInt64) : Bytes := LittleEndian.encode 8 x.toNat

/-- `u32::from_ne_bytes`. -/
def u32FromNeBytes (chunk : Bytes) : UInt32 := UInt32.ofNat (LittleEndian.decode chunk)

/-- `i64::from_ne_bytes`. -/
def i64FromNeBytes (chunk : Bytes) : Int64 := (UInt64.ofNat (LittleEndian.decode chunk)).toInt64

/-! ## Reading -/

/-- `data[..len]` and `data[len..]`, after the length check that `consume_u32`, `consume_i32`,
`consume_i64` and `consume_vec` all make. -/
def consumeBytes (len : Nat) (data : Bytes) : Except BlobError (Bytes × Bytes) :=
  if data.length < len then throw (.missingBytes len) else pure (data.take len, data.drop len)

def consumeU8 : Bytes → Except BlobError (UInt8 × Bytes)
  | b :: data => pure (b, data)
  | [] => throw .missingByte

/-- `consume_bool`: a bool is stored only when it is true, as the byte 1. -/
def consumeBool (data : Bytes) : Except BlobError (Bool × Bytes) := do
  let (b, data) ← consumeU8 data
  if b = 0x01 then pure (true, data) else throw .boolNotOne

def consumeU32 (data : Bytes) : Except BlobError (UInt32 × Bytes) := do
  let (chunk, data) ← consumeBytes 4 data
  pure (u32FromNeBytes chunk, data)

def consumeI32 (data : Bytes) : Except BlobError (Int32 × Bytes) := do
  let (chunk, data) ← consumeBytes 4 data
  pure ((u32FromNeBytes chunk).toInt32, data)

def consumeI64 (data : Bytes) : Except BlobError (Int64 × Bytes) := do
  let (chunk, data) ← consumeBytes 8 data
  pure (i64FromNeBytes chunk, data)

/-- `consume_vec`: a `u32` length, then that many bytes. -/
def consumeVec (data : Bytes) : Except BlobError (Bytes × Bytes) := do
  let (len, data) ← consumeU32 data
  consumeBytes len.toNat data

/-- `consume_blob`: the length and offset of a blob parameter, whose contents must be the next
unread ones of `blobData`.  Returns the contents, the advanced `next_blob_offset` and the rest
of `data`. -/
def consumeBlob (data : Bytes) (nextBlobOffset : Nat) (blobData : Bytes) :
    Except BlobError (Bytes × Nat × Bytes) := do
  let (dataLen, data) ← consumeU32 data
  let (dataOffset, data) ← consumeU32 data
  if dataOffset.toNat ≠ nextBlobOffset then
    throw (.blobOffset dataOffset.toNat nextBlobOffset)
  if dataOffset.toNat + dataLen.toNat > blobData.length then
    throw (.blobBeyond dataOffset.toNat dataLen.toNat blobData.length)
  pure ((blobData.drop dataOffset.toNat).take dataLen.toNat, nextBlobOffset + dataLen.toNat, data)

/-- The value `deserialize_params` gives an `i32` read for a tag of type `ENUM` or
`ENUM_REP`. -/
def enumValue (tag : Tag) (val : Int32) : KeyParameterValue :=
  if tag = .algorithm then .algorithm ⟨val⟩
  else if tag = .blockMode then .blockMode ⟨val⟩
  else if tag = .padding then .paddingMode ⟨val⟩
  else if tag = .digest ∨ tag = .rsaOaepMgfDigest then .digest ⟨val⟩
  else if tag = .ecCurve then .ecCurve ⟨val⟩
  else if tag = .origin then .origin ⟨val⟩
  else if tag = .purpose then .keyPurpose ⟨val⟩
  else if tag = .userAuthType then .hardwareAuthenticatorType ⟨val⟩
  else .integer val

/-- The value of one parameter in the loop of `deserialize_params`, by the type of its tag. -/
def consumeValue (blobData : Bytes) (tag : Tag) (nextBlobOffset : Nat) (data : Bytes) :
    Except BlobError (KeyParameterValue × Nat × Bytes) :=
  let tt := tagType tag
  if tt = .invalid then throw (.invalidTag tag)
  else if tt = .enum ∨ tt = .enumRep then do
    let (val, data) ← consumeI32 data
    pure (enumValue tag val, nextBlobOffset, data)
  else if tt = .uint ∨ tt = .uintRep then do
    let (v, data) ← consumeI32 data
    pure (.integer v, nextBlobOffset, data)
  else if tt = .ulong ∨ tt = .ulongRep then do
    let (v, data) ← consumeI64 data
    pure (.longInteger v, nextBlobOffset, data)
  else if tt = .date then do
    let (v, data) ← consumeI64 data
    pure (.dateTime v, nextBlobOffset, data)
  else if tt = .bool then do
    let (v, data) ← consumeBool data
    pure (.boolValue v, nextBlobOffset, data)
  else if tt = .bignum ∨ tt = .bytes then do
    let (v, nextBlobOffset, data) ← consumeBlob data nextBlobOffset blobData
    pure (.blob v, nextBlobOffset, data)
  else throw (.unexpectedTagType tag)

/-- The body of the loop of `deserialize_params`: a tag, then its value. -/
def consumeParam (blobData : Bytes) (nextBlobOffset : Nat) (data : Bytes) :
    Except BlobError (KeyParameter × Nat × Bytes) := do
  let (tagNum, data) ← consumeU32 data
  let tag : Tag := ⟨tagNum.toInt32⟩
  let (value, nextBlobOffset, data) ← consumeValue blobData tag nextBlobOffset data
  pure (⟨tag, value⟩, nextBlobOffset, data)

/-- The loop of `deserialize_params` over `param_count` parameters. -/
def deserializeEach (blobData : Bytes) :
    Nat → Nat → Bytes → Except BlobError (List KeyParameter × Bytes)
  | 0, _, data => pure ([], data)
  | count + 1, nextBlobOffset, data => do
    let (param, nextBlobOffset, data) ← consumeParam blobData nextBlobOffset data
    let (results, data) ← deserializeEach blobData count nextBlobOffset data
    pure (param :: results, data)

/-- `deserialize_params`: the parameters and the unconsumed rest of `data`.  The size of the
encoded parameters is only checked against what is left; the loop reads `param_count`
parameters whatever their size. -/
def deserializeParams (data : Bytes) : Except BlobError (List KeyParameter × Bytes) := do
  let (blobDataSize, data) ← consumeU32 data
  if blobDataSize.toNat > data.length then
    throw (.blobDataSize blobDataSize.toNat data.length)
  let blobData := data.take blobDataSize.toNat
  let data := data.drop blobDataSize.toNat
  let (paramCount, data) ← consumeU32 data
  let (paramSize, data) ← consumeU32 data
  if paramSize.toNat > data.length then
    throw (.sizeMismatch blobDataSize.toNat paramSize.toNat data.length)
  deserializeEach blobData paramCount.toNat 0 data

/-! ## Writing -/

/-- One step of the first loop of `serialize_params`: the contents of a blob parameter are
appended and its length added to the `u32` total. -/
def blobStep (acc : Bytes × UInt32) (param : KeyParameter) : Except BlobError (Bytes × UInt32) :=
  match param.value with
  | .blob v =>
    if tagType param.tag ≠ .bignum ∧ tagType param.tag ≠ .bytes then
      throw (.blobTagType param.tag)
    else pure (acc.1 ++ v, acc.2 + UInt32.ofNat v.length)
  | _ => pure acc

/-- The bytes of one value in the second loop of `serialize_params`, and the advanced offset
of the next blob. -/
def encodeValue (blobOffset : UInt32) (param : KeyParameter) :
    Except BlobError (Bytes × UInt32) :=
  match param.value with
  | .invalid _ => throw (.invalidValue param)
  | .algorithm ⟨v⟩ | .blockMode ⟨v⟩ | .paddingMode ⟨v⟩ | .digest ⟨v⟩ | .ecCurve ⟨v⟩
  | .origin ⟨v⟩ | .keyPurpose ⟨v⟩ | .hardwareAuthenticatorType ⟨v⟩ | .integer v =>
    pure (u32ToNeBytes v.toUInt32, blobOffset)
  -- a bool is written as 1 whatever its value
  | .boolValue _ => pure ([0x01], blobOffset)
  | .longInteger v | .dateTime v => pure (u64ToNeBytes v.toUInt64, blobOffset)
  | .blob v =>
    let blobLen := UInt32.ofNat v.length
    pure (u32ToNeBytes blobLen ++ u32ToNeBytes blobOffset, blobOffset + blobLen)
  | .securityLevel _ => throw (.unknownValue param)

/-- One step of the second loop of `serialize_params`: the tag, then the value. -/
def paramStep (acc : Bytes × UInt32) (param : KeyParameter) : Except BlobError (Bytes × UInt32) := do
  let (encoded, blobOffset) ← encodeValue acc.2 param
  pure (acc.1 ++ u32ToNeBytes param.tag.val.toUInt32 ++ encoded, blobOffset)

/-- `serialize_params`.  The source writes placeholders for the blob size and the size of the
encoded parameters and fills them in after each loop; here each loop's output is computed and
the result put together once. -/
def serializeParams (params : List KeyParameter) : Except BlobError Bytes := do
  let (blobs, blobSize) ← params.foldlM blobStep ([], 0)
  let (encoded, _) ← params.foldlM paramStep ([], 0)
  pure (u32ToNeBytes blobSize ++ blobs ++ u32ToNeBytes (UInt32.ofNat params.length) ++
    u32ToNeBytes (UInt32.ofNat encoded.length) ++ encoded)

/-! ## Round trip -/

/-- What a parameter adds to the blob data of a serialized list. -/
def KeyParameter.blobContents (p : KeyParameter) : Bytes :=
  match p.value with
  | .blob v => v
  | _ => []

/-- A parameter that `deserialize_params` reads back as it was written: its value is of the
variant the reader assigns to the type of its tag, and a bool is true. -/
def KeyParameter.wellTyped (p : KeyParameter) : Bool :=
  let tt := tagType p.tag
  let isEnum := tt == .enum || tt == .enumRep
  match p.value with
  | .algorithm ⟨v⟩ | .blockMode ⟨v⟩ | .paddingMode ⟨v⟩ | .digest ⟨v⟩ | .ecCurve ⟨v⟩
  | .origin ⟨v⟩ | .keyPurpose ⟨v⟩ | .hardwareAuthenticatorType ⟨v⟩ =>
    isEnum && enumValue p.tag v == p.value
  | .integer v => isEnum && enumValue p.tag v == .integer v || tt == .uint || tt == .uintRep
  | .longInteger _ => tt == .ulong || tt == .ulongRep
  | .dateTime _ => tt == .date
  | .boolValue b => tt == .bool && b
  | .blob _ => tt == .bignum || tt == .bytes
  | .invalid _ | .securityLevel _ => false

section Fields

variable (rest : Bytes)

@[simp] theorem length_u32ToNeBytes (x : UInt32) : (u32ToNeBytes x).length = 4 := by
  simp [u32ToNeBytes]

@[simp] theorem length_u64ToNeBytes (x : UInt64) : (u64ToNeBytes x).length = 8 := by
  simp [u64ToNeBytes]

@[simp] theorem u32FromNeBytes_u32ToNeBytes (x : UInt32) : u32FromNeBytes (u32ToNeBytes x) = x := by
  have hlt : x.toNat < 256 ^ 4 := lt_of_lt_of_eq x.toNat_lt (by decide)
  rw [u32FromNeBytes, u32ToNeBytes, LittleEndian.decode_encode_of_lt hlt, UInt32.ofNat_toNat]

@[simp] theorem i64FromNeBytes_u64ToNeBytes (v : Int64) :
    i64FromNeBytes (u64ToNeBytes v.toUInt64) = v := by
  have hlt : v.toUInt64.toNat < 256 ^ 8 := lt_of_lt_of_eq v.toUInt64.toNat_lt (by decide)
  rw [i64FromNeBytes, u64ToNeBytes, LittleEndian.decode_encode_of_lt hlt, UInt64.ofNat_toNat,
    Int64.toInt64_toUInt64]

/-- Four bytes read as a `u32` are written back as themselves. -/
theorem u32ToNeBytes_u32FromNeBytes {chunk : Bytes} (h : chunk.length = 4) :
    u32ToNeBytes (u32FromNeBytes chunk) = chunk := by
  have hlt : LittleEndian.decode chunk < 2 ^ 32 :=
    lt_of_lt_of_eq (LittleEndian.decode_lt chunk) (by rw [h]; rfl)
  rw [u32ToNeBytes, u32FromNeBytes, UInt32.toNat_ofNat_of_lt' hlt, ← h,
    LittleEndian.encode_decode]

theorem consumeBytes_append {field : Bytes} {len : Nat} (h : field.length = len) :
    consumeBytes len (field ++ rest) = .ok (field, rest) := by
  have hlen : ¬ (field ++ rest).length < len := by
    rw [List.length_append]
    omega
  simp only [consumeBytes, hlen, if_false, LittleEndian.take_append_of_length h,
    LittleEndian.drop_append_of_length h]
  rfl

@[simp] theorem consumeBytes_zero (data : Bytes) : consumeBytes 0 data = .ok ([], data) := rfl

@[simp] theorem consumeU32_append (x : UInt32) :
    consumeU32 (u32ToNeBytes x ++ rest) = .ok (x, rest) := by
  simp [consumeU32, consumeBytes_append rest (length_u32ToNeBytes x), bind, Except.bind, pure,
    Except.pure]

@[simp] theorem consumeI32_append (v : Int32) :
    consumeI32 (u32ToNeBytes v.toUInt32 ++ rest) = .ok (v, rest) := by
  simp [consumeI32, consumeBytes_append rest (length_u32ToNeBytes _), bind, Except.bind, pure,
    Except.pure]

@[simp] theorem consumeI64_append (v : Int64) :
    consumeI64 (u64ToNeBytes v.toUInt64 ++ rest) = .ok (v, rest) := by
  simp [consumeI64, consumeBytes_append rest (length_u64ToNeBytes _), bind, Except.bind, pure,
    Except.pure]

@[simp] theorem consumeBool_one : consumeBool (0x01 :: rest) = .ok (true, rest) := rfl

/-- A blob parameter written at offset `o` of the blob data is read back when its contents
are there and the offsets fit a `u32`. -/
theorem consumeBlob_append {blobData pre v post : Bytes} {o : Nat}
    (hB : blobData = pre ++ v ++ post) (hpre : pre.length = o) (hfit : o + v.length < 2 ^ 32) :
    consumeBlob (u32ToNeBytes (UInt32.ofNat v.length) ++ u32ToNeBytes (UInt32.ofNat o) ++ rest) o
        blobData = .ok (v, o + v.length, rest) := by
  have hlen : (UInt32.ofNat v.length).toNat = v.length :=
    UInt32.toNat_ofNat_of_lt' (by change _ < 2 ^ 32; omega)
  have hoff : (UInt32.ofNat o).toNat = o := UInt32.toNat_ofNat_of_lt' (by change _ < 2 ^ 32; omega)
  have hcontents : (blobData.drop o).take v.length = v := by
    rw [hB, List.append_assoc, LittleEndian.drop_append_of_length hpre,
      LittleEndian.take_append_of_length rfl]
  have hin : ¬ o + v.length > blobData.length := by
    rw [hB]
    simp only [List.length_append]
    omega
  simp only [consumeBlob, List.append_assoc, consumeU32_append, hlen, hoff, hcontents, hin,
    bind, Except.bind, ne_eq, not_true_eq_false, if_false]
  rfl

end Fields

section Values

variable (blobData : Bytes) {tag : Tag} (o : Nat) (rest : Bytes)

theorem consumeValue_enum (htt : tagType tag = .enum ∨ tagType tag = .enumRep) (v : Int32) :
    consumeValue blobData tag o (u32ToNeBytes v.toUInt32 ++ rest) =
      .ok (enumValue tag v, o, rest) := by
  rcases htt with htt | htt <;> simp +decide [consumeValue, htt, bind, Except.bind, pure, Except.pure]

theorem consumeValue_uint (htt : tagType tag = .uint ∨ tagType tag = .uintRep) (v : Int32) :
    consumeValue blobData tag o (u32ToNeBytes v.toUInt32 ++ rest) = .ok (.integer v, o, rest) := by
  rcases htt with htt | htt <;> simp +decide [consumeValue, htt, bind, Except.bind, pure, Except.pure]

theorem consumeValue_ulong (htt : tagType tag = .ulong ∨ tagType tag = .ulongRep) (v : Int64) :
    consumeValue blobData tag o (u64ToNeBytes v.toUInt64 ++ rest) =
      .ok (.longInteger v, o, rest) := by
  rcases htt with htt | htt <;> simp +decide [consumeValue, htt, bind, Except.bind, pure, Except.pure]

/-- A `DATE` tag is followed by an `i64`, whatever the bytes. -/
theorem consumeValue_of_date (htt : tagType tag = .date) (data : Bytes) :
    consumeValue blobData tag o data = (fun r => (.dateTime r.1, o, r.2)) <$> consumeI64 data := by
  simp +decide [consumeValue, htt]

theorem consumeValue_date (htt : tagType tag = .date) (v : Int64) :
    consumeValue blobData tag o (u64ToNeBytes v.toUInt64 ++ rest) = .ok (.dateTime v, o, rest) := by
  simp [consumeValue_of_date blobData o htt, Functor.map, Except.map]

theorem consumeValue_bool (htt : tagType tag = .bool) :
    consumeValue blobData tag o (0x01 :: rest) = .ok (.boolValue true, o, rest) := by
  simp +decide [consumeValue, htt, bind, Except.bind, pure, Except.pure]

theorem consumeValue_blob (htt : tagType tag = .bignum ∨ tagType tag = .bytes)
    {pre v post : Bytes} (hB : blobData = pre ++ v ++ post) (hpre : pre.length = o)
    (hfit : o + v.length < 2 ^ 32) :
    consumeValue blobData tag o
        (u32ToNeBytes (UInt32.ofNat v.length) ++ u32ToNeBytes (UInt32.ofNat o) ++ rest) =
      .ok (.blob v, o + v.length, rest) := by
  have hblob := consumeBlob_append rest hB hpre hfit
  rw [List.append_assoc] at hblob
  rcases htt with htt | htt <;>
    simp +decide [consumeValue, htt, hblob, bind, Except.bind, pure, Except.pure]

end Values

/-- A well-typed parameter is a 32-bit value of an enum or integer tag, a 64-bit value of a
long or date tag, a true bool, or a blob of a blob tag. -/
theorem KeyParameter.wellTyped_cases {p : KeyParameter} (h : p.wellTyped = true) :
    (∃ v, p.blobContents = [] ∧ (∀ o, encodeValue o p = .ok (u32ToNeBytes v.toUInt32, o)) ∧
      ((tagType p.tag = .enum ∨ tagType p.tag = .enumRep) ∧ enumValue p.tag v = p.value ∨
        (tagType p.tag = .uint ∨ tagType p.tag = .uintRep) ∧ p.value = .integer v)) ∨
    (∃ v, p.value = .longInteger v ∧ (tagType p.tag = .ulong ∨ tagType p.tag = .ulongRep)) ∨
    (∃ v, p.value = .dateTime v ∧ tagType p.tag = .date) ∨
    (p.value = .boolValue true ∧ tagType p.tag = .bool) ∨
    (∃ v, p.value = .blob v ∧ (tagType p.tag = .bignum ∨ tagType p.tag = .bytes)) := by
  obtain ⟨tag, value⟩ := p
  cases value with
  | algorithm v | blockMode v | paddingMode v | digest v | ecCurve v | origin v | keyPurpose v
  | hardwareAuthenticatorType v =>
    exact .inl ⟨v.val, rfl, fun _ => rfl, .inl (by simpa [wellTyped] using h)⟩
  | integer v =>
    refine .inl ⟨v, rfl, fun _ => rfl, ?_⟩
    simp only [wellTyped, Bool.or_eq_true, Bool.and_eq_true, beq_iff_eq] at h
    rcases h with (h | h) | h
    · exact .inl h
    · exact .inr ⟨.inl h, rfl⟩
    · exact .inr ⟨.inr h, rfl⟩
  | longInteger v => exact .inr (.inl ⟨v, rfl, by simpa [wellTyped] using h⟩)
  | dateTime v => exact .inr (.inr (.inl ⟨v, rfl, by simpa [wellTyped] using h⟩))
  | boolValue b =>
    obtain ⟨htt, rfl⟩ : tagType tag = .bool ∧ b = true := by simpa [wellTyped] using h
    exact .inr (.inr (.inr (.inl ⟨rfl, htt⟩)))
  | blob v => exact .inr (.inr (.inr (.inr ⟨v, rfl, by simpa [wellTyped] using h⟩)))
  | invalid | securityLevel => simp [wellTyped] at h

/-- One parameter: the second loop of `serialize_params` writes it, and the body of the loop
of `deserialize_params` reads it back and moves the next blob offset past its contents. -/
theorem paramStep_consumeParam {p : KeyParameter} (hp : p.wellTyped = true) (r : Bytes)
    {o : UInt32} {blobData pre post : Bytes} (hB : blobData = pre ++ p.blobContents ++ post)
    (hpre : pre.length = o.toNat) (hfit : o.toNat + p.blobContents.length < 2 ^ 32) :
    ∃ enc, paramStep (r, o) p = .ok (r ++ enc, o + UInt32.ofNat p.blobContents.length) ∧
      ∀ rest, consumeParam blobData o.toNat (enc ++ rest) =
        .ok (p, o.toNat + p.blobContents.length, rest) := by
  obtain ⟨⟨t⟩, value⟩ := p
  rcases KeyParameter.wellTyped_cases hp with
    ⟨v, hnil, henc, hv⟩ | ⟨v, rfl, htt⟩ | ⟨v, rfl, htt⟩ | ⟨rfl, htt⟩ | ⟨v, rfl, htt⟩
  · -- an enumeration or a 32-bit integer
    refine ⟨u32ToNeBytes t.toUInt32 ++ u32ToNeBytes v.toUInt32, ?_, fun rest => ?_⟩
    · simp [paramStep, henc, hnil, bind, Except.bind, pure, Except.pure]
    · dsimp only at hv
      rcases hv with ⟨htt, hval⟩ | ⟨htt, hval⟩
      · simp [consumeParam, hnil, consumeValue_enum _ _ _ htt, hval, bind, Except.bind, pure,
          Except.pure]
      · subst hval
        simp [consumeParam, KeyParameter.blobContents, consumeValue_uint _ _ _ htt, bind,
          Except.bind, pure, Except.pure]
  · refine ⟨u32ToNeBytes t.toUInt32 ++ u64ToNeBytes v.toUInt64, ?_, fun rest => ?_⟩
    · simp [paramStep, encodeValue, KeyParameter.blobContents, bind, Except.bind, pure,
        Except.pure]
    · simp [consumeParam, KeyParameter.blobContents, consumeValue_ulong _ _ _ htt, bind,
        Except.bind, pure, Except.pure]
  · refine ⟨u32ToNeBytes t.toUInt32 ++ u64ToNeBytes v.toUInt64, ?_, fun rest => ?_⟩
    · simp [paramStep, encodeValue, KeyParameter.blobContents, bind, Except.bind, pure,
        Except.pure]
    · simp [consumeParam, KeyParameter.blobContents, consumeValue_date _ _ _ htt, bind,
        Except.bind, pure, Except.pure]
  · refine ⟨u32ToNeBytes t.toUInt32 ++ [0x01], ?_, fun rest => ?_⟩
    · simp [paramStep, encodeValue, KeyParameter.blobContents, bind, Except.bind, pure,
        Except.pure]
    · simp [consumeParam, KeyParameter.blobContents, consumeValue_bool _ _ _ htt, bind,
        Except.bind, pure, Except.pure]
  · -- a blob: its length and the offset of its contents
    refine ⟨u32ToNeBytes t.toUInt32 ++ (u32ToNeBytes (UInt32.ofNat v.length) ++ u32ToNeBytes o),
      ?_, fun rest => ?_⟩
    · simp [paramStep, encodeValue, KeyParameter.blobContents, bind, Except.bind, pure,
        Except.pure]
    · have hblob := consumeValue_blob blobData o.toNat rest htt hB hpre hfit
      dsimp only [KeyParameter.blobContents] at hblob
      rw [UInt32.ofNat_toNat, List.append_assoc] at hblob
      simp [consumeParam, KeyParameter.blobContents, hblob, bind, Except.bind, pure, Except.pure]

/-- The run of the second loop of `serialize_params` over well-typed parameters whose contents
lie in the blob data from offset `o` on, read back by the loop of `deserialize_params`. -/
theorem foldlM_paramStep_deserializeEach {qs : List KeyParameter}
    (hwt : ∀ q ∈ qs, q.wellTyped = true) (r : Bytes) {o : UInt32} {blobData pre post : Bytes}
    (hB : blobData = pre ++ qs.flatMap KeyParameter.blobContents ++ post)
    (hpre : pre.length = o.toNat)
    (hfit : o.toNat + (qs.flatMap KeyParameter.blobContents).length < 2 ^ 32) :
    ∃ enc, qs.foldlM paramStep (r, o) =
        .ok (r ++ enc, o + UInt32.ofNat (qs.flatMap KeyParameter.blobContents).length) ∧
      ∀ rest, deserializeEach blobData qs.length o.toNat (enc ++ rest) = .ok (qs, rest) := by
  induction qs generalizing r o pre with
  | nil =>
    refine ⟨[], by simp [pure, Except.pure], fun rest => ?_⟩
    simp [deserializeEach, pure, Except.pure]
  | cons q qs ih =>
    simp only [List.flatMap_cons, List.length_append] at hB hfit
    -- the contents of `q` come first in the blob data, then those of the rest
    have hBq : blobData = pre ++ q.blobContents ++ (qs.flatMap KeyParameter.blobContents ++ post) := by
      rw [hB]
      simp
    obtain ⟨enc, hstep, hread⟩ :=
      paramStep_consumeParam (hwt q List.mem_cons_self) r hBq hpre (by omega)
    have hoff : (o + UInt32.ofNat q.blobContents.length).toNat = o.toNat + q.blobContents.length := by
      rw [UInt32.toNat_add, UInt32.toNat_ofNat', Nat.mod_eq_of_lt (by omega : q.blobContents.length < 2 ^ 32),
        Nat.mod_eq_of_lt (by omega)]
    have hBqs : blobData = pre ++ q.blobContents ++ qs.flatMap KeyParameter.blobContents ++ post := by
      rw [hB]
      simp
    obtain ⟨encs, hrun, hreads⟩ := ih (fun q' hq' => hwt q' (List.mem_cons_of_mem _ hq')) (r ++ enc)
      hBqs (by rw [List.length_append, hpre, hoff]) (by omega)
    refine ⟨enc ++ encs, ?_, fun rest => ?_⟩
    · rw [List.foldlM_cons, hstep]
      simp only [bind, Except.bind, hrun, List.append_assoc, List.flatMap_cons, List.length_append,
        UInt32.ofNat_add, UInt32.add_assoc]
    · rw [List.length_cons, deserializeEach, List.append_assoc, hread]
      simp only [bind, Except.bind]
      rw [← hoff, hreads]
      rfl

theorem enumValue_ne_blob (tag : Tag) (val : Int32) (v : Bytes) : enumValue tag val ≠ .blob v := by
  simp [enumValue, ite_eq_iff]

/-- One step of the first loop of `serialize_params` on a well-typed parameter. -/
theorem blobStep_of_wellTyped {p : KeyParameter} (hp : p.wellTyped = true) (acc : Bytes × UInt32) :
    blobStep acc p = .ok (acc.1 ++ p.blobContents, acc.2 + UInt32.ofNat p.blobContents.length) := by
  obtain ⟨tag, value⟩ := p
  rcases KeyParameter.wellTyped_cases hp with
    ⟨v, hnil, -, hv⟩ | ⟨v, rfl, -⟩ | ⟨v, rfl, -⟩ | ⟨rfl, -⟩ | ⟨v, rfl, htt⟩
  · dsimp only at hnil hv
    rw [hnil]
    rcases hv with ⟨-, rfl⟩ | ⟨-, rfl⟩
    · -- no enumeration that the reader gives is a blob
      unfold blobStep
      split
      · rename_i b hb
        exact absurd hb (enumValue_ne_blob tag v b)
      · simp [pure, Except.pure]
    · simp [blobStep, pure, Except.pure]
  · simp [blobStep, KeyParameter.blobContents, pure, Except.pure]
  · simp [blobStep, KeyParameter.blobContents, pure, Except.pure]
  · simp [blobStep, KeyParameter.blobContents, pure, Except.pure]
  · rcases htt with htt | htt <;>
      simp +decide [blobStep, KeyParameter.blobContents, htt, pure, Except.pure]

/-- The run of the first loop of `serialize_params` over well-typed parameters: the contents of
the blobs, and their length as a `u32`. -/
theorem foldlM_blobStep {ps : List KeyParameter} (hwt : ∀ p ∈ ps, p.wellTyped = true)
    (r : Bytes) (size : UInt32) :
    ps.foldlM blobStep (r, size) = .ok (r ++ ps.flatMap KeyParameter.blobContents,
      size + UInt32.ofNat (ps.flatMap KeyParameter.blobContents).length) := by
  induction ps generalizing r size with
  | nil => simp [pure, Except.pure]
  | cons p ps ih =>
    rw [List.foldlM_cons, blobStep_of_wellTyped (hwt p List.mem_cons_self)]
    simp only [bind, Except.bind]
    rw [ih (fun p' hp' => hwt p' (List.mem_cons_of_mem _ hp'))]
    simp [UInt32.ofNat_add, UInt32.add_assoc]

theorem deserializeParams_serializeParams {ps : List KeyParameter}
    (hwt : ∀ p ∈ ps, p.wellTyped = true)
    (hblobs : (ps.flatMap KeyParameter.blobContents).length < 2 ^ 32)
    (hcount : ps.length < 2 ^ 32) (rest : Bytes) :
    ∃ bytes, serializeParams ps = .ok bytes ∧ deserializeParams (bytes ++ rest) = .ok (ps, rest) := by
  let blobs := ps.flatMap KeyParameter.blobContents
  have hB : blobs = [] ++ blobs ++ [] := by simp
  obtain ⟨enc, hrun, hread⟩ :=
    foldlM_paramStep_deserializeEach hwt [] hB
      (show ([] : Bytes).length = (0 : UInt32).toNat from rfl) (by simpa using hblobs)
  refine ⟨u32ToNeBytes (UInt32.ofNat blobs.length) ++ blobs ++
      u32ToNeBytes (UInt32.ofNat ps.length) ++ u32ToNeBytes (UInt32.ofNat enc.length) ++ enc,
    ?_, ?_⟩
  · simp [serializeParams, foldlM_blobStep hwt, hrun, blobs, bind, Except.bind, pure, Except.pure]
  · -- the three sizes are read back; only the size of the encoded parameters may wrap
    have hsize : (UInt32.ofNat blobs.length).toNat = blobs.length :=
      UInt32.toNat_ofNat_of_lt' hblobs
    have hlen : (UInt32.ofNat ps.length).toNat = ps.length := UInt32.toNat_ofNat_of_lt' hcount
    have hparams : ¬ (UInt32.ofNat enc.length).toNat > (enc ++ rest).length := by
      rw [UInt32.toNat_ofNat', List.length_append]
      have := Nat.mod_le enc.length (2 ^ 32)
      omega
    have hfits : ¬ blobs.length > (blobs ++ (u32ToNeBytes (UInt32.ofNat ps.length) ++
        (u32ToNeBytes (UInt32.ofNat enc.length) ++ (enc ++ rest)))).length := by
      simp
    simp only [deserializeParams, List.append_assoc, consumeU32_append, bind, Except.bind, hsize,
      hfits, if_false, LittleEndian.take_append_of_length rfl,
      LittleEndian.drop_append_of_length rfl, hparams, hlen]
    exact hread rest

/-- An AES key's algorithm and an application id, followed by one more byte. -/
theorem deserializeParams_serializeParams_aesKey :
    ∃ bytes, serializeParams [⟨.algorithm, .algorithm .aes⟩, ⟨.applicationId, .blob [1, 2]⟩] =
        .ok bytes ∧
      deserializeParams (bytes ++ [7]) =
        .ok ([⟨.algorithm, .algorithm .aes⟩, ⟨.applicationId, .blob [1, 2]⟩], [7]) :=
  deserializeParams_serializeParams (by decide +kernel) (by decide) (by decide) [7]

end Keystore2.SwKeyblob
