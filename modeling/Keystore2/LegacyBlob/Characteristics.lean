import Keystore2.LegacyBlob.Format
import Keystore2.SwKeyblob

/-! The key characteristics files of the legacy keystore (`read_key_parameters` and
`read_characteristics_file` in `legacy_blob.rs`).  A list of key parameters is stored in the
serialization of the C++ `AuthorizationSet`, which `serialize_params` of `sw_keyblob.rs` writes
too: a `u32` size and the indirect data that holds the contents of the blob parameters, then a
`u32` count, a `u32` size and the elements, each a tag and a value whose width the type of the
tag gives.  Integers are in host order, little-endian on every supported platform.  The reader
runs `read_exact` on a `&mut &[u8]` cursor, which is the byte list passed in and the rest handed
back.  A characteristics file holds one list, the software-enforced parameters; a
characteristics cache holds the hardware-enforced list and then that one. -/

namespace Keystore2.LegacyBlob

open KeyParameter (KeyParameterValue Primitive SecurityLevel)
open SwKeyblob (TagType u32ToNeBytes u64ToNeBytes u32FromNeBytes i64FromNeBytes)

/-- How reading a characteristics file fails: an error of the blob file or a response code, the
`UnexpectedEof` of `read_exact` on a stream that ends too soon, and the error that `context`
makes of a blob value outside the indirect buffer. -/
inductive ReadError
  | blob (e : BlobError)
  | unexpectedEof
  | blobValue
  deriving DecidableEq, Repr

/-- The values of the AIDL constants that the reader names and the repository does not fix: the
number of each `Tag` and `SecurityLevel::KEYSTORE`. -/
structure AidlConstants where
  tagValue : KeyParameter.Tag → Int32
  keystore : SecurityLevel

/-- `LegacyKeyCharacteristics`: which of the two files was read, and its parameters. -/
inductive LegacyKeyCharacteristics
  | cache (params : List KeyParameter.KeyParameter)
  | file (params : List KeyParameter.KeyParameter)
  deriving DecidableEq, Repr

section Read

variable (aidl : AidlConstants)

/-- `read_exact` of `n` bytes. -/
def readExact (n : Nat) (stream : Bytes) : Except ReadError (Bytes × Bytes) :=
  if n ≤ stream.length then pure (stream.take n, stream.drop n) else throw .unexpectedEof

/-- `read_bool`: one byte, true unless it is zero. -/
def readBool : Bytes → Except ReadError (Bool × Bytes)
  | b :: stream => pure (b != 0, stream)
  | [] => throw .unexpectedEof

def readNeU32 (stream : Bytes) : Except ReadError (UInt32 × Bytes) := do
  let (buffer, stream) ← readExact 4 stream
  pure (u32FromNeBytes buffer, stream)

def readNeI32 (stream : Bytes) : Except ReadError (Int32 × Bytes) := do
  let (buffer, stream) ← readExact 4 stream
  pure ((u32FromNeBytes buffer).toInt32, stream)

def readNeI64 (stream : Bytes) : Except ReadError (Int64 × Bytes) := do
  let (buffer, stream) ← readExact 8 stream
  pure (i64FromNeBytes buffer, stream)

/-- `tag_type`: the top eight bits of the tag, where a `TagType` has only the top four. -/
def tagType (tag : SwKeyblob.Tag) : TagType := ⟨(tag.val.toUInt32 &&& 0xFF000000).toInt32⟩

/-- The value of an element of the loop of `read_key_parameters`, read after its tag by the type
of the tag.  The `Except` is an error that ends the read; the `Option` is what the loop keeps of
`param` (`if let Ok(p) = param`): the `Invalid.` of a false bool or an invalid tag, and an error
of `new_from_tag_primitive_pair`, drop the element.  `get` on the indirect buffer is `none`
exactly where slicing it would panic. -/
def readValue (indirectBuffer : Bytes) (tag : SwKeyblob.Tag) (stream : Bytes) :
    Except ReadError (Option KeyParameterValue × Bytes) :=
  let tt := tagType tag
  if tt = .enum ∨ tt = .enumRep ∨ tt = .uint ∨ tt = .uintRep then do
    let (v, stream) ← readNeI32 stream
    pure ((KeyParameterValue.newFromTagPrimitivePair aidl.tagValue tag.val (.i32 v)).toOption,
      stream)
  else if tt = .ulong ∨ tt = .ulongRep ∨ tt = .date then do
    let (v, stream) ← readNeI64 stream
    pure ((KeyParameterValue.newFromTagPrimitivePair aidl.tagValue tag.val (.i64 v)).toOption,
      stream)
  else if tt = .bool then do
    let (b, stream) ← readBool stream
    if b then
      pure ((KeyParameterValue.newFromTagPrimitivePair aidl.tagValue tag.val (.i32 1)).toOption,
        stream)
    else pure (none, stream)
  else if tt = .bytes ∨ tt = .bignum then do
    let (blobSize, stream) ← readNeU32 stream
    let (indirectOffset, stream) ← readNeU32 stream
    match slice indirectBuffer indirectOffset.toNat (indirectOffset.toNat + blobSize.toNat) with
    | some v =>
      pure ((KeyParameterValue.newFromTagPrimitivePair aidl.tagValue tag.val (.vec v)).toOption,
        stream)
    -- "While reading blob value."
    | none => throw .blobValue
  else if tt = .invalid then pure (none, stream)
  -- "Encountered bogus tag type."
  else throw (.blob (.rc .valueCorrupted))

/-- The body of the loop of `read_key_parameters`: a tag, then its value. -/
def readElement (indirectBuffer stream : Bytes) :
    Except ReadError (Option KeyParameterValue × Bytes) := do
  let (tag, stream) ← readNeI32 stream
  readValue aidl indirectBuffer ⟨tag⟩ stream

/-- The loop of `read_key_parameters` over `element_count` elements; what is left of the
element stream after it is not looked at. -/
def readElements (indirectBuffer : Bytes) : Nat → Bytes → Except ReadError (List KeyParameterValue)
  | 0, _ => pure []
  | count + 1, stream => do
    let (param, stream) ← readElement aidl indirectBuffer stream
    let params ← readElements indirectBuffer count stream
    pure (param.toList ++ params)

/-- `read_key_parameters`: the parameters, and the stream after the elements. -/
def readKeyParameters (stream : Bytes) : Except ReadError (List KeyParameterValue × Bytes) := do
  let (indirectSize, stream) ← readNeU32 stream
  match slice stream 0 indirectSize.toNat with
  -- "While reading indirect buffer."
  | none => throw (.blob (.rc .valueCorrupted))
  | some indirectBuffer =>
    let stream := stream.drop indirectSize.toNat
    let (elementCount, stream) ← readNeU32 stream
    let (elementSize, stream) ← readNeU32 stream
    match slice stream 0 elementSize.toNat with
    -- "While reading elements buffer."
    | none => throw (.blob (.rc .valueCorrupted))
    | some elementStream =>
      let params ← readElements aidl indirectBuffer elementCount.toNat elementStream
      pure (params, stream.drop elementSize.toNat)

/-- The part of `read_characteristics_file` after the blob is read and decrypted.  The source
tells the two payloads apart once for the stream and once more for the hardware list; a cache
holds the hardware-enforced list, at `hw_sec_level`, before the software-enforced one. -/
def readCharacteristics (hwSecLevel : SecurityLevel) (blob : Blob) :
    Except ReadError LegacyKeyCharacteristics :=
  match blob.value with
  | .characteristics data => do
    let (sw, _) ← readKeyParameters aidl data
    pure (.file (sw.map (⟨·, aidl.keystore⟩)))
  | .characteristicsCache data => do
    let (hw, stream) ← readKeyParameters aidl data
    let (sw, _) ← readKeyParameters aidl stream
    pure (.cache (hw.map (⟨·, hwSecLevel⟩) ++ sw.map (⟨·, aidl.keystore⟩)))
  -- "Characteristics file does not hold key characteristics."
  | _ => throw (.blob (.rc .valueCorrupted))

/-- `read_characteristics_file`, on the contents of the file, `none` when there is no file.
`new_from_stream` may panic, hence the outer `Option`. -/
def readCharacteristicsFile (file : Option Bytes) (hwSecLevel : SecurityLevel)
    (superKey : Option (Bytes → Bytes → Bytes → Except BlobError Bytes)) :
    Option (Except ReadError LegacyKeyCharacteristics) :=
  match file with
  | none => some (pure (.cache []))
  | some bytes => (newFromStream bytes).map fun blob => do
    let blob ← (blob.bind (decryptIfRequired superKey)).mapError .blob
    readCharacteristics aidl hwSecLevel blob

end Read

/-! ### The fields of the stream -/

section Fields

variable {stream field rest : Bytes}

theorem readExact_append {n : Nat} (h : field.length = n) (rest : Bytes) :
    readExact n (field ++ rest) = .ok (field, rest) := by
  have hle : n ≤ (field ++ rest).length := by
    rw [List.length_append]
    omega
  rw [readExact, if_pos hle, LittleEndian.take_append_of_length h,
    LittleEndian.drop_append_of_length h]
  rfl

theorem readExact_eq_ok {n : Nat} (h : readExact n stream = .ok (field, rest)) :
    field.length = n ∧ stream = field ++ rest := by
  unfold readExact at h
  split at h
  · rename_i hle
    obtain ⟨rfl, rfl⟩ : stream.take n = field ∧ stream.drop n = rest := by
      simpa [pure, Except.pure] using h
    exact ⟨List.length_take_of_le hle, (List.take_append_drop n stream).symm⟩
  · cases h

@[simp] theorem readNeU32_append (x : UInt32) (rest : Bytes) :
    readNeU32 (u32ToNeBytes x ++ rest) = .ok (x, rest) := by
  simp [readNeU32, readExact_append (SwKeyblob.length_u32ToNeBytes x), bind, Except.bind, pure,
    Except.pure]

@[simp] theorem readNeI32_append (v : Int32) (rest : Bytes) :
    readNeI32 (u32ToNeBytes v.toUInt32 ++ rest) = .ok (v, rest) := by
  simp [readNeI32, readExact_append (SwKeyblob.length_u32ToNeBytes _), bind, Except.bind, pure,
    Except.pure]

@[simp] theorem readNeI64_append (v : Int64) (rest : Bytes) :
    readNeI64 (u64ToNeBytes v.toUInt64 ++ rest) = .ok (v, rest) := by
  simp [readNeI64, readExact_append (SwKeyblob.length_u64ToNeBytes _), bind, Except.bind, pure,
    Except.pure]

/-- A `u32` read off the stream is the four bytes that encode it. -/
theorem readNeU32_eq_ok {x : UInt32} (h : readNeU32 stream = .ok (x, rest)) :
    stream = u32ToNeBytes x ++ rest := by
  simp only [readNeU32, Except.bind_eq_ok] at h
  obtain ⟨⟨buffer, s⟩, hread, hx⟩ := h
  obtain ⟨hlen, rfl⟩ := readExact_eq_ok hread
  obtain ⟨rfl, rfl⟩ : u32FromNeBytes buffer = x ∧ s = rest := by
    simpa [pure, Except.pure] using hx
  rw [SwKeyblob.u32ToNeBytes_u32FromNeBytes hlen]

/-- `stream.get(0..n)`: the first `n` bytes, the rest following them. -/
theorem slice_zero_eq_some {n : Nat} (h : slice stream 0 n = some field) :
    field.length = n ∧ stream = field ++ stream.drop n := by
  unfold slice at h
  split at h
  · rename_i hn
    cases h
    refine ⟨?_, ?_⟩
    · simp only [List.drop_zero, Nat.sub_zero, List.length_take]
      omega
    · simp
  · cases h

theorem slice_zero_append (field rest : Bytes) :
    slice (field ++ rest) 0 field.length = some field := by
  simpa using slice_append_middle (l := []) (m := field) (r := rest) rfl rfl (le_refl _)

end Fields

/-! ### What a successful read consumed -/

section Consumed

variable {aidl : AidlConstants} {indirectBuffer stream rest : Bytes} {params : List KeyParameterValue}

/-- The loop keeps at most one value per element. -/
theorem length_readElements_le {count : Nat}
    (h : readElements aidl indirectBuffer count stream = .ok params) : params.length ≤ count := by
  induction count generalizing stream params with
  | zero =>
    have hnil : [] = params := by simpa [readElements, pure, Except.pure] using h
    simp [← hnil]
  | succ count ih =>
    simp only [readElements, Except.bind_eq_ok, Except.pure_eq_ok] at h
    obtain ⟨⟨param, s⟩, -, ps, hps, rfl⟩ := h
    have hone : param.toList.length ≤ 1 := by cases param <;> simp
    have hps' := ih hps
    simp only [List.length_append]
    omega

/-- A list is read exactly from the two sections its sizes announce: the indirect data and the
elements.  What the elements hold beyond the `element_count` the loop reads is skipped with
them, and the loop keeps at most one value per element. -/
theorem readKeyParameters_eq_ok (h : readKeyParameters aidl stream = .ok (params, rest)) :
    ∃ (indirectSize elementCount elementSize : UInt32) (indirect elements : Bytes),
      indirect.length = indirectSize.toNat ∧ elements.length = elementSize.toNat ∧
      stream = u32ToNeBytes indirectSize ++ indirect ++ u32ToNeBytes elementCount ++
        u32ToNeBytes elementSize ++ elements ++ rest ∧
      readElements aidl indirect elementCount.toNat elements = .ok params ∧
      params.length ≤ elementCount.toNat := by
  simp only [readKeyParameters, Except.bind_eq_ok] at h
  obtain ⟨⟨indirectSize, s₁⟩, h₁, h⟩ := h
  -- the two slices are the sections; a slice out of range is an error
  cases hindirect : slice s₁ 0 indirectSize.toNat with
  | none => simp [hindirect] at h
  | some indirect =>
    simp only [hindirect, Except.bind_eq_ok] at h
    obtain ⟨⟨elementCount, s₂⟩, h₂, ⟨elementSize, s₃⟩, h₃, h⟩ := h
    dsimp only at h₃
    cases helements : slice s₃ 0 elementSize.toNat with
    | none => simp [helements] at h
    | some elements =>
      simp only [helements, Except.bind_eq_ok, Except.pure_eq_ok, Prod.mk.injEq] at h
      obtain ⟨ps, hps, rfl, rfl⟩ := h
      obtain ⟨hlen₁, hs₁⟩ := slice_zero_eq_some hindirect
      obtain ⟨hlen₃, hs₃⟩ := slice_zero_eq_some helements
      refine ⟨indirectSize, elementCount, elementSize, indirect, elements, hlen₁, hlen₃, ?_, hps,
        length_readElements_le hps⟩
      rw [readNeU32_eq_ok h₁, hs₁, readNeU32_eq_ok h₂, readNeU32_eq_ok h₃, hs₃]
      simp [LittleEndian.drop_append_of_length hlen₃]

theorem readKeyParameters_eq_ok_algorithm :
    let aidl : AidlConstants := ⟨fun t => if t = .algorithm then 0x10000002 else 0, ⟨100⟩⟩
    let stream : Bytes := [0, 0, 0, 0, 1, 0, 0, 0, 8, 0, 0, 0, 2, 0, 0, 0x10, 32, 0, 0, 0, 9]
    readKeyParameters aidl stream = .ok ([.algorithm ⟨32⟩], [9]) ∧
      ∃ (indirectSize elementCount elementSize : UInt32) (indirect elements : Bytes),
        indirect.length = indirectSize.toNat ∧ elements.length = elementSize.toNat ∧
        stream = u32ToNeBytes indirectSize ++ indirect ++ u32ToNeBytes elementCount ++
          u32ToNeBytes elementSize ++ elements ++ [9] ∧
        readElements aidl indirect elementCount.toNat elements = .ok [.algorithm ⟨32⟩] ∧
        [KeyParameterValue.algorithm ⟨32⟩].length ≤ elementCount.toNat :=
  ⟨rfl, readKeyParameters_eq_ok rfl⟩

end Consumed

/-! ### Reading what `serialize_params` writes -/

/-- The primitive the reader hands to `new_from_tag_primitive_pair` for a value that
`serialize_params` wrote: the number of an enumeration, the integer, a bool as the `1` that
stands for it, the contents of a blob. -/
def primitiveOf : SwKeyblob.KeyParameterValue → Option Primitive
  | .algorithm ⟨v⟩ | .blockMode ⟨v⟩ | .paddingMode ⟨v⟩ | .digest ⟨v⟩ | .ecCurve ⟨v⟩
  | .origin ⟨v⟩ | .keyPurpose ⟨v⟩ | .hardwareAuthenticatorType ⟨v⟩ | .integer v => some (.i32 v)
  | .longInteger v | .dateTime v => some (.i64 v)
  | .boolValue _ => some (.i32 1)
  | .blob v => some (.vec v)
  | .invalid _ | .securityLevel _ => none

/-- The value the reader keeps of a parameter that `serialize_params` wrote, if any. -/
def legacyValue (aidl : AidlConstants) (p : SwKeyblob.KeyParameter) : Option KeyParameterValue :=
  (primitiveOf p.value).bind fun v =>
    (KeyParameterValue.newFromTagPrimitivePair aidl.tagValue p.tag.val v).toOption

/-- Both masks give the type of a tag whose bits 24 to 27 are clear, as they are in every AIDL
tag. -/
theorem tagType_eq_of_and_eq_zero {tag : SwKeyblob.Tag} (h : tag.val.toUInt32 &&& 0x0F000000 = 0) :
    tagType tag = SwKeyblob.tagType tag := by
  have hsplit : tag.val.toUInt32 &&& 0xFF000000 =
      (tag.val.toUInt32 &&& 0xF0000000) ||| (tag.val.toUInt32 &&& 0x0F000000) := by
    apply UInt32.toBitVec_inj.1
    simp only [UInt32.toBitVec_and, UInt32.toBitVec_or, ← BitVec.and_or_distrib_left]
    rfl
  rw [tagType, SwKeyblob.tagType, hsplit, h, UInt32.or_zero]

theorem primitiveOf_enumValue (tag : SwKeyblob.Tag) (v : Int32) :
    primitiveOf (SwKeyblob.enumValue tag v) = some (.i32 v) := by
  unfold SwKeyblob.enumValue
  split_ifs <;> rfl

section Values

variable {aidl : AidlConstants} (indirectBuffer : Bytes) {tag : SwKeyblob.Tag} (rest : Bytes)

theorem readValue_i32 (htt : tagType tag = .enum ∨ tagType tag = .enumRep ∨
      tagType tag = .uint ∨ tagType tag = .uintRep) (v : Int32) :
    readValue aidl indirectBuffer tag (u32ToNeBytes v.toUInt32 ++ rest) =
      .ok ((KeyParameterValue.newFromTagPrimitivePair aidl.tagValue tag.val (.i32 v)).toOption,
        rest) := by
  simp only [readValue]
  rw [if_pos htt, readNeI32_append]
  rfl

theorem readValue_i64 (htt : tagType tag = .ulong ∨ tagType tag = .ulongRep ∨ tagType tag = .date)
    (v : Int64) :
    readValue aidl indirectBuffer tag (u64ToNeBytes v.toUInt64 ++ rest) =
      .ok ((KeyParameterValue.newFromTagPrimitivePair aidl.tagValue tag.val (.i64 v)).toOption,
        rest) := by
  rcases htt with htt | htt | htt <;>
    simp +decide [readValue, htt, bind, Except.bind, pure, Except.pure]

theorem readValue_bool (htt : tagType tag = .bool) :
    readValue aidl indirectBuffer tag (0x01 :: rest) =
      .ok ((KeyParameterValue.newFromTagPrimitivePair aidl.tagValue tag.val (.i32 1)).toOption,
        rest) := by
  simp +decide [readValue, htt, readBool, bind, Except.bind, pure, Except.pure]

/-- A blob value is its length and its offset in the indirect data. -/
theorem readValue_vec (htt : tagType tag = .bytes ∨ tagType tag = .bignum) {pre v post : Bytes}
    (hB : indirectBuffer = pre ++ v ++ post) {o : Nat} (hpre : pre.length = o)
    (hfit : o + v.length < 2 ^ 32) :
    readValue aidl indirectBuffer tag
        (u32ToNeBytes (UInt32.ofNat v.length) ++ u32ToNeBytes (UInt32.ofNat o) ++ rest) =
      .ok ((KeyParameterValue.newFromTagPrimitivePair aidl.tagValue tag.val (.vec v)).toOption,
        rest) := by
  have hlen : (UInt32.ofNat v.length).toNat = v.length :=
    UInt32.toNat_ofNat_of_lt' (by change _ < 2 ^ 32; omega)
  have hoff : (UInt32.ofNat o).toNat = o := UInt32.toNat_ofNat_of_lt' (by change _ < 2 ^ 32; omega)
  have hslice : slice indirectBuffer o (o + v.length) = some v := by
    rw [hB, slice_append_middle hpre.symm (by rw [hpre]) (le_refl _), List.take_length]
  rcases htt with htt | htt <;>
    simp +decide [readValue, htt, hlen, hoff, hslice, bind, Except.bind, pure, Except.pure]

end Values

/-- One parameter: `serialize_params` writes its tag and its value, and the body of the loop of
`read_key_parameters` reads them back and keeps what `new_from_tag_primitive_pair` makes of
them. -/
theorem readElement_paramStep (aidl : AidlConstants) {p : SwKeyblob.KeyParameter}
    (hp : p.wellTyped = true) (htag : tagType p.tag = SwKeyblob.tagType p.tag) (r : Bytes)
    {o : UInt32} {indirectBuffer pre post : Bytes}
    (hB : indirectBuffer = pre ++ p.blobContents ++ post) (hpre : pre.length = o.toNat)
    (hfit : o.toNat + p.blobContents.length < 2 ^ 32) :
    ∃ enc, SwKeyblob.paramStep (r, o) p = .ok (r ++ enc, o + UInt32.ofNat p.blobContents.length) ∧
      1 ≤ enc.length ∧
      ∀ rest, readElement aidl indirectBuffer (enc ++ rest) = .ok (legacyValue aidl p, rest) := by
  obtain ⟨⟨t⟩, value⟩ := p
  rcases SwKeyblob.KeyParameter.wellTyped_cases hp with
    ⟨v, hnil, henc, hv⟩ | ⟨v, rfl, htt⟩ | ⟨v, rfl, htt⟩ | ⟨rfl, htt⟩ | ⟨v, rfl, htt⟩
  · -- an enumeration or a 32-bit integer
    dsimp only at hv
    have hprim : primitiveOf value = some (.i32 v) := by
      rcases hv with ⟨-, hval⟩ | ⟨-, hval⟩
      · rw [← hval, primitiveOf_enumValue]
      · rw [hval]
        rfl
    have htt : tagType ⟨t⟩ = .enum ∨ tagType ⟨t⟩ = .enumRep ∨ tagType ⟨t⟩ = .uint ∨
        tagType ⟨t⟩ = .uintRep := by
      rw [htag]
      rcases hv with ⟨htt | htt, -⟩ | ⟨htt | htt, -⟩ <;> simp [htt]
    refine ⟨u32ToNeBytes t.toUInt32 ++ u32ToNeBytes v.toUInt32, ?_, by simp, fun rest => ?_⟩
    · simp [SwKeyblob.paramStep, henc, hnil, bind, Except.bind, pure, Except.pure]
    · simp [readElement, legacyValue, hprim, readValue_i32 _ _ htt, bind, Except.bind]
  · rw [← htag] at htt
    refine ⟨u32ToNeBytes t.toUInt32 ++ u64ToNeBytes v.toUInt64, ?_, by simp, fun rest => ?_⟩
    · simp [SwKeyblob.paramStep, SwKeyblob.encodeValue, SwKeyblob.KeyParameter.blobContents, bind,
        Except.bind, pure, Except.pure]
    · simp [readElement, legacyValue, primitiveOf,
        readValue_i64 _ _ (htt.elim .inl (.inr ∘ .inl)), bind, Except.bind]
  · rw [← htag] at htt
    refine ⟨u32ToNeBytes t.toUInt32 ++ u64ToNeBytes v.toUInt64, ?_, by simp, fun rest => ?_⟩
    · simp [SwKeyblob.paramStep, SwKeyblob.encodeValue, SwKeyblob.KeyParameter.blobContents, bind,
        Except.bind, pure, Except.pure]
    · simp [readElement, legacyValue, primitiveOf, readValue_i64 _ _ (.inr (.inr htt)), bind,
        Except.bind]
  · rw [← htag] at htt
    refine ⟨u32ToNeBytes t.toUInt32 ++ [0x01], ?_, by simp, fun rest => ?_⟩
    · simp [SwKeyblob.paramStep, SwKeyblob.encodeValue, SwKeyblob.KeyParameter.blobContents, bind,
        Except.bind, pure, Except.pure]
    · simp [readElement, legacyValue, primitiveOf, readValue_bool _ _ htt, bind, Except.bind]
  · -- a blob: its length and the offset of its contents
    rw [← htag] at htt
    refine ⟨u32ToNeBytes t.toUInt32 ++ (u32ToNeBytes (UInt32.ofNat v.length) ++ u32ToNeBytes o),
      ?_, by simp, fun rest => ?_⟩
    · simp [SwKeyblob.paramStep, SwKeyblob.encodeValue, SwKeyblob.KeyParameter.blobContents, bind,
        Except.bind, pure, Except.pure]
    · have hvec := @readValue_vec aidl indirectBuffer ⟨t⟩ rest htt.symm pre v post hB o.toNat hpre hfit
      rw [UInt32.ofNat_toNat, List.append_assoc] at hvec
      simp [readElement, legacyValue, primitiveOf, hvec, bind, Except.bind]

/-- The run of the second loop of `serialize_params` over well-typed parameters whose contents lie
in the indirect data from offset `o` on, read back by the loop of `read_key_parameters`. -/
theorem foldlM_paramStep_readElements (aidl : AidlConstants) {qs : List SwKeyblob.KeyParameter}
    (hwt : ∀ q ∈ qs, q.wellTyped = true)
    (htag : ∀ q ∈ qs, tagType q.tag = SwKeyblob.tagType q.tag) (r : Bytes) {o : UInt32}
    {indirectBuffer pre post : Bytes}
    (hB : indirectBuffer = pre ++ qs.flatMap SwKeyblob.KeyParameter.blobContents ++ post)
    (hpre : pre.length = o.toNat)
    (hfit : o.toNat + (qs.flatMap SwKeyblob.KeyParameter.blobContents).length < 2 ^ 32) :
    ∃ enc, qs.foldlM SwKeyblob.paramStep (r, o) =
        .ok (r ++ enc, o + UInt32.ofNat (qs.flatMap SwKeyblob.KeyParameter.blobContents).length) ∧
      qs.length ≤ enc.length ∧
      ∀ rest, readElements aidl indirectBuffer qs.length (enc ++ rest) =
        .ok (qs.filterMap (legacyValue aidl)) := by
  induction qs generalizing r o pre with
  | nil =>
    refine ⟨[], by simp [pure, Except.pure], le_refl _, fun rest => ?_⟩
    simp [readElements, pure, Except.pure]
  | cons q qs ih =>
    simp only [List.flatMap_cons, List.length_append] at hB hfit
    -- the contents of `q` come first in the indirect data, then those of the rest
    have hBq : indirectBuffer =
        pre ++ q.blobContents ++ (qs.flatMap SwKeyblob.KeyParameter.blobContents ++ post) := by
      rw [hB]
      simp
    obtain ⟨enc, hstep, hone, hread⟩ :=
      readElement_paramStep aidl (hwt q List.mem_cons_self) (htag q List.mem_cons_self) r hBq hpre
        (by omega)
    have hoff : (o + UInt32.ofNat q.blobContents.length).toNat =
        o.toNat + q.blobContents.length := by
      rw [UInt32.toNat_add, UInt32.toNat_ofNat',
        Nat.mod_eq_of_lt (by omega : q.blobContents.length < 2 ^ 32), Nat.mod_eq_of_lt (by omega)]
    have hBqs : indirectBuffer =
        pre ++ q.blobContents ++ qs.flatMap SwKeyblob.KeyParameter.blobContents ++ post := by
      rw [hB]
      simp
    obtain ⟨encs, hrun, hlen, hreads⟩ :=
      ih (fun q' hq' => hwt q' (List.mem_cons_of_mem _ hq'))
        (fun q' hq' => htag q' (List.mem_cons_of_mem _ hq')) (r ++ enc) hBqs
        (by rw [List.length_append, hpre, hoff]) (by omega)
    refine ⟨enc ++ encs, ?_, ?_, fun rest => ?_⟩
    · rw [List.foldlM_cons, hstep]
      simp only [bind, Except.bind, hrun, List.append_assoc, List.flatMap_cons,
        List.length_append, UInt32.ofNat_add, UInt32.add_assoc]
    · simp only [List.length_cons, List.length_append]
      omega
    · rw [List.length_cons, readElements, List.append_assoc, hread]
      simp only [bind, Except.bind, hreads rest, pure, Except.pure, List.filterMap_cons]
      cases legacyValue aidl q <;> rfl

/-- `read_key_parameters` reads back the list that `serialize_params` writes, whatever follows
it: every well-typed parameter whose tag has the same type under both masks comes back as what
`new_from_tag_primitive_pair` makes of its tag and its value, in order, and the parameters it
rejects are dropped.  The serialized list must fit the sizes of its header. -/
theorem readKeyParameters_serializeParams (aidl : AidlConstants) {ps : List SwKeyblob.KeyParameter}
    {bytes : Bytes} (hwt : ∀ p ∈ ps, p.wellTyped = true)
    (htag : ∀ p ∈ ps, tagType p.tag = SwKeyblob.tagType p.tag)
    (hs : SwKeyblob.serializeParams ps = .ok bytes) (hlen : bytes.length < 2 ^ 32) (rest : Bytes) :
    readKeyParameters aidl (bytes ++ rest) = .ok (ps.filterMap (legacyValue aidl), rest) := by
  -- what was written: the size and the contents of the blobs, the count, the size and the
  -- encoded parameters
  simp only [SwKeyblob.serializeParams, SwKeyblob.foldlM_blobStep hwt, Except.bind_eq_ok,
    Except.pure_eq_ok] at hs
  obtain ⟨⟨blobs', size⟩, hblobs, ⟨encoded, o⟩, hrun, rfl⟩ := hs
  cases hblobs
  simp only [List.nil_append, zero_add, List.length_append, SwKeyblob.length_u32ToNeBytes] at hlen
  have hB : ps.flatMap SwKeyblob.KeyParameter.blobContents =
      [] ++ ps.flatMap SwKeyblob.KeyParameter.blobContents ++ [] := by simp
  obtain ⟨enc, hrun', hcount, hread⟩ :=
    foldlM_paramStep_readElements aidl hwt htag [] (o := 0) hB rfl (by simp only [UInt32.toNat_zero]; omega)
  obtain ⟨rfl, -⟩ : [] ++ enc = encoded ∧ _ := by simpa [hrun] using hrun'.symm
  simp only [List.nil_append] at hlen
  -- each size is read back as it was written: none of them wraps
  have hsize : (UInt32.ofNat (ps.flatMap SwKeyblob.KeyParameter.blobContents).length).toNat =
      (ps.flatMap SwKeyblob.KeyParameter.blobContents).length :=
    UInt32.toNat_ofNat_of_lt' (by change _ < 2 ^ 32; omega)
  have hn : (UInt32.ofNat ps.length).toNat = ps.length :=
    UInt32.toNat_ofNat_of_lt' (by change _ < 2 ^ 32; omega)
  have he : (UInt32.ofNat enc.length).toNat = enc.length :=
    UInt32.toNat_ofNat_of_lt' (by change _ < 2 ^ 32; omega)
  have hread' := hread []
  rw [List.append_nil] at hread'
  simp only [readKeyParameters, List.nil_append, zero_add, List.append_assoc, readNeU32_append,
    hsize, he, hn, slice_zero_append, List.drop_left, hread', bind, Except.bind, pure, Except.pure]

/-! ### Characteristics files -/

/-- A characteristics cache that `write_legacy_blob` writes with two lists serialized one after
the other is read back by `read_characteristics_file` as the first list, at the given hardware
security level, followed by the second, at `KEYSTORE`; the flags of the file and the super key
do not matter.  The parameters are well typed, with the bits 24 to 27 of their tags clear, and
the payload fits the size field of the header. -/
theorem readCharacteristicsFile_writeLegacyBlob_cache {aidl : AidlConstants}
    {hw sw : List SwKeyblob.KeyParameter} {hwBytes swBytes bytes : Bytes} {flags : UInt8}
    (hwt : ∀ p ∈ hw ++ sw, p.wellTyped = true)
    (htag : ∀ p ∈ hw ++ sw, p.tag.val.toUInt32 &&& 0x0F000000 = 0)
    (hhw : SwKeyblob.serializeParams hw = .ok hwBytes)
    (hsw : SwKeyblob.serializeParams sw = .ok swBytes)
    (hlen : (hwBytes ++ swBytes).length < 2 ^ 32)
    (hfile : writeLegacyBlob ⟨flags, .characteristicsCache (hwBytes ++ swBytes)⟩ = some bytes)
    (hwSecLevel : SecurityLevel)
    (superKey : Option (Bytes → Bytes → Bytes → Except BlobError Bytes)) :
    readCharacteristicsFile aidl (some bytes) hwSecLevel superKey =
      some (.ok (.cache ((hw.filterMap (legacyValue aidl)).map (⟨·, hwSecLevel⟩) ++
        (sw.filterMap (legacyValue aidl)).map (⟨·, aidl.keystore⟩)))) := by
  have hblob : newFromStream bytes =
      some (.ok ⟨flags, .characteristicsCache (hwBytes ++ swBytes)⟩) :=
    newFromStream_writeLegacyBlob hfile rfl rfl hlen
  rw [List.length_append] at hlen
  -- the hardware list is read off the front, the software list off what follows it
  have hhwRead := readKeyParameters_serializeParams aidl
    (fun p hp => hwt p (List.mem_append_left _ hp))
    (fun p hp => tagType_eq_of_and_eq_zero (htag p (List.mem_append_left _ hp))) hhw (by omega)
    swBytes
  have hswRead := readKeyParameters_serializeParams aidl
    (fun p hp => hwt p (List.mem_append_right _ hp))
    (fun p hp => tagType_eq_of_and_eq_zero (htag p (List.mem_append_right _ hp))) hsw (by omega) []
  rw [List.append_nil] at hswRead
  simp only [readCharacteristicsFile, hblob, Option.map_some, Except.bind, decryptIfRequired,
    Except.mapError, readCharacteristics, hhwRead, hswRead, bind, pure, Except.pure]

theorem readCharacteristicsFile_writeLegacyBlob_cache_aesKey :
    let aidl : AidlConstants := ⟨fun t => if t = .algorithm then 0x10000002
      else if t = .applicationId then 0x90000259 else 0, ⟨100⟩⟩
    ∃ hwBytes swBytes bytes,
      SwKeyblob.serializeParams [⟨.algorithm, .algorithm .aes⟩] = .ok hwBytes ∧
      SwKeyblob.serializeParams [⟨.applicationId, .blob [1, 2]⟩] = .ok swBytes ∧
      writeLegacyBlob ⟨0, .characteristicsCache (hwBytes ++ swBytes)⟩ = some bytes ∧
      readCharacteristicsFile aidl (some bytes) ⟨1⟩ none =
        some (.ok (.cache [⟨.algorithm ⟨32⟩, ⟨1⟩⟩, ⟨.applicationID [1, 2], ⟨100⟩⟩])) :=
  ⟨_, _, _, rfl, rfl, rfl,
    @readCharacteristicsFile_writeLegacyBlob_cache _ [⟨.algorithm, .algorithm .aes⟩]
      [⟨.applicationId, .blob [1, 2]⟩] _ _ _ 0 (by decide) (by decide) rfl rfl (by decide) rfl
      ⟨1⟩ none⟩

end Keystore2.LegacyBlob
