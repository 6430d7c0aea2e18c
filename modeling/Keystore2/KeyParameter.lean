import Mathlib

/-! Key parameters: the AIDL enumerations they carry, the tags, and the typed
`KeyParameterValue` of `key_parameter.rs` with its `get_tag`.  An AIDL enumeration is a
newtype over `i32` with named constants, as the generated Rust has it; the constants given
here are those whose values the repository fixes (the metrics mirrors of `KeyPurpose`,
`Algorithm` and `HardwareAuthenticatorType` state them).  Integer and date values keep
their Rust widths and blobs are byte lists. -/

namespace Keystore2.KeyParameter

structure KeyPurpose where
  val : Int32
  deriving DecidableEq, Repr

namespace KeyPurpose

def encrypt : KeyPurpose := ⟨0⟩
def decrypt : KeyPurpose := ⟨1⟩
def sign : KeyPurpose := ⟨2⟩
def verify : KeyPurpose := ⟨3⟩
def wrapKey : KeyPurpose := ⟨5⟩
def agreeKey : KeyPurpose := ⟨6⟩
def attestKey : KeyPurpose := ⟨7⟩

end KeyPurpose

structure Algorithm where
  val : Int32
  deriving DecidableEq, Repr

namespace Algorithm

def rsa : Algorithm := ⟨1⟩
def ec : Algorithm := ⟨3⟩
def aes : Algorithm := ⟨32⟩
def tripleDes : Algorithm := ⟨33⟩
def hmac : Algorithm := ⟨128⟩

end Algorithm

/-- A bit mask of authenticators; `ANY` is all ones. -/
structure HardwareAuthenticatorType where
  val : Int32
  deriving DecidableEq, Repr

namespace HardwareAuthenticatorType

def none : HardwareAuthenticatorType := ⟨0⟩
def password : HardwareAuthenticatorType := ⟨1⟩
def fingerprint : HardwareAuthenticatorType := ⟨2⟩
def any : HardwareAuthenticatorType := ⟨-1⟩

end HardwareAuthenticatorType

structure BlockMode where
  val : Int32
  deriving DecidableEq, Repr

structure Digest where
  val : Int32
  deriving DecidableEq, Repr

structure PaddingMode where
  val : Int32
  deriving DecidableEq, Repr

structure EcCurve where
  val : Int32
  deriving DecidableEq, Repr

-- The curves of the AIDL `EcCurve`, which `export_key` tells apart.
namespace EcCurve

def p224 : EcCurve := ⟨0⟩
def p256 : EcCurve := ⟨1⟩
def p384 : EcCurve := ⟨2⟩
def p521 : EcCurve := ⟨3⟩
def curve25519 : EcCurve := ⟨4⟩

end EcCurve

structure KeyOrigin where
  val : Int32
  deriving DecidableEq, Repr

inductive Tag
  | invalid
  | purpose
  | algorithm
  | keySize
  | blockMode
  | digest
  | rsaOaepMgfDigest
  | padding
  | callerNonce
  | minMacLength
  | ecCurve
  | rsaPublicExponent
  | includeUniqueId
  | bootloaderOnly
  | rollbackResistance
  | earlyBootOnly
  | activeDatetime
  | originationExpireDatetime
  | usageExpireDatetime
  | minSecondsBetweenOps
  | maxUsesPerBoot
  | usageCountLimit
  | userId
  | userSecureId
  | noAuthRequired
  | userAuthType
  | authTimeout
  | allowWhileOnBody
  | trustedUserPresenceRequired
  | trustedConfirmationRequired
  | unlockedDeviceRequired
  | applicationId
  | applicationData
  | creationDatetime
  | origin
  | rootOfTrust
  | osVersion
  | osPatchlevel
  | uniqueId
  | attestationChallenge
  | attestationApplicationId
  | attestationIdBrand
  | attestationIdDevice
  | attestationIdProduct
  | attestationIdSerial
  | attestationIdImei
  | attestationIdSecondImei
  | attestationIdMeid
  | attestationIdManufacturer
  | attestationIdModel
  | vendorPatchlevel
  | bootPatchlevel
  | associatedData
  | nonce
  | macLength
  | resetSinceIdRotation
  | confirmationToken
  | certificateSerial
  | certificateSubject
  | certificateNotBefore
  | certificateNotAfter
  | maxBootLevel
  deriving DecidableEq, Repr

inductive KeyParameterValue
  | invalid
  | keyPurpose (value : KeyPurpose)
  | algorithm (value : Algorithm)
  | keySize (value : Int32)
  | blockMode (value : BlockMode)
  | digest (value : Digest)
  | rsaOaepMgfDigest (value : Digest)
  | paddingMode (value : PaddingMode)
  | callerNonce
  | minMacLength (value : Int32)
  | ecCurve (value : EcCurve)
  | rsaPublicExponent (value : Int64)
  | includeUniqueID
  | bootLoaderOnly
  | rollbackResistance
  | earlyBootOnly
  | activeDateTime (value : Int64)
  | originationExpireDateTime (value : Int64)
  | usageExpireDateTime (value : Int64)
  | minSecondsBetweenOps (value : Int32)
  | maxUsesPerBoot (value : Int32)
  | usageCountLimit (value : Int32)
  | userID (value : Int32)
  | userSecureID (value : Int64)
  | noAuthRequired
  | hardwareAuthenticatorType (value : HardwareAuthenticatorType)
  | authTimeout (value : Int32)
  | allowWhileOnBody
  | trustedUserPresenceRequired
  | trustedConfirmationRequired
  | unlockedDeviceRequired
  | applicationID (value : List UInt8)
  | applicationData (value : List UInt8)
  | creationDateTime (value : Int64)
  | keyOrigin (value : KeyOrigin)
  | rootOfTrust (value : List UInt8)
  | osVersion (value : Int32)
  | osPatchLevel (value : Int32)
  | uniqueID (value : List UInt8)
  | attestationChallenge (value : List UInt8)
  | attestationApplicationID (value : List UInt8)
  | attestationIdBrand (value : List UInt8)
  | attestationIdDevice (value : List UInt8)
  | attestationIdProduct (value : List UInt8)
  | attestationIdSerial (value : List UInt8)
  | attestationIdIMEI (value : List UInt8)
  | attestationIdSecondIMEI (value : List UInt8)
  | attestationIdMEID (value : List UInt8)
  | attestationIdManufacturer (value : List UInt8)
  | attestationIdModel (value : List UInt8)
  | vendorPatchLevel (value : Int32)
  | bootPatchLevel (value : Int32)
  | associatedData (value : List UInt8)
  | nonce (value : List UInt8)
  | macLength (value : Int32)
  | resetSinceIdRotation
  | confirmationToken (value : List UInt8)
  | certificateSerial (value : List UInt8)
  | certificateSubject (value : List UInt8)
  | certificateNotBefore (value : Int64)
  | certificateNotAfter (value : Int64)
  | maxBootLevel (value : Int32)
  deriving DecidableEq, Repr

def KeyParameterValue.getTag : KeyParameterValue → Tag
  | .invalid => .invalid
  | .keyPurpose _ => .purpose
  | .algorithm _ => .algorithm
  | .keySize _ => .keySize
  | .blockMode _ => .blockMode
  | .digest _ => .digest
  | .rsaOaepMgfDigest _ => .rsaOaepMgfDigest
  | .paddingMode _ => .padding
  | .callerNonce => .callerNonce
  | .minMacLength _ => .minMacLength
  | .ecCurve _ => .ecCurve
  | .rsaPublicExponent _ => .rsaPublicExponent
  | .includeUniqueID => .includeUniqueId
  | .bootLoaderOnly => .bootloaderOnly
  | .rollbackResistance => .rollbackResistance
  | .earlyBootOnly => .earlyBootOnly
  | .activeDateTime _ => .activeDatetime
  | .originationExpireDateTime _ => .originationExpireDatetime
  | .usageExpireDateTime _ => .usageExpireDatetime
  | .minSecondsBetweenOps _ => .minSecondsBetweenOps
  | .maxUsesPerBoot _ => .maxUsesPerBoot
  | .usageCountLimit _ => .usageCountLimit
  | .userID _ => .userId
  | .userSecureID _ => .userSecureId
  | .noAuthRequired => .noAuthRequired
  | .hardwareAuthenticatorType _ => .userAuthType
  | .authTimeout _ => .authTimeout
  | .allowWhileOnBody => .allowWhileOnBody
  | .trustedUserPresenceRequired => .trustedUserPresenceRequired
  | .trustedConfirmationRequired => .trustedConfirmationRequired
  | .unlockedDeviceRequired => .unlockedDeviceRequired
  | .applicationID _ => .applicationId
  | .applicationData _ => .applicationData
  | .creationDateTime _ => .creationDatetime
  | .keyOrigin _ => .origin
  | .rootOfTrust _ => .rootOfTrust
  | .osVersion _ => .osVersion
  | .osPatchLevel _ => .osPatchlevel
  | .uniqueID _ => .uniqueId
  | .attestationChallenge _ => .attestationChallenge
  | .attestationApplicationID _ => .attestationApplicationId
  | .attestationIdBrand _ => .attestationIdBrand
  | .attestationIdDevice _ => .attestationIdDevice
  | .attestationIdProduct _ => .attestationIdProduct
  | .attestationIdSerial _ => .attestationIdSerial
  | .attestationIdIMEI _ => .attestationIdImei
  | .attestationIdSecondIMEI _ => .attestationIdSecondImei
  | .attestationIdMEID _ => .attestationIdMeid
  | .attestationIdManufacturer _ => .attestationIdManufacturer
  | .attestationIdModel _ => .attestationIdModel
  | .vendorPatchLevel _ => .vendorPatchlevel
  | .bootPatchLevel _ => .bootPatchlevel
  | .associatedData _ => .associatedData
  | .nonce _ => .nonce
  | .macLength _ => .macLength
  | .resetSinceIdRotation => .resetSinceIdRotation
  | .confirmationToken _ => .confirmationToken
  | .certificateSerial _ => .certificateSerial
  | .certificateSubject _ => .certificateSubject
  | .certificateNotBefore _ => .certificateNotBefore
  | .certificateNotAfter _ => .certificateNotAfter
  | .maxBootLevel _ => .maxBootLevel

namespace KeyParameterValue

def keyPurpose? : KeyParameterValue → Option KeyPurpose
  | .keyPurpose p => some p
  | _ => none

def hardwareAuthenticatorType? : KeyParameterValue → Option HardwareAuthenticatorType
  | .hardwareAuthenticatorType a => some a
  | _ => none

def authTimeout? : KeyParameterValue → Option Int32
  | .authTimeout t => some t
  | _ => none

def userID? : KeyParameterValue → Option Int32
  | .userID u => some u
  | _ => none

def userSecureID? : KeyParameterValue → Option Int64
  | .userSecureID s => some s
  | _ => none

def maxBootLevel? : KeyParameterValue → Option Int32
  | .maxBootLevel l => some l
  | _ => none

def usageCountLimit? : KeyParameterValue → Option Int32
  | .usageCountLimit n => some n
  | _ => none

@[simp] theorem keyPurpose_eq_some_iff {kp : KeyParameterValue} {p : KeyPurpose} :
    kp.keyPurpose? = some p ↔ kp = .keyPurpose p := by
  cases kp <;> simp [keyPurpose?]

@[simp] theorem hardwareAuthenticatorType_eq_some_iff {kp : KeyParameterValue}
    {a : HardwareAuthenticatorType} :
    kp.hardwareAuthenticatorType? = some a ↔ kp = .hardwareAuthenticatorType a := by
  cases kp <;> simp [hardwareAuthenticatorType?]

@[simp] theorem authTimeout_eq_some_iff {kp : KeyParameterValue} {t : Int32} :
    kp.authTimeout? = some t ↔ kp = .authTimeout t := by
  cases kp <;> simp [authTimeout?]

@[simp] theorem userID_eq_some_iff {kp : KeyParameterValue} {u : Int32} :
    kp.userID? = some u ↔ kp = .userID u := by
  cases kp <;> simp [userID?]

@[simp] theorem userSecureID_eq_some_iff {kp : KeyParameterValue} {s : Int64} :
    kp.userSecureID? = some s ↔ kp = .userSecureID s := by
  cases kp <;> simp [userSecureID?]

@[simp] theorem maxBootLevel_eq_some_iff {kp : KeyParameterValue} {l : Int32} :
    kp.maxBootLevel? = some l ↔ kp = .maxBootLevel l := by
  cases kp <;> simp [maxBootLevel?]

end KeyParameterValue

/-! ## Construction from a tag and a primitive -/

/-- `Primitive`, the value `new_from_tag_primitive_pair` converts. -/
inductive Primitive
  | i64 (v : Int64)
  | i32 (v : Int32)
  | vec (v : List UInt8)
  deriving DecidableEq, Repr

inductive PrimitiveError
  | typeMismatch
  | unknownTag
  deriving DecidableEq, Repr

namespace Primitive

/-- `TryFrom<Primitive> for i64`. -/
def toI64 : Primitive → Except PrimitiveError Int64
  | .i64 v => pure v
  | _ => throw .typeMismatch

/-- `TryFrom<Primitive> for i32`. -/
def toI32 : Primitive → Except PrimitiveError Int32
  | .i32 v => pure v
  | _ => throw .typeMismatch

/-- `TryFrom<Primitive> for Vec<u8>`. -/
def toVec : Primitive → Except PrimitiveError (List UInt8)
  | .vec v => pure v
  | _ => throw .typeMismatch

end Primitive

/-- Every tag, in the order of the variants of `KeyParameterValue`, which is the order of the
arms of `new_from_tag_primitive_pair`. -/
def Tag.all : List Tag :=
  [.invalid, .purpose, .algorithm, .keySize, .blockMode, .digest, .rsaOaepMgfDigest, .padding,
    .callerNonce, .minMacLength, .ecCurve, .rsaPublicExponent, .includeUniqueId, .bootloaderOnly,
    .rollbackResistance, .earlyBootOnly, .activeDatetime, .originationExpireDatetime,
    .usageExpireDatetime, .minSecondsBetweenOps, .maxUsesPerBoot, .usageCountLimit, .userId,
    .userSecureId, .noAuthRequired, .userAuthType, .authTimeout, .allowWhileOnBody,
    .trustedUserPresenceRequired, .trustedConfirmationRequired, .unlockedDeviceRequired,
    .applicationId, .applicationData, .creationDatetime, .origin, .rootOfTrust, .osVersion,
    .osPatchlevel, .uniqueId, .attestationChallenge, .attestationApplicationId,
    .attestationIdBrand, .attestationIdDevice, .attestationIdProduct, .attestationIdSerial,
    .attestationIdImei, .attestationIdSecondImei, .attestationIdMeid,
    .attestationIdManufacturer, .attestationIdModel, .vendorPatchlevel, .bootPatchlevel,
    .associatedData, .nonce, .macLength, .resetSinceIdRotation, .confirmationToken,
    .certificateSerial, .certificateSubject, .certificateNotBefore, .certificateNotAfter,
    .maxBootLevel]

theorem Tag.mem_all (t : Tag) : t ∈ Tag.all := by
  cases t <;> decide

namespace KeyParameterValue

/-- The arm of `new_from_tag_primitive_pair` for a tag, as `implement_from_tag_primitive_pair`
expands it over the variants: a variant without a field ignores the primitive, the others
convert it with `try_into` and wrap it with `from_primitive`. -/
def ofTagPrimitive (p : Primitive) : Tag → Except PrimitiveError KeyParameterValue
  | .invalid => pure .invalid
  | .purpose => (.keyPurpose ⟨·⟩) <$> p.toI32
  | .algorithm => (.algorithm ⟨·⟩) <$> p.toI32
  | .keySize => .keySize <$> p.toI32
  | .blockMode => (.blockMode ⟨·⟩) <$> p.toI32
  | .digest => (.digest ⟨·⟩) <$> p.toI32
  | .rsaOaepMgfDigest => (.rsaOaepMgfDigest ⟨·⟩) <$> p.toI32
  | .padding => (.paddingMode ⟨·⟩) <$> p.toI32
  | .callerNonce => pure .callerNonce
  | .minMacLength => .minMacLength <$> p.toI32
  | .ecCurve => (.ecCurve ⟨·⟩) <$> p.toI32
  | .rsaPublicExponent => .rsaPublicExponent <$> p.toI64
  | .includeUniqueId => pure .includeUniqueID
  | .bootloaderOnly => pure .bootLoaderOnly
  | .rollbackResistance => pure .rollbackResistance
  | .earlyBootOnly => pure .earlyBootOnly
  | .activeDatetime => .activeDateTime <$> p.toI64
  | .originationExpireDatetime => .originationExpireDateTime <$> p.toI64
  | .usageExpireDatetime => .usageExpireDateTime <$> p.toI64
  | .minSecondsBetweenOps => .minSecondsBetweenOps <$> p.toI32
  | .maxUsesPerBoot => .maxUsesPerBoot <$> p.toI32
  | .usageCountLimit => .usageCountLimit <$> p.toI32
  | .userId => .userID <$> p.toI32
  | .userSecureId => .userSecureID <$> p.toI64
  | .noAuthRequired => pure .noAuthRequired
  | .userAuthType => (.hardwareAuthenticatorType ⟨·⟩) <$> p.toI32
  | .authTimeout => .authTimeout <$> p.toI32
  | .allowWhileOnBody => pure .allowWhileOnBody
  | .trustedUserPresenceRequired => pure .trustedUserPresenceRequired
  | .trustedConfirmationRequired => pure .trustedConfirmationRequired
  | .unlockedDeviceRequired => pure .unlockedDeviceRequired
  | .applicationId => .applicationID <$> p.toVec
  | .applicationData => .applicationData <$> p.toVec
  | .creationDatetime => .creationDateTime <$> p.toI64
  | .origin => (.keyOrigin ⟨·⟩) <$> p.toI32
  | .rootOfTrust => .rootOfTrust <$> p.toVec
  | .osVersion => .osVersion <$> p.toI32
  | .osPatchlevel => .osPatchLevel <$> p.toI32
  | .uniqueId => .uniqueID <$> p.toVec
  | .attestationChallenge => .attestationChallenge <$> p.toVec
  | .attestationApplicationId => .attestationApplicationID <$> p.toVec
  | .attestationIdBrand => .attestationIdBrand <$> p.toVec
  | .attestationIdDevice => .attestationIdDevice <$> p.toVec
  | .attestationIdProduct => .attestationIdProduct <$> p.toVec
  | .attestationIdSerial => .attestationIdSerial <$> p.toVec
  | .attestationIdImei => .attestationIdIMEI <$> p.toVec
  | .attestationIdSecondImei => .attestationIdSecondIMEI <$> p.toVec
  | .attestationIdMeid => .attestationIdMEID <$> p.toVec
  | .attestationIdManufacturer => .attestationIdManufacturer <$> p.toVec
  | .attestationIdModel => .attestationIdModel <$> p.toVec
  | .vendorPatchlevel => .vendorPatchLevel <$> p.toI32
  | .bootPatchlevel => .bootPatchLevel <$> p.toI32
  | .associatedData => .associatedData <$> p.toVec
  | .nonce => .nonce <$> p.toVec
  | .macLength => .macLength <$> p.toI32
  | .resetSinceIdRotation => pure .resetSinceIdRotation
  | .confirmationToken => .confirmationToken <$> p.toVec
  | .certificateSerial => .certificateSerial <$> p.toVec
  | .certificateSubject => .certificateSubject <$> p.toVec
  | .certificateNotBefore => .certificateNotBefore <$> p.toI64
  | .certificateNotAfter => .certificateNotAfter <$> p.toI64
  | .maxBootLevel => .maxBootLevel <$> p.toI32

/-- `new_from_tag_primitive_pair` on the number of a tag: the arm of the first tag whose number
`tagValue` gives is `tag`, and `UnknownTag` when there is none.  `tagValue` is the numbering of
the AIDL `Tag`, which the generated code fixes and the repository does not contain. -/
def newFromTagPrimitivePair (tagValue : Tag → Int32) (tag : Int32) (p : Primitive) :
    Except PrimitiveError KeyParameterValue :=
  match Tag.all.find? (tagValue · = tag) with
  | some t => ofTagPrimitive p t
  | none => throw .unknownTag

/-- The two tables the macros generate agree: the value built for a tag carries that tag. -/
theorem getTag_ofTagPrimitive {p : Primitive} {t : Tag} {v : KeyParameterValue}
    (h : ofTagPrimitive p t = .ok v) : v.getTag = t := by
  cases t <;> cases p <;> cases h <;> rfl

/-- A value built from a tag number carries a tag of that number. -/
theorem tagValue_getTag_of_newFromTagPrimitivePair {tagValue : Tag → Int32} {tag : Int32}
    {p : Primitive} {v : KeyParameterValue} (h : newFromTagPrimitivePair tagValue tag p = .ok v) :
    tagValue v.getTag = tag := by
  unfold newFromTagPrimitivePair at h
  split at h
  · rename_i t ht
    rw [getTag_ofTagPrimitive h]
    simpa using List.find?_some ht
  · cases h

/-- Under a numbering that tells the tags apart, the number of a tag selects its own arm. -/
theorem newFromTagPrimitivePair_tagValue {tagValue : Tag → Int32}
    (hinj : Function.Injective tagValue) (t : Tag) (p : Primitive) :
    newFromTagPrimitivePair tagValue (tagValue t) p = ofTagPrimitive p t := by
  have hfind : Tag.all.find? (tagValue · = tagValue t) = some t := by
    cases hf : Tag.all.find? (tagValue · = tagValue t) with
    | none => exact absurd (List.find?_eq_none.mp hf t (Tag.mem_all t)) (by simp)
    | some t' =>
      have ht' : tagValue t' = tagValue t := by simpa using List.find?_some hf
      rw [hinj ht']
  rw [newFromTagPrimitivePair, hfind]

end KeyParameterValue

/-- The AIDL `SecurityLevel` of a parameter. -/
structure SecurityLevel where
  val : Int32
  deriving DecidableEq, Repr

/-- A parameter as keystore stores it: the typed value and the security level that enforces
it. -/
structure KeyParameter where
  value : KeyParameterValue
  securityLevel : SecurityLevel
  deriving DecidableEq, Repr

/-- A parameter as KeyMint passes it in `op_params`: only its tag is read here. -/
structure KmKeyParameter where
  tag : Tag
  deriving DecidableEq, Repr

end Keystore2.KeyParameter
