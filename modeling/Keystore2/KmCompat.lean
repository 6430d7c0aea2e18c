import Keystore2.Enforcements
import Keystore2.LegacyBlob
import Keystore2.Lib.Except

/-! `km_compat.rs`: `BacklevelKeyMintWrapper`, a KeyMint device over a back-level real device
that sends the keys the real device cannot handle to a software device.  A blob of the software
device is handed out wrapped: `KEYBLOB_PREFIX`, the blob, and its HMAC-SHA256 tag under a fixed
key.  Every call that takes a blob unwraps it to pick the device.  The HMAC is any function into
32-byte strings, so wrapping cannot fail.  KeyMint parameters are their typed values, whose
constructor is the tag.  The calls that take no blob go to the real device and are not
modelled. -/

namespace Keystore2.KmCompat

open KeyParameter LegacyBlob
open Enforcements (HardwareAuthToken)

/-- The AIDL `KeyFormat`. -/
inductive KeyFormat
  | x509
  | pkcs8
  | raw
  deriving DecidableEq, Repr

/-- Key data associated with key generation or import. -/
inductive KeyImportData
  | none
  | pkcs8 (data : Bytes)
  | raw (data : Bytes)
  deriving DecidableEq, Repr

def KeyImportData.new (keyFormat : KeyFormat) (keyData : Bytes) : Except Error KeyImportData :=
  match keyFormat with
  | .pkcs8 => .ok (.pkcs8 keyData)
  | .raw => .ok (.raw keyData)
  | _ => .error (.km .unsupportedKeyFormat)

/-- A blob as the device that made it sees it. -/
inductive KeyBlob
  | raw (blob : Bytes)
  | wrapped (blob : Bytes)
  deriving DecidableEq, Repr

def SecurityLevel.strongbox : SecurityLevel := ⟨2⟩

/-- `KeyMintV1`'s `emulation_required`: curve 25519, which KeyMint V1 lacks, except on StrongBox,
which has no such keys at all. -/
def keyMintV1EmulationRequired (secLevel : SecurityLevel) (params : List KeyParameterValue)
    (_importData : KeyImportData) : Bool :=
  if secLevel = SecurityLevel.strongbox then false
  else if params.any (fun p => p = .ecCurve EcCurve.curve25519) then true
  else false

/-- `Keymaster`'s `emulation_required`: what KeyMint V1 lacks, and key agreement. -/
def keymasterEmulationRequired (secLevel : SecurityLevel) (params : List KeyParameterValue)
    (importData : KeyImportData) : Bool :=
  if keyMintV1EmulationRequired secLevel params importData then true
  else if params.any (fun p => p = .keyPurpose KeyPurpose.agreeKey) then true
  else false

def keyblobPrefix : Bytes := ascii "SoftKeyMintForV1Blob"

def keyblobHmacKey : Bytes := ascii "SoftKeyMintForV1HMACKey"

def hmacSha256Len : Nat := 32

/-- `hmac_sha256`: any function into 32-byte strings. -/
structure Hmac where
  hmacSha256 : Bytes → Bytes → Bytes
  length_hmacSha256 : ∀ key data, (hmacSha256 key data).length = hmacSha256Len

variable (H : Hmac)

def wrapKeyblob (keyblob : Bytes) : Bytes :=
  keyblobPrefix ++ keyblob ++ H.hmacSha256 keyblobHmacKey keyblob

def unwrapKeyblob (keyblob : Bytes) : KeyBlob :=
  if !keyblobPrefix.isPrefixOf keyblob then .raw keyblob
  else
    let withoutPrefix := keyblob.drop keyblobPrefix.length
    if withoutPrefix.length < hmacSha256Len then .raw keyblob
    else
      let (innerKeyblob, wantTag) :=
        withoutPrefix.splitAt (withoutPrefix.length - hmacSha256Len)
      let gotTag := H.hmacSha256 keyblobHmacKey innerKeyblob
      if wantTag == gotTag then .wrapped innerKeyblob else .raw keyblob

section Wrap

theorem isPrefixOf_wrapKeyblob (x : Bytes) : keyblobPrefix.isPrefixOf (wrapKeyblob H x) = true :=
  List.isPrefixOf_iff_prefix.mpr ⟨_, by rw [wrapKeyblob, List.append_assoc]⟩

/-- A wrapped blob is told apart by its prefix and its tag, and gives back the blob inside. -/
theorem unwrapKeyblob_wrapKeyblob (x : Bytes) : unwrapKeyblob H (wrapKeyblob H x) = .wrapped x := by
  have htag := H.length_hmacSha256 keyblobHmacKey x
  have hdrop : (wrapKeyblob H x).drop keyblobPrefix.length =
      x ++ H.hmacSha256 keyblobHmacKey x := by
    rw [wrapKeyblob, List.append_assoc, List.drop_left]
  unfold unwrapKeyblob
  rw [isPrefixOf_wrapKeyblob, hdrop]
  simp [htag, List.splitAt_eq]

/-- `unwrap_keyblob` gives a blob back as it is, or as the blob it wraps. -/
theorem unwrapKeyblob_cases (blob : Bytes) :
    unwrapKeyblob H blob = .raw blob ∨
      ∃ x, blob = wrapKeyblob H x ∧ unwrapKeyblob H blob = .wrapped x := by
  unfold unwrapKeyblob
  split
  · exact .inl rfl
  · next hpre =>
    dsimp only
    split
    · exact .inl rfl
    · simp only [List.splitAt_eq]
      split
      · next htag =>
        -- the blob is the prefix, the blob inside, and a tag that is the inner blob's
        refine .inr ⟨_, ?_, rfl⟩
        have hblob : keyblobPrefix ++ blob.drop keyblobPrefix.length = blob :=
          List.prefix_iff_eq_append.mp (List.isPrefixOf_iff_prefix.mp (by simpa using hpre))
        rw [beq_iff_eq] at htag
        rw [wrapKeyblob, ← htag, List.append_assoc, List.take_append_drop, hblob]
      · exact .inl rfl

end Wrap

/-- The AIDL `AttestationKey`, which the wrapper passes on as it is. -/
structure AttestationKey where
  keyBlob : Bytes
  attestKeyParams : List KeyParameterValue
  issuerSubjectName : Bytes

/-- The AIDL `KeyCreationResult`: the blob, and the characteristics and certificates, which the
wrapper passes on. -/
structure KeyCreationResult (κ : Type) where
  keyBlob : Bytes
  rest : κ

/-- The calls of `IKeyMintDevice` that create or take key blobs. -/
structure KeyMintDevice (κ β χ : Type) where
  generateKey : List KeyParameterValue → Option AttestationKey → Except Error (KeyCreationResult κ)
  importKey : List KeyParameterValue → KeyFormat → Bytes → Option AttestationKey →
    Except Error (KeyCreationResult κ)
  upgradeKey : Bytes → List KeyParameterValue → Except Error Bytes
  deleteKey : Bytes → Except Error Unit
  begin : KeyPurpose → Bytes → List KeyParameterValue → Option HardwareAuthToken → Except Error β
  getKeyCharacteristics : Bytes → Bytes → Bytes → Except Error χ

/-- The blobs a device hands out: those of the keys it generates, imports or upgrades. -/
def KeyMintDevice.Produces {κ β χ : Type} (dev : KeyMintDevice κ β χ) (blob : Bytes) : Prop :=
  (∃ params attestationKey r, dev.generateKey params attestationKey = .ok r ∧ r.keyBlob = blob) ∨
    (∃ params keyFormat keyData attestationKey r,
      dev.importKey params keyFormat keyData attestationKey = .ok r ∧ r.keyBlob = blob) ∨
    ∃ keyblob params, dev.upgradeKey keyblob params = .ok blob

/-- The two devices behind the wrapper. -/
inductive Device
  | real
  | soft
  deriving DecidableEq, Repr

/-- The blob the wrapper hands out for one its device upgraded: a software blob is wrapped
again. -/
def Device.rewrap : Device → Bytes → Bytes
  | .real, blob => blob
  | .soft, blob => wrapKeyblob H blob

structure BacklevelKeyMintWrapper (κ β χ : Type) where
  real : KeyMintDevice κ β χ
  soft : KeyMintDevice κ β χ
  /-- `EmulationDetector::emulation_required`. -/
  emu : List KeyParameterValue → KeyImportData → Bool

namespace BacklevelKeyMintWrapper

variable {κ β χ : Type} (w : BacklevelKeyMintWrapper κ β χ)

def generateKey (keyParams : List KeyParameterValue) (attestationKey : Option AttestationKey) :
    Except Error (KeyCreationResult κ) :=
  if w.emu keyParams .none then do
    let result ← w.soft.generateKey keyParams attestationKey
    pure { result with keyBlob := wrapKeyblob H result.keyBlob }
  else w.real.generateKey keyParams attestationKey

def importKey (keyParams : List KeyParameterValue) (keyFormat : KeyFormat) (keyData : Bytes)
    (attestationKey : Option AttestationKey) : Except Error (KeyCreationResult κ) := do
  if w.emu keyParams (← KeyImportData.new keyFormat keyData) then do
    let result ← w.soft.importKey keyParams keyFormat keyData attestationKey
    pure { result with keyBlob := wrapKeyblob H result.keyBlob }
  else w.real.importKey keyParams keyFormat keyData attestationKey

def upgradeKey (keyblobToUpgrade : Bytes) (upgradeParams : List KeyParameterValue) :
    Except Error Bytes :=
  match unwrapKeyblob H keyblobToUpgrade with
  | .raw keyblob => w.real.upgradeKey keyblob upgradeParams
  | .wrapped keyblob => do
    -- re-wrap the upgraded keyblob
    let upgradedKeyblob ← w.soft.upgradeKey keyblob upgradeParams
    pure (wrapKeyblob H upgradedKeyblob)

def deleteKey (keyblob : Bytes) : Except Error Unit :=
  match unwrapKeyblob H keyblob with
  | .raw keyblob => w.real.deleteKey keyblob
  | .wrapped keyblob => w.soft.deleteKey keyblob

def begin (purpose : KeyPurpose) (keyblob : Bytes) (params : List KeyParameterValue)
    (authToken : Option HardwareAuthToken) : Except Error β :=
  match unwrapKeyblob H keyblob with
  | .raw keyblob => w.real.begin purpose keyblob params authToken
  | .wrapped keyblob => w.soft.begin purpose keyblob params authToken

def getKeyCharacteristics (keyblob appId appData : Bytes) : Except Error χ :=
  match unwrapKeyblob H keyblob with
  | .raw keyblob => w.real.getKeyCharacteristics keyblob appId appData
  | .wrapped keyblob => w.soft.getKeyCharacteristics keyblob appId appData

/-- The wrapper as the `IKeyMintDevice` it implements. -/
def toDevice : KeyMintDevice κ β χ :=
  ⟨w.generateKey H, w.importKey H, w.upgradeKey H, w.deleteKey H, w.begin H,
    w.getKeyCharacteristics H⟩

def device : Device → KeyMintDevice κ β χ
  | .real => w.real
  | .soft => w.soft

/-- The wrapper serves `blob` by the device `d` with the blob `b`: each call that takes a key
blob goes to `d` with `b`, and an upgrade comes back as `d`'s upgraded blob, wrapped again for
the software device. -/
structure Forwards (blob : Bytes) (d : Device) (b : Bytes) : Prop where
  begin : ∀ purpose params authToken,
    w.begin H purpose blob params authToken = (w.device d).begin purpose b params authToken
  deleteKey : w.deleteKey H blob = (w.device d).deleteKey b
  getKeyCharacteristics : ∀ appId appData,
    w.getKeyCharacteristics H blob appId appData = (w.device d).getKeyCharacteristics b appId appData
  upgradeKey : ∀ params, w.upgradeKey H blob params = d.rewrap H <$> (w.device d).upgradeKey b params

section Routing

variable {w}

theorem forwards_of_raw {blob b : Bytes} (h : unwrapKeyblob H blob = .raw b) :
    w.Forwards H blob .real b where
  begin _ _ _ := by rw [begin, h]; rfl
  deleteKey := by rw [deleteKey, h]; rfl
  getKeyCharacteristics _ _ := by rw [getKeyCharacteristics, h]; rfl
  upgradeKey _ := by rw [upgradeKey, h]; exact (id_map' _).symm

theorem forwards_of_wrapped {blob b : Bytes} (h : unwrapKeyblob H blob = .wrapped b) :
    w.Forwards H blob .soft b where
  begin _ _ _ := by rw [begin, h]; rfl
  deleteKey := by rw [deleteKey, h]; rfl
  getKeyCharacteristics _ _ := by rw [getKeyCharacteristics, h]; rfl
  upgradeKey params := by
    rw [upgradeKey, h]
    cases w.soft.upgradeKey b params <;> rfl

variable (hreal : ∀ blob, w.real.Produces blob → ∀ y,
  blob ≠ keyblobPrefix ++ y ++ H.hmacSha256 keyblobHmacKey y)

include hreal

/-- A blob of the real device is never taken for a wrapped one. -/
theorem unwrapKeyblob_of_real {blob : Bytes} (hb : w.real.Produces blob) :
    unwrapKeyblob H blob = .raw blob := by
  rcases unwrapKeyblob_cases H blob with h | ⟨x, hx, -⟩
  · exact h
  · exact absurd hx (hreal blob hb x)

/-- The wrapper's own upgrade of a blob comes from the real device when the blob is raw. -/
theorem upgradeKey_eq_ok {blob out : Bytes} {params : List KeyParameterValue}
    (h : w.upgradeKey H blob params = .ok out) :
    (unwrapKeyblob H blob = .raw blob ∧ w.real.Produces out ∧ unwrapKeyblob H out = .raw out) ∨
      ∃ b u, unwrapKeyblob H blob = .wrapped b ∧ w.soft.upgradeKey b params = .ok u ∧
        out = wrapKeyblob H u := by
  rcases unwrapKeyblob_cases H blob with hraw | ⟨x, -, hwr⟩
  · rw [upgradeKey, hraw] at h
    have hout : w.real.Produces out := .inr (.inr ⟨blob, params, h⟩)
    exact .inl ⟨hraw, hout, unwrapKeyblob_of_real H hreal hout⟩
  · rw [upgradeKey, hwr] at h
    obtain ⟨u, hu, hout⟩ := Except.bind_eq_ok.mp h
    exact .inr ⟨x, u, hwr, hu, (Except.pure_eq_ok.mp hout).symm⟩

theorem routed_of_real {blob : Bytes} (hb : w.real.Produces blob) :
    (w.real.Produces blob ∧ w.Forwards H blob .real blob) ∨
      ∃ b, w.soft.Produces b ∧ blob = wrapKeyblob H b ∧ w.Forwards H blob .soft b :=
  .inl ⟨hb, forwards_of_raw H (unwrapKeyblob_of_real H hreal hb)⟩

omit hreal in
theorem routed_of_soft {b : Bytes} (hb : w.soft.Produces b) :
    (w.real.Produces (wrapKeyblob H b) ∧ w.Forwards H (wrapKeyblob H b) .real (wrapKeyblob H b)) ∨
      ∃ b', w.soft.Produces b' ∧ wrapKeyblob H b = wrapKeyblob H b' ∧
        w.Forwards H (wrapKeyblob H b) .soft b' :=
  .inr ⟨b, hb, rfl, forwards_of_wrapped H (unwrapKeyblob_wrapKeyblob H b)⟩

/-- Every blob the wrapper hands out is one of a device's blobs, and the wrapper routes it back
to that device: a created key by the emulation decision, an upgraded one by the device of the
blob it upgraded. -/
theorem routed_of_produces {blob : Bytes} (hb : (w.toDevice H).Produces blob) :
    (w.real.Produces blob ∧ w.Forwards H blob .real blob) ∨
      ∃ b, w.soft.Produces b ∧ blob = wrapKeyblob H b ∧ w.Forwards H blob .soft b := by
  rcases hb with ⟨params, ak, r, hr, rfl⟩ | ⟨params, fmt, data, ak, r, hr, rfl⟩ | ⟨old, params, hup⟩
  · -- generateKey
    change w.generateKey H params ak = .ok r at hr
    unfold generateKey at hr
    split at hr
    · obtain ⟨r₀, hr₀, hr⟩ := Except.bind_eq_ok.mp hr
      cases Except.pure_eq_ok.mp hr
      exact routed_of_soft H (.inl ⟨params, ak, r₀, hr₀, rfl⟩)
    · exact routed_of_real H hreal (.inl ⟨params, ak, r, hr, rfl⟩)
  · -- importKey, once the key format is one KeyMint imports
    change w.importKey H params fmt data ak = .ok r at hr
    unfold importKey at hr
    obtain ⟨importData, -, hr⟩ := Except.bind_eq_ok.mp hr
    split at hr
    · obtain ⟨r₀, hr₀, hr⟩ := Except.bind_eq_ok.mp hr
      cases Except.pure_eq_ok.mp hr
      exact routed_of_soft H (.inr (.inl ⟨params, fmt, data, ak, r₀, hr₀, rfl⟩))
    · exact routed_of_real H hreal (.inr (.inl ⟨params, fmt, data, ak, r, hr, rfl⟩))
  · -- upgradeKey, by the device of the blob it upgraded
    rcases upgradeKey_eq_ok H hreal hup with ⟨-, hout, -⟩ | ⟨b, u, -, hu, rfl⟩
    · exact routed_of_real H hreal hout
    · exact routed_of_soft H (.inr (.inr ⟨b, params, hu⟩))

end Routing

end BacklevelKeyMintWrapper

open BacklevelKeyMintWrapper in
/-- The back-level wrapper routes every blob to the device that made it: wrapping is undone by
unwrapping, the real device's blobs pass through unwrapping as they are, every blob the wrapper
hands out is served by its device with that device's own blob, and an upgrade is wrapped exactly
when the upgraded blob was. -/
theorem backlevelKeyMintWrapper_routes_to_producer {κ β χ : Type} (w : BacklevelKeyMintWrapper κ β χ)
    (hreal : ∀ blob, w.real.Produces blob → ∀ y,
      blob ≠ keyblobPrefix ++ y ++ H.hmacSha256 keyblobHmacKey y) :
    (∀ x, unwrapKeyblob H (wrapKeyblob H x) = .wrapped x) ∧
      (∀ b, w.real.Produces b → unwrapKeyblob H b = .raw b) ∧
      (∀ blob, (w.toDevice H).Produces blob →
        (w.real.Produces blob ∧ w.Forwards H blob .real blob) ∨
          ∃ b, w.soft.Produces b ∧ blob = wrapKeyblob H b ∧ w.Forwards H blob .soft b) ∧
      (∀ blob params out, w.upgradeKey H blob params = .ok out →
        ((∃ x, unwrapKeyblob H out = .wrapped x) ↔ ∃ x, unwrapKeyblob H blob = .wrapped x)) := by
  refine ⟨unwrapKeyblob_wrapKeyblob H, fun _ hb => unwrapKeyblob_of_real H hreal hb,
    fun _ hb => routed_of_produces H hreal hb, fun blob params out h => ?_⟩
  rcases upgradeKey_eq_ok H hreal h with ⟨hraw, -, hout⟩ | ⟨b, u, hwr, -, rfl⟩
  · -- a raw blob is upgraded by the real device into a raw blob
    rw [hraw, hout]
    exact iff_of_false (fun ⟨_, h⟩ => by cases h) (fun ⟨_, h⟩ => by cases h)
  · -- a wrapped blob is upgraded by the software device and wrapped again
    exact iff_of_true ⟨u, unwrapKeyblob_wrapKeyblob H u⟩ ⟨b, hwr⟩

/-- A tag of 32 copies of the length of the data. -/
def lengthHmac : Hmac :=
  ⟨fun _ data => List.replicate 32 data.length.toUInt8, fun _ _ => List.length_replicate⟩

/-- A device whose every key blob is the one byte `tag`. -/
def constDevice (tag : UInt8) : KeyMintDevice Unit Unit Unit :=
  ⟨fun _ _ => .ok ⟨[tag], ()⟩, fun _ _ _ _ => .ok ⟨[tag], ()⟩, fun _ _ => .ok [tag],
    fun _ => .ok (), fun _ _ _ _ => .ok (), fun _ _ _ => .ok ()⟩

theorem constDevice_produces {tag : UInt8} {blob : Bytes} (h : (constDevice tag).Produces blob) :
    blob = [tag] := by
  rcases h with ⟨_, _, r, hr, rfl⟩ | ⟨_, _, _, _, r, hr, rfl⟩ | ⟨_, _, hr⟩ <;> cases hr <;> rfl

/-- A real device of one-byte blobs, which are too short to be taken for wrapped ones, beside
a software device that emulates every key. -/
theorem backlevelKeyMintWrapper_routes_to_producer_const :
    let w : BacklevelKeyMintWrapper Unit Unit Unit := ⟨constDevice 0, constDevice 1, fun _ _ => true⟩
    (∀ blob, w.real.Produces blob → ∀ y,
        blob ≠ keyblobPrefix ++ y ++ lengthHmac.hmacSha256 keyblobHmacKey y) ∧
      ((∀ x, unwrapKeyblob lengthHmac (wrapKeyblob lengthHmac x) = .wrapped x) ∧
        (∀ b, w.real.Produces b → unwrapKeyblob lengthHmac b = .raw b) ∧
        (∀ blob, (w.toDevice lengthHmac).Produces blob →
          (w.real.Produces blob ∧ w.Forwards lengthHmac blob .real blob) ∨
            ∃ b, w.soft.Produces b ∧ blob = wrapKeyblob lengthHmac b ∧
              w.Forwards lengthHmac blob .soft b) ∧
        (∀ blob params out, w.upgradeKey lengthHmac blob params = .ok out →
          ((∃ x, unwrapKeyblob lengthHmac out = .wrapped x) ↔
            ∃ x, unwrapKeyblob lengthHmac blob = .wrapped x))) := by
  intro w
  -- a one-byte blob is shorter than the prefix alone
  have hreal : ∀ blob, w.real.Produces blob → ∀ y,
      blob ≠ keyblobPrefix ++ y ++ lengthHmac.hmacSha256 keyblobHmacKey y := by
    intro blob hb y h
    rw [constDevice_produces hb] at h
    have hlen := congrArg List.length h
    simp [keyblobPrefix, ascii] at hlen
  exact ⟨hreal, backlevelKeyMintWrapper_routes_to_producer lengthHmac w hreal⟩

end Keystore2.KmCompat
