import Keystore2.Error
import Keystore2.KeyParameter

/-! Operation-creation authorization: `Enforcements::authorize_create` of `enforcements.rs`,
with what it reads besides its arguments: the device-unlocked set, the wall clock of
`is_given_time_passed`, the boot clock, the per-boot auth-token store of `perboot.rs` and
`SuperKeyManager::level_accessible`.  The function is cut where the source's own sections
end: the purpose match, the body of the pass over the key parameters, the checks after the
pass and the choice of auth token and deferred state.  `R` is the type of the confirmation
token receiver, a handle that is only copied here. -/

namespace Keystore2.Enforcements

open KeyParameter

structure HardwareAuthToken where
  challenge : Int64
  userId : Int64
  authenticatorId : Int64
  authenticatorType : HardwareAuthenticatorType
  timestamp : Int64
  mac : List UInt8
  deriving DecidableEq, Repr

/-- An auth token with the `BootTime` (milliseconds) at which it was received. -/
structure AuthTokenEntry where
  authToken : HardwareAuthToken
  timeReceived : Int64
  deriving DecidableEq, Repr

def AuthTokenEntry.satisfies (self : AuthTokenEntry) (userSecureIds : List Int64)
    (authType : HardwareAuthenticatorType) : Bool :=
  userSecureIds.any fun sid =>
    (sid == self.authToken.userId || sid == self.authToken.authenticatorId) &&
      (authType.val &&& self.authToken.authenticatorType.val) != 0

/-- `PerbootDB::find_auth_token_entry`: of the entries that match, the one received last.  The
store is listed in its iteration order; `sort_by_key` is stable, as `mergeSort` is. -/
def findAuthTokenEntry (authTokens : List AuthTokenEntry) (p : AuthTokenEntry → Bool) :
    Option AuthTokenEntry :=
  ((authTokens.filter p).mergeSort fun a b => decide (a.timeReceived ≤ b.timeReceived)).getLast?

/-- `i64::checked_sub`. -/
def checkedSub (a b : Int64) : Option Int64 :=
  if -2 ^ 63 ≤ a.toInt - b.toInt ∧ a.toInt - b.toInt < 2 ^ 63 then some (a - b) else none

/-- `BootTime::seconds`: whole seconds, `i64` division rounding toward zero. -/
def seconds (t : Int64) : Int64 := t / 1000

/-- `TimeStampToken` of the secure clock, with its timestamp in milliseconds. -/
structure TimeStampToken where
  challenge : Int64
  timestamp : Int64
  mac : List UInt8
  deriving DecidableEq, Repr

inductive DeferredAuthState
  | noAuthRequired
  | opAuthRequired
  | timeStampRequired (hat : HardwareAuthToken)
  /-- Waiting on the `AuthRequest` with this allocation number. -/
  | waiting (authRequest : Nat)
  | token (hat : HardwareAuthToken) (tst : Option TimeStampToken)
  deriving DecidableEq, Repr

structure AuthInfo (R : Type) where
  state : DeferredAuthState
  keyUsageLimited : Option Int64
  confirmationTokenReceiver : Option R
  deriving DecidableEq, Repr

structure Enforcements (R : Type) where
  deviceUnlockedSet : List Int32
  confirmationTokenReceiver : R

/-- What `authorize_create` reads outside its receiver and arguments: `SystemTime::now` in
milliseconds since the epoch (negative before it), `BootTime::now`, the per-boot auth-token
store and `SUPER_KEY.level_accessible`. -/
structure Context where
  systemTime : Int
  bootTime : Int64
  authTokens : List AuthTokenEntry
  levelAccessible : Int32 → Bool

variable {R : Type}

/-- `given_time as u128` against the milliseconds since the epoch; before the epoch
`duration_since` fails and no time has passed. -/
def isGivenTimePassed (systemTime : Int) (givenTime : Int64) (isGivenTimeInclusive : Bool) :
    Bool :=
  if systemTime < 0 then false
  else if isGivenTimeInclusive then decide (givenTime.toInt % 2 ^ 128 ≤ systemTime)
  else decide (givenTime.toInt % 2 ^ 128 < systemTime)

def Enforcements.isDeviceLocked (self : Enforcements R) (userId : Int32) : Bool :=
  !self.deviceUnlockedSet.contains userId

def Enforcements.setDeviceLocked (self : Enforcements R) (userId : Int32)
    (deviceLockedStatus : Bool) : Enforcements R :=
  if deviceLockedStatus then
    { self with deviceUnlockedSet := self.deviceUnlockedSet.filter (· != userId) }
  else if self.deviceUnlockedSet.contains userId then self
  else { self with deviceUnlockedSet := userId :: self.deviceUnlockedSet }

/-- The `match purpose` that opens `authorize_create`. -/
def checkPurpose (purpose : KeyPurpose) (keyParams : List KeyParameterValue) :
    Except Error Unit :=
  if purpose = .sign ∨ purpose = .decrypt then pure ()
  else if purpose = .wrapKey then throw (.km .incompatiblePurpose)
  else if purpose = .agreeKey then
    if keyParams.any fun kp => kp.getTag == .algorithm && kp != .algorithm .ec then
      throw (.km .unsupportedPurpose)
    else pure ()
  else if purpose = .verify ∨ purpose = .encrypt then
    if keyParams.any fun kp => kp == .algorithm .rsa || kp == .algorithm .ec then
      throw (.km .unsupportedPurpose)
    else pure ()
  else throw (.km .unsupportedPurpose)

/-- The local variables that the pass over the key parameters fills in, with their initial
values. -/
@[ext] structure KeyParamVars (R : Type) where
  keyPurposeAuthorized : Bool := false
  userAuthType : Option HardwareAuthenticatorType := none
  noAuthRequired : Bool := false
  callerNonceAllowed : Bool := false
  userId : Int32 := -1
  userSecureIds : List Int64 := []
  keyTimeOut : Option Int64 := none
  unlockedDeviceRequired : Bool := false
  keyUsageLimited : Option Int64 := none
  confirmationTokenReceiver : Option R := none
  maxBootLevel : Option Int32 := none

/-- One iteration of the pass over the key parameters. -/
def scanKeyParam (self : Enforcements R) (systemTime : Int) (purpose : KeyPurpose)
    (keyId : Int64) (v : KeyParamVars R) : KeyParameterValue → Except Error (KeyParamVars R)
  | .noAuthRequired => pure { v with noAuthRequired := true }
  | .authTimeout t => pure { v with keyTimeOut := some t.toInt64 }
  | .hardwareAuthenticatorType a => pure { v with userAuthType := some a }
  | .keyPurpose p =>
    pure { v with keyPurposeAuthorized := v.keyPurposeAuthorized || p == purpose }
  | .callerNonce => pure { v with callerNonceAllowed := true }
  | .activeDateTime a =>
    if !isGivenTimePassed systemTime a true then throw (.km .keyNotYetValid) else pure v
  | .originationExpireDateTime o =>
    if (purpose == .encrypt || purpose == .sign) && isGivenTimePassed systemTime o false then
      throw (.km .keyExpired)
    else pure v
  | .usageExpireDateTime u =>
    if (purpose == .decrypt || purpose == .verify) && isGivenTimePassed systemTime u false then
      throw (.km .keyExpired)
    else pure v
  | .userSecureID s => pure { v with userSecureIds := v.userSecureIds ++ [s] }
  | .userID u => pure { v with userId := u }
  | .unlockedDeviceRequired => pure { v with unlockedDeviceRequired := true }
  | .usageCountLimit _ => pure { v with keyUsageLimited := some keyId }
  | .trustedConfirmationRequired =>
    pure { v with confirmationTokenReceiver := some self.confirmationTokenReceiver }
  | .maxBootLevel level => pure { v with maxBootLevel := some level }
  | _ => pure v

/-- The checks between the pass over the key parameters and the auth-token lookup. -/
def checkKeyParamVars (self : Enforcements R) (ctx : Context) (purpose : KeyPurpose)
    (opParams : List KmKeyParameter) (v : KeyParamVars R) : Except Error Unit := do
  if !v.keyPurposeAuthorized then throw (.km .incompatiblePurpose)
  if !v.userSecureIds.isEmpty && v.noAuthRequired then throw (.km .invalidKeyBlob)
  if (v.userAuthType.isSome && v.userSecureIds.isEmpty) ||
      (v.userAuthType.isNone && !v.userSecureIds.isEmpty) then
    throw (.km .keyUserNotAuthenticated)
  if (purpose == .encrypt || purpose == .sign) && !v.callerNonceAllowed &&
      opParams.any (·.tag == .nonce) then
    throw (.km .callerNonceProhibited)
  if v.unlockedDeviceRequired && self.isDeviceLocked v.userId then throw (.km .deviceLocked)
  match v.maxBootLevel with
  | some level => if !ctx.levelAccessible level then throw (.km .bootLevelExceeded)
  | none => pure ()

/-- The auth token handed to `begin` and the deferred state of the operation. -/
def authorizeAuthToken (ctx : Context) (userSecureIds : List Int64)
    (userAuthType : Option HardwareAuthenticatorType) (keyTimeOut : Option Int64)
    (requiresTimestamp : Bool) : Except Error (Option HardwareAuthToken × DeferredAuthState) :=
  if userSecureIds.isEmpty then pure (none, .noAuthRequired)
  else match keyTimeOut with
    | some keyTimeOut => do
      let some hat := findAuthTokenEntry ctx.authTokens (fun hat =>
          match userAuthType with
          | some authType => hat.satisfies userSecureIds authType
          | none => false)
        | throw (.km .keyUserNotAuthenticated)
      let some tokenAge := checkedSub ctx.bootTime hat.timeReceived | throw Error.sys
      if seconds tokenAge > keyTimeOut then throw (.km .keyUserNotAuthenticated)
      let state := if requiresTimestamp then .timeStampRequired hat.authToken else .noAuthRequired
      pure (some hat.authToken, state)
    | none => pure (none, .opAuthRequired)

def Enforcements.authorizeCreate (self : Enforcements R) (ctx : Context) (purpose : KeyPurpose)
    (keyProperties : Option (Int64 × List KeyParameterValue)) (opParams : List KmKeyParameter)
    (requiresTimestamp : Bool) : Except Error (Option HardwareAuthToken × AuthInfo R) :=
  match keyProperties with
  | none => pure (none,
      { state := .noAuthRequired, keyUsageLimited := none, confirmationTokenReceiver := none })
  | some (keyId, keyParams) => do
    checkPurpose purpose keyParams
    let v ← keyParams.foldlM (scanKeyParam self ctx.systemTime purpose keyId) {}
    checkKeyParamVars self ctx purpose opParams v
    let (hat, state) ← authorizeAuthToken ctx v.userSecureIds v.userAuthType v.keyTimeOut
      requiresTimestamp
    pure (hat,
      { state := state
        keyUsageLimited := v.keyUsageLimited
        confirmationTokenReceiver := v.confirmationTokenReceiver })

end Keystore2.Enforcements
