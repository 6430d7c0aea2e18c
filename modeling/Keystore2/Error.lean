import Mathlib

/-! The error type of keystore2 (`error.rs`): a keystore `ResponseCode` or a KeyMint
`ErrorCode`.  Each code enumeration holds the codes that the modelled functions return; the
binder variants of `Error` come only from calls to other services, which are not modelled. -/

namespace Keystore2

inductive ResponseCode
  | locked
  | uninitialized
  | systemError
  | permissionDenied
  | keyNotFound
  | invalidArgument
  | operationBusy
  | tooMuchData
  | valueCorrupted
  | backendBusy
  deriving DecidableEq, Repr

inductive ErrorCode
  | incompatiblePurpose
  | unsupportedPurpose
  | keyNotYetValid
  | keyExpired
  | invalidKeyBlob
  | keyUserNotAuthenticated
  | callerNonceProhibited
  | deviceLocked
  | bootLevelExceeded
  | invalidOperationHandle
  | unsupportedKeyFormat
  deriving DecidableEq, Repr

inductive Error
  | rc (code : ResponseCode)
  | km (code : ErrorCode)
  deriving DecidableEq, Repr

def Error.sys : Error := .rc .systemError

/-- `selinux::Error::perm()`, a denial by the policy, reported as `PERMISSION_DENIED`. -/
def Error.perm : Error := .rc .permissionDenied

end Keystore2
