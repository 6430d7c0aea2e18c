import Mathlib.Data.List.AList
import Keystore2.Error

/-! The users' super keys that `SuperKeyManager` of `super_key.rs` holds in memory.  A user has
an AfterFirstUnlock key and two UnlockedDeviceRequired keys, a symmetric one and an ECDH private
one that re-encrypts with the symmetric one, and may have a copy of the latter two encrypted for
a biometric unlock.  `key_index` maps database ids to `Weak` references to the keys.

An `Arc<SuperKey>` is a `SuperKey` value with the allocation it points to; a `Weak` is the
allocation.  Nothing outside `SkmState` keeps an `Arc` to a super key, so a `Weak` upgrades
exactly when a key held in `user_keys`, or re-encrypting one held there, has its allocation.

What the methods get from the database, the password and KeyMint is an argument: the key and
entry id that `get_or_create_super_key` loads or creates, the outcome of the biometric set-up in
`lock_unlocked_device_required_keys`, and the decryptions of the biometric copies.  Each method
keeps the changes it made before an error, as the `&mut self` methods of the source do. -/

namespace Keystore2.SuperKeyManager

/-- `type UserId = u32`. -/
abbrev UserId := UInt32

inductive SuperEncryptionAlgorithm
  | aes256Gcm
  | ecdhP521
  deriving DecidableEq, Repr

/-- `SuperKeyType`; its `name` is only written to the log, and `keyAlias` is the field
`alias`. -/
structure SuperKeyType where
  keyAlias : String
  algorithm : SuperEncryptionAlgorithm
  deriving DecidableEq, Repr

def userAfterFirstUnlockSuperKey : SuperKeyType := ⟨"USER_SUPER_KEY", .aes256Gcm⟩

def userUnlockedDeviceRequiredSymmetricSuperKey : SuperKeyType :=
  ⟨"USER_SCREEN_LOCK_BOUND_KEY", .aes256Gcm⟩

def userUnlockedDeviceRequiredP521SuperKey : SuperKeyType :=
  ⟨"USER_SCREEN_LOCK_BOUND_P521_KEY", .ecdhP521⟩

/-- The three types of a user's super keys differ, so each has an entry of its own. -/
theorem userSuperKeyTypes_ne :
    userAfterFirstUnlockSuperKey ≠ userUnlockedDeviceRequiredSymmetricSuperKey ∧
      userAfterFirstUnlockSuperKey ≠ userUnlockedDeviceRequiredP521SuperKey ∧
      userUnlockedDeviceRequiredSymmetricSuperKey ≠ userUnlockedDeviceRequiredP521SuperKey := by
  decide

/-- How a key blob is protected with a super key before it goes into the database. -/
inductive SuperEncryptionType
  | none
  | afterFirstUnlock
  | unlockedDeviceRequired
  | bootLevel (level : Int32)
  deriving DecidableEq, Repr

inductive SuperKeyIdentifier
  | databaseId (id : Int64)
  | bootLevel (level : Int32)
  deriving DecidableEq, Repr

/-- An `Arc<SuperKey>`: `alloc` names the allocation, which clones of the `Arc` share. -/
structure SuperKey where
  alloc : Nat
  algorithm : SuperEncryptionAlgorithm
  key : List UInt8
  id : SuperKeyIdentifier
  reencryptWith : Option SuperKey

/-- The allocations a key keeps alive: its own and, through `reencrypt_with`, those of the
keys it re-encrypts with. -/
def SuperKey.arcs : SuperKey → List SuperKey
  | k@⟨_, _, _, _, none⟩ => [k]
  | k@⟨_, _, _, _, some r⟩ => k :: r.arcs

theorem SuperKey.arcs_of_reencryptWith_none {k : SuperKey} (h : k.reencryptWith = none) :
    k.arcs = [k] := by
  obtain ⟨a, al, key, id, r⟩ := k
  subst h
  rfl

theorem SuperKey.arcs_of_reencryptWith_some {k r : SuperKey} (h : k.reencryptWith = some r) :
    k.arcs = k :: r.arcs := by
  obtain ⟨a, al, key, id, r'⟩ := k
  cases h
  rfl

/-- A super key encrypted for the biometric unlock.  Its nonce and ciphertext only go to
KeyMint, which is not modelled. -/
structure LockedKey where
  algorithm : SuperEncryptionAlgorithm
  id : SuperKeyIdentifier

/-- `BiometricUnlock`; the descriptor of the encrypting key only goes to `load_key_entry`,
whose outcome is an argument.  `privateKey` is the field `private`. -/
structure BiometricUnlock where
  sids : List Int64
  symmetric : LockedKey
  privateKey : LockedKey

structure UserSuperKeys where
  afterFirstUnlock : Option SuperKey := none
  unlockedDeviceRequiredSymmetric : Option SuperKey := none
  unlockedDeviceRequiredPrivate : Option SuperKey := none
  biometricUnlock : Option BiometricUnlock := none

/-- The keys an entry holds, and those they keep alive. -/
def UserSuperKeys.arcs (e : UserSuperKeys) : List SuperKey :=
  (e.afterFirstUnlock.toList ++ e.unlockedDeviceRequiredSymmetric.toList ++
    e.unlockedDeviceRequiredPrivate.toList).flatMap SuperKey.arcs

theorem UserSuperKeys.mem_arcs {e : UserSuperKeys} {k : SuperKey} :
    k ∈ e.arcs ↔ (∃ k₀, e.afterFirstUnlock = some k₀ ∧ k ∈ k₀.arcs) ∨
      (∃ k₀, e.unlockedDeviceRequiredSymmetric = some k₀ ∧ k ∈ k₀.arcs) ∨
      (∃ k₀, e.unlockedDeviceRequiredPrivate = some k₀ ∧ k ∈ k₀.arcs) := by
  simp only [UserSuperKeys.arcs, List.mem_flatMap, List.mem_append, Option.mem_toList,
    or_and_right, exists_or, or_assoc]

/-- `SkmState` without the boot level key cache, which `BootLevelKeys` models. -/
structure SkmState where
  userKeys : AList fun _ : UserId => UserSuperKeys
  keyIndex : AList fun _ : Int64 => Nat

/-- `LockedKey::decrypt`: the key that KeyMint decrypted, under the id it was locked with. -/
def LockedKey.decrypt (self : LockedKey) (result : Except Error (List UInt8)) (alloc : Nat)
    (reencryptWith : Option SuperKey) : Except Error SuperKey :=
  result.map fun key => ⟨alloc, self.algorithm, key, self.id, reencryptWith⟩

/-- `get_or_create_super_key`: the key of the entry loaded or created for the key type, under
the entry's id. -/
def getOrCreateSuperKey (alloc : Nat) (keyType : SuperKeyType)
    (result : Except Error (List UInt8 × Int64)) (reencryptWith : Option SuperKey) :
    Except Error SuperKey :=
  result.map fun (key, id) => ⟨alloc, keyType.algorithm, key, .databaseId id, reencryptWith⟩

namespace SkmState

variable (s : SkmState)

def empty : SkmState := ⟨∅, ∅⟩

/-- `user_keys.get(&user)`, with an absent user read as `UserSuperKeys::default()`, as every
access of the source does. -/
def userEntry (userId : UserId) : UserSuperKeys := (s.userKeys.lookup userId).getD {}

/-- `user_keys.entry(user).or_default()` followed by writes to the entry. -/
def setUserEntry (userId : UserId) (entry : UserSuperKeys) : SkmState :=
  { s with userKeys := s.userKeys.insert userId entry }

theorem userEntry_empty (u : UserId) : empty.userEntry u = {} := rfl

theorem userEntry_setUserEntry (u w : UserId) (e : UserSuperKeys) :
    (s.setUserEntry u e).userEntry w = if w = u then e else s.userEntry w := by
  unfold setUserEntry userEntry
  split
  · subst w
    rw [AList.lookup_insert]
    rfl
  · rw [AList.lookup_insert_ne (by assumption)]

/-- The keys held in `user_keys` and those they keep alive: the strong references. -/
def heldKeys : List SuperKey := s.userKeys.entries.flatMap fun e => e.2.arcs

theorem mem_heldKeys {k : SuperKey} : k ∈ s.heldKeys ↔ ∃ u, k ∈ (s.userEntry u).arcs := by
  simp only [heldKeys, List.mem_flatMap, userEntry]
  constructor
  · rintro ⟨⟨u, e⟩, he, hk⟩
    refine ⟨u, ?_⟩
    rw [AList.mem_lookup_iff.mpr he]
    exact hk
  · rintro ⟨u, hk⟩
    cases hl : s.userKeys.lookup u with
    | none =>
      rw [hl] at hk
      simp [UserSuperKeys.arcs] at hk
    | some e =>
      rw [hl] at hk
      exact ⟨⟨u, e⟩, AList.mem_lookup_iff.mp hl, hk⟩

def addKeyToKeyIndex (superKey : SuperKey) : Except Error SkmState :=
  match superKey.id with
  | .databaseId id => pure { s with keyIndex := s.keyIndex.insert id superKey.alloc }
  | .bootLevel _ => throw Error.sys

/-- The `SuperKeyIdentifier::DatabaseId` case of `lookup_key`: the `Weak` of the key index,
upgraded. -/
def lookupKey (id : Int64) : Option SuperKey :=
  (s.keyIndex.lookup id).bind fun alloc => s.heldKeys.find? (·.alloc == alloc)

/-- A key that `lookup_key` upgrades is indexed under the id and held for some user. -/
theorem lookupKey_eq_some {id : Int64} {k : SuperKey} (h : s.lookupKey id = some k) :
    s.keyIndex.lookup id = some k.alloc ∧ ∃ u, k ∈ (s.userEntry u).arcs := by
  obtain ⟨a, ha, hfind⟩ := Option.bind_eq_some_iff.mp h
  have hka : k.alloc = a := by simpa using List.find?_some hfind
  subst hka
  exact ⟨ha, (s.mem_heldKeys).mp (List.mem_of_find?_eq_some hfind)⟩

def forgetAllKeysForUser (user : UserId) : SkmState :=
  { s with userKeys := s.userKeys.erase user }

theorem userEntry_forgetAllKeysForUser (u w : UserId) :
    (s.forgetAllKeysForUser u).userEntry w = if w = u then {} else s.userEntry w := by
  unfold forgetAllKeysForUser userEntry
  split
  · subst w
    rw [AList.lookup_erase]
    rfl
  · rw [AList.lookup_erase_ne (by assumption)]

def installAfterFirstUnlockKeyForUser (user : UserId) (superKey : SuperKey) :
    Except Error SkmState := do
  let s ← s.addKeyToKeyIndex superKey
  pure (s.setUserEntry user { s.userEntry user with afterFirstUnlock := some superKey })

/-- `unlock_unlocked_device_required_keys`, with the outcomes of `get_or_create_super_key` for
the symmetric and the private key, and the allocations of their `Arc`s. -/
def unlockUnlockedDeviceRequiredKeys (userId : UserId)
    (symmetricResult privateResult : Except Error (List UInt8 × Int64)) (aesAlloc ecdhAlloc : Nat) :
    SkmState × Except Error Unit :=
  let entry := s.userEntry userId
  match entry.unlockedDeviceRequiredSymmetric, entry.unlockedDeviceRequiredPrivate with
  | some _, some _ => (s, pure ())
  | symmetric, privateKey =>
    -- A key present alone is kept; the source notes that this should never happen.
    let aes : Except Error SuperKey := match symmetric with
      | some symmetric => pure symmetric
      | none => getOrCreateSuperKey aesAlloc userUnlockedDeviceRequiredSymmetricSuperKey
          symmetricResult none
    match aes with
    | .error e => (s, throw e)
    | .ok aes =>
      let ecdh : Except Error SuperKey := match privateKey with
        | some privateKey => pure privateKey
        | none => getOrCreateSuperKey ecdhAlloc userUnlockedDeviceRequiredP521SuperKey
            privateResult (some aes)
      match ecdh with
      | .error e => (s, throw e)
      | .ok ecdh =>
        match s.addKeyToKeyIndex aes with
        | .error e => (s, throw e)
        | .ok s =>
          match s.addKeyToKeyIndex ecdh with
          | .error e => (s, throw e)
          | .ok s =>
            (s.setUserEntry userId { s.userEntry userId with
              unlockedDeviceRequiredSymmetric := some aes
              unlockedDeviceRequiredPrivate := some ecdh }, pure ())

/-- `lock_unlocked_device_required_keys`; `setUp` is the outcome of the closure that creates
the biometric-bound key, whose errors are only logged. -/
def lockUnlockedDeviceRequiredKeys (userId : UserId) (unlockingSids : List Int64)
    (weakUnlockEnabled : Bool) (setUp : Except Error Unit) : SkmState :=
  let entry := s.userEntry userId
  let entry :=
    if unlockingSids.isEmpty then { entry with biometricUnlock := none }
    else
      match entry.unlockedDeviceRequiredSymmetric, entry.unlockedDeviceRequiredPrivate, setUp with
      | some aes, some ecdh, .ok () =>
        { entry with biometricUnlock := some ⟨unlockingSids, ⟨aes.algorithm, aes.id⟩,
            ⟨ecdh.algorithm, ecdh.id⟩⟩ }
      | _, _, _ => entry
  -- The plaintext copy goes unless a weak unlock method is enabled.
  let entry := if !weakUnlockEnabled then
      { entry with unlockedDeviceRequiredSymmetric := none, unlockedDeviceRequiredPrivate := none }
    else entry
  s.setUserEntry userId entry

def wipePlaintextUnlockedDeviceRequiredKeys (userId : UserId) : SkmState :=
  s.setUserEntry userId { s.userEntry userId with
    unlockedDeviceRequiredSymmetric := none
    unlockedDeviceRequiredPrivate := none }

def wipeAllUnlockedDeviceRequiredKeys (userId : UserId) : SkmState :=
  s.setUserEntry userId { s.userEntry userId with
    unlockedDeviceRequiredSymmetric := none
    unlockedDeviceRequiredPrivate := none
    biometricUnlock := none }

/-- The loop of `try_unlock_user_with_biometric` over the sids: `decrypt sid` is `none` when no
auth token matches the sid, and otherwise decrypts a locked key with KeyMint under that
token.  The first sid that decrypts both keys unlocks them. -/
def tryUnlockSids (userId : UserId) (entry : UserSuperKeys) (biometric : BiometricUnlock)
    (decrypt : Int64 → Option (LockedKey → Except Error (List UInt8)))
    (symmetricAlloc privateAlloc : Nat) : List Int64 → SkmState × Except Error Unit
  | [] => (s, pure ())
  | sid :: sids =>
    match decrypt sid with
    | none => tryUnlockSids userId entry biometric decrypt symmetricAlloc privateAlloc sids
    | some decryptWith =>
      let keys : Except Error (SuperKey × SuperKey) := do
        let symmetric ← biometric.symmetric.decrypt (decryptWith biometric.symmetric)
          symmetricAlloc none
        let privateKey ← biometric.privateKey.decrypt (decryptWith biometric.privateKey)
          privateAlloc (some symmetric)
        pure (symmetric, privateKey)
      match keys with
      | .ok (symmetric, privateKey) =>
        -- The entry is written before the keys go into the index.
        let s := s.setUserEntry userId { entry with
          unlockedDeviceRequiredSymmetric := some symmetric
          unlockedDeviceRequiredPrivate := some privateKey }
        match s.addKeyToKeyIndex symmetric with
        | .error e => (s, throw e)
        | .ok s =>
          match s.addKeyToKeyIndex privateKey with
          | .error e => (s, throw e)
          | .ok s => (s, pure ())
      | .error _ => tryUnlockSids userId entry biometric decrypt symmetricAlloc privateAlloc sids

/-- `try_unlock_user_with_biometric`; `load` is the outcome of loading the biometric-bound key
and of `KeyMintDevice::get`. -/
def tryUnlockUserWithBiometric (userId : UserId) (load : Except Error Unit)
    (decrypt : Int64 → Option (LockedKey → Except Error (List UInt8)))
    (symmetricAlloc privateAlloc : Nat) : SkmState × Except Error Unit :=
  let entry := s.userEntry userId
  if entry.unlockedDeviceRequiredSymmetric.isSome && entry.unlockedDeviceRequiredPrivate.isSome
  then (s, pure ())
  else
    match entry.biometricUnlock with
    | none => (s, pure ())
    | some biometric =>
      match load with
      | .error e => (s, throw e)
      | .ok () =>
        s.tryUnlockSids userId entry biometric decrypt symmetricAlloc privateAlloc biometric.sids

end SkmState

/-- The calls on a `SuperKeyManager` that change its users' keys, with what each gets from the
database, the password and KeyMint. -/
inductive SkmOp
  | unlock (userId : UserId) (symmetric privateKey : Except Error (List UInt8 × Int64))
  | lock (userId : UserId) (unlockingSids : List Int64) (weakUnlockEnabled : Bool)
      (setUp : Except Error Unit)
  | wipePlaintext (userId : UserId)
  | wipeAll (userId : UserId)
  | tryUnlockWithBiometric (userId : UserId) (load : Except Error Unit)
      (decrypt : Int64 → Option (LockedKey → Except Error (List UInt8)))
  | forgetAllKeys (userId : UserId)
  | installAfterFirstUnlockKey (userId : UserId) (key : List UInt8) (id : Int64)

/-- The manager's state, and the next fresh allocation. -/
structure SkmSystem where
  state : SkmState
  nextAlloc : Nat

namespace SkmSystem

def init : SkmSystem := ⟨.empty, 0⟩

/-- One call, with fresh allocations for the `Arc`s it creates. -/
def step (sys : SkmSystem) : SkmOp → SkmSystem × Except Error Unit
  | .unlock userId symmetric privateKey =>
    let r := sys.state.unlockUnlockedDeviceRequiredKeys userId symmetric privateKey sys.nextAlloc
      (sys.nextAlloc + 1)
    (⟨r.1, sys.nextAlloc + 2⟩, r.2)
  | .lock userId unlockingSids weakUnlockEnabled setUp =>
    (⟨sys.state.lockUnlockedDeviceRequiredKeys userId unlockingSids weakUnlockEnabled setUp,
      sys.nextAlloc⟩, pure ())
  | .wipePlaintext userId =>
    (⟨sys.state.wipePlaintextUnlockedDeviceRequiredKeys userId, sys.nextAlloc⟩, pure ())
  | .wipeAll userId =>
    (⟨sys.state.wipeAllUnlockedDeviceRequiredKeys userId, sys.nextAlloc⟩, pure ())
  | .tryUnlockWithBiometric userId load decrypt =>
    let r := sys.state.tryUnlockUserWithBiometric userId load decrypt sys.nextAlloc
      (sys.nextAlloc + 1)
    (⟨r.1, sys.nextAlloc + 2⟩, r.2)
  | .forgetAllKeys userId => (⟨sys.state.forgetAllKeysForUser userId, sys.nextAlloc⟩, pure ())
  | .installAfterFirstUnlockKey userId key id =>
    match sys.state.installAfterFirstUnlockKeyForUser userId
        ⟨sys.nextAlloc, userAfterFirstUnlockSuperKey.algorithm, key, .databaseId id, none⟩ with
    | .ok s => (⟨s, sys.nextAlloc + 1⟩, pure ())
    | .error e => (⟨sys.state, sys.nextAlloc + 1⟩, throw e)

end SkmSystem

end Keystore2.SuperKeyManager
