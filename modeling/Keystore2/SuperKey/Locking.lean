import Keystore2.SuperKey

/-! The UnlockedDeviceRequired keys of `super_key.rs` come and go together, and once a user's
keys are locked, `lookup_key` finds neither of them until the user unlocks again.

Which key a database id names is the database's business: `slotOf` maps a key entry id to the
user and super key type of the entry, as `get_or_create_super_key` keeps one entry per user and
type.  A call is admissible when the ids it loads are those of its user's entries.  The
invariant says that each key a user holds is the key of its own slot, that the index points at
an allocation only under the id of the key that has it, and that every allocation in use is
older than the next fresh one. -/

namespace Keystore2.SuperKeyManager

open SkmState

section Invariant

variable (slotOf : Int64 → Option (UserId × SuperKeyType))

/-- The identifier is the database id of the user's super key of the given type. -/
def InSlot (userId : UserId) (keyType : SuperKeyType) (id : SuperKeyIdentifier) : Prop :=
  ∃ x, id = .databaseId x ∧ slotOf x = some (userId, keyType)

/-- The database ids of a user's UnlockedDeviceRequired keys. -/
def UdrSlot (userId : UserId) (id : Int64) : Prop :=
  slotOf id = some (userId, userUnlockedDeviceRequiredSymmetricSuperKey) ∨
    slotOf id = some (userId, userUnlockedDeviceRequiredP521SuperKey)

/-- Each key of a user's entry is the user's key of its field's type, the private key
re-encrypts with nothing or with the symmetric key beside it, and the biometric copies are
those of the user's UnlockedDeviceRequired keys. -/
structure EntryWellFormed (userId : UserId) (e : UserSuperKeys) : Prop where
  together : e.unlockedDeviceRequiredSymmetric.isSome = e.unlockedDeviceRequiredPrivate.isSome
  afterFirstUnlock : ∀ k, e.afterFirstUnlock = some k →
    InSlot slotOf userId userAfterFirstUnlockSuperKey k.id ∧ k.reencryptWith = none
  symmetric : ∀ k, e.unlockedDeviceRequiredSymmetric = some k →
    InSlot slotOf userId userUnlockedDeviceRequiredSymmetricSuperKey k.id ∧ k.reencryptWith = none
  privateKey : ∀ k, e.unlockedDeviceRequiredPrivate = some k →
    InSlot slotOf userId userUnlockedDeviceRequiredP521SuperKey k.id ∧
      (k.reencryptWith = none ∨ k.reencryptWith = e.unlockedDeviceRequiredSymmetric)
  biometric : ∀ b, e.biometricUnlock = some b →
    InSlot slotOf userId userUnlockedDeviceRequiredSymmetricSuperKey b.symmetric.id ∧
      InSlot slotOf userId userUnlockedDeviceRequiredP521SuperKey b.privateKey.id

structure SkmInvariant (sys : SkmSystem) : Prop where
  entries : ∀ u, EntryWellFormed slotOf u (sys.state.userEntry u)
  indexSound : ∀ id a, sys.state.keyIndex.lookup id = some a →
    ∀ u, ∀ k ∈ (sys.state.userEntry u).arcs, k.alloc = a → k.id = .databaseId id
  indexBelow : ∀ id a, sys.state.keyIndex.lookup id = some a → a < sys.nextAlloc
  allocBelow : ∀ u, ∀ k ∈ (sys.state.userEntry u).arcs, k.alloc < sys.nextAlloc

/-- The ids that a call loads are those of its user's entries. -/
def SkmOp.Admissible : SkmOp → Prop
  | .unlock userId symmetric privateKey =>
    (∀ key x, symmetric = .ok (key, x) →
      slotOf x = some (userId, userUnlockedDeviceRequiredSymmetricSuperKey)) ∧
    (∀ key x, privateKey = .ok (key, x) →
      slotOf x = some (userId, userUnlockedDeviceRequiredP521SuperKey))
  | .installAfterFirstUnlockKey userId _ id => slotOf id = some (userId, userAfterFirstUnlockSuperKey)
  | _ => True

inductive SkmReachable : SkmSystem → Prop
  | init : SkmReachable SkmSystem.init
  | step {sys : SkmSystem} (op : SkmOp) :
      SkmReachable sys → op.Admissible slotOf → SkmReachable (sys.step op).1

/-- The calls that lock a user's UnlockedDeviceRequired keys. -/
def SkmOp.Locks (userId : UserId) : SkmOp → Prop
  | .lock u _ weakUnlockEnabled _ => u = userId ∧ weakUnlockEnabled = false
  | .wipePlaintext u | .wipeAll u | .forgetAllKeys u => u = userId
  | _ => False

/-- The calls that may unlock them again. -/
def SkmOp.Unlocks (userId : UserId) : SkmOp → Prop
  | .unlock u _ _ | .tryUnlockWithBiometric u _ _ => u = userId
  | _ => False

def UdrLocked (s : SkmState) (userId : UserId) : Prop :=
  (s.userEntry userId).unlockedDeviceRequiredSymmetric = none ∧
    (s.userEntry userId).unlockedDeviceRequiredPrivate = none

/-- The runs that follow a lock of the user's keys: admissible calls, none of them a successful
unlock of the user. -/
inductive RunWithoutUnlock (userId : UserId) : SkmSystem → SkmSystem → Prop
  | refl (sys : SkmSystem) : RunWithoutUnlock userId sys sys
  | step {sys₀ sys : SkmSystem} (op : SkmOp) : RunWithoutUnlock userId sys₀ sys →
      op.Admissible slotOf → ¬(op.Unlocks userId ∧ (sys.step op).2 = .ok ()) →
      RunWithoutUnlock userId sys₀ (sys.step op).1

/-- The user a call acts on. -/
def SkmOp.userId : SkmOp → UserId
  | .unlock u _ _ | .lock u _ _ _ | .wipePlaintext u | .wipeAll u | .tryUnlockWithBiometric u _ _
  | .forgetAllKeys u | .installAfterFirstUnlockKey u _ _ => u

/-- The state after an unlock has put a pair of keys into the user's entry and both into the
index. -/
def SkmState.withUnlocked (s : SkmState) (userId : UserId) (aes ecdh : SuperKey)
    (aesId ecdhId : Int64) : SkmState :=
  ⟨s.userKeys.insert userId { s.userEntry userId with
      unlockedDeviceRequiredSymmetric := some aes
      unlockedDeviceRequiredPrivate := some ecdh },
    (s.keyIndex.insert aesId aes.alloc).insert ecdhId ecdh.alloc⟩

/-- The pair of keys an unlock installs: fresh allocations, each key under the database id of
its slot, and the private key re-encrypting with the symmetric one. -/
structure FreshUnlock (userId : UserId) (n : Nat) (aes ecdh : SuperKey) (aesId ecdhId : Int64) :
    Prop where
  aesId_eq : aes.id = .databaseId aesId
  aesSlot : slotOf aesId = some (userId, userUnlockedDeviceRequiredSymmetricSuperKey)
  aesAlloc : aes.alloc = n
  aesReencrypt : aes.reencryptWith = none
  ecdhId_eq : ecdh.id = .databaseId ecdhId
  ecdhSlot : slotOf ecdhId = some (userId, userUnlockedDeviceRequiredP521SuperKey)
  ecdhAlloc : ecdh.alloc = n + 1
  ecdhReencrypt : ecdh.reencryptWith = some aes

/-- What an unlock call does, failed part-way or not: nothing, or install a fresh pair of keys
and succeed. -/
def UnlockOutcome (s : SkmState) (userId : UserId) (n : Nat) (r : SkmState × Except Error Unit) :
    Prop :=
  r.1 = s ∨ r.2 = .ok () ∧ ∃ aes ecdh aesId ecdhId,
    FreshUnlock slotOf userId n aes ecdh aesId ecdhId ∧
      r.1 = s.withUnlocked userId aes ecdh aesId ecdhId

end Invariant

section Entries

variable {slotOf : Int64 → Option (UserId × SuperKeyType)} {u : UserId} {e : UserSuperKeys}

theorem InSlot.slotOf_eq {t : SuperKeyType} {i : SuperKeyIdentifier} {x : Int64}
    (h : InSlot slotOf u t i) (hi : i = .databaseId x) : slotOf x = some (u, t) := by
  obtain ⟨y, hy, hslot⟩ := h
  rw [hi] at hy
  cases hy
  exact hslot

/-- A well-formed entry keeps alive its own keys and nothing else. -/
theorem EntryWellFormed.mem_arcs (h : EntryWellFormed slotOf u e) {k : SuperKey}
    (hk : k ∈ e.arcs) :
    e.afterFirstUnlock = some k ∨ e.unlockedDeviceRequiredSymmetric = some k ∨
      e.unlockedDeviceRequiredPrivate = some k := by
  rcases UserSuperKeys.mem_arcs.mp hk with ⟨k₀, hk₀, hk⟩ | ⟨k₀, hk₀, hk⟩ | ⟨k₀, hk₀, hk⟩
  · rw [SuperKey.arcs_of_reencryptWith_none (h.afterFirstUnlock k₀ hk₀).2,
      List.mem_singleton] at hk
    subst hk
    exact .inl hk₀
  · rw [SuperKey.arcs_of_reencryptWith_none (h.symmetric k₀ hk₀).2, List.mem_singleton] at hk
    subst hk
    exact .inr (.inl hk₀)
  · -- The private key keeps the symmetric key alive through its re-encryption.
    rcases (h.privateKey k₀ hk₀).2 with hr | hr
    · rw [SuperKey.arcs_of_reencryptWith_none hr, List.mem_singleton] at hk
      subst hk
      exact .inr (.inr hk₀)
    · cases hs : e.unlockedDeviceRequiredSymmetric with
      | none =>
        rw [hs] at hr
        rw [SuperKey.arcs_of_reencryptWith_none hr, List.mem_singleton] at hk
        subst hk
        exact .inr (.inr hk₀)
      | some r =>
        rw [hs] at hr
        rw [SuperKey.arcs_of_reencryptWith_some hr, SuperKey.arcs_of_reencryptWith_none
          (h.symmetric r hs).2, List.mem_cons, List.mem_singleton] at hk
        rcases hk with rfl | rfl
        · exact .inr (.inr hk₀)
        · exact .inr (.inl rfl)

theorem entryWellFormed_empty : EntryWellFormed slotOf u {} where
  together := rfl
  afterFirstUnlock := by simp
  symmetric := by simp
  privateKey := by simp
  biometric := by simp

/-- An entry that keeps some of its fields and empties the others keeps no new key alive. -/
theorem mem_arcs_of_fields {e' : UserSuperKeys}
    (hafu : e'.afterFirstUnlock = e.afterFirstUnlock)
    (hsym : e'.unlockedDeviceRequiredSymmetric = e.unlockedDeviceRequiredSymmetric ∨
      e'.unlockedDeviceRequiredSymmetric = none)
    (hpriv : e'.unlockedDeviceRequiredPrivate = e.unlockedDeviceRequiredPrivate ∨
      e'.unlockedDeviceRequiredPrivate = none) :
    ∀ k ∈ e'.arcs, k ∈ e.arcs := by
  intro k hk
  rw [UserSuperKeys.mem_arcs] at hk ⊢
  rcases hk with ⟨k₀, hk₀, hk⟩ | ⟨k₀, hk₀, hk⟩ | ⟨k₀, hk₀, hk⟩
  · exact .inl ⟨k₀, hafu ▸ hk₀, hk⟩
  · rcases hsym with hsym | hsym <;> rw [hsym] at hk₀
    · exact .inr (.inl ⟨k₀, hk₀, hk⟩)
    · cases hk₀
  · rcases hpriv with hpriv | hpriv <;> rw [hpriv] at hk₀
    · exact .inr (.inr ⟨k₀, hk₀, hk⟩)
    · cases hk₀

/-- Replacing the biometric copies by copies of the user's UnlockedDeviceRequired keys keeps
an entry well formed. -/
theorem EntryWellFormed.setBiometric (h : EntryWellFormed slotOf u e)
    {b : Option BiometricUnlock}
    (hb : ∀ b', b = some b' →
      InSlot slotOf u userUnlockedDeviceRequiredSymmetricSuperKey b'.symmetric.id ∧
        InSlot slotOf u userUnlockedDeviceRequiredP521SuperKey b'.privateKey.id) :
    EntryWellFormed slotOf u { e with biometricUnlock := b } where
  together := h.together
  afterFirstUnlock := h.afterFirstUnlock
  symmetric := h.symmetric
  privateKey := h.privateKey
  biometric := hb

/-- Emptying both UnlockedDeviceRequired fields keeps an entry well formed. -/
theorem EntryWellFormed.wipe (h : EntryWellFormed slotOf u e) :
    EntryWellFormed slotOf u { e with
      unlockedDeviceRequiredSymmetric := none
      unlockedDeviceRequiredPrivate := none } where
  together := rfl
  afterFirstUnlock := h.afterFirstUnlock
  symmetric := by simp
  privateKey := by simp
  biometric := h.biometric

theorem EntryWellFormed.wipeAll (h : EntryWellFormed slotOf u e) :
    EntryWellFormed slotOf u { e with
      unlockedDeviceRequiredSymmetric := none
      unlockedDeviceRequiredPrivate := none
      biometricUnlock := none } where
  together := rfl
  afterFirstUnlock := h.afterFirstUnlock
  symmetric := by simp
  privateKey := by simp
  biometric := by simp

theorem EntryWellFormed.unlock (h : EntryWellFormed slotOf u e) {n : Nat} {aes ecdh : SuperKey}
    {xA xP : Int64} (hp : FreshUnlock slotOf u n aes ecdh xA xP) :
    EntryWellFormed slotOf u { e with
      unlockedDeviceRequiredSymmetric := some aes
      unlockedDeviceRequiredPrivate := some ecdh } where
  together := rfl
  afterFirstUnlock := h.afterFirstUnlock
  symmetric k hk := by
    cases hk
    exact ⟨⟨xA, hp.aesId_eq, hp.aesSlot⟩, hp.aesReencrypt⟩
  privateKey k hk := by
    cases hk
    exact ⟨⟨xP, hp.ecdhId_eq, hp.ecdhSlot⟩, .inr hp.ecdhReencrypt⟩
  biometric := h.biometric

theorem EntryWellFormed.setAfterFirstUnlock (h : EntryWellFormed slotOf u e) {k : SuperKey}
    (hk : InSlot slotOf u userAfterFirstUnlockSuperKey k.id) (hr : k.reencryptWith = none) :
    EntryWellFormed slotOf u { e with afterFirstUnlock := some k } where
  together := h.together
  afterFirstUnlock k' hk' := by
    cases hk'
    exact ⟨hk, hr⟩
  symmetric := h.symmetric
  privateKey := h.privateKey
  biometric := h.biometric

end Entries

section Calls

/-! What each call does to the entries and the index. -/

variable {slotOf : Int64 → Option (UserId × SuperKeyType)} {s : SkmState} {u w : UserId}
  {n : Nat}

/-- Only the user table decides an entry; the calls write it along with the index. -/
theorem userEntry_insert (e : UserSuperKeys) (keyIndex : AList fun _ : Int64 => Nat) :
    (SkmState.mk (s.userKeys.insert u e) keyIndex).userEntry w =
      if w = u then e else s.userEntry w :=
  s.userEntry_setUserEntry u w e

theorem userEntry_withUnlocked (aes ecdh : SuperKey) (xA xP : Int64) :
    (s.withUnlocked u aes ecdh xA xP).userEntry w = if w = u then { s.userEntry u with
      unlockedDeviceRequiredSymmetric := some aes
      unlockedDeviceRequiredPrivate := some ecdh } else s.userEntry w :=
  userEntry_insert _ _

theorem UnlockOutcome.userEntry_of_ne {r : SkmState × Except Error Unit}
    (ho : UnlockOutcome slotOf s u n r) (hw : w ≠ u) : r.1.userEntry w = s.userEntry w := by
  rcases ho with hr | ⟨-, aes, ecdh, xA, xP, -, hr⟩
  · rw [hr]
  · rw [hr, userEntry_withUnlocked, if_neg hw]

/-- `unlock_unlocked_device_required_keys` either changes nothing or installs a fresh pair.
Where only one of the two keys is present, the source keeps it; the invariant rules that out. -/
theorem unlockUnlockedDeviceRequiredKeys_outcome {symR privR : Except Error (List UInt8 × Int64)}
    (hwf : EntryWellFormed slotOf u (s.userEntry u))
    (hadm : (SkmOp.unlock u symR privR).Admissible slotOf) :
    UnlockOutcome slotOf s u n (s.unlockUnlockedDeviceRequiredKeys u symR privR n (n + 1)) := by
  have htogether := hwf.together
  cases hsym : (s.userEntry u).unlockedDeviceRequiredSymmetric with
  | some aes =>
    rw [hsym] at htogether
    obtain ⟨ecdh, hpriv⟩ := Option.isSome_iff_exists.mp htogether.symm
    left
    simp only [unlockUnlockedDeviceRequiredKeys, hsym, hpriv]
  | none =>
    rw [hsym] at htogether
    have hpriv : (s.userEntry u).unlockedDeviceRequiredPrivate = none :=
      Option.not_isSome_iff_eq_none.mp (by simp [← htogether])
    -- A failed load of either key leaves the state as it was.
    cases symR with
    | error err =>
      left
      simp only [unlockUnlockedDeviceRequiredKeys, hsym, hpriv, getOrCreateSuperKey, Except.map]
    | ok p =>
      obtain ⟨kA, xA⟩ := p
      cases privR with
      | error err =>
        left
        simp only [unlockUnlockedDeviceRequiredKeys, hsym, hpriv, getOrCreateSuperKey, Except.map]
      | ok q =>
        obtain ⟨kP, xP⟩ := q
        let aes : SuperKey := ⟨n, .aes256Gcm, kA, .databaseId xA, none⟩
        let ecdh : SuperKey := ⟨n + 1, .ecdhP521, kP, .databaseId xP, some aes⟩
        have hrun : s.unlockUnlockedDeviceRequiredKeys u (.ok (kA, xA)) (.ok (kP, xP)) n (n + 1) =
            (s.withUnlocked u aes ecdh xA xP, .ok ()) := by
          simp only [unlockUnlockedDeviceRequiredKeys, hsym, hpriv, getOrCreateSuperKey,
            Except.map]
          rfl
        rw [hrun]
        exact .inr ⟨rfl, aes, ecdh, xA, xP,
          ⟨rfl, hadm.1 kA xA rfl, rfl, rfl, rfl, hadm.2 kP xP rfl, rfl, rfl⟩, rfl⟩

/-- The loop of `try_unlock_user_with_biometric` changes nothing until a sid decrypts both
copies, and then installs them as a fresh pair. -/
theorem tryUnlockSids_outcome {b : BiometricUnlock}
    (hwf : EntryWellFormed slotOf u (s.userEntry u)) (hb : (s.userEntry u).biometricUnlock = some b)
    (decrypt : Int64 → Option (LockedKey → Except Error (List UInt8))) (sids : List Int64) :
    UnlockOutcome slotOf s u n (s.tryUnlockSids u (s.userEntry u) b decrypt n (n + 1) sids) := by
  obtain ⟨⟨xA, hA, hslotA⟩, ⟨xP, hP, hslotP⟩⟩ := hwf.biometric b hb
  induction sids with
  | nil => exact .inl rfl
  | cons sid sids ih =>
    -- A sid without a token, or a failed decryption, moves on to the next sid.
    cases hd : decrypt sid with
    | none => simpa only [tryUnlockSids, hd] using ih
    | some decryptWith =>
      cases hkA : decryptWith b.symmetric with
      | error => simpa only [tryUnlockSids, hd, LockedKey.decrypt, hkA, Except.map, bind,
          Except.bind] using ih
      | ok kA =>
        cases hkP : decryptWith b.privateKey with
        | error => simpa only [tryUnlockSids, hd, LockedKey.decrypt, hkA, hkP, Except.map, bind,
            Except.bind] using ih
        | ok kP =>
          -- The decrypted keys keep the ids they were locked with, which are database ids, so
          -- both go into the index.
          let aes : SuperKey := ⟨n, b.symmetric.algorithm, kA, .databaseId xA, none⟩
          let ecdh : SuperKey := ⟨n + 1, b.privateKey.algorithm, kP, .databaseId xP, some aes⟩
          have hrun : s.tryUnlockSids u (s.userEntry u) b decrypt n (n + 1) (sid :: sids) =
              (s.withUnlocked u aes ecdh xA xP, .ok ()) := by
            simp only [tryUnlockSids, hd, LockedKey.decrypt, hkA, hkP, Except.map, bind,
              Except.bind, pure, Except.pure, addKeyToKeyIndex, hA, hP]
            rfl
          rw [hrun]
          exact .inr ⟨rfl, aes, ecdh, xA, xP, ⟨rfl, hslotA, rfl, rfl, rfl, hslotP, rfl, rfl⟩, rfl⟩

theorem tryUnlockUserWithBiometric_outcome (hwf : EntryWellFormed slotOf u (s.userEntry u))
    (load : Except Error Unit) (decrypt : Int64 → Option (LockedKey → Except Error (List UInt8))) :
    UnlockOutcome slotOf s u n (s.tryUnlockUserWithBiometric u load decrypt n (n + 1)) := by
  simp only [tryUnlockUserWithBiometric]
  split
  · exact .inl rfl
  · cases hb : (s.userEntry u).biometricUnlock with
    | none => exact .inl rfl
    | some b =>
      cases load with
      | error err => exact .inl rfl
      | ok _ => exact tryUnlockSids_outcome hwf hb decrypt b.sids

/-- The entry `lock_unlocked_device_required_keys` leaves: the UnlockedDeviceRequired keys go
unless a weak unlock method is enabled, and the biometric copies are dropped, kept, or made from
the keys the entry had. -/
theorem lockUnlockedDeviceRequiredKeys_userEntry (s : SkmState) (u : UserId) (sids : List Int64)
    (weak : Bool) (setUp : Except Error Unit) :
    ∃ b, (b = none ∨ b = (s.userEntry u).biometricUnlock ∨
      ∃ aes ecdh, (s.userEntry u).unlockedDeviceRequiredSymmetric = some aes ∧
        (s.userEntry u).unlockedDeviceRequiredPrivate = some ecdh ∧
        b = some ⟨sids, ⟨aes.algorithm, aes.id⟩, ⟨ecdh.algorithm, ecdh.id⟩⟩) ∧
    (s.lockUnlockedDeviceRequiredKeys u sids weak setUp).userEntry u = { s.userEntry u with
      unlockedDeviceRequiredSymmetric :=
        if weak then (s.userEntry u).unlockedDeviceRequiredSymmetric else none
      unlockedDeviceRequiredPrivate :=
        if weak then (s.userEntry u).unlockedDeviceRequiredPrivate else none
      biometricUnlock := b } := by
  -- The plaintext keys depend on the flag alone, so take it apart first; the biometric copies
  -- then follow the branches of the source.
  cases weak
  all_goals
    simp only [lockUnlockedDeviceRequiredKeys, userEntry_setUserEntry, Bool.not_false,
      Bool.not_true, Bool.false_eq_true, if_true, if_false]
    by_cases hs : sids.isEmpty
    · exact ⟨none, .inl rfl, by simp [hs]⟩
    · simp only [hs, Bool.false_eq_true, if_false]
      split
      · rename_i _ aes ecdh hsym hpriv
        exact ⟨_, .inr (.inr ⟨aes, ecdh, hsym, hpriv, rfl⟩), by simp [hsym, hpriv]⟩
      · exact ⟨_, .inr (.inl rfl), rfl⟩

theorem lockUnlockedDeviceRequiredKeys_userEntry_of_ne {sids : List Int64} {weak : Bool}
    {setUp : Except Error Unit} (hw : w ≠ u) :
    (s.lockUnlockedDeviceRequiredKeys u sids weak setUp).userEntry w = s.userEntry w := by
  simp only [lockUnlockedDeviceRequiredKeys, userEntry_setUserEntry, if_neg hw]

/-- Installing an AfterFirstUnlock key always succeeds, as its id is a database id. -/
theorem step_installAfterFirstUnlockKey (key : List UInt8) (id : Int64) :
    (SkmSystem.mk s n).step (.installAfterFirstUnlockKey u key id) =
      (⟨⟨s.userKeys.insert u { s.userEntry u with
          afterFirstUnlock := some ⟨n, .aes256Gcm, key, .databaseId id, none⟩ },
        s.keyIndex.insert id n⟩, n + 1⟩, .ok ()) :=
  rfl

/-- A call leaves the entries of every other user as they were. -/
theorem step_userEntry_of_ne {sys : SkmSystem} {op : SkmOp}
    (hwf : EntryWellFormed slotOf op.userId (sys.state.userEntry op.userId))
    (hadm : op.Admissible slotOf) (hw : w ≠ op.userId) :
    (sys.step op).1.state.userEntry w = sys.state.userEntry w := by
  obtain ⟨s, n⟩ := sys
  cases op with
  | unlock v symR privR =>
    exact (unlockUnlockedDeviceRequiredKeys_outcome hwf hadm).userEntry_of_ne hw
  | lock v sids weak setUp => exact lockUnlockedDeviceRequiredKeys_userEntry_of_ne hw
  | wipePlaintext v =>
    exact (s.userEntry_setUserEntry v w _).trans (if_neg hw)
  | wipeAll v =>
    exact (s.userEntry_setUserEntry v w _).trans (if_neg hw)
  | tryUnlockWithBiometric v load decrypt =>
    exact (tryUnlockUserWithBiometric_outcome hwf load decrypt).userEntry_of_ne hw
  | forgetAllKeys v => exact (s.userEntry_forgetAllKeysForUser v w).trans (if_neg hw)
  | installAfterFirstUnlockKey v key id =>
    rw [step_installAfterFirstUnlockKey]
    exact (s.userEntry_setUserEntry v w _).trans (if_neg hw)

end Calls

section Preservation

variable {slotOf : Int64 → Option (UserId × SuperKeyType)} {s s' : SkmState} {u : UserId}
  {n n' : Nat}

theorem lookup_insert_eq_some {α β : Type} [DecidableEq α] {l : AList fun _ : α => β} {x y : α}
    {v a : β} (h : (l.insert x v).lookup y = some a) :
    y = x ∧ a = v ∨ y ≠ x ∧ l.lookup y = some a := by
  by_cases hy : y = x
  · subst hy
    rw [AList.lookup_insert] at h
    exact .inl ⟨rfl, (Option.some.inj h).symm⟩
  · rw [AList.lookup_insert_ne hy] at h
    exact .inr ⟨hy, h⟩

/-- The invariant survives a change that keeps every entry well formed, keeps alive only keys
already held or fresh ones, and indexes fresh allocations only under the ids of their keys. -/
theorem SkmInvariant.of_change (fresh : List SuperKey) (h : SkmInvariant slotOf ⟨s, n⟩)
    (hn : n ≤ n') (hfresh : ∀ k ∈ fresh, n ≤ k.alloc ∧ k.alloc < n')
    (hentries : ∀ w, EntryWellFormed slotOf w (s'.userEntry w))
    (hheld : ∀ w, ∀ k ∈ (s'.userEntry w).arcs, k ∈ (s.userEntry w).arcs ∨ k ∈ fresh)
    (hindex : ∀ id a, s'.keyIndex.lookup id = some a → s.keyIndex.lookup id = some a ∨
      n ≤ a ∧ a < n' ∧ ∀ k ∈ fresh, k.alloc = a → k.id = .databaseId id) :
    SkmInvariant slotOf ⟨s', n'⟩ where
  entries := hentries
  indexSound id a hid w k hk hka := by
    -- An old allocation is below `n` and a fresh one is not, so neither meets the other.
    rcases hheld w k hk with hk | hk <;> rcases hindex id a hid with hprev | ⟨hna, -, hnew⟩
    · exact h.indexSound id a hprev w k hk hka
    · have : k.alloc < n := h.allocBelow w k hk
      omega
    · have : a < n := h.indexBelow id a hprev
      have := (hfresh k hk).1
      omega
    · exact hnew k hk hka
  indexBelow id a hid := by
    show a < n'
    rcases hindex id a hid with hprev | ⟨-, ha, -⟩
    · have : a < n := h.indexBelow id a hprev
      omega
    · exact ha
  allocBelow w k hk := by
    show k.alloc < n'
    rcases hheld w k hk with hk | hk
    · have : k.alloc < n := h.allocBelow w k hk
      omega
    · exact (hfresh k hk).2

theorem SkmInvariant.mono (h : SkmInvariant slotOf ⟨s, n⟩) (hn : n ≤ n') :
    SkmInvariant slotOf ⟨s, n'⟩ :=
  h.of_change [] hn (by simp) h.entries (fun _ _ hk => .inl hk) (fun _ _ hid => .inl hid)

/-- A call that rewrites one user's entry, keeping no new key alive, and leaves the index. -/
theorem SkmInvariant.of_userEntry {e : UserSuperKeys} (h : SkmInvariant slotOf ⟨s, n⟩)
    (hindex : s'.keyIndex = s.keyIndex) (hu : s'.userEntry u = e)
    (hother : ∀ w, w ≠ u → s'.userEntry w = s.userEntry w) (hwf : EntryWellFormed slotOf u e)
    (hsub : ∀ k ∈ e.arcs, k ∈ (s.userEntry u).arcs) :
    SkmInvariant slotOf ⟨s', n⟩ := by
  refine h.of_change [] le_rfl (by simp) (fun w => ?_) (fun w k hk => .inl ?_)
    (fun id a hid => .inl (hindex ▸ hid))
  · by_cases hw : w = u
    · subst hw
      rw [hu]
      exact hwf
    · rw [hother w hw]
      exact h.entries w
  · by_cases hw : w = u
    · subst hw
      rw [hu] at hk
      exact hsub k hk
    · rwa [hother w hw] at hk

theorem SkmInvariant.init : SkmInvariant slotOf SkmSystem.init where
  entries _ := entryWellFormed_empty
  indexSound _ _ hid := by simp [SkmSystem.init, SkmState.empty] at hid
  indexBelow _ _ hid := by simp [SkmSystem.init, SkmState.empty] at hid
  allocBelow _ k hk := by simp [SkmSystem.init, userEntry_empty, UserSuperKeys.arcs] at hk

theorem SkmInvariant.withUnlocked {aes ecdh : SuperKey} {xA xP : Int64}
    (h : SkmInvariant slotOf ⟨s, n⟩) (hp : FreshUnlock slotOf u n aes ecdh xA xP) :
    SkmInvariant slotOf ⟨s.withUnlocked u aes ecdh xA xP, n + 2⟩ := by
  have hfresh : ∀ k ∈ [aes, ecdh], n ≤ k.alloc ∧ k.alloc < n + 2 := by
    simp only [List.mem_cons, List.not_mem_nil, or_false]
    rintro k (rfl | rfl) <;> simp only [hp.aesAlloc, hp.ecdhAlloc] <;> omega
  refine h.of_change [aes, ecdh] (by omega) hfresh (fun w => ?_) (fun w k hk => ?_)
    (fun id a hid => ?_)
  · rw [userEntry_withUnlocked]
    split
    · subst w
      exact (h.entries u).unlock hp
    · exact h.entries w
  · rw [userEntry_withUnlocked] at hk
    split at hk
    · -- The new entry keeps alive its AfterFirstUnlock key and the fresh pair.
      subst w
      rcases UserSuperKeys.mem_arcs.mp hk with ⟨k₀, hk₀, hk⟩ | ⟨k₀, hk₀, hk⟩ | ⟨k₀, hk₀, hk⟩
      · exact .inl (UserSuperKeys.mem_arcs.mpr (.inl ⟨k₀, hk₀, hk⟩))
      · cases hk₀
        rw [SuperKey.arcs_of_reencryptWith_none hp.aesReencrypt, List.mem_singleton] at hk
        subst hk
        exact .inr (by simp)
      · cases hk₀
        rw [SuperKey.arcs_of_reencryptWith_some hp.ecdhReencrypt,
          SuperKey.arcs_of_reencryptWith_none hp.aesReencrypt] at hk
        exact .inr (by simpa [or_comm] using hk)
    · exact .inl hk
  · -- The index gains the fresh pair, each under its own id.
    have hne : aes.alloc ≠ ecdh.alloc := by rw [hp.aesAlloc, hp.ecdhAlloc]; omega
    rcases lookup_insert_eq_some hid with ⟨rfl, rfl⟩ | ⟨-, hid⟩
    · refine .inr ⟨(hfresh ecdh (by simp)).1, (hfresh ecdh (by simp)).2, ?_⟩
      simp only [List.mem_cons, List.not_mem_nil, or_false]
      rintro k (rfl | rfl) hka
      · exact absurd hka hne
      · exact hp.ecdhId_eq
    · rcases lookup_insert_eq_some hid with ⟨rfl, rfl⟩ | ⟨-, hid⟩
      · refine .inr ⟨(hfresh aes (by simp)).1, (hfresh aes (by simp)).2, ?_⟩
        simp only [List.mem_cons, List.not_mem_nil, or_false]
        rintro k (rfl | rfl) hka
        · exact hp.aesId_eq
        · exact absurd hka.symm hne
      · exact .inl hid

theorem SkmInvariant.of_unlockOutcome {r : SkmState × Except Error Unit}
    (h : SkmInvariant slotOf ⟨s, n⟩) (ho : UnlockOutcome slotOf s u n r) :
    SkmInvariant slotOf ⟨r.1, n + 2⟩ := by
  rcases ho with hr | ⟨-, aes, ecdh, xA, xP, hp, hr⟩
  · rw [hr]
    exact h.mono (by omega)
  · rw [hr]
    exact h.withUnlocked hp

theorem SkmInvariant.lockUnlockedDeviceRequiredKeys (h : SkmInvariant slotOf ⟨s, n⟩)
    (sids : List Int64) (weak : Bool) (setUp : Except Error Unit) :
    SkmInvariant slotOf ⟨s.lockUnlockedDeviceRequiredKeys u sids weak setUp, n⟩ := by
  obtain ⟨b, hb, he⟩ := lockUnlockedDeviceRequiredKeys_userEntry s u sids weak setUp
  have hwf := h.entries u
  -- The biometric copies, old or new, are copies of the user's own keys.
  have hbwf : ∀ b', b = some b' →
      InSlot slotOf u userUnlockedDeviceRequiredSymmetricSuperKey b'.symmetric.id ∧
        InSlot slotOf u userUnlockedDeviceRequiredP521SuperKey b'.privateKey.id := by
    rintro b' rfl
    rcases hb with hb | hb | ⟨aes, ecdh, hsym, hpriv, hb⟩
    · cases hb
    · exact hwf.biometric b' hb.symm
    · cases hb
      exact ⟨(hwf.symmetric aes hsym).1, (hwf.privateKey ecdh hpriv).1⟩
  refine h.of_userEntry rfl he (fun w hw => lockUnlockedDeviceRequiredKeys_userEntry_of_ne hw)
    ?_ (mem_arcs_of_fields rfl (by cases weak <;> simp) (by cases weak <;> simp))
  cases weak
  · exact (hwf.setBiometric hbwf).wipe
  · exact hwf.setBiometric hbwf

theorem SkmInvariant.wipePlaintextUnlockedDeviceRequiredKeys (h : SkmInvariant slotOf ⟨s, n⟩) :
    SkmInvariant slotOf ⟨s.wipePlaintextUnlockedDeviceRequiredKeys u, n⟩ :=
  h.of_userEntry rfl ((s.userEntry_setUserEntry u u _).trans (if_pos rfl))
    (fun w hw => (s.userEntry_setUserEntry u w _).trans (if_neg hw)) (h.entries u).wipe
    (mem_arcs_of_fields rfl (.inr rfl) (.inr rfl))

theorem SkmInvariant.wipeAllUnlockedDeviceRequiredKeys (h : SkmInvariant slotOf ⟨s, n⟩) :
    SkmInvariant slotOf ⟨s.wipeAllUnlockedDeviceRequiredKeys u, n⟩ :=
  h.of_userEntry rfl ((s.userEntry_setUserEntry u u _).trans (if_pos rfl))
    (fun w hw => (s.userEntry_setUserEntry u w _).trans (if_neg hw))
    (h.entries u).wipeAll (mem_arcs_of_fields rfl (.inr rfl) (.inr rfl))

theorem SkmInvariant.forgetAllKeysForUser (h : SkmInvariant slotOf ⟨s, n⟩) :
    SkmInvariant slotOf ⟨s.forgetAllKeysForUser u, n⟩ :=
  h.of_userEntry rfl ((s.userEntry_forgetAllKeysForUser u u).trans (if_pos rfl))
    (fun w hw => (s.userEntry_forgetAllKeysForUser u w).trans (if_neg hw)) entryWellFormed_empty
    (by simp [UserSuperKeys.arcs])

theorem SkmInvariant.installAfterFirstUnlockKey (h : SkmInvariant slotOf ⟨s, n⟩)
    {key : List UInt8} {x : Int64} (hslot : slotOf x = some (u, userAfterFirstUnlockSuperKey)) :
    SkmInvariant slotOf ⟨⟨s.userKeys.insert u { s.userEntry u with
        afterFirstUnlock := some ⟨n, .aes256Gcm, key, .databaseId x, none⟩ },
      s.keyIndex.insert x n⟩, n + 1⟩ := by
  let k : SuperKey := ⟨n, .aes256Gcm, key, .databaseId x, none⟩
  refine h.of_change [k] (by omega) (by simp [k]) (fun w => ?_) (fun w k' hk' => ?_)
    (fun id a hid => ?_)
  · rw [userEntry_insert]
    split
    · subst w
      exact (h.entries u).setAfterFirstUnlock ⟨x, rfl, hslot⟩ rfl
    · exact h.entries w
  · rw [userEntry_insert] at hk'
    split at hk'
    · -- The new entry keeps alive the new key and the UnlockedDeviceRequired keys it had.
      subst w
      rcases UserSuperKeys.mem_arcs.mp hk' with ⟨k₀, hk₀, hk'⟩ | hold
      · cases hk₀
        rw [SuperKey.arcs_of_reencryptWith_none rfl, List.mem_singleton] at hk'
        exact .inr (List.mem_singleton.mpr hk')
      · exact .inl (UserSuperKeys.mem_arcs.mpr (.inr hold))
    · exact .inl hk'
  · rcases lookup_insert_eq_some hid with ⟨rfl, rfl⟩ | ⟨-, hid⟩
    · refine .inr ⟨le_rfl, by omega, ?_⟩
      rintro k' hk' -
      rw [List.mem_singleton.mp hk']
    · exact .inl hid

/-- Every admissible call keeps the invariant, whether it succeeds or fails part-way. -/
theorem SkmInvariant.step {sys : SkmSystem} {op : SkmOp} (h : SkmInvariant slotOf sys)
    (hadm : op.Admissible slotOf) : SkmInvariant slotOf (sys.step op).1 := by
  obtain ⟨s, n⟩ := sys
  cases op with
  | unlock u symR privR =>
    exact h.of_unlockOutcome (unlockUnlockedDeviceRequiredKeys_outcome (h.entries u) hadm)
  | lock u sids weak setUp => exact h.lockUnlockedDeviceRequiredKeys sids weak setUp
  | wipePlaintext u => exact h.wipePlaintextUnlockedDeviceRequiredKeys
  | wipeAll u => exact h.wipeAllUnlockedDeviceRequiredKeys
  | tryUnlockWithBiometric u load decrypt =>
    exact h.of_unlockOutcome (tryUnlockUserWithBiometric_outcome (h.entries u) load decrypt)
  | forgetAllKeys u => exact h.forgetAllKeysForUser
  | installAfterFirstUnlockKey u key id =>
    rw [step_installAfterFirstUnlockKey]
    exact h.installAfterFirstUnlockKey hadm

theorem SkmReachable.invariant {sys : SkmSystem} (h : SkmReachable slotOf sys) :
    SkmInvariant slotOf sys := by
  induction h with
  | init => exact SkmInvariant.init
  | step op _ hadm ih => exact ih.step hadm

end Preservation

section Guarantees

variable {slotOf : Int64 → Option (UserId × SuperKeyType)} {u : UserId}

/-- While a user's UnlockedDeviceRequired keys are locked, `lookup_key` finds no key under their
ids: a key it upgrades is held under its own id, which is the id of that key's own slot. -/
theorem SkmInvariant.lookupKey_eq_none {sys : SkmSystem} (h : SkmInvariant slotOf sys)
    (hlocked : UdrLocked sys.state u) {id : Int64} (hid : UdrSlot slotOf u id) :
    sys.state.lookupKey id = none := by
  cases hk : sys.state.lookupKey id with
  | none => rfl
  | some k =>
    exfalso
    obtain ⟨hindex, w, hw⟩ := sys.state.lookupKey_eq_some hk
    have hkid : k.id = .databaseId id := h.indexSound id k.alloc hindex w k hw rfl
    have hwf := h.entries w
    obtain ⟨hne₁, hne₂, hne₃⟩ := userSuperKeyTypes_ne
    rcases hwf.mem_arcs hw with hf | hf | hf
    · -- An AfterFirstUnlock key has an id of another type.
      have hslot := (hwf.afterFirstUnlock k hf).1.slotOf_eq hkid
      rcases hid with hid | hid <;> rw [hid] at hslot <;>
        simp only [Option.some.injEq, Prod.mk.injEq] at hslot
      · exact hne₁ hslot.2.symm
      · exact hne₂ hslot.2.symm
    · -- A symmetric key held under the id makes its owner the user, whose key is gone.
      have hslot := (hwf.symmetric k hf).1.slotOf_eq hkid
      rcases hid with hid | hid <;> rw [hid] at hslot <;>
        simp only [Option.some.injEq, Prod.mk.injEq] at hslot
      · obtain ⟨rfl, -⟩ := hslot
        rw [hlocked.1] at hf
        cases hf
      · exact hne₃ hslot.2.symm
    · have hslot := (hwf.privateKey k hf).1.slotOf_eq hkid
      rcases hid with hid | hid <;> rw [hid] at hslot <;>
        simp only [Option.some.injEq, Prod.mk.injEq] at hslot
      · exact hne₃ hslot.2
      · obtain ⟨rfl, -⟩ := hslot
        rw [hlocked.2] at hf
        cases hf

theorem SkmOp.Locks.admissible {op : SkmOp} (h : op.Locks u) : op.Admissible slotOf := by
  cases op with
  | unlock | tryUnlockWithBiometric | installAfterFirstUnlockKey => exact h.elim
  | lock | wipePlaintext | wipeAll | forgetAllKeys => trivial

/-- Each locking call leaves the user's UnlockedDeviceRequired fields empty. -/
theorem udrLocked_step_of_locks {sys : SkmSystem} {op : SkmOp} (hlocks : op.Locks u) :
    UdrLocked (sys.step op).1.state u := by
  obtain ⟨s, n⟩ := sys
  cases op with
  | lock v sids weak setUp =>
    obtain ⟨rfl, rfl⟩ := hlocks
    obtain ⟨b, -, he⟩ := lockUnlockedDeviceRequiredKeys_userEntry s v sids false setUp
    simp only [SkmSystem.step, UdrLocked, he]
    exact ⟨rfl, rfl⟩
  | wipePlaintext v =>
    subst hlocks
    simp [SkmSystem.step, UdrLocked, wipePlaintextUnlockedDeviceRequiredKeys,
      userEntry_setUserEntry]
  | wipeAll v =>
    subst hlocks
    simp [SkmSystem.step, UdrLocked, wipeAllUnlockedDeviceRequiredKeys, userEntry_setUserEntry]
  | forgetAllKeys v =>
    subst hlocks
    simp [SkmSystem.step, UdrLocked, userEntry_forgetAllKeysForUser]
  | unlock | tryUnlockWithBiometric | installAfterFirstUnlockKey => exact hlocks.elim

theorem UdrLocked.of_unlockOutcome {s : SkmState} {v : UserId} {n : Nat}
    {r : SkmState × Except Error Unit} (hlocked : UdrLocked s u)
    (ho : UnlockOutcome slotOf s v n r) (hsucc : ¬(v = u ∧ r.2 = .ok ())) : UdrLocked r.1 u := by
  rcases ho with hr | ⟨hok, aes, ecdh, xA, xP, -, hr⟩
  · rw [hr]
    exact hlocked
  · have hv : u ≠ v := fun huv => hsucc ⟨huv.symm, hok⟩
    rw [hr, UdrLocked, userEntry_withUnlocked, if_neg hv]
    exact hlocked

/-- Locked keys stay locked through every admissible call that is not a successful unlock of
the user. -/
theorem SkmInvariant.udrLocked_step {sys : SkmSystem} {op : SkmOp} (h : SkmInvariant slotOf sys)
    (hadm : op.Admissible slotOf) (hlocked : UdrLocked sys.state u)
    (hsucc : ¬(op.Unlocks u ∧ (sys.step op).2 = .ok ())) : UdrLocked (sys.step op).1.state u := by
  by_cases hu : u = op.userId
  · obtain ⟨s, n⟩ := sys
    cases op with
    | unlock v symR privR =>
      exact hlocked.of_unlockOutcome
        (unlockUnlockedDeviceRequiredKeys_outcome (h.entries v) hadm) hsucc
    | tryUnlockWithBiometric v load decrypt =>
      exact hlocked.of_unlockOutcome
        (tryUnlockUserWithBiometric_outcome (h.entries v) load decrypt) hsucc
    | lock v sids weak setUp =>
      -- Whatever the flag, fields that were empty stay empty.
      obtain ⟨b, -, he⟩ := lockUnlockedDeviceRequiredKeys_userEntry s v sids weak setUp
      subst hu
      simp only [SkmSystem.step, UdrLocked, he]
      cases weak
      · exact ⟨rfl, rfl⟩
      · exact hlocked
    | wipePlaintext v | wipeAll v | forgetAllKeys v => exact udrLocked_step_of_locks hu.symm
    | installAfterFirstUnlockKey v key id =>
      subst hu
      rw [step_installAfterFirstUnlockKey, UdrLocked, userEntry_insert, if_pos rfl]
      exact hlocked
  · rw [UdrLocked, step_userEntry_of_ne (h.entries op.userId) hadm hu]
    exact hlocked

variable (slotOf) in
/-- What the claim asks of the UnlockedDeviceRequired keys in a state: the two are present
together, and after a call that locks a user's keys, along every run without a successful
unlock of that user, `lookup_key` finds neither of them. -/
structure UdrGuarantees (sys : SkmSystem) : Prop where
  together : ∀ u, (sys.state.userEntry u).unlockedDeviceRequiredSymmetric.isSome =
    (sys.state.userEntry u).unlockedDeviceRequiredPrivate.isSome
  lockedUntilUnlock : ∀ op u, op.Locks u → ∀ sys', RunWithoutUnlock slotOf u (sys.step op).1 sys' →
    ∀ id, UdrSlot slotOf u id → sys'.state.lookupKey id = none

end Guarantees

end Keystore2.SuperKeyManager
