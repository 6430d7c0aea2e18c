import Keystore2.SuperKey.Locking
import Keystore2.Lib.Transition

/-! The algorithms of the super keys that `SuperKeyManager` holds, and what each re-encrypts
with.  The AfterFirstUnlock key and the UnlockedDeviceRequired symmetric key are AES keys that
re-encrypt with nothing; the UnlockedDeviceRequired private key is an ECDH key that re-encrypts
with an AES key; and the biometric copies are of an AES and an ECDH key.  Every call keeps this,
whatever the database and KeyMint answer, so it holds in every state a run of calls reaches:
`unwrap_key_if_required` relies on it to decide the key a blob is re-encrypted with. -/

namespace Keystore2.SuperKeyManager

open SkmState

/-- An AES key that re-encrypts with nothing. -/
def SuperKey.IsAes (k : SuperKey) : Prop :=
  k.algorithm = .aes256Gcm ∧ k.reencryptWith = none

/-- An ECDH key that re-encrypts with an AES key. -/
def SuperKey.IsEcdh (k : SuperKey) : Prop :=
  k.algorithm = .ecdhP521 ∧ ∃ a, k.reencryptWith = some a ∧ a.IsAes

/-- The shape of an entry's keys. -/
structure UserSuperKeys.Shaped (e : UserSuperKeys) : Prop where
  afterFirstUnlock : ∀ k, e.afterFirstUnlock = some k → k.IsAes
  symmetric : ∀ k, e.unlockedDeviceRequiredSymmetric = some k → k.IsAes
  privateKey : ∀ k, e.unlockedDeviceRequiredPrivate = some k → k.IsEcdh
  biometric : ∀ b, e.biometricUnlock = some b →
    b.symmetric.algorithm = .aes256Gcm ∧ b.privateKey.algorithm = .ecdhP521

def SkmState.Shaped (s : SkmState) : Prop := ∀ u, (s.userEntry u).Shaped

/-- The states of the manager that some run of calls leads to. -/
def SkmSystem.Reachable : SkmSystem → Prop :=
  Lib.Reachable SkmSystem.init fun sys op => some (sys.step op).1

section Keys

variable {k : SuperKey}

theorem SuperKey.arcs_of_isAes (h : k.IsAes) : k.arcs = [k] :=
  SuperKey.arcs_of_reencryptWith_none h.2

/-- A key an AES or ECDH key keeps alive is itself an AES or ECDH key. -/
theorem SuperKey.isAes_or_isEcdh_of_mem_arcs (h : k.IsAes ∨ k.IsEcdh) {k' : SuperKey}
    (hk : k' ∈ k.arcs) : k'.IsAes ∨ k'.IsEcdh := by
  rcases h with ha | ⟨he, a, hr, ha⟩
  · rw [SuperKey.arcs_of_isAes ha, List.mem_singleton] at hk
    exact hk ▸ .inl ha
  · rw [SuperKey.arcs_of_reencryptWith_some hr, SuperKey.arcs_of_isAes ha] at hk
    simp only [List.mem_cons, List.not_mem_nil, or_false] at hk
    rcases hk with rfl | rfl
    · exact .inr ⟨he, a, hr, ha⟩
    · exact .inl ha

/-- Of the two shapes, the algorithm tells which a key has. -/
theorem SuperKey.isAes_of_algorithm (h : k.IsAes ∨ k.IsEcdh) (halg : k.algorithm = .aes256Gcm) :
    k.IsAes :=
  h.resolve_right fun he => by
    rw [he.1] at halg
    cases halg

theorem SuperKey.isEcdh_of_algorithm (h : k.IsAes ∨ k.IsEcdh) (halg : k.algorithm = .ecdhP521) :
    k.IsEcdh :=
  h.resolve_left fun ha => by
    rw [ha.1] at halg
    cases halg

end Keys

namespace UserSuperKeys.Shaped

variable {e : UserSuperKeys}

theorem empty : UserSuperKeys.Shaped {} where
  afterFirstUnlock := by simp
  symmetric := by simp
  privateKey := by simp
  biometric := by simp

/-- Every key a shaped entry holds or keeps alive is an AES or an ECDH key. -/
theorem mem_arcs (h : e.Shaped) {k : SuperKey} (hk : k ∈ e.arcs) : k.IsAes ∨ k.IsEcdh := by
  rcases UserSuperKeys.mem_arcs.mp hk with ⟨k₀, h₀, hk⟩ | ⟨k₀, h₀, hk⟩ | ⟨k₀, h₀, hk⟩
  · exact SuperKey.isAes_or_isEcdh_of_mem_arcs (.inl (h.afterFirstUnlock k₀ h₀)) hk
  · exact SuperKey.isAes_or_isEcdh_of_mem_arcs (.inl (h.symmetric k₀ h₀)) hk
  · exact SuperKey.isAes_or_isEcdh_of_mem_arcs (.inr (h.privateKey k₀ h₀)) hk

/-- Installing a pair of UnlockedDeviceRequired keys of the right shapes keeps an entry
shaped. -/
theorem withUnlocked (h : e.Shaped) {aes ecdh : SuperKey} (ha : aes.IsAes) (he : ecdh.IsEcdh) :
    UserSuperKeys.Shaped { e with
      unlockedDeviceRequiredSymmetric := some aes
      unlockedDeviceRequiredPrivate := some ecdh } where
  afterFirstUnlock := h.afterFirstUnlock
  symmetric := by
    rintro k ⟨⟩
    exact ha
  privateKey := by
    rintro k ⟨⟩
    exact he
  biometric := h.biometric

end UserSuperKeys.Shaped

section Calls

variable {s : SkmState} {u : UserId}

theorem SkmState.Shaped.setUserEntry (h : s.Shaped) {e : UserSuperKeys} (he : e.Shaped) :
    (s.setUserEntry u e).Shaped := by
  intro w
  rw [userEntry_setUserEntry]
  split
  · exact he
  · exact h w

/-- `add_key_to_key_index` writes the index only. -/
theorem addKeyToKeyIndex_userEntry {k : SuperKey} {s' : SkmState}
    (h : s.addKeyToKeyIndex k = .ok s') (w : UserId) : s'.userEntry w = s.userEntry w := by
  unfold addKeyToKeyIndex at h
  split at h
  · cases h
    rfl
  · cases h

theorem SkmState.Shaped.addKeyToKeyIndex (h : s.Shaped) {k : SuperKey} {s' : SkmState}
    (hs : s.addKeyToKeyIndex k = .ok s') : s'.Shaped := by
  intro w
  rw [addKeyToKeyIndex_userEntry hs]
  exact h w

/-- A key that `lookup_key` upgrades in a shaped state is an AES or an ECDH key. -/
theorem SkmState.Shaped.lookupKey (h : s.Shaped) {id : Int64} {k : SuperKey}
    (hk : s.lookupKey id = some k) : k.IsAes ∨ k.IsEcdh := by
  obtain ⟨-, w, hw⟩ := s.lookupKey_eq_some hk
  exact (h w).mem_arcs hw

theorem getOrCreateSuperKey_eq_ok {alloc : Nat} {keyType : SuperKeyType}
    {result : Except Error (List UInt8 × Int64)} {reencryptWith : Option SuperKey} {k : SuperKey}
    (h : getOrCreateSuperKey alloc keyType result reencryptWith = .ok k) :
    k.algorithm = keyType.algorithm ∧ k.reencryptWith = reencryptWith := by
  unfold getOrCreateSuperKey at h
  cases result with
  | error => cases h
  | ok p =>
    cases h
    exact ⟨rfl, rfl⟩

theorem unlockUnlockedDeviceRequiredKeys_shaped (h : s.Shaped)
    (symmetricResult privateResult : Except Error (List UInt8 × Int64)) (aesAlloc ecdhAlloc : Nat) :
    (s.unlockUnlockedDeviceRequiredKeys u symmetricResult privateResult aesAlloc ecdhAlloc).1.Shaped := by
  have he := h u
  unfold unlockUnlockedDeviceRequiredKeys
  dsimp only
  split
  · exact h
  · -- The symmetric key: the one the entry has, or a new AES key.
    split
    · exact h
    · rename_i aes haes
      have ha : aes.IsAes := by
        split at haes
        · cases haes
          exact he.symmetric _ ‹_›
        · exact getOrCreateSuperKey_eq_ok haes
      -- The private key: the one the entry has, or a new ECDH key re-encrypting with `aes`.
      split
      · exact h
      · rename_i ecdh hecdh
        have hE : ecdh.IsEcdh := by
          split at hecdh
          · cases hecdh
            exact he.privateKey _ ‹_›
          · obtain ⟨halg, hr⟩ := getOrCreateSuperKey_eq_ok hecdh
            exact ⟨halg, aes, hr, ha⟩
        split
        · exact h
        · rename_i s₁ hs₁
          split
          · exact h.addKeyToKeyIndex hs₁
          · rename_i s₂ hs₂
            have h₂ := (h.addKeyToKeyIndex hs₁).addKeyToKeyIndex hs₂
            exact h₂.setUserEntry ((h₂ u).withUnlocked ha hE)

theorem lockUnlockedDeviceRequiredKeys_shaped (h : s.Shaped) (unlockingSids : List Int64)
    (weakUnlockEnabled : Bool) (setUp : Except Error Unit) :
    (s.lockUnlockedDeviceRequiredKeys u unlockingSids weakUnlockEnabled setUp).Shaped := by
  intro w
  by_cases hw : w = u
  · subst hw
    have he := h w
    obtain ⟨b, hb, heq⟩ := lockUnlockedDeviceRequiredKeys_userEntry s w unlockingSids
      weakUnlockEnabled setUp
    rw [heq]
    refine ⟨he.afterFirstUnlock, ?_, ?_, ?_⟩
    · cases weakUnlockEnabled
      · simp
      · simpa using he.symmetric
    · cases weakUnlockEnabled
      · simp
      · simpa using he.privateKey
    · -- The biometric copies are dropped, kept, or made from the keys of the entry.
      rcases hb with rfl | rfl | ⟨aes, ecdh, hsym, hpriv, rfl⟩
      · simp
      · exact he.biometric
      · rintro b ⟨⟩
        exact ⟨(he.symmetric aes hsym).1, (he.privateKey ecdh hpriv).1⟩
  · rw [lockUnlockedDeviceRequiredKeys_userEntry_of_ne hw]
    exact h w

theorem wipePlaintextUnlockedDeviceRequiredKeys_shaped (h : s.Shaped) :
    (s.wipePlaintextUnlockedDeviceRequiredKeys u).Shaped :=
  h.setUserEntry ⟨(h u).afterFirstUnlock, by simp, by simp, (h u).biometric⟩

theorem wipeAllUnlockedDeviceRequiredKeys_shaped (h : s.Shaped) :
    (s.wipeAllUnlockedDeviceRequiredKeys u).Shaped :=
  h.setUserEntry ⟨(h u).afterFirstUnlock, by simp, by simp, by simp⟩

theorem forgetAllKeysForUser_shaped (h : s.Shaped) : (s.forgetAllKeysForUser u).Shaped := by
  intro w
  rw [userEntry_forgetAllKeysForUser]
  split
  · exact .empty
  · exact h w

theorem installAfterFirstUnlockKeyForUser_shaped (h : s.Shaped) {k : SuperKey} (hk : k.IsAes)
    {s' : SkmState} (hs : s.installAfterFirstUnlockKeyForUser u k = .ok s') : s'.Shaped := by
  unfold installAfterFirstUnlockKeyForUser at hs
  cases h₁ : s.addKeyToKeyIndex k with
  | error e =>
    rw [h₁] at hs
    cases hs
  | ok s₁ =>
    rw [h₁] at hs
    cases hs
    have he := h.addKeyToKeyIndex h₁ u
    refine (h.addKeyToKeyIndex h₁).setUserEntry ⟨?_, he.symmetric, he.privateKey, he.biometric⟩
    rintro k' ⟨⟩
    exact hk

theorem LockedKey.decrypt_eq_ok {lk : LockedKey} {result : Except Error (List UInt8)}
    {alloc : Nat} {reencryptWith : Option SuperKey} {k : SuperKey}
    (h : lk.decrypt result alloc reencryptWith = .ok k) :
    k.algorithm = lk.algorithm ∧ k.reencryptWith = reencryptWith := by
  unfold LockedKey.decrypt at h
  cases result with
  | error => cases h
  | ok key =>
    cases h
    exact ⟨rfl, rfl⟩

/-- The loop over the sids installs the decrypted biometric copies, which have the algorithms
the copies were made with. -/
theorem tryUnlockSids_shaped (h : s.Shaped) {entry : UserSuperKeys} (hentry : entry.Shaped)
    {b : BiometricUnlock}
    (hb : b.symmetric.algorithm = .aes256Gcm ∧ b.privateKey.algorithm = .ecdhP521)
    (decrypt : Int64 → Option (LockedKey → Except Error (List UInt8)))
    (symmetricAlloc privateAlloc : Nat) (sids : List Int64) :
    (s.tryUnlockSids u entry b decrypt symmetricAlloc privateAlloc sids).1.Shaped := by
  induction sids with
  | nil => exact h
  | cons sid sids ih =>
    unfold tryUnlockSids
    split
    · exact ih
    · rename_i decryptWith _
      dsimp only
      split
      · rename_i symmetric privateKey hkeys
        cases h₁ : b.symmetric.decrypt (decryptWith b.symmetric) symmetricAlloc none with
        | error e =>
          rw [h₁] at hkeys
          cases hkeys
        | ok k₁ =>
          rw [h₁] at hkeys
          simp only [bind, Except.bind] at hkeys
          cases h₂ : b.privateKey.decrypt (decryptWith b.privateKey) privateAlloc (some k₁) with
          | error e =>
            rw [h₂] at hkeys
            cases hkeys
          | ok k₂ =>
            rw [h₂] at hkeys
            cases hkeys
            obtain ⟨halg₁, hr₁⟩ := LockedKey.decrypt_eq_ok h₁
            obtain ⟨halg₂, hr₂⟩ := LockedKey.decrypt_eq_ok h₂
            have ha : symmetric.IsAes := ⟨halg₁.trans hb.1, hr₁⟩
            have hs₀ := h.setUserEntry (u := u) (hentry.withUnlocked ha ⟨halg₂.trans hb.2, _, hr₂, ha⟩)
            split
            · exact hs₀
            · rename_i s₁ hs₁
              split
              · exact hs₀.addKeyToKeyIndex hs₁
              · rename_i s₂ hs₂
                exact (hs₀.addKeyToKeyIndex hs₁).addKeyToKeyIndex hs₂
      · exact ih

theorem tryUnlockUserWithBiometric_shaped (h : s.Shaped) (load : Except Error Unit)
    (decrypt : Int64 → Option (LockedKey → Except Error (List UInt8)))
    (symmetricAlloc privateAlloc : Nat) :
    (s.tryUnlockUserWithBiometric u load decrypt symmetricAlloc privateAlloc).1.Shaped := by
  unfold tryUnlockUserWithBiometric
  dsimp only
  split
  · exact h
  · split
    · exact h
    · rename_i b hb
      split
      · exact h
      · exact tryUnlockSids_shaped h (h u) ((h u).biometric b hb) decrypt _ _ _

end Calls

/-- Every call keeps the shape of the keys. -/
theorem SkmSystem.step_shaped {sys : SkmSystem} (h : sys.state.Shaped) (op : SkmOp) :
    (sys.step op).1.state.Shaped := by
  cases op with
  | unlock u symmetric privateKey => exact unlockUnlockedDeviceRequiredKeys_shaped h _ _ _ _
  | lock u sids weak setUp => exact lockUnlockedDeviceRequiredKeys_shaped h sids weak setUp
  | wipePlaintext u => exact wipePlaintextUnlockedDeviceRequiredKeys_shaped h
  | wipeAll u => exact wipeAllUnlockedDeviceRequiredKeys_shaped h
  | tryUnlockWithBiometric u load decrypt => exact tryUnlockUserWithBiometric_shaped h load decrypt _ _
  | forgetAllKeys u => exact forgetAllKeysForUser_shaped h
  | installAfterFirstUnlockKey u key id =>
    simp only [SkmSystem.step]
    split
    · rename_i s' hs
      exact installAfterFirstUnlockKeyForUser_shaped h ⟨rfl, rfl⟩ hs
    · exact h

theorem SkmSystem.Reachable.shaped {sys : SkmSystem} (h : sys.Reachable) : sys.state.Shaped :=
  @Lib.Reachable.invariant _ _ SkmSystem.init _ (fun sys => sys.state.Shaped)
    (fun _ => .empty) (fun sys op sys' hs hstep => by
      cases hstep
      exact SkmSystem.step_shaped hs op) sys h

end Keystore2.SuperKeyManager
