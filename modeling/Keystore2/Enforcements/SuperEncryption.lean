import Keystore2.KeyParameter
import Keystore2.Permission
import Keystore2.SuperKey
import Keystore2.Lib.Scan

/-! `Enforcements::super_encryption_required`: which super key protects a new key blob.  Each key
parameter proposes a candidate with a priority, and the pass keeps a candidate only when its
priority is strictly higher than the one kept, so the result is the candidate of the first
parameter of the highest priority.  `chosenProtection` states the rule as a cascade over the
whole parameter list, and `superEncryptionRequired_eq_chosenProtection` shows that the pass
computes it. -/

namespace Keystore2.Enforcements

open KeyParameter Scan
open SuperKeyManager (SuperEncryptionType)

/-- `KEY_FLAG_AUTH_BOUND_WITHOUT_CRYPTOGRAPHIC_LSKF_BINDING` of the AIDL `KeyFlag`. -/
def keyFlagAuthBoundWithoutCryptographicLskfBinding : Int32 := 0x1

/-- The `Candidate` of the pass: an answer and its priority, a `u32` of at most `3`. -/
structure Candidate where
  priority : Nat
  encType : SuperEncryptionType

/-- The `match` in the body of the pass: the candidate a key parameter proposes. -/
def candidate (domain : Domain) : KeyParameterValue → Candidate
  | .maxBootLevel level => ⟨3, .bootLevel level⟩
  | .unlockedDeviceRequired => if domain = .app then ⟨2, .unlockedDeviceRequired⟩ else ⟨0, .none⟩
  | .userSecureID _ => if domain = .app then ⟨1, .afterFirstUnlock⟩ else ⟨0, .none⟩
  | _ => ⟨0, .none⟩

def superEncryptionRequired (domain : Domain) (keyParameters : List KeyParameterValue)
    (flags : Option Int32) : SuperEncryptionType :=
  if flags.any (fun flags => flags &&& keyFlagAuthBoundWithoutCryptographicLskfBinding != 0) then
    .none
  else
    let result := keyParameters.foldl (fun result kp =>
      let t := candidate domain kp
      if t.priority > result.priority then t else result) ⟨0, .none⟩
    result.encType

/-- The rule of `super_encryption_required` as a cascade: nothing for a key that is bound to
authentication without the LSKF, else the boot level key of the first `MAX_BOOT_LEVEL`, else
for an app key the UnlockedDeviceRequired scheme or the AfterFirstUnlock key, as the key has
`UNLOCKED_DEVICE_REQUIRED` or a `USER_SECURE_ID`. -/
def chosenProtection (domain : Domain) (ps : List KeyParameterValue) (flags : Option Int32) :
    SuperEncryptionType :=
  if flags.any (fun flags => flags &&& keyFlagAuthBoundWithoutCryptographicLskfBinding != 0) then
    .none
  else
    match ps.findSome? (·.maxBootLevel?) with
    | some level => .bootLevel level
    | none =>
      if domain = .app ∧ .unlockedDeviceRequired ∈ ps then .unlockedDeviceRequired
      else if domain = .app ∧ ps.any (·.userSecureID?.isSome) then .afterFirstUnlock
      else .none

section Candidate

variable {domain : Domain} {kp : KeyParameterValue}

/-- Every candidate is one of the four arms of the `match`. -/
theorem candidate_cases (domain : Domain) (kp : KeyParameterValue) :
    (∃ level, kp = .maxBootLevel level ∧ candidate domain kp = ⟨3, .bootLevel level⟩) ∨
      (kp = .unlockedDeviceRequired ∧ domain = .app ∧
        candidate domain kp = ⟨2, .unlockedDeviceRequired⟩) ∨
      (∃ sid, kp = .userSecureID sid ∧ domain = .app ∧
        candidate domain kp = ⟨1, .afterFirstUnlock⟩) ∨
      (candidate domain kp).priority = 0 := by
  -- by the parameter, not by unfolding the `match`: its catch-all arm has one equation per
  -- other constructor
  cases kp with
  | maxBootLevel level => exact .inl ⟨level, rfl, rfl⟩
  | unlockedDeviceRequired =>
    by_cases hd : domain = .app
    · exact .inr (.inl ⟨rfl, hd, if_pos hd⟩)
    · exact .inr (.inr (.inr (congrArg Candidate.priority (if_neg hd))))
  | userSecureID sid =>
    by_cases hd : domain = .app
    · exact .inr (.inr (.inl ⟨sid, rfl, hd, if_pos hd⟩))
    · exact .inr (.inr (.inr (congrArg Candidate.priority (if_neg hd))))
  | _ => exact .inr (.inr (.inr rfl))

theorem maxBootLevel_eq_none_of_priority_lt (h : (candidate domain kp).priority < 3) :
    kp.maxBootLevel? = none := by
  cases hl : kp.maxBootLevel? with
  | none => rfl
  | some level =>
    rw [KeyParameterValue.maxBootLevel_eq_some_iff.mp hl] at h
    exact absurd h (Nat.lt_irrefl 3)

/-- Parameters that all propose less than a boot level have no `MAX_BOOT_LEVEL`. -/
theorem findSome_maxBootLevel_eq_none {ps : List KeyParameterValue}
    (h : ∀ y ∈ ps, (candidate domain y).priority < 3) : ps.findSome? (·.maxBootLevel?) = none :=
  List.findSome?_eq_none_iff.mpr fun y hy => maxBootLevel_eq_none_of_priority_lt (h y hy)

theorem not_unlockedDeviceRequired_of_priority_lt (happ : domain = .app)
    (h : (candidate domain kp).priority < 2) : kp ≠ .unlockedDeviceRequired := by
  rintro rfl
  subst happ
  exact absurd h (Nat.lt_irrefl 2)

theorem userSecureID_eq_none_of_priority_lt (happ : domain = .app)
    (h : (candidate domain kp).priority < 1) : kp.userSecureID? = none := by
  cases hs : kp.userSecureID? with
  | none => rfl
  | some sid =>
    rw [KeyParameterValue.userSecureID_eq_some_iff.mp hs] at h
    subst happ
    exact absurd h (Nat.lt_irrefl 1)

end Candidate

/-- The pass of `super_encryption_required` is the cascade of `chosenProtection`: the first
candidate of the highest priority is the first `MAX_BOOT_LEVEL`, and otherwise the priority
decides between the app-only answers. -/
theorem superEncryptionRequired_eq_chosenProtection (domain : Domain)
    (ps : List KeyParameterValue) (flags : Option Int32) :
    superEncryptionRequired domain ps flags = chosenProtection domain ps flags := by
  unfold superEncryptionRequired chosenProtection
  split
  · rfl
  · change (ps.foldl (keepHigher Candidate.priority (candidate domain)) ⟨0, .none⟩).encType = _
    -- Every parameter's priority is at most that of the kept candidate.
    have hge := (foldl_keepHigher_ge Candidate.priority (candidate domain) ps ⟨0, .none⟩).2
    rcases foldl_keepHigher Candidate.priority (candidate domain) ps ⟨0, .none⟩ with
      ⟨hr, -⟩ | ⟨l₁, kp, l₂, hps, hr, hpos, h₁, -⟩
    · -- No parameter proposes anything.
      rw [hr] at hge ⊢
      rw [findSome_maxBootLevel_eq_none fun y hy => Nat.lt_of_le_of_lt (hge y hy) (by decide)]
      by_cases happ : domain = .app
      · have hudr : .unlockedDeviceRequired ∉ ps := fun hmem =>
          not_unlockedDeviceRequired_of_priority_lt happ
            (Nat.lt_of_le_of_lt (hge _ hmem) (by decide)) rfl
        have hsid : ps.any (·.userSecureID?.isSome) = false := by
          rw [List.any_eq_false]
          intro y hy
          rw [userSecureID_eq_none_of_priority_lt happ (Nat.lt_of_le_of_lt (hge y hy) (by decide))]
          simp
        simp [happ, hudr, hsid]
      · simp [happ]
    · -- The kept candidate is that of `kp`, which beats every parameter before it.
      rw [hr] at hge ⊢
      have hkp : kp ∈ ps := hps ▸ List.mem_append_right _ List.mem_cons_self
      rcases candidate_cases domain kp with
        ⟨level, rfl, hc⟩ | ⟨rfl, happ, hc⟩ | ⟨sid, rfl, happ, hc⟩ | h0
      · -- The first `MAX_BOOT_LEVEL`: no parameter before it has one.
        have hnone : l₁.findSome? (·.maxBootLevel?) = none :=
          findSome_maxBootLevel_eq_none fun y hy => hc ▸ h₁ y hy
        rw [hc, hps, List.findSome?_append, hnone, Option.none_or]
        rfl
      · -- `UNLOCKED_DEVICE_REQUIRED`: no parameter has a `MAX_BOOT_LEVEL`.
        rw [hc] at hge
        rw [hc, findSome_maxBootLevel_eq_none fun y hy => Nat.lt_of_le_of_lt (hge y hy) (by decide)]
        simp only [happ, hkp, and_self, if_true]
      · -- A `USER_SECURE_ID`: no parameter has a `MAX_BOOT_LEVEL` or `UNLOCKED_DEVICE_REQUIRED`.
        rw [hc] at hge
        have hudr : .unlockedDeviceRequired ∉ ps := fun hmem =>
          not_unlockedDeviceRequired_of_priority_lt happ
            (Nat.lt_of_le_of_lt (hge _ hmem) (by decide)) rfl
        have hsid : ps.any (·.userSecureID?.isSome) = true :=
          List.any_eq_true.mpr ⟨.userSecureID sid, hkp, rfl⟩
        rw [hc, findSome_maxBootLevel_eq_none fun y hy => Nat.lt_of_le_of_lt (hge y hy) (by decide)]
        simp only [hudr, hsid, happ, and_false, if_false, and_self, if_true]
      · exact absurd hpos (by rw [h0]; exact Nat.lt_irrefl 0)

end Keystore2.Enforcements
