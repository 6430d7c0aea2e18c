import Keystore2.Identity.Credential
import Keystore2.Lib.Transition

/-! The credential's file over a run of calls.  Every call loads the file, and the calls that
change the keys save it back; what a call writes is read back by the next one as it was written
(`loadFromDisk_saveToDisk`).  So once the service has written a file that passes loadFromDisk's
checks, every call that does not crash leaves such a file, and the file loads after any run of
calls.  The crashes themselves are `credential_calls_crash`. -/

namespace Keystore2.Identity

namespace Credential

/-- The calls of ICredential on the authentication keys, with the HAL's and the clock's answers. -/
inductive Call
  | setAvailableAuthenticationKeys (keyCount maxUsesPerKey : Int32) (minValidTimeMillis : Int64)
  | getAuthKeysNeedingCertification (generateSigningKeyPair : Nat → Option (Bytes × Bytes))
      (now : Int64)
  | storeStaticAuthenticationDataWithExpiration (authenticationKey : Bytes)
      (expirationDateMillisSinceEpoch : Int64) (staticAuthData : Bytes)
  | storeStaticAuthenticationData (authenticationKey staticAuthData : Bytes)
  | selectAuthKey (authChallenge : Option Int64)
      (allowUsingExhaustedKeys allowUsingExpiredKeys incrementUsageCount : Bool) (now : Int64)

/-- The credential and the files after one call, whatever status it returns; none when the
service crashes. -/
def step (C : Cbor.Codec) : Credential × Files → Call → Option (Credential × Files)
  | (cred, files), .setAvailableAuthenticationKeys keyCount maxUsesPerKey minValidTimeMillis =>
    (cred.setAvailableAuthenticationKeys C keyCount maxUsesPerKey minValidTimeMillis files).map
      fun r => (cred, r.2)
  | (cred, files), .getAuthKeysNeedingCertification generateSigningKeyPair now =>
    (cred.getAuthKeysNeedingCertification C generateSigningKeyPair now files).map
      fun r => (cred, r.2)
  | (cred, files), .storeStaticAuthenticationDataWithExpiration authenticationKey
      expirationDateMillisSinceEpoch staticAuthData =>
    (cred.storeStaticAuthenticationDataWithExpiration C authenticationKey
      expirationDateMillisSinceEpoch staticAuthData files).map fun r => (cred, r.2)
  | (cred, files), .storeStaticAuthenticationData authenticationKey staticAuthData =>
    (cred.storeStaticAuthenticationData C authenticationKey staticAuthData files).map
      fun r => (cred, r.2)
  | (cred, files), .selectAuthKey authChallenge allowUsingExhaustedKeys allowUsingExpiredKeys
      incrementUsageCount now =>
    (cred.selectAuthKey C authChallenge allowUsingExhaustedKeys allowUsingExpiredKeys
      incrementUsageCount now files).map fun r => (r.2, files)

/-- The credentials and files that the calls reach from `init`. -/
def Reachable (C : Cbor.Codec) (init : Credential × Files) : Credential × Files → Prop :=
  Lib.Reachable init (step C)

/-- The credential's file holds the state `s` as saveToDisk writes it, and `s` passes the checks
of loadFromDisk. -/
structure Saved (C : Cbor.Codec) (cred : Credential) (files : Files) (s : CredentialData) :
    Prop where
  fileName : s.fileName = cred.data.fileName
  stored : files s.fileName = some (C.encode s.toItem)
  credentialData : s.credentialData ≠ []
  attestationCertificate : s.attestationCertificate ≠ []
  keyCount : s.keyCount.toInt = s.authKeyDatas.length

section Saved

variable {C : Cbor.Codec} {cred : Credential} {files : Files} {s : CredentialData}

/-- The file saveToDisk writes for a state that passes loadFromDisk's checks, as
WritableCredential's personalize does at the end. -/
theorem saved_saveToDisk (hname : s.fileName = cred.data.fileName) (hcd : s.credentialData ≠ [])
    (hac : s.attestationCertificate ≠ []) (hkc : s.keyCount.toInt = s.authKeyDatas.length) :
    Saved C cred (s.saveToDisk C files) s :=
  ⟨hname, if_pos rfl, hcd, hac, hkc⟩

/-- Writing the state a file already holds changes nothing. -/
theorem Saved.saveToDisk_eq (h : Saved C cred files s) : s.saveToDisk C files = files := by
  funext name
  by_cases hn : name = s.fileName
  · subst hn
    exact (if_pos rfl).trans h.stored.symm
  · exact if_neg hn

theorem Saved.load (h : Saved C cred files s) : cred.data.loadFromDisk C files = .ok s := by
  rw [← h.saveToDisk_eq]
  exact CredentialData.loadFromDisk_saveToDisk C files s cred.dataPath cred.callingUid
    cred.credentialName h.fileName h.credentialData h.attestationCertificate h.keyCount

/-- Every call first loads the file, which holds `s`. -/
theorem Saved.withLoadedData {α σ : Type} {x : σ}
    {update : CredentialData → Option (Status α × σ)} (h : Saved C cred files s) :
    withLoadedData C files cred x update =
      if cred.inSession then some (.error sessionError, x) else update s := by
  rw [Credential.withLoadedData, h.load]

/-- A state that keeps the file name and the two blobs, and counts its records, is saved by
saveToDisk. -/
theorem Saved.save (h : Saved C cred files s) {s' : CredentialData}
    (hname : s'.fileName = s.fileName) (hcd : s'.credentialData = s.credentialData)
    (hac : s'.attestationCertificate = s.attestationCertificate)
    (hkc : s'.keyCount.toInt = s'.authKeyDatas.length) :
    Saved C cred (s'.saveToDisk C files) s' :=
  saved_saveToDisk (hname.trans h.fileName) (hcd ▸ h.credentialData)
    (hac ▸ h.attestationCertificate) hkc

/-- The same records, rewritten one for one, are saved with the same count. -/
theorem Saved.save_records (h : Saved C cred files s) {datas : List AuthKeyData}
    (hlen : datas.length = s.authKeyDatas.length) :
    Saved C cred (CredentialData.saveToDisk C files { s with authKeyDatas := datas })
      { s with authKeyDatas := datas } :=
  h.save rfl rfl rfl (hlen ▸ h.keyCount)

theorem Saved.of_data_eq (h : Saved C cred files s) {cred' : Credential}
    (hd : cred'.data = cred.data) : Saved C cred' files s :=
  { h with fileName := hd ▸ h.fileName }

end Saved

/-! ### Each call keeps a saved file -/

section Calls

variable {C : Cbor.Codec} {cred : Credential} {files files' : Files} {s : CredentialData}

theorem Saved.setAvailableAuthenticationKeys (h : Saved C cred files s)
    {keyCount maxUsesPerKey : Int32} {minValidTimeMillis : Int64} {r : Status Unit}
    (hc : cred.setAvailableAuthenticationKeys C keyCount maxUsesPerKey minValidTimeMillis files =
      some (r, files')) :
    ∃ s', Saved C cred files' s' := by
  rw [Credential.setAvailableAuthenticationKeys, h.withLoadedData] at hc
  split at hc
  · cases hc
    exact ⟨s, h⟩
  · obtain ⟨s', hs', hsave⟩ := Option.bind_eq_some_iff.mp hc
    cases hsave
    obtain ⟨hk, rfl⟩ := CredentialData.setAvailableAuthenticationKeys_eq_some hs'
    -- the records are resized to the count, which is not negative
    refine ⟨_, h.save rfl rfl rfl ?_⟩
    show keyCount.toInt = ((CredentialData.resize s.authKeyDatas keyCount.toInt.toNat).length : Int)
    rw [CredentialData.length_resize]
    omega

theorem Saved.getAuthKeysNeedingCertification (h : Saved C cred files s)
    {generateSigningKeyPair : Nat → Option (Bytes × Bytes)} {now : Int64}
    {r : Status (List Bytes)}
    (hc : cred.getAuthKeysNeedingCertification C generateSigningKeyPair now files =
      some (r, files')) :
    ∃ s', Saved C cred files' s' := by
  rw [Credential.getAuthKeysNeedingCertification, h.withLoadedData] at hc
  split at hc
  · cases hc
    exact ⟨s, h⟩
  · split at hc
    · rename_i hget
      cases hc
      obtain ⟨datas, hlen, rfl⟩ := CredentialData.getAuthKeysNeedingCertification_eq_ok hget
      exact ⟨_, h.save_records hlen⟩
    · cases hc
      exact ⟨s, h⟩
    · cases hc

theorem Saved.storeStaticAuthenticationDataWithExpiration (h : Saved C cred files s)
    {authenticationKey staticAuthData : Bytes} {expirationDateMillisSinceEpoch : Int64}
    {r : Status Unit}
    (hc : cred.storeStaticAuthenticationDataWithExpiration C authenticationKey
      expirationDateMillisSinceEpoch staticAuthData files = some (r, files')) :
    ∃ s', Saved C cred files' s' := by
  rw [Credential.storeStaticAuthenticationDataWithExpiration, h.withLoadedData] at hc
  split at hc
  · cases hc
    exact ⟨s, h⟩
  · split at hc
    · rename_i hstore
      cases hc
      obtain ⟨datas, hlen, rfl⟩ := CredentialData.storeStaticAuthenticationData_eq_true hstore
      exact ⟨_, h.save_records hlen⟩
    · cases hc
      exact ⟨s, h⟩

theorem ensureChallenge_data {authChallenge : Option Int64} {cred' : Credential}
    (h : ensureChallenge authChallenge cred = some cred') : cred'.data = cred.data := by
  unfold ensureChallenge at h
  split at h
  · cases h
    rfl
  · split at h
    · split at h
      · cases h
      · cases h
        rfl
    · cases h

/-- selectAuthKey saves nothing; the credential it returns differs at most in its challenge. -/
theorem Saved.selectAuthKey (h : Saved C cred files s) {authChallenge : Option Int64}
    {allowUsingExhaustedKeys allowUsingExpiredKeys incrementUsageCount : Bool} {now : Int64}
    {r : Status Int64} {cred' : Credential}
    (hc : cred.selectAuthKey C authChallenge allowUsingExhaustedKeys allowUsingExpiredKeys
      incrementUsageCount now files = some (r, cred')) :
    Saved C cred' files s := by
  apply h.of_data_eq
  rw [Credential.selectAuthKey, h.withLoadedData] at hc
  split at hc
  · cases hc
    rfl
  · obtain ⟨⟨authKey, _⟩, -, hmatch⟩ := Option.bind_eq_some_iff.mp hc
    -- the credential comes back as it was, or from ensureChallenge
    cases authKey with
    | none =>
      cases hmatch
      rfl
    | some i =>
      cases hchallenge : ensureChallenge authChallenge cred with
      | none =>
        simp only [hchallenge] at hmatch
        cases hmatch
        rfl
      | some c =>
        simp only [hchallenge] at hmatch
        cases hmatch
        exact ensureChallenge_data hchallenge

end Calls

/-! ### Over a run -/

section Run

variable {C : Cbor.Codec} {cred : Credential} {files : Files} {s : CredentialData}

/-- A call that does not crash leaves a saved file. -/
theorem Saved.step (h : Saved C cred files s) {c : Call} {cred' : Credential} {files' : Files}
    (hstep : step C (cred, files) c = some (cred', files')) :
    ∃ s', Saved C cred' files' s' := by
  cases c with
  | setAvailableAuthenticationKeys keyCount maxUsesPerKey minValidTimeMillis =>
    obtain ⟨⟨r, f⟩, hc, hst⟩ := Option.map_eq_some_iff.mp hstep
    cases hst
    exact h.setAvailableAuthenticationKeys hc
  | getAuthKeysNeedingCertification generateSigningKeyPair now =>
    obtain ⟨⟨r, f⟩, hc, hst⟩ := Option.map_eq_some_iff.mp hstep
    cases hst
    exact h.getAuthKeysNeedingCertification hc
  | storeStaticAuthenticationDataWithExpiration authenticationKey expirationDateMillisSinceEpoch
      staticAuthData =>
    obtain ⟨⟨r, f⟩, hc, hst⟩ := Option.map_eq_some_iff.mp hstep
    cases hst
    exact h.storeStaticAuthenticationDataWithExpiration hc
  | storeStaticAuthenticationData authenticationKey staticAuthData =>
    -- the call with the latest expiration date
    obtain ⟨⟨r, f⟩, hc, hst⟩ := Option.map_eq_some_iff.mp hstep
    cases hst
    exact h.storeStaticAuthenticationDataWithExpiration hc
  | selectAuthKey authChallenge allowUsingExhaustedKeys allowUsingExpiredKeys incrementUsageCount
      now =>
    obtain ⟨⟨r, c'⟩, hc, hst⟩ := Option.map_eq_some_iff.mp hstep
    cases hst
    exact ⟨s, h.selectAuthKey hc⟩

/-- From a file the service wrote, every run of calls that does not crash leaves a file that
loads, to a state whose key count is the number of its records. -/
theorem Reachable.loadFromDisk (h : Saved C cred files s) {st : Credential × Files}
    (hr : Reachable C (cred, files) st) :
    ∃ s', st.1.data.loadFromDisk C st.2 = .ok s' ∧ s'.keyCount.toInt = s'.authKeyDatas.length := by
  have hsaved : ∃ s', Saved C st.1 st.2 s' :=
    @Lib.Reachable.invariant _ Call (cred, files) (step C)
      (fun st => ∃ s', Saved C st.1 st.2 s') ⟨s, h⟩
      (fun ⟨_, _⟩ _ ⟨_, _⟩ ⟨_, hs⟩ hstep => hs.step hstep) st hr
  obtain ⟨s', hs'⟩ := hsaved
  exact ⟨s', hs'.load, hs'.keyCount⟩

end Run

/-! ### A crash that the calls reach on their own -/

section Crash

variable {C : Cbor.Codec} {cred : Credential} {files : Files} {s : CredentialData}

theorem Saved.step_storeStaticAuthenticationData (h : Saved C cred files s)
    (hs : cred.inSession = false) {authenticationKey staticAuthData : Bytes} {s' : CredentialData}
    (hstore : s.storeStaticAuthenticationData authenticationKey Int64.maxValue staticAuthData =
      (true, s')) :
    Credential.step C (cred, files)
        (.storeStaticAuthenticationData authenticationKey staticAuthData) =
      some (cred, s'.saveToDisk C files) := by
  simp [Credential.step, Credential.storeStaticAuthenticationData,
    Credential.storeStaticAuthenticationDataWithExpiration, h.withLoadedData, hs, hstore]

theorem Saved.step_setAvailableAuthenticationKeys (h : Saved C cred files s)
    (hs : cred.inSession = false) {keyCount maxUsesPerKey : Int32} {minValidTimeMillis : Int64}
    {s' : CredentialData}
    (hset : s.setAvailableAuthenticationKeys keyCount maxUsesPerKey minValidTimeMillis = some s') :
    Credential.step C (cred, files)
        (.setAvailableAuthenticationKeys keyCount maxUsesPerKey minValidTimeMillis) =
      some (cred, s'.saveToDisk C files) := by
  simp [Credential.step, Credential.setAvailableAuthenticationKeys, h.withLoadedData, hs, hset]

theorem Saved.step_getAuthKeysNeedingCertification_crash (h : Saved C cred files s)
    (hs : cred.inSession = false) {generateSigningKeyPair : Nat → Option (Bytes × Bytes)}
    {now : Int64}
    (hget : s.getAuthKeysNeedingCertification generateSigningKeyPair now = .error .crash) :
    Credential.step C (cred, files)
      (.getAuthKeysNeedingCertification generateSigningKeyPair now) = none := by
  simp [Credential.step, Credential.getAuthKeysNeedingCertification, h.withLoadedData, hs, hget]

/-- A credential whose first key waits for its certificate crashes the service in three of its
own calls: the certificate is stored with the latest expiration date, the minimal validity is
set to -1 ms with the key count unchanged, and the next request for the keys to certify
computes INT64_MAX - (-1). -/
theorem Reachable.getAuthKeysNeedingCertification_crash (h : Saved C cred files s)
    (hs : cred.inSession = false) {d : AuthKeyData} {rest : List AuthKeyData}
    (hd : s.authKeyDatas = d :: rest) (staticAuthData : Bytes) (maxUsesPerKey : Int32)
    (generateSigningKeyPair : Nat → Option (Bytes × Bytes)) {now nowMs : Int64}
    (hnow : CInt.mul64 now 1000 = some nowMs) :
    ∃ st, Reachable C (cred, files) st ∧
      step C st (.getAuthKeysNeedingCertification generateSigningKeyPair now) = none := by
  -- the first record takes its pending certificate, which never expires
  let d' : AuthKeyData := { d with
    certificate := d.pendingCertificate, keyBlob := d.pendingKeyBlob,
    expirationDateMillisSinceEpoch := Int64.maxValue, staticAuthenticationData := staticAuthData,
    pendingCertificate := [], pendingKeyBlob := [], useCount := 0 }
  let s₁ : CredentialData := { s with authKeyDatas := d' :: rest }
  have hstore : s.storeStaticAuthenticationData d.pendingCertificate Int64.maxValue
      staticAuthData = (true, s₁) := by
    rw [CredentialData.storeStaticAuthenticationData, hd, CredentialData.storePending_cons_self]
  have h₁ : Saved C cred (s₁.saveToDisk C files) s₁ := h.save_records (by simp [hd])
  -- the count it has keeps the records; only the minimal validity changes
  let s₂ : CredentialData := { s₁ with maxUsesPerKey, minValidTimeMillis := -1 }
  have hset : s₁.setAvailableAuthenticationKeys s.keyCount maxUsesPerKey (-1) = some s₂ :=
    CredentialData.setAvailableAuthenticationKeys_keyCount h₁.keyCount maxUsesPerKey (-1)
  have h₂ : Saved C cred (s₂.saveToDisk C (s₁.saveToDisk C files)) s₂ :=
    h₁.save rfl rfl rfl h₁.keyCount
  have hover : CInt.sub64 d'.expirationDateMillisSinceEpoch s₂.minValidTimeMillis = none := by
    show CInt.sub64 Int64.maxValue (-1) = none
    decide
  refine ⟨(cred, s₂.saveToDisk C (s₁.saveToDisk C files)), ?_, ?_⟩
  · exact .step _ (.step _ .init (h.step_storeStaticAuthenticationData hs hstore))
      (h₁.step_setAvailableAuthenticationKeys hs hset)
  · exact h₂.step_getAuthKeysNeedingCertification_crash hs
      (CredentialData.getAuthKeysNeedingCertification_of_overflow hnow rfl hover)

end Crash

end Credential

end Keystore2.Identity
