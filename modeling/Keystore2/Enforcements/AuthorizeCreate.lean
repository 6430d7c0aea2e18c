import Keystore2.Enforcements
import Keystore2.Lib.Except
import Keystore2.Lib.Scan
import Keystore2.Lib.SortDedup

/-! What a successful `authorize_create` guarantees about the key's parameters, the operation
parameters, the device-unlocked set, the boot level and the auth token it hands out.

The pass over the key parameters is summed up in closed form: each flag says whether a
parameter of its kind occurs, each single-valued variable holds the value of the last
parameter of its kind, and the secure ids are collected in order.  Where a kind may occur more
than once (`USER_ID`, `MAX_BOOT_LEVEL`, `AUTH_TIMEOUT`, `USER_AUTH_TYPE`), only the last
occurrence is checked. -/

namespace Keystore2.Enforcements

open KeyParameter Scan

variable {R : Type}

section Summary

def userSecureIds (ps : List KeyParameterValue) : List Int64 :=
  ps.filterMap (·.userSecureID?)

def lastUserId (ps : List KeyParameterValue) : Int32 :=
  ((ps.filterMap (·.userID?)).getLast?).getD (-1)

def lastAuthType (ps : List KeyParameterValue) : Option HardwareAuthenticatorType :=
  (ps.filterMap (·.hardwareAuthenticatorType?)).getLast?

def lastAuthTimeout (ps : List KeyParameterValue) : Option Int64 :=
  (ps.filterMap fun kp => kp.authTimeout?.map Int32.toInt64).getLast?

def lastMaxBootLevel (ps : List KeyParameterValue) : Option Int32 :=
  (ps.filterMap (·.maxBootLevel?)).getLast?

/-- The body of the pass over the key parameters, without its date checks. -/
def recordKeyParam (self : Enforcements R) (purpose : KeyPurpose) (keyId : Int64)
    (v : KeyParamVars R) (kp : KeyParameterValue) : KeyParamVars R where
  keyPurposeAuthorized := v.keyPurposeAuthorized || decide (kp.keyPurpose? = some purpose)
  userAuthType := kp.hardwareAuthenticatorType?.or v.userAuthType
  noAuthRequired := v.noAuthRequired || decide (kp = .noAuthRequired)
  callerNonceAllowed := v.callerNonceAllowed || decide (kp = .callerNonce)
  userId := kp.userID?.getD v.userId
  userSecureIds := v.userSecureIds ++ kp.userSecureID?.toList
  keyTimeOut := (kp.authTimeout?.map Int32.toInt64).or v.keyTimeOut
  unlockedDeviceRequired := v.unlockedDeviceRequired || decide (kp = .unlockedDeviceRequired)
  keyUsageLimited := if kp.getTag = .usageCountLimit then some keyId else v.keyUsageLimited
  confirmationTokenReceiver := if kp = .trustedConfirmationRequired then
      some self.confirmationTokenReceiver
    else v.confirmationTokenReceiver
  maxBootLevel := kp.maxBootLevel?.or v.maxBootLevel

/-- The date checks of the pass over the key parameters. -/
def KeyParamDatesValid (systemTime : Int) (purpose : KeyPurpose) : KeyParameterValue → Prop
  | .activeDateTime a => isGivenTimePassed systemTime a true = true
  | .originationExpireDateTime o =>
    purpose = .encrypt ∨ purpose = .sign → isGivenTimePassed systemTime o false = false
  | .usageExpireDateTime u =>
    purpose = .decrypt ∨ purpose = .verify → isGivenTimePassed systemTime u false = false
  | _ => True

/-- The variables after the whole pass over `ps`. -/
def keyParamVarsOf (self : Enforcements R) (purpose : KeyPurpose) (keyId : Int64)
    (ps : List KeyParameterValue) : KeyParamVars R where
  keyPurposeAuthorized := ps.any fun kp => decide (kp.keyPurpose? = some purpose)
  userAuthType := lastAuthType ps
  noAuthRequired := ps.any fun kp => decide (kp = .noAuthRequired)
  callerNonceAllowed := ps.any fun kp => decide (kp = .callerNonce)
  userId := lastUserId ps
  userSecureIds := userSecureIds ps
  keyTimeOut := lastAuthTimeout ps
  unlockedDeviceRequired := ps.any fun kp => decide (kp = .unlockedDeviceRequired)
  keyUsageLimited := if ps.any (fun kp => decide (kp.getTag = .usageCountLimit)) then some keyId else none
  confirmationTokenReceiver := if ps.any (fun kp => decide (kp = .trustedConfirmationRequired)) then
      some self.confirmationTokenReceiver
    else none
  maxBootLevel := lastMaxBootLevel ps

variable {self : Enforcements R} {purpose : KeyPurpose} {keyId : Int64}

theorem scanKeyParam_eq_ok {systemTime : Int} {v t : KeyParamVars R} {kp : KeyParameterValue}
    (h : scanKeyParam self systemTime purpose keyId v kp = .ok t) :
    KeyParamDatesValid systemTime purpose kp ∧ t = recordKeyParam self purpose keyId v kp := by
  -- unfolding once and reducing the match per constructor avoids the equation lemmas of the
  -- catch-all branch
  unfold scanKeyParam at h
  cases kp <;> dsimp only at h
  -- a date parameter either fails its check or changes no variable
  all_goals try (split at h; exact absurd h Except.throw_ne_ok)
  all_goals simp_all [recordKeyParam, KeyParamDatesValid, Bool.beq_eq_decide_eq,
    KeyParameterValue.getTag, KeyParameterValue.keyPurpose?,
    KeyParameterValue.hardwareAuthenticatorType?, KeyParameterValue.authTimeout?,
    KeyParameterValue.userID?, KeyParameterValue.userSecureID?, KeyParameterValue.maxBootLevel?]

theorem foldl_recordKeyParam (ps : List KeyParameterValue) :
    ps.foldl (recordKeyParam self purpose keyId) {} = keyParamVarsOf self purpose keyId ps := by
  -- each variable is a fold of its own over the parameters, of one of the shapes of `Scan`
  have hfield {β : Type} (f : KeyParamVars R → β) (g : β → KeyParameterValue → β)
      (hg : ∀ v kp, g (f v) kp = f (recordKeyParam self purpose keyId v kp)) :
      f (ps.foldl (recordKeyParam self purpose keyId) {}) = ps.foldl g (f {}) :=
    (List.foldl_hom f hg).symm
  ext1
  · rw [hfield KeyParamVars.keyPurposeAuthorized
      (fun b kp => b || decide (kp.keyPurpose? = some purpose)) (fun _ _ => rfl),
      foldl_or]
    rfl
  · rw [hfield KeyParamVars.userAuthType
      (fun o kp => kp.hardwareAuthenticatorType?.or o) (fun _ _ => rfl),
      foldl_or_option]
    exact Option.or_none
  · rw [hfield KeyParamVars.noAuthRequired
      (fun b kp => b || decide (kp = .noAuthRequired)) (fun _ _ => rfl), foldl_or]
    rfl
  · rw [hfield KeyParamVars.callerNonceAllowed
      (fun b kp => b || decide (kp = .callerNonce)) (fun _ _ => rfl), foldl_or]
    rfl
  · rw [hfield KeyParamVars.userId
      (fun u kp => kp.userID?.getD u) (fun _ _ => rfl), foldl_getD]
    rfl
  · rw [hfield KeyParamVars.userSecureIds
      (fun l kp => l ++ kp.userSecureID?.toList) (fun _ _ => rfl), foldl_append]
    rfl
  · rw [hfield KeyParamVars.keyTimeOut
      (fun o kp => (kp.authTimeout?.map Int32.toInt64).or o) (fun _ _ => rfl),
      foldl_or_option]
    exact Option.or_none
  · rw [hfield KeyParamVars.unlockedDeviceRequired
      (fun b kp => b || decide (kp = .unlockedDeviceRequired)) (fun _ _ => rfl),
      foldl_or]
    rfl
  · rw [hfield KeyParamVars.keyUsageLimited
      (fun o kp => if kp.getTag = .usageCountLimit then some keyId else o)
      (fun _ _ => rfl), foldl_ite]
    rfl
  · rw [hfield KeyParamVars.confirmationTokenReceiver
      (fun o kp => if kp = .trustedConfirmationRequired then
        some self.confirmationTokenReceiver else o) (fun _ _ => rfl), foldl_ite]
    rfl
  · rw [hfield KeyParamVars.maxBootLevel
      (fun o kp => kp.maxBootLevel?.or o) (fun _ _ => rfl), foldl_or_option]
    exact Option.or_none

/-- The pass over the key parameters succeeds only when every date check passes, and it
leaves the variables in their closed form. -/
theorem foldlM_scanKeyParam_eq_ok {systemTime : Int} {ps : List KeyParameterValue}
    {v : KeyParamVars R}
    (h : ps.foldlM (scanKeyParam self systemTime purpose keyId) {} = .ok v) :
    (∀ kp ∈ ps, KeyParamDatesValid systemTime purpose kp) ∧
      v = keyParamVarsOf self purpose keyId ps := by
  obtain ⟨hdates, hfold⟩ := foldlM_eq_ok (fun _ _ _ hs => scanKeyParam_eq_ok hs) ps {} v h
  exact ⟨hdates, hfold ▸ foldl_recordKeyParam ps⟩

end Summary

section Checks

/-- An active date that has passed is not in the future: the cast to `u128` keeps a
non-negative date and sends a negative one above every time. -/
theorem le_of_isGivenTimePassed {systemTime : Int} {a : Int64}
    (h : isGivenTimePassed systemTime a true = true) : a.toInt ≤ systemTime := by
  have hlt := a.toInt_lt
  simp only [isGivenTimePassed, ↓reduceIte] at h
  split at h
  · exact absurd h Bool.false_ne_true
  · rcases Int.lt_or_le a.toInt 0 with ha | ha
    · omega
    · rw [Int.emod_eq_of_lt ha (by omega)] at h
      exact of_decide_eq_true h

/-- An expiry date that has not passed lies ahead, when it is not negative. -/
theorem le_of_not_isGivenTimePassed {systemTime : Int} {o : Int64}
    (h : isGivenTimePassed systemTime o false = false) (ho : 0 ≤ o.toInt) :
    systemTime ≤ o.toInt := by
  have hlt := o.toInt_lt
  simp only [isGivenTimePassed, Bool.false_eq_true, ↓reduceIte] at h
  split at h
  · omega
  · rw [Int.emod_eq_of_lt ho (by omega)] at h
    exact Int.not_lt.mp (of_decide_eq_false h)

theorem checkPurpose_eq_ok {ps : List KeyParameterValue} (h : checkPurpose purpose ps = .ok ()) :
    (purpose = .sign ∨ purpose = .decrypt ∨ purpose = .encrypt ∨ purpose = .verify ∨
      purpose = .agreeKey) ∧
    (purpose = .encrypt ∨ purpose = .verify → .algorithm .rsa ∉ ps ∧ .algorithm .ec ∉ ps) ∧
    (purpose = .agreeKey → ∀ a, .algorithm a ∈ ps → a = .ec) := by
  unfold checkPurpose at h
  -- the branches that throw are closed by the split itself
  split_ifs at h with hsd hwrap hagree hany hve hany'
  · rcases hsd with rfl | rfl <;> refine ⟨by simp, fun hp => ?_, fun hp => ?_⟩ <;>
      exact absurd hp (by decide)
  · subst hagree
    refine ⟨by simp, fun hp => absurd hp (by decide), fun _ a ha => ?_⟩
    have hnot := List.any_eq_false.mp (Bool.eq_false_iff.mpr hany) _ ha
    simpa [KeyParameterValue.getTag] using hnot
  · refine ⟨by tauto, fun _ => ?_, fun hag => absurd hag hagree⟩
    simp only [List.any_eq_true, Bool.or_eq_true, beq_iff_eq, not_exists, not_and] at hany'
    exact ⟨fun hm => hany' _ hm (.inl rfl), fun hm => hany' _ hm (.inr rfl)⟩

/-- What the checks after the pass let through, read on the variables. -/
theorem checkKeyParamVars_eq_ok {ctx : Context} {opParams : List KmKeyParameter}
    {v : KeyParamVars R} (h : checkKeyParamVars self ctx purpose opParams v = .ok ()) :
    v.keyPurposeAuthorized = true ∧
    (v.noAuthRequired = true → v.userSecureIds = []) ∧
    (v.userAuthType.isSome ↔ v.userSecureIds ≠ []) ∧
    (purpose = .encrypt ∨ purpose = .sign → v.callerNonceAllowed = false →
      ∀ kp ∈ opParams, kp.tag ≠ .nonce) ∧
    (v.unlockedDeviceRequired = true → v.userId ∈ self.deviceUnlockedSet) ∧
    (∀ l, v.maxBootLevel = some l → ctx.levelAccessible l = true) := by
  simp only [checkKeyParamVars, Except.throw_bind] at h
  split_ifs at h with hpurpose hnoauth hauth hnonce hlocked
  have hlevel : ∀ l, v.maxBootLevel = some l → ctx.levelAccessible l = true := by
    intro l hl
    rw [hl] at h
    simp only at h
    split_ifs at h with hacc
    simpa using hacc
  refine ⟨by simpa using hpurpose, fun hn => ?_, ?_, fun hp hc kp hkp => ?_, fun hu => ?_, hlevel⟩
  · simpa [hn] using hnoauth
  · cases hv : v.userAuthType <;> cases hs : v.userSecureIds <;> simp_all
  · simp only [Bool.and_eq_true, Bool.or_eq_true, beq_iff_eq, hp, hc, Bool.not_false,
      and_true, List.any_eq_true, not_exists, not_and, true_and] at hnonce
    simpa using hnonce kp hkp
  · simpa [Enforcements.isDeviceLocked, hu] using hlocked

end Checks

section Token

/-- The entry that `find_auth_token_entry` returns is in the store, matches, and was received
no earlier than any other entry that matches. -/
theorem findAuthTokenEntry_eq_some {authTokens : List AuthTokenEntry}
    {p : AuthTokenEntry → Bool} {e : AuthTokenEntry}
    (h : findAuthTokenEntry authTokens p = some e) :
    e ∈ authTokens ∧ p e = true ∧
      ∀ e' ∈ authTokens, p e' = true → e'.timeReceived ≤ e.timeReceived := by
  have hsorted : ((authTokens.filter p).mergeSort fun a b =>
      decide (a.timeReceived ≤ b.timeReceived)).Pairwise
        (fun a b => decide (a.timeReceived ≤ b.timeReceived) = true) :=
    List.pairwise_mergeSort
      (fun a b c hab hbc => by
        simp only [decide_eq_true_eq, Int64.le_iff_toInt_le] at *
        omega)
      (fun a b => by simpa using Int64.le_total a.timeReceived b.timeReceived) _
  have hmem := List.mem_of_getLast? h
  rw [List.mem_mergeSort, List.mem_filter] at hmem
  refine ⟨hmem.1, hmem.2, fun e' he' hp' => ?_⟩
  have hsortedMem : e' ∈ (authTokens.filter p).mergeSort fun a b =>
      decide (a.timeReceived ≤ b.timeReceived) :=
    List.mem_mergeSort.mpr (List.mem_filter.mpr ⟨he', hp'⟩)
  rcases SortDedup.rel_of_mem_of_getLast? hsorted hsortedMem h with rfl | hle
  · exact Int64.le_refl _
  · simpa using hle

/-- The auth token and deferred state chosen after the checks: none without secure ids, a
per-operation token without a timeout, and otherwise the newest matching token of the store,
young enough in whole seconds. -/
theorem authorizeAuthToken_eq_ok {ctx : Context} {sids : List Int64}
    {authType : Option HardwareAuthenticatorType} {keyTimeOut : Option Int64}
    {requiresTimestamp : Bool} {hat : Option HardwareAuthToken} {state : DeferredAuthState}
    (h : authorizeAuthToken ctx sids authType keyTimeOut requiresTimestamp = .ok (hat, state)) :
    (sids = [] → hat = none ∧ state = .noAuthRequired) ∧
    (sids ≠ [] → keyTimeOut = none → hat = none ∧ state = .opAuthRequired) ∧
    (∀ t, sids ≠ [] → keyTimeOut = some t → ∃ a e, authType = some a ∧ e ∈ ctx.authTokens ∧
      e.satisfies sids a = true ∧
      (∀ e' ∈ ctx.authTokens, e'.satisfies sids a = true → e'.timeReceived ≤ e.timeReceived) ∧
      seconds (ctx.bootTime - e.timeReceived) ≤ t ∧ hat = some e.authToken ∧
      state = if requiresTimestamp then .timeStampRequired e.authToken else .noAuthRequired) := by
  unfold authorizeAuthToken at h
  by_cases hs : sids = []
  · subst hs
    simp only [List.isEmpty_nil, ↓reduceIte, Except.pure_eq_ok, Prod.mk.injEq] at h
    exact ⟨fun _ => ⟨h.1.symm, h.2.symm⟩, fun hne => absurd rfl hne, fun _ hne => absurd rfl hne⟩
  rw [if_neg (by simpa using hs)] at h
  refine ⟨fun hs' => absurd hs' hs, fun _ hk => ?_, fun t _ hk => ?_⟩
  · subst hk
    simp only [Except.pure_eq_ok, Prod.mk.injEq] at h
    exact ⟨h.1.symm, h.2.symm⟩
  subst hk
  simp only at h
  split at h
  case h_2 => exact absurd h Except.throw_ne_ok
  rename_i e he
  obtain ⟨hmem, hmatch, hnewest⟩ := findAuthTokenEntry_eq_some he
  -- the lookup matches nothing when the key has no authenticator type
  obtain ⟨a, rfl⟩ : ∃ a, authType = some a := by
    cases authType with
    | none => simp at hmatch
    | some a => exact ⟨a, rfl⟩
  split at h
  case h_2 => exact absurd h Except.throw_ne_ok
  rename_i age hage
  have hage' : age = ctx.bootTime - e.timeReceived := by
    unfold checkedSub at hage
    split at hage
    · exact (Option.some.inj hage).symm
    · exact absurd hage (by simp)
  split at h
  · exact absurd h Except.throw_ne_ok
  rename_i hyoung
  simp only [Except.pure_eq_ok, Prod.mk.injEq] at h
  refine ⟨a, e, rfl, hmem, hmatch, hnewest, ?_, h.1.symm, h.2.symm⟩
  rw [← hage']
  exact Int64.not_lt.mp hyoung

end Token

section Sound

/-- The peeled `authorize_create`: each of its sections succeeded, the pass over the key
parameters in closed form. -/
theorem authorizeCreate_eq_ok {ctx : Context} {ps : List KeyParameterValue}
    {opParams : List KmKeyParameter} {requiresTimestamp : Bool} {hat : Option HardwareAuthToken}
    {info : AuthInfo R}
    (h : self.authorizeCreate ctx purpose (some (keyId, ps)) opParams requiresTimestamp =
      .ok (hat, info)) :
    checkPurpose purpose ps = .ok () ∧
    (∀ kp ∈ ps, KeyParamDatesValid ctx.systemTime purpose kp) ∧
    checkKeyParamVars self ctx purpose opParams (keyParamVarsOf self purpose keyId ps) = .ok () ∧
    authorizeAuthToken ctx (userSecureIds ps) (lastAuthType ps) (lastAuthTimeout ps)
      requiresTimestamp = .ok (hat, info.state) ∧
    info.keyUsageLimited = (keyParamVarsOf self purpose keyId ps).keyUsageLimited ∧
    info.confirmationTokenReceiver =
      (keyParamVarsOf self purpose keyId ps).confirmationTokenReceiver := by
  simp only [Enforcements.authorizeCreate] at h
  obtain ⟨⟨⟩, hpurpose, h⟩ := Except.bind_eq_ok.mp h
  obtain ⟨v, hscan, h⟩ := Except.bind_eq_ok.mp h
  obtain ⟨hdates, rfl⟩ := foldlM_scanKeyParam_eq_ok hscan
  obtain ⟨⟨⟩, hchecks, h⟩ := Except.bind_eq_ok.mp h
  obtain ⟨⟨hat', state⟩, htoken, h⟩ := Except.bind_eq_ok.mp h
  simp only [Except.pure_eq_ok, Prod.mk.injEq] at h
  obtain ⟨rfl, rfl⟩ := h
  exact ⟨hpurpose, hdates, hchecks, htoken, rfl, rfl⟩

/-- What a successful `authorize_create` for a key with parameters `ps` guarantees. -/
structure CreateAuthorized (self : Enforcements R) (ctx : Context) (purpose : KeyPurpose)
    (keyId : Int64) (ps : List KeyParameterValue) (opParams : List KmKeyParameter)
    (requiresTimestamp : Bool) (hat : Option HardwareAuthToken) (info : AuthInfo R) : Prop where
  purpose_mem : .keyPurpose purpose ∈ ps
  purpose_supported : purpose = .sign ∨ purpose = .decrypt ∨ purpose = .encrypt ∨
    purpose = .verify ∨ purpose = .agreeKey
  not_asymmetric : purpose = .encrypt ∨ purpose = .verify →
    .algorithm .rsa ∉ ps ∧ .algorithm .ec ∉ ps
  ec_of_agreeKey : purpose = .agreeKey → ∀ a, .algorithm a ∈ ps → a = .ec
  no_sid_of_noAuthRequired : .noAuthRequired ∈ ps → ∀ s, .userSecureID s ∉ ps
  authType_iff_sid : (∃ a, .hardwareAuthenticatorType a ∈ ps) ↔ ∃ s, .userSecureID s ∈ ps
  unlocked : .unlockedDeviceRequired ∈ ps → lastUserId ps ∈ self.deviceUnlockedSet
  levelAccessible : ∀ l, lastMaxBootLevel ps = some l → ctx.levelAccessible l = true
  no_nonce : purpose = .encrypt ∨ purpose = .sign → .callerNonce ∉ ps →
    ∀ kp ∈ opParams, kp.tag ≠ .nonce
  active : ∀ a, .activeDateTime a ∈ ps → a.toInt ≤ ctx.systemTime
  not_originationExpired : purpose = .encrypt ∨ purpose = .sign →
    ∀ o, .originationExpireDateTime o ∈ ps → 0 ≤ o.toInt → ctx.systemTime ≤ o.toInt
  not_usageExpired : purpose = .decrypt ∨ purpose = .verify →
    ∀ u, .usageExpireDateTime u ∈ ps → 0 ≤ u.toInt → ctx.systemTime ≤ u.toInt
  no_token : (∀ s, .userSecureID s ∉ ps) → hat = none ∧ info.state = .noAuthRequired
  opAuth : (∃ s, .userSecureID s ∈ ps) → lastAuthTimeout ps = none →
    hat = none ∧ info.state = .opAuthRequired
  newest_token : ∀ t, (∃ s, .userSecureID s ∈ ps) → lastAuthTimeout ps = some t →
    ∃ a e, lastAuthType ps = some a ∧ e ∈ ctx.authTokens ∧
      e.satisfies (userSecureIds ps) a = true ∧
      (∀ e' ∈ ctx.authTokens, e'.satisfies (userSecureIds ps) a = true →
        e'.timeReceived ≤ e.timeReceived) ∧
      seconds (ctx.bootTime - e.timeReceived) ≤ t ∧ hat = some e.authToken ∧
      info.state = if requiresTimestamp then .timeStampRequired e.authToken else .noAuthRequired
  keyUsageLimited : info.keyUsageLimited =
    if ps.any (fun kp => decide (kp.getTag = .usageCountLimit)) then some keyId else none
  confirmationTokenReceiver : info.confirmationTokenReceiver =
    if .trustedConfirmationRequired ∈ ps then some self.confirmationTokenReceiver else none

theorem userSecureIds_eq_nil {ps : List KeyParameterValue} :
    userSecureIds ps = [] ↔ ∀ s, .userSecureID s ∉ ps := by
  simp only [userSecureIds, List.filterMap_eq_nil_iff, Option.eq_none_iff_forall_ne_some]
  constructor
  · intro h s hs
    exact h _ hs s (by simp)
  · intro h kp hkp s hs
    exact h s (KeyParameterValue.userSecureID_eq_some_iff.mp hs ▸ hkp)

theorem lastAuthType_isSome {ps : List KeyParameterValue} :
    (lastAuthType ps).isSome ↔ ∃ a, .hardwareAuthenticatorType a ∈ ps := by
  simp only [lastAuthType, List.getLast?_isSome, ne_eq, List.filterMap_eq_nil_iff, not_forall,
    Option.ne_none_iff_exists', KeyParameterValue.hardwareAuthenticatorType_eq_some_iff]
  constructor
  · rintro ⟨kp, hkp, a, rfl⟩
    exact ⟨a, hkp⟩
  · rintro ⟨a, ha⟩
    exact ⟨_, ha, a, rfl⟩

/-- A successful `authorize_create` on a key with parameters `ps` meets `CreateAuthorized`:
each guarantee is read off the section of the function that checks it. -/
theorem authorizeCreate_sound {ctx : Context} {ps : List KeyParameterValue}
    {opParams : List KmKeyParameter} {requiresTimestamp : Bool} {hat : Option HardwareAuthToken}
    {info : AuthInfo R}
    (h : self.authorizeCreate ctx purpose (some (keyId, ps)) opParams requiresTimestamp =
      .ok (hat, info)) :
    CreateAuthorized self ctx purpose keyId ps opParams requiresTimestamp hat info := by
  obtain ⟨hpurpose, hdates, hchecks, htoken, hlimited, hreceiver⟩ := authorizeCreate_eq_ok h
  obtain ⟨hsupported, hasym, hagree⟩ := checkPurpose_eq_ok hpurpose
  obtain ⟨hauthorized, hnoauth, hauthType, hnonce, hunlocked, hlevel⟩ :=
    checkKeyParamVars_eq_ok hchecks
  obtain ⟨hnone, hopauth, hnewest⟩ := authorizeAuthToken_eq_ok htoken
  have hsid : (∃ s, .userSecureID s ∈ ps) ↔ userSecureIds ps ≠ [] := by
    rw [ne_eq, userSecureIds_eq_nil]
    simp
  exact {
    purpose_mem := by simpa [keyParamVarsOf] using hauthorized
    purpose_supported := hsupported
    not_asymmetric := hasym
    ec_of_agreeKey := hagree
    no_sid_of_noAuthRequired := fun hn =>
      userSecureIds_eq_nil.mp (hnoauth (by simpa [keyParamVarsOf] using hn))
    authType_iff_sid := lastAuthType_isSome.symm.trans (hauthType.trans hsid.symm)
    unlocked := fun hu => hunlocked (by simpa [keyParamVarsOf] using hu)
    levelAccessible := hlevel
    no_nonce := fun hp hc => hnonce hp (by
      simp only [keyParamVarsOf, List.any_eq_false, decide_eq_true_eq]
      rintro _ hx rfl
      exact hc hx)
    active := fun _ ha => le_of_isGivenTimePassed (hdates _ ha)
    not_originationExpired := fun hp _ ho hnn => le_of_not_isGivenTimePassed (hdates _ ho hp) hnn
    not_usageExpired := fun hp _ hu hnn => le_of_not_isGivenTimePassed (hdates _ hu hp) hnn
    no_token := fun hs => hnone (userSecureIds_eq_nil.mpr hs)
    opAuth := fun hs hk => hopauth (hsid.mp hs) hk
    newest_token := fun t hs hk => hnewest t (hsid.mp hs) hk
    keyUsageLimited := hlimited
    confirmationTokenReceiver := by simpa [keyParamVarsOf] using hreceiver }

end Sound

section TwoBootLevels

/-! A signing key with two `MAX_BOOT_LEVEL` parameters, 1 and then 5, asked for at boot
level 3: only the last level is checked, so the key is authorized although level 1 is no
longer accessible. -/

def twoBootLevelsKey : List KeyParameterValue :=
  [.keyPurpose .sign, .maxBootLevel 1, .maxBootLevel 5]

def bootLevelThree : Context where
  systemTime := 0
  bootTime := 0
  authTokens := []
  levelAccessible := fun l => decide (3 ≤ l)

def lockedEnforcements : Enforcements Unit where
  deviceUnlockedSet := []
  confirmationTokenReceiver := ()

theorem authorizeCreate_twoBootLevelsKey :
    lockedEnforcements.authorizeCreate bootLevelThree .sign (some (0, twoBootLevelsKey)) [] false =
      .ok (none,
        { state := .noAuthRequired, keyUsageLimited := none, confirmationTokenReceiver := none }) := rfl

theorem authorizeCreate_admits_inaccessible_boot_level :
    lockedEnforcements.authorizeCreate bootLevelThree .sign (some (0, twoBootLevelsKey)) [] false =
      .ok (none,
        { state := .noAuthRequired, keyUsageLimited := none, confirmationTokenReceiver := none }) ∧
    .maxBootLevel 1 ∈ twoBootLevelsKey ∧ bootLevelThree.levelAccessible 1 = false :=
  ⟨authorizeCreate_twoBootLevelsKey, by decide, by decide⟩

theorem authorizeCreate_sound_twoBootLevelsKey :
    lockedEnforcements.authorizeCreate bootLevelThree .sign (some (0, twoBootLevelsKey)) [] false =
      .ok (none,
        { state := .noAuthRequired, keyUsageLimited := none, confirmationTokenReceiver := none }) ∧
    CreateAuthorized lockedEnforcements bootLevelThree .sign 0 twoBootLevelsKey [] false none
      { state := .noAuthRequired, keyUsageLimited := none, confirmationTokenReceiver := none } :=
  ⟨authorizeCreate_twoBootLevelsKey, authorizeCreate_sound authorizeCreate_twoBootLevelsKey⟩

end TwoBootLevels

end Keystore2.Enforcements
