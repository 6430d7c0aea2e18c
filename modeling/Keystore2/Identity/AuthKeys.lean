import Keystore2.Identity.CredentialData
import Keystore2.Lib.CInt
import Keystore2.Lib.Except
import Keystore2.Lib.Scan
import Mathlib.Order.WithBot

/-! The authentication keys of a credential (CredentialData.cpp): how many the holder wants,
which need a new certificate, the certificates the holder stores, and which key a presentation
uses.  The arithmetic is C's: an `int` or `int64_t` result out of range is undefined behaviour,
and so is a size that vector::resize cannot hold; the model's `none` is such a run. -/

namespace Keystore2.Identity

namespace CredentialData

/-- vector::resize: the first `n` records, followed by default ones up to `n`. -/
def resize (l : List AuthKeyData) (n : Nat) : List AuthKeyData :=
  l.take n ++ List.replicate (n - l.length) ({} : AuthKeyData)

/-- The count reaches vector::resize as a size_t.  A negative count is then above max_size(),
and resize throws std::length_error, which nothing catches. -/
def setAvailableAuthenticationKeys (keyCount maxUsesPerKey : Int32) (minValidTimeMillis : Int64)
    (cd : CredentialData) : Option CredentialData :=
  let cd := { cd with keyCount, maxUsesPerKey, minValidTimeMillis }
  if cd.keyCount.toInt < 0 then none
  else some { cd with authKeyDatas := resize cd.authKeyDatas cd.keyCount.toInt.toNat }

theorem setAvailableAuthenticationKeys_eq_none_iff {cd : CredentialData}
    {keyCount maxUsesPerKey : Int32} {minValidTimeMillis : Int64} :
    cd.setAvailableAuthenticationKeys keyCount maxUsesPerKey minValidTimeMillis = none ↔
      keyCount.toInt < 0 := by
  unfold setAvailableAuthenticationKeys
  dsimp only
  split <;> simp_all

@[simp] theorem length_resize (l : List AuthKeyData) (n : Nat) : (resize l n).length = n := by
  simp only [resize, List.length_append, List.length_take, List.length_replicate]
  omega

@[simp] theorem resize_length_self (l : List AuthKeyData) : resize l l.length = l := by
  simp [resize]

/-- With the count the state already has, the records stay as they are. -/
theorem setAvailableAuthenticationKeys_keyCount {cd : CredentialData}
    (hkc : cd.keyCount.toInt = cd.authKeyDatas.length) (maxUsesPerKey : Int32)
    (minValidTimeMillis : Int64) :
    cd.setAvailableAuthenticationKeys cd.keyCount maxUsesPerKey minValidTimeMillis =
      some { cd with maxUsesPerKey, minValidTimeMillis } := by
  have hn : cd.keyCount.toInt.toNat = cd.authKeyDatas.length := by omega
  unfold setAvailableAuthenticationKeys
  dsimp only
  rw [if_neg (by omega), hn, resize_length_self]

theorem setAvailableAuthenticationKeys_eq_some {cd cd' : CredentialData}
    {keyCount maxUsesPerKey : Int32} {minValidTimeMillis : Int64}
    (h : cd.setAvailableAuthenticationKeys keyCount maxUsesPerKey minValidTimeMillis = some cd') :
    0 ≤ keyCount.toInt ∧
      cd' = { cd with
        keyCount, maxUsesPerKey, minValidTimeMillis,
        authKeyDatas := resize cd.authKeyDatas keyCount.toInt.toNat } := by
  unfold setAvailableAuthenticationKeys at h
  dsimp only at h
  split at h
  · cases h
  · rename_i hk
    cases h
    exact ⟨Int.not_lt.mp hk, rfl⟩

/-! ### findAuthKey_ and selectAuthKey -/

/-- One record of findAuthKey_'s loop.  An expired record is skipped unless expired keys are
allowed; a certified one becomes the candidate when there is none or the candidate is used
more.  A candidate is the record and its position, which is what a pointer to it gives. -/
def findStep (allowUsingExpiredKeys : Bool) (nowMilliSeconds : Int64)
    (candidate : Option (AuthKeyData × Nat)) : AuthKeyData × Nat → Option (AuthKeyData × Nat)
  | (data, i) =>
    if nowMilliSeconds > data.expirationDateMillisSinceEpoch && !allowUsingExpiredKeys then
      candidate
    else if data.certificate.length ≠ 0 then
      match candidate with
      | none => some (data, i)
      | some c => if data.useCount < c.1.useCount then some (data, i) else candidate
    else candidate

/-- The clock reading `now` in seconds is turned into milliseconds with an overflow check. -/
def findAuthKey_ (allowUsingExhaustedKeys allowUsingExpiredKeys : Bool) (now : Int64)
    (cd : CredentialData) : Option (AuthKeyData × Nat) :=
  match CInt.mul64 now 1000 with
  | none => none
  | some nowMilliSeconds =>
    match cd.authKeyDatas.zipIdx.foldl (findStep allowUsingExpiredKeys nowMilliSeconds) none with
    | none => none
    | some candidate =>
      if candidate.1.useCount ≥ cd.maxUsesPerKey && !allowUsingExhaustedKeys then none
      else some candidate

/-- The position of the key chosen, if any, and the state with its use count raised when
asked; `candidate->useCount += 1` is undefined at INT_MAX. -/
def selectAuthKey (allowUsingExhaustedKeys allowUsingExpiredKeys incrementUsageCount : Bool)
    (now : Int64) (cd : CredentialData) : Option (Option Nat × CredentialData) :=
  -- an unexpired key first, then an expired one when those are allowed
  let candidate := (cd.findAuthKey_ allowUsingExhaustedKeys false now).or
    (if allowUsingExpiredKeys then cd.findAuthKey_ allowUsingExhaustedKeys true now else none)
  match candidate with
  | none => some (none, cd)
  | some (data, i) =>
    if incrementUsageCount then do
      let useCount ← CInt.add32 data.useCount 1
      pure (some i, { cd with authKeyDatas := cd.authKeyDatas.set i { data with useCount } })
    else some (some i, cd)

/-! ### getAuthKeysNeedingCertification and storeStaticAuthenticationData -/

/-- One record of getAuthKeysNeedingCertification's loop, with the HAL's answer should it ask
for a new signing key: the record, and the pending certificate it reports.  A key needs a new
one when it has no certificate, is used up, or expires before the minimal validity;
`expirationDateMillisSinceEpoch - minValidTimeMillis` is computed first, for every record. -/
def certifyAuthKey (generateSigningKeyPair : Option (Bytes × Bytes)) (maxUsesPerKey : Int32)
    (minValidTimeMillis nowMilliseconds : Int64) (data : AuthKeyData) :
    Except Fault (AuthKeyData × Option Bytes) := do
  let keyExceedUseCount := decide (data.useCount ≥ maxUsesPerKey)
  let expirationDateAdjusted ←
    match CInt.sub64 data.expirationDateMillisSinceEpoch minValidTimeMillis with
    | some adjusted => pure adjusted
    | none => throw .crash
  let keyBeyondAdjustedExpirationDate := decide (nowMilliseconds > expirationDateAdjusted)
  let newKeyNeeded :=
    data.certificate.length == 0 || keyExceedUseCount || keyBeyondAdjustedExpirationDate
  let certificationPending := decide (data.pendingCertificate.length > 0)
  if newKeyNeeded && !certificationPending then
    match generateSigningKeyPair with
    | none => throw .fail
    | some (signingKeyBlob, signingKeyCertificate) =>
      let data := { data with
        pendingCertificate := signingKeyCertificate, pendingKeyBlob := signingKeyBlob }
      pure (data, some signingKeyCertificate)
  else if certificationPending then pure (data, some data.pendingCertificate)
  else pure (data, none)

/-- The certificates of the pending keys, with the HAL's generateSigningKeyPair as it answers
for the record at each position.  The state matters only when the list is returned: on an
error the caller drops it. -/
def getAuthKeysNeedingCertification (generateSigningKeyPair : Nat → Option (Bytes × Bytes))
    (now : Int64) (cd : CredentialData) : Except Fault (List Bytes × CredentialData) :=
  match CInt.mul64 now 1000 with
  | none => throw .fail
  | some nowMilliseconds => do
    let results ← cd.authKeyDatas.zipIdx.mapM fun (data, i) =>
      certifyAuthKey (generateSigningKeyPair i) cd.maxUsesPerKey cd.minValidTimeMillis
        nowMilliseconds data
    pure (results.filterMap (·.2), { cd with authKeyDatas := results.map (·.1) })

/-- The first record whose pending certificate is the key takes the pending key as its key,
with a fresh use count; none when no record waits for this certificate. -/
def storePending (authenticationKey : Bytes) (expirationDateMillisSinceEpoch : Int64)
    (staticAuthData : Bytes) : List AuthKeyData → Option (List AuthKeyData)
  | [] => none
  | data :: rest =>
    if data.pendingCertificate = authenticationKey then
      let data := { data with
        certificate := data.pendingCertificate, keyBlob := data.pendingKeyBlob,
        expirationDateMillisSinceEpoch, staticAuthenticationData := staticAuthData,
        pendingCertificate := [], pendingKeyBlob := [], useCount := 0 }
      some (data :: rest)
    else (storePending authenticationKey expirationDateMillisSinceEpoch staticAuthData rest).map
      (data :: ·)

def storeStaticAuthenticationData (authenticationKey : Bytes)
    (expirationDateMillisSinceEpoch : Int64) (staticAuthData : Bytes) (cd : CredentialData) :
    Bool × CredentialData :=
  match storePending authenticationKey expirationDateMillisSinceEpoch staticAuthData
      cd.authKeyDatas with
  | some authKeyDatas => (true, { cd with authKeyDatas })
  | none => (false, cd)

/-- Storing a certificate changes one record and keeps their number. -/
theorem length_storePending {authenticationKey staticAuthData : Bytes}
    {expirationDateMillisSinceEpoch : Int64} {l l' : List AuthKeyData}
    (h : storePending authenticationKey expirationDateMillisSinceEpoch staticAuthData l = some l') :
    l'.length = l.length := by
  induction l generalizing l' with
  | nil => cases h
  | cons data rest ih =>
    unfold storePending at h
    split at h
    · cases h
      rfl
    · obtain ⟨rest', hrest, rfl⟩ := Option.map_eq_some_iff.mp h
      simp [ih hrest]

/-- The first record waiting for the certificate takes it as its key. -/
theorem storePending_cons_self (d : AuthKeyData) (rest : List AuthKeyData)
    (expirationDateMillisSinceEpoch : Int64) (staticAuthData : Bytes) :
    storePending d.pendingCertificate expirationDateMillisSinceEpoch staticAuthData (d :: rest) =
      some ({ d with
        certificate := d.pendingCertificate, keyBlob := d.pendingKeyBlob,
        expirationDateMillisSinceEpoch, staticAuthenticationData := staticAuthData,
        pendingCertificate := [], pendingKeyBlob := [], useCount := 0 } :: rest) := by
  rw [storePending, if_pos rfl]

theorem storeStaticAuthenticationData_eq_true {authenticationKey staticAuthData : Bytes}
    {expirationDateMillisSinceEpoch : Int64} {cd cd' : CredentialData}
    (h : cd.storeStaticAuthenticationData authenticationKey expirationDateMillisSinceEpoch
      staticAuthData = (true, cd')) :
    ∃ datas : List AuthKeyData, datas.length = cd.authKeyDatas.length ∧
      cd' = { cd with authKeyDatas := datas } := by
  unfold storeStaticAuthenticationData at h
  split at h
  · rename_i datas hstore
    cases h
    exact ⟨datas, length_storePending hstore, rfl⟩
  · cases h

/-! ### Which key a pass of findAuthKey_ finds -/

/-- A record a pass may take: it has a certificate, and it has not expired at `nowMilliSeconds`
unless expired keys are allowed. -/
def Eligible (allowUsingExpiredKeys : Bool) (nowMilliSeconds : Int64) (data : AuthKeyData) : Prop :=
  data.certificate ≠ [] ∧
    (nowMilliSeconds > data.expirationDateMillisSinceEpoch → allowUsingExpiredKeys = true)

/-- The record at position `i` of `l` is admitted by `P`, no admitted record is used less, and
every admitted record before it is used more. -/
structure LeastUsed (P : AuthKeyData → Prop) (l : List AuthKeyData) (i : Nat) (data : AuthKeyData) :
    Prop where
  get : l[i]? = some data
  admitted : P data
  le : ∀ (j : Nat) (e : AuthKeyData), l[j]? = some e → P e → data.useCount ≤ e.useCount
  first : ∀ (j : Nat) (e : AuthKeyData), j < i → l[j]? = some e → P e →
    data.useCount < e.useCount

theorem LeastUsed.unique {P : AuthKeyData → Prop} {l : List AuthKeyData} {i i' : Nat}
    {d d' : AuthKeyData} (h : LeastUsed P l i d) (h' : LeastUsed P l i' d') : i = i' ∧ d = d' := by
  -- a first least-used record before the other would be used less than it
  have hii' : i = i' := by
    rcases Nat.lt_trichotomy i i' with hlt | heq | hgt
    · have h1 := h'.first i d hlt h.get h.admitted
      have h2 := h.le i' d' h'.get h'.admitted
      rw [Int32.lt_iff_toInt_lt] at h1
      rw [Int32.le_iff_toInt_le] at h2
      omega
    · exact heq
    · have h1 := h.first i' d' hgt h'.get h'.admitted
      have h2 := h'.le i d h.get h.admitted
      rw [Int32.lt_iff_toInt_lt] at h1
      rw [Int32.le_iff_toInt_le] at h2
      omega
  subst hii'
  exact ⟨rfl, Option.some.inj (h.get.symm.trans h'.get)⟩

/-- A candidate's rank in the loop: the fewer uses, the higher; no candidate is lowest. -/
def useRank : Option (AuthKeyData × Nat) → WithBot Intᵒᵈ
  | none => ⊥
  | some c => ↑(OrderDual.toDual c.1.useCount.toInt)

/-- What a record offers the loop: itself, when the pass may take it. -/
def offerKey (allowUsingExpiredKeys : Bool) (nowMilliSeconds : Int64) (p : AuthKeyData × Nat) :
    Option (AuthKeyData × Nat) :=
  if nowMilliSeconds > p.1.expirationDateMillisSinceEpoch && !allowUsingExpiredKeys then none
  else if p.1.certificate.length ≠ 0 then some p
  else none

theorem offerKey_eq_some_iff {a : Bool} {n : Int64} {p q : AuthKeyData × Nat} :
    offerKey a n p = some q ↔ q = p ∧ Eligible a n p.1 := by
  unfold offerKey Eligible
  cases a <;> by_cases hexp : n > p.1.expirationDateMillisSinceEpoch <;>
    simp [hexp, @eq_comm _ p q, and_comm]

/-- The loop keeps the first record of highest rank among those offered. -/
theorem findStep_eq_keepBest (a : Bool) (n : Int64) :
    findStep a n = Scan.keepBest useRank (offerKey a n) := by
  funext c p
  obtain ⟨data, i⟩ := p
  simp only [findStep, Scan.keepBest, offerKey]
  -- the two passes test the same conditions in the same order
  split
  · simp only [useRank, not_lt_bot, ↓reduceIte]
  · split
    · cases c with
      | none => simp only [useRank, WithBot.bot_lt_coe, ↓reduceIte]
      | some c =>
        simp only [Int32.lt_iff_toInt_lt, useRank, WithBot.coe_lt_coe, OrderDual.toDual_lt_toDual]
    · simp only [useRank, not_lt_bot, ↓reduceIte]

/-- A pass over the records finds nothing the pass may take, or the first least-used one. -/
theorem foldl_findStep (a : Bool) (n : Int64) (l : List AuthKeyData) :
    (l.zipIdx.foldl (findStep a n) none = none ∧
        ∀ (j : Nat) (e : AuthKeyData), l[j]? = some e → ¬Eligible a n e) ∨
      ∃ i d, l.zipIdx.foldl (findStep a n) none = some (d, i) ∧ LeastUsed (Eligible a n) l i d := by
  rw [findStep_eq_keepBest]
  rcases Scan.foldl_keepBest useRank (offerKey a n) l.zipIdx none
    with ⟨hr, hall⟩ | ⟨L₁, x, L₂, hl, hr, hb, h₁, h₂⟩
  · -- nothing offered itself: every offer ranks at the bottom
    refine .inl ⟨hr, fun j e he helig => ?_⟩
    have hmem : (e, j) ∈ l.zipIdx := List.mem_zipIdx_iff_getElem?.mpr he
    have hoff : offerKey a n (e, j) = some (e, j) := offerKey_eq_some_iff.mpr ⟨rfl, helig⟩
    have := hall (e, j) hmem
    rw [hoff] at this
    exact absurd this (not_le.mpr (WithBot.bot_lt_coe _))
  · -- the kept record offered itself, and ranks at least as high as every other offer
    obtain ⟨d, i⟩ := x
    cases hx : offerKey a n (d, i) with
    | none => rw [hx] at hb; exact absurd hb (lt_irrefl _)
    | some q =>
      obtain ⟨rfl, helig⟩ := offerKey_eq_some_iff.mp hx
      have hmem : (d, i) ∈ l.zipIdx := hl ▸ List.mem_append_right L₁ List.mem_cons_self
      have hrank : ∀ (j : Nat) (e : AuthKeyData), l[j]? = some e → Eligible a n e →
          useRank (some (e, j)) ≤ useRank (some (d, i)) ∧
            (j < i → useRank (some (e, j)) < useRank (some (d, i))) := by
        intro j e he helig'
        have hoff : offerKey a n (e, j) = some (e, j) := offerKey_eq_some_iff.mpr ⟨rfl, helig'⟩
        have hmem' : (e, j) ∈ L₁ ++ (d, i) :: L₂ := hl ▸ List.mem_zipIdx_iff_getElem?.mpr he
        have hpos := Scan.le_snd_of_zipIdx_eq_append_cons hl
        rcases List.mem_append.mp hmem' with h | h
        · have := h₁ (e, j) h
          rw [hoff, hx] at this
          exact ⟨le_of_lt this, fun _ => this⟩
        · refine ⟨?_, fun hj => absurd (hpos (e, j) h) (by simpa using hj)⟩
          rcases List.mem_cons.mp h with h | h
          · cases h
            exact le_refl _
          · have := h₂ (e, j) h
            rwa [hoff, hx] at this
      refine .inr ⟨i, d, by rw [hr, hx], ⟨List.mem_zipIdx_iff_getElem?.mp hmem, helig, ?_, ?_⟩⟩
      · intro j e he helig'
        have := (hrank j e he helig').1
        simpa [useRank, WithBot.coe_le_coe, Int32.le_iff_toInt_le] using this
      · intro j e hj he helig'
        have := (hrank j e he helig').2 hj
        simpa [useRank, WithBot.coe_lt_coe, Int32.lt_iff_toInt_lt] using this

theorem leastUsed_singleton {P : AuthKeyData → Prop} {d : AuthKeyData} (h : P d) :
    LeastUsed P [d] 0 d where
  get := rfl
  admitted := h
  le j e he _ := by
    cases j with
    | zero =>
      cases he
      exact Int32.le_iff_toInt_le.mpr (le_refl _)
    | succ j => simp at he
  first j _ hj := absurd hj (Nat.not_lt_zero j)

/-- A pass with these flags finds a key: there is a least-used record it may take, and that
record is not used up unless used-up keys are allowed. -/
def Usable (allowUsingExhaustedKeys allowUsingExpiredKeys : Bool) (nowMilliSeconds : Int64)
    (cd : CredentialData) : Prop :=
  ∃ i d, LeastUsed (Eligible allowUsingExpiredKeys nowMilliSeconds) cd.authKeyDatas i d ∧
    (allowUsingExhaustedKeys = true ∨ d.useCount < cd.maxUsesPerKey)

/-- The key selectAuthKey takes: the least-used unexpired one, or, only when no unexpired key
can be used and expired keys are allowed, the least-used of all certified keys; in either case
one that is not used up, unless used-up keys are allowed. -/
def Chosen (allowUsingExhaustedKeys allowUsingExpiredKeys : Bool) (nowMilliSeconds : Int64)
    (cd : CredentialData) (i : Nat) (data : AuthKeyData) : Prop :=
  (LeastUsed (Eligible false nowMilliSeconds) cd.authKeyDatas i data ∨
      (allowUsingExpiredKeys = true ∧ ¬Usable allowUsingExhaustedKeys false nowMilliSeconds cd ∧
        LeastUsed (Eligible true nowMilliSeconds) cd.authKeyDatas i data)) ∧
    (allowUsingExhaustedKeys = true ∨ data.useCount < cd.maxUsesPerKey)

section Find

variable {cd : CredentialData} {exh a : Bool} {now nowMs : Int64}

/-- At most one key is chosen: the second pass is asked only when the first finds no key. -/
theorem Chosen.unique {i i' : Nat} {d d' : AuthKeyData} (h : Chosen exh a nowMs cd i d)
    (h' : Chosen exh a nowMs cd i' d') : i = i' ∧ d = d' := by
  obtain ⟨hl | ⟨-, hnu, hl⟩, hex⟩ := h <;> obtain ⟨hl' | ⟨-, hnu', hl'⟩, hex'⟩ := h'
  · exact hl.unique hl'
  · exact absurd ⟨i, d, hl, hex⟩ hnu'
  · exact absurd ⟨i', d', hl', hex'⟩ hnu
  · exact hl.unique hl'

/-- The post-check of findAuthKey_: a used-up candidate is dropped unless such keys are allowed. -/
theorem exhausted_iff {d : AuthKeyData} :
    (decide (d.useCount ≥ cd.maxUsesPerKey) && !exh) = true ↔
      ¬(exh = true ∨ d.useCount < cd.maxUsesPerKey) := by
  cases exh <;> simp [Int32.not_lt]

theorem findAuthKey_of_overflow (hnow : CInt.mul64 now 1000 = none) :
    cd.findAuthKey_ exh a now = none := by
  simp [findAuthKey_, hnow]

theorem findAuthKey_eq_some_iff (hnow : CInt.mul64 now 1000 = some nowMs) {d : AuthKeyData}
    {i : Nat} :
    cd.findAuthKey_ exh a now = some (d, i) ↔
      LeastUsed (Eligible a nowMs) cd.authKeyDatas i d ∧
        (exh = true ∨ d.useCount < cd.maxUsesPerKey) := by
  simp only [findAuthKey_, hnow]
  rcases foldl_findStep a nowMs cd.authKeyDatas with ⟨hr, hall⟩ | ⟨i', d', hr, hl⟩
  · rw [hr]
    simp only [reduceCtorEq, false_iff, not_and]
    exact fun hl _ => hall i d hl.get hl.admitted
  · rw [hr]
    dsimp only
    constructor
    · intro h
      split at h
      · cases h
      · rename_i hex
        cases h
        exact ⟨hl, not_not.mp (mt exhausted_iff.mpr hex)⟩
    · rintro ⟨hl', hex⟩
      obtain ⟨rfl, rfl⟩ := hl.unique hl'
      rw [if_neg (fun h => exhausted_iff.mp h hex)]

theorem findAuthKey_eq_none_iff (hnow : CInt.mul64 now 1000 = some nowMs) :
    cd.findAuthKey_ exh a now = none ↔ ¬Usable exh a nowMs cd := by
  constructor
  · rintro h ⟨i, d, hl, hex⟩
    rw [(findAuthKey_eq_some_iff hnow).mpr ⟨hl, hex⟩] at h
    cases h
  · intro h
    cases hf : cd.findAuthKey_ exh a now with
    | none => rfl
    | some c =>
      obtain ⟨d, i⟩ := c
      exact absurd ⟨i, d, (findAuthKey_eq_some_iff hnow).mp hf⟩ h

/-- The candidate of selectAuthKey's two passes. -/
theorem candidate_eq_some_iff (hnow : CInt.mul64 now 1000 = some nowMs) {d : AuthKeyData}
    {i : Nat} :
    (cd.findAuthKey_ exh false now).or (if a then cd.findAuthKey_ exh true now else none) =
        some (d, i) ↔ Chosen exh a nowMs cd i d := by
  unfold Chosen
  cases hf : cd.findAuthKey_ exh false now with
  | some c =>
    -- the first pass found a key, so no second pass runs
    have hu : Usable exh false nowMs cd := by
      obtain ⟨d', i'⟩ := c
      exact ⟨i', d', (findAuthKey_eq_some_iff hnow).mp hf⟩
    rw [Option.some_or, ← hf, findAuthKey_eq_some_iff hnow]
    constructor
    · rintro ⟨hl, hex⟩
      exact ⟨.inl hl, hex⟩
    · rintro ⟨hl | ⟨-, hnu, -⟩, hex⟩
      · exact ⟨hl, hex⟩
      · exact absurd hu hnu
  | none =>
    have hnu := (findAuthKey_eq_none_iff hnow).mp hf
    rw [Option.none_or]
    constructor
    · intro h
      cases a with
      | false => cases h
      | true =>
        obtain ⟨hl, hex⟩ := (findAuthKey_eq_some_iff hnow).mp h
        exact ⟨.inr ⟨rfl, hnu, hl⟩, hex⟩
    · rintro ⟨hl | ⟨rfl, -, hl⟩, hex⟩
      · exact absurd ⟨i, d, hl, hex⟩ hnu
      · exact (findAuthKey_eq_some_iff hnow).mpr ⟨hl, hex⟩

theorem candidate_eq_none_iff (hnow : CInt.mul64 now 1000 = some nowMs) :
    (cd.findAuthKey_ exh false now).or (if a then cd.findAuthKey_ exh true now else none) = none ↔
      ¬Usable exh false nowMs cd ∧ (a = true → ¬Usable exh true nowMs cd) := by
  rw [Option.or_eq_none_iff, findAuthKey_eq_none_iff hnow]
  cases a with
  | false => simp
  | true => simp [findAuthKey_eq_none_iff hnow]

end Find

/-! ### What selectAuthKey returns -/

section Select

variable {cd cd' : CredentialData} {exh a inc : Bool} {now nowMs : Int64}

theorem selectAuthKey_of_overflow (hnow : CInt.mul64 now 1000 = none) :
    cd.selectAuthKey exh a inc now = some (none, cd) := by
  simp only [selectAuthKey, findAuthKey_of_overflow hnow, ite_self, Option.or_self]

/-- selectAuthKey returns the key `Chosen` describes, and with `incrementUsageCount` that record,
and no other, is used once more. -/
theorem selectAuthKey_eq_some_some_iff (hnow : CInt.mul64 now 1000 = some nowMs) {i : Nat} :
    cd.selectAuthKey exh a inc now = some (some i, cd') ↔
      ∃ d, Chosen exh a nowMs cd i d ∧
        if inc then ∃ u : Int32, u.toInt = d.useCount.toInt + 1 ∧
          cd' = { cd with authKeyDatas := cd.authKeyDatas.set i { d with useCount := u } }
        else cd' = cd := by
  unfold selectAuthKey
  dsimp only
  cases hc : (cd.findAuthKey_ exh false now).or
      (if a then cd.findAuthKey_ exh true now else none) with
  | none =>
    simp only [Option.some.injEq, Prod.mk.injEq, reduceCtorEq, false_and, false_iff, not_exists,
      not_and]
    intro d hch
    have := (candidate_eq_some_iff hnow).mpr hch
    rw [hc] at this
    cases this
  | some c =>
    obtain ⟨d, j⟩ := c
    have hch := (candidate_eq_some_iff hnow).mp hc
    cases inc with
    | false =>
      simp only [Bool.false_eq_true, if_false, Option.some.injEq, Prod.mk.injEq]
      constructor
      · rintro ⟨rfl, rfl⟩
        exact ⟨d, hch, rfl⟩
      · rintro ⟨d', h', rfl⟩
        obtain ⟨rfl, rfl⟩ := h'.unique hch
        exact ⟨rfl, rfl⟩
    | true =>
      simp only [if_true]
      cases hadd : CInt.add32 d.useCount 1 with
      | none =>
        -- the increment overflows, so no key is returned
        simp only [Option.bind_eq_bind, Option.bind_none, reduceCtorEq, false_iff, not_exists,
          not_and]
        intro d' h' u hu _
        obtain ⟨rfl, rfl⟩ := h'.unique hch
        have := u.toInt_lt
        rw [CInt.add32_one_eq_none_iff] at hadd
        omega
      | some u =>
        have hu := CInt.add32_one_eq_some_iff.mp hadd
        simp only [Option.bind_eq_bind, Option.bind_some, Option.pure_def, Option.some.injEq,
          Prod.mk.injEq]
        constructor
        · rintro ⟨rfl, rfl⟩
          exact ⟨d, hch, u, hu.2, rfl⟩
        · rintro ⟨d', h', u', hu', rfl⟩
          obtain ⟨rfl, rfl⟩ := h'.unique hch
          have : u' = u := Int32.toInt_inj.mp (by omega)
          subst this
          exact ⟨rfl, rfl⟩

/-- selectAuthKey returns no key, and leaves the state alone, exactly when neither pass it runs
finds one. -/
theorem selectAuthKey_eq_some_none_iff (hnow : CInt.mul64 now 1000 = some nowMs) :
    cd.selectAuthKey exh a inc now = some (none, cd') ↔
      cd' = cd ∧ ¬Usable exh false nowMs cd ∧ (a = true → ¬Usable exh true nowMs cd) := by
  rw [← candidate_eq_none_iff hnow]
  unfold selectAuthKey
  dsimp only
  cases hc : (cd.findAuthKey_ exh false now).or
      (if a then cd.findAuthKey_ exh true now else none) with
  | none => simp [@eq_comm _ cd cd']
  | some c =>
    obtain ⟨d, j⟩ := c
    simp only [reduceCtorEq, and_false, iff_false]
    cases inc with
    | false => simp
    | true =>
      simp only [if_true]
      cases CInt.add32 d.useCount 1 <;> simp

/-- selectAuthKey runs into undefined behaviour exactly when it is to raise the use count of the
key it chose and that count is INT_MAX. -/
theorem selectAuthKey_eq_none_iff (hnow : CInt.mul64 now 1000 = some nowMs) :
    cd.selectAuthKey exh a inc now = none ↔
      inc = true ∧ ∃ i d, Chosen exh a nowMs cd i d ∧ d.useCount.toInt = 2 ^ 31 - 1 := by
  unfold selectAuthKey
  dsimp only
  cases hc : (cd.findAuthKey_ exh false now).or
      (if a then cd.findAuthKey_ exh true now else none) with
  | none =>
    simp only [reduceCtorEq, false_iff, not_and, not_exists]
    intro _ i d hch
    have := (candidate_eq_some_iff hnow).mpr hch
    rw [hc] at this
    cases this
  | some c =>
    obtain ⟨d, j⟩ := c
    have hch := (candidate_eq_some_iff hnow).mp hc
    cases inc with
    | false => simp
    | true =>
      simp only [if_true, true_and]
      constructor
      · intro h
        cases hadd : CInt.add32 d.useCount 1 with
        | none => exact ⟨j, d, hch, CInt.add32_one_eq_none_iff.mp hadd⟩
        | some u => simp [hadd] at h
      · rintro ⟨i, d', h', hmax⟩
        obtain ⟨rfl, rfl⟩ := h'.unique hch
        simp [CInt.add32_one_eq_none_iff.mpr hmax]

/-- The increment of the chosen key's use count overflows an int at INT_MAX. -/
theorem selectAuthKey_increment_overflows (cd : CredentialData) (exh a : Bool) (now nowMs : Int64)
    (i : Nat) (d : AuthKeyData) (hnow : CInt.mul64 now 1000 = some nowMs)
    (hc : Chosen exh a nowMs cd i d) (hmax : d.useCount = Int32.maxValue) :
    cd.selectAuthKey exh a true now = none :=
  (selectAuthKey_eq_none_iff hnow).mpr ⟨rfl, i, d, hc, by rw [hmax]; rfl⟩

/-- One certified key that never expires and has been used INT_MAX times, selected at time 0
with used-up keys allowed. -/
theorem selectAuthKey_increment_overflows_intMax :
    let key : AuthKeyData :=
      { certificate := [1], expirationDateMillisSinceEpoch := Int64.maxValue,
        useCount := Int32.maxValue }
    let cd : CredentialData := { fileName := "", authKeyDatas := [key], keyCount := 1 }
    CInt.mul64 0 1000 = some 0 ∧ Chosen true false 0 cd 0 key ∧ key.useCount = Int32.maxValue ∧
      cd.selectAuthKey true false true 0 = none := by
  intro key cd
  have hnow : CInt.mul64 0 1000 = some 0 := by decide
  have hc : Chosen true false 0 cd 0 key :=
    ⟨.inl (leastUsed_singleton ⟨by decide, fun h => absurd h (by decide)⟩), .inl rfl⟩
  exact ⟨hnow, hc, rfl, selectAuthKey_increment_overflows cd true false 0 0 0 key hnow hc rfl⟩

end Select

/-! ### Where getAuthKeysNeedingCertification crashes -/

section Certify

variable {gen : Option (Bytes × Bytes)} {maxUsesPerKey : Int32}
  {minValidTimeMillis nowMilliseconds : Int64} {data : AuthKeyData}

/-- A record's step crashes exactly when its adjusted expiration date overflows; the HAL's
error only makes the call fail. -/
theorem certifyAuthKey_eq_crash_iff :
    certifyAuthKey gen maxUsesPerKey minValidTimeMillis nowMilliseconds data = .error .crash ↔
      CInt.sub64 data.expirationDateMillisSinceEpoch minValidTimeMillis = none := by
  unfold certifyAuthKey
  cases CInt.sub64 data.expirationDateMillisSinceEpoch minValidTimeMillis with
  | none => simp [bind, Except.bind, throw, throwThe, MonadExceptOf.throw]
  | some adjusted =>
    simp only [bind, Except.bind, pure, Except.pure, reduceCtorEq, iff_false]
    split
    · split <;> simp [throw, throwThe, MonadExceptOf.throw]
    · split <;> simp

variable {cd : CredentialData} {generateSigningKeyPair : Nat → Option (Bytes × Bytes)}
  {now nowMs : Int64}

/-- The call cannot crash when no record's adjusted expiration date overflows. -/
theorem getAuthKeysNeedingCertification_ne_crash
    (hsafe : ∀ d ∈ cd.authKeyDatas,
      CInt.sub64 d.expirationDateMillisSinceEpoch cd.minValidTimeMillis ≠ none) :
    cd.getAuthKeysNeedingCertification generateSigningKeyPair now ≠ .error .crash := by
  unfold getAuthKeysNeedingCertification
  cases CInt.mul64 now 1000 with
  | none => simp [throw, throwThe, MonadExceptOf.throw]
  | some nowMilliseconds =>
    dsimp only
    intro h
    cases hm : cd.authKeyDatas.zipIdx.mapM (fun (p : AuthKeyData × Nat) =>
        certifyAuthKey (generateSigningKeyPair p.2) cd.maxUsesPerKey cd.minValidTimeMillis
          nowMilliseconds p.1) with
    | error e =>
      rw [hm] at h
      have he : e = .crash := by simpa [bind, Except.bind] using h
      subst he
      obtain ⟨⟨d, i⟩, hmem, hd⟩ := Except.mapM_eq_error hm
      have hd' : d ∈ cd.authKeyDatas :=
        List.mem_of_getElem? (List.mem_zipIdx_iff_getElem?.mp hmem)
      exact hsafe d hd' (certifyAuthKey_eq_crash_iff.mp hd)
    | ok results => simp [hm, bind, Except.bind, pure, Except.pure] at h

/-- A call that returns the certificates rewrites the records one for one. -/
theorem getAuthKeysNeedingCertification_eq_ok {keysNeedingCert : List Bytes} {cd' : CredentialData}
    (h : cd.getAuthKeysNeedingCertification generateSigningKeyPair now = .ok (keysNeedingCert, cd')) :
    ∃ datas : List AuthKeyData, datas.length = cd.authKeyDatas.length ∧
      cd' = { cd with authKeyDatas := datas } := by
  unfold getAuthKeysNeedingCertification at h
  split at h
  · exact absurd h Except.throw_ne_ok
  · obtain ⟨results, hm, hres⟩ := Except.bind_eq_ok.mp h
    obtain ⟨-, rfl⟩ := Prod.mk.inj (Except.pure_eq_ok.mp hres).symm
    refine ⟨results.map (·.1), ?_, rfl⟩
    rw [List.length_map, Except.length_of_mapM_eq_ok hm, List.length_zipIdx]

/-- The first record's adjusted expiration date is computed before the HAL is asked anything. -/
theorem getAuthKeysNeedingCertification_of_overflow (hnow : CInt.mul64 now 1000 = some nowMs)
    {d : AuthKeyData} {rest : List AuthKeyData} (hd : cd.authKeyDatas = d :: rest)
    (h : CInt.sub64 d.expirationDateMillisSinceEpoch cd.minValidTimeMillis = none) :
    cd.getAuthKeysNeedingCertification generateSigningKeyPair now = .error .crash := by
  have hcrash : certifyAuthKey (generateSigningKeyPair 0) cd.maxUsesPerKey cd.minValidTimeMillis
      nowMs d = .error .crash := certifyAuthKey_eq_crash_iff.mpr h
  simp [getAuthKeysNeedingCertification, hnow, hd, hcrash, bind, Except.bind]

end Certify

end CredentialData

end Keystore2.Identity
