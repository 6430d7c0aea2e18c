import Keystore2.Database.Effects

/-! Keys of limited use.  To its clients a key stored with a `USAGE_COUNT_LIMIT` is a counter
of the uses it has left: `check_and_update_key_usage_count`, which `AuthInfo::after_finish`
calls after each successful finish, takes a use while one is left, the last use deletes the
key, and every call after it fails with `INVALID_KEY_BLOB`.

Clients issue operations one after another, each in a transaction of its own, and a failed
one is rolled back (`runEach`).  The operations of other clients on other keys leave the rows
of this key as they were; under them the rows of the key are, at every point of a run, the
rows it was stored with after the uses so far (`KeyRows.withUsesLeft`). -/

namespace Keystore2.Database

open KeyParameter Table

/-- One use of a key with `n` uses left. -/
def useKey (n : Nat) : Except Error Nat :=
  if 0 < n then pure (n - 1) else throw (.km .invalidKeyBlob)

/-- What `m` uses in a row return, from `n` uses left. -/
def useKeyTimes : Nat → Nat → List (Except Error Unit)
  | _, 0 => []
  | n, m + 1 =>
    match useKey n with
    | .ok n' => .ok () :: useKeyTimes n' m
    | .error e => .error e :: useKeyTimes n m

/-- The first `n` uses succeed and every later one fails. -/
theorem useKeyTimes_eq (n m : Nat) :
    useKeyTimes n m = List.replicate (min n m) (.ok ()) ++
      List.replicate (m - n) (.error (.km .invalidKeyBlob)) := by
  induction m generalizing n with
  | zero => simp [useKeyTimes]
  | succ m ih =>
    cases n with
    | zero =>
      simp [useKeyTimes, useKey, throw, throwThe, MonadExceptOf.throw, ih, List.replicate_succ]
    | succ n =>
      simp [useKeyTimes, useKey, pure, Except.pure, ih, Nat.succ_min_succ, List.replicate_succ]

example : useKeyTimes 2 3 = [.ok (), .ok (), .error (.km .invalidKeyBlob)] := by decide

/-- A row of a limit other than `USAGE_COUNT_LIMIT` has no usage count. -/
theorem usageCountLimit?_isSome {v : KeyParameterValue} :
    v.usageCountLimit?.isSome = (v.getTag == .usageCountLimit) := by
  cases v <;> rfl

/-- The row with its value set to the limit `n`, if it is a `USAGE_COUNT_LIMIT` row. -/
def KeyParameterRow.withUsage (n : Int32) (r : KeyParameterRow) : KeyParameterRow :=
  if r.param.value.getTag = .usageCountLimit then
    { r with param := { r.param with value := .usageCountLimit n } }
  else r

namespace KeystoreDB

/-- The rows of one key in the tables `mark_unreferenced` clears. -/
structure KeyRows where
  keyentry : List KeyEntryRow
  keyparameter : List KeyParameterRow
  keymetadata : List (MetaRow Int64 KeyMetaEntry)
  grantTable : List GrantRow
  blobentry : List BlobEntryRow
  deriving DecidableEq

def keyRows (db : KeystoreDB) (keyId : Int64) : KeyRows where
  keyentry := db.keyentry.filter (·.id == keyId)
  keyparameter := db.keyparameter.filter (·.keyentryid == keyId)
  keymetadata := db.keymetadata.filter (·.owner == keyId)
  grantTable := db.grantTable.filter (·.keyentryid == keyId)
  blobentry := db.blobentry.filter (·.keyentryid == keyId)

/-- The value of the first `USAGE_COUNT_LIMIT` row, the limit the check reads. -/
def usageLimit (rows : List KeyParameterRow) : Option Int32 :=
  (rows.find? (·.param.value.getTag == .usageCountLimit)).bind (·.param.value.usageCountLimit?)

/-- The rows of a key with `n` uses left, of the rows `ks` it was stored with: while a use is
left its limit row holds `n`; the last use deleted its entry, parameters, metadata and grants,
and orphaned its blobs. -/
def KeyRows.withUsesLeft (ks : KeyRows) : Nat → KeyRows
  | 0 => ⟨[], [], [], [], ks.blobentry.map fun b => { b with state := .orphaned }⟩
  | n + 1 =>
    { ks with keyparameter := ks.keyparameter.map (KeyParameterRow.withUsage (.ofNat (n + 1))) }

end KeystoreDB

open KeystoreDB

/-- The rows of a key stored with a use limit: one `USAGE_COUNT_LIMIT` row, holding a limit of
at least one. -/
structure LimitedKey where
  rows : KeyRows
  limit : Int32
  one_le_limit : 1 ≤ limit
  limitRow : (rows.keyparameter.filter (·.param.value.getTag == .usageCountLimit)).map
    (·.param.value) = [.usageCountLimit limit]

/-- The uses of a key that check whether it is the key `keyId`. -/
def Op.isUsageCheck (keyId : Int64) : Op → Bool
  | .checkAndUpdateKeyUsageCount k => k == keyId
  | _ => false

namespace KeystoreDB

/-- One operation as a client issues it: its transaction commits, or fails and is rolled
back. -/
def call (db : KeystoreDB) (op : Op) : Except Error Unit × KeystoreDB :=
  match db.exec op with
  | .ok db' => (.ok (), db')
  | .error e => (.error e, db)

/-- The operations one after another, each in a transaction of its own. -/
def runEach (db : KeystoreDB) : List Op → List (Except Error Unit) × KeystoreDB
  | [] => ([], db)
  | op :: ops =>
    ((db.call op).1 :: ((db.call op).2.runEach ops).1, ((db.call op).2.runEach ops).2)

end KeystoreDB

/-- What the usage checks of `keyId` among `ops` returned, in order. -/
def usageResults (keyId : Int64) : List Op → List (Except Error Unit) → List (Except Error Unit)
  | op :: ops, r :: rs =>
    if op.isUsageCheck keyId then r :: usageResults keyId ops rs else usageResults keyId ops rs
  | _, _ => []

/-- Every operation of `ops` but a usage check of `keyId`, where it commits, leaves the rows of
`keyId` as they were: it is an operation on other keys. -/
def OnOtherKeys (keyId : Int64) : KeystoreDB → List Op → Prop
  | _, [] => True
  | db, op :: ops =>
    (op.isUsageCheck keyId = false →
      ∀ db', db.exec op = .ok db' → db'.keyRows keyId = db.keyRows keyId) ∧
    OnOtherKeys keyId (db.call op).2 ops

section Rows

variable {n : Int32} {r : KeyParameterRow}

@[simp] theorem KeyParameterRow.keyentryid_withUsage : (r.withUsage n).keyentryid = r.keyentryid := by
  unfold KeyParameterRow.withUsage
  split <;> rfl

@[simp] theorem KeyParameterRow.getTag_withUsage :
    (r.withUsage n).param.value.getTag = r.param.value.getTag := by
  unfold KeyParameterRow.withUsage
  split
  · rename_i h
    exact h.symm
  · rfl

theorem KeyParameterRow.value_withUsage (h : r.param.value.getTag = .usageCountLimit) :
    (r.withUsage n).param.value = .usageCountLimit n := by
  simp [KeyParameterRow.withUsage, h]

theorem KeyParameterRow.withUsage_of_ne (h : r.param.value.getTag ≠ .usageCountLimit) :
    r.withUsage n = r := by
  simp [KeyParameterRow.withUsage, h]

end Rows

section Int32

variable {n : Nat}

theorem ofNat_add_one_eq (n : Nat) : Int32.ofNat n + 1 = Int32.ofNat (n + 1) := by
  simp

theorem ofNat_add_one_pos (hn : n + 1 < 2 ^ 31) : 0 < Int32.ofNat n + 1 := by
  rw [ofNat_add_one_eq, Int32.lt_iff_toInt_lt, Int32.toInt_ofNat_of_lt hn]
  simp

theorem ofNat_add_one_eq_one (hn : n + 1 < 2 ^ 31) : Int32.ofNat n + 1 = 1 ↔ n = 0 := by
  rw [ofNat_add_one_eq, ← Int32.toInt_inj, Int32.toInt_ofNat_of_lt hn, Int32.toInt_one]
  omega

theorem ofNat_add_one_ne_zero (hn : n + 1 < 2 ^ 31) : Int32.ofNat n + 1 ≠ 0 := by
  rw [ofNat_add_one_eq, ne_eq, ← Int32.toInt_inj, Int32.toInt_ofNat_of_lt hn, Int32.toInt_zero]
  omega

end Int32

namespace KeystoreDB

variable {db : KeystoreDB} {keyId : Int64}

theorem keyentryid_of_mem_keyRows {r : KeyParameterRow}
    (hr : r ∈ (db.keyRows keyId).keyparameter) : r.keyentryid = keyId := by
  simpa [keyRows] using (List.mem_filter.mp hr).2

/-- The limit the check reads is that of the key's own rows. -/
theorem find?_usageCountLimit :
    (db.keyparameter.find? fun r => r.keyentryid == keyId &&
      r.param.value.getTag == .usageCountLimit).bind (·.param.value.usageCountLimit?) =
    usageLimit (db.keyRows keyId).keyparameter := by
  simp [usageLimit, keyRows, List.find?_filter, Bool.beq_eq_decide_eq]

theorem keyRows_update_keyparameter {p : KeyParameterRow → Bool}
    {f : KeyParameterRow → KeyParameterRow} (hf : ∀ r, (f r).keyentryid = r.keyentryid) :
    ({ db with keyparameter := update p f db.keyparameter } : KeystoreDB).keyRows keyId =
      { db.keyRows keyId with keyparameter := update p f (db.keyRows keyId).keyparameter } := by
  simp only [keyRows, KeyRows.mk.injEq, and_true, true_and]
  rw [filter_update]
  intro r
  rw [hf]

/-- The check's decrement, on the rows of a key whose limit row holds `n + 1`. -/
theorem update_decrement_withUsage {rows : List KeyParameterRow} {n : Nat}
    (hn : n + 1 < 2 ^ 31) (hkey : ∀ r ∈ rows, r.keyentryid = keyId) :
    update (fun r => r.keyentryid == keyId && r.param.value.usageCountLimit?.any (0 < ·))
      (fun r => { r with param := { r.param with
        value := .usageCountLimit ((r.param.value.usageCountLimit?.getD 0) - 1) } })
      (rows.map (KeyParameterRow.withUsage (.ofNat (n + 1)))) =
    rows.map (KeyParameterRow.withUsage (.ofNat n)) := by
  simp only [update, List.map_map]
  apply List.map_congr_left
  intro r hr
  by_cases htag : r.param.value.getTag = .usageCountLimit
  · -- the limit row: read as `n + 1`, written back as `n`
    simp [hkey r hr, ofNat_add_one_pos hn, KeyParameterRow.withUsage, htag,
      KeyParameterValue.usageCountLimit?]
  · have hnone : r.param.value.usageCountLimit? = none := by
      rw [← Option.not_isSome_iff_eq_none, usageCountLimit?_isSome]
      simpa using htag
    simp [KeyParameterRow.withUsage_of_ne htag, hnone]

/-- `mark_unreferenced` on the rows of the key: all gone but its blobs, which are orphaned. -/
theorem keyRows_markUnreferenced :
    (db.markUnreferenced keyId).2.keyRows keyId =
      ⟨[], [], [], [], (db.keyRows keyId).blobentry.map fun b => { b with state := .orphaned }⟩ := by
  simp only [markUnreferenced, keyRows, filter_delete_self, KeyRows.mk.injEq, true_and]
  rw [filter_update, update_of_forall]
  · intro b hb
    exact (List.mem_filter.mp hb).2
  · intro b
    rfl

/-- `mark_unreferenced` of another key leaves the rows of `keyId`. -/
theorem keyRows_markUnreferenced_of_ne {k : Int64} (hne : k ≠ keyId) :
    (db.markUnreferenced k).2.keyRows keyId = db.keyRows keyId := by
  have hother : ∀ x : Int64, (x == keyId) = true → (x == k) = false := by
    intro x hx
    simp only [beq_iff_eq] at hx
    simpa [hx] using Ne.symm hne
  simp only [markUnreferenced, keyRows, filter_delete, KeyRows.mk.injEq]
  refine ⟨?_, ?_, ?_, ?_, ?_⟩
  · exact delete_of_forall_not fun r hr => hother _ (List.mem_filter.mp hr).2
  · exact delete_of_forall_not fun r hr => hother _ (List.mem_filter.mp hr).2
  · exact delete_of_forall_not fun r hr => hother _ (List.mem_filter.mp hr).2
  · exact delete_of_forall_not fun r hr => hother _ (List.mem_filter.mp hr).2
  · rw [filter_update, update_of_forall_not]
    · exact fun r hr => hother _ (List.mem_filter.mp hr).2
    · intro r
      rfl

/-- A use of another key, where it commits, leaves the rows of `keyId`. -/
theorem checkAndUpdateKeyUsageCount_keyRows_of_ne {k : Int64} (hne : k ≠ keyId)
    {db' : KeystoreDB} (h : db.checkAndUpdateKeyUsageCount k = .ok db') :
    db'.keyRows keyId = db.keyRows keyId := by
  -- the decrement meets no row of `keyId`
  have hdec : ∀ {p : KeyParameterRow → Bool} {f : KeyParameterRow → KeyParameterRow},
      (∀ r, p r = true → r.keyentryid = k) → (∀ r, (f r).keyentryid = r.keyentryid) →
      ({ db with keyparameter := update p f db.keyparameter } : KeystoreDB).keyRows keyId =
        db.keyRows keyId := by
    intro p f hp hf
    rw [keyRows_update_keyparameter hf, update_of_forall_not]
    intro r hr
    have hr' := keyentryid_of_mem_keyRows hr
    cases hpr : p r
    · rfl
    · exact absurd ((hp r hpr).symm.trans hr') hne
  have hp : ∀ r : KeyParameterRow, (r.keyentryid == k &&
      r.param.value.usageCountLimit?.any (0 < ·)) = true → r.keyentryid = k := by
    intro r hr
    simp only [Bool.and_eq_true, beq_iff_eq] at hr
    exact hr.1
  unfold checkAndUpdateKeyUsageCount at h
  dsimp only at h
  split at h
  · simp only [throw, throwThe, MonadExceptOf.throw, pure, Except.pure] at h
    split_ifs at h
    · cases h
      rw [keyRows_markUnreferenced_of_ne hne, hdec hp]
      intro r
      rfl
    · cases h
      rw [hdec hp]
      intro r
      rfl
  · exact absurd h Except.throw_ne_ok

/-- A transaction that fails, or commits without touching the rows of `keyId`, leaves them. -/
theorem call_keyRows {op : Op}
    (hframe : ∀ db', db.exec op = .ok db' → db'.keyRows keyId = db.keyRows keyId) :
    (db.call op).2.keyRows keyId = db.keyRows keyId := by
  unfold call
  split
  · exact hframe _ ‹_›
  · rfl

end KeystoreDB

theorem Op.isUsageCheck_eq_true {keyId : Int64} {op : Op} :
    op.isUsageCheck keyId = true ↔ op = .checkAndUpdateKeyUsageCount keyId := by
  cases op <;> simp [Op.isUsageCheck]

namespace LimitedKey

variable (lk : LimitedKey)

/-- The uses the key was stored with. -/
def uses : Nat := lk.limit.toNatClampNeg

theorem uses_lt : lk.uses < 2 ^ 31 := Int32.toNatClampNeg_lt _

theorem one_le_uses : 1 ≤ lk.uses := by
  have h := Int32.le_iff_toInt_le.mp lk.one_le_limit
  rw [Int32.toInt_one] at h
  rw [uses, ← Int32.toNat_toInt]
  omega

theorem zero_le_limit : 0 ≤ lk.limit := by
  have h := Int32.le_iff_toInt_le.mp lk.one_le_limit
  rw [Int32.toInt_one] at h
  rw [Int32.le_iff_toInt_le, Int32.toInt_zero]
  omega

theorem exists_limitRow :
    ∃ r ∈ lk.rows.keyparameter, r.param.value.getTag = .usageCountLimit := by
  have hne : lk.rows.keyparameter.filter (·.param.value.getTag == .usageCountLimit) ≠ [] := by
    intro h
    have := lk.limitRow
    rw [h] at this
    cases this
  obtain ⟨r, hr⟩ := List.exists_mem_of_ne_nil _ hne
  obtain ⟨hmem, htag⟩ := List.mem_filter.mp hr
  exact ⟨r, hmem, by simpa using htag⟩

/-- The limit row is the only `USAGE_COUNT_LIMIT` row. -/
theorem value_of_mem {r : KeyParameterRow} (hr : r ∈ lk.rows.keyparameter)
    (htag : r.param.value.getTag = .usageCountLimit) :
    r.param.value = .usageCountLimit lk.limit := by
  have : r.param.value ∈ [KeyParameterValue.usageCountLimit lk.limit] :=
    lk.limitRow ▸ List.mem_map_of_mem (List.mem_filter.mpr ⟨hr, by simpa using htag⟩)
  simpa using this

theorem withUsesLeft_uses : lk.rows.withUsesLeft lk.uses = lk.rows := by
  obtain ⟨k, hk⟩ : ∃ k, lk.uses = k + 1 := ⟨lk.uses - 1, by have := lk.one_le_uses; omega⟩
  have hlimit : Int32.ofNat (k + 1) = lk.limit := by
    rw [← hk, uses, Int32.ofNat_toNatClampNeg _ lk.zero_le_limit]
  have hmap : lk.rows.keyparameter.map (KeyParameterRow.withUsage lk.limit) =
      lk.rows.keyparameter := by
    conv => rhs; rw [← List.map_id lk.rows.keyparameter]
    apply List.map_congr_left
    intro r hr
    by_cases htag : r.param.value.getTag = .usageCountLimit
    · -- the limit row already holds the limit
      have hv := lk.value_of_mem hr htag
      simp only [KeyParameterRow.withUsage, htag, if_true, ← hv, id]
    · exact KeyParameterRow.withUsage_of_ne htag
  rw [hk, KeyRows.withUsesLeft, hlimit, hmap]

theorem usageLimit_withUsesLeft {n : Nat} :
    usageLimit (lk.rows.withUsesLeft (n + 1)).keyparameter = some (.ofNat (n + 1)) := by
  obtain ⟨r, hr, htag⟩ := lk.exists_limitRow
  have hp : (fun r : KeyParameterRow => r.param.value.getTag == .usageCountLimit) ∘
      KeyParameterRow.withUsage (.ofNat (n + 1)) =
      fun r => r.param.value.getTag == .usageCountLimit := by
    funext r
    simp
  obtain ⟨r', hfind⟩ : ∃ r', lk.rows.keyparameter.find?
      (·.param.value.getTag == .usageCountLimit) = some r' :=
    Option.isSome_iff_exists.mp (List.find?_isSome.mpr ⟨r, hr, by simpa using htag⟩)
  have htag' : r'.param.value.getTag = .usageCountLimit := by
    simpa using List.find?_some hfind
  simp only [usageLimit, KeyRows.withUsesLeft, List.find?_map, hp, hfind, Option.map_some,
    Option.bind_some, KeyParameterRow.value_withUsage htag', KeyParameterValue.usageCountLimit?]

end LimitedKey

namespace KeystoreDB

variable {db : KeystoreDB} {keyId : Int64} (lk : LimitedKey)

/-- A use while one is left: the limit row goes from `n + 1` to `n`, and the last use deletes
the key and orphans its blobs. -/
theorem checkAndUpdateKeyUsageCount_withUsesLeft {n : Nat} (hn : n + 1 ≤ lk.uses)
    (hdb : db.keyRows keyId = lk.rows.withUsesLeft (n + 1)) :
    ∃ db', db.checkAndUpdateKeyUsageCount keyId = .ok db' ∧
      db'.keyRows keyId = lk.rows.withUsesLeft n := by
  have hlt : n + 1 < 2 ^ 31 := lt_of_le_of_lt hn lk.uses_lt
  have hkey : ∀ r ∈ lk.rows.keyparameter, r.keyentryid = keyId := by
    intro r hr
    have hmem : r.withUsage (.ofNat (n + 1)) ∈ (db.keyRows keyId).keyparameter := by
      rw [hdb]
      exact List.mem_map_of_mem hr
    simpa using keyentryid_of_mem_keyRows hmem
  unfold checkAndUpdateKeyUsageCount
  rw [find?_usageCountLimit, hdb, lk.usageLimit_withUsesLeft]
  dsimp only
  cases n with
  | zero =>
    -- the last use: the limit read is one
    refine ⟨_, if_pos rfl, ?_⟩
    rw [keyRows_markUnreferenced, keyRows_update_keyparameter, hdb]
    · rfl
    · intro r
      rfl
  | succ n =>
    have h1 : Int32.ofNat (n + 1 + 1) ≠ 1 := by
      rw [← ofNat_add_one_eq, ne_eq, ofNat_add_one_eq_one hlt]
      omega
    rw [if_neg h1, if_neg (ofNat_add_one_eq (n + 1) ▸ ofNat_add_one_ne_zero hlt)]
    refine ⟨_, rfl, ?_⟩
    rw [keyRows_update_keyparameter, hdb, KeyRows.withUsesLeft,
      update_decrement_withUsage hlt hkey]
    · rfl
    · intro r
      rfl

/-- After the last use the check fails, and its transaction is rolled back. -/
theorem checkAndUpdateKeyUsageCount_withUsesLeft_zero
    (hdb : db.keyRows keyId = lk.rows.withUsesLeft 0) :
    db.checkAndUpdateKeyUsageCount keyId = .error (.km .invalidKeyBlob) := by
  unfold checkAndUpdateKeyUsageCount
  rw [find?_usageCountLimit, hdb]
  rfl

end KeystoreDB

section Runs

variable {keyId : Int64} (lk : LimitedKey)

/-- Under operations on other keys, the uses of a run return what the counter returns, and the
rows of the key after the run are its rows after those uses. -/
theorem runEach_withUsesLeft {ops : List Op} :
    ∀ {db : KeystoreDB} {n : Nat}, n ≤ lk.uses → db.keyRows keyId = lk.rows.withUsesLeft n →
      OnOtherKeys keyId db ops →
      usageResults keyId ops (db.runEach ops).1 =
          useKeyTimes n (ops.countP (·.isUsageCheck keyId)) ∧
        (db.runEach ops).2.keyRows keyId =
          lk.rows.withUsesLeft (n - ops.countP (·.isUsageCheck keyId)) := by
  induction ops with
  | nil =>
    intro db n _ hdb _
    exact ⟨rfl, hdb⟩
  | cons op ops ih =>
    intro db n hn hdb ⟨hframe, hrest⟩
    cases hop : op.isUsageCheck keyId with
    | false =>
      -- an operation on other keys: the rows of the key stay
      obtain ⟨h1, h2⟩ := ih hn ((call_keyRows (hframe hop)).trans hdb) hrest
      simp only [runEach, usageResults, hop, List.countP_cons, Bool.false_eq_true, if_false,
        Nat.add_zero]
      exact ⟨h1, h2⟩
    | true =>
      obtain rfl := Op.isUsageCheck_eq_true.mp hop
      cases n with
      | zero =>
        -- no use left: the check fails and is rolled back
        have hcall : db.call (.checkAndUpdateKeyUsageCount keyId) =
            (.error (.km .invalidKeyBlob), db) := by
          simp [call, exec, checkAndUpdateKeyUsageCount_withUsesLeft_zero lk hdb]
        rw [hcall] at hrest
        obtain ⟨h1, h2⟩ := ih (Nat.zero_le _) hdb hrest
        simp only [runEach, usageResults, hop, hcall, List.countP_cons, if_true, h1, h2]
        exact ⟨rfl, by rw [Nat.zero_sub, Nat.zero_sub]⟩
      | succ n =>
        obtain ⟨db', hok, hrows⟩ := checkAndUpdateKeyUsageCount_withUsesLeft lk hn hdb
        have hcall : db.call (.checkAndUpdateKeyUsageCount keyId) = (.ok (), db') := by
          simp [call, exec, hok]
        rw [hcall] at hrest
        obtain ⟨h1, h2⟩ := ih (by omega) hrows hrest
        simp only [runEach, usageResults, hop, hcall, List.countP_cons, if_true, h1, h2]
        exact ⟨rfl, by rw [Nat.add_sub_add_right]⟩

theorem limitedKey_runEach {db : KeystoreDB} {ops : List Op}
    (hdb : db.keyRows keyId = lk.rows) (hother : OnOtherKeys keyId db ops) :
    usageResults keyId ops (db.runEach ops).1 =
        List.replicate (min lk.uses (ops.countP (·.isUsageCheck keyId))) (.ok ()) ++
          List.replicate (ops.countP (·.isUsageCheck keyId) - lk.uses)
            (.error (.km .invalidKeyBlob)) ∧
      (db.runEach ops).2.keyRows keyId =
        lk.rows.withUsesLeft (lk.uses - ops.countP (·.isUsageCheck keyId)) := by
  rw [← lk.withUsesLeft_uses] at hdb
  rw [← useKeyTimes_eq]
  exact runEach_withUsesLeft lk le_rfl hdb hother

/-- A live key stored with a limit of two uses. -/
def twoUseKey : LimitedKey where
  rows := ⟨[⟨5, .client, some .app, some 10, some "k", .live, keystoreUuid⟩],
    [⟨5, ⟨.usageCountLimit 2, ⟨1⟩⟩⟩], [], [], []⟩
  limit := 2
  one_le_limit := by decide
  limitRow := by decide

/-- Three uses of the key, with a use of another key between the first two: two succeed, and
the third finds the key deleted. -/
theorem limitedKey_runEach_twoUses :
    usageResults 5
        [.checkAndUpdateKeyUsageCount 5, .checkAndUpdateKeyUsageCount 6,
          .checkAndUpdateKeyUsageCount 5, .checkAndUpdateKeyUsageCount 5]
        (({ keyentry := twoUseKey.rows.keyentry, keyparameter := twoUseKey.rows.keyparameter } :
            KeystoreDB).runEach
          [.checkAndUpdateKeyUsageCount 5, .checkAndUpdateKeyUsageCount 6,
            .checkAndUpdateKeyUsageCount 5, .checkAndUpdateKeyUsageCount 5]).1 =
      [.ok (), .ok (), .error (.km .invalidKeyBlob)] := by
  have hother : OnOtherKeys 5
      ({ keyentry := twoUseKey.rows.keyentry, keyparameter := twoUseKey.rows.keyparameter } :
        KeystoreDB)
      [.checkAndUpdateKeyUsageCount 5, .checkAndUpdateKeyUsageCount 6,
        .checkAndUpdateKeyUsageCount 5, .checkAndUpdateKeyUsageCount 5] := by
    simp only [OnOtherKeys]
    refine ⟨fun h => absurd h (by decide), fun _ db' hdb' => ?_, fun h => absurd h (by decide),
      fun h => absurd h (by decide), trivial⟩
    exact checkAndUpdateKeyUsageCount_keyRows_of_ne (by decide : (6 : Int64) ≠ 5) hdb'
  have h := (limitedKey_runEach twoUseKey (by decide) hother).1
  have huses : twoUseKey.uses = 2 := by decide
  have hcount : [Op.checkAndUpdateKeyUsageCount 5, .checkAndUpdateKeyUsageCount 6,
      .checkAndUpdateKeyUsageCount 5, .checkAndUpdateKeyUsageCount 5].countP
      (·.isUsageCheck 5) = 3 := by decide
  rw [huses, hcount] at h
  exact h

end Runs

end Keystore2.Database
