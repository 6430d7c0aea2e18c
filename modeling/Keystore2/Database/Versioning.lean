import Mathlib.Data.List.Basic

/-! `database/versioning.rs`: the schema version of the persistent database and the upgrade
loop that brings it to the current version.  The version lives in row 0 of
`persistent.version`; a database without that row is new, or predates versioning when it has a
`keyentry` table.  The loop runs the upgrader of the stored version and takes the version it
returns as the next one, so nothing in the code bounds its rounds: the model runs it with fuel,
and `upgradeDatabase_runs_each_once` shows that enough fuel runs the upgraders from the stored
version to the current one, each once and in order, when each returns the version after its
own.  The transaction is the database itself; SQLite is taken to answer every statement. -/

namespace Keystore2.Database.Versioning

variable {σ ε : Type}

/-- What the version logic reads of the persistent database: row 0 of `persistent.version`,
whether `persistent.keyentry` exists, and the rest, which only the upgraders touch. -/
structure Db (σ : Type) where
  version : Option UInt32
  keyentry : Bool
  rest : σ
  deriving DecidableEq, Repr

/-- An upgrader: a function of the transaction to the version it leaves the database at. -/
abbrev Upgrader (σ ε : Type) := Db σ → Except ε (UInt32 × Db σ)

/-- The errors of `upgrade_database`, the context of an upgrader's error naming the version it
upgraded from. -/
inductive UpgradeError (ε : Type)
  | insufficientUpgraders
  | upgrade (dbVersion : UInt32) (e : ε)
  | noRowsUpdated
  deriving DecidableEq, Repr

/-- `create_or_get_version`: the stored version, or the one a database without it starts at,
which is then stored. -/
def createOrGetVersion (db : Db σ) (currentVersion : UInt32) : UInt32 × Db σ :=
  match db.version with
  | some version => (version, db)
  | none =>
    -- a new database is at the current version, one that predates versioning at 0
    let version := if !db.keyentry then currentVersion else 0
    (version, { db with version := some version })

/-- `update_version`: the `UPDATE` of row 0, which fails when it changes no row. -/
def updateVersion (db : Db σ) (newVersion : UInt32) : Except (UpgradeError ε) (Db σ) :=
  match db.version with
  | some _ => .ok { db with version := some newVersion }
  | none => .error .noRowsUpdated

/-- The `while` loop of `upgrade_database`, with `fuel` rounds; `none` when it has not stopped.
The length check before the loop keeps the index of every round in range. -/
def upgradeLoop (upgraders : List (Upgrader σ ε)) (currentVersion : UInt32)
    (hlen : currentVersion.toNat ≤ upgraders.length) :
    Nat → UInt32 → Db σ → Option (Except (UpgradeError ε) (UInt32 × Db σ))
  | fuel, dbVersion, db =>
    if h : dbVersion < currentVersion then
      match fuel with
      | 0 => none
      | fuel + 1 =>
        let upgrader := upgraders.get ⟨dbVersion.toNat, Nat.lt_of_lt_of_le h hlen⟩
        match upgrader db with
        | .ok (dbVersion, db) => upgradeLoop upgraders currentVersion hlen fuel dbVersion db
        | .error e => some (.error (.upgrade dbVersion e))
    else some (.ok (dbVersion, db))

def upgradeDatabase (fuel : Nat) (db : Db σ) (currentVersion : UInt32)
    (upgraders : List (Upgrader σ ε)) : Option (Except (UpgradeError ε) (Db σ)) :=
  if hlen : upgraders.length < currentVersion.toNat then some (.error .insufficientUpgraders)
  else
    let (dbVersion, db) := createOrGetVersion db currentVersion
    (upgradeLoop upgraders currentVersion (Nat.le_of_not_lt hlen) fuel dbVersion db).map
      fun r => do
        let (dbVersion, db) ← r
        updateVersion db dbVersion

/-! ## The upgrades in order -/

/-- The version an upgrade starts from: the stored one, else the current version for a new
database and `0` for one that predates versioning. -/
def storedVersion (db : Db σ) (currentVersion : UInt32) : UInt32 :=
  db.version.getD (if db.keyentry then 0 else currentVersion)

/-- One upgrader of a run, with the version it upgrades from. -/
def applyUpgrader (db : Db σ) (step : Upgrader σ ε × Nat) : Except (UpgradeError ε) (Db σ) :=
  match step.1 db with
  | .ok (_, db) => .ok db
  | .error e => .error (.upgrade step.2.toUInt32 e)

/-- The upgraders `v, v + 1, ..., n - 1`, each once and in that order, each on the database the
one before left; the first error ends the run. -/
def runInOrder (upgraders : List (Upgrader σ ε)) (v n : Nat) (db : Db σ) :
    Except (UpgradeError ε) (Db σ) :=
  (((upgraders.drop v).take (n - v)).zipIdx v).foldlM applyUpgrader db

section Run

variable {upgraders : List (Upgrader σ ε)}

theorem runInOrder_of_le {v n : Nat} (h : n ≤ v) (db : Db σ) :
    runInOrder upgraders v n db = .ok db := by
  simp [runInOrder, Nat.sub_eq_zero_of_le h, pure, Except.pure]

/-- A run from below `n` starts with the upgrader of `v`. -/
theorem runInOrder_of_lt {v n : Nat} (h : v < n) (hn : n ≤ upgraders.length) (db : Db σ) :
    runInOrder upgraders v n db =
      (applyUpgrader db (upgraders.get ⟨v, by omega⟩, v)).bind
        (runInOrder upgraders (v + 1) n) := by
  have hsub : n - v = n - (v + 1) + 1 := by omega
  rw [runInOrder, List.drop_eq_getElem_cons (by omega), hsub, List.take_succ_cons,
    List.zipIdx_cons, List.foldlM_cons]
  rfl

theorem createOrGetVersion_eq (db : Db σ) (currentVersion : UInt32) :
    createOrGetVersion db currentVersion =
      (storedVersion db currentVersion,
        { db with version := some (storedVersion db currentVersion) }) := by
  obtain ⟨version, keyentry, rest⟩ := db
  cases version with
  | some version => rfl
  | none => cases keyentry <;> rfl

/-- A version of at least the current one leaves the loop at once. -/
theorem upgradeLoop_of_not_lt {currentVersion dbVersion : UInt32}
    (hlen : currentVersion.toNat ≤ upgraders.length) (h : ¬dbVersion < currentVersion)
    (fuel : Nat) (db : Db σ) :
    upgradeLoop upgraders currentVersion hlen fuel dbVersion db = some (.ok (dbVersion, db)) := by
  rw [upgradeLoop, dif_neg h]

theorem max_eq_of_not_lt {a b : UInt32} (h : ¬a < b) : max a b = a := by
  rw [UInt32.lt_iff_toNat_lt] at h
  show (if a ≤ b then b else a) = a
  split
  · next hle =>
    rw [UInt32.le_iff_toNat_le] at hle
    exact UInt32.toNat_inj.mp (by omega)
  · rfl

theorem max_eq_of_lt {a b : UInt32} (h : a < b) : max a b = b := by
  show (if a ≤ b then b else a) = b
  rw [if_pos (UInt32.le_of_lt h)]

section Returns

variable {currentVersion : UInt32}
  (hret : ∀ i : Fin upgraders.length, i.val < currentVersion.toNat →
    ∀ db r db', upgraders.get i db = .ok (r, db') → r.toNat = i.val + 1)

include hret

/-- With enough fuel the loop is the run from its version to the current one, and it stops at
the larger of the two.  The induction is on the fuel; each round moves the version up by one,
so the fuel that is left always covers the rounds that are. -/
theorem upgradeLoop_eq (hlen : currentVersion.toNat ≤ upgraders.length) :
    ∀ (fuel : Nat) (dbVersion : UInt32) (db : Db σ),
      currentVersion.toNat - dbVersion.toNat ≤ fuel →
      upgradeLoop upgraders currentVersion hlen fuel dbVersion db =
        some ((runInOrder upgraders dbVersion.toNat currentVersion.toNat db).map
          fun db => (max dbVersion currentVersion, db)) := by
  intro fuel
  induction fuel with
  | zero =>
    intro dbVersion db hfuel
    have hge : ¬dbVersion < currentVersion := by
      rw [UInt32.lt_iff_toNat_lt]
      omega
    rw [upgradeLoop_of_not_lt hlen hge, runInOrder_of_le (by omega), max_eq_of_not_lt hge]
    rfl
  | succ fuel ih =>
    intro dbVersion db hfuel
    by_cases hlt : dbVersion < currentVersion
    · have hv : dbVersion.toNat < currentVersion.toNat := UInt32.lt_iff_toNat_lt.mp hlt
      rw [upgradeLoop, dif_pos hlt, runInOrder_of_lt hv hlen]
      dsimp only
      rcases hu : upgraders.get ⟨dbVersion.toNat, Nat.lt_of_lt_of_le hv hlen⟩ db with
        e | ⟨r, db'⟩
      · -- the upgrader fails: the run stops with its error
        simp only [applyUpgrader, hu, Except.bind, Except.map]
        rw [show dbVersion.toNat.toUInt32 = dbVersion from UInt32.ofNat_toNat]
      · -- the upgrader returns the next version, and the loop goes on from there
        have hr : r.toNat = dbVersion.toNat + 1 := hret _ hv db r db' hu
        have hrv : r.toNat ≤ currentVersion.toNat := by omega
        simp only [applyUpgrader, hu, Except.bind]
        rw [ih r db' (by omega), ← hr]
        by_cases hrc : r < currentVersion
        · rw [max_eq_of_lt hrc, max_eq_of_lt hlt]
        · rw [max_eq_of_not_lt hrc, max_eq_of_lt hlt,
            UInt32.toNat_inj.mp (show r.toNat = currentVersion.toNat by
              rw [UInt32.lt_iff_toNat_lt] at hrc
              omega)]
    · rw [upgradeLoop_of_not_lt hlen hlt, runInOrder_of_le (by
        rw [UInt32.lt_iff_toNat_lt] at hlt
        omega), max_eq_of_not_lt hlt]
      rfl

end Returns

end Run

theorem updateVersion_eq_ok {db db' : Db σ} {newVersion : UInt32}
    (h : (updateVersion db newVersion : Except (UpgradeError ε) (Db σ)) = .ok db') :
    db'.version = some newVersion := by
  unfold updateVersion at h
  split at h
  · cases h
    rfl
  · cases h

/-- `upgrade_database` with at least as many upgraders as the current version, each of which
returns the version after its own: given enough fuel it stops, having run the upgraders from the
stored version up to the current one, each once and in order, and on success it leaves the
larger of the two versions stored. -/
theorem upgradeDatabase_runs_each_once (db : Db σ) (currentVersion : UInt32)
    (upgraders : List (Upgrader σ ε)) (hlen : currentVersion.toNat ≤ upgraders.length)
    (hret : ∀ i : Fin upgraders.length, i.val < currentVersion.toNat →
      ∀ db r db', upgraders.get i db = .ok (r, db') → r.toNat = i.val + 1)
    (fuel : Nat) (hfuel : currentVersion.toNat ≤ fuel) :
    upgradeDatabase fuel db currentVersion upgraders =
        some ((runInOrder upgraders (storedVersion db currentVersion).toNat currentVersion.toNat
          { db with version := some (storedVersion db currentVersion) }).bind
            fun upgraded =>
              updateVersion upgraded (max (storedVersion db currentVersion) currentVersion)) ∧
      ∀ db', upgradeDatabase fuel db currentVersion upgraders = some (.ok db') →
        db'.version = some (max (storedVersion db currentVersion) currentVersion) := by
  have hrun : upgradeDatabase fuel db currentVersion upgraders =
      some ((runInOrder upgraders (storedVersion db currentVersion).toNat currentVersion.toNat
        { db with version := some (storedVersion db currentVersion) }).bind
          fun upgraded =>
            updateVersion upgraded (max (storedVersion db currentVersion) currentVersion)) := by
    rw [upgradeDatabase, dif_neg (Nat.not_lt.mpr hlen), createOrGetVersion_eq]
    dsimp only
    rw [upgradeLoop_eq hret hlen fuel _ _ (by omega)]
    -- the loop's result is the run's, with the version it stopped at
    rcases runInOrder upgraders (storedVersion db currentVersion).toNat currentVersion.toNat
      { db with version := some (storedVersion db currentVersion) } with e | db' <;> rfl
  refine ⟨hrun, fun db' h => ?_⟩
  rw [hrun] at h
  -- a successful upgrade ends with the update of the version row
  rcases hr : runInOrder upgraders (storedVersion db currentVersion).toNat currentVersion.toNat
    { db with version := some (storedVersion db currentVersion) } with e | db''
  · rw [hr] at h
    cases h
  · rw [hr] at h
    exact updateVersion_eq_ok (Option.some.inj h)

/-- An upgrader that records its index in the rest of the database and returns the version
after its own. -/
def recordingUpgrader (i : Nat) : Upgrader (List Nat) Unit :=
  fun db => .ok ((i + 1).toUInt32, { db with rest := db.rest ++ [i] })

/-- A database that predates versioning, brought to version 3 by three recording upgraders. -/
theorem upgradeDatabase_runs_each_once_legacy :
    let upgraders := (List.range 3).map recordingUpgrader
    let db : Db (List Nat) := ⟨none, true, []⟩
    (3 : UInt32).toNat ≤ upgraders.length ∧
      (∀ i : Fin upgraders.length, i.val < (3 : UInt32).toNat →
        ∀ db r db', upgraders.get i db = .ok (r, db') → r.toNat = i.val + 1) ∧
      (3 : UInt32).toNat ≤ 3 ∧
      (upgradeDatabase 3 db 3 upgraders =
          some ((runInOrder upgraders (storedVersion db 3).toNat (3 : UInt32).toNat
            { db with version := some (storedVersion db 3) }).bind
              fun upgraded => updateVersion upgraded (max (storedVersion db 3) 3)) ∧
        ∀ db', upgradeDatabase 3 db 3 upgraders = some (.ok db') →
          db'.version = some (max (storedVersion db 3) 3)) := by
  intro upgraders db
  -- each recording upgrader returns the version after its index
  have hret : ∀ i : Fin upgraders.length, i.val < (3 : UInt32).toNat →
      ∀ db r db', upgraders.get i db = .ok (r, db') → r.toNat = i.val + 1 := by
    intro ⟨i, hi⟩ hi3 db r db' h
    simp only [upgraders, List.get_eq_getElem, List.getElem_map, List.getElem_range,
      recordingUpgrader, Except.ok.injEq, Prod.mk.injEq] at h
    rw [← h.1]
    have : i < 3 := hi3
    exact UInt32.toNat_ofNat_of_lt' (Nat.lt_of_le_of_lt (show i + 1 ≤ 3 by omega) (by decide))
  exact ⟨by decide, hret, by decide, upgradeDatabase_runs_each_once db 3 upgraders (by decide) hret 3
    (by decide)⟩

example : upgradeDatabase 3 ⟨none, true, []⟩ 3 ((List.range 3).map recordingUpgrader) =
    some (.ok ⟨some 3, true, [0, 1, 2]⟩) := by
  decide

end Keystore2.Database.Versioning
