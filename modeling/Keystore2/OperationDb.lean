import Keystore2.Operation
import Keystore2.Lib.Scan
import Mathlib.Order.WithBot
import Mathlib.Order.Lex
import Mathlib.Data.Prod.Lex
import Mathlib.Data.List.Nodup

/-! `OperationDb` of `operation.rs`: the table of weak references to the operations, through
which a new operation finds its slot and `prune` finds an operation to end when KeyMint has no
slot left.  An operation lives while its `KeystoreOperation` holds it; a weak reference to it
then upgrades, and after that it never does again.  The table is a list of weak references,
each named by the identity of the operation it was made from.

`prune` reads a snapshot of the live operations that are not finalized and picks a victim by
its malus: the number of operations of its owner and a term that grows with its age, the
`floor(log6(age + 1))` of the code, here any function of the age.  The caller must have the
lower malus, and of the operations it may prune the one with the highest malus, then the
oldest, is chosen; failing that the caller's own least recently used operation is. -/

namespace Keystore2.Operation

/-- An operation as the table reaches it: its slot, its owner, whether it was forced, and the
`KeystoreOperation` that holds it. -/
structure LiveOperation where
  index : Nat
  owner : UInt32
  forced : Bool
  ko : KeystoreOperation

structure OperationDb where
  /-- The weak references, each by the identity of the operation it was made from. -/
  operations : List Nat
  /-- Every operation made so far, by identity. -/
  ops : Nat → Option LiveOperation
  /-- The identity of the next operation. -/
  next : Nat

/-- `PruningInfo`: what `prune` reads of an operation. -/
structure PruningInfo where
  lastUsage : Nat
  owner : UInt32
  index : Nat
  forced : Bool
  deriving DecidableEq, Repr

/-- `CandidateInfo`: an operation `prune` may end. -/
structure CandidateInfo where
  index : Nat
  malus : Nat
  lastUsage : Nat
  age : Nat
  deriving DecidableEq, Repr

/-- What the environment does during `prune`: whose outcome lock another thread holds while the
snapshot is read, the clock, and the environment of `Operation::prune`. -/
structure PruneEnv where
  busy : Nat → Bool
  now : Nat
  opEnv : Env

/-- `iter_mut().find` under a closure that counts the elements it is shown: the element found,
and the count when the search stopped. -/
def findCounting {α : Type} (p : α → Bool) : List α → Nat → Option α × Nat
  | [], index => (none, index)
  | a :: as, index => if p a then (some a, index + 1) else findCounting p as (index + 1)

namespace LiveOperation

/-- Whether a weak reference to the operation upgrades. -/
def alive (lo : LiveOperation) : Bool := lo.ko.held

/-- The pruning information of the operation. -/
def pruningInfo (lo : LiveOperation) : PruningInfo :=
  ⟨lo.ko.operation.lastUsage, lo.owner, lo.index, lo.forced⟩

/-- `get_pruning_info`: nothing for a finalized operation, unless another thread holds its
outcome lock and the outcome cannot be read. -/
def getPruningInfo (busy : Bool) (lo : LiveOperation) : Option PruningInfo :=
  if !busy && lo.ko.operation.outcome != .unknown then none else some lo.pruningInfo

end LiveOperation

namespace OperationDb

def new : OperationDb := ⟨[], fun _ => none, 0⟩

/-- Whether a weak reference to the operation `id` upgrades. -/
def upgrade (db : OperationDb) (id : Nat) : Option LiveOperation :=
  (db.ops id).filter LiveOperation.alive

/-- `create_operation`: the new operation takes the first slot whose operation is gone, or a
new slot at the end, and its index is that slot. -/
def createOperation (owner : UInt32) (forced : Bool) (now : Nat) (db : OperationDb) :
    Nat × OperationDb :=
  let newOp (index : Nat) : LiveOperation := ⟨index, owner, forced, KeystoreOperation.new now⟩
  match findCounting (fun id => (db.upgrade id).isNone) db.operations 0 with
  | (some _, index) =>
    (db.next, ⟨db.operations.set (index - 1) db.next,
      Function.update db.ops db.next (some (newOp (index - 1))), db.next + 1⟩)
  | (none, _) =>
    (db.next, ⟨db.operations ++ [db.next],
      Function.update db.ops db.next (some (newOp db.operations.length)), db.next + 1⟩)

def get (index : Nat) (db : OperationDb) : Option (Nat × LiveOperation) :=
  db.operations[index]?.bind fun id => (db.upgrade id).map (id, ·)

/-- The operation `id` goes through a step of its `KeystoreOperation`. -/
def modify (id : Nat) (f : KeystoreOperation → KeystoreOperation) (db : OperationDb) :
    OperationDb :=
  { db with ops := Function.update db.ops id ((db.ops id).map fun lo => { lo with ko := f lo.ko }) }

/-- The loop over the table at the start of `prune`: the pruning information of every operation
that is alive. -/
def snapshot (busy : Nat → Bool) (db : OperationDb) : List PruningInfo :=
  db.operations.filterMap fun id => (db.upgrade id).bind (·.getPruningInfo (busy id))

end OperationDb

section Prune

variable (ageMalus : Nat → Nat) (now : Nat) (caller : UInt32)

/-- One element of the fold of `prune`: the candidate so far, and the caller's least recently
used operation, which the closure keeps on the side. -/
def pruneStep (owners : UInt32 → Nat) (callerMalus : Nat) :
    Option CandidateInfo × Option CandidateInfo → PruningInfo →
      Option CandidateInfo × Option CandidateInfo
  | (acc, oldestCallerOp), ⟨lastUsage, owner, index, forced⟩ =>
    let age := now - lastUsage
    let oldestCallerOp :=
      if owner = caller then
        match oldestCallerOp with
        | some a => if age > a.age then some ⟨index, 0, lastUsage, age⟩ else oldestCallerOp
        | none => some ⟨index, 0, lastUsage, age⟩
      else oldestCallerOp
    -- a forced operation has a malus of 0, which no caller can beat
    let malus := if forced then 0 else owners owner + ageMalus age
    let acc :=
      match acc with
      | none => if callerMalus < malus then some ⟨index, malus, lastUsage, age⟩ else none
      | some c =>
        if malus > c.malus || (malus == c.malus && age > c.age) then
          some ⟨index, malus, lastUsage, age⟩
        else some c
    (acc, oldestCallerOp)

/-- The candidate of `prune` on a snapshot: the fold's candidate, else the caller's oldest
operation.  `owners` is the map of the number of operations of each owner that the snapshot
loop builds. -/
def pruneCandidate (forced : Bool) (pruningInfo : List PruningInfo) : Option CandidateInfo :=
  let owners := fun owner => (pruningInfo.filter (·.owner = owner)).length
  let callerMalus := if forced then 0 else 1 + owners caller
  let (candidate, oldestCallerOp) :=
    pruningInfo.foldl (pruneStep ageMalus now caller owners callerMalus) (none, none)
  candidate.or oldestCallerOp

end Prune

/-! ## The pruning policy -/

section Policy

variable (ageMalus : Nat → Nat) (now : Nat) (caller : UInt32) (forced : Bool)
  (infos : List PruningInfo)

/-- The number of operations of an owner in the snapshot. -/
def siblings (owner : UInt32) : Nat := (infos.filter (·.owner = owner)).length

/-- The time since the operation was last used, `0` for a use after the snapshot's clock. -/
def PruningInfo.age (p : PruningInfo) : Nat := now - p.lastUsage

/-- The malus of the caller: `0` for a forced operation, else one more than its operations. -/
def callerMalus : Nat := if forced then 0 else 1 + siblings infos caller

/-- The malus of a running operation: its owner's operations and the term of its age. -/
def malus (p : PruningInfo) : Nat := siblings infos p.owner + ageMalus (p.age now)

/-- An operation the caller may prune: it is not forced and has the higher malus. -/
def Prunable (p : PruningInfo) : Prop :=
  p ∈ infos ∧ p.forced = false ∧ callerMalus caller forced infos < malus ageMalus now infos p

/-- The operations the policy allows `prune` to end: a prunable one that no prunable one beats on
malus, or on age at the same malus; else, when none is prunable, a least recently used one of
the caller's. -/
def Victim (X : PruningInfo) : Prop :=
  (Prunable ageMalus now caller forced infos X ∧
      ∀ Y, Prunable ageMalus now caller forced infos Y →
        malus ageMalus now infos Y < malus ageMalus now infos X ∨
          (malus ageMalus now infos Y = malus ageMalus now infos X ∧ Y.age now ≤ X.age now)) ∨
    ((∀ Y, ¬Prunable ageMalus now caller forced infos Y) ∧ X ∈ infos ∧ X.owner = caller ∧
      ∀ Y ∈ infos, Y.owner = caller → Y.age now ≤ X.age now)

end Policy

/-! ## The fold of `prune` as two passes that keep the best -/

section Fold

variable (ageMalus : Nat → Nat) (now : Nat) (caller : UInt32) (owners : UInt32 → Nat)
  (callerMalus : Nat)

/-- The candidate an operation offers the fold: itself, when the caller may prune it. -/
def offer (p : PruningInfo) : Option CandidateInfo :=
  let malus := if p.forced then 0 else owners p.owner + ageMalus (now - p.lastUsage)
  if callerMalus < malus then some ⟨p.index, malus, p.lastUsage, now - p.lastUsage⟩ else none

/-- The candidate of last resort an operation offers: itself, when it is the caller's. -/
def offerOldest (p : PruningInfo) : Option CandidateInfo :=
  if p.owner = caller then some ⟨p.index, 0, p.lastUsage, now - p.lastUsage⟩ else none

/-- Candidates ranked by malus, then by age. -/
def candidateRank : Option CandidateInfo → WithBot (ℕ ×ₗ ℕ)
  | none => ⊥
  | some c => ↑(toLex (c.malus, c.age))

def ageRank : Option CandidateInfo → WithBot ℕ
  | none => ⊥
  | some c => ↑c.age

/-- The oldest caller's operation is kept by a strictly greater age. -/
theorem oldest_eq_keepBest (acc old : Option CandidateInfo) (p : PruningInfo) :
    (pruneStep ageMalus now caller owners callerMalus (acc, old) p).2 =
      Scan.keepBest ageRank (offerOldest now caller) old p := by
  obtain ⟨lastUsage, owner, index, forced⟩ := p
  simp only [pruneStep, Scan.keepBest, offerOldest]
  by_cases ho : owner = caller
  · cases old with
    | none => simp [ho, ageRank]
    | some a => simp [ho, ageRank]
  · simp [ho, ageRank]

/-- Once a candidate is kept, an operation replaces it only by a higher malus, or by a greater
age at the same malus; one the caller may not prune never does, since its malus is below the
candidate's. -/
theorem candidate_eq_keepBest {acc : Option CandidateInfo}
    (hacc : ∀ c, acc = some c → callerMalus < c.malus) (old : Option CandidateInfo)
    (p : PruningInfo) :
    (pruneStep ageMalus now caller owners callerMalus (acc, old) p).1 =
      Scan.keepBest candidateRank (offer ageMalus now owners callerMalus) acc p := by
  obtain ⟨lastUsage, owner, index, forced⟩ := p
  simp only [pruneStep, Scan.keepBest, offer]
  generalize (if forced = true then 0 else owners owner + ageMalus (now - lastUsage)) = m
  -- squeezed: a full simp set looks for a `Monoid` on the rank's type at every call
  by_cases hm : callerMalus < m
  · cases acc with
    | none => simp only [hm, ↓reduceIte, candidateRank, WithBot.bot_lt_coe]
    | some c =>
      simp only [gt_iff_lt, Bool.or_eq_true, decide_eq_true_eq, Bool.and_eq_true, beq_iff_eq,
        @eq_comm _ m c.malus, candidateRank, hm, ↓reduceIte, WithBot.coe_lt_coe,
        Prod.Lex.toLex_lt_toLex]
  · cases acc with
    | none => simp only [hm, ↓reduceIte, candidateRank, lt_self_iff_false]
    | some c =>
      have hc := hacc c rfl
      simp only [gt_iff_lt, Bool.or_eq_true, decide_eq_true_eq, Bool.and_eq_true, beq_iff_eq,
        candidateRank, hm, ↓reduceIte, not_lt_bot, ite_eq_right_iff, Option.some.injEq]
      omega

/-- An operation offers itself only when it is not forced and its malus beats the caller's. -/
theorem offer_eq_some {p : PruningInfo} {c : CandidateInfo}
    (h : offer ageMalus now owners callerMalus p = some c) :
    p.forced = false ∧ callerMalus < owners p.owner + ageMalus (now - p.lastUsage) ∧
      c = ⟨p.index, owners p.owner + ageMalus (now - p.lastUsage), p.lastUsage,
        now - p.lastUsage⟩ := by
  unfold offer at h
  cases hf : p.forced
  · simp only [hf, Bool.false_eq_true, if_false] at h
    split at h
    · cases h
      exact ⟨rfl, ‹_›, rfl⟩
    · cases h
  · simp only [hf, if_true, Nat.not_lt_zero, if_false] at h
    cases h

/-- A candidate the fold keeps is always one the caller may prune. -/
theorem keepBest_offer_malus {acc : Option CandidateInfo}
    (hacc : ∀ c, acc = some c → callerMalus < c.malus) (p : PruningInfo) :
    ∀ c, Scan.keepBest candidateRank (offer ageMalus now owners callerMalus) acc p = some c →
      callerMalus < c.malus := by
  intro c hc
  unfold Scan.keepBest at hc
  split at hc
  · obtain ⟨-, hlt, rfl⟩ := offer_eq_some ageMalus now owners callerMalus hc
    exact hlt
  · exact hacc c hc

/-- The fold of `prune` is two passes, one keeping the best candidate and one the oldest of the
caller's operations.  The induction is on the snapshot, carried by `keepBest_offer_malus`. -/
theorem foldl_pruneStep (l : List PruningInfo) {acc : Option CandidateInfo}
    (hacc : ∀ c, acc = some c → callerMalus < c.malus) (old : Option CandidateInfo) :
    l.foldl (pruneStep ageMalus now caller owners callerMalus) (acc, old) =
      (l.foldl (Scan.keepBest candidateRank (offer ageMalus now owners callerMalus)) acc,
        l.foldl (Scan.keepBest ageRank (offerOldest now caller)) old) := by
  induction l generalizing acc old with
  | nil => rfl
  | cons p l ih =>
    have hstep : pruneStep ageMalus now caller owners callerMalus (acc, old) p =
        (Scan.keepBest candidateRank (offer ageMalus now owners callerMalus) acc p,
          Scan.keepBest ageRank (offerOldest now caller) old p) :=
      Prod.ext (candidate_eq_keepBest ageMalus now caller owners callerMalus hacc old p)
        (oldest_eq_keepBest ageMalus now caller owners callerMalus acc old p)
    rw [List.foldl_cons, hstep, List.foldl_cons, List.foldl_cons]
    exact ih (keepBest_offer_malus ageMalus now owners callerMalus hacc p) _

end Fold

/-! ## The candidate of `prune` is a victim of the policy -/

section Candidate

variable (ageMalus : Nat → Nat) (now : Nat) (caller : UInt32) (forced : Bool)
  (infos : List PruningInfo)

/-- The candidates an operation of the snapshot offers, with the snapshot's counts. -/
abbrev offerIn : PruningInfo → Option CandidateInfo :=
  offer ageMalus now (siblings infos) (callerMalus caller forced infos)

theorem pruneCandidate_eq :
    pruneCandidate ageMalus now caller forced infos =
      (infos.foldl (Scan.keepBest candidateRank (offerIn ageMalus now caller forced infos)) none).or
        (infos.foldl (Scan.keepBest ageRank (offerOldest now caller)) none) := by
  unfold pruneCandidate
  dsimp only
  rw [foldl_pruneStep _ _ _ _ _ infos (fun _ h => by cases h)]
  rfl

theorem offerIn_of_prunable {p : PruningInfo} (h : Prunable ageMalus now caller forced infos p) :
    offerIn ageMalus now caller forced infos p =
      some ⟨p.index, malus ageMalus now infos p, p.lastUsage, p.age now⟩ := by
  obtain ⟨-, hf, hlt⟩ := h
  simp only [offerIn, offer, hf, Bool.false_eq_true, if_false]
  exact if_pos hlt

theorem prunable_of_offerIn {p : PruningInfo} {c : CandidateInfo} (hp : p ∈ infos)
    (h : offerIn ageMalus now caller forced infos p = some c) :
    Prunable ageMalus now caller forced infos p ∧
      c = ⟨p.index, malus ageMalus now infos p, p.lastUsage, p.age now⟩ := by
  obtain ⟨hf, hlt, rfl⟩ := offer_eq_some _ _ _ _ h
  exact ⟨⟨hp, hf, hlt⟩, rfl⟩

theorem offerOldest_eq_some {p : PruningInfo} {c : CandidateInfo}
    (h : offerOldest now caller p = some c) :
    p.owner = caller ∧ c = ⟨p.index, 0, p.lastUsage, p.age now⟩ := by
  unfold offerOldest at h
  split at h
  · cases h
    exact ⟨‹_›, rfl⟩
  · cases h

/-- The best candidate is a prunable operation that no prunable one beats. -/
theorem best_eq_some {c : CandidateInfo}
    (h : infos.foldl (Scan.keepBest candidateRank (offerIn ageMalus now caller forced infos))
      none = some c) :
    ∃ X ∈ infos, X.index = c.index ∧ X.lastUsage = c.lastUsage ∧
      Prunable ageMalus now caller forced infos X ∧
      ∀ Y, Prunable ageMalus now caller forced infos Y →
        malus ageMalus now infos Y < malus ageMalus now infos X ∨
          (malus ageMalus now infos Y = malus ageMalus now infos X ∧ Y.age now ≤ X.age now) := by
  have hge := (Scan.foldl_keepBest_ge candidateRank
    (offerIn ageMalus now caller forced infos) infos none).2
  rcases Scan.foldl_keepBest candidateRank (offerIn ageMalus now caller forced infos) infos none
    with ⟨hr, -⟩ | ⟨l₁, X, l₂, hl, hr, -, -, -⟩
  · rw [hr] at h
    cases h
  · have hX : X ∈ infos := hl ▸ List.mem_append_right _ List.mem_cons_self
    rw [hr] at h hge
    obtain ⟨hpX, rfl⟩ := prunable_of_offerIn ageMalus now caller forced infos hX h
    refine ⟨X, hX, rfl, rfl, hpX, fun Y hY => ?_⟩
    -- every prunable operation ranks at most as high as the one kept
    have hle := hge Y hY.1
    rw [h, offerIn_of_prunable ageMalus now caller forced infos hY] at hle
    simpa [candidateRank, WithBot.coe_le_coe, Prod.Lex.toLex_le_toLex] using hle

theorem best_eq_none
    (h : infos.foldl (Scan.keepBest candidateRank (offerIn ageMalus now caller forced infos))
      none = none) :
    ∀ Y, ¬Prunable ageMalus now caller forced infos Y := by
  intro Y hY
  have hle := (Scan.foldl_keepBest_ge candidateRank
    (offerIn ageMalus now caller forced infos) infos none).2 Y hY.1
  rw [h, offerIn_of_prunable ageMalus now caller forced infos hY] at hle
  exact absurd hle (not_le.mpr (WithBot.bot_lt_coe _))

/-- The caller's oldest operation is one of its operations that none of them is older than. -/
theorem oldest_eq_some {c : CandidateInfo}
    (h : infos.foldl (Scan.keepBest ageRank (offerOldest now caller)) none = some c) :
    ∃ X ∈ infos, X.index = c.index ∧ X.lastUsage = c.lastUsage ∧ X.owner = caller ∧
      ∀ Y ∈ infos, Y.owner = caller → Y.age now ≤ X.age now := by
  have hge := (Scan.foldl_keepBest_ge ageRank (offerOldest now caller) infos none).2
  rcases Scan.foldl_keepBest ageRank (offerOldest now caller) infos none
    with ⟨hr, -⟩ | ⟨l₁, X, l₂, hl, hr, -, -, -⟩
  · rw [hr] at h
    cases h
  · have hX : X ∈ infos := hl ▸ List.mem_append_right _ List.mem_cons_self
    rw [hr] at h hge
    obtain ⟨ho, rfl⟩ := offerOldest_eq_some now caller h
    refine ⟨X, hX, rfl, rfl, ho, fun Y hY hYo => ?_⟩
    have hle := hge Y hY
    rw [h] at hle
    simpa [offerOldest, hYo, ageRank, WithBot.coe_le_coe, PruningInfo.age] using hle

theorem oldest_eq_none
    (h : infos.foldl (Scan.keepBest ageRank (offerOldest now caller)) none = none) :
    ∀ Y ∈ infos, Y.owner ≠ caller := by
  intro Y hY hYo
  have hle := (Scan.foldl_keepBest_ge ageRank (offerOldest now caller) infos none).2 Y hY
  rw [h] at hle
  simp [offerOldest, hYo, ageRank] at hle

/-- The candidate of `prune` is a victim the policy allows. -/
theorem pruneCandidate_victim {c : CandidateInfo}
    (h : pruneCandidate ageMalus now caller forced infos = some c) :
    ∃ X ∈ infos, X.index = c.index ∧ X.lastUsage = c.lastUsage ∧
      Victim ageMalus now caller forced infos X := by
  rw [pruneCandidate_eq] at h
  rcases hb : infos.foldl (Scan.keepBest candidateRank (offerIn ageMalus now caller forced infos))
    none with _ | b
  · -- nothing the caller may prune: its oldest operation
    rw [hb, Option.none_or] at h
    obtain ⟨X, hX, hi, hlu, ho, hold⟩ := oldest_eq_some now caller infos h
    exact ⟨X, hX, hi, hlu, .inr ⟨best_eq_none ageMalus now caller forced infos hb, hX, ho, hold⟩⟩
  · rw [hb, Option.some_or] at h
    cases h
    obtain ⟨X, hX, hi, hlu, hp, hbest⟩ := best_eq_some ageMalus now caller forced infos hb
    exact ⟨X, hX, hi, hlu, .inl ⟨hp, hbest⟩⟩

/-- `prune` finds no candidate exactly when the policy allows no victim. -/
theorem pruneCandidate_eq_none_iff :
    pruneCandidate ageMalus now caller forced infos = none ↔
      ∀ X, ¬Victim ageMalus now caller forced infos X := by
  constructor
  · intro h X hX
    rw [pruneCandidate_eq, Option.or_eq_none_iff] at h
    rcases hX with ⟨hp, -⟩ | ⟨-, hX, ho, -⟩
    · exact best_eq_none ageMalus now caller forced infos h.1 X hp
    · exact oldest_eq_none now caller infos h.2 X hX ho
  · intro h
    cases hc : pruneCandidate ageMalus now caller forced infos with
    | none => rfl
    | some c =>
      obtain ⟨X, -, -, -, hv⟩ := pruneCandidate_victim ageMalus now caller forced infos hc
      exact absurd hv (h X)

end Candidate

namespace OperationDb

/-- The `loop` of `prune`, with `fuel` rounds.  It goes round again only on an error of
`Operation::prune` other than the two it reports, which `prune_result_cases` shows there is
none of. -/
def pruneLoop (ageMalus : Nat → Nat) (env : PruneEnv) (caller : UInt32) (forced : Bool) :
    Nat → OperationDb → Option (Except Error Unit × OperationDb)
  | 0, _ => none
  | fuel + 1, db =>
    match pruneCandidate ageMalus env.now caller forced (db.snapshot env.busy) with
    | none => some (.error (.rc .backendBusy), db)
    | some c =>
      match db.get c.index with
      -- the operation in this slot was dropped, which freed its slot
      | none => some (.ok (), db)
      | some (id, lo) =>
        let (result, operation) := lo.ko.operation.prune c.lastUsage env.opEnv
        let db := db.modify id fun ko => { ko with operation }
        match result with
        | .ok () => some (.ok (), db)
        | .error (.km .invalidOperationHandle) => some (.ok (), db)
        | .error (.rc .operationBusy) => some (.ok (), db)
        | .error _ => pruneLoop ageMalus env caller forced fuel db

end OperationDb

/-! ## The slots -/

section FindCounting

variable {α : Type} {p : α → Bool}

/-- The search stops after the element it found, which the count then points one past. -/
theorem findCounting_some : ∀ {l : List α} {i j : Nat} {a : α},
    findCounting p l i = (some a, j) → ∃ k, j = i + k + 1 ∧ l[k]? = some a ∧ p a = true
  | [], _, _, _, h => by cases h
  | b :: l, i, j, a, h => by
    simp only [findCounting] at h
    split at h
    · cases h
      exact ⟨0, rfl, rfl, ‹_›⟩
    · obtain ⟨k, rfl, hk, hp⟩ := findCounting_some h
      exact ⟨k + 1, by omega, hk, hp⟩

theorem findCounting_none : ∀ {l : List α} {i j : Nat},
    findCounting p l i = (none, j) → ∀ a ∈ l, p a = false
  | [], _, _, _, _, ha => by cases ha
  | b :: l, i, j, h, a, ha => by
    simp only [findCounting] at h
    split at h
    · cases h
    · rcases List.mem_cons.mp ha with rfl | ha
      · simpa using ‹¬p a = true›
      · exact findCounting_none h a ha

end FindCounting

namespace OperationDb

variable {db : OperationDb}

theorem upgrade_eq_some {id : Nat} {lo : LiveOperation} :
    db.upgrade id = some lo ↔ db.ops id = some lo ∧ lo.ko.held = true :=
  Option.filter_eq_some_iff

theorem get_eq_some {index id : Nat} {lo : LiveOperation} :
    db.get index = some (id, lo) ↔ db.operations[index]? = some id ∧ db.upgrade id = some lo := by
  unfold get
  constructor
  · intro h
    obtain ⟨id', hid', h'⟩ := Option.bind_eq_some_iff.mp h
    obtain ⟨lo', hlo', he⟩ := Option.map_eq_some_iff.mp h'
    cases he
    exact ⟨hid', hlo'⟩
  · rintro ⟨hid, hlo⟩
    simp [hid, hlo]

/-- The table's invariant: its weak references are to distinct operations made before `next`,
nothing is made at or after `next`, and a live operation's index is the slot of its weak
reference. -/
structure Inv (db : OperationDb) : Prop where
  nodup : db.operations.Nodup
  bounded : ∀ id ∈ db.operations, id < db.next
  fresh : ∀ id, db.next ≤ id → db.ops id = none
  slot : ∀ id lo, db.upgrade id = some lo → db.operations[lo.index]? = some id

theorem inv_new : new.Inv :=
  ⟨List.nodup_nil, (fun _ h => by cases h), (fun _ _ => rfl), (fun _ _ h => by cases h)⟩

/-- Every live operation's index names its own slot, and no two of them share one. -/
theorem Inv.get_index (h : db.Inv) {id : Nat} {lo : LiveOperation} (hlo : db.upgrade id = some lo) :
    db.get lo.index = some (id, lo) ∧
      ∀ id' lo', db.upgrade id' = some lo' → lo'.index = lo.index → id' = id := by
  refine ⟨get_eq_some.mpr ⟨h.slot id lo hlo, hlo⟩, fun id' lo' hlo' hi => ?_⟩
  have h' := h.slot id' lo' hlo'
  rw [hi, h.slot id lo hlo] at h'
  exact (Option.some.inj h').symm

/-- The new operation's weak reference fills a free slot, or a new one at the end; either way
the slots of the live operations stay theirs. -/
theorem Inv.createOperation (h : db.Inv) (owner : UInt32) (forced : Bool) (now : Nat) :
    (db.createOperation owner forced now).2.Inv := by
  have hnext : db.next ∉ db.operations := fun hm => Nat.lt_irrefl _ (h.bounded _ hm)
  unfold OperationDb.createOperation
  split
  · -- the first slot whose operation is gone
    next id₀ index hf =>
    obtain ⟨k, rfl, hk, hfree⟩ := findCounting_some hf
    have hklen : k < db.operations.length := (List.getElem?_eq_some_iff.mp hk).1
    simp only [Nat.zero_add, Nat.add_sub_cancel]
    refine ⟨h.nodup.set hnext, ?_, ?_, ?_⟩
    · intro id hid
      dsimp only at hid ⊢
      rcases List.mem_or_eq_of_mem_set hid with hid | rfl
      · exact Nat.lt_succ_of_lt (h.bounded id hid)
      · exact Nat.lt_succ_self _
    · intro id hid
      dsimp only at hid ⊢
      rw [Function.update_of_ne (by omega)]
      exact h.fresh id (by omega)
    · intro id lo hlo
      dsimp only [upgrade] at hlo ⊢
      by_cases hid : id = db.next
      · subst hid
        simp only [Function.update_self, Option.filter_some] at hlo
        cases hlo
        exact List.getElem?_set_self hklen
      · rw [Function.update_of_ne hid, ← upgrade] at hlo
        -- a live operation is not in the free slot
        have hne : k ≠ lo.index := by
          rintro rfl
          rw [h.slot id lo hlo] at hk
          cases hk
          simp [hlo] at hfree
        rw [List.getElem?_set_ne hne]
        exact h.slot id lo hlo
  · -- no free slot: a new one at the end
    refine ⟨h.nodup.append (List.nodup_singleton _) (List.disjoint_singleton.mpr hnext), ?_, ?_, ?_⟩
    · intro id hid
      dsimp only at hid ⊢
      rcases List.mem_append.mp hid with hid | hid
      · exact Nat.lt_succ_of_lt (h.bounded id hid)
      · rw [List.mem_singleton.mp hid]
        exact Nat.lt_succ_self _
    · intro id hid
      dsimp only at hid ⊢
      rw [Function.update_of_ne (by omega)]
      exact h.fresh id (by omega)
    · intro id lo hlo
      dsimp only [upgrade] at hlo ⊢
      by_cases hid : id = db.next
      · subst hid
        simp only [Function.update_self, Option.filter_some] at hlo
        cases hlo
        simp
      · rw [Function.update_of_ne hid, ← upgrade] at hlo
        have hslot := h.slot id lo hlo
        rw [List.getElem?_append_left (List.getElem?_eq_some_iff.mp hslot).1]
        exact hslot

/-- A step of one operation that never takes it back once let go keeps the invariant. -/
theorem Inv.modify (h : db.Inv) (id : Nat) {f : KeystoreOperation → KeystoreOperation}
    (hf : ∀ ko, (f ko).held = true → ko.held = true) : (db.modify id f).Inv := by
  refine ⟨h.nodup, h.bounded, fun id' hid' => ?_, fun id' lo' hlo' => ?_⟩
  · by_cases he : id' = id
    · subst he
      simp [OperationDb.modify, h.fresh id' hid']
    · simp only [OperationDb.modify, Function.update_of_ne he]
      exact h.fresh id' hid'
  · by_cases he : id' = id
    · subst he
      simp only [upgrade, OperationDb.modify, Function.update_self] at hlo'
      -- the operation was alive before, in the same slot
      cases hops : db.ops id' with
      | none => simp [hops] at hlo'
      | some lo =>
        simp only [hops, Option.map_some, Option.filter_some] at hlo'
        split at hlo'
        · cases hlo'
          exact h.slot id' lo (upgrade_eq_some.mpr ⟨hops, hf _ ‹_›⟩)
        · cases hlo'
    · simp only [upgrade, OperationDb.modify, Function.update_of_ne he] at hlo'
      exact h.slot id' lo' hlo'

/-- What can happen to the table: a new operation, a call on an operation (which may let it go),
and a `prune`. -/
inductive Event
  | create (owner : UInt32) (forced : Bool) (now : Nat)
  | request (id : Nat) (req : Request) (env : Env)
  | prune (caller : UInt32) (forced : Bool) (env : PruneEnv)

def apply (ageMalus : Nat → Nat) (db : OperationDb) : Event → Option OperationDb
  | .create owner forced now => some (db.createOperation owner forced now).2
  | .request id req env => some (db.modify id fun ko => (step ko req env).2)
  | .prune caller forced env => (db.pruneLoop ageMalus env caller forced 1).map Prod.snd

def Reachable (ageMalus : Nat → Nat) : OperationDb → Prop :=
  Lib.Reachable new fun db e => db.apply ageMalus e

/-- `prune` ends after one snapshot: `Operation::prune` fails only in the two ways it reports,
so the `continue` of the loop is never taken. -/
theorem pruneLoop_succ (ageMalus : Nat → Nat) (env : PruneEnv) (caller : UInt32)
    (forced : Bool) (fuel : Nat) :
    db.pruneLoop ageMalus env caller forced (fuel + 1) =
      match pruneCandidate ageMalus env.now caller forced (db.snapshot env.busy) with
      | none => some (.error (.rc .backendBusy), db)
      | some c =>
        match db.get c.index with
        | none => some (.ok (), db)
        | some (id, lo) =>
          some (.ok (), db.modify id fun ko =>
            { ko with operation := (lo.ko.operation.prune c.lastUsage env.opEnv).2 }) := by
  rw [pruneLoop]
  split
  · rfl
  · next c _ =>
    split
    · rfl
    · next id lo _ =>
      dsimp only
      rcases Operation.prune_result_cases lo.ko.operation c.lastUsage env.opEnv with
        h | h | h <;> rw [h]

theorem getPruningInfo_eq_some {busy : Bool} {lo : LiveOperation} {X : PruningInfo}
    (h : lo.getPruningInfo busy = some X) : X = lo.pruningInfo := by
  unfold LiveOperation.getPruningInfo at h
  split at h
  · cases h
  · cases h
    rfl

/-- The snapshot holds the pruning information of live operations. -/
theorem mem_snapshot {busy : Nat → Bool} {X : PruningInfo} (h : X ∈ db.snapshot busy) :
    ∃ id lo, db.upgrade id = some lo ∧ X = lo.pruningInfo := by
  obtain ⟨id, -, hX⟩ := List.mem_filterMap.mp h
  obtain ⟨lo, hlo, hX⟩ := Option.bind_eq_some_iff.mp hX
  exact ⟨id, lo, hlo, getPruningInfo_eq_some hX⟩

/-- Every reachable table keeps the invariant. -/
theorem Reachable.inv {ageMalus : Nat → Nat} (h : Reachable ageMalus db) : db.Inv :=
  @Lib.Reachable.invariant _ Event new (fun db e => db.apply ageMalus e) Inv inv_new
    (fun db e db' hdb hstep => by
    cases e with
    | create owner forced now =>
      cases hstep
      exact hdb.createOperation owner forced now
    | request id req env =>
      cases hstep
      exact hdb.modify id fun _ => held_of_step
    | prune caller forced env =>
      -- a prune leaves the table, or changes the state of one operation
      simp only [apply, pruneLoop_succ] at hstep
      split at hstep
      · cases hstep
        exact hdb
      · split at hstep
        · cases hstep
          exact hdb
        · cases hstep
          dsimp only
          exact hdb.modify _ fun _ h => h) _ h

/-- One `prune` on a table that keeps the invariant: it reports `BACKEND_BUSY` exactly when the
policy allows no victim, and the only operation whose state it changes is a victim's. -/
theorem Inv.pruneLoop (hinv : db.Inv) (ageMalus : Nat → Nat) (env : PruneEnv) (caller : UInt32)
    (forced : Bool) (fuel : Nat) :
    ∃ r db', db.pruneLoop ageMalus env caller forced (fuel + 1) = some (r, db') ∧
      (r = .error (.rc .backendBusy) ↔
        ∀ X, ¬Victim ageMalus env.now caller forced (db.snapshot env.busy) X) ∧
      ∀ id, db'.ops id ≠ db.ops id → ∃ lo, db.upgrade id = some lo ∧
        Victim ageMalus env.now caller forced (db.snapshot env.busy) lo.pruningInfo := by
  rw [pruneLoop_succ]
  rcases hc : pruneCandidate ageMalus env.now caller forced (db.snapshot env.busy) with _ | c
  · exact ⟨_, _, rfl, iff_of_true rfl ((pruneCandidate_eq_none_iff _ _ _ _ _).mp hc),
      fun _ h => absurd rfl h⟩
  · obtain ⟨X, hX, hXi, -, hv⟩ := pruneCandidate_victim _ _ _ _ _ hc
    have hiff : ((.ok () : Except Error Unit) = .error (.rc .backendBusy)) ↔
        ∀ X, ¬Victim ageMalus env.now caller forced (db.snapshot env.busy) X :=
      iff_of_false (fun h => by cases h) (fun h => h X hv)
    dsimp only
    rcases hg : db.get c.index with _ | ⟨id, lo⟩
    · exact ⟨_, _, rfl, hiff, fun _ h => absurd rfl h⟩
    · refine ⟨_, _, rfl, hiff, fun id' hid' => ?_⟩
      -- only the operation in the candidate's slot changes
      have he : id' = id := by
        by_contra hne
        exact hid' (by simp [OperationDb.modify, Function.update_of_ne hne])
      subst he
      obtain ⟨hslot, hlo⟩ := get_eq_some.mp hg
      refine ⟨lo, hlo, ?_⟩
      -- and the victim's slot is the candidate's, which holds that operation
      obtain ⟨id₁, lo₁, hlo₁, rfl⟩ := mem_snapshot hX
      have hslot₁ := hinv.slot id₁ lo₁ hlo₁
      rw [show lo₁.index = c.index from hXi, hslot] at hslot₁
      cases hslot₁
      rw [hlo] at hlo₁
      cases hlo₁
      exact hv

end OperationDb

/-- The slots and the pruning policy of `OperationDb`.  Over every run of creations, calls that
may let operations go, and prunes, a live operation's index is its own slot, and no two share
one.  On every snapshot, the candidate of `prune` is a victim of the policy, and there is none
exactly when the policy allows none.  A `prune` reports `BACKEND_BUSY` exactly then, and
changes the state of no operation but a victim's. -/
theorem operationDb_slots_and_prune_victim (ageMalus : Nat → Nat) :
    (∀ db, OperationDb.Reachable ageMalus db → ∀ id lo, db.upgrade id = some lo →
      db.get lo.index = some (id, lo) ∧
        ∀ id' lo', db.upgrade id' = some lo' → lo'.index = lo.index → id' = id) ∧
    (∀ now caller forced infos c, pruneCandidate ageMalus now caller forced infos = some c →
      ∃ X ∈ infos, X.index = c.index ∧ X.lastUsage = c.lastUsage ∧
        Victim ageMalus now caller forced infos X) ∧
    (∀ now caller forced infos, pruneCandidate ageMalus now caller forced infos = none ↔
      ∀ X, ¬Victim ageMalus now caller forced infos X) ∧
    (∀ db, OperationDb.Reachable ageMalus db → ∀ env caller forced fuel,
      ∃ r db', db.pruneLoop ageMalus env caller forced (fuel + 1) = some (r, db') ∧
        (r = .error (.rc .backendBusy) ↔
          ∀ X, ¬Victim ageMalus env.now caller forced (db.snapshot env.busy) X) ∧
        ∀ id, db'.ops id ≠ db.ops id → ∃ lo, db.upgrade id = some lo ∧
          Victim ageMalus env.now caller forced (db.snapshot env.busy) lo.pruningInfo) :=
  ⟨fun _ hdb _ _ hlo => hdb.inv.get_index hlo,
    fun now caller forced infos _ hc => pruneCandidate_victim ageMalus now caller forced infos hc,
    fun now caller forced infos => pruneCandidate_eq_none_iff ageMalus now caller forced infos,
    fun _ hdb env caller forced fuel => hdb.inv.pruneLoop ageMalus env caller forced fuel⟩

end Keystore2.Operation
