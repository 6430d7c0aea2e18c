import Keystore2.Error
import Keystore2.Lib.Transition

/-! The operation lifecycle of `operation.rs`.  An `Operation` wraps a KeyMint operation and
records how it ended in its `outcome`, which stays `unknown` while the operation is active.
The client reaches it through a `KeystoreOperation`, which holds the only strong reference;
the `OperationDb` holds a weak one, through which another client's `prune` may end it, and
dropping the last reference aborts it if it is still active.

Every call that can change the outcome takes the outcome lock first, so calls on one operation
take effect one after another, and a call that finds a lock held returns `OPERATION_BUSY`
without effect.  A call is therefore one step on the operation; what the environment does
during it (whether the lock is free, the clock, the answers of the authorization hooks and of
the KeyMint operation) is an input of the step.  The calls the KeyMint operation receives are
kept in a log, which outlives the operation, so that a run can be judged by them. -/

namespace Keystore2.Operation

abbrev Bytes := List UInt8

/-- `Outcome`: `unknown` while the operation is active, then the way it ended. -/
inductive Outcome
  | unknown
  | success
  | abort
  | dropped
  | pruned
  | errorCode (e : Error)
  deriving DecidableEq, Repr

/-- The calls of `IKeyMintOperation`. -/
inductive KmCall
  | updateAad
  | update
  | finish
  | abort
  deriving DecidableEq, Repr

/-- A call that ends the KeyMint operation: a successful `finish`, or an `abort`. -/
def terminates : KmCall × Bool → Bool
  | (.finish, ok) => ok
  | (.abort, _) => true
  | _ => false

@[simp] theorem terminates_updateAad (b : Bool) : terminates (.updateAad, b) = false := rfl

@[simp] theorem terminates_update (b : Bool) : terminates (.update, b) = false := rfl

@[simp] theorem terminates_finish (b : Bool) : terminates (.finish, b) = b := rfl

@[simp] theorem terminates_abort (b : Bool) : terminates (.abort, b) = true := rfl

/-- What the environment does during one call. -/
structure Env where
  /-- The mutex the call tries first is held by another thread. -/
  locked : Bool
  /-- `Instant::now()`. -/
  now : Nat
  /-- `before_update` or `before_finish`; the tokens themselves only go on to KeyMint. -/
  auth : Except Error Unit
  /-- The answer of KeyMint's `updateAad`, `update` or `finish`. -/
  km : Except Error Bytes
  afterFinish : Except Error Unit
  /-- The answer of KeyMint's `abort`. -/
  abortKm : Except Error Unit

structure Operation where
  lastUsage : Nat
  outcome : Outcome
  /-- The calls the KeyMint operation has received, with whether each succeeded. -/
  kmLog : List (KmCall × Bool)
  deriving DecidableEq, Repr

namespace Operation

def maxReceiveData : Nat := 0x8000

def checkActive (op : Operation) : Except Error Unit :=
  if op.outcome = .unknown then pure () else throw (.km .invalidOperationHandle)

def checkInputLength (len : Nat) : Except Error Unit :=
  if len > maxReceiveData then throw (.rc .tooMuchData) else pure ()

def touch (op : Operation) (now : Nat) : Operation := { op with lastUsage := now }

/-- The KeyMint operation receives `call` and answers `r`. -/
def callKm {α : Type} (op : Operation) (call : KmCall) (r : Except Error α) : Operation :=
  { op with kmLog := op.kmLog ++ [(call, r.isOk)] }

/-- `update_outcome`: an error of a KeyMint call ends the operation. -/
def updateOutcome {α : Type} (op : Operation) (r : Except Error α) : Operation :=
  match r with
  | .error e => { op with outcome := .errorCode e }
  | .ok _ => op

def outputOf (output : Bytes) : Option Bytes :=
  if output.isEmpty then none else some output

/-- `Operation::update_aad`. -/
def updateAad (len : Nat) (env : Env) (op : Operation) : Except Error Unit × Operation :=
  match op.checkActive *> checkInputLength len with
  | .error e => (.error e, op)
  | .ok () =>
    let op := op.touch env.now
    match env.auth with
    | .error e => (.error e, op)
    | .ok () => (env.km.map fun _ => (), (op.callKm .updateAad env.km).updateOutcome env.km)

/-- `Operation::update`. -/
def update (len : Nat) (env : Env) (op : Operation) : Except Error (Option Bytes) × Operation :=
  match op.checkActive *> checkInputLength len with
  | .error e => (.error e, op)
  | .ok () =>
    let op := op.touch env.now
    match env.auth with
    | .error e => (.error e, op)
    | .ok () => (outputOf <$> env.km, (op.callKm .update env.km).updateOutcome env.km)

/-- `Operation::finish`: the outcome becomes `success` only after `after_finish`; when that
fails, the KeyMint operation has finished but the outcome is still `unknown`. -/
def finish (len : Option Nat) (env : Env) (op : Operation) :
    Except Error (Option Bytes) × Operation :=
  match op.checkActive *> (match len with | some len => checkInputLength len | none => pure ()) with
  | .error e => (.error e, op)
  | .ok () =>
    let op := op.touch env.now
    match env.auth with
    | .error e => (.error e, op)
    | .ok () =>
      let op := (op.callKm .finish env.km).updateOutcome env.km
      match env.km, env.afterFinish with
      | .error e, _ => (.error e, op)
      | .ok _, .error e => (.error e, op)
      | .ok output, .ok () => (pure (outputOf output), { op with outcome := .success })

/-- `Operation::abort`: the outcome is set before KeyMint is called. -/
def abort (outcome : Outcome) (env : Env) (op : Operation) : Except Error Unit × Operation :=
  match op.checkActive with
  | .error e => (.error e, op)
  | .ok () => (env.abortKm, { op with outcome }.callKm .abort env.abortKm)

/-- `Operation::prune` with the last usage its caller saw; the answer of KeyMint's `abort` is
only logged. -/
def prune (lastUsage : Nat) (env : Env) (op : Operation) : Except Error Unit × Operation :=
  if env.locked then (throw (.rc .operationBusy), op)
  else if op.outcome ≠ .unknown then (throw (.km .invalidOperationHandle), op)
  else if op.lastUsage ≠ lastUsage then (throw (.rc .operationBusy), op)
  else (pure (), { op with outcome := .pruned }.callKm .abort env.abortKm)

/-- `Drop for Operation`: an operation still active is aborted with outcome `dropped`. -/
def drop (env : Env) (op : Operation) : Operation :=
  if op.outcome = .unknown then (op.abort .dropped env).2 else op

end Operation

/-- A `KeystoreOperation` and the operation it wraps; `held` says whether it still holds it.
The operation is kept after it lets go, to record how it ended. -/
structure KeystoreOperation where
  operation : Operation
  held : Bool
  deriving DecidableEq, Repr

namespace KeystoreOperation

/-- A new operation, as `create_operation` hands it to its `KeystoreOperation`. -/
def new (now : Nat) : KeystoreOperation := ⟨⟨now, .unknown, []⟩, true⟩

/-- `with_locked_operation`: an error of `f`, or `delete_op`, lets go of the operation, which
drops it. -/
def withLockedOperation {α : Type} (f : Operation → Except Error α × Operation) (deleteOp : Bool)
    (env : Env) (ko : KeystoreOperation) : Except Error α × KeystoreOperation :=
  if env.locked then (throw (.rc .operationBusy), ko)
  else if ko.held then
    let (result, op) := f ko.operation
    if deleteOp || !result.isOk then (result, ⟨op.drop env, false⟩) else (result, ⟨op, true⟩)
  else (throw (.km .invalidOperationHandle), ko)

def updateAad (len : Nat) (env : Env) : KeystoreOperation → Except Error Unit × KeystoreOperation :=
  withLockedOperation (Operation.updateAad len env) false env

def update (len : Nat) (env : Env) :
    KeystoreOperation → Except Error (Option Bytes) × KeystoreOperation :=
  withLockedOperation (Operation.update len env) false env

def finish (len : Option Nat) (env : Env) :
    KeystoreOperation → Except Error (Option Bytes) × KeystoreOperation :=
  withLockedOperation (Operation.finish len env) true env

def abort (env : Env) : KeystoreOperation → Except Error Unit × KeystoreOperation :=
  withLockedOperation (Operation.abort .abort env) true env

/-- Another client's `OperationDb::prune` chose this operation: it reaches it only while the
weak reference still upgrades. -/
def pruneBy (lastUsage : Nat) (env : Env) (ko : KeystoreOperation) :
    Except Error Unit × KeystoreOperation :=
  if ko.held then
    let (result, op) := ko.operation.prune lastUsage env
    (result, { ko with operation := op })
  else (pure (), ko)

/-- The client drops its reference to the `KeystoreOperation`. -/
def release (env : Env) (ko : KeystoreOperation) : KeystoreOperation :=
  if ko.held then ⟨ko.operation.drop env, false⟩ else ko

end KeystoreOperation

/-- What can happen to an operation. -/
inductive Request
  | updateAad (len : Nat)
  | update (len : Nat)
  | finish (len : Option Nat)
  | abort
  | prune (lastUsage : Nat)
  | release
  deriving DecidableEq, Repr

/-- A call of the client on its `KeystoreOperation`. -/
def Request.byClient : Request → Bool
  | .updateAad _ | .update _ | .finish _ | .abort => true
  | .prune _ | .release => false

open KeystoreOperation in
/-- One step: the request's result, with no output for the calls that have none, and the
state after it. -/
def step (ko : KeystoreOperation) (req : Request) (env : Env) :
    Except Error (Option Bytes) × KeystoreOperation :=
  match req with
  | .updateAad len => Prod.map (Except.map fun _ => none) id (ko.updateAad len env)
  | .update len => ko.update len env
  | .finish len => ko.finish len env
  | .abort => Prod.map (Except.map fun _ => none) id (ko.abort env)
  | .prune lastUsage => Prod.map (Except.map fun _ => none) id (ko.pruneBy lastUsage env)
  | .release => (pure none, ko.release env)

theorem KeystoreOperation.held_of_withLockedOperation {α : Type}
    {f : Operation → Except Error α × Operation} {deleteOp : Bool} {env : Env}
    {ko : KeystoreOperation} (h : (ko.withLockedOperation f deleteOp env).2.held = true) :
    ko.held = true := by
  unfold KeystoreOperation.withLockedOperation at h
  split at h
  · exact h
  · split at h
    · assumption
    · exact h

/-- A `KeystoreOperation` that has let go of its operation never holds it again. -/
theorem held_of_step {ko : KeystoreOperation} {req : Request} {env : Env}
    (h : (step ko req env).2.held = true) : ko.held = true := by
  cases req with
  | updateAad len =>
    exact KeystoreOperation.held_of_withLockedOperation
      (show (ko.updateAad len env).2.held = true from h)
  | update len => exact KeystoreOperation.held_of_withLockedOperation h
  | finish len => exact KeystoreOperation.held_of_withLockedOperation h
  | abort =>
    exact KeystoreOperation.held_of_withLockedOperation (show (ko.abort env).2.held = true from h)
  | prune lastUsage =>
    -- a prune by another client changes the operation, not who holds it
    simp only [step, Prod.map, KeystoreOperation.pruneBy] at h
    split at h <;> exact h
  | release =>
    simp only [step, KeystoreOperation.release] at h
    split at h
    · assumption
    · exact h

namespace Operation

variable {α : Type} {op : Operation} {env : Env}

@[simp] theorem touch_outcome (now : Nat) : (op.touch now).outcome = op.outcome := rfl

@[simp] theorem touch_kmLog (now : Nat) : (op.touch now).kmLog = op.kmLog := rfl

@[simp] theorem callKm_outcome (c : KmCall) (r : Except Error α) :
    (op.callKm c r).outcome = op.outcome := rfl

@[simp] theorem callKm_kmLog (c : KmCall) (r : Except Error α) :
    (op.callKm c r).kmLog = op.kmLog ++ [(c, r.isOk)] := rfl

@[simp] theorem updateOutcome_kmLog (r : Except Error α) :
    (op.updateOutcome r).kmLog = op.kmLog := by
  cases r <;> rfl

@[simp] theorem updateOutcome_ok (a : α) : op.updateOutcome (.ok a) = op := rfl

@[simp] theorem updateOutcome_error (e : Error) :
    op.updateOutcome (.error e : Except Error α) = { op with outcome := .errorCode e } := rfl

/-! ### A finalized operation -/

section Inactive

variable (h : op.outcome ≠ .unknown)
include h

theorem checkActive_of_inactive : op.checkActive = .error (.km .invalidOperationHandle) := by
  simp [checkActive, h, throw, throwThe, MonadExceptOf.throw]

theorem updateAad_of_inactive (len : Nat) :
    op.updateAad len env = (.error (.km .invalidOperationHandle), op) := by
  simp only [updateAad, checkActive_of_inactive h]
  rfl

theorem update_of_inactive (len : Nat) :
    op.update len env = (.error (.km .invalidOperationHandle), op) := by
  simp only [update, checkActive_of_inactive h]
  rfl

theorem finish_of_inactive (len : Option Nat) :
    op.finish len env = (.error (.km .invalidOperationHandle), op) := by
  simp only [finish, checkActive_of_inactive h]
  rfl

theorem abort_of_inactive (outcome : Outcome) :
    op.abort outcome env = (.error (.km .invalidOperationHandle), op) := by
  simp only [abort, checkActive_of_inactive h]

theorem drop_of_inactive : op.drop env = op := by
  simp [drop, h]

theorem prune_of_inactive (lastUsage : Nat) :
    (op.prune lastUsage env).2 = op ∧
      ((op.prune lastUsage env).1 = .error (.km .invalidOperationHandle) ∨
        (op.prune lastUsage env).1 = .error (.rc .operationBusy)) := by
  unfold prune
  split
  · exact ⟨rfl, .inr rfl⟩
  · exact ⟨rfl, .inl rfl⟩

end Inactive

/-- `Operation::prune` succeeds, or fails with `INVALID_OPERATION_HANDLE` or `OPERATION_BUSY`. -/
theorem prune_result_cases (op : Operation) (lastUsage : Nat) (env : Env) :
    (op.prune lastUsage env).1 = .ok () ∨
      (op.prune lastUsage env).1 = .error (.km .invalidOperationHandle) ∨
      (op.prune lastUsage env).1 = .error (.rc .operationBusy) := by
  unfold prune
  split
  · exact .inr (.inr rfl)
  · split
    · exact .inr (.inl rfl)
    · split
      · exact .inr (.inr rfl)
      · exact .inl rfl

end Operation

/-! ## The calls the KeyMint operation receives -/

/-- The calls of a log from the first one that ends the KeyMint operation. -/
def fromEnd (log : List (KmCall × Bool)) : List (KmCall × Bool) :=
  log.dropWhile fun e => !terminates e

/-- The ends a log may have, given the outcome: none while the operation is active or after a
KeyMint error; the abort of `abort`, `prune` or `drop`; the successful `finish`; or that
`finish` followed by the abort of `drop`. -/
def Outcome.tails : Outcome → List (List (KmCall × Bool))
  | .unknown | .errorCode _ => [[]]
  | .success => [[(.finish, true)]]
  | .abort | .pruned => [[(.abort, false)], [(.abort, true)]]
  | .dropped =>
    [[(.abort, false)], [(.abort, true)], [(.finish, true), (.abort, false)],
      [(.finish, true), (.abort, true)]]

section FromEnd

variable {l : List (KmCall × Bool)} (l' : List (KmCall × Bool))

theorem fromEnd_append_of_nil (h : fromEnd l = []) : fromEnd (l ++ l') = fromEnd l' := by
  unfold fromEnd at h ⊢
  rw [List.dropWhile_append, h]
  rfl

theorem fromEnd_append_of_ne_nil (h : fromEnd l ≠ []) :
    fromEnd (l ++ l') = fromEnd l ++ l' := by
  unfold fromEnd at h ⊢
  rw [List.dropWhile_append, if_neg (by simpa using h)]

end FromEnd

theorem fromEnd_of_terminates {e : KmCall × Bool} (h : terminates e = true)
    (l : List (KmCall × Bool)) : fromEnd (e :: l) = e :: l :=
  List.dropWhile_cons_of_neg (by simp [h])

namespace Operation

/-- The calls the KeyMint operation received from the first one that ended it fit the
outcome. -/
def LogOk (op : Operation) : Prop := fromEnd op.kmLog ∈ op.outcome.tails

/-- Between KeyMint's `finish` and `after_finish`: the KeyMint operation has finished, the
outcome is still `unknown`. -/
def Finished (op : Operation) : Prop :=
  op.outcome = .unknown ∧ fromEnd op.kmLog = [(.finish, true)]

variable {α : Type} {op : Operation} {env : Env}

theorem LogOk.fromEnd_eq_nil (h : op.LogOk) (ha : op.outcome = .unknown) :
    fromEnd op.kmLog = [] := by
  simpa [LogOk, ha, Outcome.tails] using h

theorem nil_mem_tails_updateOutcome (ha : op.outcome = .unknown) (r : Except Error α) :
    [] ∈ (op.updateOutcome r).outcome.tails := by
  cases r <;> simp [updateOutcome, ha, Outcome.tails]

/-- The log of an active operation after a KeyMint call that does not end it: `updateAad` or
`update`, or a failed `finish`. -/
theorem fromEnd_append_quiet {l : List (KmCall × Bool)} (h : fromEnd l = [])
    {e : KmCall × Bool} (he : terminates e = false) : fromEnd (l ++ [e]) = [] := by
  rw [fromEnd_append_of_nil _ h]
  simp [fromEnd, he]

theorem fromEnd_append_ends {l : List (KmCall × Bool)} (h : fromEnd l = [])
    {e : KmCall × Bool} (he : terminates e = true) : fromEnd (l ++ [e]) = [e] := by
  rw [fromEnd_append_of_nil _ h, fromEnd_of_terminates he]

theorem abort_of_active (ha : op.outcome = .unknown) (outcome : Outcome) :
    op.abort outcome env = (env.abortKm, { op with outcome }.callKm .abort env.abortKm) := by
  simp [abort, checkActive, ha, pure, Except.pure]

theorem updateAad_logOk (h : op.LogOk) (len : Nat) : (op.updateAad len env).2.LogOk := by
  by_cases ha : op.outcome = .unknown
  · have hnil := h.fromEnd_eq_nil ha
    unfold updateAad
    split
    · exact h
    · split
      · exact h
      · -- the KeyMint call does not end the operation; its error does
        simp only [LogOk, updateOutcome_kmLog, callKm_kmLog, touch_kmLog]
        rw [fromEnd_append_quiet hnil (terminates_updateAad _)]
        apply nil_mem_tails_updateOutcome
        exact ha
  · rw [updateAad_of_inactive ha]
    exact h

theorem update_logOk (h : op.LogOk) (len : Nat) : (op.update len env).2.LogOk := by
  by_cases ha : op.outcome = .unknown
  · have hnil := h.fromEnd_eq_nil ha
    unfold update
    split
    · exact h
    · split
      · exact h
      · simp only [LogOk, updateOutcome_kmLog, callKm_kmLog, touch_kmLog]
        rw [fromEnd_append_quiet hnil (terminates_update _)]
        apply nil_mem_tails_updateOutcome
        exact ha
  · rw [update_of_inactive ha]
    exact h

/-- After `finish` the log fits the outcome, except when KeyMint finished and `after_finish`
failed: then the outcome is still `unknown`. -/
theorem finish_logOk (h : op.LogOk) (len : Option Nat) :
    (op.finish len env).2.LogOk ∨ (op.finish len env).2.Finished := by
  by_cases ha : op.outcome = .unknown
  · have hnil := h.fromEnd_eq_nil ha
    unfold finish
    split
    · exact .inl h
    · split
      · exact .inl h
      · split
        · next e _ hkm =>
          -- KeyMint's error ends the operation
          left
          simp only [LogOk, hkm, updateOutcome_kmLog, callKm_kmLog, touch_kmLog, Except.isOk,
            Except.toBool]
          rw [fromEnd_append_quiet hnil (terminates_finish false)]
          apply nil_mem_tails_updateOutcome
          exact ha
        · next output e hkm _ =>
          -- KeyMint finished, but `after_finish` failed
          right
          simp only [Finished, hkm, updateOutcome_ok, callKm_kmLog, callKm_outcome, touch_kmLog,
            touch_outcome, Except.isOk, Except.toBool]
          exact ⟨ha, fromEnd_append_ends hnil (terminates_finish true)⟩
        · next output hkm _ =>
          left
          simp only [LogOk, hkm, updateOutcome_ok, callKm_kmLog, touch_kmLog, Except.isOk,
            Except.toBool]
          rw [fromEnd_append_ends hnil (terminates_finish true)]
          simp [Outcome.tails]
  · rw [finish_of_inactive ha]
    exact .inl h

theorem abort_logOk {outcome : Outcome} (hout : ∀ b, [(.abort, b)] ∈ outcome.tails)
    (h : op.LogOk) : (op.abort outcome env).2.LogOk := by
  by_cases ha : op.outcome = .unknown
  · simp only [abort_of_active ha, LogOk, callKm_kmLog, callKm_outcome]
    rw [fromEnd_append_ends (h.fromEnd_eq_nil ha) (terminates_abort _)]
    exact hout _
  · rw [abort_of_inactive ha]
    exact h

/-- The abort of `drop` after KeyMint finished. -/
theorem abort_dropped_logOk_of_finished (h : op.Finished) :
    (op.abort .dropped env).2.LogOk := by
  simp only [abort_of_active h.1, LogOk, callKm_kmLog, callKm_outcome,
    fromEnd_append_of_ne_nil _ (show fromEnd op.kmLog ≠ [] by simp [h.2]), h.2]
  cases env.abortKm <;> simp [Outcome.tails]

theorem drop_logOk (h : op.LogOk ∨ op.Finished) :
    (op.drop env).LogOk ∧ (op.drop env).outcome ≠ .unknown := by
  by_cases ha : op.outcome = .unknown
  · rw [drop, if_pos ha]
    refine ⟨?_, by simp [abort_of_active ha]⟩
    rcases h with h | h
    · exact abort_logOk (fun b => by cases b <;> simp [Outcome.tails]) h
    · exact abort_dropped_logOk_of_finished h
  · rw [drop_of_inactive ha]
    exact ⟨h.resolve_right fun hf => ha hf.1, ha⟩

theorem prune_logOk (h : op.LogOk) (lastUsage : Nat) : (op.prune lastUsage env).2.LogOk := by
  unfold prune
  split
  · exact h
  · split
    · exact h
    · split
      · exact h
      · next ha _ =>
        rw [Decidable.not_not] at ha
        simp only [LogOk, callKm_kmLog, callKm_outcome]
        rw [fromEnd_append_ends (h.fromEnd_eq_nil ha) (terminates_abort _)]
        cases env.abortKm <;> simp [Outcome.tails]

/-! ### Where `success` comes from -/

theorem updateOutcome_success (r : Except Error α)
    (h : (op.updateOutcome r).outcome = .success) : op.outcome = .success := by
  cases r with
  | error e => cases h
  | ok a => exact h

theorem updateAad_success {len : Nat} (h : (op.updateAad len env).2.outcome = .success) :
    op.outcome = .success := by
  unfold updateAad at h
  split at h
  · exact h
  · split at h
    · exact h
    · dsimp only at h
      have hs := updateOutcome_success _ h
      exact hs

theorem update_success {len : Nat} (h : (op.update len env).2.outcome = .success) :
    op.outcome = .success := by
  unfold update at h
  split at h
  · exact h
  · split at h
    · exact h
    · dsimp only at h
      have hs := updateOutcome_success _ h
      exact hs

/-- `finish` sets `success` only after KeyMint's `finish` and `after_finish` succeeded. -/
theorem finish_success {len : Option Nat} (h : (op.finish len env).2.outcome = .success) :
    op.outcome = .success ∨ (∃ output, env.km = .ok output) ∧ env.afterFinish = .ok () := by
  unfold finish at h
  split at h
  · exact .inl h
  · split at h
    · exact .inl h
    · split at h
      · dsimp only at h
        have hs := updateOutcome_success _ h
        exact .inl hs
      · next hkm _ =>
        rw [hkm] at h
        exact .inl h
      · next output hkm hafter => exact .inr ⟨⟨output, hkm⟩, hafter⟩

theorem abort_success {outcome : Outcome} (hout : outcome ≠ .success)
    (h : (op.abort outcome env).2.outcome = .success) : op.outcome = .success := by
  unfold abort at h
  split at h
  · exact h
  · exact absurd h hout

theorem drop_success (h : (op.drop env).outcome = .success) : op.outcome = .success := by
  unfold drop at h
  split at h
  · exact abort_success (by decide) h
  · exact h

theorem prune_success {lastUsage : Nat} (h : (op.prune lastUsage env).2.outcome = .success) :
    op.outcome = .success := by
  unfold prune at h
  split at h
  · exact h
  · split at h
    · exact h
    · split at h
      · exact h
      · cases h

/-! ### The finish whose `after_finish` fails -/

theorem checkActive_of_active (ha : op.outcome = .unknown) : op.checkActive = .ok () := by
  simp [checkActive, ha, pure, Except.pure]

theorem finish_of_afterFinish_error {len : Option Nat} (ha : op.outcome = .unknown)
    (hlen : ∀ n, len = some n → n ≤ maxReceiveData) (hauth : env.auth = .ok ())
    {output : Bytes} (hkm : env.km = .ok output) {e : Error} (hafter : env.afterFinish = .error e) :
    op.finish len env = (.error e, (op.touch env.now).callKm .finish env.km) := by
  have hchecks : (op.checkActive *> match len with
      | some len => checkInputLength len
      | none => pure ()) = .ok () := by
    rw [checkActive_of_active ha]
    cases len with
    | none => rfl
    | some n => simp [checkInputLength, Nat.not_lt.mpr (hlen n rfl), pure, Except.pure]; rfl
  unfold finish
  rw [hchecks]
  simp only [hauth, hkm, hafter, updateOutcome_ok]

end Operation

namespace KeystoreOperation

variable {α : Type} {ko : KeystoreOperation} {env : Env}

/-- The invariant of a run: an operation its `KeystoreOperation` let go of has ended, and the
calls its KeyMint operation received fit its outcome. -/
structure Inv (ko : KeystoreOperation) : Prop where
  ended : ko.held = false → ko.operation.outcome ≠ .unknown
  logOk : ko.operation.LogOk

theorem new_inv (now : Nat) : (new now).Inv :=
  ⟨(fun h => by simp [new] at h), by simp [Operation.LogOk, new, fromEnd, Outcome.tails]⟩

theorem withLockedOperation_inv {f : Operation → Except Error α × Operation} {deleteOp : Bool}
    (h : ko.Inv)
    (hf : (f ko.operation).2.LogOk ∨ deleteOp = true ∧ (f ko.operation).2.Finished) :
    (withLockedOperation f deleteOp env ko).2.Inv := by
  unfold withLockedOperation
  split
  · exact h
  · split
    · generalize f ko.operation = p at hf ⊢
      obtain ⟨r, op⟩ := p
      dsimp only at hf ⊢
      split
      · -- letting go drops the operation
        have hdrop := @Operation.drop_logOk _ env (hf.imp_right And.right)
        exact ⟨fun _ => hdrop.2, hdrop.1⟩
      · next hkeep =>
        have hdel : deleteOp = false := by simp_all
        exact ⟨(fun hf => by simp at hf), hf.resolve_right fun hd => by simp [hd.1] at hdel⟩
    · exact h

theorem step_inv (h : ko.Inv) (req : Request) (env : Env) : (step ko req env).2.Inv := by
  cases req with
  | updateAad len =>
    exact withLockedOperation_inv h (.inl (Operation.updateAad_logOk h.logOk len))
  | update len => exact withLockedOperation_inv h (.inl (Operation.update_logOk h.logOk len))
  | finish len =>
    exact withLockedOperation_inv h
      ((Operation.finish_logOk h.logOk len).imp_right fun hf => ⟨rfl, hf⟩)
  | abort =>
    exact withLockedOperation_inv h
      (.inl (Operation.abort_logOk (fun b => by cases b <;> simp [Outcome.tails]) h.logOk))
  | prune lastUsage =>
    show (ko.pruneBy lastUsage env).2.Inv
    unfold pruneBy
    split
    · next hheld => exact ⟨(fun hf => by simp [hheld] at hf), Operation.prune_logOk h.logOk _⟩
    · exact h
  | release =>
    show (ko.release env).Inv
    unfold release
    split
    · have hdrop := @Operation.drop_logOk _ env (.inl h.logOk)
      exact ⟨fun _ => hdrop.2, hdrop.1⟩
    · exact h

/-- The states a run of requests leads a new operation to. -/
def Reachable (now : Nat) : KeystoreOperation → Prop :=
  Lib.Reachable (new now) fun ko (a : Request × Env) => some (step ko a.1 a.2).2

theorem Reachable.inv {now : Nat} (h : Reachable now ko) : ko.Inv :=
  Lib.Reachable.invariant (new_inv now)
    (fun _ a _ hs ha => by
      obtain rfl := Option.some.inj ha
      exact step_inv hs a.1 a.2) h

/-! ### After the outcome left `unknown` -/

theorem withLockedOperation_of_inactive {f : Operation → Except Error α × Operation}
    {deleteOp : Bool} (h : ko.operation.outcome ≠ .unknown)
    (hf : f ko.operation = (.error (.km .invalidOperationHandle), ko.operation)) :
    (withLockedOperation f deleteOp env ko).2.operation = ko.operation ∧
      ((withLockedOperation f deleteOp env ko).1 = .error (.km .invalidOperationHandle) ∨
        (withLockedOperation f deleteOp env ko).1 = .error (.rc .operationBusy)) := by
  unfold withLockedOperation
  split
  · exact ⟨rfl, .inr rfl⟩
  · split
    · rw [hf]
      dsimp only
      rw [if_pos (by simp [Except.isOk, Except.toBool])]
      exact ⟨Operation.drop_of_inactive h, .inl rfl⟩
    · exact ⟨rfl, .inl rfl⟩

/-- Once the outcome has left `unknown`, nothing changes the operation, so its KeyMint
operation receives no call; a call of the client fails with `INVALID_OPERATION_HANDLE` or
`OPERATION_BUSY`. -/
theorem step_of_inactive (h : ko.operation.outcome ≠ .unknown) (req : Request) (env : Env) :
    (step ko req env).2.operation = ko.operation ∧
      (req.byClient = true → (step ko req env).1 = .error (.km .invalidOperationHandle) ∨
        (step ko req env).1 = .error (.rc .operationBusy)) := by
  cases req with
  | updateAad len =>
    obtain ⟨hop, hr⟩ := @withLockedOperation_of_inactive _ ko env _ false h
      (Operation.updateAad_of_inactive h len)
    refine ⟨hop, fun _ => ?_⟩
    rcases hr with hr | hr
    · exact .inl (by simp only [step, updateAad, Prod.map_fst, hr]; rfl)
    · exact .inr (by simp only [step, updateAad, Prod.map_fst, hr]; rfl)
  | update len =>
    exact (withLockedOperation_of_inactive h (Operation.update_of_inactive h len)).imp_right
      fun hr _ => hr
  | finish len =>
    exact (withLockedOperation_of_inactive h (Operation.finish_of_inactive h len)).imp_right
      fun hr _ => hr
  | abort =>
    obtain ⟨hop, hr⟩ := @withLockedOperation_of_inactive _ ko env _ true h
      (Operation.abort_of_inactive h .abort)
    refine ⟨hop, fun _ => ?_⟩
    rcases hr with hr | hr
    · exact .inl (by simp only [step, abort, Prod.map_fst, hr]; rfl)
    · exact .inr (by simp only [step, abort, Prod.map_fst, hr]; rfl)
  | prune lastUsage =>
    refine ⟨?_, fun hc => by cases hc⟩
    show (ko.pruneBy lastUsage env).2.operation = ko.operation
    unfold pruneBy
    split
    · exact (Operation.prune_of_inactive h lastUsage).1
    · rfl
  | release =>
    refine ⟨?_, fun hc => by cases hc⟩
    show (ko.release env).operation = ko.operation
    unfold release
    split
    · exact Operation.drop_of_inactive h
    · rfl

/-! ### Where `success` comes from -/

theorem withLockedOperation_success {f : Operation → Except Error α × Operation}
    {deleteOp : Bool} {P : Prop} (hn : ko.operation.outcome ≠ .success)
    (hf : (f ko.operation).2.outcome = .success → P)
    (h : (withLockedOperation f deleteOp env ko).2.operation.outcome = .success) : P := by
  unfold withLockedOperation at h
  split at h
  · exact absurd h hn
  · split at h
    · generalize f ko.operation = p at hf h
      obtain ⟨r, op⟩ := p
      dsimp only at h hf
      split at h
      · exact hf (Operation.drop_success h)
      · exact hf h
    · exact absurd h hn

/-- A step records `success` only as a `finish` whose KeyMint call and `after_finish` both
succeeded. -/
theorem step_success {req : Request} (hn : ko.operation.outcome ≠ .success)
    (h : (step ko req env).2.operation.outcome = .success) :
    (∃ len, req = .finish len) ∧ (∃ output, env.km = .ok output) ∧
      env.afterFinish = .ok () := by
  cases req with
  | updateAad len =>
    exact (withLockedOperation_success hn (fun h => hn (Operation.updateAad_success h)) h).elim
  | update len =>
    exact (withLockedOperation_success hn (fun h => hn (Operation.update_success h)) h).elim
  | finish len =>
    exact ⟨⟨len, rfl⟩,
      withLockedOperation_success hn (fun h => (Operation.finish_success h).resolve_left hn) h⟩
  | abort =>
    exact (withLockedOperation_success hn
      (fun h => hn (Operation.abort_success (by decide) h)) h).elim
  | prune lastUsage =>
    change (ko.pruneBy lastUsage env).2.operation.outcome = .success at h
    unfold pruneBy at h
    split at h
    · exact absurd (Operation.prune_success h) hn
    · exact absurd h hn
  | release =>
    change (ko.release env).operation.outcome = .success at h
    unfold release at h
    split at h
    · exact absurd (Operation.drop_success h) hn
    · exact absurd h hn

/-! ### A successful KeyMint `finish` followed by an abort -/

theorem keyMint_abort_follows_successful_finish (hheld : ko.held = true)
    (ha : ko.operation.outcome = .unknown) {len : Option Nat}
    (hlen : ∀ n, len = some n → n ≤ Operation.maxReceiveData) (hfree : env.locked = false)
    (hauth : env.auth = .ok ()) {output : Bytes} (hkm : env.km = .ok output) {e : Error}
    (hafter : env.afterFinish = .error e) :
    (step ko (.finish len) env).1 = .error e ∧
      (step ko (.finish len) env).2.operation.kmLog =
        ko.operation.kmLog ++ [(.finish, true), (.abort, env.abortKm.isOk)] ∧
      (step ko (.finish len) env).2.operation.outcome = .dropped := by
  have hfin := Operation.finish_of_afterFinish_error ha hlen hauth hkm hafter
  -- the error lets go of the operation, whose outcome is still `unknown`: `drop` aborts it
  have hstep : step ko (.finish len) env =
      (.error e, ⟨((ko.operation.touch env.now).callKm .finish env.km).drop env, false⟩) := by
    simp [step, finish, withLockedOperation, hfree, hheld, hfin]
  have hdrop : ((ko.operation.touch env.now).callKm .finish env.km).drop env =
      { (ko.operation.touch env.now).callKm .finish env.km with outcome := .dropped }.callKm
        .abort env.abortKm := by
    have ha' : ((ko.operation.touch env.now).callKm .finish env.km).outcome = .unknown := ha
    rw [Operation.drop, if_pos ha', Operation.abort_of_active ha']
  rw [hstep, hdrop]
  refine ⟨rfl, ?_, rfl⟩
  simp [hkm, Except.isOk, Except.toBool]

/-- A new operation whose `after_finish` fails: KeyMint receives `finish`, then `abort`. -/
theorem keyMint_abort_follows_successful_finish_new :
    (step (new 0) (.finish none) ⟨false, 1, .ok (), .ok [], .error Error.sys, .ok ()⟩).1 =
        .error Error.sys ∧
      (step (new 0) (.finish none) ⟨false, 1, .ok (), .ok [], .error Error.sys, .ok ()⟩).2.operation.kmLog =
        [(.finish, true), (.abort, true)] ∧
      (step (new 0) (.finish none) ⟨false, 1, .ok (), .ok [], .error Error.sys, .ok ()⟩).2.operation.outcome =
        .dropped :=
  keyMint_abort_follows_successful_finish rfl rfl (fun _ h => by cases h) rfl rfl rfl rfl

end KeystoreOperation

end Keystore2.Operation
