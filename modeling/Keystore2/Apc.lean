import Keystore2.Lib.Transition
import Mathlib

/-! Android Protected Confirmation in keystore2 (apc.rs): the manager holds at most one prompt
session, and rate-limits each uid whose prompts the user cancels.  The HAL is not modelled: a
call to present a prompt is given what the HAL answers, and the HAL's callback is an event of
its own.  Instants and durations are nanoseconds of the monotonic clock, and each event carries
the instant at which it happens. -/

namespace Keystore2.Apc

/-- ResponseCode of android.security.apc. -/
inductive ResponseCode
  | ok
  | cancelled
  | aborted
  | operationPending
  | ignored
  | systemError
  | unimplemented
  | permissionDenied
  deriving DecidableEq, Repr

/-- The error codes of the compatibility HAL (apc_compat.hpp). -/
def apcCompatErrorOk : UInt32 := 0
def apcCompatErrorCancelled : UInt32 := 1
def apcCompatErrorAborted : UInt32 := 2
def apcCompatErrorOperationPending : UInt32 := 3
def apcCompatErrorIgnored : UInt32 := 4
def apcCompatErrorSystemError : UInt32 := 5

/-- compat_2_response_code of utils.rs. -/
def compat2ResponseCode (rc : UInt32) : ResponseCode :=
  if rc = apcCompatErrorOk then .ok
  else if rc = apcCompatErrorCancelled then .cancelled
  else if rc = apcCompatErrorAborted then .aborted
  else if rc = apcCompatErrorOperationPending then .operationPending
  else if rc = apcCompatErrorIgnored then .ignored
  else .systemError

/-- Duration::from_secs. -/
def secs (n : Nat) : Nat := n * 1000000000

def oneDay : Nat := secs (60 * 60 * 24)

structure RateInfo where
  counter : UInt32
  timestamp : Nat
  deriving DecidableEq, Repr

/-- The back-off of get_remaining_back_off, before the time elapsed is taken off it: none for
the first three attempts. -/
def backOff (counter : UInt32) : Option Nat :=
  if counter.toNat ≤ 2 then none
  else if counter.toNat ≤ 5 then some (secs 30)
  -- at most 60 s times 2^10, so the checked multiplication never falls back to a day
  else if counter.toNat ≤ 16 then some (secs 60 * 2 ^ (counter.toNat - 6))
  else some oneDay

/-- `back_off.checked_sub(elapsed)`: the back-off left, none once it has run out.  At the very
instant it runs out, zero is left. -/
def RateInfo.getRemainingBackOff (rateInfo : RateInfo) (now : Nat) : Option Nat :=
  match backOff rateInfo.counter with
  | none => none
  | some backOff =>
    let elapsed := now - rateInfo.timestamp
    if elapsed ≤ backOff then some (backOff - elapsed) else none

/-- ApcSessionState, without its handle on the HAL.  The client's callback binder is a number. -/
structure ApcSessionState where
  cb : Nat
  uid : UInt32
  start : Nat
  clientAborted : Bool
  deriving DecidableEq, Repr

structure ApcState where
  session : Option ApcSessionState
  rateLimiting : UInt32 → Option RateInfo
  /-- What was sent on confirmation_token_sender, oldest first. -/
  confirmationTokens : List (List UInt8)

def ApcState.new : ApcState := ⟨none, fun _ => none, []⟩

namespace ApcState

/-- present_prompt, with what the HAL answers: none when there is no HAL service, `.error rc`
when promptUserConfirmation fails. -/
def presentPrompt (state : ApcState) (cb : Nat) (uid : UInt32) (now : Nat)
    (hal : Option (Except UInt32 Unit)) : Except ResponseCode ApcState :=
  if state.session.isSome then .error .operationPending
  -- "APC Cooling down"
  else if ((state.rateLimiting uid).bind (·.getRemainingBackOff now)).isSome then
    .error .systemError
  else
    match hal with
    | none => .error .unimplemented
    | some (.error rc) => .error (compat2ResponseCode rc)
    | some (.ok ()) =>
      .ok { state with session := some { cb, uid, start := now, clientAborted := false } }

/-- cancel_prompt marks the caller's own session as aborted by the client; the HAL's abort then
ends it through the callback. -/
def cancelPrompt (state : ApcState) (cb : Nat) : Except ResponseCode ApcState :=
  match state.session with
  | none => .error .ignored
  | some session =>
    if session.cb ≠ cb then .error .ignored
    else .ok { state with session := some { session with clientAborted := true } }

/-- The HAL's callback, `ApcManager::result`: the session ends and the rate limiting of its uid
is updated.  `rate_info.counter += 1` panics on overflow, as Rust's overflow checks make it; a
panic is `none`. -/
def result (state : ApcState) (rc : UInt32) (confirmationToken : Option (List UInt8)) :
    Option ApcState :=
  match state.session with
  | none => some state
  | some session =>
    let state := { state with session := none }
    match compat2ResponseCode rc, session.clientAborted, confirmationToken with
    | .ok, _, some confirmationToken =>
      some { state with
        rateLimiting := Function.update state.rateLimiting session.uid none
        confirmationTokens := state.confirmationTokens ++ [confirmationToken] }
    | .cancelled, _, _ | .aborted, true, _ =>
      -- or_default's timestamp is overwritten at once
      let rateInfo := (state.rateLimiting session.uid).getD { counter := 0, timestamp := 0 }
      if rateInfo.counter = 4294967295 then none
      else
        some { state with
          rateLimiting := Function.update state.rateLimiting session.uid
            (some { counter := rateInfo.counter + 1, timestamp := session.start }) }
    | _, _, _ => some state

end ApcState

/-- What happens to the manager: a client's call, or the HAL's callback. -/
inductive Event
  | presentPrompt (cb : Nat) (uid : UInt32) (now : Nat) (hal : Option (Except UInt32 Unit))
  | cancelPrompt (cb : Nat)
  | result (rc : UInt32) (confirmationToken : Option (List UInt8))

/-- The state after an event; a call that fails leaves it as it was, and a panic is `none`. -/
def step (state : ApcState) : Event → Option ApcState
  | .presentPrompt cb uid now hal =>
    some ((state.presentPrompt cb uid now hal).toOption.getD state)
  | .cancelPrompt cb => some ((state.cancelPrompt cb).toOption.getD state)
  | .result rc confirmationToken => state.result rc confirmationToken

def Reachable : ApcState → Prop := Lib.Reachable ApcState.new step

/-- From the third penalised attempt on, the back-off is at least 30 s. -/
theorem backOff_of_three_le {counter : UInt32} (h : 3 ≤ counter.toNat) :
    ∃ b, backOff counter = some b ∧ secs 30 ≤ b := by
  unfold backOff
  rw [if_neg (by omega)]
  split_ifs
  · exact ⟨_, rfl, le_refl _⟩
  · have hpow : 1 ≤ 2 ^ (counter.toNat - 6) := Nat.one_le_two_pow
    refine ⟨_, rfl, ?_⟩
    simp only [secs]
    omega
  · exact ⟨_, rfl, by decide⟩

example : backOff 7 = some (secs 120) := by decide

/-- More penalised attempts never shorten the back-off. -/
theorem backOff_mono {m n : UInt32} (hmn : m.toNat ≤ n.toNat) {a : Nat}
    (ha : backOff m = some a) : ∃ b, backOff n = some b ∧ a ≤ b := by
  unfold backOff at ha
  -- the case of the first three attempts, with no back-off, closes itself
  split_ifs at ha with hm2 hm5 hm16
  · -- 30 s, the least back-off there is
    cases ha
    have hn : 3 ≤ n.toNat := by omega
    exact backOff_of_three_le hn
  · -- 60 s doubled once for each attempt past the sixth
    cases ha
    have hpow : 2 ^ (m.toNat - 6) ≤ 2 ^ (n.toNat - 6) := Nat.pow_le_pow_right (by omega) (by omega)
    have hcap : 2 ^ (m.toNat - 6) ≤ 2 ^ 10 := Nat.pow_le_pow_right (by omega) (by omega)
    have hn2 : ¬n.toNat ≤ 2 := by omega
    have hn5 : ¬n.toNat ≤ 5 := by omega
    unfold backOff
    rw [if_neg hn2, if_neg hn5]
    split_ifs
    · exact ⟨_, rfl, by simp only [secs]; omega⟩
    · refine ⟨_, rfl, ?_⟩
      simp only [secs, oneDay, Nat.reducePow, Nat.reduceMul] at hcap ⊢
      omega
  · -- a day, the most there is
    cases ha
    have hn2 : ¬n.toNat ≤ 2 := by omega
    have hn5 : ¬n.toNat ≤ 5 := by omega
    have hn16 : ¬n.toNat ≤ 16 := by omega
    unfold backOff
    rw [if_neg hn2, if_neg hn5, if_neg hn16]
    exact ⟨_, rfl, le_refl _⟩

namespace ApcState

variable {state state' : ApcState}

/-- No back-off is left exactly when every back-off earned has run out. -/
theorem getRemainingBackOff_eq_none_iff {rateInfo : RateInfo} {now : Nat} :
    rateInfo.getRemainingBackOff now = none ↔
      ∀ b, backOff rateInfo.counter = some b → b < now - rateInfo.timestamp := by
  unfold RateInfo.getRemainingBackOff
  split
  · rename_i h
    simp [h]
  · rename_i b h
    simp only [h, Option.some.injEq, forall_eq', ite_eq_right_iff, reduceCtorEq, imp_false]
    omega

theorem presentPrompt_eq_ok_iff {cb : Nat} {uid : UInt32} {now : Nat}
    {hal : Option (Except UInt32 Unit)} :
    state.presentPrompt cb uid now hal = .ok state' ↔
      state.session = none ∧ (state.rateLimiting uid).bind (·.getRemainingBackOff now) = none ∧
        hal = some (.ok ()) ∧
        state' =
          { state with session := some { cb, uid, start := now, clientAborted := false } } := by
  unfold presentPrompt
  by_cases hs : state.session.isSome
  · simp only [hs, if_true, reduceCtorEq, false_iff, not_and]
    intro hnone
    simp [hnone] at hs
  · rw [if_neg hs]
    have hnone : state.session = none := Option.not_isSome_iff_eq_none.mp hs
    by_cases hr : ((state.rateLimiting uid).bind (·.getRemainingBackOff now)).isSome
    · simp only [hr, if_true, reduceCtorEq, false_iff, not_and]
      intro _ hr'
      simp [hr'] at hr
    · rw [if_neg hr]
      have hr' := Option.not_isSome_iff_eq_none.mp hr
      rcases hal with _ | _ | ⟨⟨⟩⟩
      · simp
      · simp
      · simp [hnone, hr', @eq_comm _ state']

theorem cancelPrompt_eq_ok_iff {cb : Nat} :
    state.cancelPrompt cb = .ok state' ↔
      ∃ session, state.session = some session ∧ session.cb = cb ∧
        state' = { state with session := some { session with clientAborted := true } } := by
  unfold cancelPrompt
  split
  · simp_all
  · rename_i session hs
    by_cases hcb : session.cb = cb
    · simp [hs, hcb, @eq_comm _ state']
    · simp [hs, hcb]

end ApcState

/-! ### How a prompt ends -/

/-- What the end of a prompt means for the rate limiting of its uid: the user confirmed it and
the token went to enforcement, the uid is penalised, or nothing changes. -/
inductive Outcome
  | confirmed (confirmationToken : List UInt8)
  | penalized
  | neutral
  deriving DecidableEq, Repr

/-- The outcome of the callback's arguments for a session: a confirmation needs the token; the
user's cancel penalises, and so does an abort that the client asked for. -/
def outcomeOf (rc : UInt32) (clientAborted : Bool) (confirmationToken : Option (List UInt8)) :
    Outcome :=
  match confirmationToken with
  | some t => if compat2ResponseCode rc = .ok then .confirmed t else penalizedOrNeutral
  | none => penalizedOrNeutral
where
  penalizedOrNeutral : Outcome :=
    if compat2ResponseCode rc = .cancelled ∨ (compat2ResponseCode rc = .aborted ∧ clientAborted)
    then .penalized else .neutral

namespace ApcState

variable {state : ApcState} {session : ApcSessionState} {rc : UInt32}
  {confirmationToken : Option (List UInt8)}

/-- The callback on a pending session, by the outcome of its arguments. -/
theorem result_of_session (hs : state.session = some session) :
    state.result rc confirmationToken =
      match outcomeOf rc session.clientAborted confirmationToken with
      | .confirmed t =>
        some { state with
          session := none, rateLimiting := Function.update state.rateLimiting session.uid none
          confirmationTokens := state.confirmationTokens ++ [t] }
      | .penalized =>
        let rateInfo := (state.rateLimiting session.uid).getD { counter := 0, timestamp := 0 }
        if rateInfo.counter = 4294967295 then none
        else
          some { state with
            session := none
            rateLimiting := Function.update state.rateLimiting session.uid
              (some { counter := rateInfo.counter + 1, timestamp := session.start }) }
      | .neutral => some { state with session := none } := by
  unfold result outcomeOf outcomeOf.penalizedOrNeutral
  rw [hs]
  dsimp only
  -- the source's match, case by case on the code, the flag and the token
  generalize compat2ResponseCode rc = code
  cases code <;> cases session.clientAborted <;> cases confirmationToken <;> rfl

end ApcState

/-- A prompt that ended: whose it was, when it started, and its outcome. -/
structure Completion where
  uid : UInt32
  start : Nat
  outcome : Outcome
  deriving DecidableEq, Repr

/-- The prompt an event ends: the callback on a pending session. -/
def completion (state : ApcState) : Event → Option Completion
  | .result rc confirmationToken =>
    state.session.map fun session =>
      ⟨session.uid, session.start, outcomeOf rc session.clientAborted confirmationToken⟩
  | _ => none

/-- The manager with the prompts that ended so far, oldest first. -/
def logStep (p : ApcState × List Completion) (e : Event) : Option (ApcState × List Completion) :=
  (step p.1 e).map fun state => (state, p.2 ++ (completion p.1 e).toList)

def Logged : ApcState × List Completion → Prop := Lib.Reachable (ApcState.new, []) logStep

/-! ### What the rate limiting is for -/

def Outcome.isConfirmed : Outcome → Bool
  | .confirmed _ => true
  | _ => false

/-- The prompts that ended after the last one of `uid` that the user confirmed. -/
def sinceConfirmation (uid : UInt32) (log : List Completion) : List Completion :=
  (log.reverse.takeWhile fun c => !(c.uid == uid && c.outcome.isConfirmed)).reverse

/-- The prompts of `uid` penalised since the user last confirmed one of its prompts. -/
def penalties (uid : UInt32) (log : List Completion) : List Completion :=
  (sinceConfirmation uid log).filter fun c => c.uid == uid && c.outcome == .penalized

/-- The rate limiting the log calls for: for a uid with penalised prompts since its last
confirmation, their number and the start of the last of them. -/
def rateOf (log : List Completion) (uid : UInt32) : Option RateInfo :=
  (penalties uid log).getLast?.map fun c =>
    { counter := UInt32.ofNat (penalties uid log).length, timestamp := c.start }

/-- The tokens of the confirmed prompts, in order. -/
def confirmedTokens (log : List Completion) : List (List UInt8) :=
  log.filterMap fun c =>
    match c.outcome with
    | .confirmed t => some t
    | _ => none

section Log

variable {uid : UInt32} {log : List Completion} {c : Completion}

theorem sinceConfirmation_append :
    sinceConfirmation uid (log ++ [c]) =
      if c.uid == uid && c.outcome.isConfirmed then [] else sinceConfirmation uid log ++ [c] := by
  unfold sinceConfirmation
  rw [List.reverse_append, List.reverse_singleton, List.singleton_append, List.takeWhile_cons]
  cases (c.uid == uid && c.outcome.isConfirmed) <;> simp

theorem penalties_append :
    penalties uid (log ++ [c]) =
      if c.uid == uid && c.outcome.isConfirmed then []
      else penalties uid log ++ if c.uid == uid && c.outcome == .penalized then [c] else [] := by
  unfold penalties
  rw [sinceConfirmation_append]
  split
  · rfl
  · rw [List.filter_append, List.filter_singleton]
    cases (c.uid == uid && c.outcome == .penalized) <;> simp

/-- The rate limiting the log calls for, once more prompts of other uids end. -/
theorem rateOf_append_of_ne (h : c.uid ≠ uid) : rateOf (log ++ [c]) uid = rateOf log uid := by
  have hp : penalties uid (log ++ [c]) = penalties uid log := by
    simp [penalties_append, h]
  simp only [rateOf, hp]

theorem rateOf_append_confirmed {t : List UInt8} (hu : c.uid = uid)
    (ho : c.outcome = .confirmed t) : rateOf (log ++ [c]) uid = none := by
  have hp : penalties uid (log ++ [c]) = [] := by
    simp [penalties_append, hu, ho, Outcome.isConfirmed]
  simp [rateOf, hp]

theorem rateOf_append_penalized (hu : c.uid = uid) (ho : c.outcome = .penalized) :
    rateOf (log ++ [c]) uid =
      some { counter := UInt32.ofNat ((penalties uid log).length + 1), timestamp := c.start } := by
  have hp : penalties uid (log ++ [c]) = penalties uid log ++ [c] := by
    simp [penalties_append, hu, ho, Outcome.isConfirmed]
  simp [rateOf, hp]

theorem rateOf_append_neutral (ho : c.outcome = .neutral) :
    rateOf (log ++ [c]) uid = rateOf log uid := by
  have hp : penalties uid (log ++ [c]) = penalties uid log := by
    simp [penalties_append, ho, Outcome.isConfirmed]
  simp only [rateOf, hp]

/-- The counter that or_default starts from, when the log calls for no entry. -/
theorem counter_rateOf_getD :
    ((rateOf log uid).getD { counter := 0, timestamp := 0 }).counter =
      UInt32.ofNat (penalties uid log).length := by
  unfold rateOf
  cases h : (penalties uid log).getLast? with
  | none =>
    rw [List.getLast?_eq_none_iff.mp h]
    rfl
  | some last => rfl

theorem confirmedTokens_append :
    confirmedTokens (log ++ [c]) =
      confirmedTokens log ++
        match c.outcome with
        | .confirmed t => [t]
        | _ => [] := by
  unfold confirmedTokens
  rw [List.filterMap_append]
  obtain ⟨uid, start, outcome⟩ := c
  cases outcome <;> rfl

end Log

/-! ### The rate limiting over every run -/

/-- The manager against the prompts that ended: the rate limiting is what they call for, no uid
has reached u32::MAX penalties, and the tokens sent are those of the confirmed prompts. -/
structure LogInv (state : ApcState) (log : List Completion) : Prop where
  rateLimiting : state.rateLimiting = rateOf log
  bounded : ∀ uid, (penalties uid log).length < 2 ^ 32
  confirmationTokens : state.confirmationTokens = confirmedTokens log

section Inv

variable {state state' : ApcState} {log log' : List Completion}

theorem logInv_new : LogInv ApcState.new [] where
  rateLimiting := rfl
  bounded uid := by simp [penalties, sinceConfirmation]
  confirmationTokens := rfl

/-- A call from a client changes only the session. -/
theorem LogInv.of_session_eq (h : LogInv state log) (hr : state'.rateLimiting = state.rateLimiting)
    (ht : state'.confirmationTokens = state.confirmationTokens) : LogInv state' log where
  rateLimiting := hr.trans h.rateLimiting
  bounded := h.bounded
  confirmationTokens := ht.trans h.confirmationTokens

theorem LogInv.confirmed (h : LogInv state log) {session : ApcSessionState}
    {t : List UInt8} :
    LogInv { state with
        session := none, rateLimiting := Function.update state.rateLimiting session.uid none
        confirmationTokens := state.confirmationTokens ++ [t] }
      (log ++ [⟨session.uid, session.start, .confirmed t⟩]) where
  rateLimiting := by
    funext uid
    dsimp only
    by_cases hu : uid = session.uid
    · subst hu
      rw [Function.update_self, rateOf_append_confirmed rfl rfl]
    · rw [Function.update_of_ne hu, rateOf_append_of_ne (Ne.symm hu), h.rateLimiting]
  bounded uid := by
    rw [penalties_append]
    split
    · simp
    · have := h.bounded uid
      simp_all
  confirmationTokens := by
    rw [confirmedTokens_append, h.confirmationTokens]

theorem LogInv.penalized (h : LogInv state log) {session : ApcSessionState}
    (hmax : ((state.rateLimiting session.uid).getD ⟨0, 0⟩).counter ≠ 4294967295) :
    LogInv { state with
        session := none
        rateLimiting := Function.update state.rateLimiting session.uid
          (some ⟨((state.rateLimiting session.uid).getD ⟨0, 0⟩).counter + 1, session.start⟩) }
      (log ++ [⟨session.uid, session.start, .penalized⟩]) := by
  rw [h.rateLimiting, counter_rateOf_getD] at hmax ⊢
  -- the count was below u32::MAX, so one more still fits
  have hlt := h.bounded session.uid
  have hne : (penalties session.uid log).length ≠ 2 ^ 32 - 1 := by
    intro heq
    rw [heq] at hmax
    exact hmax rfl
  refine ⟨?_, fun uid => ?_, h.confirmationTokens.trans ?_⟩
  · funext uid
    dsimp only
    by_cases hu : uid = session.uid
    · subst hu
      rw [Function.update_self, rateOf_append_penalized rfl rfl, UInt32.ofNat_add]
      rfl
    · rw [Function.update_of_ne hu, rateOf_append_of_ne (Ne.symm hu)]
  · by_cases hu : uid = session.uid
    · subst hu
      simp [penalties_append, Outcome.isConfirmed]
      omega
    · have := h.bounded uid
      simpa [penalties_append, Ne.symm hu] using this
  · rw [confirmedTokens_append]
    simp

theorem LogInv.neutral (h : LogInv state log) {session : ApcSessionState} :
    LogInv { state with session := none } (log ++ [⟨session.uid, session.start, .neutral⟩]) where
  rateLimiting := by
    funext uid
    rw [rateOf_append_neutral rfl, h.rateLimiting]
  bounded uid := by
    have := h.bounded uid
    simpa [penalties_append, Outcome.isConfirmed] using this
  confirmationTokens := by
    rw [confirmedTokens_append, h.confirmationTokens]
    simp

/-- A client's call leaves the rate limiting and the tokens as they are. -/
theorem presentPrompt_frame {cb : Nat} {uid : UInt32} {now : Nat}
    {hal : Option (Except UInt32 Unit)} :
    ((state.presentPrompt cb uid now hal).toOption.getD state).rateLimiting = state.rateLimiting ∧
      ((state.presentPrompt cb uid now hal).toOption.getD state).confirmationTokens =
        state.confirmationTokens := by
  cases h : state.presentPrompt cb uid now hal with
  | error e => exact ⟨rfl, rfl⟩
  | ok state' =>
    obtain ⟨-, -, -, rfl⟩ := ApcState.presentPrompt_eq_ok_iff.mp h
    exact ⟨rfl, rfl⟩

theorem cancelPrompt_frame {cb : Nat} :
    ((state.cancelPrompt cb).toOption.getD state).rateLimiting = state.rateLimiting ∧
      ((state.cancelPrompt cb).toOption.getD state).confirmationTokens =
        state.confirmationTokens := by
  cases h : state.cancelPrompt cb with
  | error e => exact ⟨rfl, rfl⟩
  | ok state' =>
    obtain ⟨session, -, -, rfl⟩ := ApcState.cancelPrompt_eq_ok_iff.mp h
    exact ⟨rfl, rfl⟩

/-- Each event keeps the manager in line with the prompts that ended. -/
theorem LogInv.logStep (h : LogInv state log) {e : Event} {p : ApcState × List Completion}
    (hstep : logStep (state, log) e = some p) : LogInv p.1 p.2 := by
  obtain ⟨state', hs, rfl⟩ := Option.map_eq_some_iff.mp hstep
  cases e with
  | presentPrompt cb uid now hal =>
    cases hs
    simpa [completion] using h.of_session_eq presentPrompt_frame.1 presentPrompt_frame.2
  | cancelPrompt cb =>
    cases hs
    simpa [completion] using h.of_session_eq cancelPrompt_frame.1 cancelPrompt_frame.2
  | result rc confirmationToken =>
    cases hsession : state.session with
    | none =>
      -- a callback with no session pending changes nothing
      have hnone : state.result rc confirmationToken = some state := by
        simp [ApcState.result, hsession]
      simp only [step, hnone, Option.some.injEq] at hs
      subst hs
      simpa [completion, hsession] using h
    | some session =>
      simp only [step, ApcState.result_of_session hsession] at hs
      simp only [completion, hsession, Option.map_some, Option.toList_some]
      cases ho : outcomeOf rc session.clientAborted confirmationToken with
      | confirmed t =>
        rw [ho] at hs
        cases hs
        exact h.confirmed
      | penalized =>
        rw [ho] at hs
        dsimp only at hs
        split at hs
        · cases hs
        · rename_i hmax
          cases hs
          exact h.penalized hmax
      | neutral =>
        rw [ho] at hs
        cases hs
        exact h.neutral

theorem Logged.logInv {p : ApcState × List Completion} (h : Logged p) : LogInv p.1 p.2 :=
  @Lib.Reachable.invariant _ Event (ApcState.new, []) logStep (fun p => LogInv p.1 p.2)
    logInv_new (fun ⟨_, _⟩ _ _ hp hstep => hp.logStep hstep) p h

/-- Every run of the manager has its log of the prompts that ended. -/
theorem Reachable.exists_logged (h : Reachable state) : ∃ log, Logged (state, log) := by
  induction h with
  | init => exact ⟨[], .init⟩
  | @step s s' e _ hstep ih =>
    obtain ⟨log, hlog⟩ := ih
    exact ⟨log ++ (completion s e).toList, .step e hlog (by simp [logStep, hstep])⟩

end Inv

/-! ### What a run guarantees -/

section Run

variable {state state' : ApcState} {log : List Completion}

/-- In every state the manager reaches, the rate limiting of each uid holds the number of its
prompts penalised since the user last confirmed one, with the start of the last of them; and the
tokens sent to enforcement are those of the confirmed prompts, in order. -/
theorem Reachable.rateLimiting_eq_rateOf (h : Reachable state) :
    ∃ log, Logged (state, log) ∧ state.rateLimiting = rateOf log ∧
      state.confirmationTokens = confirmedTokens log := by
  obtain ⟨log, hlog⟩ := h.exists_logged
  exact ⟨log, hlog, hlog.logInv.rateLimiting, hlog.logInv.confirmationTokens⟩

theorem rateOf_bind_getRemainingBackOff_eq_none {uid : UInt32} {now : Nat} :
    (rateOf log uid).bind (·.getRemainingBackOff now) = none ↔
      ∀ c ∈ (penalties uid log).getLast?, ∀ b,
        backOff (UInt32.ofNat (penalties uid log).length) = some b → b < now - c.start := by
  unfold rateOf
  cases (penalties uid log).getLast? with
  | none => simp
  | some c => simp [ApcState.getRemainingBackOff_eq_none_iff]

/-- The manager shows a uid a prompt exactly when none is pending, the HAL takes it, and the
back-off that the uid's penalised prompts since its last confirmation earn has run out since the
start of the last of them. -/
theorem Logged.presentPrompt_eq_ok_iff (h : Logged (state, log)) {cb : Nat} {uid : UInt32}
    {now : Nat} {hal : Option (Except UInt32 Unit)} :
    state.presentPrompt cb uid now hal = .ok state' ↔
      state.session = none ∧
        (∀ c ∈ (penalties uid log).getLast?, ∀ b,
          backOff (UInt32.ofNat (penalties uid log).length) = some b → b < now - c.start) ∧
        hal = some (.ok ()) ∧
        state' =
          { state with session := some { cb, uid, start := now, clientAborted := false } } := by
  rw [ApcState.presentPrompt_eq_ok_iff, h.logInv.rateLimiting,
    rateOf_bind_getRemainingBackOff_eq_none]

/-- Once three prompts of a uid were cancelled since the user last confirmed one, its next
prompt waits at least 30 s past the start of the last of them. -/
theorem Logged.presentPrompt_after_backOff (h : Logged (state, log)) {cb : Nat} {uid : UInt32}
    {now : Nat} {hal : Option (Except UInt32 Unit)}
    (hp : state.presentPrompt cb uid now hal = .ok state')
    (h3 : 3 ≤ (penalties uid log).length) :
    ∃ c, (penalties uid log).getLast? = some c ∧ secs 30 < now - c.start := by
  obtain ⟨-, hback, -, -⟩ := h.presentPrompt_eq_ok_iff.mp hp
  -- the counter is the count itself, which is below 2^32
  have hcount : (UInt32.ofNat (penalties uid log).length).toNat = (penalties uid log).length :=
    UInt32.toNat_ofNat_of_lt' (h.logInv.bounded uid)
  obtain ⟨b, hb, hb30⟩ := backOff_of_three_le (by rw [hcount]; exact h3)
  have hne : penalties uid log ≠ [] := List.ne_nil_of_length_pos (by omega)
  obtain ⟨c, hc⟩ := Option.ne_none_iff_exists'.mp (mt List.getLast?_eq_none_iff.mp hne)
  exact ⟨c, hc, lt_of_le_of_lt hb30 (hback c hc b hb)⟩

end Run

end Keystore2.Apc
