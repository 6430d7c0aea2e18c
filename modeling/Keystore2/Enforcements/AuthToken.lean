import Keystore2.Enforcements
import Keystore2.Lib.Transition
import Mathlib.Logic.Function.Basic

/-! Deferred authorization of an operation in `enforcements.rs`.  When `authorize_create`
leaves an operation in `OpAuthRequired` or `TimeStampRequired`,
`finalize_create_authorization` makes an `AuthRequest` for it and the operation's `AuthInfo`
waits on it; for an operation-bound auth token, `Enforcements` registers a weak reference to
the request under the operation's challenge in its `op_auth_map`, and `add_auth_token` passes
an incoming token to the request registered under the token's challenge, removing the entry.
`get_auth_tokens`, called before each update and finish, takes the token out of the request
and keeps it, with the timestamp token if one is due, in the `Token` state.

The requests are kept by allocation number, with whether a strong reference to each remains:
the weak references of the map are those numbers, and one that no longer upgrades is a number
whose request has died.  The map is a function from challenges, as a `HashMap` has at most one
entry per key. -/

namespace Keystore2.Enforcements

inductive AuthRequestState
  | opAuth
  /-- Waits on the receiver of the timestamp token that the async task sends. -/
  | timeStamp
  deriving DecidableEq, Repr

structure AuthRequest where
  state : AuthRequestState
  hat : Option HardwareAuthToken
  deriving DecidableEq, Repr

/-- The `AuthRequest`s allocated so far and the `op_auth_map` of `Enforcements`. -/
structure TokenState where
  requests : Nat → AuthRequest
  /-- A strong reference to the request remains. -/
  alive : Nat → Bool
  allocated : Nat
  /-- `TokenReceiverMap`: the request each challenge's receiver refers to. -/
  receivers : Int64 → Option Nat
  cleanupCounter : UInt8

namespace TokenState

/-- `TokenReceiverMap::CLEANUP_PERIOD`. -/
def cleanupPeriod : UInt8 := 25

/-- The requests and map at boot: `TokenReceiverMap::default()`. -/
def init : TokenState :=
  ⟨fun _ => ⟨.opAuth, none⟩, fun _ => false, 0, fun _ => none, cleanupPeriod + 1⟩

/-- A new `AuthRequest`, held by the operation that made it. -/
def alloc (st : TokenState) (r : AuthRequest) : TokenState × Nat :=
  ({ st with
      requests := Function.update st.requests st.allocated r
      alive := Function.update st.alive st.allocated true
      allocated := st.allocated + 1 }, st.allocated)

/-- The last strong reference to request `i` is dropped. -/
def release (st : TokenState) (i : Nat) : TokenState :=
  { st with alive := Function.update st.alive i false }

/-- `TokenReceiver::add_auth_token` and `AuthRequest::add_auth_token`: the token reaches the
request only while it lives. -/
def deliver (st : TokenState) (i : Nat) (hat : HardwareAuthToken) : TokenState :=
  if st.alive i then
    { st with requests := Function.update st.requests i { st.requests i with hat := some hat } }
  else st

/-- `TokenReceiverMap::add_auth_token`: the entry of the token's challenge is removed and its
receiver gets the token. -/
def addAuthToken (st : TokenState) (hat : HardwareAuthToken) : TokenState :=
  match st.receivers hat.challenge with
  | none => st
  | some i => { st with receivers := Function.update st.receivers hat.challenge none }.deliver i hat

/-- `TokenReceiverMap::add_receiver`: the entry replaces any of the same challenge, and every
`CLEANUP_PERIOD + 1` registrations the receivers of requests that died are removed. -/
def addReceiver (st : TokenState) (challenge : Int64) (i : Nat) : TokenState :=
  let st := { st with
    receivers := Function.update st.receivers challenge (some i)
    cleanupCounter := st.cleanupCounter - 1 }
  if st.cleanupCounter = 0 then
    { st with
      receivers := fun c => (st.receivers c).filter st.alive
      cleanupCounter := cleanupPeriod + 1 }
  else st

/-- `AuthRequest::get_auth_tokens` on request `i`; `tst` is what the timestamp receiver
yields, the token the async task sent or the error of a disconnected sender. -/
def requestTokens (st : TokenState) (i : Nat) (tst : Except Error TimeStampToken) :
    Except Error (HardwareAuthToken × Option TimeStampToken) × TokenState :=
  let r := st.requests i
  match r.hat with
  | none => (throw (.km .keyUserNotAuthenticated), st)
  | some hat =>
    -- the token is taken out of the request before the timestamp is awaited
    let st := { st with requests := Function.update st.requests i { r with hat := none } }
    match r.state with
    | .timeStamp => (tst.map fun t => (hat, some t), st)
    | .opAuth => (pure (hat, none), st)

end TokenState

namespace AuthInfo

variable {R : Type}

/-- `finalize_create_authorization`, with the `OperationChallenge` it returns.  The request
for a timestamp token goes to the async task, whose answer `get_auth_tokens` reads. -/
def finalizeCreateAuthorization (info : AuthInfo R) (challenge : Int64) (st : TokenState) :
    Option Int64 × AuthInfo R × TokenState :=
  match info.state with
  | .opAuthRequired =>
    let (st, i) := st.alloc ⟨.opAuth, none⟩
    (some challenge, { info with state := .waiting i }, st.addReceiver challenge i)
  | .timeStampRequired hat =>
    let (st, i) := st.alloc ⟨.timeStamp, some hat⟩
    (none, { info with state := .waiting i }, st)
  | _ => (none, info, st)

/-- The end of `get_auth_tokens`: the tokens the state holds. -/
def stateTokens (info : AuthInfo R) :
    Except Error (Option HardwareAuthToken × Option TimeStampToken) :=
  match info.state with
  | .noAuthRequired => pure (none, none)
  | .token hat tst => pure (some hat, tst)
  | .opAuthRequired | .timeStampRequired _ => throw (.km .keyUserNotAuthenticated)
  | .waiting _ => throw Error.sys

/-- `get_auth_tokens`: a waiting state takes the tokens of its request, lets go of the request
and keeps them. -/
def getAuthTokens (info : AuthInfo R) (tst : Except Error TimeStampToken) (st : TokenState) :
    Except Error (Option HardwareAuthToken × Option TimeStampToken) × AuthInfo R × TokenState :=
  match info.state with
  | .waiting i =>
    match st.requestTokens i tst with
    | (.error e, st) => (.error e, info, st)
    | (.ok (hat, tst), st) =>
      let info := { info with state := .token hat tst }
      (info.stateTokens, info, st.release i)
  | _ => (info.stateTokens, info, st)

/-- `before_update`. -/
def beforeUpdate (info : AuthInfo R) (tst : Except Error TimeStampToken) (st : TokenState) :
    Except Error (Option HardwareAuthToken × Option TimeStampToken) × AuthInfo R × TokenState :=
  info.getAuthTokens tst st

/-- `before_finish`, with the last confirmation token its receiver holds. -/
def beforeFinish (info : AuthInfo R) (tst : Except Error TimeStampToken)
    (confirmationToken : Option (List UInt8)) (st : TokenState) :
    Except Error (Option HardwareAuthToken × Option TimeStampToken × Option (List UInt8)) ×
      AuthInfo R × TokenState :=
  let (r, info, st) := info.getAuthTokens tst st
  (r.map fun (hat, tst) => (hat, tst, confirmationToken), info, st)

end AuthInfo

namespace TokenState

variable {st : TokenState}

/-- Every receiver refers to a request already allocated. -/
def WellFormed (st : TokenState) : Prop := ∀ c i, st.receivers c = some i → i < st.allocated

@[simp] theorem alloc_snd (r : AuthRequest) : (st.alloc r).2 = st.allocated := rfl

@[simp] theorem alloc_allocated (r : AuthRequest) :
    (st.alloc r).1.allocated = st.allocated + 1 := rfl

@[simp] theorem alloc_receivers (r : AuthRequest) : (st.alloc r).1.receivers = st.receivers := rfl

@[simp] theorem alloc_requests_self (r : AuthRequest) :
    (st.alloc r).1.requests st.allocated = r :=
  Function.update_self _ _ _

theorem alloc_requests_of_lt (r : AuthRequest) {j : Nat} (hj : j < st.allocated) :
    (st.alloc r).1.requests j = st.requests j :=
  Function.update_of_ne (Nat.ne_of_lt hj) _ _

@[simp] theorem release_requests (i : Nat) : (st.release i).requests = st.requests := rfl

@[simp] theorem release_receivers (i : Nat) : (st.release i).receivers = st.receivers := rfl

@[simp] theorem release_allocated (i : Nat) : (st.release i).allocated = st.allocated := rfl

@[simp] theorem addReceiver_requests (c : Int64) (i : Nat) :
    (st.addReceiver c i).requests = st.requests := by
  unfold addReceiver
  dsimp only
  split <;> rfl

@[simp] theorem addReceiver_allocated (c : Int64) (i : Nat) :
    (st.addReceiver c i).allocated = st.allocated := by
  unfold addReceiver
  dsimp only
  split <;> rfl

/-- A receiver after `add_receiver` is the new one or was there before. -/
theorem addReceiver_receivers {c c' : Int64} {i j : Nat}
    (h : (st.addReceiver c i).receivers c' = some j) :
    (c' = c ∧ j = i) ∨ st.receivers c' = some j := by
  have hupd : Function.update st.receivers c (some i) c' = some j →
      (c' = c ∧ j = i) ∨ st.receivers c' = some j := by
    intro hu
    by_cases hc : c' = c
    · subst hc
      rw [Function.update_self, Option.some.injEq] at hu
      exact .inl ⟨rfl, hu.symm⟩
    · rw [Function.update_of_ne hc] at hu
      exact .inr hu
  unfold addReceiver at h
  dsimp only at h
  split at h
  · -- the cleanup only removes receivers
    exact hupd (Option.filter_eq_some_iff.mp h).1
  · exact hupd h

@[simp] theorem deliver_receivers (i : Nat) (hat : HardwareAuthToken) :
    (st.deliver i hat).receivers = st.receivers := by
  unfold deliver
  split <;> rfl

@[simp] theorem deliver_allocated (i : Nat) (hat : HardwareAuthToken) :
    (st.deliver i hat).allocated = st.allocated := by
  unfold deliver
  split <;> rfl

theorem deliver_requests (i : Nat) (hat : HardwareAuthToken) (j : Nat) :
    (st.deliver i hat).requests j = st.requests j ∨
      j = i ∧ (st.deliver i hat).requests j = { st.requests j with hat := some hat } := by
  unfold deliver
  split
  · by_cases hj : j = i
    · subst hj
      exact .inr ⟨rfl, Function.update_self _ _ _⟩
    · exact .inl (Function.update_of_ne hj _ _)
  · exact .inl rfl

@[simp] theorem addAuthToken_allocated (hat : HardwareAuthToken) :
    (st.addAuthToken hat).allocated = st.allocated := by
  unfold addAuthToken
  split
  · rfl
  · exact deliver_allocated _ _

theorem addAuthToken_receivers {hat : HardwareAuthToken} {c : Int64} {j : Nat}
    (h : (st.addAuthToken hat).receivers c = some j) : st.receivers c = some j := by
  unfold addAuthToken at h
  split at h
  · exact h
  · rw [deliver_receivers] at h
    dsimp only at h
    by_cases hc : c = hat.challenge
    · subst hc
      simp at h
    · rwa [Function.update_of_ne hc] at h

/-- `add_auth_token` changes only the request registered under the token's challenge, which
gets the token. -/
theorem addAuthToken_requests (hat : HardwareAuthToken) (j : Nat) :
    (st.addAuthToken hat).requests j = st.requests j ∨
      st.receivers hat.challenge = some j ∧
        (st.addAuthToken hat).requests j = { st.requests j with hat := some hat } := by
  unfold addAuthToken
  split
  · exact .inl rfl
  · next i hi =>
    rcases deliver_requests i hat j with h | ⟨rfl, h⟩
    · exact .inl h
    · exact .inr ⟨hi, h⟩

@[simp] theorem requestTokens_allocated (i : Nat) (tst : Except Error TimeStampToken) :
    (st.requestTokens i tst).2.allocated = st.allocated := by
  unfold requestTokens
  dsimp only
  split
  · rfl
  · split <;> rfl

@[simp] theorem requestTokens_receivers (i : Nat) (tst : Except Error TimeStampToken) :
    (st.requestTokens i tst).2.receivers = st.receivers := by
  unfold requestTokens
  dsimp only
  split
  · rfl
  · split <;> rfl

theorem requestTokens_requests_of_ne {i j : Nat} (hj : j ≠ i) (tst : Except Error TimeStampToken) :
    (st.requestTokens i tst).2.requests j = st.requests j := by
  unfold requestTokens
  dsimp only
  split
  · rfl
  · split <;> exact Function.update_of_ne hj _ _

/-- After `get_auth_tokens` the request holds no token. -/
theorem requestTokens_hat (i : Nat) (tst : Except Error TimeStampToken) :
    ((st.requestTokens i tst).2.requests i).hat = none := by
  unfold requestTokens
  dsimp only
  split
  · assumption
  · split <;> simp

theorem requestTokens_of_none {i : Nat} (h : (st.requests i).hat = none)
    (tst : Except Error TimeStampToken) :
    st.requestTokens i tst = (.error (.km .keyUserNotAuthenticated), st) := by
  simp [requestTokens, h, throw, throwThe, MonadExceptOf.throw]

theorem requestTokens_ok {i : Nat} {tst : Except Error TimeStampToken} {t : HardwareAuthToken}
    {x : Option TimeStampToken} (h : (st.requestTokens i tst).1 = .ok (t, x)) :
    (st.requests i).hat = some t := by
  unfold requestTokens at h
  dsimp only at h
  split at h
  · cases h
  · next hat hhat =>
    split at h
    · cases tst with
      | error e => cases h
      | ok t' =>
        obtain ⟨rfl, -⟩ := Prod.mk.inj (Except.ok.inj h)
        exact hhat
    · obtain ⟨rfl, -⟩ := Prod.mk.inj (Except.ok.inj h)
      exact hhat

end TokenState

namespace AuthInfo

variable {R : Type} {info : AuthInfo R} {c : Int64} {st : TokenState}

theorem finalizeCreateAuthorization_allocated (info : AuthInfo R) (c : Int64) (st : TokenState) :
    st.allocated ≤ (info.finalizeCreateAuthorization c st).2.2.allocated := by
  unfold finalizeCreateAuthorization
  split <;> simp

theorem finalizeCreateAuthorization_requests {j : Nat} (hj : j < st.allocated) :
    (info.finalizeCreateAuthorization c st).2.2.requests j = st.requests j := by
  unfold finalizeCreateAuthorization
  split
  · simp only [TokenState.addReceiver_requests]
    exact TokenState.alloc_requests_of_lt _ hj
  · exact TokenState.alloc_requests_of_lt _ hj
  · rfl

/-- The only receiver `finalize_create_authorization` adds refers to the new request. -/
theorem finalizeCreateAuthorization_receivers {c' : Int64} {j : Nat}
    (h : (info.finalizeCreateAuthorization c st).2.2.receivers c' = some j) :
    j = st.allocated ∨ st.receivers c' = some j := by
  unfold finalizeCreateAuthorization at h
  split at h
  · rcases TokenState.addReceiver_receivers h with ⟨-, rfl⟩ | h
    · exact .inl rfl
    · exact .inr h
  · exact .inr h
  · exact .inr h

theorem stateTokens_ok {t : HardwareAuthToken} {x : Option TimeStampToken}
    (h : info.stateTokens = .ok (some t, x)) : info.state = .token t x := by
  unfold stateTokens at h
  split at h
  · simp [pure, Except.pure] at h
  · next hat tst hs =>
    obtain ⟨h1, rfl⟩ := Prod.mk.inj (Except.ok.inj h)
    rw [hs, Option.some.inj h1]
  all_goals simp [throw, throwThe, MonadExceptOf.throw] at h

/-- A held token is returned, and nothing changes. -/
theorem getAuthTokens_of_token {t : HardwareAuthToken} {x : Option TimeStampToken}
    (h : info.state = .token t x) (tst : Except Error TimeStampToken) (st : TokenState) :
    info.getAuthTokens tst st = (.ok (some t, x), info, st) := by
  simp [getAuthTokens, stateTokens, h, pure, Except.pure]

theorem getAuthTokens_of_waiting_none {i : Nat} (h : info.state = .waiting i)
    (hhat : (st.requests i).hat = none) (tst : Except Error TimeStampToken) :
    info.getAuthTokens tst st = (.error (.km .keyUserNotAuthenticated), info, st) := by
  simp [getAuthTokens, h, TokenState.requestTokens_of_none hhat]

/-- What `get_auth_tokens` can do: nothing, or take the token out of the request the state
waits on and, when the tokens are complete, move to `Token` with it. -/
theorem getAuthTokens_cases (info : AuthInfo R) (tst : Except Error TimeStampToken)
    (st : TokenState) :
    (info.getAuthTokens tst st).2 = (info, st) ∨
      ∃ i, info.state = .waiting i ∧
        (info.getAuthTokens tst st).2.2.allocated = st.allocated ∧
        (info.getAuthTokens tst st).2.2.receivers = st.receivers ∧
        (∀ j, j ≠ i → (info.getAuthTokens tst st).2.2.requests j = st.requests j) ∧
        ((info.getAuthTokens tst st).2.2.requests i).hat = none ∧
        ((info.getAuthTokens tst st).2.1 = info ∨
          ∃ t x, (info.getAuthTokens tst st).2.1.state = .token t x ∧
            (st.requests i).hat = some t) := by
  unfold getAuthTokens
  split
  · next i hi =>
    right
    refine ⟨i, hi, ?_⟩
    split
    · next e st' heq =>
      have hst := congrArg Prod.snd heq
      simp only at hst
      subst hst
      exact ⟨by simp, by simp, fun j hj => TokenState.requestTokens_requests_of_ne hj tst,
        TokenState.requestTokens_hat i tst, .inl rfl⟩
    · next t x st' heq =>
      have hst := congrArg Prod.snd heq
      simp only at hst
      subst hst
      exact ⟨by simp, by simp, fun j hj => TokenState.requestTokens_requests_of_ne hj tst,
        TokenState.requestTokens_hat i tst,
        .inr ⟨t, x, rfl, TokenState.requestTokens_ok (congrArg Prod.fst heq)⟩⟩
  · exact .inl rfl

theorem getAuthTokens_ok {tst : Except Error TimeStampToken} {t : HardwareAuthToken}
    {x : Option TimeStampToken} (h : (info.getAuthTokens tst st).1 = .ok (some t, x)) :
    (info.getAuthTokens tst st).2.1.state = .token t x ∧
      (info.state = .token t x ∨ ∃ i, info.state = .waiting i ∧ (st.requests i).hat = some t) := by
  unfold getAuthTokens at h ⊢
  split at h
  · next i hi =>
    split at h
    · cases h
    · next t' x' st' heq =>
      dsimp only at h
      have hstate := stateTokens_ok h
      simp only at hstate
      obtain ⟨rfl, rfl⟩ := DeferredAuthState.token.inj hstate
      dsimp only
      exact ⟨rfl, .inr ⟨i, hi, TokenState.requestTokens_ok (congrArg Prod.fst heq)⟩⟩
  · exact ⟨stateTokens_ok h, .inl (stateTokens_ok h)⟩

end AuthInfo

/-! ## One operation among others -/

/-- The `AuthInfo` of one operation, the requests and the map it shares with every other
operation, and the tokens passed to `add_auth_token` since its
`finalize_create_authorization`. -/
structure AuthWorld (R : Type) where
  info : AuthInfo R
  tokens : TokenState
  added : List HardwareAuthToken

/-- What can happen: a token arrives, another operation is finalized or lets go of its
request, or this operation is updated or finished. -/
inductive AuthEvent (R : Type)
  | addAuthToken (hat : HardwareAuthToken)
  | finalizeOther (info : AuthInfo R) (challenge : Int64)
  | releaseOther (i : Nat)
  | beforeUpdate (tst : Except Error TimeStampToken)
  | beforeFinish (tst : Except Error TimeStampToken) (confirmationToken : Option (List UInt8))

namespace AuthWorld

variable {R : Type}

/-- The state after `finalize_create_authorization`, from any requests and map. -/
def start (info : AuthInfo R) (challenge : Int64) (st : TokenState) : AuthWorld R :=
  let (_, info, st) := info.finalizeCreateAuthorization challenge st
  ⟨info, st, []⟩

/-- One event: the auth tokens that an update or finish of this operation gets, and the state
after it.  Only this operation's `AuthInfo` holds the request it waits on. -/
def step (w : AuthWorld R) :
    AuthEvent R → Option (Except Error (Option HardwareAuthToken × Option TimeStampToken)) ×
      AuthWorld R
  | .addAuthToken hat => (none, { w with tokens := w.tokens.addAuthToken hat, added := w.added ++ [hat] })
  | .finalizeOther info challenge =>
    (none, { w with tokens := (info.finalizeCreateAuthorization challenge w.tokens).2.2 })
  | .releaseOther i =>
    (none, if w.info.state = .waiting i then w else { w with tokens := w.tokens.release i })
  | .beforeUpdate tst =>
    let (r, info, tokens) := w.info.beforeUpdate tst w.tokens
    (some r, { w with info, tokens })
  | .beforeFinish tst confirmationToken =>
    let (r, info, tokens) := w.info.beforeFinish tst confirmationToken w.tokens
    (some (r.map fun (hat, tst, _) => (hat, tst)), { w with info, tokens })

/-- The states that events lead to from `w`. -/
def Reachable (w : AuthWorld R) : AuthWorld R → Prop :=
  Lib.Reachable w fun w e => some (w.step e).2

variable {w : AuthWorld R}

theorem step_beforeUpdate (tst : Except Error TimeStampToken) :
    w.step (.beforeUpdate tst) =
      (some (w.info.getAuthTokens tst w.tokens).1,
        { w with
          info := (w.info.getAuthTokens tst w.tokens).2.1
          tokens := (w.info.getAuthTokens tst w.tokens).2.2 }) := rfl

theorem step_beforeFinish (tst : Except Error TimeStampToken)
    (confirmationToken : Option (List UInt8)) :
    w.step (.beforeFinish tst confirmationToken) = w.step (.beforeUpdate tst) := by
  simp only [step, AuthInfo.beforeFinish, AuthInfo.beforeUpdate]
  rcases w.info.getAuthTokens tst w.tokens with ⟨r, info, tokens⟩
  cases r <;> rfl

/-! ### A kept token stays -/

section Token

variable {t : HardwareAuthToken} {x : Option TimeStampToken}

/-- Once the `AuthInfo` keeps a token, every event leaves it, and every call gets it. -/
theorem step_of_token (hs : w.info.state = .token t x) (e : AuthEvent R) :
    (w.step e).2.info.state = .token t x ∧ ∀ r, (w.step e).1 = some r → r = .ok (some t, x) := by
  cases e with
  | addAuthToken hat => exact ⟨hs, fun _ hr => by cases hr⟩
  | finalizeOther info c => exact ⟨hs, fun _ hr => by cases hr⟩
  | releaseOther i =>
    refine ⟨?_, fun _ hr => by cases hr⟩
    show (if w.info.state = .waiting i then w else _).info.state = _
    split <;> exact hs
  | beforeUpdate tst =>
    simp only [step, AuthInfo.beforeUpdate, AuthInfo.getAuthTokens_of_token hs, Option.some.injEq]
    exact ⟨hs, fun _ hr => hr.symm⟩
  | beforeFinish tst confirmationToken =>
    rw [step_beforeFinish]
    simp only [step, AuthInfo.beforeUpdate, AuthInfo.getAuthTokens_of_token hs, Option.some.injEq]
    exact ⟨hs, fun _ hr => hr.symm⟩

theorem Reachable.token {w' : AuthWorld R} (hs : w.info.state = .token t x) (h : w.Reachable w') :
    w'.info.state = .token t x :=
  @Lib.Reachable.invariant _ _ w _ (fun w' => w'.info.state = .token t x) hs
    (fun _ e _ hs' he => by
      obtain rfl := Option.some.inj he
      exact (step_of_token hs' e).1) _ h

/-- A call that returns a token leaves the `AuthInfo` keeping it. -/
theorem step_ok {e : AuthEvent R} (hr : (w.step e).1 = some (.ok (some t, x))) :
    (w.step e).2.info.state = .token t x := by
  cases e with
  | beforeUpdate tst => exact (AuthInfo.getAuthTokens_ok (Option.some.inj hr)).1
  | beforeFinish tst confirmationToken =>
    rw [step_beforeFinish] at hr ⊢
    exact (AuthInfo.getAuthTokens_ok (Option.some.inj hr)).1
  | _ => cases hr

end Token

/-! ### The tokens that reach the operation -/

section Tracks

variable (ok : List HardwareAuthToken → HardwareAuthToken → Prop) (k : Nat)

/-- What holds along a run of the request `k` that the operation waits on, for a property `ok`
of tokens given the tokens added so far: a token under a challenge whose receiver refers to
`k`, a token `k` holds and a token the `AuthInfo` keeps satisfy it, and the `AuthInfo` waits on
`k` or keeps a token. -/
structure Tracks (w : AuthWorld R) : Prop where
  lt : k < w.tokens.allocated
  receiver : ∀ c, w.tokens.receivers c = some k → ∀ t, t.challenge = c → ok (w.added ++ [t]) t
  hat : ∀ t, (w.tokens.requests k).hat = some t → ok w.added t
  state : w.info.state = .waiting k ∨ ∃ t x, w.info.state = .token t x ∧ ok w.added t

variable {ok k}

theorem Tracks.waiting_of_ne_token (h : Tracks ok k w) {i : Nat} (hi : w.info.state = .waiting i) :
    i = k := by
  rcases h.state with hk | ⟨t, x, ht, -⟩
  · rw [hi] at hk
    exact DeferredAuthState.waiting.inj hk
  · rw [hi] at ht
    cases ht

theorem Tracks.finalizeOther (h : Tracks ok k w) (info : AuthInfo R) (c : Int64) :
    Tracks ok k (w.step (.finalizeOther info c)).2 where
  lt := Nat.lt_of_lt_of_le h.lt (AuthInfo.finalizeCreateAuthorization_allocated info c w.tokens)
  receiver := by
    intro c' hc t ht
    rcases AuthInfo.finalizeCreateAuthorization_receivers hc with hk | hk
    · exact absurd hk (Nat.ne_of_lt h.lt)
    · exact h.receiver c' hk t ht
  hat := by
    intro t ht
    change ((info.finalizeCreateAuthorization c w.tokens).2.2.requests k).hat = some t at ht
    rw [AuthInfo.finalizeCreateAuthorization_requests h.lt] at ht
    exact h.hat t ht
  state := h.state

theorem Tracks.releaseOther (h : Tracks ok k w) (i : Nat) :
    Tracks ok k (w.step (.releaseOther i)).2 := by
  show Tracks ok k (if w.info.state = .waiting i then w else _)
  split
  · exact h
  · exact ⟨h.lt, h.receiver, h.hat, h.state⟩

theorem Tracks.beforeUpdate (h : Tracks ok k w) (tst : Except Error TimeStampToken) :
    Tracks ok k (w.step (.beforeUpdate tst)).2 := by
  rw [step_beforeUpdate]
  rcases AuthInfo.getAuthTokens_cases w.info tst w.tokens with
    hsame | ⟨i, hi, halloc, hrecv, hreq, hhat, hinfo⟩
  · rw [hsame]
    exact h
  · -- the `AuthInfo` waited on `k` and took its token
    obtain rfl := h.waiting_of_ne_token hi
    refine ⟨by rw [halloc]; exact h.lt, by rw [hrecv]; exact h.receiver, ?_, ?_⟩
    · intro t ht
      rw [hhat] at ht
      cases ht
    · rcases hinfo with hinfo | ⟨t, x, ht, hk⟩
      · exact .inl (by rw [hinfo]; exact hi)
      · exact .inr ⟨t, x, ht, h.hat t hk⟩

section Step

variable (hmono : ∀ l l' t, ok l t → l ⊆ l' → ok l' t)
include hmono

theorem Tracks.addAuthToken (h : Tracks ok k w) (hat : HardwareAuthToken) :
    Tracks ok k (w.step (.addAuthToken hat)).2 where
  lt := by simpa [step] using h.lt
  receiver := by
    intro c hc t ht
    have hc' := TokenState.addAuthToken_receivers hc
    -- the token added now comes before `t`
    refine hmono _ _ _ (h.receiver c hc' t ht) fun a ha => ?_
    simp only [step, List.mem_append, List.mem_singleton] at ha ⊢
    rcases ha with ha | ha
    · exact .inl (.inl ha)
    · exact .inr ha
  hat := by
    intro t ht
    rcases @TokenState.addAuthToken_requests w.tokens hat k with hk | ⟨hrecv, hk⟩
    · -- the token went elsewhere
      change ((w.tokens.addAuthToken hat).requests k).hat = some t at ht
      rw [hk] at ht
      exact hmono _ _ _ (h.hat t ht) (List.subset_append_left _ _)
    · -- the token reached `k`: it came through the receiver of its challenge
      change ((w.tokens.addAuthToken hat).requests k).hat = some t at ht
      rw [hk] at ht
      obtain rfl := Option.some.inj ht
      exact h.receiver _ hrecv hat rfl
  state := h.state.imp_right fun ⟨t, x, hs, hok⟩ =>
    ⟨t, x, hs, hmono _ _ _ hok (List.subset_append_left _ _)⟩

theorem Tracks.step (h : Tracks ok k w) (e : AuthEvent R) : Tracks ok k (w.step e).2 := by
  cases e with
  | addAuthToken hat => exact h.addAuthToken hmono hat
  | finalizeOther info c => exact h.finalizeOther info c
  | releaseOther i => exact h.releaseOther i
  | beforeUpdate tst => exact h.beforeUpdate tst
  | beforeFinish tst confirmationToken =>
    rw [step_beforeFinish]
    exact h.beforeUpdate tst

theorem Tracks.reachable {w' : AuthWorld R} (h : Tracks ok k w) (hr : w.Reachable w') :
    Tracks ok k w' :=
  Lib.Reachable.invariant h (fun _ e _ hs he => by
    obtain rfl := Option.some.inj he
    exact hs.step hmono e) hr

end Step

/-- A token a call returns satisfies `ok`. -/
theorem Tracks.step_ok (h : Tracks ok k w) {e : AuthEvent R} {t : HardwareAuthToken}
    {x : Option TimeStampToken} (hr : (w.step e).1 = some (.ok (some t, x))) : ok w.added t := by
  obtain ⟨tst, hcall⟩ : ∃ tst, (w.info.getAuthTokens tst w.tokens).1 = .ok (some t, x) := by
    cases e with
    | beforeUpdate tst => exact ⟨tst, Option.some.inj hr⟩
    | beforeFinish tst confirmationToken =>
      rw [step_beforeFinish] at hr
      exact ⟨tst, Option.some.inj hr⟩
    | _ => cases hr
  rcases (AuthInfo.getAuthTokens_ok hcall).2 with hs | ⟨i, hi, hk⟩
  · rcases h.state with hk | ⟨t', x', hs', hok⟩
    · rw [hs] at hk
      cases hk
    · rw [hs] at hs'
      obtain ⟨rfl, -⟩ := DeferredAuthState.token.inj hs'
      exact hok
  · obtain rfl := h.waiting_of_ne_token hi
    exact h.hat t hk

/-- While no token satisfies `ok`, every call fails with `KEY_USER_NOT_AUTHENTICATED`. -/
theorem Tracks.step_unauthenticated (h : Tracks ok k w) (hnone : ∀ t, ¬ok w.added t)
    {e : AuthEvent R} {r : Except Error (Option HardwareAuthToken × Option TimeStampToken)}
    (hr : (w.step e).1 = some r) : r = .error (.km .keyUserNotAuthenticated) := by
  have hwait : w.info.state = .waiting k :=
    h.state.resolve_right fun ⟨t, _, _, hok⟩ => hnone t hok
  have hhat : (w.tokens.requests k).hat = none := by
    cases hk : (w.tokens.requests k).hat with
    | none => rfl
    | some t => exact absurd (h.hat t hk) (hnone t)
  have hcall := AuthInfo.getAuthTokens_of_waiting_none hwait hhat
  cases e with
  | beforeUpdate tst =>
    rw [step_beforeUpdate, hcall] at hr
    exact (Option.some.inj hr).symm
  | beforeFinish tst confirmationToken =>
    rw [step_beforeFinish, step_beforeUpdate, hcall] at hr
    exact (Option.some.inj hr).symm
  | _ => cases hr

end Tracks

/-! ### From `finalize_create_authorization` -/

section Start

variable {info : AuthInfo R} {c : Int64} {st : TokenState}

theorem start_tracks_opAuth (hwf : st.WellFormed) (hs : info.state = .opAuthRequired) :
    Tracks (fun l t => t ∈ l ∧ t.challenge = c) st.allocated (start info c st) where
  lt := by simp [start, AuthInfo.finalizeCreateAuthorization, hs]
  receiver := by
    intro c' hc t ht
    simp only [start, AuthInfo.finalizeCreateAuthorization, hs] at hc
    rcases TokenState.addReceiver_receivers hc with ⟨rfl, -⟩ | hold
    · exact ⟨by simp, ht⟩
    · exact absurd (hwf c' _ hold) (Nat.lt_irrefl _)
  hat := by
    intro t ht
    simp [start, AuthInfo.finalizeCreateAuthorization, hs] at ht
  state := .inl (by simp [start, AuthInfo.finalizeCreateAuthorization, hs])

theorem start_tracks_timeStamp (hwf : st.WellFormed) {t0 : HardwareAuthToken}
    (hs : info.state = .timeStampRequired t0) :
    Tracks (fun _ t => t = t0) st.allocated (start info c st) where
  lt := by simp [start, AuthInfo.finalizeCreateAuthorization, hs]
  receiver := by
    intro c' hc t ht
    simp only [start, AuthInfo.finalizeCreateAuthorization, hs, TokenState.alloc_receivers] at hc
    exact absurd (hwf c' _ hc) (Nat.lt_irrefl _)
  hat := by
    intro t ht
    simp only [start, AuthInfo.finalizeCreateAuthorization, hs,
      TokenState.alloc_requests_self, Option.some.injEq] at ht
    exact ht.symm
  state := .inl (by simp [start, AuthInfo.finalizeCreateAuthorization, hs])

end Start

/-- An added token reaches at most one request: the one registered under its challenge. -/
theorem step_addAuthToken_requests (hat : HardwareAuthToken) {i j : Nat}
    (hi : (w.step (.addAuthToken hat)).2.tokens.requests i ≠ w.tokens.requests i)
    (hj : (w.step (.addAuthToken hat)).2.tokens.requests j ≠ w.tokens.requests j) : i = j := by
  have hreg : ∀ n, (w.tokens.addAuthToken hat).requests n ≠ w.tokens.requests n →
      w.tokens.receivers hat.challenge = some n :=
    fun n hn => ((TokenState.addAuthToken_requests hat n).resolve_left hn).1
  exact Option.some.inj ((hreg i hi).symm.trans (hreg j hj))

theorem authTokens_reach_only_their_operation {info : AuthInfo R} {c : Int64} {st : TokenState}
    (hwf : st.WellFormed) :
    (info.state = .opAuthRequired → ∀ w, (start info c st).Reachable w → ∀ e,
      (∀ t x, (w.step e).1 = some (.ok (some t, x)) → t ∈ w.added ∧ t.challenge = c) ∧
      ((∀ t ∈ w.added, t.challenge ≠ c) → ∀ r, (w.step e).1 = some r →
        r = .error (.km .keyUserNotAuthenticated))) ∧
    (∀ (w : AuthWorld R) e t x, (w.step e).1 = some (.ok (some t, x)) →
      ∀ w', (w.step e).2.Reachable w' → ∀ e' r, (w'.step e').1 = some r →
        r = .ok (some t, x)) ∧
    (∀ (w : AuthWorld R) hat i j,
      (w.step (.addAuthToken hat)).2.tokens.requests i ≠ w.tokens.requests i →
      (w.step (.addAuthToken hat)).2.tokens.requests j ≠ w.tokens.requests j → i = j) ∧
    (∀ t0, info.state = .timeStampRequired t0 → ∀ w, (start info c st).Reachable w →
      ∀ e t x, (w.step e).1 = some (.ok (some t, x)) → t = t0) := by
  -- an operation-bound token: one added since the start, under the operation's challenge
  have hmono : ∀ (l l' : List HardwareAuthToken) (t : HardwareAuthToken),
      (t ∈ l ∧ t.challenge = c) → l ⊆ l' → t ∈ l' ∧ t.challenge = c :=
    fun _ _ _ ⟨hm, hc⟩ hs => ⟨hs hm, hc⟩
  refine ⟨fun hs w hw e => ?_, fun w e t x hr w' hw' e' r hr' => ?_,
    fun w hat i j hi hj => step_addAuthToken_requests hat hi hj, fun t0 hs w hw e t x hr => ?_⟩
  · have htr := (start_tracks_opAuth hwf hs).reachable hmono hw
    exact ⟨fun t x hr => htr.step_ok hr,
      fun hnone r hr => htr.step_unauthenticated (fun t ⟨hm, hc⟩ => hnone t hm hc) hr⟩
  · -- the token is kept from then on
    exact (step_of_token (Reachable.token (step_ok hr) hw') e').2 r hr'
  · have htr := (start_tracks_timeStamp hwf hs).reachable (fun _ _ _ h _ => h) hw
    exact htr.step_ok hr

/-- An operation-bound auth token for challenge 1, from the map at boot. -/
theorem authTokens_reach_only_their_operation_init :
    let info : AuthInfo Unit := ⟨.opAuthRequired, none, none⟩
    (info.state = .opAuthRequired → ∀ w, (start info 1 TokenState.init).Reachable w → ∀ e,
      (∀ t x, (w.step e).1 = some (.ok (some t, x)) → t ∈ w.added ∧ t.challenge = 1) ∧
      ((∀ t ∈ w.added, t.challenge ≠ 1) → ∀ r, (w.step e).1 = some r →
        r = .error (.km .keyUserNotAuthenticated))) ∧
    (∀ (w : AuthWorld Unit) e t x, (w.step e).1 = some (.ok (some t, x)) →
      ∀ w', (w.step e).2.Reachable w' → ∀ e' r, (w'.step e').1 = some r →
        r = .ok (some t, x)) ∧
    (∀ (w : AuthWorld Unit) hat i j,
      (w.step (.addAuthToken hat)).2.tokens.requests i ≠ w.tokens.requests i →
      (w.step (.addAuthToken hat)).2.tokens.requests j ≠ w.tokens.requests j → i = j) ∧
    (∀ t0, info.state = .timeStampRequired t0 → ∀ w, (start info 1 TokenState.init).Reachable w →
      ∀ e t x, (w.step e).1 = some (.ok (some t, x)) → t = t0) :=
  authTokens_reach_only_their_operation (fun _ _ h => by cases h)

end AuthWorld

end Keystore2.Enforcements
