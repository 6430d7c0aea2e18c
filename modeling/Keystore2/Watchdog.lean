import Keystore2.Lib.Transition
import Mathlib.Data.List.AList

/-! The watchdog of `watchdog/src/lib.rs`, the crate `watchdog_rs`.  A thread about to run a
long operation arms a record with a deadline, and disarms it when its `WatchPoint` is dropped.  A
watchdog thread, spawned by an arm while none runs, sleeps on a condition variable until the
closest deadline, reports the overdue records with a back-off, and exits once it has waited
`idle_timeout` with no record left.

Time is a count of nanoseconds: an `Instant` or a `Duration` is a natural number, and
`saturating_duration_since` and `elapsed` are truncated subtraction.  The state is the
mutex-protected `WatchdogState` with every thread `spawn_thread` started, each where it is in its
closure; a step is what one thread does holding the mutex, and the watchdog thread gives the
mutex up only in `wait_timeout`.  Time passes between steps, not within one.  The ghost field
`reports` holds the time of every report the thread logged, in order. -/

namespace Keystore2.WatchdogRs

/-- `Duration::from_secs`. -/
def secs (n : Nat) : Nat := n * 1000000000

inductive State
  | notRunning
  | running
  deriving DecidableEq, Repr

/-- A record's key: the thread that armed it and the id of its watch point. -/
structure Index where
  tid : Nat
  id : String
  deriving DecidableEq, Repr

/-- A record; its `context` is only written to the log and is left out. -/
structure Record where
  started : Nat
  deadline : Nat
  deriving DecidableEq, Repr

/-- `WatchdogState`; `thread` is the `JoinHandle`, as the index of the thread it joins, and the
`HashMap` of records is an association list with one entry per index. -/
structure WatchdogState where
  state : State
  thread : Option Nat
  idleTimeout : Nat
  records : AList (fun _ : Index => Record)
  lastReport : Option Nat
  noisyTimeout : Nat

namespace WatchdogState

def minReportTimeout : Nat := secs 1

def maxReportTimeout : Nat := secs 30

theorem minReportTimeout_le_max : minReportTimeout ≤ maxReportTimeout := by
  decide

def resetNoisyTimeout (st : WatchdogState) : WatchdogState :=
  { st with noisyTimeout := minReportTimeout }

/-- `update_noisy_timeout`, on the one field it changes: the back-off grows by five seconds, up
to its maximum. -/
def updateNoisyTimeout (noisyTimeout : Nat) : Nat :=
  min maxReportTimeout (noisyTimeout + secs 5)

/-- One record of the loop of `overdue_and_next_timeout`: an overdue record sets the flag, one
still to come may lower the time to the closest deadline. -/
def overdueStep (now : Nat) (acc : Bool × Option Nat) (r : Record) :
    Bool × Option Nat :=
  let timeout := r.deadline - now
  if timeout = 0 then (true, acc.2)
  else
    (acc.1, match acc.2 with
      | some nt => if timeout < nt then some timeout else some nt
      | none => some timeout)

/-- `overdue_and_next_timeout` at `now`. -/
def overdueAndNextTimeout (st : WatchdogState) (now : Nat) : Bool × Option Nat :=
  (st.records.entries.map (·.2)).foldl (overdueStep now) (false, none)

/-- Whether the last report is too recent for another: the inner `if let` of `log_report`. -/
def tooSoon (st : WatchdogState) (now : Nat) : Bool :=
  match st.lastReport with
  | some reportedAt => now - reportedAt < st.noisyTimeout
  | none => false

/-- `log_report` at `now`: whether it writes a report, and the state after it. -/
def logReport (st : WatchdogState) (now : Nat) (hasOverdue : Bool) : Bool × WatchdogState :=
  if !hasOverdue then (false, { st with lastReport := none })
  -- too soon since the last report
  else if st.tooSoon now then (false, { st with lastReport := none })
  else
    (true, { st with noisyTimeout := updateNoisyTimeout st.noisyTimeout, lastReport := some now })

/-- The match after `log_report`: how long to wait, and whether the thread is idle. -/
def waitTimeout (st : WatchdogState) (hasOverdue : Bool) (nextTimeout : Option Nat) :
    Nat × Bool :=
  match hasOverdue, nextTimeout with
  | true, some nt => (min nt st.noisyTimeout, false)
  | true, none => (st.noisyTimeout, false)
  | false, some nt => (nt, false)
  | false, none => (st.idleTimeout, true)

/-- `WatchdogState::arm`: the record replaces one of the same index. -/
def arm (st : WatchdogState) (index : Index) (record : Record) : WatchdogState :=
  { st with records := st.records.insert index record }

/-- `WatchdogState::disarm`. -/
def disarm (st : WatchdogState) (index : Index) : WatchdogState :=
  { st with records := st.records.erase index }

end WatchdogState

/-- Where a thread started by `spawn_thread` is in its closure. -/
inductive Pc
  /-- started, about to take the mutex -/
  | start
  /-- in `wait_timeout` until `wakeAt`, with (ghost) whether it was notified since -/
  | waiting (wakeAt : Nat) (idle : Bool) (notified : Bool)
  /-- left the loop and returned -/
  | exited
  deriving DecidableEq, Repr

/-- `notify_all`: every waiting thread may now return from its wait. -/
def Pc.notify : Pc → Pc
  | .waiting wakeAt idle _ => .waiting wakeAt idle true
  | pc => pc

structure Watchdog where
  now : Nat
  shared : WatchdogState
  threads : List Pc
  reports : List Nat

namespace Watchdog

open WatchdogState

/-- `Watchdog::new(idle_timeout)`, at time `start`. -/
def new (idleTimeout : Nat) (start : Nat) : Watchdog :=
  ⟨start, ⟨.notRunning, none, idleTimeout, ∅, none, minReportTimeout⟩, [], []⟩

/-- `spawn_thread`.  Joining the previous thread returns once it has exited; a thread still in
its loop would wait for the mutex this call holds, and the call would never return, which is the
`none` here. -/
def spawnThread (w : Watchdog) : Option Watchdog :=
  if w.shared.thread.all fun t => w.threads[t]? == some .exited then
    some { w with
      threads := w.threads ++ [.start]
      shared := { w.shared with thread := some w.threads.length, state := .running } }
  else none

/-- The end of `Watchdog::arm`: a thread is spawned unless one runs, then all are notified. -/
def spawnAndNotify (w : Watchdog) : Option Watchdog :=
  (if w.shared.state ≠ .running then w.spawnThread else some w).map fun w =>
    { w with threads := w.threads.map Pc.notify }

/-- `Watchdog::arm` by thread `tid`, from `watch_with_optional`: the deadline is `timeout` from
now. -/
def arm (w : Watchdog) (tid : Nat) (id : String) (timeout : Nat) : Option Watchdog :=
  spawnAndNotify { w with shared := w.shared.arm ⟨tid, id⟩ ⟨w.now, w.now + timeout⟩ }

/-- `Watchdog::disarm` by thread `tid`, when its watch point is dropped. -/
def disarm (w : Watchdog) (tid : Nat) (id : String) : Watchdog :=
  { w with shared := w.shared.disarm ⟨tid, id⟩ }

/-- The pass of thread `i` through its loop up to the wait, holding the mutex: the report, and
the wait until the closest deadline, the back-off or the idle timeout. -/
def pass (w : Watchdog) (i : Nat) : Watchdog :=
  let overdue := w.shared.overdueAndNextTimeout w.now
  let report := w.shared.logReport w.now overdue.1
  let wait := report.2.waitTimeout overdue.1 overdue.2
  { w with
    shared := report.2
    threads := w.threads.set i (.waiting (w.now + wait.1) wait.2 false)
    reports := if report.1 then w.reports ++ [w.now] else w.reports }

/-- Thread `i` takes the mutex at the head of its closure and makes its first pass. -/
def run (w : Watchdog) (i : Nat) : Option Watchdog :=
  if w.threads[i]? = some .start then some (w.pass i) else none

/-- Thread `i` returns from `wait_timeout`: timed out once its time has come, or woken by a
notification or spuriously at any time.  An idle thread that timed out with no record left
exits; otherwise it makes its next pass. -/
def wake (w : Watchdog) (i : Nat) (timedOut : Bool) : Option Watchdog :=
  match w.threads[i]? with
  | some (.waiting wakeAt idle _) =>
    if timedOut && w.now < wakeAt then none
    else if idle && timedOut && w.shared.records.entries.isEmpty then
      some { w with
        shared := { w.shared.resetNoisyTimeout with state := .notRunning }
        threads := w.threads.set i .exited }
    else some (w.pass i)
  | _ => none

end Watchdog

/-- The steps of a concurrent schedule: arms and disarms from any thread, the steps of the
watchdog threads, and time passing. -/
inductive Transition
  | arm (tid : Nat) (id : String) (timeout : Nat)
  | disarm (tid : Nat) (id : String)
  | run (i : Nat)
  | wake (i : Nat) (timedOut : Bool)
  | tick (d : Nat)

namespace Watchdog

def step (w : Watchdog) : Transition → Option Watchdog
  | .arm tid id timeout => w.arm tid id timeout
  | .disarm tid id => some (w.disarm tid id)
  | .run i => w.run i
  | .wake i timedOut => w.wake i timedOut
  | .tick d => some { w with now := w.now + d }

abbrev Reachable (idleTimeout : Nat) (start : Nat) : Watchdog → Prop :=
  Lib.Reachable (new idleTimeout start) step

end Watchdog

/-! ### The passes of the watchdog thread -/

namespace WatchdogState

variable {st : WatchdogState} {now : Nat} {u : Nat}

theorem overdueStep_fst (acc : Bool × Option Nat) (r : Record) :
    (overdueStep now acc r).1 = (acc.1 || decide (r.deadline ≤ now)) := by
  unfold overdueStep
  by_cases h : r.deadline ≤ now
  · simp [Nat.sub_eq_zero_of_le h, h]
  · simp only [show r.deadline - now ≠ 0 by omega, if_false, h, decide_false, Bool.or_false]

/-- The time to the closest deadline after one more record is at most a bound that the time
before it or the record's own time to its deadline meets. -/
theorem overdueStep_snd_le {acc : Bool × Option Nat} {r : Record}
    (h : (∃ n, acc.2 = some n ∧ n ≤ u) ∨ (now < r.deadline ∧ r.deadline - now ≤ u)) :
    ∃ n, (overdueStep now acc r).2 = some n ∧ n ≤ u := by
  obtain ⟨hasOverdue, nextTimeout⟩ := acc
  unfold overdueStep
  dsimp only at h ⊢
  by_cases hzero : r.deadline - now = 0
  · rw [if_pos hzero]
    rcases h with h | h
    · exact h
    · omega
  · rw [if_neg hzero]
    cases nextTimeout with
    | none =>
      obtain ⟨n, hn, -⟩ | h := h
      · cases hn
      · exact ⟨_, rfl, h.2⟩
    | some nt =>
      dsimp only
      split_ifs with hlt
      · rcases h with ⟨n, hn, hle⟩ | h
        · cases hn
          exact ⟨_, rfl, by omega⟩
        · exact ⟨_, rfl, h.2⟩
      · rcases h with ⟨n, hn, hle⟩ | h
        · cases hn
          exact ⟨_, rfl, hle⟩
        · exact ⟨_, rfl, by omega⟩

theorem foldl_overdueStep_fst (rs : List Record) (acc : Bool × Option Nat) :
    (rs.foldl (overdueStep now) acc).1 = true ↔ acc.1 = true ∨ ∃ r ∈ rs, r.deadline ≤ now := by
  induction rs generalizing acc with
  | nil => simp
  | cons r rs ih =>
    rw [List.foldl_cons, ih, overdueStep_fst]
    simp only [Bool.or_eq_true, decide_eq_true_eq, List.mem_cons, exists_eq_or_imp]
    tauto

theorem foldl_overdueStep_snd_le (rs : List Record) (acc : Bool × Option Nat)
    (h : (∃ n, acc.2 = some n ∧ n ≤ u) ∨ ∃ r ∈ rs, now < r.deadline ∧ r.deadline - now ≤ u) :
    ∃ n, (rs.foldl (overdueStep now) acc).2 = some n ∧ n ≤ u := by
  induction rs generalizing acc with
  | nil => simpa using h
  | cons r rs ih =>
    rw [List.foldl_cons]
    apply ih
    -- a bound met before the record or by it is met after it
    rcases h with h | ⟨r', hr', hbound⟩
    · exact .inl (overdueStep_snd_le (.inl h))
    · rcases List.mem_cons.mp hr' with rfl | hr'
      · exact .inl (overdueStep_snd_le (.inr hbound))
      · exact .inr ⟨r', hr', hbound⟩

/-- `overdue_and_next_timeout` reports an overdue record exactly when there is one. -/
theorem overdueAndNextTimeout_fst :
    (st.overdueAndNextTimeout now).1 = true ↔ ∃ e ∈ st.records.entries, e.2.deadline ≤ now := by
  rw [overdueAndNextTimeout, foldl_overdueStep_fst]
  constructor
  · rintro (h | ⟨r, hr, hdeadline⟩)
    · cases h
    · obtain ⟨e, he, rfl⟩ := List.mem_map.mp hr
      exact ⟨e, he, hdeadline⟩
  · rintro ⟨e, he, hdeadline⟩
    exact .inr ⟨e.2, List.mem_map_of_mem he, hdeadline⟩

/-- The time to the closest deadline is at most the time to every deadline still to come. -/
theorem overdueAndNextTimeout_snd_le {e : Sigma fun _ : Index => Record}
    (he : e ∈ st.records.entries) (hnow : now < e.2.deadline) :
    ∃ nt, (st.overdueAndNextTimeout now).2 = some nt ∧ nt ≤ e.2.deadline - now :=
  foldl_overdueStep_snd_le _ _ (.inr ⟨e.2, List.mem_map_of_mem he, hnow, le_rfl⟩)

theorem waitTimeout_le (st : WatchdogState) (hasOverdue : Bool) (nt : Nat) :
    (st.waitTimeout hasOverdue (some nt)).1 ≤ nt := by
  cases hasOverdue
  · exact le_rfl
  · exact Nat.min_le_left _ _

@[simp] theorem logReport_records (hasOverdue : Bool) :
    (st.logReport now hasOverdue).2.records = st.records := by
  unfold logReport
  split_ifs <;> rfl

@[simp] theorem logReport_state (hasOverdue : Bool) :
    (st.logReport now hasOverdue).2.state = st.state := by
  unfold logReport
  split_ifs <;> rfl

@[simp] theorem logReport_thread (hasOverdue : Bool) :
    (st.logReport now hasOverdue).2.thread = st.thread := by
  unfold logReport
  split_ifs <;> rfl

/-- The back-off stays between `MIN_REPORT_TIMEOUT` and `MAX_REPORT_TIMEOUT`. -/
theorem logReport_noisyTimeout (hasOverdue : Bool) (hge : minReportTimeout ≤ st.noisyTimeout)
    (hle : st.noisyTimeout ≤ maxReportTimeout) :
    minReportTimeout ≤ (st.logReport now hasOverdue).2.noisyTimeout ∧
      (st.logReport now hasOverdue).2.noisyTimeout ≤ maxReportTimeout := by
  have hbounds := minReportTimeout_le_max
  unfold logReport
  split_ifs
  · exact ⟨hge, hle⟩
  · exact ⟨hge, hle⟩
  · simp only [updateNoisyTimeout]
    omega

/-- With a record overdue, of two reports asked for at the same instant exactly one is written,
whenever the last one was: a report that is too soon forgets the time of the last. -/
theorem logReport_twice (st : WatchdogState) (now : Nat) :
    ((st.logReport now true).1 || ((st.logReport now true).2.logReport now true).1) = true ∧
      ((st.logReport now true).1 && ((st.logReport now true).2.logReport now true).1) = false := by
  by_cases hsoon : st.tooSoon now = true
  · -- too soon: the first forgets the last report, so the second reports
    have h1 : st.logReport now true = (false, { st with lastReport := none }) := by
      simp [logReport, hsoon]
    have h2 : ({ st with lastReport := none } : WatchdogState).tooSoon now = false := rfl
    rw [h1]
    simp [logReport, h2]
  · -- the first reports at `now`, which makes the second too soon
    have h1 : st.logReport now true =
        (true, { st with noisyTimeout := updateNoisyTimeout st.noisyTimeout,
                          lastReport := some now }) := by
      simp [logReport, hsoon]
    have h2 :
        ({ st with noisyTimeout := updateNoisyTimeout st.noisyTimeout, lastReport := some now } :
          WatchdogState).tooSoon now = true := by
      have hmax : 0 < maxReportTimeout := by decide
      have hstep : 0 < secs 5 := by decide
      simp only [tooSoon, updateNoisyTimeout, Nat.sub_self, decide_eq_true_eq]
      omega
    rw [h1]
    simp [logReport, h2]

end WatchdogState

namespace Watchdog

open WatchdogState

variable {w w' : Watchdog} {i j : Nat} {pc : Pc}

@[simp] theorem pass_now : (w.pass i).now = w.now := rfl

@[simp] theorem pass_records : (w.pass i).shared.records = w.shared.records := by
  simp only [pass, logReport_records]

@[simp] theorem pass_state : (w.pass i).shared.state = w.shared.state := by
  simp only [pass, logReport_state]

@[simp] theorem pass_thread : (w.pass i).shared.thread = w.shared.thread := by
  simp only [pass, logReport_thread]

theorem pass_shared :
    (w.pass i).shared = (w.shared.logReport w.now (w.shared.overdueAndNextTimeout w.now).1).2 :=
  rfl

theorem pass_reports :
    (w.pass i).reports = if (w.shared.logReport w.now (w.shared.overdueAndNextTimeout w.now).1).1
      then w.reports ++ [w.now] else w.reports :=
  rfl

/-- A second pass sees the records of the first, at the same instant. -/
theorem overdueAndNextTimeout_pass :
    (w.pass i).shared.overdueAndNextTimeout (w.pass i).now =
      w.shared.overdueAndNextTimeout w.now := by
  unfold overdueAndNextTimeout
  rw [pass_records, pass_now]

/-- Woken without a timeout, a waiting thread makes its next pass. -/
theorem wake_false {wakeAt : Nat} {idle notified : Bool}
    (hi : w.threads[i]? = some (.waiting wakeAt idle notified)) :
    w.wake i false = some (w.pass i) := by
  unfold wake
  rw [hi]
  simp

/-- A pass leaves thread `i` waiting, until a time no later than every deadline still to
come. -/
theorem pass_threads (w : Watchdog) (i : Nat) :
    ∃ wakeAt idle, (w.pass i).threads = w.threads.set i (.waiting wakeAt idle false) ∧
      ∀ e ∈ w.shared.records.entries, w.now < e.2.deadline → wakeAt ≤ e.2.deadline := by
  refine ⟨_, _, rfl, ?_⟩
  intro e he hnow
  obtain ⟨nt, hnt, hle⟩ := overdueAndNextTimeout_snd_le he hnow
  have hwait := waitTimeout_le (w.shared.logReport w.now (w.shared.overdueAndNextTimeout w.now).1).2
    (w.shared.overdueAndNextTimeout w.now).1 nt
  rw [hnt]
  omega

theorem noisyTimeout_pass (hge : minReportTimeout ≤ w.shared.noisyTimeout)
    (hle : w.shared.noisyTimeout ≤ maxReportTimeout) :
    minReportTimeout ≤ (w.pass i).shared.noisyTimeout ∧
      (w.pass i).shared.noisyTimeout ≤ maxReportTimeout :=
  logReport_noisyTimeout _ hge hle

end Watchdog

/-! ### What holds of every reachable state -/

namespace Watchdog

open WatchdogState

variable {w w' : Watchdog} {i : Nat} {pc : Pc}

/-- What holds of every reachable state: an armed record has a watchdog thread, at most one
thread is live and it is the one the handle joins, the back-off stays in its bounds, and a thread
waiting without a notification wakes by the closest deadline still to come. -/
structure Invariant (w : Watchdog) : Prop where
  watched : w.shared.records.entries ≠ [] → w.shared.state = .running
  running_live : w.shared.state = .running →
    ∃ j pc, w.shared.thread = some j ∧ w.threads[j]? = some pc ∧ pc ≠ .exited
  live_handle : ∀ j (pc : Pc), w.threads[j]? = some pc → pc ≠ .exited →
    w.shared.thread = some j ∧ w.shared.state = .running
  handle_lt : ∀ j, w.shared.thread = some j → j < w.threads.length
  noisy_ge : minReportTimeout ≤ w.shared.noisyTimeout
  noisy_le : w.shared.noisyTimeout ≤ maxReportTimeout
  no_oversleep : ∀ (j wakeAt : Nat) (idle : Bool),
    w.threads[j]? = some (.waiting wakeAt idle false) →
    ∀ e ∈ w.shared.records.entries, w.now < e.2.deadline → wakeAt ≤ e.2.deadline

theorem invariant_new (idleTimeout start : Nat) : Invariant (new idleTimeout start) where
  watched h := absurd rfl h
  running_live h := by cases h
  live_handle _ _ h := by simp [new] at h
  handle_lt _ h := by cases h
  noisy_ge := le_rfl
  noisy_le := minReportTimeout_le_max
  no_oversleep _ _ _ h := by simp [new] at h

theorem Pc.notify_eq_exited : pc.notify = .exited ↔ pc = .exited := by
  cases pc <;> simp [Pc.notify]

theorem Pc.notify_ne_waiting {wakeAt : Nat} {idle : Bool} :
    pc.notify ≠ .waiting wakeAt idle false := by
  cases pc <;> simp [Pc.notify]

/-- A pass of the live thread `i` keeps the invariant: it stays live, and its new wait ends by
the closest deadline. -/
theorem Invariant.pass (hinv : Invariant w) (hi : w.threads[i]? = some pc) (hpc : pc ≠ .exited) :
    Invariant (w.pass i) := by
  obtain ⟨wakeAt, idle, hthreads, hwake⟩ := pass_threads w i
  obtain ⟨hhandle, hrunning⟩ := hinv.live_handle i pc hi hpc
  have hlt : i < w.threads.length := (List.getElem?_eq_some_iff.mp hi).1
  obtain ⟨hge, hle⟩ := noisyTimeout_pass (i := i) hinv.noisy_ge hinv.noisy_le
  refine ⟨?_, ?_, ?_, ?_, hge, hle, ?_⟩
  · rw [pass_records, pass_state]
    exact hinv.watched
  · intro _
    refine ⟨i, .waiting wakeAt idle false, by rw [pass_thread, hhandle], ?_, nofun⟩
    rw [hthreads, List.getElem?_set_self hlt]
  · intro j pc' hj hpc'
    rw [pass_thread, pass_state]
    rw [hthreads, List.getElem?_set] at hj
    split_ifs at hj with hij
    · exact ⟨hij ▸ hhandle, hrunning⟩
    · exact hinv.live_handle j pc' hj hpc'
  · intro j hj
    rw [hthreads, List.length_set]
    exact hinv.handle_lt j (pass_thread ▸ hj)
  · intro j wakeAt' idle' hj e he hnow
    rw [pass_records] at he
    rw [hthreads, List.getElem?_set] at hj
    split_ifs at hj with hij
    · cases hj
      exact hwake e he hnow
    · exact hinv.no_oversleep j wakeAt' idle' hj e he hnow

/-- With no thread running, every thread has exited. -/
theorem Invariant.exited_of_not_running (hinv : Invariant w) (hrun : w.shared.state ≠ .running)
    {j : Nat} {pc : Pc} (hj : w.threads[j]? = some pc) : pc = .exited :=
  by_contra fun hpc => hrun (hinv.live_handle j pc hj hpc).2

/-- With no thread running, the join of `spawn_thread` returns: the thread it joins has
exited. -/
theorem Invariant.joinable (hinv : Invariant w) (hrun : w.shared.state ≠ .running) :
    w.shared.thread.all (fun t => w.threads[t]? == some Pc.exited) = true := by
  cases hthread : w.shared.thread with
  | none => rfl
  | some t =>
    have ht := List.getElem?_eq_getElem (hinv.handle_lt t hthread)
    simp [ht, hinv.exited_of_not_running hrun ht]

theorem Invariant.arm (hinv : Invariant w) {tid : Nat} {id : String} {timeout : Nat}
    (h : w.arm tid id timeout = some w') : Invariant w' := by
  unfold Watchdog.arm spawnAndNotify at h
  obtain ⟨w₂, hw₂, rfl⟩ := Option.map_eq_some_iff.mp h
  split at hw₂
  case isFalse hrun =>
    -- a thread runs and goes on to watch the new record
    have hrun : w.shared.state = .running := not_not.mp hrun
    cases hw₂
    refine ⟨fun _ => hrun, ?_, ?_, ?_, hinv.noisy_ge, hinv.noisy_le, ?_⟩
    · intro _
      obtain ⟨j, pc, hj, hpc, hlive⟩ := hinv.running_live hrun
      exact ⟨j, pc.notify, hj, by simp [hpc], fun h => hlive (Pc.notify_eq_exited.mp h)⟩
    · intro j pc hj hpc
      simp only [List.getElem?_map, Option.map_eq_some_iff] at hj
      obtain ⟨pc₀, hj, rfl⟩ := hj
      exact hinv.live_handle j pc₀ hj (fun h => hpc (Pc.notify_eq_exited.mpr h))
    · intro j hj
      rw [List.length_map]
      exact hinv.handle_lt j hj
    · intro j wakeAt idle hj
      simp only [List.getElem?_map, Option.map_eq_some_iff] at hj
      obtain ⟨pc₀, -, hnotify⟩ := hj
      exact absurd hnotify Pc.notify_ne_waiting
  case isTrue hrun =>
    -- no thread runs: every thread has exited, so the join returns and a new one is spawned
    unfold spawnThread at hw₂
    split at hw₂
    case isFalse hblocked => exact absurd (hinv.joinable hrun) hblocked
    cases hw₂
    refine ⟨fun _ => rfl, fun _ => ⟨w.threads.length, .start, rfl, ?_, nofun⟩, ?_, ?_,
      hinv.noisy_ge, hinv.noisy_le, ?_⟩
    · simp [Pc.notify]
    · intro j pc hj hpc
      simp only [List.getElem?_map, Option.map_eq_some_iff] at hj
      obtain ⟨pc₀, hj, rfl⟩ := hj
      rcases Nat.lt_or_ge j w.threads.length with hlt | hge
      · rw [List.getElem?_append_left hlt] at hj
        exact absurd (Pc.notify_eq_exited.mpr (hinv.exited_of_not_running hrun hj)) hpc
      · have hj' := (List.getElem?_eq_some_iff.mp hj).1
        simp only [List.length_append, List.length_singleton] at hj'
        exact ⟨by rw [show j = w.threads.length by omega], rfl⟩
    · intro j hj
      cases hj
      simp
    · intro j wakeAt idle hj
      simp only [List.getElem?_map, Option.map_eq_some_iff] at hj
      obtain ⟨pc₀, -, hnotify⟩ := hj
      exact absurd hnotify Pc.notify_ne_waiting

theorem Invariant.disarm (hinv : Invariant w) (tid : Nat) (id : String) :
    Invariant (w.disarm tid id) := by
  -- the records left are among those there were
  have hsub : ∀ e ∈ (w.disarm tid id).shared.records.entries, e ∈ w.shared.records.entries :=
    fun e he => (List.kerase_sublist _ _).subset he
  refine ⟨?_, hinv.running_live, hinv.live_handle, hinv.handle_lt, hinv.noisy_ge, hinv.noisy_le,
    ?_⟩
  · intro hne
    apply hinv.watched
    intro hnil
    apply hne
    exact List.eq_nil_of_subset_nil (fun e he => hnil ▸ hsub e he)
  · intro j wakeAt idle hj e he hnow
    exact hinv.no_oversleep j wakeAt idle hj e (hsub e he) hnow

theorem Invariant.tick (hinv : Invariant w) (d : Nat) :
    Invariant { w with now := w.now + d } := by
  refine ⟨hinv.watched, hinv.running_live, hinv.live_handle, hinv.handle_lt, hinv.noisy_ge,
    hinv.noisy_le, ?_⟩
  -- a deadline still to come later was still to come before
  intro j wakeAt idle hj e he hnow
  exact hinv.no_oversleep j wakeAt idle hj e he (by dsimp only at hnow; omega)

theorem Invariant.run (hinv : Invariant w) (h : w.run i = some w') : Invariant w' := by
  unfold Watchdog.run at h
  split_ifs at h with hi
  cases h
  exact hinv.pass hi nofun

theorem Invariant.wake (hinv : Invariant w) {timedOut : Bool} (h : w.wake i timedOut = some w') :
    Invariant w' := by
  unfold Watchdog.wake at h
  split at h
  case h_2 => cases h
  case h_1 wakeAt idle notified hi =>
    split_ifs at h with htime hexit
    · cases h
      -- the idle thread exits with no record left: the handle joins it next
      have hempty : w.shared.records.entries = [] := by
        simpa using (Bool.and_eq_true_iff.mp hexit).2
      obtain ⟨hhandle, -⟩ := hinv.live_handle i _ hi nofun
      refine ⟨fun hne => absurd hempty hne, nofun, ?_, ?_, le_rfl,
        minReportTimeout_le_max, ?_⟩
      · intro j pc hj hpc
        rw [List.getElem?_set] at hj
        split_ifs at hj with hij
        · cases hj
          exact absurd rfl hpc
        · -- another live thread would be the one the handle joins, which is thread `i`
          have hj' := (hinv.live_handle j pc hj hpc).1
          exact absurd (Option.some.inj (hhandle.symm.trans hj')) hij
      · intro j hj
        rw [List.length_set]
        exact hinv.handle_lt j hj
      · intro j wakeAt' idle' _ e he
        have he : e ∈ w.shared.records.entries := he
        rw [hempty] at he
        cases he
    · cases h
      exact hinv.pass hi nofun

theorem Invariant.step (hinv : Invariant w) {a : Transition} (h : w.step a = some w') :
    Invariant w' := by
  cases a with
  | arm tid id timeout => exact hinv.arm h
  | disarm tid id =>
    cases h
    exact hinv.disarm tid id
  | run i => exact hinv.run h
  | wake i timedOut => exact hinv.wake h
  | tick d =>
    cases h
    exact hinv.tick d

theorem Reachable.invariant {idleTimeout start : Nat} (h : Reachable idleTimeout start w) :
    Invariant w :=
  Lib.Reachable.invariant (invariant_new idleTimeout start) (fun _ _ _ hinv ha => hinv.step ha) h

/-! ### What the watchdog guarantees -/

variable {idleTimeout start : Nat}

/-- While a record is armed, exactly one watchdog thread is live, the one the handle joins: a
watch point is never left without a thread to report it, and no two threads report at once. -/
theorem Reachable.armed_watched (h : Reachable idleTimeout start w)
    (hrec : w.shared.records.entries ≠ []) :
    ∃ j pc, w.shared.thread = some j ∧ w.threads[j]? = some pc ∧ pc ≠ .exited ∧
      ∀ k (pc' : Pc), w.threads[k]? = some pc' → pc' ≠ .exited → k = j := by
  have hinv := h.invariant
  obtain ⟨j, pc, hj, hpc, hlive⟩ := hinv.running_live (hinv.watched hrec)
  refine ⟨j, pc, hj, hpc, hlive, fun k pc' hk hpc' => ?_⟩
  exact Option.some.inj ((hinv.live_handle k pc' hk hpc').1.symm.trans hj)

theorem Reachable.armed_watched_afterArm :
    ∃ w, Reachable (secs 10) 0 w ∧ w.shared.records.entries ≠ [] ∧
      ∃ j pc, w.shared.thread = some j ∧ w.threads[j]? = some pc ∧ pc ≠ .exited ∧
        ∀ k (pc' : Pc), w.threads[k]? = some pc' → pc' ≠ .exited → k = j :=
  have h : Reachable (secs 10) 0 _ := .step (.arm 1 "op" (secs 1)) .init rfl
  ⟨_, h, nofun, Reachable.armed_watched h nofun⟩

/-- A watchdog thread that has waited without a notification wakes no later than the deadline
of every record still to come: no deadline passes while it sleeps unawares. -/
theorem Reachable.wakeAt_le_deadline (h : Reachable idleTimeout start w) {j wakeAt : Nat}
    {idle : Bool} (hj : w.threads[j]? = some (.waiting wakeAt idle false))
    {e : Sigma fun _ : Index => Record} (he : e ∈ w.shared.records.entries)
    (hnow : w.now < e.2.deadline) : wakeAt ≤ e.2.deadline :=
  h.invariant.no_oversleep j wakeAt idle hj e he hnow

theorem Reachable.wakeAt_le_deadline_afterRun :
    ∃ w, Reachable (secs 10) 0 w ∧ w.threads[0]? = some (.waiting 100 false false) ∧
      ∃ e ∈ w.shared.records.entries, w.now < e.2.deadline ∧ 100 ≤ e.2.deadline :=
  have h : Reachable (secs 10) 0 _ := .step (.run 0) (.step (.arm 1 "op" 100) .init rfl) rfl
  ⟨_, h, rfl, _, List.mem_singleton_self _, by decide,
    Reachable.wakeAt_le_deadline h (j := 0) rfl (List.mem_singleton_self _) (by decide)⟩

/-! ### The back-off -/

/-- The back-off does not bound the reports: whenever the watchdog thread waits and a record is
overdue, two wake-ups at one instant, as two arms by other threads cause, log a report, however
recent the last one was. -/
theorem wake_wake_reports {wakeAt : Nat} {idle notified : Bool}
    (hi : w.threads[i]? = some (.waiting wakeAt idle notified))
    (hov : ∃ e ∈ w.shared.records.entries, e.2.deadline ≤ w.now) :
    ∃ w₁ w₂, w.step (.wake i false) = some w₁ ∧ w₁.step (.wake i false) = some w₂ ∧
      w₂.reports = w.reports ++ [w.now] := by
  have hlt : i < w.threads.length := (List.getElem?_eq_some_iff.mp hi).1
  obtain ⟨wakeAt₁, idle₁, hthreads, -⟩ := pass_threads w i
  have hi₁ : (w.pass i).threads[i]? = some (.waiting wakeAt₁ idle₁ false) := by
    rw [hthreads, List.getElem?_set_self hlt]
  refine ⟨w.pass i, (w.pass i).pass i, wake_false hi, wake_false hi₁, ?_⟩
  have hov' : (w.shared.overdueAndNextTimeout w.now).1 = true := overdueAndNextTimeout_fst.mpr hov
  -- the two passes ask for a report of the same overdue records at the same instant
  rw [pass_reports, overdueAndNextTimeout_pass, pass_shared, pass_now, pass_reports, hov']
  obtain ⟨hone, hnottwo⟩ := logReport_twice w.shared w.now
  cases h₁ : (w.shared.logReport w.now true).1 <;>
    cases h₂ : ((w.shared.logReport w.now true).2.logReport w.now true).1 <;>
    simp_all

theorem wake_wake_reports_afterDeadline :
    ∃ w, Reachable (secs 10) 0 w ∧ w.threads[0]? = some (.waiting 100 false false) ∧
      (∃ e ∈ w.shared.records.entries, e.2.deadline ≤ w.now) ∧
      ∃ w₁ w₂, w.step (.wake 0 false) = some w₁ ∧ w₁.step (.wake 0 false) = some w₂ ∧
        w₂.reports = w.reports ++ [w.now] :=
  have h : Reachable (secs 10) 0 _ :=
    .step (.tick 100) (.step (.run 0) (.step (.arm 1 "op" 100) .init rfl) rfl) rfl
  ⟨_, h, rfl, ⟨_, List.mem_singleton_self _, le_refl _⟩,
    wake_wake_reports (i := 0) rfl ⟨_, List.mem_singleton_self _, le_refl _⟩⟩

end Watchdog

end Keystore2.WatchdogRs
