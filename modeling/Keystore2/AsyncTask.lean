import Keystore2.Lib.Transition

/-! `AsyncTask` of `async_task.rs`: one worker thread at a time runs the jobs of a high and a
low priority queue, and the idle callbacks once both are empty, on a shelf that it hands back to
the shared state when it exits after a timeout.

The state is the mutex-protected `AsyncTaskState` together with every thread `spawn_thread` ever
started, each at a point of its loop between two acquisitions of the mutex.  A step is what one
thread does holding the mutex, or, for a worker, the job or idle callback it runs in between,
which touches only the shelf on its stack.  A call from inside a job or an idle callback is a
step of its own, interleaved with the worker's, as is a call from any other thread.

A job is the closure it runs on the shelf, a value of any type `σ` with `default` for
`Shelf::default`; all jobs return normally.  The timeout period is not modelled: a waiting worker
may time out at any step.  The ghost fields record every job queued, started and finished, and
every closure run on the shelf, in order. -/

namespace Keystore2.Async

inductive State
  | exiting
  | running
  deriving DecidableEq, Repr

/-- A job of a queue: its closure, with (ghost) the number of the call that queued it and the
queue it went to. -/
structure Job (σ : Type) where
  seq : Nat
  hiPrio : Bool
  run : σ → σ

/-- Where a thread started by `spawn_thread` is in its closure. -/
inductive Pc (σ : Type) where
  /-- started, about to take the shelf -/
  | start
  /-- at the head of the loop -/
  | loop (doneIdle : Bool)
  /-- in `wait_timeout_while`, both queues empty -/
  | waiting
  /-- running `Action::QueuedFn` without the mutex -/
  | queuedFn (job : Job σ)
  /-- running the idle callbacks of `Action::IdleFns` that are left -/
  | idleFns (fns : List (σ → σ))
  /-- returned after putting the shelf back -/
  | exited

def Pc.isExited {σ : Type} : Pc σ → Bool
  | .exited => true
  | _ => false

/-- A worker thread, with the shelf on its stack. -/
structure Worker (σ : Type) where
  pc : Pc σ
  shelf : σ

/-- `AsyncTaskState`; `thread` is the `JoinHandle`, as the index of the thread it joins, and
the `timeout` period is left out. -/
structure AsyncTaskState (σ : Type) where
  state : State
  thread : Option Nat
  hiPrioReq : List (Job σ)
  loPrioReq : List (Job σ)
  idleFns : List (σ → σ)
  shelf : Option σ

/-- The first two arms of the worker's match: the head of the high priority queue, or else
the head of the low priority queue. -/
def AsyncTaskState.popJob {σ : Type} (st : AsyncTaskState σ) :
    Option (Job σ × AsyncTaskState σ) :=
  match st.hiPrioReq with
  | job :: rest => some (job, { st with hiPrioReq := rest })
  | [] =>
    match st.loPrioReq with
    | job :: rest => some (job, { st with loPrioReq := rest })
    | [] => none

/-- The shared state with the threads, and the ghost record of what happened. -/
structure AsyncTask (σ : Type) where
  shared : AsyncTaskState σ
  threads : List (Worker σ)
  queued : List (Job σ)
  started : List (Job σ)
  finished : List (Job σ)
  history : List (σ → σ)

namespace AsyncTask

variable {σ : Type} [Inhabited σ]

/-- `AsyncTask::new`. -/
def new : AsyncTask σ := ⟨⟨.exiting, none, [], [], [], none⟩, [], [], [], [], []⟩

def setThread (t : AsyncTask σ) (i : Nat) (w : Worker σ) : AsyncTask σ :=
  { t with threads := t.threads.set i w }

/-- `spawn_thread`.  Joining the previous worker returns once that thread has left its loop;
a thread still in its loop would wait for the mutex this call holds, and the call would never
return, which is the `none` here. -/
def spawnThread (t : AsyncTask σ) : Option (AsyncTask σ) :=
  if t.shared.thread.all fun i => (t.threads[i]?).all (·.pc.isExited) then
    some { t with
      threads := t.threads ++ [⟨.start, default⟩]
      shared := { t.shared with thread := some t.threads.length, state := .running } }
  else none

/-- `queue`: the job goes to the back of its queue, and a worker is spawned unless one is
running.  The `notify_all` that follows wakes the waiting worker, whose next step is then
enabled. -/
def queue (t : AsyncTask σ) (f : σ → σ) (hiPrio : Bool) : Option (AsyncTask σ) :=
  let job : Job σ := ⟨t.queued.length, hiPrio, f⟩
  let shared := if hiPrio then { t.shared with hiPrioReq := t.shared.hiPrioReq ++ [job] }
    else { t.shared with loPrioReq := t.shared.loPrioReq ++ [job] }
  let t : AsyncTask σ := { t with shared, queued := t.queued ++ [job] }
  if t.shared.state ≠ .running then t.spawnThread else some t

def queueHi (t : AsyncTask σ) (f : σ → σ) : Option (AsyncTask σ) := t.queue f true

def queueLo (t : AsyncTask σ) (f : σ → σ) : Option (AsyncTask σ) := t.queue f false

def addIdle (t : AsyncTask σ) (f : σ → σ) : AsyncTask σ :=
  { t with shared := { t.shared with idleFns := t.shared.idleFns ++ [f] } }

/-- Worker `i`, holding `shelf`, takes the job the match pops. -/
def takeJob (t : AsyncTask σ) (i : Nat) (shelf : σ) : Option (AsyncTask σ) :=
  t.shared.popJob.map fun (job, shared) =>
    { t with
      shared
      threads := t.threads.set i ⟨.queuedFn job, shelf⟩
      started := t.started ++ [job] }

/-- One step of thread `i` in the closure of `spawn_thread`. -/
def run (t : AsyncTask σ) (i : Nat) : Option (AsyncTask σ) :=
  match t.threads[i]? with
  | none => none
  | some ⟨pc, shelf⟩ =>
    match pc with
    | .start =>
      some { t with
        shared := { t.shared with shelf := none }
        threads := t.threads.set i ⟨.loop false, t.shared.shelf.getD default⟩ }
    | .loop doneIdle =>
      if !doneIdle && t.shared.hiPrioReq.isEmpty && t.shared.loPrioReq.isEmpty then
        some (t.setThread i ⟨.idleFns t.shared.idleFns, shelf⟩)
      else
        -- `wait_timeout_while` returns at once when a job is queued, and waits otherwise.
        match t.takeJob i shelf with
        | some t' => some t'
        | none => some (t.setThread i ⟨.waiting, shelf⟩)
    -- Woken with a job queued; the arm `(None, true, false)` needs the queues empty without a
    -- timeout, which `wait_timeout_while` never returns.
    | .waiting => t.takeJob i shelf
    | .queuedFn job =>
      some { t with
        threads := t.threads.set i ⟨.loop false, job.run shelf⟩
        finished := t.finished ++ [job]
        history := t.history ++ [job.run] }
    | .idleFns [] => some (t.setThread i ⟨.loop true, shelf⟩)
    | .idleFns (f :: fns) =>
      some { t with
        threads := t.threads.set i ⟨.idleFns fns, f shelf⟩
        history := t.history ++ [f] }
    | .exited => none

/-- The wait of thread `i` times out with both queues empty: the arm `(None, true, true)`,
which puts the shelf back and exits. -/
def timeout (t : AsyncTask σ) (i : Nat) : Option (AsyncTask σ) :=
  match t.threads[i]? with
  | some ⟨.waiting, shelf⟩ =>
    if t.shared.hiPrioReq.isEmpty && t.shared.loPrioReq.isEmpty then
      some { t with
        shared := { t.shared with shelf := some shelf, state := .exiting }
        threads := t.threads.set i ⟨.exited, shelf⟩ }
    else none
  | _ => none

end AsyncTask

/-- The steps of a concurrent schedule: calls from any thread, steps of the worker threads and
their timeouts. -/
inductive Transition (σ : Type) where
  | queue (f : σ → σ) (hiPrio : Bool)
  | addIdle (f : σ → σ)
  | run (i : Nat)
  | timeout (i : Nat)

namespace AsyncTask

variable {σ : Type} [Inhabited σ]

def step (t : AsyncTask σ) : Transition σ → Option (AsyncTask σ)
  | .queue f hiPrio => t.queue f hiPrio
  | .addIdle f => some (t.addIdle f)
  | .run i => t.run i
  | .timeout i => t.timeout i

abbrev Reachable : AsyncTask σ → Prop := Lib.Reachable new step

end AsyncTask

end Keystore2.Async
