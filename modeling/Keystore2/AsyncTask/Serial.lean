import Mathlib.Data.List.Infix
import Mathlib.Data.List.Nodup
import Keystore2.AsyncTask

/-! Over every schedule, `AsyncTask` behaves as one worker that runs the queued jobs in turn on
one shelf.  Every thread but the one the `JoinHandle` names has left its loop, and the shared
`Running` flag is set exactly while that thread is in its loop, so a `queue` call never joins a
thread that is still running and never leaves a job without a worker.  The shelf, on the
worker's stack or in the shared state, is what the closures run so far made of
`Shelf::default`.  The jobs of each queue start in the order they were queued, each once. -/

namespace Keystore2.Async

variable {σ : Type}

/-- The threads whose stack holds the shelf. -/
def Pc.holdsShelf : Pc σ → Bool
  | .start | .exited => false
  | _ => true

def Pc.runningJob : Pc σ → Option (Job σ)
  | .queuedFn job => some job
  | _ => none

/-- The steps a worker takes at most before it next takes a job, given one is queued. -/
def Pc.rank : Pc σ → Nat
  | .start => 2
  | .loop _ => 1
  | .waiting => 1
  | .queuedFn _ => 2
  | .idleFns fns => fns.length + 2
  | .exited => 0

theorem AsyncTaskState.popJob_eq_some {st st' : AsyncTaskState σ} {job : Job σ}
    (h : st.popJob = some (job, st')) :
    (st.hiPrioReq = job :: st'.hiPrioReq ∧ st'.loPrioReq = st.loPrioReq ∨
      st.hiPrioReq = [] ∧ st'.hiPrioReq = [] ∧ st.loPrioReq = job :: st'.loPrioReq) ∧
    st'.state = st.state ∧ st'.thread = st.thread ∧ st'.shelf = st.shelf := by
  unfold AsyncTaskState.popJob at h
  split at h
  · rename_i rest hhi
    cases h
    exact ⟨.inl ⟨hhi, rfl⟩, rfl, rfl, rfl⟩
  · rename_i hhi
    split at h
    · rename_i rest hlo
      cases h
      exact ⟨.inr ⟨hhi, hhi, hlo⟩, rfl, rfl, rfl⟩
    · cases h

theorem AsyncTaskState.popJob_eq_none {st : AsyncTaskState σ} :
    st.popJob = none ↔ st.hiPrioReq = [] ∧ st.loPrioReq = [] := by
  unfold AsyncTaskState.popJob
  split <;> [simp_all; split <;> simp_all]

namespace AsyncTask

/-- The thread the `JoinHandle` names. -/
def current (t : AsyncTask σ) : Option (Worker σ) := t.shared.thread.bind fun i => t.threads[i]?

def runningJob (t : AsyncTask σ) : Option (Job σ) := t.current.bind (·.pc.runningJob)

def pending (t : AsyncTask σ) : Nat := t.shared.hiPrioReq.length + t.shared.loPrioReq.length

/-- A bound on the steps the current worker needs to finish every job queued. -/
def measure (t : AsyncTask σ) : Nat := 3 * t.pending + (t.current.map (·.pc.rank)).getD 0

variable {t : AsyncTask σ} {i : Nat} {w : Worker σ}

theorem current_of_thread (hi : t.shared.thread = some i) : t.current = t.threads[i]? := by
  simp [current, hi]

theorem runningJob_of_current (hc : t.current = some w) : t.runningJob = w.pc.runningJob := by
  simp [runningJob, hc]

variable [Inhabited σ]

/-- The shelf, wherever it is: on the stack of the worker that took it, or in the shared
state. -/
def liveShelf (t : AsyncTask σ) : σ :=
  match t.current with
  | some w => if w.pc.holdsShelf then w.shelf else t.shared.shelf.getD default
  | none => t.shared.shelf.getD default

/-- The current worker keeps taking steps, with no other thread acting, up to `n` of them. -/
def drain (t : AsyncTask σ) (n : Nat) : AsyncTask σ :=
  Lib.iterateSome (fun t => t.shared.thread.bind t.run) n t

theorem liveShelf_of_current (hc : t.current = some w) :
    t.liveShelf = if w.pc.holdsShelf then w.shelf else t.shared.shelf.getD default := by
  simp [liveShelf, hc]

/-- A thread that takes a step is in its loop. -/
theorem exists_worker_of_run {t' : AsyncTask σ} (h : t.run i = some t') :
    ∃ w, t.threads[i]? = some w ∧ w.pc.isExited = false := by
  unfold AsyncTask.run at h
  split at h
  · cases h
  · rename_i pc shelf hw
    refine ⟨⟨pc, shelf⟩, hw, ?_⟩
    cases pc <;> simp_all [Pc.isExited]

end AsyncTask

variable [Inhabited σ]

/-- The shelf that the closures `fs` make of `Shelf::default`, one after the other. -/
def replay (fs : List (σ → σ)) : σ := fs.foldl (fun x f => f x) default

theorem replay_append_singleton (fs : List (σ → σ)) (f : σ → σ) :
    replay (fs ++ [f]) = f (replay fs) := by
  simp [replay]

open AsyncTask

structure TaskInvariant (t : AsyncTask σ) : Prop where
  threadLt : ∀ i, t.shared.thread = some i → i < t.threads.length
  joined : ∀ i w, t.threads[i]? = some w → t.shared.thread ≠ some i → w.pc.isExited = true
  running : t.shared.state = .running ↔ ∃ w, t.current = some w ∧ w.pc.isExited = false
  wakeup : t.shared.hiPrioReq ≠ [] ∨ t.shared.loPrioReq ≠ [] → t.shared.state = .running
  shelf : t.liveShelf = replay t.history
  hiFifo : t.started.filter (·.hiPrio) ++ t.shared.hiPrioReq = t.queued.filter (·.hiPrio)
  loFifo : t.started.filter (!·.hiPrio) ++ t.shared.loPrioReq = t.queued.filter (!·.hiPrio)
  seqs : t.queued.map (·.seq) = List.range t.queued.length
  finished : t.started = t.finished ++ t.runningJob.toList

namespace TaskInvariant

variable {t t' : AsyncTask σ} {i : Nat} {w : Worker σ}

theorem state_running (h : TaskInvariant t) (hc : t.current = some w)
    (hw : w.pc.isExited = false) : t.shared.state = .running :=
  h.running.mpr ⟨w, hc, hw⟩

/-- A thread in its loop is the one the handle names. -/
theorem thread_eq (h : TaskInvariant t) (hw : t.threads[i]? = some w)
    (hx : w.pc.isExited = false) : t.shared.thread = some i := by
  by_contra hne
  have := h.joined i w hw hne
  rw [hx] at this
  cases this

theorem hiPrio_of_mem (h : TaskInvariant t) {job : Job σ} (hj : job ∈ t.shared.hiPrioReq) :
    job.hiPrio = true := by
  have hq : job ∈ t.queued.filter (·.hiPrio) := h.hiFifo ▸ List.mem_append_right _ hj
  simpa using (List.mem_filter.mp hq).2

theorem loPrio_of_mem (h : TaskInvariant t) {job : Job σ} (hj : job ∈ t.shared.loPrioReq) :
    job.hiPrio = false := by
  have hq : job ∈ t.queued.filter (!·.hiPrio) := h.loFifo ▸ List.mem_append_right _ hj
  simpa using (List.mem_filter.mp hq).2

/-- The invariant after a step of the current worker `i`, which changes that thread, the
shared state but for the handle, and the ghost record. -/
theorem setCurrent (h : TaskInvariant t) (hi : t.shared.thread = some i)
    {sh : AsyncTaskState σ} {started finished : List (Job σ)} {history : List (σ → σ)}
    (hthread : sh.thread = t.shared.thread)
    (hrunning : sh.state = .running ↔ w.pc.isExited = false)
    (hwakeup : sh.hiPrioReq ≠ [] ∨ sh.loPrioReq ≠ [] → sh.state = .running)
    (hshelf : (if w.pc.holdsShelf then w.shelf else sh.shelf.getD default) = replay history)
    (hhi : started.filter (·.hiPrio) ++ sh.hiPrioReq = t.queued.filter (·.hiPrio))
    (hlo : started.filter (!·.hiPrio) ++ sh.loPrioReq = t.queued.filter (!·.hiPrio))
    (hfin : started = finished ++ w.pc.runningJob.toList) :
    TaskInvariant { t with
      shared := sh, threads := t.threads.set i w, started, finished, history } := by
  have hlt := h.threadLt i hi
  have hc : AsyncTask.current
      { t with shared := sh, threads := t.threads.set i w, started, finished, history } =
      some w := by
    simp [current, hthread, hi, hlt]
  refine ⟨?_, ?_, ?_, hwakeup, ?_, hhi, hlo, h.seqs, ?_⟩
  · intro j hj
    rw [List.length_set]
    exact h.threadLt j (hthread ▸ hj)
  · intro j w' hw' hj
    have hji : i ≠ j := fun e => hj (e ▸ hthread ▸ hi)
    rw [List.getElem?_set_ne hji] at hw'
    exact h.joined j w' hw' (hthread ▸ hj)
  · rw [hc]
    simpa using hrunning
  · rw [liveShelf_of_current hc]
    exact hshelf
  · rw [runningJob_of_current hc]
    exact hfin

theorem new : TaskInvariant (AsyncTask.new : AsyncTask σ) where
  threadLt _ hi := by cases hi
  joined _ _ hw := by simp [AsyncTask.new] at hw
  running := by simp [AsyncTask.new, current]
  wakeup hq := by simp [AsyncTask.new] at hq
  shelf := by simp [AsyncTask.new, liveShelf, current, replay]
  hiFifo := rfl
  loFifo := rfl
  seqs := rfl
  finished := by simp [AsyncTask.new, runningJob, current]

/-- Taking a job keeps the queues in order: the job leaves the front of its queue for the back
of the jobs started. -/
theorem takeJob (h : TaskInvariant t) (hi : t.shared.thread = some i) {pc : Pc σ} {shelf : σ}
    (hc : t.current = some ⟨pc, shelf⟩) (hx : pc.isExited = false) (hhold : pc.holdsShelf = true)
    (hrj : pc.runningJob = none) (ht : t.takeJob i shelf = some t') : TaskInvariant t' := by
  obtain ⟨⟨job, sh⟩, hpop, rfl⟩ := Option.map_eq_some_iff.mp ht
  obtain ⟨hq, hstate, hthread, hshelf⟩ := AsyncTaskState.popJob_eq_some hpop
  have hrun := h.state_running hc hx
  have hlive : shelf = replay t.history := by
    simpa [liveShelf_of_current hc, hhold] using h.shelf
  have hfin : t.started = t.finished := by
    simpa [runningJob_of_current hc, hrj] using h.finished
  refine h.setCurrent hi hthread (by simp [hstate, hrun, Pc.isExited])
    (fun _ => hstate.trans hrun) (by simpa [Pc.holdsShelf] using hlive) ?_ ?_
    (by simp [hfin, Pc.runningJob])
  all_goals rcases hq with ⟨hhi, hlo⟩ | ⟨hhi, hhi', hlo⟩
  -- The job taken is from the high priority queue, or else from the low priority one.
  · have hj : job.hiPrio = true := h.hiPrio_of_mem (by simp [hhi])
    rw [← h.hiFifo, hhi]
    simp [List.filter_append, hj]
  · have hj : job.hiPrio = false := h.loPrio_of_mem (by simp [hlo])
    rw [← h.hiFifo, hhi, hhi']
    simp [List.filter_append, hj]
  · have hj : job.hiPrio = true := h.hiPrio_of_mem (by simp [hhi])
    rw [← h.loFifo, hlo]
    simp [List.filter_append, hj]
  · have hj : job.hiPrio = false := h.loPrio_of_mem (by simp [hlo])
    rw [← h.loFifo, hlo]
    simp [List.filter_append, hj]

/-- Every step of a worker keeps the invariant. -/
theorem run (h : TaskInvariant t) (hrun : t.run i = some t') : TaskInvariant t' := by
  obtain ⟨⟨pc, shelf⟩, hw, hx⟩ := exists_worker_of_run hrun
  have hi := h.thread_eq hw hx
  have hc : t.current = some ⟨pc, shelf⟩ := by rw [current_of_thread hi, hw]
  have hstate := h.state_running hc hx
  have hlive := (liveShelf_of_current hc).symm.trans h.shelf
  have hfin := (runningJob_of_current hc) ▸ h.finished
  cases pc with
  | start =>
    simp only [AsyncTask.run, hw, Option.some.injEq] at hrun
    subst hrun
    exact h.setCurrent hi rfl (by simp [hstate, Pc.isExited]) h.wakeup
      (by simpa [Pc.holdsShelf] using hlive) h.hiFifo h.loFifo (by simpa [Pc.runningJob] using hfin)
  | loop doneIdle =>
    simp only [AsyncTask.run, hw] at hrun
    split at hrun
    · -- Both queues are empty and the idle callbacks are due.
      cases hrun
      exact h.setCurrent hi rfl (by simp [hstate, Pc.isExited]) h.wakeup
        (by simpa [Pc.holdsShelf] using hlive) h.hiFifo h.loFifo
        (by simpa [Pc.runningJob] using hfin)
    · split at hrun
      · cases hrun
        exact h.takeJob hi hc rfl rfl rfl ‹_›
      · cases hrun
        exact h.setCurrent hi rfl (by simp [hstate, Pc.isExited]) h.wakeup
          (by simpa [Pc.holdsShelf] using hlive) h.hiFifo h.loFifo
          (by simpa [Pc.runningJob] using hfin)
  | waiting =>
    simp only [AsyncTask.run, hw] at hrun
    exact h.takeJob hi hc rfl rfl rfl hrun
  | queuedFn job =>
    -- The job ran on the shelf and is finished.
    simp only [AsyncTask.run, hw, Option.some.injEq] at hrun
    subst hrun
    exact h.setCurrent hi rfl (by simp [hstate, Pc.isExited]) h.wakeup
      (by simp [Pc.holdsShelf, replay_append_singleton, ← hlive]) h.hiFifo h.loFifo
      (by simpa [Pc.runningJob] using hfin)
  | idleFns fns =>
    cases fns with
    | nil =>
      simp only [AsyncTask.run, hw, Option.some.injEq] at hrun
      subst hrun
      exact h.setCurrent hi rfl (by simp [hstate, Pc.isExited]) h.wakeup
        (by simpa [Pc.holdsShelf] using hlive) h.hiFifo h.loFifo
        (by simpa [Pc.runningJob] using hfin)
    | cons f fns =>
      simp only [AsyncTask.run, hw, Option.some.injEq] at hrun
      subst hrun
      exact h.setCurrent hi rfl (by simp [hstate, Pc.isExited]) h.wakeup
        (by simp [Pc.holdsShelf, replay_append_singleton, ← hlive]) h.hiFifo h.loFifo
        (by simpa [Pc.runningJob] using hfin)
  | exited => cases hx

/-- The wait of the current worker times out: it puts the shelf back and leaves its loop. -/
theorem timeout (h : TaskInvariant t) (ht : t.timeout i = some t') : TaskInvariant t' := by
  unfold AsyncTask.timeout at ht
  split at ht
  · rename_i shelf hw
    split at ht
    · rename_i hempty
      cases ht
      have hi := h.thread_eq hw rfl
      have hc : t.current = some ⟨.waiting, shelf⟩ := by rw [current_of_thread hi, hw]
      have hlive := (liveShelf_of_current hc).symm.trans h.shelf
      have hfin := (runningJob_of_current hc) ▸ h.finished
      simp only [Bool.and_eq_true, List.isEmpty_iff] at hempty
      exact h.setCurrent hi rfl (by simp [Pc.isExited]) (by simp [hempty])
        (by simpa [Pc.holdsShelf] using hlive) h.hiFifo h.loFifo
        (by simpa [Pc.runningJob] using hfin)
    · cases ht
  · cases ht

/-- With no worker in its loop, the shelf is the one in the shared state. -/
theorem liveShelf_of_not_running (h : TaskInvariant t) (hnot : t.shared.state ≠ .running) :
    t.liveShelf = t.shared.shelf.getD default := by
  cases hc : t.current with
  | none => simp [liveShelf, hc]
  | some w =>
    have hx : w.pc.isExited = true := by
      by_contra hx
      exact hnot (h.state_running hc (by simpa using hx))
    have hhold : w.pc.holdsShelf = false := by
      cases hpc : w.pc <;> simp_all [Pc.isExited, Pc.holdsShelf]
    simp [liveShelf_of_current hc, hhold]

theorem runningJob_of_not_running (h : TaskInvariant t) (hnot : t.shared.state ≠ .running) :
    t.runningJob = none := by
  cases hc : t.current with
  | none => simp [runningJob, hc]
  | some w =>
    have hx : w.pc.isExited = true := by
      by_contra hx
      exact hnot (h.state_running hc (by simpa using hx))
    cases hpc : w.pc <;> simp_all [Pc.isExited, runningJob_of_current hc, Pc.runningJob]

/-- `queue` after it has put the job at the back of its queue: it keeps the running worker, or
spawns one after joining the last, which has left its loop. -/
theorem queue_of_pushed (h : TaskInvariant t) {sh : AsyncTaskState σ} {job : Job σ}
    (hq : (if t.shared.state ≠ .running then
        AsyncTask.spawnThread { t with shared := sh, queued := t.queued ++ [job] }
      else some { t with shared := sh, queued := t.queued ++ [job] }) = some t')
    (hthread : sh.thread = t.shared.thread) (hstate : sh.state = t.shared.state)
    (hshelf : sh.shelf = t.shared.shelf)
    (hhi : t.started.filter (·.hiPrio) ++ sh.hiPrioReq = (t.queued ++ [job]).filter (·.hiPrio))
    (hlo : t.started.filter (!·.hiPrio) ++ sh.loPrioReq = (t.queued ++ [job]).filter (!·.hiPrio))
    (hseq : job.seq = t.queued.length) :
    TaskInvariant t' := by
  have hseqs : (t.queued ++ [job]).map (·.seq) = List.range (t.queued ++ [job]).length := by
    simp [List.range_succ, h.seqs, hseq]
  split at hq
  · rename_i hnot
    unfold spawnThread at hq
    split at hq
    · cases hq
      have hc : AsyncTask.current { t with
          threads := t.threads ++ [⟨.start, default⟩]
          shared := { sh with thread := some t.threads.length, state := .running }
          queued := t.queued ++ [job] } = some ⟨.start, default⟩ := by
        simp [current]
      refine ⟨?_, ?_, ?_, fun _ => rfl, ?_, hhi, hlo, hseqs, ?_⟩
      · intro j hj
        cases hj
        simp
      · -- Every earlier thread has left its loop; the one the handle named did when it exited.
        intro j w hw hj
        have hjl : j < t.threads.length := by
          rcases Nat.lt_or_ge j t.threads.length with hjl | hjl
          · exact hjl
          · rw [List.getElem?_append_right hjl] at hw
            have : j - t.threads.length = 0 := by
              by_contra hne'
              simp [List.getElem?_eq_none (by simp; omega : [(⟨.start, default⟩ : Worker σ)].length ≤ j - t.threads.length)] at hw
            exact absurd (by omega : j = t.threads.length) (fun e => hj (by rw [e]))
        rw [List.getElem?_append_left hjl] at hw
        by_cases hcur : t.shared.thread = some j
        · by_contra hx
          exact hnot (h.state_running (by rw [current_of_thread hcur, hw]) (by simpa using hx))
        · exact h.joined j w hw hcur
      · simp [hc, Pc.isExited]
      · rw [liveShelf_of_current hc]
        simpa [Pc.holdsShelf, hshelf, ← h.liveShelf_of_not_running hnot] using h.shelf
      · rw [runningJob_of_current hc]
        simpa [h.runningJob_of_not_running hnot, Pc.runningJob] using h.finished
    · cases hq
  · rename_i hrun
    cases hq
    have hcur : AsyncTask.current { t with shared := sh, queued := t.queued ++ [job] } =
        t.current := by
      simp [current, hthread]
    refine ⟨?_, ?_, ?_, fun _ => by simpa [hstate] using hrun, ?_, hhi, hlo, hseqs, ?_⟩
    · simpa [hthread] using h.threadLt
    · simpa [hthread] using h.joined
    · rw [hcur]
      simpa [hstate] using h.running
    · simpa [liveShelf, hcur, hshelf] using h.shelf
    · simpa [runningJob, hcur] using h.finished

theorem queue (h : TaskInvariant t) {f : σ → σ} {hiPrio : Bool}
    (hq : t.queue f hiPrio = some t') : TaskInvariant t' := by
  simp only [AsyncTask.queue] at hq
  cases hiPrio
  · simp only [Bool.false_eq_true, ↓reduceIte] at hq
    refine h.queue_of_pushed hq rfl rfl rfl ?_ ?_ rfl
    · simp [List.filter_append, ← h.hiFifo]
    · simp [List.filter_append, ← h.loFifo]
  · simp only [↓reduceIte] at hq
    refine h.queue_of_pushed hq rfl rfl rfl ?_ ?_ rfl
    · simp [List.filter_append, ← h.hiFifo]
    · simp [List.filter_append, ← h.loFifo]

theorem step (h : TaskInvariant t) {a : Transition σ} (ha : t.step a = some t') :
    TaskInvariant t' := by
  cases a with
  | queue f hiPrio => exact h.queue ha
  | addIdle f =>
    cases ha
    exact ⟨h.threadLt, h.joined, h.running, h.wakeup, h.shelf, h.hiFifo, h.loFifo, h.seqs,
      h.finished⟩
  | run i => exact h.run ha
  | timeout i => exact h.timeout ha

end TaskInvariant

theorem AsyncTask.Reachable.invariant {t : AsyncTask σ} (h : t.Reachable) : TaskInvariant t :=
  Lib.Reachable.invariant TaskInvariant.new (fun _ _ _ hs ha => hs.step ha) h

section Frame

/-! What each transition does to the ghost record of jobs. -/

variable {t t' : AsyncTask σ} {i : Nat}

omit [Inhabited σ] in
theorem AsyncTask.takeJob_ghost {shelf : σ} (h : t.takeJob i shelf = some t') :
    ∃ job sh, t.shared.popJob = some (job, sh) ∧ t'.started = t.started ++ [job] ∧
      t'.queued = t.queued ∧ t'.finished = t.finished := by
  obtain ⟨⟨job, sh⟩, hpop, rfl⟩ := Option.map_eq_some_iff.mp h
  exact ⟨job, sh, hpop, rfl, rfl, rfl⟩

/-- A worker's step queues nothing, finishes at most the job it ran, and starts at most the job
the match pops. -/
theorem AsyncTask.run_ghost (h : t.run i = some t') :
    t'.queued = t.queued ∧ t.finished <+: t'.finished ∧
      (t'.started = t.started ∨
        ∃ job sh, t.shared.popJob = some (job, sh) ∧ t'.started = t.started ++ [job]) := by
  unfold AsyncTask.run at h
  split at h
  · cases h
  · rename_i pc shelf hw
    cases pc with
    | loop doneIdle =>
      simp only at h
      split at h
      · cases h
        exact ⟨rfl, List.prefix_refl _, .inl rfl⟩
      · split at h
        · rename_i ht
          cases h
          obtain ⟨job, sh, hpop, hs, hq, hf⟩ := takeJob_ghost ht
          exact ⟨hq, hf ▸ List.prefix_refl _, .inr ⟨job, sh, hpop, hs⟩⟩
        · cases h
          exact ⟨rfl, List.prefix_refl _, .inl rfl⟩
    | waiting =>
      obtain ⟨job, sh, hpop, hs, hq, hf⟩ := takeJob_ghost h
      exact ⟨hq, hf ▸ List.prefix_refl _, .inr ⟨job, sh, hpop, hs⟩⟩
    | queuedFn job =>
      cases h
      exact ⟨rfl, List.prefix_append _ _, .inl rfl⟩
    | idleFns fns =>
      cases fns <;> cases h <;> exact ⟨rfl, List.prefix_refl _, .inl rfl⟩
    | start =>
      cases h
      exact ⟨rfl, List.prefix_refl _, .inl rfl⟩
    | exited => cases h

theorem AsyncTask.queue_started {f : σ → σ} {hiPrio : Bool} (h : t.queue f hiPrio = some t') :
    t'.started = t.started := by
  simp only [AsyncTask.queue, spawnThread] at h
  split_ifs at h <;> simp only [Option.some.injEq] at h <;> subst h <;> rfl

/-- Only a worker that pops a job starts one. -/
theorem AsyncTask.step_started {a : Transition σ} (h : t.step a = some t') :
    t'.started = t.started ∨
      ∃ job sh, t.shared.popJob = some (job, sh) ∧ t'.started = t.started ++ [job] := by
  cases a with
  | queue f hiPrio => exact .inl (queue_started h)
  | addIdle f =>
    cases h
    exact .inl rfl
  | run i => exact (run_ghost h).2.2
  | timeout i =>
    change t.timeout i = some t' at h
    unfold AsyncTask.timeout at h
    split at h
    · split at h
      · cases h
        exact .inl rfl
      · cases h
    · cases h

end Frame

namespace TaskInvariant

variable {t t' : AsyncTask σ} {i : Nat} {w : Worker σ}

theorem queued_nodup (h : TaskInvariant t) : t.queued.Nodup :=
  List.Nodup.of_map (·.seq) (h.seqs ▸ List.nodup_range)

theorem mem_queued_of_mem_started (h : TaskInvariant t) {job : Job σ} (hj : job ∈ t.started) :
    job ∈ t.queued := by
  cases hp : job.hiPrio
  · have : job ∈ t.queued.filter (!·.hiPrio) :=
      h.loFifo ▸ List.mem_append_left _ (List.mem_filter.mpr ⟨hj, by simp [hp]⟩)
    exact (List.mem_filter.mp this).1
  · have : job ∈ t.queued.filter (·.hiPrio) :=
      h.hiFifo ▸ List.mem_append_left _ (List.mem_filter.mpr ⟨hj, hp⟩)
    exact (List.mem_filter.mp this).1

/-- No job starts twice: the jobs started of each queue are a prefix of the jobs queued there,
and the two queues share no job. -/
theorem started_nodup (h : TaskInvariant t) : t.started.Nodup := by
  have hq := h.queued_nodup
  have hhi : (t.started.filter (·.hiPrio)).Nodup :=
    ((hq.filter _).sublist (h.hiFifo ▸ List.sublist_append_left _ _ :
      (t.started.filter (·.hiPrio)).Sublist (t.queued.filter (·.hiPrio))))
  have hlo : (t.started.filter (!·.hiPrio)).Nodup :=
    ((hq.filter _).sublist (h.loFifo ▸ List.sublist_append_left _ _ :
      (t.started.filter (!·.hiPrio)).Sublist (t.queued.filter (!·.hiPrio))))
  refine (List.filter_append_perm (·.hiPrio) t.started).nodup_iff.mp ?_
  refine List.nodup_append.mpr ⟨hhi, hlo, ?_⟩
  intro a ha b hb hab
  subst hab
  simp_all

theorem seq_injective (h : TaskInvariant t) {j k : Job σ} (hj : j ∈ t.queued) (hk : k ∈ t.queued)
    (hseq : j.seq = k.seq) : j = k :=
  List.inj_on_of_nodup_map (h.seqs ▸ List.nodup_range) hj hk hseq

/-- A job is, at any time, still queued or started. -/
theorem mem_of_mem_queued (h : TaskInvariant t) {job : Job σ} (hj : job ∈ t.queued) :
    job ∈ t.shared.hiPrioReq ∨ job ∈ t.shared.loPrioReq ∨ job ∈ t.started := by
  cases hp : job.hiPrio
  · have : job ∈ t.started.filter (!·.hiPrio) ++ t.shared.loPrioReq :=
      h.loFifo ▸ List.mem_filter.mpr ⟨hj, by simp [hp]⟩
    rcases List.mem_append.mp this with hs | hl
    · exact .inr (.inr (List.mem_filter.mp hs).1)
    · exact .inr (.inl hl)
  · have : job ∈ t.started.filter (·.hiPrio) ++ t.shared.hiPrioReq :=
      h.hiFifo ▸ List.mem_filter.mpr ⟨hj, hp⟩
    rcases List.mem_append.mp this with hs | hl
    · exact .inr (.inr (List.mem_filter.mp hs).1)
    · exact .inl hl

/-- While the flag is not `Running`, the thread the handle names has left its loop, so the join
in `spawn_thread` returns. -/
theorem joinable (h : TaskInvariant t) (hnot : t.shared.state ≠ .running) :
    t.shared.thread.all (fun i => (t.threads[i]?).all (·.pc.isExited)) = true := by
  cases hi : t.shared.thread with
  | none => rfl
  | some i =>
    cases hw : t.threads[i]? with
    | none => simp [hw]
    | some w =>
      have hc : t.current = some w := by rw [current_of_thread hi, hw]
      by_contra hx
      exact hnot (h.state_running hc (by simpa [hw] using hx))

/-- `queue` never blocks. -/
theorem queue_isSome (h : TaskInvariant t) (f : σ → σ) (hiPrio : Bool) :
    (t.queue f hiPrio).isSome := by
  by_cases hrun : t.shared.state = .running
  · cases hiPrio <;> simp [AsyncTask.queue, hrun]
  · cases hiPrio <;> simp [AsyncTask.queue, hrun, spawnThread, h.joinable hrun]

end TaskInvariant

section Liveness

variable {t t' : AsyncTask σ} {i : Nat} {w : Worker σ}

omit [Inhabited σ] in
theorem AsyncTask.measure_of_current (hc : t.current = some w) :
    t.measure = 3 * t.pending + w.pc.rank := by
  simp [measure, hc]

omit [Inhabited σ] in
/-- The measure after a step of worker `i`: its queues and where the worker now is. -/
theorem AsyncTask.measure_setThread {sh : AsyncTaskState σ} {w' : Worker σ}
    {queued started finished : List (Job σ)} {history : List (σ → σ)}
    (hlt : i < t.threads.length) (hthread : sh.thread = some i) :
    (AsyncTask.mk sh (t.threads.set i w') queued started finished history).measure =
      3 * (sh.hiPrioReq.length + sh.loPrioReq.length) + w'.pc.rank := by
  simp [measure, current, pending, hthread, hlt]

omit [Inhabited σ] in
/-- With a job queued, worker `i` takes one, for one step of the measure per job less. -/
theorem AsyncTask.takeJob_of_pending (hi : t.shared.thread = some i) (hlt : i < t.threads.length)
    (hp : 0 < t.pending) (shelf : σ) :
    ∃ t', t.takeJob i shelf = some t' ∧ t'.measure + 1 = 3 * t.pending := by
  cases hpop : t.shared.popJob with
  | none =>
    obtain ⟨hhi, hlo⟩ := AsyncTaskState.popJob_eq_none.mp hpop
    simp [pending, hhi, hlo] at hp
  | some r =>
    obtain ⟨job, sh⟩ := r
    obtain ⟨hq, -, hthread, -⟩ := AsyncTaskState.popJob_eq_some hpop
    refine ⟨_, by simp [takeJob, hpop]; rfl, ?_⟩
    rw [measure_setThread hlt (hthread.trans hi)]
    rcases hq with ⟨hhi, hlo⟩ | ⟨hhi, hhi', hlo⟩
    · simp [pending, hhi, hlo, Pc.rank]
      omega
    · simp [pending, hhi, hhi', hlo, Pc.rank]
      omega

/-- A worker that has a job to take or to finish can step, and its step lowers the measure. -/
theorem TaskInvariant.progress (h : TaskInvariant t) (hbusy : 0 < t.pending ∨ t.runningJob.isSome) :
    ∃ t', t.shared.thread.bind t.run = some t' ∧ t'.measure < t.measure := by
  -- The current worker is in its loop: a job is queued, or it is running one.
  obtain ⟨w, hc, hx⟩ : ∃ w, t.current = some w ∧ w.pc.isExited = false := by
    rcases hbusy with hp | hr
    · refine h.running.mp (h.wakeup ?_)
      by_contra hne
      simp only [ne_eq, not_or, not_not] at hne
      simp [pending, hne.1, hne.2] at hp
    · cases hc : t.current with
      | none => simp [runningJob, hc] at hr
      | some w =>
        refine ⟨w, rfl, ?_⟩
        cases hpc : w.pc <;> simp_all [runningJob, Pc.runningJob, Pc.isExited]
  obtain ⟨i, hi⟩ : ∃ i, t.shared.thread = some i := by
    cases hi : t.shared.thread with
    | none => simp [current, hi] at hc
    | some i => exact ⟨i, rfl⟩
  have hw : t.threads[i]? = some w := by rw [← current_of_thread hi, hc]
  have hlt := h.threadLt i hi
  have hm := measure_of_current hc
  simp only [hi, Option.bind_some]
  obtain ⟨pc, shelf⟩ := w
  -- Unless it is running a job, a job is queued.
  have hp : pc.runningJob = none → 0 < t.pending := by
    intro hr
    rcases hbusy with hp | hb
    · exact hp
    · simp [runningJob_of_current hc, hr] at hb
  have hnonempty : 0 < t.pending →
      ¬(t.shared.hiPrioReq.isEmpty && t.shared.loPrioReq.isEmpty) = true := by
    intro hp' hempty
    simp only [Bool.and_eq_true, List.isEmpty_iff] at hempty
    simp [pending, hempty.1, hempty.2] at hp'
  cases pc with
  | start =>
    refine ⟨_, by simp [AsyncTask.run, hw]; rfl, ?_⟩
    -- Taking the shelf leaves the handle as it is.
    rw [measure_setThread hlt, hm]
    · simp [pending, Pc.rank]
    · exact hi
  | loop doneIdle =>
    obtain ⟨t', ht', hm'⟩ := takeJob_of_pending hi hlt (hp rfl) shelf
    have hskip : ¬(!doneIdle && t.shared.hiPrioReq.isEmpty && t.shared.loPrioReq.isEmpty) = true := by
      have := hnonempty (hp rfl)
      simp_all
    refine ⟨t', by simp only [AsyncTask.run, hw, hskip, ht', Bool.false_eq_true, ↓reduceIte], ?_⟩
    rw [hm]
    simp only [Pc.rank]
    omega
  | waiting =>
    obtain ⟨t', ht', hm'⟩ := takeJob_of_pending hi hlt (hp rfl) shelf
    refine ⟨t', by simp only [AsyncTask.run, hw, ht'], ?_⟩
    rw [hm]
    simp only [Pc.rank]
    omega
  | queuedFn job =>
    refine ⟨_, by simp [AsyncTask.run, hw]; rfl, ?_⟩
    rw [measure_setThread hlt hi, hm]
    simp [pending, Pc.rank]
  | idleFns fns =>
    cases fns with
    | nil =>
      refine ⟨_, by simp [AsyncTask.run, hw, setThread]; rfl, ?_⟩
      rw [measure_setThread hlt hi, hm]
      simp [pending, Pc.rank]
    | cons f fns =>
      refine ⟨_, by simp [AsyncTask.run, hw]; rfl, ?_⟩
      rw [measure_setThread hlt hi, hm]
      simp [pending, Pc.rank]
  | exited => cases hx

/-- With no other thread acting, the current worker finishes every job queued within `measure`
of its steps: no job stays queued forever. -/
theorem TaskInvariant.drain (h : TaskInvariant t) :
    ∀ job ∈ t.queued, job ∈ (t.drain t.measure).finished := by
  let f : AsyncTask σ → Option (AsyncTask σ) := fun t => t.shared.thread.bind t.run
  let inv : AsyncTask σ → Prop := fun t' => TaskInvariant t' ∧ t'.queued = t.queued
  let goal : AsyncTask σ → Prop := fun t' => ∀ job ∈ t.queued, job ∈ t'.finished
  have hrun : ∀ s s', f s = some s' → ∃ i, s.run i = some s' := by
    intro s s' hs
    obtain ⟨i, -, hi⟩ := Option.bind_eq_some_iff.mp hs
    exact ⟨i, hi⟩
  have hinv : ∀ s s', inv s → f s = some s' → inv s' := by
    intro s s' hs hss
    obtain ⟨i, hi⟩ := hrun s s' hss
    exact ⟨hs.1.run hi, (run_ghost hi).1.trans hs.2⟩
  have hstay : ∀ s s', inv s → goal s → f s = some s' → goal s' := by
    intro s s' _ hg hss job hj
    obtain ⟨i, hi⟩ := hrun s s' hss
    exact (run_ghost hi).2.1.subset (hg job hj)
  have hprogress : ∀ s, inv s → ¬goal s → ∃ s', f s = some s' ∧ s'.measure < s.measure := by
    intro s ⟨hs, hq⟩ hg
    apply hs.progress
    -- A job queued and not finished is in a queue, or it is the one running.
    simp only [goal, not_forall] at hg
    obtain ⟨job, hj, hnot⟩ := hg
    rcases hs.mem_of_mem_queued (hq ▸ hj) with hhi | hlo | hst
    · have := List.length_pos_of_mem hhi
      exact .inl (by simp only [pending]; omega)
    · have := List.length_pos_of_mem hlo
      exact .inl (by simp only [pending]; omega)
    · rw [hs.finished] at hst
      rcases List.mem_append.mp hst with hf | hr
      · exact absurd hf hnot
      · exact .inr (Option.isSome_iff_exists.mpr ⟨job, by simpa using hr⟩)
  exact @Lib.iterateSome_goal _ f inv goal AsyncTask.measure hinv hstay hprogress t.measure t
    ⟨h, rfl⟩ le_rfl

/-- A job started by a step came off the high priority queue, or off the low priority queue
with the high priority queue empty. -/
theorem TaskInvariant.hiPrioReq_eq_nil_of_started (h : TaskInvariant t) {a : Transition σ}
    {job : Job σ} (ha : t.step a = some t') (hs : t'.started = t.started ++ [job])
    (hlo : job.hiPrio = false) : t.shared.hiPrioReq = [] := by
  rcases step_started ha with he | ⟨job', sh, hpop, hs'⟩
  · rw [he] at hs
    simpa using congrArg List.length hs
  · have hj : job' = job := by
      rw [hs] at hs'
      simpa using hs'.symm
    subst hj
    rcases (AsyncTaskState.popJob_eq_some hpop).1 with ⟨hhi, -⟩ | ⟨hhi, -, -⟩
    · have := h.hiPrio_of_mem (hhi ▸ List.mem_cons_self)
      simp [hlo] at this
    · exact hhi

/-- Two threads in their loops are one: the others have been joined. -/
theorem TaskInvariant.eq_of_not_exited (h : TaskInvariant t) {i j : Nat} {wi wj : Worker σ}
    (hi : t.threads[i]? = some wi) (hj : t.threads[j]? = some wj)
    (hxi : wi.pc.isExited = false) (hxj : wj.pc.isExited = false) : i = j := by
  have hti : t.shared.thread = some i := by
    by_contra hne
    simp [h.joined i wi hi hne] at hxi
  have htj : t.shared.thread = some j := by
    by_contra hne
    simp [h.joined j wj hj hne] at hxj
  exact Option.some.inj (hti.symm.trans htj)

/-- What a schedule of `queue_hi`, `queue_lo`, `add_idle`, worker steps and timeouts keeps:
(a) the jobs started are the jobs queued, each at most once, and every one of them but the one
running has finished; (b) one thread at a time is in its loop, and the shelf the next closure
gets is what all closures so far made of it, through exits and respawns; (c) each queue starts
its jobs in the order queued, and a low priority job only with the high priority queue empty;
(d) with a job queued a worker is in its loop, a call to queue returns, and the current worker
alone finishes every job queued. -/
structure TaskGuarantees (t : AsyncTask σ) : Prop where
  startedOnce : t.started.Nodup
  notLost : ∀ job ∈ t.queued,
    job ∈ t.shared.hiPrioReq ∨ job ∈ t.shared.loPrioReq ∨ job ∈ t.started
  startedQueued : ∀ job ∈ t.started, job ∈ t.queued
  finishedStarted : t.started = t.finished ++ t.runningJob.toList
  oneWorker : ∀ (i j : Nat) (wi wj : Worker σ), t.threads[i]? = some wi → t.threads[j]? = some wj →
    wi.pc.isExited = false → wj.pc.isExited = false → i = j
  sameShelf : t.liveShelf = replay t.history
  hiOrder : t.started.filter (·.hiPrio) <+: t.queued.filter (·.hiPrio)
  loOrder : t.started.filter (!·.hiPrio) <+: t.queued.filter (!·.hiPrio)
  loWhenHiEmpty : ∀ a t' job, t.step a = some t' → t'.started = t.started ++ [job] →
    job.hiPrio = false → t.shared.hiPrioReq = []
  wakeup : t.shared.hiPrioReq ≠ [] ∨ t.shared.loPrioReq ≠ [] →
    ∃ w, t.current = some w ∧ w.pc.isExited = false
  queueReturns : ∀ f hiPrio, (t.queue f hiPrio).isSome
  drains : ∀ job ∈ t.queued, job ∈ (t.drain t.measure).finished

theorem TaskInvariant.guarantees (h : TaskInvariant t) : TaskGuarantees t where
  startedOnce := h.started_nodup
  notLost _ hj := h.mem_of_mem_queued hj
  startedQueued _ hj := h.mem_queued_of_mem_started hj
  finishedStarted := h.finished
  oneWorker _ _ _ _ hi hj hxi hxj := h.eq_of_not_exited hi hj hxi hxj
  sameShelf := h.shelf
  hiOrder := h.hiFifo ▸ List.prefix_append _ _
  loOrder := h.loFifo ▸ List.prefix_append _ _
  loWhenHiEmpty _ _ _ ha hs hlo := h.hiPrioReq_eq_nil_of_started ha hs hlo
  wakeup hq := h.running.mp (h.wakeup hq)
  queueReturns := h.queue_isSome
  drains := h.drain

end Liveness

end Keystore2.Async
