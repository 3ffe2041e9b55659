import Nrpc.WorkerPool.Serial
/-!
# What becomes of tasks, and the wait group that counts them

A task is submitted, started and finished; each of the three can be seen
at one action. In between it is in the hands of its caller, in a channel,
or in the hands of a goroutine. A queue's wait group goes up just before
the send and down after the task has returned. With one caller it counts
the tasks in the queue and the one being sent (`counted_moves`), whatever
the cleaner and `Stop` do.
-/

namespace Nrpc

namespace WorkerPool

variable {cfg : Config} {s s' : State} {a : Action} {i q : ℕ} {t : Task} {now : ℤ}

/-! ## What is seen of a run -/

/-- The task a caller of `Submit` has in hand. -/
def SubmitPc.task? : SubmitPc → Option Task
  | .idle => none
  | .loading t | .creating t | .storing t _ | .locking t _ | .touching t _ | .adding t _
  | .sending t _ => some t

/-- The queue a caller is sending to. -/
def SubmitPc.sending? : SubmitPc → Option ℕ
  | .sending _ q => some q
  | _ => none

/-- The tasks passed to `Submit` by an action. -/
def submitted (_ : State) : Action → List Task
  | .submit _ t => [t]
  | _ => []

/-- The tasks whose function an action enters: received from the channel,
or handed over by a send on a channel without a buffer. -/
def started (cfg : Config) (s : State) : Action → List Task
  | .worker q _ =>
    match (s.heap q).worker, (s.heap q).taskChan with
    | .receiving, t :: _ => [t]
    | _, _ => []
  | .submitter i _ =>
    match s.submitter i with
    | .sending t q =>
      if (s.heap q).closed = false ∧ cfg.queueSize = 0 ∧ (s.heap q).worker = .receiving then [t]
      else []
    | _ => []
  | _ => []

/-- The tasks whose function has returned. -/
def finished (s : State) : Action → List Task
  | .worker q _ =>
    match (s.heap q).worker with
    | .running t => [t]
    | _ => []
  | _ => []

/-! ## One caller -/

/-- `Submit` is called by caller 0. -/
def Action.FromOne : Action → Prop
  | .submit i _ => i = 0
  | _ => True

instance (a : Action) : Decidable a.FromOne :=
  match a with
  | .submit i _ => inferInstanceAs (Decidable (i = 0))
  | .submitter .. | .worker .. | .start | .cleaner _ | .cleanerVisit _ | .cleanerQuit | .stop
  | .stopper | .stopVisit _ => isTrue trivial

/-- Nobody but caller 0 is in `Submit`. -/
def State.OneCaller (s : State) : Prop := ∀ i, i ≠ 0 → s.submitter i = .idle

/-- A caller that takes a step is in `Submit`. -/
theorem submitter_ne_idle (h : Moves cfg s (.submitter i now) s') : s.submitter i ≠ .idle := by
  intro hidle
  cases h with
  | loadHit hpc | loadMiss hpc | create hpc | store hpc | lock hpc | touch hpc | add hpc
  | sendClosed hpc | sendBuffer hpc | sendDirect hpc =>
    rw [hidle] at hpc
    cases hpc

/-- Only the one caller moves. -/
theorem State.OneCaller.eq_zero (hs : s.OneCaller) (hi : s.submitter i ≠ .idle) : i = 0 := by
  by_contra hne
  exact hi (hs i hne)

theorem oneCaller_moves (hs : s.OneCaller) (ha : a.FromOne) (h : Moves cfg s a s') :
    s'.OneCaller := by
  intro j hj
  have hidle := hs j hj
  cases a with
  | submit i t =>
    obtain rfl : i = 0 := ha
    cases h with
    | enter => simpa [State.goto, hj] using hidle
  | submitter i now =>
    obtain rfl := hs.eq_zero (submitter_ne_idle h)
    cases h with
    | loadHit | loadMiss | store => simpa [State.goto, hj] using hidle
    | create | lock | touch | add | sendBuffer | sendDirect =>
      simpa [State.goto, State.put, hj] using hidle
    | sendClosed => exact hidle
  | worker | start | cleaner | cleanerVisit | cleanerQuit | stop | stopper | stopVisit =>
    cases h <;> exact hidle

/-! ## Changes to one queue -/

theorem heap_put {w : WorkerQueue} {r : ℕ} :
    (s.put q w).heap r = if r = q then w else s.heap r := by
  by_cases hrq : r = q
  · subst hrq
    simp [State.put]
  · simp [State.put, hrq]

/-- **What holds of every queue after one was changed**: it holds of the
changed one, and it held of the others. -/
theorem forall_heap_put {w : WorkerQueue} {P : ℕ → WorkerQueue → Prop} (hq : P q w)
    (hother : ∀ r, r ≠ q → P r (s.heap r)) (r : ℕ) : P r ((s.put q w).heap r) := by
  rw [heap_put]
  split
  · rename_i hrq
    exact hrq ▸ hq
  · rename_i hrq
    exact hother r hrq

/-! ## The wait group -/

/-- The tasks on their way into a queue that its wait group counts. -/
def State.inbound (s : State) (q : ℕ) : ℕ := if (s.submitter 0).sending? = some q then 1 else 0

/-- **The wait group counts** the tasks in the queue and the one being
sent. -/
def Counted (s : State) : Prop :=
  ∀ q, (s.heap q).wg = (s.heap q).tasks.length + s.inbound q

theorem counted_init : Counted .init := fun _ => rfl

/-- A queue with no task counted has none. -/
theorem Counted.tasks_eq_nil (hs : Counted s) (hwg : (s.heap q).wg = 0) :
    (s.heap q).tasks = [] := by
  have h := hs q
  exact List.eq_nil_of_length_eq_zero (by omega)

/-- A change to a queue that keeps its account. -/
theorem Counted.put {w : WorkerQueue} (hs : Counted s)
    (hwg : w.wg + (s.heap q).tasks.length = (s.heap q).wg + w.tasks.length) :
    Counted (s.put q w) := by
  refine forall_heap_put (P := fun r w => w.wg = w.tasks.length + s.inbound r) ?_ (fun r _ => hs r)
  have hq := hs q
  omega

/-- A change to a queue that leaves its tasks and its count alone. -/
theorem Counted.hand {w : WorkerQueue} (hs : Counted s) (htasks : w.tasks = (s.heap q).tasks)
    (hwg : w.wg = (s.heap q).wg) : Counted (s.put q w) :=
  hs.put (by rw [htasks, hwg])

/-- The caller moves on, and is not at its send before or after. -/
theorem Counted.goto {pc : SubmitPc} (hs : Counted s)
    (hsend : pc.sending? = (s.submitter 0).sending?) : Counted (s.goto 0 pc) := by
  intro q
  have hin : (s.goto 0 pc).inbound q = s.inbound q := by simp [State.inbound, State.goto, hsend]
  rw [hin]
  exact hs q

/-- **The caller counts or hands over its task.** -/
theorem Counted.goto_put {pc : SubmitPc} {w : WorkerQueue} (hs : Counted s)
    (hwg : w.wg = w.tasks.length + if pc.sending? = some q then 1 else 0)
    (hother : ∀ r, r ≠ q → (pc.sending? = some r ↔ (s.submitter 0).sending? = some r)) :
    Counted ((s.goto 0 pc).put q w) := by
  have hin : ∀ r, ((s.goto 0 pc).put q w).inbound r =
      if pc.sending? = some r then 1 else 0 := by
    intro r
    simp [State.inbound, State.goto, State.put]
  intro r
  rw [hin]
  refine forall_heap_put (P := fun r w => w.wg = w.tasks.length +
    if pc.sending? = some r then 1 else 0) hwg ?_ r
  intro r hrq
  have hr : (s.heap r).wg = (s.heap r).tasks.length + s.inbound r := hs r
  show (s.heap r).wg = (s.heap r).tasks.length + if pc.sending? = some r then 1 else 0
  simpa only [State.inbound, hother r hrq] using hr

/-- The task the caller has counted is not in the queue yet. -/
theorem Counted.adding (hs : Counted s) (hpc : s.submitter 0 = .adding t q) :
    (s.heap q).wg + 1 = (s.heap q).tasks.length +
      if (SubmitPc.sending t q).sending? = some q then 1 else 0 := by
  have hq := hs q
  have hin : s.inbound q = 0 := by simp [State.inbound, hpc, SubmitPc.sending?]
  simp only [SubmitPc.sending?, if_true]
  omega

/-- The task the caller has sent is in the queue. -/
theorem Counted.sending {w : WorkerQueue} (hs : Counted s) (hpc : s.submitter 0 = .sending t q)
    (hwg : w.wg = (s.heap q).wg) (htasks : w.tasks.length = (s.heap q).tasks.length + 1) :
    w.wg = w.tasks.length + if SubmitPc.idle.sending? = some q then 1 else 0 := by
  have hq := hs q
  have hin : s.inbound q = 1 := by simp [State.inbound, hpc, SubmitPc.sending?]
  simp only [SubmitPc.sending?, reduceCtorEq, if_false]
  omega

theorem length_tasks_buffer :
    ({ s.heap q with taskChan := (s.heap q).taskChan ++ [t] } : WorkerQueue).tasks.length =
      (s.heap q).tasks.length + 1 := by
  simp only [WorkerQueue.tasks, List.length_append, List.length_singleton]
  omega

theorem length_tasks_direct (hworker : (s.heap q).worker = .receiving) :
    ({ s.heap q with worker := .running t } : WorkerQueue).tasks.length =
      (s.heap q).tasks.length + 1 := by
  simp only [WorkerQueue.tasks, hworker, WorkerPc.task?, Option.toList_some, Option.toList_none,
    List.nil_append, List.length_append, List.length_singleton]
  omega

/-- `wg.Done` lets go of the task in hand. -/
theorem length_tasks_done (hworker : (s.heap q).worker = .finishing t) :
    (s.heap q).tasks.length =
      ({ s.heap q with wg := (s.heap q).wg - 1, worker := .receiving } :
        WorkerQueue).tasks.length + 1 := by
  simp only [WorkerQueue.tasks, hworker, WorkerPc.task?, Option.toList_some, Option.toList_none,
    List.nil_append, List.length_append, List.length_singleton]
  omega

/-- A step of the caller. -/
theorem counted_submitter (hone : s.OneCaller) (hs : Counted s)
    (h : Moves cfg s (.submitter i now) s') : Counted s' := by
  obtain rfl := hone.eq_zero (submitter_ne_idle h)
  cases h with
  | loadHit hpc | loadMiss hpc => exact hs.goto (by rw [hpc]; rfl)
  | @create _ _ t hpc =>
    have hgoto : Counted (s.goto 0 (.storing t s.next)) := hs.goto (by rw [hpc]; rfl)
    have hnext := hgoto s.next
    have hin : (s.goto 0 (.storing t s.next)).inbound s.next = 0 := by
      simp [State.inbound, State.goto, SubmitPc.sending?]
    refine hgoto.put ?_
    show 0 + _ = _ + 0
    omega
  | @store _ _ t q hpc =>
    have hgoto : Counted (s.goto 0 (.locking t q)) := hs.goto (by rw [hpc]; rfl)
    exact hgoto
  | @lock _ _ t q hpc | @touch _ _ t q hpc =>
    exact Counted.hand (hs.goto (by rw [hpc]; rfl)) rfl rfl
  | add hpc =>
    refine hs.goto_put (hs.adding hpc) ?_
    intro r hr
    simp [hpc, SubmitPc.sending?, Ne.symm hr]
  | sendClosed => exact hs
  | sendBuffer hpc =>
    refine hs.goto_put (hs.sending hpc rfl length_tasks_buffer) ?_
    intro r hr
    simp [hpc, SubmitPc.sending?, Ne.symm hr]
  | sendDirect hpc _ _ hworker =>
    refine hs.goto_put (hs.sending hpc rfl (length_tasks_direct hworker)) ?_
    intro r hr
    simp [hpc, SubmitPc.sending?, Ne.symm hr]

/-- **With one caller, every step keeps the wait groups right.** -/
theorem counted_moves (hone : s.OneCaller) (ha : a.FromOne) (hs : Counted s)
    (h : Moves cfg s a s') : Counted s' := by
  cases a with
  | submit i t =>
    obtain rfl : i = 0 := ha
    cases h with
    | enter hpc => exact hs.goto (by rw [hpc]; rfl)
  | submitter i now => exact counted_submitter hone hs h
  | worker q now =>
    cases h with
    | receive _ hworker hchan =>
      refine hs.hand ?_ rfl
      simp [WorkerQueue.tasks, hworker, hchan, WorkerPc.task?]
    | exit _ hworker | taskReturn _ hworker | workerLock _ hworker | workerTouch _ hworker =>
      refine hs.hand ?_ rfl
      simp [WorkerQueue.tasks, hworker, WorkerPc.task?]
    | doneBelowZero => exact hs
    | done _ hworker hwg =>
      have htasks := length_tasks_done hworker
      refine hs.put ?_
      show (s.heap q).wg - 1 + _ = _
      omega
  | cleaner =>
    cases h with
    | cleanerLock | close | unlock => exact hs.hand rfl rfl
    | tick | swept | idle | active | waited | closeTwice | delete => exact hs
  | stopper =>
    cases h with
    | stopClose => exact hs.hand rfl rfl
    | stopSwept | stopWaited | stopCloseTwice => exact hs
  | start | cleanerVisit | cleanerQuit | stop | stopVisit => cases h <;> exact hs

end WorkerPool

end Nrpc
