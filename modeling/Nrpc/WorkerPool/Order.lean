import Nrpc.Common.Lanes
import Nrpc.WorkerPool.Tasks
/-!
# Tasks of one share id run in the order of their submission

The pool has fewer queues than share ids, and several share ids may go
through one queue. What a caller may rely on is a lane for each share id:
its tasks wait in the order in which they were submitted and run one at a
time. `State.lanes` reads the lanes off a state of the pool: the lane of a
share id is what its queue and the caller hold of it.

With one caller and no cleaner, the lanes follow every step of the pool
(`lanes_moves`), whatever the number of queues, their capacity and the
interleaving of their goroutines. A step that moves a task from the caller
into a channel is no event of a lane at all. When `Stop`, called behind the
last `Submit`, has returned, its waits have emptied every queue
(`Halting`), so every lane is empty and every task has run
(`submitted_run_in_order`).
-/

namespace Nrpc

namespace WorkerPool

open Lane (ofKey)

variable {cfg : Config} {s s' : State} {a : Action} {i q : ℕ} {t : Task} {now : ℤ}

/-! ## The lanes of a state -/

/-- The task a goroutine is inside the function of. -/
def WorkerPc.running? : WorkerPc → Option Task
  | .running t => some t
  | _ => none

/-- The lane of a share id, from the queue its key is mapped to and the task
in the caller's hands. -/
def laneOf (u : GoString) (w : Option WorkerQueue) (hand : Option Task) : Lane Task where
  waiting := ofKey Task.shareID u (w.elim [] WorkerQueue.taskChan ++ hand.toList)
  serving := (w.bind fun w => w.worker.running?).filter fun t => t.shareID = u

/-- **The lanes**: what the pool holds of each share id. -/
def State.lanes (cfg : Config) (s : State) (u : GoString) : Lane Task :=
  laneOf u ((s.queues.get? (queueKey cfg u)).map s.heap) (s.submitter 0).task?

/-- What an action means to the lanes. -/
def laneEvents (cfg : Config) (s : State) (a : Action) : List (Lane.Event Task) :=
  Lane.events (submitted s a) (started cfg s a) (finished s a)

theorem running?_eq_none_of_tasks {w : WorkerQueue} (h : w.tasks = []) :
    w.worker.running? = none := by
  have htask : w.worker.task? = none := by simpa using (List.append_eq_nil_iff.1 h).1
  cases hpc : w.worker with
  | running => rw [hpc] at htask; cases htask
  | receiving | locking | touching | finishing | exited => rfl

/-- A queue without tasks is to a lane as no queue. -/
theorem laneOf_of_tasks {w : WorkerQueue} (h : w.tasks = []) (u : GoString) (hand : Option Task) :
    laneOf u (some w) hand = laneOf u none hand := by
  have hchan : w.taskChan = [] := (List.append_eq_nil_iff.1 h).2
  simp [laneOf, hchan, running?_eq_none_of_tasks h]

/-! ## Steps the lanes do not see -/

/-- A change to a queue is seen in the lanes whose key is mapped to it. -/
theorem lanes_put {w : WorkerQueue} (u : GoString) :
    (s.put q w).lanes cfg u =
      if s.queues.get? (queueKey cfg u) = some q then laneOf u (some w) (s.submitter 0).task?
      else s.lanes cfg u := by
  show laneOf u ((s.queues.get? (queueKey cfg u)).map (s.put q w).heap) (s.submitter 0).task? = _
  unfold State.lanes
  rcases s.queues.get? (queueKey cfg u) with _ | r
  · rfl
  · rw [Option.map_some, Option.map_some, heap_put]
    by_cases hrq : r = q
    · rw [if_pos hrq, if_pos (congrArg some hrq)]
    · rw [if_neg hrq, if_neg (fun h => hrq (Option.some.inj h))]

/-- A change to a queue outside its channel and its running task. -/
theorem lanes_put_of_eq {w : WorkerQueue} (hchan : w.taskChan = (s.heap q).taskChan)
    (hrunning : w.worker.running? = (s.heap q).worker.running?) :
    (s.put q w).lanes cfg = s.lanes cfg := by
  funext u
  rw [lanes_put]
  split
  · rename_i hkey
    simp [State.lanes, laneOf, hkey, hchan, hrunning]
  · rfl

/-- The caller moves on with its task. -/
theorem lanes_goto {pc : SubmitPc} (h : pc.task? = (s.submitter 0).task?) :
    (s.goto 0 pc).lanes cfg = s.lanes cfg := by
  funext u
  simp [State.lanes, State.goto, h]

/-! ## One caller and no cleaner -/

/-- The task of a caller whose `Load` missed and who has not stored a queue
yet. -/
def SubmitPc.missed? : SubmitPc → Option Task
  | .creating t | .storing t _ => some t
  | _ => none

/-- **What one caller keeps without the cleaner.** Nobody stores a queue
between its `Load` and its `Store`, so its `Store` finds the key absent. -/
structure Alone (cfg : Config) (s : State) : Prop where
  one : s.OneCaller
  placed : Placed cfg s
  absent : ∀ t, (s.submitter 0).missed? = some t →
    s.queues.get? (queueKey cfg t.shareID) = none
  /-- A channel without a buffer holds no task. -/
  unbuffered : cfg.queueSize = 0 → ∀ q, (s.heap q).taskChan = []

theorem alone_init (cfg : Config) : Alone cfg .init where
  one := fun _ _ => rfl
  placed := placed_init cfg
  absent := fun _ h => by simp [State.init, SubmitPc.missed?] at h
  unbuffered := fun _ _ => rfl

theorem Alone.freshStore (hs : Alone cfg s) (a : Action) : FreshStore cfg s a := by
  cases a with
  | submitter i now =>
    rintro ⟨t, q⟩ hstore
    have hstore : (s.submitter i).store? = some (t, q) := hstore
    obtain rfl : i = 0 := by
      refine hs.one.eq_zero ?_
      intro hidle
      rw [hidle] at hstore
      cases hstore
    refine hs.absent t ?_
    cases hpc : s.submitter 0 with
    | storing t' q' =>
      rw [hpc] at hstore
      obtain ⟨rfl, -⟩ : t' = t ∧ q' = q := by simpa [SubmitPc.store?] using hstore
      rfl
    | idle | loading | creating | locking | touching | adding | sending =>
      rw [hpc] at hstore
      cases hstore
  | submit | worker | start | cleaner | cleanerVisit | cleanerQuit | stop | stopper | stopVisit =>
    trivial

/-- **A caller that found its key absent finds it absent at its `Store`.** -/
theorem absent_moves (hs : Alone cfg s) (ha : a.FromOne) (h : Moves cfg s a s') :
    ∀ t, (s'.submitter 0).missed? = some t →
      s'.queues.get? (queueKey cfg t.shareID) = none := by
  intro u hu
  cases a with
  | submit i t =>
    obtain rfl : i = 0 := ha
    cases h with
    | enter => simp [State.goto, SubmitPc.missed?] at hu
  | submitter i now =>
    obtain rfl := hs.one.eq_zero (submitter_ne_idle h)
    cases h with
    | loadMiss hpc hkey =>
      obtain rfl : _ = u := by simpa [State.goto, SubmitPc.missed?] using hu
      exact hkey
    | create hpc =>
      obtain rfl : _ = u := by simpa [State.goto, State.put, SubmitPc.missed?] using hu
      exact hs.absent _ (by rw [hpc]; rfl)
    | sendClosed => exact hs.absent u hu
    | loadHit | store => simp [State.goto, SubmitPc.missed?] at hu
    | lock | touch | add | sendBuffer | sendDirect =>
      simp [State.goto, State.put, SubmitPc.missed?] at hu
  | cleaner =>
    -- a cleaner that is off deletes nothing
    exact (not_moves_cleaner hs.placed.off h).elim
  | worker | start | cleanerVisit | cleanerQuit | stop | stopper | stopVisit =>
    cases h <;> exact hs.absent u hu

/-- What is in a channel without a buffer after one queue was changed. -/
theorem unbuffered_put {w : WorkerQueue} (hs : ∀ q, (s.heap q).taskChan = [])
    (hw : w.taskChan = []) : ∀ r, ((s.put q w).heap r).taskChan = [] :=
  forall_heap_put (P := fun _ w => w.taskChan = []) hw (fun r _ => hs r)

theorem unbuffered_moves (hs : ∀ q, (s.heap q).taskChan = []) (hsize : cfg.queueSize = 0)
    (h : Moves cfg s a s') : ∀ q, (s'.heap q).taskChan = [] := by
  cases h with
  | sendBuffer _ _ hroom => omega
  | receive _ _ hchan =>
    rw [hs] at hchan
    cases hchan
  | create => exact unbuffered_put hs rfl
  | lock | touch | add | sendDirect | exit | taskReturn | workerLock | workerTouch | done
  | cleanerLock | close | unlock | stopClose => exact unbuffered_put hs (hs _)
  | enter | loadHit | loadMiss | store | sendClosed | doneBelowZero | start | startNothing | tick
  | swept | visit | idle | active | waited | closeTwice | delete | quit | stop | stopTwice
  | stopSwept | stopVisit | stopWaited | stopCloseTwice => exact hs

theorem alone_moves (hdisabled : cfg.clearInterval ≤ 0 ∨ cfg.clearTimePass ≤ 0)
    (hs : Alone cfg s) (ha : a.FromOne) (h : Moves cfg s a s') : Alone cfg s' where
  one := oneCaller_moves hs.one ha h
  placed := placed_moves hs.placed (fun _ => by omega) (hs.freshStore a) h
  absent := absent_moves hs ha h
  unbuffered := fun hsize => unbuffered_moves (hs.unbuffered hsize) hsize h

/-! ## Steps the lanes see -/

/-- The lane of a share id whose key is mapped to a queue. -/
theorem lanes_of_key {u : GoString} (hkey : s.queues.get? (queueKey cfg u) = some q) :
    s.lanes cfg u = laneOf u (some (s.heap q)) (s.submitter 0).task? := by
  rw [State.lanes, hkey]
  rfl

/-- A task enters its lane when it is submitted. -/
theorem run_put_enter (hpc : s.submitter 0 = .idle) :
    (Lane.lanes Task.shareID).run (s.lanes cfg) [.put t] =
      some ((s.goto 0 (.loading t)).lanes cfg) := by
  refine Lane.run_singleton ?_ ?_
  · simp [Lane.step, Lane.Event.item, State.lanes, laneOf, State.goto, hpc, SubmitPc.task?, ofKey]
  · intro u hu
    have hne : t.shareID ≠ u := Ne.symm hu
    simp [State.lanes, laneOf, State.goto, hpc, SubmitPc.task?, ofKey, hne]

/-- **A send into the buffer is no event of a lane**: the task was behind
those in the channel before, and is behind them now. -/
theorem lanes_sendBuffer (hpc : s.submitter 0 = .sending t q)
    (hkey : s.queues.get? (queueKey cfg t.shareID) = some q) :
    ((s.goto 0 .idle).put q { s.heap q with taskChan := (s.heap q).taskChan ++ [t] }).lanes cfg =
      s.lanes cfg := by
  have hhand : (s.submitter 0).task? = some t := by rw [hpc]; rfl
  have hidle : ((s.goto 0 .idle).submitter 0).task? = none := by
    simp [State.goto, SubmitPc.task?]
  funext u
  rw [lanes_put, hidle]
  split
  · rename_i hu
    have hu : s.queues.get? (queueKey cfg u) = some q := hu
    rw [lanes_of_key hu, hhand]
    simp [laneOf]
  · -- a share id of another queue is not the task's own
    rename_i hu
    have hne : t.shareID ≠ u := by
      rintro rfl
      exact hu hkey
    simp [State.lanes, laneOf, State.goto, hpc, SubmitPc.task?, ofKey, hne]

/-- **An event at one queue.** It is enabled in the lane of its task, and
the other lanes that go through the queue do not see the change. -/
theorem run_at_queue {e : Lane.Event Task} {w : WorkerQueue}
    (hkey : s.queues.get? (queueKey cfg e.item.shareID) = some q)
    (hown : (laneOf e.item.shareID (some (s.heap q)) (s.submitter 0).task?).step e =
      some (laneOf e.item.shareID (some w) (s.submitter 0).task?))
    (hother : ∀ u, e.item.shareID ≠ u → laneOf u (some w) (s.submitter 0).task? =
      laneOf u (some (s.heap q)) (s.submitter 0).task?) :
    (Lane.lanes Task.shareID).run (s.lanes cfg) [e] = some ((s.put q w).lanes cfg) := by
  refine Lane.run_singleton ?_ ?_
  · rw [lanes_put, if_pos hkey, lanes_of_key hkey]
    exact hown
  · intro u hu
    rw [lanes_put]
    split
    · rename_i hq
      rw [lanes_of_key hq]
      exact hother u (Ne.symm hu)
    · rfl

/-- A goroutine receives the first task of its channel, which is the first
of its lane. -/
theorem run_start_receive {rest : List Task}
    (hkey : s.queues.get? (queueKey cfg t.shareID) = some q)
    (hworker : (s.heap q).worker = .receiving) (hchan : (s.heap q).taskChan = t :: rest) :
    (Lane.lanes Task.shareID).run (s.lanes cfg) [.start t] =
      some ((s.put q { s.heap q with taskChan := rest, worker := .running t }).lanes cfg) := by
  refine run_at_queue hkey ?_ ?_
  · simp [Lane.step, Lane.Event.item, laneOf, hworker, hchan, WorkerPc.running?, ofKey,
      Option.filter_some]
  · intro u hu
    have hne : t.shareID ≠ u := hu
    simp [laneOf, hworker, hchan, WorkerPc.running?, ofKey, Option.filter_some, hne]

/-- A task's function returns. -/
theorem run_finish_taskReturn (hkey : s.queues.get? (queueKey cfg t.shareID) = some q)
    (hworker : (s.heap q).worker = .running t) :
    (Lane.lanes Task.shareID).run (s.lanes cfg) [.finish t] =
      some ((s.put q { s.heap q with worker := .locking t }).lanes cfg) := by
  refine run_at_queue hkey ?_ ?_
  · simp [Lane.step, Lane.Event.item, laneOf, hworker, WorkerPc.running?, Option.filter_some]
  · intro u hu
    have hne : t.shareID ≠ u := hu
    simp [laneOf, hworker, WorkerPc.running?, Option.filter_some, hne]

/-- **A send without a buffer** hands the task to the goroutine; the channel
is empty, so the task is the first of its lane. -/
theorem run_start_direct (hpc : s.submitter 0 = .sending t q)
    (hkey : s.queues.get? (queueKey cfg t.shareID) = some q)
    (hworker : (s.heap q).worker = .receiving) (hchan : (s.heap q).taskChan = []) :
    (Lane.lanes Task.shareID).run (s.lanes cfg) [.start t] =
      some (((s.goto 0 .idle).put q { s.heap q with worker := .running t }).lanes cfg) := by
  have hhand : (s.submitter 0).task? = some t := by rw [hpc]; rfl
  have hidle : ((s.goto 0 .idle).submitter 0).task? = none := by
    simp [State.goto, SubmitPc.task?]
  refine Lane.run_singleton ?_ ?_
  · show (s.lanes cfg t.shareID).step (.start t) = some (State.lanes cfg _ t.shareID)
    have hq : (s.goto 0 .idle).queues.get? (queueKey cfg t.shareID) = some q := hkey
    rw [lanes_put, if_pos hq, hidle, lanes_of_key hkey, hhand]
    simp [Lane.step, laneOf, hworker, hchan, WorkerPc.running?, ofKey, Option.filter_some]
  · intro u hu
    have hne : t.shareID ≠ u := Ne.symm hu
    rw [lanes_put, hidle]
    split
    · rename_i hq
      have hq : s.queues.get? (queueKey cfg u) = some q := hq
      rw [lanes_of_key hq, hhand]
      simp [laneOf, hworker, hchan, WorkerPc.running?, ofKey, Option.filter_some, hne]
    · simp [State.lanes, laneOf, State.goto, hpc, SubmitPc.task?, ofKey, hne]

/-! ## The lanes follow the pool -/

/-- A step that is no event of a lane and changes none. -/
theorem run_of_quiet (hevents : laneEvents cfg s a = []) (hlanes : s'.lanes cfg = s.lanes cfg) :
    (Lane.lanes Task.shareID).run (s.lanes cfg) (laneEvents cfg s a) = some (s'.lanes cfg) := by
  rw [hevents, hlanes]
  rfl

/-- A caller that is not at its send starts nothing. -/
theorem laneEvents_submitter (h : (s.submitter i).sending? = none) :
    laneEvents cfg s (.submitter i now) = [] := by
  cases hpc : s.submitter i with
  | sending =>
    rw [hpc] at h
    cases h
  | idle | loading | creating | storing | locking | touching | adding =>
    simp [laneEvents, Lane.events, submitted, started, finished, hpc]

/-- A queue no key is mapped to has no task. -/
theorem Placed.tasks_eq_nil (hs : Placed cfg s) (hunmapped : ∀ k, s.queues.get? k ≠ some q) :
    (s.heap q).tasks = [] := by
  refine List.eq_nil_iff_forall_not_mem.2 ?_
  intro t ht
  exact hunmapped _ (hs.mapped t q (Or.inr ht))

/-- The new queue takes an empty place. -/
theorem lanes_create (hs : Alone cfg s) (hpc : s.submitter 0 = .creating t) :
    State.lanes cfg { (s.goto 0 (.storing t s.next)).put s.next (newWorkerQueue now) with
      next := s.next + 1 } = s.lanes cfg := by
  have hempty : (s.heap s.next).tasks = [] := by
    refine hs.placed.tasks_eq_nil ?_
    intro k hk
    exact lt_irrefl _ (hs.placed.made k _ hk)
  have hput : ((s.goto 0 (.storing t s.next)).put s.next (newWorkerQueue now)).lanes cfg =
      (s.goto 0 (.storing t s.next)).lanes cfg :=
    lanes_put_of_eq (List.append_eq_nil_iff.1 hempty).2.symm (running?_eq_none_of_tasks hempty).symm
  exact hput.trans (lanes_goto (by rw [hpc]; rfl))

/-- **The `Store`** gives lanes without a queue a queue without tasks. -/
theorem lanes_store (hs : Alone cfg s) (hpc : s.submitter 0 = .storing t q) :
    State.lanes cfg { s.goto 0 (.locking t q) with
      queues := s.queues.set (queueKey cfg t.shareID) q } = s.lanes cfg := by
  have habsent := hs.absent t (by rw [hpc]; rfl)
  have hempty := hs.placed.tasks_eq_nil (hs.placed.unmapped 0 t q (by rw [hpc]; rfl)).2
  have hgoto : (s.goto 0 (.locking t q)).lanes cfg = s.lanes cfg := lanes_goto (by rw [hpc]; rfl)
  rw [← hgoto]
  funext u
  show laneOf u (((s.queues.set (queueKey cfg t.shareID) q).get? (queueKey cfg u)).map s.heap) _ =
    laneOf u ((s.queues.get? (queueKey cfg u)).map s.heap) _
  by_cases hu : queueKey cfg u = queueKey cfg t.shareID
  · rw [hu, GoMap.get?_set_self, habsent]
    exact laneOf_of_tasks hempty u _
  · rw [GoMap.get?_set_of_ne hu]

/-- A step of the caller. -/
theorem lanes_submitter (hs : Alone cfg s) (h : Moves cfg s (.submitter i now) s') :
    (Lane.lanes Task.shareID).run (s.lanes cfg) (laneEvents cfg s (.submitter i now)) =
      some (s'.lanes cfg) := by
  obtain rfl := hs.one.eq_zero (submitter_ne_idle h)
  have hbound : ∀ t q, (s.submitter 0).bound = some (t, q) →
      s.queues.get? (queueKey cfg t.shareID) = some q :=
    fun t q hb => hs.placed.mapped t q (Or.inl ⟨0, hb⟩)
  cases h with
  | loadHit hpc | loadMiss hpc =>
    exact run_of_quiet (laneEvents_submitter (by rw [hpc]; rfl)) (lanes_goto (by rw [hpc]; rfl))
  | create hpc =>
    exact run_of_quiet (laneEvents_submitter (by rw [hpc]; rfl)) (lanes_create hs hpc)
  | store hpc =>
    exact run_of_quiet (laneEvents_submitter (by rw [hpc]; rfl)) (lanes_store hs hpc)
  | lock hpc | touch hpc | add hpc =>
    refine run_of_quiet (laneEvents_submitter (by rw [hpc]; rfl)) ?_
    exact Eq.trans (lanes_put_of_eq rfl rfl) (lanes_goto (by rw [hpc]; rfl))
  | sendClosed hpc hclosed =>
    refine run_of_quiet ?_ rfl
    simp [laneEvents, Lane.events, submitted, started, finished, hpc, hclosed]
  | sendBuffer hpc hopen hroom =>
    have hsize : cfg.queueSize ≠ 0 := by omega
    refine run_of_quiet ?_ (lanes_sendBuffer hpc (hbound _ _ (by rw [hpc]; rfl)))
    simp [laneEvents, Lane.events, submitted, started, finished, hpc, hsize]
  | @sendDirect _ _ t q hpc hopen hsize hworker =>
    have hevents : laneEvents cfg s (.submitter 0 now) = [.start t] := by
      simp [laneEvents, Lane.events, submitted, started, finished, hpc, hopen, hsize, hworker]
    rw [hevents]
    exact run_start_direct hpc (hbound _ _ (by rw [hpc]; rfl)) hworker (hs.unbuffered hsize q)

/-- A step of a goroutine. -/
theorem lanes_worker (hs : Alone cfg s) (h : Moves cfg s (.worker q now) s') :
    (Lane.lanes Task.shareID).run (s.lanes cfg) (laneEvents cfg s (.worker q now)) =
      some (s'.lanes cfg) := by
  have hmapped : ∀ t ∈ (s.heap q).tasks, s.queues.get? (queueKey cfg t.shareID) = some q :=
    fun t ht => hs.placed.mapped t q (Or.inr ht)
  cases h with
  | @receive _ _ t rest _ hworker hchan =>
    have hevents : laneEvents cfg s (.worker q now) = [.start t] := by
      simp [laneEvents, Lane.events, submitted, started, finished, hworker, hchan]
    rw [hevents]
    exact run_start_receive (hmapped t (by simp [WorkerQueue.tasks, hchan])) hworker hchan
  | @taskReturn _ _ t _ hworker =>
    have hevents : laneEvents cfg s (.worker q now) = [.finish t] := by
      simp [laneEvents, Lane.events, submitted, started, finished, hworker]
    rw [hevents]
    exact run_finish_taskReturn
      (hmapped t (by simp [WorkerQueue.tasks, hworker, WorkerPc.task?])) hworker
  | exit _ hworker hchan =>
    refine run_of_quiet ?_ (lanes_put_of_eq rfl (by rw [hworker]; rfl))
    simp [laneEvents, Lane.events, submitted, started, finished, hworker, hchan]
  | workerLock _ hworker | workerTouch _ hworker | done _ hworker =>
    refine run_of_quiet ?_ (lanes_put_of_eq rfl (by rw [hworker]; rfl))
    simp [laneEvents, Lane.events, submitted, started, finished, hworker]
  | doneBelowZero _ hworker =>
    refine run_of_quiet ?_ rfl
    simp [laneEvents, Lane.events, submitted, started, finished, hworker]

/-- **Every step of the pool is followed by its lanes.** -/
theorem lanes_moves (hs : Alone cfg s) (ha : a.FromOne) (h : Moves cfg s a s') :
    (Lane.lanes Task.shareID).run (s.lanes cfg) (laneEvents cfg s a) = some (s'.lanes cfg) := by
  cases a with
  | submit i t =>
    obtain rfl : i = 0 := ha
    cases h with
    | enter hpc => exact run_put_enter hpc
  | submitter i now => exact lanes_submitter hs h
  | worker q now => exact lanes_worker hs h
  | cleaner => exact (not_moves_cleaner hs.placed.off h).elim
  | stopper =>
    cases h with
    | stopClose => exact run_of_quiet rfl (lanes_put_of_eq rfl rfl)
    | stopSwept | stopWaited | stopCloseTwice => exact run_of_quiet rfl rfl
  | start | cleanerVisit | cleanerQuit | stop | stopVisit => cases h <;> exact run_of_quiet rfl rfl

/-! ## Whole runs -/

variable {as : List Action}

theorem meets_fromOne (hone : ∀ a ∈ as, a.FromOne) :
    (pool cfg).Meets (fun _ a => a.FromOne ∧ True) .init as :=
  (Machine.meets_true State.init as).and_forall hone

/-- **The lanes follow every run.** -/
theorem lanes_run (hdisabled : cfg.clearInterval ≤ 0 ∨ cfg.clearTimePass ≤ 0)
    (hone : ∀ a ∈ as, a.FromOne) (hrun : (pool cfg).run .init as = some s) :
    (Lane.lanes Task.shareID).run (State.init.lanes cfg)
      ((pool cfg).observe (laneEvents cfg) .init as) = some (s.lanes cfg) := by
  refine Machine.run_simulates (State.lanes cfg) ?_ ?_ (alone_init cfg) (meets_fromOne hone) hrun
  · intro s a s' hs ha h
    exact alone_moves hdisabled hs ha.1 (moves_of_step h).2
  · intro s a s' hs ha h
    exact lanes_moves hs ha.1 (moves_of_step h).2

/-- The tasks of a share id that a run passed to `Submit`, in order. -/
def submittedOf (cfg : Config) (as : List Action) (u : GoString) : List Task :=
  ofKey Task.shareID u ((pool cfg).observe submitted .init as)

/-- The tasks of a share id whose functions a run entered, in order. -/
def startedOf (cfg : Config) (as : List Action) (u : GoString) : List Task :=
  ofKey Task.shareID u ((pool cfg).observe (started cfg) .init as)

/-- The tasks of a share id whose functions returned, in order. -/
def finishedOf (cfg : Config) (as : List Action) (u : GoString) : List Task :=
  ofKey Task.shareID u ((pool cfg).observe finished .init as)

/-- **The tasks of a share id at the end of a run**: those submitted are
those started, followed by those that wait; those started are those
finished, followed by the one that runs. -/
theorem submittedOf_eq (hdisabled : cfg.clearInterval ≤ 0 ∨ cfg.clearTimePass ≤ 0)
    (hone : ∀ a ∈ as, a.FromOne) (hrun : (pool cfg).run .init as = some s) (u : GoString) :
    startedOf cfg as u ++ (s.lanes cfg u).waiting = submittedOf cfg as u ∧
      finishedOf cfg as u ++ (s.lanes cfg u).serving.toList = startedOf cfg as u := by
  have hlanes := Lane.run_eq (lanes_run hdisabled hone hrun) u
  have hinit : State.init.lanes cfg u = ⟨[], none⟩ := rfl
  simp only [Machine.flatMap_observe, laneEvents, Lane.puts_events, Lane.starts_events,
    Lane.finishes_events, hinit, List.nil_append, Option.toList_none] at hlanes
  exact hlanes

/-! ## Stop -/

/-- `Stop` is called by the caller, behind its last `Submit`. -/
def StopLast (s : State) : Action → Prop
  | .submit _ _ => s.quit = false
  | .stop => s.submitter 0 = .idle
  | _ => True

instance (a : Action) : Decidable (StopLast s a) :=
  match a with
  | .submit .. => inferInstanceAs (Decidable (s.quit = false))
  | .stop => inferInstanceAs (Decidable (s.submitter 0 = .idle))
  | .submitter .. | .worker .. | .start | .cleaner _ | .cleanerVisit _ | .cleanerQuit
  | .stopper | .stopVisit _ => isTrue trivial

/-- A range of `Stop`: it found every key, and behind the keys visited no
task is counted. -/
def Ranged (s : State) (r : Sweep) : Prop :=
  r.found = s.queues.keys ∧ ∀ k ∈ r.visited, ∀ q, s.queues.get? k = some q → (s.heap q).wg = 0

/-- What the place of the caller of `Stop` says. -/
def StopOk (s : State) : StopPc → Prop
  | .off => True
  | .ranging r => Ranged s r
  | .waiting r k q => Ranged s r ∧ s.queues.get? k = some q
  | .closing r k q => Ranged s r ∧ s.queues.get? k = some q ∧ (s.heap q).wg = 0
  | .returned => ∀ k q, s.queues.get? k = some q → (s.heap q).wg = 0

/-- **What `Stop` keeps when it comes last.** -/
structure Halting (s : State) : Prop where
  idle : s.quit = true → s.submitter 0 = .idle
  quit : s.stopper ≠ .off → s.quit = true
  stop : StopOk s s.stopper

theorem halting_init : Halting .init where
  idle := fun h => by cases h
  quit := fun h => absurd rfl h
  stop := trivial

/-- Before `Stop` there is nothing to keep. -/
theorem Halting.of_off (hquit : s.quit = false) (hoff : s.stopper = .off) : Halting s where
  idle := by
    intro h
    rw [hquit] at h
    cases h
  quit := fun h => absurd hoff h
  stop := by
    rw [hoff]
    trivial

/-- While the caller is in `Submit`, `Stop` was not called. -/
theorem Halting.off_of_submitter (hs : Halting s) (hpc : s.submitter 0 ≠ .idle) :
    s.quit = false ∧ s.stopper = .off := by
  have hquit : s.quit = false := by
    by_contra h
    exact hpc (hs.idle (by simpa using h))
  refine ⟨hquit, ?_⟩
  by_contra h
  rw [hs.quit h] at hquit
  cases hquit

/-- A step that leaves the map alone and counts no first task. -/
theorem StopOk.mono {pc : StopPc} (h : StopOk s pc) (hqueues : s'.queues = s.queues)
    (hwg : ∀ q, (s.heap q).wg = 0 → (s'.heap q).wg = 0) : StopOk s' pc := by
  have hranged : ∀ r, Ranged s r → Ranged s' r := by
    intro r hr
    refine ⟨by rw [hqueues]; exact hr.1, ?_⟩
    intro k hk q hq
    rw [hqueues] at hq
    exact hwg q (hr.2 k hk q hq)
  cases pc with
  | off => trivial
  | ranging r => exact hranged r h
  | waiting r k q => exact ⟨hranged r h.1, by rw [hqueues]; exact h.2⟩
  | closing r k q => exact ⟨hranged r h.1, by rw [hqueues]; exact h.2.1, hwg q h.2.2⟩
  | returned =>
    intro k q hq
    rw [hqueues] at hq
    exact hwg q (h k q hq)

/-- A step that moves no process but a goroutine. -/
theorem Halting.mono (hs : Halting s) (hsub : s'.submitter = s.submitter) (hquit : s'.quit = s.quit)
    (hstop : s'.stopper = s.stopper) (hqueues : s'.queues = s.queues)
    (hwg : ∀ q, (s.heap q).wg = 0 → (s'.heap q).wg = 0) : Halting s' where
  idle := by rw [hquit, hsub]; exact hs.idle
  quit := by rw [hquit, hstop]; exact hs.quit
  stop := by rw [hstop]; exact hs.stop.mono hqueues hwg

theorem wg_put {w : WorkerQueue} (hw : (s.heap q).wg = 0 → w.wg = 0) :
    ∀ r, (s.heap r).wg = 0 → ((s.put q w).heap r).wg = 0 :=
  forall_heap_put (P := fun r w => (s.heap r).wg = 0 → w.wg = 0) hw (fun _ _ h => h)

/-- **The caller of `Stop` moves on.** -/
theorem Halting.stop_to {pc : StopPc} (hs : Halting s) (hon : s.stopper ≠ .off)
    (hsub : s'.submitter = s.submitter) (hquit : s'.quit = s.quit) (hstop : s'.stopper = pc)
    (hpc : StopOk s' pc) : Halting s' where
  idle := by rw [hquit, hsub]; exact hs.idle
  quit := fun _ => by rw [hquit]; exact hs.quit hon
  stop := by rw [hstop]; exact hpc

/-- The queue behind a key is closed, and the range has visited the key. -/
theorem Ranged.visit {r : Sweep} {k : GoString} (hr : Ranged s r)
    (hkey : s.queues.get? k = some q) (hwg : (s.heap q).wg = 0) :
    Ranged s { r with visited := insert k r.visited } := by
  refine ⟨hr.1, ?_⟩
  intro k' hk' q' hq'
  rcases Finset.mem_insert.1 hk' with rfl | hk'
  · obtain rfl : q = q' := Option.some.inj (hkey.symm.trans hq')
    exact hwg
  · exact hr.2 k' hk' q' hq'

/-- **A range that is over has visited every key.** -/
theorem Ranged.returned {r : Sweep} (hr : Ranged s r) (hswept : s.Swept r) :
    StopOk s .returned := by
  intro k q hq
  have hfound : k ∈ r.found := by
    rw [hr.1, GoMap.mem_keys, hq]
    rfl
  exact hr.2 k (hswept k hfound (by rw [hq]; rfl)) q hq

/-- A step of `Stop`. -/
theorem halting_stopper (hs : Halting s) (h : Moves cfg s .stopper s') : Halting s' := by
  have hstop := hs.stop
  cases h with
  | stopSwept hpc hswept =>
    rw [hpc] at hstop
    exact hs.stop_to (by rw [hpc]; simp) rfl rfl rfl
      ((Ranged.returned hstop hswept).mono rfl (fun _ h => h))
  | stopWaited hpc hwg =>
    rw [hpc] at hstop
    exact hs.stop_to (by rw [hpc]; simp) rfl rfl rfl ⟨hstop.1, hstop.2, hwg⟩
  | stopCloseTwice hpc hclosed =>
    rw [hpc] at hstop
    exact hs.stop_to (by rw [hpc]; simp) rfl rfl rfl (hstop.1.visit hstop.2.1 hstop.2.2)
  | @stopClose r k q hpc hopen =>
    rw [hpc] at hstop
    have hranged : StopOk s (.ranging { r with visited := insert k r.visited }) :=
      hstop.1.visit hstop.2.1 hstop.2.2
    exact hs.stop_to (by rw [hpc]; simp) rfl rfl rfl (hranged.mono rfl (wg_put fun h => h))

/-- **Every step keeps what `Stop` needs**, when it comes last. -/
theorem halting_moves (hs : Halting s) (hone : s.OneCaller) (hcleaner : s.cleaner = .off)
    (ha : a.FromOne) (hlast : StopLast s a) (h : Moves cfg s a s') : Halting s' := by
  cases a with
  | submit i t =>
    have hquit : s.quit = false := hlast
    have hoff : s.stopper = .off := by
      by_contra hon
      rw [hs.quit hon] at hquit
      cases hquit
    cases h with
    | enter => exact .of_off hquit hoff
  | submitter i now =>
    have hmoves := submitter_ne_idle h
    obtain rfl := hone.eq_zero hmoves
    obtain ⟨hquit, hoff⟩ := hs.off_of_submitter hmoves
    cases h <;> exact .of_off hquit hoff
  | worker q now =>
    cases h with
    | receive | exit | taskReturn | workerLock | workerTouch =>
      exact hs.mono rfl rfl rfl rfl (wg_put fun h => h)
    | doneBelowZero => exact hs.mono rfl rfl rfl rfl (fun _ h => h)
    | done _ _ hwg => exact hs.mono rfl rfl rfl rfl (wg_put fun h => absurd h hwg)
  | cleaner => exact (not_moves_cleaner hcleaner h).elim
  | start | cleanerVisit | cleanerQuit => cases h <;> exact hs.mono rfl rfl rfl rfl (fun _ h => h)
  | stop =>
    cases h with
    | stop hquit =>
      have hidle : s.submitter 0 = .idle := hlast
      have hranged : Ranged s s.sweep := ⟨rfl, by simp [State.sweep]⟩
      exact ⟨fun _ => hidle, fun _ => rfl, hranged⟩
    | stopTwice => exact hs.mono rfl rfl rfl rfl (fun _ h => h)
  | stopper => exact halting_stopper hs h
  | stopVisit k =>
    have hstop := hs.stop
    cases h with
    | stopVisit hpc hkey =>
      rw [hpc] at hstop
      exact hs.stop_to (by rw [hpc]; simp) rfl rfl rfl ⟨hstop, hkey⟩

/-! ## In order, and to the end -/

theorem halting_run (hdisabled : cfg.clearInterval ≤ 0 ∨ cfg.clearTimePass ≤ 0)
    (hone : ∀ a ∈ as, a.FromOne) (hlast : (pool cfg).Meets StopLast .init as)
    (hrun : (pool cfg).run .init as = some s) : Alone cfg s ∧ Counted s ∧ Halting s := by
  refine Machine.run_invariant (I := fun s => Alone cfg s ∧ Counted s ∧ Halting s) ?_
    ⟨alone_init cfg, counted_init, halting_init⟩ (hlast.and_forall hone) hrun
  rintro s a s' ⟨halone, hcounted, hhalting⟩ ⟨ha, hlast⟩ hstep
  have h := (moves_of_step hstep).2
  exact ⟨alone_moves hdisabled halone ha h, counted_moves halone.one ha hcounted h,
    halting_moves hhalting halone.one halone.placed.off ha hlast h⟩

/-- **When `Stop` has returned, every lane is empty.** -/
theorem lanes_of_returned (hs : Halting s) (hcounted : Counted s)
    (hreturned : s.stopper = .returned) (u : GoString) : s.lanes cfg u = ⟨[], none⟩ := by
  have hidle : s.submitter 0 = .idle := hs.idle (hs.quit (by rw [hreturned]; simp))
  have hstop : StopOk s .returned := hreturned ▸ hs.stop
  unfold State.lanes
  rw [hidle]
  rcases hq : s.queues.get? (queueKey cfg u) with _ | q
  · rfl
  · rw [Option.map_some, laneOf_of_tasks (hcounted.tasks_eq_nil (hstop _ q hq))]
    rfl

/-- **Tasks of one share id run in the order of their submission.** With
one caller and the cleaner disabled, for every number of queues, every
capacity and every interleaving: the tasks of a share id that were started
are, as a list, the first of those submitted, and those that returned are
the first of those started, so that none is run twice. When `Stop`, called
behind the last `Submit`, has returned, all that were submitted have
returned. -/
theorem submitted_run_in_order (cfg : Config) (as : List Action) (s : State)
    (hdisabled : cfg.clearInterval ≤ 0 ∨ cfg.clearTimePass ≤ 0) (hone : ∀ a ∈ as, a.FromOne)
    (hrun : (pool cfg).run .init as = some s) :
    (∀ u, startedOf cfg as u <+: submittedOf cfg as u ∧
        finishedOf cfg as u <+: startedOf cfg as u) ∧
      ((pool cfg).Meets StopLast .init as → s.stopper = .returned →
        (∀ u, finishedOf cfg as u = submittedOf cfg as u) ∧
          ((pool cfg).observe finished .init as).Perm ((pool cfg).observe submitted .init as)) := by
  have hlanes := submittedOf_eq hdisabled hone hrun
  refine ⟨fun u => ⟨⟨_, (hlanes u).1⟩, ⟨_, (hlanes u).2⟩⟩, ?_⟩
  intro hlast hreturned
  obtain ⟨-, hcounted, hhalting⟩ := halting_run hdisabled hone hlast hrun
  have hall : ∀ u, finishedOf cfg as u = submittedOf cfg as u := by
    intro u
    obtain ⟨hstarted, hfinished⟩ := hlanes u
    rw [lanes_of_returned hhalting hcounted hreturned] at hstarted hfinished
    rw [← hstarted, ← hfinished]
    simp
  exact ⟨hall, Lane.perm_of_ofKey hall⟩

/-- A pool with one queue of one place and no cleaner. -/
def shared : Config := { queueNum := 1, queueSize := 1, clearInterval := 0, clearTimePass := 600 }

/-- Two players whose tasks go through the one queue; the second task is
submitted while the first one runs, and the pool is stopped behind it. -/
def twoPlayers : List Action :=
  firstSubmit 0 ⟨lit "player1", 0⟩ ++ [.worker 0 0, .submit 0 ⟨lit "player2", 1⟩] ++
    List.replicate 5 (.submitter 0 0) ++ List.replicate 9 (.worker 0 0) ++
    [.stop, .stopVisit (lit "0"), .stopper, .stopper, .stopper]

theorem submitted_run_in_order_players :
    queueKey shared (lit "player1") = queueKey shared (lit "player2") ∧
      (∀ a ∈ twoPlayers, a.FromOne) ∧ (pool shared).Meets StopLast .init twoPlayers ∧
      ∃ s, (pool shared).run .init twoPlayers = some s ∧ s.stopper = .returned ∧
        submittedOf shared twoPlayers (lit "player2") = [⟨lit "player2", 1⟩] ∧
        finishedOf shared twoPlayers (lit "player2") =
          submittedOf shared twoPlayers (lit "player2") := by
  have hone : ∀ a ∈ twoPlayers, a.FromOne := by decide +kernel
  have hlast : (pool shared).Meets StopLast .init twoPlayers := by decide +kernel
  have hrun : ((pool shared).run .init twoPlayers).map State.stopper = some .returned := by
    decide +kernel
  obtain ⟨s, hs, hreturned⟩ := Option.map_eq_some_iff.1 hrun
  have horder := submitted_run_in_order shared twoPlayers s (Or.inl le_rfl) hone hs
  refine ⟨by decide +kernel, hone, hlast, s, hs, hreturned, by decide +kernel, ?_⟩
  exact (horder.2 hlast hreturned).1 _

end WorkerPool

end Nrpc
