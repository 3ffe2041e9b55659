import Nrpc.WorkerPool.Cleanup
/-!
# When the cleaner blocks the goroutine it waits for

The cleaner waits for a queue's wait group with the queue's mutex held, and
the goroutine needs the mutex after each task before it counts the task
off. A task that outlasts the idle time is enough to stop both for good
(`cleanup_deadlock`).

`Settled` says of a step that the cleaner starts to wait only for a queue
whose counted task is past the mutex, and that no caller counts a task
while the cleaner waits. Then the wait group the cleaner waits for is on
its way to zero without the mutex (`Waitable`), and as long as a queue has
an unfinished task somebody can move (`progress_of_settled`). The number of
callers and of queues is arbitrary, and the pool may be stopped.
-/

namespace Nrpc

namespace WorkerPool

variable {cfg : Config} {s s' : State} {a : Action} {i q : ℕ} {t : Task} {now : ℤ}

/-! ## The condition -/

/-- One for the task whose goroutine has only `wg.Done` left to do. -/
def WorkerPc.leaving : WorkerPc → ℕ
  | .finishing _ => 1
  | _ => 0

/-- The queue of a cleaner at its idle check, when the check succeeds. -/
def State.idle? (cfg : Config) (s : State) : Option ℕ :=
  match s.cleaner with
  | .checking now _ _ q => if cfg.clearTimePass < now - (s.heap q).lastActive then some q else none
  | _ => none

/-- The queue whose wait group a caller is about to raise. -/
def SubmitPc.add? : SubmitPc → Option ℕ
  | .adding _ q => some q
  | _ => none

/-- **The condition on a step.** When a queue is found idle, no task is
counted but one whose goroutine is past the mutex; and no caller counts a
task while the cleaner waits for the queue. -/
def Settled (cfg : Config) (s : State) : Action → Prop
  | .cleaner _ => ∀ q ∈ s.idle? cfg, (s.heap q).wg ≤ (s.heap q).worker.leaving
  | .submitter i _ => ∀ q ∈ (s.submitter i).add?, s.cleaner.wait? ≠ some q
  | _ => True

instance (a : Action) : Decidable (Settled cfg s a) :=
  match a with
  | .cleaner _ => inferInstanceAs (Decidable
      (∀ q ∈ s.idle? cfg, (s.heap q).wg ≤ (s.heap q).worker.leaving))
  | .submitter i _ => inferInstanceAs (Decidable
      (∀ q ∈ (s.submitter i).add?, s.cleaner.wait? ≠ some q))
  | .submit .. | .worker .. | .start | .cleanerVisit _ | .cleanerQuit | .stop | .stopper
  | .stopVisit _ => isTrue trivial

/-! ## The invariant -/

/-- **The cleaner waits for nothing that needs the mutex.** -/
def Waitable (s : State) : Prop :=
  ∀ q, s.cleaner.wait? = some q → (s.heap q).wg ≤ (s.heap q).worker.leaving

/-- A goroutine leaves only a closed and empty channel behind. -/
def ExitClean (s : State) : Prop :=
  ∀ q, (s.heap q).worker = .exited → (s.heap q).closed = true ∧ (s.heap q).taskChan = []

theorem waitable_init : Waitable .init := by
  intro q hq
  simp [State.init, CleanerPc.wait?] at hq

theorem exitClean_init : ExitClean .init := by
  intro q hq
  simp [State.init, newWorkerQueue] at hq

/-- A queue changes, and is not the one waited for or has no more to wait
for than before. -/
theorem Waitable.put {w : WorkerQueue} (hs : Waitable s)
    (hw : s.cleaner.wait? = some q → w.wg ≤ w.worker.leaving) : Waitable (s.put q w) := by
  intro r hr
  exact forall_heap_put (P := fun r w => s.cleaner.wait? = some r → w.wg ≤ w.worker.leaving)
    hw (fun r _ => hs r) r hr

/-- The cleaner moves on to where it waits for nothing. -/
theorem Waitable.clean {pc : CleanerPc} (hpc : pc.wait? = none) :
    Waitable { s with cleaner := pc } := by
  intro q hq
  have hq : pc.wait? = some q := hq
  rw [hpc] at hq
  cases hq

/-- **A settled step leaves the cleaner waiting for nothing that needs the
mutex.** -/
theorem waitable_moves (hs : Waitable s) (hsettled : Settled cfg s a) (h : Moves cfg s a s') :
    Waitable s' := by
  cases h with
  | enter | loadHit | loadMiss | store | sendClosed | doneBelowZero | startNothing | stop
  | stopTwice | stopSwept | stopVisit | stopWaited | stopCloseTwice => exact fun q hq => hs q hq
  | create => exact Waitable.put (s := s.goto _ _) hs (fun _ => Nat.zero_le _)
  | lock | touch | sendBuffer => exact Waitable.put (s := s.goto _ _) hs (hs _)
  | add hpc =>
    refine Waitable.put (s := s.goto _ _) hs ?_
    intro hq
    exact absurd hq (hsettled _ (by rw [hpc]; rfl))
  | sendDirect _ _ _ hworker =>
    refine Waitable.put (s := s.goto _ _) hs ?_
    intro hq
    have hle := hs _ hq
    rw [hworker] at hle
    exact hle
  | receive _ hworker | exit _ hworker | taskReturn _ hworker | workerLock _ hworker =>
    refine hs.put ?_
    intro hq
    have hle := hs _ hq
    rw [hworker] at hle
    exact hle
  | workerTouch _ hworker =>
    refine hs.put ?_
    intro hq
    have hle := hs _ hq
    rw [hworker] at hle
    exact Nat.le_succ_of_le hle
  | @done q _ _ _ hworker =>
    refine hs.put ?_
    intro hq
    have hle : (s.heap q).wg ≤ 1 := by
      have h := hs q hq
      rw [hworker] at h
      exact h
    show (s.heap q).wg - 1 ≤ 0
    omega
  | idle hpc hpass =>
    intro q hq
    obtain rfl : _ = q := Option.some.inj hq
    exact hsettled _ (by simp only [State.idle?, hpc, hpass, if_true]; rfl)
  | start | tick | swept | visit | active | waited | closeTwice | delete | quit =>
    exact Waitable.clean rfl
  | cleanerLock | close | unlock => exact Waitable.clean (s := s.put _ _) rfl
  | stopClose => exact Waitable.put hs (hs _)

/-- A queue changes, and its goroutine leaves nothing behind. -/
theorem ExitClean.put {w : WorkerQueue} (hs : ExitClean s)
    (hw : w.worker = .exited → w.closed = true ∧ w.taskChan = []) : ExitClean (s.put q w) := by
  exact forall_heap_put
    (P := fun _ w => w.worker = .exited → w.closed = true ∧ w.taskChan = []) hw (fun r _ => hs r)

theorem exitClean_moves (hs : ExitClean s) (h : Moves cfg s a s') : ExitClean s' := by
  cases h with
  | enter | loadHit | loadMiss | store | sendClosed | doneBelowZero | startNothing | stop
  | stopTwice | stopSwept | stopVisit | stopWaited | stopCloseTwice | start | tick | swept
  | visit | active | idle | waited | closeTwice | delete | quit => exact fun q hq => hs q hq
  | create => exact ExitClean.put (s := s.goto _ _) hs (fun h => by cases h)
  | lock | touch | add => exact ExitClean.put (s := s.goto _ _) hs (hs _)
  | sendBuffer _ hopen =>
    refine ExitClean.put (s := s.goto _ _) hs ?_
    intro hworker
    -- an exited goroutine's channel is closed, and this one is open
    rw [(hs _ hworker).1] at hopen
    cases hopen
  | sendDirect => exact ExitClean.put (s := s.goto _ _) hs (fun h => by cases h)
  | exit _ _ hchan hclosed => exact hs.put (fun _ => ⟨hclosed, hchan⟩)
  | receive | taskReturn | workerLock | workerTouch | done => exact hs.put (fun h => by cases h)
  | cleanerLock | unlock => exact ExitClean.put hs (hs _)
  | close | stopClose => exact ExitClean.put hs (fun h => ⟨rfl, (hs _ h).2⟩)

/-! ## Somebody can move -/

/-- A task the wait group counts: in the queue, or being sent to it. -/
def State.Unfinished (s : State) (t : Task) (q : ℕ) : Prop :=
  t ∈ (s.heap q).tasks ∨ ∃ i, s.submitter i = .sending t q

/-- **A queue that is not stuck.** Its goroutine or the cleaner can take a
step; or a caller holds its mutex, and can take the step that frees it for
the goroutine; or the task is in the hands of a caller that can send it. -/
inductive Live (cfg : Config) (s : State) (q : ℕ) : Prop
  | worker (now : ℤ) (h : (pool cfg).Enabled s (.worker q now))
  | cleaner (now : ℤ) (h : (pool cfg).Enabled s (.cleaner now))
  | caller (i : ℕ) (now : ℤ) (s' : State) (hmu : (s.heap q).mu = some (.submitter i))
    (hstep : (pool cfg).step s (.submitter i now) = some s')
    (hnext : (pool cfg).Enabled s' (.worker q now))
  | send (i : ℕ) (t : Task) (now : ℤ) (hpc : s.submitter i = .sending t q)
    (h : (pool cfg).Enabled s (.submitter i now))

/-- A queue's mutex taken by the cleaner while the goroutine wants it. -/
theorem live_of_cleaner (hs : Waitable s) (hrunning : s.crashed = false)
    (hworker : (s.heap q).worker = .locking t) (hin : s.cleaner.locked? = some q) :
    Live cfg s q := by
  refine .cleaner 0 ?_
  cases hpc : s.cleaner with
  | checking now r k q' =>
    by_cases hpass : cfg.clearTimePass < now - (s.heap q').lastActive
    · exact ⟨_, by simp only [pool, step, hrunning, cleanerStep, hpc, hpass, if_true]; rfl⟩
    · exact ⟨_, by simp only [pool, step, hrunning, cleanerStep, hpc, hpass, if_false]; rfl⟩
  | waiting now r k q' =>
    -- the task that wants the mutex would be counted, and nothing is
    rw [hpc] at hin
    obtain rfl : q' = q := Option.some.inj hin
    have hle := hs q' (by rw [hpc]; rfl)
    rw [hworker] at hle
    have hzero : (s.heap q').wg = 0 := Nat.le_zero.1 hle
    exact ⟨_, by simp only [pool, step, hrunning, cleanerStep, hpc, hzero, if_true]; rfl⟩
  | closing | deleting | unlocking =>
    exact ⟨_, by simp only [pool, step, hrunning, cleanerStep, hpc]; rfl⟩
  | off | selecting | ranging | locking | exited =>
    rw [hpc] at hin
    cases hin

/-- A queue's mutex taken by a caller while the goroutine wants it. -/
theorem live_of_caller (hrunning : s.crashed = false) (hq : q < s.next)
    (hworker : (s.heap q).worker = .locking t) (hmu : (s.heap q).mu = some (.submitter i))
    (hin : (s.submitter i).locked? = some q) : Live cfg s q := by
  cases hpc : s.submitter i with
  | touching t' q' =>
    rw [hpc] at hin
    obtain rfl : q' = q := Option.some.inj hin
    refine .caller i 0
      ((s.goto i (.adding t' q')).put q' { s.heap q' with lastActive := 0, mu := none }) hmu ?_ ?_
    · simp [pool, step, hrunning, submitStep, hpc]
    · have hle : ¬ s.next ≤ q' := by omega
      exact ⟨_, by
        simp [pool, step, workerStep, State.goto, State.put, hrunning, hle, hworker]
        rfl⟩
  | idle | loading | creating | storing | locking | adding | sending =>
    rw [hpc] at hin
    cases hin

/-- **A queue with a task in it is not stuck.** -/
theorem live_of_mem (hmade : Made s) (hlocked : Locked s) (hwait : Waitable s)
    (hexit : ExitClean s) (hrunning : s.crashed = false) (ht : t ∈ (s.heap q).tasks) :
    Live cfg s q := by
  have hq : q < s.next := by
    by_contra hlt
    rw [hmade.fresh q (by omega)] at ht
    cases ht
  have hle : ¬ s.next ≤ q := by omega
  cases hworker : (s.heap q).worker with
  | receiving =>
    cases hchan : (s.heap q).taskChan with
    | nil =>
      rw [WorkerQueue.tasks, hworker, hchan] at ht
      cases ht
    | cons t' rest =>
      exact .worker 0 ⟨_, by simp [pool, step, hrunning, workerStep, hle, hworker, hchan]; rfl⟩
  | running t' | touching t' =>
    exact .worker 0 ⟨_, by simp [pool, step, hrunning, workerStep, hle, hworker]; rfl⟩
  | finishing t' =>
    by_cases hwg : (s.heap q).wg = 0
    · exact .worker 0 ⟨_, by simp [pool, step, hrunning, workerStep, hle, hworker, hwg]; rfl⟩
    · exact .worker 0 ⟨_, by simp [pool, step, hrunning, workerStep, hle, hworker, hwg]; rfl⟩
  | exited =>
    rw [WorkerQueue.tasks, hworker, (hexit q hworker).2] at ht
    cases ht
  | locking t' =>
    cases hmu : (s.heap q).mu with
    | none =>
      exact .worker 0 ⟨_, by
        simp [pool, step, hrunning, workerStep, hle, hworker, hmu]
        rfl⟩
    | some h =>
      have hin := (hlocked q h).1 hmu
      cases h with
      | submitter i => exact live_of_caller hrunning hq hworker hmu hin
      | worker =>
        rw [State.Inside, hworker] at hin
        cases hin
      | cleaner => exact live_of_cleaner hwait hrunning hworker hin

/-- **A queue with a task on its way is not stuck.** A send that has to
wait waits for a task that is in the queue. -/
theorem live_of_sending (hmade : Made s) (hlocked : Locked s) (hwait : Waitable s)
    (hexit : ExitClean s) (hrunning : s.crashed = false) (hpc : s.submitter i = .sending t q) :
    Live cfg s q := by
  by_cases hempty : (s.heap q).tasks = []
  · refine .send i t 0 hpc ?_
    simp only [WorkerQueue.tasks, List.append_eq_nil_iff] at hempty
    obtain ⟨hhand, hchan⟩ := hempty
    simp only [Machine.Enabled, pool, step, hrunning, submitStep, hpc, send, hchan, List.length_nil]
    cases hclosed : (s.heap q).closed with
    | true => exact ⟨_, rfl⟩
    | false =>
      by_cases hsize : cfg.queueSize = 0
      · have hworker : (s.heap q).worker = .receiving := by
          cases hw : (s.heap q).worker with
          | receiving => rfl
          | exited =>
            rw [(hexit q hw).1] at hclosed
            cases hclosed
          | running | locking | touching | finishing =>
            rw [hw] at hhand
            cases hhand
        exact ⟨_, by simp [hsize, hworker]; rfl⟩
      · have hroom : 0 < cfg.queueSize := by omega
        exact ⟨_, by simp [hroom]; rfl⟩
  · obtain ⟨t', ht'⟩ := List.exists_mem_of_ne_nil _ hempty
    exact live_of_mem hmade hlocked hwait hexit hrunning ht'

/-- **A cleaner that waits only for what needs no mutex deadlocks no
queue.** It never waits, the mutex in hand, for a task whose goroutine
wants that mutex; and a queue with an unfinished task is not stuck. -/
theorem no_deadlock_of_settled (cfg : Config) (as : List Action) (s : State)
    (hsettled : (pool cfg).Meets (Settled cfg) .init as)
    (hrun : (pool cfg).run .init as = some s) :
    (¬ ∃ q t, s.cleaner.wait? = some q ∧ (s.heap q).mu = some .cleaner ∧ (s.heap q).wg ≠ 0 ∧
      (s.heap q).worker = .locking t) ∧
    (s.crashed = false → ∀ t q, s.Unfinished t q → Live cfg s q) := by
  obtain ⟨hmade, hlocked⟩ := locked_of_run hrun
  have hstep : ∀ s a s', Waitable s ∧ ExitClean s → Settled cfg s a →
      (pool cfg).step s a = some s' → Waitable s' ∧ ExitClean s' := by
    rintro s a s' ⟨hwait, hexit⟩ hsettled h
    obtain ⟨-, hmoves⟩ := moves_of_step h
    exact ⟨waitable_moves hwait hsettled hmoves, exitClean_moves hexit hmoves⟩
  obtain ⟨hwait, hexit⟩ :=
    Machine.run_invariant hstep ⟨waitable_init, exitClean_init⟩ hsettled hrun
  refine ⟨?_, ?_⟩
  · rintro ⟨q, t, hq, -, hwg, hworker⟩
    have hle := hwait q hq
    rw [hworker] at hle
    exact hwg (Nat.le_zero.1 hle)
  · rintro hrunning t q (ht | ⟨i, hpc⟩)
    · exact live_of_mem hmade hlocked hwait hexit hrunning ht
    · exact live_of_sending hmade hlocked hwait hexit hrunning hpc

/-! ## Two runs -/

/-- The task that outlasts the idle time. -/
def longTask : Task := ⟨lit "player1", 0⟩

/-- The cleaner's visit to the queue of `player1`, up to its wait. -/
def visitToWait : List Action :=
  [.start, .cleaner 15, .cleanerVisit (lit "player1"), .cleaner 15, .cleaner 15]

/-- The cleaner visits the queue five seconds in, and the task's function
returns while the cleaner holds the mutex. -/
theorem no_deadlock_of_settled_players :
    let as := firstSubmit 0 longTask ++ [.worker 0 0] ++
      [.start, .cleaner 5, .cleanerVisit (lit "player1"), .cleaner 5] ++ [.worker 0 6]
    (pool cleaned).Meets (Settled cleaned) .init as ∧
      ∃ s, (pool cleaned).run .init as = some s ∧ s.crashed = false ∧ s.Unfinished longTask 0 ∧
        (s.heap 0).mu = some .cleaner ∧ Live cleaned s 0 := by
  intro as
  have hsettled : (pool cleaned).Meets (Settled cleaned) .init as := by decide +kernel
  have hrun : ((pool cleaned).run .init as).map (fun s => (s.crashed, s.heap 0)) =
      some (false, ⟨[], false, 0, some .cleaner, 1, .locking longTask⟩) := by decide +kernel
  obtain ⟨s, hs, hw⟩ := Option.map_eq_some_iff.1 hrun
  have hrunning : s.crashed = false := congrArg Prod.fst hw
  have hheap : s.heap 0 = ⟨[], false, 0, some .cleaner, 1, .locking longTask⟩ :=
    congrArg Prod.snd hw
  have hmem : s.Unfinished longTask 0 := by
    refine Or.inl ?_
    rw [hheap]
    exact List.mem_singleton.2 rfl
  exact ⟨hsettled, s, hs, hrunning, hmem, by rw [hheap],
    (no_deadlock_of_settled cleaned as s hsettled hs).2 hrunning longTask 0 hmem⟩

/-- **The cleaner and the goroutine wait for each other.** The task still
runs when the cleaner finds the queue idle; when its function returns, the
goroutine wants the mutex the cleaner holds, and the cleaner waits for the
goroutine to count the task off. -/
theorem cleanup_deadlock :
    let as := firstSubmit 0 longTask ++ [.worker 0 0] ++ visitToWait ++ [.worker 0 20]
    ∃ s, (pool cleaned).run .init as = some s ∧ s.crashed = false ∧ s.Unfinished longTask 0 ∧
      s.cleaner.wait? = some 0 ∧ (s.heap 0).mu = some .cleaner ∧ (s.heap 0).wg ≠ 0 ∧
      (s.heap 0).worker = .locking longTask ∧
      ∀ now, (pool cleaned).step s (.worker 0 now) = none ∧
        (pool cleaned).step s (.cleaner now) = none := by
  intro as
  have hrun : ((pool cleaned).run .init as).map
      (fun s => (s.crashed, s.next, s.cleaner, s.heap 0)) =
      some (false, 1, .waiting 15 ⟨{lit "player1"}, ∅⟩ (lit "player1") 0,
        ⟨[], false, 0, some .cleaner, 1, .locking longTask⟩) := by decide +kernel
  obtain ⟨s, hs, hw⟩ := Option.map_eq_some_iff.1 hrun
  have hrunning : s.crashed = false := congrArg (fun p => p.1) hw
  have hnext : s.next = 1 := congrArg (fun p => p.2.1) hw
  have hcleaner : s.cleaner = .waiting 15 ⟨{lit "player1"}, ∅⟩ (lit "player1") 0 :=
    congrArg (fun p => p.2.2.1) hw
  have hheap : s.heap 0 = ⟨[], false, 0, some .cleaner, 1, .locking longTask⟩ :=
    congrArg (fun p => p.2.2.2) hw
  refine ⟨s, hs, hrunning, Or.inl ?_, ?_, ?_, ?_, ?_, ?_⟩
  · rw [hheap]
    exact List.mem_singleton.2 rfl
  · rw [hcleaner]
    rfl
  · rw [hheap]
  · rw [hheap]
    exact Nat.one_ne_zero
  · rw [hheap]
  · intro now
    exact ⟨by simp [pool, step, hrunning, workerStep, hnext, hheap],
      by simp [pool, step, hrunning, cleanerStep, hcleaner, hheap]⟩

end WorkerPool

end Nrpc
