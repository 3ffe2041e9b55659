import Nrpc.WorkerPool.Steps
/-!
# When tasks of one share id run one at a time

A queue has one goroutine, so tasks collide only across queues: two tasks
of one share id run together when they sit in two queues. The pool keeps
that from happening through its map. `Bound` says that a task is in a queue
or on its way into one, and the invariant `Placed` that the queue a task is
bound to is the queue its key is mapped to.

`getQueue` looks the key up and stores a new queue in two separate steps.
A `Store` that finds its key taken throws the first queue out of the map
with tasks still bound to it, and from there two goroutines serve one share
id (`serial_broken`). As long as every `Store` finds its key absent, the
invariant holds and each share id is served by one goroutine
(`serial_of_freshStores`).
-/

namespace Nrpc

namespace WorkerPool

variable {cfg : Config} {s s' : State} {i q : ℕ} {t : Task} {now : ℤ}

/-! ## What a process carries -/

/-- The task and the queue of a caller behind `getQueue`. -/
def SubmitPc.bound : SubmitPc → Option (Task × ℕ)
  | .locking t q | .touching t q | .adding t q | .sending t q => some (t, q)
  | _ => none

/-- The task and the queue of a caller about to store the queue. -/
def SubmitPc.store? : SubmitPc → Option (Task × ℕ)
  | .storing t q => some (t, q)
  | _ => none

/-- The task a goroutine has received and not finished. -/
def WorkerPc.task? : WorkerPc → Option Task
  | .running t | .locking t | .touching t | .finishing t => some t
  | _ => none

/-- The tasks in a queue: the one in hand and those in the channel. -/
def WorkerQueue.tasks (w : WorkerQueue) : List Task := w.worker.task?.toList ++ w.taskChan

/-- **A task is bound to a queue**: it is in the queue, or its caller has
the queue in hand. -/
def State.Bound (s : State) (t : Task) (q : ℕ) : Prop :=
  (∃ i, (s.submitter i).bound = some (t, q)) ∨ t ∈ (s.heap q).tasks

/-- **The condition on a step**: a `Store` finds its key absent. -/
def FreshStore (cfg : Config) (s : State) : Action → Prop
  | .submitter i _ =>
    ∀ p ∈ (s.submitter i).store?, s.queues.get? (queueKey cfg p.1.shareID) = none
  | _ => True

instance (a : Action) : Decidable (FreshStore cfg s a) :=
  match a with
  | .submitter i _ => inferInstanceAs (Decidable
      (∀ p ∈ (s.submitter i).store?, s.queues.get? (queueKey cfg p.1.shareID) = none))
  | .submit .. | .worker .. | .start | .cleaner _ | .cleanerVisit _ | .cleanerQuit | .stop
  | .stopper | .stopVisit _ => isTrue trivial

/-! ## The invariant -/

/-- **Every task is bound to the queue its key is mapped to**, and a queue
about to be stored is mapped nowhere and in one caller's hands. -/
structure Placed (cfg : Config) (s : State) : Prop where
  off : s.cleaner = .off
  made : ∀ k q, s.queues.get? k = some q → q < s.next
  mapped : ∀ t q, s.Bound t q → s.queues.get? (queueKey cfg t.shareID) = some q
  unmapped : ∀ i t q, (s.submitter i).store? = some (t, q) →
    q < s.next ∧ ∀ k, s.queues.get? k ≠ some q
  single : ∀ i j t t' q, (s.submitter i).store? = some (t, q) →
    (s.submitter j).store? = some (t', q) → i = j

theorem placed_init (cfg : Config) : Placed cfg .init where
  off := rfl
  made := fun _ _ h => by simp [State.init] at h
  mapped := by
    rintro t q (⟨i, h⟩ | h)
    · simp [State.init, SubmitPc.bound] at h
    · simp [State.init, newWorkerQueue, WorkerQueue.tasks, WorkerPc.task?] at h
  unmapped := fun _ _ _ h => by simp [State.init, SubmitPc.store?] at h
  single := fun _ _ _ _ _ h => by simp [State.init, SubmitPc.store?] at h

/-! ## Where tasks come from -/

theorem bound_goto {pc : SubmitPc} {r : ℕ} (h : (s.goto i pc).Bound t r) :
    pc.bound = some (t, r) ∨ s.Bound t r := by
  rcases h with ⟨j, hj⟩ | hmem
  · by_cases hji : j = i
    · subst hji
      exact Or.inl (by simpa [State.goto] using hj)
    · exact Or.inr (Or.inl ⟨j, by simpa [State.goto, hji] using hj⟩)
  · exact Or.inr (Or.inr hmem)

theorem bound_put {w : WorkerQueue} {r : ℕ} (h : (s.put q w).Bound t r) :
    (r = q ∧ t ∈ w.tasks) ∨ s.Bound t r := by
  rcases h with hi | hmem
  · exact Or.inr (Or.inl hi)
  · by_cases hrq : r = q
    · subst hrq
      exact Or.inl ⟨rfl, by simpa [State.put] using hmem⟩
    · exact Or.inr (Or.inr (by simpa [State.put, hrq] using hmem))

/-- What a caller is about to store, after one caller has moved. -/
theorem store?_goto {pc : SubmitPc} {j : ℕ} {p : Task × ℕ}
    (h : ((s.goto i pc).submitter j).store? = some p) :
    (j = i ∧ pc.store? = some p) ∨ (j ≠ i ∧ (s.submitter j).store? = some p) := by
  by_cases hji : j = i
  · subst hji
    exact Or.inl ⟨rfl, by simpa [State.goto] using h⟩
  · exact Or.inr ⟨hji, by simpa [State.goto, hji] using h⟩

/-- **A quiet step**: the map stays, no caller comes to a `Store`, and a
task is bound as before or as the map says. -/
structure Quiet (cfg : Config) (s s' : State) : Prop where
  cleaner : s'.cleaner = s.cleaner
  queues : s'.queues = s.queues
  next : s'.next = s.next
  bound : ∀ t q, s'.Bound t q → s.Bound t q ∨ s.queues.get? (queueKey cfg t.shareID) = some q
  store? : ∀ j p, (s'.submitter j).store? = some p → (s.submitter j).store? = some p

theorem Placed.quiet (hs : Placed cfg s) (h : Quiet cfg s s') : Placed cfg s' where
  off := h.cleaner.trans hs.off
  made := by rw [h.queues, h.next]; exact hs.made
  mapped := by
    intro t q hb
    rw [h.queues]
    rcases h.bound t q hb with hb | hq
    · exact hs.mapped t q hb
    · exact hq
  unmapped := by
    intro i t q hi
    rw [h.queues, h.next]
    exact hs.unmapped i t q (h.store? i _ hi)
  single := by
    intro i j t t' q hi hj
    exact hs.single i j t t' q (h.store? i _ hi) (h.store? j _ hj)

/-- A step that leaves the callers, the tasks and the map alone. -/
theorem Quiet.of_eq (hc : s'.cleaner = s.cleaner) (hq : s'.queues = s.queues)
    (hn : s'.next = s.next) (hh : s'.heap = s.heap) (hsub : s'.submitter = s.submitter) :
    Quiet cfg s s' where
  cleaner := hc
  queues := hq
  next := hn
  bound := by
    intro t q hb
    exact Or.inl (by simpa only [State.Bound, hh, hsub] using hb)
  store? := by
    intro j p hj
    rwa [hsub] at hj

/-- A change to a queue that adds no task. -/
theorem quiet_put {w : WorkerQueue} (hw : ∀ t ∈ w.tasks, t ∈ (s.heap q).tasks) :
    Quiet cfg s (s.put q w) where
  cleaner := rfl
  queues := rfl
  next := rfl
  bound := by
    intro t r hb
    rcases bound_put hb with ⟨rfl, ht⟩ | hb
    · exact Or.inl (Or.inr (hw t ht))
    · exact Or.inl hb
  store? := fun _ _ hj => hj

/-- A caller's move that keeps its task with its queue and leaves no task
in the queue that was in neither. -/
theorem quiet_goto_put {pc : SubmitPc} {w : WorkerQueue} (hi : (s.submitter i).bound = some (t, q))
    (hpc : pc.bound = some (t, q) ∨ pc.bound = none) (hstore : pc.store? = none)
    (hw : ∀ t' ∈ w.tasks, t' = t ∨ t' ∈ (s.heap q).tasks) :
    Quiet cfg s ((s.goto i pc).put q w) where
  cleaner := rfl
  queues := rfl
  next := rfl
  bound := by
    intro t' r hb
    rcases bound_put hb with ⟨rfl, ht⟩ | hb
    · rcases hw t' ht with rfl | ht
      · exact Or.inl (Or.inl ⟨i, hi⟩)
      · exact Or.inl (Or.inr ht)
    · rcases bound_goto hb with hb | hb
      · -- the caller that moved has its own task, or none any more
        rcases hpc with hpc | hpc
        · rw [hpc] at hb
          obtain ⟨rfl, rfl⟩ : t = t' ∧ q = r := by simpa using hb
          exact Or.inl (Or.inl ⟨i, hi⟩)
        · rw [hpc] at hb
          cases hb
      · exact Or.inl hb
  store? := by
    intro j p hj
    have hj : ((s.goto i pc).submitter j).store? = some p := hj
    rcases store?_goto hj with ⟨-, hj⟩ | ⟨-, hj⟩
    · rw [hstore] at hj
      cases hj
    · exact hj

/-- A move of a caller that has no queue yet, or is given the one its key
is mapped to. -/
theorem quiet_goto {pc : SubmitPc}
    (hpc : ∀ t q, pc.bound = some (t, q) → s.queues.get? (queueKey cfg t.shareID) = some q)
    (hstore : pc.store? = none) : Quiet cfg s (s.goto i pc) where
  cleaner := rfl
  queues := rfl
  next := rfl
  bound := by
    intro t r hb
    rcases bound_goto hb with hb | hb
    · exact Or.inr (hpc t r hb)
    · exact Or.inl hb
  store? := by
    intro j p hj
    rcases store?_goto hj with ⟨-, hj⟩ | ⟨-, hj⟩
    · rw [hstore] at hj
      cases hj
    · exact hj

/-! ## The two steps that are not quiet -/

/-- The state behind `NewWorkerQueue`. -/
theorem placed_create (hs : Placed cfg s) :
    Placed cfg { (s.goto i (.storing t s.next)).put s.next (newWorkerQueue now) with
      next := s.next + 1 } where
  off := hs.off
  made := fun k q h => Nat.lt_succ_of_lt (hs.made k q h)
  mapped := by
    intro t' r hb
    have hb : ((s.goto i (.storing t s.next)).put s.next (newWorkerQueue now)).Bound t' r := hb
    rcases bound_put hb with ⟨-, hmem⟩ | hb
    · simp [newWorkerQueue, WorkerQueue.tasks, WorkerPc.task?] at hmem
    · rcases bound_goto hb with hb | hb
      · cases hb
      · exact hs.mapped t' r hb
  unmapped := by
    intro j t' q hj
    have hj : ((s.goto i (.storing t s.next)).submitter j).store? = some (t', q) := hj
    rcases store?_goto hj with ⟨-, hj⟩ | ⟨-, hj⟩
    · -- the new queue has a number no key is mapped to yet
      obtain ⟨rfl, rfl⟩ : t = t' ∧ s.next = q := by simpa [SubmitPc.store?] using hj
      refine ⟨Nat.lt_succ_self _, ?_⟩
      intro k hk
      exact lt_irrefl _ (hs.made k _ hk)
    · have h := hs.unmapped j t' q hj
      exact ⟨Nat.lt_succ_of_lt h.1, h.2⟩
  single := by
    intro j k t₁ t₂ q hj hk
    have hj : ((s.goto i (.storing t s.next)).submitter j).store? = some (t₁, q) := hj
    have hk : ((s.goto i (.storing t s.next)).submitter k).store? = some (t₂, q) := hk
    rcases store?_goto hj with ⟨hji, hj⟩ | ⟨-, hj⟩ <;>
      rcases store?_goto hk with ⟨hki, hk⟩ | ⟨-, hk⟩
    · rw [hji, hki]
    · obtain ⟨-, rfl⟩ : t = t₁ ∧ s.next = q := by simpa [SubmitPc.store?] using hj
      exact absurd (hs.unmapped k t₂ _ hk).1 (lt_irrefl _)
    · obtain ⟨-, rfl⟩ : t = t₂ ∧ s.next = q := by simpa [SubmitPc.store?] using hk
      exact absurd (hs.unmapped j t₁ _ hj).1 (lt_irrefl _)
    · exact hs.single j k t₁ t₂ q hj hk

/-- **The state behind a `Store` that found its key absent.** No task is
bound under the key, so mapping it to the new queue misplaces none. -/
theorem placed_store (hs : Placed cfg s) (hi : s.submitter i = .storing t q)
    (hfresh : s.queues.get? (queueKey cfg t.shareID) = none) :
    Placed cfg { s.goto i (.locking t q) with
      queues := s.queues.set (queueKey cfg t.shareID) q } where
  off := hs.off
  made := by
    intro k r h
    have h : (s.queues.set (queueKey cfg t.shareID) q).get? k = some r := h
    rw [GoMap.get?_set] at h
    split at h
    · obtain rfl : q = r := by simpa using h
      exact (hs.unmapped i t q (by rw [hi]; rfl)).1
    · exact hs.made k r h
  mapped := by
    intro t' r hb
    have hb : (s.goto i (.locking t q)).Bound t' r := hb
    show (s.queues.set (queueKey cfg t.shareID) q).get? (queueKey cfg t'.shareID) = some r
    rcases bound_goto hb with hb | hb
    · obtain ⟨rfl, rfl⟩ : t = t' ∧ q = r := by simpa [SubmitPc.bound] using hb
      exact GoMap.get?_set_self _ _ _
    · have hr := hs.mapped t' r hb
      rw [GoMap.get?_set_of_ne, hr]
      intro hkey
      rw [hkey, hfresh] at hr
      cases hr
  unmapped := by
    intro j t' r hj
    have hj : ((s.goto i (.locking t q)).submitter j).store? = some (t', r) := hj
    rcases store?_goto hj with ⟨-, hj⟩ | ⟨hji, hj⟩
    · cases hj
    · have h := hs.unmapped j t' r hj
      refine ⟨h.1, ?_⟩
      intro k hk
      have hk : (s.queues.set (queueKey cfg t.shareID) q).get? k = some r := hk
      rw [GoMap.get?_set] at hk
      split at hk
      · -- the stored queue was in this caller's hands only
        obtain rfl : q = r := by simpa using hk
        exact hji (hs.single j i t' t q hj (by rw [hi]; rfl))
      · exact h.2 k hk
  single := by
    intro j k t₁ t₂ r hj hk
    have hj : ((s.goto i (.locking t q)).submitter j).store? = some (t₁, r) := hj
    have hk : ((s.goto i (.locking t q)).submitter k).store? = some (t₂, r) := hk
    rcases store?_goto hj with ⟨-, hj⟩ | ⟨-, hj⟩
    · cases hj
    · rcases store?_goto hk with ⟨-, hk⟩ | ⟨-, hk⟩
      · cases hk
      · exact hs.single j k t₁ t₂ r hj hk

/-! ## Every step -/

/-- **A step of the pool without its cleaner keeps every task placed**, if
a `Store` finds its key absent. The cleaner is not started, or `Start` is
given nothing to start it with. -/
theorem placed_moves {a : Action} (hs : Placed cfg s)
    (hstart : a = .start → ¬ (0 < cfg.clearInterval ∧ 0 < cfg.clearTimePass))
    (hfresh : FreshStore cfg s a) (h : Moves cfg s a s') : Placed cfg s' := by
  cases h with
  | enter | loadMiss => exact hs.quiet (quiet_goto (fun _ _ hb => by cases hb) rfl)
  | @loadHit i now t q hpc hkey =>
    -- a hit hands out the queue the key is mapped to
    refine hs.quiet (quiet_goto ?_ rfl)
    intro t' q' hb
    obtain ⟨rfl, rfl⟩ : t = t' ∧ q = q' := by simpa [SubmitPc.bound] using hb
    exact hkey
  | create => exact placed_create hs
  | @store i now t q hpc => exact placed_store hs hpc (hfresh (t, q) (by rw [hpc]; rfl))
  | lock hpc | touch hpc | add hpc =>
    -- from here on the caller keeps its queue, up to the send
    exact hs.quiet (quiet_goto_put (by rw [hpc]; rfl) (Or.inl rfl) rfl fun _ ht => Or.inr ht)
  | sendBuffer hpc | sendDirect hpc =>
    -- the send moves the task from its caller into its queue
    refine hs.quiet (quiet_goto_put (by rw [hpc]; rfl) (Or.inr rfl) rfl ?_)
    intro t' ht'
    simp only [WorkerQueue.tasks, WorkerPc.task?, Option.toList_some, List.mem_append,
      List.mem_singleton] at ht' ⊢
    tauto
  | receive _ hworker hchan =>
    refine hs.quiet (quiet_put ?_)
    intro t' ht'
    simpa [WorkerQueue.tasks, WorkerPc.task?, hworker, hchan] using ht'
  | exit _ _ hchan =>
    refine hs.quiet (quiet_put ?_)
    intro t' ht'
    simp [WorkerQueue.tasks, WorkerPc.task?, hchan] at ht'
  | taskReturn _ hworker | workerLock _ hworker | workerTouch _ hworker =>
    refine hs.quiet (quiet_put ?_)
    intro t' ht'
    simpa [WorkerQueue.tasks, WorkerPc.task?, hworker] using ht'
  | done =>
    -- `wg.Done` lets go of the task
    refine hs.quiet (quiet_put ?_)
    intro t' ht'
    simp only [WorkerQueue.tasks, WorkerPc.task?, Option.toList_none, List.nil_append] at ht'
    exact List.mem_append_right _ ht'
  | start hoff hon => exact absurd hon (hstart rfl)
  | startNothing => exact hs
  | tick hpc | swept hpc | visit hpc | cleanerLock hpc | idle hpc | active hpc | waited hpc
  | closeTwice hpc | close hpc | delete hpc | unlock hpc | quit hpc =>
    -- a cleaner that is off takes no step
    rw [hs.off] at hpc
    cases hpc
  | @stopClose r k q hpc hopen =>
    have hput : Quiet cfg s (s.put q { s.heap q with closed := true }) :=
      quiet_put fun _ ht => ht
    exact hs.quiet ⟨hput.cleaner, hput.queues, hput.next, hput.bound, hput.store?⟩
  | sendClosed | doneBelowZero | stop | stopTwice | stopSwept | stopVisit | stopWaited
  | stopCloseTwice => exact hs.quiet (.of_eq rfl rfl rfl rfl rfl)

/-! ## Whole runs -/

/-- A task is inside its function, in the hands of queue `q`'s goroutine. -/
def State.Running (s : State) (t : Task) (q : ℕ) : Prop := (s.heap q).worker = .running t

/-- **No two goroutines are inside tasks of one share id.** -/
def State.Serial (s : State) : Prop :=
  ∀ t t' q q', s.Running t q → s.Running t' q' → t.shareID = t'.shareID → q = q'

/-- A run without the cleaner, in which every `Store` finds its key absent. -/
def FreshStores (cfg : Config) (as : List Action) : Prop :=
  (pool cfg).Meets (fun s a => a ≠ .start ∧ FreshStore cfg s a) .init as

instance (as : List Action) : Decidable (FreshStores cfg as) :=
  inferInstanceAs (Decidable ((pool cfg).Meets _ _ _))

theorem placed_run {as : List Action} (hmeets : FreshStores cfg as)
    (hrun : (pool cfg).run .init as = some s) : Placed cfg s := by
  refine Machine.run_invariant ?_ (placed_init cfg) hmeets hrun
  intro s a s' hs hg h
  exact placed_moves hs (fun ha => absurd ha hg.1) hg.2 (moves_of_step h).2

/-- A running task is bound to the queue that runs it. -/
theorem bound_of_running (h : s.Running t q) : s.Bound t q := by
  refine Or.inr ?_
  unfold State.Running at h
  simp [WorkerQueue.tasks, WorkerPc.task?, h]

theorem Placed.serial (hs : Placed cfg s) : s.Serial := by
  intro t t' q q' h h' hshare
  have hq := hs.mapped t q (bound_of_running h)
  have hq' := hs.mapped t' q' (bound_of_running h')
  rw [hshare, hq'] at hq
  exact (Option.some.inj hq).symm

/-- **Tasks of one share id run one at a time**, in every state of every
run of callers and goroutines in which each `Store` finds its key absent,
for every number of queues and every capacity. -/
theorem serial_of_freshStores (cfg : Config) (as : List Action) (s : State)
    (hmeets : FreshStores cfg as) (hrun : (pool cfg).run .init as = some s) : s.Serial :=
  (placed_run hmeets hrun).serial

/-! ## Two runs -/

/-- The pool of the source's test: a queue per player. -/
def perPlayer : Config :=
  { queueNum := 0, queueSize := 128, clearInterval := 60, clearTimePass := 600 }

/-- The steps of caller `i` from the lookup of its key to the channel send,
when the key is absent. -/
def firstSubmit (i : ℕ) (t : Task) : List Action :=
  .submit i t :: List.replicate 7 (.submitter i 0)

/-- Two players, a first task each, both inside their functions at the
end. -/
theorem serial_of_freshStores_players :
    let as := firstSubmit 0 ⟨lit "player1", 0⟩ ++ firstSubmit 1 ⟨lit "player2", 1⟩ ++
      [.worker 0 0, .worker 1 0]
    FreshStores perPlayer as ∧ ∃ s, (pool perPlayer).run .init as = some s ∧ s.Serial := by
  intro as
  have hfresh : FreshStores perPlayer as := by decide +kernel
  have hsome : ((pool perPlayer).run .init as).isSome := by decide +kernel
  obtain ⟨s, hs⟩ := Option.isSome_iff_exists.1 hsome
  exact ⟨hfresh, s, hs, serial_of_freshStores perPlayer as s hfresh hs⟩

/-- **Two first submissions for one player.** Both callers miss, both
store, and the second `Store` takes the key over: each caller sends its
task to the queue it made itself, and both tasks run. -/
theorem serial_broken :
    let as : List Action := [.submit 0 ⟨lit "player1", 0⟩, .submit 1 ⟨lit "player1", 1⟩,
        .submitter 0 0, .submitter 1 0] ++
      List.replicate 6 (.submitter 0 0) ++ List.replicate 6 (.submitter 1 0) ++
      [.worker 0 0, .worker 1 0]
    .start ∉ as ∧ ∃ s, (pool perPlayer).run .init as = some s ∧ ¬ s.Serial := by
  intro as
  have hrun : ((pool perPlayer).run .init as).map
      (fun s => ((s.heap 0).worker, (s.heap 1).worker)) =
      some (.running ⟨lit "player1", 0⟩, .running ⟨lit "player1", 1⟩) := by decide +kernel
  obtain ⟨s, hs, hw⟩ := Option.map_eq_some_iff.1 hrun
  have h0 : s.Running ⟨lit "player1", 0⟩ 0 := congrArg Prod.fst hw
  have h1 : s.Running ⟨lit "player1", 1⟩ 1 := congrArg Prod.snd hw
  refine ⟨by decide +kernel, s, hs, ?_⟩
  intro hserial
  exact absurd (hserial _ _ 0 1 h0 h1 rfl) (by decide)

end WorkerPool

end Nrpc
