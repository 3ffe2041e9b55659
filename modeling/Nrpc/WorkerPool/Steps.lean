import Nrpc.WorkerPool.Model.Pool
/-!
# The steps of the pool

`Moves` lists the atomic steps of the pool one by one, each with what it
needs and the state it leads to. Every enabled action is one of them
(`moves_of_step`), and what a run keeps is proved by going through the
list.

Two facts hold in every run of the pool, with any number of callers and
with or without the cleaner and `Stop`. The queue numbers in circulation
are numbers of queues that were made (`Made`), and a mutex is held by
exactly the process that is between its `Lock` and its `Unlock`
(`Locked`).
-/

namespace Nrpc

namespace WorkerPool

/-! ## One constructor for each atomic step -/

/-- **The steps of the pool.** -/
inductive Moves (cfg : Config) (s : State) : Action → State → Prop
  /-- A caller enters `Submit`. -/
  | enter {i t} (hpc : s.submitter i = .idle) :
    Moves cfg s (.submit i t) (s.goto i (.loading t))
  | loadHit {i now t q} (hpc : s.submitter i = .loading t)
    (hkey : s.queues.get? (queueKey cfg t.shareID) = some q) :
    Moves cfg s (.submitter i now) (s.goto i (.locking t q))
  | loadMiss {i now t} (hpc : s.submitter i = .loading t)
    (hkey : s.queues.get? (queueKey cfg t.shareID) = none) :
    Moves cfg s (.submitter i now) (s.goto i (.creating t))
  | create {i now t} (hpc : s.submitter i = .creating t) :
    Moves cfg s (.submitter i now)
      { (s.goto i (.storing t s.next)).put s.next (newWorkerQueue now) with next := s.next + 1 }
  | store {i now t q} (hpc : s.submitter i = .storing t q) :
    Moves cfg s (.submitter i now)
      { s.goto i (.locking t q) with queues := s.queues.set (queueKey cfg t.shareID) q }
  | lock {i now t q} (hpc : s.submitter i = .locking t q) (hmu : (s.heap q).mu = none) :
    Moves cfg s (.submitter i now)
      ((s.goto i (.touching t q)).put q { s.heap q with mu := some (.submitter i) })
  | touch {i now t q} (hpc : s.submitter i = .touching t q) :
    Moves cfg s (.submitter i now)
      ((s.goto i (.adding t q)).put q { s.heap q with lastActive := now, mu := none })
  | add {i now t q} (hpc : s.submitter i = .adding t q) :
    Moves cfg s (.submitter i now)
      ((s.goto i (.sending t q)).put q { s.heap q with wg := (s.heap q).wg + 1 })
  | sendClosed {i now t q} (hpc : s.submitter i = .sending t q)
    (hclosed : (s.heap q).closed = true) : Moves cfg s (.submitter i now) s.crash
  | sendBuffer {i now t q} (hpc : s.submitter i = .sending t q)
    (hopen : (s.heap q).closed = false) (hroom : (s.heap q).taskChan.length < cfg.queueSize) :
    Moves cfg s (.submitter i now)
      ((s.goto i .idle).put q { s.heap q with taskChan := (s.heap q).taskChan ++ [t] })
  | sendDirect {i now t q} (hpc : s.submitter i = .sending t q)
    (hopen : (s.heap q).closed = false) (hsize : cfg.queueSize = 0)
    (hworker : (s.heap q).worker = .receiving) :
    Moves cfg s (.submitter i now)
      ((s.goto i .idle).put q { s.heap q with worker := .running t })
  | receive {q now t rest} (hq : q < s.next) (hworker : (s.heap q).worker = .receiving)
    (hchan : (s.heap q).taskChan = t :: rest) :
    Moves cfg s (.worker q now)
      (s.put q { s.heap q with taskChan := rest, worker := .running t })
  | exit {q now} (hq : q < s.next) (hworker : (s.heap q).worker = .receiving)
    (hchan : (s.heap q).taskChan = []) (hclosed : (s.heap q).closed = true) :
    Moves cfg s (.worker q now) (s.put q { s.heap q with worker := .exited })
  | taskReturn {q now t} (hq : q < s.next) (hworker : (s.heap q).worker = .running t) :
    Moves cfg s (.worker q now) (s.put q { s.heap q with worker := .locking t })
  | workerLock {q now t} (hq : q < s.next) (hworker : (s.heap q).worker = .locking t)
    (hmu : (s.heap q).mu = none) :
    Moves cfg s (.worker q now)
      (s.put q { s.heap q with mu := some .worker, worker := .touching t })
  | workerTouch {q now t} (hq : q < s.next) (hworker : (s.heap q).worker = .touching t) :
    Moves cfg s (.worker q now)
      (s.put q { s.heap q with lastActive := now, mu := none, worker := .finishing t })
  | doneBelowZero {q now t} (hq : q < s.next) (hworker : (s.heap q).worker = .finishing t)
    (hwg : (s.heap q).wg = 0) : Moves cfg s (.worker q now) s.crash
  | done {q now t} (hq : q < s.next) (hworker : (s.heap q).worker = .finishing t)
    (hwg : (s.heap q).wg ≠ 0) :
    Moves cfg s (.worker q now)
      (s.put q { s.heap q with wg := (s.heap q).wg - 1, worker := .receiving })
  | start (hoff : s.cleaner = .off) (hon : 0 < cfg.clearInterval ∧ 0 < cfg.clearTimePass) :
    Moves cfg s .start { s with cleaner := .selecting }
  /-- `WorkerPool.Start` with no interval or no time to pass. -/
  | startNothing : Moves cfg s .start s
  | tick {tick} (hpc : s.cleaner = .selecting) :
    Moves cfg s (.cleaner tick) { s with cleaner := .ranging tick s.sweep }
  | swept {tick now r} (hpc : s.cleaner = .ranging now r) (hswept : s.Swept r) :
    Moves cfg s (.cleaner tick) { s with cleaner := .selecting }
  | visit {now r k q} (hpc : s.cleaner = .ranging now r) (hkey : s.queues.get? k = some q) :
    Moves cfg s (.cleanerVisit k) { s with cleaner := .locking now r k q }
  | cleanerLock {tick now r k q} (hpc : s.cleaner = .locking now r k q)
    (hmu : (s.heap q).mu = none) :
    Moves cfg s (.cleaner tick)
      { s.put q { s.heap q with mu := some .cleaner } with cleaner := .checking now r k q }
  | idle {tick now r k q} (hpc : s.cleaner = .checking now r k q)
    (hpass : cfg.clearTimePass < now - (s.heap q).lastActive) :
    Moves cfg s (.cleaner tick) { s with cleaner := .waiting now r k q }
  | active {tick now r k q} (hpc : s.cleaner = .checking now r k q)
    (hpass : ¬ cfg.clearTimePass < now - (s.heap q).lastActive) :
    Moves cfg s (.cleaner tick) { s with cleaner := .unlocking now r k q }
  | waited {tick now r k q} (hpc : s.cleaner = .waiting now r k q) (hwg : (s.heap q).wg = 0) :
    Moves cfg s (.cleaner tick) { s with cleaner := .closing now r k q }
  | closeTwice {tick now r k q} (hpc : s.cleaner = .closing now r k q)
    (hclosed : (s.heap q).closed = true) :
    Moves cfg s (.cleaner tick) { s.crash with cleaner := .deleting now r k q }
  | close {tick now r k q} (hpc : s.cleaner = .closing now r k q)
    (hopen : (s.heap q).closed = false) :
    Moves cfg s (.cleaner tick)
      { s.put q { s.heap q with closed := true } with cleaner := .deleting now r k q }
  | delete {tick now r k q} (hpc : s.cleaner = .deleting now r k q) :
    Moves cfg s (.cleaner tick)
      { s with queues := s.queues.del k, cleaner := .unlocking now r k q }
  | unlock {tick now r k q} (hpc : s.cleaner = .unlocking now r k q) :
    Moves cfg s (.cleaner tick)
      { s.put q { s.heap q with mu := none } with
        cleaner := .ranging now { r with visited := insert k r.visited } }
  | quit (hpc : s.cleaner = .selecting) :
    Moves cfg s .cleanerQuit { s with cleaner := .exited }
  | stop (hquit : s.quit = false) :
    Moves cfg s .stop { s with quit := true, stopper := .ranging s.sweep }
  | stopTwice (hquit : s.quit = true) : Moves cfg s .stop s.crash
  | stopSwept {r} (hpc : s.stopper = .ranging r) (hswept : s.Swept r) :
    Moves cfg s .stopper { s with stopper := .returned }
  | stopVisit {r k q} (hpc : s.stopper = .ranging r) (hkey : s.queues.get? k = some q) :
    Moves cfg s (.stopVisit k) { s with stopper := .waiting r k q }
  | stopWaited {r k q} (hpc : s.stopper = .waiting r k q) (hwg : (s.heap q).wg = 0) :
    Moves cfg s .stopper { s with stopper := .closing r k q }
  | stopCloseTwice {r k q} (hpc : s.stopper = .closing r k q)
    (hclosed : (s.heap q).closed = true) :
    Moves cfg s .stopper
      { s.crash with stopper := .ranging { r with visited := insert k r.visited } }
  | stopClose {r k q} (hpc : s.stopper = .closing r k q) (hopen : (s.heap q).closed = false) :
    Moves cfg s .stopper
      { s.put q { s.heap q with closed := true } with
        stopper := .ranging { r with visited := insert k r.visited } }

variable {cfg : Config} {s s' : State} {a : Action} {i q : ℕ} {t : Task} {now : ℤ}

/-! ## Every enabled action is one of them -/

theorem moves_of_submitStep (h : submitStep cfg s i now = some s') :
    Moves cfg s (.submitter i now) s' := by
  unfold submitStep at h
  split at h
  · cases h
  · rename_i t hpc
    split at h
    · rename_i q hkey
      obtain rfl := Option.some.inj h
      exact .loadHit hpc hkey
    · rename_i hkey
      obtain rfl := Option.some.inj h
      exact .loadMiss hpc hkey
  · rename_i t hpc
    obtain rfl := Option.some.inj h
    exact .create hpc
  · rename_i t q hpc
    obtain rfl := Option.some.inj h
    exact .store hpc
  · rename_i t q hpc
    obtain ⟨hmu, h⟩ := Option.ite_none_right_eq_some.1 h
    obtain rfl := Option.some.inj h
    exact .lock hpc hmu
  · rename_i t q hpc
    obtain rfl := Option.some.inj h
    exact .touch hpc
  · rename_i t q hpc
    obtain rfl := Option.some.inj h
    exact .add hpc
  · rename_i t q hpc
    simp only [send] at h
    split at h
    · rename_i hclosed
      obtain rfl := Option.some.inj h
      exact .sendClosed hpc hclosed
    · rename_i hopen
      have hopen : (s.heap q).closed = false := by simpa using hopen
      split at h
      · rename_i hroom
        obtain rfl := Option.some.inj h
        exact .sendBuffer hpc hopen hroom
      · obtain ⟨⟨hsize, hworker⟩, h⟩ := Option.ite_none_right_eq_some.1 h
        obtain rfl := Option.some.inj h
        exact .sendDirect hpc hopen hsize hworker

theorem moves_of_workerStep (h : workerStep s q now = some s') :
    Moves cfg s (.worker q now) s' := by
  simp only [workerStep] at h
  obtain ⟨hq, h⟩ := Option.ite_none_left_eq_some.1 h
  have hq : q < s.next := by omega
  split at h
  · rename_i hworker
    split at h
    · rename_i t rest hchan
      obtain rfl := Option.some.inj h
      exact .receive hq hworker hchan
    · rename_i hchan
      obtain ⟨hclosed, h⟩ := Option.ite_none_right_eq_some.1 h
      obtain rfl := Option.some.inj h
      exact .exit hq hworker hchan hclosed
  · rename_i t hworker
    obtain rfl := Option.some.inj h
    exact .taskReturn hq hworker
  · rename_i t hworker
    obtain ⟨hmu, h⟩ := Option.ite_none_right_eq_some.1 h
    obtain rfl := Option.some.inj h
    exact .workerLock hq hworker hmu
  · rename_i t hworker
    obtain rfl := Option.some.inj h
    exact .workerTouch hq hworker
  · rename_i t hworker
    split at h
    · rename_i hwg
      obtain rfl := Option.some.inj h
      exact .doneBelowZero hq hworker hwg
    · rename_i hwg
      obtain rfl := Option.some.inj h
      exact .done hq hworker hwg
  · cases h

theorem moves_of_cleanerStep {tick : ℤ} (h : cleanerStep cfg s tick = some s') :
    Moves cfg s (.cleaner tick) s' := by
  unfold cleanerStep at h
  split at h
  · cases h
  · rename_i hpc
    obtain rfl := Option.some.inj h
    exact .tick hpc
  · rename_i now r hpc
    obtain ⟨hswept, h⟩ := Option.ite_none_right_eq_some.1 h
    obtain rfl := Option.some.inj h
    exact .swept hpc hswept
  · rename_i now r k q hpc
    obtain ⟨hmu, h⟩ := Option.ite_none_right_eq_some.1 h
    obtain rfl := Option.some.inj h
    exact .cleanerLock hpc hmu
  · rename_i now r k q hpc
    split at h
    · rename_i hpass
      obtain rfl := Option.some.inj h
      exact .idle hpc hpass
    · rename_i hpass
      obtain rfl := Option.some.inj h
      exact .active hpc hpass
  · rename_i now r k q hpc
    obtain ⟨hwg, h⟩ := Option.ite_none_right_eq_some.1 h
    obtain rfl := Option.some.inj h
    exact .waited hpc hwg
  · rename_i now r k q hpc
    obtain rfl := Option.some.inj h
    cases hclosed : (s.heap q).closed
    · simpa [closeChan, hclosed] using Moves.close hpc hclosed
    · simpa [closeChan, hclosed] using Moves.closeTwice hpc hclosed
  · rename_i now r k q hpc
    obtain rfl := Option.some.inj h
    exact .delete hpc
  · rename_i now r k q hpc
    obtain rfl := Option.some.inj h
    exact .unlock hpc
  · cases h

theorem moves_of_cleanerVisit {k : GoString} (h : cleanerVisit s k = some s') :
    Moves cfg s (.cleanerVisit k) s' := by
  unfold cleanerVisit at h
  split at h
  · rename_i now r q hpc hkey
    obtain ⟨-, h⟩ := Option.ite_none_left_eq_some.1 h
    obtain rfl := Option.some.inj h
    exact .visit hpc hkey
  · cases h

theorem moves_of_stopStep (h : stopStep s = some s') : Moves cfg s .stopper s' := by
  unfold stopStep at h
  split at h
  · rename_i r hpc
    obtain ⟨hswept, h⟩ := Option.ite_none_right_eq_some.1 h
    obtain rfl := Option.some.inj h
    exact .stopSwept hpc hswept
  · rename_i r k q hpc
    obtain ⟨hwg, h⟩ := Option.ite_none_right_eq_some.1 h
    obtain rfl := Option.some.inj h
    exact .stopWaited hpc hwg
  · rename_i r k q hpc
    obtain rfl := Option.some.inj h
    cases hclosed : (s.heap q).closed
    · simpa [closeChan, hclosed] using Moves.stopClose hpc hclosed
    · simpa [closeChan, hclosed] using Moves.stopCloseTwice hpc hclosed
  · cases h

theorem moves_of_stopVisit {k : GoString} (h : stopVisit s k = some s') :
    Moves cfg s (.stopVisit k) s' := by
  unfold stopVisit at h
  split at h
  · rename_i r q hpc hkey
    obtain ⟨-, h⟩ := Option.ite_none_left_eq_some.1 h
    obtain rfl := Option.some.inj h
    exact .stopVisit hpc hkey
  · cases h

/-- A cleaner that is off takes no step. -/
theorem not_moves_cleaner {tick : ℤ} (hoff : s.cleaner = .off) :
    ¬ Moves cfg s (.cleaner tick) s' := by
  intro h
  cases h with
  | tick hpc | swept hpc | cleanerLock hpc | idle hpc | active hpc | waited hpc | closeTwice hpc
  | close hpc | delete hpc | unlock hpc =>
    rw [hoff] at hpc
    cases hpc

/-- **What an enabled action does.** It is one of the listed steps, taken
in a program that has not panicked. -/
theorem moves_of_step (h : step cfg s a = some s') : s.crashed = false ∧ Moves cfg s a s' := by
  unfold step at h
  obtain ⟨hcrashed, h⟩ := Option.ite_none_left_eq_some.1 h
  refine ⟨by simpa using hcrashed, ?_⟩
  cases a with
  | submit i t =>
    simp only at h
    split at h
    · rename_i hpc
      obtain rfl := Option.some.inj h
      exact .enter hpc
    · cases h
  | submitter i now => exact moves_of_submitStep h
  | worker q now => exact moves_of_workerStep h
  | start =>
    simp only at h
    split at h
    · rename_i hon
      obtain ⟨hoff, h⟩ := Option.ite_none_right_eq_some.1 h
      obtain rfl := Option.some.inj h
      exact .start hoff hon
    · obtain rfl := Option.some.inj h
      exact .startNothing
  | cleaner now => exact moves_of_cleanerStep h
  | cleanerVisit k => exact moves_of_cleanerVisit h
  | cleanerQuit =>
    obtain ⟨⟨-, hpc⟩, h⟩ := Option.ite_none_right_eq_some.1 h
    obtain rfl := Option.some.inj h
    exact .quit hpc
  | stop =>
    simp only at h
    split at h
    · rename_i hquit
      obtain rfl := Option.some.inj h
      exact .stopTwice hquit
    · rename_i hquit
      obtain rfl := Option.some.inj h
      exact .stop (by simpa using hquit)
  | stopper => exact moves_of_stopStep h
  | stopVisit k => exact moves_of_stopVisit h

/-! ## The queues in circulation were made -/

/-- The queue a caller has in hand. -/
def SubmitPc.queue? : SubmitPc → Option ℕ
  | .storing _ q | .locking _ q | .touching _ q | .adding _ q | .sending _ q => some q
  | _ => none

/-- The queue the cleaner has in hand. -/
def CleanerPc.queue? : CleanerPc → Option ℕ
  | .locking _ _ _ q | .checking _ _ _ q | .waiting _ _ _ q | .closing _ _ _ q
  | .deleting _ _ _ q | .unlocking _ _ _ q => some q
  | _ => none

/-- The queue the caller of `Stop` has in hand. -/
def StopPc.queue? : StopPc → Option ℕ
  | .waiting _ _ q | .closing _ _ q => some q
  | _ => none

/-- **Only queues that were made are in circulation**, and the others are
untouched. -/
structure Made (s : State) : Prop where
  mapped : ∀ k q, s.queues.get? k = some q → q < s.next
  submitter : ∀ i, ∀ q ∈ (s.submitter i).queue?, q < s.next
  cleaner : ∀ q ∈ s.cleaner.queue?, q < s.next
  stopper : ∀ q ∈ s.stopper.queue?, q < s.next
  fresh : ∀ q, s.next ≤ q → s.heap q = newWorkerQueue 0

theorem made_init : Made .init where
  mapped := fun _ _ h => by simp [State.init] at h
  submitter := fun _ _ h => by simp [State.init, SubmitPc.queue?] at h
  cleaner := fun _ h => by simp [State.init, CleanerPc.queue?] at h
  stopper := fun _ h => by simp [State.init, StopPc.queue?] at h
  fresh := fun _ _ => rfl

/-- A caller moves on with a queue that was made, or with none. -/
theorem Made.goto {pc : SubmitPc} (hs : Made s) (hpc : ∀ q ∈ pc.queue?, q < s.next) :
    Made (s.goto i pc) where
  mapped := hs.mapped
  submitter := by
    intro j q hj
    by_cases hji : j = i
    · subst hji
      exact hpc q (by simpa [State.goto] using hj)
    · exact hs.submitter j q (by simpa [State.goto, hji] using hj)
  cleaner := hs.cleaner
  stopper := hs.stopper
  fresh := hs.fresh

/-- A queue that was made changes. -/
theorem Made.put {w : WorkerQueue} (hs : Made s) (hq : q < s.next) : Made (s.put q w) where
  mapped := hs.mapped
  submitter := hs.submitter
  cleaner := hs.cleaner
  stopper := hs.stopper
  fresh := by
    intro r hr
    have hr : s.next ≤ r := hr
    have hne : r ≠ q := by omega
    simpa [State.put, hne] using hs.fresh r hr

/-- The cleaner moves on with a queue that was made, or with none. -/
theorem Made.clean {pc : CleanerPc} (hs : Made s) (hpc : ∀ q ∈ pc.queue?, q < s.next) :
    Made { s with cleaner := pc } where
  mapped := hs.mapped
  submitter := hs.submitter
  cleaner := hpc
  stopper := hs.stopper
  fresh := hs.fresh

/-- The caller of `Stop` moves on with a queue that was made, or with
none. -/
theorem Made.halt {pc : StopPc} (hs : Made s) (hpc : ∀ q ∈ pc.queue?, q < s.next) :
    Made { s with stopper := pc } where
  mapped := hs.mapped
  submitter := hs.submitter
  cleaner := hs.cleaner
  stopper := hpc
  fresh := hs.fresh

/-- The program panics with its queues as they are. -/
theorem Made.crash (hs : Made s) : Made s.crash where
  mapped := hs.mapped
  submitter := hs.submitter
  cleaner := hs.cleaner
  stopper := hs.stopper
  fresh := hs.fresh

/-- `NewWorkerQueue` takes the next number. -/
theorem Made.create (hs : Made s) :
    Made { (s.goto i (.storing t s.next)).put s.next (newWorkerQueue now) with
      next := s.next + 1 } where
  mapped := fun k q h => Nat.lt_succ_of_lt (hs.mapped k q h)
  submitter := by
    intro j q hj
    show q < s.next + 1
    by_cases hji : j = i
    · subst hji
      obtain rfl : s.next = q := by simpa [State.goto, State.put, SubmitPc.queue?] using hj
      omega
    · have hq := hs.submitter j q (by simpa [State.goto, State.put, hji] using hj)
      omega
  cleaner := fun q hq => Nat.lt_succ_of_lt (hs.cleaner q hq)
  stopper := fun q hq => Nat.lt_succ_of_lt (hs.stopper q hq)
  fresh := by
    intro q hq
    have hq : s.next + 1 ≤ q := hq
    have hne : q ≠ s.next := by omega
    simpa [State.goto, State.put, hne] using hs.fresh q (by omega)

/-- A key is mapped to a queue that was made. -/
theorem Made.store {k : GoString} (hs : Made s) (hq : q < s.next) :
    Made { s with queues := s.queues.set k q } where
  mapped := by
    intro k' r h
    have h : (s.queues.set k q).get? k' = some r := h
    rw [GoMap.get?_set] at h
    split at h
    · obtain rfl : q = r := by simpa using h
      exact hq
    · exact hs.mapped k' r h
  submitter := hs.submitter
  cleaner := hs.cleaner
  stopper := hs.stopper
  fresh := hs.fresh

/-- A key is deleted. -/
theorem Made.delete {k : GoString} (hs : Made s) :
    Made { s with queues := s.queues.del k } where
  mapped := by
    intro k' r h
    have h : (s.queues.del k).get? k' = some r := h
    rw [GoMap.get?_del] at h
    split at h
    · cases h
    · exact hs.mapped k' r h
  submitter := hs.submitter
  cleaner := hs.cleaner
  stopper := hs.stopper
  fresh := hs.fresh

/-- The queue a caller has in hand was made. -/
theorem Made.lt_of_submitter {pc : SubmitPc} (hs : Made s) (hpc : s.submitter i = pc)
    (hq : pc.queue? = some q) : q < s.next :=
  hs.submitter i q (by rw [hpc]; exact hq)

/-- The queue the cleaner has in hand was made. -/
theorem Made.lt_of_cleaner {pc : CleanerPc} (hs : Made s) (hpc : s.cleaner = pc)
    (hq : pc.queue? = some q) : q < s.next :=
  hs.cleaner q (by rw [hpc]; exact hq)

/-- The queue the caller of `Stop` has in hand was made. -/
theorem Made.lt_of_stopper {pc : StopPc} (hs : Made s) (hpc : s.stopper = pc)
    (hq : pc.queue? = some q) : q < s.next :=
  hs.stopper q (by rw [hpc]; exact hq)

/-- A queue that was made, as the only one in hand. -/
theorem forall_mem_some_lt {n : ℕ} (hq : q < n) : ∀ r ∈ some q, r < n := by
  intro r hr
  obtain rfl := Option.mem_some.1 hr
  exact hq

/-- **A step keeps the queues in circulation made.** -/
theorem made_moves (hs : Made s) (h : Moves cfg s a s') : Made s' := by
  cases h with
  | enter | loadMiss => exact hs.goto (by simp [SubmitPc.queue?])
  | loadHit hpc hkey => exact hs.goto (forall_mem_some_lt (hs.mapped _ _ hkey))
  | create hpc => exact hs.create
  | store hpc =>
    have hq := hs.lt_of_submitter hpc rfl
    refine Made.store (Made.goto hs ?_) hq
    exact forall_mem_some_lt hq
  | lock hpc | touch hpc | add hpc =>
    have hq := hs.lt_of_submitter hpc rfl
    refine Made.put (Made.goto hs ?_) hq
    exact forall_mem_some_lt hq
  | sendBuffer hpc | sendDirect hpc =>
    exact (hs.goto (by simp [SubmitPc.queue?])).put (hs.lt_of_submitter hpc rfl)
  | receive hq | exit hq | taskReturn hq | workerLock hq | workerTouch hq | done hq =>
    exact hs.put hq
  | sendClosed | doneBelowZero | stopTwice => exact hs.crash
  | startNothing => exact hs
  | start | tick | swept | quit => exact hs.clean (by simp [CleanerPc.queue?])
  | visit hpc hkey => exact hs.clean (forall_mem_some_lt (hs.mapped _ _ hkey))
  | cleanerLock hpc | close hpc =>
    have hq := hs.lt_of_cleaner hpc rfl
    exact (hs.put hq).clean (forall_mem_some_lt hq)
  | idle hpc | active hpc | waited hpc =>
    exact hs.clean (forall_mem_some_lt (hs.lt_of_cleaner hpc rfl))
  | closeTwice hpc => exact hs.crash.clean (forall_mem_some_lt (hs.lt_of_cleaner hpc rfl))
  | delete hpc => exact hs.delete.clean (forall_mem_some_lt (hs.lt_of_cleaner hpc rfl))
  | unlock hpc => exact (hs.put (hs.lt_of_cleaner hpc rfl)).clean (by simp [CleanerPc.queue?])
  | stop =>
    have h : Made { s with stopper := .ranging s.sweep } := hs.halt (by simp [StopPc.queue?])
    exact ⟨h.mapped, h.submitter, h.cleaner, h.stopper, h.fresh⟩
  | stopSwept => exact hs.halt (by simp [StopPc.queue?])
  | stopVisit hpc hkey => exact hs.halt (forall_mem_some_lt (hs.mapped _ _ hkey))
  | stopWaited hpc => exact hs.halt (forall_mem_some_lt (hs.lt_of_stopper hpc rfl))
  | stopCloseTwice hpc => exact hs.crash.halt (by simp [StopPc.queue?])
  | stopClose hpc => exact (hs.put (hs.lt_of_stopper hpc rfl)).halt (by simp [StopPc.queue?])

/-! ## Who holds a mutex -/

/-- The queue a caller has locked. -/
def SubmitPc.locked? : SubmitPc → Option ℕ
  | .touching _ q => some q
  | _ => none

/-- The queue the cleaner has locked. -/
def CleanerPc.locked? : CleanerPc → Option ℕ
  | .checking _ _ _ q | .waiting _ _ _ q | .closing _ _ _ q | .deleting _ _ _ q
  | .unlocking _ _ _ q => some q
  | _ => none

/-- The goroutine is between its `Lock` and its `Unlock`. -/
def WorkerPc.Locked : WorkerPc → Prop
  | .touching _ => True
  | _ => False

/-- A process is between its `Lock` and its `Unlock` of a queue. -/
def State.Inside (s : State) (q : ℕ) : Holder → Prop
  | .submitter i => (s.submitter i).locked? = some q
  | .worker => (s.heap q).worker.Locked
  | .cleaner => s.cleaner.locked? = some q

/-- **A mutex is held by the process inside, and by no other.** -/
def Locked (s : State) : Prop := ∀ q h, (s.heap q).mu = some h ↔ s.Inside q h

theorem locked_init : Locked .init := by
  intro q h
  cases h <;> simp [State.init, State.Inside, newWorkerQueue, SubmitPc.locked?,
    CleanerPc.locked?, WorkerPc.Locked]

theorem inside_goto {pc : SubmitPc} {r : ℕ} {h : Holder} :
    (s.goto i pc).Inside r h ↔
      (h = .submitter i ∧ pc.locked? = some r) ∨ (h ≠ .submitter i ∧ s.Inside r h) := by
  cases h with
  | submitter j =>
    by_cases hji : j = i
    · subst hji
      simp [State.Inside, State.goto]
    · simp [State.Inside, State.goto, hji]
  | worker | cleaner => simp [State.Inside, State.goto]

theorem inside_put {w : WorkerQueue} {r : ℕ} {h : Holder} :
    (s.put q w).Inside r h ↔
      (r = q ∧ h = .worker ∧ w.worker.Locked) ∨ (¬ (r = q ∧ h = .worker) ∧ s.Inside r h) := by
  cases h with
  | submitter j => simp [State.Inside, State.put]
  | worker =>
    by_cases hrq : r = q
    · subst hrq
      simp [State.Inside, State.put]
    · simp [State.Inside, State.put, hrq]
  | cleaner => simp [State.Inside, State.put]

theorem inside_clean {pc : CleanerPc} {r : ℕ} {h : Holder} :
    State.Inside { s with cleaner := pc } r h ↔
      (h = .cleaner ∧ pc.locked? = some r) ∨ (h ≠ .cleaner ∧ s.Inside r h) := by
  cases h <;> simp [State.Inside]

/-- A step that takes and frees no mutex. -/
theorem Locked.still (hs : Locked s) (hmu : ∀ q, (s'.heap q).mu = (s.heap q).mu)
    (hin : ∀ q h, s'.Inside q h ↔ s.Inside q h) : Locked s' := by
  intro q h
  rw [hmu, hin]
  exact hs q h

/-- A step that takes a free mutex. -/
theorem Locked.acquire {p : Holder} (hs : Locked s) (hfree : (s.heap q).mu = none)
    (hmu : ∀ r, (s'.heap r).mu = if r = q then some p else (s.heap r).mu)
    (hin : ∀ r h, s'.Inside r h ↔ (r = q ∧ h = p) ∨ s.Inside r h) : Locked s' := by
  intro r h
  rw [hmu, hin, ← hs r h]
  by_cases hrq : r = q
  · subst hrq
    simp [hfree, eq_comm]
  · simp [hrq]

/-- A step that frees the mutex of the process inside. -/
theorem Locked.release {p : Holder} (hs : Locked s) (hp : s.Inside q p)
    (hmu : ∀ r, (s'.heap r).mu = if r = q then none else (s.heap r).mu)
    (hin : ∀ r h, s'.Inside r h ↔ s.Inside r h ∧ ¬ (r = q ∧ h = p)) : Locked s' := by
  intro r h
  rw [hmu, hin, ← hs r h]
  by_cases hrq : r = q
  · subst hrq
    have hheld : (s.heap r).mu = some p := (hs r p).2 hp
    simp [hheld, eq_comm]
  · simp [hrq]

theorem mu_put {w : WorkerQueue} {r : ℕ} :
    ((s.put q w).heap r).mu = if r = q then w.mu else (s.heap r).mu := by
  by_cases hrq : r = q
  · subst hrq
    simp [State.put]
  · simp [State.put, hrq]

/-- A change to a queue that leaves its mutex, and the goroutine on its
side of it. -/
theorem Locked.put {w : WorkerQueue} (hs : Locked s) (hmu : w.mu = (s.heap q).mu)
    (hworker : w.worker.Locked ↔ (s.heap q).worker.Locked) : Locked (s.put q w) := by
  refine hs.still ?_ ?_
  · intro r
    rw [mu_put]
    split
    · rename_i hrq
      rw [hrq, hmu]
    · rfl
  · intro r h
    rw [inside_put]
    by_cases hrq : r = q ∧ h = .worker
    · obtain ⟨rfl, rfl⟩ := hrq
      simp [State.Inside, hworker]
    · simp only [hrq, not_false_eq_true, true_and, or_iff_right_iff_imp]
      rintro ⟨hr, hh, -⟩
      exact absurd ⟨hr, hh⟩ hrq

/-- A caller moves on outside its critical section. -/
theorem Locked.goto {pc : SubmitPc} (hs : Locked s)
    (hpc : pc.locked? = (s.submitter i).locked?) : Locked (s.goto i pc) := by
  refine hs.still (fun _ => rfl) ?_
  intro r h
  rw [inside_goto, hpc]
  by_cases hh : h = .submitter i
  · subst hh
    simp [State.Inside]
  · simp [hh]

/-- The cleaner moves on, on its side of the mutex. -/
theorem Locked.clean {pc : CleanerPc} (hs : Locked s) (hpc : pc.locked? = s.cleaner.locked?) :
    Locked { s with cleaner := pc } := by
  refine hs.still (fun _ => rfl) ?_
  intro r h
  rw [inside_clean, hpc]
  by_cases hh : h = .cleaner
  · subst hh
    simp [State.Inside]
  · simp [hh]

/-- A change to a queue with its goroutine where it was. -/
theorem inside_put_of_worker {w : WorkerQueue} {r : ℕ} {h : Holder}
    (hw : w.worker = (s.heap q).worker) : (s.put q w).Inside r h ↔ s.Inside r h := by
  rw [inside_put]
  by_cases hrq : r = q ∧ h = .worker
  · obtain ⟨rfl, rfl⟩ := hrq
    simp [State.Inside, hw]
  · simp only [hrq, not_false_eq_true, true_and, or_iff_right_iff_imp]
    rintro ⟨hr, hh, -⟩
    exact absurd ⟨hr, hh⟩ hrq

/-- A caller locks a queue. -/
theorem Locked.lock (hs : Locked s) (hpc : s.submitter i = .locking t q)
    (hfree : (s.heap q).mu = none) :
    Locked ((s.goto i (.touching t q)).put q { s.heap q with mu := some (.submitter i) }) := by
  refine hs.acquire hfree (fun r => mu_put) ?_
  intro r h
  rw [inside_put_of_worker, inside_goto]
  · by_cases hh : h = .submitter i
    · subst hh
      simp [State.Inside, hpc, SubmitPc.locked?, eq_comm]
    · simp [hh]
  · rfl

/-- A caller unlocks its queue. -/
theorem Locked.touch (hs : Locked s) (hpc : s.submitter i = .touching t q) :
    Locked ((s.goto i (.adding t q)).put q { s.heap q with lastActive := now, mu := none }) := by
  have hin : s.Inside q (.submitter i) := by simp [State.Inside, hpc, SubmitPc.locked?]
  refine hs.release hin (fun r => mu_put) ?_
  intro r h
  rw [inside_put_of_worker, inside_goto]
  · by_cases hh : h = .submitter i
    · subst hh
      simp [State.Inside, hpc, SubmitPc.locked?, eq_comm]
    · simp [hh]
  · rfl

/-- The goroutine locks its queue. -/
theorem Locked.workerLock (hs : Locked s) (hfree : (s.heap q).mu = none) :
    Locked (s.put q { s.heap q with mu := some .worker, worker := .touching t }) := by
  refine hs.acquire hfree (fun r => mu_put) ?_
  intro r h
  rw [inside_put]
  by_cases hh : r = q ∧ h = .worker
  · simp [hh, WorkerPc.Locked]
  · simp only [hh, not_false_eq_true, true_and, false_or, or_iff_right_iff_imp]
    rintro ⟨hr, hw, -⟩
    exact absurd ⟨hr, hw⟩ hh

/-- The goroutine unlocks its queue. -/
theorem Locked.workerTouch (hs : Locked s) (hworker : (s.heap q).worker = .touching t) :
    Locked (s.put q
      { s.heap q with lastActive := now, mu := none, worker := .finishing t }) := by
  have hin : s.Inside q .worker := by simp [State.Inside, hworker, WorkerPc.Locked]
  refine hs.release hin (fun r => mu_put) ?_
  intro r h
  rw [inside_put]
  by_cases hh : r = q ∧ h = .worker
  · simp [hh, WorkerPc.Locked]
  · simp [hh, WorkerPc.Locked]

/-- The cleaner locks a queue. -/
theorem Locked.cleanerLock {tick : ℤ} {r : Sweep} {k : GoString} (hs : Locked s)
    (hpc : s.cleaner = .locking tick r k q) (hfree : (s.heap q).mu = none) :
    Locked { s.put q { s.heap q with mu := some .cleaner } with
      cleaner := .checking tick r k q } := by
  refine hs.acquire hfree (fun r => mu_put) ?_
  intro r' h
  rw [inside_clean, inside_put_of_worker]
  · by_cases hh : h = .cleaner
    · subst hh
      simp [State.Inside, hpc, CleanerPc.locked?, eq_comm]
    · simp [hh]
  · rfl

/-- The cleaner unlocks its queue. -/
theorem Locked.unlock {tick : ℤ} {r r' : Sweep} {k : GoString} (hs : Locked s)
    (hpc : s.cleaner = .unlocking tick r k q) :
    Locked { s.put q { s.heap q with mu := none } with cleaner := .ranging tick r' } := by
  have hin : s.Inside q .cleaner := by simp [State.Inside, hpc, CleanerPc.locked?]
  refine hs.release hin (fun r => mu_put) ?_
  intro p h
  rw [inside_clean, inside_put_of_worker]
  · by_cases hh : h = .cleaner
    · subst hh
      simp [State.Inside, hpc, CleanerPc.locked?, eq_comm]
    · simp [hh]
  · rfl

/-- `NewWorkerQueue` makes a queue nobody has locked. -/
theorem Locked.create (hs : Locked s) (hmade : Made s) (hpc : s.submitter i = .creating t) :
    Locked { (s.goto i (.storing t s.next)).put s.next (newWorkerQueue now) with
      next := s.next + 1 } := by
  have hfresh := hmade.fresh s.next le_rfl
  have hgoto : Locked (s.goto i (.storing t s.next)) := hs.goto (by rw [hpc]; rfl)
  have hput : Locked ((s.goto i (.storing t s.next)).put s.next (newWorkerQueue now)) := by
    refine hgoto.put ?_ ?_
    · show none = (s.heap s.next).mu
      rw [hfresh]
      rfl
    · show _ ↔ (s.heap s.next).worker.Locked
      rw [hfresh]
      rfl
  exact hput.still (fun _ => rfl) (fun q h => by cases h <;> rfl)

/-- **A step keeps the mutexes with the processes inside.** -/
theorem locked_moves (hmade : Made s) (hs : Locked s) (h : Moves cfg s a s') : Locked s' := by
  cases h with
  | enter hpc | loadHit hpc | loadMiss hpc => exact hs.goto (by rw [hpc]; rfl)
  | create hpc => exact hs.create hmade hpc
  | store hpc =>
    refine Locked.still (hs.goto ?_) (fun _ => rfl) (fun q h => by cases h <;> rfl)
    rw [hpc]
    rfl
  | lock hpc hmu => exact hs.lock hpc hmu
  | touch hpc => exact hs.touch hpc
  | add hpc | sendBuffer hpc =>
    refine Locked.put (hs.goto ?_) rfl Iff.rfl
    rw [hpc]
    rfl
  | sendDirect hpc _ _ hworker =>
    refine Locked.put (hs.goto ?_) rfl ?_
    · rw [hpc]
      rfl
    · show _ ↔ (s.heap _).worker.Locked
      rw [hworker]
      rfl
  | receive _ hworker | exit _ hworker | taskReturn _ hworker | done _ hworker =>
    refine hs.put rfl ?_
    rw [hworker]
    rfl
  | workerLock _ _ hmu => exact hs.workerLock hmu
  | workerTouch _ hworker => exact hs.workerTouch hworker
  | sendClosed | doneBelowZero | stopTwice =>
    exact hs.still (fun _ => rfl) (fun q h => by cases h <;> rfl)
  | startNothing => exact hs
  | start hpc | tick hpc | swept hpc | visit hpc | idle hpc | active hpc | waited hpc
  | quit hpc => exact hs.clean (by rw [hpc]; rfl)
  | cleanerLock hpc hmu => exact hs.cleanerLock hpc hmu
  | closeTwice hpc =>
    refine Locked.still (hs.clean (?_ : CleanerPc.locked? (.deleting _ _ _ _) = _))
      (fun _ => rfl) (fun q h => by cases h <;> rfl)
    rw [hpc]
    rfl
  | close hpc =>
    refine Locked.clean (hs.put rfl Iff.rfl) ?_
    show _ = s.cleaner.locked?
    rw [hpc]
    rfl
  | delete hpc =>
    refine Locked.still (hs.clean (?_ : CleanerPc.locked? (.unlocking _ _ _ _) = _))
      (fun _ => rfl) (fun q h => by cases h <;> rfl)
    rw [hpc]
    rfl
  | unlock hpc => exact hs.unlock hpc
  | stop | stopSwept | stopVisit | stopWaited | stopCloseTwice =>
    exact hs.still (fun _ => rfl) (fun q h => by cases h <;> rfl)
  | @stopClose r k q =>
    have hput : Locked (s.put q { s.heap q with closed := true }) := hs.put rfl Iff.rfl
    exact hput.still (fun _ => rfl) (fun q h => by cases h <;> rfl)

/-- **In every run a mutex is held by the process inside.** -/
theorem locked_of_run {as : List Action} (h : (pool cfg).run .init as = some s) :
    Made s ∧ Locked s := by
  refine Machine.run_invariant_of_step (I := fun s => Made s ∧ Locked s) ?_
    ⟨made_init, locked_init⟩ h
  rintro s a s' ⟨hmade, hlocked⟩ hstep
  obtain ⟨-, hmoves⟩ := moves_of_step hstep
  exact ⟨made_moves hmade hmoves, locked_moves hmade hlocked hmoves⟩

end WorkerPool

end Nrpc
