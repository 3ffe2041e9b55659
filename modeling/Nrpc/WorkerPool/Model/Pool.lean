import Mathlib.Logic.Function.Basic
import Nrpc.Common.GoMap
import Nrpc.Common.Machine
import Nrpc.Common.Text
/-!
# The worker pool, step by step

`WorkerPool` keeps a queue per key in a `sync.Map`; a queue is a channel of
tasks, a mutex over its last active time, a wait group and a goroutine that
runs the tasks. Any number of callers sit in `Submit`, one goroutine may
clean idle queues up and one caller may stop the pool.

Each process has a program counter and moves by one atomic step of the
source at a time: an operation of the `sync.Map`, taking a mutex, the work
done under it, an operation of the wait group, a channel operation, the
return of a task. The counter fixes which step comes next. What it leaves
open is in the action: who moves, what the clock reads, which key a range
visits next. Sending on a closed channel, closing one twice and a wait
group below zero end the program.

A wait for a wait group that has come to zero goes on here where an `Add`
comes before the wait returns. The wait group of the library may panic then,
being reused too early; this panic is left out.
-/

namespace Nrpc

namespace WorkerPool

/-- What `NewWorkerPool` is given. -/
structure Config where
  /-- The number of queues, 0 for one per share id. -/
  queueNum : ℤ
  /-- The capacity of a queue's channel. -/
  queueSize : ℕ
  clearInterval : ℤ
  clearTimePass : ℤ

/-- A task handed to `Submit`: the share id it is under, and which closure
it is. -/
structure Task where
  shareID : GoString
  id : ℕ
deriving DecidableEq

/-- The 32-bit FNV-1a hash, `fnv.New32a`. -/
def fnv32a (bs : GoString) : UInt32 :=
  bs.foldl (fun h b => (h ^^^ b.toUInt32) * 16777619) 2166136261

/-- The source's `hash`. -/
def hash (uid : GoString) : ℕ := (fnv32a uid).toNat

/-- The key `getQueue` looks a share id up under. -/
def queueKey (cfg : Config) (uid : GoString) : GoString :=
  if 0 < cfg.queueNum then itoa (hash uid % cfg.queueNum.toNat) else uid

/-! ## State -/

/-- Who holds a queue's mutex. -/
inductive Holder
  | submitter (i : ℕ)
  | worker
  | cleaner
deriving DecidableEq

/-- Where a queue's goroutine stands. -/
inductive WorkerPc
  /-- In the range over the channel. -/
  | receiving
  /-- Inside the task's function. -/
  | running (t : Task)
  /-- The function has returned, the mutex is wanted. -/
  | locking (t : Task)
  /-- The mutex is held. -/
  | touching (t : Task)
  /-- The mutex is released, `wg.Done` comes next. -/
  | finishing (t : Task)
  /-- The channel was closed and empty. -/
  | exited
deriving DecidableEq

/-- The source's `WorkerQueue` with its goroutine. -/
structure WorkerQueue where
  taskChan : List Task
  closed : Bool
  lastActive : ℤ
  mu : Option Holder
  wg : ℕ
  worker : WorkerPc
deriving DecidableEq

/-- The source's `NewWorkerQueue`: an empty channel, the goroutine started. -/
def newWorkerQueue (now : ℤ) : WorkerQueue :=
  { taskChan := [], closed := false, lastActive := now, mu := none, wg := 0, worker := .receiving }

/-- Where a caller of `Submit` stands. -/
inductive SubmitPc
  | idle
  /-- `getQueue`: the `Load` comes next. -/
  | loading (t : Task)
  /-- `getQueue`: the `Load` missed, `NewWorkerQueue` comes next. -/
  | creating (t : Task)
  /-- `getQueue`: the `Store` of the new queue comes next. -/
  | storing (t : Task) (q : ℕ)
  /-- `WorkerQueue.Submit`: the mutex is wanted. -/
  | locking (t : Task) (q : ℕ)
  /-- The mutex is held. -/
  | touching (t : Task) (q : ℕ)
  /-- `wg.Add` comes next. -/
  | adding (t : Task) (q : ℕ)
  /-- The channel send comes next. -/
  | sending (t : Task) (q : ℕ)
deriving DecidableEq

/-- A range over the `sync.Map` in progress: the keys it found at its
start and the keys visited so far. -/
structure Sweep where
  found : Finset GoString
  visited : Finset GoString
deriving DecidableEq

/-- Where the cleaner stands; `now` is the time its tick was taken at. -/
inductive CleanerPc
  | off
  | selecting
  | ranging (now : ℤ) (r : Sweep)
  | locking (now : ℤ) (r : Sweep) (key : GoString) (q : ℕ)
  | checking (now : ℤ) (r : Sweep) (key : GoString) (q : ℕ)
  | waiting (now : ℤ) (r : Sweep) (key : GoString) (q : ℕ)
  | closing (now : ℤ) (r : Sweep) (key : GoString) (q : ℕ)
  | deleting (now : ℤ) (r : Sweep) (key : GoString) (q : ℕ)
  | unlocking (now : ℤ) (r : Sweep) (key : GoString) (q : ℕ)
  | exited
deriving DecidableEq

/-- Where the caller of `WorkerPool.Stop` stands. -/
inductive StopPc
  | off
  | ranging (r : Sweep)
  | waiting (r : Sweep) (key : GoString) (q : ℕ)
  | closing (r : Sweep) (key : GoString) (q : ℕ)
  | returned
deriving DecidableEq

/-- The pool: the `sync.Map`, the queues made so far by number, and the
processes. -/
structure State where
  queues : GoMap GoString ℕ
  heap : ℕ → WorkerQueue
  next : ℕ
  submitter : ℕ → SubmitPc
  cleaner : CleanerPc
  stopper : StopPc
  /-- The `quit` channel is closed. -/
  quit : Bool
  /-- The program has panicked. -/
  crashed : Bool

/-- The pool as `NewWorkerPool` returns it. -/
def State.init : State :=
  { queues := .empty, heap := fun _ => newWorkerQueue 0, next := 0, submitter := fun _ => .idle,
    cleaner := .off, stopper := .off, quit := false, crashed := false }

namespace State

variable (s : State)

/-- A caller moves on. -/
def goto (i : ℕ) (pc : SubmitPc) : State :=
  { s with submitter := Function.update s.submitter i pc }

/-- A queue changes. -/
def put (q : ℕ) (w : WorkerQueue) : State := { s with heap := Function.update s.heap q w }

/-- The program panics. -/
def crash : State := { s with crashed := true }

/-- A range begins. -/
def sweep : Sweep := ⟨s.queues.keys, ∅⟩

/-- A range is over: each key it found was visited or is gone. -/
def Swept (r : Sweep) : Prop := ∀ k ∈ r.found, (s.queues.get? k).isSome → k ∈ r.visited

instance (r : Sweep) : Decidable (s.Swept r) :=
  inferInstanceAs (Decidable (∀ k ∈ r.found, (s.queues.get? k).isSome → k ∈ r.visited))

end State

/-! ## Steps -/

/-- The channel send of `WorkerQueue.Submit`: into the buffer, or, on an
unbuffered channel, into the hands of the waiting goroutine. -/
def send (cfg : Config) (s : State) (i : ℕ) (t : Task) (q : ℕ) : Option State :=
  let w := s.heap q
  if w.closed then some s.crash
  else if w.taskChan.length < cfg.queueSize then
    some ((s.goto i .idle).put q { w with taskChan := w.taskChan ++ [t] })
  else if cfg.queueSize = 0 ∧ w.worker = .receiving then
    some ((s.goto i .idle).put q { w with worker := .running t })
  else none

/-- The next step of a caller of `Submit`. -/
def submitStep (cfg : Config) (s : State) (i : ℕ) (now : ℤ) : Option State :=
  match s.submitter i with
  | .idle => none
  | .loading t =>
    match s.queues.get? (queueKey cfg t.shareID) with
    | some q => some (s.goto i (.locking t q))
    | none => some (s.goto i (.creating t))
  | .creating t =>
    some { (s.goto i (.storing t s.next)).put s.next (newWorkerQueue now) with next := s.next + 1 }
  | .storing t q =>
    some { s.goto i (.locking t q) with queues := s.queues.set (queueKey cfg t.shareID) q }
  | .locking t q =>
    let w := s.heap q
    if w.mu = none then
      some ((s.goto i (.touching t q)).put q { w with mu := some (.submitter i) })
    else none
  | .touching t q =>
    some ((s.goto i (.adding t q)).put q { s.heap q with lastActive := now, mu := none })
  | .adding t q =>
    some ((s.goto i (.sending t q)).put q { s.heap q with wg := (s.heap q).wg + 1 })
  | .sending t q => send cfg s i t q

/-- The next step of a queue's goroutine. -/
def workerStep (s : State) (q : ℕ) (now : ℤ) : Option State :=
  let w := s.heap q
  if s.next ≤ q then none
  else
    match w.worker with
    | .receiving =>
      match w.taskChan with
      | t :: rest => some (s.put q { w with taskChan := rest, worker := .running t })
      | [] => if w.closed then some (s.put q { w with worker := .exited }) else none
    | .running t => some (s.put q { w with worker := .locking t })
    | .locking t =>
      if w.mu = none then some (s.put q { w with mu := some .worker, worker := .touching t })
      else none
    | .touching t =>
      some (s.put q { w with lastActive := now, mu := none, worker := .finishing t })
    | .finishing _ =>
      if w.wg = 0 then some s.crash
      else some (s.put q { w with wg := w.wg - 1, worker := .receiving })
    | .exited => none

/-- The close of a queue's channel. -/
def closeChan (s : State) (q : ℕ) : State :=
  if (s.heap q).closed then s.crash else s.put q { s.heap q with closed := true }

/-- The next step of the cleaner that needs no choice: the tick of its
ticker, and everything inside the range's function. -/
def cleanerStep (cfg : Config) (s : State) (tick : ℤ) : Option State :=
  match s.cleaner with
  | .off => none
  | .selecting => some { s with cleaner := .ranging tick s.sweep }
  | .ranging _ r => if s.Swept r then some { s with cleaner := .selecting } else none
  | .locking now r k q =>
    if (s.heap q).mu = none then
      some { s.put q { s.heap q with mu := some .cleaner } with cleaner := .checking now r k q }
    else none
  | .checking now r k q =>
    if cfg.clearTimePass < now - (s.heap q).lastActive then
      some { s with cleaner := .waiting now r k q }
    else some { s with cleaner := .unlocking now r k q }
  | .waiting now r k q =>
    if (s.heap q).wg = 0 then some { s with cleaner := .closing now r k q } else none
  | .closing now r k q => some { closeChan s q with cleaner := .deleting now r k q }
  | .deleting now r k q =>
    some { s with queues := s.queues.del k, cleaner := .unlocking now r k q }
  | .unlocking now r k q =>
    some { s.put q { s.heap q with mu := none } with
      cleaner := .ranging now { r with visited := insert k r.visited } }
  | .exited => none

/-- The cleaner's range calls its function on a key not visited yet. -/
def cleanerVisit (s : State) (k : GoString) : Option State :=
  match s.cleaner, s.queues.get? k with
  | .ranging now r, some q =>
    if k ∈ r.visited then none else some { s with cleaner := .locking now r k q }
  | _, _ => none

/-- The next step of `WorkerPool.Stop` that needs no choice. -/
def stopStep (s : State) : Option State :=
  match s.stopper with
  | .ranging r => if s.Swept r then some { s with stopper := .returned } else none
  | .waiting r k q => if (s.heap q).wg = 0 then some { s with stopper := .closing r k q } else none
  | .closing r k q =>
    some { closeChan s q with stopper := .ranging { r with visited := insert k r.visited } }
  | _ => none

/-- The range of `WorkerPool.Stop` calls its function on a key not visited
yet. -/
def stopVisit (s : State) (k : GoString) : Option State :=
  match s.stopper, s.queues.get? k with
  | .ranging r, some q => if k ∈ r.visited then none else some { s with stopper := .waiting r k q }
  | _, _ => none

/-- Who moves, and what it is given. -/
inductive Action
  /-- `Submit(t.shareID, t)` is called by caller `i`. -/
  | submit (i : ℕ) (t : Task)
  | submitter (i : ℕ) (now : ℤ)
  | worker (q : ℕ) (now : ℤ)
  /-- `WorkerPool.Start` is called, once: the pool has one cleaner. -/
  | start
  | cleaner (now : ℤ)
  | cleanerVisit (k : GoString)
  /-- The cleaner's select takes `quit`. -/
  | cleanerQuit
  /-- `WorkerPool.Stop` is called. -/
  | stop
  | stopper
  | stopVisit (k : GoString)
deriving DecidableEq

/-- **One atomic step of the pool.** -/
def step (cfg : Config) (s : State) (a : Action) : Option State :=
  if s.crashed then none
  else
    match a with
    | .submit i t =>
      match s.submitter i with
      | .idle => some (s.goto i (.loading t))
      | _ => none
    | .submitter i now => submitStep cfg s i now
    | .worker q now => workerStep s q now
    | .start =>
      if 0 < cfg.clearInterval ∧ 0 < cfg.clearTimePass then
        if s.cleaner = .off then some { s with cleaner := .selecting } else none
      else some s
    | .cleaner now => cleanerStep cfg s now
    | .cleanerVisit k => cleanerVisit s k
    | .cleanerQuit =>
      if s.quit ∧ s.cleaner = .selecting then some { s with cleaner := .exited } else none
    | .stop =>
      if s.quit then some s.crash
      else some { s with quit := true, stopper := .ranging s.sweep }
    | .stopper => stopStep s
    | .stopVisit k => stopVisit s k

/-- The pool as a machine. -/
def pool (cfg : Config) : Machine State Action := ⟨step cfg⟩

end WorkerPool

end Nrpc
