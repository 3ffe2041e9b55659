import Nrpc.Common.Tally
import Nrpc.WorkerPool.Tasks
/-!
# What the cleaner may throw away

The cleaner locks an idle queue, waits for its wait group, closes its
channel, deletes it from the map and unlocks it. `Submit` looks its queue
up before it takes the mutex and counts its task after it has released it,
so neither the mutex nor the wait group keeps a caller that already has
the queue in hand from sending on the closed channel (`cleanup_crash`).

With one caller that is the only way to lose a task. `Apart` says of a
step that the caller has no queue in hand when the wait for it is over,
and is given none that is past it. In a run of such steps the wait group
counts the tasks a queue has (`Kept.account`), a closed queue has none, and
every task is started at most once, out of a queue its key is still mapped
to (`cleanup_safe_of_apart`).
-/

namespace Nrpc

namespace WorkerPool

variable {cfg : Config} {s s' : State} {a : Action} {i q : ℕ} {t : Task} {now : ℤ}

/-! ## What is held -/

/-- The tasks submitted by the one caller and not started: the one in its
hands and those in the channels. -/
def State.held (s : State) : Multiset Task :=
  ((s.submitter 0).task?.toList : Multiset Task) +
    tally (fun w : WorkerQueue => (w.taskChan : Multiset Task)) ((List.range s.next).map s.heap)

/-! ## One caller, and the condition -/

/-- The actions of a pool with one caller that is not stopped. -/
def Action.Solo : Action → Prop
  | .submit i _ => i = 0
  | .stop => False
  | _ => True

instance (a : Action) : Decidable a.Solo :=
  match a with
  | .submit i _ => inferInstanceAs (Decidable (i = 0))
  | .stop => isFalse id
  | .submitter .. | .worker .. | .start | .cleaner _ | .cleanerVisit _ | .cleanerQuit | .stopper
  | .stopVisit _ => isTrue trivial

/-- The task a caller is about to look a queue up for. -/
def SubmitPc.load? : SubmitPc → Option Task
  | .loading t => some t
  | _ => none

/-- The key and the queue the cleaner's range is at, up to the `Delete`. -/
def CleanerPc.visit? : CleanerPc → Option (GoString × ℕ)
  | .locking _ _ k q | .checking _ _ k q | .waiting _ _ k q | .closing _ _ k q
  | .deleting _ _ k q => some (k, q)
  | _ => none

/-- The queue whose wait group the cleaner waits for. -/
def CleanerPc.wait? : CleanerPc → Option ℕ
  | .waiting _ _ _ q => some q
  | _ => none

/-- The queue the cleaner has waited for and not deleted yet. -/
def CleanerPc.condemned? : CleanerPc → Option ℕ
  | .closing _ _ _ q | .deleting _ _ _ q => some q
  | _ => none

theorem CleanerPc.exists_visit_of_condemned {pc : CleanerPc} (h : pc.condemned? = some q) :
    ∃ k, pc.visit? = some (k, q) := by
  cases pc with
  | closing _ _ k _ | deleting _ _ k _ =>
    exact ⟨k, by simpa [CleanerPc.visit?, CleanerPc.condemned?] using h⟩
  | off | selecting | ranging | locking | checking | waiting | unlocking | exited => cases h

/-- **The condition on a step.** When the cleaner's wait for a queue is
over, the caller does not have that queue in hand; and no `Load` returns a
queue the cleaner is about to close or delete. -/
def Apart (cfg : Config) (s : State) : Action → Prop
  | .cleaner _ => ∀ q ∈ s.cleaner.wait?, ∀ p ∈ (s.submitter 0).bound, p.2 ≠ q
  | .submitter i _ => ∀ q ∈ s.cleaner.condemned?, ∀ t ∈ (s.submitter i).load?,
      s.queues.get? (queueKey cfg t.shareID) ≠ some q
  | _ => True

instance (a : Action) : Decidable (Apart cfg s a) :=
  match a with
  | .cleaner _ => inferInstanceAs (Decidable
      (∀ q ∈ s.cleaner.wait?, ∀ p ∈ (s.submitter 0).bound, p.2 ≠ q))
  | .submitter i _ => inferInstanceAs (Decidable
      (∀ q ∈ s.cleaner.condemned?, ∀ t ∈ (s.submitter i).load?,
        s.queues.get? (queueKey cfg t.shareID) ≠ some q))
  | .submit .. | .worker .. | .start | .cleanerVisit _ | .cleanerQuit | .stop | .stopper
  | .stopVisit _ => isTrue trivial

/-! ## The invariant -/

/-- What a caller's place says about the map and its queue. -/
def CallerOk (cfg : Config) (s : State) : SubmitPc → Prop
  | .idle | .loading _ => True
  | .creating t => s.queues.get? (queueKey cfg t.shareID) = none
  | .storing t q => s.queues.get? (queueKey cfg t.shareID) = none ∧
      (∀ k, s.queues.get? k ≠ some q) ∧ (s.heap q).closed = false ∧ (s.heap q).tasks = []
  | .locking t q | .touching t q | .adding t q | .sending t q =>
      s.queues.get? (queueKey cfg t.shareID) = some q ∧ s.cleaner.condemned? ≠ some q

/-- **What one caller and the cleaner keep.** -/
structure Kept (cfg : Config) (s : State) : Prop where
  running : s.crashed = false
  alone : ∀ i, i ≠ 0 → s.submitter i = .idle
  unstopped : s.stopper = .off
  single : ∀ k k' q, s.queues.get? k = some q → s.queues.get? k' = some q → k = k'
  caller : CallerOk cfg s (s.submitter 0)
  /-- The range is at a key that is still mapped to its queue. -/
  visited : ∀ k q, s.cleaner.visit? = some (k, q) → s.queues.get? k = some q
  /-- A mapped queue is closed only on the way to the `Delete`. -/
  shut : ∀ k q, s.queues.get? k = some q → (s.heap q).closed = true →
    ∃ now r, s.cleaner = .deleting now r k q
  /-- The wait group counts the tasks in the queue and the one being sent. -/
  account : ∀ q, (s.heap q).wg = (s.heap q).tasks.length + s.inbound q
  condemned : ∀ q, s.cleaner.condemned? = some q → (s.heap q).wg = 0
  drained : ∀ q, (s.heap q).closed = true → (s.heap q).wg = 0
  placed : ∀ q, ∀ t ∈ (s.heap q).tasks, s.queues.get? (queueKey cfg t.shareID) = some q

theorem kept_init (cfg : Config) : Kept cfg .init where
  running := rfl
  alone := fun _ _ => rfl
  unstopped := rfl
  single := fun _ _ _ h => by simp [State.init] at h
  caller := trivial
  visited := fun _ _ h => by simp [State.init, CleanerPc.visit?] at h
  shut := fun _ _ h => by simp [State.init] at h
  account := fun _ => rfl
  condemned := fun _ h => by simp [State.init, CleanerPc.condemned?] at h
  drained := fun _ h => by simp [State.init, newWorkerQueue] at h
  placed := fun _ _ h => by
    simp [State.init, newWorkerQueue, WorkerQueue.tasks, WorkerPc.task?] at h

/-! ## What the invariant says at once -/

/-- A caller behind `getQueue` has the queue its key is mapped to, and the
cleaner is not past its wait for it. -/
theorem Kept.bound (hs : Kept cfg s) (hb : (s.submitter 0).bound = some (t, q)) :
    s.queues.get? (queueKey cfg t.shareID) = some q ∧ s.cleaner.condemned? ≠ some q := by
  have hcaller := hs.caller
  revert hcaller hb
  cases s.submitter 0 with
  | idle | loading | creating | storing => intro hb; cases hb
  | locking t' q' | touching t' q' | adding t' q' | sending t' q' =>
    intro hb hcaller
    obtain ⟨rfl, rfl⟩ : t' = t ∧ q' = q := by simpa [SubmitPc.bound] using hb
    exact hcaller

/-- **The queue a caller has in hand is open.** -/
theorem Kept.open (hs : Kept cfg s) (hb : (s.submitter 0).bound = some (t, q)) :
    (s.heap q).closed = false := by
  obtain ⟨hkey, hcondemned⟩ := hs.bound hb
  by_contra hclosed
  obtain ⟨now, r, hpc⟩ := hs.shut _ q hkey (by simpa using hclosed)
  exact hcondemned (by rw [hpc]; rfl)

/-- Only the one caller moves. -/
theorem Kept.eq_zero (hs : Kept cfg s) (hi : s.submitter i ≠ .idle) : i = 0 :=
  State.OneCaller.eq_zero hs.alone hi

/-- A queue with no task counted has none. -/
theorem Kept.tasks_eq_nil (hs : Kept cfg s) (hwg : (s.heap q).wg = 0) : (s.heap q).tasks = [] :=
  Counted.tasks_eq_nil hs.account hwg

/-! ## Steps that move little -/

/-- What a caller's place says, after a step that moves the map, the
cleaner and the queues no further than it allows. -/
theorem CallerOk.mono {pc : SubmitPc} (h : CallerOk cfg s pc) (hqueues : s'.queues = s.queues)
    (hcondemned : ∀ t q, pc.bound = some (t, q) → s.cleaner.condemned? ≠ some q →
      s'.cleaner.condemned? ≠ some q)
    (hstore : ∀ t q, pc.store? = some (t, q) → (s.heap q).closed = false → (s.heap q).tasks = [] →
      (s'.heap q).closed = false ∧ (s'.heap q).tasks = []) : CallerOk cfg s' pc := by
  cases pc with
  | idle | loading => trivial
  | creating t =>
    show s'.queues.get? _ = none
    rw [hqueues]
    exact h
  | storing t q =>
    obtain ⟨habsent, hunmapped, hopen, hempty⟩ := h
    have hq := hstore t q rfl hopen hempty
    refine ⟨?_, ?_, hq.1, hq.2⟩
    · rw [hqueues]
      exact habsent
    · rw [hqueues]
      exact hunmapped
  | locking t q | touching t q | adding t q | sending t q =>
    refine ⟨?_, hcondemned t q rfl h.2⟩
    rw [hqueues]
    exact h.1

/-- **A change to a queue that adds no task and keeps its account.** -/
theorem Kept.put {w : WorkerQueue} (hs : Kept cfg s) (hclosed : w.closed = (s.heap q).closed)
    (htasks : ∀ t ∈ w.tasks, t ∈ (s.heap q).tasks)
    (hwg : w.wg + (s.heap q).tasks.length = (s.heap q).wg + w.tasks.length)
    (hle : w.wg ≤ (s.heap q).wg) : Kept cfg (s.put q w) where
  running := hs.running
  alone := hs.alone
  unstopped := hs.unstopped
  single := hs.single
  caller := by
    refine hs.caller.mono rfl (fun _ _ _ h => h) ?_
    intro t r _ hopen hempty
    rw [heap_put]
    split
    · rename_i hrq
      subst hrq
      refine ⟨by rw [hclosed, hopen], List.eq_nil_iff_forall_not_mem.2 ?_⟩
      intro t ht
      have hmem := htasks t ht
      rw [hempty] at hmem
      cases hmem
    · exact ⟨hopen, hempty⟩
  visited := hs.visited
  shut := fun k => forall_heap_put
    (P := fun r w => s.queues.get? k = some r → w.closed = true →
      ∃ now c, s.cleaner = .deleting now c k r)
    (fun hk hr => hs.shut k q hk (hclosed ▸ hr)) (fun r _ => hs.shut k r)
  account := Counted.put hs.account hwg
  condemned := by
    refine forall_heap_put (P := fun r w => s.cleaner.condemned? = some r → w.wg = 0) ?_
      (fun r _ => hs.condemned r)
    intro hq
    have hzero := hs.condemned q hq
    omega
  drained := by
    refine forall_heap_put (P := fun _ w => w.closed = true → w.wg = 0) ?_ (fun r _ => hs.drained r)
    intro hq
    have hzero := hs.drained q (hclosed ▸ hq)
    omega
  placed := forall_heap_put
    (P := fun r w => ∀ t ∈ w.tasks, s.queues.get? (queueKey cfg t.shareID) = some r)
    (fun t ht => hs.placed q t (htasks t ht)) (fun r _ => hs.placed r)

/-- The caller moves on, and is not at its send before or after. -/
theorem Kept.goto {pc : SubmitPc} (hs : Kept cfg s) (hpc : CallerOk cfg s pc)
    (hsend : pc.sending? = (s.submitter 0).sending?) : Kept cfg (s.goto 0 pc) where
  running := hs.running
  alone := by
    intro i hi
    simpa [State.goto, hi] using hs.alone i hi
  unstopped := hs.unstopped
  single := hs.single
  caller := by
    have h : CallerOk cfg (s.goto 0 pc) pc :=
      hpc.mono rfl (fun _ _ _ h => h) (fun _ _ _ hopen hempty => ⟨hopen, hempty⟩)
    simpa [State.goto] using h
  visited := hs.visited
  shut := hs.shut
  account := Counted.goto hs.account hsend
  condemned := hs.condemned
  drained := hs.drained
  placed := hs.placed

/-- **The cleaner moves on**, not from its `Delete`, to a key that is
mapped, and past its wait only with nothing counted and nobody near. -/
theorem Kept.clean {pc : CleanerPc} (hs : Kept cfg s)
    (hnot : ∀ now r k q, s.cleaner ≠ .deleting now r k q)
    (hvisit : ∀ k q, pc.visit? = some (k, q) → s.queues.get? k = some q)
    (hcond : ∀ q, pc.condemned? = some q →
      (s.heap q).wg = 0 ∧ ∀ t, (s.submitter 0).bound ≠ some (t, q)) :
    Kept cfg { s with cleaner := pc } where
  running := hs.running
  alone := hs.alone
  unstopped := hs.unstopped
  single := hs.single
  caller := by
    refine hs.caller.mono rfl ?_ (fun _ _ _ hopen hempty => ⟨hopen, hempty⟩)
    intro t q hb _ hq
    exact (hcond q hq).2 t hb
  visited := hvisit
  shut := by
    intro k q hk hq
    obtain ⟨now, r, hpc⟩ := hs.shut k q hk hq
    exact absurd hpc (hnot now r k q)
  account := hs.account
  condemned := fun q hq => (hcond q hq).1
  drained := hs.drained
  placed := hs.placed

/-- The cleaner moves on short of the end of its wait. -/
theorem Kept.clean_of_none {pc : CleanerPc} (hs : Kept cfg s)
    (hnot : ∀ now r k q, s.cleaner ≠ .deleting now r k q) (hnone : pc.condemned? = none)
    (hvisit : ∀ k q, pc.visit? = some (k, q) → s.queues.get? k = some q) :
    Kept cfg { s with cleaner := pc } := by
  refine hs.clean hnot hvisit ?_
  intro q hq
  rw [hnone] at hq
  cases hq

/-! ## Steps that move a queue through its life -/

/-- `NewWorkerQueue`: the new queue is the caller's alone. -/
theorem Kept.create (hs : Kept cfg s) (hmade : Made s) (hpc : s.submitter 0 = .creating t) :
    Kept cfg { (s.goto 0 (.storing t s.next)).put s.next (newWorkerQueue now) with
      next := s.next + 1 } := by
  have hfresh := hmade.fresh s.next le_rfl
  have habsent : s.queues.get? (queueKey cfg t.shareID) = none := by
    have h := hs.caller
    rw [hpc] at h
    exact h
  have hunmapped : ∀ k, s.queues.get? k ≠ some s.next := by
    intro k hk
    exact lt_irrefl _ (hmade.mapped k _ hk)
  have hgoto : Kept cfg (s.goto 0 (.storing t s.next)) := by
    refine hs.goto ⟨habsent, hunmapped, ?_, ?_⟩ (by rw [hpc]; rfl)
    · rw [hfresh]
      rfl
    · rw [hfresh]
      rfl
  have hheap : (s.goto 0 (.storing t s.next)).heap s.next = newWorkerQueue 0 := hfresh
  have hput : Kept cfg ((s.goto 0 (.storing t s.next)).put s.next (newWorkerQueue now)) := by
    refine hgoto.put ?_ ?_ ?_ ?_ <;> rw [hheap]
    · rfl
    · exact fun _ ht => ht
    · rfl
    · exact le_rfl
  exact { hput with
    caller := hput.caller.mono rfl (fun _ _ _ h => h) (fun _ _ _ hopen hempty => ⟨hopen, hempty⟩) }

/-- **The `Store`**: the key was absent, so no other queue loses it. -/
theorem Kept.store (hs : Kept cfg s) (hpc : s.submitter 0 = .storing t q) :
    Kept cfg { s.goto 0 (.locking t q) with
      queues := s.queues.set (queueKey cfg t.shareID) q } := by
  have hcaller := hs.caller
  rw [hpc] at hcaller
  obtain ⟨habsent, hunmapped, hopen, hempty⟩ := hcaller
  -- what was mapped stays mapped: the stored key had no queue
  have hold : ∀ k r, s.queues.get? k = some r →
      (s.queues.set (queueKey cfg t.shareID) q).get? k = some r := by
    intro k r hk
    rw [GoMap.get?_set_of_ne, hk]
    rintro rfl
    rw [habsent] at hk
    cases hk
  have hnew : ∀ k r, (s.queues.set (queueKey cfg t.shareID) q).get? k = some r →
      (k = queueKey cfg t.shareID ∧ r = q) ∨ s.queues.get? k = some r := by
    intro k r hk
    rw [GoMap.get?_set] at hk
    split at hk
    · rename_i hkey
      exact Or.inl ⟨hkey, by simpa [eq_comm] using hk⟩
    · exact Or.inr hk
  have hcondemned : s.cleaner.condemned? ≠ some q := by
    intro hq
    obtain ⟨k, hk⟩ := CleanerPc.exists_visit_of_condemned hq
    exact hunmapped k (hs.visited k q hk)
  exact {
    running := hs.running
    alone := by
      intro i hi
      simpa [State.goto, hi] using hs.alone i hi
    unstopped := hs.unstopped
    single := by
      intro k k' r hk hk'
      rcases hnew k r hk with ⟨hkey, hr⟩ | hk <;> rcases hnew k' r hk' with ⟨hkey', hr'⟩ | hk'
      · rw [hkey, hkey']
      · exact absurd (hr ▸ hk') (hunmapped k')
      · exact absurd (hr' ▸ hk) (hunmapped k)
      · exact hs.single k k' r hk hk'
    caller := by
      have h : CallerOk cfg { s.goto 0 (.locking t q) with
          queues := s.queues.set (queueKey cfg t.shareID) q } (.locking t q) :=
        ⟨GoMap.get?_set_self _ _ _, hcondemned⟩
      simpa [State.goto] using h
    visited := fun k r hr => hold k r (hs.visited k r hr)
    shut := by
      intro k r hk hr
      rcases hnew k r hk with ⟨-, rfl⟩ | hk
      · exact absurd (hopen.symm.trans hr) (by decide)
      · exact hs.shut k r hk hr
    account := by
      have hgoto : Counted (s.goto 0 (.locking t q)) := Counted.goto hs.account (by rw [hpc]; rfl)
      exact hgoto
    condemned := hs.condemned
    drained := hs.drained
    placed := fun r t' ht' => hold _ r (hs.placed r t' ht') }

/-- **The caller counts or hands over its task.** Its queue is open, so a
change to its wait group or its tasks reaches no queue the cleaner has
given up on. -/
theorem Kept.goto_put {pc : SubmitPc} {w : WorkerQueue} (hs : Kept cfg s)
    (hb : (s.submitter 0).bound = some (t, q)) (hpc : CallerOk cfg s pc)
    (hstore : pc.store? = none) (hclosed : w.closed = (s.heap q).closed)
    (htasks : ∀ t' ∈ w.tasks, t' = t ∨ t' ∈ (s.heap q).tasks)
    (hwg : w.wg = w.tasks.length + if pc.sending? = some q then 1 else 0)
    (hother : ∀ r, r ≠ q → (pc.sending? = some r ↔ (s.submitter 0).sending? = some r)) :
    Kept cfg ((s.goto 0 pc).put q w) := by
  obtain ⟨hkey, hcondemned⟩ := hs.bound hb
  have hopen : w.closed = false := by rw [hclosed, hs.open hb]
  exact {
    running := hs.running
    alone := by
      intro i hi
      simpa [State.goto, State.put, hi] using hs.alone i hi
    unstopped := hs.unstopped
    single := hs.single
    caller := by
      have h : CallerOk cfg ((s.goto 0 pc).put q w) pc :=
        hpc.mono rfl (fun _ _ _ h => h) (fun _ _ h => by rw [hstore] at h; cases h)
      simpa [State.goto, State.put] using h
    visited := hs.visited
    shut := by
      intro k
      refine forall_heap_put (P := fun r w => s.queues.get? k = some r → w.closed = true →
        ∃ now c, s.cleaner = .deleting now c k r) ?_ (fun r _ => hs.shut k r)
      intro _ hq
      rw [hopen] at hq
      cases hq
    account := Counted.goto_put hs.account hwg hother
    condemned := forall_heap_put (P := fun r w => s.cleaner.condemned? = some r → w.wg = 0)
      (fun hq => absurd hq hcondemned) (fun r _ => hs.condemned r)
    drained := by
      refine forall_heap_put (P := fun _ w => w.closed = true → w.wg = 0) ?_
        (fun r _ => hs.drained r)
      intro hq
      rw [hopen] at hq
      cases hq
    placed := by
      refine forall_heap_put
        (P := fun r w => ∀ t ∈ w.tasks, s.queues.get? (queueKey cfg t.shareID) = some r) ?_
        (fun r _ => hs.placed r)
      intro t' ht'
      rcases htasks t' ht' with rfl | hmem
      · exact hkey
      · exact hs.placed q t' hmem }

/-- **The close**: nothing is counted, so the queue has no task, and only
the key about to be deleted leads to it. -/
theorem Kept.close {tick : ℤ} {r : Sweep} {k : GoString} (hs : Kept cfg s)
    (hpc : s.cleaner = .closing tick r k q) :
    Kept cfg { s.put q { s.heap q with closed := true } with cleaner := .deleting tick r k q } := by
  have hkey : s.queues.get? k = some q := hs.visited k q (by rw [hpc]; rfl)
  have hzero : (s.heap q).wg = 0 := hs.condemned q (by rw [hpc]; rfl)
  exact {
    running := hs.running
    alone := hs.alone
    unstopped := hs.unstopped
    single := hs.single
    caller := by
      refine hs.caller.mono rfl ?_ ?_
      · intro t r' _ h
        rw [hpc] at h
        exact h
      · -- a queue about to be stored is not the mapped one that is closed
        intro t r' hstore hopen hempty
        have hne : r' ≠ q := by
          rintro rfl
          have hcaller := hs.caller
          cases hsub : s.submitter 0 <;> rw [hsub] at hstore hcaller <;> cases hstore
          exact hcaller.2.1 k hkey
        refine ⟨?_, ?_⟩ <;> simpa [State.put, hne]
    visited := by
      intro k' r' h
      obtain ⟨rfl, rfl⟩ : k = k' ∧ q = r' := by simpa [CleanerPc.visit?] using h
      exact hkey
    shut := by
      intro k'
      refine forall_heap_put (P := fun r' w => s.queues.get? k' = some r' → w.closed = true →
        ∃ now c, CleanerPc.deleting tick r k q = .deleting now c k' r') ?_ ?_
      · intro hk' _
        obtain rfl := hs.single k k' q hkey hk'
        exact ⟨tick, r, rfl⟩
      · intro r' _ hk' hr'
        obtain ⟨_, _, hdel⟩ := hs.shut k' r' hk' hr'
        rw [hpc] at hdel
        cases hdel
    account := Counted.hand hs.account rfl rfl
    condemned := by
      intro r' hr'
      obtain rfl : q = r' := by simpa [CleanerPc.condemned?] using hr'
      simpa [State.put] using hzero
    drained := forall_heap_put (P := fun _ w => w.closed = true → w.wg = 0) (fun _ => hzero)
      (fun r' _ => hs.drained r')
    placed := forall_heap_put
      (P := fun r' w => ∀ t ∈ w.tasks, s.queues.get? (queueKey cfg t.shareID) = some r')
      (hs.placed q) (fun r' _ => hs.placed r') }

/-- **The `Delete`**: no task and no caller is at the deleted queue. -/
theorem Kept.delete {tick : ℤ} {r : Sweep} {k : GoString} (hs : Kept cfg s)
    (hpc : s.cleaner = .deleting tick r k q) :
    Kept cfg { s with queues := s.queues.del k, cleaner := .unlocking tick r k q } := by
  have hkey : s.queues.get? k = some q := hs.visited k q (by rw [hpc]; rfl)
  have hcondemned : s.cleaner.condemned? = some q := by rw [hpc]; rfl
  have hempty : (s.heap q).tasks = [] := hs.tasks_eq_nil (hs.condemned q hcondemned)
  have hold : ∀ k' r', (s.queues.del k).get? k' = some r' →
      k' ≠ k ∧ s.queues.get? k' = some r' := by
    intro k' r' hk'
    rw [GoMap.get?_del] at hk'
    split at hk'
    · cases hk'
    · rename_i hne
      exact ⟨hne, hk'⟩
  -- a key with something behind it other than the deleted queue stays
  have hstay : ∀ k' r', s.queues.get? k' = some r' → r' ≠ q →
      (s.queues.del k).get? k' = some r' := by
    intro k' r' hk' hne
    rw [GoMap.get?_del_of_ne, hk']
    rintro rfl
    exact hne (Option.some.inj (hk'.symm.trans hkey))
  have hgone : ∀ k', s.queues.get? k' = none → (s.queues.del k).get? k' = none := by
    intro k' hk'
    rw [GoMap.get?_del]
    split
    · rfl
    · exact hk'
  exact {
    running := hs.running
    alone := hs.alone
    unstopped := hs.unstopped
    single := fun k₁ k₂ r' h₁ h₂ => hs.single k₁ k₂ r' (hold k₁ r' h₁).2 (hold k₂ r' h₂).2
    caller := by
      have hcaller := hs.caller
      show CallerOk cfg _ (s.submitter 0)
      cases hsub : s.submitter 0 with
      | idle | loading => trivial
      | creating t =>
        rw [hsub] at hcaller
        exact hgone _ hcaller
      | storing t r' =>
        rw [hsub] at hcaller
        obtain ⟨habsent, hunmapped, hopen, hnil⟩ := hcaller
        exact ⟨hgone _ habsent, fun k' hk' => hunmapped k' (hold k' r' hk').2, hopen, hnil⟩
      | locking t r' | touching t r' | adding t r' | sending t r' =>
        rw [hsub] at hcaller
        have hne : r' ≠ q := by
          rintro rfl
          exact hcaller.2 hcondemned
        exact ⟨hstay _ r' hcaller.1 hne, by simp [CleanerPc.condemned?]⟩
    visited := fun k' r' h => by simp [CleanerPc.visit?] at h
    shut := by
      intro k' r' hk' hr'
      obtain ⟨hne, hk'⟩ := hold k' r' hk'
      obtain ⟨_, _, hdel⟩ := hs.shut k' r' hk' hr'
      rw [hpc] at hdel
      injection hdel with _ _ hkk _
      exact absurd hkk.symm hne
    account := hs.account
    condemned := fun r' h => by simp [CleanerPc.condemned?] at h
    drained := hs.drained
    placed := by
      intro r' t' ht'
      have ht' : t' ∈ (s.heap r').tasks := ht'
      have hne : r' ≠ q := by
        rintro rfl
        rw [hempty] at ht'
        cases ht'
      exact hstay _ r' (hs.placed r' t' ht') hne }

/-! ## Every step, every run -/

/-- A step of the goroutine that keeps its task in hand. -/
theorem Kept.hand {w : WorkerQueue} (hs : Kept cfg s) (hclosed : w.closed = (s.heap q).closed)
    (htasks : w.tasks = (s.heap q).tasks) (hwg : w.wg = (s.heap q).wg) : Kept cfg (s.put q w) := by
  refine hs.put hclosed ?_ ?_ ?_
  · rw [htasks]
    exact fun _ ht => ht
  · rw [htasks, hwg]
  · omega

/-- The caller moves on between its `Lock` and its `Unlock`. -/
theorem Kept.goto_hand {pc : SubmitPc} {w : WorkerQueue} (hs : Kept cfg s) (hpc : CallerOk cfg s pc)
    (hsend : pc.sending? = (s.submitter 0).sending?) (hclosed : w.closed = (s.heap q).closed)
    (htasks : w.tasks = (s.heap q).tasks) (hwg : w.wg = (s.heap q).wg) :
    Kept cfg ((s.goto 0 pc).put q w) :=
  (hs.goto hpc hsend).hand hclosed htasks hwg

/-- A step of the caller. -/
theorem kept_submitter (hmade : Made s) (hs : Kept cfg s) (hapart : Apart cfg s (.submitter i now))
    (h : Moves cfg s (.submitter i now) s') : Kept cfg s' := by
  obtain rfl := hs.eq_zero (submitter_ne_idle h)
  have hcaller := hs.caller
  cases h with
  | loadHit hpc hkey =>
    refine hs.goto ⟨hkey, ?_⟩ (by rw [hpc]; rfl)
    intro hq
    exact hapart _ hq _ (by rw [hpc]; rfl) hkey
  | loadMiss hpc hkey => exact hs.goto hkey (by rw [hpc]; rfl)
  | create hpc => exact hs.create hmade hpc
  | store hpc => exact hs.store hpc
  | lock hpc | touch hpc =>
    rw [hpc] at hcaller
    exact hs.goto_hand hcaller (by rw [hpc]; rfl) rfl rfl rfl
  | @add _ _ t q hpc =>
    rw [hpc] at hcaller
    have hb : (s.submitter 0).bound = some (t, q) := by rw [hpc]; rfl
    refine hs.goto_put hb hcaller rfl rfl (fun _ ht => Or.inr ht)
      (Counted.adding hs.account hpc) ?_
    intro r hr
    simp [hpc, SubmitPc.sending?, Ne.symm hr]
  | sendClosed hpc hclosed =>
    have hopen := hs.open (by rw [hpc]; rfl)
    rw [hclosed] at hopen
    cases hopen
  | @sendBuffer _ _ t q hpc =>
    have hb : (s.submitter 0).bound = some (t, q) := by rw [hpc]; rfl
    refine hs.goto_put hb trivial rfl rfl ?_ (Counted.sending hs.account hpc rfl
      length_tasks_buffer) ?_
    · intro t' ht'
      simp only [WorkerQueue.tasks, List.mem_append, List.mem_singleton] at ht' ⊢
      tauto
    · intro r hr
      simp [hpc, SubmitPc.sending?, Ne.symm hr]
  | @sendDirect _ _ t q hpc _ _ hworker =>
    have hb : (s.submitter 0).bound = some (t, q) := by rw [hpc]; rfl
    refine hs.goto_put hb trivial rfl rfl ?_ (Counted.sending hs.account hpc rfl
      (length_tasks_direct hworker)) ?_
    · intro t' ht'
      simp only [WorkerQueue.tasks, WorkerPc.task?, Option.toList_some, List.mem_append,
        List.mem_singleton] at ht' ⊢
      tauto
    · intro r hr
      simp [hpc, SubmitPc.sending?, Ne.symm hr]

/-- A step of a goroutine. -/
theorem kept_worker (hs : Kept cfg s) (h : Moves cfg s (.worker q now) s') : Kept cfg s' := by
  have haccount := hs.account q
  cases h with
  | receive _ hworker hchan =>
    refine hs.hand rfl ?_ rfl
    simp [WorkerQueue.tasks, hworker, hchan, WorkerPc.task?]
  | exit _ hworker =>
    refine hs.hand rfl ?_ rfl
    simp [WorkerQueue.tasks, hworker, WorkerPc.task?]
  | taskReturn _ hworker | workerLock _ hworker | workerTouch _ hworker =>
    refine hs.hand rfl ?_ rfl
    simp [WorkerQueue.tasks, hworker, WorkerPc.task?]
  | doneBelowZero _ hworker hwg =>
    -- the task in hand is counted
    simp only [WorkerQueue.tasks, hworker, WorkerPc.task?, Option.toList_some, List.length_append,
      List.length_singleton] at haccount
    omega
  | done _ hworker hwg =>
    refine hs.put rfl ?_ ?_ ?_
    · intro t ht
      simp only [WorkerQueue.tasks, hworker, WorkerPc.task?, Option.toList_none, List.nil_append,
        List.mem_append] at ht ⊢
      exact Or.inr ht
    · have htasks := length_tasks_done hworker
      show (s.heap q).wg - 1 + _ = _
      omega
    · show (s.heap q).wg - 1 ≤ (s.heap q).wg
      omega

/-- A step of the cleaner. -/
theorem kept_cleaner {tick : ℤ} (hs : Kept cfg s) (hapart : Apart cfg s (.cleaner tick))
    (h : Moves cfg s (.cleaner tick) s') : Kept cfg s' := by
  cases h with
  | tick hpc | swept hpc =>
    exact hs.clean_of_none (by simp [hpc]) rfl (fun _ _ h => by simp [CleanerPc.visit?] at h)
  | @cleanerLock _ _ _ _ q hpc =>
    have hput : Kept cfg (s.put q { s.heap q with mu := some .cleaner }) := hs.hand rfl rfl rfl
    refine hput.clean_of_none (by simp [State.put, hpc]) rfl ?_
    intro k q h
    exact hs.visited k q (by rw [hpc]; exact h)
  | idle hpc =>
    refine hs.clean_of_none (by simp [hpc]) rfl ?_
    intro k q h
    exact hs.visited k q (by rw [hpc]; exact h)
  | active hpc =>
    exact hs.clean_of_none (by simp [hpc]) rfl (fun _ _ h => by simp [CleanerPc.visit?] at h)
  | @waited _ _ _ k q hpc hwg =>
    refine hs.clean (by simp [hpc]) ?_ ?_
    · intro k' q' h
      exact hs.visited k' q' (by rw [hpc]; exact h)
    · intro q' h
      obtain rfl : q = q' := by simpa [CleanerPc.condemned?] using h
      exact ⟨hwg, fun t ht => hapart q (by rw [hpc]; rfl) (t, q) ht rfl⟩
  | closeTwice hpc hclosed =>
    -- the queue is still mapped, and the cleaner is not at its `Delete`
    obtain ⟨_, _, hdel⟩ := hs.shut _ _ (hs.visited _ _ (by rw [hpc]; rfl)) hclosed
    rw [hpc] at hdel
    cases hdel
  | close hpc => exact hs.close hpc
  | delete hpc => exact hs.delete hpc
  | @unlock _ _ _ _ q hpc =>
    have hput : Kept cfg (s.put q { s.heap q with mu := none }) := hs.hand rfl rfl rfl
    exact hput.clean_of_none (by simp [State.put, hpc]) rfl
      (fun _ _ h => by simp [CleanerPc.visit?] at h)

/-- **A step keeps the invariant**, with one caller and the cleaner apart
from it. -/
theorem kept_moves (hmade : Made s) (hs : Kept cfg s) (hsolo : a.Solo) (hapart : Apart cfg s a)
    (h : Moves cfg s a s') : Kept cfg s' := by
  cases a with
  | submit i t =>
    obtain rfl : i = 0 := hsolo
    cases h with
    | enter hpc => exact hs.goto trivial (by rw [hpc]; rfl)
  | submitter i now => exact kept_submitter hmade hs hapart h
  | worker q now => exact kept_worker hs h
  | start =>
    cases h with
    | start hoff =>
      exact hs.clean_of_none (by simp [hoff]) rfl (fun _ _ h => by simp [CleanerPc.visit?] at h)
    | startNothing => exact hs
  | cleaner tick => exact kept_cleaner hs hapart h
  | cleanerVisit k =>
    cases h with
    | visit hpc hkey =>
      refine hs.clean_of_none (by simp [hpc]) rfl ?_
      intro k' q' h
      obtain ⟨rfl, rfl⟩ : k = k' ∧ _ = q' := by simpa [CleanerPc.visit?] using h
      exact hkey
  | cleanerQuit =>
    cases h with
    | quit hpc =>
      exact hs.clean_of_none (by simp [hpc]) rfl (fun _ _ h => by simp [CleanerPc.visit?] at h)
  | stop => exact absurd hsolo id
  | stopper =>
    have hoff := hs.unstopped
    cases h with
    | stopSwept hpc | stopWaited hpc | stopCloseTwice hpc | stopClose hpc =>
      rw [hoff] at hpc
      cases hpc
  | stopVisit k =>
    have hoff := hs.unstopped
    cases h with
    | stopVisit hpc =>
      rw [hoff] at hpc
      cases hpc

/-! ## No task is lost or doubled -/

/-- The caller moves on. -/
theorem held_goto {pc : SubmitPc} :
    (s.goto 0 pc).held + ((s.submitter 0).task?.toList : Multiset Task) =
      s.held + (pc.task?.toList : Multiset Task) := by
  simp only [State.held, State.goto, Function.update_self]
  rw [add_right_comm, add_comm (pc.task?.toList : Multiset Task), ← add_right_comm]

/-- A queue that was made changes. -/
theorem held_put {w : WorkerQueue} (hq : q < s.next) :
    (s.put q w).held + ((s.heap q).taskChan : Multiset Task) =
      s.held + (w.taskChan : Multiset Task) := by
  simp only [State.held, State.put]
  rw [add_assoc, tally_update hq, ← add_assoc]

/-- The caller moves on with its task. -/
theorem held_goto_of_task {pc : SubmitPc} (h : pc.task? = (s.submitter 0).task?) :
    (s.goto 0 pc).held = s.held := by
  have hmove := @held_goto s pc
  rw [h] at hmove
  exact add_right_cancel hmove

/-- A queue changes outside its channel. -/
theorem held_put_of_chan {w : WorkerQueue} (h : w.taskChan = (s.heap q).taskChan)
    (hq : q < s.next) : (s.put q w).held = s.held := by
  have hmove := @held_put s q w hq
  rw [h] at hmove
  exact add_right_cancel hmove

/-- `NewWorkerQueue` makes an empty channel. -/
theorem held_create {w : WorkerQueue} (hw : w.taskChan = []) :
    State.held { s.put s.next w with next := s.next + 1 } = s.held := by
  have hbelow : (List.range s.next).map (Function.update s.heap s.next w) =
      (List.range s.next).map s.heap := by
    refine List.map_congr_left ?_
    intro r hr
    have hne : r ≠ s.next := by have := List.mem_range.1 hr; omega
    exact Function.update_of_ne hne _ _
  simp only [State.held, State.put, List.range_succ, List.map_append, hbelow, tally_append,
    List.map_cons, List.map_nil, Function.update_self, tally_cons, tally_nil, hw,
    Multiset.coe_nil, add_zero]

/-- A step of the caller, in the ledger. -/
theorem held_submitter (hmade : Made s) (hs : Kept cfg s)
    (h : Moves cfg s (.submitter i now) s') :
    s'.held + (started cfg s (.submitter i now) : Multiset Task) = s.held := by
  obtain rfl := hs.eq_zero (submitter_ne_idle h)
  cases h with
  | loadHit hpc | loadMiss hpc =>
    simp only [started, hpc, Multiset.coe_nil, add_zero]
    exact held_goto_of_task (by rw [hpc]; rfl)
  | @store _ _ t q hpc =>
    simp only [started, hpc, Multiset.coe_nil, add_zero]
    show (s.goto 0 (.locking t q)).held = s.held
    exact held_goto_of_task (by rw [hpc]; rfl)
  | create hpc =>
    simp only [started, hpc, Multiset.coe_nil, add_zero]
    refine Eq.trans (held_create ?_) (held_goto_of_task ?_)
    · rfl
    · rw [hpc]
      rfl
  | lock hpc | touch hpc | add hpc =>
    have hq := hmade.lt_of_submitter hpc rfl
    simp only [started, hpc, Multiset.coe_nil, add_zero]
    refine Eq.trans (held_put_of_chan ?_ hq) (held_goto_of_task ?_)
    · rfl
    · rw [hpc]
      rfl
  | sendClosed hpc hclosed =>
    simp only [started, hpc, hclosed, reduceCtorEq, false_and, if_false, Multiset.coe_nil, add_zero]
    rfl
  | @sendBuffer _ _ t q hpc hopen hroom =>
    have hsize : cfg.queueSize ≠ 0 := by omega
    have hq : q < (s.goto 0 .idle).next := hmade.lt_of_submitter hpc rfl
    simp only [started, hpc, hsize, false_and, and_false, if_false, Multiset.coe_nil, add_zero]
    -- the task leaves the caller's hands for the end of the channel
    have hgoto := @held_goto s .idle
    have hput := @held_put (s.goto 0 .idle) q
      { s.heap q with taskChan := (s.heap q).taskChan ++ [t] } hq
    simp only [hpc, SubmitPc.task?, Option.toList_some, Option.toList_none, Multiset.coe_nil,
      add_zero] at hgoto
    rw [← hgoto]
    refine add_right_cancel (hput.trans ?_)
    rw [← Multiset.coe_add, add_comm ((s.heap q).taskChan : Multiset Task), ← add_assoc]
    rfl
  | @sendDirect _ _ t q hpc hopen hsize hworker =>
    have hq : q < (s.goto 0 .idle).next := hmade.lt_of_submitter hpc rfl
    simp only [started, hpc, hopen, hsize, hworker, and_self, if_true]
    have hgoto := @held_goto s .idle
    simp only [hpc, SubmitPc.task?, Option.toList_some, Option.toList_none, Multiset.coe_nil,
      add_zero] at hgoto
    rw [← hgoto]
    congr 1
    exact held_put_of_chan rfl hq

/-- **A step of the ledger**: what was submitted and not started changes by
what the step submits, less what it starts. -/
theorem held_moves (hmade : Made s) (hs : Kept cfg s) (hsolo : a.Solo) (h : Moves cfg s a s') :
    s'.held + (started cfg s a : Multiset Task) = s.held + (submitted s a : Multiset Task) := by
  cases a with
  | submit i t =>
    obtain rfl : i = 0 := hsolo
    cases h with
    | enter hpc =>
      have hgoto := @held_goto s (.loading t)
      rw [hpc] at hgoto
      exact hgoto
  | submitter i now =>
    simp only [submitted, Multiset.coe_nil, add_zero]
    exact held_submitter hmade hs h
  | worker q now =>
    simp only [submitted, Multiset.coe_nil, add_zero]
    cases h with
    | @receive _ _ t rest hq hworker hchan =>
      have hput := @held_put s q { s.heap q with taskChan := rest, worker := .running t } hq
      simp only [started, hworker, hchan] at hput ⊢
      -- the head of the channel is what is started
      rw [← Multiset.cons_coe, ← Multiset.singleton_add, ← add_assoc] at hput
      exact add_right_cancel hput
    | exit hq hworker hchan =>
      simp only [started, hworker, hchan, Multiset.coe_nil, add_zero]
      exact held_put_of_chan hchan.symm hq
    | taskReturn hq hworker | workerLock hq hworker | workerTouch hq hworker | done hq hworker =>
      simp only [started, hworker, Multiset.coe_nil, add_zero]
      exact held_put_of_chan rfl hq
    | doneBelowZero hq hworker =>
      simp only [started, hworker, Multiset.coe_nil, add_zero]
      rfl
  | cleaner tick =>
    simp only [started, submitted, Multiset.coe_nil, add_zero]
    cases h with
    | tick | swept | idle | active | waited | closeTwice | delete => rfl
    | cleanerLock hpc | close hpc | unlock hpc =>
      exact held_put_of_chan rfl (hmade.lt_of_cleaner hpc rfl)
  | start | cleanerVisit | cleanerQuit => cases h <;> rfl
  | stop => exact absurd hsolo id
  | stopper =>
    have hoff := hs.unstopped
    cases h with
    | stopSwept hpc | stopWaited hpc | stopCloseTwice hpc | stopClose hpc =>
      rw [hoff] at hpc
      cases hpc
  | stopVisit k => cases h; rfl

/-- **Nothing is lost**: the program runs, no caller is about to send on a
closed channel, no task was started more often than it was submitted, every
task that was not started is in the caller's hands or in a channel, and a
task in a channel is in an open queue its key is mapped to. -/
structure NothingLost (cfg : Config) (as : List Action) (s : State) : Prop where
  running : s.crashed = false
  sends : ∀ i t q, s.submitter i = .sending t q → (s.heap q).closed = false
  once : ∀ t, ((pool cfg).observe (started cfg) .init as).count t ≤
    ((pool cfg).observe submitted .init as).count t
  ledger : s.held + ((pool cfg).observe (started cfg) .init as : Multiset Task) =
    ((pool cfg).observe submitted .init as : Multiset Task)
  reachable : ∀ q, ∀ t ∈ (s.heap q).taskChan,
    (s.heap q).closed = false ∧ s.queues.get? (queueKey cfg t.shareID) = some q

/-- **One caller and a cleaner that stays apart from it lose no task.** -/
theorem cleanup_safe_of_apart (cfg : Config) (as : List Action) (s : State)
    (hsolo : ∀ a ∈ as, a.Solo) (hapart : (pool cfg).Meets (Apart cfg) .init as)
    (hrun : (pool cfg).run .init as = some s) : NothingLost cfg as s := by
  have hmeets := hapart.and_forall hsolo
  have hstep : ∀ s a s', (Made s ∧ Kept cfg s) → (a.Solo ∧ Apart cfg s a) →
      (pool cfg).step s a = some s' → Made s' ∧ Kept cfg s' := by
    rintro s a s' ⟨hmade, hkept⟩ ⟨hsolo, hapart⟩ h
    obtain ⟨-, hmoves⟩ := moves_of_step h
    exact ⟨made_moves hmade hmoves, kept_moves hmade hkept hsolo hapart hmoves⟩
  have hinit : Made .init ∧ Kept cfg .init := ⟨made_init, kept_init cfg⟩
  obtain ⟨-, hkept⟩ := Machine.run_invariant hstep hinit hmeets hrun
  have hledger : s.held + ((pool cfg).observe (started cfg) .init as : Multiset Task) =
      State.init.held + ((pool cfg).observe submitted .init as : Multiset Task) := by
    refine Machine.run_ledger State.held hstep ?_ hinit hmeets hrun
    rintro s a s' ⟨hmade, hkept⟩ ⟨hsolo, -⟩ h
    exact held_moves hmade hkept hsolo (moves_of_step h).2
  have hempty : State.init.held = 0 := rfl
  rw [hempty, zero_add] at hledger
  exact {
    running := hkept.running
    sends := by
      intro i t q hi
      obtain rfl : i = 0 := hkept.eq_zero (by rw [hi]; simp)
      exact hkept.open (by rw [hi]; rfl)
    once := by
      intro t
      rw [← Multiset.coe_count, ← Multiset.coe_count, ← hledger, Multiset.count_add]
      omega
    ledger := hledger
    reachable := by
      intro q t ht
      have hmem : t ∈ (s.heap q).tasks := List.mem_append_right _ ht
      refine ⟨?_, hkept.placed q t hmem⟩
      by_contra hclosed
      have hnil := hkept.tasks_eq_nil (hkept.drained q (by simpa using hclosed))
      rw [hnil] at hmem
      cases hmem }

/-! ## Two runs -/

/-- The pool of the source's cleanup test, in seconds. -/
def cleaned : Config :=
  { queueNum := 0, queueSize := 128, clearInterval := 5, clearTimePass := 10 }

/-- The first task of `player1`, submitted and run to its end. -/
def firstTask : List Action := firstSubmit 0 ⟨lit "player1", 0⟩ ++ List.replicate 5 (.worker 0 0)

/-- The cleaner's visit to the queue of `player1`, fifteen seconds in: the
tick, the visit, and the queue locked, found idle, waited for, closed,
deleted and unlocked. -/
def cleanup : List Action :=
  [.start, .cleaner 15, .cleanerVisit (lit "player1")] ++ List.replicate 6 (.cleaner 15)

/-- A second task submitted when the queue is gone goes into a new one. -/
theorem cleanup_safe_of_apart_players :
    let as := firstTask ++ cleanup ++ firstSubmit 0 ⟨lit "player1", 1⟩
    (∀ a ∈ as, a.Solo) ∧ (pool cleaned).Meets (Apart cleaned) .init as ∧
      ∃ s, (pool cleaned).run .init as = some s ∧ NothingLost cleaned as s := by
  intro as
  have hsolo : ∀ a ∈ as, a.Solo := by decide +kernel
  have hapart : (pool cleaned).Meets (Apart cleaned) .init as := by decide +kernel
  have hsome : ((pool cleaned).run .init as).isSome := by decide +kernel
  obtain ⟨s, hs⟩ := Option.isSome_iff_exists.1 hsome
  exact ⟨hsolo, hapart, s, hs, cleanup_safe_of_apart cleaned as s hsolo hapart hs⟩

/-- **A caller sends on a channel the cleaner has closed.** It looks the
queue up just before the cleaner's visit and sends right after it. -/
theorem cleanup_crash :
    let as := firstTask ++ [.submit 0 ⟨lit "player1", 1⟩, .submitter 0 15] ++ cleanup ++
      List.replicate 3 (.submitter 0 15)
    (∀ a ∈ as, a.Solo) ∧ ∃ s, (pool cleaned).run .init as = some s ∧
      s.submitter 0 = .sending ⟨lit "player1", 1⟩ 0 ∧ (s.heap 0).closed = true ∧
      (pool cleaned).step s (.submitter 0 15) = some s.crash ∧ ¬ NothingLost cleaned as s := by
  intro as
  have hrun : ((pool cleaned).run .init as).map
      (fun s => (s.submitter 0, (s.heap 0).closed, s.crashed)) =
      some (.sending ⟨lit "player1", 1⟩ 0, true, false) := by decide +kernel
  obtain ⟨s, hs, hw⟩ := Option.map_eq_some_iff.1 hrun
  have hsend : s.submitter 0 = .sending ⟨lit "player1", 1⟩ 0 := congrArg Prod.fst hw
  have hclosed : (s.heap 0).closed = true := congrArg (fun p => p.2.1) hw
  have hrunning : s.crashed = false := congrArg (fun p => p.2.2) hw
  refine ⟨by decide +kernel, s, hs, hsend, hclosed, ?_, ?_⟩
  · simp [pool, step, hrunning, submitStep, hsend, send, hclosed]
  · intro hlost
    rw [hlost.sends 0 _ 0 hsend] at hclosed
    cases hclosed

end WorkerPool

end Nrpc
