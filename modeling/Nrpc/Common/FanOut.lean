import Mathlib.Data.List.Basic
import Nrpc.Common.Machine
import Nrpc.Common.Tally
/-!
# Items handed to workers

A producer hands items one after the other over an unbuffered channel to a
fixed number of workers and counts each in a wait group first. A worker
makes a result of an item, or none, appends it to a list the workers share
and counts the item off. Behind the wait the producer closes the channel
and takes the list.

Whoever takes which item, and however far the workers have come with the
items before it, the list is in the end the results of the items in some
order (`result_perm`), and there is always a way to that end
(`exists_run_finished`).
-/

namespace Nrpc

namespace FanOut

variable {ω ρ : Type*}

/-- Where the producer stands. -/
inductive ProducerPc (ω : Type*)
  /-- Before the count of the first of these items, or before the wait. -/
  | adding (items : List ω)
  /-- Before the send of an item, with these behind it. -/
  | sending (item : ω) (items : List ω)
  /-- Behind the wait, the channel closed. -/
  | finished

/-- Where a worker stands. -/
inductive WorkerPc (ω ρ : Type*)
  | receiving
  | working (item : ω)
  /-- Before the shared list. -/
  | appending (r : ρ)
  /-- Before the item is counted off. -/
  | done
  | exited

structure State (ω ρ : Type*) where
  producer : ProducerPc ω
  workers : List (WorkerPc ω ρ)
  /-- The wait group. -/
  wg : ℕ
  /-- The shared list. -/
  result : List ρ

/-- As many workers as given, and the items to hand out. -/
def State.init (n : ℕ) (items : List ω) : State ω ρ :=
  ⟨.adding items, List.replicate n .receiving, 0, []⟩

def State.moveWorker (s : State ω ρ) (i : ℕ) (pc : WorkerPc ω ρ) : State ω ρ :=
  { s with workers := s.workers.set i pc }

inductive Action
  /-- The producer counts an item, or gets past its wait. -/
  | producer
  /-- The producer's send meets a worker's receive. -/
  | hand (i : ℕ)
  | worker (i : ℕ)

/-- The producer's own steps. -/
def producerStep (s : State ω ρ) : Option (State ω ρ) :=
  match s.producer with
  | .adding (item :: items) => some { s with producer := .sending item items, wg := s.wg + 1 }
  | .adding [] => if s.wg = 0 then some { s with producer := .finished } else none
  | .sending _ _ | .finished => none

/-- The send and the receive it meets. -/
def handStep (s : State ω ρ) (i : ℕ) : Option (State ω ρ) :=
  match s.producer, s.workers[i]? with
  | .sending item items, some .receiving =>
    some ({ s with producer := .adding items }.moveWorker i (.working item))
  | _, _ => none

/-- A worker's own steps. It leaves its loop once the channel is closed. -/
def workerStep (work : ω → Option ρ) (s : State ω ρ) (i : ℕ) (pc : WorkerPc ω ρ) :
    Option (State ω ρ) :=
  match pc with
  | .receiving =>
    match s.producer with
    | .finished => some (s.moveWorker i .exited)
    | _ => none
  | .working item =>
    match work item with
    | none => some (s.moveWorker i .done)
    | some r => some (s.moveWorker i (.appending r))
  | .appending r => some ({ s with result := s.result ++ [r] }.moveWorker i .done)
  | .done => if s.wg = 0 then none else some ({ s with wg := s.wg - 1 }.moveWorker i .receiving)
  | .exited => none

/-- **A fan-out as a machine.** -/
def fanOut (work : ω → Option ρ) : Machine (State ω ρ) Action where
  step := fun s a =>
    match a with
    | .producer => producerStep s
    | .hand i => handStep s i
    | .worker i => s.workers[i]?.bind (workerStep work s i)

/-! ## What is on its way -/

variable {work : ω → Option ρ} {s s' : State ω ρ} {items : List ω} {n : ℕ}

/-- The results an item comes to: one or none. -/
def yield (work : ω → Option ρ) (item : ω) : Multiset ρ := ((work item).toList : List ρ)

/-- The results of the items the producer still has. -/
def ProducerPc.holds (work : ω → Option ρ) : ProducerPc ω → Multiset ρ
  | .adding items => tally (yield work) items
  | .sending item items => yield work item + tally (yield work) items
  | .finished => 0

/-- The result of the item a worker is at. -/
def WorkerPc.holds (work : ω → Option ρ) : WorkerPc ω ρ → Multiset ρ
  | .working item => yield work item
  | .appending r => {r}
  | .receiving | .done | .exited => 0

/-- An item that is counted and not yet handed over. -/
def ProducerPc.counted : ProducerPc ω → ℕ
  | .sending _ _ => 1
  | .adding _ | .finished => 0

/-- An item that is handed over and not yet counted off. -/
def WorkerPc.counted : WorkerPc ω ρ → ℕ
  | .working _ | .appending _ | .done => 1
  | .receiving | .exited => 0

/-- **The books**: what is in the list, at the workers and at the producer
is what the items come to; the wait group counts the items under way; and
nobody leaves before the channel is closed, which is behind all of them. -/
structure Sound (work : ω → Option ρ) (items : List ω) (s : State ω ρ) : Prop where
  results : (s.result : Multiset ρ) + tally (WorkerPc.holds work) s.workers +
    s.producer.holds work = tally (yield work) items
  count : s.wg = tally WorkerPc.counted s.workers + s.producer.counted
  closed : s.producer = .finished → s.wg = 0
  staying : s.producer ≠ .finished → .exited ∉ s.workers

theorem sound_init : Sound work items (.init n items) where
  results := by
    have hidle : tally (WorkerPc.holds work) (State.init n items : State ω ρ).workers = 0 := by
      refine tally_eq_zero ?_
      intro pc hpc
      rw [List.eq_of_mem_replicate hpc]
      rfl
    rw [hidle]
    simp [State.init, ProducerPc.holds]
  count := by
    have hidle : tally WorkerPc.counted (State.init n items : State ω ρ).workers = 0 := by
      refine tally_eq_zero ?_
      intro pc hpc
      rw [List.eq_of_mem_replicate hpc]
      rfl
    rw [hidle]
    rfl
  closed := fun h => by cases h
  staying := by
    intro _ hmem
    have := List.eq_of_mem_replicate hmem
    cases this

/-! ## Every step -/

/-- One worker moves on, and the rest of the state with it. -/
theorem Sound.move {i wg : ℕ} {pc pc' : WorkerPc ω ρ} {producer : ProducerPc ω} {result : List ρ}
    (hs : Sound work items s) (hpc : s.workers[i]? = some pc)
    (hresults : (result : Multiset ρ) + pc'.holds work + producer.holds work =
      s.result + pc.holds work + s.producer.holds work)
    (hcount : wg + pc.counted + s.producer.counted = s.wg + pc'.counted + producer.counted)
    (hclosed : producer = .finished → wg = 0)
    (hstaying : producer ≠ .finished → s.producer ≠ .finished ∧ pc' ≠ .exited) :
    Sound work items ⟨producer, s.workers.set i pc', wg, result⟩ where
  results := by
    have hset := @tally_set _ _ _ (WorkerPc.holds work) _ pc pc' _ hpc
    refine add_right_cancel (b := pc.holds work) ?_
    calc (result : Multiset ρ) + tally (WorkerPc.holds work) (s.workers.set i pc') +
          producer.holds work + pc.holds work
        = result + producer.holds work +
            (tally (WorkerPc.holds work) (s.workers.set i pc') + pc.holds work) := by
          rw [add_right_comm (result : Multiset ρ), add_assoc]
      _ = (result + pc'.holds work + producer.holds work) +
            tally (WorkerPc.holds work) s.workers := by
          rw [hset, add_right_comm (result : Multiset ρ) (pc'.holds work), add_assoc, add_assoc,
            add_assoc, add_comm (pc'.holds work)]
      _ = (s.result + tally (WorkerPc.holds work) s.workers + s.producer.holds work) +
            pc.holds work := by
          rw [hresults, add_right_comm _ (pc.holds work), add_right_comm _ (pc.holds work),
            add_right_comm _ (s.producer.holds work)]
      _ = tally (yield work) items + pc.holds work := by rw [hs.results]
  count := by
    have hset := @tally_set _ _ _ WorkerPc.counted _ pc pc' _ hpc
    have hold := hs.count
    show wg = tally WorkerPc.counted (s.workers.set i pc') + producer.counted
    omega
  closed := hclosed
  staying := by
    intro hopen hmem
    obtain ⟨hopen', hne⟩ := hstaying hopen
    rcases List.mem_or_eq_of_mem_set hmem with hmem | heq
    · exact hs.staying hopen' hmem
    · exact hne heq.symm

/-- The producer moves on alone. -/
theorem sound_producerStep (hs : Sound work items s) (h : producerStep s = some s') :
    Sound work items s' := by
  unfold producerStep at h
  split at h
  · rename_i item rest hpc
    obtain rfl := Option.some.inj h
    refine ⟨?_, ?_, (fun h => by cases h), fun _ => hs.staying (by simp [hpc])⟩
    · have hold := hs.results
      rw [hpc] at hold
      simpa [ProducerPc.holds] using hold
    · have hold := hs.count
      rw [hpc] at hold
      simpa [ProducerPc.counted] using hold
  · rename_i hpc
    obtain ⟨hzero, h⟩ := Option.ite_none_right_eq_some.1 h
    obtain rfl := Option.some.inj h
    refine ⟨?_, ?_, fun _ => hzero, fun h => absurd rfl h⟩
    · have hold := hs.results
      rw [hpc] at hold
      simpa [ProducerPc.holds] using hold
    · have hold := hs.count
      rw [hpc] at hold
      simpa [ProducerPc.counted] using hold
  · cases h
  · cases h

theorem sound_handStep {i : ℕ} (hs : Sound work items s) (h : handStep s i = some s') :
    Sound work items s' := by
  unfold handStep at h
  split at h
  · rename_i item rest hpc hworker
    obtain rfl := Option.some.inj h
    refine hs.move hworker ?_ ?_ (fun h => by cases h) fun _ => ⟨by simp [hpc], by simp⟩
    · rw [hpc]
      simp only [WorkerPc.holds, ProducerPc.holds, add_zero, add_assoc]
    · rw [hpc]
      rfl
  · cases h

theorem sound_workerStep {i : ℕ} {pc : WorkerPc ω ρ} (hs : Sound work items s)
    (hpc : s.workers[i]? = some pc) (h : workerStep work s i pc = some s') :
    Sound work items s' := by
  unfold workerStep at h
  split at h
  · split at h
    · rename_i hfinished
      obtain rfl := Option.some.inj h
      exact hs.move hpc rfl rfl (fun _ => hs.closed hfinished) fun h => absurd hfinished h
    · cases h
  · split at h
    · rename_i item hnone
      obtain rfl := Option.some.inj h
      refine hs.move hpc ?_ rfl hs.closed fun h => ⟨h, by simp⟩
      simp [WorkerPc.holds, yield, hnone]
    · rename_i item r hsome
      obtain rfl := Option.some.inj h
      refine hs.move hpc ?_ rfl hs.closed fun h => ⟨h, by simp⟩
      simp [WorkerPc.holds, yield, hsome]
  · rename_i r
    obtain rfl := Option.some.inj h
    refine hs.move hpc ?_ rfl hs.closed fun h => ⟨h, by simp⟩
    simp only [WorkerPc.holds, add_zero, ← Multiset.coe_add, Multiset.coe_singleton]
  · obtain ⟨hpos, h⟩ := Option.ite_none_left_eq_some.1 h
    obtain rfl := Option.some.inj h
    refine hs.move hpc rfl ?_ ?_ fun h => ⟨h, by simp⟩
    · simp only [WorkerPc.counted]
      omega
    · intro hfinished
      exact absurd (hs.closed hfinished) hpos
  · cases h

/-- **Every step keeps the books.** -/
theorem sound_step {a : Action} (hs : Sound work items s) (h : (fanOut work).step s a = some s') :
    Sound work items s' := by
  cases a with
  | producer => exact sound_producerStep hs h
  | hand i => exact sound_handStep hs h
  | worker i =>
    obtain ⟨pc, hpc, h⟩ := Option.bind_eq_some_iff.1 h
    exact sound_workerStep hs hpc h

/-! ## The list at the end -/

theorem tally_yield (items : List ω) :
    tally (yield work) items = (items.filterMap work : Multiset ρ) := by
  induction items with
  | nil => rfl
  | cons item items ih =>
    rw [tally_cons, ih, yield, List.filterMap_cons]
    cases work item <;> simp

/-- A worker whose item is counted off holds none. -/
theorem WorkerPc.holds_eq_zero {pc : WorkerPc ω ρ} (h : pc.counted = 0) : pc.holds work = 0 := by
  cases pc with
  | receiving | exited | done => rfl
  | working | appending => cases h

/-- Parties that hold nothing together hold nothing each. -/
theorem counted_eq_zero_of_mem {l : List (WorkerPc ω ρ)} (h : tally WorkerPc.counted l = 0) :
    ∀ pc ∈ l, pc.counted = 0 := by
  induction l with
  | nil => simp
  | cons a l ih =>
    rw [tally_cons] at h
    intro pc hpc
    rcases List.mem_cons.1 hpc with rfl | hpc
    · omega
    · exact ih (by omega) pc hpc

/-- **Behind the wait every result is in the list.** -/
theorem Sound.perm (hs : Sound work items s) (hfinished : s.producer = .finished) :
    s.result.Perm (items.filterMap work) := by
  have hcount := hs.count
  rw [hs.closed hfinished] at hcount
  have hidle : tally (WorkerPc.holds work) s.workers = 0 := by
    refine tally_eq_zero ?_
    intro pc hpc
    exact pc.holds_eq_zero (counted_eq_zero_of_mem (by omega) pc hpc)
  have hresults := hs.results
  rw [hidle, hfinished, tally_yield] at hresults
  refine Multiset.coe_eq_coe.1 ?_
  simpa [ProducerPc.holds] using hresults

/-- **The list is the results of the items in some order**, whatever the
number of workers and however their steps are interleaved. -/
theorem result_perm {as : List Action} (hrun : (fanOut work).run (.init n items) as = some s)
    (hfinished : s.producer = .finished) : s.result.Perm (items.filterMap work) :=
  (Machine.run_invariant_of_step (fun _ _ _ hs h => sound_step hs h) sound_init hrun).perm
    hfinished

/-! ## Getting there -/

/-- The steps the producer has left, with those of its items. -/
def ProducerPc.left : ProducerPc ω → ℕ
  | .adding items => 5 * items.length + 1
  | .sending _ items => 5 * items.length + 5
  | .finished => 0

/-- The steps a worker has left with its item, and its exit. -/
def WorkerPc.left : WorkerPc ω ρ → ℕ
  | .working _ => 4
  | .appending _ => 3
  | .done => 2
  | .receiving => 1
  | .exited => 0

def State.left (s : State ω ρ) : ℕ := tally WorkerPc.left s.workers + s.producer.left

/-- Every step is one less to take. -/
theorem left_step {a : Action} (h : (fanOut work).step s a = some s') :
    s'.left < s.left ∧ s'.workers.length = s.workers.length := by
  cases a with
  | producer =>
    simp only [fanOut, producerStep] at h
    split at h
    · rename_i hpc
      obtain rfl := Option.some.inj h
      refine ⟨?_, rfl⟩
      simp only [State.left, hpc, ProducerPc.left, List.length_cons]
      omega
    · rename_i hpc
      obtain ⟨-, h⟩ := Option.ite_none_right_eq_some.1 h
      obtain rfl := Option.some.inj h
      refine ⟨?_, rfl⟩
      simp only [State.left, hpc, ProducerPc.left]
      omega
    · cases h
    · cases h
  | hand i =>
    simp only [fanOut, handStep] at h
    split at h
    · rename_i item rest hpc hworker
      obtain rfl := Option.some.inj h
      have hset := @tally_set _ _ _ WorkerPc.left _ _ (.working item) _ hworker
      refine ⟨?_, List.length_set⟩
      simp only [State.left, State.moveWorker, hpc, ProducerPc.left, WorkerPc.left] at hset ⊢
      omega
    · cases h
  | worker i =>
    obtain ⟨pc, hpc, h⟩ := Option.bind_eq_some_iff.1 h
    -- whatever the worker does, its place is one with fewer steps left
    have hmoved : ∃ pc' : WorkerPc ω ρ, pc'.left < pc.left ∧ s'.workers = s.workers.set i pc' ∧
        s'.producer = s.producer := by
      unfold workerStep at h
      split at h
      · split at h
        · obtain rfl := Option.some.inj h
          exact ⟨_, by simp [WorkerPc.left], rfl, rfl⟩
        · cases h
      · split at h
        · obtain rfl := Option.some.inj h
          exact ⟨_, by simp [WorkerPc.left], rfl, rfl⟩
        · obtain rfl := Option.some.inj h
          exact ⟨_, by simp [WorkerPc.left], rfl, rfl⟩
      · obtain rfl := Option.some.inj h
        exact ⟨_, by simp [WorkerPc.left], rfl, rfl⟩
      · obtain ⟨-, h⟩ := Option.ite_none_left_eq_some.1 h
        obtain rfl := Option.some.inj h
        exact ⟨_, by simp [WorkerPc.left], rfl, rfl⟩
      · cases h
    obtain ⟨pc', hlt, hworkers, hproducer⟩ := hmoved
    have hset := @tally_set _ _ _ WorkerPc.left _ pc pc' _ hpc
    refine ⟨?_, by rw [hworkers, List.length_set]⟩
    simp only [State.left, hworkers, hproducer]
    omega

/-- A worker that has an item can go on with it. -/
theorem Sound.exists_worker_step (hs : Sound work items s) {i : ℕ} {pc : WorkerPc ω ρ}
    (hpc : s.workers[i]? = some pc) (hcounted : pc.counted ≠ 0) :
    ∃ s', (fanOut work).step s (.worker i) = some s' := by
  have hpos : s.wg ≠ 0 := by
    intro hzero
    have hcount := hs.count
    exact hcounted (counted_eq_zero_of_mem (by omega) pc (List.mem_of_getElem? hpc))
  simp only [fanOut, hpc, Option.bind_some]
  cases pc with
  | working item => cases hw : work item <;> exact ⟨_, by simp only [workerStep, hw]; rfl⟩
  | appending r => exact ⟨_, rfl⟩
  | done => exact ⟨_, by simp only [workerStep, if_neg hpos]; rfl⟩
  | receiving | exited => exact absurd rfl hcounted

/-- **Short of the end somebody can move.** -/
theorem Sound.exists_step (hs : Sound work items s) (hworkers : 0 < s.workers.length)
    (hopen : s.producer ≠ .finished) : ∃ a s', (fanOut work).step s a = some s' := by
  cases hpc : s.producer with
  | adding rest =>
    cases rest with
    | cons item rest => exact ⟨.producer, _, by simp only [fanOut, producerStep, hpc]; rfl⟩
    | nil =>
      by_cases hzero : s.wg = 0
      · exact ⟨.producer, _, by simp only [fanOut, producerStep, hpc, if_pos hzero]; rfl⟩
      · -- an item that is still counted is at a worker
        have hcount := hs.count
        rw [hpc] at hcount
        obtain ⟨pc, hmem, hcounted⟩ : ∃ pc ∈ s.workers, pc.counted ≠ 0 := by
          by_contra hnone
          push Not at hnone
          rw [tally_eq_zero hnone] at hcount
          exact hzero hcount
        obtain ⟨i, hi⟩ := List.getElem?_of_mem hmem
        obtain ⟨s', h⟩ := hs.exists_worker_step hi hcounted
        exact ⟨.worker i, s', h⟩
  | sending item rest =>
    -- the first worker takes the item, or goes on with its own
    obtain ⟨pc, hi⟩ : ∃ pc, s.workers[0]? = some pc := ⟨_, List.getElem?_eq_getElem hworkers⟩
    by_cases hcounted : pc.counted = 0
    · cases pc with
      | receiving => exact ⟨.hand 0, _, by simp only [fanOut, handStep, hpc, hi]; rfl⟩
      | exited => exact absurd (List.mem_of_getElem? hi) (hs.staying hopen)
      | working | appending | done => cases hcounted
    · obtain ⟨s', h⟩ := hs.exists_worker_step hi hcounted
      exact ⟨.worker 0, s', h⟩
  | finished => exact absurd hpc hopen

/-- **With a worker there is a way to the end.** -/
theorem exists_run_finished (work : ω → Option ρ) (items : List ω) (hn : 0 < n) :
    ∃ as s, (fanOut work).run (.init n items) as = some s ∧ s.producer = .finished := by
  have hinit : Sound work items (.init n items) ∧
      (State.init n items : State ω ρ).workers.length = n := ⟨sound_init, List.length_replicate⟩
  refine Machine.exists_run_of_progress
    (I := fun s => Sound work items s ∧ s.workers.length = n) State.left ?_ ?_ hinit
  · rintro s a s' ⟨hs, hlen⟩ h
    obtain ⟨hlt, hlen'⟩ := left_step h
    exact ⟨⟨sound_step hs h, hlen'.trans hlen⟩, hlt⟩
  · rintro s ⟨hs, hlen⟩ hopen
    exact hs.exists_step (by omega) hopen

end FanOut

end Nrpc
