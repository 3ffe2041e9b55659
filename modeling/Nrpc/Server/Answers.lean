import Mathlib.Data.Multiset.Filter
import Mathlib.Tactic.Abel
import Nrpc.Common.Tally
import Nrpc.Server.Intake
import Nrpc.Server.Model.Dispatch
/-!
# Every request is answered once

A request is in one place at a time: on its way to the server, in the slot
of a thread, or captured by a task or goroutine; and it leaves the last of
these places in the step that calls `processResponse` for it. `owed` is
the multiset of the requests that are in such a place, and the invariant
`Sound` says that together with the requests answered so far they are the
requests there were. Where nothing is owed any more, every request has its
answer (`answered_once`), and that point is always reached
(`exists_completion`), since every step uses up some of the work `left`.

A thread's slots are overwritten by its next request while tasks and
goroutines of earlier ones are still under way. They are read between the
receive and the next head of the loop only, and what outlives the
iteration is captured by value.
-/

namespace Nrpc

namespace Server

open Context

/-! ## Answers -/

/-- A request the server can take in: it has a message, and its metadata
gives a context with its times or an error. -/
structure Receivable (env : Env) (req : Request) : Prop where
  msg : req.msg.isSome
  intake : ∀ h nuid, intake env.lib h req nuid ≠ .crash

/-- The propagated values and the times a request is handled with are its
own. -/
def Prepared (env : Env) (req : Request) (m : PropagateMap) (start timeout : ℤ) : Prop :=
  ∃ h nuid ctx h', intake env.lib h req nuid = .ready ctx h' start timeout ∧ m = values h' ctx

/-- **The responses that can come of a request**, each computed from that
request alone. -/
inductive Computed (env : Env) (req : Request) : Response → Prop
  /-- Its context or its times are in error. -/
  | rejected {h : Store} {nuid : GoString} {resp : Response}
      (hi : intake env.lib h req nuid = .reject resp) : Computed env req resp
  /-- The semaphore was not acquired in time. -/
  | refused {m : PropagateMap} {start timeout : ℤ} (e : GoString)
      (hm : Prepared env req m start timeout) :
      Computed env req (errorResponse errTooManyRequestCode e)
  /-- Its time was up before the handler was called. -/
  | late {m : PropagateMap} {start timeout : ℤ} (hm : Prepared env req m start timeout) :
      Computed env req timeoutResponse
  /-- The handler was called. -/
  | handled {m : PropagateMap} {start timeout : ℤ} (behaviour : ℕ)
      (hm : Prepared env req m start timeout) : Computed env req (env.call behaviour m req)

/-- A publication that answers a request: on its reply subject, with a
response that was computed from it. -/
def Answers (env : Env) (req : Request) (pub : Publication) : Prop :=
  req.msg.map Msg.reply = some pub.subject ∧
    ∃ resp, Computed env req resp ∧ pub.payload = (marshalResponse env resp).1

/-- A request that asks for an answer. -/
def Request.asks (req : Request) : Bool := req.msg.all fun msg => msg.type ≠ .msgNotify

/-- **One answer each.** The publications are, in some order of the
requests that ask for an answer, an answer to each. -/
def AnsweredOnce (env : Env) (reqs : List Request) (published : List Publication) : Prop :=
  ∃ answered : List Request, answered.Perm (reqs.filter Request.asks) ∧
    List.Forall₂ (Answers env) answered published

variable {env : Env} {setup : Setup} {req : Request} {resp : Response} {amb : Ambient}
variable {m : PropagateMap} {start timeout : ℤ}

theorem processRequest_computed (hm : Prepared env req m start timeout) :
    Computed env req (processRequest env m req amb) := by
  unfold processRequest
  split
  · exact .late hm
  · exact .handled _ hm

/-- A response is published once, unless the request is a notification. -/
theorem processResponse_spec (hreq : Receivable env req) (hresp : Computed env req resp) :
    (req.asks = false ∧ processResponse env req resp = some []) ∨
      req.asks = true ∧ ∃ pub, processResponse env req resp = some [pub] ∧
        Answers env req pub := by
  obtain ⟨msg, hmsg⟩ := Option.isSome_iff_exists.1 hreq.msg
  by_cases hnotify : msg.type = .msgNotify
  · left
    simp [Request.asks, processResponse, hmsg, hnotify]
  · right
    refine ⟨by simp [Request.asks, hmsg, hnotify], ⟨msg.reply, (marshalResponse env resp).1⟩,
      ?_, ?_⟩
    · simp only [processResponse, hmsg, if_neg hnotify]
    · exact ⟨by simp [hmsg], resp, hresp, rfl⟩

/-! ## Contexts in memory -/

/-- A context still holds what the request's own metadata put there. -/
def Holds (env : Env) (h : Store) (req : Request) (ctx : Ctx) (start timeout : ℤ) : Prop :=
  ∃ r, ctx = ⟨some (some r)⟩ ∧ r < h.next ∧ Prepared env req (h.read r) start timeout

theorem Holds.prepared {h : Store} {ctx : Ctx} (hctx : Holds env h req ctx start timeout) :
    Prepared env req (values h ctx) start timeout := by
  obtain ⟨r, rfl, -, hm⟩ := hctx
  exact hm

/-- A new map leaves the contexts there are alone. -/
theorem Holds.alloc {h : Store} {ctx : Ctx} (hctx : Holds env h req ctx start timeout)
    (m' : PropagateMap) : Holds env (h.alloc m') req ctx start timeout := by
  obtain ⟨r, rfl, hr, hm⟩ := hctx
  refine ⟨r, rfl, ?_, ?_⟩
  · rw [Heap.next_alloc]
    omega
  · rw [Heap.read_alloc_of_lt hr]
    exact hm

theorem holds_of_intake {h h' : Store} {nuid : GoString} {ctx : Ctx}
    (hi : intake env.lib h req nuid = .ready ctx h' start timeout) :
    Holds env h' req ctx start timeout := by
  obtain ⟨rfl, m', rfl⟩ := intake_eq_ready hi
  refine ⟨h.next, rfl, ?_, h, nuid, _, _, hi, rfl⟩
  rw [Heap.next_alloc]
  omega

/-! ## Where the requests are -/

/-- The request in a thread's hands. -/
def Thread.holds (th : Thread) : Multiset Request :=
  if th.pc = .receiving then 0 else ↑th.request.toList

/-- The request a task or goroutine has still to answer. -/
def Job.holds (job : Job) : Multiset Request :=
  if job.pc = .releasing ∨ job.pc = .done then 0 else {job.req}

/-- The requests on their way or with a thread, and what tasks and
goroutines count for. -/
def State.held (w : Job → Multiset Request) (s : State) : Multiset Request :=
  ↑s.pending + tally Thread.holds s.threads + tally w s.jobs

/-- **The requests that are still owed an answer.** -/
def State.owed (s : State) : Multiset Request := s.held Job.holds

/-- What a goroutine has taken of the semaphore. -/
def Job.permits (job : Job) : ℕ :=
  match job.pc with
  | .processing true | .selecting true | .responding true _ | .releasing => 1
  | _ => 0

/-- The steps a thread has at most left in its iteration. -/
def Thread.left (th : Thread) : ℕ :=
  match th.pc with
  | .receiving => 0
  | .taking => 8
  | .rejecting => 1
  | .dispatching .. => 7

/-- The steps a task or goroutine has at most left. -/
def Job.left (job : Job) : ℕ :=
  match job.pc with
  | .queued | .acquiring => 6
  | .processing _ => 5
  | .selecting _ => 4
  | .responding .. => 3
  | .releasing => 1
  | .done => 0

/-- **The steps a server has at most left.** -/
def State.left (s : State) : ℕ :=
  9 * s.pending.length + tally Thread.left s.threads + tally Job.left s.jobs

section Moves

variable {s : State} {w : Job → Multiset Request} {t j : ℕ} {th th' : Thread} {job job' : Job}

theorem held_moveThread (hth : s.threads[t]? = some th) :
    (s.moveThread t th').held w + th.holds = s.held w + th'.holds := by
  have hset := @tally_set _ _ _ Thread.holds _ th th' _ hth
  calc (s.moveThread t th').held w + th.holds
      = ↑s.pending + (tally Thread.holds (s.threads.set t th') + th.holds) + tally w s.jobs := by
        simp only [State.held, State.moveThread]
        abel
    _ = ↑s.pending + (tally Thread.holds s.threads + th'.holds) + tally w s.jobs := by rw [hset]
    _ = s.held w + th'.holds := by
        unfold State.held
        abel

theorem held_moveJob (hjob : s.jobs[j]? = some job) :
    (s.moveJob j job').held w + w job = s.held w + w job' := by
  unfold State.held State.moveJob
  rw [add_assoc, tally_set hjob, ← add_assoc]

theorem left_moveThread (hth : s.threads[t]? = some th) :
    (s.moveThread t th').left + th.left = s.left + th'.left := by
  have hset := @tally_set _ _ _ Thread.left _ th th' _ hth
  simp only [State.left, State.moveThread]
  omega

theorem left_moveJob (hjob : s.jobs[j]? = some job) :
    (s.moveJob j job').left + job.left = s.left + job'.left := by
  have hset := @tally_set _ _ _ Job.left _ job job' _ hjob
  simp only [State.left, State.moveJob]
  omega

end Moves

/-! ## The invariant -/

/-- The requests answered so far, and those still owed an answer, are the
requests there were. -/
def Accounted (env : Env) (reqs : List Request) (owed : Multiset Request)
    (published : List Publication) : Prop :=
  ∃ answered : List Request,
    ↑answered + owed.filter (fun req => req.asks) =
      (↑reqs : Multiset Request).filter (fun req => req.asks) ∧
    List.Forall₂ (Answers env) answered published

/-- **A response settles what is owed to its request.** -/
theorem Accounted.respond {reqs : List Request} {owed : Multiset Request}
    {published : List Publication} (hacc : Accounted env reqs (owed + {req}) published)
    (hreq : Receivable env req) (hresp : Computed env req resp) :
    ∃ pubs, processResponse env req resp = some pubs ∧
      Accounted env reqs owed (published ++ pubs) := by
  obtain ⟨answered, htotal, hanswers⟩ := hacc
  rw [Multiset.filter_add, Multiset.filter_singleton] at htotal
  rcases processResponse_spec hreq hresp with ⟨hasks, hpubs⟩ | ⟨hasks, pub, hpubs, hpub⟩
  · refine ⟨[], hpubs, answered, ?_, ?_⟩
    · simpa [hasks] using htotal
    · rwa [List.append_nil]
  · refine ⟨[pub], hpubs, answered ++ [req], ?_, ?_⟩
    · rw [if_pos hasks] at htotal
      rw [← htotal, ← Multiset.coe_add, Multiset.coe_singleton]
      abel
    · exact List.rel_append hanswers (.cons hpub .nil)

/-- What a thread's slots hold at each place of the loop. -/
inductive ThreadOk (env : Env) (h : Store) : Thread → Prop
  | receiving {request : Option Request} {response : Option Response} :
      ThreadOk env h ⟨request, response, .receiving⟩
  | taking {req : Request} {response : Option Response} (hreq : Receivable env req) :
      ThreadOk env h ⟨some req, response, .taking⟩
  | rejecting {req : Request} {resp : Response} (hreq : Receivable env req)
      (hresp : Computed env req resp) : ThreadOk env h ⟨some req, some resp, .rejecting⟩
  | dispatching {req : Request} {response : Option Response} {ctx : Ctx} {start timeout : ℤ}
      (hreq : Receivable env req) (hctx : Holds env h req ctx start timeout) :
      ThreadOk env h ⟨some req, response, .dispatching ctx start timeout⟩

/-- What a task or goroutine captured belongs together, and so does the
response it computed. -/
structure JobOk (env : Env) (h : Store) (job : Job) : Prop where
  req : Receivable env job.req
  ctx : Holds env h job.req job.ctx job.start job.timeout
  resp : ∀ acquired resp, job.pc = .responding acquired resp → Computed env job.req resp

theorem ThreadOk.alloc {h : Store} {th : Thread} (hth : ThreadOk env h th) (m' : PropagateMap) :
    ThreadOk env (h.alloc m') th := by
  cases hth with
  | receiving => exact .receiving
  | taking hreq => exact .taking hreq
  | rejecting hreq hresp => exact .rejecting hreq hresp
  | dispatching hreq hctx => exact .dispatching hreq (hctx.alloc m')

theorem JobOk.alloc {h : Store} {job : Job} (hjob : JobOk env h job) (m' : PropagateMap) :
    JobOk env (h.alloc m') job :=
  ⟨hjob.req, hjob.ctx.alloc m', hjob.resp⟩

/-- **The invariant of a server**, in the middle of a step that has some
requests in hand. -/
structure Sound (env : Env) (setup : Setup) (reqs : List Request) (inHand : Multiset Request)
    (s : State) : Prop where
  running : s.crashed = false
  service : s.threads.length = setup.service
  pending : ∀ req ∈ s.pending, Receivable env req
  threads : ∀ th ∈ s.threads, ThreadOk env s.store th
  jobs : ∀ job ∈ s.jobs, JobOk env s.store job
  semaphore : s.cur = tally Job.permits s.jobs
  accounted : Accounted env reqs (s.owed + inHand) s.published

variable {reqs : List Request} {s s' : State} {t j : ℕ} {th th' : Thread} {job job' : Job}
variable {inHand inHand' : Multiset Request}

theorem sound_init {h : Store} (hreqs : ∀ req ∈ reqs, Receivable env req) :
    Sound env setup reqs 0 (.init setup h reqs) where
  running := rfl
  service := List.length_replicate
  pending := hreqs
  threads := by
    intro th hth
    rw [List.eq_of_mem_replicate hth]
    exact .receiving
  jobs := by simp [State.init]
  semaphore := rfl
  accounted := by
    have hidle : tally Thread.holds (State.init setup h reqs).threads = 0 := by
      refine tally_eq_zero ?_
      intro th hth
      rw [List.eq_of_mem_replicate hth]
      rfl
    refine ⟨[], ?_, .nil⟩
    rw [State.owed, State.held, hidle]
    simp [State.init]

/-! ## What a step is made of -/

/-- A request is received. -/
theorem Sound.receive {rest : List Request} (hs : Sound env setup reqs 0 s)
    (hpending : s.pending = req :: rest) :
    Receivable env req ∧ Sound env setup reqs {req} { s with pending := rest } := by
  have hreqs := hs.pending
  rw [hpending, List.forall_mem_cons] at hreqs
  refine ⟨hreqs.1, hs.running, hs.service, hreqs.2, hs.threads, hs.jobs, hs.semaphore, ?_⟩
  have howed : s.owed + 0 = State.owed { s with pending := rest } + {req} := by
    simp only [State.owed, State.held, hpending, ← Multiset.cons_coe, ← Multiset.singleton_add]
    abel
  rw [← howed]
  exact hs.accounted

/-- A map is allocated. -/
theorem Sound.alloc (hs : Sound env setup reqs inHand s) (m' : PropagateMap) :
    Sound env setup reqs inHand { s with store := s.store.alloc m' } :=
  ⟨hs.running, hs.service, hs.pending, fun th hth => (hs.threads th hth).alloc m',
    fun job hjob => (hs.jobs job hjob).alloc m', hs.semaphore, hs.accounted⟩

/-- A thread moves. -/
theorem Sound.moveThread (hs : Sound env setup reqs inHand s) (hth : s.threads[t]? = some th)
    (hok : ThreadOk env s.store th') (hholds : th'.holds + inHand' = th.holds + inHand) :
    Sound env setup reqs inHand' (s.moveThread t th') where
  running := hs.running
  service := by simp [State.moveThread, hs.service]
  pending := hs.pending
  threads := forall_mem_set hs.threads hok
  jobs := hs.jobs
  semaphore := hs.semaphore
  accounted := by
    have howed : (s.moveThread t th').owed + inHand' = s.owed + inHand := by
      refine add_right_cancel (b := th.holds) ?_
      rw [State.owed, add_right_comm, held_moveThread hth, add_assoc, hholds, add_right_comm,
        add_assoc, State.owed]
    rw [howed]
    exact hs.accounted

/-- A task or goroutine moves, and takes or gives back some of the
semaphore. -/
theorem Sound.moveJob {cur : ℕ} (hs : Sound env setup reqs inHand s) (hjob : s.jobs[j]? = some job)
    (hok : JobOk env s.store job') (hholds : job'.holds + inHand' = job.holds + inHand)
    (hcur : cur + job.permits = s.cur + job'.permits) :
    Sound env setup reqs inHand' ({ s with cur := cur }.moveJob j job') where
  running := hs.running
  service := hs.service
  pending := hs.pending
  threads := hs.threads
  jobs := forall_mem_set hs.jobs hok
  semaphore := by
    have hset := @tally_set _ _ _ Job.permits _ job job' _ hjob
    have hsem := hs.semaphore
    show cur = tally Job.permits (s.jobs.set j job')
    omega
  accounted := by
    have howed : (s.moveJob j job').owed + inHand' = s.owed + inHand := by
      refine add_right_cancel (b := job.holds) ?_
      rw [State.owed, add_right_comm, held_moveJob hjob, add_assoc, hholds, add_right_comm,
        add_assoc, State.owed]
    show Accounted env reqs ((s.moveJob j job').owed + inHand') s.published
    rw [howed]
    exact hs.accounted

/-- A request is handed on to a new task or goroutine. -/
theorem Sound.spawn (hs : Sound env setup reqs {job.req} s) (hok : JobOk env s.store job)
    (hholds : job.holds = {job.req}) (hpermits : job.permits = 0) :
    Sound env setup reqs 0 { s with jobs := s.jobs ++ [job] } where
  running := hs.running
  service := hs.service
  pending := hs.pending
  threads := hs.threads
  jobs := by
    intro job' hjob'
    rcases List.mem_append.1 hjob' with hmem | hmem
    · exact hs.jobs job' hmem
    · rw [List.mem_singleton.1 hmem]
      exact hok
  semaphore := by simp [hs.semaphore, hpermits]
  accounted := by
    have howed : State.owed { s with jobs := s.jobs ++ [job] } + 0 = s.owed + {job.req} := by
      simp only [State.owed, State.held, tally_append, tally_cons, tally_nil, hholds]
      abel
    rw [howed]
    exact hs.accounted

/-- **The request in hand is answered.** -/
theorem Sound.respond (hs : Sound env setup reqs {req} s) (hreq : Receivable env req)
    (hresp : Computed env req resp) :
    Sound env setup reqs 0 (s.respond env req resp) ∧ (s.respond env req resp).left = s.left := by
  obtain ⟨pubs, hpubs, hacc⟩ := hs.accounted.respond hreq hresp
  have heq : s.respond env req resp = { s with published := s.published ++ pubs } := by
    rw [State.respond, hpubs]
  rw [heq]
  refine ⟨⟨hs.running, hs.service, hs.pending, hs.threads, hs.jobs, hs.semaphore, ?_⟩, rfl⟩
  rw [add_zero]
  exact hacc

/-! ## Steps -/

theorem entryPc_cases {h : Store} {ctx : Ctx} :
    entryPc env h ctx = .queued ∨ entryPc env h ctx = .acquiring := by
  unfold entryPc
  split
  · by_cases hpool : env.workerPool <;> simp [hpool]
  · exact .inr rfl

/-- A thread hands the request in its slot on. -/
theorem handOn_sound {response : Option Response} {ctx : Ctx} (hs : Sound env setup reqs 0 s)
    (hth : s.threads[t]? = some ⟨some req, response, .dispatching ctx start timeout⟩)
    (hreq : Receivable env req) (hctx : Holds env s.store req ctx start timeout)
    (hjob : job = ⟨req, ctx, start, timeout, entryPc env s.store ctx⟩)
    (hs' : s' = { s with jobs := s.jobs ++ [job] }.moveThread t
      ⟨some req, response, .receiving⟩) :
    Sound env setup reqs 0 s' ∧ s'.left < s.left := by
  have hleft := @left_moveThread s t _ ⟨some req, response, .receiving⟩ hth
  have hs₁ : Sound env setup reqs {req} (s.moveThread t ⟨some req, response, .receiving⟩) :=
    hs.moveThread hth .receiving (by simp [Thread.holds])
  -- in the pool or before the semaphore, the request is held and nothing taken
  have hwork : job.left = 6 ∧ job.holds = {req} ∧ job.permits = 0 ∧
      ∀ acquired resp, job.pc ≠ .responding acquired resp := by
    rcases @entryPc_cases env s.store ctx with hpc | hpc <;>
      simp [hjob, hpc, Job.left, Job.holds, Job.permits]
  obtain ⟨hjobleft, hholds, hpermits, hpc⟩ := hwork
  subst hs'
  refine ⟨?_, ?_⟩
  · subst hjob
    exact hs₁.spawn ⟨hreq, hctx, fun acquired resp hresp => absurd hresp (hpc acquired resp)⟩
      hholds hpermits
  · simp only [State.left, State.moveThread, tally_append, tally_cons, tally_nil, hjobleft,
      Thread.left] at hleft ⊢
    omega

/-- **A step of `processMessages`** keeps the invariant and uses up some
of the work. -/
theorem threadStep_sound (hs : Sound env setup reqs 0 s) (hth : s.threads[t]? = some th)
    (hstep : threadStep env s t th amb = some s') :
    Sound env setup reqs 0 s' ∧ s'.left < s.left := by
  cases hs.threads th (List.mem_of_getElem? hth) with
  | @receiving request response =>
    rcases hpending : s.pending with _ | ⟨req, rest⟩
    · simp [threadStep, hpending] at hstep
    · simp only [threadStep, hpending, Option.some.injEq] at hstep
      obtain ⟨hreq, hs₁⟩ := hs.receive hpending
      have hleft :=
        @left_moveThread { s with pending := rest } t _ ⟨some req, response, .taking⟩ hth
      subst hstep
      refine ⟨hs₁.moveThread hth (.taking hreq) (by simp [Thread.holds]), ?_⟩
      simp only [State.left, hpending, List.length_cons, Thread.left] at hleft ⊢
      omega
  | @taking req response hreq =>
    rcases hi : intake env.lib s.store req amb.nuid with ⟨ctx, h, start, timeout⟩ | resp | _
    · -- the slot keeps the request, and the context is a local of this turn
      simp only [threadStep, hi, Option.some.injEq] at hstep
      obtain ⟨-, m', rfl⟩ := intake_eq_ready hi
      have hleft := @left_moveThread { s with store := s.store.alloc m' } t _
        ⟨some req, response, .dispatching ctx start timeout⟩ hth
      subst hstep
      have hok : ThreadOk env (s.store.alloc m')
          ⟨some req, response, .dispatching ctx start timeout⟩ :=
        .dispatching hreq (holds_of_intake hi)
      refine ⟨(hs.alloc m').moveThread hth hok (by simp [Thread.holds]), ?_⟩
      simp only [State.left, Thread.left] at hleft ⊢
      omega
    · simp only [threadStep, hi, Option.some.injEq] at hstep
      have hleft := @left_moveThread s t _ ⟨some req, some resp, .rejecting⟩ hth
      subst hstep
      refine ⟨hs.moveThread hth (.rejecting hreq (.rejected hi)) (by simp [Thread.holds]), ?_⟩
      simp only [Thread.left] at hleft
      omega
    · exact absurd hi (hreq.intake _ _)
  | @rejecting req resp hreq hresp =>
    -- both slots are this turn's own: nothing was received in between
    simp only [threadStep, Option.some.injEq] at hstep
    have hleft := @left_moveThread s t _ ⟨some req, some resp, .receiving⟩ hth
    have hs₁ : Sound env setup reqs {req} (s.moveThread t ⟨some req, some resp, .receiving⟩) :=
      hs.moveThread hth .receiving (by simp [Thread.holds])
    obtain ⟨hs₂, hsame⟩ := hs₁.respond hreq hresp
    subst hstep
    refine ⟨hs₂, ?_⟩
    simp only [Thread.left] at hleft
    omega
  | @dispatching req response ctx start timeout hreq hctx =>
    simp only [threadStep, Option.some.injEq] at hstep
    exact handOn_sound hs hth hreq hctx rfl hstep.symm

/-- A task or goroutine gets on with the request it keeps. -/
theorem Sound.advance {cur : ℕ} {pc : JobPc} (hs : Sound env setup reqs 0 s)
    (hjob : s.jobs[j]? = some job)
    (hs' : s' = { s with cur := cur }.moveJob j { job with pc := pc })
    (hresp : ∀ acquired resp, pc = .responding acquired resp → Computed env job.req resp)
    (hholds : { job with pc := pc }.holds = job.holds)
    (hcur : cur + job.permits = s.cur + { job with pc := pc }.permits)
    (hleft : { job with pc := pc }.left < job.left) :
    Sound env setup reqs 0 s' ∧ s'.left < s.left := by
  obtain ⟨hreq, hctx, -⟩ := hs.jobs job (List.mem_of_getElem? hjob)
  have htotal := @left_moveJob { s with cur := cur } j job { job with pc := pc } hjob
  subst hs'
  refine ⟨hs.moveJob hjob ⟨hreq, hctx, hresp⟩ (by rw [hholds]) hcur, ?_⟩
  have hsame : State.left { s with cur := cur } = s.left := rfl
  omega

/-- A task or goroutine answers its request. -/
theorem respondJob_sound {acquired : Bool} (hs : Sound env setup reqs 0 s)
    (hjob : s.jobs[j]? = some job) (hpc : job.pc = .responding acquired resp)
    (hs' : s' = (s.moveJob j { job with pc := exitPc acquired }).respond env job.req resp) :
    Sound env setup reqs 0 s' ∧ s'.left < s.left := by
  obtain ⟨hreq, hctx, hresp⟩ := hs.jobs job (List.mem_of_getElem? hjob)
  have hleft := @left_moveJob s j job { job with pc := exitPc acquired } hjob
  -- the request is in hand now, and the semaphore still taken if it was
  have hs₁ : Sound env setup reqs {job.req} (s.moveJob j { job with pc := exitPc acquired }) := by
    refine hs.moveJob hjob ⟨hreq, hctx, ?_⟩ ?_ ?_
    · cases acquired <;> simp [exitPc]
    · cases acquired <;> simp [Job.holds, hpc, exitPc]
    · cases acquired <;> simp [Job.permits, hpc, exitPc]
  obtain ⟨hs₂, hsame⟩ := hs₁.respond hreq (hresp acquired resp hpc)
  subst hs'
  refine ⟨hs₂, ?_⟩
  have hjobleft : job.left = 3 := by rw [Job.left, hpc]
  have hexit : Job.left { job with pc := exitPc acquired } ≤ 1 := by
    cases acquired <;> simp [Job.left, exitPc]
  omega

/-- **A step of a task or goroutine** keeps the invariant and uses up some
of the work. -/
theorem jobStep_sound (hsem : setup.sempWeighted.isSome) (hs : Sound env setup reqs 0 s)
    (hjob : s.jobs[j]? = some job) (hstep : jobStep env setup s j job amb = some s') :
    Sound env setup reqs 0 s' ∧ s'.left < s.left := by
  obtain ⟨-, hctx, -⟩ := hs.jobs job (List.mem_of_getElem? hjob)
  obtain ⟨size, hsize⟩ := Option.isSome_iff_exists.1 hsem
  obtain ⟨req, ctx, start, timeout, pc⟩ := job
  cases pc with
  | queued =>
    simp only [jobStep, Option.some.injEq] at hstep
    exact hs.advance hjob hstep.symm (by simp) rfl rfl (by simp [Job.left])
  | acquiring =>
    rcases hrefused : amb.refused with _ | e
    · simp only [jobStep, hsize, hrefused] at hstep
      split at hstep
      · cases hstep
        exact hs.advance hjob rfl (by simp) rfl rfl (by simp [Job.left])
      · cases hstep
    · simp only [jobStep, hsize, hrefused, Option.some.injEq] at hstep
      refine hs.advance hjob hstep.symm ?_ rfl rfl (by simp [Job.left])
      intro acquired resp hpc
      cases hpc
      exact .refused e hctx.prepared
  | processing acquired =>
    simp only [jobStep] at hstep
    split at hstep
    · refine hs.advance hjob (Option.some.inj hstep).symm ?_ rfl ?_ (by simp [Job.left])
      · intro acquired' resp hpc
        cases hpc
        exact .late hctx.prepared
      · cases acquired <;> rfl
    · refine hs.advance hjob (Option.some.inj hstep).symm (by simp) rfl ?_ (by simp [Job.left])
      cases acquired <;> rfl
  | selecting acquired =>
    simp only [jobStep, Option.some.injEq] at hstep
    refine hs.advance hjob hstep.symm ?_ rfl ?_ (by simp [Job.left])
    · intro acquired' resp hpc
      cases hpc
      exact processRequest_computed hctx.prepared
    · cases acquired <;> rfl
  | responding acquired resp =>
    simp only [jobStep, Option.some.injEq] at hstep
    exact respondJob_sound hs hjob rfl hstep.symm
  | releasing =>
    -- what this goroutine has taken is counted
    have hcount := @tally_set _ _ _ Job.permits _ _ ⟨req, ctx, start, timeout, .done⟩ _ hjob
    have hcur := hs.semaphore
    simp only [Job.permits] at hcount
    have hpos : s.cur ≠ 0 := by omega
    simp only [jobStep, if_neg hpos, Option.some.injEq] at hstep
    refine hs.advance hjob hstep.symm (by simp) (by simp [Job.holds]) ?_ (by simp [Job.left])
    simp only [Job.permits]
    omega
  | done => simp [jobStep] at hstep

theorem step_sound {a : Action} (hsem : setup.sempWeighted.isSome) (hs : Sound env setup reqs 0 s)
    (hstep : step env setup s a = some s') : Sound env setup reqs 0 s' ∧ s'.left < s.left := by
  cases a with
  | thread t amb =>
    simp only [step, hs.running, Bool.false_eq_true, if_false, Option.bind_eq_some_iff] at hstep
    obtain ⟨th, hth, hstep⟩ := hstep
    exact threadStep_sound hs hth hstep
  | job j amb =>
    simp only [step, hs.running, Bool.false_eq_true, if_false, Option.bind_eq_some_iff] at hstep
    obtain ⟨job, hjob, hstep⟩ := hstep
    exact jobStep_sound hsem hs hjob hstep

/-! ## Runs -/

/-- A thread that is not at the head of the loop can move. -/
theorem threadStep_enabled (hpc : th.pc ≠ .receiving) :
    ∃ s', threadStep env s t th amb = some s' := by
  rw [← Option.isSome_iff_exists]
  unfold threadStep
  split
  · contradiction
  · split
    · rfl
    · split <;> rfl
  · split <;> rfl
  · split <;> rfl

/-- A task or goroutine that has not returned can move, at the latest when
the deadline of its `Acquire` has passed. -/
theorem jobStep_enabled (hpc : job.pc ≠ .done) (hrefused : amb.refused.isSome) :
    ∃ s', jobStep env setup s j job amb = some s' := by
  rw [← Option.isSome_iff_exists]
  obtain ⟨e, he⟩ := Option.isSome_iff_exists.1 hrefused
  unfold jobStep
  split
  · rfl
  · rw [he]
    split <;> simp_all
  · split <;> rfl
  · rfl
  · rfl
  · split <;> rfl
  · contradiction

/-- **A server that is not done can move.** -/
theorem step_enabled (hservice : 0 < setup.service) (hs : Sound env setup reqs 0 s)
    (hnot : ¬ s.Completed) : ∃ a s', step env setup s a = some s' := by
  have hrunning := hs.running
  let amb : Ambient := ⟨[], 0, false, 0, some []⟩
  by_cases hthreads : ∀ th ∈ s.threads, th.pc = .receiving
  · by_cases hjobs : ∀ job ∈ s.jobs, job.pc = .done
    · -- all is quiet, so there is a request for the first thread
      have hpending : s.pending ≠ [] := fun hnil => hnot ⟨hrunning, hnil, hthreads, hjobs⟩
      obtain ⟨req, rest, hreq⟩ := List.exists_cons_of_ne_nil hpending
      have hlt : 0 < s.threads.length := by rw [hs.service]; exact hservice
      have hpc := hthreads _ (List.getElem_mem hlt)
      refine ⟨.thread 0 amb, ?_⟩
      simp [step, hrunning, List.getElem?_eq_getElem hlt, threadStep, hpc, hreq]
    · push Not at hjobs
      obtain ⟨job, hmem, hpc⟩ := hjobs
      obtain ⟨j, hj⟩ := List.mem_iff_getElem?.1 hmem
      obtain ⟨s', hs'⟩ := @jobStep_enabled env setup amb s j job hpc rfl
      exact ⟨.job j amb, s', by simp [step, hrunning, hj, hs']⟩
  · push Not at hthreads
    obtain ⟨th, hmem, hpc⟩ := hthreads
    obtain ⟨t, ht⟩ := List.mem_iff_getElem?.1 hmem
    obtain ⟨s', hs'⟩ := @threadStep_enabled env amb s t th hpc
    exact ⟨.thread t amb, s', by simp [step, hrunning, ht, hs']⟩

/-- A server that is done owes nothing. -/
theorem owed_eq_zero (hdone : s.Completed) : s.owed = 0 := by
  obtain ⟨-, hpending, hthreads, hjobs⟩ := hdone
  have h₁ : tally Thread.holds s.threads = 0 :=
    tally_eq_zero fun th hth => by rw [Thread.holds, if_pos (hthreads th hth)]
  have h₂ : tally Job.holds s.jobs = 0 :=
    tally_eq_zero fun job hjob => by rw [Job.holds, if_pos (.inr (hjobs job hjob))]
  simp [State.owed, State.held, hpending, h₁, h₂]

theorem answeredOnce_of_completed (hs : Sound env setup reqs 0 s) (hdone : s.Completed) :
    AnsweredOnce env reqs s.published := by
  obtain ⟨answered, htotal, hanswers⟩ := hs.accounted
  refine ⟨answered, ?_, hanswers⟩
  rw [owed_eq_zero hdone, add_zero, Multiset.filter_zero, add_zero, Multiset.filter_coe] at htotal
  simpa using Multiset.coe_eq_coe.1 htotal

/-- A semaphore is made, and the threads are as many as configured. -/
theorem configure_eq_ok {config : Config} (hconfig : configure config = .ok setup) :
    setup.service = config.services.toNat ∧
      (setup.sempWeighted.isSome ↔ 0 < config.semaphore) := by
  unfold configure at hconfig
  split_ifs at hconfig with hconnect hzero hneg hsem
  · cases hconfig
    simp [hsem]
  · cases hconfig
    simp [hsem]

/-- The invariant holds along every run. -/
theorem sound_of_run {h : Store} {as : List Action} (hsem : setup.sempWeighted.isSome)
    (hreqs : ∀ req ∈ reqs, Receivable env req)
    (hrun : (dispatch env setup).run (.init setup h reqs) as = some s) :
    Sound env setup reqs 0 s :=
  Machine.run_invariant_of_step (fun _ _ _ hs hstep => (step_sound hsem hs hstep).1)
    (sound_init hreqs) hrun

/-- **Every run can be completed.** -/
theorem exists_completion (hsem : setup.sempWeighted.isSome) (hservice : 0 < setup.service)
    (hs : Sound env setup reqs 0 s) :
    ∃ bs s', (dispatch env setup).run s bs = some s' ∧ s'.Completed :=
  Machine.exists_run_of_progress State.left (fun _ _ _ hs hstep => step_sound hsem hs hstep)
    (fun _ hs hnot => step_enabled hservice hs hnot) hs

/-- **Every request is answered once, and to its own caller.** A server
with a semaphore, any number of threads and any requests it can take in:
in whatever order its threads, tasks and goroutines take their steps, and
whatever the clock, the handler and the semaphore's deadlines do, once
nothing is left to do each request that is not a notification has been
answered by one publication, on its own reply subject and with a response
computed from it, and there is no other publication. With a thread to
receive them, that point can be reached from everywhere. -/
theorem answered_once (env : Env) (config : Config) (setup : Setup) (h : Store)
    (reqs : List Request) (hconfig : configure config = .ok setup)
    (hsem : 0 < config.semaphore) (hreqs : ∀ req ∈ reqs, Receivable env req)
    (as : List Action) (s : State)
    (hrun : (dispatch env setup).run (.init setup h reqs) as = some s) :
    (s.Completed → AnsweredOnce env reqs s.published) ∧
      (0 < config.services →
        ∃ bs s', (dispatch env setup).run s bs = some s' ∧ s'.Completed) := by
  obtain ⟨hservice, hsome⟩ := configure_eq_ok hconfig
  have hs := sound_of_run (hsome.2 hsem) hreqs hrun
  refine ⟨answeredOnce_of_completed hs, ?_⟩
  intro hpos
  exact exists_completion (hsome.2 hsem) (by omega) hs

/-- A field of a message on the wire, shorter than 128 bytes. -/
def shortField (tag : UInt8) (p : List UInt8) : List UInt8 :=
  if p = [] then [] else tag :: UInt8.ofNat p.length :: p

/-- The times and the share id of a request that has ten seconds, as the
caller encodes them. -/
def roomMetadata : List UInt8 :=
  lit "\x7b\"req-start-time\":\"100\",\"reqTimeout\":\"10s\",\"share.id\":\"room-1\"\x7d"

def notMetadata : GoString := lit "invalid character \x27?\x27 looking for beginning of value"

/-- A server with a pool, for short responses and this metadata only. The
handler answers with the route. -/
def roomServer : Env where
  lib :=
    { json :=
        { parse := fun data =>
            if data = roomMetadata then
              .ok (.object [(startTimeKey, .string (lit "100")),
                (requestTimeout, .string (lit "10s")), (shareIDKey, .string (lit "room-1"))])
            else .error notMetadata
          marshal := fun _ => .ok roomMetadata }
      parseDuration := fun _ => .ok 10000000000 }
  workerPool := true
  call := fun _ _ req => ⟨req.route, none⟩
  marshal := fun resp => .ok (shortField 0x0a resp.data ++ (resp.error.map fun e =>
    shortField 0x12 (shortField 0x0a e.code ++ shortField 0x12 e.msg)).getD [])

/-- A request for the pool, one without proper metadata, and a
notification. -/
def threeRequests : List Request :=
  [⟨some ⟨1, lit "room.join", [], lit "inbox.1", .msgRequest⟩, roomMetadata⟩,
    ⟨some ⟨2, lit "room.join", [], lit "inbox.2", .msgRequest⟩, lit "?"⟩,
    ⟨some ⟨3, lit "room.leave", [], [], .msgNotify⟩, roomMetadata⟩]

theorem threeRequests_receivable : ∀ req ∈ threeRequests, Receivable roomServer req := by
  have hparse : roomServer.lib.json.parse roomMetadata =
      .ok (.object [(startTimeKey, .string (lit "100")), (requestTimeout, .string (lit "10s")),
        (shareIDKey, .string (lit "room-1"))]) := by
    simp [roomServer]
  have hroom : Harmless roomServer.lib.json roomMetadata := by
    right
    rw [hparse]
    exact ⟨trivial, fun _ _ _ => trivial⟩
  have hother : Harmless roomServer.lib.json (lit "?") := by
    right
    exact trivial
  have hall : ∀ req ∈ threeRequests,
      req.msg.isSome ∧ Harmless roomServer.lib.json req.metadata := by
    simp [threeRequests, hroom, hother]
  intro req hreq
  obtain ⟨hmsg, hharmless⟩ := hall req hreq
  exact ⟨hmsg, fun h nuid hcrash => intake_eq_crash_iff.1 hcrash hharmless⟩

/-- **One thread and the three requests.** The second is answered, and the
third has taken the slot, before the pool runs the task of the first. -/
theorem answered_once_threeRequests :
    let setup : Setup := ⟨1, some 256⟩
    let amb : Ambient := ⟨lit "id", 200, false, 0, none⟩
    let thread : Action := .thread 0 amb
    let job (j : ℕ) : Action := .job j amb
    let init : State := .init setup ⟨fun _ => .empty, 0⟩ threeRequests
    let actions := [thread, thread, thread, thread, thread, thread, thread,
      job 0, job 0, job 0, job 0, thread, thread, job 1, job 1, job 1, job 1]
    let published : List Publication :=
      [⟨lit "inbox.2", shortField 0x12
          (shortField 0x0a (lit "PIT-500") ++ shortField 0x12 notMetadata)⟩,
        ⟨lit "inbox.1", shortField 0x0a (lit "room.join")⟩]
    ∃ s, (dispatch roomServer setup).run init actions = some s ∧ s.published = published ∧
      AnsweredOnce roomServer threeRequests published := by
  intro setup amb thread job init actions published
  obtain ⟨s, hrun, hpublished, hdone⟩ :
      ∃ s, (dispatch roomServer setup).run init actions = some s ∧ s.published = published ∧
        s.Completed :=
    ⟨_, rfl, by decide +kernel, by decide +kernel⟩
  refine ⟨s, hrun, hpublished, ?_⟩
  rw [← hpublished]
  exact (answered_once roomServer ⟨1, lit "nats://localhost:4222", 75, 256⟩ setup _ _ rfl
    (by decide) threeRequests_receivable _ _ hrun).1 hdone

end Server

end Nrpc
