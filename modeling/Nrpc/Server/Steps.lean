import Nrpc.Server.Answers
/-!
# What a server does in a step

One inversion of the server's step, with all that a step reads and writes
(`does_of_step`), and two ledgers read off it. They ask nothing of the
requests, and hold of servers that crash.

A request is `unhandled` from its arrival until `processRequest` has
decided on it, and each call of the handler takes one request out of there
(`unhandled_does`). Between its look at the clock and the call of the
handler `processRequest` may be kept waiting. Each publication takes a request out of what is owed
(`replies_does`).
-/

namespace Nrpc

namespace Server

open Context

variable {env : Env} {setup : Setup} {s s' : State} {req : Request}

/-! ## Calls of the handler -/

/-- The request the handler is called with, if it is. -/
def Job.handlerCalls (job : Job) (amb : Ambient) : List Request :=
  match job.pc with
  | .selecting _ => if amb.fired then [] else [job.req]
  | _ => []

/-- **The calls of the handler in a step.** -/
def handlerCalls (s : State) : Action → List Request
  | .thread _ _ => []
  | .job j amb => (s.jobs[j]?.map fun job => job.handlerCalls amb).getD []

/-! ## The inversion -/

/-- **What a step does**, and the calls of the handler in it. -/
inductive Does (env : Env) (s : State) : List Request → State → Prop
  | crashed : Does env s [] s.crash
  | received {t : ℕ} {th : Thread} {req : Request} {rest : List Request}
      (hth : s.threads[t]? = some th) (hpc : th.pc = .receiving)
      (hpending : s.pending = req :: rest) :
      Does env s []
        ({ s with pending := rest }.moveThread t { th with request := some req, pc := .taking })
  | rejected {t : ℕ} {th : Thread} {req : Request} {nuid : GoString} {resp : Response}
      (hth : s.threads[t]? = some th) (hpc : th.pc = .taking) (hreq : th.request = some req)
      (hi : intake env.lib s.store req nuid = .reject resp) :
      Does env s [] (s.moveThread t { th with response := some resp, pc := .rejecting })
  | taken {t : ℕ} {th : Thread} {req : Request} {nuid : GoString} {ctx : Ctx} {h : Store}
      {start timeout : ℤ} (hth : s.threads[t]? = some th) (hpc : th.pc = .taking)
      (hreq : th.request = some req)
      (hi : intake env.lib s.store req nuid = .ready ctx h start timeout) :
      Does env s []
        ({ s with store := h }.moveThread t { th with pc := .dispatching ctx start timeout })
  | answered {t : ℕ} {th : Thread} {req : Request} {resp : Response}
      (hth : s.threads[t]? = some th) (hpc : th.pc = .rejecting) (hreq : th.request = some req)
      (hresp : th.response = some resp) :
      Does env s [] ((s.moveThread t { th with pc := .receiving }).respond env req resp)
  | handedOn {t : ℕ} {th : Thread} {job : Job} {ctx : Ctx} {start timeout : ℤ}
      (hth : s.threads[t]? = some th) (hpc : th.pc = .dispatching ctx start timeout)
      (hreq : th.request = some job.req)
      (hjob : job = ⟨job.req, ctx, start, timeout, entryPc env s.store ctx⟩) :
      Does env s []
        ({ s with jobs := s.jobs ++ [job] }.moveThread t { th with pc := .receiving })
  | started {j cur : ℕ} {job : Job} {acquired : Bool} (hjob : s.jobs[j]? = some job)
      (hpc : job.pc = .queued ∨ job.pc = .acquiring) :
      Does env s [] ({ s with cur := cur }.moveJob j { job with pc := .processing acquired })
  | refused {j : ℕ} {job : Job} (e : GoString) (hjob : s.jobs[j]? = some job)
      (hpc : job.pc = .acquiring) :
      Does env s [] (s.moveJob j
        { job with pc := .responding false (errorResponse errTooManyRequestCode e) })
  | late {j : ℕ} {job : Job} {acquired : Bool} (hjob : s.jobs[j]? = some job)
      (hpc : job.pc = .processing acquired) :
      Does env s [] (s.moveJob j { job with pc := .responding acquired timeoutResponse })
  | checked {j : ℕ} {job : Job} {acquired : Bool} (hjob : s.jobs[j]? = some job)
      (hpc : job.pc = .processing acquired) :
      Does env s [] (s.moveJob j { job with pc := .selecting acquired })
  | processed {j : ℕ} {job : Job} {acquired : Bool} (amb : Ambient) (hjob : s.jobs[j]? = some job)
      (hpc : job.pc = .selecting acquired) :
      Does env s (if amb.fired then [] else [job.req]) (s.moveJob j
        { job with
          pc := .responding acquired
            (processRequest env (values s.store job.ctx) job.req amb) })
  | responded {j : ℕ} {job : Job} {acquired : Bool} {resp : Response}
      (hjob : s.jobs[j]? = some job) (hpc : job.pc = .responding acquired resp) :
      Does env s [] ((s.moveJob j { job with pc := exitPc acquired }).respond env job.req resp)
  | released {j cur : ℕ} {job : Job} (hjob : s.jobs[j]? = some job) (hpc : job.pc = .releasing) :
      Does env s [] ({ s with cur := cur }.moveJob j { job with pc := .done })

theorem does_of_threadStep {t : ℕ} {th : Thread} {amb : Ambient} (hth : s.threads[t]? = some th)
    (hstep : threadStep env s t th amb = some s') : Does env s [] s' := by
  unfold threadStep at hstep
  split at hstep
  · rename_i hpc
    split at hstep
    · cases hstep
    · rename_i hpending
      cases hstep
      exact .received hth hpc hpending
  · rename_i hpc
    split at hstep
    · cases hstep
      exact .crashed
    · rename_i hreq
      split at hstep <;> rename_i hi <;> cases hstep
      · exact .crashed
      · exact .rejected hth hpc hreq hi
      · exact .taken hth hpc hreq hi
  · rename_i hpc
    split at hstep
    · rename_i hreq hresp
      cases hstep
      exact .answered hth hpc hreq hresp
    · cases hstep
      exact .crashed
  · rename_i hpc
    split at hstep
    · cases hstep
      exact .crashed
    · rename_i hreq
      cases hstep
      exact .handedOn hth hpc hreq rfl

theorem does_of_jobStep {j : ℕ} {job : Job} {amb : Ambient} (hjob : s.jobs[j]? = some job)
    (hstep : jobStep env setup s j job amb = some s') :
    Does env s (job.handlerCalls amb) s' := by
  unfold jobStep at hstep
  unfold Job.handlerCalls
  split at hstep <;> rename_i hpc <;> simp only [hpc]
  · cases hstep
    exact .started hjob (.inl hpc)
  · split at hstep
    · cases hstep
      exact .crashed
    · cases hstep
      exact .refused _ hjob hpc
    · split at hstep
      · cases hstep
        exact .started hjob (.inr hpc)
      · cases hstep
  · split at hstep
    · cases hstep
      exact .late hjob hpc
    · cases hstep
      exact .checked hjob hpc
  · cases hstep
    exact .processed amb hjob hpc
  · cases hstep
    exact .responded hjob hpc
  · split at hstep
    · cases hstep
      exact .crashed
    · cases hstep
      exact .released hjob hpc
  · cases hstep

/-- **What a step of the server does.** -/
theorem does_of_step {a : Action} (hstep : step env setup s a = some s') :
    Does env s (handlerCalls s a) s' := by
  cases a with
  | thread t amb =>
    simp only [step] at hstep
    split at hstep
    · cases hstep
    · obtain ⟨th, hth, hstep⟩ := Option.bind_eq_some_iff.1 hstep
      exact does_of_threadStep hth hstep
  | job j amb =>
    simp only [step] at hstep
    split at hstep
    · cases hstep
    · obtain ⟨job, hjob, hstep⟩ := Option.bind_eq_some_iff.1 hstep
      have hdoes := does_of_jobStep hjob hstep
      simpa only [handlerCalls, hjob, Option.map_some, Option.getD_some] using hdoes

/-! ## The look at the clock -/

/-- A thread adds a task or goroutine at most, which has not begun. -/
theorem jobs_of_threadStep {t : ℕ} {th : Thread} {amb : Ambient}
    (hstep : threadStep env s t th amb = some s') :
    s'.jobs = s.jobs ∨
      ∃ job, s'.jobs = s.jobs ++ [job] ∧ (job.pc = .queued ∨ job.pc = .acquiring) := by
  unfold threadStep at hstep
  split at hstep
  · split at hstep
    · cases hstep
    · cases hstep
      exact .inl rfl
  · split at hstep
    · cases hstep
      exact .inl rfl
    · split at hstep <;> cases hstep <;> exact .inl rfl
  · split at hstep
    · cases hstep
      exact .inl (by unfold State.respond; split <;> rfl)
    · cases hstep
      exact .inl rfl
  · split at hstep
    · cases hstep
      exact .inl rfl
    · cases hstep
      exact .inr ⟨_, rfl, entryPc_cases⟩

/-- A task or goroutine that moves gets to the select by a look at the
clock. -/
theorem jobs_of_jobStep {j : ℕ} {job : Job} {amb : Ambient}
    (hstep : jobStep env setup s j job amb = some s') :
    s'.jobs = s.jobs ∨ ∃ pc, s'.jobs = s.jobs.set j { job with pc := pc } ∧
      ∀ acquired, pc = .selecting acquired →
        job.pc = .processing acquired ∧ ¬ halfOver job.start job.timeout amb.now := by
  unfold jobStep at hstep
  split at hstep
  · cases hstep
    exact .inr ⟨_, rfl, by simp⟩
  · split at hstep
    · cases hstep
      exact .inl rfl
    · cases hstep
      exact .inr ⟨_, rfl, by simp⟩
    · split at hstep <;> cases hstep
      exact .inr ⟨_, rfl, by simp⟩
  · rename_i acquired hpc
    split at hstep
    · cases hstep
      exact .inr ⟨_, rfl, by simp⟩
    · rename_i hhalf
      cases hstep
      refine .inr ⟨_, rfl, ?_⟩
      rintro acquired' ⟨⟩
      exact ⟨hpc, hhalf⟩
  · cases hstep
    exact .inr ⟨_, rfl, by simp⟩
  · rename_i acquired resp hpc
    cases hstep
    refine .inr ⟨exitPc acquired, ?_, ?_⟩
    · unfold State.respond
      split <;> rfl
    · intro acquired' hexit
      cases acquired <;> cases hexit
  · split at hstep
    · cases hstep
      exact .inl rfl
    · cases hstep
      exact .inr ⟨_, rfl, by simp⟩
  · cases hstep

/-- **Who is before the select was there, or has just looked at the
clock.** -/
theorem checked_of_step {a : Action} {j : ℕ} {job' : Job} {acquired : Bool}
    (hstep : step env setup s a = some s') (hjob' : s'.jobs[j]? = some job')
    (hpc' : job'.pc = .selecting acquired) :
    s.jobs[j]? = some job' ∨ ∃ amb job, a = .job j amb ∧ s.jobs[j]? = some job ∧
      job.req = job'.req ∧ job.pc = .processing acquired ∧
      ¬ halfOver job.start job.timeout amb.now := by
  cases a with
  | thread t amb =>
    simp only [step] at hstep
    split at hstep
    · cases hstep
    · obtain ⟨th, -, hstep⟩ := Option.bind_eq_some_iff.1 hstep
      rcases jobs_of_threadStep hstep with hjobs | ⟨new, hjobs, hnew⟩
      · exact .inl (hjobs ▸ hjob')
      · rw [hjobs, List.getElem?_append] at hjob'
        split at hjob'
        · exact .inl hjob'
        · -- the new one is not that far
          obtain ⟨-, rfl⟩ : j - s.jobs.length = 0 ∧ new = job' := by
            simpa [List.getElem?_singleton] using hjob'
          rw [hpc'] at hnew
          simp at hnew
  | job k amb =>
    simp only [step] at hstep
    split at hstep
    · cases hstep
    · obtain ⟨job, hjob, hstep⟩ := Option.bind_eq_some_iff.1 hstep
      rcases jobs_of_jobStep hstep with hjobs | ⟨pc, hjobs, hchecked⟩
      · exact .inl (hjobs ▸ hjob')
      · rw [hjobs] at hjob'
        by_cases hkj : k = j
        · subst hkj
          obtain ⟨hlt, -⟩ := List.getElem?_eq_some_iff.1 hjob
          rw [List.getElem?_set_self hlt] at hjob'
          obtain rfl := Option.some.inj hjob'
          obtain ⟨hpc, hhalf⟩ := hchecked acquired hpc'
          exact .inr ⟨amb, job, rfl, hjob, rfl, hpc, hhalf⟩
        · rw [List.getElem?_set_ne hkj] at hjob'
          exact .inl hjob'

/-! ## Requests in hand -/

/-- What a task or goroutine counts for until `processRequest` has decided
on its request. -/
def Job.undecided (job : Job) : Multiset Request :=
  match job.pc with
  | .queued | .acquiring | .processing _ | .selecting _ => {job.req}
  | _ => 0

/-- **The requests the handler may still be called with.** -/
def State.unhandled (s : State) : Multiset Request := s.held Job.undecided

section Held

variable {w : Job → Multiset Request} {t j : ℕ} {th th' : Thread} {job job' : Job}

/-- A thread that lets go of what it holds at most. -/
theorem held_moveThread_le (hth : s.threads[t]? = some th) (hle : th'.holds ≤ th.holds) :
    (s.moveThread t th').held w ≤ s.held w := by
  refine le_of_add_le_add_right (a := th.holds) ?_
  rw [held_moveThread hth]
  gcongr

theorem held_moveJob_le (hjob : s.jobs[j]? = some job) (hle : w job' ≤ w job) :
    (s.moveJob j job').held w ≤ s.held w := by
  refine le_of_add_le_add_right (a := w job) ?_
  rw [held_moveJob hjob]
  gcongr

/-- A request is received by a thread that had none. -/
theorem held_received {rest : List Request} (hth : s.threads[t]? = some th)
    (hpc : th.pc = .receiving) (hpending : s.pending = req :: rest) :
    ({ s with pending := rest }.moveThread t
      { th with request := some req, pc := .taking }).held w = s.held w := by
  have hmove := @held_moveThread { s with pending := rest } w t th
    { th with request := some req, pc := .taking } hth
  have hrest : s.held w = State.held w { s with pending := rest } + {req} := by
    simp only [State.held, hpending, ← Multiset.cons_coe, ← Multiset.singleton_add]
    abel
  rw [hrest]
  simpa [Thread.holds, hpc] using hmove

/-- A thread hands its request on. -/
theorem held_handedOn {ctx : Ctx} {start timeout : ℤ} (hth : s.threads[t]? = some th)
    (hpc : th.pc = .dispatching ctx start timeout) (hreq : th.request = some job.req)
    (hw : w job = {job.req}) :
    ({ s with jobs := s.jobs ++ [job] }.moveThread t { th with pc := .receiving }).held w =
      s.held w := by
  have hmove := @held_moveThread s w t th { th with pc := .receiving } hth
  have hspawn : ({ s with jobs := s.jobs ++ [job] }.moveThread t
      { th with pc := .receiving }).held w =
      (s.moveThread t { th with pc := .receiving }).held w + {job.req} := by
    simp only [State.held, State.moveThread, tally_append, tally_cons, tally_nil, hw]
    abel
  rw [hspawn]
  simpa [Thread.holds, hpc, hreq] using hmove

@[simp] theorem held_respond {resp : Response} : (s.respond env req resp).held w = s.held w := by
  unfold State.respond
  split <;> rfl

end Held

theorem undecided_entry {job : Job} {ctx : Ctx} {start timeout : ℤ}
    (hjob : job = ⟨job.req, ctx, start, timeout, entryPc env s.store ctx⟩) :
    job.undecided = {job.req} ∧ job.holds = {job.req} := by
  have hpc : job.pc = entryPc env s.store ctx := by rw [hjob]
  rcases @entryPc_cases env s.store ctx with hentry | hentry <;>
    simp [Job.undecided, Job.holds, hpc, hentry]

/-- A step without a call of the handler. -/
theorem unhandled_le (h : s'.held Job.undecided ≤ s.held Job.undecided) :
    s'.unhandled + ↑([] : List Request) ≤ s.unhandled := by
  rw [Multiset.coe_nil, add_zero]
  exact h

/-- **The handler is called with an unhandled request, and then that
request is handled.** -/
theorem unhandled_does {calls : List Request} (h : Does env s calls s') :
    s'.unhandled + ↑calls ≤ s.unhandled := by
  cases h with
  | crashed => exact unhandled_le le_rfl
  | received hth hpc hpending => exact unhandled_le (held_received hth hpc hpending).le
  | rejected hth hpc hreq hi =>
    exact unhandled_le (held_moveThread_le hth (by simp [Thread.holds, hpc]))
  | @taken t th req nuid ctx store start timeout hth hpc hreq hi =>
    exact unhandled_le (@held_moveThread_le { s with store := store } _ t th _ hth
      (by simp [Thread.holds, hpc]))
  | answered hth hpc hreq hresp =>
    refine unhandled_le ?_
    rw [held_respond]
    exact held_moveThread_le hth (Multiset.zero_le _)
  | handedOn hth hpc hreq hjob =>
    exact unhandled_le (held_handedOn hth hpc hreq (undecided_entry hjob).1).le
  | @started j cur job acquired hjob hpc =>
    refine unhandled_le (@held_moveJob_le { s with cur := cur } _ j job _ hjob ?_)
    rcases hpc with hpc | hpc <;> simp [Job.undecided, hpc]
  | refused e hjob hpc => exact unhandled_le (held_moveJob_le hjob (Multiset.zero_le _))
  | late hjob hpc => exact unhandled_le (held_moveJob_le hjob (Multiset.zero_le _))
  | checked hjob hpc =>
    exact unhandled_le (held_moveJob_le hjob (by simp [Job.undecided, hpc]))
  | @processed j job acquired amb hjob hpc =>
    have hmove := @held_moveJob s Job.undecided j job
      { job with
        pc := .responding acquired
          (processRequest env (values s.store job.ctx) job.req amb) } hjob
    simp only [Job.undecided, hpc, add_zero] at hmove
    unfold State.unhandled
    rw [← hmove]
    gcongr
    split <;> simp
  | @responded j job acquired resp hjob hpc =>
    refine unhandled_le ?_
    rw [held_respond]
    refine held_moveJob_le hjob ?_
    cases acquired <;> exact Multiset.zero_le _
  | @released j cur job hjob hpc =>
    exact unhandled_le (@held_moveJob_le { s with cur := cur } _ j job _ hjob (Multiset.zero_le _))

/-! ## Publications -/

/-- The subject a request is answered on. -/
def Request.reply (req : Request) : GoString := (req.msg.map Msg.reply).getD []

/-- **The subjects of the answers**: of those published, and of those still
owed. -/
def State.replies (s : State) : Multiset GoString :=
  ↑(s.published.map Publication.subject) + s.owed.map Request.reply

theorem owed_eq_held : s.owed = s.held Job.holds := rfl

/-- What was published stays published. -/
theorem published_does {calls : List Request} {pub : Publication} (h : Does env s calls s')
    (hpub : pub ∈ s.published) : pub ∈ s'.published := by
  have hrespond : ∀ {mid : State} {req : Request} {resp : Response}, pub ∈ mid.published →
      pub ∈ (mid.respond env req resp).published := by
    intro mid req resp hmid
    unfold State.respond
    split
    · exact hmid
    · exact List.mem_append_left _ hmid
  cases h with
  | answered => exact hrespond hpub
  | responded => exact hrespond hpub
  | _ => exact hpub

theorem replies_le (howed : s'.owed ≤ s.owed) (hpublished : s'.published = s.published) :
    s'.replies ≤ s.replies := by
  unfold State.replies
  rw [hpublished]
  gcongr

/-- **A response is published on the subject of its request at most**,
once the request is not owed an answer any more. -/
theorem replies_respond {mid : State} {resp : Response} (howed : mid.owed + {req} = s.owed)
    (hpublished : mid.published = s.published) :
    (mid.respond env req resp).replies ≤ s.replies := by
  have hsubjects : (↑((mid.respond env req resp).published.map Publication.subject) :
      Multiset GoString) ≤ ↑(s.published.map Publication.subject) + {req.reply} := by
    rw [← hpublished]
    unfold State.respond processResponse
    split
    · exact Multiset.le_add_right _ _
    · rename_i pubs hpubs
      split at hpubs
      · cases hpubs
      · rename_i msg hmsg
        split at hpubs <;> cases hpubs
        · simp
        · simp [Request.reply, hmsg, ← Multiset.coe_add]
  unfold State.replies
  rw [owed_eq_held, held_respond, ← owed_eq_held, ← howed, Multiset.map_add,
    Multiset.map_singleton, add_comm (mid.owed.map _), ← add_assoc]
  gcongr

/-- **Each publication is taken out of what is owed.** -/
theorem replies_does {calls : List Request} (h : Does env s calls s') : s'.replies ≤ s.replies := by
  cases h with
  | crashed => exact replies_le le_rfl rfl
  | received hth hpc hpending => exact replies_le (held_received hth hpc hpending).le rfl
  | rejected hth hpc hreq hi =>
    exact replies_le (held_moveThread_le hth (by simp [Thread.holds, hpc])) rfl
  | @taken t th req nuid ctx store start timeout hth hpc hreq hi =>
    exact replies_le (@held_moveThread_le { s with store := store } _ t th _ hth
      (by simp [Thread.holds, hpc])) rfl
  | @answered t th req resp hth hpc hreq hresp =>
    refine replies_respond ?_ rfl
    have hmove := @held_moveThread s Job.holds t th { th with pc := .receiving } hth
    simpa [Thread.holds, hpc, hreq, owed_eq_held] using hmove
  | handedOn hth hpc hreq hjob =>
    exact replies_le (held_handedOn hth hpc hreq (undecided_entry hjob).2).le rfl
  | @started j cur job acquired hjob hpc =>
    refine replies_le (@held_moveJob_le { s with cur := cur } _ j job _ hjob ?_) rfl
    rcases hpc with hpc | hpc <;> simp [Job.holds, hpc]
  | refused e hjob hpc => exact replies_le (held_moveJob_le hjob (by simp [Job.holds, hpc])) rfl
  | late hjob hpc => exact replies_le (held_moveJob_le hjob (by simp [Job.holds, hpc])) rfl
  | checked hjob hpc => exact replies_le (held_moveJob_le hjob (by simp [Job.holds, hpc])) rfl
  | processed amb hjob hpc =>
    exact replies_le (held_moveJob_le hjob (by simp [Job.holds, hpc])) rfl
  | @responded j job acquired resp hjob hpc =>
    refine replies_respond ?_ rfl
    have hmove := @held_moveJob s Job.holds j job { job with pc := exitPc acquired } hjob
    have hexit : Job.holds { job with pc := exitPc acquired } = 0 := by
      cases acquired <;> simp [Job.holds, exitPc]
    rw [hexit, add_zero] at hmove
    simpa [Job.holds, hpc, owed_eq_held] using hmove
  | @released j cur job hjob hpc =>
    refine replies_le ?_ rfl
    exact @held_moveJob_le { s with cur := cur } _ j job _ hjob (by simp [Job.holds, hpc])

end Server

end Nrpc
