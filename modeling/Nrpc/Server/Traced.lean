import Nrpc.Server.Steps
/-!
# Where the answers of a server come from

Whatever requests arrive, a server that has crashed or not has published
answers to requests that arrived, each computed from its own request
(`Traced.published`); and a task or goroutine has the context and the times
of its own request. Nothing is asked of the requests: one that crashes the
server leaves what was published before.
-/

namespace Nrpc

namespace Server

open Context

variable {env : Env} {setup : Setup} {P Q : Request → Prop} {s s' : State} {h : Store}
variable {th : Thread} {job : Job} {req : Request}

/-- A thread's request is one of the given ones, and what it has computed
belongs to that request. -/
structure Thread.Traced (env : Env) (P : Request → Prop) (h : Store) (th : Thread) : Prop where
  request : ∀ req, th.request = some req → P req
  response : th.pc = .rejecting → ∀ req resp, th.request = some req → th.response = some resp →
    Computed env req resp
  ctx : ∀ ctx start timeout, th.pc = .dispatching ctx start timeout →
    ∀ req, th.request = some req → Holds env h req ctx start timeout

/-- So for a task or goroutine. -/
structure Job.Traced (env : Env) (P : Request → Prop) (h : Store) (job : Job) : Prop where
  req : P job.req
  ctx : Holds env h job.req job.ctx job.start job.timeout
  resp : ∀ acquired resp, job.pc = .responding acquired resp → Computed env job.req resp

/-- **What a server has comes from the given requests.** -/
structure Traced (env : Env) (P : Request → Prop) (s : State) : Prop where
  pending : ∀ req ∈ s.pending, P req
  threads : ∀ th ∈ s.threads, th.Traced env P s.store
  jobs : ∀ job ∈ s.jobs, job.Traced env P s.store
  published : ∀ pub ∈ s.published, ∃ req, P req ∧ Answers env req pub

/-! ## What the invariant rests on -/

theorem Thread.Traced.mono (hPQ : ∀ req, P req → Q req) (hth : th.Traced env P h) :
    th.Traced env Q h :=
  ⟨fun req hreq => hPQ req (hth.request req hreq), hth.response, hth.ctx⟩

theorem Job.Traced.mono (hPQ : ∀ req, P req → Q req) (hjob : job.Traced env P h) :
    job.Traced env Q h :=
  ⟨hPQ _ hjob.req, hjob.ctx, hjob.resp⟩

theorem Traced.mono (hPQ : ∀ req, P req → Q req) (hs : Traced env P s) : Traced env Q s where
  pending req hreq := hPQ req (hs.pending req hreq)
  threads th hth := (hs.threads th hth).mono hPQ
  jobs job hjob := (hs.jobs job hjob).mono hPQ
  published pub hpub := by
    obtain ⟨req, hreq, hanswers⟩ := hs.published pub hpub
    exact ⟨req, hPQ req hreq, hanswers⟩

theorem Thread.Traced.alloc (hth : th.Traced env P h) (m : PropagateMap) :
    th.Traced env P (h.alloc m) :=
  ⟨hth.request, hth.response,
    fun ctx start timeout hpc req hreq => (hth.ctx ctx start timeout hpc req hreq).alloc m⟩

theorem Job.Traced.alloc (hjob : job.Traced env P h) (m : PropagateMap) :
    job.Traced env P (h.alloc m) :=
  ⟨hjob.req, hjob.ctx.alloc m, hjob.resp⟩

/-- A server that was just started. -/
theorem traced_init : Traced env P (.init setup h []) where
  pending := by simp [State.init]
  threads := by
    intro th hth
    rw [List.eq_of_mem_replicate hth]
    exact ⟨by simp, by simp, by simp⟩
  jobs := by simp [State.init]
  published := by simp [State.init]

/-- One of the requests arrives. -/
theorem Traced.arrive (hs : Traced env P s) (hreq : P req) :
    Traced env P { s with pending := s.pending ++ [req] } where
  pending := by
    intro r hr
    rcases List.mem_append.1 hr with hr | hr
    · exact hs.pending r hr
    · rw [List.mem_singleton.1 hr]
      exact hreq
  threads := hs.threads
  jobs := hs.jobs
  published := hs.published

theorem Traced.moveThread {t : ℕ} (hs : Traced env P s) (hth : th.Traced env P s.store) :
    Traced env P (s.moveThread t th) :=
  ⟨hs.pending, forall_mem_set hs.threads hth, hs.jobs, hs.published⟩

theorem Traced.moveJob {j : ℕ} (hs : Traced env P s) (hjob : job.Traced env P s.store) :
    Traced env P (s.moveJob j job) :=
  ⟨hs.pending, hs.threads, forall_mem_set hs.jobs hjob, hs.published⟩

theorem Traced.alloc (hs : Traced env P s) (m : PropagateMap) :
    Traced env P { s with store := s.store.alloc m } :=
  ⟨hs.pending, fun th hth => (hs.threads th hth).alloc m,
    fun job hjob => (hs.jobs job hjob).alloc m, hs.published⟩

/-- **A computed response is an answer.** -/
theorem Traced.respond {resp : Response} (hs : Traced env P s) (hreq : P req)
    (hresp : Computed env req resp) : Traced env P (s.respond env req resp) := by
  unfold State.respond processResponse
  split
  · exact ⟨hs.pending, hs.threads, hs.jobs, hs.published⟩
  · rename_i pubs hpubs
    refine ⟨hs.pending, hs.threads, hs.jobs, ?_⟩
    split at hpubs
    · cases hpubs
    · rename_i msg hmsg
      split at hpubs <;> cases hpubs
      · simpa using hs.published
      · intro pub hpub
        rcases List.mem_append.1 hpub with hpub | hpub
        · exact hs.published pub hpub
        · rw [List.mem_singleton.1 hpub]
          exact ⟨req, hreq, by rw [hmsg]; rfl, resp, hresp, rfl⟩

/-! ## Steps -/

/-- **A step keeps everything traced.** -/
theorem Traced.does {calls : List Request} (hs : Traced env P s) (h : Does env s calls s') :
    Traced env P s' := by
  have hthread : ∀ {t : ℕ} {th : Thread}, s.threads[t]? = some th → th.Traced env P s.store :=
    fun hth => hs.threads _ (List.mem_of_getElem? hth)
  have hjobs : ∀ {j : ℕ} {job : Job}, s.jobs[j]? = some job → job.Traced env P s.store :=
    fun hjob => hs.jobs _ (List.mem_of_getElem? hjob)
  cases h with
  | crashed => exact ⟨hs.pending, hs.threads, hs.jobs, hs.published⟩
  | @received t th req rest hth hpc hpending =>
    have hpend := hs.pending
    rw [hpending, List.forall_mem_cons] at hpend
    have hs₁ : Traced env P { s with pending := rest } :=
      ⟨hpend.2, hs.threads, hs.jobs, hs.published⟩
    refine hs₁.moveThread ⟨?_, by simp, by simp⟩
    rintro r ⟨⟩
    exact hpend.1
  | @rejected t th req nuid resp hth hpc hreq hi =>
    refine hs.moveThread ⟨(hthread hth).request, ?_, by simp⟩
    rintro - r resp' hr ⟨⟩
    obtain rfl : req = r := by simpa [hreq] using hr
    exact .rejected hi
  | @taken t th req nuid ctx store start timeout hth hpc hreq hi =>
    obtain ⟨-, m, rfl⟩ := intake_eq_ready hi
    refine (hs.alloc m).moveThread ⟨(hthread hth).request, by simp, ?_⟩
    rintro _ _ _ ⟨⟩ r hr
    obtain rfl : req = r := by simpa [hreq] using hr
    exact holds_of_intake hi
  | @answered t th req resp hth hpc hreq hresp =>
    have hok := hthread hth
    have hfree : Thread.Traced env P s.store { th with pc := .receiving } :=
      ⟨hok.request, by simp, by simp⟩
    exact (hs.moveThread hfree).respond (hok.request req hreq)
      (hok.response hpc req resp hreq hresp)
  | @handedOn t th job ctx start timeout hth hpc hreq hjob =>
    have hok := hthread hth
    have hctx := hok.ctx ctx start timeout hpc job.req hreq
    have hs₁ : Traced env P { s with jobs := s.jobs ++ [job] } := by
      refine ⟨hs.pending, hs.threads, ?_, hs.published⟩
      intro job' hjob'
      rcases List.mem_append.1 hjob' with hjob' | hjob'
      · exact hs.jobs job' hjob'
      · rw [List.mem_singleton.1 hjob']
        refine ⟨hok.request _ hreq, by rw [hjob]; exact hctx, ?_⟩
        intro acquired resp hresp
        rw [hjob] at hresp
        rcases @entryPc_cases env s.store ctx with hentry | hentry <;> rw [hentry] at hresp <;>
          cases hresp
    exact hs₁.moveThread ⟨hok.request, by simp, by simp⟩
  | @started j cur job acquired hjob hpc =>
    have hs₁ : Traced env P { s with cur := cur } := ⟨hs.pending, hs.threads, hs.jobs, hs.published⟩
    exact hs₁.moveJob ⟨(hjobs hjob).req, (hjobs hjob).ctx, by simp⟩
  | @refused j job e hjob hpc =>
    refine hs.moveJob ⟨(hjobs hjob).req, (hjobs hjob).ctx, ?_⟩
    rintro _ _ ⟨⟩
    exact .refused e (hjobs hjob).ctx.prepared
  | @late j job acquired hjob hpc =>
    refine hs.moveJob ⟨(hjobs hjob).req, (hjobs hjob).ctx, ?_⟩
    rintro _ _ ⟨⟩
    exact .late (hjobs hjob).ctx.prepared
  | @checked j job acquired hjob hpc =>
    exact hs.moveJob ⟨(hjobs hjob).req, (hjobs hjob).ctx, by simp⟩
  | @processed j job acquired amb hjob hpc =>
    refine hs.moveJob ⟨(hjobs hjob).req, (hjobs hjob).ctx, ?_⟩
    rintro _ _ ⟨⟩
    exact processRequest_computed (hjobs hjob).ctx.prepared
  | @responded j job acquired resp hjob hpc =>
    have hleft : Job.Traced env P s.store { job with pc := exitPc acquired } := by
      refine ⟨(hjobs hjob).req, (hjobs hjob).ctx, ?_⟩
      intro acquired' resp' hexit
      cases acquired <;> simp [exitPc] at hexit
    exact (hs.moveJob hleft).respond (hjobs hjob).req ((hjobs hjob).resp acquired resp hpc)
  | @released j cur job hjob hpc =>
    have hs₁ : Traced env P { s with cur := cur } := ⟨hs.pending, hs.threads, hs.jobs, hs.published⟩
    exact hs₁.moveJob ⟨(hjobs hjob).req, (hjobs hjob).ctx, by simp⟩

end Server

end Nrpc
