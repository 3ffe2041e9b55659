import Nrpc.Server.Traced
/-!
# An answer without an error was given by the handler

A server answers with an error when it rejects a request, when the semaphore
refuses it and when its time is up. So a response without an error, on its
way or published, is one the handler returned, and the handler was called
with the request it answers (`Heard.does`). `seen` are the calls of the
handler so far.
-/

namespace Nrpc

namespace Server

open Context

variable {env : Env} {setup : Setup} {P Q : Request → Prop} {s s' : State} {h : Store}
variable {th : Thread} {job : Job} {req : Request} {resp : Response} {seen seen' : List Request}

/-- **The handler was called with a request and has returned a response**,
with values that are the request's own. -/
def Handled (env : Env) (seen : List Request) (req : Request) (resp : Response) : Prop :=
  req ∈ seen ∧ ∃ behaviour m start timeout, Prepared env req m start timeout ∧
    resp = env.call behaviour m req

/-- A response has an error, or the handler has returned it. -/
def Owned (env : Env) (seen : List Request) (req : Request) (resp : Response) : Prop :=
  resp.error = none → Handled env seen req resp

/-- **What is answered without an error was handled.** -/
structure Heard (env : Env) (P : Request → Prop) (seen : List Request) (s : State) : Prop where
  threads : ∀ th ∈ s.threads, ∀ resp, th.pc = .rejecting → th.response = some resp →
    resp.error ≠ none
  jobs : ∀ job ∈ s.jobs, ∀ acquired resp, job.pc = .responding acquired resp →
    Owned env seen job.req resp
  published : ∀ pub ∈ s.published, ∃ req resp, P req ∧ req.msg.map Msg.reply = some pub.subject ∧
    pub.payload = (marshalResponse env resp).1 ∧ Owned env seen req resp

/-! ## What the invariant rests on -/

theorem owned_of_error (hresp : resp.error ≠ none) : Owned env seen req resp :=
  fun h => absurd h hresp

theorem Owned.mono (hseen : ∀ r ∈ seen, r ∈ seen') (h : Owned env seen req resp) :
    Owned env seen' req resp := by
  intro hnone
  obtain ⟨hmem, hrest⟩ := h hnone
  exact ⟨hseen req hmem, hrest⟩

theorem Heard.mono (hPQ : ∀ req, P req → Q req) (hseen : ∀ r ∈ seen, r ∈ seen')
    (hs : Heard env P seen s) : Heard env Q seen' s where
  threads := hs.threads
  jobs job hjob acquired resp hpc := (hs.jobs job hjob acquired resp hpc).mono hseen
  published pub hpub := by
    obtain ⟨req, resp, hreq, hreply, hpayload, howned⟩ := hs.published pub hpub
    exact ⟨req, resp, hPQ req hreq, hreply, hpayload, howned.mono hseen⟩

theorem heard_init : Heard env P seen (.init setup h []) where
  threads := by
    intro th hth resp hpc
    rw [List.eq_of_mem_replicate hth] at hpc
    cases hpc
  jobs := by simp [State.init]
  published := by simp [State.init]

/-- The same goroutines and publications, whatever else has changed. -/
theorem Heard.of_same (hs : Heard env P seen s) (hthreads : s'.threads = s.threads)
    (hjobs : s'.jobs = s.jobs) (hpublished : s'.published = s.published) :
    Heard env P seen s' where
  threads := hthreads ▸ hs.threads
  jobs := hjobs ▸ hs.jobs
  published := hpublished ▸ hs.published

theorem Heard.moveThread {t : ℕ} (hs : Heard env P seen s)
    (hth : ∀ resp, th.pc = .rejecting → th.response = some resp → resp.error ≠ none) :
    Heard env P seen (s.moveThread t th) :=
  ⟨forall_mem_set hs.threads hth, hs.jobs, hs.published⟩

theorem Heard.moveJob {j : ℕ} (hs : Heard env P seen s)
    (hjob : ∀ acquired resp, job.pc = .responding acquired resp → Owned env seen job.req resp) :
    Heard env P seen (s.moveJob j job) :=
  ⟨hs.threads, forall_mem_set hs.jobs hjob, hs.published⟩

/-- **A response is published as it is owned.** -/
theorem Heard.respond (hs : Heard env P seen s) (hreq : P req)
    (howned : Owned env seen req resp) : Heard env P seen (s.respond env req resp) := by
  unfold State.respond processResponse
  split
  · exact hs.of_same rfl rfl rfl
  · rename_i pubs hpubs
    refine ⟨hs.threads, hs.jobs, ?_⟩
    split at hpubs
    · cases hpubs
    · rename_i msg hmsg
      split at hpubs <;> cases hpubs
      · simpa using hs.published
      · intro pub hpub
        rcases List.mem_append.1 hpub with hpub | hpub
        · exact hs.published pub hpub
        · rw [List.mem_singleton.1 hpub]
          exact ⟨req, resp, hreq, by rw [hmsg]; rfl, rfl, howned⟩

/-- A rejected request is answered with an error. -/
theorem error_of_reject {lib : Lib} {nuid : GoString} (hi : intake lib h req nuid = .reject resp) :
    resp.error ≠ none := by
  unfold intake at hi
  split at hi
  · cases hi
  · cases hi
    simp [errorResponse]
  · split at hi <;> cases hi
    simp [errorResponse]

theorem owned_timeout : Owned env seen req timeoutResponse :=
  owned_of_error (by simp [timeoutResponse, errorResponse])

/-- **What `processRequest` returns is the handler's, if the handler was
called**, and a timeout if it was not. -/
theorem owned_processRequest {amb : Ambient} {m : PropagateMap}
    (hm : Prepared env job.req m job.start job.timeout) :
    Owned env (seen ++ if amb.fired then [] else [job.req]) job.req
      (processRequest env m job.req amb) := by
  unfold processRequest
  split
  · exact owned_timeout
  · exact fun _ => ⟨by simp, amb.behaviour, m, job.start, job.timeout, hm, rfl⟩

/-! ## Steps -/

/-- **A step keeps it so**, with the calls of the handler in it. -/
theorem Heard.does {calls : List Request} (ht : Traced env P s) (hs : Heard env P seen s)
    (hdoes : Does env s calls s') : Heard env P (seen ++ calls) s' := by
  have hlater : Heard env P (seen ++ calls) s :=
    hs.mono (fun _ hreq => hreq) fun r hr => List.mem_append_left _ hr
  have hthread : ∀ {t : ℕ} {th : Thread}, s.threads[t]? = some th → th.Traced env P s.store :=
    fun hth => ht.threads _ (List.mem_of_getElem? hth)
  have hjobs : ∀ {j : ℕ} {job : Job}, s.jobs[j]? = some job → job.Traced env P s.store :=
    fun hjob => ht.jobs _ (List.mem_of_getElem? hjob)
  cases hdoes with
  | crashed => exact hlater.of_same rfl rfl rfl
  | @received t th req rest hth hpc hpending =>
    have hs₁ : Heard env P (seen ++ []) { s with pending := rest } := hlater.of_same rfl rfl rfl
    exact hs₁.moveThread (by simp)
  | @rejected t th req nuid resp hth hpc hreq hi =>
    refine hlater.moveThread ?_
    rintro resp' - ⟨⟩
    exact error_of_reject hi
  | @taken t th req nuid ctx store start timeout hth hpc hreq hi =>
    have hs₁ : Heard env P (seen ++ []) { s with store := store } := hlater.of_same rfl rfl rfl
    exact hs₁.moveThread (by simp)
  | @answered t th req resp hth hpc hreq hresp =>
    have herror := hs.threads th (List.mem_of_getElem? hth) resp hpc hresp
    have hs₁ : Heard env P (seen ++ []) (s.moveThread t { th with pc := .receiving }) :=
      hlater.moveThread (by simp)
    exact hs₁.respond ((hthread hth).request req hreq) (owned_of_error herror)
  | @handedOn t th job ctx start timeout hth hpc hreq hjob =>
    have hs₁ : Heard env P (seen ++ []) { s with jobs := s.jobs ++ [job] } := by
      refine ⟨hlater.threads, ?_, hlater.published⟩
      intro job' hjob' acquired resp hresp
      rcases List.mem_append.1 hjob' with hjob' | hjob'
      · exact hlater.jobs job' hjob' acquired resp hresp
      · -- a request that is handed on has no response yet
        rw [List.mem_singleton.1 hjob', hjob] at hresp
        rcases @entryPc_cases env s.store ctx with hentry | hentry <;> rw [hentry] at hresp <;>
          cases hresp
    exact hs₁.moveThread (by simp)
  | @started j cur job acquired hjob hpc =>
    have hs₁ : Heard env P (seen ++ []) { s with cur := cur } := hlater.of_same rfl rfl rfl
    exact hs₁.moveJob (by simp)
  | @refused j job e hjob hpc =>
    refine hlater.moveJob ?_
    rintro _ _ ⟨⟩
    exact owned_of_error (by simp [errorResponse])
  | @late j job acquired hjob hpc =>
    refine hlater.moveJob ?_
    rintro _ _ ⟨⟩
    exact owned_timeout
  | @checked j job acquired hjob hpc => exact hlater.moveJob (by simp)
  | @processed j job acquired amb hjob hpc =>
    refine hlater.moveJob ?_
    rintro _ _ ⟨⟩
    exact owned_processRequest (hjobs hjob).ctx.prepared
  | @responded j job acquired resp hjob hpc =>
    have howned := hlater.jobs job (List.mem_of_getElem? hjob) acquired resp hpc
    have hs₁ : Heard env P (seen ++ []) (s.moveJob j { job with pc := exitPc acquired }) := by
      refine hlater.moveJob ?_
      intro acquired' resp' hexit
      cases acquired <;> simp [exitPc] at hexit
    exact hs₁.respond (hjobs hjob).req howned
  | @released j cur job hjob hpc =>
    have hs₁ : Heard env P (seen ++ []) { s with cur := cur } := hlater.of_same rfl rfl rfl
    exact hs₁.moveJob (by simp)

end Server

end Nrpc
