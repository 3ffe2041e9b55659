import Nrpc.Client.Agreement
import Nrpc.Cluster.Calls
/-!
# No handler for a caller that had given up at the check

A call stamps its start time and its timeout into the metadata and waits
for as long as the timeout says. The server that takes the request in
reads both, and `processRequest` does not go on to the handler once half of
the time is over. So at the look at the clock that lets a request through
its caller is still waiting, and has at least half of its time left
(`handler_checked_in_time`), however long the message, the threads and the
semaphore took, and also where the start time is the one of an earlier call
that the context was handed on from.

The handler is called behind the look, and what passes in between is not
bounded: a goroutine that is kept waiting there calls it for a caller that
has given up since.
-/

namespace Nrpc

namespace Cluster

open Context Server Client

variable {env : Env} {s s' : State} {now : ℤ} {h : Store} {as : List Action}

/-! ## What a server reads of a call -/

/-- **What is asked of a call**: a tracer and a JSON library that do not
fail, times the server can parse in the context and in the configuration,
and no start time in the future. -/
structure Timely (lib : Lib) (attempt : Attempt) : Prop where
  timeout : ∃ d, lib.parseDuration attempt.env.reqTimeout = .ok d
  clock : ∃ t : Int64, attempt.env.now = t.toInt
  nuid : attempt.env.nuid ≠ []
  inject : ∃ carrier, attempt.env.inject = .ok carrier
  presentable : Presentable lib (values attempt.heap attempt.ctx)
  past : ∀ str t, (values attempt.heap attempt.ctx).get? startTimeKey = some (.string str) →
    parseInt64 str = some t → t ≤ attempt.env.now
  json : RoundTrips lib.json (stamp (values attempt.heap attempt.ctx) attempt.env)

/-- The start time behind the stamps is not in the future. -/
theorem Timely.start_le {lib : Lib} {attempt : Attempt} (hcall : Timely lib attempt) :
    ∃ str t, index (stamp (values attempt.heap attempt.ctx) attempt.env) startTimeKey =
      .string str ∧ parseInt64 str = some t ∧ t ≤ attempt.env.now := by
  obtain ⟨clock, hclock⟩ := hcall.clock
  obtain ⟨str, t, hstr, ht, hown⟩ := stamped_startTime hcall.presentable hclock
  refine ⟨str, t, hstr, ht, ?_⟩
  rcases hget : (values attempt.heap attempt.ctx).get? startTimeKey with _ | v
  · exact (hown hget).le
  · -- the context has a start time, and it is the one that was sent
    obtain ⟨str', t', rfl, -⟩ := hcall.presentable.startTime v hget
    have hsame : str' = str := by
      have hindex : index (values attempt.heap attempt.ctx) startTimeKey = .string str' := by
        simp [index, hget]
      rw [index_stamp_startTimeKey, hindex] at hstr
      simpa [orString] using hstr
    subst hsame
    exact hcall.past _ t hget ht

/-- What a server has when it has taken the request of a letter in: the
timeout the caller waits for, and a start time that has passed. -/
def ReadsTimes (lib : Lib) (letter : Letter) : Prop :=
  ∀ hs nuid ctx h' start timeout,
    intake lib hs letter.arrived nuid = .ready ctx h' start timeout →
      timeout = letter.timeout ∧ start ≤ letter.sentAt

/-- **The server reads the times of the caller.** -/
theorem Timely.readsTimes {n : ℕ} {attempt : Attempt} {req : Request} {timeout : ℤ}
    (hcall : Timely env.lib attempt) (hkind : attempt.kind = .request)
    (hnow : attempt.env.now ≤ now) (hsend : attempt.send env.lib = .ok (req, timeout)) :
    ReadsTimes env.lib (attempt.letter env n req now timeout) := by
  intro hs nuid ctx h' start timeout' hi
  rw [Attempt.send, hkind] at hsend
  obtain ⟨sent, hsent, hrest⟩ := Outcome.bind_eq_ok_iff.1 hsend
  cases hrest
  -- what was sent is the stamped context, and what is waited for stands there too
  obtain ⟨carrier, hcarrier⟩ := hcall.inject
  obtain ⟨hrunning, hmap⟩ := running_of_sendRequest hsent
  obtain ⟨r, h'', -, heq⟩ :=
    sendRequest_eq env.lib attempt.heap attempt.data hrunning hcarrier hmap
  obtain ⟨own, hown⟩ := hcall.timeout
  obtain ⟨d, td, hd, hdparse, -⟩ := stamped_timeout hcall.presentable hown
  obtain ⟨str, t, hstr, ht, hpast⟩ := hcall.start_le
  obtain ⟨id, hidne, hid⟩ := index_stamp_requestIDKey hcall.nuid hcall.presentable.requestID
  have hwait : waitTime env.lib (index (stamp (values attempt.heap attempt.ctx) attempt.env)
      requestTimeout) = .ok td := by
    simp only [hd, waitTime, hdparse]
  rw [heq, hwait] at hsent
  obtain ⟨doc, hdoc, hrest⟩ := Outcome.bind_eq_ok_iff.1 hsent
  obtain rfl := Outcome.ok.inj hrest
  -- and the server finds the same strings in it
  obtain ⟨hne, entries, hparse, hkeep⟩ := hcall.json doc (Outcome.ofExcept_eq_ok_iff.1 hdoc)
  obtain ⟨ctx', h₃, hctx', htimes, -⟩ := server_reads env.lib hs
    (attempt.letter env n (requestOf attempt.env attempt.data doc) now td).arrived nuid hne hparse
    (hkeep startTimeKey (by simp) str hstr) ht (hkeep requestTimeout (by simp) d hd) hdparse
    (hkeep requestIDKey (by simp) id hid) hidne
  simp only [intake, hctx', htimes, Intake.ready.injEq] at hi
  obtain ⟨-, -, rfl, rfl⟩ := hi
  exact ⟨rfl, hpast.trans hnow⟩

/-! ## Runs -/

/-- The servers read the times of every call that waits, or has waited. -/
def TimesRead (env : Env) (s : State) : Prop :=
  ∀ call ∈ s.calls, call.fate ≠ .published → ReadsTimes env.lib call.letter

theorem timesRead_moves {a : Action} (hs : TimesRead env s)
    (ha : ∀ attempt, a = .call attempt → Timely env.lib attempt) (hmoves : Moves env s a s') :
    TimesRead env s' := by
  have hsettle : ∀ {c : ℕ} {call : Call} {fate : Fate}, s.calls[c]? = some call →
      call.fate = .waiting → TimesRead env (s.settle c call fate) := by
    intro c call fate hcall hwaiting
    refine forall_mem_set hs ?_
    intro _
    exact hs call (List.mem_of_getElem? hcall) (by simp [hwaiting])
  cases hmoves with
  | @posted attempt req timeout data hnow hsend hdata =>
    intro call hcall hfate
    rcases List.mem_append.1 hcall with hcall | hcall
    · exact hs call hcall hfate
    · obtain rfl := List.mem_singleton.1 hcall
      refine (ha attempt rfl).readsTimes ?_ hnow hsend
      cases hkind : attempt.kind with
      | request => rfl
      | notify => exact absurd (by simp [hkind, Kind.fate]) hfate
  | delivered =>
    unfold State.arrive
    split <;> exact hs
  | replied hcall hserver hpub hwaiting => exact hsettle hcall hwaiting
  | expired hcall hwaiting => exact hsettle hcall hwaiting
  | unheard hcall hwaiting => exact hsettle hcall hwaiting
  | closed hcall hwaiting => exact hsettle hcall hwaiting
  | _ => exact hs

theorem timesRead_run (has : ∀ attempt, Action.call attempt ∈ as → Timely env.lib attempt)
    (hrun : (machine env).run (.init env now h) as = some s) : TimesRead env s := by
  have hmeets := ((machine env).meets_true (.init env now h) as).and_forall
    (P := fun a => ∀ attempt, a = .call attempt → Timely env.lib attempt)
    (by rintro a ha attempt rfl; exact has attempt ha)
  refine Machine.run_invariant (I := TimesRead env) ?_ ?_ hmeets hrun
  · intro s a s' hs ha hstep
    exact timesRead_moves hs ha.1 (moves_of_step hstep)
  · intro call hcall
    simp [State.init] at hcall

/-! ## Calls of the handler -/

/-- **A task or goroutine of a server looks at the clock** and goes on
towards the handler with a request. -/
def LetsThrough (s : State) (i j : ℕ) (now : ℤ) (req : Request) : Prop :=
  ∃ server job acquired, s.servers[i]? = some server ∧ server.jobs[j]? = some job ∧
    job.req = req ∧ job.pc = .processing acquired ∧ ¬ halfOver job.start job.timeout now

/-- It has done so, and has not called the handler yet. -/
def LetThrough (i j : ℕ) (req : Request) (s : State) : Prop :=
  ∃ server job acquired, s.servers[i]? = some server ∧ server.jobs[j]? = some job ∧
    job.req = req ∧ job.pc = .selecting acquired

/-- The request the handler is called with was let through. -/
theorem letThrough_of_mem {i : ℕ} {server : Server.State} {a : Server.Action} {req : Request}
    (hserver : s.servers[i]? = some server) (hreq : req ∈ Server.handlerCalls server a) :
    ∃ j, LetThrough i j req s := by
  cases a with
  | thread t amb => simp [Server.handlerCalls] at hreq
  | job j amb =>
    rcases hjob : server.jobs[j]? with _ | job
    · simp [Server.handlerCalls, hjob] at hreq
    · simp only [Server.handlerCalls, hjob, Option.map_some, Option.getD_some,
        Job.handlerCalls] at hreq
      split at hreq
      · rename_i acquired hpc
        split at hreq
        · simp at hreq
        · obtain rfl := List.mem_singleton.1 hreq
          exact ⟨j, server, job, acquired, hserver, hjob, rfl, hpc⟩
      · simp at hreq

theorem not_letThrough_init {i j : ℕ} {req : Request} :
    ¬ LetThrough i j req (.init env now h) := by
  rintro ⟨server, job, acquired, hserver, hjob, -⟩
  simp only [State.init, List.getElem?_map, Option.map_eq_some_iff] at hserver
  obtain ⟨party, -, rfl⟩ := hserver
  simp [Server.State.init] at hjob

/-- A step of the cluster leaves the tasks and goroutines of a server
alone, or is one of that server's. -/
theorem jobs_moves {a : Action} {i : ℕ} {server' : Server.State} (hmoves : Moves env s a s')
    (hserver' : s'.servers[i]? = some server') :
    ∃ server, s.servers[i]? = some server ∧ (server'.jobs = server.jobs ∨
      ∃ b party, a = .server i b ∧ (ambient b).now = s.now ∧
        Server.step (env.serverEnv party) party.setup server b = some server') := by
  -- one server is put in the place of another
  have hset : ∀ {k : ℕ} {old new : Server.State}, s.servers[k]? = some old →
      (s.servers.set k new)[i]? = some server' →
      (k = i ∧ s.servers[i]? = some old ∧ server' = new) ∨ s.servers[i]? = some server' := by
    intro k old new hold hnew
    by_cases hki : k = i
    · subst hki
      obtain ⟨hlt, -⟩ := List.getElem?_eq_some_iff.1 hold
      rw [List.getElem?_set_self hlt] at hnew
      exact .inl ⟨rfl, hold, (Option.some.inj hnew).symm⟩
    · rw [List.getElem?_set_ne hki] at hnew
      exact .inr hnew
  cases hmoves with
  | @delivered k i' msg server hmsg hserver =>
    unfold State.arrive at hserver'
    split at hserver'
    · rcases hset hserver hserver' with ⟨-, hold, rfl⟩ | hold
      · exact ⟨server, hold, .inl rfl⟩
      · exact ⟨server', hold, .inl rfl⟩
    · exact ⟨server', hserver', .inl rfl⟩
    · rcases hset hserver hserver' with ⟨-, hold, rfl⟩ | hold
      · exact ⟨server, hold, .inl rfl⟩
      · exact ⟨server', hold, .inl rfl⟩
  | @served i' b party server new hparty hserver hnow hstep =>
    rcases hset hserver hserver' with ⟨rfl, hold, rfl⟩ | hold
    · exact ⟨server, hold, .inr ⟨b, party, rfl, hnow, hstep⟩⟩
    · exact ⟨server', hold, .inl rfl⟩
  | _ => exact ⟨server', hserver', .inl rfl⟩

/-- **What is let through is let through by a look at the clock.** -/
theorem letsThrough_of_moves {a : Action} {i j : ℕ} {req : Request} (hmoves : Moves env s a s')
    (hnot : ¬ LetThrough i j req s) (hlet : LetThrough i j req s') :
    ∃ amb, a = .server i (.job j amb) ∧ LetsThrough s i j s.now req := by
  obtain ⟨server', job', acquired, hserver', hjob', hreq, hpc'⟩ := hlet
  obtain ⟨server, hserver, hjobs | ⟨b, party, rfl, hnow, hstep⟩⟩ := jobs_moves hmoves hserver'
  · rw [hjobs] at hjob'
    exact absurd ⟨server, job', acquired, hserver, hjob', hreq, hpc'⟩ hnot
  · rcases checked_of_step hstep hjob' hpc' with hjob | ⟨amb, job, rfl, hjob, hsame, hpc, hhalf⟩
    · exact absurd ⟨server, job', acquired, hserver, hjob, hreq, hpc'⟩ hnot
    · refine ⟨amb, rfl, server, job, acquired, hserver, hjob, hsame.trans hreq, hpc, ?_⟩
      rwa [← hnow]

/-- A call whose request a server has still to answer has not returned. -/
theorem not_returned_of_owed {c : ℕ} {call : Call} {server : Server.State} {data : List UInt8}
    (henv : Proper env) (hrun : (machine env).run (.init env now h) as = some s)
    (hcall : s.calls[c]? = some call) (hserver : server ∈ s.servers)
    (howed : call.letter.arrived ∈ server.owed) : call.fate ≠ .returned data := by
  intro hfate
  have hwaited : call.fate ≠ .published := by simp [hfate]
  have hjustified := (run_routed henv hrun).2 c call hcall
  obtain ⟨i, server', hserver', hpub⟩ := hjustified.returned data hfate
  have hone := (Multiset.count_le_of_le call.letter.reply answers_le_balance).trans
    (replies_count_le_one henv hrun hcall hwaited)
  have hpublished : 1 ≤ (↑(s.publications.map Publication.subject) : Multiset GoString).count
      call.letter.reply := by
    refine Multiset.one_le_count_iff_mem.2 (List.mem_map.2 ⟨⟨_, data⟩, ?_, rfl⟩)
    exact List.mem_flatMap.2 ⟨server', List.mem_of_getElem? hserver', hpub⟩
  have hstill : 1 ≤ (tally (fun server : Server.State => server.owed.map Request.reply)
      s.servers).count call.letter.reply := by
    refine Multiset.one_le_count_iff_mem.2 (mem_tally hserver ?_)
    exact Multiset.mem_map.2 ⟨_, howed, reply_arrived hjustified.msg⟩
  rw [Multiset.count_add] at hone
  omega

/-- **Who is let through has a caller that waits**, or one whose connection
was closed, and half of its time at most is over. -/
theorem waits_of_letsThrough {i j : ℕ} {req : Request} (henv : Proper env)
    (hcalls : ∀ attempt, Action.call attempt ∈ as → Timely env.lib attempt)
    (hrun : (machine env).run (.init env now h) as = some s) (hlet : LetsThrough s i j s.now req) :
    ∃ (c : ℕ) (call : Call), s.calls[c]? = some call ∧ call.letter.arrived = req ∧
      (call.fate ≠ .published → 0 < call.letter.timeout →
        (call.fate = .waiting ∨ call.fate = .closed) ∧
          s.now ≤ call.letter.sentAt + call.letter.timeout.tdiv 2) := by
  obtain ⟨server, job, acquired, hserver, hjob, rfl, hpc, hhalf⟩ := hlet
  obtain ⟨hrouted, hsettled⟩ := run_routed henv hrun
  have hjob := List.mem_of_getElem? hjob
  have hlt : i < env.parties.length := by
    rw [← hrouted.length]
    exact (List.getElem?_eq_some_iff.1 hserver).1
  have hparty : env.parties[i]? = some env.parties[i] := List.getElem?_eq_getElem hlt
  have htraced := (hrouted.servers i server _ hserver hparty).jobs job hjob
  obtain ⟨letter, hletter, hcovers, harrived⟩ := htraced.req
  obtain ⟨call, hmem, rfl⟩ := List.mem_map.1 hletter
  obtain ⟨c, hcall⟩ := List.mem_iff_getElem?.1 hmem
  refine ⟨c, call, hcall, harrived.symm, ?_⟩
  intro hfate hpos
  -- the job has the times of the call
  obtain ⟨hs, nuid, ctx, h', hintake, -⟩ := htraced.ctx.prepared
  rw [harrived] at hintake
  obtain ⟨htimeout, hstart⟩ := timesRead_run hcalls hrun call hmem hfate hs nuid ctx h' _ _ hintake
  have htime : s.now ≤ call.letter.sentAt + call.letter.timeout.tdiv 2 := by
    rw [halfOver, htimeout] at hhalf
    omega
  refine ⟨?_, htime⟩
  cases hf : call.fate with
  | waiting => exact .inl rfl
  | closed => exact .inr rfl
  | published => exact absurd hf hfate
  | returned data =>
    refine absurd hf (not_returned_of_owed henv hrun hcall (List.mem_of_getElem? hserver) ?_)
    rw [← harrived, Server.State.owed, Server.State.held, Multiset.mem_add]
    exact .inr (mem_tally hjob (by simp [Job.holds, hpc]))
  | timedOut =>
    have hover := (hsettled c call hcall).timedOut hf
    rw [Int.tdiv_eq_ediv_of_nonneg hpos.le] at htime
    omega
  | noResponders =>
    have hnone := (hsettled c call hcall).noResponders hf _ (List.getElem_mem hlt)
    simp [hnone] at hcovers

/-- **A handler is called for a caller that was still waiting at the check.**
Whatever calls are under way and however long each stage took: when a server
calls its handler with a request, the task or goroutine that calls it has
looked at the clock at an earlier step of the run; and at that step, if the
request is of a call that waits for an answer, the call was still waiting,
unless its connection had been closed, and half of its time at most was
over. -/
theorem handler_checked_in_time (env : Env) (now : ℤ) (h : Store) (henv : Proper env)
    (as : List Action) (hcalls : ∀ attempt, Action.call attempt ∈ as → Timely env.lib attempt)
    (s : State) (hrun : (machine env).run (.init env now h) as = some s)
    (i : ℕ) (a : Server.Action) (server : Server.State) (hserver : s.servers[i]? = some server)
    (req : Request) (hreq : req ∈ Server.handlerCalls server a) :
    ∃ (pre : List Action) (j : ℕ) (amb : Ambient) (post : List Action) (mid : State),
      as = pre ++ .server i (.job j amb) :: post ∧
      (machine env).run (.init env now h) pre = some mid ∧ LetsThrough mid i j mid.now req ∧
      ∃ (c : ℕ) (call : Call), mid.calls[c]? = some call ∧ call.letter.arrived = req ∧
        (call.fate ≠ .published → 0 < call.letter.timeout →
          (call.fate = .waiting ∨ call.fate = .closed) ∧
            mid.now ≤ call.letter.sentAt + call.letter.timeout.tdiv 2) := by
  obtain ⟨j, hlet⟩ := letThrough_of_mem hserver hreq
  obtain ⟨pre, b, post, mid, mid', rfl, hpre, hstep, hnot, hlet'⟩ :=
    Machine.exists_step_of_run not_letThrough_init hlet hrun
  obtain ⟨amb, rfl, hlets⟩ := letsThrough_of_moves (moves_of_step hstep) hnot hlet'
  have hbefore : ∀ attempt, Action.call attempt ∈ pre → Timely env.lib attempt :=
    fun attempt hattempt => hcalls attempt (List.mem_append_left _ hattempt)
  exact ⟨pre, j, amb, post, mid, rfl, hpre, hlets, waits_of_letsThrough henv hbefore hpre hlets⟩

theorem joinAttempt_timely : Timely joinLib joinAttempt where
  timeout := ⟨5000000000, rfl⟩
  clock := ⟨1700000000000000000, by decide⟩
  nuid := by decide
  inject := ⟨[], rfl⟩
  presentable := by
    refine ⟨?_, ?_, ?_⟩
    · intro v hv
      obtain rfl : GoValue.string (lit "2s") = v := Option.some.inj hv
      exact ⟨_, 2000000000, rfl, rfl⟩
    · intro v hv
      cases hv
    · intro v hv
      obtain rfl : GoValue.string [] = v := Option.some.inj hv
      exact ⟨_, rfl⟩
  past := by
    intro str t hget
    cases hget
  json := by
    intro doc hdoc
    obtain rfl : joinDocument = doc := Except.ok.inj hdoc
    refine ⟨List.cons_ne_nil _ _, joinEntries, by simp only [joinLib, if_true], ?_⟩
    intro key hkey str hstr
    simp only [List.mem_cons, List.not_mem_nil, or_false] at hkey
    rcases hkey with rfl | rfl | rfl <;> exact hstr

/-- A second after the call, which waits for two, the look at the clock lets
it through. -/
theorem handler_checked_in_time_join :
    ∃ s server req, (machine roomCluster).run roomInit joinToHandler = some s ∧
      s.servers[1]? = some server ∧ req ∈ Server.handlerCalls server (.job 0 later) ∧
      ∃ (pre : List Action) (j : ℕ) (amb : Ambient) (post : List Action) (mid : State),
        joinToHandler = pre ++ .server 1 (.job j amb) :: post ∧
        (machine roomCluster).run roomInit pre = some mid ∧ LetsThrough mid 1 j mid.now req ∧
        ∃ (c : ℕ) (call : Call), mid.calls[c]? = some call ∧ call.letter.arrived = req ∧
          (call.fate ≠ .published → 0 < call.letter.timeout →
            (call.fate = .waiting ∨ call.fate = .closed) ∧
              mid.now ≤ call.letter.sentAt + call.letter.timeout.tdiv 2) := by
  have hrun : (((machine roomCluster).run roomInit joinToHandler).bind fun s =>
      s.servers[1]?.map fun server => (Server.handlerCalls server (.job 0 later)).length) =
        some 1 := by
    decide +kernel
  obtain ⟨s, hrun, hrest⟩ := Option.bind_eq_some_iff.1 hrun
  obtain ⟨server, hserver, hlength⟩ := Option.map_eq_some_iff.1 hrest
  obtain ⟨req, hreq⟩ := List.length_eq_one_iff.1 hlength
  have hmem : req ∈ Server.handlerCalls server (.job 0 later) := by simp [hreq]
  refine ⟨s, server, req, hrun, hserver, hmem, ?_⟩
  refine handler_checked_in_time roomCluster _ _ roomCluster_proper joinToHandler ?_ s hrun 1
    (.job 0 later) server hserver req hmem
  intro attempt hattempt
  simp only [joinToHandler, List.mem_cons, Action.call.injEq, reduceCtorEq, or_false,
    List.not_mem_nil] at hattempt
  rw [hattempt]
  exact joinAttempt_timely

end Cluster

end Nrpc
