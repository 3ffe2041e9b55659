import Mathlib.Data.List.NodupEquivFin
import Nrpc.Client.Agreement
import Nrpc.Cluster.Steps
/-!
# A call and its answer

Any number of calls are under way at once, to any number of servers, and
messages are reordered and lost. What a call returns is the answer to its
own request, computed by the server it was sent to, and the only one there
is (`call_returns_own_answer`); a handler is called with the request of a
call once at most (`handled_at_most_once`). Nothing is asked of what the
callers put into their contexts, nor of the servers, which may crash.
-/

namespace Nrpc

namespace Cluster

open Context Server Client

variable {env : Env} {s s' : State} {now : ℤ} {h : Store} {as : List Action}

/-! ## The two ledgers -/

/-- The handler is called with requests that have arrived. -/
theorem weighs_unhandled : Weighs id Server.State.unhandled Server.handlerCalls where
  init setup h := by
    have hidle : tally Thread.holds (Server.State.init setup h []).threads = 0 := by
      refine tally_eq_zero ?_
      intro th hth
      rw [List.eq_of_mem_replicate hth]
      rfl
    rw [Server.State.unhandled, Server.State.held, hidle]
    simp [Server.State.init]
  arrive s req := by
    simp only [Server.State.unhandled, Server.State.held, ← Multiset.coe_add,
      Multiset.coe_singleton, id]
    abel
  crash s := rfl
  step env setup s a s' hstep := unhandled_does (does_of_step hstep)

/-- Requests that have arrived are answered. -/
theorem weighs_replies : Weighs Request.reply Server.State.replies fun _ _ => [] where
  init setup h := by
    have howed := weighs_unhandled.init setup h
    simp only [Server.State.replies, owed_eq_held]
    simpa [Server.State.init, Server.State.unhandled, Server.State.held] using howed
  arrive s req := by
    simp only [Server.State.replies, owed_eq_held, Server.State.held, ← Multiset.coe_add,
      Multiset.coe_singleton, Multiset.map_add, Multiset.map_singleton]
    abel
  crash s := rfl
  step env setup s a s' hstep := by
    rw [Multiset.coe_nil, add_zero]
    exact replies_does (does_of_step hstep)

section Balance

variable {β : Type} {g : Request → β} {R : Server.State → Multiset β}
variable {out : Server.State → Server.Action → List β}

/-- What was given out and what is left of it has been published. -/
def Balanced (env : Env) (g : Request → β) (R : Server.State → Multiset β) (s : State)
    (seen : List β) : Prop :=
  ↑seen + s.balance env g R ≤ s.posted g

theorem balanced_init (hw : Weighs g R out) : Balanced env g R (.init env now h) [] := by
  have hservers : tally R (State.init env now h).servers = 0 := by
    refine tally_eq_zero ?_
    intro server hserver
    obtain ⟨party, -, rfl⟩ := List.mem_map.1 hserver
    exact hw.init _ _
  rw [Balanced, State.balance, hservers]
  exact Multiset.zero_le _

theorem balanced_step {a : Action} {seen : List β} (henv : Proper env) (hw : Weighs g R out)
    (hs : Balanced env g R s seen) (hstep : step env s a = some s') :
    Balanced env g R s' (seen ++ given out s a) := by
  have hpays := balance_moves henv hw (moves_of_step hstep)
  unfold Balanced at hs ⊢
  refine le_of_add_le_add_right (a := s.posted g) ?_
  calc (↑(seen ++ given out s a) : Multiset β) + s'.balance env g R + s.posted g
      = ↑seen + (s'.balance env g R + ↑(given out s a) + s.posted g) := by
        rw [← Multiset.coe_add]
        abel
    _ ≤ ↑seen + (s.balance env g R + s'.posted g) := by gcongr
    _ = (↑seen + s.balance env g R) + s'.posted g := by rw [add_assoc]
    _ ≤ s.posted g + s'.posted g := by gcongr
    _ = s'.posted g + s.posted g := add_comm _ _

/-- **A run pays for what it gives out.** -/
theorem balanced_run (henv : Proper env) (hw : Weighs g R out)
    (hrun : (machine env).run (.init env now h) as = some s) :
    Balanced env g R s ((machine env).observe (given out) (.init env now h) as) :=
  Machine.run_history (I := Balanced env g R)
    (fun _ _ _ _ hs hstep => balanced_step henv hw hs hstep) (balanced_init hw) hrun

end Balance

/-! ## Where the requests come from -/

/-- The letters of the calls made so far. -/
def State.letters (s : State) : List Letter := s.calls.map Call.letter

/-- A request that was published on the subject of a server. -/
def Addressed (s : State) (party : Party) (req : Request) : Prop :=
  ∃ letter ∈ s.letters, Subject.covers party.channel letter.subject = true ∧ req = letter.arrived

/-- **What is under way and what the servers have was published for
them.** -/
structure Routed (env : Env) (s : State) : Prop where
  length : s.servers.length = env.parties.length
  network : ∀ (i : ℕ) msg req party, (i, msg) ∈ s.network → carried env msg = some req →
    env.parties[i]? = some party → Addressed s party req
  servers : ∀ (i : ℕ) server party, s.servers[i]? = some server → env.parties[i]? = some party →
    Server.Traced (env.serverEnv party) (Addressed s party) server

theorem letters_settle {c : ℕ} {call : Call} {fate : Fate} (hcall : s.calls[c]? = some call) :
    (s.settle c call fate).letters = s.letters :=
  map_set_of_eq hcall rfl

/-- Letters stay. -/
theorem letters_moves {a : Action} {letter : Letter} (hmoves : Moves env s a s')
    (hletter : letter ∈ s.letters) : letter ∈ s'.letters := by
  cases hmoves with
  | posted =>
    unfold State.letters State.post
    rw [List.map_append]
    exact List.mem_append_left _ hletter
  | delivered =>
    unfold State.arrive
    split <;> exact hletter
  | replied hcall => rwa [letters_settle hcall]
  | expired hcall => rwa [letters_settle hcall]
  | unheard hcall => rwa [letters_settle hcall]
  | closed hcall => rwa [letters_settle hcall]
  | _ => exact hletter

theorem addressed_moves {a : Action} {party : Party} {req : Request} (hmoves : Moves env s a s')
    (hreq : Addressed s party req) : Addressed s' party req := by
  obtain ⟨letter, hletter, hrest⟩ := hreq
  exact ⟨letter, letters_moves hmoves hletter, hrest⟩

theorem routed_init : Routed env (.init env now h) where
  length := by simp [State.init]
  network := by simp [State.init]
  servers := by
    intro i server party hserver hparty
    simp only [State.init, List.getElem?_map, hparty, Option.map_some, Option.some.injEq] at hserver
    rw [← hserver]
    exact traced_init

/-- One server changes, and messages may leave. -/
theorem Routed.setServer {i : ℕ} {server' : Server.State} {network : List (ℕ × Receive.NatsMsg)}
    (hs : Routed env s) (hnetwork : ∀ p ∈ network, p ∈ s.network)
    (hserver' : ∀ party, env.parties[i]? = some party →
      Server.Traced (env.serverEnv party) (Addressed s party) server') :
    Routed env { s with network := network, servers := s.servers.set i server' } where
  length := by simp [hs.length]
  network j msg req party hmsg := hs.network j msg req party (hnetwork _ hmsg)
  servers := by
    intro j server party hserver hparty
    by_cases hij : i = j
    · subst hij
      obtain rfl : server' = server := by
        have hlt : i < s.servers.length := by
          rw [hs.length]
          exact (List.getElem?_eq_some_iff.1 hparty).1
        simpa [hlt] using hserver
      exact hserver' party hparty
    · rw [List.getElem?_set_ne hij] at hserver
      exact hs.servers j server party hserver hparty

/-- **A message is taken in by a server it was published for.** -/
theorem Routed.arrive {k i : ℕ} {msg : Receive.NatsMsg} {server : Server.State} (hs : Routed env s)
    (hmsg : s.network[k]? = some (i, msg)) (hserver : s.servers[i]? = some server) :
    Routed env ({ s with network := s.network.eraseIdx k }.arrive env i server msg) := by
  have hleft : ∀ p ∈ s.network.eraseIdx k, p ∈ s.network :=
    fun p hp => List.mem_of_mem_eraseIdx hp
  unfold State.arrive
  rcases hhandle : Receive.handle env.unmarshal msg with req | e | _
  · refine hs.setServer hleft ?_
    intro party hparty
    have hcarried : carried env msg = some req := by simp only [carried, hhandle]
    exact (hs.servers i server party hserver hparty).arrive
      (hs.network i msg req party (List.mem_of_getElem? hmsg) hcarried hparty)
  · exact ⟨hs.length, fun i msg req party hmsg => hs.network i msg req party (hleft _ hmsg),
      hs.servers⟩
  · refine hs.setServer hleft ?_
    intro party hparty
    exact (hs.servers i server party hserver hparty).does .crashed

/-- **A call publishes for the servers that subscribed to its subject.** -/
theorem Routed.post {attempt : Attempt} {req : Request} {timeout : ℤ} {data : List UInt8}
    (henv : Proper env) (hs : Routed env s) (hnow : attempt.env.now ≤ s.now)
    (hsend : attempt.send env.lib = .ok (req, timeout)) (hdata : env.marshal req = .ok data) :
    Routed env (s.post env attempt req timeout data) := by
  have hmoves : Moves env s (.call attempt) (s.post env attempt req timeout data) :=
    .posted hnow hsend hdata
  refine ⟨hs.length, ?_, ?_⟩
  · intro i msg req' party hmsg hcarried hparty
    rcases List.mem_append.1 hmsg with hmsg | hmsg
    · exact addressed_moves hmoves (hs.network i msg req' party hmsg hcarried hparty)
    · obtain ⟨rfl, party', hparty', hcovers⟩ := mem_copies.1 hmsg
      obtain rfl : party = party' := by simpa [hparty] using hparty'
      rw [carried_letter henv hsend hdata] at hcarried
      refine ⟨_, ?_, hcovers, (Option.some.inj hcarried).symm⟩
      simp [State.letters, State.post]
  · intro i server party hserver hparty
    exact (hs.servers i server party hserver hparty).mono fun req' => addressed_moves hmoves

/-- **Every step keeps everything routed.** -/
theorem routed_moves {a : Action} (henv : Proper env) (hs : Routed env s)
    (hmoves : Moves env s a s') : Routed env s' := by
  have hsettle : ∀ {c : ℕ} {call : Call} {fate : Fate}, s.calls[c]? = some call →
      Routed env (s.settle c call fate) := by
    intro c call fate hcall
    have hsame : ∀ party req,
        Addressed (s.settle c call fate) party req ↔ Addressed s party req := by
      intro party req
      rw [Addressed, letters_settle hcall, Addressed]
    refine ⟨hs.length, ?_, ?_⟩
    · intro i msg req party hmsg hcarried hparty
      exact (hsame party req).2 (hs.network i msg req party hmsg hcarried hparty)
    · intro i server party hserver hparty
      exact (hs.servers i server party hserver hparty).mono fun req => (hsame party req).2
  cases hmoves with
  | ticked => exact ⟨hs.length, hs.network, hs.servers⟩
  | failed => exact hs
  | posted hnow hsend hdata => exact hs.post henv hnow hsend hdata
  | delivered hmsg hserver => exact hs.arrive hmsg hserver
  | lost =>
    exact ⟨hs.length, fun i msg req party hmsg =>
      hs.network i msg req party (List.mem_of_mem_eraseIdx hmsg), hs.servers⟩
  | @served i a party server server' hparty hserver hnow hstep =>
    refine hs.setServer (fun p hp => hp) ?_
    intro party' hparty'
    obtain rfl : party = party' := by simpa [hparty] using hparty'
    exact (hs.servers i server party hserver hparty).does (does_of_step hstep)
  | replied hcall => exact hsettle hcall
  | expired hcall => exact hsettle hcall
  | unheard hcall => exact hsettle hcall
  | closed hcall => exact hsettle hcall

/-! ## How calls end -/

/-- **Why a call stands as it does.** -/
structure Justified (env : Env) (s : State) (c : ℕ) (call : Call) : Prop where
  msg : call.letter.request.msg.isSome
  /-- Only a call that waits, or has waited, has an inbox. -/
  reply : call.letter.reply = if call.fate = .published then [] else env.inbox c
  timedOut : call.fate = .timedOut → call.letter.sentAt + call.letter.timeout ≤ s.now
  noResponders : call.fate = .noResponders →
    ∀ party ∈ env.parties, Subject.covers party.channel call.letter.subject = false
  returned : ∀ data, call.fate = .returned data → ∃ (i : ℕ) (server : Server.State),
    s.servers[i]? = some server ∧ ⟨call.letter.reply, data⟩ ∈ server.published

/-- What a server has published stays published. -/
theorem published_moves {a : Action} {i : ℕ} {server : Server.State} {pub : Publication}
    (hmoves : Moves env s a s') (hserver : s.servers[i]? = some server)
    (hpub : pub ∈ server.published) :
    ∃ server', s'.servers[i]? = some server' ∧ pub ∈ server'.published := by
  -- another server in the place of one that has published as much
  have hset : ∀ {j : ℕ} {old new : Server.State}, s.servers[j]? = some old →
      (pub ∈ old.published → pub ∈ new.published) →
      ∃ server', (s.servers.set j new)[i]? = some server' ∧ pub ∈ server'.published := by
    intro j old new hold hkeeps
    by_cases hij : j = i
    · subst hij
      obtain rfl : server = old := by simpa [hserver] using hold
      refine ⟨new, ?_, hkeeps hpub⟩
      obtain ⟨hlt, -⟩ := List.getElem?_eq_some_iff.1 hserver
      simp [hlt]
    · exact ⟨server, by rw [List.getElem?_set_ne hij, hserver], hpub⟩
  cases hmoves with
  | delivered hmsg hold =>
    unfold State.arrive
    split
    · exact hset hold id
    · exact ⟨server, hserver, hpub⟩
    · exact hset hold id
  | served hparty hold hnow hstep => exact hset hold (published_does (does_of_step hstep))
  | _ => exact ⟨server, hserver, hpub⟩

/-- What a call stands on is not taken away. -/
theorem Justified.moves {a : Action} {c : ℕ} {call : Call} (hcall : Justified env s c call)
    (hmoves : Moves env s a s') : Justified env s' c call where
  msg := hcall.msg
  reply := hcall.reply
  timedOut hfate := by
    have hbefore := hcall.timedOut hfate
    have hnow : s.now ≤ s'.now := by
      cases hmoves with
      | ticked => simp
      | delivered =>
        unfold State.arrive
        split <;> exact le_rfl
      | _ => exact le_rfl
    omega
  noResponders := hcall.noResponders
  returned data hfate := by
    obtain ⟨i, server, hserver, hpub⟩ := hcall.returned data hfate
    exact ⟨i, published_moves hmoves hserver hpub⟩

/-- **All calls stand as they do for a reason.** -/
def Settled (env : Env) (s : State) : Prop :=
  ∀ c call, s.calls[c]? = some call → Justified env s c call

/-- A call that waited has got somewhere. -/
theorem Settled.settle {a : Action} {c : ℕ} {call : Call} {fate : Fate} (hs : Settled env s)
    (hmoves : Moves env s a (s.settle c call fate)) (hcall : s.calls[c]? = some call)
    (hnew : Justified env (s.settle c call fate) c { call with fate := fate }) :
    Settled env (s.settle c call fate) := by
  intro c' call' hcall'
  by_cases hc : c = c'
  · subst hc
    obtain ⟨hlt, -⟩ := List.getElem?_eq_some_iff.1 hcall
    obtain rfl : { call with fate := fate } = call' := by
      simpa [State.settle, hlt] using hcall'
    exact hnew
  · rw [State.settle, List.getElem?_set_ne hc] at hcall'
    exact (hs c' call' hcall').moves hmoves

theorem settled_moves {a : Action} (hs : Settled env s) (hmoves : Moves env s a s') :
    Settled env s' := by
  have hm := hmoves
  cases hmoves with
  | @posted attempt req timeout data hnow hsend hdata =>
    intro c call hcall
    rw [State.post, List.getElem?_append] at hcall
    split at hcall
    · exact (hs c call hcall).moves hm
    · obtain ⟨hc, rfl⟩ : c - s.calls.length = 0 ∧
          ⟨attempt.letter env s.calls.length req s.now timeout, attempt.kind.fate⟩ = call := by
        simpa [List.getElem?_singleton] using hcall
      obtain rfl : c = s.calls.length := by omega
      refine ⟨msg_of_send hsend, ?_, ?_, ?_, ?_⟩ <;>
        cases hkind : attempt.kind <;> simp [Attempt.letter, Kind.fate, hkind]
  | @delivered k i msg server hmsg hserver =>
    have hcalls : ({ s with network := s.network.eraseIdx k }.arrive env i server msg).calls =
        s.calls := by
      unfold State.arrive
      split <;> rfl
    intro c call hcall
    rw [hcalls] at hcall
    exact (hs c call hcall).moves hm
  | @replied c i k call server pub hcall hserver hpub hwaiting hsubject =>
    have hold := hs c call hcall
    refine hs.settle hm hcall ⟨hold.msg, by simpa [hwaiting] using hold.reply, by simp, by simp, ?_⟩
    rintro data ⟨⟩
    refine ⟨i, server, hserver, ?_⟩
    rw [← hsubject]
    exact List.mem_of_getElem? hpub
  | @expired c call hcall hwaiting htime =>
    have hold := hs c call hcall
    exact hs.settle hm hcall
      ⟨hold.msg, by simpa [hwaiting] using hold.reply, fun _ => htime, by simp, by simp⟩
  | @unheard c call hcall hwaiting hnone =>
    have hold := hs c call hcall
    exact hs.settle hm hcall
      ⟨hold.msg, by simpa [hwaiting] using hold.reply, by simp, fun _ => hnone, by simp⟩
  | @closed c call hcall hwaiting =>
    have hold := hs c call hcall
    exact hs.settle hm hcall
      ⟨hold.msg, by simpa [hwaiting] using hold.reply, by simp, by simp, by simp⟩
  | _ => exact fun c call hcall => (hs c call hcall).moves hm

/-- **What holds along every run.** -/
theorem run_routed (henv : Proper env)
    (hrun : (machine env).run (.init env now h) as = some s) : Routed env s ∧ Settled env s := by
  refine Machine.run_invariant_of_step (I := fun s => Routed env s ∧ Settled env s) ?_ ?_ hrun
  · rintro s a s' ⟨hrouted, hsettled⟩ hstep
    have hmoves := moves_of_step hstep
    exact ⟨routed_moves henv hrouted hmoves, settled_moves hsettled hmoves⟩
  · refine ⟨routed_init, ?_⟩
    intro c call hcall
    simp [State.init] at hcall

/-- The subject a request is answered on is the one of its letter. -/
theorem reply_arrived {letter : Letter} (hmsg : letter.request.msg.isSome) :
    letter.arrived.reply = letter.reply := by
  obtain ⟨m, hm⟩ := Option.isSome_iff_exists.1 hmsg
  simp [Letter.arrived, Request.reply, hm]

/-- **An inbox is one call's own.** -/
theorem Settled.inbox_eq {c c' : ℕ} {call call' : Call} (henv : Proper env) (hs : Settled env s)
    (hcall : s.calls[c]? = some call) (hfate : call.fate ≠ .published)
    (hcall' : s.calls[c']? = some call') (hreply : call'.letter.reply = call.letter.reply) :
    c' = c ∧ call' = call := by
  have hown := (hs c call hcall).reply
  have hother := (hs c' call' hcall').reply
  rw [if_neg hfate] at hown
  rw [hreply, hown] at hother
  split at hother
  · exact absurd hother (henv.inbox_ne c)
  · obtain rfl := henv.inbox_injective hother
    exact ⟨rfl, by simpa [hcall] using hcall'.symm⟩

/-- **What is answered on the inbox of a call is its own request.** -/
theorem Settled.own_request {c : ℕ} {call : Call} {party : Party} {req : Request}
    (henv : Proper env) (hs : Settled env s) (hcall : s.calls[c]? = some call)
    (hfate : call.fate ≠ .published) (hreq : Addressed s party req)
    (hreply : req.msg.map Msg.reply = some call.letter.reply) :
    req = call.letter.arrived ∧ Subject.covers party.channel call.letter.subject = true := by
  obtain ⟨letter, hletter, hcovers, rfl⟩ := hreq
  obtain ⟨call', hmem, rfl⟩ := List.mem_map.1 hletter
  obtain ⟨c', hcall'⟩ := List.mem_iff_getElem?.1 hmem
  have hsame : call'.letter.reply = call.letter.reply := by
    have harrived := reply_arrived (hs c' call' hcall').msg
    rw [Request.reply, hreply] at harrived
    exact harrived.symm
  obtain ⟨-, rfl⟩ := hs.inbox_eq henv hcall hfate hcall' hsame
  exact ⟨rfl, hcovers⟩

/-- Only one of the requests published is answered on an inbox. -/
theorem Settled.count_le_one {c : ℕ} {call : Call} (henv : Proper env) (hs : Settled env s)
    (hcall : s.calls[c]? = some call) (hfate : call.fate ≠ .published) :
    (s.posted Request.reply).count call.letter.reply ≤ 1 := by
  by_contra hcount
  rw [State.posted, Multiset.coe_count, not_le, Nat.lt_iff_add_one_le,
    ← List.duplicate_iff_two_le_count, List.duplicate_iff_exists_distinct_get] at hcount
  obtain ⟨n, m, hlt, hn, hm⟩ := hcount
  -- both places are the one of the call
  have hplace : ∀ k : Fin (s.calls.map fun call => call.letter.arrived.reply).length,
      call.letter.reply = (s.calls.map fun call => call.letter.arrived.reply).get k →
      (k : ℕ) = c := by
    intro k hk
    have hklt : (k : ℕ) < s.calls.length := by simpa using k.isLt
    have hget : s.calls[(k : ℕ)]? = some s.calls[(k : ℕ)] := List.getElem?_eq_getElem hklt
    rw [List.get_eq_getElem, List.getElem_map, reply_arrived (hs k _ hget).msg] at hk
    exact (hs.inbox_eq henv hcall hfate hget hk.symm).1
  have hnc := hplace n hn
  have hmc := hplace m hm
  omega

/-! ## Answers -/

/-- The entries with a value, counted by the values of all. -/
theorem length_filter_eq_count {α β : Type} [DecidableEq β] (f : α → β) (l : List α) (b : β) :
    (l.filter fun a => f a = b).length = (↑(l.map f) : Multiset β).count b := by
  induction l with
  | nil => rfl
  | cons a l ih =>
    rw [List.map_cons, ← Multiset.cons_coe, Multiset.count_cons, ← ih, List.filter_cons]
    by_cases hab : f a = b
    · simp [hab]
    · simp [hab, Ne.symm hab]

/-- The publications of all servers. -/
def State.publications (s : State) : List Publication :=
  s.servers.flatMap Server.State.published

/-- The answers that are published, and those still owed, are accounted
for. -/
theorem answers_le_balance :
    ↑(s.publications.map Publication.subject) +
        tally (fun server : Server.State => server.owed.map Request.reply) s.servers ≤
      s.balance env Request.reply Server.State.replies := by
  have hservers : ∀ servers : List Server.State,
      (↑((servers.flatMap Server.State.published).map Publication.subject) : Multiset GoString) +
        tally (fun server : Server.State => server.owed.map Request.reply) servers =
          tally Server.State.replies servers := by
    intro servers
    induction servers with
    | nil => rfl
    | cons server servers ih =>
      rw [List.flatMap_cons, List.map_append, ← Multiset.coe_add, tally_cons, tally_cons, ← ih,
        Server.State.replies, add_add_add_comm]
  rw [State.publications, hservers]
  exact Multiset.le_add_left _ _

/-- **An inbox has one answer at most**, published or to come. -/
theorem replies_count_le_one {c : ℕ} {call : Call} (henv : Proper env)
    (hrun : (machine env).run (.init env now h) as = some s) (hcall : s.calls[c]? = some call)
    (hfate : call.fate ≠ .published) :
    (s.balance env Request.reply Server.State.replies).count call.letter.reply ≤ 1 := by
  have hbalanced := balanced_run henv weighs_replies hrun
  have hsettled := (run_routed henv hrun).2
  refine le_trans (Multiset.count_le_of_le _ ?_) (hsettled.count_le_one henv hcall hfate)
  exact (Multiset.le_add_left _ _).trans hbalanced

/-- A subject gives the type and the id it was made of, for types without a
slash. -/
theorem getChannel_inj {t t' id id' : GoString} (ht : 0x2F ∉ t) (ht' : 0x2F ∉ t')
    (h : getChannel t id = getChannel t' id') : t = t' ∧ id = id' := by
  have hend : ∀ {t id : GoString}, 0x2F ∉ t →
      (t ++ 0x2F :: id).takeWhile (fun b : UInt8 => b ≠ 0x2F) = t := by
    intro t id ht
    rw [List.takeWhile_append_of_pos fun b hb => ?_, List.takeWhile_cons_of_neg (by simp),
      List.append_nil]
    refine decide_eq_true ?_
    rintro rfl
    exact ht hb
  have hrest : t ++ 0x2F :: id = t' ++ 0x2F :: id' := by
    have hcons : ∀ a b : GoString, getChannel a b = lit "nrpc/servers/" ++ (a ++ 0x2F :: b) := by
      intro a b
      simp [getChannel, lit]
    rw [hcons, hcons] at h
    exact List.append_cancel_left h
  have htype : t = t' := by rw [← hend ht, hrest, hend ht']
  subst htype
  exact ⟨rfl, (List.cons.inj (List.append_cancel_left hrest)).2⟩

/-- **A subject is that of a server**: whatever type and id it was made of,
they are the server's, if there is no slash in the types. -/
def Names (subject : GoString) (party : Party) : Prop :=
  party.channel = subject ∧ ∀ t id, subject = getChannel t id → 0x2F ∉ t →
    0x2F ∉ party.server.type → party.server.type = t ∧ party.server.id = id

theorem names_of_covers {party : Party} {subject : GoString} (henv : Proper env)
    (hmem : party ∈ env.parties) (h : Subject.covers party.channel subject = true) :
    Names subject party := by
  have hchannel : party.channel = subject := (Subject.covers_iff (henv.literal _ hmem)).1 h
  refine ⟨hchannel, fun t id hsubject ht hparty => ?_⟩
  exact getChannel_inj hparty ht (hchannel.trans hsubject)

/-- **A call returns the answer to its own request.** Servers that subscribe
to different subjects, any number of calls with whatever contexts, servers
that crash or not, messages reordered and lost: what a call of type
`Request` returns was computed from its own request, by the server with the
subject it was sent to, which is the server of that type and id if types
have no slash; and it is the only answer that any server has published to
its inbox. -/
theorem call_returns_own_answer (env : Env) (now : ℤ) (h : Store) (henv : Proper env)
    (as : List Action) (s : State) (hrun : (machine env).run (.init env now h) as = some s)
    (c : ℕ) (call : Call) (data : List UInt8) (hcall : s.calls[c]? = some call)
    (hfate : call.fate = .returned data) :
    (∃ (i : ℕ) (party : Party) (resp : Response),
      env.parties[i]? = some party ∧ Names call.letter.subject party ∧
      Computed (env.serverEnv party) call.letter.arrived resp ∧
      data = (marshalResponse (env.serverEnv party) resp).1) ∧
    s.publications.filter (fun pub => pub.subject = env.inbox c) = [⟨env.inbox c, data⟩] := by
  obtain ⟨hrouted, hsettled⟩ := run_routed henv hrun
  have hwaited : call.fate ≠ .published := by simp [hfate]
  have hreply : call.letter.reply = env.inbox c := by
    rw [(hsettled c call hcall).reply, if_neg hwaited]
  obtain ⟨i, server, hserver, hpub⟩ := (hsettled c call hcall).returned data hfate
  constructor
  · have hlt : i < env.parties.length := by
      rw [← hrouted.length]
      exact (List.getElem?_eq_some_iff.1 hserver).1
    have hparty : env.parties[i]? = some env.parties[i] := List.getElem?_eq_getElem hlt
    have htraced := hrouted.servers i server _ hserver hparty
    obtain ⟨req, hreq, hsubject, resp, hresp, hdata⟩ := htraced.published _ hpub
    obtain ⟨rfl, hcovers⟩ := hsettled.own_request henv hcall hwaited hreq hsubject
    exact ⟨i, env.parties[i], resp, hparty, names_of_covers henv (List.getElem_mem hlt) hcovers,
      hresp, hdata⟩
  · have hmem : (⟨env.inbox c, data⟩ : Publication) ∈
        s.publications.filter fun pub => pub.subject = env.inbox c := by
      rw [hreply] at hpub
      refine List.mem_filter.2 ⟨?_, by simp⟩
      exact List.mem_flatMap.2 ⟨server, List.mem_of_getElem? hserver, hpub⟩
    have hone : (s.publications.filter fun pub => pub.subject = env.inbox c).length ≤ 1 := by
      rw [length_filter_eq_count, ← hreply]
      refine le_trans (Multiset.count_le_of_le _ ?_) (replies_count_le_one henv hrun hcall hwaited)
      exact (Multiset.le_add_right _ _).trans answers_le_balance
    obtain ⟨pub, hpub⟩ := List.length_eq_one_iff.1
      (le_antisymm hone (List.length_pos_of_mem hmem))
    rw [hpub, List.mem_singleton] at hmem
    rw [hpub, hmem]

/-! ### Two servers and a call to one of them -/

/-- A server of the type `room` with a semaphore and no pool, whose handler
answers with the route. -/
def roomParty (id : GoString) : Party where
  server := ⟨id, lit "room", .empty, []⟩
  workerPool := false
  call := fun _ _ req => ⟨req.route, none⟩
  marshal := roomServer.marshal
  setup := ⟨1, some 256⟩

/-- The call that is made, by a context with a timeout of two seconds. -/
def joinAttempt : Attempt where
  heap := ⟨fun _ => joinValues, 1⟩
  ctx := ⟨some (some 0)⟩
  env := callAt 1700000000000000000 (lit "a")
  kind := .request
  data := []
  target := (roomParty (lit "room-2")).server

/-- The request of the call on the wire, with 177 bytes of metadata. -/
def joinWire : List UInt8 :=
  shortField 0x0a (shortField 0x12 (lit "room.room.join") ++ [0x28, 0x01]) ++
    0x12 :: 0xb1 :: 0x01 :: joinDocument

/-- Two servers, and the one request on the wire. -/
def roomCluster : Env where
  lib := joinLib
  parties := [roomParty (lit "room-1"), roomParty (lit "room-2")]
  marshal := fun req =>
    if req = requestOf joinAttempt.env [] joinDocument then .ok joinWire
    else .error (lit "string field contains invalid UTF-8")
  unmarshal := fun data =>
    if data = joinWire then .ok (requestOf joinAttempt.env [] joinDocument)
    else .error (lit "proto: cannot parse invalid wire-format data")
  inbox := fun c => lit "_INBOX." ++ List.replicate c 0x61

theorem roomCluster_proper : Proper roomCluster where
  unmarshal := by
    intro req data hdata
    simp only [roomCluster] at hdata ⊢
    split at hdata
    · rename_i hreq
      cases hdata
      rw [if_pos rfl, hreq]
    · cases hdata
  inbox_injective := by
    intro c c' heq
    have hlength := congrArg List.length heq
    simpa [roomCluster] using hlength
  inbox_ne := by
    intro c
    simp [roomCluster, lit]
  literal := by decide +kernel
  distinct := by decide +kernel

/-- A step of the second server, a second after the call. -/
def later : Ambient := ⟨lit "id", 1700000001000000000, false, 0, none⟩

/-- The call goes out, takes a second to arrive, waits for the semaphore
and passes the look at the clock. -/
def joinToHandler : List Action :=
  [.call joinAttempt, .tick 1000000000, .deliver 0, .server 1 (.thread 0 later),
    .server 1 (.thread 0 later), .server 1 (.thread 0 later), .server 1 (.job 0 later),
    .server 1 (.job 0 later)]

/-- The handler is called, and the response reaches the inbox. -/
def joinToAnswer : List Action :=
  joinToHandler ++ [.server 1 (.job 0 later), .server 1 (.job 0 later), .reply 0 1 0]

def roomInit : State := .init roomCluster 1700000000000000000 ⟨fun _ => .empty, 0⟩

theorem exists_joinToAnswer :
    ∃ s call, (machine roomCluster).run roomInit joinToAnswer = some s ∧ s.calls[0]? = some call ∧
      call.fate = .returned (shortField 0x0a (lit "room.room.join")) := by
  have hrun : ((machine roomCluster).run roomInit joinToAnswer).bind
      (fun s => s.calls[0]?.map Call.fate) =
        some (.returned (shortField 0x0a (lit "room.room.join"))) := by
    decide +kernel
  obtain ⟨s, hrun, hfate⟩ := Option.bind_eq_some_iff.1 hrun
  obtain ⟨call, hcall, hfate⟩ := Option.map_eq_some_iff.1 hfate
  exact ⟨s, call, hrun, hcall, hfate⟩

/-- The call returns the route, as the second server has it. -/
theorem call_returns_own_answer_join :
    ∃ s call, (machine roomCluster).run roomInit joinToAnswer = some s ∧ s.calls[0]? = some call ∧
      call.fate = .returned (shortField 0x0a (lit "room.room.join")) ∧
      s.publications.filter (fun pub => pub.subject = roomCluster.inbox 0) =
        [⟨roomCluster.inbox 0, shortField 0x0a (lit "room.room.join")⟩] := by
  obtain ⟨s, call, hrun, hcall, hfate⟩ := exists_joinToAnswer
  exact ⟨s, call, hrun, hcall, hfate, (call_returns_own_answer roomCluster _ _ roomCluster_proper
    _ s hrun 0 call _ hcall hfate).2⟩

/-- **The calls of the handlers were paid for**: each is with a request that
was published. -/
theorem handled_le_posted (henv : Proper env)
    (hrun : (machine env).run (.init env now h) as = some s) :
    (((machine env).observe (given Server.handlerCalls) (.init env now h) as : List Request) :
      Multiset Request) ≤ s.posted id :=
  (Multiset.le_add_right _ _).trans (balanced_run henv weighs_unhandled hrun)

/-- Of the requests with the inbox of a call, one at most is handled. -/
theorem length_handled_le_one {c : ℕ} {call : Call} (henv : Proper env)
    (hrun : (machine env).run (.init env now h) as = some s) (hcall : s.calls[c]? = some call)
    (hfate : call.fate ≠ .published) :
    (((machine env).observe (given Server.handlerCalls) (.init env now h) as).filter
      fun req => req.reply = env.inbox c).length ≤ 1 := by
  have hsettled := (run_routed henv hrun).2
  have hreply : call.letter.reply = env.inbox c := by
    rw [(hsettled c call hcall).reply, if_neg hfate]
  have hposted : (s.posted id).map Request.reply = s.posted Request.reply := by
    rw [State.posted, Multiset.map_coe, List.map_map]
    rfl
  rw [length_filter_eq_count, ← hreply, ← Multiset.map_coe]
  refine le_trans (Multiset.count_le_of_le _ (Multiset.map_le_map (handled_le_posted henv hrun))) ?_
  rw [hposted]
  exact hsettled.count_le_one henv hcall hfate

/-- **A handler is called with the request of a call once at most.** The
handlers of all servers together are called with requests that were
published, each as often as it was published at most; so a call that waits
for an answer has its handler called once at most. -/
theorem handled_at_most_once (env : Env) (now : ℤ) (h : Store) (henv : Proper env)
    (as : List Action) (s : State) (hrun : (machine env).run (.init env now h) as = some s) :
    (((machine env).observe (given Server.handlerCalls) (.init env now h) as : List Request) :
      Multiset Request) ≤ ↑(s.letters.map Letter.arrived) ∧
    ∀ (c : ℕ) (call : Call), s.calls[c]? = some call → call.fate ≠ .published →
      (((machine env).observe (given Server.handlerCalls) (.init env now h) as).filter
        fun req => req.reply = env.inbox c).length ≤ 1 := by
  constructor
  · have hle := handled_le_posted henv hrun
    simpa [State.posted, State.letters, Function.comp_def] using hle
  · exact fun c call hcall hfate => length_handled_le_one henv hrun hcall hfate

/-- The handler has been called with the request of the call. -/
theorem handled_at_most_once_join :
    ∃ s, (machine roomCluster).run roomInit joinToAnswer = some s ∧
      ((machine roomCluster).observe (given Server.handlerCalls) roomInit joinToAnswer).length = 1 ∧
      (((machine roomCluster).observe (given Server.handlerCalls) roomInit joinToAnswer).filter
        fun req => req.reply = roomCluster.inbox 0).length ≤ 1 := by
  obtain ⟨s, call, hrun, hcall, hfate⟩ := exists_joinToAnswer
  refine ⟨s, hrun, by decide +kernel, ?_⟩
  exact (handled_at_most_once roomCluster _ _ roomCluster_proper _ s hrun).2 0 call hcall
    (by simp [hfate])

end Cluster

end Nrpc
