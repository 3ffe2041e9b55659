import Nrpc.Cluster.Model.Network
import Nrpc.Server.Traced
/-!
# What a cluster does in a step

One inversion of the step (`moves_of_step`), and the rule that balances what
the servers do against what the calls have published (`balance_moves`): in a
cluster whose servers subscribe to different subjects, a message has one
server to go to, so what is under way and what the servers have of it is
no more than what was published.
-/

namespace Nrpc

namespace Cluster

open Context Server Client

variable {env : Env} {s s' : State}

/-! ## The inversion -/

/-- **What a step does.** -/
inductive Moves (env : Env) (s : State) : Action → State → Prop
  | ticked {d : ℕ} : Moves env s (.tick d) { s with now := s.now + d }
  /-- A call that fails before it has published anything. -/
  | failed {attempt : Attempt} : Moves env s (.call attempt) s
  | posted {attempt : Attempt} {req : Request} {timeout : ℤ} {data : List UInt8}
      (hnow : attempt.env.now ≤ s.now) (hsend : attempt.send env.lib = .ok (req, timeout))
      (hdata : env.marshal req = .ok data) :
      Moves env s (.call attempt) (s.post env attempt req timeout data)
  | delivered {k i : ℕ} {msg : Receive.NatsMsg} {server : Server.State}
      (hmsg : s.network[k]? = some (i, msg)) (hserver : s.servers[i]? = some server) :
      Moves env s (.deliver k)
        ({ s with network := s.network.eraseIdx k }.arrive env i server msg)
  | lost {k : ℕ} : Moves env s (.lose k) { s with network := s.network.eraseIdx k }
  | served {i : ℕ} {a : Server.Action} {party : Party} {server server' : Server.State}
      (hparty : env.parties[i]? = some party) (hserver : s.servers[i]? = some server)
      (hnow : (ambient a).now = s.now)
      (hstep : Server.step (env.serverEnv party) party.setup server a = some server') :
      Moves env s (.server i a) { s with servers := s.servers.set i server' }
  | replied {c i k : ℕ} {call : Call} {server : Server.State} {pub : Publication}
      (hcall : s.calls[c]? = some call) (hserver : s.servers[i]? = some server)
      (hpub : server.published[k]? = some pub) (hwaiting : call.fate = .waiting)
      (hsubject : pub.subject = call.letter.reply) :
      Moves env s (.reply c i k) (s.settle c call (.returned pub.payload))
  | expired {c : ℕ} {call : Call} (hcall : s.calls[c]? = some call)
      (hwaiting : call.fate = .waiting)
      (htime : call.letter.sentAt + call.letter.timeout ≤ s.now) :
      Moves env s (.expire c) (s.settle c call .timedOut)
  | unheard {c : ℕ} {call : Call} (hcall : s.calls[c]? = some call)
      (hwaiting : call.fate = .waiting)
      (hnone : ∀ party ∈ env.parties, Subject.covers party.channel call.letter.subject = false) :
      Moves env s (.unheard c) (s.settle c call .noResponders)
  | closed {c : ℕ} {call : Call} (hcall : s.calls[c]? = some call)
      (hwaiting : call.fate = .waiting) : Moves env s (.close c) (s.settle c call .closed)

/-- **A step is one of these.** -/
theorem moves_of_step {a : Action} (hstep : step env s a = some s') : Moves env s a s' := by
  cases a with
  | tick d =>
    cases hstep
    exact .ticked
  | call attempt =>
    simp only [step] at hstep
    split at hstep
    · rename_i hnow
      split at hstep
      · rename_i hsend
        split at hstep
        · rename_i hdata
          cases hstep
          exact .posted hnow hsend hdata
        · cases hstep
          exact .failed
      · cases hstep
        exact .failed
    · cases hstep
  | deliver k =>
    simp only [step] at hstep
    split at hstep
    · cases hstep
    · rename_i hmsg
      split at hstep
      · cases hstep
      · rename_i hserver
        cases hstep
        exact .delivered hmsg hserver
  | lose k =>
    cases hstep
    exact .lost
  | server i a =>
    simp only [step] at hstep
    split at hstep
    · rename_i hparty hserver
      split at hstep
      · rename_i hnow
        obtain ⟨server', hserver', rfl⟩ := Option.map_eq_some_iff.1 hstep
        exact .served hparty hserver hnow hserver'
      · cases hstep
    · cases hstep
  | reply c i k =>
    simp only [step] at hstep
    split at hstep
    · rename_i hcall hpub
      obtain ⟨server, hserver, hpub⟩ := Option.bind_eq_some_iff.1 hpub
      split at hstep
      · rename_i hcond
        cases hstep
        exact .replied hcall hserver hpub hcond.1 hcond.2
      · cases hstep
    · cases hstep
  | expire c =>
    simp only [step] at hstep
    split at hstep
    · cases hstep
    · rename_i hcall
      split at hstep
      · rename_i hcond
        cases hstep
        exact .expired hcall hcond.1 hcond.2
      · cases hstep
  | unheard c =>
    simp only [step] at hstep
    split at hstep
    · cases hstep
    · rename_i hcall
      split at hstep
      · rename_i hcond
        cases hstep
        exact .unheard hcall hcond.1 hcond.2
      · cases hstep
  | close c =>
    simp only [step] at hstep
    split at hstep
    · cases hstep
    · rename_i hcall
      split at hstep
      · rename_i hwaiting
        cases hstep
        exact .closed hcall hwaiting
      · cases hstep

/-! ## Messages and their servers -/

/-- **What is assumed of the libraries and of the servers**: `proto` reads
back what it wrote, inboxes are not empty and one call's own, and the
servers subscribe to different subjects, without wildcards. -/
structure Proper (env : Env) : Prop where
  unmarshal : ∀ req data, env.marshal req = .ok data → env.unmarshal data = .ok req
  inbox_injective : Function.Injective env.inbox
  inbox_ne : ∀ c, env.inbox c ≠ []
  literal : ∀ party ∈ env.parties, Subject.Literal party.channel
  distinct : (env.parties.map Party.channel).Nodup

/-- The request as the server that receives it has it. -/
def Letter.arrived (letter : Letter) : Request :=
  { letter.request with msg := letter.request.msg.map fun m => { m with reply := letter.reply } }

theorem mem_copies {subject : GoString} {msg : Receive.NatsMsg} {p : ℕ × Receive.NatsMsg} :
    p ∈ copies env subject msg ↔ p.2 = msg ∧
      ∃ party, env.parties[p.1]? = some party ∧ Subject.covers party.channel subject := by
  obtain ⟨i, msg'⟩ := p
  simp only [copies, List.mem_map, List.mem_filter, Prod.exists, List.mem_zipIdx_iff_getElem?,
    Prod.mk.injEq]
  constructor
  · rintro ⟨party, j, ⟨hparty, hcovers⟩, rfl, rfl⟩
    exact ⟨rfl, party, hparty, hcovers⟩
  · rintro ⟨rfl, party, hparty, hcovers⟩
    exact ⟨party, i, ⟨hparty, hcovers⟩, rfl, rfl⟩

/-- **A message goes to one server at most.** -/
theorem length_copies_le (henv : Proper env) (subject : GoString) (msg : Receive.NatsMsg) :
    (copies env subject msg).length ≤ 1 := by
  have hcovers : ∀ party ∈ env.parties,
      Subject.covers party.channel subject = true ↔ (party.channel == subject) = true := by
    intro party hparty
    rw [Subject.covers_iff (henv.literal party hparty), beq_iff_eq]
  calc (copies env subject msg).length
      = env.parties.zipIdx.countP
          ((fun party => Subject.covers party.channel subject) ∘ Prod.fst) := by
        rw [copies, List.length_map, List.countP_eq_length_filter]
        rfl
    _ = env.parties.countP fun party => party.channel == subject := by
        rw [← List.countP_map, List.zipIdx_map_fst, List.countP_congr hcovers]
    _ = (env.parties.map Party.channel).count subject := by
        rw [List.count_eq_countP, List.countP_map]
        rfl
    _ ≤ 1 := List.nodup_iff_count_le_one.1 henv.distinct subject

/-- A call publishes a request with a message. -/
theorem msg_of_send {lib : Lib} {attempt : Attempt} {req : Request} {timeout : ℤ}
    (hsend : attempt.send lib = .ok (req, timeout)) : req.msg.isSome := by
  unfold Attempt.send at hsend
  split at hsend
  · obtain ⟨sent, hsent, hrest⟩ := Outcome.bind_eq_ok_iff.1 hsend
    cases hrest
    unfold sendRequest at hsent
    split at hsent
    · cases hsent
    · obtain ⟨_, -, hsent⟩ := Outcome.bind_eq_ok_iff.1 hsent
      obtain ⟨_, -, hsent⟩ := Outcome.bind_eq_ok_iff.1 hsent
      obtain ⟨_, -, hsent⟩ := Outcome.bind_eq_ok_iff.1 hsent
      obtain ⟨_, -, hsent⟩ := Outcome.bind_eq_ok_iff.1 hsent
      obtain ⟨_, -, hsent⟩ := Outcome.bind_eq_ok_iff.1 hsent
      cases hsent
      rfl
  · obtain ⟨sent, hsent, hrest⟩ := Outcome.bind_eq_ok_iff.1 hsend
    cases hrest
    unfold sendNotify at hsent
    split at hsent
    · cases hsent
    · obtain ⟨_, -, hsent⟩ := Outcome.bind_eq_ok_iff.1 hsent
      obtain ⟨_, -, hsent⟩ := Outcome.bind_eq_ok_iff.1 hsent
      obtain ⟨_, -, hsent⟩ := Outcome.bind_eq_ok_iff.1 hsent
      cases hsent
      rfl

/-- The request a message is turned into. -/
def carried (env : Env) (msg : Receive.NatsMsg) : Option Request :=
  match Receive.handle env.unmarshal msg with
  | .ok req => some req
  | _ => none

/-- **A server has the request of the call that published the message.** -/
theorem carried_letter (henv : Proper env) {attempt : Attempt} {req : Request} {timeout now : ℤ}
    {data : List UInt8} {n : ℕ} (hsend : attempt.send env.lib = .ok (req, timeout))
    (hdata : env.marshal req = .ok data) :
    carried env ⟨data, (attempt.letter env n req now timeout).reply⟩ =
      some (attempt.letter env n req now timeout).arrived := by
  obtain ⟨m, hm⟩ := Option.isSome_iff_exists.1 (msg_of_send hsend)
  simp only [carried, Receive.handle, henv.unmarshal _ _ hdata, hm, Letter.arrived,
    Attempt.letter, Option.map_some]

/-! ## What is published and what comes of it -/

section Balance

variable {β : Type} {g : Request → β} {R : Server.State → Multiset β}
variable {out : Server.State → Server.Action → List β}

/-- The requests in the messages under way. -/
def inFlight (env : Env) (network : List (ℕ × Receive.NatsMsg)) : List Request :=
  network.filterMap fun p => carried env p.2

/-- What counts of the requests under way and of the servers. -/
def State.balance (env : Env) (g : Request → β) (R : Server.State → Multiset β) (s : State) :
    Multiset β :=
  ↑((inFlight env s.network).map g) + tally R s.servers

/-- What counts of the requests published. -/
def State.posted (g : Request → β) (s : State) : Multiset β :=
  ↑(s.calls.map fun call => g call.letter.arrived)

/-- What a step of a server gives out. -/
def given (out : Server.State → Server.Action → List β) (s : State) : Action → List β
  | .server i a => (s.servers[i]?.map fun server => out server a).getD []
  | _ => []

/-- **A measure of a server that a request adds to when it arrives**, and
that pays for what the server gives out. -/
structure Weighs (g : Request → β) (R : Server.State → Multiset β)
    (out : Server.State → Server.Action → List β) : Prop where
  init : ∀ setup h, R (.init setup h []) = 0
  arrive : ∀ s req, R { s with pending := s.pending ++ [req] } = R s + {g req}
  crash : ∀ s : Server.State, R s.crash = R s
  step : ∀ env setup s a s', Server.step env setup s a = some s' → R s' + ↑(out s a) ≤ R s

/-- A message that is delivered is not under way any more. -/
theorem inFlight_eraseIdx {k i : ℕ} {msg : Receive.NatsMsg}
    (hmsg : s.network[k]? = some (i, msg)) :
    (↑(inFlight env s.network) : Multiset Request) =
      ↑(inFlight env (s.network.eraseIdx k)) + ↑(carried env msg).toList := by
  obtain ⟨hk, hget⟩ := List.getElem?_eq_some_iff.1 hmsg
  have hperm := List.getElem_cons_eraseIdx_perm hk
  rw [hget] at hperm
  have hcons := hperm.filterMap fun p : ℕ × Receive.NatsMsg => carried env p.2
  unfold inFlight
  rw [← Multiset.coe_eq_coe.2 hcons, List.filterMap_cons, Multiset.coe_add]
  rcases carried env msg with _ | req
  · simp
  · exact Multiset.coe_eq_coe.2 (List.perm_append_singleton _ _).symm

/-- A call adds its request to those under way, once at most. -/
theorem inFlight_post (henv : Proper env) {attempt : Attempt} {req : Request} {timeout : ℤ}
    {data : List UInt8} (hsend : attempt.send env.lib = .ok (req, timeout))
    (hdata : env.marshal req = .ok data) :
    (↑(inFlight env (s.post env attempt req timeout data).network) : Multiset Request) ≤
      ↑(inFlight env s.network) +
        {(attempt.letter env s.calls.length req s.now timeout).arrived} := by
  let letter := attempt.letter env s.calls.length req s.now timeout
  have hinFlight : inFlight env (s.post env attempt req timeout data).network =
      inFlight env s.network ++ (copies env letter.subject ⟨data, letter.reply⟩).map
        fun _ => letter.arrived := by
    simp only [inFlight, State.post, List.filterMap_append, List.append_cancel_left_eq]
    rw [← List.filterMap_eq_map']
    refine List.filterMap_congr ?_
    intro p hp
    rw [(mem_copies.1 hp).1]
    exact carried_letter henv hsend hdata
  rw [hinFlight, ← Multiset.coe_add]
  gcongr
  rw [List.map_const', Multiset.coe_replicate, ← Multiset.replicate_one]
  exact (Multiset.replicate_le_replicate _).2 (length_copies_le henv _ _)

theorem posted_settle {c : ℕ} {call : Call} {fate : Fate} (hcall : s.calls[c]? = some call) :
    (s.settle c call fate).posted g = s.posted g := by
  have hmap := @map_set_of_eq _ _ (fun call : Call => g call.letter.arrived) _ c call
    { call with fate := fate } hcall rfl
  simp only [State.posted, State.settle, hmap]

/-- A message leaves the network and joins what its server has. -/
theorem balance_arrive (hw : Weighs g R out) {k i : ℕ} {msg : Receive.NatsMsg}
    {server : Server.State} (hmsg : s.network[k]? = some (i, msg))
    (hserver : s.servers[i]? = some server) :
    ({ s with network := s.network.eraseIdx k }.arrive env i server msg).balance env g R =
      s.balance env g R := by
  have hleaves := @inFlight_eraseIdx env s k i msg hmsg
  unfold carried at hleaves
  unfold State.balance State.arrive
  rw [← Multiset.map_coe, ← Multiset.map_coe, hleaves, Multiset.map_add]
  rcases Receive.handle env.unmarshal msg with req | e | _
  · have hset := @tally_set _ _ _ R _ _ { server with pending := server.pending ++ [req] } _ hserver
    rw [hw.arrive, ← add_assoc, add_right_comm] at hset
    simp only [Option.toList_some, Multiset.coe_singleton, Multiset.map_singleton]
    rw [add_right_cancel hset, add_assoc, add_comm (tally R s.servers)]
  · simp
  · have hset := @tally_set _ _ _ R _ _ server.crash _ hserver
    rw [hw.crash] at hset
    simp [add_right_cancel hset]

/-- **A step of the cluster pays for what it gives out.** -/
theorem balance_moves {a : Action} (henv : Proper env) (hw : Weighs g R out)
    (h : Moves env s a s') :
    s'.balance env g R + ↑(given out s a) + s.posted g ≤ s.balance env g R + s'.posted g := by
  -- a step that publishes nothing and gives nothing out
  have hquiet : ∀ {s' : State}, s'.balance env g R ≤ s.balance env g R → s'.posted g = s.posted g →
      s'.balance env g R + ↑([] : List β) + s.posted g ≤ s.balance env g R + s'.posted g := by
    intro s' hle hposted
    rw [hposted, Multiset.coe_nil, add_zero]
    gcongr
  cases h with
  | ticked => exact hquiet le_rfl rfl
  | failed => exact hquiet le_rfl rfl
  | @posted attempt req timeout data hnow hsend hdata =>
    let letter := attempt.letter env s.calls.length req s.now timeout
    have hbalance : (s.post env attempt req timeout data).balance env g R ≤
        s.balance env g R + {g letter.arrived} := by
      have hadds := Multiset.map_le_map (f := g) (inFlight_post (s := s) henv hsend hdata)
      rw [Multiset.map_add, Multiset.map_singleton, Multiset.map_coe, Multiset.map_coe] at hadds
      unfold State.balance
      rw [add_right_comm]
      exact add_le_add_left hadds _
    have hposted : (s.post env attempt req timeout data).posted g =
        s.posted g + {g letter.arrived} := by
      simp only [State.posted, State.post, List.map_append, ← Multiset.coe_add]
      rfl
    rw [hposted, ← add_assoc, add_right_comm _ (s.posted g)]
    simpa [given] using hbalance
  | @delivered k i msg server hmsg hserver =>
    refine hquiet (balance_arrive hw hmsg hserver).le ?_
    unfold State.arrive
    split <;> rfl
  | @lost k =>
    refine hquiet ?_ rfl
    unfold State.balance
    gcongr
    refine Multiset.coe_le.2 (List.Sublist.subperm ?_)
    exact ((List.eraseIdx_sublist _ _).filterMap _).map _
  | @served i a party server server' hparty hserver hnow hstep =>
    have hpays := hw.step _ _ _ _ _ hstep
    have hset := @tally_set _ _ _ R _ _ server' _ hserver
    have htally : tally R (s.servers.set i server') + ↑(out server a) ≤ tally R s.servers := by
      refine le_of_add_le_add_right (a := R server) ?_
      rw [add_right_comm, hset, add_assoc]
      gcongr
    have hgiven : given out s (.server i a) = out server a := by simp [given, hserver]
    rw [hgiven]
    have hbalance : State.balance env g R { s with servers := s.servers.set i server' } +
        ↑(out server a) ≤ s.balance env g R := by
      unfold State.balance
      rw [add_assoc]
      gcongr
    exact add_le_add_left hbalance _
  | replied hcall hserver hpub hwaiting hsubject => exact hquiet le_rfl (posted_settle hcall)
  | expired hcall hwaiting htime => exact hquiet le_rfl (posted_settle hcall)
  | unheard hcall hwaiting hnone => exact hquiet le_rfl (posted_settle hcall)
  | closed hcall hwaiting => exact hquiet le_rfl (posted_settle hcall)

end Balance

end Cluster

end Nrpc
