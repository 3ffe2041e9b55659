import Nrpc.Cluster.Calls
import Nrpc.Server.Heard
import Nrpc.Service.Model.Call
import Nrpc.Service.Transparent
/-!
# A call that succeeds was executed exactly once

A handler is called with the request of a call once at most, whatever
becomes of the call. If the call returns a response without an error, the
handler was called: every other answer of a server is an error
(`Server.Heard`), and stays one on the wire as long as the error that
stands in for a response that does not marshal does itself. For, failing
that, the server publishes no bytes at all, and no bytes are a response
without an error to the caller.

With a `RemoteService` for a handler this is followed down to the method:
the reply of an RPC that returns nil is what the remote under its route left
behind the after hooks, for the data that was sent and a context that has
the values of the caller's.
-/

namespace Nrpc

namespace Cluster

open Context Server Client Service

variable {env : Env} {s s' : State} {now : ℤ} {h : Store} {as : List Action}
variable {seen : List Request}

/-! ## Along a run -/

/-- What the servers answer without an error was handled. -/
def AllHeard (env : Env) (s : State) (seen : List Request) : Prop :=
  ∀ (i : ℕ) server party, s.servers[i]? = some server → env.parties[i]? = some party →
    Server.Heard (env.serverEnv party) (Addressed s party) seen server

theorem allHeard_init : AllHeard env (.init env now h) seen := by
  intro i server party hserver hparty
  simp only [State.init, List.getElem?_map, hparty, Option.map_some, Option.some.injEq] at hserver
  rw [← hserver]
  exact heard_init

/-- One server has moved, and nothing was taken back. -/
theorem AllHeard.setServer {i : ℕ} {old new : Server.State} {t : State} {seen' : List Request}
    (hs : AllHeard env s seen) (hservers : t.servers = s.servers.set i new)
    (hold : s.servers[i]? = some old)
    (haddressed : ∀ party req, Addressed s party req → Addressed t party req)
    (hseen : ∀ r ∈ seen, r ∈ seen')
    (hnew : ∀ party, env.parties[i]? = some party →
      Server.Heard (env.serverEnv party) (Addressed s party) seen' new) :
    AllHeard env t seen' := by
  intro j server party hserver hparty
  rw [hservers] at hserver
  by_cases hij : i = j
  · subst hij
    obtain ⟨hlt, -⟩ := List.getElem?_eq_some_iff.1 hold
    obtain rfl : new = server := by simpa [hlt] using hserver
    exact (hnew party hparty).mono (haddressed party) fun r hr => hr
  · rw [List.getElem?_set_ne hij] at hserver
    exact (hs j server party hserver hparty).mono (haddressed party) hseen

/-- **Every step keeps it so**, with the calls of the handlers in it. -/
theorem allHeard_moves {a : Action} (hrouted : Routed env s) (hs : AllHeard env s seen)
    (hmoves : Moves env s a s') : AllHeard env s' (seen ++ given Server.handlerCalls s a) := by
  have haddressed : ∀ party req, Addressed s party req → Addressed s' party req :=
    fun party req hreq => addressed_moves hmoves hreq
  have hseen : ∀ r ∈ seen, r ∈ seen ++ given Server.handlerCalls s a :=
    fun r hr => List.mem_append_left _ hr
  -- the servers stay as they are in most steps
  have hsame : s'.servers = s.servers →
      AllHeard env s' (seen ++ given Server.handlerCalls s a) := by
    intro hservers i server party hserver hparty
    rw [hservers] at hserver
    exact (hs i server party hserver hparty).mono (haddressed party) hseen
  cases hmoves with
  | @delivered k i msg server hmsg hserver =>
    -- what arrives changes no goroutine and no publication
    have harrives : ∀ new : Server.State, new.threads = server.threads → new.jobs = server.jobs →
        new.published = server.published → ∀ party, env.parties[i]? = some party →
          Server.Heard (env.serverEnv party) (Addressed s party)
            (seen ++ given Server.handlerCalls s (.deliver k)) new := by
      intro new hthreads hjobs hpublished party hparty
      exact ((hs i server party hserver hparty).of_same hthreads hjobs hpublished).mono
        (fun _ hreq => hreq) hseen
    unfold State.arrive at haddressed hsame ⊢
    rcases hhandle : Receive.handle env.unmarshal msg with req | e | _
    · rw [hhandle] at haddressed
      exact hs.setServer rfl hserver haddressed hseen (harrives _ rfl rfl rfl)
    · rw [hhandle] at hsame
      exact hsame rfl
    · rw [hhandle] at haddressed
      exact hs.setServer rfl hserver haddressed hseen (harrives _ rfl rfl rfl)
  | @served i a party server server' hparty hserver hnow hstep =>
    refine hs.setServer rfl hserver haddressed hseen ?_
    intro party' hparty'
    obtain rfl : party = party' := by simpa [hparty] using hparty'
    have hcalls : given Server.handlerCalls s (.server i a) = Server.handlerCalls server a := by
      simp [given, hserver]
    rw [hcalls]
    exact Heard.does (hrouted.servers i server party hserver hparty)
      (hs i server party hserver hparty) (does_of_step hstep)
  | _ => exact hsame rfl

/-- The calls of the handlers in a run. -/
def handled (env : Env) (s : State) (as : List Action) : List Request :=
  (machine env).observe (given Server.handlerCalls) s as

theorem run_heard (henv : Proper env) (hrun : (machine env).run (.init env now h) as = some s) :
    AllHeard env s (handled env (.init env now h) as) := by
  have hstep : ∀ s a s' seen, Routed env s ∧ AllHeard env s seen →
      (machine env).step s a = some s' →
      Routed env s' ∧ AllHeard env s' (seen ++ given Server.handlerCalls s a) := by
    rintro s a s' seen ⟨hrouted, hs⟩ hstep
    have hmoves := moves_of_step hstep
    exact ⟨routed_moves henv hrouted hmoves, allHeard_moves hrouted hs hmoves⟩
  have hinit : Routed env (.init env now h) ∧ AllHeard env (.init env now h) [] :=
    ⟨routed_init, allHeard_init⟩
  exact (Machine.run_history (I := fun s seen => Routed env s ∧ AllHeard env s seen) hstep hinit
    hrun).2

/-! ## The answer on the wire -/

/-- **What is assumed of `proto` on responses**: the caller reads what a
server marshals, and the error that stands in for a response that does not
marshal does. -/
structure Wired (env : Env) (unmarshalResponse : List UInt8 → Except GoString Response) :
    Prop where
  reads : ∀ party ∈ env.parties, ∀ resp p, party.marshal resp = .ok p →
    unmarshalResponse p = .ok resp
  replaces : ∀ party ∈ env.parties, ∀ resp e, party.marshal resp = .error e →
    ∃ p, party.marshal (errorResponse errUnknownCode e) = .ok p

section

variable {C T M O : Type} {proto : Proto T M} {party : Party} {resp res : Response}

/-- **A response that `Call` returns is the one that was published.** -/
theorem response_of_call (hwired : Wired env proto.unmarshalResponse) (hparty : party ∈ env.parties)
    (hok : callResult proto (marshalResponse (env.serverEnv party) resp).1 = .ok res) :
    resp = res ∧ resp.error = none := by
  have hmarshal : (env.serverEnv party).marshal = party.marshal := rfl
  rcases hresp : party.marshal resp with e | p
  · -- the caller gets the error that stands in
    obtain ⟨p, hp⟩ := hwired.replaces party hparty resp e hresp
    simp only [marshalResponse, hmarshal, hresp, hp, callResult,
      hwired.reads party hparty _ p hp] at hok
    cases hok
  · simp only [marshalResponse, hmarshal, hresp, callResult, hwired.reads party hparty resp p hresp]
      at hok
    split at hok
    · rename_i hnone
      exact ⟨Except.ok.inj hok, hnone⟩
    · cases hok

/-! ## Down to the method -/

/-- **The handler of a server is a `RemoteService`** whose `Call` returns.
Its methods and hooks are functions of the context and of what they are
given: a component that keeps a state and answers from it is no such
service. -/
def Hosts (env : Server.Env) (r : RemoteService C T M O) : Prop :=
  ∀ behaviour m req start timeout, Prepared env req m start timeout →
    ∃ h nuid, r.call env.lib.json h req nuid = .ok (env.call behaviour m req)

/-- A context that `Call` makes of a request. -/
def Starts (r : RemoteService C T M O) (json : Json) (req : Request) (ctx : C) : Prop :=
  ∃ h nuid ctx' h', getContextFromRequest json h req nuid = .ok (ctx', h') ∧
    ctx = r.startSpan (values h' ctx')

/-- The data of a request. -/
def dataOf (req : Request) : List UInt8 := (req.msg.map Msg.data).getD []

theorem error_of_lookup {F : Type} {remotes : GoMap GoString (Remote T F)} {route : GoString}
    (hlookup : lookup remotes route = .error resp) : resp.error ≠ none := by
  unfold lookup at hlookup
  split at hlookup
  · cases hlookup
    simp [routeResponse]
  · split at hlookup <;> cases hlookup
    simp [routeResponse]

/-- **A remote that answers without an error has left a value.** -/
theorem leaves_of_handleRemote {rt : Runtime C T M O} {remote : Remote T (Func C M O)} {ctx : C}
    {data : List UInt8} (hhandle : handleRemote rt remote ctx data = .ok resp)
    (hnone : resp.error = none) :
    ∃ v, Leaves rt remote ctx data v none ∧ resp = valueLeft rt.proto v := by
  unfold handleRemote at hhandle
  split at hhandle
  · cases hhandle
  · cases hhandle
    simp [errorResponse] at hnone
  · rename_i arg harg
    split at hhandle
    · exact absurd hnone (error_of_textResponse hhandle)
    · rename_i ctx' arg' hbefore
      obtain ⟨⟨v, err⟩, hinvoke, hleft⟩ := Outcome.bind_eq_ok_iff.1 hhandle
      rcases err with _ | err
      · exact ⟨v, ⟨ctx', arg', ⟨arg, harg, hbefore⟩, hinvoke⟩, (Outcome.ok.inj hleft).symm⟩
      · exact absurd hnone (error_of_errorLeft hleft)

/-- **What `Call` returns without an error the remote of the route left.** -/
theorem leaves_of_call {r : RemoteService C T M O} {json : Json} {req : Request} {nuid : GoString}
    (hcall : r.call json h req nuid = .ok resp) (hnone : resp.error = none) :
    ∃ remote ctx v, lookup r.remotes req.route = .ok remote ∧ Starts r json req ctx ∧
      Leaves r.runtime remote ctx (dataOf req) v none ∧ resp = valueLeft r.runtime.proto v := by
  unfold RemoteService.call at hcall
  split at hcall
  · cases hcall
  · cases hcall
    simp [errorResponse] at hnone
  · rename_i ctx' h' hcontext
    unfold processRemoteMessage at hcall
    split at hcall
    · rename_i hlookup
      cases hcall
      exact absurd hnone (error_of_lookup hlookup)
    · rename_i remote hlookup
      obtain ⟨v, hleaves, hresp⟩ := leaves_of_handleRemote hcall hnone
      exact ⟨remote, _, v, hlookup, ⟨h, nuid, ctx', h', hcontext, rfl⟩, hleaves, hresp⟩

/-- **The reply is the value**, for messages of the reply's type that come
out of the wire as they went in. -/
theorem standsFor_of_replyOf {v : Value M O} {reply : T} {empty m : M}
    (hround : ∀ m b, proto.typeOf m = reply → proto.marshal m = .ok b →
      proto.unmarshal reply b = .ok m)
    (hempty : proto.unmarshal reply [] = .ok empty)
    (htype : ∀ m, v = .message m → proto.typeOf m = reply)
    (hreply : replyOf proto reply (valueLeft proto v) = .ok m) : StandsFor empty m v := by
  cases v with
  | nil =>
    simp only [valueLeft, replyOf, hempty] at hreply
    exact (Except.ok.inj hreply).symm
  | message m' =>
    cases hreflects : proto.reflects m' with
    | false => simp [valueLeft, hreflects, replyOf, errorResponse] at hreply
    | true =>
      rcases hm' : proto.marshal m' with e | b
      · simp [valueLeft, hreflects, hm', replyOf, errorResponse] at hreply
      · simp only [valueLeft, hreflects, not_true, if_false, hm', replyOf,
          hround m' b (htype m' rfl) hm'] at hreply
        exact (Except.ok.inj hreply).symm
  | other o => simp [valueLeft, replyOf, errorResponse] at hreply

end

/-- **A call that succeeds was executed exactly once**, by the server it was
sent to. In every run of a cluster, with messages reordered and lost and
servers that crash or not: if a call of type `Request` returns a response,
which is one without an error, then of all the calls of all the handlers in
the run exactly one was with its request; it was made by the server with the
target's subject, which is the one of its type and id if types have no
slash, with values that are the request's own, and the response is what that
handler returned. If that handler is a `RemoteService`, whose methods are
functions, the route led to a remote, the after hooks of that remote
left a value and no error for the data that was sent and a context of the
caller's values, and the reply of the RPC is the message the value stands
for. -/
theorem executed_exactly_once {C T M O : Type} (env : Env) (now : ℤ) (h : Store)
    (proto : Proto T M) (henv : Proper env) (hwired : Wired env proto.unmarshalResponse)
    (as : List Action) (s : State) (hrun : (machine env).run (.init env now h) as = some s)
    (c : ℕ) (call : Call) (data : List UInt8) (res : Response) (hcall : s.calls[c]? = some call)
    (hfate : call.fate = .returned data) (hok : callResult proto data = .ok res) :
    (handled env (.init env now h) as).filter (fun req => req.reply = env.inbox c) =
      [call.letter.arrived] ∧
    ∃ (i : ℕ) (party : Party), env.parties[i]? = some party ∧
      Names call.letter.subject party ∧
      (∃ behaviour m start timeout,
        Prepared (env.serverEnv party) call.letter.arrived m start timeout ∧
        res = party.call behaviour m call.letter.arrived) ∧
      ∀ r : RemoteService C T M O, r.runtime.proto = proto → Hosts (env.serverEnv party) r →
        ∃ remote ctx v, lookup r.remotes call.letter.arrived.route = .ok remote ∧
          Starts r env.lib.json call.letter.arrived ctx ∧
          Leaves r.runtime remote ctx (dataOf call.letter.arrived) v none ∧
          ∀ reply empty m,
            (∀ m b, proto.typeOf m = reply → proto.marshal m = .ok b →
              proto.unmarshal reply b = .ok m) →
            proto.unmarshal reply [] = .ok empty → (∀ m, v = .message m → proto.typeOf m = reply) →
            replyOf proto reply res = .ok m → StandsFor empty m v := by
  obtain ⟨hrouted, hsettled⟩ := run_routed henv hrun
  have hwaited : call.fate ≠ .published := by simp [hfate]
  have hinbox : call.letter.reply = env.inbox c := by
    rw [(hsettled c call hcall).reply, if_neg hwaited]
  obtain ⟨i, server, hserver, hpub⟩ := (hsettled c call hcall).returned data hfate
  have hlt : i < env.parties.length := by
    rw [← hrouted.length]
    exact (List.getElem?_eq_some_iff.1 hserver).1
  have hparty : env.parties[i]? = some env.parties[i] := List.getElem?_eq_getElem hlt
  have hmem : env.parties[i] ∈ env.parties := List.getElem_mem hlt
  -- the answer, the request it answers and the handler that gave it
  obtain ⟨req, resp, hreq, hreply, hpayload, howned⟩ :=
    (run_heard henv hrun i server _ hserver hparty).published _ hpub
  obtain ⟨rfl, hcovers⟩ := hsettled.own_request henv hcall hwaited hreq hreply
  rw [show data = _ from hpayload] at hok
  obtain ⟨rfl, hnone⟩ := response_of_call hwired hmem hok
  obtain ⟨hseen, behaviour, m, start, timeout, hprepared, hresp⟩ := howned hnone
  refine ⟨?_, i, env.parties[i], hparty,
    names_of_covers henv hmem hcovers,
    ⟨behaviour, m, start, timeout, hprepared, hresp⟩, ?_⟩
  · have hfiltered : call.letter.arrived ∈ (handled env (.init env now h) as).filter
        fun req => req.reply = env.inbox c := by
      refine List.mem_filter.2 ⟨hseen, ?_⟩
      rw [reply_arrived (hsettled c call hcall).msg, hinbox]
      simp
    have hone := length_handled_le_one henv hrun hcall hwaited
    obtain ⟨only, honly⟩ := List.length_eq_one_iff.1
      (le_antisymm hone (List.length_pos_of_mem hfiltered))
    have hlist : (handled env (.init env now h) as).filter (fun req => req.reply = env.inbox c) =
        [only] := honly
    rw [hlist, List.mem_singleton] at hfiltered
    rw [hlist, hfiltered]
  · rintro r rfl hhosts
    obtain ⟨h', nuid, hreturns⟩ := hhosts behaviour m _ start timeout hprepared
    rw [← hresp] at hreturns
    obtain ⟨remote, ctx, v, hlookup, hstarts, hleaves, rfl⟩ := leaves_of_call hreturns hnone
    refine ⟨remote, ctx, v, hlookup, hstarts, hleaves, ?_⟩
    intro reply empty m' hround hempty htype hreplied
    exact standsFor_of_replyOf hround hempty htype hreplied

/-! ### Two servers with a service, and a call to one of them -/

/-- The service `room` with its one remote. -/
def joinService : RemoteService Unit Unit SomeStruct Unit :=
  ⟨structRuntime, structRemotes joinMethod, fun _ => ()⟩

/-- A server that hosts the service. -/
def joinParty (id : GoString) : Party :=
  { roomParty id with
    call := fun _ _ req =>
      match processRemoteMessage structRuntime (structRemotes joinMethod) () req with
      | .ok resp => resp
      | _ => invalidResponse
    marshal := structServer.marshal }

/-- The two servers of the type `room`, with the service. -/
def joinCluster : Env :=
  { roomCluster with parties := [joinParty (lit "room-1"), joinParty (lit "room-2")] }

theorem joinCluster_proper : Proper joinCluster where
  unmarshal := roomCluster_proper.unmarshal
  inbox_injective := roomCluster_proper.inbox_injective
  inbox_ne := roomCluster_proper.inbox_ne
  literal := by decide +kernel
  distinct := by decide +kernel

theorem marshal_joinParty {party : Party} (hparty : party ∈ joinCluster.parties) :
    party.marshal = structServer.marshal := by
  rcases List.mem_pair.1 hparty with rfl | rfl <;> rfl

theorem joinCluster_wired : Wired joinCluster structProto.unmarshalResponse where
  reads := by
    intro party hparty resp p hp
    rw [marshal_joinParty hparty] at hp
    exact structServer_wire resp p hp
  replaces := by
    intro party hparty resp e he
    rw [marshal_joinParty hparty] at he ⊢
    simp only [structServer] at he
    split at he
    · cases he
    · cases he
      exact ⟨Response.wire invalidResponse, by simp [structServer, invalidResponse]⟩

/-- The service answers whatever it is sent. -/
theorem exists_processRemoteMessage_join (req : Request) : ∃ resp,
    processRemoteMessage structRuntime (structRemotes joinMethod) () req = .ok resp := by
  unfold processRemoteMessage
  split
  · exact ⟨_, rfl⟩
  · rename_i remote hlookup
    obtain rfl : newRemote 0 joinMethod = remote := by
      unfold lookup at hlookup
      split at hlookup
      · cases hlookup
      · split at hlookup
        · cases hlookup
        · rename_i hget
          rw [structRemotes, GoMap.get?_set] at hget
          split at hget
          · exact (Option.some.inj hget).trans (Except.ok.inj hlookup)
          · simp at hget
    rcases hm : structProto.unmarshal () (dataOf req) with e | m
    · have harg : remoteArg structProto (newRemote 0 joinMethod) (dataOf req) = .err e := by
        simp [remoteArg, unmarshalRemoteArg, newRemote, joinMethod, structMethod, Method.arg?,
          Ty.newElem, hm]
      exact ⟨_, handleRemote_argument harg⟩
    · have harg : remoteArg structProto (newRemote 0 joinMethod) (dataOf req) =
          .ok (.message m) := by
        simp [remoteArg, unmarshalRemoteArg, newRemote, joinMethod, structMethod, Method.arg?,
          Ty.newElem, hm]
      exact ⟨_, handleRemote_value ⟨(), .message m, ⟨.message m, harg, rfl⟩, rfl⟩⟩

theorem hosts_joinService {party : Party} (hparty : party ∈ joinCluster.parties) :
    Hosts (joinCluster.serverEnv party) joinService := by
  rintro behaviour m req start timeout ⟨h, nuid, ctx, h', hi, rfl⟩
  refine ⟨h, nuid, ?_⟩
  have hcontext : getContextFromRequest joinCluster.lib.json h req nuid = .ok (ctx, h') := by
    unfold intake at hi
    split at hi
    · cases hi
    · cases hi
    · rename_i ctx₁ h₁ hcontext
      split at hi <;> cases hi
      exact hcontext
  obtain ⟨resp, hresp⟩ := exists_processRemoteMessage_join req
  have hcall : party.call behaviour (values h' ctx) req = resp := by
    rcases List.mem_pair.1 hparty with rfl | rfl <;> simp only [joinParty, hresp]
  show joinService.call joinCluster.lib.json h req nuid = .ok (party.call behaviour _ req)
  rw [hcall, RemoteService.call, hcontext]
  exact hresp

/-- The handler of the second server is called, once, and the call returns
what `join` returned. -/
theorem executed_exactly_once_join :
    let init : State := .init joinCluster 1700000000000000000 ⟨fun _ => .empty, 0⟩
    ∃ s call, (machine joinCluster).run init joinToAnswer = some s ∧ s.calls[0]? = some call ∧
      call.fate = .returned (Response.wire ⟨welcome.wire, none⟩) ∧
      (handled joinCluster init joinToAnswer).filter
        (fun req => req.reply = joinCluster.inbox 0) = [call.letter.arrived] ∧
      ∃ remote v, lookup joinService.remotes call.letter.arrived.route = .ok remote ∧
        Leaves structRuntime remote () (dataOf call.letter.arrived) v none ∧
        StandsFor ⟨0, []⟩ welcome v := by
  intro init
  have hfates : ((machine joinCluster).run init joinToAnswer).bind
      (fun s => s.calls[0]?.map Call.fate) =
        some (.returned (Response.wire ⟨welcome.wire, none⟩)) := by
    decide +kernel
  obtain ⟨s, hrun, hfate⟩ := Option.bind_eq_some_iff.1 hfates
  obtain ⟨call, hcall, hfate⟩ := Option.map_eq_some_iff.1 hfate
  have hok : callResult structProto (Response.wire ⟨welcome.wire, none⟩) =
      .ok ⟨welcome.wire, none⟩ := by decide +kernel
  have hreply : replyOf structProto () ⟨welcome.wire, none⟩ = .ok welcome := by decide +kernel
  obtain ⟨honce, i, party, hparty, -, -, hremote⟩ := executed_exactly_once (C := Unit) (O := Unit)
    joinCluster _ _ structProto joinCluster_proper joinCluster_wired _ s hrun 0 call _ _ hcall
    hfate hok
  obtain ⟨remote, ctx, v, hlookup, -, hleaves, hstands⟩ :=
    hremote joinService rfl (hosts_joinService (List.mem_of_getElem? hparty))
  exact ⟨s, call, hrun, hcall, hfate, honce, remote, v, hlookup, hleaves,
    hstands () ⟨0, []⟩ welcome (fun m b _ => structProto_round m b) rfl (fun _ _ => rfl) hreply⟩

end Cluster

end Nrpc
