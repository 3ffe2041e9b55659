import Nrpc.Client.Model.Request
import Nrpc.Common.Subject
import Nrpc.Discovery.Model.Servers
import Nrpc.Server.Model.Dispatch
import Nrpc.Server.Model.Receive
/-!
# Callers, servers and what is between them

The whole of a call of `NatsRPCClient.Call`: the context is stamped and
encoded, the request published on the subject of the target, received by
the server that subscribed to it, dispatched by `processMessages`, and the
response published on the reply subject of the request, where `conn.Request`
waits for it until its timeout has passed.

NATS gives each request an inbox of its own, which no server subscribes
to. It delivers a message to every subscription whose pattern matches, in
any order, and may lose it; an inbox takes the first message that comes to
it. A caller's connection may be closed at any time, and then its calls are
given up. Callers and servers read one clock. Any number of calls are under
way, and which of them, of the servers' goroutines or of the messages moves
next is the action's choice.
-/

namespace Nrpc

namespace Cluster

open Context Server Client

/-! ## The parties -/

/-- The source's `getChannel`. -/
def getChannel (serverType serverID : GoString) : GoString :=
  lit "nrpc/servers/" ++ serverType ++ lit "/" ++ serverID

/-- A server, its handler and its `proto.Marshal`, as configured. -/
structure Party where
  server : Discovery.Server
  workerPool : Bool
  call : ℕ → PropagateMap → Request → Response
  marshal : Response → Except GoString (List UInt8)
  setup : Setup

/-- The subject the server subscribes to in `Init`. -/
def Party.channel (party : Party) : GoString := getChannel party.server.type party.server.id

/-- The servers, and what they and the callers run on. -/
structure Env where
  lib : Lib
  parties : List Party
  /-- `proto.Marshal` and `proto.Unmarshal` of a `protos.Request`. -/
  marshal : Request → Except GoString (List UInt8)
  unmarshal : Receive.Unmarshal
  /-- The inbox of each call. -/
  inbox : ℕ → GoString

/-- What a server runs on. -/
def Env.serverEnv (env : Env) (party : Party) : Server.Env :=
  ⟨env.lib, party.workerPool, party.call, party.marshal⟩

/-! ## Calls -/

/-- The message types of a call. -/
inductive Kind
  | request
  | notify
deriving DecidableEq

/-- A call of `Call`: the memory and the context of the caller, what else
the call reads, the data and the target. -/
structure Attempt where
  heap : Store
  ctx : Ctx
  env : CallEnv
  kind : Kind
  data : List UInt8
  target : Discovery.Server

/-- The request of a call and how long the call waits for the answer. -/
def Attempt.send (lib : Lib) (attempt : Attempt) : Outcome GoString (Request × ℤ) :=
  match attempt.kind with
  | .request => do
    let sent ← sendRequest lib attempt.heap attempt.ctx attempt.env attempt.data
    return (sent.request, sent.timeout)
  | .notify => do
    let req ← sendNotify lib attempt.heap attempt.ctx attempt.env attempt.data
    return (req, 0)

/-- What a call has published. -/
structure Letter where
  target : Discovery.Server
  request : Request
  /-- The inbox, if the call waits for an answer. -/
  reply : GoString
  /-- When `conn.Request` was called, and for how long it waits. -/
  sentAt : ℤ
  timeout : ℤ

/-- The subject the request was published on. -/
def Letter.subject (letter : Letter) : GoString :=
  getChannel letter.target.type letter.target.id

/-- How a call stands. -/
inductive Fate
  | waiting
  /-- `conn.Request` has returned a message with this data. -/
  | returned (data : List UInt8)
  /-- `conn.Request` has returned `nats.ErrTimeout`. -/
  | timedOut
  /-- `conn.Request` has returned `nats.ErrNoResponders`. -/
  | noResponders
  /-- `conn.Request` has returned `nats.ErrConnectionClosed`. -/
  | closed
  /-- `conn.Publish` has returned. -/
  | published
deriving DecidableEq

structure Call where
  letter : Letter
  fate : Fate

/-- What a call that is the `n`th publishes: only a request has an inbox. -/
def Attempt.letter (env : Env) (n : ℕ) (attempt : Attempt) (req : Request) (now timeout : ℤ) :
    Letter where
  target := attempt.target
  request := req
  reply :=
    match attempt.kind with
    | .request => env.inbox n
    | .notify => []
  sentAt := now
  timeout := timeout

/-- How a call stands when it has published. -/
def Kind.fate : Kind → Fate
  | .request => .waiting
  | .notify => .published

/-! ## The cluster -/

structure State where
  now : ℤ
  calls : List Call
  /-- The messages under way, each with the number of the server it is for. -/
  network : List (ℕ × Receive.NatsMsg)
  servers : List Server.State

/-- Servers that were just started, with nothing under way. -/
def State.init (env : Env) (now : ℤ) (h : Store) : State where
  now := now
  calls := []
  network := []
  servers := env.parties.map fun party => .init party.setup h []

/-- The copies NATS makes of a message: one for each subscription that
matches. -/
def copies (env : Env) (subject : GoString) (msg : Receive.NatsMsg) : List (ℕ × Receive.NatsMsg) :=
  (env.parties.zipIdx.filter fun p => Subject.covers p.1.channel subject).map fun p => (p.2, msg)

/-- A message with the request is published for a call. -/
def State.post (env : Env) (s : State) (attempt : Attempt) (req : Request) (timeout : ℤ)
    (data : List UInt8) : State :=
  let letter := attempt.letter env s.calls.length req s.now timeout
  { s with
    calls := s.calls ++ [⟨letter, attempt.kind.fate⟩]
    network := s.network ++ copies env letter.subject ⟨data, letter.reply⟩ }

/-- What has become of a call. -/
def State.settle (s : State) (c : ℕ) (call : Call) (fate : Fate) : State :=
  { s with calls := s.calls.set c { call with fate := fate } }

/-- `handleMessages` takes a message in. -/
def State.arrive (env : Env) (s : State) (i : ℕ) (server : Server.State) (msg : Receive.NatsMsg) :
    State :=
  match Receive.handle env.unmarshal msg with
  | .ok req =>
    { s with servers := s.servers.set i { server with pending := server.pending ++ [req] } }
  | .err _ => s
  | .panic => { s with servers := s.servers.set i server.crash }

inductive Action
  /-- Time passes. -/
  | tick (d : ℕ)
  | call (attempt : Attempt)
  /-- A message reaches its server, or is lost. -/
  | deliver (k : ℕ)
  | lose (k : ℕ)
  /-- A goroutine of a server takes a step. -/
  | server (i : ℕ) (a : Server.Action)
  /-- A response a server has published reaches the inbox of a call. -/
  | reply (c i k : ℕ)
  /-- The time of a call is up. -/
  | expire (c : ℕ)
  /-- NATS tells a call that nobody has subscribed to its subject. -/
  | unheard (c : ℕ)
  /-- The connection a call waits on is closed. -/
  | close (c : ℕ)

/-- What the surroundings decide at a step of a server. -/
def ambient : Server.Action → Ambient
  | .thread _ amb | .job _ amb => amb

/-- **One step of the cluster.** -/
def step (env : Env) (s : State) : Action → Option State
  | .tick d => some { s with now := s.now + d }
  | .call attempt =>
    -- the clock is read before the request is sent
    if attempt.env.now ≤ s.now then
      match attempt.send env.lib with
      | .ok (req, timeout) =>
        match env.marshal req with
        | .ok data => some (s.post env attempt req timeout data)
        | .error _ => some s
      | _ => some s
    else none
  | .deliver k =>
    match s.network[k]? with
    | none => none
    | some (i, msg) =>
      match s.servers[i]? with
      | none => none
      | some server => some ({ s with network := s.network.eraseIdx k }.arrive env i server msg)
  | .lose k => some { s with network := s.network.eraseIdx k }
  | .server i a =>
    match env.parties[i]?, s.servers[i]? with
    | some party, some server =>
      if (ambient a).now = s.now then
        (Server.step (env.serverEnv party) party.setup server a).map fun server' =>
          { s with servers := s.servers.set i server' }
      else none
    | _, _ => none
  | .reply c i k =>
    match s.calls[c]?, (s.servers[i]?.bind fun server => server.published[k]?) with
    | some call, some pub =>
      if call.fate = .waiting ∧ pub.subject = call.letter.reply then
        some (s.settle c call (.returned pub.payload))
      else none
    | _, _ => none
  | .expire c =>
    match s.calls[c]? with
    | none => none
    | some call =>
      if call.fate = .waiting ∧ call.letter.sentAt + call.letter.timeout ≤ s.now then
        some (s.settle c call .timedOut)
      else none
  | .unheard c =>
    match s.calls[c]? with
    | none => none
    | some call =>
      if call.fate = .waiting ∧
          ∀ party ∈ env.parties, Subject.covers party.channel call.letter.subject = false then
        some (s.settle c call .noResponders)
      else none
  | .close c =>
    match s.calls[c]? with
    | none => none
    | some call => if call.fate = .waiting then some (s.settle c call .closed) else none

/-- **The cluster as a machine.** -/
def machine (env : Env) : Machine State Action := ⟨step env⟩

end Cluster

end Nrpc
