import Nrpc.Context.Model.Context
/-!
# What a call propagates

`NatsRPCClient.Call` takes the map of its context and writes the route into
it, and a request id, a timeout and a start time where the context has
none. `buildRequest` adds the span, the id and the type of the calling
server through `AddToPropagateCtx`, which writes to the same map, and the
map is marshalled into the metadata of the request.

Everything a call reads besides its context is in `CallEnv`.
-/

namespace Nrpc

namespace Client

open Context

/-- What one call is given by its client and its surroundings. -/
structure CallEnv where
  /-- The client was initialised. -/
  running : Bool
  /-- `route.String()`. -/
  route : GoString
  /-- What `nuid.Next()` gives. -/
  nuid : GoString
  /-- The client's `reqTimeout` as a string. -/
  reqTimeout : GoString
  /-- What the clock reads, in nanoseconds since the epoch. -/
  now : ℤ
  /-- What the tracer's `Inject` fills the carrier with, or its error. -/
  inject : Except GoString (List (GoString × GoString))
  /-- The calling server. -/
  serverID : GoString
  serverType : GoString

/-! ## `Call` -/

/-- The request id: set if the context has none, or an empty one. -/
def stampRequestID (h : Store) (ctx : Ctx) (p : MapRef) (env : CallEnv) : Outcome GoString Store :=
  match getFromPropagateCtx h (some ctx) requestIDKey with
  | .nil | .string [] => assign h p requestIDKey (.string env.nuid)
  | _ => .ok h

/-- A value set if the context has none. -/
def stampIfNil (h : Store) (ctx : Ctx) (p : MapRef) (key val : GoString) : Outcome GoString Store :=
  match getFromPropagateCtx h (some ctx) key with
  | .nil => assign h p key (.string val)
  | _ => .ok h

/-- `Call` up to the rebuilt context. The checks read through the context
the caller gave, the writes go to the map taken from it. -/
def stampCall (h : Store) (ctx : Ctx) (env : CallEnv) : Outcome GoString (Ctx × Store) := do
  let (p, h) := toMap h (some ctx)
  let h ← assign h p routeKey (.string env.route)
  let h ← stampRequestID h ctx p env
  let h ← stampIfNil h ctx p requestTimeout env.reqTimeout
  let h ← stampIfNil h ctx p startTimeKey (formatInt env.now)
  return (⟨some p⟩, h)

/-! ## `buildRequest` -/

/-- The source's `InjectSpan` on a context with a span: a nil context when
the tracer fails. -/
def injectSpan (h : Store) (ctx : Ctx) (env : CallEnv) : Outcome GoString (Option Ctx × Store) :=
  match env.inject with
  | .error _ => .ok (none, h)
  | .ok carrier => do
    let (ctx, h) ← addToPropagateCtx h (some ctx) spanPropagateCtxKey (.carrier carrier)
    return (some ctx, h)

/-- `buildRequest` up to the context it encodes. The error of `InjectSpan`
is logged and the nil context used. -/
def buildRequest (h : Store) (ctx : Ctx) (env : CallEnv) : Outcome GoString (Ctx × Store) := do
  let (ctx?, h) ← injectSpan h ctx env
  let (ctx, h) ← addToPropagateCtx h ctx? peerIDKey (.string env.serverID)
  addToPropagateCtx h (some ctx) peerServiceKey (.string env.serverType)

/-- **A call, as its memory sees it**: the context whose map becomes the
metadata of the request, if the call gets that far, and the memory it
leaves. -/
def call (h : Store) (ctx : Ctx) (env : CallEnv) : Option Ctx × Store :=
  if env.running then
    match stampCall h ctx env with
    | .ok (ctx, h) =>
      match buildRequest h ctx env with
      | .ok (ctx, h) => (some ctx, h)
      -- the nil context is refused before anything else is written
      | _ => (none, h)
    | _ => (none, h)
  else (none, h)

/-! ## Programs -/

/-- One step of a program over contexts, which are numbered in the order
they are made. -/
inductive Op
  | background
  /-- `FromMap` of a new map with these entries. -/
  | fromMap (m : PropagateMap)
  | add (c : ℕ) (key : GoString) (val : GoValue)
  | get (c : ℕ) (key : GoString)
  | call (c : ℕ) (env : CallEnv)

/-- What a program can see: the value of a read, and the map a call sends
as its metadata. -/
inductive Obs
  | read (c : ℕ) (key : GoString) (val : GoValue)
  | sent (c : ℕ) (env : CallEnv) (metadata : PropagateMap)

/-- A program's state: the maps, the contexts made so far and what was
seen. -/
structure State where
  heap : Store
  ctxs : List Ctx
  obs : List Obs

def State.init : State := ⟨⟨fun _ => .empty, 0⟩, [], []⟩

/-- One step. A step on a context that was never made does nothing, nor
does a panic add a context. -/
def step (s : State) : Op → State
  | .background => { s with ctxs := s.ctxs ++ [Context.background] }
  | .fromMap m =>
    { s with heap := s.heap.alloc m, ctxs := s.ctxs ++ [Context.fromMap (some s.heap.next)] }
  | .add c key val =>
    match s.ctxs[c]? with
    | none => s
    | some ctx =>
      match addToPropagateCtx s.heap (some ctx) key val with
      | .ok (ctx', h) => { s with heap := h, ctxs := s.ctxs ++ [ctx'] }
      | _ => s
  | .get c key =>
    match s.ctxs[c]? with
    | none => s
    | some ctx =>
      { s with obs := s.obs ++ [.read c key (getFromPropagateCtx s.heap (some ctx) key)] }
  | .call c env =>
    match s.ctxs[c]? with
    | none => s
    | some ctx =>
      match call s.heap ctx env with
      | (some ctx', h) =>
        { s with heap := h, obs := s.obs ++ [.sent c env (contents h (toMap h (some ctx')).1)] }
      | (none, h) => { s with heap := h }

/-- A whole program. -/
def run (prog : List Op) : State := prog.foldl step .init

end Client

end Nrpc
