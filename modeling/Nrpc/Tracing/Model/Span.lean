import Nrpc.Client.Model.Request
import Nrpc.Context.Model.Readers
/-!
# Spans

A call starts a span on the side of the caller and another one on the side
of the server that handles it. The parent of a span is looked up: in the
span of the context, which stays in the process, or, where there is none, in
the carrier under a key of the propagated map, which travels with the
request. Each call writes a carrier of its own span into the map of its
context.

A tracer is known by what it writes into a carrier and what it makes of one;
the contexts it gives to new spans are data of the calls.
-/

namespace Nrpc

namespace Tracing

open Context Server Client

/-! ## Spans and contexts -/

/-- What the code asks of an `opentracing.Tracer`; `σ` are its span
contexts. -/
structure Tracer (σ : Type) where
  inject : σ → Except GoString (List (GoString × GoString))
  /-- A nil carrier is `none`, and so is a nil span context. -/
  extract : Option (GoMap GoString GoString) → Except GoString (Option σ)

/-- A span, as it is reported when it is finished. -/
structure Span (σ : Type) where
  opName : GoString
  tags : List (GoString × GoValue)
  parent : Option σ
  context : σ
  /-- What `FinishSpan` logs. -/
  logged : Option GoString

/-- A context, by its span and its propagated values. -/
structure SpanCtx (σ : Type) where
  span : Option σ
  ctx : Ctx

variable {σ : Type}

/-- The source's `ExtractSpan`. -/
def extractSpan (tracer : Tracer σ) (o : GoMap.Order GoString GoValue) (h : Store)
    (c : SpanCtx σ) : Except GoString (Option σ) :=
  match c.span with
  | some span => .ok (some span)
  | none =>
    match getFromPropagateCtx h (some c.ctx) spanPropagateCtxKey with
    | .nil => .ok none
    | s => do tracer.extract (← castValueToCarrier o s)

/-- The reference an extracted parent gives: none if there was an error. -/
def reference (parent : Except GoString (Option σ)) : Option σ := parent.toOption.join

/-- The text of an error. -/
def errorOf {α : Type} : Except GoString α → Option GoString
  | .ok _ => none
  | .error e => some e

/-! ## The two sides of a call -/

/-- A process: its tracer and its server. -/
structure Process (σ : Type) where
  tracer : Tracer σ
  serverID : GoString
  serverType : GoString

/-- One call: where it goes, what it is given, and how it fares. -/
structure CallSpec (P σ : Type) where
  target : P
  running : Bool
  route : GoString
  nuid : GoString
  reqTimeout : GoString
  now : ℤ
  /-- The message type is `Notify`. -/
  notify : Bool
  data : List UInt8
  /-- The context the tracer gives the span of the call. -/
  clientSpan : σ
  /-- The request reaches the `RemoteService` of the other process. -/
  taken : Bool
  /-- The memory there, the id at hand, and the context of the span. -/
  memory : Store
  serverNuid : GoString
  serverSpan : σ

variable {P : Type}

/-- What the call is given by its client, in the process `p`. -/
def CallSpec.env (x : CallSpec P σ) (p : Process σ) : CallEnv where
  running := x.running
  route := x.route
  nuid := x.nuid
  reqTimeout := x.reqTimeout
  now := x.now
  inject := p.tracer.inject x.clientSpan
  serverID := p.serverID
  serverType := p.serverType

/-- The span `Call` starts. Its `FinishSpan` is deferred with the error of
the moment, which is that of `ExtractSpan`. -/
def startCall (procs : P → Process σ) (o : GoMap.Order GoString GoValue) (p : P)
    (x : CallSpec P σ) (h : Store) (c : SpanCtx σ) : Span σ :=
  let parent := extractSpan (procs p).tracer o h c
  { opName := lit "NATS RPC Call"
    tags := [(lit "span.kind", .string (lit "client")),
      (lit "local.id", .string (procs p).serverID),
      (lit "peer.serverType", .string (procs x.target).serverType),
      (lit "peer.id", .string (procs x.target).serverID)]
    parent := reference parent
    context := x.clientSpan
    logged := errorOf parent }

/-- How far a call gets. -/
inductive Flow
  | sent (metadata : List UInt8)
  /-- It returns an error before anything is sent. -/
  | failed
  | panicked

/-- **`Call` up to what it hands to the connection**, with the memory it
leaves. -/
def attempt (lib : Lib) (h : Store) (ctx : Ctx) (env : CallEnv) (notify : Bool) : Flow × Store :=
  if ¬ env.running then (.failed, h)
  else
    match stampCall h ctx env with
    | .ok (ctx', h₁) =>
      match buildRequest h₁ ctx' env with
      | .ok (reqCtx, h₂) =>
        match encode lib.json h₂ (some reqCtx) with
        | .error _ => (.failed, h₂)
        | .ok metadata =>
          if notify then (.sent metadata, h₂)
          else
            -- the assertion of the timeout comes behind the marshalling
            match reqTimeoutOf h ctx env >>= waitTime lib with
            | .ok _ => (.sent metadata, h₂)
            | _ => (.panicked, h₂)
      | _ => (.panicked, h₁)
    | _ => (.panicked, h)

/-- The request of a call. -/
def CallSpec.request (x : CallSpec P σ) (metadata : List UInt8) : Request :=
  ⟨some ⟨0, x.route, x.data, [], if x.notify then .msgNotify else .msgRequest⟩, metadata⟩

/-- The source's `StartSpanFromRequest`. The `FinishSpan` of
`RemoteService.Call` is deferred with the error of `GetContextFromRequest`,
which is nil where there is a context. -/
def startSpanFromRequest (procs : P → Process σ) (o : GoMap.Order GoString GoValue) (p : P)
    (route : GoString) (span : σ) (h : Store) (ctx : Ctx) : Span σ :=
  { opName := route
    tags := [(lit "local.id", .string (procs p).serverID),
      (lit "span.kind", .string (lit "server")),
      (lit "peer.id", getFromPropagateCtx h (some ctx) peerIDKey),
      (lit "peer.service", getFromPropagateCtx h (some ctx) peerServiceKey),
      (lit "request.id", getFromPropagateCtx h (some ctx) requestIDKey)]
    parent := reference (extractSpan (procs p).tracer o h ⟨none, ctx⟩)
    context := span
    logged := none }

/-! ## Programs that call -/

/-- What a caller does with its context: it adds values, and it calls, one
call after the other; a call that is handled runs a program of the same kind
in another process. -/
inductive Prog (P σ : Type)
  | done
  | add (key : GoString) (val : GoValue) (rest : Prog P σ)
  | call (x : CallSpec P σ) (handler rest : Prog P σ)

/-- The spans of a program: of every call its own, that of the server if
there was one, and the spans below it. -/
inductive Trace (σ : Type)
  | done
  | panicked
  | call (client : Span σ) (server : Option (Span σ)) (handler rest : Trace σ)

/-- **A program and the spans it leaves.** A panic ends the program it
happens in: that of a handler is recovered by `Pcall`. -/
def trace (lib : Lib) (procs : P → Process σ) (o : GoMap.Order GoString GoValue) :
    Prog P σ → P → SpanCtx σ → Store → Trace σ
  | .done, _, _, _ => .done
  | .add key val rest, p, c, h =>
    match addToPropagateCtx h (some c.ctx) key val with
    | .ok (ctx, h) => trace lib procs o rest p ⟨c.span, ctx⟩ h
    | _ => .panicked
  | .call x handler rest, p, c, h =>
    let client := startCall procs o p x h c
    let (flow, h) := attempt lib h c.ctx (x.env (procs p)) x.notify
    match flow with
    | .panicked => .call client none .done .panicked
    | .failed => .call client none .done (trace lib procs o rest p c h)
    | .sent metadata =>
      let rest := trace lib procs o rest p c h
      if ¬ x.taken then .call client none .done rest
      else
        match getContextFromRequest lib.json x.memory (x.request metadata) x.serverNuid with
        | .ok (ctx, hs) =>
          .call client (some (startSpanFromRequest procs o x.target x.route x.serverSpan hs ctx))
            (trace lib procs o handler x.target ⟨some x.serverSpan, ctx⟩ hs) rest
        | _ => .call client none .done rest

end Tracing

end Nrpc
