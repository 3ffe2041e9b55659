import Nrpc.Server.Model.Dispatch
import Nrpc.Service.Model.Component
/-!
# A remote call, from `RPC` to the method and back

`RemoteService.RPC` marshals its argument, the request reaches a
`RemoteService` that looks the remote up, unmarshals the argument, runs the
before hooks, the method and the after hooks, and makes a response of what
they left. The response is marshalled by the server, unmarshalled by
`NatsRPCClient.Call`, which turns an error in it into an `*errors.Error`,
and its data by `RPC` into the reply.

The request and the response are taken to arrive. Messages, contexts and
the values a hook may put in their place are arbitrary types, and what
`proto` does with them is a parameter. Three things panic behind a method:
the text of an error that has none, which `handleRPC` asks for, and, in
`Pcall`, the search for a logger and the logger it finds.
-/

namespace Nrpc

namespace Service

open Server

/-! ## Values -/

/-- A value of type `interface{}`: nil, a message, or anything else. -/
inductive Value (M O : Type)
  | nil
  | message (m : M)
  | other (o : O)

/-- A value of type `error` that is not nil: an `*errors.Error`, another
error with its text, or one whose `Error()` panics, as that of an
`*errors.Error` that is nil does. -/
inductive GoError
  | nrpc (e : Server.Error)
  | other (text : GoString)
  | unreadable
deriving DecidableEq

/-- `err.Error()`, which may panic. -/
def GoError.text : GoError → Option GoString
  | .nrpc e => some e.msg
  | .other text => some text
  | .unreadable => none

/-- What `recover` gives: a string, or another value with its text under
`%v`. -/
inductive PanicValue
  | string (s : GoString)
  | other (text : GoString)

/-- How `method.Func.Call` ends, the checks of reflection included. -/
inductive Behaviour (M : Type)
  /-- The method has no results. -/
  | returnsNothing
  /-- The method returns a pointer to a message, or nil, and an error, or
  nil. -/
  | returns (reply : Option M) (err : Option GoError)
  | panics (rec : PanicValue)

/-- What `getLoggerFromArgs` meets in a parameter of the call. -/
inductive LoggerValue
  /-- No value, no context, or a context with nothing under the key. -/
  | nil
  /-- A context with a logger, and whether the logger's `Errorf` returns. -/
  | logger (errorf : Bool)
  /-- A context with something else, or one whose `Value` panics. -/
  | other
deriving DecidableEq

/-- What a method does with its receiver, a context and an argument. -/
abbrev Func (C M O : Type) := ℕ → C → Value M O → Behaviour M

/-- The library functions on messages, each of some type: `proto.Marshal`,
`proto.Unmarshal` into a new message of a type, and `proto.Unmarshal` of a
response. They return, with a result or an error. A message of a method
implements the `proto.Message` of the first `proto`; `handleRPC` asks a result
for that of the second. -/
structure Proto (T M : Type) where
  typeOf : M → T
  /-- The message implements the second `proto.Message`. -/
  reflects : M → Bool
  marshal : M → Except GoString (List UInt8)
  unmarshal : T → List UInt8 → Except GoString M
  unmarshalResponse : List UInt8 → Except GoString Response

variable {C T M O : Type}

/-! ## Hooks -/

/-- A before hook. -/
abbrev HandlerTempl (C M O : Type) := C → Value M O → C × Value M O × Option GoError

/-- An after hook. -/
abbrev AfterHandlerTempl (C M O : Type) :=
  C → Value M O → Option GoError → Value M O × Option GoError

/-- The source's `RemoteHooks`. -/
structure RemoteHooks (C M O : Type) where
  beforeHandler : List (HandlerTempl C M O)
  afterHandler : List (AfterHandlerTempl C M O)

/-- The source's `ExecuteBeforePipeline`: the first error breaks it off. -/
def executeBeforePipeline : List (HandlerTempl C M O) → C → Value M O →
    C × Value M O × Option GoError
  | [], ctx, res => (ctx, res, none)
  | h :: hs, ctx, res =>
    match h ctx res with
    | (ctx, res, some err) => (ctx, res, some err)
    | (ctx, res, none) => executeBeforePipeline hs ctx res

/-- The source's `ExecuteAfterPipeline`: every hook runs. -/
def executeAfterPipeline (hs : List (AfterHandlerTempl C M O)) (ctx : C) (res : Value M O)
    (err : Option GoError) : Value M O × Option GoError :=
  hs.foldl (fun p h => h ctx p.1 p.2) (res, err)

/-! ## The method -/

def errReplyShouldBeNotNull : GoString := lit "reply must not be null"
def errWrongValueType : GoString := lit "protobuf: convert on wrong type value"
def errNotFoundCode : GoString := lit "PIT-404"
def errBadRequestCode : GoString := lit "PIT-400"

/-- The error `Pcall` makes of what it recovered. -/
def recoveredError (name : GoString) : PanicValue → GoError
  | .string s => .other s
  | .other text => .other (lit "rpc call internal error - " ++ name ++ lit ": " ++ text)

/-- Where `getLoggerFromArgs` looks: any parameter of a call may be a
context. -/
structure Loggers (C M O : Type) where
  receiver : ℕ → LoggerValue
  context : C → LoggerValue
  argument : Value M O → LoggerValue
  /-- Whether the `Errorf` of `logger.Log` returns. -/
  log : Bool

/-- The parameters of the call, in their order. -/
def Loggers.args (loggers : Loggers C M O) (remote : Remote T (Func C M O)) (ctx : C)
    (arg : Value M O) : List LoggerValue :=
  loggers.receiver remote.receiver :: loggers.context ctx ::
    if remote.hasArgs then [loggers.argument arg] else []

/-- The source's `getLoggerFromArgs`: the first logger under the key, or
`logger.Log`. Its answer is whether the `Errorf` of the logger returns. -/
def getLoggerFromArgs (log : Bool) : List LoggerValue → Outcome GoString Bool
  | [] => .ok log
  | .nil :: args => getLoggerFromArgs log args
  | .logger errorf :: _ => .ok errorf
  | .other :: _ => .panic

/-- **A panic is logged**: a logger is found, and its `Errorf` returns. -/
def Loggers.Logs (loggers : Loggers C M O) (remote : Remote T (Func C M O)) (ctx : C)
    (arg : Value M O) : Prop :=
  getLoggerFromArgs loggers.log (loggers.args remote ctx arg) = .ok true

instance (loggers : Loggers C M O) (remote : Remote T (Func C M O)) (ctx : C) (arg : Value M O) :
    Decidable (loggers.Logs remote ctx arg) :=
  inferInstanceAs (Decidable (_ = _))

/-- The source's `Pcall`. A panic of the method is recovered when it is
logged; a panic in between is not. -/
def pcall (loggers : Loggers C M O) (remote : Remote T (Func C M O)) (ctx : C)
    (arg : Value M O) : Outcome GoString (Value M O × Option GoError) :=
  match remote.method.func remote.receiver ctx arg with
  | .returnsNothing => .ok (.nil, none)
  | .returns _ (some err) => .ok (.nil, some err)
  | .returns (some m) none => .ok (.message m, none)
  | .returns none none => .ok (.nil, some (.other errReplyShouldBeNotNull))
  | .panics rec =>
    if loggers.Logs remote ctx arg then
      .ok (.nil, some (recoveredError remote.method.name rec))
    else .panic

/-- The source's `unmarshalRemoteArg`: a new value of the element type is
unmarshalled into. -/
def unmarshalRemoteArg (proto : Proto T M) (remote : Remote T (Func C M O))
    (payload : List UInt8) : Outcome GoString (Value M O) :=
  match remote.type with
  | none => .ok .nil
  | some ty =>
    match ty.newElem with
    | none => .panic
    | some (elemPtr, isProto) =>
      if ¬ isProto then .err errWrongValueType
      else
        match proto.unmarshal elemPtr payload with
        | .ok m => .ok (.message m)
        | .error e => .err e

/-- The argument of a request: none where the remote has none. -/
def remoteArg (proto : Proto T M) (remote : Remote T (Func C M O)) (payload : List UInt8) :
    Outcome GoString (Value M O) :=
  if remote.hasArgs then unmarshalRemoteArg proto remote payload else .ok .nil

/-! ## The response -/

/-- A response that is an error with a code, a text and the route. -/
def routeResponse (code msg route : GoString) : Response :=
  ⟨[], some ⟨code, msg, GoMap.empty.set (lit "route") route⟩⟩

/-- The response with a code and the text of an error. -/
def textResponse (code : GoString) (err : GoError) : Outcome GoString Response :=
  match err.text with
  | some text => .ok (errorResponse code text)
  | none => .panic

/-- The response to an error left behind the after hooks. -/
def errorLeft (err : GoError) : Outcome GoString Response :=
  match err with
  | .nrpc e => .ok ⟨[], some e⟩
  | .other _ | .unreadable => textResponse errUnknownCode err

/-- The response to a value left behind the after hooks. -/
def valueLeft (proto : Proto T M) : Value M O → Response
  | .nil => ⟨[], none⟩
  | .other _ => errorResponse errUnknownCode errWrongValueType
  | .message m =>
    if ¬ proto.reflects m then errorResponse errUnknownCode errWrongValueType
    else
      match proto.marshal m with
      | .ok b => ⟨b, none⟩
      | .error e => errorResponse errUnknownCode e

/-- What a `RemoteService` runs a remote with. -/
structure Runtime (C T M O : Type) where
  proto : Proto T M
  loggers : Loggers C M O
  hooks : RemoteHooks C M O

/-- The method between the hooks: what the after hooks leave. -/
def invoke (rt : Runtime C T M O) (remote : Remote T (Func C M O)) (ctx : C) (arg : Value M O) :
    Outcome GoString (Value M O × Option GoError) := do
  let (ret, err) ← pcall rt.loggers remote ctx arg
  return executeAfterPipeline rt.hooks.afterHandler ctx ret err

/-- The source's `handleRPC`, behind the lookup of the remote. -/
def handleRemote (rt : Runtime C T M O) (remote : Remote T (Func C M O)) (ctx : C)
    (payload : List UInt8) : Outcome GoString Response :=
  match remoteArg rt.proto remote payload with
  | .panic => .panic
  | .err e => .ok (errorResponse errBadRequestCode e)
  | .ok arg =>
    match executeBeforePipeline rt.hooks.beforeHandler ctx arg with
    | (_, _, some err) => textResponse errInternalCode err
    | (ctx, arg, none) => do
      let (ret, err) ← invoke rt remote ctx arg
      match err with
      | some err => errorLeft err
      | none => return valueLeft rt.proto ret

/-- The lookup of `processRemoteMessage` and `handleRPC`: the remote a
route leads to, or the response that says it leads to none. -/
def lookup {F : Type} (remotes : GoMap GoString (Remote T F)) (route : GoString) :
    Except Response (Remote T F) :=
  match decodeRoute route with
  | .error _ => .error (routeResponse errBadRequestCode (lit "cannot decode route") route)
  | .ok rt =>
    match remotes.get? rt.short with
    | none => .error (routeResponse errNotFoundCode (lit "route not found") rt.short)
    | some remote => .ok remote

/-- **The source's `processRemoteMessage`.** -/
def processRemoteMessage (rt : Runtime C T M O) (remotes : GoMap GoString (Remote T (Func C M O)))
    (ctx : C) (req : Request) : Outcome GoString Response :=
  match lookup remotes req.route with
  | .error resp => .ok resp
  | .ok remote => handleRemote rt remote ctx ((req.msg.map Msg.data).getD [])

/-- A request whose route leads to a remote is handled by it. -/
theorem processRemoteMessage_of_lookup {rt : Runtime C T M O}
    {remotes : GoMap GoString (Remote T (Func C M O))} {remote : Remote T (Func C M O)} {ctx : C}
    {req : Request} (h : lookup remotes req.route = .ok remote) :
    processRemoteMessage rt remotes ctx req =
      handleRemote rt remote ctx ((req.msg.map Msg.data).getD []) := by
  simp only [processRemoteMessage, h]

/-! ## The caller -/

/-- The end of `NatsRPCClient.Call`: an error in the response, with a code
put in for an empty one, is the error of the call. -/
def callResult (proto : Proto T M) (data : List UInt8) : Except GoError Response :=
  match proto.unmarshalResponse data with
  | .error e => .error (.other e)
  | .ok res =>
    match res.error with
    | none => .ok res
    | some e => .error (.nrpc { e with code := if e.code = [] then errUnknownCode else e.code })

/-- The data `RPC` sends for its argument. -/
def argData (proto : Proto T M) : Option M → Except GoString (List UInt8)
  | none => .ok []
  | some arg => proto.marshal arg

/-- The end of `RPC`: an error in the response that `Call` has let pass,
or the reply. -/
def replyOf (proto : Proto T M) (reply : T) (res : Response) : Except GoError M :=
  match res.error with
  | some e => .error (.nrpc e)
  | none =>
    match proto.unmarshal reply res.data with
    | .error e => .error (.other e)
    | .ok m => .ok m

/-- The request `buildRequest` makes of the route and the data. -/
def rpcRequest (route : Route) (metadata data : List UInt8) : Request :=
  ⟨some ⟨0, route.string, data, [], .msgRequest⟩, metadata⟩

/-- **The source's `RPC` with message type `Request`**, when the request
arrives and its answer does: the error it returns, or the reply it has
filled in. A panic is the remote's. -/
def rpc (env : Env) (rt : Runtime C T M O) (remotes : GoMap GoString (Remote T (Func C M O)))
    (ctx : C) (route : Route) (metadata : List UInt8) (reply : T) (arg : Option M) :
    Outcome GoError M :=
  match argData rt.proto arg with
  | .error e => .err (.other e)
  | .ok data =>
    match processRemoteMessage rt remotes ctx (rpcRequest route metadata data) with
    | .panic => .panic
    | .err e => .err (.other e)
    | .ok resp => .ofExcept do
      let res ← callResult rt.proto (marshalResponse env resp).1
      replyOf rt.proto reply res

end Service

end Nrpc
