import Nrpc.Context.Model.Context
/-!
# Taking a request in

What `processMessages` does with a request before any handler sees it:
`GetContextFromRequest` rebuilds the caller's context from the metadata,
`parseRequestTimeout` reads the start time and the timeout out of it, and
an error of either is answered. Nothing recovers a panic of either.
-/

namespace Nrpc

namespace Server

open Context

/-! ## Messages -/

/-- `protos.MsgType`, an open enumeration. -/
inductive MsgType
  | msgNotify
  | msgRequest
  | msgResponse
  | unknown (n : ℤ)
deriving DecidableEq

/-- `protos.Msg`. -/
structure Msg where
  id : UInt64
  route : GoString
  data : List UInt8
  reply : GoString
  type : MsgType
deriving DecidableEq

/-- `protos.Request`. -/
structure Request where
  msg : Option Msg
  metadata : List UInt8
deriving DecidableEq

/-- `req.GetMsg().GetRoute()`, empty for a request without message. -/
def Request.route (req : Request) : GoString := (req.msg.map Msg.route).getD []

/-- `protos.Error`. -/
structure Error where
  code : GoString
  msg : GoString
  metadata : GoMap GoString GoString
deriving DecidableEq

/-- `protos.Response`. -/
structure Response where
  data : List UInt8
  error : Option Error
deriving DecidableEq

def errNoNatsConnectionString : GoString := lit "you have to provide a nats url"

def errUnknownCode : GoString := lit "PIT-000"
def errInternalCode : GoString := lit "PIT-500"
def errRequestTimeoutCode : GoString := lit "PIT-408"
def errTooManyRequestCode : GoString := lit "PIT-429"

/-- A response that is an error with a code and a text. -/
def errorResponse (code msg : GoString) : Response := ⟨[], some ⟨code, msg, .empty⟩⟩

/-! ## The steps -/

/-- The library functions the steps use: `encoding/json` and
`time.ParseDuration`, which gives nanoseconds or the text of its error. -/
structure Lib where
  json : Json
  parseDuration : GoString → Except GoString ℤ

/-- The request id of `GetContextFromRequest`: a string that is not empty
stays, anything else is replaced. -/
def ensureRequestID (h : Store) (ctx : Ctx) (nuid : GoString) : Outcome GoString (Ctx × Store) :=
  match getFromPropagateCtx h (some ctx) requestIDKey with
  | .string (_ :: _) => .ok (ctx, h)
  | _ => addToPropagateCtx h (some ctx) requestIDKey (.string nuid)

/-- The source's `GetContextFromRequest`; `nuid` is what `nuid.New().Next()`
gives. The logger it adds to the context touches no propagated value. -/
def getContextFromRequest (json : Json) (h : Store) (req : Request) (nuid : GoString) :
    Outcome GoString (Ctx × Store) := do
  let (ctx?, h) ← .ofExcept (decode json h req.metadata)
  match ctx? with
  | none => .err (lit "no context found")
  | some ctx =>
    let (ctx, h) ← ensureRequestID h ctx nuid
    addToPropagateCtx h (some ctx) routeKey (.string req.route)

/-- The timeout of `parseRequestTimeout`, in nanoseconds. The type
assertion to a string is unchecked. -/
def parseTimeout (lib : Lib) (h : Store) (ctx : Ctx) : Outcome GoString ℤ :=
  match getFromPropagateCtx h (some ctx) requestTimeout with
  | .nil => .err (lit "rpc server process lost timeout request")
  | .string d =>
    match lib.parseDuration d with
    | .error e => .err (lit "rpc server process invalid timeout request: " ++ e)
    | .ok timeout => .ok timeout
  | _ => .panic

/-- The source's `parseRequestTimeout`: the start time, in nanoseconds
since the epoch, and the timeout. -/
def parseRequestTimeout (lib : Lib) (h : Store) (ctx : Ctx) : Outcome GoString (ℤ × ℤ) :=
  match getFromPropagateCtx h (some ctx) startTimeKey with
  | .nil => .err (lit "rpc server process lost start time request")
  | .string s =>
    match parseInt64 s with
    | none => .err (lit "rpc server process invalid start time request")
    | some start => do return (start, ← parseTimeout lib h ctx)
  | _ => .panic

/-- How the loop of `processMessages` gets past the two steps. -/
inductive Intake
  /-- A context with its start time and timeout. -/
  | ready (ctx : Ctx) (h : Store) (start timeout : ℤ)
  /-- An error, answered at once. -/
  | reject (resp : Response)
  /-- A panic: the process ends. -/
  | crash

/-- **The two steps, and what `processMessages` makes of their errors.** -/
def intake (lib : Lib) (h : Store) (req : Request) (nuid : GoString) : Intake :=
  match getContextFromRequest lib.json h req nuid with
  | .panic => .crash
  | .err e => .reject (errorResponse errInternalCode e)
  | .ok (ctx, h) =>
    match parseRequestTimeout lib h ctx with
    | .panic => .crash
    | .err e => .reject (errorResponse errInternalCode e)
    | .ok (start, timeout) => .ready ctx h start timeout

end Server

end Nrpc
