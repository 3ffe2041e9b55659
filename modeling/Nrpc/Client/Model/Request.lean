import Nrpc.Client.Model.Call
import Nrpc.Server.Model.Request
/-!
# What a call sends, and how long it waits

`configure` gives a client its request timeout. A call of message type
`Request` keeps the timeout it finds in its context, or the client's, in a
local variable while it stamps the context, encodes the context into the
metadata of the request, and waits on `conn.Request` for as long as the
variable says. The request is taken to be marshalled and to arrive.
-/

namespace Nrpc

namespace Client

open Context Server

/-! ## The client -/

def errNatsNoRequestTimeout : GoString :=
  lit "nrpc.cluster.rpc.client.nats.requesttimeout cant be empty"

def errRPCClientNotInitialized : GoString := lit "RPC client is not running"

/-- The fields of `config.NatsRPCClientConfig` that `configure` checks. A
`time.Duration` is an `int64` of nanoseconds. -/
structure NatsRPCClientConfig where
  connect : GoString
  requestTimeout : Int64

/-- The fields of a client that `configure` sets from them. -/
structure NatsRPCClient where
  connString : GoString
  reqTimeout : Int64
deriving DecidableEq

/-- The source's `configure`. -/
def configure (config : NatsRPCClientConfig) : Except GoString NatsRPCClient :=
  if config.connect = [] then .error errNoNatsConnectionString
  else if config.requestTimeout = 0 then .error errNatsNoRequestTimeout
  else .ok ⟨config.connect, config.requestTimeout⟩

/-! ## The call -/

/-- The variable `reqTimeout` of `Call`, read behind the first two stamps. -/
def reqTimeoutOf (h : Store) (ctx : Ctx) (env : CallEnv) : Outcome GoString GoValue := do
  let (p, h) := toMap h (some ctx)
  let h ← assign h p routeKey (.string env.route)
  let h ← stampRequestID h ctx p env
  match getFromPropagateCtx h (some ctx) requestTimeout with
  | .nil => return .string env.reqTimeout
  | v => return v

/-- The timeout of `conn.Request`, in nanoseconds. The assertion to a
string is unchecked, and an error of the parser leaves zero. -/
def waitTime (lib : Lib) : GoValue → Outcome GoString ℤ
  | .string s =>
    match lib.parseDuration s with
    | .ok timeout => .ok timeout
    | .error _ => .ok 0
  | _ => .panic

/-- What a call has in hand when it calls `conn.Request`. -/
structure Sent where
  request : Request
  timeout : ℤ
  /-- The rebuilt context. -/
  ctx : Ctx
  heap : Store

/-- **`Call` with message type `Request`, up to `conn.Request`.** -/
def sendRequest (lib : Lib) (h : Store) (ctx : Ctx) (env : CallEnv) (data : List UInt8) :
    Outcome GoString Sent :=
  if ¬ env.running then .err errRPCClientNotInitialized
  else do
    let reqTimeout ← reqTimeoutOf h ctx env
    let (ctx, h) ← stampCall h ctx env
    let (reqCtx, h) ← buildRequest h ctx env
    let metadata ← .ofExcept (encode lib.json h (some reqCtx))
    let timeout ← waitTime lib reqTimeout
    return ⟨⟨some ⟨0, env.route, data, [], .msgRequest⟩, metadata⟩, timeout, ctx, h⟩

/-- **`Call` with message type `Notify`, up to `conn.Publish`.** The context
is stamped like that of a request; nothing is waited for. -/
def sendNotify (lib : Lib) (h : Store) (ctx : Ctx) (env : CallEnv) (data : List UInt8) :
    Outcome GoString Request :=
  if ¬ env.running then .err errRPCClientNotInitialized
  else do
    let (ctx, h) ← stampCall h ctx env
    let (reqCtx, h) ← buildRequest h ctx env
    let metadata ← .ofExcept (encode lib.json h (some reqCtx))
    return ⟨some ⟨0, env.route, data, [], .msgNotify⟩, metadata⟩

end Client

end Nrpc
