import Nrpc.Discovery.Model.Servers
import Nrpc.Errors.Model.Errors
import Nrpc.Messages.Model.Message
import Nrpc.Service.Model.Remote
/-!
# From `App.RPC` to the server it is sent to

`doSendRPC` checks the call and the route, `RemoteService.RPC` marshals the
argument, and `remoteCall` asks the router for a server of the route's type
when none is named. The router has a routing function for some types and
picks any server for the others. What `rpcClient.Call` is called with is
where the functions here end.
-/

namespace Nrpc

namespace Routing

open Discovery Service Errors

variable {C T M : Type}

def errServiceDiscoveryNotInitialized : Err :=
  .plain (lit "service discovery client is not initialized")
def errServerNotFound : Err := .plain (lit "server not found")
def errRPCServerNotInitialized : Err := .plain (lit "RPC server is not running")
def errReplyShouldBePtr : Err := .plain (lit "reply must be a pointer")
def errNoServerTypeChosenForRPC : Err :=
  .plain (lit ("no server type chosen for sending RPC, send a full route in the format " ++
    "server.service.component"))
def errNonsenseRPC : Err :=
  .plain (lit ("you are making a rpc that may be processed locally, either specify a different " ++
    "server type or specify a server id"))

/-! ## The router -/

/-- What is left to chance: the order a map is ranged over in, and `Intn`. -/
structure Chance where
  range : GoMap GoString Discovery.Server → List GoString
  range_ranges : ∀ m : GoMap GoString Discovery.Server, m.Ranges (range m)
  intn : ℕ → ℕ
  intn_lt : ∀ n, 0 < n → intn n < n

/-- The source's `RoutingFunc`: a server, which may be nil, or an error. -/
abbrev RoutingFunc (C : Type) :=
  C → Route → List UInt8 → GoMap GoString Discovery.Server →
    Outcome Err (C × Option Discovery.Server)

/-- The source's `Router`. -/
structure Router (C : Type) where
  serviceDiscovery : Option Servers
  routesMap : GoMap GoString (RoutingFunc C)

/-- The source's `defaultRoute`. `Intn` panics when there is nothing to
choose from. -/
def defaultRoute (ch : Chance) (servers : GoMap GoString Discovery.Server) :
    Outcome Err Discovery.Server :=
  let srvList := (ch.range servers).filterMap servers.get?
  if srvList.length = 0 then .panic else .index srvList (ch.intn srvList.length)

/-- The source's `Route`. -/
def Router.route (r : Router C) (ch : Chance) (ctx : C) (svType : GoString) (route : Route)
    (msg : Messages.Message) : Outcome Err (C × Option Discovery.Server) :=
  match r.serviceDiscovery with
  | none => .err errServiceDiscoveryNotInitialized
  | some sd =>
    match getServersByType sd svType with
    | .error e => .err (.plain e)
    | .ok serversOfType =>
      match r.routesMap.get? svType with
      | none => do
        let server ← defaultRoute ch serversOfType
        return (ctx, some server)
      | some routeFunc => routeFunc ctx route msg.data serversOfType

/-! ## The remote service -/

/-- What the remote service sends with. -/
structure RemoteService (C : Type) where
  serviceDiscovery : Option Servers
  router : Router C

/-- What `rpcClient.Call` is called with. -/
structure ClientCall (C : Type) where
  ctx : C
  route : Route
  msg : Messages.Message
  target : Option Discovery.Server

/-- The source's `remoteCall`. -/
def remoteCall (r : RemoteService C) (ch : Chance) (ctx : C) (server : Option Discovery.Server)
    (route : Route) (msg : Messages.Message) : Outcome Err (ClientCall C) :=
  match server with
  | some target => .ok ⟨ctx, route, msg, some target⟩
  | none =>
    match r.router.route ch ctx route.svType route msg with
    | .ok (ctx, target) => .ok ⟨ctx, route, msg, target⟩
    | .err e => .err (.nrpc (newError e Server.errInternalCode none))
    | .panic => .panic

/-- The source's `DoRPC`; a service discovery that is nil is dereferenced. -/
def doRPC (r : RemoteService C) (ch : Chance) (ctx : C) (serverID : GoString) (mt : UInt8)
    (route : Route) (protoData : List UInt8) : Outcome Err (ClientCall C) :=
  let msg : Messages.Message := ⟨mt, 0, route.short, protoData, false, false⟩
  if serverID = [] then remoteCall r ch ctx none route msg
  else
    match r.serviceDiscovery with
    | none => .panic
    | some sd =>
      match sd.byID.get? serverID with
      | none => .err errServerNotFound
      | some target => remoteCall r ch ctx (some target) route msg

/-- The source's `RemoteService.RPC`. -/
def remoteRPC (r : RemoteService C) (proto : Proto T M) (ch : Chance) (ctx : C)
    (serverID : GoString) (mt : UInt8) (route : Route) (arg : Option M) :
    Outcome Err (ClientCall C) :=
  match argData proto arg with
  | .error e => .err (.plain e)
  | .ok data => doRPC r ch ctx serverID mt route data

/-! ## The application -/

/-- What the application sends with. -/
structure App (C : Type) where
  /-- The RPC server is not nil. -/
  rpcServer : Bool
  server : Discovery.Server
  remoteService : RemoteService C

/-- The source's `doSendRPC`; the reply is given by its type, if it is not
nil. -/
def doSendRPC (app : App C) (proto : Proto T M) (ch : Chance) (ctx : C)
    (serverID routeStr : GoString) (mt : UInt8) (reply : Option (Ty T)) (arg : Option M) :
    Outcome Err (ClientCall C) :=
  if ¬ app.rpcServer then .err errRPCServerNotInitialized
  else if mt = Messages.request ∧ ¬ (reply.map Ty.ptr).getD false then .err errReplyShouldBePtr
  else
    match decodeRoute routeStr with
    | .error e => .err (.plain e)
    | .ok r =>
      if r.svType = [] then .err errNoServerTypeChosenForRPC
      else if (r.svType = app.server.type ∧ serverID = []) ∨ serverID = app.server.id then
        .err errNonsenseRPC
      else remoteRPC app.remoteService proto ch ctx serverID mt r arg

/-- The source's `RPC`. -/
def App.rpc (app : App C) (proto : Proto T M) (ch : Chance) (ctx : C) (routeStr : GoString)
    (reply : Option (Ty T)) (arg : Option M) : Outcome Err (ClientCall C) :=
  doSendRPC app proto ch ctx [] routeStr Messages.request reply arg

/-- The source's `Notify`. -/
def App.notify (app : App C) (proto : Proto T M) (ch : Chance) (ctx : C) (routeStr : GoString)
    (arg : Option M) : Outcome Err (ClientCall C) :=
  doSendRPC app proto ch ctx [] routeStr Messages.notify none arg

/-- The source's `RPCTo`. -/
def App.rpcTo (app : App C) (proto : Proto T M) (ch : Chance) (ctx : C)
    (serverID routeStr : GoString) (reply : Option (Ty T)) (arg : Option M) :
    Outcome Err (ClientCall C) :=
  doSendRPC app proto ch ctx serverID routeStr Messages.request reply arg

/-- The source's `NotifyTo`. -/
def App.notifyTo (app : App C) (proto : Proto T M) (ch : Chance) (ctx : C)
    (serverID routeStr : GoString) (arg : Option M) : Outcome Err (ClientCall C) :=
  doSendRPC app proto ch ctx serverID routeStr Messages.notify none arg

end Routing

end Nrpc
