import Nrpc.Common.GoMap
import Nrpc.Common.Machine
import Nrpc.Common.Outcome
import Nrpc.Common.Text
/-!
# The servers a node knows of

`etcdServiceDiscovery` keeps the servers it knows of in two maps, one by
id and one by type and id, and tells its listeners what it adds and
removes. Two paths feed the maps. The watcher handles the events of etcd
one by one; `SyncServers` lists the keys, loads the servers it does not
have and removes the ones that are not listed.

What the code does not fix is an argument: the answers of etcd, the order
in which parallel loads come back, the order a map is ranged over in.
-/

namespace Nrpc

namespace Discovery

/-- The source's `Server`. -/
structure Server where
  id : GoString
  type : GoString
  metadata : GoMap GoString GoString
  hostname : GoString
deriving DecidableEq

/-- What a node is configured with, and how a stored value is read. A
value can be read as no server at all (`null`). -/
structure Config where
  /-- The id of this node's own server. -/
  self : GoString
  serverTypesBlacklist : List GoString
  parseServer : List UInt8 → Except GoString (Option Server)

/-- What a listener is told. -/
inductive Action
  | add
  | del
deriving DecidableEq

/-- The two maps, and what the listeners were told so far. -/
structure Servers where
  byID : GoMap GoString Server
  byType : GoMap GoString (GoMap GoString Server)
  notified : List (Action × Server)

/-- A node that knows of no server. -/
def Servers.init : Servers := ⟨.empty, .empty, []⟩

/-! ## Adding and removing -/

/-- A server enters the map by type, in a map of its type made if needed. -/
def insertByType (byType : GoMap GoString (GoMap GoString Server)) (sv : Server) :
    GoMap GoString (GoMap GoString Server) :=
  byType.set sv.type (((byType.get? sv.type).getD .empty).set sv.id sv)

/-- A server leaves the map by type, if there is a map of its type. -/
def removeByType (byType : GoMap GoString (GoMap GoString Server)) (sv : Server) :
    GoMap GoString (GoMap GoString Server) :=
  match byType.get? sv.type with
  | some svMap => byType.set sv.type (svMap.del sv.id)
  | none => byType

/-- The source's `addServer`: a server is taken if its id is not there yet.
A nil server is dereferenced. -/
def addServer (cfg : Config) (s : Servers) : Option Server → Outcome GoString Servers
  | none => .panic
  | some sv =>
    if (s.byID.get? sv.id).isSome then .ok s
    else .ok
      { byID := s.byID.set sv.id sv
        byType := insertByType s.byType sv
        notified := if sv.id ≠ cfg.self then s.notified ++ [(.add, sv)] else s.notified }

/-- The source's `deleteServer`: by the fields of the stored server. -/
def deleteServer (s : Servers) (serverID : GoString) : Servers :=
  match s.byID.get? serverID with
  | none => s
  | some sv =>
    { byID := s.byID.del sv.id
      byType := removeByType s.byType sv
      notified := s.notified ++ [(.del, sv)] }

/-- The source's `deleteLocalInvalidServers`, ranging over the ids in the
order given. -/
def deleteLocalInvalidServers (s : Servers) (actualServers order : List GoString) : Servers :=
  order.foldl (fun s k => if k ∈ actualServers then s else deleteServer s k) s

/-! ## Keys -/

/-- The source's `getKey`. -/
def getKey (serverID serverType : GoString) : GoString :=
  lit "servers/" ++ serverType ++ lit "/" ++ serverID

/-- The source's `parseEtcdKey`: the type and the id of a key of three
parts. -/
def parseEtcdKey (key : GoString) : Except GoString (GoString × GoString) :=
  match key.splitOn 0x2F with
  | [_, svType, svID] => .ok (svType, svID)
  | _ => .error (lit "error parsing etcd key " ++ key ++ lit " (server name can\x27t contain /)")

/-- The type and the id of a key that is neither malformed nor of a
blacklisted type, the check both paths start with. This node's own server
is never left out. -/
def keptKey (cfg : Config) (key : GoString) : Option (GoString × GoString) :=
  match parseEtcdKey key with
  | .error _ => none
  | .ok (svType, svID) =>
    if svType ∈ cfg.serverTypesBlacklist ∧ svID ≠ cfg.self then none else some (svType, svID)

/-! ## The watcher -/

/-- An event of the watch. -/
inductive Event
  | put (key : GoString) (value : List UInt8)
  | delete (key : GoString)

/-- The body of the loop over the events of one response. -/
def handleEvent (cfg : Config) (s : Servers) : Event → Outcome GoString Servers
  | .put key value =>
    match keptKey cfg key with
    | none => .ok s
    | some _ =>
      match cfg.parseServer value with
      | .error _ => .ok s
      | .ok sv => addServer cfg s sv
  | .delete key =>
    match keptKey cfg key with
    | none => .ok s
    | some (_, svID) => .ok (deleteServer s svID)

/-- One response of the watch. -/
def handleEvents (cfg : Config) (s : Servers) (events : List Event) : Outcome GoString Servers :=
  events.foldlM (handleEvent cfg) s

/-! ## `SyncServers` -/

/-- What a sync is answered, and the orders left open: how the parallel
loads are collected, and how the map is ranged over. -/
structure SyncEnv where
  /-- The keys under `servers/`, with their values unless only keys were
  asked for, or the error of the query. -/
  listing : Except GoString (List (GoString × List UInt8))
  /-- A single key, its value if it is there, or the error of the query. -/
  get : GoString → Except GoString (Option (List UInt8))
  collect : List (Option Server) → List (Option Server)
  collect_perm : ∀ l, (collect l).Perm l
  range : GoMap GoString Server → List GoString
  range_ranges : ∀ m : GoMap GoString Server, m.Ranges (range m)

/-- The source's `getServerFromEtcd`. -/
def getServerFromEtcd (cfg : Config) (env : SyncEnv) (serverType serverID : GoString) :
    Except GoString (Option Server) :=
  match env.get (getKey serverID serverType) with
  | .error e => .error (lit "error getting server: " ++ getKey serverID serverType ++
      lit " from etcd, error: " ++ e)
  | .ok none =>
    .error (lit "didn\x27t found server: " ++ getKey serverID serverType ++ lit " in etcd")
  | .ok (some value) => cfg.parseServer value

/-- One load of the parallel getter: from the payload, or from etcd when
there is none. -/
def load (cfg : Config) (env : SyncEnv) (serverType serverID : GoString) (payload : List UInt8) :
    Except GoString (Option Server) :=
  if payload = [] then getServerFromEtcd cfg env serverType serverID
  else cfg.parseServer payload

/-- The servers the parallel getter loads for the listed keys: those whose
id is not there yet, less the ones that cannot be loaded. -/
def loads (cfg : Config) (env : SyncEnv) (firstSync : Bool) (s : Servers)
    (kvs : List (GoString × List UInt8)) : List (Option Server) :=
  kvs.filterMap fun (key, value) =>
    match keptKey cfg key with
    | none => none
    | some (svType, svID) =>
      if (s.byID.get? svID).isSome then none
      else (load cfg env svType svID (if firstSync then value else [])).toOption

/-- The source's `SyncServers` behind its handshake with the watcher. -/
def syncServers (cfg : Config) (env : SyncEnv) (firstSync : Bool) (s : Servers) :
    Outcome GoString Servers :=
  match env.listing with
  | .error e => .err e
  | .ok kvs => do
    let allIds := kvs.filterMap fun kv => (keptKey cfg kv.1).map Prod.snd
    let s ← (env.collect (loads cfg env firstSync s kvs)).foldlM (addServer cfg) s
    return deleteLocalInvalidServers s allIds (env.range s.byID)

/-! ## Reading -/

/-- The source's `GetServersByType`. -/
def getServersByType (s : Servers) (serverType : GoString) :
    Except GoString (GoMap GoString Server) :=
  match s.byType.get? serverType with
  | some m =>
    if 0 < m.keys.card then .ok m else .error (lit "no servers available of this type")
  | none => .error (lit "no servers available of this type")

/-- The source's `GetServers`, ranging over the ids in the order given. -/
def getServers (s : Servers) (order : List GoString) : List Server :=
  order.filterMap s.byID.get?

/-! ## Operations -/

/-- What can happen to the maps. -/
inductive Op
  | addServer (sv : Option Server)
  | deleteServer (serverID : GoString)
  | deleteLocalInvalidServers (actualServers order : List GoString)
  | syncServers (env : SyncEnv) (firstSync : Bool)
  | watch (events : List Event)

/-- The state an operation leaves; a failed sync leaves the maps alone and
a panic leaves none. -/
def settle (s : Servers) : Outcome GoString Servers → Option Servers
  | .ok s' => some s'
  | .err _ => some s
  | .panic => none

/-- The maps as a machine, each operation taken whole. -/
def discovery (cfg : Config) : Machine Servers Op where
  step := fun s op =>
    match op with
    | .addServer sv => settle s (addServer cfg s sv)
    | .deleteServer serverID => some (deleteServer s serverID)
    | .deleteLocalInvalidServers actualServers order =>
      some (deleteLocalInvalidServers s actualServers order)
    | .syncServers env firstSync => settle s (syncServers cfg env firstSync s)
    | .watch events => settle s (handleEvents cfg s events)

end Discovery

end Nrpc
