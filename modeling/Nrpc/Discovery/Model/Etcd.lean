import Nrpc.Discovery.Model.Servers
/-!
# Histories of etcd

What the watcher and a sync are answered by one etcd whose keys are
written one after the other. A write to a key is an event of the watch;
so is the deletion of a key that is there. A listing shows the keys and
values that are there at its time, in some order.
-/

namespace Nrpc

namespace Discovery

/-- A write to etcd. -/
inductive Write
  | put (key : GoString) (value : List UInt8)
  | delete (key : GoString)

/-- The keys and values of etcd. -/
abbrev Contents := GoMap GoString (List UInt8)

/-- What a write leaves. -/
def Write.apply (kv : Contents) : Write → Contents
  | .put key value => kv.set key value
  | .delete key => kv.del key

/-- The events of a write. Deleting an absent key is none. -/
def Write.events (kv : Contents) : Write → List Event
  | .put key value => [.put key value]
  | .delete key => if (kv.get? key).isSome then [.delete key] else []

/-- The events of a history, from given contents. -/
def eventsFrom (kv : Contents) : List Write → List Event
  | [] => []
  | w :: hist => w.events kv ++ eventsFrom (w.apply kv) hist

/-- The contents a history leaves. -/
def contents (hist : List Write) : Contents := hist.foldl Write.apply .empty

/-- An entry under `servers/`, which a query with that beginning lists. -/
def Listed (kv : Contents) (key : GoString) (value : List UInt8) : Prop :=
  kv.get? key = some value ∧ ∃ rest, key = lit "servers/" ++ rest

/-- **A sync is answered from contents that do not change meanwhile**: the
query lists what is under `servers/`, without the values unless it is the
first sync, and a single key is answered with its value. -/
structure SyncEnv.Answers (env : SyncEnv) (firstSync : Bool) (kv : Contents) : Prop where
  listing : ∃ kvs, env.listing = .ok kvs ∧ (kvs.map Prod.fst).Nodup ∧
    ∀ key payload, (key, payload) ∈ kvs ↔
      ∃ value, Listed kv key value ∧ payload = if firstSync then value else []
  get : ∀ key, env.get key = .ok (kv.get? key)

/-- **The watcher's view** of a history: all its events in order, from empty
maps. -/
def watched (cfg : Config) (hist : List Write) : Outcome GoString Servers :=
  handleEvents cfg .init (eventsFrom .empty hist)

/-- **The sync's view**: `SyncServers(true)` from empty maps. -/
def synced (cfg : Config) (env : SyncEnv) : Outcome GoString Servers :=
  syncServers cfg env true .init

/-- A history of registrations: each value written is the record of a
server, under that server's key, and an id is written under one type
only. -/
structure Registrations (cfg : Config) (hist : List Write) : Prop where
  reads : ∀ key value, .put key value ∈ hist →
    ∃ sv, cfg.parseServer value = .ok (some sv) ∧ key = getKey sv.id sv.type
  unique : ∀ key value key' value' sv sv', .put key value ∈ hist → .put key' value' ∈ hist →
    cfg.parseServer value = .ok (some sv) → cfg.parseServer value' = .ok (some sv') →
    sv.id = sv'.id → sv.type = sv'.type

end Discovery

end Nrpc
