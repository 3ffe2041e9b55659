import Nrpc.Discovery.Model.Etcd
/-!
# A node, its watch, and etcd

etcd is written to by other nodes while this one watches it. A watch that is
alive delivers the events under `servers/` of the writes since it was made,
in order and in responses of any size, at some time; `watchEtcdChanges`
handles a response at a time. A watch that has died delivers nothing any more: the receive from
its channel fails at once, every time, and at the eleventh failure the
client is made anew and with it the watch, unless the client cannot be made.
What was written in between is in no watch.

Next to the watch `SyncServers` is called, by the ticker and for a renewed
lease. The watch is made before the first call, which has to be received by
the watcher. A call holds the watcher up until it is done, unless another
call overlaps with it; here no two calls overlap, so a sync is one step, as
is the handling of a response. One step is also one instant of etcd: a sync
asks for the keys first and for the records it lacks after that, and what is
written between its queries is left out, so that all it is answered is of
one moment. A response with an error has no events.
-/

namespace Nrpc

namespace Discovery

namespace Watch

/-- The key an event is about. -/
def key : Event → GoString
  | .put key _ => key
  | .delete key => key

/-- The events a watch of `servers/` is sent. -/
def delivered (events : List Event) : List Event :=
  events.filter fun ev => (lit "servers/").isPrefixOf (key ev)

/-- etcd and the node. -/
structure State where
  kv : Contents
  /-- What the channel of the watch has still to deliver, unless the watch
  has died. -/
  chn : Option (List Event)
  failedWatchAttempts : ℕ
  servers : Servers

/-- The node has made its first watch. -/
def State.init (kv : Contents) : State := ⟨kv, some [], 0, .init⟩

inductive Action
  /-- Somebody writes to etcd. -/
  | write (w : Write)
  /-- A response with the next so many events. -/
  | response (events : ℕ)
  /-- The watch dies. -/
  | died
  /-- The select finds the channel closed; whether `InitETCDClient`, should
  it be called, succeeds. -/
  | closed (initialized : Bool)
  | sync (env : SyncEnv) (firstSync : Bool)

/-- The branch of the select for a closed channel. -/
def State.retry (s : State) (initialized : Bool) : State :=
  if s.failedWatchAttempts + 1 > 10 then
    if initialized then { s with chn := some [], failedWatchAttempts := 0 }
    else { s with failedWatchAttempts := 0 }
  else { s with failedWatchAttempts := s.failedWatchAttempts + 1 }

/-- **One step.** A panic ends the process, and there is no next state. -/
def step (cfg : Config) (s : State) : Action → Option State
  | .write w =>
    some { s with kv := w.apply s.kv, chn := s.chn.map (· ++ delivered (w.events s.kv)) }
  | .response n =>
    match s.chn with
    | none => none
    | some events =>
      match handleEvents cfg s.servers (events.take n) with
      | .ok servers =>
        some { s with chn := some (events.drop n), failedWatchAttempts := 0, servers := servers }
      | _ => none
  | .died => if s.chn.isSome then some { s with chn := none } else none
  | .closed initialized => if s.chn.isSome then none else some (s.retry initialized)
  | .sync env firstSync =>
    (settle s.servers (syncServers cfg env firstSync s.servers)).map fun servers =>
      { s with servers := servers }

/-- The node as a machine. -/
def machine (cfg : Config) : Machine State Action := ⟨step cfg⟩

end Watch

end Discovery

end Nrpc
