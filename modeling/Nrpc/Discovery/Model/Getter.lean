import Nrpc.Common.FanOut
import Nrpc.Discovery.Model.Servers
/-!
# The parallel getter

`SyncServers` with the goroutines of its `parallelGetter`: the loop over
the listed keys hands each load it needs to one of the workers, and behind
the wait the loaded servers are added in the order in which the workers
appended them. The goroutines are a fan-out, and what they leave open is
the list of their steps.
-/

namespace Nrpc

namespace Discovery

/-- The source's `parallelGetterWork`; a payload that is nil is empty. -/
structure Work where
  serverType : GoString
  serverID : GoString
  payload : List UInt8

/-- The number of workers `newParallelGetter` starts. -/
def numWorkers (syncServersParallelism : ℤ) : ℕ :=
  if syncServersParallelism ≤ 0 then 10 else syncServersParallelism.toNat

/-- What a worker appends for a work; an error is logged and nothing is
appended. -/
def Work.load (cfg : Config) (env : SyncEnv) (w : Work) : Option (Option Server) :=
  (Discovery.load cfg env w.serverType w.serverID w.payload).toOption

/-- The works the loop of `SyncServers` hands out, by `addWorkWithPayload`
in a first sync and by `addWork` in the others. -/
def works (cfg : Config) (firstSync : Bool) (s : Servers) (kvs : List (GoString × List UInt8)) :
    List Work :=
  kvs.filterMap fun (key, value) =>
    match keptKey cfg key with
    | none => none
    | some (svType, svID) =>
      if (s.byID.get? svID).isSome then none
      else some ⟨svType, svID, if firstSync then value else []⟩

/-- The source's `SyncServers` with as many workers as configured, whose
steps and those of the loop are taken as scheduled. There is no result as
long as the loop is not past its wait. -/
def syncServersBy (cfg : Config) (env : SyncEnv) (syncServersParallelism : ℤ)
    (schedule : List FanOut.Action) (firstSync : Bool) (s : Servers) :
    Option (Outcome GoString Servers) :=
  match env.listing with
  | .error e => some (.err e)
  | .ok kvs =>
    let getter : FanOut.State Work (Option Server) :=
      .init (numWorkers syncServersParallelism) (works cfg firstSync s kvs)
    match (FanOut.fanOut (Work.load cfg env)).run getter schedule with
    | none => none
    | some getter =>
      match getter.producer with
      | .finished => some do
        let allIds := kvs.filterMap fun kv => (keptKey cfg kv.1).map Prod.snd
        let s ← getter.result.foldlM (addServer cfg) s
        return deleteLocalInvalidServers s allIds (env.range s.byID)
      | _ => none

end Discovery

end Nrpc
