import Mathlib.Data.Int.Notation
import Mathlib.Data.Nat.Notation
import Nrpc.Common.Machine
/-!
# Who keeps the lease alive

`Init` grants a lease and puts the server under it; the grant starts a
goroutine that watches the lease's channel. When the channel dies, the
watcher itself grants a new lease and puts the server again, as often as it
has to, and returns once both have succeeded: the watcher of the new lease
has been started by the grant. `leaseID` is one field for all of them, read
by `KeepAlive` and by `Put`.

Each operation of etcd is one step, with what it comes back with left
open. A renewal runs in a goroutine of its own, and its watcher waits for
it; a watcher that stops waiting leaves the renewal behind.
-/

namespace Nrpc

namespace Discovery

namespace Lease

/-- Where a call of `grantLease`, and of `bootstrapServer` behind it,
stands. -/
inductive Stage
  /-- In `Grant`. -/
  | grant
  /-- The lease is in `leaseID`, which is read for `KeepAlive` next. -/
  | granted
  /-- In `KeepAlive` for a lease. -/
  | keepAlive (lease : ℕ)
  /-- Receiving once from the channel of a lease. -/
  | receive (lease : ℕ)
  /-- The lease has its watcher, and the server is put under `leaseID`. -/
  | put
  /-- In `SyncServers`, whose error is not looked at. -/
  | sync
deriving DecidableEq

/-- What the call of a stage comes back with. -/
inductive Reply
  | granted (lease : ℕ)
  | ok
  | failed
deriving DecidableEq

/-- How far a call has got. -/
inductive Progress
  | running (stage : Stage)
  /-- It has returned, with nil or with an error. -/
  | returned (ok : Bool)
deriving DecidableEq

/-- What a stage leaves behind. -/
structure Effect where
  leaseID : ℕ
  /-- The lease a watcher is started for. -/
  watched : Option ℕ
  progress : Progress

/-- **The source's `grantLease` and `bootstrapServer`**, one stage at a
time. The read of `leaseID` finds what stands there by then; the receive
goes on with whatever comes, a response or the channel closed. -/
def advance (leaseID : ℕ) : Stage → Reply → Option Effect
  | .grant, .granted lease => some ⟨lease, none, .running .granted⟩
  | .grant, .failed => some ⟨leaseID, none, .returned false⟩
  | .granted, .ok => some ⟨leaseID, none, .running (.keepAlive leaseID)⟩
  | .keepAlive lease, .ok => some ⟨leaseID, none, .running (.receive lease)⟩
  | .keepAlive _, .failed => some ⟨leaseID, none, .returned false⟩
  | .receive lease, .ok => some ⟨leaseID, some lease, .running .put⟩
  | .put, .ok => some ⟨leaseID, none, .running .sync⟩
  | .put, .failed => some ⟨leaseID, none, .returned false⟩
  | .sync, .ok => some ⟨leaseID, none, .returned true⟩
  | _, _ => none

/-- Where a watcher stands. -/
inductive Place
  /-- In the select, on the channel of a lease. -/
  | watching (lease : ℕ)
  /-- The channel is closed, and the watcher sleeps before it renews. -/
  | died (lease : ℕ)
  /-- In its retry loop, waiting for a renewal. -/
  | renewing (stage : Stage)
  /-- In its retry loop, between two renewals. -/
  | sleeping
  /-- In its retry loop, with `appDieChan` to send on. -/
  | dying
  | returned
deriving DecidableEq

/-- A goroutine in `watchLeaseChan`. -/
structure Watcher where
  place : Place
  failedGrantLeaseAttempts : ℕ
deriving DecidableEq

/-- The goroutine `grantLease` starts. -/
def Watcher.start (lease : ℕ) : Watcher := ⟨.watching lease, 0⟩

/-- What a watcher does by itself. -/
inductive Own
  /-- A keep-alive response. -/
  | response
  /-- A nil response. -/
  | nothing
  /-- The channel is closed. -/
  | closed
  /-- A sleep ends. -/
  | wake
  /-- `appDieChan` is received from, or there is none. -/
  | dead
  /-- The select takes a stop channel. -/
  | leave
deriving DecidableEq

/-- A watcher outside of its renewals. -/
def Watcher.own (stopped : Bool) (w : Watcher) : Own → Option Watcher
  | .response =>
    match w.place with
    | .watching lease => some ⟨.watching lease, 0⟩
    | _ => none
  | .nothing =>
    match w.place with
    | .watching _ => some { w with place := .renewing .grant }
    | _ => none
  | .closed =>
    match w.place with
    | .watching lease => some { w with place := .died lease }
    | _ => none
  | .wake =>
    match w.place with
    | .died _ | .sleeping => some { w with place := .renewing .grant }
    | _ => none
  | .dead => if w.place = .dying then some { w with place := .returned } else none
  | .leave =>
    match w.place with
    | .watching _ => if stopped then some { w with place := .returned } else none
    | _ => none

/-- The retry loop behind `renewLease`: an error is counted, and the loop
goes on unless there were too many. -/
def Watcher.after (grantLeaseMaxRetries : ℤ) (w : Watcher) : Progress → Watcher
  | .running stage => { w with place := .renewing stage }
  | .returned true => { w with place := .returned }
  | .returned false =>
    { place := if grantLeaseMaxRetries ≤ (w.failedGrantLeaseAttempts + 1 : ℕ) then .dying
        else .sleeping
      failedGrantLeaseAttempts := w.failedGrantLeaseAttempts + 1 }

/-- The field `leaseID`, and everyone at work on it. -/
structure State where
  leaseID : ℕ
  /-- The call in `Init`. -/
  init : Progress
  watchers : List Watcher
  /-- The renewals whose watcher has stopped waiting. -/
  detached : List Stage
  /-- A stop channel is closed. -/
  stopped : Bool
deriving DecidableEq

/-- `Init` has called `bootstrap`. -/
def State.start : State := ⟨0, .running .grant, [], [], false⟩

/-- Whose call of `grantLease` and `bootstrapServer`. -/
inductive Owner
  | init
  | watcher (i : ℕ)
  | detached (j : ℕ)
deriving DecidableEq

inductive Action
  /-- A stage of a call ends. -/
  | reply (owner : Owner) (r : Reply)
  | own (i : ℕ) (a : Own)
  /-- `renewLease` returns `ErrEtcdGrantLeaseTimeout`. -/
  | timeout (i : ℕ)
  /-- A stop channel is closed. -/
  | close
deriving DecidableEq

/-- **One step.** -/
def step (grantLeaseMaxRetries : ℤ) (s : State) : Action → Option State
  | .reply .init r =>
    match s.init with
    | .running stage => (advance s.leaseID stage r).map fun e =>
      { s with
        leaseID := e.leaseID
        init := e.progress
        watchers := s.watchers ++ e.watched.toList.map .start }
    | .returned _ => none
  | .reply (.watcher i) r =>
    match s.watchers[i]? with
    | some w =>
      match w.place with
      | .renewing stage => (advance s.leaseID stage r).map fun e =>
        { s with
          leaseID := e.leaseID
          watchers := s.watchers.set i (w.after grantLeaseMaxRetries e.progress) ++
            e.watched.toList.map .start }
      | _ => none
    | none => none
  | .reply (.detached j) r =>
    match s.detached[j]? with
    | some stage => (advance s.leaseID stage r).map fun e =>
      { s with
        leaseID := e.leaseID
        watchers := s.watchers ++ e.watched.toList.map .start
        detached :=
          match e.progress with
          | .running stage => s.detached.set j stage
          | .returned _ => s.detached.eraseIdx j }
    | none => none
  | .own i a =>
    match s.watchers[i]? with
    | some w => (w.own s.stopped a).map fun w' => { s with watchers := s.watchers.set i w' }
    | none => none
  | .timeout i =>
    match s.watchers[i]? with
    | some w =>
      match w.place with
      | .renewing stage => some
        { s with
          watchers := s.watchers.set i ⟨.dying, w.failedGrantLeaseAttempts + 1⟩
          detached := s.detached ++ [stage] }
      | _ => none
    | none => none
  | .close => some { s with stopped := true }

/-- The lease's goroutines as a machine. -/
def machine (grantLeaseMaxRetries : ℤ) : Machine State Action := ⟨step grantLeaseMaxRetries⟩

end Lease

end Discovery

end Nrpc
