import Mathlib.Data.Nat.Notation
import Mathlib.Logic.Function.Basic
import Nrpc.Common.Machine
/-!
# How a sync holds the watcher up

`SyncServers` sends true on the unbuffered channel `syncServersRunning`
before its work and false behind it. The watcher receives from the channel
in its select, next to the responses of the watch; having received true it
receives on until it gets false. A send and the receive it meets are one
step. Any number of calls may be under way: the ticker's, and one for each
lease that is renewed.
-/

namespace Nrpc

namespace Discovery

namespace Handshake

/-- Where the watcher's goroutine stands. -/
inductive WatcherPc
  /-- In the select. -/
  | selecting
  /-- Behind a received true, receiving until it is false. -/
  | paused
  /-- In the loop over the events of a response, with so many left. -/
  | handling (left : ℕ)
  /-- The watch died, waiting to look at it again. -/
  | retrying
  | stopped
deriving DecidableEq

/-- Where a call of `SyncServers` stands. -/
inductive SyncPc
  | idle
  /-- The send of true has not been received yet. -/
  | sendingTrue
  /-- Between the two sends. -/
  | working
  /-- The send of false has not been received yet. -/
  | sendingFalse
deriving DecidableEq

/-- The watcher and the calls. -/
structure State where
  watcher : WatcherPc
  sync : ℕ → SyncPc
  /-- The field `running`. -/
  running : Bool
  /-- `stopChan` is closed. -/
  stopped : Bool

/-- The state `Init` starts the watcher in. -/
def State.init : State := ⟨.selecting, fun _ => .idle, true, false⟩

/-- The head of the watcher's loop. -/
def State.loop (s : State) : State :=
  { s with watcher := if s.running then .selecting else .stopped }

/-- A call moves on. -/
def State.move (s : State) (i : ℕ) (pc : SyncPc) : State :=
  { s with sync := Function.update s.sync i pc }

/-- The watcher receives from `syncServersRunning`, in its select or while
it is paused. -/
def State.receive (s : State) (syncServersState : Bool) : State :=
  if syncServersState then { s with watcher := .paused } else s.loop

inductive Action
  /-- `SyncServers` is called. -/
  | call (i : ℕ)
  /-- A call's send meets the watcher's receive. -/
  | handshake (i : ℕ)
  /-- A call is done with its work, by whatever return. -/
  | finish (i : ℕ)
  /-- The select takes a response of the watch with so many events. -/
  | response (events : ℕ)
  /-- One event is handled. -/
  | event
  /-- The loop over the events ends. -/
  | handled
  /-- The select finds the watch closed. -/
  | died
  | retried
  /-- `Shutdown`. -/
  | shutdown
  /-- The select takes `stopChan`. -/
  | stop
deriving DecidableEq

/-- **One step.** -/
def step (s : State) : Action → Option State
  | .call i => if s.sync i = .idle then some (s.move i .sendingTrue) else none
  | .handshake i =>
    if s.watcher = .selecting ∨ s.watcher = .paused then
      match s.sync i with
      | .sendingTrue => some ((s.move i .working).receive true)
      | .sendingFalse => some ((s.move i .idle).receive false)
      | _ => none
    else none
  | .finish i => if s.sync i = .working then some (s.move i .sendingFalse) else none
  | .response events =>
    if s.watcher = .selecting then some { s with watcher := .handling events } else none
  | .event =>
    match s.watcher with
    | .handling (left + 1) => some { s with watcher := .handling left }
    | _ => none
  | .handled => if s.watcher = .handling 0 then some s.loop else none
  | .died => if s.watcher = .selecting then some { s with watcher := .retrying } else none
  | .retried => if s.watcher = .retrying then some s.loop else none
  | .shutdown => if s.stopped then none else some { s with running := false, stopped := true }
  | .stop =>
    if s.watcher = .selecting ∧ s.stopped then some { s with watcher := .stopped } else none

/-- The watcher and the calls as a machine. -/
def machine : Machine State Action := ⟨step⟩

end Handshake

end Discovery

end Nrpc
