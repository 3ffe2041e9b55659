import Mathlib.Data.Int.Notation
import Nrpc.Common.Machine
/-!
# Who ends the app

`dieChan` is an unbuffered channel that four kinds of parties share. `Start`
waits in a select for it and for a signal, and closes it on a signal.
`Shutdown` closes it unless it can receive from it. A lease watcher that
gives up sends on it, and so does the handler of a NATS connection that was
closed with an error, unless nobody receives.

A send and the receive it meets are one step. A send blocks until there is
a receiver; a send that stands in a select with a default does not, and
nor does the receive of `Shutdown`, so these two never meet. A party that
stands before its send or its select need not have reached it yet: on an
open channel a default may be taken whoever else is there. Closing a closed
channel and sending on one end the program, and so does a signal that
arrives before `Start` has asked for signals.
-/

namespace Nrpc

namespace App

/-- What the parties are configured with. -/
structure Config where
  grantLeaseMaxRetries : ℤ

/-! ## State -/

/-- Where `Start` stands. -/
inductive StartPc
  /-- The components and modules are being started. -/
  | starting
  /-- In the select. -/
  | selecting
  /-- A signal was taken, the close comes next. -/
  | closing
  /-- The modules are being shut down. -/
  | stopping
  | stopped
deriving DecidableEq

/-- Where the caller of `Shutdown` stands. -/
inductive ShutdownPc
  | idle
  /-- In the select. -/
  | checking
  /-- In the default branch, the close comes next. -/
  | closing
deriving DecidableEq

/-- Where a goroutine of `watchLeaseChan` stands, with its failed attempts
so far. -/
inductive LeasePc
  | watching (failedGrantLeaseAttempts : ℕ)
  | renewing (failedGrantLeaseAttempts : ℕ)
  /-- It has given up, the send comes next. -/
  | sending
  | returned
deriving DecidableEq

/-- Where a call of the closed handler stands. -/
inductive HandlerPc
  /-- The last error is not nil, the select comes next. -/
  | selecting
  | returned
deriving DecidableEq

/-- How the program ended. -/
inductive Ending
  | closeOfClosedChannel
  | sendOnClosedChannel
  /-- By the default action of a signal. -/
  | killed
deriving DecidableEq

/-- The die channel and the parties around it. -/
structure State where
  /-- `dieChan` is closed. -/
  closed : Bool
  start : StartPc
  /-- A signal is in the buffer of `sg`. -/
  sg : Bool
  shutdown : ShutdownPc
  leases : List LeasePc
  handlers : List HandlerPc
  /-- The service discovery has closed its stop channels. -/
  stopChan : Bool
  ended : Option Ending
deriving DecidableEq

/-- The app before `Start` has started anything. -/
def State.init : State :=
  { closed := false, start := .starting, sg := false, shutdown := .idle, leases := [],
    handlers := [], stopChan := false, ended := none }

namespace State

variable (s : State)

/-- The program ends. -/
def halt (e : Ending) : State := { s with ended := some e }

/-- A close of `dieChan`. -/
def close : State := if s.closed then s.halt .closeOfClosedChannel else { s with closed := true }

/-- A lease watcher moves on. -/
def watch (j : ℕ) (pc : LeasePc) : State := { s with leases := s.leases.set j pc }

/-- A closed handler moves on. -/
def handle (h : ℕ) (pc : HandlerPc) : State := { s with handlers := s.handlers.set h pc }

/-- A signal arrives: into the buffer of `sg` once `Start` has asked for
signals. -/
def signal : State :=
  match s.start with
  | .starting => s.halt .killed
  | _ => { s with sg := true }

end State

/-! ## Steps -/

/-- What a lease watcher meets: a response of the keep alive or none, and
how `renewLease` returns. -/
inductive LeaseEvent
  | keptAlive
  | lost
  | renewed
  | timedOut
  | failed
deriving DecidableEq

/-- The loop of `watchLeaseChan`, up to its sends. -/
def watchLease (cfg : Config) : LeasePc → LeaseEvent → Option LeasePc
  | .watching _, .keptAlive => some (.watching 0)
  | .watching n, .lost => some (.renewing n)
  | .renewing _, .renewed => some .returned
  | .renewing _, .timedOut => some .sending
  | .renewing n, .failed =>
    if cfg.grantLeaseMaxRetries ≤ n + 1 then some .sending else some (.renewing (n + 1))
  | _, _ => none

/-- Who receives a send that blocks. -/
inductive Receiver
  | start
  | shutdown
deriving DecidableEq

/-- The receive a blocking send meets. -/
def receive (s : State) : Receiver → Option State
  | .start => if s.start = .selecting then some { s with start := .stopping } else none
  | .shutdown => if s.shutdown = .checking then some { s with shutdown := .idle } else none

inductive Action
  /-- `Start` has started the app and asked for signals. -/
  | started
  /-- A signal arrives from outside. -/
  | signal
  /-- The select of `Start` takes the closed `dieChan`. -/
  | startDie
  /-- The select of `Start` takes a signal. -/
  | startSignal
  | startClose
  /-- `Start` shuts the modules down. -/
  | shutdownModules
  /-- `Shutdown` is called. -/
  | shutdown
  /-- The select of `Shutdown` takes the closed `dieChan`. -/
  | shutdownDie
  | shutdownDefault
  | shutdownClose
  /-- A lease is granted and a watcher started. -/
  | grantLease
  | lease (j : ℕ) (e : LeaseEvent)
  /-- The select of a watcher takes a closed stop channel. -/
  | leaseStop (j : ℕ)
  /-- The send of a watcher that gave up. -/
  | leaseSend (j : ℕ) (r : Receiver)
  /-- A NATS connection is closed with an error. -/
  | natsClosed
  /-- The select of a closed handler takes its send on `dieChan`. -/
  | handlerSend (h : ℕ)
  /-- It takes its send on `initialConnectErrorCh`. -/
  | handlerInitial (h : ℕ)
  /-- It takes its default: a signal to the process itself. -/
  | handlerDefault (h : ℕ)
deriving DecidableEq

/-- **One step of the parties around `dieChan`.** -/
def step (cfg : Config) (s : State) (a : Action) : Option State :=
  if s.ended.isSome then none
  else
    match a with
    | .started => if s.start = .starting then some { s with start := .selecting } else none
    | .signal => some s.signal
    | .startDie =>
      if s.start = .selecting ∧ s.closed then some { s with start := .stopping } else none
    | .startSignal =>
      if s.start = .selecting ∧ s.sg then some { s with start := .closing, sg := false } else none
    | .startClose =>
      if s.start = .closing then some { s.close with start := .stopping } else none
    | .shutdownModules =>
      if s.start = .stopping then some { s with start := .stopped, stopChan := true } else none
    | .shutdown => if s.shutdown = .idle then some { s with shutdown := .checking } else none
    | .shutdownDie =>
      if s.shutdown = .checking ∧ s.closed then some { s with shutdown := .idle } else none
    | .shutdownDefault =>
      if s.shutdown = .checking ∧ ¬ s.closed then some { s with shutdown := .closing } else none
    | .shutdownClose =>
      if s.shutdown = .closing then some { s.close with shutdown := .idle } else none
    | .grantLease => some { s with leases := s.leases ++ [.watching 0] }
    | .lease j e => (s.leases[j]?.bind (watchLease cfg · e)).map (s.watch j)
    | .leaseStop j =>
      match s.leases[j]? with
      | some (.watching _) => if s.stopChan then some (s.watch j .returned) else none
      | _ => none
    | .leaseSend j r =>
      if s.leases[j]? = some .sending then
        if s.closed then some (s.halt .sendOnClosedChannel)
        else (receive s r).map (·.watch j .returned)
      else none
    | .natsClosed => some { s with handlers := s.handlers ++ [.selecting] }
    | .handlerSend h =>
      if s.handlers[h]? = some .selecting then
        if s.closed then some (s.halt .sendOnClosedChannel)
        else (receive s .start).map (·.handle h .returned)
      else none
    | .handlerInitial h =>
      if s.handlers[h]? = some .selecting then some (s.handle h .returned) else none
    | .handlerDefault h =>
      if s.handlers[h]? = some .selecting ∧ ¬ s.closed then
        some (s.signal.handle h .returned)
      else none

/-- The parties as a machine. -/
def parties (cfg : Config) : Machine State Action := ⟨step cfg⟩

end App

end Nrpc
