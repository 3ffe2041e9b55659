import Nrpc.Common.Machine
import Nrpc.Server.Model.Request
/-!
# Receiving messages

`handleMessages` takes the messages of the server's subject from `subChan`,
turns each into a request and sends it on `unhandledReqCh`, until
`stopChan` is closed. `subChan` is filled by the NATS client: what it has
received for the subscription it delivers into the channel one by one, and
drops what does not fit. When the loop is left, a deferred block drains the
connection and closes both channels. `Drain` returns at once: until the
draining has completed messages still arrive, and the client goes on
delivering what it has received.

`unhandledReqCh` has no buffer, so a request is handed to a thread of
`processMessages` in the step in which it is sent.
-/

namespace Nrpc

namespace Server

namespace Receive

/-- A message of the subject: its data, and the subject to reply to. -/
structure NatsMsg where
  data : List UInt8
  reply : GoString
deriving DecidableEq

/-- `proto.Unmarshal` into a `protos.Request`. -/
abbrev Unmarshal := List UInt8 → Except GoString Request

/-- **The body of the loop**, up to the send: an error of `Unmarshal` is
logged and skipped, and the reply is written into the message of the
request, which is dereferenced. -/
def handle (unmarshal : Unmarshal) (msg : NatsMsg) : Outcome GoString Request :=
  match unmarshal msg.data with
  | .error e => .err e
  | .ok req =>
    match req.msg with
    | none => .panic
    | some m => .ok { req with msg := some { m with reply := msg.reply } }

/-- Where `handleMessages` stands. The deferred block runs behind a return
and behind a panic. -/
inductive Pc
  | selecting
  /-- Sending on `unhandledReqCh`. -/
  | sending (req : Request)
  /-- In the deferred block, before `Drain`. -/
  | draining (panicking : Bool)
  /-- In the deferred block, before `unhandledReqCh` is closed. -/
  | closingRequests (panicking : Bool)
  /-- In the deferred block, before `subChan` is closed. -/
  | closingMessages (panicking : Bool)
  | ended (panicking : Bool)
deriving DecidableEq

/-- The receiver, the channel and the client's side of the subscription. -/
structure State where
  receiver : Pc
  /-- `stopChan` is closed. -/
  stopped : Bool
  subChan : List NatsMsg
  /-- `subChan` is closed. -/
  subClosed : Bool
  /-- What the client has received for the subscription and not delivered. -/
  pending : List NatsMsg
  /-- The subscription is over: the draining has completed, or the
  connection was closed. -/
  unsubscribed : Bool
  /-- A delivery was a send on a closed channel. -/
  crashed : Bool
  /-- The messages the loop has taken from `subChan`, in order. -/
  received : List NatsMsg
  /-- The requests sent on `unhandledReqCh`, in order. -/
  enqueued : List Request
deriving DecidableEq

/-- The loop has started, and the subscription is made. -/
def State.start : State := ⟨.selecting, false, [], false, [], false, false, [], []⟩

inductive Action
  /-- The client receives a message. -/
  | arrive (msg : NatsMsg)
  /-- The client delivers a message. -/
  | deliver
  /-- The draining completes, with everything delivered or after its time,
  or the connection is closed. -/
  | unsubscribe
  /-- The select takes a message. -/
  | receive
  /-- A thread takes the request. -/
  | handOver
  /-- The select takes `stopChan`. -/
  | stop
  /-- `Shutdown`, which is called once. -/
  | shutdown
  /-- The next statement of the deferred block. -/
  | deferred
deriving DecidableEq

/-- Where the loop goes with a message. -/
def behind (unmarshal : Unmarshal) (msg : NatsMsg) : Pc :=
  match handle unmarshal msg with
  | .err _ => .selecting
  | .ok req => .sending req
  | .panic => .draining true

/-- **One step**, with a channel of so many messages. A send on a closed
channel ends the process. -/
def step (unmarshal : Unmarshal) (messagesBufferSize : ℕ) (s : State) (a : Action) :
    Option State :=
  if s.crashed then none else
  match a with
  | .arrive msg => if s.unsubscribed then none else some { s with pending := s.pending ++ [msg] }
  | .unsubscribe => some { s with pending := [], unsubscribed := true }
  | .deliver =>
    match s.pending with
    | [] => none
    | msg :: pending =>
      if s.subClosed then some { s with pending := pending, crashed := true }
      else if s.subChan.length < messagesBufferSize then
        some { s with pending := pending, subChan := s.subChan ++ [msg] }
      else some { s with pending := pending }
  | .receive =>
    match s.receiver, s.subChan with
    | .selecting, msg :: subChan => some
      { s with
        receiver := behind unmarshal msg
        subChan := subChan
        received := s.received ++ [msg] }
    | _, _ => none
  | .handOver =>
    match s.receiver with
    | .sending req => some { s with receiver := .selecting, enqueued := s.enqueued ++ [req] }
    | _ => none
  | .stop =>
    if s.receiver = .selecting ∧ s.stopped then some { s with receiver := .draining false }
    else none
  | .shutdown => if s.stopped then none else some { s with stopped := true }
  | .deferred =>
    match s.receiver with
    -- what `Drain` begins goes on in the client
    | .draining panicking => some { s with receiver := .closingRequests panicking }
    | .closingRequests panicking => some { s with receiver := .closingMessages panicking }
    | .closingMessages panicking =>
      some { s with receiver := .ended panicking, subClosed := true }
    | _ => none

/-- The receiver and the client as a machine. -/
def machine (unmarshal : Unmarshal) (messagesBufferSize : ℕ) : Machine State Action :=
  ⟨step unmarshal messagesBufferSize⟩

end Receive

end Server

end Nrpc
