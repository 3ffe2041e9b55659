import Nrpc.Common.Machine
import Nrpc.Server.Model.Request
/-!
# Dispatching requests

The goroutines of a `NatsRPCServer` behind `unhandledReqCh`. Each of the
`service` threads runs `processMessages`: it receives a request into its
slot of `ns.requests`, takes it in, answers an error from its slot of
`ns.responses`, and otherwise hands the request on, with its context and
times, to a task of the worker pool or to a goroutine of its own that
first waits for the semaphore. Every step of every one of them is an
action; what the surroundings decide — an id, the clock, whether the timer
fired, what the handler does, whether the semaphore's deadline passed —
comes with it.
-/

namespace Nrpc

namespace Server

open Context

/-! ## Configuration -/

/-- What `configure` reads of a `NatsRPCServerConfig` and decides on. -/
structure Config where
  services : ℤ
  connect : GoString
  bufferMessages : ℤ
  semaphore : ℤ
deriving DecidableEq

/-- The configured server: the number of threads, and the size of the
semaphore if there is one. -/
structure Setup where
  service : ℕ
  sempWeighted : Option ℕ
deriving DecidableEq

def errNatsMessagesBufferSizeZero : GoString :=
  lit "nrpc.buffer.cluster.rpc.server.nats.messages cant be zero"

/-- The source's `configure`; `make` panics on a negative size. -/
def configure (config : Config) : Outcome GoString Setup :=
  if config.connect = [] then .err errNoNatsConnectionString
  else if config.bufferMessages = 0 then .err errNatsMessagesBufferSizeZero
  else if config.bufferMessages < 0 ∨ config.services < 0 then .panic
  else .ok
    { service := config.services.toNat
      sempWeighted := if 0 < config.semaphore then some config.semaphore.toNat else none }

/-! ## Requests and responses -/

/-- What a server runs on: its libraries, whether it has a worker pool,
its handler and `proto.Marshal`. The handler sees the propagated values of
the context; what else it may depend on is numbered. -/
structure Env where
  lib : Lib
  workerPool : Bool
  call : ℕ → PropagateMap → Request → Response
  marshal : Response → Except GoString (List UInt8)

/-- What the surroundings decide at a step. -/
structure Ambient where
  nuid : GoString
  now : ℤ
  /-- The timer of `time.After` has fired. -/
  fired : Bool
  /-- Which of the handler's behaviours. -/
  behaviour : ℕ
  /-- The error of the semaphore's `Acquire`, if its context is done. -/
  refused : Option GoString

def timeoutResponse : Response :=
  errorResponse errRequestTimeoutCode (lit "rpc server process timeout")

/-- The look at the clock in the source's `processRequest`: a request that
has used up half of its time is not handled any more. -/
def halfOver (start timeout now : ℤ) : Prop := now - start > timeout.tdiv 2

instance (start timeout now : ℤ) : Decidable (halfOver start timeout now) :=
  inferInstanceAs (Decidable (_ > _))

/-- The rest of `processRequest`: the timer has fired, or the handler is
called. The goroutine may have been kept waiting since it looked at the
clock. -/
def processRequest (env : Env) (m : PropagateMap) (req : Request) (amb : Ambient) : Response :=
  if amb.fired then timeoutResponse else env.call amb.behaviour m req

/-- The source's `marshalResponse`: the bytes, and an error that only
says what they contain. A response that does not marshal is replaced; if
the replacement does not either, there are no bytes. -/
def marshalResponse (env : Env) (res : Response) : List UInt8 × Option GoString :=
  match env.marshal res with
  | .ok p => (p, res.error.map Error.msg)
  | .error e =>
    match env.marshal (errorResponse errUnknownCode e) with
    | .ok p => (p, some e)
    | .error _ => ([], some e)

/-- A call of `conn.Publish`. -/
structure Publication where
  subject : GoString
  payload : List UInt8
deriving DecidableEq

/-- The source's `processResponse`: the calls of `conn.Publish` it makes.
It panics on a request without message. -/
def processResponse (env : Env) (req : Request) (resp : Response) : Option (List Publication) :=
  match req.msg with
  | none => none
  | some msg =>
    if msg.type = .msgNotify then some []
    else some [⟨msg.reply, (marshalResponse env resp).1⟩]

/-! ## The goroutines -/

/-- Where a thread is in the loop of `processMessages`. -/
inductive ThreadPc
  /-- At the head of the loop. -/
  | receiving
  /-- A request is in the slot. -/
  | taking
  /-- An error response is in the slot. -/
  | rejecting
  /-- The context and the times are known. -/
  | dispatching (ctx : Ctx) (start timeout : ℤ)
deriving DecidableEq

/-- A thread, with its slots `ns.requests[threadID]` and
`ns.responses[threadID]`. -/
structure Thread where
  request : Option Request
  response : Option Response
  pc : ThreadPc
deriving DecidableEq

/-- Where a request is that was handed on. -/
inductive JobPc
  /-- A task the worker pool has not run yet. -/
  | queued
  /-- A goroutine before the semaphore. -/
  | acquiring
  /-- In `processRequest`, before the look at the clock. -/
  | processing (acquired : Bool)
  /-- In `processRequest`, before the select whose default calls the
  handler. -/
  | selecting (acquired : Bool)
  /-- In `processResponse`. -/
  | responding (acquired : Bool) (resp : Response)
  /-- Before the release of the semaphore. -/
  | releasing
  | done
deriving DecidableEq

/-- A task of the pool or a goroutine, with what its closure captured. -/
structure Job where
  req : Request
  ctx : Ctx
  start : ℤ
  timeout : ℤ
  pc : JobPc
deriving DecidableEq

structure State where
  store : Store
  /-- What is still to come through `unhandledReqCh`. -/
  pending : List Request
  threads : List Thread
  jobs : List Job
  /-- How much of the semaphore is taken. -/
  cur : ℕ
  /-- The calls of `conn.Publish` so far. -/
  published : List Publication
  /-- A goroutine panicked, which nothing recovers. -/
  crashed : Bool

/-- A server that was just started, and the requests to come. -/
def State.init (setup : Setup) (h : Store) (reqs : List Request) : State where
  store := h
  pending := reqs
  threads := List.replicate setup.service ⟨none, none, .receiving⟩
  jobs := []
  cur := 0
  published := []
  crashed := false

def State.crash (s : State) : State := { s with crashed := true }

def State.moveThread (s : State) (t : ℕ) (th : Thread) : State :=
  { s with threads := s.threads.set t th }

def State.moveJob (s : State) (j : ℕ) (job : Job) : State :=
  { s with jobs := s.jobs.set j job }

/-- `processResponse` is called. -/
def State.respond (s : State) (env : Env) (req : Request) (resp : Response) : State :=
  match processResponse env req resp with
  | none => s.crash
  | some pubs => { s with published := s.published ++ pubs }

/-- Where a request is handed on to: the worker pool, if there is one and
the share id is a string that is not empty, and else a goroutine. -/
def entryPc (env : Env) (h : Store) (ctx : Ctx) : JobPc :=
  match getFromPropagateCtx h (some ctx) shareIDKey with
  | .string (_ :: _) => if env.workerPool then .queued else .acquiring
  | _ => .acquiring

/-- Behind `processResponse`, only a goroutine that acquired releases. -/
def exitPc (acquired : Bool) : JobPc := if acquired then .releasing else .done

/-- **One step of `processMessages`.** The slots are read where the source
reads them. -/
def threadStep (env : Env) (s : State) (t : ℕ) (th : Thread) (amb : Ambient) : Option State :=
  match th.pc with
  | .receiving =>
    match s.pending with
    | [] => none
    | req :: rest =>
      some ({ s with pending := rest }.moveThread t { th with request := some req, pc := .taking })
  | .taking =>
    match th.request with
    | none => some s.crash
    | some req =>
      match intake env.lib s.store req amb.nuid with
      | .crash => some s.crash
      | .reject resp => some (s.moveThread t { th with response := some resp, pc := .rejecting })
      | .ready ctx h start timeout =>
        some ({ s with store := h }.moveThread t { th with pc := .dispatching ctx start timeout })
  | .rejecting =>
    match th.request, th.response with
    | some req, some resp =>
      some ((s.moveThread t { th with pc := .receiving }).respond env req resp)
    | _, _ => some s.crash
  | .dispatching ctx start timeout =>
    match th.request with
    | none => some s.crash
    | some req =>
      -- the closure's `req`, and the goroutine's argument, are read off the slot here
      let job : Job := ⟨req, ctx, start, timeout, entryPc env s.store ctx⟩
      some ({ s with jobs := s.jobs ++ [job] }.moveThread t { th with pc := .receiving })

/-- **One step of a task or goroutine.** A missing semaphore is a nil
pointer, and `Release` panics when nothing is taken. -/
def jobStep (env : Env) (setup : Setup) (s : State) (j : ℕ) (job : Job) (amb : Ambient) :
    Option State :=
  match job.pc with
  -- a task of the pool takes nothing of the semaphore
  | .queued => some (s.moveJob j { job with pc := .processing false })
  | .acquiring =>
    match setup.sempWeighted, amb.refused with
    | none, _ => some s.crash
    | some _, some e =>
      some (s.moveJob j
        { job with pc := .responding false (errorResponse errTooManyRequestCode e) })
    | some size, none =>
      if s.cur < size then
        some ({ s with cur := s.cur + 1 }.moveJob j { job with pc := .processing true })
      else none
  | .processing acquired =>
    if halfOver job.start job.timeout amb.now then
      some (s.moveJob j { job with pc := .responding acquired timeoutResponse })
    else some (s.moveJob j { job with pc := .selecting acquired })
  | .selecting acquired =>
    let resp := processRequest env (values s.store job.ctx) job.req amb
    some (s.moveJob j { job with pc := .responding acquired resp })
  | .responding acquired resp =>
    some ((s.moveJob j { job with pc := exitPc acquired }).respond env job.req resp)
  | .releasing =>
    if s.cur = 0 then some s.crash
    else some ({ s with cur := s.cur - 1 }.moveJob j { job with pc := .done })
  | .done => none

inductive Action
  | thread (t : ℕ) (amb : Ambient)
  | job (j : ℕ) (amb : Ambient)

def step (env : Env) (setup : Setup) (s : State) : Action → Option State
  | .thread t amb =>
    if s.crashed then none else s.threads[t]?.bind fun th => threadStep env s t th amb
  | .job j amb =>
    if s.crashed then none else s.jobs[j]?.bind fun job => jobStep env setup s j job amb

/-- **A running server as a machine.** -/
def dispatch (env : Env) (setup : Setup) : Machine State Action := ⟨step env setup⟩

/-- Nothing is left to do: no request is on its way, every thread waits
for the next one, and every task and goroutine has returned. -/
def State.Completed (s : State) : Prop :=
  s.crashed = false ∧ s.pending = [] ∧ (∀ th ∈ s.threads, th.pc = .receiving) ∧
    ∀ job ∈ s.jobs, job.pc = .done

instance (s : State) : Decidable s.Completed :=
  inferInstanceAs (Decidable (_ ∧ _ ∧ _ ∧ _))

end Server

end Nrpc
