import Nrpc.Common.Chain
import Nrpc.Pipeline.Model.Channel
import Nrpc.Service.Model.Reflect
/-!
# The trace of a request

What runs when a request is handled, in order: the before hooks, the method
and the after hooks, each with what it was given. The functions here are
those of `Service.Model.Remote` with the trace kept next to the result. The
call of the method is in the trace when it passes the checks of reflection:
otherwise `Func.Call` panics before the method is entered.
-/

namespace Nrpc

namespace Service

open Server Pipeline

variable {C T M O : Type}

/-- Something that runs. -/
inductive Event (C M O : Type)
  | before (h : HandlerTempl C M O) (ctx : C) (res : Value M O)
  /-- The argument is given to a method that has one. -/
  | method (ctx : C) (arg : Option (Value M O))
  | after (h : AfterHandlerTempl C M O) (ctx : C) (ret : Value M O) (err : Option GoError)

/-! ## The stages of the two pipelines -/

/-- A before hook, on the variables of `ExecuteBeforePipeline`. -/
def beforeStep (h : HandlerTempl C M O) (s : C × Value M O × Option GoError) :
    C × Value M O × Option GoError :=
  h s.1 s.2.1

/-- An after hook, on the variables of `ExecuteAfterPipeline`. -/
def afterStep (ctx : C) (h : AfterHandlerTempl C M O) (s : Value M O × Option GoError) :
    Value M O × Option GoError :=
  h ctx s.1 s.2

/-- An error breaks the before pipeline off. -/
def broken (s : C × Value M O × Option GoError) : Bool := s.2.2.isSome

def beforeEvent (p : HandlerTempl C M O × C × Value M O × Option GoError) : Event C M O :=
  .before p.1 p.2.1 p.2.2.1

def afterEvent (ctx : C) (p : AfterHandlerTempl C M O × Value M O × Option GoError) :
    Event C M O :=
  .after p.1 ctx p.2.1 p.2.2

/-- `ExecuteBeforePipeline` with its trace. -/
def tracedBefore (hs : List (HandlerTempl C M O)) (ctx : C) (res : Value M O) :
    List (Event C M O) × C × Value M O × Option GoError :=
  let r := Chain.run beforeStep broken hs (ctx, res, none)
  (r.1.map beforeEvent, r.2)

/-- `ExecuteAfterPipeline` with its trace. -/
def tracedAfter (hs : List (AfterHandlerTempl C M O)) (ctx : C) (ret : Value M O)
    (err : Option GoError) : List (Event C M O) × Value M O × Option GoError :=
  let r := Chain.run (afterStep ctx) (fun _ => false) hs (ret, err)
  (r.1.map (afterEvent ctx), r.2)

/-! ## The whole request -/

/-- The call of the method as it appears in the trace. -/
def methodEvent (remote : Remote T (Func C M O)) (ctx : C) (arg : Value M O) : Event C M O :=
  .method ctx (if remote.hasArgs then some arg else none)

variable [DecidableEq T]

/-- `Pcall` with its trace. -/
def tracedCall (rt : Runtime C T M O) (dyn : Dynamic C T O) (remote : Remote T (Func C M O))
    (ctx : C) (arg : Value M O) :
    List (Event C M O) × Outcome GoString (Value M O × Option GoError) :=
  (if Callable dyn (callParams rt.proto dyn remote ctx arg) remote.method.ins then
    [methodEvent remote ctx arg] else [], pcall rt.loggers remote ctx arg)

/-- `handleRPC` with its trace, behind the lookup of the remote. -/
def tracedRemote (rt : Runtime C T M O) (dyn : Dynamic C T O) (remote : Remote T (Func C M O))
    (ctx : C) (payload : List UInt8) : List (Event C M O) × Outcome GoString Response :=
  match remoteArg rt.proto remote payload with
  | .panic => ([], .panic)
  | .err e => ([], .ok (errorResponse errBadRequestCode e))
  | .ok arg =>
    match tracedBefore rt.hooks.beforeHandler ctx arg with
    | (before, _, _, some err) => (before, textResponse errInternalCode err)
    | (before, ctx, arg, none) =>
      match tracedCall rt dyn remote ctx arg with
      | (call, .panic) => (before ++ call, .panic)
      | (call, .err e) => (before ++ call, .err e)
      | (call, .ok (ret, err)) =>
        match tracedAfter rt.hooks.afterHandler ctx ret err with
        | (after, _, some err) => (before ++ call ++ after, errorLeft err)
        | (after, ret, none) => (before ++ call ++ after, .ok (valueLeft rt.proto ret))

/-- `processRemoteMessage` with its trace. -/
def tracedMessage (rt : Runtime C T M O) (dyn : Dynamic C T O)
    (remotes : GoMap GoString (Remote T (Func C M O))) (ctx : C) (req : Request) :
    List (Event C M O) × Outcome GoString Response :=
  match lookup remotes req.route with
  | .error resp => ([], .ok resp)
  | .ok remote => tracedRemote rt dyn remote ctx ((req.msg.map Msg.data).getD [])

/-- The hooks of two channels, each built by operations. -/
def buildHooks (beforeOps : List (ChannelOp (HandlerTempl C M O)))
    (afterOps : List (ChannelOp (AfterHandlerTempl C M O))) : RemoteHooks C M O :=
  ⟨(buildChannel beforeOps).handlers, (buildChannel afterOps).handlers⟩

end Service

end Nrpc
