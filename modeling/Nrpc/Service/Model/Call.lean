import Nrpc.Service.Model.Remote
/-!
# `RemoteService.Call`

The handler of a server. The context it is handed, which `processMessages`
has made of the metadata of the request, is not looked at: `Call` makes one
of its own, with a request id of its own if the request has none, and starts
a span in it.
-/

namespace Nrpc

namespace Service

open Context Server

variable {C T M O : Type}

/-- The source's `RemoteService`, as far as `Call` reads it. -/
structure RemoteService (C T M O : Type) where
  runtime : Runtime C T M O
  remotes : GoMap GoString (Remote T (Func C M O))
  /-- The context behind `StartSpanFromRequest`, by its propagated values. -/
  startSpan : PropagateMap → C

/-- **The source's `Call`.** The error it returns next to a response is
logged and nothing more. -/
def RemoteService.call (r : RemoteService C T M O) (json : Json) (h : Store) (req : Request)
    (nuid : GoString) : Outcome GoString Response :=
  match getContextFromRequest json h req nuid with
  | .panic => .panic
  | .err e => .ok (errorResponse errInternalCode e)
  | .ok (ctx, h) =>
    processRemoteMessage r.runtime r.remotes (r.startSpan (values h ctx)) req

end Service

end Nrpc
