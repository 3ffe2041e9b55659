import Nrpc.Server.Model.Request
/-!
# Errors with codes

The `*Error` of the package `errors`, the layers `fmt.Errorf` can put around
an error with `%w`, and the functions that tell the code of an error:
`NewError` looks through the layers, `FromError` and `GetErrorPayload` look
at the outermost value only.
-/

namespace Nrpc

namespace Errors

open Server

/-- An error that is not nil. An `*Error` has the fields of its form on the
wire. -/
inductive Err
  | plain (text : GoString)
  | nrpc (e : Server.Error)
  /-- `fmt.Errorf` with `%w`; the text is what the format makes of it. -/
  | wrap (text : GoString) (inner : Err)
deriving DecidableEq

/-- `err.Error()`. -/
def Err.error : Err → GoString
  | .plain text => text
  | .nrpc e => e.msg
  | .wrap text _ => text

/-- `err.(*Error)`. -/
def Err.assert : Err → Option Server.Error
  | .nrpc e => some e
  | .plain _ | .wrap _ _ => none

/-- `errors.As` into an `*Error`: the first one along the layers. -/
def Err.as : Err → Option Server.Error
  | .plain _ => none
  | .nrpc e => some e
  | .wrap _ inner => inner.as

/-- What a variable of type `error` can hold. -/
inductive ErrorValue
  | nil
  /-- An `*Error` that is nil. -/
  | nilError
  | err (err : Err)

/-- The source's `mergeMetadatas`, in the order of its range. A map that is
nil is an empty one. -/
def mergeMetadatas (nrpcErr : Server.Error) (metadata : GoMap GoString GoString)
    (order : List GoString) : Server.Error :=
  { nrpcErr with
    metadata := order.foldl (fun m key =>
      match metadata.get? key with
      | some value => m.set key value
      | none => m) nrpcErr.metadata }

/-- The source's `NewError`; the metadata comes with an order of its range. -/
def newError (err : Err) (code : GoString)
    (metadata : Option (GoMap GoString GoString × List GoString)) : Server.Error :=
  match err.as with
  | some nrpcErr =>
    match metadata with
    | some (m, order) => mergeMetadatas nrpcErr m order
    | none => nrpcErr
  | none => ⟨code, err.error, (metadata.map Prod.fst).getD .empty⟩

/-- The source's `FromError`. -/
def fromError : ErrorValue → GoString
  | .nil => []
  | .nilError => errUnknownCode
  | .err err =>
    match err.assert with
    | none => errUnknownCode
    | some nrpcErr => nrpcErr.code

/-- The message `GetErrorPayload` makes of an error. -/
def errorPayload (err : Err) : Server.Error :=
  match err.assert with
  | some val => ⟨val.code, err.error, val.metadata⟩
  | none => ⟨errUnknownCode, err.error, .empty⟩

/-- The source's `GetErrorPayload` with the `Marshal` of a serializer. -/
def getErrorPayload {β : Type} (marshal : Server.Error → Except GoString β) (err : Err) :
    Except GoString β := marshal (errorPayload err)

end Errors

end Nrpc
