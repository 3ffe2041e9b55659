import Nrpc.Service.Model.Component
/-!
# `Register`, step by step

`Register` looks its service up, extracts its remotes and writes to the two
maps of the `RemoteService`, the second one in a loop. Here it is the
program it is, on a state that it leaves behind however it ends: with nil,
with an error, or with the panic of `reflect` on a component that is nil.
-/

namespace Nrpc

namespace Service

/-- How a call ends that does not return nil. -/
inductive Failure
  | err (text : GoString)
  | panic
deriving DecidableEq

/-- Programs on the maps of a `RemoteService`. What was written before a
failure stays. -/
abbrev RegisterM (T F : Type) := ExceptT Failure (StateM (Registry T F))

variable {T F : Type}

/-- `NewService`: the name of the options, or of the type. The component is
`none` for nil and for a nil pointer, which `reflect.Indirect` makes a value
without a type. -/
def newService (comp : Option (Component T F)) (opts : List Opt) : RegisterM T F GoString :=
  if (applyOptions opts).name ≠ [] then return (applyOptions opts).name
  else
    match comp with
    | some comp => return comp.typeName
    | none => throw .panic

/-- The method `ExtractRemote`, which starts with the type of the
component. -/
def extract (comp : Option (Component T F)) (opts : List Opt) :
    RegisterM T F (Component T F × GoMap GoString (Remote T F)) :=
  match comp with
  | none => throw .panic
  | some comp =>
    match extractRemote comp opts with
    | .error e => throw (.err e)
    | .ok remotes => return (comp, remotes)

/-- One round of the loop of `Register`. -/
def enterRemote (service : GoString) (new : GoMap GoString (Remote T F)) (name : GoString) :
    RegisterM T F Unit :=
  match new.get? name with
  | some remote => modify fun r =>
      { r with remotes := r.remotes.set (service ++ dot :: name) remote }
  | none => return

/-- The source's `Register`; `order` is the order its range visits the
remotes of the service in. -/
def registerM (comp : Option (Component T F)) (opts : List Opt) (order : List GoString) :
    RegisterM T F Unit := do
  let name ← newService comp opts
  if ((← get).services.get? name).isSome then
    throw (.err (lit "remote: service already defined: " ++ name))
  let (comp, remotes) ← extract comp opts
  modify fun r => { r with services := r.services.set name ⟨name, comp, remotes⟩ }
  order.forM (enterRemote name remotes)

/-- A call of `Register`, with the order its range takes. -/
structure Attempt (T F : Type) where
  comp : Option (Component T F)
  opts : List Opt
  order : List GoString

/-- How the call ends, and the maps it leaves. -/
def Attempt.run (x : Attempt T F) (r : Registry T F) : Except Failure Unit × Registry T F :=
  (registerM x.comp x.opts x.order).run r

/-- The maps behind a sequence of calls. -/
def attemptAll (r : Registry T F) (xs : List (Attempt T F)) : Registry T F :=
  xs.foldl (fun r x => (x.run r).2) r

end Service

end Nrpc
