import Nrpc.Service.Model.Remote
/-!
# The parameters of the reflective call

`handleRPC` calls the method of a remote with the receiver, the context and,
if the remote has one, the argument. `reflect` panics in the call unless the
dynamic type of each is assignable to the type of its parameter. Which type a
value has, and which interfaces a type implements, is a parameter.
-/

namespace Nrpc

namespace Service

variable {C T M O : Type}

/-- The dynamic types of what a call is made with. -/
structure Dynamic (C T O : Type) where
  receiver : T
  /-- None for a context that is nil. -/
  context : C → Option T
  other : O → T
  /-- Two types, one of them without a name, have the same underlying one. -/
  underlying : T → T → Bool
  /-- A type implements an interface type. -/
  implements : T → T → Bool

/-- `AssignableTo`: the same type, or one with the same underlying type, or
an interface the type implements. -/
def Assignable (dyn : Dynamic C T O) (d : T) (ty : Ty T) : Prop :=
  d = ty.id ∨ dyn.underlying d ty.id = true ∨
    ty.kind = .interface ∧ dyn.implements d ty.id = true

/-- The type of `reflect.ValueOf`, which is not valid for nil. -/
def valueType (proto : Proto T M) (dyn : Dynamic C T O) : Value M O → Option T
  | .nil => none
  | .message m => some (proto.typeOf m)
  | .other o => some (dyn.other o)

/-- The parameters `handleRPC` calls a method with. -/
def callParams (proto : Proto T M) (dyn : Dynamic C T O) (remote : Remote T (Func C M O)) (ctx : C)
    (arg : Value M O) : List (Option T) :=
  some dyn.receiver :: dyn.context ctx ::
    if remote.hasArgs then [valueType proto dyn arg] else []

/-- **The checks of `Func.Call`**: each parameter has a type, and it is
assignable. -/
def Callable (dyn : Dynamic C T O) (params : List (Option T)) (ins : List (Ty T)) : Prop :=
  List.Forall₂ (fun d? ty => ∃ d ∈ d?, Assignable dyn d ty) params ins

instance [DecidableEq T] (dyn : Dynamic C T O) (d : T) (ty : Ty T) :
    Decidable (Assignable dyn d ty) :=
  inferInstanceAs (Decidable (_ ∨ _ ∨ _ ∧ _))

instance [DecidableEq T] (dyn : Dynamic C T O) (params : List (Option T)) (ins : List (Ty T)) :
    Decidable (Callable dyn params ins) :=
  inferInstanceAs (Decidable (List.Forall₂ _ params ins))

end Service

end Nrpc
