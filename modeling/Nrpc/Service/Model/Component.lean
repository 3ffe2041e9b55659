import Nrpc.Common.GoMap
import Nrpc.Common.Text
/-!
# Components and their remotes

A component is a Go value whose exported methods of a certain shape become
remotes. `NewService` names it, by its options or by its type,
`ExtractRemote` collects the methods `isRemoteMethod` accepts under their
registered names, and `Register` enters them into the table of the
`RemoteService` under `<service>.<method>`. A request names its remote by a
route that is split at its dots.

What reflection says about a component is data here: the name of its type
and its method set, each method with the types of its parameters and
results. What a method does stands in `F`.
-/

namespace Nrpc

namespace Service

/-! ## Routes -/

/-- The source's `Route`. -/
structure Route where
  svType : GoString
  service : GoString
  method : GoString
deriving DecidableEq

def errRouteFieldCantEmpty : GoString := lit "route field can not be empty"
def errInvalidRoute : GoString := lit "invalid route"

/-- The byte of a dot. -/
def dot : UInt8 := 0x2E

/-- The source's `Short`. -/
def Route.short (r : Route) : GoString := r.service ++ dot :: r.method

/-- The source's `String`. -/
def Route.string (r : Route) : GoString :=
  if r.svType ≠ [] then r.svType ++ dot :: (r.service ++ dot :: r.method) else r.short

/-- The source's `Decode`. -/
def decodeRoute (route : GoString) : Except GoString Route :=
  let r := route.splitOn dot
  if ∃ s ∈ r, trimSpace s = [] then .error errRouteFieldCantEmpty
  else
    match r with
    | [svType, service, method] => .ok ⟨svType, service, method⟩
    | [service, method] => .ok ⟨[], service, method⟩
    | _ => .error errInvalidRoute

/-! ## Methods -/

/-- The kind of a `reflect.Type`, as far as `Elem` and the checks of a call
depend on it. -/
inductive Kind (T : Type)
  | ptr
  | interface
  /-- An array, a channel, a map or a slice: a pointer to its element type,
  and whether that pointer implements `proto.Message`. -/
  | container (elemPtr : T) (proto : Bool)
  | other
deriving DecidableEq

/-- What `isRemoteMethod` and the remote service ask of a `reflect.Type`,
next to which type it is. -/
structure Ty (T : Type) where
  id : T
  kind : Kind T
  /-- It implements `context.Context`. -/
  context : Bool
  /-- It implements `proto.Message`. -/
  proto : Bool
  /-- It is the type `error`. -/
  error : Bool
deriving DecidableEq

/-- Its kind is a pointer. -/
def Ty.ptr {T : Type} (ty : Ty T) : Bool :=
  match ty.kind with
  | .ptr => true
  | _ => false

/-- The type of `reflect.New(ty.Elem())`, and whether it implements
`proto.Message`. `Elem` panics on a type without elements. -/
def Ty.newElem {T : Type} (ty : Ty T) : Option (T × Bool) :=
  match ty.kind with
  | .ptr => some (ty.id, ty.proto)
  | .container elemPtr proto => some (elemPtr, proto)
  | .interface | .other => none

/-- A `reflect.Method`: its parameters start with the receiver. -/
structure Method (T F : Type) where
  name : GoString
  pkgPath : GoString
  ins : List (Ty T)
  outs : List (Ty T)
  func : F

variable {T F : Type}

/-- The second parameter, if there is one, is the argument of a remote. -/
def Method.arg? (m : Method T F) : Option (Ty T) := m.ins[2]?

/-- The results `isRemoteMethod` accepts: none, or a pointer that is a
message and an error. -/
def remoteOuts : List (Ty T) → Bool
  | [] => true
  | [o0, o1] => o0.ptr && o1.error && o0.proto
  | _ => false

/-- The source's `isRemoteMethod`. -/
def isRemoteMethod (m : Method T F) : Bool :=
  m.pkgPath = [] &&
    match m.ins with
    | [_, t1] => t1.context && remoteOuts m.outs
    | [_, t1, t2] => t1.context && t2.proto && remoteOuts m.outs
    | _ => false

/-! ## Services -/

/-- A component, as reflection shows it. -/
structure Component (T F : Type) where
  /-- Which value it is. -/
  receiver : ℕ
  /-- `reflect.Indirect(..).Type().Name()`. -/
  typeName : GoString
  /-- `Type.String()`. -/
  typeString : GoString
  /-- The type name starts with an upper case letter. -/
  exported : Bool
  /-- The method set of its type, in the order of reflection. -/
  methods : List (Method T F)
  /-- The method set of a pointer to its type. -/
  ptrMethods : List (Method T F)
  /-- The methods of a type have different names. -/
  distinct : (methods.map Method.name).Nodup

/-- The source's `Option`s. -/
inductive Opt
  | withName (name : GoString)
  | withNameFunc (fn : Option (GoString → GoString))

structure Options where
  name : GoString
  nameFunc : Option (GoString → GoString)

def Opt.apply (o : Options) : Opt → Options
  | .withName name => { o with name }
  | .withNameFunc fn => { o with nameFunc := fn }

/-- The options of a component, applied one after the other. -/
def applyOptions (opts : List Opt) : Options := opts.foldl Opt.apply ⟨[], none⟩

/-- The name `NewService` gives a component. -/
def serviceName (comp : Component T F) (opts : List Opt) : GoString :=
  if (applyOptions opts).name ≠ [] then (applyOptions opts).name else comp.typeName

/-- The name a method is registered under. -/
def registeredName (nameFunc : Option (GoString → GoString)) (m : Method T F) : GoString :=
  match nameFunc with
  | some fn => fn m.name
  | none => m.name

/-- The source's `Remote`. -/
structure Remote (T F : Type) where
  receiver : ℕ
  method : Method T F
  hasArgs : Bool
  type : Option (Ty T)

/-- The remote made of a method. -/
def newRemote (receiver : ℕ) (m : Method T F) : Remote T F :=
  ⟨receiver, m, m.ins.length = 3, m.arg?⟩

/-- The source's `suitableRemoteMethods`: a later method of the same name
takes the place of an earlier one. -/
def suitableRemoteMethods (receiver : ℕ) (methods : List (Method T F))
    (nameFunc : Option (GoString → GoString)) : GoMap GoString (Remote T F) :=
  methods.foldl (fun remotes m =>
    if isRemoteMethod m then remotes.set (registeredName nameFunc m) (newRemote receiver m)
    else remotes) .empty

/-- The source's `ExtractRemote`. -/
def extractRemote (comp : Component T F) (opts : List Opt) :
    Except GoString (GoMap GoString (Remote T F)) :=
  if comp.typeName = [] then .error (lit "no service name for type " ++ comp.typeString)
  else if ¬ comp.exported then .error (lit "type " ++ comp.typeName ++ lit " is not exported")
  else
    let nameFunc := (applyOptions opts).nameFunc
    let remotes := suitableRemoteMethods comp.receiver comp.methods nameFunc
    if remotes.keys = ∅ then
      -- to help the user, see if a pointer receiver would work
      if (suitableRemoteMethods comp.receiver comp.ptrMethods nameFunc).keys ≠ ∅ then
        .error (lit "type " ++ serviceName comp opts ++
          lit (" has no exported methods of remote " ++
            "type (hint: pass a pointer to value of that type)"))
      else
        .error (lit "type " ++ serviceName comp opts ++
          lit " has no exported methods of remote type")
    else .ok remotes

/-- The source's `component.Service`, with its component for the type and
the receiver. -/
structure ComponentService (T F : Type) where
  name : GoString
  comp : Component T F
  remotes : GoMap GoString (Remote T F)

/-- What `Register` keeps in a `RemoteService`. -/
structure Registry (T F : Type) where
  services : GoMap GoString (ComponentService T F)
  remotes : GoMap GoString (Remote T F)

def Registry.empty : Registry T F := ⟨.empty, .empty⟩

/-- The loop of `Register` over the remotes of a service, in the order its
range visits them. -/
def addRemotes (service : GoString) (new : GoMap GoString (Remote T F)) (order : List GoString)
    (remotes : GoMap GoString (Remote T F)) : GoMap GoString (Remote T F) :=
  order.foldl (fun remotes name =>
    match new.get? name with
    | some remote => remotes.set (service ++ dot :: name) remote
    | none => remotes) remotes

/-- The source's `Register`; `order` is the order its range visits the
remotes of the service in. -/
def register (r : Registry T F) (comp : Component T F) (opts : List Opt) (order : List GoString) :
    Except GoString (Registry T F) :=
  let name := serviceName comp opts
  if (r.services.get? name).isSome then
    .error (lit "remote: service already defined: " ++ name)
  else
    match extractRemote comp opts with
    | .error e => .error e
    | .ok remotes => .ok
      { services := r.services.set name ⟨name, comp, remotes⟩
        remotes := addRemotes name remotes order r.remotes }

end Service

end Nrpc
