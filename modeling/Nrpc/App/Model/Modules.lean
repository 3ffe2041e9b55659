import Nrpc.Common.GoMap
import Nrpc.Common.Outcome
import Nrpc.Common.Text
/-!
# The modules of an app

An app keeps its modules twice: in a map by name, and in a slice in the
order they are started in. `RegisterModuleAfter` adds at the end of the
slice, `RegisterModuleBefore` in front, and a name that is taken is
refused. `Start` registers three modules of its own, starts all of them in
two passes over the slice, waits, and shuts all of them down in two passes
from its end.

A module is a value of some type; of what its methods do only the errors of
`Init` matter here, one for each name. A call of `Fatal` ends the process
and is an error here.
-/

namespace Nrpc

namespace App

variable {M : Type}

/-- The source's `moduleWrapper`. -/
structure ModuleWrapper (M : Type) where
  mod : M
  name : GoString

/-- The fields of `App` the modules are in. -/
structure Modules (M : Type) where
  modulesMap : GoMap GoString M
  modulesArr : List (ModuleWrapper M)

/-- The modules of a new app. -/
def Modules.empty : Modules M := ⟨.empty, []⟩

/-! ## Registration -/

/-- The source's `alreadyRegistered`. -/
def alreadyRegistered (app : Modules M) (name : GoString) : Option GoString :=
  if (app.modulesMap.get? name).isSome then
    some (lit "module with name " ++ name ++ lit " already exists")
  else none

/-- Where a module goes. -/
inductive Place
  | after
  | before
deriving DecidableEq

/-- The slice with one more module. -/
def Place.add (w : ModuleWrapper M) (arr : List (ModuleWrapper M)) : Place → List (ModuleWrapper M)
  | .after => arr ++ [w]
  | .before => [w] ++ arr

/-- A registration: the error it returns, if any, and the modules it
leaves. -/
def register (place : Place) (app : Modules M) (mod : M) (name : GoString) :
    Option GoString × Modules M :=
  match alreadyRegistered app name with
  | some err => (some err, app)
  | none => (none, ⟨app.modulesMap.set name mod, place.add ⟨mod, name⟩ app.modulesArr⟩)

/-- The source's `RegisterModuleAfter`. -/
def registerModuleAfter (app : Modules M) (mod : M) (name : GoString) :
    Option GoString × Modules M := register .after app mod name

/-- The source's `RegisterModuleBefore`. -/
def registerModuleBefore (app : Modules M) (mod : M) (name : GoString) :
    Option GoString × Modules M := register .before app mod name

/-- The source's `RegisterModule`. -/
def registerModule (app : Modules M) (mod : M) (name : GoString) :
    Option GoString × Modules M := registerModuleAfter app mod name

/-- The source's `GetModule`. -/
def getModule (app : Modules M) (name : GoString) : Except GoString M :=
  match app.modulesMap.get? name with
  | some mod => .ok mod
  | none => .error (lit "module with name " ++ name ++ lit " not found")

/-- The modules `Start` registers. -/
structure OwnModules (M : Type) where
  rpcServer : M
  rpcClient : M
  serviceDiscovery : M

/-- A registration that must succeed. The text is handed to `Fatal`, not to
`Fatalf`. -/
def orFatal (text : GoString) : Option GoString × Modules M → Outcome GoString (Modules M)
  | (some err, _) => .err (text ++ err)
  | (none, app) => .ok app

/-- The registrations at the beginning of `Start`. -/
def registerOwn (own : OwnModules M) (app : Modules M) : Outcome GoString (Modules M) := do
  let app ← orFatal (lit "failed to register rpc server module: %s")
    (registerModuleBefore app own.rpcServer (lit "rpcServer"))
  let app ← orFatal (lit "failed to register rpc client module: %s")
    (registerModuleBefore app own.rpcClient (lit "rpcClient"))
  orFatal (lit "failed to register service discovery module: %s")
    (registerModuleAfter app own.serviceDiscovery (lit "serviceDiscovery"))

/-! ## Start and shutdown -/

/-- The methods of a module. -/
inductive Phase
  | init
  | afterInit
  | beforeShutdown
  | shutdown
deriving DecidableEq

/-- A call of a method of a module. -/
structure ModuleCall (M : Type) where
  phase : Phase
  wrapper : ModuleWrapper M

variable (initErr : GoString → Option GoString)

/-- The first loop of `startModules`; `initErr` is the error of each
module's `Init`, if it has one. -/
def initLoop : List (ModuleWrapper M) → Outcome GoString (List (ModuleCall M))
  | [] => .ok []
  | w :: ws =>
    match initErr w.name with
    | some err => .err (lit "error starting module " ++ w.name ++ lit ", error: " ++ err)
    | none => do return ⟨.init, w⟩ :: (← initLoop ws)

/-- The source's `startModules`: the calls it makes. -/
def startModules (app : Modules M) : Outcome GoString (List (ModuleCall M)) := do
  let inits ← initLoop initErr app.modulesArr
  return inits ++ app.modulesArr.map (ModuleCall.mk .afterInit)

/-- A loop of `shutdownModules`, with `i` turns left. -/
def downLoop (phase : Phase) (arr : List (ModuleWrapper M)) :
    ℕ → Outcome GoString (List (ModuleCall M))
  | 0 => .ok []
  | i + 1 => do
    let w ← Outcome.index arr i
    return ⟨phase, w⟩ :: (← downLoop phase arr i)

/-- The source's `shutdownModules`. An error of `Shutdown` is logged and
nothing more. -/
def shutdownModules (app : Modules M) : Outcome GoString (List (ModuleCall M)) := do
  let before ← downLoop .beforeShutdown app.modulesArr app.modulesArr.length
  let stops ← downLoop .shutdown app.modulesArr app.modulesArr.length
  return before ++ stops

/-- **The source's `Start`, as its modules see it**: from its registrations
to the end of `shutdownModules`. -/
def start (own : OwnModules M) (app : Modules M) : Outcome GoString (List (ModuleCall M)) := do
  let app ← registerOwn own app
  let up ← startModules initErr app
  let down ← shutdownModules app
  return up ++ down

end App

end Nrpc
