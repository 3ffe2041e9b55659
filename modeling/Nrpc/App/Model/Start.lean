import Nrpc.App.Lifecycle
/-!
# `Start`, with its components and its hooks

`Start` registers its own modules, starts the components and then the
modules, waits, and shuts the modules and then the components down. The
hooks it calls on the way are code of the user, with the app at hand: each
may register further modules and components. So the slices are no data of a
run but part of its state. A `for range` keeps the slice it began with; the
loops of a shutdown count down from the length they began with and read the
slice as it is.

A call is noted when it begins. What a hook registers stands in `hooks`, one
value for each call; the errors of its registrations are its own affair. A
call of `Fatal` and a panic end the process, and what was called until then
is kept.
-/

namespace Nrpc

namespace App

/-- A call `Start` makes: of a method of a component or of a module, or of
`Register` of the remote service. -/
inductive Call (K M : Type)
  | component (phase : Phase) (comp : K)
  | register (comp : K)
  | module (phase : Phase) (w : ModuleWrapper M)

/-- What the code of a hook registers with the app. -/
structure Hook (K M : Type) where
  modules : List (Registration M)
  comps : List K

/-- The slices of an app and the calls `Start` has made. -/
structure Boot (K M : Type) where
  modules : Modules M
  remoteComp : List K
  calls : List (Call K M)

/-- How the process ends before `Start` returns. -/
inductive Exit
  | fatal
  | panic
deriving DecidableEq

variable {K M : Type}

/-- The app behind the code of a hook. -/
def Hook.run (hook : Hook K M) (b : Boot K M) : Boot K M :=
  { b with
    modules := registerAll b.modules hook.modules
    remoteComp := b.remoteComp ++ hook.comps }

/-- The slice of the modules. -/
def Boot.arr (b : Boot K M) : List (ModuleWrapper M) := b.modules.modulesArr

/-- What a run has called, however it ended. -/
def called : Except (Exit × Boot K M) (Boot K M) → List (Call K M)
  | .ok b => b.calls
  | .error (_, b) => b.calls

variable (hooks : Call K M → Hook K M) (initErr : GoString → Option GoString)

namespace Boot

/-- One call. -/
def call (b : Boot K M) (c : Call K M) : Boot K M :=
  (hooks c).run { b with calls := b.calls ++ [c] }

/-- A `for range` over a slice, which is read when the loop begins. -/
def sweep (b : Boot K M) (cs : List (Call K M)) : Boot K M := cs.foldl (call hooks) b

/-- The source's `startupComponents`. The errors of `Register` are logged
and nothing more. -/
def startupComponents (remoteService : Bool) (b : Boot K M) : Boot K M :=
  let b := b.sweep hooks (b.remoteComp.map (.component .init))
  let b := b.sweep hooks (b.remoteComp.map (.component .afterInit))
  if remoteService then b.sweep hooks (b.remoteComp.map .register) else b

/-- The first loop of `startModules`. -/
def initModules : List (ModuleWrapper M) → Boot K M → Except (Exit × Boot K M) (Boot K M)
  | [], b => .ok b
  | w :: ws, b =>
    let b := b.call hooks (.module .init w)
    match initErr w.name with
    | some _ => .error (.fatal, b)
    | none => initModules ws b

/-- The source's `startModules`. -/
def startModules (b : Boot K M) : Except (Exit × Boot K M) (Boot K M) := do
  let b ← initModules hooks initErr b.arr b
  return b.sweep hooks (b.arr.map (.module .afterInit))

/-- A loop down a slice, with `i` turns left: `slice` is the slice as the
turn finds it. -/
def countdown {α : Type} (slice : Boot K M → List α) (c : α → Call K M) :
    ℕ → Boot K M → Except (Exit × Boot K M) (Boot K M)
  | 0, b => .ok b
  | i + 1, b =>
    match (slice b)[i]? with
    | some x => countdown slice c i (b.call hooks (c x))
    | none => .error (.panic, b)

/-- The source's `shutdownModules`. -/
def shutdownModules (b : Boot K M) : Except (Exit × Boot K M) (Boot K M) := do
  let b ← countdown hooks arr (.module .beforeShutdown) b.arr.length b
  countdown hooks arr (.module .shutdown) b.arr.length b

/-- The source's `shutdownComponents`; its length is that of the beginning
for both loops. -/
def shutdownComponents (b : Boot K M) : Except (Exit × Boot K M) (Boot K M) := do
  let length := b.remoteComp.length
  let b ← countdown hooks remoteComp (.component .beforeShutdown) length b
  countdown hooks remoteComp (.component .shutdown) length b

/-- **The source's `Start`.** `running` is what is registered from the end
of the start until the app is told to stop. -/
def start (own : OwnModules M) (remoteService : Bool) (running : Hook K M) (b : Boot K M) :
    Except (Exit × Boot K M) (Boot K M) :=
  match registerOwn own b.modules with
  | .ok modules => do
    let b := startupComponents hooks remoteService { b with modules }
    let b ← startModules hooks initErr b
    let b ← shutdownModules hooks (running.run b)
    shutdownComponents hooks b
  | .err _ => .error (.fatal, b)
  | .panic => .error (.panic, b)

end Boot

end App

end Nrpc
