import Nrpc.Common.GoMap
import Nrpc.Common.Heap
import Nrpc.Common.Outcome
import Nrpc.Common.Text
/-!
# Propagated values

The values that travel with a remote call live in a map stored in the
context under one key. The context holds a reference to the map: `ToMap`
returns the stored map itself, and whoever writes to it writes to the map
of every context that holds the same reference. So maps stand on a heap,
and a context is what it has under the key: nothing, a nil map, or a
reference.

The other values of a context are left to where they are read: its span to
`Tracing.Model.Span`, its logger to `Service.Model.Remote`.
-/

namespace Nrpc

namespace Context

/-! ## Values -/

/-- The reference types among the dynamic types below. -/
inductive RefType
  | slice
  | object
  | carrier
  | strings
deriving DecidableEq

/-- A value of type `interface{}`, by its dynamic type. -/
inductive GoValue
  | nil
  | bool (b : Bool)
  /-- A `float64`, by its bits. -/
  | float64 (bits : UInt64)
  | string (s : GoString)
  /-- A `[]interface{}`. -/
  | slice (vs : List GoValue)
  /-- A `map[string]interface{}`; a later entry replaces an earlier one. -/
  | object (entries : List (GoString × GoValue))
  /-- An `opentracing.TextMapCarrier`. -/
  | carrier (entries : List (GoString × GoString))
  /-- A `map[string]string`. -/
  | strings (m : GoMap GoString GoString)
  /-- A slice or map that is nil, in an interface that is not. -/
  | nilOf (t : RefType)
  /-- A value of any other type. -/
  | other (id : ℕ)

/-- A `map[string]interface{}`. -/
abbrev PropagateMap := GoMap GoString GoValue

/-- The map a list of entries makes, later entries over earlier ones. -/
def ofEntries (entries : List (GoString × GoValue)) : PropagateMap :=
  entries.foldl (fun m e => m.set e.1 e.2) .empty

/-! ## `encoding/json` -/

/-- What the code relies on in `encoding/json`: the value of a document
as it is stored in an `interface{}` (numbers as `float64`), or the text of
the syntax error; and the document of a map. -/
structure Json where
  parse : List UInt8 → Except GoString GoValue
  marshal : PropagateMap → Except GoString (List UInt8)

/-- What a type error calls a document. -/
def jsonKind : GoValue → GoString
  | .bool _ => lit "bool"
  | .float64 _ => lit "number"
  | .string _ => lit "string"
  | _ => lit "array"

/-- `json.Unmarshal` into a `map[string]interface{}`: an object is the map,
the document `null` makes the map nil without error, and anything else is a
type error. -/
def unmarshalMap (json : Json) (data : List UInt8) : Except GoString (Option PropagateMap) :=
  match json.parse data with
  | .error e => .error e
  | .ok .nil => .ok none
  | .ok (.object entries) => .ok (some (ofEntries entries))
  | .ok v => .error (lit "json: cannot unmarshal " ++ jsonKind v ++
      lit " into Go value of type map[string]interface \x7b\x7d")

/-! ## The keys of the map -/

def spanPropagateCtxKey : GoString := lit "opentracing-span"
def peerIDKey : GoString := lit "peer.id"
def peerServiceKey : GoString := lit "peer.service"
def startTimeKey : GoString := lit "req-start-time"
def requestIDKey : GoString := lit "request.id"
def routeKey : GoString := lit "req-route"
def shareIDKey : GoString := lit "share.id"
def requestTimeout : GoString := lit "reqTimeout"

/-! ## Contexts -/

/-- A value of map type: nil, or a reference. -/
abbrev MapRef := Option ℕ

/-- The maps in memory. -/
abbrev Store := Heap PropagateMap

/-- A context, by what it has under `PropagateCtxKey`. -/
structure Ctx where
  propagate : Option MapRef
deriving DecidableEq

/-- `context.Background()`. -/
def background : Ctx := ⟨none⟩

/-- The map a context holds, or a new one; a nil context has none. -/
def toMap (h : Store) (ctx : Option Ctx) : MapRef × Store :=
  match ctx.bind Ctx.propagate with
  | some p => (p, h)
  | none => (some h.next, h.alloc .empty)

/-- A new context that holds the given map. -/
def fromMap (p : MapRef) : Ctx := ⟨some p⟩

/-- The contents of a map; a nil map reads as empty. -/
def contents (h : Store) (p : MapRef) : PropagateMap := (p.map h.read).getD .empty

/-- `m[key]` without a second result: nil when the key is absent. -/
def index (m : PropagateMap) (key : GoString) : GoValue := (m.get? key).getD .nil

/-- `m[key] = val`. -/
def assign (h : Store) (p : MapRef) (key : GoString) (val : GoValue) : Outcome GoString Store :=
  match p with
  | none => .panic
  | some r => .ok (h.write r ((h.read r).set key val))

/-- The source's `AddToPropagateCtx`. `context.WithValue` panics on a nil
parent, behind the write. -/
def addToPropagateCtx (h : Store) (ctx : Option Ctx) (key : GoString) (val : GoValue) :
    Outcome GoString (Ctx × Store) := do
  let (p, h) := toMap h ctx
  let h ← assign h p key val
  match ctx with
  | none => .panic
  | some _ => return (⟨some p⟩, h)

/-- The source's `GetFromPropagateCtx`. A map made for the lookup is
dropped. -/
def getFromPropagateCtx (h : Store) (ctx : Option Ctx) (key : GoString) : GoValue :=
  let (p, h) := toMap h ctx
  index (contents h p) key

/-- The values a context propagates. -/
def values (h : Store) (ctx : Ctx) : PropagateMap :=
  let (p, h) := toMap h (some ctx)
  contents h p

/-- The source's `Encode`: no bytes for an empty map. -/
def encode (json : Json) (h : Store) (ctx : Option Ctx) : Except GoString (List UInt8) :=
  let (p, h) := toMap h ctx
  let m := contents h p
  if 0 < m.keys.card then json.marshal m else .ok []

/-- The source's `Decode`: a nil context for no bytes. -/
def decode (json : Json) (h : Store) (data : List UInt8) :
    Except GoString (Option Ctx × Store) := do
  if data = [] then return (none, h)
  match ← unmarshalMap json data with
  | none => return (some (fromMap none), h)
  | some m => return (some (fromMap (some h.next)), h.alloc m)

end Context

end Nrpc
