import Nrpc.Context.Model.Context
/-!
# The readers of propagated values

Two values of the map are maps themselves: the tags of the metrics and the
carrier of the span. Each has a reader of its own, which goes by the dynamic
type of the value.
-/

namespace Nrpc

namespace Context

/-! ## Metric tags -/

def metricTagsKey : GoString := lit "metric-tags"

/-- A `map[string]string`, which may be nil. -/
abbrev Tags := Option (GoMap GoString GoString)

/-- A `map[string]string` in an interface. -/
def ofTags : Tags → GoValue
  | none => .nilOf .strings
  | some m => .strings m

/-- The source's `AddMetricTagsToPropagateCtx`. -/
def addMetricTagsToPropagateCtx (h : Store) (ctx : Option Ctx) (tags : Tags) :
    Outcome GoString (Ctx × Store) :=
  addToPropagateCtx h ctx metricTagsKey (ofTags tags)

/-- The source's `tagsFromContext`: no tags when the type assertion fails. -/
def tagsFromContext (h : Store) (ctx : Option Ctx) : Tags :=
  match getFromPropagateCtx h ctx metricTagsKey with
  | .strings m => some m
  | .nilOf .strings => none
  | _ => some .empty

/-- The source's `getTags`, on a map that is not nil. -/
def getTags (o : GoMap.Order GoString GoString) (h : Store) (ctx : Option Ctx)
    (tags : GoMap GoString GoString) : GoMap GoString GoString :=
  let fromContext := (tagsFromContext h ctx).getD .empty
  tags.fill fromContext.get? (o.range fromContext)

/-! ## The span carrier -/

def errInvalidSpanCarrier : GoString := lit "tracing: invalid span carrier"

/-- `v.(string)`. -/
def asString : GoValue → Option GoString
  | .string s => some s
  | _ => none

/-- The map of a carrier's entries. -/
def carrierMap (entries : List (GoString × GoString)) : GoMap GoString GoString :=
  entries.foldl (fun m e => m.set e.1 e.2) .empty

/-- The source's `castValueToCarrier`; a nil carrier is `none`. Values that
are not strings are logged and left out. -/
def castValueToCarrier (o : GoMap.Order GoString GoValue) :
    GoValue → Except GoString (Option (GoMap GoString GoString))
  | .carrier entries => .ok (some (carrierMap entries))
  | .nilOf .carrier => .ok none
  | .object entries =>
    let m := ofEntries entries
    .ok (some (GoMap.empty.fill (fun k => (m.get? k).bind asString) (o.range m)))
  | .nilOf .object => .ok (some .empty)
  | _ => .error errInvalidSpanCarrier

end Context

end Nrpc
