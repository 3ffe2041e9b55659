import Nrpc.Common.GoMap
import Nrpc.Common.Text
/-!
# The route dictionary

The two package-level maps of `conn/message`, route to code and code to
route, and `SetDictionary`, which extends them one entry at a time. A
call ranges over a Go map, so its entries come in any order, with
distinct routes; a conflict ends the call and leaves the entries before
it in place.
-/

namespace Nrpc

namespace Messages

/-- `routes` and `codes`. -/
structure Dictionary where
  /-- route map to code -/
  routes : GoMap GoString UInt16
  /-- code map to route -/
  codes : GoMap UInt16 GoString

/-- The maps before any call. -/
def Dictionary.empty : Dictionary := ⟨.empty, .empty⟩

/-- The text of both duplication errors. -/
def duplicatedRoute (r : GoString) (code : UInt16) : GoString :=
  lit "duplicated route(route: " ++ r ++ lit ", code: " ++ itoa code.toNat ++ lit ")"

/-- One turn of the loop of `SetDictionary`. -/
def setEntry (dict : Dictionary) (route : GoString) (code : UInt16) :
    Except GoString Dictionary :=
  let r := trimSpace route
  -- duplication check
  if (dict.routes.get? r).isSome then .error (duplicatedRoute r code)
  else if (dict.codes.get? code).isSome then .error (duplicatedRoute r code)
  else .ok ⟨dict.routes.set r code, dict.codes.set code r⟩

/-- `SetDictionary` on the entries of its argument, in the order the
range visits them: the error returned, if any, and the maps it leaves. A
nil argument has no entries. -/
def setDictionary (dict : Dictionary) :
    List (GoString × UInt16) → Option GoString × Dictionary
  | [] => (none, dict)
  | (route, code) :: entries =>
    match setEntry dict route code with
    | .error e => (some e, dict)
    | .ok dict' => setDictionary dict' entries

/-- One turn of the loop of `GetDictionary`. -/
def copyEntry (dict : Dictionary) (copy : GoMap GoString UInt16) (k : GoString) :
    GoMap GoString UInt16 :=
  match dict.routes.get? k with
  | some v => copy.set k v
  | none => copy

/-- `GetDictionary`: a copy of `routes`, made in the order the range visits
its keys. -/
def getDictionary (dict : Dictionary) (ks : List GoString) : GoMap GoString UInt16 :=
  ks.foldl (copyEntry dict) .empty

/-- The states of the two maps that `SetDictionary` calls lead to. -/
inductive Reachable : Dictionary → Prop
  | empty : Reachable .empty
  | call {dict : Dictionary} {entries : List (GoString × UInt16)} :
      Reachable dict → (entries.map Prod.fst).Nodup →
      Reachable (setDictionary dict entries).2

end Messages

end Nrpc
