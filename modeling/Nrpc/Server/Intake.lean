import Nrpc.Context.Access
import Nrpc.Server.Model.Request
/-!
# Which metadata the server survives

The metadata is a document of the caller's choosing. Three places behind
it are not guarded. `GetContextFromRequest` writes to the decoded map, and
the document `null` decodes to a nil map without error. And
`parseRequestTimeout` asserts that the start time, and behind a start time
it can parse the timeout, are strings. `Harmless` is the metadata that
reaches none of the three, and it is exactly the metadata `processMessages`
survives (`intake_survives_iff`).
-/

namespace Nrpc

namespace Server

open Context

variable {json : Json} {lib : Lib} {h : Store} {req : Request} {nuid : GoString}
variable {m : PropagateMap} {r : ℕ}

/-- Nil, or a string: what an unchecked assertion behind a nil check
survives. -/
def NilOrString : GoValue → Prop
  | .nil | .string _ => True
  | _ => False

theorem nilOrString_iff {v : GoValue} : NilOrString v ↔ v = .nil ∨ ∃ s, v = .string s := by
  cases v <;> simp [NilOrString]

/-- The start time is nil or a string, and so is the timeout if it is
looked at. -/
def TimesHarmless (m : PropagateMap) : Prop :=
  NilOrString (index m startTimeKey) ∧
    ∀ s, index m startTimeKey = .string s → (parseInt64 s).isSome →
      NilOrString (index m requestTimeout)

/-- **Harmless metadata**: empty, no document, or a document that is not
`null` and, if an object, has harmless times. -/
def Harmless (json : Json) (metadata : List UInt8) : Prop :=
  metadata = [] ∨
    match json.parse metadata with
    | .ok .nil => False
    | .ok (.object entries) => TimesHarmless (ofEntries entries)
    | _ => True

/-! ## The rebuilt context -/

/-- What `GetContextFromRequest` leaves in the decoded map. -/
def taggedMap (m : PropagateMap) (nuid route : GoString) : PropagateMap :=
  match index m requestIDKey with
  | .string (_ :: _) => m.set routeKey (.string route)
  | _ => (m.set requestIDKey (.string nuid)).set routeKey (.string route)

/-- Only the request id and the route are touched. -/
theorem index_taggedMap {route k : GoString} (hid : k ≠ requestIDKey) (hroute : k ≠ routeKey) :
    index (taggedMap m nuid route) k = index m k := by
  unfold taggedMap
  split
  · rw [index_set_of_ne hroute]
  · rw [index_set_of_ne hroute, index_set_of_ne hid]

/-- **An object becomes a context with a map of its own.** -/
theorem getContextFromRequest_object {entries : List (GoString × GoValue)}
    (hne : req.metadata ≠ []) (hparse : json.parse req.metadata = .ok (.object entries)) :
    getContextFromRequest json h req nuid =
      .ok (⟨some (some h.next)⟩, h.alloc (taggedMap (ofEntries entries) nuid req.route)) := by
  simp only [getContextFromRequest, decode_object hne hparse, Outcome.ofExcept_ok, Outcome.ok_bind,
    ensureRequestID, taggedMap, get_map, Heap.read_alloc_next]
  split <;> simp_all

/-- The document `null` is a nil map, and the first write to it panics. -/
theorem getContextFromRequest_null (hne : req.metadata ≠ [])
    (hparse : json.parse req.metadata = .ok .nil) :
    getContextFromRequest json h req nuid = .panic := by
  have hdecode : decode json h req.metadata = .ok (some ⟨some none⟩, h) := by
    simp only [decode, if_neg hne, unmarshalMap, hparse]
    rfl
  simp [getContextFromRequest, hdecode, ensureRequestID]

/-- An error of the decoder is the error of the step. -/
theorem getContextFromRequest_error {e : GoString} (hne : req.metadata ≠ [])
    (herr : unmarshalMap json req.metadata = .error e) :
    getContextFromRequest json h req nuid = .err e := by
  have hdecode : decode json h req.metadata = .error e := by
    simp only [decode, if_neg hne, herr]
    rfl
  simp [getContextFromRequest, hdecode, Outcome.ofExcept]

/-! ## The times -/

theorem parseTimeout_eq_panic_iff :
    parseTimeout lib h ⟨some (some r)⟩ = .panic ↔
      ¬ NilOrString (index (h.read r) requestTimeout) := by
  simp only [parseTimeout, get_map]
  split
  · simp [NilOrString, *]
  · split <;> simp [NilOrString, *]
  · rename_i hnil hstr
    refine iff_of_true rfl ?_
    intro hv
    rcases nilOrString_iff.1 hv with hv | ⟨s, hv⟩
    · exact hnil hv
    · exact hstr s hv

/-- **The assertions on the times hold exactly when they are harmless.** -/
theorem parseRequestTimeout_eq_panic_iff :
    parseRequestTimeout lib h ⟨some (some r)⟩ = .panic ↔ ¬ TimesHarmless (h.read r) := by
  unfold TimesHarmless
  simp only [parseRequestTimeout, get_map]
  split
  · simp [NilOrString, *]
  · rename_i s hs
    rcases hparse : parseInt64 s with _ | start
    · simp [hs, NilOrString, hparse]
    · simp [hs, NilOrString, hparse, Outcome.bind_eq_panic_iff, parseTimeout_eq_panic_iff]
  · rename_i hnil hstr
    refine iff_of_true rfl ?_
    rintro ⟨hv, -⟩
    rcases nilOrString_iff.1 hv with hv | ⟨s, hv⟩
    · exact hnil hv
    · exact hstr s hv

/-! ## The two steps -/

/-- The request id and the route are kept under keys of their own. -/
theorem timesHarmless_taggedMap {route : GoString} :
    TimesHarmless (taggedMap m nuid route) ↔ TimesHarmless m := by
  have hstart : index (taggedMap m nuid route) startTimeKey = index m startTimeKey :=
    index_taggedMap (by decide) (by decide)
  have htimeout : index (taggedMap m nuid route) requestTimeout = index m requestTimeout :=
    index_taggedMap (by decide) (by decide)
  unfold TimesHarmless
  rw [hstart, htimeout]

theorem intake_object {entries : List (GoString × GoValue)} (hne : req.metadata ≠ [])
    (hparse : lib.json.parse req.metadata = .ok (.object entries)) :
    intake lib h req nuid = .crash ↔ ¬ TimesHarmless (ofEntries entries) := by
  have hpanic := @parseRequestTimeout_eq_panic_iff lib
    (h.alloc (taggedMap (ofEntries entries) nuid req.route)) h.next
  rw [Heap.read_alloc_next, timesHarmless_taggedMap] at hpanic
  rw [← hpanic]
  simp only [intake, getContextFromRequest_object hne hparse]
  split <;> simp [*]

theorem intake_error {e : GoString} (hne : req.metadata ≠ [])
    (herr : unmarshalMap lib.json req.metadata = .error e) :
    intake lib h req nuid = .reject (errorResponse errInternalCode e) := by
  simp only [intake, getContextFromRequest_error hne herr]

/-- **The server dies of a request exactly when its metadata is not
harmless.** -/
theorem intake_eq_crash_iff :
    intake lib h req nuid = .crash ↔ ¬ Harmless lib.json req.metadata := by
  by_cases hne : req.metadata = []
  · simp [intake, getContextFromRequest, decode, hne, Harmless, Pure.pure, Except.pure]
  · rw [Harmless, or_iff_right hne]
    rcases hparse : lib.json.parse req.metadata with e | v
    · have herr : unmarshalMap lib.json req.metadata = .error e := by
        simp only [unmarshalMap, hparse]
      simp [intake_error hne herr]
    · cases v with
      | nil => simp [intake, getContextFromRequest_null hne hparse]
      | object entries => exact intake_object hne hparse
      | _ =>
        -- every other document is a type error
        rw [intake_error hne (by simp only [unmarshalMap, hparse]; rfl)]
        simp

/-- An error of either step is answered with the internal error code. -/
theorem intake_eq_reject {resp : Response} (hi : intake lib h req nuid = .reject resp) :
    ∃ e, resp = errorResponse errInternalCode e := by
  unfold intake at hi
  split at hi
  · cases hi
  · cases hi
    exact ⟨_, rfl⟩
  · split at hi
    · cases hi
    · cases hi
      exact ⟨_, rfl⟩
    · cases hi

/-- **A request that is taken in gets a context with a map of its own**,
at a reference that was free before. -/
theorem intake_eq_ready {ctx : Ctx} {h' : Store} {start timeout : ℤ}
    (hi : intake lib h req nuid = .ready ctx h' start timeout) :
    ctx = ⟨some (some h.next)⟩ ∧ ∃ m, h' = h.alloc m := by
  have hne : req.metadata ≠ [] := by
    intro hnil
    simp [intake, getContextFromRequest, decode, hnil, Pure.pure, Except.pure] at hi
  rcases hparse : unmarshalMap lib.json req.metadata with e | m?
  · rw [intake_error hne hparse] at hi
    cases hi
  · unfold unmarshalMap at hparse
    split at hparse
    · cases hparse
    · -- `null` does not come as far as a context
      rename_i hnull
      simp [intake, getContextFromRequest_null hne hnull] at hi
    · rename_i entries hobject
      simp only [intake, getContextFromRequest_object hne hobject] at hi
      split at hi
      · cases hi
      · cases hi
      · cases hi
        exact ⟨rfl, _, rfl⟩
    · cases hparse

/-- **Harmless metadata is what the server survives.** Whatever the
document, the library functions and the memory before, the two steps give
a context, a start time and a timeout, or an error that is answered with
the internal error code, exactly when the metadata is harmless. -/
theorem intake_survives_iff (lib : Lib) (h : Store) (req : Request) (nuid : GoString) :
    ((∃ ctx h' start timeout, intake lib h req nuid = .ready ctx h' start timeout) ∨
      ∃ e, intake lib h req nuid = .reject (errorResponse errInternalCode e)) ↔
    Harmless lib.json req.metadata := by
  rw [← not_iff_not, ← @intake_eq_crash_iff lib h req nuid]
  rcases hi : intake lib h req nuid with ⟨ctx, h', start, timeout⟩ | ⟨resp⟩ | _
  · simp
  · obtain ⟨e, rfl⟩ := intake_eq_reject hi
    simp
  · simp

/-- A decoder that knows two documents, as `encoding/json` reads them:
`null`, and an object whose start time is a number. -/
def twoDocuments : Json where
  parse := fun data =>
    if data = lit "null" then .ok .nil
    else if data = lit "\x7b\"req-start-time\":1\x7d" then
      -- the bits of the float64 one
      .ok (.object [(startTimeKey, .float64 0x3FF0000000000000)])
    else .error (lit "invalid character")
  marshal := fun _ => .ok []

/-- **Two requests that end the server**: metadata `null` writes to a nil
map, and a numeric start time fails the assertion to a string. -/
theorem intake_crashes :
    let lib : Lib := ⟨twoDocuments, fun _ => .ok 0⟩
    let msg : Msg := ⟨1, lit "room.room.join", [], lit "reply", .msgRequest⟩
    let h : Store := ⟨fun _ => .empty, 0⟩
    intake lib h ⟨some msg, lit "null"⟩ (lit "id") = .crash ∧
      intake lib h ⟨some msg, lit "\x7b\"req-start-time\":1\x7d"⟩ (lit "id") = .crash := by
  refine ⟨rfl, rfl⟩

end Server

end Nrpc
