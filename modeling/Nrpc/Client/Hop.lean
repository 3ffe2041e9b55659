import Nrpc.Client.Agreement
import Nrpc.Context.Model.Readers
/-!
# Tags and carriers across a hop

A map of strings that is propagated is a `map[string]string` or a
`TextMapCarrier` where it was put in and a `map[string]interface{}` where it
is read back, since a document says nothing of types. The reader of the
span carrier knows both forms, the reader of the metric tags only the first.
So a hop keeps every carrier that is not nil and loses every tag
(`tags_survive_iff`).
-/

namespace Nrpc

namespace Client

open Context

variable {json : Json} {h : Store} {ctx : Ctx} {tags : Tags} {v w : GoValue}

/-! ## `encoding/json` -/

/-- A map of strings as the object it is read back as. -/
def ReadBack (m : GoMap GoString GoString) (v : GoValue) : Prop :=
  ∃ entries, v = .object entries ∧ ∀ k, (ofEntries entries).get? k = (m.get? k).map .string

/-- **What a value is read back as**: an object is a
`map[string]interface{}` whose strings are the strings that were written, and
a map that is nil is `null`. Of the values whose form no reader below depends
on nothing is said. -/
def Carried : GoValue → GoValue → Prop
  | .nil, v | .nilOf _, v => v = .nil
  | .string s, v => v = .string s
  | .strings m, v => ReadBack m v
  | .carrier entries, v => ReadBack (carrierMap entries) v
  | .object entries, v => ∃ entries', v = .object entries' ∧ ∀ k,
      ((ofEntries entries').get? k).isSome = ((ofEntries entries).get? k).isSome ∧
      ∀ s, (ofEntries entries).get? k = some (.string s) →
        (ofEntries entries').get? k = some (.string s)
  | _, _ => True

/-- The document of a map is an object with the values of the map. -/
def Carries (json : Json) (m : PropagateMap) : Prop :=
  ∀ doc, json.marshal m = .ok doc → doc ≠ [] ∧ ∃ entries,
    json.parse doc = .ok (.object entries) ∧ ∀ k, Carried (index m k) (index (ofEntries entries) k)

/-! ## The property -/

/-- A program that attaches tags and adds other values behind them. -/
def attach (h : Store) (ctx : Option Ctx) (tags : Tags) (later : List (GoString × GoValue)) :
    Outcome GoString (Ctx × Store) := do
  let (ctx, h) ← addMetricTagsToPropagateCtx h ctx tags
  later.foldlM (fun s e => addToPropagateCtx s.2 (some s.1) e.1 e.2) (ctx, h)

/-- The values that are span carriers: what `InjectSpan` puts into a
context, and the object of strings that a hop makes of it. -/
def IsCarrier : GoValue → Prop
  | .carrier _ | .nilOf .carrier => True
  | .object entries => ∀ k v, (ofEntries entries).get? k = some v → ∃ s, v = .string s
  | _ => False

/-- **The readers find on one side what they find on the other.** A nil map
has the tags of an empty one. -/
structure Survives (h : Store) (ctx : Ctx) (h' : Store) (ctx' : Ctx) : Prop where
  tags : (tagsFromContext h' (some ctx')).getD .empty = (tagsFromContext h (some ctx)).getD .empty
  getTags : ∀ o o' own, getTags o' h' (some ctx') own = getTags o h (some ctx) own
  carrier : ∀ o o', IsCarrier (getFromPropagateCtx h (some ctx) spanPropagateCtxKey) →
    castValueToCarrier o' (getFromPropagateCtx h' (some ctx') spanPropagateCtxKey) =
      castValueToCarrier o (getFromPropagateCtx h (some ctx) spanPropagateCtxKey)

/-! ## The hop -/

/-- A context and its memory, with tags attached. -/
def HasTags (tags : Tags) (s : Ctx × Store) : Prop :=
  getFromPropagateCtx s.2 (some s.1) metricTagsKey = ofTags tags

/-- Later additions under other keys leave the tags. -/
theorem hasTags_of_attach {ctx : Option Ctx} {later : List (GoString × GoValue)}
    {s : Ctx × Store} (hattach : attach h ctx tags later = .ok s)
    (hlater : ∀ e ∈ later, e.1 ≠ metricTagsKey) : HasTags tags s := by
  obtain ⟨⟨ctx₁, h₁⟩, htags, hrest⟩ := Outcome.bind_eq_ok_iff.1 hattach
  have hfirst : HasTags tags (ctx₁, h₁) := by
    rw [HasTags, get_of_add htags, if_pos rfl]
  refine Outcome.foldlM_invariant (I := HasTags tags) ?_ hfirst hrest
  intro s e s' he htagged hadd
  rw [HasTags, get_of_add hadd, if_neg (hlater e he).symm]
  exact htagged

/-- **What is read back of a context that has a value.** -/
theorem exists_decode {doc : List UInt8} {key : GoString} (hjson : Carries json (values h ctx))
    (hdoc : encode json h (some ctx) = .ok doc)
    (hkey : getFromPropagateCtx h (some ctx) key ≠ .nil) (hs : Store) :
    ∃ ctx' h', decode json hs doc = .ok (some ctx', h') ∧
      ∀ k, Carried (getFromPropagateCtx h (some ctx) k) (getFromPropagateCtx h' (some ctx') k) := by
  have hmem : key ∈ (values h ctx).keys := by
    rw [GoMap.mem_keys, Option.isSome_iff_ne_none]
    intro hnone
    refine hkey ?_
    show index (values h ctx) key = .nil
    rw [index, hnone]
    rfl
  have hmarshal : json.marshal (values h ctx) = .ok doc := by
    rw [← hdoc]
    exact (if_pos (Finset.card_pos.2 ⟨key, hmem⟩)).symm
  obtain ⟨hne, entries, hparse, hcarried⟩ := hjson doc hmarshal
  refine ⟨_, _, decode_object hne hparse, ?_⟩
  intro k
  rw [get_map, Heap.read_alloc_next]
  exact hcarried k

/-! ## The tags -/

/-- Tags that were read back are no tags to their reader. -/
theorem tagsFromContext_of_carried {h' : Store} {ctx' : Ctx}
    (hcarried : Carried (ofTags tags) (getFromPropagateCtx h' (some ctx') metricTagsKey)) :
    tagsFromContext h' (some ctx') = some .empty := by
  rcases tags with _ | m
  · have hnil : getFromPropagateCtx h' (some ctx') metricTagsKey = .nil := hcarried
    rw [tagsFromContext, hnil]
  · obtain ⟨entries, hobject, -⟩ := hcarried
    rw [tagsFromContext, hobject]

theorem tagsFromContext_of_get
    (hget : getFromPropagateCtx h (some ctx) metricTagsKey = ofTags tags) :
    tagsFromContext h (some ctx) = tags := by
  rw [tagsFromContext, hget]
  cases tags <;> rfl

/-- The tags of a report: those of the context over its own, in whatever
order they are copied. -/
theorem get?_getTags (o : GoMap.Order GoString GoString) (own : GoMap GoString GoString)
    (k : GoString) : (getTags o h (some ctx) own).get? k =
      (((tagsFromContext h (some ctx)).getD .empty).get? k).or (own.get? k) :=
  GoMap.get?_fill_range o _ fun _ hk => hk

/-! ## The carrier -/

/-- The strings of an object are its carrier. -/
theorem castValueToCarrier_object (o : GoMap.Order GoString GoValue)
    (entries : List (GoString × GoValue)) :
    ∃ m, castValueToCarrier o (.object entries) = .ok (some m) ∧
      ∀ k, m.get? k = ((ofEntries entries).get? k).bind asString := by
  refine ⟨_, rfl, fun k => ?_⟩
  rw [GoMap.get?_fill_range o _ fun k hk => by rw [hk]; rfl, GoMap.get?_empty, Option.or_none]

/-- **A carrier that is not nil is read back as it was.** -/
theorem castValueToCarrier_of_carried (o o' : GoMap.Order GoString GoValue) (hv : IsCarrier v)
    (hnil : v ≠ .nilOf .carrier) (hcarried : Carried v w) :
    castValueToCarrier o' w = castValueToCarrier o v := by
  cases v with
  | carrier entries =>
    obtain ⟨entries', rfl, hget⟩ := hcarried
    obtain ⟨m, hcast, hm⟩ := castValueToCarrier_object o' entries'
    have heq : m = carrierMap entries := by
      refine GoMap.ext fun k => ?_
      rw [hm, hget]
      cases (carrierMap entries).get? k <;> rfl
    rw [hcast, heq]
    rfl
  | object entries =>
    obtain ⟨entries', rfl, hget⟩ := hcarried
    obtain ⟨m, hcast, hm⟩ := castValueToCarrier_object o entries
    obtain ⟨m', hcast', hm'⟩ := castValueToCarrier_object o' entries'
    have heq : m' = m := by
      refine GoMap.ext fun k => ?_
      rw [hm, hm']
      obtain ⟨hkeys, hstrings⟩ := hget k
      rcases hk : (ofEntries entries).get? k with _ | x
      · rw [hk, Option.isSome_none, Option.isSome_eq_false_iff, Option.isNone_iff_eq_none] at hkeys
        rw [hkeys]
      · -- the object of a carrier has nothing but strings
        obtain ⟨s, rfl⟩ := hv k x hk
        rw [hstrings s hk]
    rw [hcast, hcast', heq]
  | nilOf t =>
    cases t with
    | carrier => exact absurd rfl hnil
    | _ => cases hv
  | _ => cases hv

/-- **Tags survive a hop exactly if there are none, and a carrier exactly if
it is not nil.** -/
theorem tags_survive_iff (json : Json) (h : Store) (ctx : Option Ctx) (tags : Tags)
    (later : List (GoString × GoValue)) (h' : Store) (ctx' : Ctx) (doc : List UInt8)
    (hattach : attach h ctx tags later = .ok (ctx', h'))
    (hlater : ∀ e ∈ later, e.1 ≠ metricTagsKey)
    (hdoc : encode json h' (some ctx') = .ok doc) (hjson : Carries json (values h' ctx'))
    (hs : Store) :
    ∃ received hr, decode json hs doc = .ok (some received, hr) ∧
      (Survives h' ctx' hr received ↔
        tags.getD .empty = .empty ∧
          getFromPropagateCtx h' (some ctx') spanPropagateCtxKey ≠ .nilOf .carrier) := by
  have htagged : HasTags tags (ctx', h') := hasTags_of_attach hattach hlater
  have hget : getFromPropagateCtx h' (some ctx') metricTagsKey = ofTags tags := htagged
  have hkey : getFromPropagateCtx h' (some ctx') metricTagsKey ≠ .nil := by
    rw [hget]
    cases tags <;> simp [ofTags]
  obtain ⟨received, hr, hdecode, hcarried⟩ := exists_decode hjson hdoc hkey hs
  refine ⟨received, hr, hdecode, ?_⟩
  have hbefore : tagsFromContext h' (some ctx') = tags := tagsFromContext_of_get hget
  have hbehind : tagsFromContext hr (some received) = some .empty := by
    have htags := hcarried metricTagsKey
    rw [hget] at htags
    exact tagsFromContext_of_carried htags
  constructor
  · intro hsurvives
    refine ⟨?_, ?_⟩
    · rw [← hbefore, ← hsurvives.tags, hbehind]
      rfl
    · intro hnil
      -- `null` is read back as nil, which is no carrier
      have hspan : getFromPropagateCtx hr (some received) spanPropagateCtxKey = .nil := by
        have := hcarried spanPropagateCtxKey
        rwa [hnil] at this
      have o : GoMap.Order GoString GoValue := .ofKeys
      have hcast := hsurvives.carrier o o (by rw [hnil]; trivial)
      rw [hnil, hspan] at hcast
      cases hcast
  · rintro ⟨hnone, hspan⟩
    have htags : (tagsFromContext hr (some received)).getD .empty =
        (tagsFromContext h' (some ctx')).getD .empty := by
      rw [hbehind, hbefore, hnone]
      rfl
    refine ⟨htags, fun o o' own => GoMap.ext fun k => ?_, fun o o' hv => ?_⟩
    · rw [get?_getTags, get?_getTags, htags]
    · exact castValueToCarrier_of_carried o o' hv hspan (hcarried spanPropagateCtxKey)

/-! ## Two documents -/

/-- The library, on one document. -/
def oneDocument (doc : List UInt8) (entries : List (GoString × GoValue)) : Json where
  marshal := fun _ => .ok doc
  parse := fun data =>
    if data = doc then .ok (.object entries) else .error (lit "invalid character")

theorem parse_oneDocument {doc : List UInt8} {entries : List (GoString × GoValue)} :
    (oneDocument doc entries).parse doc = .ok (.object entries) := if_pos rfl

theorem carries_oneDocument {doc : List UInt8} {entries : List (GoString × GoValue)}
    {m : PropagateMap} (hne : doc ≠ [])
    (hm : ∀ k, Carried (index m k) (index (ofEntries entries) k)) :
    Carries (oneDocument doc entries) m := by
  intro doc' hdoc
  obtain rfl : doc = doc' := Except.ok.inj hdoc
  exact ⟨hne, entries, parse_oneDocument, hm⟩

/-- The object with the entries of a map of strings. -/
theorem readBack_object (entries : List (GoString × GoString)) :
    ReadBack (carrierMap entries) (.object (entries.map fun e => (e.1, .string e.2))) := by
  have hloop : ∀ (l : List (GoString × GoString)) (m : GoMap GoString GoString)
      (m' : PropagateMap), (∀ k, m'.get? k = (m.get? k).map .string) → ∀ k,
      ((l.map fun e => (e.1, GoValue.string e.2)).foldl (fun m e => m.set e.1 e.2) m').get? k =
        ((l.foldl (fun m e => m.set e.1 e.2) m).get? k).map .string := by
    intro l
    induction l with
    | nil => exact fun m m' hm => hm
    | cons e l ih =>
      intro m m' hm
      refine ih _ _ fun k => ?_
      rw [GoMap.get?_set, GoMap.get?_set]
      split
      · rfl
      · exact hm k
  exact ⟨_, rfl, hloop entries .empty .empty fun k => rfl⟩

/-- A carrier with one entry. -/
def traceEntries : List (GoString × GoString) := [(lit "uber-trace-id", lit "1")]

/-- A context with an empty map of tags and a span, as `encoding/json` writes
it. -/
def spanJson : Json :=
  oneDocument
    (lit ("\x7b\"metric-tags\":\x7b\x7d," ++
      "\"opentracing-span\":\x7b\"uber-trace-id\":\"1\"\x7d\x7d"))
    [(metricTagsKey, .object []),
      (spanPropagateCtxKey, .object [(lit "uber-trace-id", .string (lit "1"))])]

/-- The span of a context without tags survives. -/
theorem tags_survive_iff_span :
    let h : Store := ⟨fun _ => .empty, 0⟩
    ∃ ctx' h' doc received hr,
      attach h (some background) (some .empty) [(spanPropagateCtxKey, .carrier traceEntries)] =
        .ok (ctx', h') ∧
      encode spanJson h' (some ctx') = .ok doc ∧
      decode spanJson h doc = .ok (some received, hr) ∧ Survives h' ctx' hr received := by
  intro h
  let m : PropagateMap :=
    (GoMap.empty.set metricTagsKey (.strings .empty)).set spanPropagateCtxKey
      (.carrier traceEntries)
  have hattach : attach h (some background) (some .empty)
      [(spanPropagateCtxKey, .carrier traceEntries)] = .ok (⟨some (some h.next)⟩, h.alloc m) := by
    simp [attach, addMetricTagsToPropagateCtx, background, ofTags, m]
  have hcarries : Carries spanJson (values (h.alloc m) ⟨some (some h.next)⟩) := by
    refine carries_oneDocument (by decide) fun k => ?_
    by_cases hspan : k = spanPropagateCtxKey
    · subst hspan
      exact readBack_object traceEntries
    · by_cases htags : k = metricTagsKey
      · subst htags
        exact readBack_object []
      · have hnil : index m k = .nil := by
          rw [index_set_of_ne hspan, index_set_of_ne htags, index_empty]
        have hnil' : index (ofEntries [(metricTagsKey, .object []), (spanPropagateCtxKey,
            .object [(lit "uber-trace-id", .string (lit "1"))])]) k = .nil := by
          rw [ofEntries, List.foldl_cons, List.foldl_cons, List.foldl_nil, index_set_of_ne hspan,
            index_set_of_ne htags, index_empty]
        show Carried (index m k) _
        rw [hnil, hnil']
        rfl
  obtain ⟨received, hr, hdecode, hiff⟩ := tags_survive_iff spanJson h (some background)
    (some .empty) [(spanPropagateCtxKey, .carrier traceEntries)] _ _ _ hattach (by decide) rfl
    hcarries h
  exact ⟨_, _, _, received, hr, hattach, rfl, hdecode, hiff.2 ⟨rfl, GoValue.noConfusion⟩⟩

/-- Tags with one entry. -/
def regionTags : GoMap GoString GoString := GoMap.empty.set (lit "region") (lit "eu")

/-- A context with these tags, as `encoding/json` writes it. -/
def regionDocument : List UInt8 := lit "\x7b\"metric-tags\":\x7b\"region\":\"eu\"\x7d\x7d"

/-- What it reads there. -/
def regionEntries : List (GoString × GoValue) :=
  [(metricTagsKey, .object [(lit "region", .string (lit "eu"))])]

def regionJson : Json := oneDocument regionDocument regionEntries

/-- **The tags are gone**: what was attached is read on the side that sends,
and nothing on the side that receives. -/
theorem tags_lost :
    let h : Store := ⟨fun _ => .empty, 0⟩
    ∃ ctx' h' doc received hr,
      addMetricTagsToPropagateCtx h (some background) (some regionTags) = .ok (ctx', h') ∧
      Carries regionJson (values h' ctx') ∧ encode regionJson h' (some ctx') = .ok doc ∧
      decode regionJson h doc = .ok (some received, hr) ∧
      tagsFromContext h' (some ctx') = some regionTags ∧ regionTags ≠ .empty ∧
      tagsFromContext hr (some received) = some .empty := by
  intro h
  let m : PropagateMap := GoMap.empty.set metricTagsKey (.strings regionTags)
  have hadd : addMetricTagsToPropagateCtx h (some background) (some regionTags) =
      .ok (⟨some (some h.next)⟩, h.alloc m) := by
    simp [addMetricTagsToPropagateCtx, background, ofTags, m]
  have hcarries : Carries regionJson (values (h.alloc m) ⟨some (some h.next)⟩) := by
    refine carries_oneDocument (by decide) fun k => ?_
    by_cases htags : k = metricTagsKey
    · subst htags
      exact readBack_object [(lit "region", lit "eu")]
    · show Carried (index m k) (index (GoMap.empty.set metricTagsKey _) k)
      rw [index_set_of_ne htags, index_set_of_ne htags, index_empty]
      rfl
  have hdecode : decode regionJson h regionDocument =
      .ok (some ⟨some (some h.next)⟩, h.alloc (ofEntries regionEntries)) :=
    decode_object (by decide) parse_oneDocument
  refine ⟨_, _, _, _, _, hadd, hcarries, rfl, hdecode, rfl, ?_, rfl⟩
  intro hempty
  have hget := congrArg (fun m => m.get? (lit "region")) hempty
  simp [regionTags] at hget

end Client

end Nrpc
