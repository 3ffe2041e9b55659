import Nrpc.Client.Isolation
import Nrpc.Client.Model.Request
import Nrpc.Common.Decimal
import Nrpc.Server.Intake
/-!
# Client and server read one request alike

The timeout, the start time and the id of a request are filled in by the
client, each under a rule of its own for what counts as missing, travel as
strings in a JSON document, and are read by the server under other rules.
Whatever the context of the call has under the three keys, as long as it
is strings the server can parse, both ends come to the same values
(`request_agrees`): the server measures a request against the duration the
client waits for, from the instant the client has in its context, under
the id the client knows.
-/

namespace Nrpc

namespace Client

open Context Server

variable {lib : Lib} {h : Store} {ctx : Ctx} {env : CallEnv} {data : List UInt8}
variable {m : PropagateMap} {r : ℕ}

/-! ## The property -/

/-- **The values a call may find**: strings, where there are values, and
times the server can parse. -/
structure Presentable (lib : Lib) (m : PropagateMap) : Prop where
  timeout : ∀ v, m.get? requestTimeout = some v →
    ∃ s d, v = .string s ∧ lib.parseDuration s = .ok d
  startTime : ∀ v, m.get? startTimeKey = some v → ∃ s t, v = .string s ∧ parseInt64 s = some t
  requestID : ∀ v, m.get? requestIDKey = some v → ∃ s, v = .string s

/-- The document of the map has its strings under the three keys, as
`encoding/json` does with strings of valid UTF-8. -/
def RoundTrips (json : Json) (m : PropagateMap) : Prop :=
  ∀ doc, json.marshal m = .ok doc → doc ≠ [] ∧ ∃ entries, json.parse doc = .ok (.object entries) ∧
    ∀ key ∈ [requestTimeout, startTimeKey, requestIDKey], ∀ s,
      index m key = .string s → index (ofEntries entries) key = .string s

/-- **The server agrees with the client**: on the duration the client waits
for, on the instant in the context the client rebuilt, and on the id there,
which is not empty. -/
structure ReadsAlike (sent : Sent) (ctx : Ctx) (h : Store) (start timeout : ℤ) : Prop where
  timeout : timeout = sent.timeout
  startTime : ∃ s, getFromPropagateCtx sent.heap (some sent.ctx) startTimeKey = .string s ∧
    parseInt64 s = some start
  requestID : ∃ id, id ≠ [] ∧
    getFromPropagateCtx sent.heap (some sent.ctx) requestIDKey = .string id ∧
    getFromPropagateCtx h (some ctx) requestIDKey = .string id

/-! ## The stamped values -/

/-- The request id behind the stamps is a string that is not empty. -/
theorem index_stamp_requestIDKey (hnuid : env.nuid ≠ [])
    (hm : ∀ v, m.get? requestIDKey = some v → ∃ s, v = .string s) :
    ∃ id, id ≠ [] ∧ index (stamp m env) requestIDKey = .string id := by
  have hstamp : index (stamp m env) requestIDKey =
      index (setRequestID (m.set routeKey (.string env.route)) env.nuid) requestIDKey := by
    rw [index_stamp (by decide) (by decide) (by decide), stampOwn,
      index_setIfNil_of_ne (by decide), index_setIfNil_of_ne (by decide)]
  have hroute : index (m.set routeKey (.string env.route)) requestIDKey = index m requestIDKey :=
    index_set_of_ne (by decide)
  rw [hstamp, setRequestID, hroute]
  rcases hget : m.get? requestIDKey with _ | v
  · have hnil : index m requestIDKey = .nil := by simp [index, hget]
    rw [hnil]
    exact ⟨env.nuid, hnuid, index_set_self⟩
  · obtain ⟨s, rfl⟩ := hm v hget
    have hstring : index m requestIDKey = .string s := by simp [index, hget]
    rw [hstring]
    rcases s with _ | ⟨b, s⟩
    · exact ⟨env.nuid, hnuid, index_set_self⟩
    · exact ⟨b :: s, List.cons_ne_nil b s, hroute.trans hstring⟩

/-- **A value stamped where there was none can be read**, if the stamp can
and every value that may be there. -/
theorem exists_orString {reads : GoString → ℤ → Prop} {key own : GoString} {a₀ : ℤ}
    (hm : ∀ v, m.get? key = some v → ∃ s a, v = .string s ∧ reads s a) (hown : reads own a₀) :
    ∃ s a, orString own (index m key) = .string s ∧ reads s a ∧ (m.get? key = none → a = a₀) := by
  rcases hget : m.get? key with _ | v
  · have hnil : index m key = .nil := by simp [index, hget]
    rw [hnil]
    exact ⟨own, a₀, rfl, hown, fun _ => rfl⟩
  · obtain ⟨s, a, rfl, hread⟩ := hm v hget
    have hstring : index m key = .string s := by simp [index, hget]
    rw [hstring]
    exact ⟨s, a, rfl, hread, fun h => by cases h⟩

/-- The timeout behind the stamps, the call's own where there was none. -/
theorem stamped_timeout {d₀ : ℤ} (hm : Presentable lib m)
    (hown : lib.parseDuration env.reqTimeout = .ok d₀) :
    ∃ s d, index (stamp m env) requestTimeout = .string s ∧ lib.parseDuration s = .ok d ∧
      (m.get? requestTimeout = none → d = d₀) := by
  rw [index_stamp_requestTimeout]
  exact exists_orString hm.timeout hown

/-- The start time behind the stamps, the call's own where there was
none. -/
theorem stamped_startTime {now : Int64} (hm : Presentable lib m) (hnow : env.now = now.toInt) :
    ∃ s t, index (stamp m env) startTimeKey = .string s ∧ parseInt64 s = some t ∧
      (m.get? startTimeKey = none → t = env.now) := by
  have hown : parseInt64 (formatInt env.now) = some env.now := by
    rw [hnow]
    exact parseInt64_formatInt now.le_toInt now.toInt_lt
  rw [index_stamp_startTimeKey]
  exact exists_orString hm.startTime hown

/-! ## What is sent -/

/-- The variable of the call is what the stamped map has. -/
theorem reqTimeoutOf_map :
    reqTimeoutOf h ⟨some (some r)⟩ env =
      .ok (index (stamp (h.read r) env) requestTimeout) := by
  have hread : index (setRequestID ((h.read r).set routeKey (.string env.route)) env.nuid)
      requestTimeout = index (h.read r) requestTimeout := by
    rw [index_setRequestID_of_ne (by decide), index_set_of_ne (by decide)]
  simp only [reqTimeoutOf, toMap_map, assign, Outcome.ok_bind, stampRequestID_map, get_map,
    Heap.read_write_self, hread, index_stamp_requestTimeout]
  split
  · rename_i hnil
    rw [hnil]
    rfl
  · rename_i hnil
    rw [orString.eq_2 _ _ hnil]
    rfl

theorem reqTimeoutOf_bare :
    reqTimeoutOf h ⟨none⟩ env = .ok (index (stamp .empty env) requestTimeout) := by
  rw [index_stamp_requestTimeout, index_empty]
  simp [reqTimeoutOf, assign, stampRequestID, orString]

/-- A map with a value in it is encoded as a document. -/
theorem encode_stamp {r' : ℕ} (hread : h.read r' = stamp m env) :
    encode lib.json h (some ⟨some (some r')⟩) = lib.json.marshal (stamp m env) := by
  have hmem : peerServiceKey ∈ (stamp m env).keys := by
    rw [GoMap.mem_keys]
    simp [stamp]
  have hcard : 0 < (stamp m env).keys.card := Finset.card_pos.2 ⟨_, hmem⟩
  simp only [encode, toMap_map, contents_some, hread, if_pos hcard]

/-- The request of a call with some metadata. -/
def requestOf (env : CallEnv) (data metadata : List UInt8) : Request :=
  ⟨some ⟨0, env.route, data, [], .msgRequest⟩, metadata⟩

/-- **What a call sends**: the stamped values of its context, as a
document, and what it waits for, by the same values. -/
theorem sendRequest_eq (lib : Lib) (h : Store) (data : List UInt8)
    {carrier : List (GoString × GoString)} (hrun : env.running = true)
    (hinject : env.inject = .ok carrier) (hmap : ctx.propagate ≠ some none) :
    ∃ r h', h'.read r = stamp (values h ctx) env ∧
      sendRequest lib h ctx env data = (do
        let metadata ← .ofExcept (lib.json.marshal (stamp (values h ctx) env))
        let timeout ← waitTime lib (index (stamp (values h ctx) env) requestTimeout)
        return ⟨requestOf env data metadata, timeout, ⟨some (some r)⟩, h'⟩) := by
  obtain ⟨_ | _ | r⟩ := ctx
  · have hvalues : values h ⟨none⟩ = .empty := by simp [values]
    refine ⟨h.next, h.alloc (stamp .empty env), by rw [hvalues]; simp, ?_⟩
    have hread : (h.alloc (stamp .empty env)).read h.next = stamp .empty env := by simp
    have hbuild : buildRequest (h.alloc (stampOwn .empty env)) ⟨some (some h.next)⟩ env =
        .ok (⟨some (some h.next)⟩, h.alloc (stamp .empty env)) := by
      simp [buildRequest_map, hinject, stamp, Except.toOption]
    rw [hvalues, sendRequest, if_neg (by simp [hrun]), reqTimeoutOf_bare, stampCall_bare]
    simp only [Outcome.ok_bind, hbuild, encode_stamp hread]
    rfl
  · exact absurd rfl hmap
  · have hvalues : values h ⟨some (some r)⟩ = h.read r := rfl
    refine ⟨r, h.write r (stamp (h.read r) env), by rw [hvalues]; simp, ?_⟩
    have hread : (h.write r (stamp (h.read r) env)).read r = stamp (h.read r) env := by simp
    have hbuild : buildRequest (h.write r (stampOwn (h.read r) env)) ⟨some (some r)⟩ env =
        .ok (⟨some (some r)⟩, h.write r (stamp (h.read r) env)) := by
      simp [buildRequest_map, hinject, stamp, Except.toOption]
    rw [hvalues, sendRequest, if_neg (by simp [hrun]), reqTimeoutOf_map, stampCall_map]
    simp only [Outcome.ok_bind, hbuild, encode_stamp hread]
    rfl

/-- A call that sends is one of a running client, on a context that can be
written. -/
theorem running_of_sendRequest {sent : Sent} (hsent : sendRequest lib h ctx env data = .ok sent) :
    env.running = true ∧ ctx.propagate ≠ some none := by
  unfold sendRequest at hsent
  split at hsent
  · cases hsent
  · rename_i hrun
    refine ⟨by simpa using hrun, ?_⟩
    intro hnil
    obtain ⟨propagate⟩ := ctx
    obtain rfl : propagate = some none := hnil
    have hpanic : reqTimeoutOf h ⟨some none⟩ env = .panic := rfl
    rw [hpanic] at hsent
    cases hsent

/-! ## What is read -/

/-- The server keeps a request id that is there. -/
theorem index_taggedMap_requestID {nuid route id : GoString} (hid : id ≠ [])
    (hm : index m requestIDKey = .string id) :
    index (taggedMap m nuid route) requestIDKey = .string id := by
  obtain ⟨b, rest, rfl⟩ := List.exists_cons_of_ne_nil hid
  rw [taggedMap, hm]
  exact (index_set_of_ne (by decide)).trans hm

/-- **The server reads the strings of the document it decodes.** -/
theorem server_reads (lib : Lib) (hs : Store) (req : Request) (nuid : GoString)
    {s d id : GoString} {start timeout : ℤ} {entries : List (GoString × GoValue)}
    (hne : req.metadata ≠ []) (hparse : lib.json.parse req.metadata = .ok (.object entries))
    (hstart : index (ofEntries entries) startTimeKey = .string s) (hs' : parseInt64 s = some start)
    (htimeout : index (ofEntries entries) requestTimeout = .string d)
    (hd : lib.parseDuration d = .ok timeout)
    (hid : index (ofEntries entries) requestIDKey = .string id) (hidne : id ≠ []) :
    ∃ ctx' h', getContextFromRequest lib.json hs req nuid = .ok (ctx', h') ∧
      parseRequestTimeout lib h' ctx' = .ok (start, timeout) ∧
      getFromPropagateCtx h' (some ctx') requestIDKey = .string id := by
  refine ⟨_, _, getContextFromRequest_object hne hparse, ?_, ?_⟩
  · have htagged : ∀ key, key ≠ requestIDKey → key ≠ routeKey →
        getFromPropagateCtx (hs.alloc (taggedMap (ofEntries entries) nuid req.route))
          (some ⟨some (some hs.next)⟩) key = index (ofEntries entries) key := by
      intro key hkeyID hkeyRoute
      rw [get_map, Heap.read_alloc_next, index_taggedMap hkeyID hkeyRoute]
    have hread := htagged requestTimeout (by decide) (by decide)
    have hread' := htagged startTimeKey (by decide) (by decide)
    simp only [parseRequestTimeout, parseTimeout, hread, hread', hstart, hs', htimeout, hd]
    rfl
  · rw [get_map, Heap.read_alloc_next]
    exact index_taggedMap_requestID hidne hid

/-- **Client and server agree on a request.** Whatever a call of type
`Request` has sent, the server rebuilds a context from it and reads the
client's timeout, the client's start time and the client's id; times the
context of the call did not have are the configured timeout and the time of
the call. A running client sends from every context that can be written
and marshalled. -/
theorem request_agrees (lib : Lib) (durationString : Int64 → GoString)
    (config : NatsRPCClientConfig) (client : NatsRPCClient) (h : Store) (ctx : Ctx)
    (env : CallEnv) (data : List UInt8) (now : Int64)
    (hclient : configure config = .ok client)
    (htimeout : env.reqTimeout = durationString client.reqTimeout)
    (hduration : lib.parseDuration (durationString client.reqTimeout) =
      .ok client.reqTimeout.toInt)
    (hnow : env.now = now.toInt) (hnuid : env.nuid ≠ [])
    (hinject : ∃ carrier, env.inject = .ok carrier)
    (hvalues : Presentable lib (values h ctx))
    (hjson : RoundTrips lib.json (stamp (values h ctx) env)) :
    (∀ sent, sendRequest lib h ctx env data = .ok sent → ∀ hs nuid, ∃ ctx' h' start timeout,
      getContextFromRequest lib.json hs sent.request nuid = .ok (ctx', h') ∧
      parseRequestTimeout lib h' ctx' = .ok (start, timeout) ∧
      ReadsAlike sent ctx' h' start timeout ∧
      ((values h ctx).get? requestTimeout = none → timeout = config.requestTimeout.toInt) ∧
      ((values h ctx).get? startTimeKey = none → start = env.now)) ∧
    (env.running = true → ctx.propagate ≠ some none →
      (∃ doc, lib.json.marshal (stamp (values h ctx) env) = .ok doc) →
      ∃ sent, sendRequest lib h ctx env data = .ok sent) := by
  obtain ⟨carrier, hcarrier⟩ := hinject
  have hconfig : client.reqTimeout = config.requestTimeout := by
    unfold configure at hclient
    split at hclient
    · cases hclient
    · split at hclient
      · cases hclient
      · obtain rfl := Except.ok.inj hclient
        rfl
  obtain ⟨d, timeout, hd, hdparse, hdown⟩ := stamped_timeout hvalues (htimeout ▸ hduration)
  obtain ⟨s, start, hs, hsparse, hsown⟩ := stamped_startTime hvalues hnow
  obtain ⟨id, hidne, hid⟩ := index_stamp_requestIDKey hnuid hvalues.requestID
  have hwait : waitTime lib (index (stamp (values h ctx) env) requestTimeout) = .ok timeout := by
    simp only [hd, waitTime, hdparse]
  constructor
  · intro sent hsent hs' nuid
    obtain ⟨hrun, hmap⟩ := running_of_sendRequest hsent
    obtain ⟨r, h', hread, heq⟩ := sendRequest_eq lib h data hrun hcarrier hmap
    rw [heq, hwait] at hsent
    obtain ⟨doc, hdoc, hrest⟩ := Outcome.bind_eq_ok_iff.1 hsent
    obtain rfl := Outcome.ok.inj hrest
    obtain ⟨hne, entries, hparse, hkeep⟩ := hjson doc (Outcome.ofExcept_eq_ok_iff.1 hdoc)
    obtain ⟨ctx', h'', hrebuilt, htimes, hserverID⟩ :=
      server_reads lib hs' (requestOf env data doc) nuid hne hparse
        (hkeep startTimeKey (by simp) s hs) hsparse (hkeep requestTimeout (by simp) d hd) hdparse
        (hkeep requestIDKey (by simp) id hid) hidne
    refine ⟨ctx', h'', start, timeout, hrebuilt, htimes, ⟨rfl, ⟨s, ?_, hsparse⟩,
      id, hidne, ?_, hserverID⟩, ?_, hsown⟩
    · rw [get_map, hread, hs]
    · rw [get_map, hread, hid]
    · intro hnone
      rw [hdown hnone, hconfig]
  · rintro hrun hmap ⟨doc, hdoc⟩
    obtain ⟨r, h', -, heq⟩ := sendRequest_eq lib h data hrun hcarrier hmap
    rw [heq, hdoc, hwait]
    exact ⟨_, rfl⟩

/-! ## A call -/

/-- The metadata of the call below, as `encoding/json` writes it. -/
def joinDocument : GoString :=
  -- the opening brace
  0x7B :: lit ("\"opentracing-span\":\x7b\x7d,\"peer.id\":\"connector-1\"," ++
    "\"peer.service\":\"connector\",\"req-route\":\"room.room.join\"," ++
    "\"req-start-time\":\"1700000000000000000\",\"reqTimeout\":\"2s\",\"request.id\":\"a\"\x7d")

/-- What it reads there. -/
def joinEntries : List (GoString × GoValue) :=
  [(spanPropagateCtxKey, .object []), (peerIDKey, .string (lit "connector-1")),
    (peerServiceKey, .string (lit "connector")), (routeKey, .string (lit "room.room.join")),
    (startTimeKey, .string (lit "1700000000000000000")), (requestTimeout, .string (lit "2s")),
    (requestIDKey, .string (lit "a"))]

/-- The library, on one document and the durations of this call. -/
def joinLib : Lib where
  json :=
    { marshal := fun _ => .ok joinDocument
      parse := fun doc =>
        if doc = joinDocument then .ok (.object joinEntries)
        else .error (lit "invalid character") }
  parseDuration := fun s =>
    if s = lit "2s" then .ok 2000000000
    else if s = lit "5s" then .ok 5000000000
    else .error (lit "time: invalid duration")

/-- A context with a timeout and an empty request id. -/
def joinValues : PropagateMap :=
  (GoMap.empty.set requestTimeout (.string (lit "2s"))).set requestIDKey (.string [])

/-- The call goes out, and the server reads two seconds, the time of the
call and the id of the call. -/
theorem request_agrees_join :
    let h : Store := ⟨fun _ => joinValues, 1⟩
    let env := callAt 1700000000000000000 (lit "a")
    ∃ sent, sendRequest joinLib h ⟨some (some 0)⟩ env [] = .ok sent ∧
      sent.timeout = 2000000000 ∧ ∀ hs nuid, ∃ ctx' h' start timeout,
        getContextFromRequest joinLib.json hs sent.request nuid = .ok (ctx', h') ∧
        parseRequestTimeout joinLib h' ctx' = .ok (start, timeout) ∧
        ReadsAlike sent ctx' h' start timeout ∧ start = 1700000000000000000 := by
  intro h env
  have hvalues : Presentable joinLib (values h ⟨some (some 0)⟩) := by
    refine ⟨?_, ?_, ?_⟩
    · intro v hv
      obtain rfl : GoValue.string (lit "2s") = v := Option.some.inj hv
      exact ⟨_, 2000000000, rfl, rfl⟩
    · intro v hv
      cases hv
    · intro v hv
      obtain rfl : GoValue.string [] = v := Option.some.inj hv
      exact ⟨_, rfl⟩
  have hjson : RoundTrips joinLib.json (stamp (values h ⟨some (some 0)⟩) env) := by
    intro doc hdoc
    obtain rfl : joinDocument = doc := Except.ok.inj hdoc
    refine ⟨List.cons_ne_nil _ _, joinEntries, by simp only [joinLib, if_true], ?_⟩
    intro key hkey s hs
    simp only [List.mem_cons, List.not_mem_nil, or_false] at hkey
    rcases hkey with rfl | rfl | rfl
    · exact hs
    · exact hs
    · exact hs
  have hagrees := request_agrees joinLib (fun _ => lit "5s")
    ⟨lit "nats://localhost:4222", 5000000000⟩ ⟨lit "nats://localhost:4222", 5000000000⟩ h
    ⟨some (some 0)⟩ env [] 1700000000000000000 (by decide) rfl rfl rfl (by decide) ⟨[], rfl⟩
    hvalues hjson
  obtain ⟨sent, hsent⟩ := hagrees.2 rfl (by decide) ⟨joinDocument, rfl⟩
  refine ⟨sent, hsent, ?_, ?_⟩
  · obtain rfl := Outcome.ok.inj hsent
    rfl
  · intro hs nuid
    obtain ⟨ctx', h', start, timeout, hrebuilt, htimes, halike, -, hstart⟩ :=
      hagrees.1 sent hsent hs nuid
    exact ⟨ctx', h', start, timeout, hrebuilt, htimes, halike, hstart rfl⟩

end Client

end Nrpc
