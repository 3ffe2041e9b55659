import Nrpc.Client.Hop
import Nrpc.Tracing.Model.Span
/-!
# The spans of a program are its calls

The map a context propagates is shared and written to by every call made
with it, and the carrier of the span is in that map. So what parent a call
finds depends on what was called before. In a context with a span it does
not: the span of the context comes first. A handler is given such a
context, and the request that brought it there carries the span of the call
whatever the map held before. So below the first caller the spans are the
tree of the calls (`spans_follow_calls`).

Only a caller without a span finds the traces of its own calls. Its first
call has the parent that the carrier in its map names, if there is a map;
each later one is taken for a child of the call before it, although the two
have nothing to do with each other but the context.
-/

namespace Nrpc

namespace Tracing

open Context Server Client

variable {P σ : Type}

/-! ## The property -/

/-- **Where a caller's next call has its parent from.** -/
inductive Source (σ : Type)
  /-- The span of the context. -/
  | span (s : σ)
  /-- No span and no map. -/
  | bare
  /-- No span: what the carrier in the map is read as. -/
  | map (parent : Except GoString (Option σ))

namespace Source

/-- What `ExtractSpan` returns. -/
def parent : Source σ → Except GoString (Option σ)
  | .span s => .ok (some s)
  | .bare => .ok none
  | .map parent => parent

/-- Behind a value that was added. -/
def add : Source σ → Source σ
  | .bare => .map (.ok none)
  | src => src

/-- Behind a call: one that writes to the map leaves its own span there. -/
def called (x : CallSpec P σ) : Source σ → Source σ
  | .map parent => .map (if x.running then .ok (some x.clientSpan) else parent)
  | src => src

end Source

/-- The source of a context. -/
def source (tracer : Tracer σ) (o : GoMap.Order GoString GoValue) (h : Store) (c : SpanCtx σ) :
    Source σ :=
  match c.span with
  | some s => .span s
  | none =>
    match c.ctx.propagate with
    | none => .bare
    | some _ => .map (extractSpan tracer o h c)

/-- **The span of the server is a child of the call it serves** and names
the caller. -/
structure Serves (caller : Process σ) (x : CallSpec P σ) (client server : Span σ) : Prop where
  parent : server.parent = some client.context
  context : server.context = x.serverSpan
  peer : (lit "peer.id", .string caller.serverID) ∈ server.tags ∧
    (lit "peer.service", .string caller.serverType) ∈ server.tags
  logged : server.logged = none

/-- The span of a call has its parent from the source, and logs what went
wrong with that; what goes wrong with the call it does not log. -/
structure Calls (src : Source σ) (x : CallSpec P σ) (client : Span σ) : Prop where
  parent : client.parent = reference src.parent
  context : client.context = x.clientSpan
  logged : client.logged = errorOf src.parent

/-- **The spans follow the calls of the program**, to its end or to a
panic. -/
def Follows (procs : P → Process σ) : Source σ → P → Prog P σ → Trace σ → Prop
  | src, p, .add _ _ rest, t => Follows procs src.add p rest t
  | _, _, .done, .done | _, _, .done, .panicked | _, _, .call .., .panicked => True
  | _, _, .done, .call .. | _, _, .call .., .done => False
  | src, p, .call x handler rest, .call client server below t =>
    Calls src x client ∧
      (∀ s ∈ server, Serves (procs p) x client s ∧
        Follows procs (.span x.serverSpan) x.target handler below) ∧
      Follows procs (src.called x) p rest t

/-- **The tracers of the processes read what the others write.** -/
def Speaks (procs : P → Process σ) : Prop :=
  ∀ p q s carrier, (procs p).tracer.inject s = .ok carrier →
    (procs q).tracer.extract (some (carrierMap carrier)) = .ok (some s)

/-- **A document brings the carrier and the names of the caller across.** -/
def Delivers (json : Json) (procs : P → Process σ) : Prop :=
  ∀ p s carrier m doc, (procs p).tracer.inject s = .ok carrier →
    index m spanPropagateCtxKey = .carrier carrier →
    index m peerIDKey = .string (procs p).serverID →
    index m peerServiceKey = .string (procs p).serverType → json.marshal m = .ok doc →
    doc ≠ [] ∧ ∃ entries, json.parse doc = .ok (.object entries) ∧
      ∀ k ∈ [spanPropagateCtxKey, peerIDKey, peerServiceKey],
        Carried (index m k) (index (ofEntries entries) k)

/-- The program leaves the key of the carrier to the calls. -/
def Prog.Plain : Prog P σ → Prop
  | .done => True
  | .add key _ rest => key ≠ spanPropagateCtxKey ∧ rest.Plain
  | .call _ handler rest => handler.Plain ∧ rest.Plain

/-! ## What a call writes -/

variable {lib : Lib} {procs : P → Process σ} {o : GoMap.Order GoString GoValue}
variable {h h' : Store} {ctx ctx' : Ctx} {c : SpanCtx σ} {env : CallEnv} {m : PropagateMap}
variable {tracer : Tracer σ} {carrier : List (GoString × GoString)} {src : Source σ} {p : P}

theorem index_stamp_span (hinject : env.inject = .ok carrier) :
    index (stamp m env) spanPropagateCtxKey = .carrier carrier := by
  rw [stamp, index_set_of_ne (by decide), index_set_of_ne (by decide), index_set_self, hinject]
  rfl

theorem index_stamp_peerID : index (stamp m env) peerIDKey = .string env.serverID := by
  rw [stamp, index_set_of_ne (by decide), index_set_self]

theorem index_stamp_peerService :
    index (stamp m env) peerServiceKey = .string env.serverType := by
  rw [stamp, index_set_self]

/-- **How a call ends, and what it leaves**: nothing was written, or the
caller is gone, or the map of the context, or a new one, was stamped, and is
what was sent. -/
inductive Attempted (lib : Lib) (h : Store) (ctx : Ctx) (env : CallEnv) : Flow × Store → Prop
  | idle : env.running = false → Attempted lib h ctx env (.failed, h)
  | panicked {h' : Store} : Attempted lib h ctx env (.panicked, h')
  | stamped {flow : Flow} {h' : Store} {carrier : List (GoString × GoString)}
      (running : env.running = true) (inject : env.inject = .ok carrier)
      (memory : ctx.propagate = none ∨ ∃ r, ctx.propagate = some (some r) ∧
        h' = h.write r (stamp (h.read r) env))
      (document : ∀ doc, flow = .sent doc →
        lib.json.marshal (stamp (values h ctx) env) = .ok doc) :
      Attempted lib h ctx env (flow, h')

/-- The end of a call, behind its stamps. -/
theorem attempted_of_stamped {reqCtx : Ctx} {notify : Bool} (running : env.running = true)
    (inject : env.inject = .ok carrier)
    (memory : ctx.propagate = none ∨ ∃ r, ctx.propagate = some (some r) ∧
      h' = h.write r (stamp (h.read r) env))
    (hencode : encode lib.json h' (some reqCtx) =
      lib.json.marshal (stamp (values h ctx) env)) :
    Attempted lib h ctx env
      (match encode lib.json h' (some reqCtx) with
      | .error _ => (.failed, h')
      | .ok metadata =>
        if notify then (.sent metadata, h')
        else
          match reqTimeoutOf h ctx env >>= waitTime lib with
          | .ok _ => (.sent metadata, h')
          | _ => (.panicked, h')) := by
  rw [hencode]
  cases hdoc : lib.json.marshal (stamp (values h ctx) env) with
  | error e => exact .stamped running inject memory (by simp)
  | ok doc =>
    have hsent : Attempted lib h ctx env (.sent doc, h') :=
      .stamped running inject memory fun _ hflow => by rw [hdoc, Flow.sent.inj hflow]
    dsimp only
    split
    · exact hsent
    · split
      · exact hsent
      · exact .panicked

theorem attempted (lib : Lib) (h : Store) (ctx : Ctx) (env : CallEnv) (notify : Bool) :
    Attempted lib h ctx env (attempt lib h ctx env notify) := by
  rw [attempt]
  by_cases hrun : env.running = true
  · rw [if_neg (by simp [hrun])]
    cases hinject : env.inject with
    | error e =>
      -- a nil context is refused when it is written to
      obtain ⟨_ | _ | r⟩ := ctx
      · simp only [stampCall_bare, buildRequest_map, hinject]
        exact .panicked
      · exact .panicked
      · simp only [stampCall_map, buildRequest_map, hinject]
        exact .panicked
    | ok carrier =>
      have hstamp (m : PropagateMap) : (((stampOwn m env).set spanPropagateCtxKey
          (.carrier carrier)).set peerIDKey (.string env.serverID)).set peerServiceKey
            (.string env.serverType) = stamp m env := by
        rw [stamp, hinject]
        rfl
      obtain ⟨_ | _ | r⟩ := ctx
      · have hvalues : values h ⟨none⟩ = .empty := by simp [values]
        simp only [stampCall_bare, buildRequest_map, hinject, Heap.read_alloc_next,
          Heap.alloc_write_next, hstamp]
        refine attempted_of_stamped hrun hinject (Or.inl rfl) ?_
        rw [hvalues]
        exact encode_stamp Heap.read_alloc_next
      · exact .panicked
      · simp only [stampCall_map, buildRequest_map, hinject, Heap.read_write_self,
          Heap.write_write, hstamp]
        exact attempted_of_stamped hrun hinject (Or.inr ⟨r, rfl, rfl⟩)
          (encode_stamp Heap.read_write_self)
  · rw [if_pos (by simpa using hrun)]
    exact .idle (by simpa using hrun)

/-! ## What is found -/

theorem parent_source : (source tracer o h c).parent = extractSpan tracer o h c := by
  obtain ⟨_ | s, ⟨_ | p⟩⟩ := c
  · have hnil : getFromPropagateCtx h (some ⟨none⟩) spanPropagateCtxKey = .nil := get_background
    simp only [source, Source.parent, extractSpan, hnil]
  · rfl
  · rfl
  · rfl

/-- What is extracted depends on the carrier alone. -/
theorem extractSpan_congr {c c' : SpanCtx σ} (hspan : c.span = c'.span)
    (hget : getFromPropagateCtx h (some c.ctx) spanPropagateCtxKey =
      getFromPropagateCtx h' (some c'.ctx) spanPropagateCtxKey) :
    extractSpan tracer o h c = extractSpan tracer o h' c' := by
  rw [extractSpan, extractSpan, hspan, hget]

/-- **A carrier is read as the span it was written for**, where it was
written and where a document brought it. -/
theorem extractSpan_of_carrier {v : GoValue} {span : σ}
    (hextract : tracer.extract (some (carrierMap carrier)) = .ok (some span))
    (hget : getFromPropagateCtx h (some ctx) spanPropagateCtxKey = v)
    (hv : v = .carrier carrier ∨ Carried (.carrier carrier) v) :
    extractSpan tracer o h ⟨none, ctx⟩ = .ok (some span) := by
  have hcast : castValueToCarrier o v = .ok (some (carrierMap carrier)) ∧ v ≠ .nil := by
    rcases hv with rfl | hcarried
    · exact ⟨rfl, by simp⟩
    · have hcarrier : IsCarrier (.carrier carrier) := trivial
      refine ⟨castValueToCarrier_of_carried o o hcarrier (by simp) hcarried, ?_⟩
      obtain ⟨entries, rfl, -⟩ := hcarried
      simp
  obtain ⟨hcast, hne⟩ := hcast
  simp only [extractSpan, hget]
  cases v with
  | nil => exact absurd rfl hne
  | _ =>
    rw [hcast]
    exact hextract

/-- A value under another key leaves the carrier. -/
theorem source_add {key : GoString} {val : GoValue} {span : Option σ}
    (hkey : key ≠ spanPropagateCtxKey)
    (hadd : addToPropagateCtx h (some ctx) key val = .ok (ctx', h')) :
    source tracer o h' ⟨span, ctx'⟩ = (source tracer o h ⟨span, ctx⟩).add := by
  cases span with
  | some s => rfl
  | none =>
    have hextract : extractSpan tracer o h' ⟨none, ctx'⟩ = extractSpan tracer o h ⟨none, ctx⟩ :=
      extractSpan_congr rfl (by rw [get_of_add hadd, if_neg hkey.symm])
    obtain ⟨_ | _ | r⟩ := ctx
    · rw [add_background] at hadd
      obtain ⟨rfl, rfl⟩ := Prod.mk.inj (Outcome.ok.inj hadd)
      show Source.map (extractSpan ..) = .map (.ok none)
      rw [hextract, ← parent_source]
      rfl
    · cases hadd
    · rw [add_map] at hadd
      obtain ⟨rfl, rfl⟩ := Prod.mk.inj (Outcome.ok.inj hadd)
      show Source.map (extractSpan ..) = .map (extractSpan ..)
      rw [hextract]

/-- **A call leaves its own carrier** in the map of a caller. -/
theorem source_called {x : CallSpec P σ} {flow : Flow} (hspeaks : Speaks procs)
    (hattempt : Attempted lib h c.ctx (x.env (procs p)) (flow, h')) (hflow : flow ≠ .panicked) :
    source (procs p).tracer o h' c = (source (procs p).tracer o h c).called x := by
  obtain ⟨_ | s, ctx⟩ := c
  · cases hattempt with
    | idle hrun =>
      have hrun : x.running = false := hrun
      obtain ⟨_ | m⟩ := ctx
      · rfl
      · simp [source, Source.called, hrun]
    | panicked => exact absurd rfl hflow
    | stamped hrun hinject hmemory hdocument =>
      have hrun : x.running = true := hrun
      obtain ⟨propagate⟩ := ctx
      rcases hmemory with hbare | ⟨r, hmap, rfl⟩
      · obtain rfl : propagate = none := hbare
        rfl
      · obtain rfl : propagate = some (some r) := hmap
        have hextract := @extractSpan_of_carrier σ o
          (h.write r (stamp (h.read r) (x.env (procs p)))) ⟨some (some r)⟩ (procs p).tracer _ _
          x.clientSpan (hspeaks p p _ _ hinject)
          (by rw [get_map, Heap.read_write_self, index_stamp_span hinject]) (Or.inl rfl)
        simp [source, Source.called, hrun, hextract]
  · rfl

/-- **The server finds the span of the call in the request.** -/
theorem exists_served {x : CallSpec P σ} {doc : List UInt8} (o : GoMap.Order GoString GoValue)
    (hspeaks : Speaks procs) (hdelivers : Delivers lib.json procs)
    (hinject : (x.env (procs p)).inject = .ok carrier)
    (hdoc : lib.json.marshal (stamp m (x.env (procs p))) = .ok doc) :
    ∃ ctx' hs, getContextFromRequest lib.json x.memory (x.request doc) x.serverNuid =
        .ok (ctx', hs) ∧
      ∀ client : Span σ, client.context = x.clientSpan → Serves (procs p) x client
        (startSpanFromRequest procs o x.target x.route x.serverSpan hs ctx') := by
  obtain ⟨hne, entries, hparse, hcarried⟩ := hdelivers p _ _ _ _ hinject
    (index_stamp_span hinject) index_stamp_peerID index_stamp_peerService hdoc
  -- what the server puts into the map is under two other keys
  have hget : ∀ key, key ≠ requestIDKey → key ≠ routeKey →
      getFromPropagateCtx (x.memory.alloc (taggedMap (ofEntries entries) x.serverNuid x.route))
        (some ⟨some (some x.memory.next)⟩) key = index (ofEntries entries) key := by
    intro key hid hroute
    rw [get_map, Heap.read_alloc_next, index_taggedMap hid hroute]
  have hspan := hcarried spanPropagateCtxKey (by simp)
  have hpeerID := hcarried peerIDKey (by simp)
  have hpeerService := hcarried peerServiceKey (by simp)
  rw [index_stamp_span hinject] at hspan
  rw [index_stamp_peerID, ← hget _ (by decide) (by decide)] at hpeerID
  rw [index_stamp_peerService, ← hget _ (by decide) (by decide)] at hpeerService
  have hparent : extractSpan (procs x.target).tracer o
      (x.memory.alloc (taggedMap (ofEntries entries) x.serverNuid x.route))
      ⟨none, ⟨some (some x.memory.next)⟩⟩ = .ok (some x.clientSpan) :=
    extractSpan_of_carrier (hspeaks p x.target _ _ hinject) (hget _ (by decide) (by decide))
      (Or.inr hspan)
  have hcontext : getContextFromRequest lib.json x.memory (x.request doc) x.serverNuid = _ :=
    getContextFromRequest_object hne hparse
  refine ⟨_, _, hcontext, fun client hclient => ⟨?_, rfl, ⟨?_, ?_⟩, rfl⟩⟩
  · rw [hclient]
    exact congrArg reference hparent
  · rw [← show _ = GoValue.string (procs p).serverID from hpeerID]
    simp [startSpanFromRequest, CallSpec.request, Request.route]
  · rw [← show _ = GoValue.string (procs p).serverType from hpeerService]
    simp [startSpanFromRequest, CallSpec.request, Request.route]

/-! ## The result -/

/-- There is nothing to follow behind a panic. -/
theorem follows_panicked (procs : P → Process σ) (src : Source σ) (p : P) (prog : Prog P σ) :
    Follows procs src p prog .panicked := by
  induction prog generalizing src p with
  | done => trivial
  | add key val rest ih => exact ih src.add p
  | call x handler rest _ _ => trivial

theorem calls_startCall (procs : P → Process σ) (o : GoMap.Order GoString GoValue) (p : P)
    (x : CallSpec P σ) (h : Store) (c : SpanCtx σ) :
    Calls (source (procs p).tracer o h c) x (startCall procs o p x h c) where
  parent := by rw [parent_source]; rfl
  context := rfl
  logged := by rw [parent_source]; rfl

/-- **The spans of a program are its calls.** Let the tracers of the
processes read what the others write into a carrier, the documents bring
carriers and the names of servers across, and the program leave the key of
the carrier alone. Whatever the caller has in its context and memory, and
however its calls and the calls of its handlers fare:

* the span of a server is a child of the span of the call it serves, and
  names the calling server as its peer;
* every call of a handler, however many it makes with its context, is a
  child of the span of the server it runs in;
* every call of a first caller with a span is a child of that span. For one
  without a span the first call has the parent of the carrier in the map of
  its context, and every other one is a child of the call before it; without
  a map either, each is a root;
* no error of a call is logged in a span. -/
theorem spans_follow_calls (lib : Lib) (procs : P → Process σ)
    (o : GoMap.Order GoString GoValue) (hspeaks : Speaks procs)
    (hdelivers : Delivers lib.json procs) (prog : Prog P σ) (hplain : prog.Plain) (p : P)
    (c : SpanCtx σ) (h : Store) :
    Follows procs (source (procs p).tracer o h c) p prog (trace lib procs o prog p c h) := by
  induction prog generalizing p c h with
  | done => trivial
  | add key val rest ih =>
    obtain ⟨hkey, hrest⟩ := hplain
    rw [trace]
    split
    · rename_i ctx h' hadd
      show Follows procs (source ..).add p rest _
      rw [← source_add hkey hadd]
      exact ih hrest p ⟨c.span, ctx⟩ h'
    · exact follows_panicked ..
  | call x handler rest ihHandler ihRest =>
    obtain ⟨hhandler, hrest⟩ := hplain
    have hattempt := attempted lib h c.ctx (x.env (procs p)) x.notify
    have hcalls := calls_startCall procs o p x h c
    rw [trace]
    generalize attempt lib h c.ctx (x.env (procs p)) x.notify = attempt at hattempt
    obtain ⟨flow, h'⟩ := attempt
    have hnext : flow ≠ .panicked → Follows procs ((source (procs p).tracer o h c).called x) p rest
        (trace lib procs o rest p c h') := by
      intro hflow
      rw [← source_called hspeaks hattempt hflow]
      exact ihRest hrest p c h'
    cases flow with
    | panicked => exact ⟨hcalls, by simp, follows_panicked ..⟩
    | failed => exact ⟨hcalls, by simp, hnext (by simp)⟩
    | sent doc =>
      have hrest := hnext (by simp)
      cases hattempt with
      | stamped hrun hinject hmemory hdocument =>
        obtain ⟨ctx', hs, hcontext, hserves⟩ :=
          exists_served o hspeaks hdelivers hinject (hdocument doc rfl)
        dsimp only
        split
        · exact ⟨hcalls, by simp, hrest⟩
        · rw [hcontext]
          refine ⟨hcalls, ?_, hrest⟩
          intro s hs'
          obtain rfl := Option.some.inj hs'
          exact ⟨hserves _ rfl, ihHandler hhandler x.target ⟨some x.serverSpan, ctx'⟩ hs⟩

/-! ### Two calls, the first of which is passed on twice -/

/-- The spans with their parents, those below a call before the next one. -/
def Trace.parents : Trace σ → List (σ × Option σ)
  | .done | .panicked => []
  | .call client server below rest =>
    (client.context, client.parent) :: (server.toList.map fun s => (s.context, s.parent)) ++
      below.parents ++ rest.parents

/-- Span contexts are bytes, and a carrier has the byte. -/
def byteTracer : Tracer UInt8 where
  inject span := .ok [(lit "span", [span])]
  extract
    | some carrier =>
      match carrier.get? (lit "span") with
      | some [span] => .ok (some span)
      | _ => .error (lit "opentracing: SpanContext not found in Extract carrier")
    | none => .error (lit "opentracing: SpanContext not found in Extract carrier")

/-- Two servers of one type. -/
def rooms (p : Bool) : Process UInt8 := ⟨byteTracer, [p.toUInt8], lit "room"⟩

theorem speaks_rooms : Speaks rooms := by
  intro p q span carrier hinject
  obtain rfl := Except.ok.inj hinject
  rfl

/-- A document has the carrier and the caller, and nothing else. -/
def spanLib : Lib where
  json :=
    { parse := fun
        | span :: peer :: type => .ok (.object
            [(spanPropagateCtxKey, .object [(lit "span", .string [span])]),
              (peerIDKey, .string [peer]), (peerServiceKey, .string type)])
        | _ => .error (lit "unexpected end of JSON input")
      marshal := fun m =>
        match index m spanPropagateCtxKey, index m peerIDKey, index m peerServiceKey with
        | .carrier [(_, [span])], .string [peer], .string type => .ok (span :: peer :: type)
        | _, _, _ => .error (lit "json: unsupported value") }
  parseDuration _ := .ok 5000000000

theorem delivers_spanLib : Delivers spanLib.json rooms := by
  intro p span carrier m doc hinject hspan hpeer htype hdoc
  obtain rfl := Except.ok.inj hinject
  have hdoc : spanLib.json.marshal m = .ok doc := hdoc
  simp only [spanLib, hspan, hpeer, htype, rooms] at hdoc
  obtain rfl := Except.ok.inj hdoc
  refine ⟨by simp, _, rfl, ?_⟩
  intro k hk
  simp only [List.mem_cons, List.not_mem_nil, or_false] at hk
  rcases hk with rfl | rfl | rfl
  · rw [hspan]
    exact readBack_object [(lit "span", [span])]
  · rw [hpeer]
    rfl
  · rw [htype]
    rfl

/-- A call between the two, with the contexts of its spans. -/
def roomCall (target : Bool) (client server : UInt8) : CallSpec Bool UInt8 where
  target := target
  running := true
  route := lit "room.room.join"
  nuid := lit "a"
  reqTimeout := lit "5s"
  now := 0
  notify := false
  data := []
  clientSpan := client
  taken := true
  memory := ⟨fun _ => .empty, 0⟩
  serverNuid := lit "b"
  serverSpan := server

def passedOn : Prog Bool UInt8 :=
  .call (roomCall true 1 2)
    (.call (roomCall false 3 4) .done (.call (roomCall false 5 6) .done .done))
    (.call (roomCall true 7 8) .done .done)

/-- Every call of the program is served. -/
theorem exists_trace_passedOn (o : GoMap.Order GoString GoValue) (c : SpanCtx UInt8)
    (hc : c.ctx = ⟨some (some 0)⟩) :
    ∃ c₁ s₂ c₃ s₄ c₅ s₆ c₇ s₈,
      trace spanLib rooms o passedOn false c ⟨fun _ => .empty, 1⟩ =
        .call c₁ (some s₂) (.call c₃ (some s₄) .done (.call c₅ (some s₆) .done .done))
          (.call c₇ (some s₈) .done .done) := by
  obtain ⟨span, ctx⟩ := c
  obtain rfl : ctx = ⟨some (some 0)⟩ := hc
  exact ⟨_, _, _, _, _, _, _, _, rfl⟩

/-- The handler has a span, and both of its calls are children of it. The
caller has none, and its second call is a child of its first. -/
theorem spans_follow_calls_rooms :
    ∃ o : GoMap.Order GoString GoValue,
      (trace spanLib rooms o passedOn false ⟨none, ⟨some (some 0)⟩⟩ ⟨fun _ => .empty, 1⟩).parents =
        [(1, none), (2, some 1), (3, some 2), (4, some 3), (5, some 2), (6, some 5),
          (7, some 1), (8, some 7)] := by
  have o : GoMap.Order GoString GoValue := .ofKeys
  refine ⟨o, ?_⟩
  have hfollows := spans_follow_calls spanLib rooms o speaks_rooms delivers_spanLib passedOn
    (by simp [passedOn, Prog.Plain]) false ⟨none, ⟨some (some 0)⟩⟩ ⟨fun _ => .empty, 1⟩
  obtain ⟨c₁, s₂, c₃, s₄, c₅, s₆, c₇, s₈, ht⟩ :=
    exists_trace_passedOn o ⟨none, ⟨some (some 0)⟩⟩ rfl
  rw [ht] at hfollows ⊢
  obtain ⟨h₁, hserved, h₇, hserved', -⟩ := hfollows
  obtain ⟨h₂, h₃, hserved₃, h₅, hserved₅, -⟩ := hserved s₂ rfl
  obtain ⟨h₄, -⟩ := hserved₃ s₄ rfl
  obtain ⟨h₆, -⟩ := hserved₅ s₆ rfl
  obtain ⟨h₈, -⟩ := hserved' s₈ rfl
  simp only [Trace.parents, Option.toList_some, List.map_cons, List.map_nil, h₁.context, h₁.parent,
    h₂.context, h₂.parent, h₃.context, h₃.parent, h₄.context, h₄.parent, h₅.context, h₅.parent,
    h₆.context, h₆.parent, h₇.context, h₇.parent, h₈.context, h₈.parent]
  rfl

end Tracing

end Nrpc
