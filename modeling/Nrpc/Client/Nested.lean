import Nrpc.Client.Hop
/-!
# Calls made by handlers

A handler is given the context that `RemoteService.Call` rebuilds from the
request, may add values to it, and may call another server with it. So the
values of the first caller travel on, hop by hop, each of which stamps the
context, writes it as a document, and reads the document back in another
process.

`chain_inherits` says what the last handler of such a chain finds. The
timeout, the start time and the id are those of the first call, however many
calls lie between: nobody along the chain is given time of its own, while
each of the callers waits for the whole of the first one's timeout. The
route and the peer are those of the last call. And a text that was put into
the context anywhere along the chain is there, the last one under its key.
-/

namespace Nrpc

namespace Client

open Context Server

variable {lib : Lib} {s s' : Ctx × Store} {m : PropagateMap} {env : CallEnv}

/-! ## The chain -/

/-- A call by a handler: the values it adds to its context beforehand, the
call, and where the request is taken in. -/
structure Hop where
  adds : List (GoString × GoValue)
  env : CallEnv
  data : List UInt8
  /-- The memory of the process that is called, and the id it has at hand. -/
  memory : Store
  nuid : GoString

/-- Values are added to a context one after the other. -/
def addAll (s : Ctx × Store) (adds : List (GoString × GoValue)) : Outcome GoString (Ctx × Store) :=
  adds.foldlM (fun s e => addToPropagateCtx s.2 (some s.1) e.1 e.2) s

/-- **One hop**: what the call has in hand when it sends, and the context
the handler that is called is given. -/
def Hop.take (lib : Lib) (hop : Hop) (s : Ctx × Store) : Outcome GoString (Sent × Ctx × Store) := do
  let (ctx, h) ← addAll s hop.adds
  let sent ← sendRequest lib h ctx hop.env hop.data
  let s ← getContextFromRequest lib.json hop.memory sent.request hop.nuid
  return (sent, s)

/-- **A chain of hops**, each from the context of the handler before it. -/
def chain (lib : Lib) : Ctx × Store → List Hop → Outcome GoString (List Sent × Ctx × Store)
  | s, [] => .ok ([], s)
  | s, hop :: hops => do
    let (sent, s) ← hop.take lib s
    let (sents, s) ← chain lib s hops
    return (sent :: sents, s)

/-! ## The property -/

/-- What a context has under a key. -/
def reads (s : Ctx × Store) (key : GoString) : GoValue := getFromPropagateCtx s.2 (some s.1) key

/-- The keys a call writes under, and the server that takes it in. -/
def ownKeys : List GoString :=
  [routeKey, requestIDKey, requestTimeout, startTimeKey, spanPropagateCtxKey, peerIDKey,
    peerServiceKey]

/-- **A call that can be told apart and timed**, and whose handler leaves the
timeout, the start time and the id alone. -/
structure Hop.Ordinary (lib : Lib) (hop : Hop) : Prop where
  nuid : hop.env.nuid ≠ []
  timeout : ∃ d, lib.parseDuration hop.env.reqTimeout = .ok d
  now : ∃ t : Int64, hop.env.now = t.toInt
  inject : ∃ carrier, hop.env.inject = .ok carrier
  adds : ∀ e ∈ hop.adds, e.1 ∉ [requestTimeout, startTimeKey, requestIDKey]

/-- The values the first call may find: nothing, or strings that can be
read. -/
structure Fit (lib : Lib) (f : GoString → GoValue) : Prop where
  timeout : f requestTimeout = .nil ∨
    ∃ s d, f requestTimeout = .string s ∧ lib.parseDuration s = .ok d
  startTime : f startTimeKey = .nil ∨ ∃ s t, f startTimeKey = .string s ∧ parseInt64 s = some t
  requestID : NilOrString (f requestIDKey)

/-- An id, or another in the place of nil and of an empty one. -/
def orID (nuid : GoString) : GoValue → GoValue
  | .nil | .string [] => .string nuid
  | v => v

/-- **Where the timeout, the start time and the id of a chain come from**:
the context of the first call, or the first call itself. -/
structure Origin (lib : Lib) (f : GoString → GoValue) (env : CallEnv) (start timeout : ℤ)
    (id : GoString) : Prop where
  timeout : ∃ s, orString env.reqTimeout (f requestTimeout) = .string s ∧
    lib.parseDuration s = .ok timeout
  startTime : ∃ s, orString (formatInt env.now) (f startTimeKey) = .string s ∧
    parseInt64 s = some start
  requestID : orID env.nuid (f requestIDKey) = .string id ∧ id ≠ []

/-- **A call has inherited them**: the caller waits for the timeout, and
whatever server takes the request in reads the three values from it. -/
structure Inherited (lib : Lib) (start timeout : ℤ) (id : GoString) (sent : Sent) : Prop where
  waits : sent.timeout = timeout
  taken : ∀ hs nuid, ∃ ctx h, intake lib hs sent.request nuid = .ready ctx h start timeout ∧
    getFromPropagateCtx h (some ctx) requestIDKey = .string id

/-- The values under a key that are put in along a chain. -/
def added (hops : List Hop) (key : GoString) : List GoValue :=
  (hops.flatMap Hop.adds).filterMap fun e => if e.1 = key then some e.2 else none

/-! ## One hop -/

/-- What a context has behind several additions. -/
theorem reads_addAll {adds : List (GoString × GoValue)} (h : addAll s adds = .ok s')
    (key : GoString) :
    reads s' key =
      ((adds.filterMap fun e => if e.1 = key then some e.2 else none).getLast?).getD
        (reads s key) := by
  induction adds generalizing s with
  | nil =>
    obtain rfl : s = s' := by simpa [addAll] using h
    rfl
  | cons e adds ih =>
    obtain ⟨mid, hadd, hrest⟩ := Outcome.bind_eq_ok_iff.1 h
    have hmid : reads mid key = if key = e.1 then e.2 else reads s key := get_of_add hadd
    rw [ih hrest, hmid, List.filterMap_cons]
    by_cases hkey : e.1 = key
    · simp [hkey, List.getLast?_cons]
    · simp [hkey, Ne.symm hkey]

/-- Additions under other keys leave a value. -/
theorem reads_addAll_of_ne {adds : List (GoString × GoValue)} (h : addAll s adds = .ok s')
    {key : GoString} (hne : ∀ e ∈ adds, e.1 ≠ key) : reads s' key = reads s key := by
  have hnone : (adds.filterMap fun e => if e.1 = key then some e.2 else none) = [] := by
    rw [List.filterMap_eq_nil_iff]
    intro e he
    rw [if_neg (hne e he)]
  rw [reads_addAll h, hnone]
  rfl

theorem index_stamp_orID :
    index (stamp m env) requestIDKey = orID env.nuid (index m requestIDKey) := by
  have hroute : index (m.set routeKey (.string env.route)) requestIDKey = index m requestIDKey :=
    index_set_of_ne (by decide)
  rw [index_stamp (by decide) (by decide) (by decide), stampOwn, index_setIfNil_of_ne (by decide),
    index_setIfNil_of_ne (by decide), setRequestID, hroute]
  unfold orID
  split <;> simp_all

/-- A call leaves what it does not write. -/
theorem index_stamp_of_not_own {key : GoString} (hkey : key ∉ ownKeys) :
    index (stamp m env) key = index m key := by
  simp only [ownKeys, List.mem_cons, List.not_mem_nil, or_false, not_or] at hkey
  obtain ⟨hroute, hid, htimeout, hstart, hspan, hpeer, hservice⟩ := hkey
  rw [index_stamp hspan hpeer hservice, stampOwn, index_setIfNil_of_ne hstart,
    index_setIfNil_of_ne htimeout, index_setRequestID_of_ne hid, index_set_of_ne hroute]

/-- A text is read back as it was. -/
theorem eq_of_carried {v w : GoValue} (hv : NilOrString v) (h : Carried v w) : w = v := by
  rcases nilOrString_iff.1 hv with rfl | ⟨s, rfl⟩
  · exact h
  · exact h

/-- **What is sent, and what is found there.** -/
theorem take_spec {hop : Hop} {sent : Sent} (hhop : hop.Ordinary lib)
    (htake : hop.take lib s = .ok (sent, s'))
    (hjson : Carries lib.json (values sent.heap sent.ctx)) :
    ∃ mid entries, addAll s hop.adds = .ok mid ∧
      sent.request.route = hop.env.route ∧ sent.request.metadata ≠ [] ∧
      lib.json.parse sent.request.metadata = .ok (.object entries) ∧
      waitTime lib (index (stamp (values mid.2 mid.1) hop.env) requestTimeout) = .ok sent.timeout ∧
      (∀ key, NilOrString (index (stamp (values mid.2 mid.1) hop.env) key) →
        index (ofEntries entries) key = index (stamp (values mid.2 mid.1) hop.env) key) ∧
      s' = (⟨some (some hop.memory.next)⟩,
        hop.memory.alloc (taggedMap (ofEntries entries) hop.nuid hop.env.route)) := by
  obtain ⟨mid, hadds, hrest⟩ := Outcome.bind_eq_ok_iff.1 htake
  obtain ⟨sent', hsent, hrest⟩ := Outcome.bind_eq_ok_iff.1 hrest
  obtain ⟨s'', hcontext, hpair⟩ := Outcome.bind_eq_ok_iff.1 hrest
  obtain ⟨rfl, rfl⟩ := Prod.mk.inj (Outcome.ok.inj hpair)
  obtain ⟨hrun, hmap⟩ := running_of_sendRequest hsent
  obtain ⟨carrier, hinject⟩ := hhop.inject
  obtain ⟨r, h', hread, heq⟩ := sendRequest_eq lib mid.2 hop.data hrun hinject hmap
  rw [heq] at hsent
  obtain ⟨doc, hdoc, hrest⟩ := Outcome.bind_eq_ok_iff.1 hsent
  obtain ⟨timeout, htimeout, hrest⟩ := Outcome.bind_eq_ok_iff.1 hrest
  obtain rfl := Outcome.ok.inj hrest
  have hvalues : values h' ⟨some (some r)⟩ = stamp (values mid.2 mid.1) hop.env := hread
  simp only [hvalues] at hjson
  obtain ⟨hne, entries, hparse, hcarried⟩ := hjson doc (Outcome.ofExcept_eq_ok_iff.1 hdoc)
  refine ⟨mid, entries, hadds, rfl, hne, hparse, htimeout,
    fun key hkey => eq_of_carried hkey (hcarried key), ?_⟩
  have hrebuilt : getContextFromRequest lib.json hop.memory (requestOf hop.env hop.data doc)
      hop.nuid = _ := getContextFromRequest_object hne hparse
  exact (Outcome.ok.inj (hrebuilt.symm.trans hcontext)).symm

/-- The strings of an origin are what a call stamps. -/
theorem Origin.stamped {f : GoString → GoValue} {start timeout : ℤ} {id : GoString}
    (h : Origin lib f env start timeout id)
    (hm : ∀ key ∈ [requestTimeout, startTimeKey, requestIDKey], index m key = f key) :
    ∃ d t, lib.parseDuration d = .ok timeout ∧ parseInt64 t = some start ∧
      index (stamp m env) requestTimeout = .string d ∧
      index (stamp m env) startTimeKey = .string t ∧
      index (stamp m env) requestIDKey = .string id := by
  obtain ⟨d, hd, hdparse⟩ := h.timeout
  obtain ⟨t, ht, htparse⟩ := h.startTime
  refine ⟨d, t, hdparse, htparse, ?_, ?_, ?_⟩
  · rw [index_stamp_requestTimeout, hm _ (by simp), hd]
  · rw [index_stamp_startTimeKey, hm _ (by simp), ht]
  · rw [index_stamp_orID, hm _ (by simp), h.requestID.1]

/-- Strings that are there are the origin of every call. -/
theorem origin_of_strings {f : GoString → GoValue} {start timeout : ℤ} {id d t : GoString}
    (hd : lib.parseDuration d = .ok timeout) (ht : parseInt64 t = some start) (hid : id ≠ [])
    (hftimeout : f requestTimeout = .string d) (hfstart : f startTimeKey = .string t)
    (hfid : f requestIDKey = .string id) : Origin lib f env start timeout id := by
  obtain ⟨b, rest, rfl⟩ := List.exists_cons_of_ne_nil hid
  refine ⟨⟨d, ?_, hd⟩, ⟨t, ?_, ht⟩, ?_, hid⟩
  · rw [hftimeout]
    rfl
  · rw [hfstart]
    rfl
  · rw [hfid]
    rfl

/-- **A hop hands the three values on.** -/
theorem take_inherits {hop : Hop} {sent : Sent} {start timeout : ℤ} {id : GoString}
    (hhop : hop.Ordinary lib) (htake : hop.take lib s = .ok (sent, s'))
    (hjson : Carries lib.json (values sent.heap sent.ctx))
    (horigin : Origin lib (reads s) hop.env start timeout id) :
    Inherited lib start timeout id sent ∧ ∀ env, Origin lib (reads s') env start timeout id := by
  obtain ⟨mid, entries, hadds, hroute, hne, hparse, hwait, hkeep, rfl⟩ :=
    take_spec hhop htake hjson
  have hid : id ≠ [] := horigin.requestID.2
  obtain ⟨d, t, hd, ht, hmd, hmt, hmid⟩ := horigin.stamped (m := values mid.2 mid.1) <| by
    intro key hkey
    refine reads_addAll_of_ne hadds ?_
    rintro e he rfl
    exact hhop.adds e he hkey
  have hed := (hkeep requestTimeout (by rw [hmd]; trivial)).trans hmd
  have het := (hkeep startTimeKey (by rw [hmt]; trivial)).trans hmt
  have heid := (hkeep requestIDKey (by rw [hmid]; trivial)).trans hmid
  refine ⟨⟨?_, ?_⟩, ?_⟩
  · rw [hmd, waitTime] at hwait
    simp only [hd] at hwait
    exact (Outcome.ok.inj hwait).symm
  · intro hs nuid
    obtain ⟨ctx', h', hrebuilt, htimes, hserverID⟩ :=
      server_reads lib hs sent.request nuid hne hparse het ht hed hd heid hid
    refine ⟨ctx', h', ?_, hserverID⟩
    simp only [intake, hrebuilt, htimes]
  · intro env
    refine origin_of_strings hd ht hid ?_ ?_ ?_
    · show index _ requestTimeout = _
      rw [contents_some, Heap.read_alloc_next, index_taggedMap (by decide) (by decide), hed]
    · show index _ startTimeKey = _
      rw [contents_some, Heap.read_alloc_next, index_taggedMap (by decide) (by decide), het]
    · show index _ requestIDKey = _
      rw [contents_some, Heap.read_alloc_next, index_taggedMap_requestID hid heid]

/-- **A hop hands a text on**, the one its handler has added last or the one
that was there. -/
theorem take_reads {hop : Hop} {sent : Sent} {key : GoString} (hhop : hop.Ordinary lib)
    (htake : hop.take lib s = .ok (sent, s'))
    (hjson : Carries lib.json (values sent.heap sent.ctx)) (hkey : key ∉ ownKeys)
    (htext : NilOrString (reads s key))
    (hadds : ∀ e ∈ hop.adds, e.1 = key → NilOrString e.2) :
    NilOrString (reads s' key) ∧
      reads s' key = ((added [hop] key).getLast?).getD (reads s key) := by
  obtain ⟨mid, entries, hadd, hroute, hne, hparse, hwait, hkeep, rfl⟩ :=
    take_spec hhop htake hjson
  have hmid : reads mid key = ((added [hop] key).getLast?).getD (reads s key) := by
    rw [reads_addAll hadd, added, List.flatMap_cons, List.flatMap_nil, List.append_nil]
  have hmidText : NilOrString (reads mid key) := by
    rw [hmid]
    rcases hlast : (added [hop] key).getLast? with _ | v
    · exact htext
    · obtain ⟨e, he, hev⟩ := List.mem_filterMap.1 (List.mem_of_getLast? hlast)
      split at hev
      · rename_i hkeyEq
        obtain rfl := Option.some.inj hev
        exact hadds e (by simpa using he) hkeyEq
      · cases hev
  have hstamp : index (stamp (values mid.2 mid.1) hop.env) key = reads mid key :=
    index_stamp_of_not_own hkey
  have hentries : index (ofEntries entries) key = reads mid key := by
    rw [hkeep key (by rw [hstamp]; exact hmidText), hstamp]
  have hread : reads (⟨some (some hop.memory.next)⟩,
      hop.memory.alloc (taggedMap (ofEntries entries) hop.nuid hop.env.route)) key =
        reads mid key := by
    simp only [ownKeys, List.mem_cons, List.not_mem_nil, or_false, not_or] at hkey
    show index _ key = _
    rw [contents_some, Heap.read_alloc_next, index_taggedMap hkey.2.1 hkey.1, hentries]
  rw [hread]
  exact ⟨hmidText, hmid⟩

/-- The caller the handler is told of is the last one. -/
structure From (env : CallEnv) (s : Ctx × Store) : Prop where
  route : reads s routeKey = .string env.route
  peerID : reads s peerIDKey = .string env.serverID
  peerService : reads s peerServiceKey = .string env.serverType

theorem take_from {hop : Hop} {sent : Sent} (hhop : hop.Ordinary lib)
    (htake : hop.take lib s = .ok (sent, s'))
    (hjson : Carries lib.json (values sent.heap sent.ctx)) : From hop.env s' := by
  obtain ⟨mid, entries, hadd, hroute, hne, hparse, hwait, hkeep, rfl⟩ :=
    take_spec hhop htake hjson
  have hpeer : index (stamp (values mid.2 mid.1) hop.env) peerIDKey = .string hop.env.serverID := by
    rw [stamp, index_set_of_ne (by decide), index_set_self]
  have hservice : index (stamp (values mid.2 mid.1) hop.env) peerServiceKey =
      .string hop.env.serverType := by
    rw [stamp, index_set_self]
  refine ⟨?_, ?_, ?_⟩
  · show index _ routeKey = _
    rw [contents_some, Heap.read_alloc_next, taggedMap]
    split <;> rw [index_set_self]
  · show index _ peerIDKey = _
    rw [contents_some, Heap.read_alloc_next, index_taggedMap (by decide) (by decide),
      hkeep _ (by rw [hpeer]; trivial), hpeer]
  · show index _ peerServiceKey = _
    rw [contents_some, Heap.read_alloc_next, index_taggedMap (by decide) (by decide),
      hkeep _ (by rw [hservice]; trivial), hservice]

/-! ## Chains -/

/-- A chain is its first hop and the chain behind it. -/
theorem chain_cons {hop : Hop} {hops : List Hop} {sents : List Sent}
    (h : chain lib s (hop :: hops) = .ok (sents, s')) :
    ∃ sent mid rest, hop.take lib s = .ok (sent, mid) ∧ chain lib mid hops = .ok (rest, s') ∧
      sents = sent :: rest := by
  obtain ⟨⟨sent, mid⟩, htake, hrest⟩ := Outcome.bind_eq_ok_iff.1 h
  obtain ⟨⟨rest, last⟩, hchain, hpair⟩ := Outcome.bind_eq_ok_iff.1 hrest
  obtain ⟨rfl, rfl⟩ := Prod.mk.inj (Outcome.ok.inj hpair)
  exact ⟨sent, mid, rest, htake, hchain, rfl⟩

/-- The calls of a chain inherit what the first of them has. -/
theorem inherited_of_chain {hops : List Hop} {sents : List Sent} {start timeout : ℤ}
    {id : GoString} (hhops : ∀ hop ∈ hops, hop.Ordinary lib)
    (hchain : chain lib s hops = .ok (sents, s'))
    (hjson : ∀ sent ∈ sents, Carries lib.json (values sent.heap sent.ctx))
    (horigin : ∀ hop ∈ hops.head?, Origin lib (reads s) hop.env start timeout id) :
    ∀ sent ∈ sents, Inherited lib start timeout id sent := by
  induction hops generalizing s sents with
  | nil =>
    obtain ⟨rfl, -⟩ := Prod.mk.inj (Outcome.ok.inj hchain)
    simp
  | cons hop hops ih =>
    obtain ⟨sent, mid, rest, htake, hrest, rfl⟩ := chain_cons hchain
    obtain ⟨hinherited, hnext⟩ := take_inherits (hhops hop (by simp)) htake
      (hjson sent (by simp)) (horigin hop (by simp))
    have hmore := ih (fun hop hhop => hhops hop (by simp [hhop])) hrest
      (fun sent hsent => hjson sent (by simp [hsent])) (fun hop _ => hnext hop.env)
    simpa using ⟨hinherited, hmore⟩

/-- A text stays where it is, until another is put in its place. -/
theorem reads_of_chain {hops : List Hop} {sents : List Sent} {key : GoString}
    (hhops : ∀ hop ∈ hops, hop.Ordinary lib) (hchain : chain lib s hops = .ok (sents, s'))
    (hjson : ∀ sent ∈ sents, Carries lib.json (values sent.heap sent.ctx)) (hkey : key ∉ ownKeys)
    (htext : NilOrString (reads s key)) (hadded : ∀ v ∈ added hops key, NilOrString v) :
    reads s' key = ((added hops key).getLast?).getD (reads s key) := by
  induction hops generalizing s sents with
  | nil =>
    obtain ⟨-, rfl⟩ := Prod.mk.inj (Outcome.ok.inj hchain)
    rfl
  | cons hop hops ih =>
    obtain ⟨sent, mid, rest, htake, hrest, rfl⟩ := chain_cons hchain
    have hsplit : added (hop :: hops) key = added [hop] key ++ added hops key := by
      simp [added]
    have hown : ∀ e ∈ hop.adds, e.1 = key → NilOrString e.2 := by
      intro e he hekey
      refine hadded e.2 ?_
      rw [hsplit, List.mem_append]
      exact Or.inl (List.mem_filterMap.2 ⟨e, by simpa using he, by rw [if_pos hekey]⟩)
    obtain ⟨hmidText, hmid⟩ := take_reads (hhops hop (by simp)) htake (hjson sent (by simp)) hkey
      htext hown
    rw [ih (fun hop hhop => hhops hop (by simp [hhop])) hrest
      (fun sent hsent => hjson sent (by simp [hsent])) hmidText
      (fun v hv => hadded v (by rw [hsplit]; exact List.mem_append_right _ hv)), hmid, hsplit,
      List.getLast?_append]
    cases (added hops key).getLast? <;> rfl

theorem from_of_chain {hops : List Hop} {sents : List Sent}
    (hhops : ∀ hop ∈ hops, hop.Ordinary lib) (hchain : chain lib s hops = .ok (sents, s'))
    (hjson : ∀ sent ∈ sents, Carries lib.json (values sent.heap sent.ctx)) :
    sents.length = hops.length ∧ ∀ last ∈ hops.getLast?, From last.env s' := by
  induction hops generalizing s sents with
  | nil =>
    obtain ⟨rfl, -⟩ := Prod.mk.inj (Outcome.ok.inj hchain)
    simp
  | cons hop hops ih =>
    obtain ⟨sent, mid, rest, htake, hrest, rfl⟩ := chain_cons hchain
    have hfrom := take_from (hhops hop (by simp)) htake (hjson sent (by simp))
    obtain ⟨hlength, hlast⟩ := ih (fun hop hhop => hhops hop (by simp [hhop])) hrest
      (fun sent hsent => hjson sent (by simp [hsent]))
    refine ⟨by simp [hlength], ?_⟩
    rcases hops with _ | ⟨next, hops⟩
    · -- the handler of the one hop is the last
      obtain ⟨-, rfl⟩ := Prod.mk.inj (Outcome.ok.inj hrest)
      simpa using hfrom
    · rw [List.getLast?_cons_cons]
      exact hlast

/-- What the first call finds can be read, or is stamped so that it can. -/
theorem Fit.origin {f : GoString → GoValue} {hop : Hop} (hf : Fit lib f)
    (hhop : hop.Ordinary lib) : ∃ start timeout id, Origin lib f hop.env start timeout id := by
  have htimeout : ∃ s d, orString hop.env.reqTimeout (f requestTimeout) = .string s ∧
      lib.parseDuration s = .ok d := by
    rcases hf.timeout with hnil | ⟨s, d, hs, hd⟩
    · obtain ⟨d, hd⟩ := hhop.timeout
      exact ⟨_, d, by rw [hnil]; rfl, hd⟩
    · exact ⟨s, d, by rw [hs]; rfl, hd⟩
  have hstart : ∃ s t, orString (formatInt hop.env.now) (f startTimeKey) = .string s ∧
      parseInt64 s = some t := by
    rcases hf.startTime with hnil | ⟨s, t, hs, ht⟩
    · obtain ⟨now, hnow⟩ := hhop.now
      refine ⟨_, hop.env.now, by rw [hnil]; rfl, ?_⟩
      rw [hnow]
      exact parseInt64_formatInt now.le_toInt now.toInt_lt
    · exact ⟨s, t, by rw [hs]; rfl, ht⟩
  have hid : ∃ id, orID hop.env.nuid (f requestIDKey) = .string id ∧ id ≠ [] := by
    rcases nilOrString_iff.1 hf.requestID with hnil | ⟨_ | ⟨b, s⟩, hs⟩
    · exact ⟨_, by rw [hnil]; rfl, hhop.nuid⟩
    · exact ⟨_, by rw [hs]; rfl, hhop.nuid⟩
    · exact ⟨b :: s, by rw [hs]; rfl, List.cons_ne_nil b s⟩
  obtain ⟨s, d, hs, hd⟩ := htimeout
  obtain ⟨s', t, hs', ht⟩ := hstart
  obtain ⟨id, hid⟩ := hid
  exact ⟨t, d, id, ⟨s, hs, hd⟩, ⟨s', hs', ht⟩, hid⟩

/-- **What a chain of calls hands on.** Every call of the chain is timed
from the start of the first, by the timeout of the first, under the id of
the first, on both of its ends; the last handler reads the route and the
peer of the last call; and of the texts that were put into the context under
a key no call writes, it reads the last. -/
theorem chain_inherits (lib : Lib) (s : Ctx × Store) (first : Hop) (rest : List Hop)
    (sents : List Sent) (s' : Ctx × Store) (hfit : Fit lib (reads s))
    (hhops : ∀ hop ∈ first :: rest, hop.Ordinary lib)
    (hchain : chain lib s (first :: rest) = .ok (sents, s'))
    (hjson : ∀ sent ∈ sents, Carries lib.json (values sent.heap sent.ctx)) :
    (∃ start timeout id, Origin lib (reads s) first.env start timeout id ∧
      sents.length = rest.length + 1 ∧ ∀ sent ∈ sents, Inherited lib start timeout id sent) ∧
    (∀ last ∈ (first :: rest).getLast?, From last.env s') ∧
    (∀ key ∉ ownKeys, NilOrString (reads s key) →
      (∀ v ∈ added (first :: rest) key, NilOrString v) →
      reads s' key = ((added (first :: rest) key).getLast?).getD (reads s key)) := by
  obtain ⟨start, timeout, id, horigin⟩ := hfit.origin (hhops first (by simp))
  obtain ⟨hlength, hlast⟩ := from_of_chain hhops hchain hjson
  refine ⟨⟨start, timeout, id, horigin, hlength, ?_⟩, hlast, ?_⟩
  · refine inherited_of_chain hhops hchain hjson ?_
    intro hop hhop
    obtain rfl : first = hop := by simpa using hhop
    exact horigin
  · intro key hkey htext hadded
    exact reads_of_chain hhops hchain hjson hkey htext hadded

/-! ### A handler that passes its call on -/

/-- A call of the room, passed on as it came in. -/
def joinHop : Hop where
  adds := []
  env := callAt 1700000000000000000 (lit "a")
  data := []
  memory := ⟨fun _ => .empty, 0⟩
  nuid := lit "b"

theorem joinHop_ordinary : joinHop.Ordinary joinLib where
  nuid := by decide
  timeout := ⟨5000000000, rfl⟩
  now := ⟨1700000000000000000, rfl⟩
  inject := ⟨[], rfl⟩
  adds := by simp [joinHop]

/-- The context of the first caller. -/
def joinOrigin : Ctx × Store := (⟨some (some 0)⟩, ⟨fun _ => joinValues, 1⟩)

theorem joinOrigin_fit : Fit joinLib (reads joinOrigin) where
  timeout := Or.inr ⟨lit "2s", 2000000000, rfl, rfl⟩
  startTime := Or.inl rfl
  requestID := trivial

/-- The document of the call has nothing but what a call writes. -/
theorem index_joinEntries {key : GoString} (hkey : key ∉ ownKeys) :
    index (ofEntries joinEntries) key = .nil := by
  simp only [ownKeys, List.mem_cons, List.not_mem_nil, or_false, not_or] at hkey
  obtain ⟨hroute, hid, htimeout, hstart, hspan, hpeer, hservice⟩ := hkey
  simp only [ofEntries, joinEntries, List.foldl_cons, List.foldl_nil]
  rw [index_set_of_ne hid, index_set_of_ne htimeout, index_set_of_ne hstart,
    index_set_of_ne hroute, index_set_of_ne hservice, index_set_of_ne hpeer,
    index_set_of_ne hspan, index_empty]

/-- What the document of the call has, a call from such a context sends
again. -/
theorem carries_join (htimeout : index m requestTimeout = .string (lit "2s"))
    (hstart : orString (formatInt joinHop.env.now) (index m startTimeKey) =
      .string (lit "1700000000000000000"))
    (hid : orID joinHop.env.nuid (index m requestIDKey) = .string (lit "a"))
    (hnil : ∀ key ∉ ownKeys, index m key = .nil) :
    Carries joinLib.json (stamp m joinHop.env) := by
  intro doc hdoc
  obtain rfl : joinDocument = doc := Except.ok.inj hdoc
  refine ⟨List.cons_ne_nil _ _, joinEntries, by simp only [joinLib, if_true], ?_⟩
  intro key
  by_cases hkey : key ∈ ownKeys
  · simp only [ownKeys, List.mem_cons, List.not_mem_nil, or_false] at hkey
    rcases hkey with rfl | rfl | rfl | rfl | rfl | rfl | rfl
    · have hroute : index (stamp m joinHop.env) routeKey = .string joinHop.env.route := by
        rw [index_stamp (by decide) (by decide) (by decide), stampOwn,
          index_setIfNil_of_ne (by decide), index_setIfNil_of_ne (by decide),
          index_setRequestID_of_ne (by decide), index_set_self]
      rw [hroute]
      rfl
    · rw [index_stamp_orID, hid]
      rfl
    · rw [index_stamp_requestTimeout, htimeout]
      rfl
    · rw [index_stamp_startTimeKey, hstart]
      rfl
    · have hspan : index (stamp m joinHop.env) spanPropagateCtxKey = .carrier [] := by
        rw [stamp, index_set_of_ne (by decide), index_set_of_ne (by decide), index_set_self]
        rfl
      rw [hspan]
      exact ⟨[], rfl, fun _ => rfl⟩
    · rw [stamp, index_set_of_ne (by decide), index_set_self]
      rfl
    · rw [stamp, index_set_self]
      rfl
  · rw [index_stamp_of_not_own hkey, hnil key hkey, index_joinEntries hkey]
    rfl

/-- The context of the handler that is called. -/
def joined : Ctx × Store :=
  (⟨some (some 0)⟩,
    joinHop.memory.alloc (taggedMap (ofEntries joinEntries) joinHop.nuid joinHop.env.route))

theorem joinHop_take {r : ℕ} {h : Store}
    (htimeout : index (h.read r) requestTimeout = .string (lit "2s")) :
    ∃ sent, joinHop.take joinLib (⟨some (some r)⟩, h) = .ok (sent, joined) ∧
      values sent.heap sent.ctx = stamp (h.read r) joinHop.env := by
  have hmap : (⟨some (some r)⟩ : Ctx).propagate ≠ some none := by simp
  have hinject : joinHop.env.inject = .ok [] := rfl
  obtain ⟨r', h', hread, hsend⟩ := sendRequest_eq joinLib h [] rfl hinject hmap
  have hwait : waitTime joinLib (index (stamp (h.read r) joinHop.env) requestTimeout) =
      .ok 2000000000 := by
    rw [index_stamp_requestTimeout, htimeout]
    rfl
  have hvalues : values h ⟨some (some r)⟩ = h.read r := rfl
  rw [hvalues] at hread hsend
  have hparse : joinLib.json.parse joinDocument = .ok (.object joinEntries) := by
    simp only [joinLib, if_true]
  have hcontext : getContextFromRequest joinLib.json joinHop.memory
      (requestOf joinHop.env [] joinDocument) joinHop.nuid = _ :=
    getContextFromRequest_object (List.cons_ne_nil _ _) hparse
  refine ⟨⟨requestOf joinHop.env [] joinDocument, 2000000000, ⟨some (some r')⟩, h'⟩, ?_, hread⟩
  have hmarshal : joinLib.json.marshal (stamp (h.read r) joinHop.env) = .ok joinDocument := rfl
  rw [hwait, hmarshal] at hsend
  show (sendRequest joinLib h ⟨some (some r)⟩ joinHop.env [] >>= fun sent =>
    getContextFromRequest joinLib.json joinHop.memory sent.request joinHop.nuid >>= fun s =>
      pure (sent, s)) = _
  rw [hsend]
  simp only [Outcome.ofExcept_ok, Outcome.ok_bind, Outcome.pure_eq, hcontext]
  rfl

/-- Two calls, the second from the handler of the first: both are given two
seconds from the time of the first, and its id. -/
theorem chain_inherits_join :
    ∃ sents s', chain joinLib joinOrigin [joinHop, joinHop] = .ok (sents, s') ∧
      sents.length = 2 ∧
      ∀ sent ∈ sents, Inherited joinLib 1700000000000000000 2000000000 (lit "a") sent := by
  obtain ⟨sent, htake, hsent⟩ := joinHop_take (r := 0) (h := ⟨fun _ => joinValues, 1⟩) rfl
  obtain ⟨sent', htake', hsent'⟩ := joinHop_take (r := 0) (h := joined.2) rfl
  have hchain : chain joinLib joinOrigin [joinHop, joinHop] = .ok ([sent, sent'], joined) := by
    have hlast : chain joinLib joined [joinHop] = .ok ([sent'], joined) := by
      show (joinHop.take joinLib joined >>= _) = _
      rw [show joinHop.take joinLib joined = .ok (sent', joined) from htake']
      rfl
    show (joinHop.take joinLib joinOrigin >>= _) = _
    rw [show joinHop.take joinLib joinOrigin = .ok (sent, joined) from htake]
    simp only [Outcome.ok_bind, hlast]
    rfl
  have hnow : formatInt joinHop.env.now = lit "1700000000000000000" := by decide +kernel
  have hjson : ∀ sent'' ∈ [sent, sent'], Carries joinLib.json (values sent''.heap sent''.ctx) := by
    intro sent'' hmem
    rcases List.mem_cons.1 hmem with rfl | hmem
    · rw [hsent]
      refine carries_join rfl (by rw [hnow]; rfl) rfl ?_
      intro key hkey
      simp only [ownKeys, List.mem_cons, List.not_mem_nil, or_false, not_or] at hkey
      show index joinValues key = _
      rw [joinValues, index_set_of_ne hkey.2.1, index_set_of_ne hkey.2.2.1, index_empty]
    · obtain rfl := List.mem_singleton.1 hmem
      rw [hsent']
      refine carries_join rfl (by rw [hnow]; rfl) rfl ?_
      intro key hkey
      have hnil := index_joinEntries hkey
      simp only [ownKeys, List.mem_cons, List.not_mem_nil, or_false, not_or] at hkey
      show index (taggedMap (ofEntries joinEntries) joinHop.nuid joinHop.env.route) key = _
      rw [index_taggedMap hkey.2.1 hkey.1, hnil]
  obtain ⟨⟨start, timeout, id, horigin, hlength, hinherited⟩, -, -⟩ :=
    chain_inherits joinLib joinOrigin joinHop [joinHop] _ _ joinOrigin_fit
      (by simp [joinHop_ordinary]) hchain hjson
  -- what the first call was given and has stamped
  obtain ⟨d, hd, hdparse⟩ := horigin.timeout
  obtain ⟨t, ht, htparse⟩ := horigin.startTime
  obtain rfl : lit "2s" = d := GoValue.string.inj hd
  obtain rfl : 2000000000 = timeout := Except.ok.inj hdparse
  rw [hnow] at ht
  obtain rfl : lit "1700000000000000000" = t := GoValue.string.inj ht
  have hparse : parseInt64 (lit "1700000000000000000") = some 1700000000000000000 := by
    decide +kernel
  rw [hparse] at htparse
  obtain rfl := Option.some.inj htparse
  obtain rfl : lit "a" = id := GoValue.string.inj horigin.requestID.1
  exact ⟨_, _, hchain, hlength, hinherited⟩

end Client

end Nrpc
