import Nrpc.Discovery.Snapshot
/-!
# What a malformed entry does

Both paths pass over a key that does not parse and a value that cannot be
read. Two things are left. The document `null` is read without an error as
no server at all, and adding that is a nil dereference, in the watcher's
goroutine as in a sync. And a sync looks at a value only if the id is not
known, so a key whose value cannot be read still keeps the id it has
alive. Without either the maps are the ones the well-formed entries leave
(`malformed_harmless_iff`).
-/

namespace Nrpc

namespace Discovery

variable {cfg : Config} {s s' : Servers} {kv : Contents} {env : SyncEnv} {firstSync : Bool}
variable {key value : List UInt8} {t id : GoString} {sv : Server}

/-! ## Well-formed entries -/

/-- A value that decodes to a server object. -/
def decodes (cfg : Config) (value : List UInt8) : Bool :=
  match cfg.parseServer value with
  | .ok (some _) => true
  | _ => false

/-- A key of three parts. -/
def parses (key : GoString) : Bool :=
  match parseEtcdKey key with
  | .ok _ => true
  | .error _ => false

/-- **A well-formed event**: its key has three parts, and what it puts
decodes to a server. -/
def Event.wellFormed (cfg : Config) : Event → Bool
  | .put key value => parses key && decodes cfg value
  | .delete key => parses key

/-- **A well-formed entry** of contents. -/
def wellFormed (cfg : Config) (kv : Contents) (key : GoString) : Bool :=
  parses key && (kv.get? key).any (decodes cfg)

theorem decodes_iff : decodes cfg value = true ↔ ∃ sv, cfg.parseServer value = .ok (some sv) := by
  unfold decodes
  split <;> simp_all

theorem parses_of_kept (h : keptKey cfg key = some (t, id)) : parses key = true := by
  unfold parses
  rw [(keptKey_eq_some_iff.1 h).1]

theorem keptKey_of_not_parses (h : parses key = false) : keptKey cfg key = none := by
  unfold parses at h
  unfold keptKey
  split at h
  · cases h
  · rename_i e hparse
    rw [hparse]

/-! ## The watcher -/

/-- An event that puts `null` under an admitted key. -/
def Event.Nulls (cfg : Config) : Event → Prop
  | .put key value => (keptKey cfg key).isSome ∧ cfg.parseServer value = .ok none
  | .delete _ => False

/-- **A put of `null` is a nil dereference**, and any other event is
handled. -/
theorem handleEvent_cases (cfg : Config) (s : Servers) (ev : Event) :
    ev.Nulls cfg ∧ handleEvent cfg s ev = .panic ∨
      ¬ ev.Nulls cfg ∧ ∃ s', handleEvent cfg s ev = .ok s' := by
  cases ev with
  | put key value =>
    rcases hkept : keptKey cfg key with _ | p
    · exact Or.inr ⟨by simp [Event.Nulls, hkept], s, by simp only [handleEvent, hkept]⟩
    · rcases hparse : cfg.parseServer value with e | sv?
      · exact Or.inr ⟨by simp [Event.Nulls, hparse], s, by simp only [handleEvent, hkept, hparse]⟩
      · rcases sv? with _ | sv
        · exact Or.inl ⟨⟨by rw [hkept]; rfl, hparse⟩,
            by simp only [handleEvent, hkept, hparse, addServer]⟩
        · obtain ⟨s', hadd, -⟩ := addServer_some cfg s sv
          exact Or.inr ⟨by simp [Event.Nulls, hparse], s',
            by simp only [handleEvent, hkept, hparse, hadd]⟩
  | delete key =>
    refine Or.inr ⟨id, ?_⟩
    rcases hkept : keptKey cfg key with _ | ⟨t, id⟩
    · exact ⟨s, by simp only [handleEvent, hkept]⟩
    · exact ⟨_, by simp only [handleEvent, hkept]; rfl⟩

/-- An event that is not well-formed and puts no `null` is passed over. -/
theorem handleEvent_of_malformed {ev : Event} (hev : ev.wellFormed cfg = false)
    (hnull : ¬ ev.Nulls cfg) : handleEvent cfg s ev = .ok s := by
  cases ev with
  | put key value =>
    rcases hkept : keptKey cfg key with _ | ⟨t, id⟩
    · simp only [handleEvent, hkept]
    · have hvalue : decodes cfg value = false := by
        simpa [Event.wellFormed, parses_of_kept hkept] using hev
      rcases hparse : cfg.parseServer value with e | sv?
      · simp only [handleEvent, hkept, hparse]
      · rcases sv? with _ | sv
        · exact absurd ⟨by rw [hkept]; rfl, hparse⟩ hnull
        · rw [decodes_iff.2 ⟨sv, hparse⟩] at hvalue
          cases hvalue
  | delete key => simp only [handleEvent, keptKey_of_not_parses hev]

/-- A put of `null` anywhere among the events ends the watcher. -/
theorem handleEvents_of_null {events : List Event} {ev : Event} (hmem : ev ∈ events)
    (hnull : ev.Nulls cfg) : handleEvents cfg s events = .panic := by
  unfold handleEvents
  induction events generalizing s with
  | nil => cases hmem
  | cons e events ih =>
    rw [List.foldlM_cons]
    rcases handleEvent_cases cfg s e with ⟨-, h⟩ | ⟨hother, s₁, h⟩
    · rw [h]
      rfl
    · rw [h]
      rcases List.mem_cons.1 hmem with rfl | hmem
      · exact absurd hnull hother
      · exact ih hmem

/-- **Without a `null` the watcher gets through the events, to where the
well-formed ones lead.** -/
theorem handleEvents_filter {events : List Event} (hnull : ∀ ev ∈ events, ¬ ev.Nulls cfg) :
    ∃ s', handleEvents cfg s events = .ok s' ∧
      handleEvents cfg s (events.filter (Event.wellFormed cfg)) = .ok s' := by
  unfold handleEvents
  induction events generalizing s with
  | nil => exact ⟨s, rfl, rfl⟩
  | cons ev events ih =>
    have hrest : ∀ ev ∈ events, ¬ ev.Nulls cfg := fun e he => hnull e (List.mem_cons_of_mem _ he)
    cases hev : ev.wellFormed cfg with
    | true =>
      rcases handleEvent_cases cfg s ev with ⟨hev', -⟩ | ⟨-, s₁, h⟩
      · exact absurd hev' (hnull ev List.mem_cons_self)
      · obtain ⟨s', hs', hfiltered⟩ := @ih s₁ hrest
        refine ⟨s', ?_, ?_⟩
        · rw [List.foldlM_cons, h]
          exact hs'
        · rw [List.filter_cons_of_pos hev, List.foldlM_cons, h]
          exact hfiltered
    | false =>
      obtain ⟨s', hs', hfiltered⟩ := @ih s hrest
      refine ⟨s', ?_, ?_⟩
      · rw [List.foldlM_cons, handleEvent_of_malformed hev (hnull ev List.mem_cons_self)]
        exact hs'
      · rw [List.filter_cons_of_neg (by simp [hev])]
        exact hfiltered

/-! ## The sync -/

/-- The answers of an etcd that has only the keys given. -/
def SyncEnv.only (env : SyncEnv) (p : GoString → Bool) : SyncEnv where
  listing := env.listing.map fun kvs => kvs.filter fun kv => p kv.1
  get := fun key => if p key then env.get key else .ok none
  collect := env.collect
  collect_perm := env.collect_perm
  range := env.range
  range_ranges := env.range_ranges

/-- A key that is left is loaded as before. -/
theorem load_only {p : GoString → Bool} (hkey : p (getKey id t) = true) (payload : List UInt8) :
    load cfg (env.only p) t id payload = load cfg env t id payload := by
  simp only [load, getServerFromEtcd, SyncEnv.only, hkey, if_true]

theorem wellFormed_of_listed (hlisted : Listed kv key value)
    (hkept : keptKey cfg key = some (t, id)) : wellFormed cfg kv key = decodes cfg value := by
  simp [wellFormed, parses_of_kept hkept, hlisted.1]

section

variable {kvs : List (GoString × List UInt8)}
  (hkvs : ∀ key payload, (key, payload) ∈ kvs ↔
    ∃ value, Listed kv key value ∧ payload = if firstSync then value else [])

include hkvs

/-- **Without a `null` the well-formed entries are all that is loaded.** -/
theorem loads_only (henv : env.Answers firstSync kv) (hnull : NoNull cfg kv s) :
    loads cfg (env.only (wellFormed cfg kv)) firstSync s
        (kvs.filter fun kv' => wellFormed cfg kv kv'.1) = loads cfg env firstSync s kvs := by
  unfold loads
  rw [List.filterMap_filter]
  refine List.filterMap_congr fun ⟨key, payload⟩ hmem => ?_
  obtain ⟨value, hlisted, hpayload⟩ := (hkvs key payload).1 hmem
  dsimp only
  rcases hkept : keptKey cfg key with _ | ⟨t, id⟩
  · simp
  · rw [wellFormed_of_listed hlisted hkept]
    have hkey : key = getKey id t := by
      obtain ⟨-, rest, hrest⟩ := hlisted
      exact eq_getKey_of_parse hrest (keptKey_eq_some_iff.1 hkept).1
    have hload : load cfg env t id (if firstSync then payload else []) =
        cfg.parseServer value := by
      rw [← load_answers henv hlisted hkept, hpayload]
      cases firstSync <;> rfl
    cases hvalue : decodes cfg value with
    | true =>
      have hleft : wellFormed cfg kv (getKey id t) = true := by
        rw [← hkey, wellFormed_of_listed hlisted hkept, hvalue]
      dsimp only
      rw [if_pos rfl, load_only hleft]
    | false =>
      dsimp only
      rw [if_neg (by simp), hload]
      split
      · rfl
      · -- what cannot be decoded and is not `null` is an error
        rename_i hunknown
        rcases hparse : cfg.parseServer value with e | sv?
        · rfl
        · rcases sv? with _ | sv
          · exact absurd hparse (hnull key value t id hlisted hkept (by simpa using hunknown))
          · rw [decodes_iff.2 ⟨sv, hparse⟩] at hvalue
            cases hvalue

/-- The ids the well-formed entries list. -/
theorem mem_listedIds_filter :
    id ∈ listedIds cfg (kvs.filter fun kv' => wellFormed cfg kv kv'.1) ↔
      ∃ sv, Offered cfg kv id sv := by
  unfold listedIds
  rw [List.mem_filterMap]
  constructor
  · rintro ⟨⟨key, payload⟩, hmem, hid⟩
    obtain ⟨hmem, hwell⟩ := List.mem_filter.1 hmem
    obtain ⟨value, hlisted, -⟩ := (hkvs key payload).1 hmem
    obtain ⟨⟨t, id'⟩, hkept, rfl⟩ := Option.map_eq_some_iff.1 hid
    dsimp only at hwell
    rw [wellFormed_of_listed hlisted hkept] at hwell
    obtain ⟨sv, hsv⟩ := decodes_iff.1 hwell
    exact ⟨sv, key, value, t, hlisted, hkept, hsv⟩
  · rintro ⟨sv, key, value, t, hlisted, hkept, hsv⟩
    refine ⟨(key, _), List.mem_filter.2 ⟨(hkvs key _).2 ⟨value, hlisted, rfl⟩, ?_⟩, ?_⟩
    · dsimp only
      rw [wellFormed_of_listed hlisted hkept]
      exact decodes_iff.2 ⟨sv, hsv⟩
    · rw [hkept]
      rfl

end

/-- Two lists that agree on the ids that are visited clean up alike. -/
theorem deleteLocalInvalidServers_congr {actual actual' order : List GoString}
    (h : ∀ k ∈ order, k ∈ actual ↔ k ∈ actual') :
    deleteLocalInvalidServers s actual order = deleteLocalInvalidServers s actual' order := by
  unfold deleteLocalInvalidServers
  induction order generalizing s with
  | nil => rfl
  | cons k order ih =>
    rw [List.foldl_cons, List.foldl_cons, ih fun k hk => h k (List.mem_cons_of_mem _ hk)]
    congr 1
    exact if_congr (h k List.mem_cons_self) rfl rfl

/-- **No id is kept alive by unreadable values alone**: an id that is
admitted, and offered by none of its keys, is neither known nor the id of a
server that another key's value is read as. -/
def NoneKept (cfg : Config) (kv : Contents) (s : Servers) : Prop :=
  ∀ id, Admitted cfg kv id → (∀ sv, ¬ Offered cfg kv id sv) →
    s.byID.get? id = none ∧ ∀ id' sv, s.byID.get? id' = none → Offered cfg kv id' sv → sv.id ≠ id

/-- Without a `null` the sync of the well-formed entries adds the same
servers; only its clean-up has other ids to keep. -/
theorem syncServers_only_eq_ok_iff {kvs : List (GoString × List UInt8)} {mid : Servers}
    (hkvs : ∀ key payload, (key, payload) ∈ kvs ↔
      ∃ value, Listed kv key value ∧ payload = if firstSync then value else [])
    (hlisting : env.listing = .ok kvs) (henv : env.Answers firstSync kv)
    (hnull : NoNull cfg kv s)
    (hmid : (env.collect (loads cfg env firstSync s kvs)).foldlM (addServer cfg) s = .ok mid) :
    syncServers cfg (env.only (wellFormed cfg kv)) firstSync s = .ok s' ↔
      s' = deleteLocalInvalidServers mid
        (listedIds cfg (kvs.filter fun kv' => wellFormed cfg kv kv'.1)) (env.range mid.byID) := by
  have hlist : (env.only (wellFormed cfg kv)).listing =
      .ok (kvs.filter fun kv' => wellFormed cfg kv kv'.1) := by
    simp [SyncEnv.only, hlisting, Except.map]
  rw [syncServers_eq_ok_iff hlist, loads_only hkvs henv hnull]
  constructor
  · rintro ⟨mid', hmid', rfl⟩
    obtain rfl := Outcome.ok.inj (hmid.symm.trans hmid')
    rfl
  · rintro rfl
    exact ⟨mid, hmid, rfl⟩

/-- **A sync is the sync of the well-formed entries** exactly when it has no
`null` to load and keeps no id alive by unreadable values alone. -/
theorem sync_only_iff (hs : Indexed s) (henv : env.Answers firstSync kv) :
    (∃ s', syncServers cfg env firstSync s = .ok s' ∧
      syncServers cfg (env.only (wellFormed cfg kv)) firstSync s = .ok s') ↔
    NoNull cfg kv s ∧ NoneKept cfg kv s := by
  by_cases hnull : NoNull cfg kv s
  swap
  · refine iff_of_false ?_ fun h => hnull h.1
    rintro ⟨s', h, -⟩
    exact hnull ((exists_syncServers_iff henv).1 ⟨s', h⟩)
  -- the same servers are loaded and added, and the clean-ups are left to compare
  obtain ⟨kvs, hlisting, -, hkvs⟩ := henv.listing
  obtain ⟨s₁, hsync⟩ := (exists_syncServers_iff henv).2 hnull
  obtain ⟨mid, hmid, hs₁⟩ := (syncServers_eq_ok_iff hlisting).1 hsync
  have honly : ∀ {s'}, syncServers cfg (env.only (wellFormed cfg kv)) firstSync s = .ok s' ↔ _ :=
    syncServers_only_eq_ok_iff hkvs hlisting henv hnull hmid
  have hindexed := indexed_of_loads hmid hs
  have hids : ∀ id, (mid.byID.get? id).isSome ↔ (s.byID.get? id).isSome ∨
      ∃ id' sv, s.byID.get? id' = none ∧ Offered cfg kv id' sv ∧ sv.id = id := by
    intro id
    rw [isSome_byID_of_loads hmid]
    simp only [some_mem_loads_answers hkvs henv]
    refine or_congr_right ⟨?_, ?_⟩
    · rintro ⟨sv, ⟨id', hfree, hoffered⟩, hid⟩
      exact ⟨id', sv, hfree, hoffered, hid⟩
    · rintro ⟨id', sv, hfree, hoffered, hid⟩
      exact ⟨sv, ⟨id', hfree, hoffered⟩, hid⟩
  rw [and_iff_right hnull]
  constructor
  · rintro ⟨s', h, h'⟩ id hadmitted hnone
    obtain rfl : s₁ = s' := Outcome.ok.inj (hsync.symm.trans h)
    -- the id is swept among the well-formed entries, so it was not there to keep
    have hswept : mid.byID.get? id = none := by
      have hcong := congrArg (fun m : Servers => m.byID.get? id) (hs₁.symm.trans (honly.1 h'))
      rw [byID_cleanUp hindexed (env.range_ranges _), byID_cleanUp hindexed (env.range_ranges _),
        if_pos ((mem_listedIds hkvs).2 hadmitted),
        if_neg fun hin => absurd ((mem_listedIds_filter hkvs).1 hin) (by simpa using hnone)]
        at hcong
      exact hcong
    have hout : ¬ (mid.byID.get? id).isSome := by rw [hswept]; simp
    rw [hids] at hout
    refine ⟨by simpa using fun h => hout (Or.inl h), ?_⟩
    intro id' sv hfree hoffered heq
    exact hout (Or.inr ⟨id', sv, hfree, hoffered, heq⟩)
  · intro hkept
    refine ⟨s₁, hsync, honly.2 ?_⟩
    rw [hs₁]
    refine deleteLocalInvalidServers_congr fun id hid => ?_
    rw [mem_listedIds hkvs, mem_listedIds_filter hkvs]
    constructor
    · intro hadmitted
      by_contra hnone
      push Not at hnone
      obtain ⟨hfree, hother⟩ := hkept id hadmitted hnone
      rcases (hids id).1 (((env.range_ranges _).2 id).1 hid) with h | ⟨id', sv, h, hoffered, heq⟩
      · rw [hfree] at h
        cases h
      · exact hother id' sv h hoffered heq
    · rintro ⟨sv, hoffered⟩
      exact hoffered.admitted

/-! ## Malformed entries are harmless -/

/-- **Malformed entries are harmless exactly when none is `null` and none
keeps an id alive.** Handling events leaves what the well-formed ones leave,
without a nil dereference, if and only if no admitted key is put to `null`;
a sync leaves what the well-formed entries leave if and only if it does not
have to load a `null`, and no id that no value can be read for was known or
is added by the value of another key. -/
theorem malformed_harmless_iff (cfg : Config) (s : Servers) (hs : Indexed s) :
    (∀ events,
      (∃ s', handleEvents cfg s events = .ok s' ∧
        handleEvents cfg s (events.filter (Event.wellFormed cfg)) = .ok s') ↔
      ∀ key value, .put key value ∈ events → (keptKey cfg key).isSome →
        cfg.parseServer value ≠ .ok none) ∧
    ∀ kv env firstSync, SyncEnv.Answers env firstSync kv →
      ((∃ s', syncServers cfg env firstSync s = .ok s' ∧
        syncServers cfg (env.only (wellFormed cfg kv)) firstSync s = .ok s') ↔
      NoNull cfg kv s ∧ NoneKept cfg kv s) := by
  refine ⟨fun events => ⟨?_, ?_⟩, fun kv env firstSync henv => sync_only_iff hs henv⟩
  · rintro ⟨s', h, -⟩ key value hput hkept hparse
    rw [handleEvents_of_null hput ⟨hkept, hparse⟩] at h
    cases h
  · intro hnull
    refine handleEvents_filter fun ev hmem => ?_
    cases ev with
    | put key value => exact fun h => hnull key value hmem h.1 h.2
    | delete key => exact fun h => h

/-- A key of two parts, a value cut short and a room server's record. -/
def damagedEntries : List (GoString × List UInt8) :=
  [(lit "servers/room", lit "\x7b"), (getKey (lit "s2") (lit "room"), lit "\x7b"),
    (getKey (lit "s1") (lit "room"), roomRecord (lit "a"))]

/-- Contents with these entries. -/
def damaged : Contents := damagedEntries.foldl (fun kv entry => kv.set entry.1 entry.2) .empty

/-- The answers from these contents, with the values. -/
noncomputable def damagedAnswers : SyncEnv :=
  { oneKey [] [] with
    listing := .ok damagedEntries
    get := fun key => .ok (damaged.get? key) }

theorem get?_damaged : damaged.get? key = some value ↔ (key, value) ∈ damagedEntries := by
  have h₁₂ : lit "servers/room" ≠ getKey (lit "s2") (lit "room") := by decide
  have h₁₃ : lit "servers/room" ≠ getKey (lit "s1") (lit "room") := by decide
  have h₂₃ : getKey (lit "s2") (lit "room") ≠ getKey (lit "s1") (lit "room") := by decide
  simp only [damaged, damagedEntries, List.foldl_cons, List.foldl_nil, GoMap.get?_set,
    GoMap.get?_empty, List.mem_cons, List.not_mem_nil, or_false, Prod.mk.injEq]
  generalize lit "servers/room" = k₁ at *
  generalize getKey (lit "s2") (lit "room") = k₂ at *
  generalize getKey (lit "s1") (lit "room") = k₃ at *
  -- the keys differ, so each is looked up past the others
  grind

theorem answers_damaged : damagedAnswers.Answers true damaged where
  listing := by
    refine ⟨damagedEntries, rfl, by decide, fun key payload => ?_⟩
    rw [← get?_damaged]
    constructor
    · intro hget
      have hmem := get?_damaged.1 hget
      simp only [damagedEntries, List.mem_cons, List.not_mem_nil, or_false, Prod.mk.injEq] at hmem
      rcases hmem with ⟨rfl, rfl⟩ | ⟨rfl, rfl⟩ | ⟨rfl, rfl⟩
      · exact ⟨_, ⟨hget, lit "room", by decide⟩, rfl⟩
      · exact ⟨_, ⟨hget, _, rfl⟩, rfl⟩
      · exact ⟨_, ⟨hget, _, rfl⟩, rfl⟩
    · rintro ⟨value, hlisted, rfl⟩
      exact hlisted.1
  get := fun _ => rfl

theorem roomNode_ne_null (value : List UInt8) : roomNode.parseServer value ≠ .ok none := by
  unfold roomNode
  dsimp only
  split
  · simp
  · split <;> simp

/-- What is offered is the room server's record. -/
theorem offered_damaged (h : Offered roomNode damaged id sv) : id = sv.id := by
  obtain ⟨key, value, t, hlisted, hkept, hparse⟩ := h
  have hmem := get?_damaged.1 hlisted.1
  simp only [damagedEntries, List.mem_cons, List.not_mem_nil, or_false, Prod.mk.injEq] at hmem
  have hcut : roomNode.parseServer (lit "\x7b") = .error (lit "unexpected end of JSON input") := by
    decide
  rcases hmem with ⟨rfl, rfl⟩ | ⟨rfl, rfl⟩ | ⟨rfl, rfl⟩
  · cases hcut.symm.trans hparse
  · cases hcut.symm.trans hparse
  · have hread : roomNode.parseServer (roomRecord (lit "a")) = .ok (some (roomOn (lit "a"))) := by
      decide
    have hparts : keptKey roomNode (getKey (lit "s1") (lit "room")) =
        some (lit "room", lit "s1") := by decide
    obtain rfl : roomOn (lit "a") = sv := by simpa [hread] using hparse
    obtain ⟨rfl, rfl⟩ : lit "room" = t ∧ lit "s1" = id := by simpa [hparts] using hkept
    rfl

/-- A room server's record next to a key of two parts and a value cut short:
what is left is the room server's entry, by events as by a sync. -/
theorem malformed_harmless_iff_room :
    (∃ s', handleEvents roomNode .init (damagedEntries.map fun entry => .put entry.1 entry.2) =
        .ok s' ∧
      handleEvents roomNode .init
        [.put (getKey (lit "s1") (lit "room")) (roomRecord (lit "a"))] = .ok s') ∧
    (damagedAnswers.only (wellFormed roomNode damaged)).listing =
      .ok [(getKey (lit "s1") (lit "room"), roomRecord (lit "a"))] ∧
    ∃ s', syncServers roomNode damagedAnswers true .init = .ok s' ∧
      syncServers roomNode (damagedAnswers.only (wellFormed roomNode damaged)) true .init =
        .ok s' := by
  obtain ⟨hevents, hsync⟩ := malformed_harmless_iff roomNode .init indexed_init
  obtain ⟨s', h, hfiltered⟩ := (hevents (damagedEntries.map fun entry => .put entry.1 entry.2)).2
    fun _ value _ _ => roomNode_ne_null value
  refine ⟨⟨s', h, hfiltered⟩, by decide, (hsync damaged _ true answers_damaged).2 ⟨?_, ?_⟩⟩
  · exact fun _ value _ _ _ _ _ => roomNode_ne_null value
  · -- an id that is offered under no key of its own is not the room server's
    intro id _ hnone
    refine ⟨GoMap.get?_empty _, fun id' sv _ hoffered hid => hnone sv ?_⟩
    obtain rfl := offered_damaged hoffered
    rwa [hid] at hoffered

/-- A node that reads JSON `null` as no server, without an error. -/
def nullNode : Config :=
  { self := lit "connector-1"
    serverTypesBlacklist := []
    parseServer := fun value =>
      if value = lit "null" then .ok none else .error (lit "unexpected end of JSON input") }

/-- **One key with the value `null`**: the watcher dereferences a nil
server, and so does a sync; without the entry both leave the maps as they
are. -/
theorem null_panics :
    handleEvents nullNode .init [.put (getKey (lit "s1") (lit "room")) (lit "null")] = .panic ∧
    handleEvents nullNode .init
      ([.put (getKey (lit "s1") (lit "room")) (lit "null")].filter (Event.wellFormed nullNode)) =
        .ok .init ∧
    syncServers nullNode (oneKey (getKey (lit "s1") (lit "room")) (lit "null")) true .init =
      .panic := by
  refine ⟨?_, rfl, rfl⟩
  exact handleEvents_of_null List.mem_cons_self ⟨by decide, by decide⟩

end Discovery

end Nrpc
