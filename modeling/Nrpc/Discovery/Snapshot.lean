import Nrpc.Discovery.Replay
/-!
# A sync installs the admitted snapshot

A sync that is answered from contents that do not change meanwhile keeps
of the known ids the ones that are listed under an admitted key, and adds
the listed ones it can read (`Installed`). Both are read off the contents
and the maps before, so neither the order of the workers nor the kind of
query can be told from the maps afterwards (`sync_installs`).
-/

namespace Nrpc

namespace Discovery

variable {cfg : Config} {s s' : Servers} {kv : Contents} {env : SyncEnv} {firstSync : Bool}
variable {key value : List UInt8} {t id : GoString} {sv : Server}

/-! ## Contents that match their keys -/

/-- **Contents whose values match their keys**: a value under `servers/`
that can be read has the id and the type of its key, and an id is under one
type only. A value need not be readable. -/
structure Coherent (cfg : Config) (kv : Contents) : Prop where
  reads : ∀ key value t id sv, Listed kv key value → parseEtcdKey key = .ok (t, id) →
    cfg.parseServer value = .ok (some sv) → sv.id = id ∧ sv.type = t
  unique : ∀ key value key' value' t t' id, Listed kv key value → Listed kv key' value' →
    parseEtcdKey key = .ok (t, id) → parseEtcdKey key' = .ok (t', id) → t = t'

theorem Offered.admitted (h : Offered cfg kv id sv) : Admitted cfg kv id := by
  obtain ⟨key, value, t, hlisted, hkept, -⟩ := h
  exact ⟨key, value, t, hlisted, hkept⟩

/-- An offered server has the id it is offered under, and its value is
under its own key. -/
theorem Coherent.of_offered (hkv : Coherent cfg kv) (h : Offered cfg kv id sv) :
    sv.id = id ∧ ∃ value, Listed kv (getKey id sv.type) value ∧
      cfg.parseServer value = .ok (some sv) := by
  obtain ⟨key, value, t, hlisted, hkept, hparse⟩ := h
  have hkey := (keptKey_eq_some_iff.1 hkept).1
  obtain ⟨hid, rfl⟩ := hkv.reads key value t id sv hlisted hkey hparse
  obtain ⟨hget, rest, hrest⟩ := hlisted
  have heq := eq_getKey_of_parse hrest hkey
  exact ⟨hid, value, heq ▸ ⟨hget, rest, hrest⟩, hparse⟩

/-- **An id is offered with one record.** -/
theorem Coherent.offered_unique (hkv : Coherent cfg kv) {sv' : Server}
    (h : Offered cfg kv id sv) (h' : Offered cfg kv id sv') : sv = sv' := by
  obtain ⟨key, value, t, hlisted, hkept, hparse⟩ := h
  obtain ⟨key', value', t', hlisted', hkept', hparse'⟩ := h'
  have hkey := (keptKey_eq_some_iff.1 hkept).1
  have hkey' := (keptKey_eq_some_iff.1 hkept').1
  obtain rfl := hkv.unique _ _ _ _ t t' id hlisted hlisted' hkey hkey'
  obtain ⟨hget, rest, hrest⟩ := hlisted
  obtain ⟨hget', rest', hrest'⟩ := hlisted'
  rw [eq_getKey_of_parse hrest hkey] at hget
  rw [eq_getKey_of_parse hrest' hkey', hget] at hget'
  rw [← Option.some.inj hget', hparse] at hparse'
  simpa using hparse'

/-! ## What is installed -/

/-- **What a sync makes of the maps it finds**, given the contents. -/
structure Installed (cfg : Config) (kv : Contents) (s s' : Servers) : Prop where
  indexed : Indexed s'
  byID : ∀ id sv, s'.byID.get? id = some sv ↔ Admitted cfg kv id ∧
    (s.byID.get? id = some sv ∨ s.byID.get? id = none ∧ Offered cfg kv id sv)
  byType : ∀ t, (s'.byType.get? t).isSome ↔
    (s.byType.get? t).isSome ∨ ∃ id sv, s'.byID.get? id = some sv ∧ sv.type = t

/-- **What is installed is settled by the contents and the maps before.** -/
theorem Installed.unique {s₁ s₂ : Servers} (h₁ : Installed cfg kv s s₁)
    (h₂ : Installed cfg kv s s₂) : s₁.byID = s₂.byID ∧ s₁.byType = s₂.byType := by
  have hbyID : s₁.byID = s₂.byID := by
    ext1 id
    refine Option.ext fun sv => ?_
    rw [h₁.byID, h₂.byID]
  refine ⟨hbyID, ?_⟩
  ext1 t
  -- the same types have maps, and a map holds the servers of its type
  have hsome : (s₁.byType.get? t).isSome ↔ (s₂.byType.get? t).isSome := by
    rw [h₁.byType, h₂.byType, hbyID]
  have hlookup : ∀ id, s₁.lookup t id = s₂.lookup t id := by
    intro id
    refine Option.ext fun sv => ?_
    rw [h₁.indexed.lookup_iff, h₂.indexed.lookup_iff, hbyID]
  rcases hm₁ : s₁.byType.get? t with _ | m₁
  · rcases hm₂ : s₂.byType.get? t with _ | m₂
    · rfl
    · rw [hm₁, hm₂] at hsome
      simp at hsome
  · rcases hm₂ : s₂.byType.get? t with _ | m₂
    · rw [hm₁, hm₂] at hsome
      simp at hsome
    · congr 1
      ext1 id
      have h := hlookup id
      simpa only [Servers.lookup, hm₁, hm₂, Option.bind_some] using h

/-- **A sync that returns nil has installed the snapshot.** -/
theorem installed_of_syncServers (hs : Indexed s) (hkv : Coherent cfg kv)
    (henv : env.Answers firstSync kv) (h : syncServers cfg env firstSync s = .ok s') :
    Installed cfg kv s s' := by
  obtain ⟨kvs, hlisting, -, hkvs⟩ := henv.listing
  obtain ⟨mid, hmid, rfl⟩ := (syncServers_eq_ok_iff hlisting).1 h
  have hsome : none ∉ env.collect (loads cfg env firstSync s kvs) := by
    rw [(env.collect_perm _).mem_iff]
    exact none_notMem_loads hmid
  -- a loaded server was offered under an id that was free, and that id is its own
  have hloaded : ∀ {id sv}, some sv ∈ env.collect (loads cfg env firstSync s kvs) ∧ sv.id = id ↔
      s.byID.get? id = none ∧ Offered cfg kv id sv := by
    intro id sv
    rw [(env.collect_perm _).mem_iff, some_mem_loads_answers hkvs henv]
    constructor
    · rintro ⟨⟨id', hfree, hoffered⟩, rfl⟩
      obtain rfl := (hkv.of_offered hoffered).1
      exact ⟨hfree, hoffered⟩
    · rintro ⟨hfree, hoffered⟩
      exact ⟨⟨id, hfree, hoffered⟩, (hkv.of_offered hoffered).1⟩
  have hinj : ∀ sv sv', some sv ∈ env.collect (loads cfg env firstSync s kvs) →
      some sv' ∈ env.collect (loads cfg env firstSync s kvs) → sv.id = sv'.id → sv = sv' := by
    intro sv sv' hsv hsv' heq
    exact hkv.offered_unique (hloaded.1 ⟨hsv, heq⟩).2 (hloaded.1 ⟨hsv', rfl⟩).2
  obtain ⟨mid', hmid', hindexed, hbyID⟩ := @foldlM_addServer cfg s _ hs hsome hinj
  obtain ⟨mid'', hmid'', -, hkeep, hnew⟩ := @exists_foldlM_addServer cfg s _ hsome
  rw [hmid] at hmid' hmid''
  obtain rfl := Outcome.ok.inj hmid'
  obtain rfl := Outcome.ok.inj hmid''
  have hclean : ∀ id sv, (deleteLocalInvalidServers mid (listedIds cfg kvs)
      (env.range mid.byID)).byID.get? id = some sv ↔ Admitted cfg kv id ∧
        (s.byID.get? id = some sv ∨ s.byID.get? id = none ∧ Offered cfg kv id sv) := by
    intro id sv
    rw [byID_cleanUp hindexed (env.range_ranges _), ← mem_listedIds hkvs]
    by_cases hin : id ∈ listedIds cfg kvs
    · rw [if_pos hin, hbyID, and_iff_right hin]
      refine or_congr_right ⟨?_, ?_⟩
      · rintro ⟨-, hsv⟩
        exact hloaded.1 hsv
      · intro h
        exact ⟨h.1, hloaded.2 h⟩
    · rw [if_neg hin]
      simp [hin]
  have hindexed' := indexed_deleteLocalInvalidServers hindexed (listedIds cfg kvs)
    (env.range mid.byID)
  refine ⟨hindexed', hclean, ?_⟩
  intro t
  constructor
  · intro ht
    rw [isSome_byType_deleteLocalInvalidServers] at ht
    rcases hnew t ht with h | ⟨sv, hsv, hfree, rfl⟩
    · exact Or.inl h
    · obtain ⟨-, hoffered⟩ := hloaded.1 ⟨hsv, rfl⟩
      exact Or.inr ⟨sv.id, sv, (hclean _ _).2 ⟨hoffered.admitted, Or.inr ⟨hfree, hoffered⟩⟩, rfl⟩
  · rintro (h | ⟨id, sv, hsv, rfl⟩)
    · rw [isSome_byType_deleteLocalInvalidServers]
      exact hkeep t h
    · have hlookup := (hindexed'.lookup_iff sv.type id sv).2 ⟨hsv, rfl⟩
      obtain ⟨m, hm, -⟩ := Option.bind_eq_some_iff.1 hlookup
      rw [hm]
      rfl

/-- No server that a sync has to load is the record `null`. -/
def NoNull (cfg : Config) (kv : Contents) (s : Servers) : Prop :=
  ∀ key value t id, Listed kv key value → keptKey cfg key = some (t, id) →
    s.byID.get? id = none → cfg.parseServer value ≠ .ok none

/-- **A sync returns nil exactly if it meets no `null`.** -/
theorem exists_syncServers_iff (henv : env.Answers firstSync kv) :
    (∃ s', syncServers cfg env firstSync s = .ok s') ↔ NoNull cfg kv s := by
  obtain ⟨kvs, hlisting, -, hkvs⟩ := henv.listing
  simp only [syncServers_eq_ok_iff hlisting]
  constructor
  · rintro ⟨s', mid, hmid, -⟩ key value t id hlisted hkept hfree hparse
    exact none_notMem_loads hmid ((mem_loads_answers hkvs henv).2
      ⟨key, value, t, id, hlisted, hkept, hfree, hparse⟩)
  · intro hnull
    have hsome : none ∉ env.collect (loads cfg env firstSync s kvs) := by
      rw [(env.collect_perm _).mem_iff, mem_loads_answers hkvs henv]
      rintro ⟨key, value, t, id, hlisted, hkept, hfree, hparse⟩
      exact hnull key value t id hlisted hkept hfree hparse
    obtain ⟨mid, hmid, -⟩ := @exists_foldlM_addServer cfg s _ hsome
    exact ⟨_, mid, hmid, rfl⟩

/-- The answers of a sync do not depend on how it collects. -/
theorem SyncEnv.Answers.congr {env' : SyncEnv} (henv : env.Answers firstSync kv)
    (hlisting : env'.listing = env.listing) (hget : env'.get = env.get) :
    env'.Answers firstSync kv where
  listing := hlisting ▸ henv.listing
  get := hget ▸ henv.get

/-- The ids that are installed, by the parts of their keys. -/
theorem Installed.isSome_byID_iff (h : Installed cfg kv s s') :
    (s'.byID.get? id).isSome ↔ ∃ key value p t, Listed kv key value ∧
      key.splitOn 0x2F = [p, t, id] ∧ (t ∉ cfg.serverTypesBlacklist ∨ id = cfg.self) ∧
      ((s.byID.get? id).isSome ∨ ∃ sv, cfg.parseServer value = .ok (some sv)) := by
  constructor
  · intro hsome
    obtain ⟨sv, hsv⟩ := Option.isSome_iff_exists.1 hsome
    obtain ⟨⟨key, value, t, hlisted, hkept⟩, hold | ⟨-, hoffered⟩⟩ := (h.byID id sv).1 hsv
    · obtain ⟨hparse, hin⟩ := keptKey_eq_some_iff.1 hkept
      obtain ⟨p, hsplit⟩ := parseEtcdKey_eq_ok_iff.1 hparse
      exact ⟨key, value, p, t, hlisted, hsplit, hin, Or.inl (by rw [hold]; rfl)⟩
    · obtain ⟨key, value, t, hlisted, hkept, hreads⟩ := hoffered
      obtain ⟨hparse, hin⟩ := keptKey_eq_some_iff.1 hkept
      obtain ⟨p, hsplit⟩ := parseEtcdKey_eq_ok_iff.1 hparse
      exact ⟨key, value, p, t, hlisted, hsplit, hin, Or.inr ⟨sv, hreads⟩⟩
  · rintro ⟨key, value, p, t, hlisted, hsplit, hin, hvalue⟩
    have hkept : keptKey cfg key = some (t, id) :=
      keptKey_eq_some_iff.2 ⟨parseEtcdKey_eq_ok_iff.2 ⟨p, hsplit⟩, hin⟩
    have hadmitted : Admitted cfg kv id := ⟨key, value, t, hlisted, hkept⟩
    rcases hold : s.byID.get? id with _ | sv
    · rw [hold] at hvalue
      obtain ⟨sv, hreads⟩ := hvalue.resolve_left (by simp)
      rw [(h.byID id sv).2 ⟨hadmitted, Or.inr ⟨hold, key, value, t, hlisted, hkept, hreads⟩⟩]
      rfl
    · rw [(h.byID id sv).2 ⟨hadmitted, Or.inl hold⟩]
      rfl

/-- **`SyncServers` installs exactly the admitted snapshot.** From any maps
that agree, with contents whose values match their keys and that do not
change during the call: it returns, unless a value it has to load is
`null`; and once it has returned nil, for any parallelism and any schedule
of the workers, the ids are those of the admitted keys that were known or
can be read, a new id has the record under its key, an id that stays keeps
its record, the maps agree, and they are the maps any other such sync
leaves, first or not. -/
theorem sync_installs (cfg : Config) (kv : Contents) (s : Servers) (hs : Indexed s)
    (hkv : Coherent cfg kv) :
    (NoNull cfg kv s → ∀ env firstSync n, SyncEnv.Answers env firstSync kv →
      ∃ schedule s', syncServersBy cfg env n schedule firstSync s = some (.ok s')) ∧
    ∀ env firstSync n schedule s', SyncEnv.Answers env firstSync kv →
      syncServersBy cfg env n schedule firstSync s = some (.ok s') →
      (∀ id, (s'.byID.get? id).isSome ↔ ∃ key value p t, Listed kv key value ∧
        key.splitOn 0x2F = [p, t, id] ∧ (t ∉ cfg.serverTypesBlacklist ∨ id = cfg.self) ∧
        ((s.byID.get? id).isSome ∨ ∃ sv, cfg.parseServer value = .ok (some sv))) ∧
      (∀ id sv, s.byID.get? id = none → s'.byID.get? id = some sv →
        ∃ value, Listed kv (getKey id sv.type) value ∧ cfg.parseServer value = .ok (some sv)) ∧
      (∀ id sv sv', s.byID.get? id = some sv → s'.byID.get? id = some sv' → sv' = sv) ∧
      Indexed s' ∧
      ∀ env' firstSync' n' schedule' s'', SyncEnv.Answers env' firstSync' kv →
        syncServersBy cfg env' n' schedule' firstSync' s = some (.ok s'') →
        s''.byID = s'.byID ∧ s''.byType = s'.byType := by
  have hinstalled : ∀ {env firstSync n schedule s'}, SyncEnv.Answers env firstSync kv →
      syncServersBy cfg env n schedule firstSync s = some (.ok s') → Installed cfg kv s s' := by
    intro env firstSync n schedule s' henv h
    obtain ⟨env', hlisting, hget, hsync⟩ := syncServersBy_eq h
    exact installed_of_syncServers hs hkv (henv.congr hlisting hget) hsync
  refine ⟨?_, ?_⟩
  · intro hnull env firstSync n henv
    obtain ⟨schedule, x, h⟩ := @exists_syncServersBy cfg s env firstSync n
    obtain ⟨env', hlisting, hget, rfl⟩ := syncServersBy_eq h
    obtain ⟨s', hs'⟩ := (exists_syncServers_iff (henv.congr hlisting hget)).2 hnull
    exact ⟨schedule, s', by rw [h, hs']⟩
  · intro env firstSync n schedule s' henv h
    have hs' := hinstalled henv h
    refine ⟨fun id => hs'.isSome_byID_iff, ?_, ?_, hs'.indexed, ?_⟩
    · intro id sv hfree hsv
      obtain ⟨-, hold | ⟨-, hoffered⟩⟩ := (hs'.byID id sv).1 hsv
      · rw [hfree] at hold
        cases hold
      · exact (hkv.of_offered hoffered).2
    · intro id sv sv' hold hsv'
      obtain ⟨-, h | ⟨h, -⟩⟩ := (hs'.byID id sv').1 hsv'
      · rw [hold] at h
        exact (Option.some.inj h).symm
      · rw [hold] at h
        cases h
    · intro env' firstSync' n' schedule' s'' henv' h'
      exact (hinstalled henv' h').unique hs'

/-- Contents of one key. -/
theorem listed_single {K V : List UInt8} {key value : List UInt8}
    (h : Listed (GoMap.empty.set K V) key value) : key = K ∧ value = V := by
  have hget := h.1
  rw [GoMap.get?_set] at hget
  split at hget
  · rename_i hkey
    exact ⟨hkey, (Option.some.inj hget).symm⟩
  · simp at hget

/-- The room server's key under `servers/`, and its parts. -/
theorem listed_room (host : GoString) : Listed (GoMap.empty.set (getKey (lit "s1") (lit "room"))
    (roomRecord host)) (getKey (lit "s1") (lit "room")) (roomRecord host) :=
  ⟨GoMap.get?_set_self _ _ _, lit "room/s1", by decide⟩

theorem coherent_room : Coherent roomNode
    (GoMap.empty.set (getKey (lit "s1") (lit "room")) (roomRecord (lit "a"))) where
  reads := by
    intro key value t id sv hlisted hparse hreads
    obtain ⟨rfl, rfl⟩ := listed_single hlisted
    have hroom : roomNode.parseServer (roomRecord (lit "a")) = .ok (some (roomOn (lit "a"))) := by
      decide
    obtain rfl : roomOn (lit "a") = sv := by simpa [hroom] using hreads
    obtain ⟨-, -, rfl, rfl⟩ := parseEtcdKey_getKey_iff.1 hparse
    exact ⟨rfl, rfl⟩
  unique := by
    intro key value key' value' t t' id hlisted hlisted' hparse hparse'
    obtain ⟨rfl, rfl⟩ := listed_single hlisted
    obtain ⟨rfl, -⟩ := listed_single hlisted'
    rw [hparse] at hparse'
    exact (Prod.mk.inj (Except.ok.inj hparse')).1

theorem answers_room {host : GoString} :
    (oneKey (getKey (lit "s1") (lit "room")) (roomRecord host)).Answers true
      (GoMap.empty.set (getKey (lit "s1") (lit "room")) (roomRecord host)) :=
  answers_oneKey fun key => by rw [GoMap.get?_set, GoMap.get?_empty]

/-- A node that knows only a server that is gone, and etcd with the key of
another one: the sync adds the one and removes the other. -/
theorem sync_installs_room :
    ∃ s, addServer roomNode .init (some ⟨lit "s2", lit "room", .empty, []⟩) = .ok s ∧
      ∃ schedule s', syncServersBy roomNode
          (oneKey (getKey (lit "s1") (lit "room")) (roomRecord (lit "a"))) 4 schedule true s =
            some (.ok s') ∧
        (s'.byID.get? (lit "s1")).isSome ∧ ¬ (s'.byID.get? (lit "s2")).isSome := by
  obtain ⟨s, hadd, hbyID, -⟩ := @addServer_new roomNode .init
    ⟨lit "s2", lit "room", .empty, []⟩ (GoMap.get?_empty _)
  obtain ⟨hreturns, hinstalls⟩ := sync_installs roomNode _ s
    (indexed_addServer indexed_init hadd) coherent_room
  have hnull : NoNull roomNode
      (GoMap.empty.set (getKey (lit "s1") (lit "room")) (roomRecord (lit "a"))) s := by
    intro key value t id hlisted _ _
    obtain ⟨-, rfl⟩ := listed_single hlisted
    decide
  obtain ⟨schedule, s', h⟩ := hreturns hnull _ true 4 answers_room
  have hids := (hinstalls _ true 4 schedule s' answers_room h).1
  refine ⟨s, hadd, schedule, s', h, (hids _).2 ?_, ?_⟩
  · exact ⟨_, _, lit "servers", lit "room", listed_room (lit "a"), by decide, by decide,
      Or.inr ⟨roomOn (lit "a"), by decide⟩⟩
  · rw [hids]
    rintro ⟨key, value, p, t, hlisted, hsplit, -⟩
    obtain ⟨rfl, -⟩ := listed_single hlisted
    have hparts : (getKey (lit "s1") (lit "room")).splitOn 0x2F =
        [lit "servers", lit "room", lit "s1"] := by decide
    rw [hparts] at hsplit
    revert hsplit
    simp [lit]

end Discovery

end Nrpc
