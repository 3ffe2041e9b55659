import Nrpc.Discovery.Index
import Nrpc.Discovery.Keys
import Nrpc.Discovery.Model.Etcd
import Nrpc.Discovery.Model.Getter
/-!
# What a sync does

`SyncServers` in parts: which keys it admits, what it loads for them, what
the loop over the loaded servers adds and what the clean-up removes. Each
part has one lemma that says what it comes to, and the statements about
whole syncs are put together from these. A run of the parallel getter is a
sync that collects in the order of the run (`syncServersBy_eq`).
-/

namespace Nrpc

namespace Discovery

variable {cfg : Config} {s s' : Servers} {kv : Contents} {env : SyncEnv} {firstSync : Bool}
variable {key value : List UInt8} {t id : GoString} {sv : Server}

/-! ## Keys -/

/-- A key is admitted if it can be parsed and its type is not blacklisted,
or its id is this node's own. -/
theorem keptKey_eq_some_iff : keptKey cfg key = some (t, id) ↔
    parseEtcdKey key = .ok (t, id) ∧ (t ∉ cfg.serverTypesBlacklist ∨ id = cfg.self) := by
  unfold keptKey
  split
  · rename_i hparse
    rw [hparse]
    simp
  · rename_i svType svID hparse
    rw [hparse]
    split
    · rename_i hout
      refine ⟨fun h => (by cases h), ?_⟩
      rintro ⟨h, hin⟩
      obtain ⟨rfl, rfl⟩ := Prod.mk.inj (Except.ok.inj h)
      exact absurd hin (by tauto)
    · rename_i hin
      constructor
      · intro h
        obtain ⟨rfl, rfl⟩ := Prod.mk.inj (Option.some.inj h)
        exact ⟨rfl, by tauto⟩
      · rintro ⟨h, -⟩
        exact congrArg some (Except.ok.inj h)

theorem keptKey_getKey {t' id' : GoString} (h : keptKey cfg (getKey id t) = some (t', id')) :
    t' = t ∧ id' = id :=
  (parseEtcdKey_getKey_iff.1 (keptKey_eq_some_iff.1 h).1).2.2

/-! ## The loops -/

/-- **The loop over the loaded servers.** Servers with ids of their own are
all taken, in whatever order they came back. -/
theorem foldlM_addServer {l : List (Option Server)} (hs : Indexed s) (hsome : none ∉ l)
    (hinj : ∀ sv sv', some sv ∈ l → some sv' ∈ l → sv.id = sv'.id → sv = sv') :
    ∃ s', l.foldlM (addServer cfg) s = .ok s' ∧ Indexed s' ∧
      ∀ id sv, s'.byID.get? id = some sv ↔
        s.byID.get? id = some sv ∨ (s.byID.get? id = none ∧ some sv ∈ l ∧ sv.id = id) := by
  induction l generalizing s with
  | nil => exact ⟨s, rfl, hs, fun id sv => by simp⟩
  | cons x l ih =>
    rcases x with _ | sv₀
    · exact absurd List.mem_cons_self hsome
    have hsome' : none ∉ l := fun h => hsome (List.mem_cons_of_mem _ h)
    have hinj' : ∀ sv sv', some sv ∈ l → some sv' ∈ l → sv.id = sv'.id → sv = sv' :=
      fun sv sv' h h' => hinj sv sv' (List.mem_cons_of_mem _ h) (List.mem_cons_of_mem _ h')
    obtain ⟨s₁, hadd, hbyID₁, -⟩ := addServer_some cfg s sv₀
    obtain ⟨s', hfold, hs', hbyID⟩ := ih (indexed_addServer hs hadd) hsome' hinj'
    refine ⟨s', by rw [List.foldlM_cons, hadd]; exact hfold, hs', fun id sv => ?_⟩
    rw [hbyID, hbyID₁]
    cases hget : s.byID.get? id with
    | some sv' => simp
    | none =>
      rw [Option.none_or]
      by_cases hid : id = sv₀.id
      · rw [if_pos hid]
        constructor
        · rintro (h | ⟨h, -⟩)
          · obtain rfl := Option.some.inj h
            exact Or.inr ⟨rfl, List.mem_cons_self, hid.symm⟩
          · cases h
        · rintro (h | ⟨-, hmem, hsv⟩)
          · cases h
          · exact Or.inl (by rw [hinj sv sv₀ hmem List.mem_cons_self (hsv.trans hid)])
      · -- the first server has another id
        rw [if_neg hid]
        refine or_congr_right (and_congr_right fun _ => and_congr_left fun hsv => ?_)
        rw [List.mem_cons, or_iff_right]
        intro heq
        obtain rfl := Option.some.inj heq
        exact hid hsv.symm

/-- Nothing is removed when every id is listed. -/
theorem deleteLocalInvalidServers_of_subset {actualServers order : List GoString}
    (h : ∀ k ∈ order, k ∈ actualServers) : deleteLocalInvalidServers s actualServers order = s := by
  unfold deleteLocalInvalidServers
  induction order with
  | nil => rfl
  | cons k order ih =>
    rw [List.foldl_cons, if_pos (h k List.mem_cons_self)]
    exact ih fun k hk => h k (List.mem_cons_of_mem _ hk)

/-- A loaded server that is nil ends the loop with a panic. -/
theorem foldlM_addServer_of_none {l : List (Option Server)} (hnone : none ∈ l) :
    l.foldlM (addServer cfg) s = .panic := by
  induction l generalizing s with
  | nil => cases hnone
  | cons x l ih =>
    rw [List.foldlM_cons]
    rcases x with _ | sv
    · rfl
    · have hrest : none ∈ l := by simpa using hnone
      obtain ⟨s₁, hadd, -⟩ := addServer_some cfg s sv
      rw [hadd]
      exact ih hrest

/-- **The loop over loaded servers that are not nil**: it adds their ids,
and maps for the types of the servers it takes. -/
theorem exists_foldlM_addServer {l : List (Option Server)} (hsome : none ∉ l) :
    ∃ s', l.foldlM (addServer cfg) s = .ok s' ∧
      (∀ id, (s'.byID.get? id).isSome ↔
        (s.byID.get? id).isSome ∨ ∃ sv, some sv ∈ l ∧ sv.id = id) ∧
      (∀ t, (s.byType.get? t).isSome → (s'.byType.get? t).isSome) ∧
      ∀ t, (s'.byType.get? t).isSome → (s.byType.get? t).isSome ∨
        ∃ sv, some sv ∈ l ∧ s.byID.get? sv.id = none ∧ sv.type = t := by
  induction l generalizing s with
  | nil => exact ⟨s, rfl, by simp, fun _ h => h, fun _ h => Or.inl h⟩
  | cons x l ih =>
    rcases x with _ | sv₀
    · exact absurd List.mem_cons_self hsome
    have hsome' : none ∉ l := fun h => hsome (List.mem_cons_of_mem _ h)
    obtain ⟨s₁, hadd, hbyID₁, htypes₁⟩ := addServer_some cfg s sv₀
    obtain ⟨s', hfold, hids, hkeep, hnew⟩ := @ih s₁ hsome'
    have hids₁ : ∀ id, (s₁.byID.get? id).isSome ↔ (s.byID.get? id).isSome ∨ sv₀.id = id := by
      intro id
      rw [hbyID₁, Option.isSome_or, Bool.or_eq_true]
      by_cases hid : id = sv₀.id
      · simp [hid]
      · simp [hid, Ne.symm hid]
    refine ⟨s', by rw [List.foldlM_cons, hadd]; exact hfold, fun id => ?_, fun t ht => ?_,
      fun t ht => ?_⟩
    · rw [hids, hids₁, or_assoc]
      refine or_congr_right ?_
      simp only [List.mem_cons, Option.some.injEq, or_and_right, exists_or, exists_eq_left]
    · exact hkeep t ((htypes₁ t).2 (Or.inl ht))
    · rcases hnew t ht with h | ⟨sv, hsv, hfree, hsvt⟩
      · rcases (htypes₁ t).1 h with h | ⟨hnone, rfl⟩
        · exact Or.inl h
        · exact Or.inr ⟨sv₀, List.mem_cons_self, hnone, rfl⟩
      · -- an id that is free behind the first server was free before it
        refine Or.inr ⟨sv, List.mem_cons_of_mem _ hsv, ?_, hsvt⟩
        rw [hbyID₁] at hfree
        exact (Option.or_eq_none_iff.1 hfree).1

/-- Removing a server leaves the map of its type, without it. -/
theorem isSome_byType_deleteServer (serverID : GoString) :
    ((deleteServer s serverID).byType.get? t).isSome = (s.byType.get? t).isSome := by
  unfold deleteServer
  split
  · rfl
  · rename_i sv hsv
    dsimp only [removeByType]
    split
    · rename_i svMap hmap
      rw [GoMap.get?_set]
      split
      · rename_i ht
        rw [ht, hmap]
        rfl
      · rfl
    · rfl

/-- **The clean-up removes the ids it visits that are not listed.** -/
theorem byID_deleteLocalInvalidServers (hs : Indexed s) (actualServers order : List GoString)
    (id : GoString) : (deleteLocalInvalidServers s actualServers order).byID.get? id =
      if id ∈ order ∧ id ∉ actualServers then none else s.byID.get? id := by
  unfold deleteLocalInvalidServers
  induction order generalizing s with
  | nil => simp
  | cons k order ih =>
    rw [List.foldl_cons]
    by_cases hk : k ∈ actualServers
    · rw [if_pos hk, ih hs]
      refine if_congr (and_congr_left fun hid => ?_) rfl rfl
      rw [List.mem_cons, or_iff_right]
      rintro rfl
      exact hid hk
    · rw [if_neg hk, ih (indexed_deleteServer hs k), byID_deleteServer hs, GoMap.get?_del]
      by_cases hid : id = k
      · subst hid
        rw [if_pos (rfl : id = id), if_pos (show id ∈ id :: order ∧ _ from ⟨by simp, hk⟩)]
        exact ite_self _
      · rw [if_neg hid]
        refine if_congr (and_congr_left fun _ => ?_) rfl rfl
        rw [List.mem_cons, or_iff_right hid]

/-- A clean-up that visits every id leaves the listed ones. -/
theorem byID_cleanUp (hs : Indexed s) {actualServers order : List GoString}
    (horder : s.byID.Ranges order) (id : GoString) :
    (deleteLocalInvalidServers s actualServers order).byID.get? id =
      if id ∈ actualServers then s.byID.get? id else none := by
  rw [byID_deleteLocalInvalidServers hs]
  by_cases hin : id ∈ actualServers
  · rw [if_pos hin, if_neg fun h => h.2 hin]
  · rw [if_neg hin]
    by_cases hid : id ∈ order
    · rw [if_pos ⟨hid, hin⟩]
    · rw [if_neg fun h => hid h.1]
      simpa using fun h => hid ((horder.2 id).2 h)

theorem isSome_byType_deleteLocalInvalidServers (actualServers order : List GoString) :
    ((deleteLocalInvalidServers s actualServers order).byType.get? t).isSome =
      (s.byType.get? t).isSome := by
  unfold deleteLocalInvalidServers
  induction order generalizing s with
  | nil => rfl
  | cons k order ih =>
    rw [List.foldl_cons, ih]
    split
    · rfl
    · exact isSome_byType_deleteServer k

/-! ## The whole sync -/

/-- The ids a sync keeps: those of the admitted keys that are listed. -/
def listedIds (cfg : Config) (kvs : List (GoString × List UInt8)) : List GoString :=
  kvs.filterMap fun kv => (keptKey cfg kv.1).map Prod.snd

/-- **A sync that returns nil**: the loop over what was loaded, then the
clean-up. -/
theorem syncServers_eq_ok_iff {kvs : List (GoString × List UInt8)}
    (hlisting : env.listing = .ok kvs) : syncServers cfg env firstSync s = .ok s' ↔
    ∃ mid, (env.collect (loads cfg env firstSync s kvs)).foldlM (addServer cfg) s = .ok mid ∧
      s' = deleteLocalInvalidServers mid (listedIds cfg kvs) (env.range mid.byID) := by
  unfold syncServers
  rw [hlisting]
  simp only [Outcome.bind_eq_ok_iff, Outcome.pure_eq, Outcome.ok.injEq]
  constructor
  · rintro ⟨mid, hmid, rfl⟩
    exact ⟨mid, hmid, rfl⟩
  · rintro ⟨mid, hmid, rfl⟩
    exact ⟨mid, hmid, rfl⟩

section

variable {kvs : List (GoString × List UInt8)} {mid : Servers}
  (hmid : (env.collect (loads cfg env firstSync s kvs)).foldlM (addServer cfg) s = .ok mid)

include hmid

/-- Every server a sync adds was loaded, so none of them is nil. -/
theorem none_notMem_loads : none ∉ loads cfg env firstSync s kvs := by
  intro hnone
  rw [foldlM_addServer_of_none ((env.collect_perm _).mem_iff.2 hnone)] at hmid
  cases hmid

theorem indexed_of_loads (hs : Indexed s) : Indexed mid :=
  Outcome.foldlM_invariant (fun _ _ _ _ hb hadd => indexed_addServer hb hadd) hs hmid

/-- Before the clean-up the ids are the known ones and the loaded ones. -/
theorem isSome_byID_of_loads : (mid.byID.get? id).isSome ↔
    (s.byID.get? id).isSome ∨ ∃ sv, some sv ∈ loads cfg env firstSync s kvs ∧ sv.id = id := by
  obtain ⟨mid', hmid', hids, -⟩ := @exists_foldlM_addServer cfg s
    (env.collect (loads cfg env firstSync s kvs))
    (fun h => none_notMem_loads hmid ((env.collect_perm _).mem_iff.1 h))
  obtain rfl := Outcome.ok.inj (hmid.symm.trans hmid')
  simp only [hids, (env.collect_perm _).mem_iff]

end

/-- What the getter loads is what its works come to. -/
theorem filterMap_works (kvs : List (GoString × List UInt8)) :
    (works cfg firstSync s kvs).filterMap (Work.load cfg env) =
      loads cfg env firstSync s kvs := by
  unfold works loads
  rw [List.filterMap_filterMap]
  refine List.filterMap_congr fun ⟨key, value⟩ _ => ?_
  dsimp only
  rcases keptKey cfg key with _ | ⟨svType, svID⟩
  · rfl
  · dsimp only
    split <;> rfl

/-- The answers of a sync with another order of collecting. -/
def SyncEnv.collecting (env : SyncEnv) (l result : List (Option Server)) (h : result.Perm l) :
    SyncEnv where
  listing := env.listing
  get := env.get
  collect := fun l' => if l' = l then result else l'
  collect_perm := by
    intro l'
    split
    · rename_i hl
      rw [hl]
      exact h
    · exact List.Perm.refl l'
  range := env.range
  range_ranges := env.range_ranges

/-- **A run of the parallel getter is one order of collecting.** A sync
that got past its wait, whatever the number of workers and the schedule, is
the sync that collects what was loaded in some order. -/
theorem syncServersBy_eq {n : ℤ} {schedule : List FanOut.Action} {x : Outcome GoString Servers}
    (h : syncServersBy cfg env n schedule firstSync s = some x) :
    ∃ env' : SyncEnv, env'.listing = env.listing ∧ env'.get = env.get ∧
      syncServers cfg env' firstSync s = x := by
  unfold syncServersBy at h
  split at h
  · rename_i e hlisting
    refine ⟨env, rfl, rfl, ?_⟩
    rw [← Option.some.inj h, syncServers, hlisting]
  · rename_i kvs hlisting
    dsimp only at h
    split at h
    · cases h
    · rename_i getter hrun
      split at h
      · rename_i hfinished
        obtain rfl := Option.some.inj h
        have hperm : getter.result.Perm (loads cfg env firstSync s kvs) := by
          have hperm := FanOut.result_perm hrun hfinished
          rwa [filterMap_works] at hperm
        refine ⟨env.collecting _ _ hperm, rfl, rfl, ?_⟩
        have hcollect : (env.collecting _ _ hperm).collect
            (loads cfg (env.collecting _ _ hperm) firstSync s kvs) = getter.result := if_pos rfl
        unfold syncServers
        rw [show (env.collecting _ _ hperm).listing = .ok kvs from hlisting]
        dsimp only
        rw [hcollect]
        rfl
      · cases h

/-- **A sync gets past its wait**, with any configured parallelism, and
collects then what was loaded in some order. -/
theorem exists_syncServersBy (n : ℤ) : ∃ schedule x,
    syncServersBy cfg env n schedule firstSync s = some x := by
  unfold syncServersBy
  rcases env.listing with e | kvs
  · exact ⟨[], _, rfl⟩
  · have hpos : 0 < numWorkers n := by
      unfold numWorkers
      split <;> omega
    obtain ⟨schedule, getter, hrun, hfinished⟩ :=
      FanOut.exists_run_finished (Work.load cfg env) (works cfg firstSync s kvs) hpos
    refine ⟨schedule, ?_⟩
    dsimp only
    rw [hrun]
    dsimp only
    rw [hfinished]
    exact ⟨_, rfl⟩

/-! ## Answered from contents -/

/-- **An id is admitted by contents**: a key under `servers/` with the id,
of a type that is not blacklisted unless the id is this node's own. -/
def Admitted (cfg : Config) (kv : Contents) (id : GoString) : Prop :=
  ∃ key value t, Listed kv key value ∧ keptKey cfg key = some (t, id)

/-- **A server is offered by contents**: the value under an admitted key
reads as it. -/
def Offered (cfg : Config) (kv : Contents) (id : GoString) (sv : Server) : Prop :=
  ∃ key value t, Listed kv key value ∧ keptKey cfg key = some (t, id) ∧
    cfg.parseServer value = .ok (some sv)

/-- A load comes to the value under its key, from the listing or by a
second query. -/
theorem load_answers (henv : env.Answers firstSync kv) (hlisted : Listed kv key value)
    (hkept : keptKey cfg key = some (t, id)) :
    load cfg env t id (if firstSync then value else []) = cfg.parseServer value := by
  obtain ⟨hget, rest, hkey⟩ := hlisted
  obtain rfl := eq_getKey_of_parse hkey (keptKey_eq_some_iff.1 hkept).1
  have hfetch : getServerFromEtcd cfg env t id = cfg.parseServer value := by
    simp only [getServerFromEtcd, henv.get, hget]
  cases firstSync with
  | false => exact hfetch
  | true =>
    show (if value = [] then _ else cfg.parseServer value) = _
    split
    · exact hfetch
    · rfl

section

variable {kvs : List (GoString × List UInt8)}

/-- **What is loaded**, with the keys it was loaded for. -/
theorem mem_loads_iff {x : Option Server} : x ∈ loads cfg env firstSync s kvs ↔
    ∃ key payload t id, (key, payload) ∈ kvs ∧ keptKey cfg key = some (t, id) ∧
      s.byID.get? id = none ∧ load cfg env t id (if firstSync then payload else []) = .ok x := by
  unfold loads
  rw [List.mem_filterMap]
  constructor
  · rintro ⟨⟨key, payload⟩, hmem, hx⟩
    dsimp only at hx
    split at hx
    · cases hx
    · rename_i t id hkept
      split at hx
      · cases hx
      · rename_i hfree
        refine ⟨key, payload, t, id, hmem, hkept, by simpa using hfree, ?_⟩
        rcases hload : load cfg env t id (if firstSync then payload else []) with e | y
        · rw [hload] at hx
          cases hx
        · rw [hload] at hx
          rw [Option.some.inj hx]
  · rintro ⟨key, payload, t, id, hmem, hkept, hfree, hload⟩
    refine ⟨(key, payload), hmem, ?_⟩
    simp only [hkept, hfree, hload, Option.isSome_none]
    rfl

/-- The payload of a listed key is its value on the first sync. -/
theorem payload_listed (value : List UInt8) :
    (if firstSync = true then (if firstSync = true then value else []) else []) =
      if firstSync = true then value else [] := by
  split <;> rfl

variable (hkvs : ∀ key payload, (key, payload) ∈ kvs ↔
    ∃ value, Listed kv key value ∧ payload = if firstSync then value else [])

include hkvs

theorem mem_listedIds : id ∈ listedIds cfg kvs ↔ Admitted cfg kv id := by
  unfold listedIds
  rw [List.mem_filterMap]
  constructor
  · rintro ⟨⟨key, payload⟩, hmem, hid⟩
    obtain ⟨value, hlisted, -⟩ := (hkvs key payload).1 hmem
    obtain ⟨⟨t, id'⟩, hkept, rfl⟩ := Option.map_eq_some_iff.1 hid
    exact ⟨key, value, t, hlisted, hkept⟩
  · rintro ⟨key, value, t, hlisted, hkept⟩
    refine ⟨(key, _), (hkvs key _).2 ⟨value, hlisted, rfl⟩, ?_⟩
    rw [hkept]
    rfl

/-- **What is loaded of contents**: the values under the admitted keys whose
ids are not known, as far as they can be read. -/
theorem mem_loads_answers (henv : env.Answers firstSync kv) {x : Option Server} :
    x ∈ loads cfg env firstSync s kvs ↔ ∃ key value t id, Listed kv key value ∧
      keptKey cfg key = some (t, id) ∧ s.byID.get? id = none ∧ cfg.parseServer value = .ok x := by
  rw [mem_loads_iff]
  constructor
  · rintro ⟨key, payload, t, id, hmem, hkept, hunknown, hload⟩
    obtain ⟨value, hlisted, rfl⟩ := (hkvs key payload).1 hmem
    rw [payload_listed, load_answers henv hlisted hkept] at hload
    exact ⟨key, value, t, id, hlisted, hkept, hunknown, hload⟩
  · rintro ⟨key, value, t, id, hlisted, hkept, hunknown, hparse⟩
    refine ⟨key, _, t, id, (hkvs key _).2 ⟨value, hlisted, rfl⟩, hkept, hunknown, ?_⟩
    rw [payload_listed, load_answers henv hlisted hkept, hparse]

/-- The servers among them are those offered under an id that is free. -/
theorem some_mem_loads_answers (henv : env.Answers firstSync kv) {sv : Server} :
    some sv ∈ loads cfg env firstSync s kvs ↔
      ∃ id, s.byID.get? id = none ∧ Offered cfg kv id sv := by
  rw [mem_loads_answers hkvs henv]
  constructor
  · rintro ⟨key, value, t, id, hlisted, hkept, hfree, hparse⟩
    exact ⟨id, hfree, key, value, t, hlisted, hkept, hparse⟩
  · rintro ⟨id, hfree, key, value, t, hlisted, hkept, hparse⟩
    exact ⟨key, value, t, id, hlisted, hkept, hfree, hparse⟩

end

end Discovery

end Nrpc
