import Nrpc.Discovery.Sync
/-!
# The watcher's view and the sync's view

Both paths keep the record they see first under an id. The watcher sees a
key when it comes to life and keeps that record until the key is deleted;
a sync sees the values that are there. So from empty maps the watcher
holds, for each live key, the record the key was created with (`firsts`),
and the sync the record it has now (`contents`). The ids and types are the
same always, and the records are the same exactly when no live key was
overwritten with another one (`views_of_history`).
-/

namespace Nrpc

namespace Discovery

variable {cfg : Config} {s s' : Servers} {kv fs : Contents} {hist : List Write}
variable {key value : List UInt8} {t id : GoString} {sv : Server}

/-! ## What contents show -/

/-- A server is shown: an admitted key has its record. -/
def Shown (cfg : Config) (kv : Contents) (id : GoString) (sv : Server) : Prop :=
  ∃ key value t, kv.get? key = some value ∧ keptKey cfg key = some (t, id) ∧
    cfg.parseServer value = .ok (some sv)

/-- The values of contents were all written by a history. -/
def WrittenBy (hist : List Write) (kv : Contents) : Prop :=
  ∀ key value, kv.get? key = some value → .put key value ∈ hist

theorem WrittenBy.set (hw : WrittenBy hist kv) (hput : .put key value ∈ hist) :
    WrittenBy hist (kv.set key value) := by
  intro k v h
  rw [GoMap.get?_set] at h
  split at h
  · rename_i hk
    rw [hk, ← Option.some.inj h]
    exact hput
  · exact hw k v h

theorem WrittenBy.del (hw : WrittenBy hist kv) (key : List UInt8) :
    WrittenBy hist (kv.del key) := by
  intro k v h
  rw [GoMap.get?_del] at h
  split at h
  · cases h
  · exact hw k v h

/-- A shown server has the id and the type of its key. -/
theorem Registrations.eq_of_shown (hreg : Registrations cfg hist)
    (hput : .put key value ∈ hist) (hkept : keptKey cfg key = some (t, id))
    (hparse : cfg.parseServer value = .ok (some sv)) :
    sv.id = id ∧ sv.type = t ∧ key = getKey id t := by
  obtain ⟨sv', hparse', rfl⟩ := hreg.reads key value hput
  rw [hparse] at hparse'
  obtain rfl : sv = sv' := by simpa using hparse'
  obtain ⟨rfl, rfl⟩ := keptKey_getKey hkept
  exact ⟨rfl, rfl, rfl⟩

/-- **An id has one key.** -/
theorem Registrations.key_unique (hreg : Registrations cfg hist)
    {key' value' : List UInt8} {t' : GoString}
    (hput : .put key value ∈ hist) (hput' : .put key' value' ∈ hist)
    (hkept : keptKey cfg key = some (t, id)) (hkept' : keptKey cfg key' = some (t', id)) :
    key = key' := by
  obtain ⟨sv, hparse, -⟩ := hreg.reads key value hput
  obtain ⟨sv', hparse', -⟩ := hreg.reads key' value' hput'
  obtain ⟨hid, ht, rfl⟩ := hreg.eq_of_shown hput hkept hparse
  obtain ⟨hid', ht', rfl⟩ := hreg.eq_of_shown hput' hkept' hparse'
  have htype := hreg.unique _ _ _ _ sv sv' hput hput' hparse hparse' (by rw [hid, hid'])
  rw [← ht, ← ht', htype]

theorem Registrations.id_of_shown (hreg : Registrations cfg hist) (hw : WrittenBy hist kv)
    (hshown : Shown cfg kv id sv) : sv.id = id := by
  obtain ⟨key, value, t, hget, hkept, hparse⟩ := hshown
  exact (hreg.eq_of_shown (hw _ _ hget) hkept hparse).1

/-- **An id has one record**: one key, and one value under it. -/
theorem Registrations.shown_unique (hreg : Registrations cfg hist) (hw : WrittenBy hist kv)
    {sv' : Server} (hshown : Shown cfg kv id sv) (hshown' : Shown cfg kv id sv') : sv = sv' := by
  obtain ⟨key, value, t, hget, hkept, hparse⟩ := hshown
  obtain ⟨key', value', t', hget', hkept', hparse'⟩ := hshown'
  obtain rfl := hreg.key_unique (hw _ _ hget) (hw _ _ hget') hkept hkept'
  rw [hget'] at hget
  obtain rfl := Option.some.inj hget
  rw [hparse'] at hparse
  simpa using hparse.symm

/-- A new key shows its own server besides the others. -/
theorem shown_set (hnew : fs.get? key = none) :
    Shown cfg (fs.set key value) id sv ↔
      (∃ t, keptKey cfg key = some (t, id) ∧ cfg.parseServer value = .ok (some sv)) ∨
        Shown cfg fs id sv := by
  constructor
  · rintro ⟨key', value', t, hget, hkept, hparse⟩
    rw [GoMap.get?_set] at hget
    split at hget
    · rename_i heq
      rw [Option.some.inj hget, ← heq]
      exact Or.inl ⟨t, hkept, hparse⟩
    · exact Or.inr ⟨key', value', t, hget, hkept, hparse⟩
  · rintro (⟨t, hkept, hparse⟩ | ⟨key', value', t, hget, hkept, hparse⟩)
    · exact ⟨key, value, t, GoMap.get?_set_self _ _ _, hkept, hparse⟩
    · have hne : key' ≠ key := by
        rintro rfl
        rw [hnew] at hget
        cases hget
      exact ⟨key', value', t, by rw [GoMap.get?_set_of_ne hne, hget], hkept, hparse⟩

/-- Without a key, the others show what they showed. -/
theorem shown_del :
    Shown cfg (fs.del key) id sv ↔
      ∃ key' value' t, key' ≠ key ∧ fs.get? key' = some value' ∧
        keptKey cfg key' = some (t, id) ∧ cfg.parseServer value' = .ok (some sv) := by
  constructor
  · rintro ⟨key', value', t, hget, hkept, hparse⟩
    rw [GoMap.get?_del] at hget
    split at hget
    · cases hget
    · exact ⟨key', value', t, ‹_›, hget, hkept, hparse⟩
  · rintro ⟨key', value', t, hne, hget, hkept, hparse⟩
    exact ⟨key', value', t, by rw [GoMap.get?_del_of_ne hne, hget], hkept, hparse⟩

/-- A key that shows nothing can go. -/
theorem shown_del_of_silent (hsilent : ∀ value, fs.get? key = some value → keptKey cfg key = none) :
    Shown cfg (fs.del key) id sv ↔ Shown cfg fs id sv := by
  rw [shown_del]
  constructor
  · rintro ⟨key', value', t, -, h⟩
    exact ⟨key', value', t, h⟩
  · rintro ⟨key', value', t, hget, hkept, hparse⟩
    refine ⟨key', value', t, ?_, hget, hkept, hparse⟩
    rintro rfl
    rw [hsilent value' hget] at hkept
    cases hkept

/-! ## The watcher -/

/-- A write keeps the value a live key was created with. -/
def Write.applyFirst (fs : Contents) : Write → Contents
  | .put key value => if (fs.get? key).isSome then fs else fs.set key value
  | .delete key => fs.del key

/-- **The values the live keys of a history were created with.** -/
def firsts (hist : List Write) : Contents := hist.foldl Write.applyFirst .empty

/-- **What the watcher has after part of a history**: the servers shown by
the values its live keys were created with. -/
structure Tracks (cfg : Config) (hist : List Write) (kv fs : Contents) (s : Servers) : Prop where
  written : WrittenBy hist fs
  live : ∀ key, (fs.get? key).isSome = (kv.get? key).isSome
  indexed : Indexed s
  shown : ∀ id sv, s.byID.get? id = some sv ↔ Shown cfg fs id sv

theorem tracks_init : Tracks cfg hist .empty .empty .init where
  written := by
    intro key value h
    simp at h
  live := fun key => by simp
  indexed := indexed_init
  shown := by
    intro id sv
    constructor
    · intro h
      simp [Servers.init] at h
    · rintro ⟨key, value, t, hget, -⟩
      simp at hget

theorem live_put (hlive : ∀ key, (fs.get? key).isSome = (kv.get? key).isSome) (k : List UInt8) :
    (((Write.put key value).applyFirst fs).get? k).isSome =
      (((Write.put key value).apply kv).get? k).isSome := by
  unfold Write.applyFirst Write.apply
  dsimp only
  by_cases hk : k = key
  · subst hk
    rw [GoMap.get?_set_self]
    split
    · rename_i h
      exact h
    · simp
  · rw [GoMap.get?_set_of_ne hk]
    split
    · exact hlive k
    · rw [GoMap.get?_set_of_ne hk]
      exact hlive k

theorem written_put (hw : WrittenBy hist fs) (hput : .put key value ∈ hist) :
    WrittenBy hist ((Write.put key value).applyFirst fs) := by
  unfold Write.applyFirst
  dsimp only
  split
  · exact hw
  · exact hw.set hput

theorem applyFirst_of_live (hlive : (fs.get? key).isSome) :
    (Write.put key value).applyFirst fs = fs := by
  simp [Write.applyFirst, hlive]

theorem applyFirst_of_new (hnew : fs.get? key = none) :
    (Write.put key value).applyFirst fs = fs.set key value := by
  simp [Write.applyFirst, hnew]

/-- A key that is left out shows nothing, whatever is put there. -/
theorem shown_applyFirst_of_silent (hkept : keptKey cfg key = none) :
    Shown cfg ((Write.put key value).applyFirst fs) id sv ↔ Shown cfg fs id sv := by
  by_cases hlive : (fs.get? key).isSome
  · rw [applyFirst_of_live hlive]
  · have hnew : fs.get? key = none := by simpa using hlive
    rw [applyFirst_of_new hnew, shown_set hnew]
    simp [hkept]

/-- A server that is known has its key alive. -/
theorem Tracks.live_of_known (hreg : Registrations cfg hist) (hput : .put key value ∈ hist)
    (hkept : keptKey cfg key = some (t, id)) (hs : Tracks cfg hist kv fs s)
    (hknown : (s.byID.get? id).isSome) : (fs.get? key).isSome := by
  obtain ⟨sv, hsv⟩ := Option.isSome_iff_exists.1 hknown
  obtain ⟨key', value', t', hget, hkept', -⟩ := (hs.shown _ _).1 hsv
  obtain rfl := hreg.key_unique hput (hs.written _ _ hget) hkept hkept'
  rw [hget]
  rfl

/-- A server that is not known has its key free. -/
theorem Tracks.new_of_unknown (hreg : Registrations cfg hist)
    (hkept : keptKey cfg key = some (t, id)) (hs : Tracks cfg hist kv fs s)
    (hunknown : s.byID.get? id = none) : fs.get? key = none := by
  by_contra hlive
  obtain ⟨v, hv⟩ := Option.ne_none_iff_exists'.1 hlive
  obtain ⟨sv, hparse, -⟩ := hreg.reads key v (hs.written _ _ hv)
  have hknown := (hs.shown id sv).2 ⟨key, v, t, hv, hkept, hparse⟩
  rw [hunknown] at hknown
  cases hknown

/-- What is shown once a new key has a server of its own. -/
theorem Tracks.shown_put_new (hs : Tracks cfg hist kv fs s) (hid : sv.id = id)
    (hkept : keptKey cfg key = some (t, id)) (hparse : cfg.parseServer value = .ok (some sv))
    (hnone : s.byID.get? id = none) (hnew : fs.get? key = none) {id' : GoString} {sv' : Server} :
    (s.byID.set sv.id sv).get? id' = some sv' ↔ Shown cfg (fs.set key value) id' sv' := by
  rw [shown_set hnew, GoMap.get?_set, hkept, hparse]
  by_cases hid' : id' = sv.id
  · subst hid'
    have hfree : ¬ Shown cfg fs sv.id sv' := by
      rw [← hs.shown, hid, hnone]
      nofun
    rw [if_pos rfl, or_iff_left hfree]
    simp [hid]
  · rw [if_neg hid', hs.shown, or_iff_right]
    rintro ⟨t', ht', -⟩
    obtain ⟨-, rfl⟩ : t = t' ∧ id = id' := by simpa using ht'
    exact hid' hid.symm

/-- **A `PUT` event is taken for a key that comes to life**, and passed
over for a key that is live. -/
theorem tracks_put (hreg : Registrations cfg hist) (hput : .put key value ∈ hist)
    (hs : Tracks cfg hist kv fs s) :
    ∃ s', handleEvents cfg s ((Write.put key value).events kv) = .ok s' ∧
      Tracks cfg hist ((Write.put key value).apply kv) ((Write.put key value).applyFirst fs)
        s' := by
  have hwritten := written_put hs.written hput
  have hlive := @live_put kv fs key value hs.live
  obtain ⟨sv, hparse, hkey⟩ := hreg.reads key value hput
  rcases hkept : keptKey cfg key with _ | ⟨t, id⟩
  · -- the key is left out by both, so what it holds is shown by neither
    refine ⟨s, by simp [handleEvents, Write.events, handleEvent, hkept], hwritten, hlive,
      hs.indexed, ?_⟩
    intro id sv'
    rw [hs.shown, shown_applyFirst_of_silent hkept]
  · obtain ⟨hid, -, -⟩ := hreg.eq_of_shown hput hkept hparse
    have hhandle : handleEvents cfg s ((Write.put key value).events kv) =
        addServer cfg s (some sv) := by
      simp [handleEvents, Write.events, handleEvent, hkept, hparse, List.foldlM_cons]
      rcases addServer cfg s (some sv) with a | e | _ <;> rfl
    rw [hhandle]
    by_cases hhas : (s.byID.get? sv.id).isSome
    · -- the id is known, so its one key is live and keeps its first value
      have hfs : (fs.get? key).isSome := hs.live_of_known hreg hput hkept (hid ▸ hhas)
      refine ⟨s, addServer_known hhas, hwritten, hlive, hs.indexed, ?_⟩
      rw [applyFirst_of_live hfs]
      exact hs.shown
    · have hnone : s.byID.get? sv.id = none := by simpa using hhas
      have hnew : fs.get? key = none := hs.new_of_unknown hreg hkept (hid ▸ hnone)
      obtain ⟨s', hadd, hbyID, -⟩ := @addServer_new cfg s sv hnone
      refine ⟨s', hadd, hwritten, hlive, indexed_addServer hs.indexed hadd, ?_⟩
      intro id' sv'
      rw [hbyID, applyFirst_of_new hnew]
      exact hs.shown_put_new hid hkept hparse (hid ▸ hnone) hnew

/-- **A `DELETE` event removes the server of its key.** -/
theorem tracks_delete (hreg : Registrations cfg hist) (hs : Tracks cfg hist kv fs s)
    (key : List UInt8) :
    ∃ s', handleEvents cfg s ((Write.delete key).events kv) = .ok s' ∧
      Tracks cfg hist ((Write.delete key).apply kv) ((Write.delete key).applyFirst fs) s' := by
  have hwritten := hs.written.del key
  have hlive : ∀ k, ((fs.del key).get? k).isSome = ((kv.del key).get? k).isSome := by
    intro k
    rw [GoMap.get?_del, GoMap.get?_del]
    split
    · rfl
    · exact hs.live k
  by_cases hkv : (kv.get? key).isSome
  · obtain ⟨v, hv⟩ := Option.isSome_iff_exists.1 ((hs.live key).trans hkv)
    rcases hkept : keptKey cfg key with _ | ⟨t, id⟩
    · refine ⟨s, by simp [handleEvents, Write.events, hkv, handleEvent, hkept], hwritten, hlive,
        hs.indexed, ?_⟩
      intro id sv
      rw [hs.shown]
      exact (shown_del_of_silent fun _ _ => hkept).symm
    · refine ⟨deleteServer s id, by simp [handleEvents, Write.events, hkv, handleEvent, hkept],
        hwritten, hlive, indexed_deleteServer hs.indexed id, ?_⟩
      intro id' sv'
      show _ ↔ Shown cfg (fs.del key) id' sv'
      rw [byID_deleteServer hs.indexed, GoMap.get?_del, shown_del]
      by_cases hid : id' = id
      · -- no other live key has the id
        subst hid
        rw [if_pos rfl]
        refine iff_of_false (by simp) ?_
        rintro ⟨key', value', t', hne, hget, hkept', -⟩
        exact hne (hreg.key_unique (hs.written _ _ hget) (hs.written _ _ hv) hkept' hkept)
      · rw [if_neg hid, hs.shown]
        constructor
        · rintro ⟨key', value', t', hget, hkept', hparse⟩
          refine ⟨key', value', t', ?_, hget, hkept', hparse⟩
          rintro rfl
          rw [hkept] at hkept'
          exact hid (by simpa using (congrArg Prod.snd (Option.some.inj hkept')).symm)
        · rintro ⟨key', value', t', -, h⟩
          exact ⟨key', value', t', h⟩
  · -- a key that is not there: no event, and nothing to show
    refine ⟨s, by simp [handleEvents, Write.events, hkv], hwritten, hlive, hs.indexed, ?_⟩
    intro id sv
    rw [hs.shown]
    refine (shown_del_of_silent ?_).symm
    intro v hv
    have hsome := hs.live key
    rw [hv] at hsome
    exact absurd hsome.symm hkv

theorem handleEvents_append (a b : List Event) :
    handleEvents cfg s (a ++ b) = handleEvents cfg s a >>= (handleEvents cfg · b) :=
  List.foldlM_append

/-- **The watcher over a whole history.** -/
theorem tracks_from (hreg : Registrations cfg hist) {rest : List Write}
    (hsub : ∀ w ∈ rest, w ∈ hist) (hs : Tracks cfg hist kv fs s) :
    ∃ s', handleEvents cfg s (eventsFrom kv rest) = .ok s' ∧
      Tracks cfg hist (rest.foldl Write.apply kv) (rest.foldl Write.applyFirst fs) s' := by
  induction rest generalizing kv fs s with
  | nil => exact ⟨s, rfl, hs⟩
  | cons w rest ih =>
    have hstep : ∃ s', handleEvents cfg s (w.events kv) = .ok s' ∧
        Tracks cfg hist (w.apply kv) (w.applyFirst fs) s' := by
      cases w with
      | put key value => exact tracks_put hreg (hsub _ List.mem_cons_self) hs
      | delete key => exact tracks_delete hreg hs key
    obtain ⟨mid, hmid, hmidTracks⟩ := hstep
    obtain ⟨s', hs', htracks⟩ := ih (fun w hw => hsub w (List.mem_cons_of_mem _ hw)) hmidTracks
    refine ⟨s', ?_, htracks⟩
    rw [eventsFrom, handleEvents_append, hmid]
    exact hs'

/-! ## The sync -/

theorem written_apply (hw : WrittenBy hist kv) {w : Write} (hmem : w ∈ hist) :
    WrittenBy hist (w.apply kv) := by
  cases w with
  | put key value => exact hw.set hmem
  | delete key => exact hw.del key

theorem written_foldl {rest : List Write} (hsub : ∀ w ∈ rest, w ∈ hist) (hw : WrittenBy hist kv) :
    WrittenBy hist (rest.foldl Write.apply kv) := by
  induction rest generalizing kv with
  | nil => exact hw
  | cons w rest ih =>
    exact ih (fun w hw => hsub w (List.mem_cons_of_mem _ hw))
      (written_apply hw (hsub w List.mem_cons_self))

/-- The contents of a history were written by it. -/
theorem written_contents (hist : List Write) : WrittenBy hist (contents hist) :=
  written_foldl (fun _ hw => hw) fun _ _ h => by simp at h

variable {env : SyncEnv}

/-- A record stands under `servers/`. -/
theorem Registrations.listed (hreg : Registrations cfg hist) (hw : WrittenBy hist kv)
    (hget : kv.get? key = some value) : Listed kv key value := by
  obtain ⟨sv, -, rfl⟩ := hreg.reads key value (hw _ _ hget)
  exact ⟨hget, _, rfl⟩

/-- **A first sync from empty maps holds what the contents show.** -/
theorem synced_eq (hreg : Registrations cfg hist) (hw : WrittenBy hist kv)
    (henv : env.Answers true kv) :
    ∃ s, synced cfg env = .ok s ∧ Indexed s ∧
      ∀ id sv, s.byID.get? id = some sv ↔ Shown cfg kv id sv := by
  obtain ⟨kvs, hlisting, -, hkvs⟩ := henv.listing
  have hmem : ∀ x, x ∈ env.collect (loads cfg env true .init kvs) ↔
      ∃ id sv, x = some sv ∧ Shown cfg kv id sv := by
    intro x
    rw [(env.collect_perm _).mem_iff, mem_loads_answers hkvs henv]
    constructor
    · rintro ⟨key, value, t, id, hlisted, hkept, -, hparse⟩
      obtain ⟨sv, hsv, -⟩ := hreg.reads key value (hw _ _ hlisted.1)
      obtain rfl : x = some sv := Except.ok.inj (hparse.symm.trans hsv)
      exact ⟨id, sv, rfl, key, value, t, hlisted.1, hkept, hsv⟩
    · rintro ⟨id, sv, rfl, key, value, t, hget, hkept, hparse⟩
      exact ⟨key, value, t, id, hreg.listed hw hget, hkept, GoMap.get?_empty _, hparse⟩
  have hid : ∀ {id sv}, Shown cfg kv id sv → sv.id = id := fun h => hreg.id_of_shown hw h
  have hinj : ∀ sv sv', some sv ∈ env.collect (loads cfg env true .init kvs) →
      some sv' ∈ env.collect (loads cfg env true .init kvs) → sv.id = sv'.id → sv = sv' := by
    intro sv sv' hsv hsv' heq
    obtain ⟨id, _, h, hshown⟩ := (hmem _).1 hsv
    obtain ⟨id', _, h', hshown'⟩ := (hmem _).1 hsv'
    obtain rfl := Option.some.inj h
    obtain rfl := Option.some.inj h'
    rw [hid hshown, hid hshown'] at heq
    subst heq
    exact hreg.shown_unique hw hshown hshown'
  obtain ⟨s, hfold, hs, hbyID⟩ := @foldlM_addServer cfg .init
    (env.collect (loads cfg env true .init kvs)) indexed_init (by simp [hmem]) hinj
  have hshown : ∀ id sv, s.byID.get? id = some sv ↔ Shown cfg kv id sv := by
    intro id sv
    rw [hbyID, hmem]
    simp only [Servers.init, GoMap.get?_empty, reduceCtorEq, false_or, true_and]
    constructor
    · rintro ⟨⟨id', _, h, hshown⟩, rfl⟩
      obtain rfl := Option.some.inj h
      rwa [hid hshown]
    · intro hshown
      exact ⟨⟨id, sv, rfl, hshown⟩, hid hshown⟩
  refine ⟨s, ?_, hs, hshown⟩
  -- every id in the map comes from a listed key, so the clean-up removes none
  unfold synced syncServers
  rw [hlisting]
  dsimp only
  rw [hfold, Outcome.ok_bind, deleteLocalInvalidServers_of_subset]
  · rfl
  · intro k hk
    obtain ⟨sv, hsv⟩ := Option.isSome_iff_exists.1 (((env.range_ranges s.byID).2 k).1 hk)
    obtain ⟨key, value, t, hget, hkept, -⟩ := (hshown k sv).1 hsv
    exact (mem_listedIds hkvs).2 ⟨key, value, t, hreg.listed hw hget, hkept⟩

/-! ## The two views -/

/-- **No live key was overwritten with another record**: what an admitted
key was created with reads as what it holds now. -/
def Unchanged (cfg : Config) (hist : List Write) : Prop :=
  ∀ key value value', (keptKey cfg key).isSome → (firsts hist).get? key = some value →
    (contents hist).get? key = some value' → cfg.parseServer value = cfg.parseServer value'

/-- The watcher holds what the values its live keys were created with
show. -/
theorem watched_eq (hreg : Registrations cfg hist) :
    ∃ s, watched cfg hist = .ok s ∧ Tracks cfg hist (contents hist) (firsts hist) s :=
  tracks_from hreg (fun _ hw => hw) tracks_init

/-- A key that is live has a value in both readings of the history. -/
theorem Tracks.exists_both (hs : Tracks cfg hist kv fs s) {key : List UInt8}
    (h : (fs.get? key).isSome ∨ (kv.get? key).isSome) :
    ∃ value value', fs.get? key = some value ∧ kv.get? key = some value' := by
  have hfs : (fs.get? key).isSome := h.elim (fun h => h) fun h => (hs.live key).trans h
  have hkv : (kv.get? key).isSome := (hs.live key).symm.trans hfs
  obtain ⟨value, hvalue⟩ := Option.isSome_iff_exists.1 hfs
  obtain ⟨value', hvalue'⟩ := Option.isSome_iff_exists.1 hkv
  exact ⟨value, value', hvalue, hvalue'⟩

/-- What one reading shows under an id, the other shows under it with the
same type. -/
theorem Tracks.shown_both (hreg : Registrations cfg hist) (hs : Tracks cfg hist kv fs s)
    (hw : WrittenBy hist kv) (h : Shown cfg fs id sv ∨ Shown cfg kv id sv) :
    ∃ sv₁ sv₂, Shown cfg fs id sv₁ ∧ Shown cfg kv id sv₂ ∧ sv₁.type = sv₂.type := by
  have hkey : ∃ key t, (keptKey cfg key = some (t, id)) ∧
      ((fs.get? key).isSome ∨ (kv.get? key).isSome) := by
    rcases h with ⟨key, value, t, hget, hkept, -⟩ | ⟨key, value, t, hget, hkept, -⟩
    · exact ⟨key, t, hkept, Or.inl (by rw [hget]; rfl)⟩
    · exact ⟨key, t, hkept, Or.inr (by rw [hget]; rfl)⟩
  obtain ⟨key, t, hkept, hlive⟩ := hkey
  obtain ⟨value, value', hget, hget'⟩ := hs.exists_both hlive
  obtain ⟨sv₁, hparse₁, -⟩ := hreg.reads key value (hs.written _ _ hget)
  obtain ⟨sv₂, hparse₂, -⟩ := hreg.reads key value' (hw _ _ hget')
  have h₁ := hreg.eq_of_shown (hs.written _ _ hget) hkept hparse₁
  have h₂ := hreg.eq_of_shown (hw _ _ hget') hkept hparse₂
  exact ⟨sv₁, sv₂, ⟨key, value, t, hget, hkept, hparse₁⟩, ⟨key, value', t, hget', hkept, hparse₂⟩,
    by rw [h₁.2.1, h₂.2.1]⟩

/-- **The two readings show the same exactly when nothing was overwritten
with another record.** -/
theorem Tracks.shown_iff (hreg : Registrations cfg hist)
    (hs : Tracks cfg hist (contents hist) (firsts hist) s) {s' : Servers}
    (hs' : ∀ id sv, s'.byID.get? id = some sv ↔ Shown cfg (contents hist) id sv) :
    s.byID = s'.byID ↔ Unchanged cfg hist := by
  constructor
  · intro heq key value value' hkept hget hget'
    obtain ⟨⟨t, id⟩, hkept⟩ := Option.isSome_iff_exists.1 hkept
    obtain ⟨sv, hparse, -⟩ := hreg.reads key value (hs.written _ _ hget)
    obtain ⟨sv', hparse', -⟩ := hreg.reads key value' (written_contents hist _ _ hget')
    have h := (hs.shown id sv).2 ⟨key, value, t, hget, hkept, hparse⟩
    have h' := (hs' id sv').2 ⟨key, value', t, hget', hkept, hparse'⟩
    rw [heq, h'] at h
    rw [hparse, hparse', Option.some.inj h]
  · intro hsame
    ext1 id
    refine Option.ext fun sv => ?_
    rw [hs.shown, hs']
    constructor
    · rintro ⟨key, value, t, hget, hkept, hparse⟩
      obtain ⟨v, value', hv, hget'⟩ := hs.exists_both (Or.inl (by rw [hget]; rfl))
      rw [hget] at hv
      obtain rfl := Option.some.inj hv
      refine ⟨key, value', t, hget', hkept, ?_⟩
      rw [← hsame key value value' (by rw [hkept]; rfl) hget hget', hparse]
    · rintro ⟨key, value', t, hget', hkept, hparse⟩
      obtain ⟨value, v, hget, hv⟩ := hs.exists_both (Or.inr (by rw [hget']; rfl))
      rw [hget'] at hv
      obtain rfl := Option.some.inj hv
      refine ⟨key, value, t, hget, hkept, ?_⟩
      rw [hsame key value value' (by rw [hkept]; rfl) hget hget', hparse]

/-- Maps with the same servers by id have the same servers by type. -/
theorem lookup_eq_of_byID_eq (hs : Indexed s) (hs' : Indexed s') (heq : s.byID = s'.byID)
    (t id : GoString) : s.lookup t id = s'.lookup t id := by
  refine Option.ext fun sv => ?_
  rw [hs.lookup_iff, hs'.lookup_iff, heq]

/-- **The two views of a history.** For every history of registrations,
whatever its overwrites, deletions and re-registrations, both paths get
through from empty maps. The watcher holds for each admitted live key the
record the key was created with, the sync the record it holds now. They
hold the same ids under the same types, and the same records by id and by
type exactly when no admitted live key was overwritten with another
record. -/
theorem views_of_history (cfg : Config) (hist : List Write) (env : SyncEnv)
    (hreg : Registrations cfg hist) (henv : env.Answers true (contents hist)) :
    ∃ s s', watched cfg hist = .ok s ∧ synced cfg env = .ok s' ∧
      (∀ id sv, s.byID.get? id = some sv ↔ Shown cfg (firsts hist) id sv) ∧
      (∀ id sv, s'.byID.get? id = some sv ↔ Shown cfg (contents hist) id sv) ∧
      (∀ id, (s.byID.get? id).map Server.type = (s'.byID.get? id).map Server.type) ∧
      ((s.byID = s'.byID ∧ ∀ t id, s.lookup t id = s'.lookup t id) ↔ Unchanged cfg hist) := by
  obtain ⟨s, hwatched, hs⟩ := watched_eq hreg
  obtain ⟨s', hsynced, hindexed, hs'⟩ := synced_eq hreg (written_contents hist) henv
  refine ⟨s, s', hwatched, hsynced, hs.shown, hs', ?_, ?_⟩
  · intro id
    rcases h : s.byID.get? id with _ | sv
    · rcases h' : s'.byID.get? id with _ | sv'
      · rfl
      · obtain ⟨sv₁, _, hsv₁, -⟩ :=
          hs.shown_both hreg (written_contents hist) (Or.inr ((hs' id sv').1 h'))
        rw [← hs.shown, h] at hsv₁
        cases hsv₁
    · obtain ⟨sv₁, sv₂, hsv₁, hsv₂, htype⟩ :=
        hs.shown_both hreg (written_contents hist) (Or.inl ((hs.shown id sv).1 h))
      rw [← hs.shown, h] at hsv₁
      rw [← hs'] at hsv₂
      rw [hsv₂, Option.some.inj hsv₁]
      exact congrArg some htype
  · rw [← hs.shown_iff hreg hs']
    exact ⟨fun h => h.1, fun h => ⟨h, lookup_eq_of_byID_eq hs.indexed hindexed h⟩⟩

/-! ## Two histories -/

/-- A room server on a host. -/
def roomOn (host : GoString) : Server := ⟨lit "s1", lit "room", .empty, host⟩

/-- Its record. -/
def roomRecord (host : GoString) : List UInt8 :=
  lit "\x7b\"id\":\"s1\",\"type\":\"room\",\"metadata\":\x7b\x7d,\"hostname\":\"" ++ host ++
    lit "\"\x7d"

/-- A node that reads the records of the room server on hosts `a` and
`b`. -/
def roomNode : Config :=
  { self := lit "connector-1"
    serverTypesBlacklist := []
    parseServer := fun value =>
      if value = roomRecord (lit "a") then .ok (some (roomOn (lit "a")))
      else if value = roomRecord (lit "b") then .ok (some (roomOn (lit "b")))
      else .error (lit "unexpected end of JSON input") }

/-- Answers from a single key. -/
noncomputable def oneKey (key : GoString) (value : List UInt8) : SyncEnv where
  listing := .ok [(key, value)]
  get := fun k => .ok (if k = key then some value else none)
  collect := fun l => l
  collect_perm := fun l => List.Perm.refl l
  range := fun m => m.keys.toList
  range_ranges := GoMap.ranges_toList

theorem answers_oneKey (hkv : ∀ k, kv.get? k = if k = getKey id t then some value else none) :
    (oneKey (getKey id t) value).Answers true kv where
  listing := by
    refine ⟨[(getKey id t, value)], rfl, by simp, ?_⟩
    intro k v
    constructor
    · intro hmem
      obtain ⟨rfl, rfl⟩ := Prod.mk.inj (List.mem_singleton.1 hmem)
      exact ⟨v, ⟨by rw [hkv, if_pos rfl], _, rfl⟩, rfl⟩
    · rintro ⟨value', ⟨hget, -⟩, rfl⟩
      rw [hkv] at hget
      split at hget <;> simp_all
  get := fun k => by rw [hkv]; rfl

/-- A history that only writes the room server's records. -/
theorem registrations_room
    (h : ∀ k v, .put k v ∈ hist → (k = getKey (lit "s1") (lit "room") ∧ v = roomRecord (lit "a")) ∨
      (k = getKey (lit "s1") (lit "room") ∧ v = roomRecord (lit "b"))) :
    Registrations roomNode hist := by
  have hparse : ∀ k v, .put k v ∈ hist → k = getKey (lit "s1") (lit "room") ∧
      ∃ host, roomNode.parseServer v = .ok (some (roomOn host)) := by
    intro k v hput
    rcases h k v hput with ⟨hk, rfl⟩ | ⟨hk, rfl⟩
    · exact ⟨hk, lit "a", by decide⟩
    · exact ⟨hk, lit "b", by decide⟩
  refine ⟨?_, ?_⟩
  · intro k v hput
    obtain ⟨hk, host, hhost⟩ := hparse k v hput
    exact ⟨roomOn host, hhost, hk⟩
  · intro k v k' v' sv sv' hput hput' hsv hsv' _
    obtain ⟨-, host, hhost⟩ := hparse k v hput
    obtain ⟨-, host', hhost'⟩ := hparse k' v' hput'
    rw [hsv] at hhost
    rw [hsv'] at hhost'
    obtain rfl : sv = roomOn host := by simpa using hhost
    obtain rfl : sv' = roomOn host' := by simpa using hhost'
    rfl

/-- A server that goes away and comes back on another host is seen there by
both paths. -/
theorem views_of_history_reregistered :
    let key := getKey (lit "s1") (lit "room")
    let hist : List Write :=
      [.put key (roomRecord (lit "a")), .delete key, .put key (roomRecord (lit "b"))]
    ∃ s s', watched roomNode hist = .ok s ∧
      synced roomNode (oneKey key (roomRecord (lit "b"))) = .ok s' ∧
      ∀ id, (s.byID.get? id).map Server.type = (s'.byID.get? id).map Server.type := by
  intro key hist
  have hreg : Registrations roomNode hist := registrations_room (by simp [hist, key])
  have henv : (oneKey key (roomRecord (lit "b"))).Answers true (contents hist) := by
    refine answers_oneKey ?_
    intro k
    simp only [contents, hist, List.foldl_cons, List.foldl_nil, Write.apply, GoMap.get?_set,
      GoMap.get?_del, GoMap.get?_empty]
    split <;> simp_all
  obtain ⟨s, s', hs, hs', -, -, htypes, -⟩ := views_of_history roomNode hist _ hreg henv
  exact ⟨s, s', hs, hs', htypes⟩

/-- **A live key overwritten with another record.** The watcher keeps the
first record, a sync has the second. -/
theorem views_differ :
    let key := getKey (lit "s1") (lit "room")
    let hist : List Write := [.put key (roomRecord (lit "a")), .put key (roomRecord (lit "b"))]
    Registrations roomNode hist ∧ (oneKey key (roomRecord (lit "b"))).Answers true (contents hist) ∧
    ∃ s s', watched roomNode hist = .ok s ∧
      synced roomNode (oneKey key (roomRecord (lit "b"))) = .ok s' ∧
      s.byID.get? (lit "s1") = some (roomOn (lit "a")) ∧
      s'.byID.get? (lit "s1") = some (roomOn (lit "b")) := by
  intro key hist
  have hreg : Registrations roomNode hist := registrations_room (by simp [hist, key])
  have henv : (oneKey key (roomRecord (lit "b"))).Answers true (contents hist) := by
    refine answers_oneKey ?_
    intro k
    simp only [contents, hist, List.foldl_cons, List.foldl_nil, Write.apply, GoMap.get?_set,
      GoMap.get?_empty]
    split <;> simp_all
  obtain ⟨s, hs, htracks⟩ := watched_eq hreg
  obtain ⟨s', hs', -, hshown⟩ := synced_eq hreg (written_contents hist) henv
  refine ⟨hreg, henv, s, s', hs, hs', ?_, ?_⟩
  · exact (htracks.shown _ _).2
      ⟨key, roomRecord (lit "a"), lit "room", by decide, by decide, by decide⟩
  · exact (hshown _ _).2
      ⟨key, roomRecord (lit "b"), lit "room", by decide, by decide, by decide⟩

end Discovery

end Nrpc
