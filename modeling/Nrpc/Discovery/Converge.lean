import Nrpc.Common.LastWord
import Nrpc.Discovery.Model.Watch
import Nrpc.Discovery.Snapshot
/-!
# The view of a node converges

A watch lags behind etcd, and a sync does not wait for it: what the watch
delivers behind a sync is older than what the sync has seen. A server that
is gone can come back for a while, and one that is there can go. But each
event says of one id whether its key is there (`word`), and the last word
the watch has still to deliver on an id is true of etcd as it is
(`Sound.truthful`). So behind one sync that is answered, as long as its
watch lives, the view is right again whenever the watch has delivered
everything (`view_converges`), whatever was known before and whatever
queries fail later. A sync is one instant against the writes to etcd, as the
model has it.
-/

namespace Nrpc

namespace Discovery

namespace Watch

open LastWord

variable {cfg : Config} {s s' : Servers} {kv : Contents} {hist : List Write} {w : Write}
variable {key value : List UInt8} {t id : GoString} {sv : Server} {env : SyncEnv}
  {firstSync : Bool} {events : List Event}

/-! ## What is said of an id -/

/-- What an event says: the id of an admitted key, and whether it is
there. -/
def word (cfg : Config) : Event → Option (GoString × Bool)
  | .put key _ => (keptKey cfg key).map fun kept => (kept.2, true)
  | .delete key => (keptKey cfg key).map fun kept => (kept.2, false)

def words (cfg : Config) (events : List Event) : List (GoString × Bool) :=
  events.filterMap (word cfg)

theorem words_append (a b : List Event) : words cfg (a ++ b) = words cfg a ++ words cfg b :=
  List.filterMap_append

/-- The node has a server under an id. -/
def Known (s : Servers) (id : GoString) : Prop := (s.byID.get? id).isSome

/-- A key under `servers/`. -/
def Under (key : GoString) : Prop := ∃ rest, key = lit "servers/" ++ rest

/-- The key of a write. -/
def target : Write → GoString
  | .put key _ => key
  | .delete key => key

/-- What is under `servers/` was put there by a history. -/
def Registered (hist : List Write) (kv : Contents) : Prop :=
  ∀ key value, Listed kv key value → .put key value ∈ hist

theorem under_iff : (lit "servers/").isPrefixOf key = true ↔ Under key := by
  refine List.isPrefixOf_iff_prefix.trans ?_
  constructor
  · rintro ⟨rest, rfl⟩
    exact ⟨rest, rfl⟩
  · rintro ⟨rest, rfl⟩
    exact ⟨rest, rfl⟩

theorem delivered_of_under {ev : Event} (h : Under (Watch.key ev)) : delivered [ev] = [ev] := by
  simp [delivered, under_iff.2 h]

theorem delivered_of_not_under {ev : Event} (h : ¬ Under (Watch.key ev)) : delivered [ev] = [] := by
  have hnot : ¬ (lit "servers/").isPrefixOf (Watch.key ev) = true := fun h' => h (under_iff.1 h')
  simp [delivered, hnot]

/-! ## A write -/

theorem get?_apply_of_ne {k : GoString} (h : k ≠ target w) :
    (w.apply kv).get? k = kv.get? k := by
  cases w with
  | put key value => exact GoMap.get?_set_of_ne h
  | delete key => exact GoMap.get?_del_of_ne h

/-- **A write tells on the id of its key alone**, and that only under
`servers/`. -/
theorem admitted_apply (h : Under (target w) → ∀ t, keptKey cfg (target w) ≠ some (t, id)) :
    Admitted cfg kv id ↔ Admitted cfg (w.apply kv) id := by
  have hne : ∀ key t, Under key → keptKey cfg key = some (t, id) → key ≠ target w := by
    rintro key t hunder hkept rfl
    exact h hunder t hkept
  constructor
  · rintro ⟨key, value, t, ⟨hget, hunder⟩, hkept⟩
    exact ⟨key, value, t, ⟨by rw [get?_apply_of_ne (hne key t hunder hkept), hget], hunder⟩, hkept⟩
  · rintro ⟨key, value, t, ⟨hget, hunder⟩, hkept⟩
    rw [get?_apply_of_ne (hne key t hunder hkept)] at hget
    exact ⟨key, value, t, ⟨hget, hunder⟩, hkept⟩

/-- Deleting a key that is not there changes nothing. -/
theorem admitted_delete_absent (habsent : kv.get? key = none) :
    Admitted cfg kv id ↔ Admitted cfg ((Write.delete key).apply kv) id := by
  have hsame : (Write.delete key).apply kv = kv := by
    show kv.del key = kv
    ext1 k
    rw [GoMap.get?_del]
    split
    · rename_i hk
      rw [hk, habsent]
    · rfl
  rw [hsame]

/-- **What the watch is sent of a write is true behind it**, and what it is
not sent has not changed. -/
structure Says (cfg : Config) (kv kv' : Contents) (events : List Event) : Prop where
  told : ∀ id b, last (words cfg events) id = some b → (b = true ↔ Admitted cfg kv' id)
  silent : ∀ id, last (words cfg events) id = none → (Admitted cfg kv id ↔ Admitted cfg kv' id)

theorem Says.of_silent {kv' : Contents} (h : ∀ id, Admitted cfg kv id ↔ Admitted cfg kv' id)
    (hwords : words cfg events = []) : Says cfg kv kv' events where
  told := by
    intro id b hb
    rw [hwords] at hb
    cases hb
  silent := fun id _ => h id

/-- One event, on the id of its key. -/
theorem Says.of_word {b : Bool} (hwords : words cfg events = [(id, b)])
    (hkept : keptKey cfg (target w) = some (t, id))
    (htold : b = true ↔ Admitted cfg (w.apply kv) id) : Says cfg kv (w.apply kv) events where
  told := by
    intro id' b' hb
    rw [hwords, last_singleton] at hb
    obtain ⟨rfl, hword⟩ := Option.ite_none_right_eq_some.1 hb
    rw [← Option.some.inj hword]
    exact htold
  silent := by
    intro id' hnone
    rw [hwords, last_singleton] at hnone
    refine admitted_apply fun _ t' hkept' => ?_
    rw [hkept] at hkept'
    obtain ⟨-, rfl⟩ := Prod.mk.inj (Option.some.inj hkept')
    simp at hnone

theorem says_put (cfg : Config) (kv : Contents) (key value : List UInt8) :
    Says cfg kv ((Write.put key value).apply kv)
      (delivered ((Write.put key value).events kv)) := by
  by_cases hunder : Under key
  · have hdelivered : delivered ((Write.put key value).events kv) = [.put key value] :=
      delivered_of_under hunder
    rw [hdelivered]
    rcases hkept : keptKey cfg key with _ | ⟨t, id⟩
    · refine Says.of_silent (fun id => admitted_apply fun _ t h => ?_)
        (by simp [words, word, hkept])
      rw [target, hkept] at h
      cases h
    · have hwords : words cfg [.put key value] = [(id, true)] := by simp [words, word, hkept]
      refine Says.of_word hwords hkept ?_
      exact iff_of_true rfl ⟨key, value, t, ⟨GoMap.get?_set_self _ _ _, hunder⟩, hkept⟩
  · have hdelivered : delivered ((Write.put key value).events kv) = [] :=
      delivered_of_not_under hunder
    rw [hdelivered]
    exact Says.of_silent (fun id => admitted_apply fun h => absurd h hunder) rfl

theorem says_delete (hreg : Registrations cfg hist) (hkv : Registered hist kv) (key : GoString) :
    Says cfg kv ((Write.delete key).apply kv) (delivered ((Write.delete key).events kv)) := by
  rcases hget : kv.get? key with _ | value
  · have hevents : delivered ((Write.delete key).events kv) = [] := by
      simp [Write.events, hget, delivered]
    rw [hevents]
    exact Says.of_silent (fun id => admitted_delete_absent hget) rfl
  have hevents : (Write.delete key).events kv = [.delete key] := by simp [Write.events, hget]
  rw [hevents]
  by_cases hunder : Under key
  · have hdelivered : delivered [.delete key] = [.delete key] := delivered_of_under hunder
    rw [hdelivered]
    rcases hkept : keptKey cfg key with _ | ⟨t, id⟩
    · refine Says.of_silent (fun id => admitted_apply fun _ t h => ?_)
        (by simp [words, word, hkept])
      rw [target, hkept] at h
      cases h
    · have hwords : words cfg [.delete key] = [(id, false)] := by simp [words, word, hkept]
      refine Says.of_word hwords hkept ?_
      -- no other key has the id
      refine iff_of_false (by simp) ?_
      rintro ⟨key', value', t', ⟨hget', hunder'⟩, hkept'⟩
      have hget'' : (kv.del key).get? key' = some value' := hget'
      rw [GoMap.get?_del] at hget''
      split at hget''
      · cases hget''
      · rename_i hne
        exact hne (hreg.key_unique (hkv key' value' ⟨hget'', hunder'⟩)
          (hkv key value ⟨hget, hunder⟩) hkept' hkept)
  · have hdelivered : delivered [.delete key] = [] := delivered_of_not_under hunder
    rw [hdelivered]
    exact Says.of_silent (fun id => admitted_apply fun h => absurd h hunder) rfl

/-! ## A response -/

/-- A record the node may have under an id: one that was put under its own
key, which is admitted. -/
def Entered (cfg : Config) (hist : List Write) (id : GoString) (sv : Server) : Prop :=
  keptKey cfg (getKey id sv.type) = some (sv.type, id) ∧
    ∃ value, .put (getKey id sv.type) value ∈ hist ∧ cfg.parseServer value = .ok (some sv)

/-- **What can be said of a node's maps at any time.** -/
structure Filed (cfg : Config) (hist : List Write) (s : Servers) : Prop where
  indexed : Indexed s
  entered : ∀ id sv, s.byID.get? id = some sv → Entered cfg hist id sv

theorem filed_init : Filed cfg hist .init where
  indexed := indexed_init
  entered := by
    intro id sv h
    simp [Servers.init] at h

/-- The record under an admitted key of a history. -/
theorem entered_of_put (hreg : Registrations cfg hist) (hput : .put key value ∈ hist)
    (hkept : keptKey cfg key = some (t, id)) :
    ∃ sv, cfg.parseServer value = .ok (some sv) ∧ sv.id = id ∧ Entered cfg hist id sv := by
  obtain ⟨sv, hparse, -⟩ := hreg.reads key value hput
  obtain ⟨hid, rfl, rfl⟩ := hreg.eq_of_shown hput hkept hparse
  exact ⟨sv, hparse, hid, hkept, value, hput, hparse⟩

/-- A server is added, or its id was known. -/
theorem filed_addServer (hs : Filed cfg hist s) (hsv : Entered cfg hist sv.id sv)
    (h : addServer cfg s (some sv) = .ok s') :
    Filed cfg hist s' ∧ ∀ id, Known s' id ↔ Known s id ∨ sv.id = id := by
  obtain ⟨s₁, hadd, hbyID, -⟩ := addServer_some cfg s sv
  rw [hadd] at h
  obtain rfl := Outcome.ok.inj h
  refine ⟨⟨indexed_addServer hs.indexed hadd, ?_⟩, ?_⟩
  · intro id sv' hget
    rw [hbyID, Option.or_eq_some_iff] at hget
    rcases hget with hold | ⟨-, hnew⟩
    · exact hs.entered id sv' hold
    · obtain ⟨rfl, heq⟩ := Option.ite_none_right_eq_some.1 hnew
      rw [← Option.some.inj heq]
      exact hsv
  · intro id
    unfold Known
    rw [hbyID, Option.isSome_or, Bool.or_eq_true]
    by_cases hid : id = sv.id
    · simp [hid]
    · simp [hid, Ne.symm hid]

/-- The maps with fewer servers. -/
theorem Filed.of_le (hs : Filed cfg hist s) (hindexed : Indexed s')
    (hle : ∀ id sv, s'.byID.get? id = some sv → s.byID.get? id = some sv) : Filed cfg hist s' where
  indexed := hindexed
  entered := fun id sv h => hs.entered id sv (hle id sv h)

theorem filed_deleteServer (hs : Filed cfg hist s) (serverID : GoString) :
    Filed cfg hist (deleteServer s serverID) ∧
      ∀ id, Known (deleteServer s serverID) id ↔ if serverID = id then False else Known s id := by
  have hbyID : ∀ id, (deleteServer s serverID).byID.get? id =
      if id = serverID then none else s.byID.get? id := by
    intro id
    rw [byID_deleteServer hs.indexed, GoMap.get?_del]
  refine ⟨hs.of_le (indexed_deleteServer hs.indexed serverID) ?_, ?_⟩
  · intro id sv hget
    rw [hbyID] at hget
    exact (Option.ite_none_left_eq_some.1 hget).2
  · intro id
    unfold Known
    rw [hbyID]
    by_cases hid : id = serverID
    · simp [hid]
    · simp [hid, Ne.symm hid]

/-- The events that put something put what a history puts. -/
def Genuine (hist : List Write) (events : List Event) : Prop :=
  ∀ key value, .put key value ∈ events → .put key value ∈ hist

/-- **An event is handled by its word.** -/
theorem handleEvent_spec (hreg : Registrations cfg hist) (hs : Filed cfg hist s) (ev : Event)
    (hev : Genuine hist [ev]) :
    ∃ s', handleEvent cfg s ev = .ok s' ∧ Filed cfg hist s' ∧
      ∀ id, Known s' id ↔ Settles (Known s) (words cfg [ev]) id := by
  cases ev with
  | put key value =>
    rcases hkept : keptKey cfg key with _ | ⟨t, id⟩
    · exact ⟨s, by simp [handleEvent, hkept], hs, fun id => by simp [words, word, hkept]⟩
    · obtain ⟨sv, hparse, rfl, hsv⟩ := entered_of_put hreg (hev key value (by simp)) hkept
      obtain ⟨s', hadd, -⟩ := addServer_some cfg s sv
      obtain ⟨hfiled, hknown⟩ := filed_addServer hs hsv hadd
      refine ⟨s', by simp [handleEvent, hkept, hparse, hadd], hfiled, fun id => ?_⟩
      have hwords : words cfg [.put key value] = [(sv.id, true)] := by simp [words, word, hkept]
      rw [hknown, hwords, settles_singleton]
      by_cases hid : sv.id = id <;> simp [hid]
  | delete key =>
    rcases hkept : keptKey cfg key with _ | ⟨t, serverID⟩
    · exact ⟨s, by simp [handleEvent, hkept], hs, fun id => by simp [words, word, hkept]⟩
    · obtain ⟨hfiled, hknown⟩ := filed_deleteServer hs serverID
      refine ⟨_, by simp only [handleEvent, hkept], hfiled, fun id => ?_⟩
      have hwords : words cfg [.delete key] = [(serverID, false)] := by simp [words, word, hkept]
      rw [hknown, hwords, settles_singleton]
      simp

/-- **A response is handled by its words**, whatever was known before. -/
theorem handleEvents_spec (hreg : Registrations cfg hist) (hs : Filed cfg hist s)
    (hevents : Genuine hist events) :
    ∃ s', handleEvents cfg s events = .ok s' ∧ Filed cfg hist s' ∧
      ∀ id, Known s' id ↔ Settles (Known s) (words cfg events) id := by
  induction events generalizing s with
  | nil => exact ⟨s, rfl, hs, fun id => Iff.rfl⟩
  | cons ev events ih =>
    obtain ⟨mid, hmid, hfiled, hknown⟩ := handleEvent_spec hreg hs ev
      fun key value h => hevents key value (by simp_all)
    obtain ⟨s', hs', hfiled', hknown'⟩ := ih hfiled
      fun key value h => hevents key value (List.mem_cons_of_mem _ h)
    refine ⟨s', ?_, hfiled', fun id => ?_⟩
    · rw [handleEvents, List.foldlM_cons, hmid]
      exact hs'
    · rw [hknown', ← List.singleton_append, words_append, settles_append]
      exact settles_congr (hknown id)

/-! ## A sync -/

/-- **A sync whose queries fail or are answered from contents that do not
change meanwhile**, each for itself. -/
structure Replies (env : SyncEnv) (firstSync : Bool) (kv : Contents) : Prop where
  listing : ∀ kvs, env.listing = .ok kvs → ∀ key payload, (key, payload) ∈ kvs ↔
    ∃ value, Listed kv key value ∧ payload = if firstSync then value else []
  get : ∀ key found, env.get key = .ok found → found = kv.get? key

theorem replies_of_answers (h : env.Answers firstSync kv) : Replies env firstSync kv where
  listing := by
    intro kvs hkvs
    obtain ⟨kvs', hkvs', -, hmem⟩ := h.listing
    rw [hkvs] at hkvs'
    obtain rfl := Except.ok.inj hkvs'
    exact hmem
  get := by
    intro key found hfound
    rw [h.get] at hfound
    exact (Except.ok.inj hfound).symm

/-- What a load comes to, if it comes to anything. -/
theorem parse_of_load (henv : Replies env firstSync kv) (hlisted : Listed kv key value)
    (hkept : keptKey cfg key = some (t, id)) {x : Option Server}
    (hload : load cfg env t id (if firstSync then value else []) = .ok x) :
    cfg.parseServer value = .ok x := by
  obtain ⟨hget, rest, hkey⟩ := hlisted
  obtain rfl := eq_getKey_of_parse hkey (keptKey_eq_some_iff.1 hkept).1
  have hfetch : getServerFromEtcd cfg env t id = .ok x → cfg.parseServer value = .ok x := by
    intro h
    unfold getServerFromEtcd at h
    rcases hfound : env.get (getKey id t) with e | found
    · rw [hfound] at h
      cases h
    · obtain rfl := henv.get _ _ hfound
      rw [hfound, hget] at h
      exact h
  cases firstSync with
  | false => exact hfetch hload
  | true =>
    rw [if_pos rfl, load] at hload
    split at hload
    · exact hfetch hload
    · exact hload

/-- **What is loaded was put under its own key**, and is no `null`. -/
theorem entered_of_loads (hreg : Registrations cfg hist) (hkv : Registered hist kv)
    (henv : Replies env firstSync kv) {kvs : List (GoString × List UInt8)}
    (hlisting : env.listing = .ok kvs) {x : Option Server}
    (hx : x ∈ loads cfg env firstSync s kvs) :
    ∃ sv, x = some sv ∧ Entered cfg hist sv.id sv := by
  obtain ⟨key, payload, t, id, hmem, hkept, -, hload⟩ := mem_loads_iff.1 hx
  obtain ⟨value, hlisted, rfl⟩ := (henv.listing kvs hlisting key payload).1 hmem
  rw [payload_listed] at hload
  obtain ⟨sv, hparse, rfl, hsv⟩ := entered_of_put hreg (hkv key value hlisted) hkept
  rw [parse_of_load henv hlisted hkept hload] at hparse
  exact ⟨sv, Except.ok.inj hparse, hsv⟩

/-- **A sync, with whatever queries failing**: it does not panic, it keeps
of the known ids exactly the admitted ones, and it adds admitted ones. -/
theorem syncServers_spec (hreg : Registrations cfg hist) (hkv : Registered hist kv)
    (hs : Filed cfg hist s) (henv : Replies env firstSync kv) :
    (∃ e, env.listing = .error e ∧ syncServers cfg env firstSync s = .err e) ∨
    ∃ s', syncServers cfg env firstSync s = .ok s' ∧ Filed cfg hist s' ∧
      (∀ id, Known s' id → Admitted cfg kv id) ∧
      (∀ id, Known s id → Admitted cfg kv id → Known s' id) ∧
      (env.Answers firstSync kv → ∀ id, Admitted cfg kv id → Known s' id) := by
  rcases hlisting : env.listing with e | kvs
  · exact Or.inl ⟨e, rfl, by simp [syncServers, hlisting]⟩
  have hentered : ∀ x ∈ env.collect (loads cfg env firstSync s kvs),
      ∃ sv, x = some sv ∧ Entered cfg hist sv.id sv := fun x hx =>
    entered_of_loads hreg hkv henv hlisting ((env.collect_perm _).mem_iff.1 hx)
  have hsome : none ∉ env.collect (loads cfg env firstSync s kvs) := by
    intro hnone
    obtain ⟨sv, hsv, -⟩ := hentered none hnone
    cases hsv
  obtain ⟨mid, hmid, -⟩ := @exists_foldlM_addServer cfg s _ hsome
  have hfiled : Filed cfg hist mid := by
    refine Outcome.foldlM_invariant ?_ hs hmid
    intro b x b' hx hb hadd
    obtain ⟨sv, rfl, hsv⟩ := hentered x hx
    exact (filed_addServer hb hsv hadd).1
  have hlisted : ∀ id, id ∈ listedIds cfg kvs ↔ Admitted cfg kv id := fun id =>
    mem_listedIds (henv.listing kvs hlisting)
  have hbyID := fun id => @byID_cleanUp mid hfiled.indexed (listedIds cfg kvs) _
    (env.range_ranges mid.byID) id
  -- an id stays if it is listed
  have hknown : ∀ id, Known (deleteLocalInvalidServers mid (listedIds cfg kvs)
      (env.range mid.byID)) id ↔ Admitted cfg kv id ∧ Known mid id := by
    intro id
    rw [Known, hbyID, ← hlisted]
    by_cases hin : id ∈ listedIds cfg kvs <;> simp [hin, Known]
  refine Or.inr ⟨_, (syncServers_eq_ok_iff hlisting).2 ⟨mid, hmid, rfl⟩, ?_, ?_, ?_, ?_⟩
  · refine hfiled.of_le (indexed_deleteLocalInvalidServers hfiled.indexed _ _) ?_
    intro id sv hget
    rw [hbyID] at hget
    exact (Option.ite_none_right_eq_some.1 hget).2
  · exact fun id h => ((hknown id).1 h).1
  · intro id hold hadmitted
    exact (hknown id).2 ⟨hadmitted, (isSome_byID_of_loads hmid).2 (Or.inl hold)⟩
  · intro hanswers id hadmitted
    refine (hknown id).2 ⟨hadmitted, (isSome_byID_of_loads hmid).2 ?_⟩
    rcases hfree : s.byID.get? id with _ | sv
    · obtain ⟨key, value, t, hkey, hkept⟩ := hadmitted
      obtain ⟨sv, hparse, hid, -⟩ := entered_of_put hreg (hkv key value hkey) hkept
      exact Or.inr ⟨sv, (some_mem_loads_answers (henv.listing kvs hlisting) hanswers).2
        ⟨id, hfree, key, value, t, hkey, hkept, hparse⟩, hid⟩
    · exact Or.inl rfl

/-! ## A step -/

section

variable {n n' : State} {a : Action}

/-- **What is asked of a run**: what is put under `servers/` is put by the
history, and the queries of a sync fail or are answered from what is there
at the time. -/
def Fair (hist : List Write) (n : State) : Action → Prop
  | .write (.put key value) => Under key → .put key value ∈ hist
  | .sync env firstSync => Replies env firstSync n.kv
  | _ => True

/-- **What holds of a node at any time**: what the watch has still to
deliver ends in the truth. -/
structure Sound (cfg : Config) (hist : List Write) (n : State) : Prop where
  registered : Registered hist n.kv
  filed : Filed cfg hist n.servers
  genuine : ∀ events, n.chn = some events → Genuine hist events
  truthful : ∀ events, n.chn = some events → Truthful (words cfg events) (Admitted cfg n.kv)
  attempts : n.failedWatchAttempts ≤ 10

theorem sound_init (hkv : Registered hist kv) : Sound cfg hist (.init kv) where
  registered := hkv
  filed := filed_init
  genuine := by
    rintro events h key value hput
    obtain rfl := Option.some.inj h
    cases hput
  truthful := by
    rintro events h id b hlast
    obtain rfl := Option.some.inj h
    cases hlast
  attempts := Nat.zero_le _

/-- **What a step comes to.** -/
inductive Moves (cfg : Config) (hist : List Write) (n : State) : Action → State → Prop
  | write (w : Write) (hregistered : Registered hist (w.apply n.kv))
      (hgenuine : Genuine hist (delivered (w.events n.kv)))
      (hnews : Says cfg n.kv (w.apply n.kv) (delivered (w.events n.kv))) :
      Moves cfg hist n (.write w)
        { n with kv := w.apply n.kv, chn := n.chn.map (· ++ delivered (w.events n.kv)) }
  | response (k : ℕ) (events : List Event) (servers : Servers) (hchn : n.chn = some events)
      (hfiled : Filed cfg hist servers)
      (hknown : ∀ id, Known servers id ↔
        Settles (Known n.servers) (words cfg (events.take k)) id) :
      Moves cfg hist n (.response k)
        { n with chn := some (events.drop k), failedWatchAttempts := 0, servers := servers }
  | died : Moves cfg hist n .died { n with chn := none }
  | closed (initialized : Bool) (hchn : n.chn = none) :
      Moves cfg hist n (.closed initialized) (n.retry initialized)
  | failed (env : SyncEnv) (firstSync : Bool) (hfailed : ¬ env.Answers firstSync n.kv) :
      Moves cfg hist n (.sync env firstSync) n
  | synced (env : SyncEnv) (firstSync : Bool) (servers : Servers)
      (hfiled : Filed cfg hist servers)
      (hadmitted : ∀ id, Known servers id → Admitted cfg n.kv id)
      (hkept : ∀ id, Known n.servers id → Admitted cfg n.kv id → Known servers id)
      (hanswered : env.Answers firstSync n.kv → ∀ id, Admitted cfg n.kv id → Known servers id) :
      Moves cfg hist n (.sync env firstSync) { n with servers := servers }

theorem registered_apply (hkv : Registered hist kv)
    (hput : ∀ key value, w = .put key value → Under key → .put key value ∈ hist) :
    Registered hist (w.apply kv) := by
  rintro k v ⟨hget, hunder⟩
  by_cases hk : k = target w
  · cases w with
    | put key value =>
      obtain rfl : k = key := hk
      have hv : (kv.set k value).get? k = some v := hget
      rw [GoMap.get?_set_self] at hv
      rw [← Option.some.inj hv]
      exact hput k value rfl hunder
    | delete key =>
      obtain rfl : k = key := hk
      have hv : (kv.del k).get? k = some v := hget
      rw [GoMap.get?_del_self] at hv
      cases hv
  · rw [get?_apply_of_ne hk] at hget
    exact hkv k v ⟨hget, hunder⟩

theorem genuine_delivered
    (hput : ∀ key value, w = .put key value → Under key → .put key value ∈ hist) :
    Genuine hist (delivered (w.events kv)) := by
  intro k v hmem
  obtain ⟨hmem, hunder⟩ := List.mem_filter.1 hmem
  cases w with
  | put key value =>
    obtain ⟨rfl, rfl⟩ : k = key ∧ v = value := by simpa [Write.events] using hmem
    exact hput k v rfl (under_iff.1 hunder)
  | delete key =>
    rw [Write.events] at hmem
    split at hmem <;> simp at hmem

theorem moves_write (hreg : Registrations cfg hist) (hn : Sound cfg hist n)
    (hfair : Fair hist n (.write w)) :
    Moves cfg hist n (.write w)
      { n with kv := w.apply n.kv, chn := n.chn.map (· ++ delivered (w.events n.kv)) } := by
  have hput : ∀ key value, w = .put key value → Under key → .put key value ∈ hist := by
    rintro key value rfl hunder
    exact hfair hunder
  refine .write w (registered_apply hn.registered hput) (genuine_delivered hput) ?_
  cases w with
  | put key value => exact says_put cfg n.kv key value
  | delete key => exact says_delete hreg hn.registered key

/-- **A live watch is never the end of a node**, whatever it delivers. -/
theorem exists_response (hreg : Registrations cfg hist) (hn : Sound cfg hist n)
    (hchn : n.chn = some events) (k : ℕ) :
    ∃ n', step cfg n (.response k) = some n' ∧ Moves cfg hist n (.response k) n' := by
  have hgenuine : Genuine hist (events.take k) := fun key value h =>
    hn.genuine events hchn key value (List.mem_of_mem_take h)
  obtain ⟨servers, hhandle, hfiled, hknown⟩ := handleEvents_spec hreg hn.filed hgenuine
  exact ⟨_, by simp only [step, hchn, hhandle], .response k events servers hchn hfiled hknown⟩

/-- **No sync is**, whatever of it fails. -/
theorem exists_sync (hreg : Registrations cfg hist) (hn : Sound cfg hist n)
    (henv : Replies env firstSync n.kv) :
    ∃ n', step cfg n (.sync env firstSync) = some n' ∧
      Moves cfg hist n (.sync env firstSync) n' := by
  rcases syncServers_spec hreg hn.registered hn.filed henv with
    ⟨e, hlisting, herr⟩ | ⟨servers, hok, hfiled, hadmitted, hkept, hanswered⟩
  · refine ⟨n, by simp [step, herr, settle], .failed env firstSync ?_⟩
    intro hanswers
    obtain ⟨kvs, hkvs, -⟩ := hanswers.listing
    rw [hlisting] at hkvs
    cases hkvs
  · exact ⟨_, by simp [step, hok, settle],
      .synced env firstSync servers hfiled hadmitted hkept hanswered⟩

theorem moves_of_step (hreg : Registrations cfg hist) (hn : Sound cfg hist n)
    (hfair : Fair hist n a) (h : step cfg n a = some n') : Moves cfg hist n a n' := by
  cases a with
  | write w =>
    obtain rfl := Option.some.inj h
    exact moves_write hreg hn hfair
  | response k =>
    rcases hchn : n.chn with _ | events
    · simp [step, hchn] at h
    · obtain ⟨n₁, hstep, hmoves⟩ := exists_response hreg hn hchn k
      rw [h] at hstep
      obtain rfl := Option.some.inj hstep
      exact hmoves
  | died =>
    obtain ⟨-, hn'⟩ := Option.ite_none_right_eq_some.1 h
    obtain rfl := Option.some.inj hn'
    exact .died
  | closed initialized =>
    obtain ⟨hchn, hn'⟩ := Option.ite_none_left_eq_some.1 h
    obtain rfl := Option.some.inj hn'
    exact .closed initialized (by simpa using hchn)
  | sync env firstSync =>
    obtain ⟨n₁, hstep, hmoves⟩ := exists_sync hreg hn hfair
    rw [h] at hstep
    obtain rfl := Option.some.inj hstep
    exact hmoves

/-- What a retry leaves alone, and what it may make. -/
theorem retry_spec (hattempts : n.failedWatchAttempts ≤ 10) (initialized : Bool) :
    (n.retry initialized).kv = n.kv ∧ (n.retry initialized).servers = n.servers ∧
      (n.retry initialized).failedWatchAttempts ≤ 10 ∧
      ((n.retry initialized).chn = n.chn ∨ (n.retry initialized).chn = some []) := by
  unfold State.retry
  split
  · split
    · exact ⟨rfl, rfl, Nat.zero_le _, Or.inr rfl⟩
    · exact ⟨rfl, rfl, Nat.zero_le _, Or.inl rfl⟩
  · exact ⟨rfl, rfl, by dsimp only; omega, Or.inl rfl⟩

/-- **A step keeps the node sound.** -/
theorem sound_moves (hn : Sound cfg hist n) (h : Moves cfg hist n a n') : Sound cfg hist n' := by
  cases h with
  | write w hregistered hgenuine hnews =>
    refine ⟨hregistered, hn.filed, ?_, ?_, hn.attempts⟩
    · intro events hevents key value hput
      obtain ⟨old, hold, rfl⟩ := Option.map_eq_some_iff.1 hevents
      rcases List.mem_append.1 hput with h | h
      · exact hn.genuine old hold key value h
      · exact hgenuine key value h
    · intro events hevents
      obtain ⟨old, hold, rfl⟩ := Option.map_eq_some_iff.1 hevents
      rw [words_append]
      exact (hn.truthful old hold).append hnews.told hnews.silent
  | response k events servers hchn hfiled hknown =>
    refine ⟨hn.registered, hfiled, ?_, ?_, Nat.zero_le _⟩
    · intro rest hrest key value hput
      obtain rfl := Option.some.inj hrest
      exact hn.genuine events hchn key value (List.mem_of_mem_drop hput)
    · intro rest hrest
      obtain rfl := Option.some.inj hrest
      have htruthful := hn.truthful events hchn
      rw [← List.take_append_drop k events, words_append] at htruthful
      exact htruthful.of_append
  | died => exact ⟨hn.registered, hn.filed, fun _ h => (by cases h), fun _ h => (by cases h),
      hn.attempts⟩
  | closed initialized hchn =>
    obtain ⟨hkv, hservers, hattempts, hchn'⟩ := @retry_spec n hn.attempts initialized
    -- a new watch starts with nothing to deliver
    have hempty : ∀ events, (n.retry initialized).chn = some events → events = [] := by
      intro events hevents
      rw [hchn] at hchn'
      rcases hchn' with h | h
      · rw [h] at hevents
        cases hevents
      · rw [h] at hevents
        exact (Option.some.inj hevents).symm
    refine ⟨hkv ▸ hn.registered, hservers ▸ hn.filed, ?_, ?_, hattempts⟩
    · intro events hevents key value hput
      rw [hempty events hevents] at hput
      cases hput
    · intro events hevents id b hlast
      rw [hempty events hevents] at hlast
      cases hlast
  | failed env firstSync hfailed => exact hn
  | synced env firstSync servers hfiled hadmitted hkept hanswered =>
    exact ⟨hn.registered, hfiled, hn.genuine, hn.truthful, hn.attempts⟩

/-! ## Catching up -/

/-- **The node has caught up with etcd but for what its watch has still to
deliver.** -/
def CaughtUp (cfg : Config) (n : State) : Prop :=
  ∃ events, n.chn = some events ∧
    ∀ id, Settles (Known n.servers) (words cfg events) id ↔ Admitted cfg n.kv id

/-- With nothing to deliver the view is right. -/
theorem CaughtUp.known_iff (h : CaughtUp cfg n) (hchn : n.chn = some []) (id : GoString) :
    Known n.servers id ↔ Admitted cfg n.kv id := by
  obtain ⟨events, hevents, hsettles⟩ := h
  rw [hchn] at hevents
  obtain rfl := Option.some.inj hevents
  exact hsettles id

/-- **A sync that is answered catches up**, for all the watch lags behind. -/
theorem caughtUp_of_sync (hn : Sound cfg hist n) (hchn : n.chn.isSome)
    (hanswers : env.Answers firstSync n.kv) (h : Moves cfg hist n (.sync env firstSync) n') :
    CaughtUp cfg n' := by
  obtain ⟨events, hevents⟩ := Option.isSome_iff_exists.1 hchn
  cases h with
  | failed _ _ hfailed => exact absurd hanswers hfailed
  | synced _ _ servers _ hadmitted _ hanswered =>
    refine ⟨events, hevents, fun id => (hn.truthful events hevents).settles_iff fun _ => ?_⟩
    exact ⟨hadmitted id, hanswered hanswers id⟩

/-- **Caught up stays caught up** while the watch lives. -/
theorem caughtUp_moves (hn : Sound cfg hist n) (hcaught : CaughtUp cfg n) (hlives : a ≠ .died)
    (h : Moves cfg hist n a n') : CaughtUp cfg n' := by
  obtain ⟨events, hevents, hsettles⟩ := hcaught
  cases h with
  | write w hregistered hgenuine hnews =>
    refine ⟨_, by rw [hevents]; rfl, fun id => ?_⟩
    rw [words_append, settles_append]
    -- what the new events are silent on has not changed
    have hsaid : Truthful (words cfg (delivered (w.events n.kv))) (Admitted cfg (w.apply n.kv)) :=
      hnews.told
    exact hsaid.settles_iff fun hsilent => (hsettles id).trans (hnews.silent id hsilent)
  | response k events' servers hchn hfiled hknown =>
    rw [hevents] at hchn
    obtain rfl := Option.some.inj hchn
    refine ⟨_, rfl, fun id => ?_⟩
    rw [← hsettles id, ← List.take_append_drop k events, words_append, settles_append,
      List.take_append_drop]
    exact settles_congr (hknown id)
  | died => exact absurd rfl hlives
  | closed initialized hchn =>
    rw [hevents] at hchn
    cases hchn
  | failed env firstSync hfailed => exact ⟨events, hevents, hsettles⟩
  | synced env firstSync servers hfiled hadmitted hkept hanswered =>
    refine ⟨events, hevents, fun id => (hn.truthful events hevents).settles_iff fun hsilent => ?_⟩
    -- what the watch is silent on was right before, so the sync had no need to load it
    have hbefore := hsettles id
    rw [Settles, hsilent] at hbefore
    exact ⟨hadmitted id, fun h => hkept id (hbefore.2 h) h⟩

/-! ## Whole runs -/

theorem sound_run (hreg : Registrations cfg hist) {as : List Action} (hn : Sound cfg hist n)
    (hmeets : (machine cfg).Meets (Fair hist) n as) (hrun : (machine cfg).run n as = some n') :
    Sound cfg hist n' :=
  Machine.run_invariant
    (fun _ _ _ hs hfair hstep => sound_moves hs (moves_of_step hreg hs hfair hstep)) hn hmeets hrun

theorem caughtUp_run (hreg : Registrations cfg hist) {as : List Action} (hn : Sound cfg hist n)
    (hcaught : CaughtUp cfg n) (hlives : .died ∉ as)
    (hmeets : (machine cfg).Meets (Fair hist) n as) (hrun : (machine cfg).run n as = some n') :
    CaughtUp cfg n' := by
  have hlive : ∀ a ∈ as, a ≠ .died := by
    rintro a ha rfl
    exact hlives ha
  have hinv : Sound cfg hist n' ∧ CaughtUp cfg n' := by
    refine Machine.run_invariant (I := fun m => Sound cfg hist m ∧ CaughtUp cfg m) ?_
      ⟨hn, hcaught⟩ (hmeets.and_forall hlive) hrun
    rintro m a m' ⟨hm, hcaughtm⟩ ⟨hne, hfair⟩ hstep
    have hmoves := moves_of_step hreg hm hfair hstep
    exact ⟨sound_moves hm hmoves, caughtUp_moves hm hcaughtm hne hmoves⟩
  exact hinv.2

/-- **A dead watch is replaced**, at the eleventh failure at the latest, if
the client can be made. -/
theorem run_rewatch (hchn : n.chn = none) (hattempts : n.failedWatchAttempts ≤ 10) :
    (machine cfg).run n (List.replicate (11 - n.failedWatchAttempts) (.closed true)) =
      some { n with chn := some [], failedWatchAttempts := 0 } := by
  -- by the failures that are left until then
  induction hleft : 10 - n.failedWatchAttempts generalizing n with
  | zero =>
    have hten : n.failedWatchAttempts = 10 := by omega
    simp [machine, Machine.run, step, State.retry, hchn, hten]
  | succ left ih =>
    have hcount : 11 - n.failedWatchAttempts = (11 - (n.failedWatchAttempts + 1)) + 1 := by omega
    have hretry : step cfg n (.closed true) =
        some { n with failedWatchAttempts := n.failedWatchAttempts + 1 } := by
      have hfew : ¬ n.failedWatchAttempts + 1 > 10 := by omega
      simp [step, hchn, State.retry, hfew]
    rw [hcount, List.replicate_succ, Machine.run]
    show (step cfg n (.closed true)).bind _ = _
    rw [hretry, Option.bind_some]
    have hlater := @ih { n with failedWatchAttempts := n.failedWatchAttempts + 1 } hchn
      (by dsimp only; omega) (by dsimp only; omega)
    exact hlater

/-- A live watch, an answered sync and a response with all there is. -/
theorem run_catchUp (hreg : Registrations cfg hist) (hn : Sound cfg hist n)
    (hchn : n.chn = some events) (hanswers : env.Answers firstSync n.kv) :
    ∃ n', (machine cfg).run n [.sync env firstSync, .response events.length] = some n' ∧
      n'.kv = n.kv ∧ ∀ id, Known n'.servers id ↔ Admitted cfg n.kv id := by
  obtain ⟨mid, hsync, hmoves⟩ := exists_sync hreg hn (replies_of_answers hanswers)
  have hcaught := caughtUp_of_sync hn (by rw [hchn]; rfl) hanswers hmoves
  have hmid := sound_moves hn hmoves
  have hsame : mid.kv = n.kv ∧ mid.chn = n.chn := by
    cases hmoves <;> exact ⟨rfl, rfl⟩
  obtain ⟨n', hresponse, hmoves'⟩ := exists_response hreg hmid (hsame.2.trans hchn) events.length
  have hcaught' := caughtUp_moves hmid hcaught (by simp) hmoves'
  have hdone : n'.kv = mid.kv ∧ n'.chn = some [] := by
    cases hmoves' with
    | response _ events' servers hevents' _ _ =>
      rw [hsame.2, hchn] at hevents'
      obtain rfl := Option.some.inj hevents'
      exact ⟨rfl, by simp⟩
  refine ⟨n', ?_, hdone.1.trans hsame.1, fun id => ?_⟩
  · exact Machine.run_cons_eq_some_iff.2 ⟨mid, hsync,
      Machine.run_cons_eq_some_iff.2 ⟨n', hresponse, rfl⟩⟩
  · rw [hcaught'.known_iff hdone.2, hdone.1, hsame.1]

/-- **From any sound state the view can be made right.** -/
theorem exists_recovery (hreg : Registrations cfg hist) (hn : Sound cfg hist n)
    (hanswers : env.Answers firstSync n.kv) :
    ∃ retries k n', retries ≤ 11 ∧ (n.chn.isSome → retries = 0) ∧
      (machine cfg).run n
        (List.replicate retries (.closed true) ++ [.sync env firstSync, .response k]) = some n' ∧
      n'.kv = n.kv ∧ ∀ id, Known n'.servers id ↔ Admitted cfg n.kv id := by
  rcases hchn : n.chn with _ | events
  · have hwatch := @run_rewatch cfg n hchn hn.attempts
    have hsound : Sound cfg hist { n with chn := some [], failedWatchAttempts := 0 } := by
      refine sound_run hreg hn (Machine.meets_of_forall fun a ha m => ?_) hwatch
      obtain rfl := (List.mem_replicate.1 ha).2
      trivial
    obtain ⟨n', hrun, hkv, hknown⟩ := run_catchUp hreg hsound rfl hanswers
    refine ⟨11 - n.failedWatchAttempts, 0, n', Nat.sub_le _ _, fun h => (by cases h), ?_, hkv,
      hknown⟩
    rw [Machine.run_append, hwatch]
    exact hrun
  · obtain ⟨n', hrun, hkv, hknown⟩ := run_catchUp hreg hn hchn hanswers
    exact ⟨0, _, n', Nat.zero_le _, fun _ => rfl, hrun, hkv, hknown⟩

end

/-- **Behind an answered sync the view is right whenever there is nothing to
deliver**, while the watch lives. -/
theorem known_iff_of_sync (hreg : Registrations cfg hist) (hkv : Registered hist kv)
    {pre post : List Action} {mid : State}
    (hmeets : (machine cfg).Meets (Fair hist) (.init kv) (pre ++ .sync env firstSync :: post))
    (hrun : (machine cfg).run (.init kv) (pre ++ .sync env firstSync :: post) = some n)
    (hpre : (machine cfg).run (.init kv) pre = some mid) (hlives : mid.chn.isSome)
    (hanswers : env.Answers firstSync mid.kv) (hpost : .died ∉ post) (hchn : n.chn = some [])
    (id : GoString) : Known n.servers id ↔ Admitted cfg n.kv id := by
  obtain ⟨hbefore, hafter⟩ := (Machine.meets_append_iff hpre).1 hmeets
  rw [Machine.run_append, hpre, Option.bind_some] at hrun
  obtain ⟨mid', hsync, hrest⟩ := Machine.run_cons_eq_some_iff.1 hrun
  have hmid : Sound cfg hist mid := sound_run hreg (sound_init hkv) hbefore hpre
  have hmoves := moves_of_step hreg hmid hafter.1 hsync
  have hcaught := caughtUp_of_sync hmid hlives hanswers hmoves
  exact (caughtUp_run hreg (sound_moves hmid hmoves) hcaught hpost (hafter.2 mid' hsync)
    hrest).known_iff hchn id

/-- **The view of a node converges.** Take any run of the node and its etcd
in which no two syncs overlap, what is put under `servers/` are
registrations, the watch delivers late and in pieces and dies at any time,
and each query of a sync fails or is answered from what is there, with
nobody writing in between. Then no response and no sync panics; every
record the node has was put under the record's own, admitted key; once a
sync was answered in full while its watch lived, and the watch has not died
since, the ids the node has are exactly the admitted ones whenever the watch
has delivered everything, however far the watch lagged behind that sync and
whatever syncs failed, in whole or in part, after it; and from every such
state, its watch dead or alive, eleven retries at most, a sync and a response
make it so. A sync on a dead watch does not count: what is written before
the next watch is made is in neither. -/
theorem view_converges (cfg : Config) (hist : List Write) (kv : Contents) (as : List Action)
    (n : State) (hreg : Registrations cfg hist) (hkv : Registered hist kv)
    (hmeets : (machine cfg).Meets (Fair hist) (.init kv) as)
    (hrun : (machine cfg).run (.init kv) as = some n) :
    ((∀ k, n.chn.isSome → (machine cfg).Enabled n (.response k)) ∧
      ∀ env firstSync, Replies env firstSync n.kv →
        (machine cfg).Enabled n (.sync env firstSync)) ∧
    (∀ id sv, n.servers.byID.get? id = some sv → sv.id = id ∧ Entered cfg hist id sv) ∧
    (∀ pre env firstSync post mid, as = pre ++ .sync env firstSync :: post →
      (machine cfg).run (.init kv) pre = some mid → mid.chn.isSome →
      SyncEnv.Answers env firstSync mid.kv → .died ∉ post → n.chn = some [] →
      ∀ id, Known n.servers id ↔ Admitted cfg n.kv id) ∧
    ∀ env firstSync, SyncEnv.Answers env firstSync n.kv →
      ∃ retries k n', retries ≤ 11 ∧ (n.chn.isSome → retries = 0) ∧
        (machine cfg).run n
          (List.replicate retries (.closed true) ++ [.sync env firstSync, .response k]) =
            some n' ∧
        n'.kv = n.kv ∧ ∀ id, Known n'.servers id ↔ Admitted cfg n.kv id := by
  have hn : Sound cfg hist n := sound_run hreg (sound_init hkv) hmeets hrun
  refine ⟨⟨?_, ?_⟩, ?_, ?_, fun env firstSync hanswers => exists_recovery hreg hn hanswers⟩
  · intro k hlives
    obtain ⟨events, hchn⟩ := Option.isSome_iff_exists.1 hlives
    obtain ⟨n', hstep, -⟩ := exists_response hreg hn hchn k
    exact ⟨n', hstep⟩
  · intro env firstSync henv
    obtain ⟨n', hstep, -⟩ := exists_sync hreg hn henv
    exact ⟨n', hstep⟩
  · exact fun id sv hsv => ⟨hn.filed.indexed.id_eq id sv hsv, hn.filed.entered id sv hsv⟩
  · rintro pre env firstSync post mid rfl hpre hlives hanswers hpost hchn
    exact known_iff_of_sync hreg hkv hmeets hrun hpre hlives hanswers hpost hchn

/-- The room server comes, goes and comes back on another host before the
watch has delivered anything. A sync sees it there; the watch then takes it
away once more, and brings it back. -/
theorem view_converges_room :
    let room := getKey (lit "s1") (lit "room")
    let writes : List Write := [.put room (roomRecord (lit "a")), .delete room,
      .put room (roomRecord (lit "b"))]
    ∃ n, (machine roomNode).run (.init .empty) (writes.map .write ++
        [.sync (oneKey room (roomRecord (lit "b"))) true, .response 2, .response 1]) = some n ∧
      Known n.servers (lit "s1") := by
  intro room writes
  have hreg : Registrations roomNode writes := by
    refine registrations_room ?_
    intro k v hput
    simpa [writes] using hput
  have hempty : Registered writes .empty := by
    rintro k v ⟨hget, -⟩
    simp at hget
  -- three writes, and three events to deliver
  let mid : State := ⟨GoMap.empty.set room (roomRecord (lit "b")),
    some [.put room (roomRecord (lit "a")), .delete room, .put room (roomRecord (lit "b"))], 0,
    .init⟩
  have hcontents : ((GoMap.empty.set room (roomRecord (lit "a"))).del room).set room
      (roomRecord (lit "b")) = GoMap.empty.set room (roomRecord (lit "b")) := by
    ext1 k
    simp only [GoMap.get?_set, GoMap.get?_del, GoMap.get?_empty]
    split <;> rfl
  have hunder : Under room := ⟨lit "room/s1", by decide⟩
  have hpre : (machine roomNode).run (.init .empty) (writes.map .write) = some mid := by
    simp [writes, machine, Machine.run, step, State.init, Write.apply, Write.events, delivered,
      Watch.key, under_iff.2 hunder, hcontents, mid]
  have hanswers : (oneKey room (roomRecord (lit "b"))).Answers true mid.kv := answers_room
  have hfair : (machine roomNode).Meets (Fair writes) (.init .empty) (writes.map .write) := by
    refine Machine.meets_of_forall fun a ha m => ?_
    obtain ⟨w, hw, rfl⟩ := List.mem_map.1 ha
    cases w with
    | put key value => exact fun _ => hw
    | delete key => trivial
  have hmid : Sound roomNode writes mid := sound_run hreg (sound_init hempty) hfair hpre
  obtain ⟨n₁, h₁, hmoves₁⟩ := exists_sync hreg hmid (replies_of_answers hanswers)
  have hn₁ := sound_moves hmid hmoves₁
  have hchn₁ : n₁.kv = mid.kv ∧ n₁.chn = mid.chn := by cases hmoves₁ <;> exact ⟨rfl, rfl⟩
  obtain ⟨n₂, h₂, hmoves₂⟩ := exists_response hreg hn₁ hchn₁.2 2
  have hn₂ := sound_moves hn₁ hmoves₂
  have hchn₂ : n₂.kv = n₁.kv ∧ n₂.chn = some [.put room (roomRecord (lit "b"))] := by
    cases hmoves₂ with
    | response _ events servers hevents _ _ =>
      rw [hchn₁.2] at hevents
      obtain rfl := Option.some.inj hevents
      exact ⟨rfl, rfl⟩
  obtain ⟨n₃, h₃, hmoves₃⟩ := exists_response hreg hn₂ hchn₂.2 1
  have hchn₃ : n₃.kv = n₂.kv ∧ n₃.chn = some [] := by
    cases hmoves₃ with
    | response _ events servers hevents _ _ =>
      rw [hchn₂.2] at hevents
      obtain rfl := Option.some.inj hevents
      exact ⟨rfl, rfl⟩
  have hrest : (machine roomNode).run mid [.sync (oneKey room (roomRecord (lit "b"))) true,
      .response 2, .response 1] = some n₃ :=
    Machine.run_cons_eq_some_iff.2 ⟨n₁, h₁, Machine.run_cons_eq_some_iff.2 ⟨n₂, h₂,
      Machine.run_cons_eq_some_iff.2 ⟨n₃, h₃, rfl⟩⟩⟩
  have hrun : (machine roomNode).run (.init .empty) (writes.map .write ++
      [.sync (oneKey room (roomRecord (lit "b"))) true, .response 2, .response 1]) = some n₃ := by
    rw [Machine.run_append, hpre]
    exact hrest
  have hmeets : (machine roomNode).Meets (Fair writes) (.init .empty) (writes.map .write ++
      [.sync (oneKey room (roomRecord (lit "b"))) true, .response 2, .response 1]) :=
    (Machine.meets_append_iff hpre).2 ⟨hfair, replies_of_answers hanswers, fun _ _ =>
      ⟨trivial, fun _ _ => ⟨trivial, fun _ _ => trivial⟩⟩⟩
  have hconverges := (view_converges roomNode writes .empty _ n₃ hreg hempty hmeets hrun).2.2.1
    (writes.map .write) _ true [.response 2, .response 1] mid rfl hpre rfl hanswers (by simp)
    hchn₃.2 (lit "s1")
  refine ⟨n₃, hrun, hconverges.2 ?_⟩
  rw [hchn₃.1, hchn₂.1, hchn₁.1]
  exact ⟨room, _, lit "room", listed_room (lit "b"), by decide⟩

end Watch

end Discovery

end Nrpc
