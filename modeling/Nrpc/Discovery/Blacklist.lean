import Nrpc.Discovery.Listeners
/-!
# Blacklisted types stay out

Both paths decide by the type and the id of the key, and what they add is
the value. So the filter is as good as the values are: where each of them
says what its key says, no server of a blacklisted type is in the maps
besides this node's own, and nothing else is held back
(`blacklist_run`). A value put under a key of another type is not looked at
twice (`mismatched_put_enters`).
-/

namespace Nrpc

namespace Discovery

variable {cfg : Config} {s s' : Servers} {sv : Server} {env : SyncEnv} {firstSync : Bool}
variable {key value payload : List UInt8} {t id : GoString} {op : Op}
variable {kvs : List (GoString × List UInt8)}

/-- A server the blacklist admits: of another type, or this node's own. -/
def Allowed (cfg : Config) (sv : Server) : Prop :=
  sv.type ∉ cfg.serverTypesBlacklist ∨ sv.id = cfg.self

/-- **A value matches its key**: if it reads as a server, then as one of the
type and the id in the key. -/
def Matching (cfg : Config) (key : GoString) (value : List UInt8) : Prop :=
  ∀ t id sv, parseEtcdKey key = .ok (t, id) → cfg.parseServer value = .ok (some sv) →
    sv.type = t ∧ sv.id = id

/-- A sync or a watch response whose values match their keys, in the
listing, in the single queries and in the events. Nothing else adds a
server. -/
def Op.Matching (cfg : Config) : Op → Prop
  | .addServer _ => False
  | .deleteServer _ => True
  | .deleteLocalInvalidServers _ _ => True
  | .syncServers env _ =>
    (∀ kvs key value, env.listing = .ok kvs → (key, value) ∈ kvs → value ≠ [] →
      Discovery.Matching cfg key value) ∧
    ∀ key value, env.get key = .ok (some value) → Discovery.Matching cfg key value
  | .watch events => ∀ key value, .put key value ∈ events → Discovery.Matching cfg key value

/-! ## What is added is admitted -/

/-- A key of a type and an id that a key has is made of three parts. -/
theorem parseEtcdKey_getKey_of_parse (h : parseEtcdKey key = .ok (t, id)) :
    parseEtcdKey (getKey id t) = .ok (t, id) := by
  obtain ⟨p, hsplit⟩ := parseEtcdKey_eq_ok_iff.1 h
  obtain ⟨-, ht, hid, -⟩ := splitOn_eq_three_iff.1 hsplit
  exact parseEtcdKey_getKey_iff.2 ⟨ht, hid, rfl, rfl⟩

/-- A load reads its payload, or what a query of its own comes back with. -/
theorem load_eq_ok {x : Option Server} (h : load cfg env t id payload = .ok x) :
    payload ≠ [] ∧ cfg.parseServer payload = .ok x ∨
      ∃ value, env.get (getKey id t) = .ok (some value) ∧ cfg.parseServer value = .ok x := by
  unfold load at h
  split at h
  · unfold getServerFromEtcd at h
    split at h
    · cases h
    · cases h
    · rename_i value hget
      exact Or.inr ⟨value, hget, h⟩
  · rename_i hne
    exact Or.inl ⟨hne, h⟩

/-- A server that is loaded was read from a value that matches a key of the
same type and id. -/
theorem matching_of_load (hop : (Op.syncServers env firstSync).Matching cfg)
    (hlisting : env.listing = .ok kvs) (hmem : (key, payload) ∈ kvs)
    (hkey : parseEtcdKey key = .ok (t, id))
    (hload : load cfg env t id (if firstSync then payload else []) = .ok (some sv)) :
    sv.type = t ∧ sv.id = id := by
  rcases load_eq_ok hload with ⟨hne, hparse⟩ | ⟨value, hget, hparse⟩
  · cases firstSync with
    | false => exact absurd rfl hne
    | true => exact hop.1 kvs key payload hlisting hmem hne t id sv hkey hparse
  · exact hop.2 _ value hget t id sv (parseEtcdKey_getKey_of_parse hkey) hparse

/-- A key under which an operation is offered a server. -/
def Op.Offers (key : GoString) : Op → Prop
  | .syncServers env _ => ∃ kvs value, env.listing = .ok kvs ∧ (key, value) ∈ kvs
  | .watch events => ∃ value, .put key value ∈ events
  | .addServer _ | .deleteServer _ | .deleteLocalInvalidServers _ _ => False

/-- **Every server an operation adds** stands under a key of its type and
id that the filter keeps. -/
theorem exists_key_of_mem_calls (hop : op.Matching cfg)
    (hmem : .addServer (some sv) ∈ op.calls cfg s) :
    ∃ key, op.Offers key ∧ keptKey cfg key = some (sv.type, sv.id) := by
  cases op with
  | addServer sv => exact absurd hop id
  | deleteServer serverID => simp [Op.calls] at hmem
  | deleteLocalInvalidServers actualServers order => simp [Op.calls, sweep] at hmem
  | syncServers env firstSync =>
    simp only [Op.calls] at hmem
    split at hmem
    · simp at hmem
    · rename_i kvs hlisting
      -- the clean-up adds nothing
      have hload : some sv ∈ loads cfg env firstSync s kvs := by
        rcases List.mem_append.1 hmem with hadded | hswept
        · simpa [(env.collect_perm _).mem_iff] using hadded
        · rcases hrun : (calling cfg).run s ((env.collect (loads cfg env firstSync s kvs)).flatMap
            fun sv => [.addServer sv]) with _ | mid
          · simp [hrun] at hswept
          · simp [hrun, sweep] at hswept
      obtain ⟨key, payload, t, id, hkv, hkept, -, hload⟩ := mem_loads_iff.1 hload
      obtain ⟨hkey, -⟩ := keptKey_eq_some_iff.1 hkept
      obtain ⟨rfl, rfl⟩ := matching_of_load hop hlisting hkv hkey hload
      exact ⟨key, ⟨kvs, payload, hlisting, hkv⟩, hkept⟩
  | watch events =>
    obtain ⟨ev, hev, hcall⟩ := List.mem_flatMap.1 hmem
    cases ev with
    | put key value =>
      rcases hkept : keptKey cfg key with _ | ⟨t, id⟩
      · simp [Event.calls, hkept] at hcall
      · rcases hparse : cfg.parseServer value with e | sv'
        · simp [Event.calls, hkept, hparse] at hcall
        · obtain rfl : some sv = sv' := by simpa [Event.calls, hkept, hparse] using hcall
          obtain ⟨hkey, -⟩ := keptKey_eq_some_iff.1 hkept
          obtain ⟨rfl, rfl⟩ := hop key value hev t id sv hkey hparse
          exact ⟨key, ⟨value, hev⟩, hkept⟩
    | delete key =>
      rcases hkept : keptKey cfg key with _ | ⟨t, id⟩
      · simp [Event.calls, hkept] at hcall
      · simp [Event.calls, hkept] at hcall

/-! ## The maps hold nothing else -/

/-- Every server of the maps is admitted. -/
def AllAllowed (cfg : Config) (s : Servers) : Prop :=
  ∀ id sv, s.byID.get? id = some sv → Allowed cfg sv

section Calls

variable {P : Server → Prop}

/-- **One call** adds no server but its own. -/
theorem forall_byID_call {call : Call} (hs : ∀ id sv, s.byID.get? id = some sv → P sv)
    (hindexed : Indexed s) (hcall : ∀ sv, call = .addServer (some sv) → P sv)
    (h : (calling cfg).step s call = some s') : ∀ id sv, s'.byID.get? id = some sv → P sv := by
  cases call with
  | addServer sv? =>
    rcases sv? with _ | sv
    · cases h
    · obtain ⟨s₁, hadd, hbyID, -⟩ := addServer_some cfg s sv
      simp only [calling, hadd, settle, Option.some.injEq] at h
      subst h
      intro id sv' hsv'
      rw [hbyID, Option.or_eq_some_iff] at hsv'
      rcases hsv' with hold | ⟨-, hnew⟩
      · exact hs id sv' hold
      · obtain ⟨-, hsv⟩ := Option.ite_none_right_eq_some.1 hnew
        exact hcall sv' (by rw [Option.some.inj hsv])
  | deleteServer serverID =>
    obtain rfl := Option.some.inj h
    intro id sv hsv
    rw [byID_deleteServer hindexed, GoMap.get?_del] at hsv
    split at hsv
    · cases hsv
    · exact hs id sv hsv

/-- **What holds of every server that is added holds of every server in the
maps**, between any two calls. -/
theorem forall_byID_calls {calls : List Call}
    (hs : (∀ id sv, s.byID.get? id = some sv → P sv) ∧ Indexed s)
    (hcalls : ∀ sv, .addServer (some sv) ∈ calls → P sv)
    (h : (calling cfg).run s calls = some s') :
    (∀ id sv, s'.byID.get? id = some sv → P sv) ∧ Indexed s' := by
  refine Machine.run_invariant
    (I := fun s : Servers => (∀ id sv, s.byID.get? id = some sv → P sv) ∧ Indexed s)
    (G := fun _ call => ∀ sv, call = .addServer (some sv) → P sv) ?_ hs ?_ h
  · rintro s call s' ⟨hs, hindexed⟩ hcall hstep
    exact ⟨forall_byID_call hs hindexed hcall hstep, indexed_call hindexed hstep⟩
  · rw [Machine.meets_iff_forall_append]
    rintro pre call rest s₁ rfl - sv rfl
    exact hcalls sv (by simp)

end Calls

/-- **One operation** whose values match their keys, by the calls it makes. -/
theorem allAllowed_step (hs : AllAllowed cfg s ∧ Indexed s) (hop : op.Matching cfg)
    (h : (discovery cfg).step s op = some s') : AllAllowed cfg s' ∧ Indexed s' := by
  rw [← run_calls] at h
  refine forall_byID_calls hs (fun sv hmem => ?_) h
  obtain ⟨key, -, hkept⟩ := exists_key_of_mem_calls hop hmem
  exact (keptKey_eq_some_iff.1 hkept).2

/-! ## Nothing else is held back -/

/-- What the loop over the loaded servers adds is among them. -/
theorem byID_of_foldlM_addServer {l : List (Option Server)} {mid : Servers}
    (h : l.foldlM (addServer cfg) s = .ok mid) (hsv : mid.byID.get? id = some sv) :
    s.byID.get? id = some sv ∨ some sv ∈ l ∧ sv.id = id := by
  refine Outcome.foldlM_invariant (I := fun b : Servers => ∀ id sv, b.byID.get? id = some sv →
    s.byID.get? id = some sv ∨ some sv ∈ l ∧ sv.id = id) ?_ (fun _ _ => Or.inl) h id sv hsv
  rintro b (_ | sv') b' hmem hb hadd id sv hsv
  · cases hadd
  · obtain ⟨b₁, hadd', hbyID, -⟩ := addServer_some cfg b sv'
    obtain rfl := Outcome.ok.inj (hadd'.symm.trans hadd)
    rw [hbyID, Option.or_eq_some_iff] at hsv
    rcases hsv with hold | ⟨-, hnew⟩
    · exact hb id sv hold
    · obtain ⟨hid, hsv⟩ := Option.ite_none_right_eq_some.1 hnew
      obtain rfl := Option.some.inj hsv
      exact Or.inr ⟨hmem, hid.symm⟩

/-- The watcher adds a server it can read, if the type of the key is not
blacklisted and the id is free. -/
theorem handleEvent_put_new (hkey : parseEtcdKey key = .ok (sv.type, sv.id))
    (hparse : cfg.parseServer value = .ok (some sv)) (hallowed : Allowed cfg sv)
    (hfree : s.byID.get? sv.id = none) :
    ∃ s', handleEvent cfg s (.put key value) = .ok s' ∧ s'.byID.get? sv.id = some sv ∧
      s'.lookup sv.type sv.id = some sv := by
  obtain ⟨s', hadd, hbyID, hbyType⟩ := @addServer_new cfg s sv hfree
  refine ⟨s', ?_, by rw [hbyID, GoMap.get?_set_self], ?_⟩
  · simp only [handleEvent, keptKey_eq_some_iff.2 ⟨hkey, hallowed⟩, hparse, hadd]
  · rw [Servers.lookup, hbyType, lookup_insertByType, if_pos ⟨rfl, rfl⟩]

/-- A sync that returns has the id of every server it could load; the
record is the one that was loaded, if no other key has the id. -/
theorem syncServers_new (hs : Indexed s) (hop : (Op.syncServers env firstSync).Matching cfg)
    (hlisting : env.listing = .ok kvs) (hmem : (key, payload) ∈ kvs)
    (hkey : parseEtcdKey key = .ok (sv.type, sv.id)) (hallowed : Allowed cfg sv)
    (hload : load cfg env sv.type sv.id (if firstSync then payload else []) = .ok (some sv))
    (hfree : s.byID.get? sv.id = none) (h : syncServers cfg env firstSync s = .ok s') :
    (s'.byID.get? sv.id).isSome ∧
      ((∀ key' payload' t, (key', payload') ∈ kvs → parseEtcdKey key' = .ok (t, sv.id) →
        (key', payload') = (key, payload)) →
      s'.byID.get? sv.id = some sv ∧ s'.lookup sv.type sv.id = some sv) := by
  have hindexed := indexed_syncServers hs h
  have hkept := keptKey_eq_some_iff.2 ⟨hkey, hallowed⟩
  obtain ⟨mid, hmid, rfl⟩ := (syncServers_eq_ok_iff hlisting).1 h
  have hloaded : some sv ∈ loads cfg env firstSync s kvs :=
    mem_loads_iff.2 ⟨key, payload, sv.type, sv.id, hmem, hkept, hfree, hload⟩
  have hlisted : sv.id ∈ listedIds cfg kvs :=
    List.mem_filterMap.2 ⟨(key, payload), hmem, by rw [hkept]; rfl⟩
  -- the clean-up keeps what is listed
  have hkeep : ((deleteLocalInvalidServers mid (listedIds cfg kvs)
      (env.range mid.byID)).byID.get? sv.id) = mid.byID.get? sv.id := by
    rw [byID_cleanUp (indexed_of_loads hmid hs) (env.range_ranges _), if_pos hlisted]
  have hknown : (mid.byID.get? sv.id).isSome :=
    (isSome_byID_of_loads hmid).2 (Or.inr ⟨sv, hloaded, rfl⟩)
  refine ⟨by rw [hkeep]; exact hknown, fun hunique => ?_⟩
  obtain ⟨sv', hsv'⟩ := Option.isSome_iff_exists.1 hknown
  have hsame : sv' = sv := by
    rcases byID_of_foldlM_addServer hmid hsv' with hold | ⟨hin, hid⟩
    · rw [hfree] at hold
      cases hold
    · rw [(env.collect_perm _).mem_iff, mem_loads_iff] at hin
      obtain ⟨key', payload', t, id, hmem', hkept', -, hload'⟩ := hin
      have hkey' := (keptKey_eq_some_iff.1 hkept').1
      obtain ⟨rfl, rfl⟩ := matching_of_load hop hlisting hmem' hkey' hload'
      rw [hid] at hkey' hload'
      obtain ⟨rfl, rfl⟩ := Prod.mk.inj (hunique key' payload' _ hmem' hkey')
      rw [hkey] at hkey'
      rw [← (Prod.mk.inj (Except.ok.inj hkey')).1, hload] at hload'
      exact (Option.some.inj (Except.ok.inj hload')).symm
  subst hsame
  have hbyID := hkeep.trans hsv'
  exact ⟨hbyID, (hindexed.lookup_iff _ _ _).2 ⟨hbyID, rfl⟩⟩

/-! ## Runs -/

/-- **The blacklist over a run** of syncs and watch responses whose values
match their keys: every server in either map is of a type that is not
blacklisted or has this node's own id. And from wherever the run has got to,
a readable server of a type that is not blacklisted, put under its key with
an id that is free, is added by the watcher, and by a sync that lists it. -/
theorem blacklist_run (cfg : Config) (ops : List Op) (s : Servers)
    (hops : ∀ op ∈ ops, op.Matching cfg) (hrun : (discovery cfg).run .init ops = some s) :
    (∀ id sv, s.byID.get? id = some sv →
      sv.type ∉ cfg.serverTypesBlacklist ∨ sv.id = cfg.self) ∧
    (∀ t m id sv, s.byType.get? t = some m → m.get? id = some sv →
      sv.type ∉ cfg.serverTypesBlacklist ∨ sv.id = cfg.self) ∧
    ∀ key value sv, parseEtcdKey key = .ok (sv.type, sv.id) →
      cfg.parseServer value = .ok (some sv) → sv.type ∉ cfg.serverTypesBlacklist →
      s.byID.get? sv.id = none →
      (∃ s', handleEvent cfg s (.put key value) = .ok s' ∧ s'.byID.get? sv.id = some sv ∧
        s'.lookup sv.type sv.id = some sv) ∧
      ∀ env firstSync kvs payload s', (Op.syncServers env firstSync).Matching cfg →
        env.listing = .ok kvs → (key, payload) ∈ kvs →
        load cfg env sv.type sv.id (if firstSync then payload else []) = cfg.parseServer value →
        syncServers cfg env firstSync s = .ok s' →
        (s'.byID.get? sv.id).isSome ∧
          ((∀ key' payload' t, (key', payload') ∈ kvs → parseEtcdKey key' = .ok (t, sv.id) →
            (key', payload') = (key, payload)) →
          s'.byID.get? sv.id = some sv ∧ s'.lookup sv.type sv.id = some sv) := by
  obtain ⟨hallowed, hindexed⟩ : AllAllowed cfg s ∧ Indexed s := by
    refine Machine.run_invariant (I := fun s => AllAllowed cfg s ∧ Indexed s)
      (fun s op s' hs hop hstep => allAllowed_step hs hop.1 hstep) ⟨?_, indexed_init⟩
      ((Machine.meets_true _ ops).and_forall hops) hrun
    intro id sv hsv
    simp [Servers.init] at hsv
  refine ⟨hallowed, ?_, ?_⟩
  · intro t m id sv hm hsv
    have hlookup : s.lookup t id = some sv := by rw [Servers.lookup, hm, Option.bind_some, hsv]
    exact hallowed id sv ((hindexed.lookup_iff t id sv).1 hlookup).1
  · intro key value sv hkey hparse htype hfree
    refine ⟨handleEvent_put_new hkey hparse (Or.inl htype) hfree, ?_⟩
    intro env firstSync kvs payload s' hop hlisting hmem hload hsync
    exact syncServers_new hindexed hop hlisting hmem hkey (Or.inl htype) (hload.trans hparse)
      hfree hsync

/-- A chat server. -/
def chatServer (id : GoString) : Server := ⟨id, lit "chat", .empty, []⟩

/-- Its record. -/
def chatRecord (id : GoString) : List UInt8 :=
  lit "\x7b\"id\":\"" ++ id ++ lit "\",\"type\":\"chat\"\x7d"

/-- A node that has no use for chat servers. -/
def chatlessNode : Config :=
  { roomNode with
    serverTypesBlacklist := [lit "chat"]
    parseServer := fun value =>
      if value = chatRecord (lit "c1") then .ok (some (chatServer (lit "c1")))
      else if value = chatRecord (lit "s1") then .ok (some (chatServer (lit "s1")))
      else roomNode.parseServer value }

/-- A room server is added while a chat server is passed over. -/
theorem blacklist_run_room :
    ∃ s, (discovery chatlessNode).run .init
        [.watch [.put (getKey (lit "c1") (lit "chat")) (chatRecord (lit "c1"))]] = some s ∧
      s.byID.get? (lit "c1") = none ∧ s.byID.get? (lit "s1") = none ∧
      ∃ s', handleEvent chatlessNode s
          (.put (getKey (lit "s1") (lit "room")) (roomRecord (lit "a"))) = .ok s' ∧
        s'.byID.get? (lit "s1") = some (roomOn (lit "a")) := by
  refine ⟨.init, rfl, rfl, rfl, ?_⟩
  have hops : ∀ op ∈ [Op.watch [.put (getKey (lit "c1") (lit "chat")) (chatRecord (lit "c1"))]],
      op.Matching chatlessNode := by
    intro op hop
    rw [List.mem_singleton] at hop
    subst hop
    intro key value hput t id sv hkey hparse
    obtain ⟨rfl, rfl⟩ : key = getKey (lit "c1") (lit "chat") ∧ value = chatRecord (lit "c1") := by
      simpa using hput
    have hread : chatlessNode.parseServer (chatRecord (lit "c1")) =
        .ok (some (chatServer (lit "c1"))) := by decide
    have hparts : parseEtcdKey (getKey (lit "c1") (lit "chat")) =
        .ok (lit "chat", lit "c1") := by decide
    obtain rfl : chatServer (lit "c1") = sv := by simpa [hread] using hparse
    obtain ⟨rfl, rfl⟩ : lit "chat" = t ∧ lit "c1" = id := by simpa [hparts] using hkey
    exact ⟨rfl, rfl⟩
  obtain ⟨-, -, hadded⟩ := blacklist_run chatlessNode _ .init hops rfl
  obtain ⟨s', h, hbyID, -⟩ := (hadded (getKey (lit "s1") (lit "room")) (roomRecord (lit "a"))
    (roomOn (lit "a")) (by decide) (by decide) (by decide) rfl).1
  exact ⟨s', h, hbyID⟩

/-- **A value is added under the type it names itself**: the watch puts the
record of a chat server under the key of a room, and it is among the
servers from then on. -/
theorem mismatched_put_enters :
    ∃ s sv, (discovery chatlessNode).run .init
        [.watch [.put (getKey (lit "s1") (lit "room")) (chatRecord (lit "s1"))]] = some s ∧
      s.byID.get? (lit "s1") = some sv ∧ sv.type ∈ chatlessNode.serverTypesBlacklist ∧
      sv.id ≠ chatlessNode.self :=
  ⟨_, chatServer (lit "s1"), rfl, by decide, by decide, by decide⟩

end Discovery

end Nrpc
