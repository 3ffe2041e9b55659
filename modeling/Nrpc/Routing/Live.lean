import Nrpc.Discovery.Converge
import Nrpc.Routing.Target
/-!
# Calls go where servers are registered

A call is sent to a server in the view of its node, and the view follows
what is registered in etcd. So at any time a call goes to a server that was
registered once; and when the node has caught up, to one that is registered
now. Then nothing that is registered is out of reach either: a call fails
for want of a server exactly if there is none of the type, or none of the id
(`calls_follow_registrations`). The type of the route plays no part in a
call to an id. Nobody writes to etcd between the queries of one sync.
-/

namespace Nrpc

namespace Routing

open Discovery Service Errors Watch

variable {C T M : Type}

/-! ## The property -/

/-- **A server is registered now**, under its type and id, and admitted by
the node. -/
def Live (cfg : Config) (kv : Contents) (t id : GoString) : Prop :=
  keptKey cfg (getKey id t) = some (t, id) ∧ ∃ value, Listed kv (getKey id t) value

/-- A call from an application with the view of a node. -/
structure Sending (C T M : Type) where
  app : App C
  proto : Proto T M
  ch : Chance
  ctx : C
  serverID : GoString
  routeStr : GoString
  mt : UInt8
  reply : Option (Ty T)
  arg : Option M

namespace Sending

variable (x : Sending C T M)

/-- What becomes of it. -/
def result : Outcome Err (ClientCall C) :=
  doSendRPC x.app x.proto x.ch x.ctx x.serverID x.routeStr x.mt x.reply x.arg

/-- The application has a view, and no routing function for the type of the
route. -/
structure Uses (s : Servers) : Prop where
  router : x.app.remoteService.router.serviceDiscovery = some s
  service : x.app.remoteService.serviceDiscovery = some s
  default : ∀ r, decodeRoute x.routeStr = .ok r →
    x.app.remoteService.router.routesMap.get? r.svType = none

/-- The call passes every check that does not depend on the view, with the
route `r`. -/
structure Proper (r : Route) : Prop where
  rpcServer : x.app.rpcServer = true
  reply : x.mt = Messages.request → (x.reply.map Ty.ptr).getD false = true
  route : decodeRoute x.routeStr = .ok r
  svType : r.svType ≠ []
  data : ∃ data, argData x.proto x.arg = .ok data
  sense : ¬ ((r.svType = x.app.server.type ∧ x.serverID = []) ∨ x.serverID = x.app.server.id)

/-- **The server the call is for**: of the type of the route, or of the id,
and not the caller. -/
structure AimedAt (sv : Discovery.Server) : Prop where
  byType : x.serverID = [] → ∃ r, decodeRoute x.routeStr = .ok r ∧ sv.type = r.svType
  byID : x.serverID ≠ [] → sv.id = x.serverID
  other : sv.id ≠ x.app.server.id

end Sending

/-- Nobody is registered with an id of the caller's under another type. -/
def OneType (cfg : Config) (hist : List Write) (own : Discovery.Server) : Prop :=
  ∀ key value sv, .put key value ∈ hist → cfg.parseServer value = .ok (some sv) →
    sv.id = own.id → sv.type = own.type

/-! ## What is in the view -/

variable {cfg : Config} {hist : List Write} {kv : Contents} {s : Servers} {x : Sending C T M}
variable {r : Route} {t id : GoString}

/-- **What is in the view of a node that has caught up is what is
registered.** -/
theorem lookup_iff_live (hreg : Registrations cfg hist) (hs : Filed cfg hist s)
    (hkv : Watch.Registered hist kv) (hcaught : ∀ id, Known s id ↔ Admitted cfg kv id) :
    (∃ sv, s.lookup t id = some sv) ↔ Live cfg kv t id := by
  constructor
  · rintro ⟨sv, hlookup⟩
    obtain ⟨hget, rfl⟩ := (hs.indexed.lookup_iff t id sv).1 hlookup
    obtain ⟨hkept, value, hput, -⟩ := hs.entered id sv hget
    obtain ⟨key, value', t', hlisted, hkept'⟩ := (hcaught id).1 (by rw [Known, hget]; rfl)
    obtain rfl := hreg.key_unique (hkv key value' hlisted) hput hkept' hkept
    exact ⟨hkept, value', hlisted⟩
  · rintro ⟨hkept, value, hlisted⟩
    obtain ⟨sv, hget⟩ := Option.isSome_iff_exists.1
      ((hcaught id).2 ⟨_, value, t, hlisted, hkept⟩)
    obtain ⟨hkept', value', hput, -⟩ := hs.entered id sv hget
    have hkey := hreg.key_unique hput (hkv _ value hlisted) hkept' hkept
    rw [hkey, hkept] at hkept'
    refine ⟨sv, (hs.indexed.lookup_iff t id sv).2 ⟨hget, ?_⟩⟩
    exact (Prod.mk.inj (Option.some.inj hkept')).1.symm

theorem byID_iff_live (hreg : Registrations cfg hist) (hs : Filed cfg hist s)
    (hkv : Watch.Registered hist kv) (hcaught : ∀ id, Known s id ↔ Admitted cfg kv id) :
    (∃ sv, s.byID.get? id = some sv) ↔ ∃ t, Live cfg kv t id := by
  constructor
  · rintro ⟨sv, hget⟩
    exact ⟨sv.type, (lookup_iff_live hreg hs hkv hcaught).1
      ⟨sv, (hs.indexed.lookup_iff _ _ _).2 ⟨hget, rfl⟩⟩⟩
  · rintro ⟨t, hlive⟩
    obtain ⟨sv, hlookup⟩ := (lookup_iff_live hreg hs hkv hcaught).2 hlive
    exact ⟨sv, ((hs.indexed.lookup_iff _ _ _).1 hlookup).1⟩

/-- `GetServersByType` fails for want of a server. -/
theorem getServersByType_eq_error {e : GoString} (h : getServersByType s t = .error e) :
    e = lit "no servers available of this type" ∧ ∀ id, s.lookup t id = none := by
  constructor
  · unfold getServersByType at h
    split at h
    · split at h
      · cases h
      · exact (Except.error.inj h).symm
    · exact (Except.error.inj h).symm
  · intro id
    by_contra hsome
    obtain ⟨sv, hlookup⟩ := Option.ne_none_iff_exists'.1 hsome
    obtain ⟨m, hm, hsv⟩ := Option.bind_eq_some_iff.1 hlookup
    rw [getServersByType_eq_ok_iff.2 ⟨hm, id, sv, hsv⟩] at h
    cases h

/-! ## What becomes of a call -/

namespace Sending

/-- A call is refused, or passes the checks. -/
theorem refused_or_proper (x : Sending C T M) :
    (∃ e, x.result = .err e) ∨ ∃ r, x.Proper r := by
  unfold result doSendRPC
  split
  · exact Or.inl ⟨_, rfl⟩
  · rename_i hserver
    split
    · exact Or.inl ⟨_, rfl⟩
    · rename_i hreply
      cases hroute : decodeRoute x.routeStr with
      | error e => exact Or.inl ⟨_, rfl⟩
      | ok r =>
        dsimp only
        split
        · exact Or.inl ⟨_, rfl⟩
        · rename_i htype
          split
          · exact Or.inl ⟨_, rfl⟩
          · rename_i hsense
            cases hdata : argData x.proto x.arg with
            | error e => exact Or.inl ⟨.plain e, by simp only [remoteRPC, hdata]⟩
            | ok data =>
              refine Or.inr ⟨r, by simpa using hserver, ?_, hroute, htype, ⟨data, hdata⟩, hsense⟩
              intro hmt
              by_contra hptr
              exact hreply ⟨hmt, hptr⟩

/-- Behind the checks there is `DoRPC`. -/
theorem Proper.result_eq (h : x.Proper r) :
    ∃ data, x.result = doRPC x.app.remoteService x.ch x.ctx x.serverID x.mt r data := by
  obtain ⟨data, hdata⟩ := h.data
  refine ⟨data, ?_⟩
  have hreply : ¬ (x.mt = Messages.request ∧ ¬ (x.reply.map Ty.ptr).getD false = true) := by
    rintro ⟨hmt, hptr⟩
    exact hptr (h.reply hmt)
  simp only [result, doSendRPC, h.rpcServer, not_true_eq_false, if_false, hreply, h.route, h.svType,
    h.sense, remoteRPC, hdata]

/-- What a call to a type without servers is answered with. -/
def noServers : Err :=
  .nrpc (newError (.plain (lit "no servers available of this type")) Server.errInternalCode none)

/-- **A call to a type** is sent to a server of the view, if it has one. -/
theorem Proper.byType (h : x.Proper r) (huses : x.Uses s) (hid : x.serverID = []) :
    (x.result = .err noServers ∧ ∀ id, s.lookup r.svType id = none) ∨
      ∃ call id sv, x.result = .ok call ∧ call.target = some sv ∧
        s.lookup r.svType id = some sv := by
  obtain ⟨data, hresult⟩ := h.result_eq
  rw [hresult, doRPC, if_pos hid]
  simp only [remoteCall, Router.route, huses.router, huses.default r h.route]
  cases hservers : getServersByType s r.svType with
  | error e =>
    obtain ⟨rfl, hnone⟩ := getServersByType_eq_error hservers
    exact Or.inl ⟨rfl, hnone⟩
  | ok servers =>
    obtain ⟨hbyType, hsome⟩ := getServersByType_eq_ok_iff.1 hservers
    obtain ⟨id, sv, hroute, hsv⟩ := @defaultRoute_spec x.ch servers hsome
    refine Or.inr ⟨⟨x.ctx, r, ⟨x.mt, 0, r.short, data, false, false⟩, some sv⟩, id, sv, ?_, rfl, ?_⟩
    · simp [hroute]
    · rw [Servers.lookup, hbyType, Option.bind_some, hsv]

/-- **A call to an id** is sent to the server of the view with the id. -/
theorem Proper.byID (h : x.Proper r) (huses : x.Uses s) (hid : x.serverID ≠ []) :
    (x.result = .err errServerNotFound ∧ s.byID.get? x.serverID = none) ∨
      ∃ call sv, x.result = .ok call ∧ call.target = some sv ∧
        s.byID.get? x.serverID = some sv := by
  obtain ⟨data, hresult⟩ := h.result_eq
  rw [hresult, doRPC, if_neg hid]
  simp only [huses.service]
  cases hget : s.byID.get? x.serverID with
  | none => exact Or.inl ⟨rfl, rfl⟩
  | some sv => exact Or.inr ⟨_, sv, rfl, rfl, rfl⟩

end Sending

/-! ## The result -/

/-- **A call that is sent is sent to a server of the view**, the one it is
for. -/
theorem target_of_result (hs : Filed cfg hist s) (huses : x.Uses s)
    (hown : OneType cfg hist x.app.server) :
    (∃ e, x.result = .err e) ∨ ∃ call sv, x.result = .ok call ∧ call.target = some sv ∧
      x.AimedAt sv ∧ s.byID.get? sv.id = some sv := by
  rcases x.refused_or_proper with hrefused | ⟨r, hr⟩
  · exact Or.inl hrefused
  · obtain ⟨hself, hsame⟩ := not_or.1 hr.sense
    by_cases hid : x.serverID = []
    · rcases hr.byType huses hid with ⟨herr, -⟩ | ⟨call, id, sv, hcall, htarget, hlookup⟩
      · exact Or.inl ⟨_, herr⟩
      · obtain ⟨hget, htype⟩ := (hs.indexed.lookup_iff _ _ _).1 hlookup
        obtain rfl := hs.indexed.id_eq _ _ hget
        obtain ⟨-, value, hput, hparse⟩ := hs.entered _ _ hget
        refine Or.inr ⟨call, sv, hcall, htarget, ⟨fun _ => ⟨r, hr.route, htype⟩, ?_, ?_⟩, hget⟩
        · exact fun hne => absurd hid hne
        · intro hsv
          exact hself ⟨by rw [← htype, hown _ _ _ hput hparse hsv], hid⟩
    · rcases hr.byID huses hid with ⟨herr, -⟩ | ⟨call, sv, hcall, htarget, hget⟩
      · exact Or.inl ⟨_, herr⟩
      · have hsv := hs.indexed.id_eq _ _ hget
        refine Or.inr ⟨call, sv, hcall, htarget, ⟨?_, fun _ => hsv, ?_⟩, by rwa [hsv]⟩
        · exact fun hnil => absurd hnil hid
        · rw [hsv]
          exact hsame

/-- **A node that has caught up sends a call exactly if there is a server
for it.** -/
theorem sent_iff_live (hreg : Registrations cfg hist) (hs : Filed cfg hist s)
    (hkv : Watch.Registered hist kv) (hcaught : ∀ id, Known s id ↔ Admitted cfg kv id)
    (huses : x.Uses s) (hr : x.Proper r) :
    (x.serverID = [] → (∃ id, Live cfg kv r.svType id) → ∃ call, x.result = .ok call) ∧
    (x.serverID = [] → (¬ ∃ id, Live cfg kv r.svType id) → x.result = .err Sending.noServers) ∧
    (x.serverID ≠ [] → (∃ t, Live cfg kv t x.serverID) → ∃ call, x.result = .ok call) ∧
    (x.serverID ≠ [] → (¬ ∃ t, Live cfg kv t x.serverID) →
      x.result = .err errServerNotFound) := by
  refine ⟨?_, ?_, ?_, ?_⟩
  · rintro hid ⟨id, hlive⟩
    obtain ⟨sv, hsv⟩ := (lookup_iff_live hreg hs hkv hcaught).2 hlive
    rcases hr.byType huses hid with ⟨-, hnone⟩ | ⟨call, -, -, hcall, -⟩
    · rw [hnone id] at hsv
      cases hsv
    · exact ⟨call, hcall⟩
  · intro hid hdead
    rcases hr.byType huses hid with ⟨herr, -⟩ | ⟨call, id, sv, -, -, hlookup⟩
    · exact herr
    · exact absurd ⟨id, (lookup_iff_live hreg hs hkv hcaught).1 ⟨sv, hlookup⟩⟩ hdead
  · intro hid hlive
    obtain ⟨sv, hsv⟩ := (byID_iff_live hreg hs hkv hcaught).2 hlive
    rcases hr.byID huses hid with ⟨-, hnone⟩ | ⟨call, -, hcall, -⟩
    · rw [hnone] at hsv
      cases hsv
    · exact ⟨call, hcall⟩
  · intro hid hdead
    rcases hr.byID huses hid with ⟨herr, -⟩ | ⟨call, sv, -, -, hget⟩
    · exact herr
    · exact absurd ((byID_iff_live hreg hs hkv hcaught).1 ⟨sv, hget⟩) hdead

/-- **Calls go where servers are registered.** In every run of a node, its
watch and its syncs, for every application that has its view, no routing
function for the type of the route, and an id of its own:

* no call panics for the view, and a call that is sent goes to a server of
  the route's type, or of the id it names, that was registered under its type
  and id at some time, and not to the caller;
* behind a sync that was answered while the watch lives and has nothing to
  deliver, it goes to a server that is registered now, and a call that passes
  the checks of `doSendRPC` and `RPC` is sent if there is a server of the type
  or the id. If there is none it fails with the error for that. -/
theorem calls_follow_registrations (cfg : Config) (hist : List Write) (kv : Contents)
    (as : List Watch.Action) (n : Watch.State) (hreg : Registrations cfg hist)
    (hkv : Watch.Registered hist kv)
    (hmeets : (Watch.machine cfg).Meets (Fair hist) (.init kv) as)
    (hrun : (Watch.machine cfg).run (.init kv) as = some n) (x : Sending C T M)
    (huses : x.Uses n.servers) (hown : OneType cfg hist x.app.server) :
    ((∃ e, x.result = .err e) ∨ ∃ call sv, x.result = .ok call ∧ call.target = some sv ∧
      x.AimedAt sv ∧ Entered cfg hist sv.id sv) ∧
    ∀ pre env firstSync post mid, as = pre ++ .sync env firstSync :: post →
      (Watch.machine cfg).run (.init kv) pre = some mid → mid.chn.isSome →
      SyncEnv.Answers env firstSync mid.kv → .died ∉ post → n.chn = some [] →
      (∀ call sv, x.result = .ok call → call.target = some sv → Live cfg n.kv sv.type sv.id) ∧
      ∀ r, x.Proper r →
        (x.serverID = [] → (∃ id, Live cfg n.kv r.svType id) → ∃ call, x.result = .ok call) ∧
        (x.serverID = [] → (¬ ∃ id, Live cfg n.kv r.svType id) →
          x.result = .err Sending.noServers) ∧
        (x.serverID ≠ [] → (∃ t, Live cfg n.kv t x.serverID) → ∃ call, x.result = .ok call) ∧
        (x.serverID ≠ [] → (¬ ∃ t, Live cfg n.kv t x.serverID) →
          x.result = .err errServerNotFound) := by
  have hn : Sound cfg hist n := sound_run hreg (sound_init hkv) hmeets hrun
  have htarget := target_of_result hn.filed huses hown
  refine ⟨?_, ?_⟩
  · rcases htarget with hrefused | ⟨call, sv, hcall, hsv, haimed, hget⟩
    · exact Or.inl hrefused
    · exact Or.inr ⟨call, sv, hcall, hsv, haimed, hn.filed.entered _ _ hget⟩
  · rintro pre env firstSync post mid rfl hpre hlives hanswers hpost hchn
    have hcaught := known_iff_of_sync hreg hkv hmeets hrun hpre hlives hanswers hpost hchn
    refine ⟨?_, fun r hr => sent_iff_live hreg hn.filed hn.registered hcaught huses hr⟩
    intro call sv hcall hsv
    rcases htarget with ⟨e, herr⟩ | ⟨call', sv', hcall', hsv', -, hget⟩
    · rw [herr] at hcall
      cases hcall
    · rw [hcall'] at hcall
      obtain rfl := Outcome.ok.inj hcall
      obtain rfl : sv' = sv := Option.some.inj (hsv'.symm.trans hsv)
      exact (lookup_iff_live hreg hn.filed hn.registered hcaught).1
        ⟨sv', (hn.filed.indexed.lookup_iff _ _ _).2 ⟨hget, rfl⟩⟩

/-! ### A node that has synced with one room server -/

/-- A call from the connector to a room, by its type or by an id. -/
noncomputable def joinSending (s : Servers) (serverID : GoString) :
    Sending Unit Unit SomeStruct where
  app := connector s
  proto := structProto
  ch := firstOf
  ctx := ()
  serverID := serverID
  routeStr := lit "room.lobby.join"
  mt := Messages.request
  reply := some ⟨(), .ptr, false, true, false⟩
  arg := none

theorem uses_joinSending (s : Servers) (serverID : GoString) :
    (joinSending s serverID).Uses s where
  router := rfl
  service := rfl
  default := fun _ _ => rfl

theorem proper_joinSending (s : Servers) {serverID : GoString}
    (hid : serverID ≠ lit "connector-1") :
    (joinSending s serverID).Proper ⟨lit "room", lit "lobby", lit "join"⟩ where
  rpcServer := rfl
  reply := fun _ => rfl
  route := by
    show decodeRoute (lit "room.lobby.join") = _
    decide +kernel
  svType := by decide
  data := ⟨[], rfl⟩
  sense := by
    rintro (⟨htype, -⟩ | hown)
    · have hne : lit "room" ≠ lit "connector" := by decide
      exact hne htype
    · exact hid hown

theorem live_room : Live roomNode (GoMap.empty.set (getKey (lit "s1") (lit "room"))
    (roomRecord (lit "a"))) (lit "room") (lit "s1") :=
  ⟨by decide, _, listed_room (lit "a")⟩

theorem not_live_other {t : GoString} : ¬ Live roomNode (GoMap.empty.set
    (getKey (lit "s1") (lit "room")) (roomRecord (lit "a"))) t (lit "s2") := by
  rintro ⟨hkept, value, hlisted⟩
  obtain ⟨hkey, -⟩ := listed_single hlisted
  have hroom : keptKey roomNode (getKey (lit "s1") (lit "room")) =
      some (lit "room", lit "s1") := by decide
  rw [hkey, hroom] at hkept
  exact absurd (Prod.mk.inj (Option.some.inj hkept)).2 (by decide)

/-- Calls to the type and to the id of the room server are sent to it, and a
call to another id is refused. -/
theorem calls_follow_registrations_room :
    let room := getKey (lit "s1") (lit "room")
    let kv := GoMap.empty.set room (roomRecord (lit "a"))
    ∃ n, (Watch.machine roomNode).run (.init kv)
        [.sync (oneKey room (roomRecord (lit "a"))) true] = some n ∧
      (∃ call, (connector n.servers).rpc structProto firstOf () (lit "room.lobby.join")
        (some ⟨(), .ptr, false, true, false⟩) none = .ok call) ∧
      (∃ call, (connector n.servers).rpcTo structProto firstOf () (lit "s1")
        (lit "room.lobby.join") (some ⟨(), .ptr, false, true, false⟩) none = .ok call) ∧
      (connector n.servers).rpcTo structProto firstOf () (lit "s2") (lit "room.lobby.join")
        (some ⟨(), .ptr, false, true, false⟩) none = .err errServerNotFound := by
  intro room kv
  let hist : List Write := [.put room (roomRecord (lit "a"))]
  have hreg : Registrations roomNode hist := by
    refine registrations_room ?_
    intro k v hput
    exact Or.inl (by simpa [hist] using hput)
  have hkv : Watch.Registered hist kv := by
    intro key value hlisted
    obtain ⟨rfl, rfl⟩ := listed_single hlisted
    exact List.mem_cons_self
  have hanswers : (oneKey room (roomRecord (lit "a"))).Answers true kv := answers_room
  obtain ⟨n, hstep, hmoves⟩ := exists_sync hreg (sound_init hkv) (replies_of_answers hanswers)
  have hchn : n.kv = kv ∧ n.chn = some [] := by cases hmoves <;> exact ⟨rfl, rfl⟩
  have hrun : (Watch.machine roomNode).run (.init kv)
      [.sync (oneKey room (roomRecord (lit "a"))) true] = some n :=
    Machine.run_cons_eq_some_iff.2 ⟨n, hstep, rfl⟩
  have hown : OneType roomNode hist (connector n.servers).server := by
    intro key value sv hput hparse hid
    obtain ⟨-, rfl⟩ : key = room ∧ value = roomRecord (lit "a") := by simpa [hist] using hput
    have hroom : roomNode.parseServer (roomRecord (lit "a")) = .ok (some (roomOn (lit "a"))) := by
      decide
    rw [hroom] at hparse
    obtain rfl := Option.some.inj (Except.ok.inj hparse)
    have hne : lit "s1" ≠ lit "connector-1" := by decide
    exact absurd hid hne
  have hmeets : (Watch.machine roomNode).Meets (Fair hist) (.init kv)
      [.sync (oneKey room (roomRecord (lit "a"))) true] :=
    ⟨replies_of_answers hanswers, fun _ _ => trivial⟩
  have hsent (serverID : GoString) (hid : serverID ≠ lit "connector-1") :=
    ((calls_follow_registrations roomNode hist kv _ n hreg hkv hmeets hrun
      (joinSending n.servers serverID) (uses_joinSending _ _) hown).2 [] _ true [] (.init kv) rfl
      rfl rfl hanswers (by simp) hchn.2).2 _ (proper_joinSending _ hid)
  have hnil : lit "s1" ≠ [] ∧ lit "s2" ≠ [] := by decide
  rw [hchn.1] at hsent
  refine ⟨n, hrun, ?_, ?_, ?_⟩
  · exact (hsent [] (by decide)).1 rfl ⟨_, live_room⟩
  · exact (hsent (lit "s1") (by decide)).2.2.1 hnil.1 ⟨_, live_room⟩
  · exact (hsent (lit "s2") (by decide)).2.2.2 hnil.2 fun h => not_live_other h.choose_spec

end Routing

end Nrpc
