import Nrpc.Discovery.Blacklist
import Nrpc.Routing.Model.Router
import Nrpc.Service.Transparent
/-!
# The server a call is sent to

`GetServersByType` returns a map with a server in it or an error, so
`defaultRoute` has something to choose from. What it chooses is in the map
by type, and the two maps agree, so it is in the map by id with the type of
the route. A call to the caller's own type is refused, and an id is
registered under one type only, so it is never the caller
(`default_target`).
-/

namespace Nrpc

namespace Routing

open Discovery Service Errors

variable {C T M : Type} {s : Servers} {ch : Chance} {ctx : C} {app : App C}

/-! ## The router's choice -/

/-- **`defaultRoute` chooses one of the servers**, where there is one. -/
theorem defaultRoute_spec {servers : GoMap GoString Discovery.Server}
    (hsome : ∃ id sv, servers.get? id = some sv) :
    ∃ id sv, defaultRoute ch servers = .ok sv ∧ servers.get? id = some sv := by
  obtain ⟨id, sv, hsv⟩ := hsome
  have hmem : sv ∈ (ch.range servers).filterMap servers.get? :=
    List.mem_filterMap.2 ⟨id, ((ch.range_ranges servers).2 id).2 (by rw [hsv]; rfl), hsv⟩
  have hpos : 0 < ((ch.range servers).filterMap servers.get?).length := List.length_pos_of_mem hmem
  have hlt := ch.intn_lt _ hpos
  obtain ⟨id', -, hid'⟩ := List.mem_filterMap.1 (List.getElem_mem hlt)
  refine ⟨id', _, ?_, hid'⟩
  simp only [defaultRoute, if_neg hpos.ne', Outcome.index, List.getElem?_eq_getElem hlt]

/-- The router without a function for the type: an error, or a server of
the map by type. -/
theorem route_default {r : Router C} {svType : GoString} {route : Route} {msg : Messages.Message}
    (hsd : r.serviceDiscovery = some s) (hdefault : r.routesMap.get? svType = none) :
    (∃ e, r.route ch ctx svType route msg = .err e) ∨
      ∃ id sv, r.route ch ctx svType route msg = .ok (ctx, some sv) ∧
        s.lookup svType id = some sv := by
  simp only [Router.route, hsd, hdefault]
  cases hservers : getServersByType s svType with
  | error e => exact Or.inl ⟨.plain e, rfl⟩
  | ok servers =>
    obtain ⟨hbyType, hsome⟩ := getServersByType_eq_ok_iff.1 hservers
    obtain ⟨id, sv, hroute, hsv⟩ := @defaultRoute_spec ch servers hsome
    refine Or.inr ⟨id, sv, by simp [hroute], ?_⟩
    rw [Servers.lookup, hbyType, Option.bind_some, hsv]

/-! ## The call -/

/-- What `doSendRPC` without a server id does: it fails, or it asks the
router for a type that is not its own. -/
theorem doSendRPC_cases {proto : Proto T M} {routeStr : GoString} {mt : UInt8}
    {reply : Option (Ty T)} {arg : Option M} :
    (∃ e, doSendRPC app proto ch ctx [] routeStr mt reply arg = .err e) ∨
      ∃ r msg, decodeRoute routeStr = .ok r ∧ r.svType ≠ app.server.type ∧
        doSendRPC app proto ch ctx [] routeStr mt reply arg =
          remoteCall app.remoteService ch ctx none r msg := by
  unfold doSendRPC
  split
  · exact Or.inl ⟨_, rfl⟩
  · split
    · exact Or.inl ⟨_, rfl⟩
    · split
      · exact Or.inl ⟨_, rfl⟩
      · rename_i r hr
        split
        · exact Or.inl ⟨_, rfl⟩
        · split
          · exact Or.inl ⟨_, rfl⟩
          · rename_i hother
            cases hdata : argData proto arg with
            | error e => exact Or.inl ⟨.plain e, by simp only [remoteRPC, hdata]⟩
            | ok data =>
              refine Or.inr ⟨r, ⟨mt, 0, r.short, data, false, false⟩, hr, ?_, ?_⟩
              · intro htype
                exact hother (Or.inl ⟨htype, rfl⟩)
              · simp only [remoteRPC, hdata, doRPC, if_true]

/-- **A call that reaches `rpcClient.Call` without a routing function** has
a server of the map by type for its target, of a type that is not the
caller's. It fails otherwise. -/
theorem doSendRPC_default (proto : Proto T M) (routeStr : GoString) (mt : UInt8)
    (reply : Option (Ty T)) (arg : Option M)
    (hsd : app.remoteService.router.serviceDiscovery = some s)
    (hdefault : ∀ r, decodeRoute routeStr = .ok r →
      app.remoteService.router.routesMap.get? r.svType = none) :
    (∃ e, doSendRPC app proto ch ctx [] routeStr mt reply arg = .err e) ∨
      ∃ call r id sv, doSendRPC app proto ch ctx [] routeStr mt reply arg = .ok call ∧
        decodeRoute routeStr = .ok r ∧ r.svType ≠ app.server.type ∧ call.target = some sv ∧
        s.lookup r.svType id = some sv := by
  rcases doSendRPC_cases with ⟨e, he⟩ | ⟨r, msg, hr, htype, hcall⟩
  · exact Or.inl ⟨e, he⟩
  · rw [hcall]
    have hrouted :=
      @route_default C s ch ctx app.remoteService.router r.svType r msg hsd (hdefault r hr)
    rcases hrouted with ⟨e, he⟩ | ⟨id, sv, hroute, hsv⟩
    · refine Or.inl ⟨.nrpc (newError e Server.errInternalCode none), ?_⟩
      simp only [remoteCall, he]
    · refine Or.inr ⟨⟨ctx, r, msg, some sv⟩, r, id, sv, ?_, hr, htype, rfl, hsv⟩
      simp only [remoteCall, hroute]

/-! ## Over runs -/

/-- What is registered, as types and ids: the caller's own server, and the
keys under which the operations are offered servers. -/
def Registered (ops : List Op) (own : Discovery.Server) (t id : GoString) : Prop :=
  t = own.type ∧ id = own.id ∨
    ∃ op ∈ ops, ∃ key, op.Offers key ∧ parseEtcdKey key = .ok (t, id)

/-- **A call is sent as it should be**: it fails, or its target is a server
of the map by id, of the route's type, and not the caller. -/
def WellSent (s : Servers) (own : Discovery.Server) (routeStr : GoString)
    (result : Outcome Err (ClientCall C)) : Prop :=
  (∃ e, result = .err e) ∨
    ∃ call r sv, result = .ok call ∧ decodeRoute routeStr = .ok r ∧ call.target = some sv ∧
      s.byID.get? sv.id = some sv ∧ sv.type = r.svType ∧ sv.id ≠ own.id

section Runs

variable {cfg : Config} {ops : List Op} {pre rest : List Call}

/-- Between any two calls of a run, the maps agree and every server in them
is registered. -/
theorem registered_of_trace {own : Discovery.Server} (hops : ∀ op ∈ ops, op.Matching cfg)
    (htrace : trace cfg ops = pre ++ rest) (hrun : (calling cfg).run .init pre = some s) :
    (∀ id sv, s.byID.get? id = some sv → Registered ops own sv.type sv.id) ∧ Indexed s := by
  refine forall_byID_calls ⟨fun id sv h => by simp [Servers.init] at h, indexed_init⟩ ?_ hrun
  intro sv hmem
  have hseen : Call.addServer (some sv) ∈ trace cfg ops := by
    rw [htrace]
    exact List.mem_append_left _ hmem
  obtain ⟨s', op, hop, hcall⟩ := Machine.mem_observe hseen
  obtain ⟨key, hkey, hkept⟩ := exists_key_of_mem_calls (hops op hop) hcall
  exact Or.inr ⟨op, hop, key, hkey, (keptKey_eq_some_iff.1 hkept).1⟩

/-- A registered server of another type than the caller's has another id. -/
theorem id_ne_of_registered {own sv : Discovery.Server}
    (hunique : ∀ t t' id, Registered ops own t id → Registered ops own t' id → t = t')
    (hsv : Registered ops own sv.type sv.id) (htype : sv.type ≠ own.type) : sv.id ≠ own.id := by
  intro hid
  have hown : Registered ops own own.type sv.id := Or.inl ⟨rfl, hid⟩
  exact htype (hunique _ _ _ hsv hown)

end Runs

/-- **Default routing picks a live server of the right type, and never the
caller.** Between any two calls that a run of operations makes of the maps,
whatever the route and the random choices: without a routing function for
the type, `RPC` and `Notify` return an error or are sent to a server in the
map by id, of the route's type and with another id than the caller's. They
do not panic, so `defaultRoute` never chooses among none. -/
theorem default_target (cfg : Config) (ops : List Op) (pre rest : List Call) (s : Servers)
    (app : App C) (proto : Proto T M) (ch : Chance) (ctx : C) (routeStr : GoString)
    (reply : Option (Ty T)) (arg : Option M)
    -- the registrations match their keys, and an id has one type
    (hops : ∀ op ∈ ops, op.Matching cfg)
    (hunique : ∀ t t' id, Registered ops app.server t id → Registered ops app.server t' id → t = t')
    (htrace : trace cfg ops = pre ++ rest) (hrun : (calling cfg).run .init pre = some s)
    (hsd : app.remoteService.router.serviceDiscovery = some s)
    (hdefault : ∀ r, decodeRoute routeStr = .ok r →
      app.remoteService.router.routesMap.get? r.svType = none) :
    WellSent s app.server routeStr (app.rpc proto ch ctx routeStr reply arg) ∧
      WellSent s app.server routeStr (app.notify proto ch ctx routeStr arg) := by
  obtain ⟨hregistered, hindexed⟩ :=
    @registered_of_trace s cfg ops pre rest app.server hops htrace hrun
  have hsend : ∀ mt reply, WellSent s app.server routeStr
      (doSendRPC app proto ch ctx [] routeStr mt reply arg) := by
    intro mt reply
    rcases doSendRPC_default proto routeStr mt reply arg hsd hdefault with
      ⟨e, he⟩ | ⟨call, r, id, sv, hcall, hr, htype, htarget, hlookup⟩
    · exact Or.inl ⟨e, he⟩
    · obtain ⟨hbyID, hsv⟩ := (hindexed.lookup_iff _ _ _).1 hlookup
      have hid := hindexed.id_eq _ _ hbyID
      refine Or.inr ⟨call, r, sv, hcall, hr, htarget, by rwa [hid], hsv, ?_⟩
      exact id_ne_of_registered hunique (hregistered _ _ hbyID) (by rwa [hsv])
  exact ⟨hsend Messages.request reply, hsend Messages.notify none⟩

/-- **While a server is being removed.** `deleteServer` takes it out of the
map by id first. A call in between is sent to a server of the route's type,
in the map by id or the one that is being removed. -/
theorem target_while_deleting (hindexed : Indexed s) (serverID : GoString) (proto : Proto T M)
    (routeStr : GoString) (mt : UInt8) (reply : Option (Ty T)) (arg : Option M)
    (hsd : app.remoteService.router.serviceDiscovery =
      some { s with byID := s.byID.del serverID })
    (hdefault : ∀ r, decodeRoute routeStr = .ok r →
      app.remoteService.router.routesMap.get? r.svType = none) :
    (∃ e, doSendRPC app proto ch ctx [] routeStr mt reply arg = .err e) ∨
      ∃ call r sv, doSendRPC app proto ch ctx [] routeStr mt reply arg = .ok call ∧
        decodeRoute routeStr = .ok r ∧ call.target = some sv ∧ sv.type = r.svType ∧
        ((s.byID.del serverID).get? sv.id = some sv ∨ sv.id = serverID) := by
  rcases doSendRPC_default proto routeStr mt reply arg hsd hdefault with
    ⟨e, he⟩ | ⟨call, r, id, sv, hcall, hr, -, htarget, hlookup⟩
  · exact Or.inl ⟨e, he⟩
  · -- the map by type is still that of `s`
    obtain ⟨hbyID, hsv⟩ := (hindexed.lookup_iff r.svType id sv).1 hlookup
    have hid := hindexed.id_eq _ _ hbyID
    refine Or.inr ⟨call, r, sv, hcall, hr, htarget, hsv, ?_⟩
    by_cases hserver : sv.id = serverID
    · exact Or.inr hserver
    · rw [GoMap.get?_del_of_ne hserver, hid]
      exact Or.inl hbyID

/-! ## A call to a room -/

/-- The first server of some order. -/
noncomputable def firstOf : Chance where
  range := GoMap.Order.ofKeys.range
  range_ranges := GoMap.Order.ofKeys.ranges
  intn := fun _ => 0
  intn_lt := fun _ h => h

/-- A connector without routing functions. -/
def connector (s : Servers) : App Unit where
  rpcServer := true
  server := ⟨lit "connector-1", lit "connector", .empty, []⟩
  remoteService := ⟨some s, ⟨some s, .empty⟩⟩

/-- A watch response with the record of a room server. -/
def roomPut : Op := .watch [.put (getKey (lit "s1") (lit "room")) (roomRecord (lit "a"))]

theorem matching_roomPut : roomPut.Matching roomNode := by
  intro key value hput t id sv hkey hparse
  obtain ⟨rfl, rfl⟩ : key = getKey (lit "s1") (lit "room") ∧ value = roomRecord (lit "a") := by
    simpa using hput
  have hroom : roomNode.parseServer (roomRecord (lit "a")) = .ok (some (roomOn (lit "a"))) := by
    decide
  have hparts : parseEtcdKey (getKey (lit "s1") (lit "room")) = .ok (lit "room", lit "s1") := by
    decide
  rw [hroom] at hparse
  rw [hparts] at hkey
  cases hparse
  cases hkey
  exact ⟨rfl, rfl⟩

/-- The connector and the room server are all that is registered. -/
theorem registered_roomPut {t id : GoString} {s : Servers}
    (h : Registered [roomPut] (connector s).server t id) :
    t = lit "connector" ∧ id = lit "connector-1" ∨ t = lit "room" ∧ id = lit "s1" := by
  rcases h with h | ⟨op, hop, key, hkey, hparse⟩
  · exact Or.inl h
  · obtain rfl := List.mem_singleton.1 hop
    obtain ⟨value, hput⟩ := hkey
    obtain ⟨rfl, -⟩ : key = getKey (lit "s1") (lit "room") ∧ value = roomRecord (lit "a") := by
      simpa using hput
    have hparts : parseEtcdKey (getKey (lit "s1") (lit "room")) = .ok (lit "room", lit "s1") := by
      decide
    rw [hparts] at hparse
    cases hparse
    exact Or.inr ⟨rfl, rfl⟩

/-- A call to a room is sent, and to the room server. -/
theorem default_target_room :
    ∃ s call, (calling roomNode).run .init (trace roomNode [roomPut]) = some s ∧
      (connector s).rpc structProto firstOf () (lit "room.lobby.join")
        (some ⟨(), .ptr, false, true, false⟩) none = .ok call ∧
      WellSent s (connector s).server (lit "room.lobby.join") (.ok call) := by
  obtain ⟨s, hrun⟩ : ∃ s, (calling roomNode).run .init (trace roomNode [roomPut]) = some s :=
    ⟨_, rfl⟩
  have hlookup : s.lookup (lit "room") (lit "s1") = some (roomOn (lit "a")) := by
    obtain rfl := Option.some.inj hrun
    decide +kernel
  have hsent := (default_target roomNode [roomPut] (trace roomNode [roomPut]) [] s (connector s)
    structProto firstOf () (lit "room.lobby.join") (some ⟨(), .ptr, false, true, false⟩) none
    (fun op hop => by rw [List.mem_singleton.1 hop]; exact matching_roomPut) ?_
    (List.append_nil _).symm hrun rfl (fun _ _ => rfl)).1
  · -- the router finds the room server
    obtain ⟨m, hm, hsv⟩ := Option.bind_eq_some_iff.1 hlookup
    have hservers : getServersByType s (lit "room") = .ok m :=
      getServersByType_eq_ok_iff.2 ⟨hm, _, _, hsv⟩
    obtain ⟨-, sv, hroute, -⟩ := @defaultRoute_spec firstOf m ⟨_, _, hsv⟩
    have hdecode : decodeRoute (lit "room.lobby.join") =
        .ok ⟨lit "room", lit "lobby", lit "join"⟩ := by decide +kernel
    have htype : lit "room" ≠ [] ∧ lit "room" ≠ lit "connector" ∧ [] ≠ lit "connector-1" := by
      decide
    have hcall : (connector s).rpc structProto firstOf () (lit "room.lobby.join")
        (some ⟨(), .ptr, false, true, false⟩) none =
          .ok ⟨(), ⟨lit "room", lit "lobby", lit "join"⟩,
            ⟨Messages.request, 0, lit "lobby.join", [], false, false⟩, some sv⟩ := by
      simp only [App.rpc, doSendRPC, connector, hdecode]
      simp [htype, Ty.ptr, remoteRPC, argData, doRPC, remoteCall, Router.route, hservers, hroute]
      rfl
    exact ⟨s, _, hrun, hcall, hcall ▸ hsent⟩
  · intro t t' id h h'
    rcases registered_roomPut h with ⟨rfl, rfl⟩ | ⟨rfl, rfl⟩ <;>
      rcases registered_roomPut h' with ⟨rfl, hid⟩ | ⟨rfl, hid⟩
    · rfl
    · exact absurd hid (by decide)
    · exact absurd hid (by decide)
    · rfl

end Routing

end Nrpc
