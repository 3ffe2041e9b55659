import Nrpc.Discovery.Malformed
/-!
# What the listeners are told

Whatever changes the maps goes through `addServer` and `deleteServer`, and
these two tell the listeners. An operation is cut into the calls it makes
of them (`Op.calls`), so that the history a listener sees can be compared
with the map by id after each call, and not only between operations.

The two calls do not treat this node's own server alike: it is added
without a word and removed with one. So the history is consistent up to
the call that removes the node's own server, and not beyond
(`told_iff`).
-/

namespace Nrpc

namespace Discovery

variable {cfg : Config} {s s' : Servers} {sv : Server} {id : GoString}

/-! ## The calls of an operation -/

/-- A call that changes the maps. -/
inductive Call
  | addServer (sv : Option Server)
  | deleteServer (serverID : GoString)

/-- The maps as a machine, one call at a time. -/
def calling (cfg : Config) : Machine Servers Call where
  step := fun s call =>
    match call with
    | .addServer sv => settle s (addServer cfg s sv)
    | .deleteServer serverID => some (deleteServer s serverID)

/-- The calls of a clean-up. -/
def sweep (actualServers order : List GoString) : List Call :=
  (order.filter fun k => !actualServers.contains k).map .deleteServer

/-- The call an event of the watch leads to, if it is not passed over. -/
def Event.calls (cfg : Config) : Event → List Call
  | .put key value =>
    match keptKey cfg key, cfg.parseServer value with
    | some _, .ok sv => [.addServer sv]
    | _, _ => []
  | .delete key =>
    match keptKey cfg key with
    | some (_, svID) => [.deleteServer svID]
    | none => []

/-- **The calls an operation makes**, in order. -/
def Op.calls (cfg : Config) (s : Servers) : Op → List Call
  | .addServer sv => [.addServer sv]
  | .deleteServer serverID => [.deleteServer serverID]
  | .deleteLocalInvalidServers actualServers order => sweep actualServers order
  | .syncServers env firstSync =>
    match env.listing with
    | .error _ => []
    | .ok kvs =>
      let added := (env.collect (loads cfg env firstSync s kvs)).flatMap fun sv => [.addServer sv]
      -- the map is ranged over as the added servers leave it
      added ++ ((calling cfg).run s added).elim [] fun mid =>
        sweep (listedIds cfg kvs) (env.range mid.byID)
  | .watch events => events.flatMap (Event.calls cfg)

/-- The calls of a run. -/
def trace (cfg : Config) (ops : List Op) : List Call :=
  (discovery cfg).observe (fun s op => op.calls cfg s) .init ops

/-- A loop whose rounds are calls is the run of all its calls. -/
theorem run_flatMap {α : Type} {f : Servers → α → Outcome GoString Servers} {calls : α → List Call}
    (hcalls : ∀ s a, (calling cfg).run s (calls a) = settle s (f s a))
    (herr : ∀ s a e, f s a ≠ .err e) (l : List α) :
    (calling cfg).run s (l.flatMap calls) = settle s (l.foldlM f s) ∧
      ∀ e, l.foldlM f s ≠ .err e := by
  induction l generalizing s with
  | nil => exact ⟨rfl, fun e h => (by cases h)⟩
  | cons a l ih =>
    rw [List.flatMap_cons, Machine.run_append, hcalls, List.foldlM_cons]
    rcases hf : f s a with mid | e | _
    · obtain ⟨hrun, hne⟩ := @ih mid
      refine ⟨?_, hne⟩
      simp only [settle, Option.bind_some, hrun, Outcome.ok_bind]
      -- an error would leave the maps as they were at the start of the loop
      rcases hfold : l.foldlM f mid with _ | e | _
      · rfl
      · exact absurd hfold (hne e)
      · rfl
    · exact absurd hf (herr s a e)
    · exact ⟨rfl, fun e h => (by cases h)⟩

theorem run_addServer (s : Servers) (sv : Option Server) :
    (calling cfg).run s [.addServer sv] = settle s (addServer cfg s sv) := by
  simp [Machine.run, calling]

theorem addServer_ne_err (s : Servers) (sv : Option Server) (e : GoString) :
    addServer cfg s sv ≠ .err e := by
  unfold addServer
  split
  · simp
  · split <;> simp

theorem run_eventCalls (s : Servers) (ev : Event) :
    (calling cfg).run s (ev.calls cfg) = settle s (handleEvent cfg s ev) := by
  cases ev with
  | put key value =>
    rcases hkept : keptKey cfg key with _ | p
    · simp only [Event.calls, handleEvent, hkept, Machine.run, settle]
    · rcases hparse : cfg.parseServer value with e | sv
      · simp only [Event.calls, handleEvent, hkept, hparse, Machine.run, settle]
      · simp only [Event.calls, handleEvent, hkept, hparse]
        exact run_addServer s sv
  | delete key =>
    rcases hkept : keptKey cfg key with _ | ⟨t, id⟩
    · simp only [Event.calls, handleEvent, hkept, Machine.run, settle]
    · simp only [Event.calls, handleEvent, hkept, Machine.run, settle]
      rfl

theorem handleEvent_ne_err (s : Servers) (ev : Event) (e : GoString) :
    handleEvent cfg s ev ≠ .err e := by
  rcases handleEvent_cases cfg s ev with ⟨-, h⟩ | ⟨-, s', h⟩
  · simp [h]
  · simp [h]

theorem run_sweep (actualServers order : List GoString) :
    (calling cfg).run s (sweep actualServers order) =
      some (deleteLocalInvalidServers s actualServers order) := by
  unfold sweep deleteLocalInvalidServers
  induction order generalizing s with
  | nil => rfl
  | cons k order ih =>
    rw [List.foldl_cons]
    by_cases hk : k ∈ actualServers
    · rw [List.filter_cons_of_neg (by simpa using hk), if_pos hk]
      exact ih
    · rw [List.filter_cons_of_pos (by simpa using hk), if_neg hk]
      exact ih

/-- **An operation is the run of its calls.** -/
theorem run_calls (s : Servers) (op : Op) :
    (calling cfg).run s (op.calls cfg s) = (discovery cfg).step s op := by
  cases op with
  | addServer sv => exact run_addServer s sv
  | deleteServer serverID => rfl
  | deleteLocalInvalidServers actualServers order => exact run_sweep actualServers order
  | syncServers env firstSync =>
    simp only [Op.calls, discovery, syncServers]
    rcases env.listing with e | kvs
    · rfl
    · obtain ⟨hrun, hne⟩ := @run_flatMap cfg s _ (addServer cfg) (fun sv => [.addServer sv])
        run_addServer addServer_ne_err (env.collect (loads cfg env firstSync s kvs))
      dsimp only
      rw [Machine.run_append, hrun]
      rcases hfold : (env.collect (loads cfg env firstSync s kvs)).foldlM (addServer cfg) s with
        mid | e | _
      · exact run_sweep _ _
      · exact absurd hfold (hne e)
      · rfl
  | watch events => exact (run_flatMap run_eventCalls handleEvent_ne_err events).1

/-- **A run is the run of its calls.** -/
theorem run_trace (cfg : Config) (ops : List Op) :
    (calling cfg).run .init (trace cfg ops) = (discovery cfg).run .init ops :=
  Machine.run_observe run_calls

/-! ## The history of an id -/

/-- What the listeners were told about an id. -/
def Servers.history (s : Servers) (id : GoString) : List Action :=
  (s.notified.filter (·.2.id = id)).map Prod.fst

/-- Add, remove, add, and so on. -/
def Alternates (l : List Action) : Prop :=
  ∀ i a, l[i]? = some a → (a = .add ↔ i % 2 = 0)

/-- **The history fits the map by id**: what is told about an id
alternates, what was added and not removed is what the map has besides this
node's own server, and that one is never spoken of. -/
structure Told (cfg : Config) (s : Servers) : Prop where
  alternates : ∀ id, Alternates (s.history id)
  live : ∀ id, (s.history id).getLast? = some .add ↔ id ≠ cfg.self ∧ (s.byID.get? id).isSome
  own : ∀ n ∈ s.notified, n.2.id ≠ cfg.self

theorem told_init : Told cfg .init where
  alternates := fun id i a h => by simp [Servers.history, Servers.init] at h
  live := fun id => by simp [Servers.history, Servers.init]
  own := fun n h => by simp [Servers.init] at h

/-- An alternating history goes on with what it did not end in. -/
theorem Alternates.append {l : List Action} {a : Action} (hl : Alternates l)
    (ha : a = .add ↔ l.getLast? ≠ some .add) : Alternates (l ++ [a]) := by
  intro i b hb
  rcases Nat.lt_or_ge i l.length with hi | hi
  · rw [List.getElem?_append_left hi] at hb
    exact hl i b hb
  · rw [List.getElem?_append_right hi, List.getElem?_singleton] at hb
    split at hb
    swap
    · cases hb
    obtain rfl := Option.some.inj hb
    obtain rfl : i = l.length := by omega
    rw [ha]
    rcases hlen : l.length with _ | n
    · simp [List.length_eq_zero_iff.1 hlen]
    · -- the last index is one less, of the other parity
      rcases hlast : l.getLast? with _ | b
      · rw [List.getLast?_eq_none_iff.1 hlast] at hlen
        cases hlen
      · have hn := hl n b (by rw [← hlast, List.getLast?_eq_getElem?, hlen, Nat.add_sub_cancel])
        rw [Ne, Option.some.injEq, hn]
        omega

theorem history_append {a : Action} (hs' : s'.notified = s.notified ++ [(a, sv)]) :
    s'.history id = if id = sv.id then s.history id ++ [a] else s.history id := by
  unfold Servers.history
  rw [hs', List.filter_append]
  split
  · rename_i hid
    simp [hid]
  · rename_i hid
    simp [Ne.symm hid]

/-- One more notification, of an addition or a removal that took place. -/
theorem Told.notify {a : Action} (hs : Told cfg s)
    (hs' : s'.notified = s.notified ++ [(a, sv)]) (hown : sv.id ≠ cfg.self)
    (hother : ∀ id, id ≠ sv.id → s'.byID.get? id = s.byID.get? id)
    (hbefore : (s.byID.get? sv.id).isSome ↔ a ≠ .add)
    (hafter : (s'.byID.get? sv.id).isSome ↔ a = .add) : Told cfg s' where
  alternates := by
    intro id
    rw [history_append hs']
    split
    · rename_i hid
      refine (hs.alternates id).append ?_
      rw [Ne, hs.live id, hid, hbefore]
      simp [hown]
    · exact hs.alternates id
  live := by
    intro id
    rw [history_append hs']
    split
    · rename_i hid
      rw [List.getLast?_concat, Option.some.injEq, hid, hafter]
      simp [hown]
    · rename_i hid
      rw [hs.live id, hother id hid]
  own := by
    intro n hn
    rw [hs', List.mem_append, List.mem_singleton] at hn
    rcases hn with hn | rfl
    · exact hs.own n hn
    · exact hown

/-! ## One call, and a run -/

/-- A call that removes this node's own server. -/
def Call.RemovesOwn (cfg : Config) (s : Servers) : Call → Prop
  | .addServer _ => False
  | .deleteServer serverID => serverID = cfg.self ∧ (s.byID.get? serverID).isSome

/-- Adding keeps the history in step with the map: this node's own server
changes neither. -/
theorem told_addServer {sv? : Option Server} (hs : Told cfg s)
    (h : addServer cfg s sv? = .ok s') : Told cfg s' := by
  unfold addServer at h
  rcases sv? with _ | sv
  · cases h
  dsimp only at h
  split at h
  · obtain rfl := Outcome.ok.inj h
    exact hs
  · rename_i hfree
    obtain rfl := Outcome.ok.inj h
    by_cases hown : sv.id = cfg.self
    · refine ⟨?_, ?_, ?_⟩
      · simpa [Servers.history, hown] using hs.alternates
      · intro id
        have hlive := hs.live id
        by_cases hid : id = cfg.self
        · simpa [Servers.history, hown, hid] using hlive
        · simpa [Servers.history, hown, hid, GoMap.get?_set] using hlive
      · simpa [hown] using hs.own
    · refine hs.notify (a := .add) (by simp [hown]) hown ?_ (by simpa using hfree) (by simp)
      intro id hid
      exact GoMap.get?_set_of_ne hid

/-- Removing keeps the history in step with the map, unless it is this
node's own server that goes. -/
theorem told_deleteServer (hs : Told cfg s) (hindexed : Indexed s)
    (hown : ¬ (Call.deleteServer id).RemovesOwn cfg s) : Told cfg (deleteServer s id) := by
  rcases hsv : s.byID.get? id with _ | sv
  · simpa only [deleteServer, hsv] using hs
  · have hid := hindexed.id_eq id sv hsv
    subst hid
    have hbyID := byID_deleteServer hindexed sv.id
    have hnotified : (deleteServer s sv.id).notified = s.notified ++ [(.del, sv)] := by
      simp only [deleteServer, hsv]
    refine hs.notify hnotified ?_ ?_ ?_ ?_
    · exact fun h => hown ⟨h, by rw [hsv]; rfl⟩
    · intro id hid
      rw [hbyID, GoMap.get?_del, if_neg hid]
    · simp [hsv]
    · simp [hbyID]

theorem indexed_call {call : Call} (hs : Indexed s) (h : (calling cfg).step s call = some s') :
    Indexed s' := by
  cases call with
  | addServer sv => exact @indexed_step cfg s s' (.addServer sv) hs h
  | deleteServer serverID => exact @indexed_step cfg s s' (.deleteServer serverID) hs h

/-- **One call** that is not the removal of this node's own server. -/
theorem told_call {call : Call} (hs : Told cfg s) (hindexed : Indexed s)
    (hown : ¬ call.RemovesOwn cfg s) (h : (calling cfg).step s call = some s') : Told cfg s' := by
  cases call with
  | addServer sv? =>
    rcases hadd : addServer cfg s sv? with s₁ | e | _
    · simp only [calling, hadd, settle, Option.some.injEq] at h
      subst h
      exact told_addServer hs hadd
    · exact absurd hadd (addServer_ne_err s sv? e)
    · simp only [calling, hadd, settle] at h
      cases h
  | deleteServer serverID =>
    obtain rfl := Option.some.inj h
    exact told_deleteServer hs hindexed hown

/-- The removal of this node's own server is told. -/
theorem not_told_of_removesOwn {call : Call} (hindexed : Indexed s)
    (hown : call.RemovesOwn cfg s) :
    ∃ s', (calling cfg).step s call = some s' ∧ ¬ Told cfg s' := by
  cases call with
  | addServer sv => exact absurd hown id
  | deleteServer serverID =>
    obtain ⟨rfl, hknown⟩ := hown
    obtain ⟨sv, hsv⟩ := Option.isSome_iff_exists.1 hknown
    refine ⟨_, rfl, fun htold => ?_⟩
    refine htold.own (.del, sv) ?_ (hindexed.id_eq _ sv hsv)
    simp only [deleteServer, hsv]
    simp

/-- **The listeners see a consistent history exactly as long as this node's
own server is not removed.** In a run of any operations the history fits
the map by id after every call, if and only if no call removes this node's
own server. -/
theorem told_iff (cfg : Config) (ops : List Op) :
    (∀ pre rest s, trace cfg ops = pre ++ rest → (calling cfg).run .init pre = some s →
      Told cfg s) ↔
    ∀ pre rest s, trace cfg ops = pre ++ .deleteServer cfg.self :: rest →
      (calling cfg).run .init pre = some s → s.byID.get? cfg.self = none := by
  have hindexed : ∀ {pre s}, (calling cfg).run .init pre = some s → Indexed s := fun hrun =>
    Machine.run_invariant_of_step (fun _ _ _ hs h => indexed_call hs h) indexed_init hrun
  constructor
  · intro htold pre rest s htrace hrun
    by_contra hknown
    -- the removal is a step like any other, and is told
    obtain ⟨s', hstep, hnot⟩ := @not_told_of_removesOwn cfg s (.deleteServer cfg.self)
      (hindexed hrun) ⟨rfl, Option.isSome_iff_ne_none.2 hknown⟩
    refine hnot (htold (pre ++ [.deleteServer cfg.self]) rest s' (by simp [htrace]) ?_)
    rw [Machine.run_append, hrun]
    exact Machine.run_cons_eq_some_iff.2 ⟨s', hstep, rfl⟩
  · intro hfree pre rest s htrace hrun
    have hmeets : (calling cfg).Meets (fun s call => ¬ call.RemovesOwn cfg s) .init pre := by
      rw [Machine.meets_iff_forall_append]
      rintro p call r s₁ rfl hrun₁ hown
      cases call with
      | addServer sv => exact hown
      | deleteServer serverID =>
        obtain ⟨rfl, hknown⟩ := hown
        rw [hfree p (r ++ rest) s₁ (by simp [htrace]) hrun₁] at hknown
        cases hknown
    refine (Machine.run_invariant (I := fun s => Told cfg s ∧ Indexed s) ?_
      ⟨told_init, indexed_init⟩ hmeets hrun).1
    rintro s call s' ⟨hs, hs'⟩ hown hstep
    exact ⟨told_call hs hs' hown hstep, indexed_call hs' hstep⟩

/-- A node of type `connector`. -/
def ownServer : Server := ⟨lit "connector-1", lit "connector", .empty, []⟩

/-- **The node's own key expires.** It adds its own server and is then told
by the watch that its key is gone: the listeners hear of the removal of a
server that they were never told of. -/
theorem own_removal_told :
    ∃ s, (discovery plainNode).run .init
        [.addServer (some ownServer), .watch [.delete (getKey ownServer.id ownServer.type)]] =
          some s ∧
      s.notified = [(.del, ownServer)] ∧ s.history plainNode.self = [.del] ∧
      ¬ Told plainNode s := by
  refine ⟨_, rfl, rfl, by decide, ?_⟩
  intro htold
  exact htold.own (.del, ownServer) List.mem_cons_self rfl

end Discovery

end Nrpc
