import Nrpc.Discovery.Model.Servers
/-!
# The two maps stay together

A server is added to both maps or to neither, and removed from both by the
fields of the record that is stored. So the map by type is a view of the
map by id (`Indexed`), whatever was parsed from whatever key: an id stays
with the first record seen under it until that record is removed. The two
readers of the maps agree for the same reason
(`indexed_of_run`).
-/

namespace Nrpc

namespace Discovery

variable {cfg : Config} {s s' : Servers} {sv : Server} {t id : GoString}

/-- The server under a type and an id. -/
def Servers.lookup (s : Servers) (t id : GoString) : Option Server :=
  (s.byType.get? t).bind (·.get? id)

/-- **The map by type is a view of the map by id.** -/
structure Indexed (s : Servers) : Prop where
  id_eq : ∀ id sv, s.byID.get? id = some sv → sv.id = id
  lookup_iff : ∀ t id sv, s.lookup t id = some sv ↔ s.byID.get? id = some sv ∧ sv.type = t

theorem indexed_init : Indexed .init where
  id_eq := fun _ _ h => by simp [Servers.init] at h
  lookup_iff := fun _ _ _ => by simp [Servers.lookup, Servers.init]

/-! ## Adding and removing -/

/-- A server whose id is known is passed over. -/
theorem addServer_known (h : (s.byID.get? sv.id).isSome) : addServer cfg s (some sv) = .ok s := by
  simp [addServer, h]

/-- A server whose id is free is taken. -/
theorem addServer_new (h : s.byID.get? sv.id = none) :
    ∃ s', addServer cfg s (some sv) = .ok s' ∧ s'.byID = s.byID.set sv.id sv ∧
      s'.byType = insertByType s.byType sv := by
  simp [addServer, h]

/-- An added server stands under its type and id, and nothing else moves. -/
theorem lookup_insertByType :
    ((insertByType s.byType sv).get? t).bind (·.get? id) =
      if t = sv.type ∧ id = sv.id then some sv else s.lookup t id := by
  unfold insertByType Servers.lookup
  by_cases ht : t = sv.type
  · subst ht
    rw [GoMap.get?_set_self, Option.bind_some, GoMap.get?_set]
    by_cases hid : id = sv.id
    · rw [if_pos hid, if_pos ⟨rfl, hid⟩]
    · rw [if_neg hid, if_neg (fun h => hid h.2)]
      rcases s.byType.get? sv.type with _ | m
      · simp
      · rfl
  · rw [GoMap.get?_set_of_ne ht, if_neg (fun h => ht h.1)]

/-- **What `addServer` adds**: the server under its id, and a map for its
type, if the id is free. -/
theorem addServer_some (cfg : Config) (s : Servers) (sv : Server) :
    ∃ s', addServer cfg s (some sv) = .ok s' ∧
      (∀ id, s'.byID.get? id = (s.byID.get? id).or (if id = sv.id then some sv else none)) ∧
      ∀ t, (s'.byType.get? t).isSome ↔
        (s.byType.get? t).isSome ∨ s.byID.get? sv.id = none ∧ t = sv.type := by
  by_cases hknown : (s.byID.get? sv.id).isSome
  · refine ⟨s, addServer_known hknown, fun id => ?_, fun t => ?_⟩
    · split
      · rename_i hid
        obtain ⟨sv', hsv'⟩ := Option.isSome_iff_exists.1 hknown
        rw [hid, hsv', Option.some_or]
      · rw [Option.or_none]
    · refine ⟨Or.inl, ?_⟩
      rintro (h | ⟨hnone, -⟩)
      · exact h
      · rw [hnone] at hknown
        cases hknown
  · have hnone : s.byID.get? sv.id = none := by simpa using hknown
    obtain ⟨s', hadd, hbyID, hbyType⟩ := @addServer_new cfg s sv hnone
    refine ⟨s', hadd, fun id => ?_, fun t => ?_⟩
    · rw [hbyID, GoMap.get?_set]
      split
      · rename_i hid
        rw [hid, hnone, Option.none_or]
      · rw [Option.or_none]
    · rw [hbyType, insertByType, GoMap.get?_set]
      split
      · rename_i ht
        exact iff_of_true rfl (Or.inr ⟨hnone, ht⟩)
      · rename_i ht
        exact ⟨Or.inl, fun h => h.resolve_right fun h => ht h.2⟩

theorem indexed_addServer {sv? : Option Server} (hs : Indexed s)
    (h : addServer cfg s sv? = .ok s') : Indexed s' := by
  rcases sv? with _ | sv
  · cases h
  by_cases hknown : (s.byID.get? sv.id).isSome
  · rw [addServer_known hknown] at h
    obtain rfl := Outcome.ok.inj h
    exact hs
  · have hnone : s.byID.get? sv.id = none := by simpa using hknown
    obtain ⟨s₁, hadd, hbyID, hbyType⟩ := @addServer_new cfg s sv hnone
    rw [hadd] at h
    obtain rfl := Outcome.ok.inj h
    refine ⟨?_, ?_⟩
    · intro id sv' hid
      rw [hbyID, GoMap.get?_set] at hid
      split at hid
      · rename_i heq
        rw [← Option.some.inj hid, heq]
      · exact hs.id_eq id sv' hid
    · intro t id sv'
      rw [Servers.lookup, hbyType, lookup_insertByType, hbyID, GoMap.get?_set]
      by_cases hid : id = sv.id
      · -- the id was free, so no type had a server under it
        subst hid
        have hfree : s.lookup t sv.id = some sv' ↔ False := by
          rw [hs.lookup_iff, hnone]
          simp
        by_cases ht : t = sv.type
        · simp [ht]
          rintro rfl
          rfl
        · rw [if_neg (fun h => ht h.1), if_pos rfl, hfree]
          simp only [false_iff, not_and]
          intro hsv ht'
          rw [← Option.some.inj hsv] at ht'
          exact ht ht'.symm
      · rw [if_neg (fun h => hid h.2), if_neg hid]
        exact hs.lookup_iff t id sv'

/-- A server is removed from under its type and id, and nothing else
moves. -/
theorem lookup_removeByType :
    ((removeByType s.byType sv).get? t).bind (·.get? id) =
      if t = sv.type ∧ id = sv.id then none else s.lookup t id := by
  unfold removeByType Servers.lookup
  by_cases ht : t = sv.type
  · subst ht
    rcases hm : s.byType.get? sv.type with _ | m
    · simp [hm]
    · dsimp only
      rw [GoMap.get?_set_self, Option.bind_some, GoMap.get?_del]
      by_cases hid : id = sv.id
      · rw [if_pos hid, if_pos ⟨rfl, hid⟩]
      · rw [if_neg hid, if_neg (fun h => hid h.2)]
        rfl
  · rw [if_neg (fun h => ht h.1)]
    split
    · rw [GoMap.get?_set_of_ne ht]
    · rfl

/-- Removing a server frees its id, known or not. -/
theorem byID_deleteServer (hs : Indexed s) (serverID : GoString) :
    (deleteServer s serverID).byID = s.byID.del serverID := by
  unfold deleteServer
  split
  · rename_i hnone
    ext1 k
    rw [GoMap.get?_del]
    split
    · rename_i hk
      rw [hk, hnone]
    · rfl
  · rename_i sv hsv
    rw [hs.id_eq serverID sv hsv]

theorem indexed_deleteServer (hs : Indexed s) (serverID : GoString) :
    Indexed (deleteServer s serverID) := by
  unfold deleteServer
  split
  · exact hs
  · rename_i sv hsv
    obtain rfl := hs.id_eq serverID sv hsv
    refine ⟨?_, ?_⟩
    · intro id sv' hid
      dsimp only at hid
      rw [GoMap.get?_del] at hid
      split at hid
      · cases hid
      · exact hs.id_eq id sv' hid
    · intro t id sv'
      dsimp only [Servers.lookup]
      rw [lookup_removeByType, GoMap.get?_del]
      by_cases hid : id = sv.id
      · subst hid
        rw [if_pos rfl]
        by_cases ht : t = sv.type
        · simp [ht]
        · -- under another type the id had no server either
          rw [if_neg (fun h => ht h.1), hs.lookup_iff, hsv]
          simp only [Option.some.injEq, reduceCtorEq, false_and, iff_false, not_and]
          rintro rfl
          exact fun h => ht h.symm
      · rw [if_neg (fun h => hid h.2), if_neg hid]
        exact hs.lookup_iff t id sv'

/-! ## The operations -/

theorem indexed_deleteLocalInvalidServers (hs : Indexed s) (actualServers order : List GoString) :
    Indexed (deleteLocalInvalidServers s actualServers order) := by
  unfold deleteLocalInvalidServers
  induction order generalizing s with
  | nil => exact hs
  | cons k order ih =>
    rw [List.foldl_cons]
    refine ih ?_
    split
    · exact hs
    · exact indexed_deleteServer hs k

theorem indexed_handleEvent {ev : Event} (hs : Indexed s) (h : handleEvent cfg s ev = .ok s') :
    Indexed s' := by
  unfold handleEvent at h
  split at h
  · split at h
    · obtain rfl := Outcome.ok.inj h
      exact hs
    · split at h
      · obtain rfl := Outcome.ok.inj h
        exact hs
      · exact indexed_addServer hs h
  · split at h
    · obtain rfl := Outcome.ok.inj h
      exact hs
    · obtain rfl := Outcome.ok.inj h
      exact indexed_deleteServer hs _

theorem indexed_handleEvents {events : List Event} (hs : Indexed s)
    (h : handleEvents cfg s events = .ok s') : Indexed s' :=
  Outcome.foldlM_invariant (fun _ _ _ _ hb hev => indexed_handleEvent hb hev) hs h

/-- Whatever is listed and loaded, in whatever order it comes back. -/
theorem indexed_syncServers {env : SyncEnv} {firstSync : Bool} (hs : Indexed s)
    (h : syncServers cfg env firstSync s = .ok s') : Indexed s' := by
  unfold syncServers at h
  split at h
  · cases h
  · obtain ⟨mid, hmid, hrest⟩ := Outcome.bind_eq_ok_iff.1 h
    obtain rfl := Outcome.ok.inj hrest
    have hadded : Indexed mid :=
      Outcome.foldlM_invariant (fun _ _ _ _ hb hadd => indexed_addServer hb hadd) hs hmid
    exact indexed_deleteLocalInvalidServers hadded _ _

/-- What an operation leaves, if it leaves anything: what it returned, or
the maps as they were. -/
theorem indexed_settle {x : Outcome GoString Servers} (hs : Indexed s)
    (hx : ∀ s', x = .ok s' → Indexed s') (h : settle s x = some s') : Indexed s' := by
  rcases x with a | e | _
  · obtain rfl := Option.some.inj h
    exact hx a rfl
  · obtain rfl := Option.some.inj h
    exact hs
  · cases h

theorem indexed_step {op : Op} (hs : Indexed s) (h : (discovery cfg).step s op = some s') :
    Indexed s' := by
  cases op with
  | addServer sv => exact indexed_settle hs (fun _ hadd => indexed_addServer hs hadd) h
  | deleteServer serverID =>
    obtain rfl := Option.some.inj h
    exact indexed_deleteServer hs serverID
  | deleteLocalInvalidServers actualServers order =>
    obtain rfl := Option.some.inj h
    exact indexed_deleteLocalInvalidServers hs actualServers order
  | syncServers env firstSync =>
    exact indexed_settle hs (fun _ hsync => indexed_syncServers hs hsync) h
  | watch events => exact indexed_settle hs (fun _ hev => indexed_handleEvents hs hev) h

/-! ## The readers -/

/-- The servers listed are the ones in the map by id. -/
theorem mem_getServers (hs : Indexed s) {order : List GoString} (horder : s.byID.Ranges order) :
    sv ∈ getServers s order ↔ s.byID.get? sv.id = some sv := by
  unfold getServers
  rw [List.mem_filterMap]
  constructor
  · rintro ⟨id, -, hid⟩
    rwa [hs.id_eq id sv hid]
  · intro hsv
    exact ⟨sv.id, (horder.2 sv.id).2 (by rw [hsv]; rfl), hsv⟩

theorem card_keys_pos_iff {m : GoMap GoString Server} :
    0 < m.keys.card ↔ ∃ id sv, m.get? id = some sv := by
  rw [Finset.card_pos]
  constructor
  · rintro ⟨id, hid⟩
    obtain ⟨sv, hsv⟩ := Option.isSome_iff_exists.1 (GoMap.mem_keys.1 hid)
    exact ⟨id, sv, hsv⟩
  · rintro ⟨id, sv, hsv⟩
    exact ⟨id, GoMap.mem_keys.2 (by rw [hsv]; rfl)⟩

/-- `GetServersByType` returns the map of a type that has a server. -/
theorem getServersByType_eq_ok_iff {m : GoMap GoString Server} :
    getServersByType s t = .ok m ↔
      s.byType.get? t = some m ∧ ∃ id sv, m.get? id = some sv := by
  unfold getServersByType
  rcases s.byType.get? t with _ | m'
  · simp
  · dsimp only
    rw [← card_keys_pos_iff, Option.some.injEq]
    split
    · rename_i hpos
      rw [Except.ok.injEq]
      refine ⟨fun h => ⟨h, h ▸ hpos⟩, fun h => h.1⟩
    · rename_i hpos
      simp only [reduceCtorEq, false_iff, not_and]
      rintro rfl
      exact hpos

/-- **The two readers agree.** -/
theorem Indexed.getServersByType (hs : Indexed s) {order : List GoString}
    (horder : s.byID.Ranges order) (t : GoString) :
    ((∃ m, getServersByType s t = .ok m) ↔ ∃ sv ∈ getServers s order, sv.type = t) ∧
    ∀ m, Discovery.getServersByType s t = .ok m →
      ∀ id sv, m.get? id = some sv ↔ sv ∈ getServers s order ∧ sv.id = id ∧ sv.type = t := by
  -- the map of a type holds what the map by id has of that type
  have hmem : ∀ m, s.byType.get? t = some m → ∀ id sv, m.get? id = some sv ↔
      sv ∈ getServers s order ∧ sv.id = id ∧ sv.type = t := by
    intro m hm id sv
    have hlookup : s.lookup t id = m.get? id := by rw [Servers.lookup, hm, Option.bind_some]
    rw [← hlookup, hs.lookup_iff, mem_getServers hs horder]
    constructor
    · rintro ⟨hid, ht⟩
      have := hs.id_eq id sv hid
      exact ⟨by rwa [this], this, ht⟩
    · rintro ⟨hid, rfl, ht⟩
      exact ⟨hid, ht⟩
  refine ⟨?_, fun m hm => hmem m (getServersByType_eq_ok_iff.1 hm).1⟩
  constructor
  · rintro ⟨m, hm⟩
    obtain ⟨hbyType, id, sv, hsv⟩ := getServersByType_eq_ok_iff.1 hm
    obtain ⟨hin, -, ht⟩ := (hmem m hbyType id sv).1 hsv
    exact ⟨sv, hin, ht⟩
  · rintro ⟨sv, hin, rfl⟩
    have hlookup := (hs.lookup_iff sv.type sv.id sv).2 ⟨(mem_getServers hs horder).1 hin, rfl⟩
    obtain ⟨m, hm, hsv⟩ := Option.bind_eq_some_iff.1 hlookup
    exact ⟨m, getServersByType_eq_ok_iff.2 ⟨hm, sv.id, sv, hsv⟩⟩

/-- **The two maps never drift apart.** In every state any sequence of
operations leads to from empty maps, the map by id files each server under
its own id, the map by type holds exactly the servers of the map by id
under their types, and `GetServersByType` succeeds exactly when
`GetServers` has a server of the type and then returns exactly those. -/
theorem indexed_of_run (cfg : Config) (ops : List Op) (s : Servers)
    (hrun : (discovery cfg).run .init ops = some s) :
    (∀ id sv, s.byID.get? id = some sv → sv.id = id) ∧
    (∀ t id sv, (∃ m, s.byType.get? t = some m ∧ m.get? id = some sv) ↔
      s.byID.get? id = some sv ∧ sv.type = t) ∧
    ∀ order, s.byID.Ranges order → ∀ t,
      ((∃ m, getServersByType s t = .ok m) ↔ ∃ sv ∈ getServers s order, sv.type = t) ∧
      ∀ m, getServersByType s t = .ok m →
        ∀ id sv, m.get? id = some sv ↔ sv ∈ getServers s order ∧ sv.id = id ∧ sv.type = t := by
  have hs : Indexed s :=
    Machine.run_invariant_of_step (fun _ _ _ hs h => indexed_step hs h) indexed_init hrun
  refine ⟨hs.id_eq, ?_, fun order horder t => hs.getServersByType horder t⟩
  intro t id sv
  rw [← hs.lookup_iff, Servers.lookup, Option.bind_eq_some_iff]

/-- A node that blacklists nothing and reads every value as no server. -/
def plainNode : Config :=
  { self := lit "connector-1", serverTypesBlacklist := [], parseServer := fun _ => .ok none }

/-- A server registered again under another type, and removed by its id. -/
theorem indexed_of_run_retyped :
    let ops : List Op := [.addServer (some ⟨lit "s1", lit "room", .empty, []⟩),
      .addServer (some ⟨lit "s1", lit "chat", .empty, []⟩), .deleteServer (lit "s1"),
      .addServer (some ⟨lit "s1", lit "chat", .empty, []⟩)]
    ∃ s, (discovery plainNode).run .init ops = some s ∧
      (∀ id sv, s.byID.get? id = some sv → sv.id = id) ∧
      (∀ t id sv, (∃ m, s.byType.get? t = some m ∧ m.get? id = some sv) ↔
        s.byID.get? id = some sv ∧ sv.type = t) ∧
      ∀ order, s.byID.Ranges order → ∀ t,
        ((∃ m, getServersByType s t = .ok m) ↔ ∃ sv ∈ getServers s order, sv.type = t) ∧
        ∀ m, getServersByType s t = .ok m →
          ∀ id sv, m.get? id = some sv ↔ sv ∈ getServers s order ∧ sv.id = id ∧ sv.type = t := by
  intro ops
  have hsome : ((discovery plainNode).run .init ops).isSome := by decide
  obtain ⟨s, hs⟩ := Option.isSome_iff_exists.1 hsome
  exact ⟨s, hs, indexed_of_run plainNode ops s hs⟩

end Discovery

end Nrpc
