import Nrpc.Messages.Model.Dictionary
/-!
# The two dictionary maps mirror each other

Every turn of `SetDictionary`'s loop adds one pair to both maps, and only
where neither map has a side of it. So the maps are inverse to each other
after any calls, whatever the order of the entries and wherever a call
stops.

Whether a call goes through, and what it then leaves, does not depend on the
order either (`setDictionary_order`). What a call that fails leaves does: the
entries before the conflict stay (`setDictionary_atomic_iff`).
-/

namespace Nrpc

namespace Messages

variable {dict dict' : Dictionary} {route : GoString} {code : UInt16}

/-- **The maps are inverse to each other.** -/
def Dictionary.Mirrored (dict : Dictionary) : Prop :=
  ∀ r c, dict.routes.get? r = some c ↔ dict.codes.get? c = some r

/-- **What a turn of the loop can do**: it adds the trimmed route and its
code, both new, to both maps. -/
theorem setEntry_eq_ok_iff : setEntry dict route code = .ok dict' ↔
    dict.routes.get? (trimSpace route) = none ∧ dict.codes.get? code = none ∧
      dict' = ⟨dict.routes.set (trimSpace route) code,
        dict.codes.set code (trimSpace route)⟩ := by
  rw [setEntry]
  by_cases hr : dict.routes.get? (trimSpace route) = none
  · by_cases hc : dict.codes.get? code = none
    · simp [hr, hc, eq_comm]
    · simp [hr, hc, Option.isSome_iff_ne_none]
  · simp [hr, Option.isSome_iff_ne_none]

theorem mirrored_empty : Dictionary.empty.Mirrored := by
  intro r c
  simp [Dictionary.empty]

/-- Adding a new pair to both maps keeps them inverse. -/
theorem mirrored_setEntry (hm : dict.Mirrored) (h : setEntry dict route code = .ok dict') :
    dict'.Mirrored := by
  obtain ⟨hr, hc, rfl⟩ := setEntry_eq_ok_iff.1 h
  intro r c
  simp only
  by_cases hrr : r = trimSpace route
  · subst hrr
    rw [GoMap.get?_set_self]
    by_cases hcc : c = code
    · subst hcc
      rw [GoMap.get?_set_self]
      exact ⟨fun _ => rfl, fun _ => rfl⟩
    · rw [GoMap.get?_set_of_ne hcc]
      constructor
      · intro heq
        exact absurd (Option.some.inj heq).symm hcc
      · -- an old code for the route would have the route taken
        intro heq
        rw [(hm _ _).2 heq] at hr
        cases hr
  · rw [GoMap.get?_set_of_ne hrr]
    by_cases hcc : c = code
    · subst hcc
      rw [GoMap.get?_set_self]
      constructor
      · -- an old route for the code would have the code taken
        intro heq
        rw [(hm _ _).1 heq] at hc
        cases hc
      · intro heq
        exact absurd (Option.some.inj heq).symm hrr
    · rw [GoMap.get?_set_of_ne hcc]
      exact hm r c

/-- **What every turn of the loop keeps, every reachable state has**, after
calls that fail part-way too. -/
theorem reachable_invariant {I : Dictionary → Prop} (hempty : I .empty)
    (hturn : ∀ {dict dict' route code}, I dict → setEntry dict route code = .ok dict' → I dict')
    (h : Reachable dict) : I dict := by
  have hcall : ∀ (entries : List (GoString × UInt16)) {dict}, I dict →
      I (setDictionary dict entries).2 := by
    intro entries
    induction entries with
    | nil => exact fun hd => hd
    | cons entry entries ih =>
      intro dict hd
      obtain ⟨route, code⟩ := entry
      rw [setDictionary]
      split
      · exact hd
      · rename_i hset
        exact ih (hturn hd hset)
  induction h with
  | empty => exact hempty
  | call _ _ ih => exact hcall _ ih

/-- **In every reachable state the maps are inverse.** -/
theorem mirrored_of_reachable (h : Reachable dict) : dict.Mirrored :=
  reachable_invariant mirrored_empty mirrored_setEntry h

/-- The routes of the dictionary are trimmed. -/
def Dictionary.Trimmed (dict : Dictionary) : Prop :=
  ∀ r c, dict.routes.get? r = some c → trimSpace r = r

theorem trimmed_setEntry (hd : dict.Trimmed) (h : setEntry dict route code = .ok dict') :
    dict'.Trimmed := by
  obtain ⟨-, -, rfl⟩ := setEntry_eq_ok_iff.1 h
  intro r c hr
  rw [GoMap.get?_set] at hr
  split at hr
  · rename_i heq
    rw [heq, trimSpace_trimSpace]
  · exact hd r c hr

/-- **The dictionary is a bijection between trimmed routes and codes**, in
every state that calls of `SetDictionary` lead to. -/
theorem dictionary_bijection (dict : Dictionary) (h : Reachable dict) (r : GoString)
    (c : UInt16) : (dict.routes.get? r = some c ↔ dict.codes.get? c = some r) ∧
      (dict.routes.get? r = some c → trimSpace r = r) ∧
      (dict.codes.get? c = some r → trimSpace r = r) := by
  have hmirrored := mirrored_of_reachable h
  have htrimmed : dict.Trimmed :=
    reachable_invariant (fun r c hr => by simp [Dictionary.empty] at hr) trimmed_setEntry h
  refine ⟨hmirrored r c, htrimmed r c, ?_⟩
  intro hc
  exact htrimmed r c ((hmirrored r c).2 hc)

/-- Two calls, of which the second fails behind its first entry. -/
theorem dictionary_bijection_partway :
    let first := (setDictionary .empty [(lit " a", 1)]).2
    let second := setDictionary first [(lit "b\t", 2), (lit "c", 1)]
    second.1 = some (lit "duplicated route(route: c, code: 1)") ∧
      second.2.codes.get? 2 = some (lit "b") ∧
      ∀ r c, (second.2.routes.get? r = some c ↔ second.2.codes.get? c = some r) ∧
        (second.2.routes.get? r = some c → trimSpace r = r) ∧
        (second.2.codes.get? c = some r → trimSpace r = r) := by
  intro first second
  have hsecond : Reachable second.2 := .call (.call .empty (by decide)) (by decide)
  exact ⟨by decide +kernel, by decide +kernel, dictionary_bijection second.2 hsecond⟩

/-! ## The order of the entries -/

/-- **A call that can go through**: trimmed, its routes are distinct, so are
its codes, and none of them is taken. -/
structure Fits (dict : Dictionary) (entries : List (GoString × UInt16)) : Prop where
  routes : (entries.map fun entry => trimSpace entry.1).Nodup
  codes : (entries.map Prod.snd).Nodup
  free : ∀ entry ∈ entries,
    dict.routes.get? (trimSpace entry.1) = none ∧ dict.codes.get? entry.2 = none

/-- Whether a call can go through does not depend on the order. -/
theorem Fits.perm {entries order : List (GoString × UInt16)} (hperm : order.Perm entries)
    (h : Fits dict entries) : Fits dict order where
  routes := (hperm.map _).nodup_iff.2 h.routes
  codes := (hperm.map _).nodup_iff.2 h.codes
  free := fun entry hentry => h.free entry (hperm.mem_iff.1 hentry)

/-- A call can go through if its first entry can and, behind it, the rest. -/
theorem fits_cons_iff {entries : List (GoString × UInt16)} :
    Fits dict ((route, code) :: entries) ↔
      ∃ dict', setEntry dict route code = .ok dict' ∧ Fits dict' entries := by
  constructor
  · rintro ⟨hroutes, hcodes, hfree⟩
    obtain ⟨hr, hc⟩ := hfree _ List.mem_cons_self
    rw [List.map_cons, List.nodup_cons] at hroutes hcodes
    refine ⟨_, setEntry_eq_ok_iff.2 ⟨hr, hc, rfl⟩, hroutes.2, hcodes.2, ?_⟩
    intro entry hentry
    have hne : trimSpace entry.1 ≠ trimSpace route := fun heq =>
      hroutes.1 (List.mem_map.2 ⟨entry, hentry, heq⟩)
    have hne' : entry.2 ≠ code := fun heq => hcodes.1 (List.mem_map.2 ⟨entry, hentry, heq⟩)
    rw [GoMap.get?_set_of_ne hne, GoMap.get?_set_of_ne hne']
    exact hfree entry (List.mem_cons_of_mem _ hentry)
  · rintro ⟨dict', hset, hrest⟩
    obtain ⟨hr, hc, rfl⟩ := setEntry_eq_ok_iff.1 hset
    -- what the first entry has taken is not free for the rest
    have hbehind : ∀ entry ∈ entries, trimSpace entry.1 ≠ trimSpace route ∧ entry.2 ≠ code := by
      intro entry hentry
      obtain ⟨hr', hc'⟩ := hrest.free entry hentry
      constructor
      · intro heq
        rw [heq, GoMap.get?_set_self] at hr'
        cases hr'
      · intro heq
        rw [heq, GoMap.get?_set_self] at hc'
        cases hc'
    refine ⟨?_, ?_, ?_⟩
    · rw [List.map_cons, List.nodup_cons, List.mem_map]
      refine ⟨?_, hrest.routes⟩
      rintro ⟨entry, hentry, heq⟩
      exact (hbehind entry hentry).1 heq
    · rw [List.map_cons, List.nodup_cons, List.mem_map]
      refine ⟨?_, hrest.codes⟩
      rintro ⟨entry, hentry, heq⟩
      exact (hbehind entry hentry).2 heq
    · intro entry hentry
      rcases List.mem_cons.1 hentry with rfl | hentry
      · exact ⟨hr, hc⟩
      · obtain ⟨hr', hc'⟩ := hrest.free entry hentry
        obtain ⟨hne, hne'⟩ := hbehind entry hentry
        rw [GoMap.get?_set_of_ne hne] at hr'
        rw [GoMap.get?_set_of_ne hne'] at hc'
        exact ⟨hr', hc'⟩

/-- **A call returns nil exactly if it can go through.** -/
theorem setDictionary_eq_none_iff {entries : List (GoString × UInt16)} :
    (setDictionary dict entries).1 = none ↔ Fits dict entries := by
  induction entries generalizing dict with
  | nil => exact ⟨fun _ => ⟨List.nodup_nil, List.nodup_nil, by simp⟩, fun _ => rfl⟩
  | cons entry entries ih =>
    obtain ⟨route, code⟩ := entry
    rw [fits_cons_iff, setDictionary]
    rcases hset : setEntry dict route code with e | dict'
    · simp
    · simp only [Except.ok.injEq, exists_eq_left']
      exact ih

/-- **What a call that returns nil leaves**: the routes there were, and those
of its entries. -/
theorem routes_setDictionary_iff {entries : List (GoString × UInt16)} (h : Fits dict entries)
    (r : GoString) (c : UInt16) : (setDictionary dict entries).2.routes.get? r = some c ↔
      dict.routes.get? r = some c ∨ ∃ route, (route, c) ∈ entries ∧ trimSpace route = r := by
  induction entries generalizing dict with
  | nil => simp [setDictionary]
  | cons entry entries ih =>
    obtain ⟨route, code⟩ := entry
    obtain ⟨dict', hset, hrest⟩ := fits_cons_iff.1 h
    rw [setDictionary, hset]
    dsimp only
    rw [ih hrest]
    obtain ⟨hr, -, rfl⟩ := setEntry_eq_ok_iff.1 hset
    simp only [GoMap.get?_set, List.mem_cons, Prod.mk.injEq]
    constructor
    · rintro (hnew | ⟨route', hmem, heq⟩)
      · split at hnew
        · rename_i heq
          exact Or.inr ⟨route, Or.inl ⟨rfl, (Option.some.inj hnew).symm⟩, heq.symm⟩
        · exact Or.inl hnew
      · exact Or.inr ⟨route', Or.inr hmem, heq⟩
    · rintro (hold | ⟨route', ⟨rfl, rfl⟩ | hmem, heq⟩)
      · left
        rw [if_neg]
        · exact hold
        · -- the trimmed route of the first entry was free
          rintro rfl
          rw [hr] at hold
          cases hold
      · exact Or.inl (if_pos heq.symm)
      · exact Or.inr ⟨route', hmem, heq⟩

/-- A turn of `GetDictionary` writes the code of its key. -/
theorem get?_copyEntry (copy : GoMap GoString UInt16) (k k' : GoString) :
    (copyEntry dict copy k').get? k =
      (if k' = k then dict.routes.get? k else none).or (copy.get? k) := by
  unfold copyEntry
  by_cases hk : k' = k
  · subst hk
    rw [if_pos rfl]
    rcases dict.routes.get? k' with _ | v
    · rfl
    · exact GoMap.get?_set_self copy k' v
  · rw [if_neg hk]
    rcases dict.routes.get? k' with _ | v
    · rfl
    · exact GoMap.get?_set_of_ne (Ne.symm hk)

/-- A copy of the routes is the routes, whatever the order of the range. -/
theorem getDictionary_eq {ks : List GoString} (h : dict.routes.Ranges ks) :
    getDictionary dict ks = dict.routes := by
  ext1 k
  have hwrites := fun copy k' => @get?_copyEntry dict copy k k'
  unfold getDictionary
  rcases hk : dict.routes.get? k with _ | v
  · rw [GoMap.get?_foldl_of_none hwrites]
    · exact GoMap.get?_empty k
    · intro k' _
      split
      · exact hk
      · rfl
  · refine GoMap.get?_foldl_of_some hwrites ?_ ⟨k, (h.2 k).2 (by rw [hk]; rfl), by simp [hk]⟩
    intro k' _ w hw
    split at hw
    · rw [hk] at hw
      exact (Option.some.inj hw).symm
    · cases hw

/-- **Neither the verdict nor the result of `SetDictionary` depends on the
order of the entries.** It returns nil for one order if and only if it does
for all, namely if the call can go through. Then every order leaves the same
routes, those there were and the trimmed ones of the entries, and
`GetDictionary` copies them. -/
theorem setDictionary_order (dict : Dictionary) (entries : List (GoString × UInt16)) :
    ((∃ order, order.Perm entries ∧ (setDictionary dict order).1 = none) ↔
      ∀ order, order.Perm entries → (setDictionary dict order).1 = none) ∧
    ((∀ order, order.Perm entries → (setDictionary dict order).1 = none) ↔
      (entries.map fun entry => trimSpace entry.1).Nodup ∧ (entries.map Prod.snd).Nodup ∧
        ∀ entry ∈ entries,
          dict.routes.get? (trimSpace entry.1) = none ∧ dict.codes.get? entry.2 = none) ∧
    ∀ order, order.Perm entries → (setDictionary dict order).1 = none →
      (∀ r c, (setDictionary dict order).2.routes.get? r = some c ↔
        dict.routes.get? r = some c ∨ ∃ route, (route, c) ∈ entries ∧ trimSpace route = r) ∧
      (setDictionary dict order).2.routes = (setDictionary dict entries).2.routes ∧
      ∀ ks, (setDictionary dict order).2.routes.Ranges ks →
        getDictionary (setDictionary dict order).2 ks = (setDictionary dict entries).2.routes := by
  have hone : ∀ {order}, order.Perm entries → (setDictionary dict order).1 = none →
      Fits dict entries :=
    fun hperm h => (setDictionary_eq_none_iff.1 h).perm hperm.symm
  have hall : Fits dict entries → ∀ order, order.Perm entries →
      (setDictionary dict order).1 = none :=
    fun h order hperm => setDictionary_eq_none_iff.2 (h.perm hperm)
  refine ⟨⟨?_, ?_⟩, ⟨?_, ?_⟩, ?_⟩
  · rintro ⟨order, hperm, h⟩
    exact hall (hone hperm h)
  · intro h
    exact ⟨entries, .refl _, h entries (.refl _)⟩
  · intro h
    obtain ⟨hroutes, hcodes, hfree⟩ := hone (.refl _) (h entries (.refl _))
    exact ⟨hroutes, hcodes, hfree⟩
  · rintro ⟨hroutes, hcodes, hfree⟩
    exact hall ⟨hroutes, hcodes, hfree⟩
  · intro order hperm h
    have hfits := hone hperm h
    have hroutes : ∀ r c, (setDictionary dict order).2.routes.get? r = some c ↔
        dict.routes.get? r = some c ∨ ∃ route, (route, c) ∈ entries ∧ trimSpace route = r := by
      intro r c
      rw [routes_setDictionary_iff (hfits.perm hperm)]
      simp only [hperm.mem_iff]
    have hsame : (setDictionary dict order).2.routes = (setDictionary dict entries).2.routes := by
      ext1 r
      refine Option.ext fun c => ?_
      rw [hroutes, routes_setDictionary_iff hfits]
    refine ⟨hroutes, hsame, ?_⟩
    intro ks hks
    rw [getDictionary_eq hks, hsame]

/-! ## A call that fails -/

/-- An entry whose trimmed route or whose code is taken. -/
def Clashes (dict : Dictionary) (entry : GoString × UInt16) : Prop :=
  (dict.routes.get? (trimSpace entry.1)).isSome ∨ (dict.codes.get? entry.2).isSome

/-- A turn of the loop fails on an entry that clashes, and on no other. -/
theorem exists_setEntry_iff :
    (∃ dict', setEntry dict route code = .ok dict') ↔ ¬ Clashes dict (route, code) := by
  simp only [setEntry_eq_ok_iff, Clashes, not_or, Option.not_isSome_iff_eq_none]
  constructor
  · rintro ⟨dict', hr, hc, -⟩
    exact ⟨hr, hc⟩
  · rintro ⟨hr, hc⟩
    exact ⟨_, hr, hc, rfl⟩

/-- No call takes a route out. -/
theorem routes_setDictionary_of_mem {r : GoString} (entries : List (GoString × UInt16))
    (h : (dict.routes.get? r).isSome) : ((setDictionary dict entries).2.routes.get? r).isSome := by
  induction entries generalizing dict with
  | nil => exact h
  | cons entry entries ih =>
    obtain ⟨route, code⟩ := entry
    rw [setDictionary]
    split
    · exact h
    · rename_i dict' hset
      obtain ⟨-, -, rfl⟩ := setEntry_eq_ok_iff.1 hset
      refine ih ?_
      rw [GoMap.get?_set]
      split
      · rfl
      · exact h

/-- **When a call is all-or-nothing, whatever the order.** It can go through,
or every one of its entries clashes with what is there, so that it fails at
the first. -/
theorem setDictionary_atomic_iff (dict : Dictionary) (entries : List (GoString × UInt16)) :
    (∀ order, order.Perm entries → (setDictionary dict order).1 ≠ none →
      (setDictionary dict order).2 = dict) ↔
    Fits dict entries ∨ ∀ entry ∈ entries, Clashes dict entry := by
  constructor
  · intro hatomic
    by_contra hnot
    obtain ⟨hfits, hclash⟩ := not_or.1 hnot
    push Not at hclash
    obtain ⟨⟨route, code⟩, hmem, hfree⟩ := hclash
    -- the entry that does not clash comes first, and stays
    obtain ⟨before, after, rfl⟩ := List.append_of_mem hmem
    have hperm : ((route, code) :: (before ++ after)).Perm (before ++ (route, code) :: after) :=
      List.perm_middle.symm
    have hsame := hatomic _ hperm fun hnone =>
      hfits ((setDictionary_eq_none_iff.1 hnone).perm hperm.symm)
    obtain ⟨dict', hset⟩ := exists_setEntry_iff.2 hfree
    rw [setDictionary, hset] at hsame
    dsimp only at hsame
    obtain ⟨hr, -, rfl⟩ := setEntry_eq_ok_iff.1 hset
    have hstays := @routes_setDictionary_of_mem
      ⟨dict.routes.set (trimSpace route) code, dict.codes.set code (trimSpace route)⟩
      (trimSpace route) (before ++ after) (by simp)
    rw [hsame, hr] at hstays
    cases hstays
  · rintro (hfits | hclash) order hperm herr
    · exact absurd (setDictionary_eq_none_iff.2 (hfits.perm hperm)) herr
    · rcases order with _ | ⟨⟨route, code⟩, order⟩
      · rfl
      · have hfirst := hclash _ (hperm.mem_iff.1 List.mem_cons_self)
        rw [setDictionary]
        split
        · rfl
        · rename_i dict' hset
          exact absurd hfirst (exists_setEntry_iff.1 ⟨dict', hset⟩)

/-- **A call that fails at its second entry leaves its first one behind.** -/
theorem failed_call_leaves_entry :
    let dict := (setDictionary .empty [(lit "a", 1)]).2
    let call := setDictionary dict [(lit "b", 2), (lit "c", 1)]
    Reachable dict ∧ call.1 = some (lit "duplicated route(route: c, code: 1)") ∧
      dict.routes.get? (lit "b") = none ∧ call.2.routes.get? (lit "b") = some 2 := by
  intro dict call
  exact ⟨.call .empty (by decide), by decide +kernel, by decide +kernel, by decide +kernel⟩

end Messages

end Nrpc
