import Nrpc.Discovery.Model.Servers
/-!
# The keys of servers

A server is stored under `servers/<type>/<id>`: `getKey` makes the key and
`parseEtcdKey` takes it apart at its slashes, and the two name the parts in
opposite orders. A key is taken apart into what it was made of exactly if
there is no slash in the parts, and a key under `servers/` that can be taken
apart is the key of its parts (`etcd_key_roundtrip`).
-/

namespace Nrpc

namespace Discovery

variable {key t id : GoString}

theorem getKey_eq (id t : GoString) : getKey id t = lit "servers" ++ 0x2F :: (t ++ 0x2F :: id) := by
  have hlit : lit "servers/" = lit "servers" ++ [0x2F] := by decide
  have hslash : lit "/" = [0x2F] := by decide
  simp [getKey, hlit, hslash]

/-- A key is parsed by its three parts. -/
theorem parseEtcdKey_eq_ok_iff :
    parseEtcdKey key = .ok (t, id) ↔ ∃ p, key.splitOn 0x2F = [p, t, id] := by
  unfold parseEtcdKey
  split
  · rename_i p svType svID hsplit
    rw [hsplit]
    constructor
    · intro h
      obtain ⟨rfl, rfl⟩ := Prod.mk.inj (Except.ok.inj h)
      exact ⟨p, rfl⟩
    · rintro ⟨p', h⟩
      obtain ⟨-, rfl, rfl⟩ : p = p' ∧ svType = t ∧ svID = id := by simpa using h
      rfl
  · rename_i hother
    refine ⟨fun h => (by cases h), ?_⟩
    rintro ⟨p, h⟩
    exact absurd h (hother p t id)

/-- The parts of the key of names without a slash. -/
theorem splitOn_getKey (ht : 0x2F ∉ t) (hid : 0x2F ∉ id) :
    (getKey id t).splitOn 0x2F = [lit "servers", t, id] :=
  splitOn_eq_three_iff.2 ⟨by decide, ht, hid, getKey_eq id t⟩

/-- **A key is parsed into what it was made of, if there is no slash in
it.** -/
theorem parseEtcdKey_getKey_iff {t' id' : GoString} :
    parseEtcdKey (getKey id t) = .ok (t', id') ↔
      0x2F ∉ t ∧ 0x2F ∉ id ∧ t' = t ∧ id' = id := by
  rw [parseEtcdKey_eq_ok_iff]
  constructor
  · rintro ⟨p, hsplit⟩
    -- three parts have two slashes between them, which are those of the format
    have hcount : (getKey id t).count 0x2F = 2 := by
      have hlength := length_splitOn 0x2F (getKey id t)
      rw [hsplit] at hlength
      exact (Nat.succ_injective hlength).symm
    have hslashes : (getKey id t).count 0x2F = t.count 0x2F + id.count 0x2F + 2 := by
      have hservers : (lit "servers").count 0x2F = 0 := by decide
      rw [getKey_eq, List.count_append, List.count_cons_self, List.count_append,
        List.count_cons_self]
      omega
    have ht : 0x2F ∉ t := List.count_eq_zero.1 (by omega)
    have hid : 0x2F ∉ id := List.count_eq_zero.1 (by omega)
    rw [splitOn_getKey ht hid] at hsplit
    obtain ⟨-, rfl, rfl⟩ : lit "servers" = p ∧ t = t' ∧ id = id' := by simpa using hsplit
    exact ⟨ht, hid, rfl, rfl⟩
  · rintro ⟨ht, hid, rfl, rfl⟩
    exact ⟨_, splitOn_getKey ht hid⟩

/-- **A key under `servers/` that can be parsed is the key of its parts.** -/
theorem eq_getKey_of_parse {rest : GoString} (hkey : key = lit "servers/" ++ rest)
    (hparse : parseEtcdKey key = .ok (t, id)) : key = getKey id t := by
  have hlit : lit "servers/" = lit "servers" ++ [0x2F] := by decide
  obtain ⟨p, hsplit⟩ := parseEtcdKey_eq_ok_iff.1 hparse
  obtain ⟨-, -, -, heq⟩ := splitOn_eq_three_iff.1 hsplit
  -- the first part ends at the first slash, so it is what stands before it
  have hfirst : p = lit "servers" := by
    have hservers : key.splitOn 0x2F = lit "servers" :: rest.splitOn 0x2F := by
      rw [hkey, hlit, List.append_assoc, List.singleton_append,
        List.splitOn_append_cons_self_of_not_mem (by decide)]
    rw [hsplit] at hservers
    exact (List.cons.inj hservers).1
  rw [heq, hfirst, getKey_eq]

/-- **The key format round-trips**, both ways. -/
theorem etcd_key_roundtrip :
    (∀ id t, parseEtcdKey (getKey id t) = .ok (t, id) ↔ 0x2F ∉ id ∧ 0x2F ∉ t) ∧
    (∀ id t, (∃ e, parseEtcdKey (getKey id t) = .error e) ↔ ¬ (0x2F ∉ id ∧ 0x2F ∉ t)) ∧
    (∀ key t id, lit "servers/" <+: key → parseEtcdKey key = .ok (t, id) →
      getKey id t = key) := by
  refine ⟨?_, ?_, ?_⟩
  · intro id t
    rw [parseEtcdKey_getKey_iff]
    tauto
  · intro id t
    rcases hparse : parseEtcdKey (getKey id t) with e | ⟨t', id'⟩
    · refine iff_of_true ⟨e, rfl⟩ ?_
      rintro ⟨hid, ht⟩
      rw [parseEtcdKey_getKey_iff.2 ⟨ht, hid, rfl, rfl⟩] at hparse
      cases hparse
    · obtain ⟨ht, hid, -, -⟩ := parseEtcdKey_getKey_iff.1 hparse
      refine iff_of_false ?_ (not_not.2 ⟨hid, ht⟩)
      rintro ⟨e, h⟩
      cases h
  · rintro key t id ⟨rest, hkey⟩ hparse
    exact (eq_getKey_of_parse hkey.symm hparse).symm

end Discovery

end Nrpc
