import Mathlib.Data.Finmap
/-!
# Finite maps

A map of the source is a finite partial function with no order on its
keys: Mathlib's `Finmap` at a constant family, under the operations a
program has. Ranging over a map visits its keys in some order, each once
(`Ranges`). What a loop that fills a map leaves under a key is read off
what its rounds write there (`get?_foldl_of_some`).
-/

namespace Nrpc

/-- A map from `κ` to `ν`. -/
def GoMap (κ ν : Type*) := Finmap fun _ : κ => ν

namespace GoMap

variable {κ ν : Type*} [DecidableEq κ]

instance [DecidableEq ν] : DecidableEq (GoMap κ ν) :=
  inferInstanceAs (DecidableEq (Finmap fun _ : κ => ν))

/-- The map without keys. -/
def empty : GoMap κ ν := (∅ : Finmap fun _ : κ => ν)

/-- The value under a key, if it is present. -/
def get? (m : GoMap κ ν) (k : κ) : Option ν := Finmap.lookup k m

/-- Assignment to a key. -/
def set (m : GoMap κ ν) (k : κ) (v : ν) : GoMap κ ν := Finmap.insert k v m

/-- Deletion of a key. -/
def del (m : GoMap κ ν) (k : κ) : GoMap κ ν := Finmap.erase k m

/-- The keys present. -/
def keys (m : GoMap κ ν) : Finset κ := Finmap.keys m

/-- An order a range over the map can visit its keys in. -/
def Ranges (m : GoMap κ ν) (ks : List κ) : Prop := ks.Nodup ∧ ∀ k, k ∈ ks ↔ (m.get? k).isSome

variable {m m' : GoMap κ ν} {k k' : κ} {v v' : ν}

@[simp] theorem get?_empty (k : κ) : (empty : GoMap κ ν).get? k = none := Finmap.lookup_empty k

theorem get?_set (m : GoMap κ ν) (k k' : κ) (v : ν) :
    (m.set k v).get? k' = if k' = k then some v else m.get? k' := by
  split
  · rename_i h
    subst h
    exact Finmap.lookup_insert m
  · rename_i h
    exact Finmap.lookup_insert_of_ne m h

@[simp] theorem get?_set_self (m : GoMap κ ν) (k : κ) (v : ν) :
    (m.set k v).get? k = some v := by rw [get?_set, if_pos rfl]

theorem get?_set_of_ne (h : k' ≠ k) : (m.set k v).get? k' = m.get? k' := by
  rw [get?_set, if_neg h]

theorem get?_del (m : GoMap κ ν) (k k' : κ) :
    (m.del k).get? k' = if k' = k then none else m.get? k' := by
  split
  · rename_i h
    subst h
    exact Finmap.lookup_erase k' m
  · rename_i h
    exact Finmap.lookup_erase_ne h

@[simp] theorem get?_del_self (m : GoMap κ ν) (k : κ) : (m.del k).get? k = none := by
  rw [get?_del, if_pos rfl]

theorem get?_del_of_ne (h : k' ≠ k) : (m.del k).get? k' = m.get? k' := by
  rw [get?_del, if_neg h]

/-- **Maps with the same values are equal.** -/
@[ext] theorem ext (h : ∀ k, m.get? k = m'.get? k) : m = m' :=
  Finmap.ext_lookup h

section Loop

variable {α : Type*} {l : List α} {g : GoMap κ ν → α → GoMap κ ν} {writes : α → Option ν}

/-- A loop whose rounds write nothing under a key leaves the key alone. -/
theorem get?_foldl_of_none (hg : ∀ m a, (g m a).get? k = (writes a).or (m.get? k))
    (hnone : ∀ a ∈ l, writes a = none) : (l.foldl g m).get? k = m.get? k := by
  induction l generalizing m with
  | nil => rfl
  | cons a l ih =>
    rw [List.foldl_cons, ih fun b hb => hnone b (by simp [hb]), hg, hnone a (by simp)]
    rfl

/-- **A loop whose rounds write one value under a key, and do write it,
leaves the key with it.** -/
theorem get?_foldl_of_some (hg : ∀ m a, (g m a).get? k = (writes a).or (m.get? k))
    (hval : ∀ a ∈ l, ∀ w ∈ writes a, w = v) (hsome : ∃ a ∈ l, (writes a).isSome) :
    (l.foldl g m).get? k = some v := by
  induction l generalizing m with
  | nil =>
    obtain ⟨a, ha, -⟩ := hsome
    cases ha
  | cons a l ih =>
    have hrest : ∀ b ∈ l, ∀ w ∈ writes b, w = v := fun b hb => hval b (by simp [hb])
    rw [List.foldl_cons]
    by_cases hlater : ∃ b ∈ l, (writes b).isSome
    · exact ih hrest hlater
    · -- the last write is here
      have hnone : ∀ b ∈ l, writes b = none := by
        intro b hb
        by_contra h
        exact hlater ⟨b, hb, Option.isSome_iff_ne_none.2 h⟩
      obtain ⟨b, hb, hw⟩ := hsome
      rcases List.mem_cons.1 hb with rfl | hb
      · obtain ⟨w, hw⟩ := Option.isSome_iff_exists.1 hw
        rw [get?_foldl_of_none hg hnone, hg, hw, ← hval b (by simp) w hw]
        rfl
      · rw [hnone b hb] at hw
        cases hw

/-- A loop over keys that writes a value under each key it has one for. -/
def fill (m : GoMap κ ν) (f : κ → Option ν) (ks : List κ) : GoMap κ ν :=
  ks.foldl (fun m k => (f k).elim m (m.set k)) m

/-- **What such a loop leaves under a key.** -/
theorem get?_fill {f : κ → Option ν} {ks : List κ} :
    (m.fill f ks).get? k = (if k ∈ ks then f k else none).or (m.get? k) := by
  induction ks generalizing m with
  | nil => simp [fill]
  | cons a ks ih =>
    have hround : ((f a).elim m (m.set a)).get? k =
        (if k = a then f k else none).or (m.get? k) := by
      by_cases ha : k = a
      · subst ha
        cases f k <;> simp
      · cases f a <;> simp [ha, get?_set_of_ne ha]
    have hrest : (m.fill f (a :: ks)).get? k =
        (if k ∈ ks then f k else none).or ((if k = a then f k else none).or (m.get? k)) := by
      rw [← hround]
      exact ih
    rw [hrest]
    by_cases ha : k = a
    · -- the key of the round may come again, with the same value
      subst ha
      by_cases hks : k ∈ ks
      · cases f k <;> simp [hks]
      · simp [hks]
    · simp [ha]

end Loop

/-- An order for the ranges over maps of one type. -/
structure Order (κ ν : Type*) [DecidableEq κ] where
  range : GoMap κ ν → List κ
  ranges : ∀ m : GoMap κ ν, m.Ranges (range m)

/-- A range over the keys of a map reaches every value of it. -/
theorem get?_fill_range {μ : Type*} (o : Order κ μ) (n : GoMap κ μ) {f : κ → Option ν}
    (hf : ∀ k, n.get? k = none → f k = none) :
    (m.fill f (o.range n)).get? k = (f k).or (m.get? k) := by
  rw [get?_fill]
  split
  · rfl
  · rename_i hmem
    rw [(o.ranges n).2, Option.not_isSome_iff_eq_none] at hmem
    rw [hf k hmem]

theorem mem_keys : k ∈ m.keys ↔ (m.get? k).isSome :=
  (Finmap.mem_keys).trans Finmap.lookup_isSome.symm

/-- The keys in some order. -/
theorem ranges_toList (m : GoMap κ ν) : m.Ranges m.keys.toList :=
  ⟨m.keys.nodup_toList, fun k => by rw [Finset.mem_toList, mem_keys]⟩

/-- The order of these lists. -/
noncomputable def Order.ofKeys : Order κ ν := ⟨fun m => m.keys.toList, ranges_toList⟩

/-- An order of a range lists the keys present. -/
theorem ranges_iff {ks : List κ} : m.Ranges ks ↔ ks.Nodup ∧ ks.toFinset = m.keys := by
  simp only [Ranges, Finset.ext_iff, List.mem_toFinset, mem_keys]

instance (m : GoMap κ ν) (ks : List κ) : Decidable (m.Ranges ks) :=
  decidable_of_iff _ ranges_iff.symm

end GoMap

end Nrpc
