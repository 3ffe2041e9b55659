import Nrpc.Context.Model.Context
/-!
# Reading and writing propagated values

What the operations on contexts come to, by what the context holds. A
context with a map is read and written in place; a context with a nil map
reads as empty and cannot be written; a context without a map reads as
empty and is given a new map when it is written.
-/

namespace Nrpc

namespace Context

variable {m : PropagateMap} {h : Store} {r : ℕ} {k k' : GoString} {v : GoValue}

@[simp] theorem index_set_self : index (m.set k v) k = v := by simp [index]

theorem index_set_of_ne (hne : k' ≠ k) : index (m.set k v) k' = index m k' := by
  simp only [index, GoMap.get?_set_of_ne hne]

@[simp] theorem index_empty : index .empty k = .nil := by simp [index]

@[simp] theorem contents_some : contents h (some r) = h.read r := rfl

@[simp] theorem toMap_map (p : MapRef) : toMap h (some ⟨some p⟩) = (p, h) := rfl

@[simp] theorem toMap_background : toMap h (some ⟨none⟩) = (some h.next, h.alloc .empty) := rfl

@[simp] theorem add_map :
    addToPropagateCtx h (some ⟨some (some r)⟩) k v =
      .ok (⟨some (some r)⟩, h.write r ((h.read r).set k v)) := rfl

@[simp] theorem add_nilMap : addToPropagateCtx h (some ⟨some none⟩) k v = .panic := rfl

@[simp] theorem add_background :
    addToPropagateCtx h (some ⟨none⟩) k v =
      .ok (⟨some (some h.next)⟩, (h.alloc .empty).write h.next (GoMap.empty.set k v)) := by
  simp [addToPropagateCtx, assign]

@[simp] theorem get_map :
    getFromPropagateCtx h (some ⟨some (some r)⟩) k = index (h.read r) k := rfl

@[simp] theorem get_nilMap : getFromPropagateCtx h (some ⟨some none⟩) k = .nil := by
  simp [getFromPropagateCtx, contents]

@[simp] theorem get_background : getFromPropagateCtx h (some ⟨none⟩) k = .nil := by
  simp [getFromPropagateCtx]

/-- **What a context has behind an addition**: the value under its key, and
what it had under the others. -/
theorem get_of_add {ctx : Option Ctx} {ctx' : Ctx} {h' : Store}
    (hadd : addToPropagateCtx h ctx k v = .ok (ctx', h')) :
    getFromPropagateCtx h' (some ctx') k' =
      if k' = k then v else getFromPropagateCtx h ctx k' := by
  have hset : ∀ m : PropagateMap, index (m.set k v) k' = if k' = k then v else index m k' := by
    intro m
    split
    · rename_i hk
      rw [hk, index_set_self]
    · rename_i hk
      exact index_set_of_ne hk
  rcases ctx with _ | ⟨_ | _ | r⟩
  · -- a nil parent is refused behind the write
    cases hadd
  · rw [add_background] at hadd
    obtain ⟨rfl, rfl⟩ := Prod.mk.inj (Outcome.ok.inj hadd)
    rw [get_map, Heap.read_write_self, hset, get_background, index_empty]
  · cases hadd
  · rw [add_map] at hadd
    obtain ⟨rfl, rfl⟩ := Prod.mk.inj (Outcome.ok.inj hadd)
    rw [get_map, Heap.read_write_self, hset, get_map]

/-- **An object is decoded into a context with a map of its own.** -/
theorem decode_object {json : Json} {data : List UInt8} {entries : List (GoString × GoValue)}
    (hne : data ≠ []) (hparse : json.parse data = .ok (.object entries)) :
    decode json h data = .ok (some ⟨some (some h.next)⟩, h.alloc (ofEntries entries)) := by
  simp only [decode, if_neg hne, unmarshalMap, hparse]
  rfl

end Context

end Nrpc
