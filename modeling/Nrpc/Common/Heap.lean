import Mathlib.Data.Nat.Notation
import Mathlib.Logic.Function.Basic
/-!
# A heap of mutable values

References are numbers handed out in order; a reference below `next` was
handed out before. Reading and writing are total, so nothing has to be
said about references that do not exist yet.
-/

namespace Nrpc

/-- A heap: what each reference holds, and the next reference. -/
structure Heap (α : Type*) where
  cells : ℕ → α
  next : ℕ

namespace Heap

variable {α : Type*} (h : Heap α)

/-- What a reference holds. -/
def read (r : ℕ) : α := h.cells r

/-- The heap with another value at a reference. -/
def write (r : ℕ) (a : α) : Heap α := ⟨Function.update h.cells r a, h.next⟩

/-- The heap with a new reference; the reference is the old `next`. -/
def alloc (a : α) : Heap α := ⟨Function.update h.cells h.next a, h.next + 1⟩

variable {h} {a : α} {r r' : ℕ}

@[simp] theorem next_write : (h.write r a).next = h.next := rfl

@[simp] theorem next_alloc : (h.alloc a).next = h.next + 1 := rfl

@[simp] theorem read_write_self : (h.write r a).read r = a := by simp [read, write]

theorem read_write_of_ne (hne : r' ≠ r) : (h.write r a).read r' = h.read r' := by
  simp [read, write, hne]

@[simp] theorem read_alloc_next : (h.alloc a).read h.next = a := by simp [read, alloc]

/-- A new reference leaves the old ones alone. -/
theorem read_alloc_of_lt (hlt : r < h.next) : (h.alloc a).read r = h.read r := by
  have hne : r ≠ h.next := by omega
  simp [read, alloc, hne]

@[simp] theorem write_write {b : α} : (h.write r a).write r b = h.write r b := by
  simp [write]

@[simp] theorem alloc_write_next {b : α} : (h.alloc a).write h.next b = h.alloc b := by
  simp [alloc, write]

@[simp] theorem write_read : h.write r (h.read r) = h := by
  simp [write, read]

end Heap

end Nrpc
