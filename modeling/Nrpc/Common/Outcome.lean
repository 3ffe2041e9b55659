import Mathlib.Data.List.Basic
/-!
# How a call ends

A call returns a value, returns an error, or panics; a panic is neither
of the first two and no caller can act on it. Index and slice
expressions are the calls that panic out of range.
-/

namespace Nrpc

/-- **The end of a call.** -/
inductive Outcome (ε : Type*) (α : Type) where
  | ok (a : α)
  | err (e : ε)
  | panic
  deriving DecidableEq, Repr

namespace Outcome

variable {ε : Type*} {α β : Type}

/-- Sequencing: an error or a panic ends the call. -/
protected def bind : Outcome ε α → (α → Outcome ε β) → Outcome ε β
  | ok a, f => f a
  | err e, _ => err e
  | panic, _ => panic

instance {ε : Type*} : Monad (Outcome ε) where
  pure := ok
  bind := Outcome.bind

instance {ε : Type*} : LawfulMonad (Outcome ε) :=
  .mk' _ (by rintro _ (_ | _ | _) <;> rfl) (fun _ _ => rfl)
    (by rintro _ _ _ (_ | _ | _) _ _ <;> rfl)

@[simp] theorem pure_eq (a : α) : (pure a : Outcome ε α) = ok a := rfl

@[simp] theorem ok_bind (a : α) (f : α → Outcome ε β) : (ok a >>= f) = f a := rfl

@[simp] theorem err_bind (e : ε) (f : α → Outcome ε β) : (err e >>= f) = err e := rfl

@[simp] theorem panic_bind (f : α → Outcome ε β) : (panic >>= f) = panic := rfl

/-- A sequence panics in its first half, or behind its value. -/
theorem bind_eq_panic_iff {x : Outcome ε α} {f : α → Outcome ε β} :
    (x >>= f) = panic ↔ x = panic ∨ ∃ a, x = ok a ∧ f a = panic := by
  cases x <;> simp

/-- A sequence returns what its second half makes of the value of the
first. -/
theorem bind_eq_ok_iff {x : Outcome ε α} {f : α → Outcome ε β} {b : β} :
    (x >>= f) = ok b ↔ ∃ a, x = ok a ∧ f a = ok b := by
  cases x <;> simp

/-- **The invariant rule for a loop.** What each round keeps, the loop
keeps. -/
theorem foldlM_invariant {I : β → Prop} {f : β → α → Outcome ε β} {l : List α} {b b' : β}
    (hf : ∀ b a b', a ∈ l → I b → f b a = ok b' → I b') (hb : I b)
    (hfold : l.foldlM f b = ok b') : I b' := by
  induction l generalizing b with
  | nil =>
    obtain rfl : b = b' := by simpa using hfold
    exact hb
  | cons a l ih =>
    rw [List.foldlM_cons] at hfold
    obtain ⟨mid, hmid, hrest⟩ := bind_eq_ok_iff.1 hfold
    refine ih ?_ (hf b a mid List.mem_cons_self hb hmid) hrest
    intro b a b' ha
    exact hf b a b' (List.mem_cons_of_mem _ ha)

/-- A result that is a value or an error is never a panic. -/
def ofExcept : Except ε α → Outcome ε α
  | .ok a => ok a
  | .error e => err e

@[simp] theorem ofExcept_ne_panic (x : Except ε α) : ofExcept x ≠ panic := by
  cases x <;> simp [ofExcept]

@[simp] theorem ofExcept_ok (a : α) : ofExcept (.ok a : Except ε α) = ok a := rfl

theorem ofExcept_eq_ok_iff {x : Except ε α} {a : α} : ofExcept x = ok a ↔ x = .ok a := by
  cases x <;> simp [ofExcept]

/-- The index expression `l[i]`. -/
def index (l : List α) (i : ℕ) : Outcome ε α :=
  match l[i]? with
  | some a => ok a
  | none => panic

/-- The slice expression `l[lo:hi]`. -/
def slice (l : List α) (lo hi : ℕ) : Outcome ε (List α) :=
  if lo ≤ hi ∧ hi ≤ l.length then ok ((l.take hi).drop lo) else panic

/-- The slice expression `l[lo:]`. -/
def sliceFrom (l : List α) (lo : ℕ) : Outcome ε (List α) :=
  if lo ≤ l.length then ok (l.drop lo) else panic

theorem index_eq_panic_iff {l : List α} {i : ℕ} :
    (index l i : Outcome ε α) = panic ↔ l.length ≤ i := by
  rw [index, ← List.getElem?_eq_none_iff]
  cases l[i]? <;> simp

theorem index_append_cons (l r : List α) (a : α) :
    (index (l ++ a :: r) l.length : Outcome ε α) = ok a := by
  simp [index]

theorem slice_append (l m r : List α) :
    (slice (l ++ m ++ r) l.length (l.length + m.length) : Outcome ε (List α)) = ok m := by
  have hlen : l.length ≤ l.length + m.length ∧
      l.length + m.length ≤ (l ++ m ++ r).length := by
    simp only [List.length_append]
    omega
  rw [slice, if_pos hlen, ← List.length_append, List.take_left, List.drop_left]

theorem sliceFrom_append (l r : List α) :
    (sliceFrom (l ++ r) l.length : Outcome ε (List α)) = ok r := by
  rw [sliceFrom, if_pos (by simp), List.drop_left]

end Outcome

end Nrpc
