import Mathlib.Algebra.BigOperators.Group.List.Basic
import Mathlib.Algebra.Order.Group.Multiset
import Mathlib.Logic.Function.Basic
/-!
# Tallies

What a list of parties holds in total, in any commutative monoid: the
requests in the hands of some goroutines, or the work they have left. One
party moves at a time, so a tally is followed through a run by what it is
after one entry of the list is replaced (`tally_set`), or after one value
of a numbered family of parties is (`tally_update`).
-/

namespace Nrpc

/-- What the parties of a list hold together. -/
def tally {α M : Type*} [AddCommMonoid M] (holds : α → M) (l : List α) : M :=
  (l.map holds).sum

section

variable {α M : Type*} [AddCommMonoid M] {holds : α → M} {l l' : List α} {a b : α} {i : ℕ}

@[simp] theorem tally_nil : tally holds [] = 0 := rfl

@[simp] theorem tally_cons : tally holds (a :: l) = holds a + tally holds l := by
  simp [tally]

@[simp] theorem tally_append : tally holds (l ++ l') = tally holds l + tally holds l' := by
  simp [tally]

/-- **A replaced entry.** The tally trades what the old entry held for
what the new one holds. -/
theorem tally_set (ha : l[i]? = some a) :
    tally holds (l.set i b) + holds a = tally holds l + holds b := by
  induction l generalizing i with
  | nil => simp at ha
  | cons x xs ih =>
    cases i with
    | zero =>
      obtain rfl : x = a := by simpa using ha
      simp only [List.set_cons_zero, tally_cons]
      rw [add_right_comm, add_comm (holds b), add_right_comm]
    | succ i =>
      have hrest := @ih i (by simpa using ha)
      calc tally holds ((x :: xs).set (i + 1) b) + holds a
          = holds x + (tally holds (xs.set i b) + holds a) := by
            simp only [List.set_cons_succ, tally_cons, add_assoc]
        _ = holds x + (tally holds xs + holds b) := by rw [hrest]
        _ = tally holds (x :: xs) + holds b := by rw [tally_cons, add_assoc]

/-- **A replaced party of a numbered family.** -/
theorem tally_update {f : ℕ → α} {n q : ℕ} (hq : q < n) :
    tally holds ((List.range n).map (Function.update f q b)) + holds (f q) =
      tally holds ((List.range n).map f) + holds b := by
  induction n with
  | zero => omega
  | succ n ih =>
    simp only [List.range_succ, List.map_append, tally_append, List.map_cons, List.map_nil,
      tally_cons, tally_nil, add_zero]
    by_cases hqn : q = n
    · subst hqn
      have hbelow : (List.range q).map (Function.update f q b) = (List.range q).map f := by
        refine List.map_congr_left ?_
        intro r hr
        have hne : r ≠ q := by have := List.mem_range.1 hr; omega
        exact Function.update_of_ne hne _ _
      rw [hbelow, Function.update_self, add_right_comm]
    · have hne : n ≠ q := fun h => hqn h.symm
      rw [Function.update_of_ne hne, add_right_comm, ih (by omega), add_right_comm]

/-- What two things come to together. -/
theorem tally_add {holds' : α → M} :
    tally (fun a => holds a + holds' a) l = tally holds l + tally holds' l := by
  induction l with
  | nil => simp
  | cons x xs ih => rw [tally_cons, tally_cons, tally_cons, ih, add_add_add_comm]

/-- Parties that hold nothing hold nothing together. -/
theorem tally_eq_zero (hzero : ∀ a ∈ l, holds a = 0) : tally holds l = 0 := by
  induction l with
  | nil => rfl
  | cons x xs ih =>
    rw [tally_cons, hzero x (by simp), ih fun a ha => hzero a (by simp [ha]), add_zero]

end

section

variable {α : Type*} {holds holds' : α → ℕ} {l : List α} {a b x : α} {i : ℕ}

/-- Each party holds no more than all of them. -/
theorem le_tally (ha : a ∈ l) : holds a ≤ tally holds l := by
  induction l with
  | nil => cases ha
  | cons y ys ih =>
    rw [tally_cons]
    rcases List.mem_cons.1 ha with rfl | ha
    · omega
    · have := ih ha
      omega

/-- Parties that each hold no more hold no more together. -/
theorem tally_mono (h : ∀ a, holds a ≤ holds' a) : tally holds l ≤ tally holds' l := by
  induction l with
  | nil => exact Nat.le_refl _
  | cons y ys ih =>
    rw [tally_cons, tally_cons]
    exact Nat.add_le_add (h y) ih

/-- **Where one party holds all there is, the others hold nothing**, also
once it is replaced. -/
theorem eq_or_eq_zero_of_mem_set (ha : l[i]? = some a) (hall : tally holds l ≤ holds a)
    (hx : x ∈ l.set i b) : x = b ∨ holds x = 0 := by
  induction l generalizing i with
  | nil => simp at ha
  | cons y ys ih =>
    rw [tally_cons] at hall
    cases i with
    | zero =>
      obtain rfl : y = a := by simpa using ha
      rcases List.mem_cons.1 hx with rfl | hx
      · exact Or.inl rfl
      · have := @le_tally α holds ys x hx
        omega
    | succ i =>
      have hrest : ys[i]? = some a := by simpa using ha
      have hmem := List.mem_of_getElem? hrest
      have := @le_tally α holds ys a hmem
      rcases List.mem_cons.1 hx with rfl | hx
      · omega
      · exact ih hrest (by omega) hx

end

/-- What one party holds, all of them hold. -/
theorem mem_tally {α β : Type*} {holds : α → Multiset β} {l : List α} {a : α} {b : β} (ha : a ∈ l)
    (hb : b ∈ holds a) : b ∈ tally holds l := by
  induction l with
  | nil => cases ha
  | cons x xs ih =>
    rw [tally_cons, Multiset.mem_add]
    rcases List.mem_cons.1 ha with rfl | ha
    · exact Or.inl hb
    · exact Or.inr (ih ha)

/-- An entry other than the one replaced stays. -/
theorem mem_set_of_ne {α : Type*} {l : List α} {i : ℕ} {a b x : α} (ha : l[i]? = some a)
    (hx : x ∈ l) (hne : x ≠ a) : x ∈ l.set i b := by
  obtain ⟨j, hj⟩ := List.mem_iff_getElem?.1 hx
  refine List.mem_iff_getElem?.2 ⟨j, ?_⟩
  rw [List.getElem?_set_ne, hj]
  rintro rfl
  rw [ha] at hj
  exact hne (Option.some.inj hj).symm

/-- A replaced entry that is as good as the others keeps the list good. -/
theorem forall_mem_set {α : Type*} {P : α → Prop} {l : List α} {i : ℕ} {b : α}
    (hl : ∀ a ∈ l, P a) (hb : P b) : ∀ a ∈ l.set i b, P a := by
  intro a ha
  rcases List.mem_or_eq_of_mem_set ha with hmem | rfl
  · exact hl a hmem
  · exact hb

/-- What is read off the entries stays if it does for the replaced one. -/
theorem map_set_of_eq {α β : Type*} {f : α → β} {l : List α} {i : ℕ} {a b : α}
    (ha : l[i]? = some a) (hf : f b = f a) : (l.set i b).map f = l.map f := by
  refine List.ext_getElem? ?_
  intro k
  rw [List.getElem?_map, List.getElem?_map]
  by_cases hk : i = k
  · subst hk
    obtain ⟨hi, rfl⟩ := List.getElem?_eq_some_iff.1 ha
    simp [hi, hf]
  · rw [List.getElem?_set_ne hk]

end Nrpc
