import Mathlib.Data.List.Infix
/-!
# Stretches of a sequence of calls

Calls are made one after the other and noted when they begin. A moment is
what has been noted so far; all calls of it but the last have returned. Between
the beginning of one call and the return of another lies a stretch, and a
moment of the stretch is cut out of the run in one way only
(`Within.eq_append`).
-/

namespace Nrpc

namespace Stretch

variable {α : Type*}

/-- The calls that have returned: the last one may be under way. -/
def returned (now : List α) : List α := now.dropLast

/-- The moments from the beginning of `e` to the return of `d`. -/
def Within (e d : α) (now : List α) : Prop := e ∈ now ∧ d ∉ returned now

variable {x y now run : List α} {e d : α}

/-- A moment at which `e` has begun goes on behind it. -/
theorem eq_append_of_mem (he : e ∉ x) (hnow : now <+: x ++ e :: y) (hmem : e ∈ now) :
    ∃ z, now = x ++ e :: z ∧ z <+: y := by
  have hx : x <+: x ++ e :: y := List.prefix_append x _
  rcases List.prefix_or_prefix_of_prefix hnow hx with hle | ⟨v, rfl⟩
  · exact absurd (hle.subset hmem) he
  · rw [List.prefix_append_right_inj] at hnow
    cases v with
    | nil =>
      rw [List.append_nil] at hmem
      exact absurd hmem he
    | cons a z =>
      obtain ⟨rfl, hz⟩ := List.cons_prefix_cons.1 hnow
      exact ⟨z, rfl, hz⟩

/-- **A moment of the stretch ends between its two calls**, at `d` at the
latest, whether the run gets as far as `d` or not. -/
theorem Within.eq_append (h : Within e d now) (he : e ∉ x)
    (hrun : run <+: x ++ e :: y ∨ ∃ z, run = x ++ e :: (y ++ d :: z)) (hnow : now <+: run) :
    ∃ z, now = x ++ e :: z ∧ z <+: y ++ [d] := by
  obtain ⟨hmem, hd⟩ := h
  rcases hrun with hrun | ⟨r, rfl⟩
  · obtain ⟨z, rfl, hz⟩ := eq_append_of_mem he (hnow.trans hrun) hmem
    exact ⟨z, rfl, hz.trans (List.prefix_append y [d])⟩
  · have hlong : x ++ e :: (y ++ [d]) <+: x ++ e :: (y ++ d :: r) := ⟨r, by simp⟩
    rcases List.prefix_or_prefix_of_prefix hnow hlong with hle | ⟨v, rfl⟩
    · exact eq_append_of_mem he hle hmem
    · -- one call more and `d` would have returned
      have hv : v = [] := by
        by_contra hne
        refine hd ?_
        rw [returned, List.dropLast_append_of_ne_nil hne]
        simp
      subst hv
      exact ⟨y ++ [d], List.append_nil _, List.prefix_rfl⟩

end Stretch

end Nrpc
