import Mathlib.Algebra.Order.Group.Defs
import Mathlib.Data.List.Basic
/-!
# Sliding windows

A limiter that lets a call pass unless as many of the calls it has let pass
as the limit are younger than the width of the window. The calls it lets
pass are then never more than the limit in any stretch shorter than the
width (`Spaced`), and which calls it lets pass can be told from the oldest
of the last ones alone (`le_recent_iff`).
-/

namespace Nrpc

namespace Window

variable {τ : Type*} [AddCommGroup τ] [LinearOrder τ]

/-- How many of the accepted calls are younger than `width` at `now`. -/
def recent (width now : τ) (accepted : List τ) : ℕ :=
  accepted.countP fun t => now - t < width

/-- **The limiter**: whether a call is refused, and the calls accepted
so far. -/
def grant (limit : ℕ) (width : τ) (accepted : List τ) (now : τ) : Bool × List τ :=
  if limit ≤ recent width now accepted then (true, accepted) else (false, accepted ++ [now])

/-- **No stretch shorter than the width has more accepted calls than the
limit.** -/
def Spaced (limit : ℕ) (width : τ) (accepted : List τ) : Prop :=
  ∀ q : τ → Bool, (∀ a b, q a → q b → b - a < width) → accepted.countP q ≤ limit

theorem spaced_nil (limit : ℕ) (width : τ) : Spaced limit width [] :=
  fun _ _ => Nat.zero_le _

variable {limit : ℕ} {width now : τ} {accepted : List τ}

theorem recent_le_length : recent width now accepted ≤ accepted.length := List.countP_le_length

/-- The limiter keeps the accepted calls apart. -/
theorem Spaced.grant (h : Spaced limit width accepted) (now : τ) :
    Spaced limit width (grant limit width accepted now).2 := by
  intro q hq
  unfold Window.grant
  split
  · exact h q hq
  · rename_i hfew
    rw [List.countP_append]
    by_cases hnow : q now = true
    · -- what lies in a stretch with the new call is recent
      have hle : accepted.countP q ≤ recent width now accepted :=
        List.countP_mono_left fun a _ ha => decide_eq_true (hq a now ha hnow)
      rw [List.countP_singleton, if_pos hnow]
      omega
    · rw [List.countP_singleton, if_neg hnow]
      exact h q hq

section

variable [IsOrderedAddMonoid τ]

/-- The recent calls are a stretch shorter than the width. -/
theorem Spaced.recent_le (h : Spaced limit width accepted) (hpast : ∀ t ∈ accepted, t ≤ now) :
    recent width now accepted ≤ limit := by
  refine Nat.le_trans ?_ (h (fun t => decide (now - t < width) && decide (t ≤ now)) ?_)
  · refine List.countP_mono_left fun t ht hrecent => ?_
    rw [Bool.and_eq_true]
    exact ⟨hrecent, decide_eq_true (hpast t ht)⟩
  · intro a b ha hb
    simp only [Bool.and_eq_true, decide_eq_true_eq] at ha hb
    exact lt_of_le_of_lt (sub_le_sub_right hb.2 a) ha.1

/-- **The oldest of the last `limit` calls decides**: it is recent exactly if
`limit` calls are. -/
theorem le_recent_iff {old rest : List τ} {front : τ}
    (hsorted : (old ++ front :: rest).Pairwise (· ≤ ·)) (hlimit : rest.length + 1 = limit) :
    limit ≤ recent width now (old ++ front :: rest) ↔ now - front < width := by
  obtain ⟨-, hlast, hcross⟩ := List.pairwise_append.1 hsorted
  obtain ⟨hfront, -⟩ := List.pairwise_cons.1 hlast
  unfold recent
  rw [List.countP_append]
  constructor
  · intro hmany
    by_contra hstale
    -- neither the front nor anything before it is recent
    have hold : old.countP (fun t => now - t < width) = 0 := by
      refine List.countP_eq_zero.2 fun t ht hrecent => hstale ?_
      exact lt_of_le_of_lt (sub_le_sub_left (hcross t ht front List.mem_cons_self) now)
        (of_decide_eq_true hrecent)
    rw [hold, List.countP_cons_of_neg (by simpa using hstale)] at hmany
    have := @List.countP_le_length _ (fun t => decide (now - t < width)) rest
    omega
  · intro hrecent
    have hall : (front :: rest).countP (fun t => now - t < width) = (front :: rest).length := by
      refine List.countP_eq_length.2 fun t ht => decide_eq_true ?_
      rcases List.mem_cons.1 ht with rfl | ht
      · exact hrecent
      · exact lt_of_le_of_lt (sub_le_sub_left (hfront t ht) now) hrecent
    rw [hall, List.length_cons]
    omega

/-- The accepted calls of a window that takes one of its ends. -/
theorem Spaced.countP_le (h : Spaced limit width accepted) (x : τ) :
    accepted.countP (fun t => x ≤ t ∧ t < x + width) ≤ limit ∧
      accepted.countP (fun t => x < t ∧ t ≤ x + width) ≤ limit := by
  constructor
  · refine h _ fun a b ha hb => ?_
    rw [decide_eq_true_eq] at ha hb
    rw [sub_lt_iff_lt_add]
    exact lt_of_lt_of_le hb.2 (by rw [add_comm x]; exact add_le_add_right ha.1 width)
  · refine h _ fun a b ha hb => ?_
    rw [decide_eq_true_eq] at ha hb
    rw [sub_lt_iff_lt_add]
    exact lt_of_le_of_lt hb.2 (by rw [add_comm x]; exact add_lt_add_right ha.1 width)

end

end Window

end Nrpc
