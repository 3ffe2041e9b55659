import Mathlib.Algebra.Order.Group.Int
import Nrpc.Common.Window
import Nrpc.Pipeline.Model.RateLimiter
/-!
# The rate limiter is a sliding window

The limiter keeps the last calls it has let pass, as many as its limit, and
looks at the oldest only. Calls come at times that do not go back, so the
calls it has let pass are sorted, and the oldest of the last ones tells
whether there are too many in the window (`Window.le_recent_iff`). So each
call is answered as the window over the whole history answers it, and what
holds of the window holds of the limiter.
-/

namespace Nrpc

namespace Pipeline

variable {n : ℕ} {r : RateLimiter} {passed : List ℤ} {now : ℤ}

/-- A duration that was cut off compares as the difference does. -/
theorem sub_lt_iff {interval : Int64} (hpos : 0 < interval) (now t : ℤ) :
    sub now t < interval ↔ now - t < interval.toInt := by
  have hle := Int64.toInt_le interval
  have hzero : (0 : ℤ) < interval.toInt := Int64.lt_iff_toInt_lt.1 hpos
  have hmin : Int64.minValue.toInt ≤ 0 := by decide
  rw [Int64.lt_iff_toInt_lt, sub]
  by_cases hlow : Int64.minValue.toInt ≤ now - t
  · by_cases hhigh : now - t ≤ Int64.maxValue.toInt
    · rw [Int64.toInt_ofIntClamp hlow hhigh]
    · have hclamp : Int64.ofIntClamp (now - t) = Int64.maxValue := by
        rw [Int64.ofIntClamp, dif_pos hlow, dif_neg hhigh]
      rw [hclamp]
      omega
  · have hclamp : Int64.ofIntClamp (now - t) = Int64.minValue := by
      rw [Int64.ofIntClamp, dif_neg hlow]
    rw [hclamp]
    omega

/-- **The limiter has the last calls that passed**, as many as its limit, or
all of them. -/
structure Keeps (n : ℕ) (r : RateLimiter) (passed : List ℤ) : Prop where
  limit : r.limit = n
  le : r.times.length ≤ n
  last : ∃ old, passed = old ++ r.times ∧ (r.times.length < n → old = [])
  sorted : passed.Pairwise (· ≤ ·)

/-- **A call is answered as the window over all that passed answers it.** -/
theorem shouldRateLimit_eq (hr : Keeps n r passed) (hn : 1 ≤ n) (hpos : 0 < r.interval)
    (hpast : ∀ t ∈ passed, t ≤ now) :
    ∃ r', shouldRateLimit r now = .ok ((Window.grant n r.interval.toInt passed now).1, r') ∧
      Keeps n r' (Window.grant n r.interval.toInt passed now).2 ∧ r'.interval = r.interval ∧
      r'.forceDisable = r.forceDisable := by
  obtain ⟨old, hpassed, hall⟩ := hr.last
  have hsorted : (passed ++ [now]).Pairwise (· ≤ ·) := by
    refine List.pairwise_append.2 ⟨hr.sorted, List.pairwise_singleton _ _, ?_⟩
    intro t ht t' ht'
    rw [List.mem_singleton.1 ht']
    exact hpast t ht
  unfold shouldRateLimit Window.grant
  by_cases hroom : r.times.length < n
  · -- everything that passed is there, and it is not enough
    have hfew : ¬ n ≤ Window.recent r.interval.toInt now passed := by
      have hle := @Window.recent_le_length _ _ _ r.interval.toInt now passed
      rw [hpassed, hall hroom, List.nil_append] at hle ⊢
      omega
    rw [if_pos (by rw [hr.limit]; exact_mod_cast hroom), if_neg hfew]
    refine ⟨_, rfl, ⟨hr.limit, ?_, ⟨old, ?_, ?_⟩, hsorted⟩, rfl, rfl⟩
    · rw [List.length_append, List.length_singleton]
      omega
    · rw [hpassed, List.append_assoc]
    · exact fun _ => hall hroom
  · rw [if_neg (by rw [hr.limit]; exact_mod_cast hroom)]
    have hlength : r.times.length = n := Nat.le_antisymm hr.le (Nat.not_lt.1 hroom)
    rcases htimes : r.times with _ | ⟨front, rest⟩
    · rw [htimes, List.length_nil] at hlength
      omega
    · rw [htimes] at hpassed hlength
      have hmany : n ≤ Window.recent r.interval.toInt now passed ↔
          now - front < r.interval.toInt := by
        rw [hpassed]
        exact Window.le_recent_iff (hpassed ▸ hr.sorted) hlength
      dsimp only
      by_cases hyoung : now - front < r.interval.toInt
      · rw [if_pos ((sub_lt_iff hpos now front).2 hyoung), if_pos (hmany.2 hyoung)]
        exact ⟨r, rfl, hr, rfl, rfl⟩
      · rw [if_neg fun h => hyoung ((sub_lt_iff hpos now front).1 h),
          if_neg fun h => hyoung (hmany.1 h)]
        refine ⟨_, rfl, ⟨hr.limit, ?_, ⟨old ++ [front], ?_, ?_⟩, hsorted⟩, rfl, rfl⟩
        · simpa using hlength.le
        · rw [hpassed]
          simp
        · intro hless
          simp only [List.length_append, List.length_singleton] at hless
          rw [List.length_cons] at hlength
          omega

/-- **The hook passes context and value on**, with an error for a call the
window refuses if the limit is enforced. -/
theorem handleBefore_eq {C V : Type} (ctx : C) (value : V) (hr : Keeps n r passed) (hn : 1 ≤ n)
    (hpos : 0 < r.interval) (hpast : ∀ t ∈ passed, t ≤ now) :
    ∃ r', handleBefore r now ctx value = .ok ((ctx, value,
        if (Window.grant n r.interval.toInt passed now).1 ∧ r.forceDisable then
          some errRateLimitExceeded else none), r') ∧
      Keeps n r' (Window.grant n r.interval.toInt passed now).2 := by
  obtain ⟨r', hstep, hr', -, hforce⟩ := shouldRateLimit_eq hr hn hpos hpast
  refine ⟨r', ?_, hr'⟩
  simp only [handleBefore, hstep, Outcome.ok_bind, hforce, Outcome.pure_eq]
  split
  · rfl
  · rfl

/-! ## Runs -/

/-- What the window accepts is behind what it had. -/
theorem grant_snd (width : ℤ) : (Window.grant n width passed now).2 =
    passed ++ if (Window.grant n width passed now).1 then [] else [now] := by
  unfold Window.grant
  split
  · simp
  · simp

theorem accepted_cons (calls : List ℤ) (limited : Bool) (answers : List Bool) :
    accepted (now :: calls) (limited :: answers) =
      (if limited then [] else [now]) ++ accepted calls answers := by
  cases limited with
  | true => simp [accepted]
  | false => simp [accepted]

/-- The window refuses a call exactly when the limit is reached. -/
theorem grant_fst_iff {width : ℤ} (hspaced : Window.Spaced n width passed)
    (hpast : ∀ t ∈ passed, t ≤ now) : (Window.grant n width passed now).1 = true ↔
      Window.recent width now passed = n := by
  have hle := hspaced.recent_le hpast
  unfold Window.grant
  split
  · rename_i hmany
    exact iff_of_true rfl (Nat.le_antisymm hle hmany)
  · rename_i hfew
    refine iff_of_false (by simp) ?_
    omega

/-- **A run of calls**, from a limiter that has the last of what passed. -/
theorem shouldRateLimits_eq {calls : List ℤ} (hr : Keeps n r passed) (hn : 1 ≤ n)
    (hpos : 0 < r.interval) (hspaced : Window.Spaced n r.interval.toInt passed)
    (hcalls : calls.Pairwise (· ≤ ·)) (hpast : ∀ t ∈ passed, ∀ t' ∈ calls, t ≤ t') :
    ∃ answers r', shouldRateLimits r calls = .ok (answers, r') ∧
      answers.length = calls.length ∧
      (∀ i now limited, calls[i]? = some now → answers[i]? = some limited →
        (limited = true ↔ Window.recent r.interval.toInt now
          (passed ++ accepted (calls.take i) (answers.take i)) = n)) ∧
      Window.Spaced n r.interval.toInt (passed ++ accepted calls answers) := by
  induction calls generalizing r passed with
  | nil =>
    refine ⟨[], r, rfl, rfl, ?_, by simpa [accepted] using hspaced⟩
    intro i now limited h
    simp at h
  | cons now calls ih =>
    obtain ⟨hlater, hcalls⟩ := List.pairwise_cons.1 hcalls
    have hnow : ∀ t ∈ passed, t ≤ now := fun t ht => hpast t ht now List.mem_cons_self
    obtain ⟨r₁, hstep, hr₁, hinterval, -⟩ := shouldRateLimit_eq hr hn hpos hnow
    have hpast₁ : ∀ t ∈ (Window.grant n r.interval.toInt passed now).2, ∀ t' ∈ calls, t ≤ t' := by
      intro t ht t' ht'
      rw [grant_snd] at ht
      rcases List.mem_append.1 ht with ht | ht
      · exact hpast t ht t' (List.mem_cons_of_mem _ ht')
      · split at ht
        · cases ht
        · rw [List.mem_singleton.1 ht]
          exact hlater t' ht'
    obtain ⟨answers, r₂, hrun, hlength, hanswers, hall⟩ := ih hr₁ (by rw [hinterval]; exact hpos)
      (by rw [hinterval]; exact hspaced.grant now) hcalls hpast₁
    rw [hinterval] at hanswers hall
    refine ⟨(Window.grant n r.interval.toInt passed now).1 :: answers, r₂, ?_, ?_, ?_, ?_⟩
    · rw [shouldRateLimits, hstep]
      simp only [Outcome.ok_bind, hrun, Outcome.pure_eq]
    · rw [List.length_cons, hlength, List.length_cons]
    · intro i now' limited hcall hanswer
      cases i with
      | zero =>
        obtain rfl := Option.some.inj hcall
        obtain rfl := Option.some.inj hanswer
        simpa [accepted] using grant_fst_iff hspaced hnow
      | succ i =>
        rw [List.getElem?_cons_succ] at hcall hanswer
        rw [hanswers i now' limited hcall hanswer, List.take_succ_cons, List.take_succ_cons,
          accepted_cons, ← List.append_assoc, ← grant_snd]
    · rw [accepted_cons, ← List.append_assoc, ← grant_snd]
      exact hall

/-- **The limiter is exactly a sliding window.** For calls at times that do
not go back, each is answered, and refused if and only if exactly `limit` of
the calls that passed before it are younger than the interval. So no call is
refused while there are fewer, and a window of the interval's length that
takes one of its ends has at most `limit` calls that passed. -/
theorem sliding_window (limit : ℤ) (interval : Int64) (forceDisable : Bool) (calls : List ℤ)
    (hlimit : 1 ≤ limit) (hinterval : 0 < interval) (hcalls : calls.Pairwise (· ≤ ·)) :
    ∃ answers r,
      shouldRateLimits (newRateLimiter limit interval forceDisable) calls = .ok (answers, r) ∧
      answers.length = calls.length ∧
      (∀ i now limited, calls[i]? = some now → answers[i]? = some limited →
        let young := (accepted (calls.take i) (answers.take i)).countP
          fun t => now - t < interval.toInt
        (limited = true ↔ (young : ℤ) = limit) ∧ ((young : ℤ) < limit → limited = false)) ∧
      ∀ x, ((accepted calls answers).countP fun t => x ≤ t ∧ t < x + interval.toInt : ℕ) ≤ limit ∧
        ((accepted calls answers).countP fun t => x < t ∧ t ≤ x + interval.toInt : ℕ) ≤ limit := by
  obtain ⟨n, rfl⟩ := Int.eq_ofNat_of_zero_le (Int.le_trans (by decide) hlimit)
  have hkeeps : Keeps n (newRateLimiter n interval forceDisable) [] :=
    ⟨rfl, Nat.zero_le _, ⟨[], rfl, fun _ => rfl⟩, List.Pairwise.nil⟩
  obtain ⟨answers, r, hrun, hlength, hanswers, hspaced⟩ := shouldRateLimits_eq hkeeps
    (by exact_mod_cast hlimit) hinterval (Window.spaced_nil n _) hcalls (by simp)
  refine ⟨answers, r, hrun, hlength, ?_, ?_⟩
  · intro i now limited hcall hanswer young
    have hiff : limited = true ↔ (young : ℤ) = n := by
      rw [hanswers i now limited hcall hanswer, List.nil_append, Int.ofNat_inj]
      rfl
    refine ⟨hiff, fun hfew => ?_⟩
    rw [← Bool.not_eq_true, hiff]
    omega
  · intro x
    obtain ⟨hleft, hright⟩ := hspaced.countP_le x
    exact ⟨by exact_mod_cast hleft, by exact_mod_cast hright⟩

/-- Two calls pass in ten, the third is refused, and the place of the first
is free once it is ten old. -/
theorem sliding_window_two :
    ∃ r, shouldRateLimits (newRateLimiter 2 10 true) [0, 4, 9, 10, 10] =
        .ok ([false, false, true, false, true], r) ∧
      ∀ x, ((accepted [0, 4, 9, 10, 10] [false, false, true, false, true]).countP
          fun t => x ≤ t ∧ t < x + (10 : Int64).toInt : ℕ) ≤ (2 : ℤ) ∧
        ((accepted [0, 4, 9, 10, 10] [false, false, true, false, true]).countP
          fun t => x < t ∧ t ≤ x + (10 : Int64).toInt : ℕ) ≤ (2 : ℤ) := by
  obtain ⟨answers, r, hrun, -, -, hwindow⟩ := sliding_window 2 10 true [0, 4, 9, 10, 10]
    (by decide) (by decide) (by decide)
  have heval : shouldRateLimits (newRateLimiter 2 10 true) [0, 4, 9, 10, 10] =
      .ok ([false, false, true, false, true], ⟨2, 10, [4, 10], true⟩) := by rfl
  obtain ⟨rfl, rfl⟩ := Prod.mk.inj (Outcome.ok.inj (heval.symm.trans hrun))
  exact ⟨_, heval, hwindow⟩

end Pipeline

end Nrpc
