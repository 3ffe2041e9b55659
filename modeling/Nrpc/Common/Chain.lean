import Mathlib.Data.List.Basic
/-!
# Chains of stages

The stages of a chain run in order, each fed what the one before it left,
until one leaves something to stop at. `run` keeps which stages ran and what
each was fed. A chain either goes through, and then every stage was fed what
the fold of those before it leaves, or it is a part that goes through and
one more stage (`goes_or_stops`).
-/

namespace Nrpc

namespace Chain

variable {H S : Type} (step : H → S → S) (stop : S → Bool)

/-- What the stages leave when all of them run. -/
def left (hs : List H) (s : S) : S := hs.foldl (fun s h => step h s) s

/-- The stages, each with what it is fed when all of them run. -/
def fed (hs : List H) (s : S) : List (H × S) := hs.zip (hs.scanl (fun s h => step h s) s)

/-- The stages that run, each with what it was fed, and what the last of
them left. -/
def run : List H → S → List (H × S) × S
  | [], s => ([], s)
  | h :: hs, s =>
    if stop (step h s) then ([(h, s)], step h s)
    else ((h, s) :: (run hs (step h s)).1, (run hs (step h s)).2)

/-- No stage leaves something to stop at. -/
def Goes (hs : List H) (s : S) : Prop := ∀ p ∈ fed step hs s, stop (step p.1 p.2) = false

variable {step stop}

@[simp] theorem fed_nil (s : S) : fed step [] s = [] := rfl

@[simp] theorem fed_cons (h : H) (hs : List H) (s : S) :
    fed step (h :: hs) s = (h, s) :: fed step hs (step h s) := by
  simp [fed]

@[simp] theorem left_nil (s : S) : left step [] s = s := rfl

@[simp] theorem left_cons (h : H) (hs : List H) (s : S) :
    left step (h :: hs) s = left step hs (step h s) := rfl

@[simp] theorem goes_nil (s : S) : Goes step stop [] s := by simp [Goes]

@[simp] theorem goes_cons (h : H) (hs : List H) (s : S) :
    Goes step stop (h :: hs) s ↔ stop (step h s) = false ∧ Goes step stop hs (step h s) := by
  simp [Goes]

/-- What a chain that goes through leaves is nothing to stop at. -/
theorem stop_left {hs : List H} {s : S} (hgoes : Goes step stop hs s) (hs₀ : stop s = false) :
    stop (left step hs s) = false := by
  induction hs generalizing s with
  | nil => exact hs₀
  | cons h hs ih =>
    obtain ⟨hh, hrest⟩ := (goes_cons h hs s).1 hgoes
    exact ih hrest hh

/-- **A chain that goes through** runs all its stages. -/
theorem run_of_goes {hs : List H} {s : S} (hgoes : Goes step stop hs s) :
    run step stop hs s = (fed step hs s, left step hs s) := by
  induction hs generalizing s with
  | nil => rfl
  | cons h hs ih =>
    obtain ⟨hh, hrest⟩ := (goes_cons h hs s).1 hgoes
    simp [run, hh, ih hrest]

/-- **A chain that is stopped** runs the stages up to the one that stops it. -/
theorem run_of_stops {ran rest : List H} {h : H} {s : S} (hgoes : Goes step stop ran s)
    (hstop : stop (step h (left step ran s)) = true) :
    run step stop (ran ++ h :: rest) s = (fed step (ran ++ [h]) s, step h (left step ran s)) := by
  induction ran generalizing s with
  | nil =>
    rw [left_nil] at hstop
    simp [run, hstop]
  | cons h' ran ih =>
    obtain ⟨hh, hrest⟩ := (goes_cons h' ran s).1 hgoes
    simp [run, hh, ih hrest hstop]

/-- **A chain goes through, or one of its stages stops it.** -/
theorem goes_or_stops (hs : List H) (s : S) :
    Goes step stop hs s ∨ ∃ ran h rest, hs = ran ++ h :: rest ∧ Goes step stop ran s ∧
      stop (step h (left step ran s)) = true := by
  induction hs generalizing s with
  | nil => exact Or.inl (goes_nil s)
  | cons h hs ih =>
    cases hh : stop (step h s) with
    | true => exact Or.inr ⟨[], h, hs, rfl, goes_nil s, hh⟩
    | false =>
      rcases ih (step h s) with hgoes | ⟨ran, h', rest, rfl, hgoes, hstop⟩
      · exact Or.inl ((goes_cons h hs s).2 ⟨hh, hgoes⟩)
      · exact Or.inr ⟨h :: ran, h', rest, rfl, (goes_cons h ran s).2 ⟨hh, hgoes⟩, hstop⟩

/-- A chain that goes through has no stage that stops it. -/
theorem not_goes_of_stops {ran rest : List H} {h : H} {s : S}
    (hstop : stop (step h (left step ran s)) = true) : ¬ Goes step stop (ran ++ h :: rest) s := by
  induction ran generalizing s with
  | nil =>
    rw [left_nil] at hstop
    simp [hstop]
  | cons h' ran ih =>
    rw [List.cons_append, goes_cons]
    exact fun hgoes => ih hstop hgoes.2

end Chain

end Nrpc
