import Mathlib.Data.List.Basic
/-!
# The last word on a key

A reader follows a set through a log of words, each of which says of one key
that it is in or that it is out. Whatever the reader had before, of a key the
log has a word on it ends with the last one; of the others it keeps what it
had. So a reader that starts anywhere ends with the set, if the last words
of the log are true of it and the reader is right about the keys the log is
silent on (`Truthful.settles_iff`).
-/

namespace Nrpc

namespace LastWord

variable {K : Type*} [DecidableEq K]

/-- The last word of a log on a key. -/
def last (log : List (K × Bool)) (k : K) : Option Bool :=
  ((log.filter fun w => w.1 = k).getLast?).map Prod.snd

/-- What a reader has of a key behind a log. -/
def Settles (known : K → Prop) (log : List (K × Bool)) (k : K) : Prop :=
  match last log k with
  | some word => word = true
  | none => known k

/-- **The last words of a log are true** of a set. -/
def Truthful (log : List (K × Bool)) (P : K → Prop) : Prop :=
  ∀ k word, last log k = some word → (word = true ↔ P k)

variable {known P : K → Prop} {log log' : List (K × Bool)} {k k' : K} {word : Bool}

@[simp] theorem last_nil : last [] k = none := rfl

/-- Later words come last. -/
theorem last_append : last (log ++ log') k = (last log' k).or (last log k) := by
  simp only [last, List.filter_append, List.getLast?_append]
  cases (log'.filter fun w => w.1 = k).getLast? <;> rfl

theorem last_singleton : last [(k', word)] k = if k' = k then some word else none := by
  by_cases h : k' = k <;> simp [last, h]

@[simp] theorem settles_nil : Settles known [] k ↔ known k := Iff.rfl

theorem settles_singleton :
    Settles known [(k', word)] k ↔ if k' = k then word = true else known k := by
  rw [Settles, last_singleton]
  by_cases h : k' = k <;> simp [h]

/-- A log is read in parts. -/
theorem settles_append : Settles known (log ++ log') k ↔ Settles (Settles known log) log' k := by
  simp only [Settles, last_append]
  cases last log' k <;> rfl

/-- What is read depends on what was known of the key. -/
theorem settles_congr {known' : K → Prop} (h : known k ↔ known' k) :
    Settles known log k ↔ Settles known' log k := by
  unfold Settles
  split
  · rfl
  · exact h

/-- **A truthful log settles what the reader was right about.** -/
theorem Truthful.settles_iff (hlog : Truthful log P)
    (hknown : last log k = none → (known k ↔ P k)) : Settles known log k ↔ P k := by
  unfold Settles
  split
  · rename_i word hword
    exact hlog k word hword
  · rename_i hnone
    exact hknown hnone

/-- A word more, and the set as it is then: of the other keys nothing may
have changed. -/
theorem Truthful.append {P' : K → Prop} (hlog : Truthful log P)
    (hnew : ∀ k word, last log' k = some word → (word = true ↔ P' k))
    (hold : ∀ k, last log' k = none → (P k ↔ P' k)) : Truthful (log ++ log') P' := by
  intro k word hword
  rw [last_append] at hword
  rcases hlast : last log' k with _ | word'
  · rw [hlast, Option.none_or] at hword
    exact (hlog k word hword).trans (hold k hlast)
  · rw [hlast, Option.some_or] at hword
    obtain rfl := Option.some.inj hword
    exact hnew k word' hlast

/-- What is left of a truthful log is truthful. -/
theorem Truthful.of_append (hlog : Truthful (log ++ log') P) : Truthful log' P := by
  intro k word hword
  refine hlog k word ?_
  rw [last_append, hword, Option.some_or]

end LastWord

end Nrpc
