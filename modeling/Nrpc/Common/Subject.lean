import Nrpc.Common.Text
/-!
# Subjects

Messages are published on subjects and delivered to the subscriptions whose
pattern matches. Subjects and patterns are split at their dots into tokens;
in a pattern `*` stands for one token, and `>` at the end for one or more.
A pattern that has neither matches one subject, itself (`covers_iff`).
-/

namespace Nrpc

namespace Subject

/-- The tokens of a subject or of a pattern. -/
def tokens (s : GoString) : List GoString := s.splitOn 0x2E

/-- Whether the tokens of a pattern stand for the tokens of a subject. -/
def coversTokens : List GoString → List GoString → Bool
  | [], [] => true
  | p :: ps, t :: ts =>
    (p = lit ">" && ps = []) || ((p = lit "*" || p = t) && coversTokens ps ts)
  | _, _ => false

/-- **Whether a pattern matches a subject.** -/
def covers (pattern subject : GoString) : Bool :=
  coversTokens (tokens pattern) (tokens subject)

/-- No token of the pattern stands for another one. -/
def Literal (pattern : GoString) : Prop :=
  ∀ t ∈ tokens pattern, t ≠ lit "*" ∧ t ≠ lit ">"

instance (pattern : GoString) : Decidable (Literal pattern) :=
  inferInstanceAs (Decidable (∀ t ∈ tokens pattern, _))

variable {pattern subject : GoString}

theorem coversTokens_iff {ps ts : List GoString} (hps : ∀ p ∈ ps, p ≠ lit "*" ∧ p ≠ lit ">") :
    coversTokens ps ts = true ↔ ps = ts := by
  induction ps generalizing ts with
  | nil => cases ts <;> simp [coversTokens]
  | cons p ps ih =>
    rw [List.forall_mem_cons] at hps
    obtain ⟨⟨hstar, hrest⟩, hps⟩ := hps
    cases ts with
    | nil => simp [coversTokens]
    | cons t ts => simp [coversTokens, hstar, hrest, ih hps]

/-- A subject is known by its tokens. -/
theorem tokens_injective : Function.Injective tokens := by
  intro s t h
  have hjoin : ∀ s : GoString, [0x2E].intercalate (tokens s) = s :=
    fun s => List.intercalate_splitOn 0x2E
  rw [← hjoin s, ← hjoin t, h]

/-- **A literal pattern matches itself only.** -/
theorem covers_iff (hpattern : Literal pattern) :
    covers pattern subject = true ↔ pattern = subject := by
  rw [covers, coversTokens_iff hpattern]
  exact tokens_injective.eq_iff

end Subject

end Nrpc
