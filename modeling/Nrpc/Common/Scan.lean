import Mathlib.Data.List.Basic
/-!
# Scanning a buffer frame by frame

A scanner looks at the front of a buffer and either peels a frame off
it, holds (what is there may still grow into a frame) or refuses it.
`scan` peels until the scanner stops. The frames it finds are the ones
`Peels` chains from the front of the buffer, and `Peels` is a function
of the buffer as long as the scanner has stopped: that is the uniqueness
a framing needs.
-/

namespace Nrpc

variable {β π ε : Type*}

/-- What the front of a buffer is: a frame and what follows it, nothing
complete yet, or nothing the format admits. -/
inductive Peel (β π ε : Type*) where
  | frame (p : π) (rest : List β)
  | hold
  | bad (e : ε)

/-- **A scanner**: a reading of the front of every buffer, which takes
something off the buffer whenever it yields a frame. -/
structure Scanner (β π ε : Type*) where
  /-- The reading. -/
  peel : List β → Peel β π ε
  shrinks : ∀ {buf p rest}, peel buf = .frame p rest → rest.length < buf.length

namespace Scanner

variable (S : Scanner β π ε)

/-- Peel frames until the scanner holds or refuses; a refusal discards
the frames found before it. -/
def scan (buf : List β) : Except ε (List π) :=
  match h : S.peel buf with
  | .frame p rest =>
    have := S.shrinks h
    (scan rest).map (p :: ·)
  | .hold => .ok []
  | .bad e => .error e
termination_by buf.length

/-- `ps` are the frames at the front of a buffer, and `rest` is what is
left of it behind them. -/
inductive Peels : List β → List π → List β → Prop
  | nil (buf : List β) : Peels buf [] buf
  | cons {buf mid rest : List β} {p : π} {ps : List π} :
      S.peel buf = .frame p mid → Peels mid ps rest → Peels buf (p :: ps) rest

variable {S} {buf rest : List β} {p : π} {ps : List π} {e : ε}

/-- One unfolding of `scan`, free of the termination bookkeeping. -/
theorem scan_eq (S : Scanner β π ε) (buf : List β) :
    S.scan buf = match S.peel buf with
      | .frame p rest => (S.scan rest).map (p :: ·)
      | .hold => .ok []
      | .bad e => .error e := by
  rw [scan]
  split <;> rename_i h <;> simp only [h]

theorem scan_frame (h : S.peel buf = .frame p rest) :
    S.scan buf = (S.scan rest).map (p :: ·) := by
  rw [scan_eq, h]

theorem scan_hold (h : S.peel buf = .hold) : S.scan buf = .ok [] := by
  rw [scan_eq, h]

theorem scan_bad (h : S.peel buf = .bad e) : S.scan buf = .error e := by
  rw [scan_eq, h]

/-- Scanning goes past the frames at the front and on with the rest. -/
theorem scan_of_peels (h : S.Peels buf ps rest) :
    S.scan buf = (S.scan rest).map (ps ++ ·) := by
  induction h with
  | nil buf => cases S.scan buf <;> rfl
  | @cons buf mid rest p ps hp _ ih =>
    rw [scan_frame hp, ih]
    cases S.scan rest <;> rfl

/-- **A buffer always splits**: frames at the front, and a rest the
scanner does not peel. -/
theorem exists_peels (S : Scanner β π ε) (buf : List β) :
    ∃ ps rest, S.Peels buf ps rest ∧ (S.peel rest = .hold ∨ ∃ e, S.peel rest = .bad e) := by
  induction hn : buf.length using Nat.strongRecOn generalizing buf with
  | ind n ih =>
    rcases hp : S.peel buf with ⟨p, mid⟩ | - | e
    · obtain ⟨ps, rest, hps, hrest⟩ := ih mid.length (hn ▸ S.shrinks hp) mid rfl
      exact ⟨p :: ps, rest, .cons hp hps, hrest⟩
    · exact ⟨[], buf, .nil buf, Or.inl hp⟩
    · exact ⟨[], buf, .nil buf, Or.inr ⟨e, hp⟩⟩

/-- **Scanning succeeds exactly on frames followed by a rest the scanner
holds at.** -/
theorem scan_eq_ok_iff :
    S.scan buf = .ok ps ↔ ∃ rest, S.Peels buf ps rest ∧ S.peel rest = .hold := by
  constructor
  · intro h
    obtain ⟨qs, rest, hqs, hhold | ⟨e, hbad⟩⟩ := exists_peels S buf
    · rw [scan_of_peels hqs, scan_hold hhold] at h
      have : qs = ps := by simpa [Except.map] using h
      exact ⟨rest, this ▸ hqs, hhold⟩
    · rw [scan_of_peels hqs, scan_bad hbad] at h
      cases h
  · rintro ⟨rest, hps, hhold⟩
    rw [scan_of_peels hps, scan_hold hhold]
    simp [Except.map]

/-- **And it fails exactly on frames followed by a rest it refuses.** -/
theorem scan_eq_error_iff :
    S.scan buf = .error e ↔ ∃ ps rest, S.Peels buf ps rest ∧ S.peel rest = .bad e := by
  constructor
  · intro h
    obtain ⟨qs, rest, hqs, hhold | ⟨e', hbad⟩⟩ := exists_peels S buf
    · rw [scan_of_peels hqs, scan_hold hhold] at h
      cases h
    · rw [scan_of_peels hqs, scan_bad hbad] at h
      cases h
      exact ⟨qs, rest, hqs, hbad⟩
  · rintro ⟨qs, rest, hqs, hbad⟩
    rw [scan_of_peels hqs, scan_bad hbad]
    rfl

/-! ## A buffer that arrives in parts -/

/-- **A steady scanner**: what arrives later changes nothing about a frame
that was peeled or a front that was refused. -/
structure Steady (S : Scanner β π ε) : Prop where
  frame : ∀ {buf p rest} more, S.peel buf = .frame p rest →
    S.peel (buf ++ more) = .frame p (rest ++ more)
  bad : ∀ {buf e} more, S.peel buf = .bad e → S.peel (buf ++ more) = .bad e

theorem Peels.append (hS : S.Steady) (h : S.Peels buf ps rest) (more : List β) :
    S.Peels (buf ++ more) ps (rest ++ more) := by
  induction h with
  | nil buf => exact .nil (buf ++ more)
  | cons hp _ ih => exact .cons (hS.frame more hp) ih

/-- **Scanning in two parts.** Where the whole is scanned, so is its first
part, and then the rest of that part with the second one; the frames are
those of the whole. -/
theorem scan_append (hS : S.Steady) {a b : List β} (h : S.scan (a ++ b) = .ok ps) :
    ∃ ps₁ rest ps₂, S.Peels a ps₁ rest ∧ S.scan a = .ok ps₁ ∧
      S.scan (rest ++ b) = .ok ps₂ ∧ ps = ps₁ ++ ps₂ := by
  obtain ⟨ps₁, rest, hps, hstop⟩ := exists_peels S a
  rw [scan_of_peels (hps.append hS b)] at h
  rcases hstop with hhold | ⟨e, hbad⟩
  · rcases hrest : S.scan (rest ++ b) with e | ps₂
    · rw [hrest] at h
      cases h
    · rw [hrest] at h
      exact ⟨ps₁, rest, ps₂, hps, scan_eq_ok_iff.2 ⟨rest, hps, hhold⟩, hrest,
        (Except.ok.inj h).symm⟩
  · -- a refusal inside the first part is one of the whole
    rw [scan_bad (hS.bad b hbad)] at h
    cases h

end Scanner

end Nrpc
