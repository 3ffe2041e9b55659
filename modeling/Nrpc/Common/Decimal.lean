import Mathlib.Algebra.Group.Int.Defs
import Nrpc.Common.Text
/-!
# Decimal numbers

`strconv.ParseInt` reads back what `strconv.FormatInt` writes, for every
integer of 64 bits (`parseInt64_formatInt`). The digits are written from
the last one to the first and read from the first to the last, so the
argument takes the last digit off.
-/

namespace Nrpc

variable {n d : ℕ} {b : UInt8} {s : GoString}

/-! ## Digits -/

/-- The byte of a digit. -/
def digitByte (d : ℕ) : UInt8 := UInt8.ofNat (Nat.digitChar d).toNat

theorem digit?_digitByte (hd : d < 10) : digit? (digitByte d) = some d := by
  have hall : ∀ d < 10, digit? (digitByte d) = some d := by decide
  exact hall d hd

/-- The last digit comes off the end. -/
theorem itoa_eq (n : ℕ) :
    itoa n = (if n < 10 then [] else itoa (n / 10)) ++ [digitByte (n % 10)] := by
  have htoString : ∀ k : ℕ, itoa k = (Nat.toDigits 10 k).map fun c => UInt8.ofNat c.toNat := by
    intro k
    rw [itoa, lit, Nat.toString_eq_ofList_toDigits, String.toList_ofList]
  rw [htoString n, Nat.toDigits_eq_if (by omega)]
  split
  · rename_i hlt
    rw [Nat.mod_eq_of_lt hlt]
    rfl
  · rw [List.map_append, htoString (n / 10)]
    rfl

theorem itoa_ne_nil : itoa n ≠ [] := by
  rw [itoa_eq]
  simp

/-- A number is written in digits. -/
theorem isSome_digit?_of_mem_itoa (hb : b ∈ itoa n) : (digit? b).isSome := by
  induction n using Nat.strongRecOn with
  | ind n ih =>
    rw [itoa_eq, List.mem_append, List.mem_singleton] at hb
    rcases hb with hb | rfl
    · split at hb
      · cases hb
      · exact ih (n / 10) (by omega) hb
    · rw [digit?_digitByte (Nat.mod_lt n (by omega))]
      rfl

/-! ## Reading -/

/-- One more digit. -/
theorem parseDigits_snoc (hs : parseDigits s = some n) (hb : digit? b = some d) :
    parseDigits (s ++ [b]) = some (n * 10 + d) := by
  unfold parseDigits at hs ⊢
  split at hs
  · cases hs
  · rw [if_neg (by simp), List.foldl_append, hs]
    simp [hb]

/-- **The digits of a number are read as the number.** -/
theorem parseDigits_itoa (n : ℕ) : parseDigits (itoa n) = some n := by
  induction n using Nat.strongRecOn with
  | ind n ih =>
    have hlast := digit?_digitByte (Nat.mod_lt n (show 0 < 10 by omega))
    rw [itoa_eq]
    split
    · rename_i hlt
      rw [Nat.mod_eq_of_lt hlt] at hlast ⊢
      simp [parseDigits, hlast]
    · have hmore := parseDigits_snoc (ih (n / 10) (by omega)) hlast
      rw [hmore]
      congr 1
      omega

/-- **`ParseInt` inverts `FormatInt`** on the integers of 64 bits. -/
theorem parseInt64_formatInt {z : ℤ} (hlow : -2 ^ 63 ≤ z) (hhigh : z < 2 ^ 63) :
    parseInt64 (formatInt z) = some z := by
  have hdigits := parseDigits_itoa
  rcases z with n | n
  · show parseInt64 (itoa n) = some (n : ℤ)
    have hn : n < 2 ^ 63 := by
      have : (n : ℤ) < 2 ^ 63 := hhigh
      omega
    obtain ⟨b, rest, hcons⟩ := List.exists_cons_of_ne_nil (itoa_ne_nil (n := n))
    have hdigit : (digit? b).isSome :=
      isSome_digit?_of_mem_itoa (n := n) (by rw [hcons]; exact List.mem_cons_self)
    -- a digit is no sign
    have hplus : b ≠ 43 := by
      rintro rfl
      cases hdigit
    have hminus : b ≠ 45 := by
      rintro rfl
      cases hdigit
    have hparse := hdigits n
    rw [hcons] at hparse ⊢
    unfold parseInt64
    split
    · rename_i hsign
      exact absurd (List.cons.inj hsign).1 hplus
    · rename_i hsign
      exact absurd (List.cons.inj hsign).1 hminus
    · rw [hparse, Option.bind_some, if_pos hn]
  · have hn : n + 1 ≤ 2 ^ 63 := by
      have : -2 ^ 63 ≤ -((n : ℤ) + 1) := by simpa [Int.negSucc_eq] using hlow
      omega
    have hwritten : formatInt (Int.negSucc n) = 45 :: itoa (n + 1) := by
      show lit ("-" ++ toString (n + 1)) = _
      simp [lit, itoa]
    rw [hwritten]
    simp only [parseInt64, hdigits (n + 1), Option.bind_some, if_pos hn, Int.negSucc_eq]
    simp

end Nrpc
