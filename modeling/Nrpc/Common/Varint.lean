import Mathlib.Algebra.BigOperators.Fin
import Mathlib.Data.List.Basic
/-!
# Base-128 numbers, low digit first

A number is written seven bits to a byte, the continuation bit set on
every byte but the last. `digits` writes it, `value` reads it, and a byte
string has at most one prefix that is a closed number (`Run`).
-/

namespace Nrpc

namespace Varint

/-- The number a byte string denotes, continuation bits ignored. -/
def value : List UInt8 → ℕ
  | [] => 0
  | b :: bs => b.toNat % 128 + 128 * value bs

/-- **The number is the sum of the digits by their weights.** -/
theorem value_eq_sum (bs : List UInt8) :
    value bs = ∑ i : Fin bs.length, (bs.get i).toNat % 128 * 128 ^ (i : ℕ) := by
  induction bs with
  | nil => rfl
  | cons b bs ih =>
    rw [value, ih, Finset.mul_sum]
    refine Eq.trans ?_ (Fin.sum_univ_succ _).symm
    congr 1
    · simp
    · refine Finset.sum_congr rfl fun i _ => ?_
      rw [List.get_cons_succ', Fin.val_succ, pow_succ, Nat.mul_left_comm, Nat.mul_comm 128]

/-- Continuation bytes only. -/
def Run (bs : List UInt8) : Prop := ∀ b ∈ bs, 128 ≤ b.toNat

instance (bs : List UInt8) : Decidable (Run bs) := inferInstanceAs (Decidable (∀ b ∈ bs, _))

/-- The shortest base-128 form of a number. -/
def digits (n : ℕ) : List UInt8 :=
  if n < 128 then [UInt8.ofNat n] else UInt8.ofNat (n % 128 + 128) :: digits (n / 128)
termination_by n
decreasing_by omega

/-- **Reading inverts writing.** -/
theorem value_digits (n : ℕ) : value (digits n) = n := by
  induction n using digits.induct with
  | case1 n h =>
    rw [digits, if_pos h]
    simp only [value, UInt8.toNat_ofNat']
    omega
  | case2 n h ih =>
    rw [digits, if_neg h]
    simp only [value, ih, UInt8.toNat_ofNat']
    omega

/-- A written number is a run and one closing byte. -/
theorem digits_eq_run (n : ℕ) :
    ∃ run last, digits n = run ++ [last] ∧ Run run ∧ last.toNat < 128 := by
  induction n using digits.induct with
  | case1 n h =>
    refine ⟨[], UInt8.ofNat n, ?_, by simp [Run], ?_⟩
    · rw [digits, if_pos h]
      rfl
    · rw [UInt8.toNat_ofNat']
      omega
  | case2 n h ih =>
    obtain ⟨run, last, heq, hrun, hlast⟩ := ih
    refine ⟨UInt8.ofNat (n % 128 + 128) :: run, last, ?_, ?_, hlast⟩
    · rw [digits, if_neg h, heq]
      rfl
    · intro b hb
      rcases List.mem_cons.1 hb with rfl | hb
      · rw [UInt8.toNat_ofNat']
        omega
      · exact hrun b hb

/-- **A byte string is a run, or has a first byte that closes one.** -/
theorem run_or_exists_last (bs : List UInt8) :
    Run bs ∨ ∃ run last rest, bs = run ++ last :: rest ∧ Run run ∧ last.toNat < 128 := by
  induction bs with
  | nil => exact Or.inl (by simp [Run])
  | cons b bs ih =>
    by_cases hb : b.toNat < 128
    · exact Or.inr ⟨[], b, bs, rfl, by simp [Run], hb⟩
    · rcases ih with hrun | ⟨run, last, rest, rfl, hrun, hlast⟩
      · refine Or.inl fun c hc => ?_
        rcases List.mem_cons.1 hc with rfl | hc
        · omega
        · exact hrun c hc
      · refine Or.inr ⟨b :: run, last, rest, rfl, fun c hc => ?_, hlast⟩
        rcases List.mem_cons.1 hc with rfl | hc
        · omega
        · exact hrun c hc

end Varint

end Nrpc
