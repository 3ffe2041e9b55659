import Mathlib.Algebra.Group.Nat.Defs
import Mathlib.Data.List.Basic
import Mathlib.Data.Int.Notation
/-!
# Byte strings

A string of the source is a sequence of bytes, valid text or not.
`trimSpace` follows `strings.TrimSpace`: it takes the UTF-8 forms of the
white space characters off both ends. No form is the beginning of another
one, and a form at an end of a string is the character there whatever
bytes stand before or behind it, so bytes can be compared directly.
-/

namespace Nrpc

/-- A string of the source. -/
abbrev GoString := List UInt8

/-- An ASCII literal. -/
def lit (s : String) : GoString := s.toList.map fun c => UInt8.ofNat c.toNat

/-- The decimal form of a number, `strconv.Itoa` on naturals. -/
def itoa (n : ℕ) : GoString := lit (toString n)

/-- The decimal form of an integer, `strconv.FormatInt` in base 10. -/
def formatInt (z : ℤ) : GoString := lit (toString z)

/-- The value of a decimal digit. -/
def digit? (b : UInt8) : Option ℕ :=
  if 48 ≤ b ∧ b ≤ 57 then some (b.toNat - 48) else none

/-- The number a nonempty string of decimal digits is. -/
def parseDigits (s : GoString) : Option ℕ :=
  if s = [] then none
  else s.foldl (fun n? b => do return (← n?) * 10 + (← digit? b)) (some 0)

/-- `strconv.ParseInt` in base 10 for 64 bits: a sign or none, digits, and
the value in range. -/
def parseInt64 (s : GoString) : Option ℤ :=
  match s with
  | 43 :: rest => (parseDigits rest).bind fun n => if n < 2 ^ 63 then some (n : ℤ) else none
  | 45 :: rest => (parseDigits rest).bind fun n => if n ≤ 2 ^ 63 then some (-n : ℤ) else none
  | _ => (parseDigits s).bind fun n => if n < 2 ^ 63 then some (n : ℤ) else none

example : parseInt64 (lit "-9223372036854775808") = some (-9223372036854775808) := by decide

/-- **The first part of a string ends at the first separator, or with the
string.** -/
theorem splitOn_eq_cons_iff {sep : UInt8} {s part : GoString} {parts : List GoString} :
    s.splitOn sep = part :: parts ↔ sep ∉ part ∧ (s = part ∧ parts = [] ∨
      ∃ rest, s = part ++ sep :: rest ∧ rest.splitOn sep = parts) := by
  by_cases hmem : sep ∈ s
  · obtain ⟨before, after, rfl, hbefore⟩ := List.eq_append_cons_of_mem hmem
    rw [List.splitOn_append_cons_self_of_not_mem hbefore, List.cons.injEq]
    constructor
    · rintro ⟨rfl, rfl⟩
      exact ⟨hbefore, Or.inr ⟨after, rfl, rfl⟩⟩
    · rintro ⟨hpart, ⟨rfl, -⟩ | ⟨rest, heq, rfl⟩⟩
      · exact absurd hmem hpart
      · have hsplit := congrArg (List.splitOn sep) heq
        rw [List.splitOn_append_cons_self_of_not_mem hbefore,
          List.splitOn_append_cons_self_of_not_mem hpart] at hsplit
        exact List.cons.inj hsplit
  · rw [List.splitOn_eq_singleton hmem, List.cons.injEq]
    constructor
    · rintro ⟨rfl, rfl⟩
      exact ⟨hmem, Or.inl ⟨rfl, rfl⟩⟩
    · rintro ⟨-, ⟨rfl, rfl⟩ | ⟨rest, rfl, -⟩⟩
      · exact ⟨rfl, rfl⟩
      · exact absurd (by simp) hmem

/-- **A string that is one part has no separator, and is the part.** -/
theorem splitOn_eq_singleton_iff {sep : UInt8} {s part : GoString} :
    s.splitOn sep = [part] ↔ sep ∉ s ∧ part = s := by
  rw [splitOn_eq_cons_iff]
  constructor
  · rintro ⟨hpart, ⟨rfl, -⟩ | ⟨rest, -, hrest⟩⟩
    · exact ⟨hpart, rfl⟩
    · exact absurd hrest (List.splitOn_ne_nil sep rest)
  · rintro ⟨hsep, rfl⟩
    exact ⟨hsep, Or.inl ⟨rfl, rfl⟩⟩

/-- A string of two parts. -/
theorem splitOn_eq_two_iff {sep : UInt8} {s a b : GoString} :
    s.splitOn sep = [a, b] ↔ sep ∉ a ∧ sep ∉ b ∧ s = a ++ sep :: b := by
  rw [splitOn_eq_cons_iff]
  constructor
  · rintro ⟨ha, ⟨-, h⟩ | ⟨rest, rfl, hrest⟩⟩
    · cases h
    · obtain ⟨hb, rfl⟩ := splitOn_eq_singleton_iff.1 hrest
      exact ⟨ha, hb, rfl⟩
  · rintro ⟨ha, hb, rfl⟩
    exact ⟨ha, Or.inr ⟨b, rfl, splitOn_eq_singleton_iff.2 ⟨hb, rfl⟩⟩⟩

/-- A string of three parts. -/
theorem splitOn_eq_three_iff {sep : UInt8} {s a b c : GoString} :
    s.splitOn sep = [a, b, c] ↔
      sep ∉ a ∧ sep ∉ b ∧ sep ∉ c ∧ s = a ++ sep :: (b ++ sep :: c) := by
  rw [splitOn_eq_cons_iff]
  constructor
  · rintro ⟨ha, ⟨-, h⟩ | ⟨rest, rfl, hrest⟩⟩
    · cases h
    · obtain ⟨hb, hc, rfl⟩ := splitOn_eq_two_iff.1 hrest
      exact ⟨ha, hb, hc, rfl⟩
  · rintro ⟨ha, hb, hc, rfl⟩
    exact ⟨ha, Or.inr ⟨_, rfl, splitOn_eq_two_iff.2 ⟨hb, hc, rfl⟩⟩⟩

/-- **There is one part more than there are separators.** -/
theorem length_splitOn (sep : UInt8) (s : GoString) :
    (s.splitOn sep).length = s.count sep + 1 := by
  induction s with
  | nil => rfl
  | cons b s ih =>
    rw [List.splitOn_cons_eq_if_modifyHead, List.count_cons]
    split
    · rw [List.length_cons, ih]
    · rw [List.length_modifyHead, ih]

/-- The UTF-8 forms of the characters `unicode.IsSpace` holds of. -/
def spaces : List GoString :=
  [[0x09], [0x0A], [0x0B], [0x0C], [0x0D], [0x20], [0xC2, 0x85], [0xC2, 0xA0],
    [0xE1, 0x9A, 0x80]] ++
  (List.range 11).map (fun i => [0xE2, 0x80, UInt8.ofNat (0x80 + i)]) ++
  [[0xE2, 0x80, 0xA8], [0xE2, 0x80, 0xA9], [0xE2, 0x80, 0xAF], [0xE2, 0x81, 0x9F],
    [0xE3, 0x80, 0x80]]

/-- What is left of `s` behind a form it starts with. -/
def stripOne (forms : List GoString) (s : GoString) : Option GoString :=
  forms.findSome? fun w => if w.isPrefixOf s then some (s.drop w.length) else none

/-- Take forms off the front for as long as there is one. -/
def strip (forms : List GoString) (s : GoString) : GoString :=
  match stripOne forms s with
  | some t => if t.length < s.length then strip forms t else s
  | none => s
termination_by s.length

/-- A form that is not empty is taken off whenever the string starts with
one. -/
theorem stripOne_eq_none_iff {forms : List GoString} {s : GoString} :
    stripOne forms s = none ↔ ∀ w ∈ forms, ¬ w <+: s := by
  unfold stripOne
  simp [List.findSome?_eq_none_iff, List.isPrefixOf_iff_prefix]

/-- What is left when nothing more can be taken off is an end of the string,
and starts with no form. -/
theorem strip_spec {forms : List GoString} (hforms : [] ∉ forms) (s : GoString) :
    strip forms s <:+ s ∧ stripOne forms (strip forms s) = none := by
  induction s using strip.induct forms with
  | case1 s t hone hlt ih =>
    rw [strip, hone]
    simp only [if_pos hlt]
    refine ⟨ih.1.trans ?_, ih.2⟩
    obtain ⟨w, -, hw⟩ := List.exists_of_findSome?_eq_some hone
    split at hw
    · rw [← Option.some.inj hw]
      exact List.drop_suffix _ _
    · cases hw
  | case2 s t hone hlt =>
    -- a form has bytes, so what is left is shorter
    obtain ⟨w, hw, hdrop⟩ := List.exists_of_findSome?_eq_some hone
    split at hdrop
    · rename_i hpre
      have hle := (List.isPrefixOf_iff_prefix.1 hpre).length_le
      have hpos : 0 < w.length := List.length_pos_iff.2 fun h => hforms (h ▸ hw)
      rw [← Option.some.inj hdrop, List.length_drop] at hlt
      omega
    · cases hdrop
  | case3 s hone =>
    rw [strip, hone]
    exact ⟨List.suffix_refl s, hone⟩

theorem strip_of_stripOne {forms : List GoString} {s : GoString} (h : stripOne forms s = none) :
    strip forms s = s := by
  rw [strip, h]

/-- `strings.TrimSpace`. -/
def trimSpace (s : GoString) : GoString :=
  (strip (spaces.map List.reverse) (strip spaces s).reverse).reverse

/-- **What is trimmed stays as it is.** -/
theorem trimSpace_trimSpace (s : GoString) : trimSpace (trimSpace s) = trimSpace s := by
  obtain ⟨-, hfront⟩ := @strip_spec spaces (by decide) s
  obtain ⟨hend, hback⟩ := @strip_spec (spaces.map List.reverse) (by decide) (strip spaces s).reverse
  -- a form at the front of what is left was at the front before
  have hfront' : stripOne spaces (trimSpace s) = none := by
    rw [stripOne_eq_none_iff] at hfront ⊢
    intro w hw hpre
    refine hfront w hw (hpre.trans ?_)
    have := List.reverse_prefix.2 hend
    rwa [List.reverse_reverse] at this
  rw [trimSpace, strip_of_stripOne hfront', trimSpace, List.reverse_reverse,
    strip_of_stripOne hback]

example : trimSpace (lit " a b\t\n") = lit "a b" := by decide +kernel

end Nrpc
