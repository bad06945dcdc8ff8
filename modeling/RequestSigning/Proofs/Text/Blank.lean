import Mathlib
import RequestSigning.Text.Blank
set_option autoImplicit false

namespace RequestSigning.Blank

variable {chars : List Char} {c : Char}

theorem length_trimEnd_le (chars : List Char) : (trimEnd chars).length ≤ chars.length := by
  rw [trimEnd, List.length_reverse, ← @List.length_reverse _ chars]
  exact (List.dropWhile_suffix isBlank).length_le

theorem length_trimStart_le (chars : List Char) : (trimStart chars).length ≤ chars.length :=
  (List.dropWhile_suffix isBlank).length_le

/-- A text that trimming leaves as it is begins with no blank. -/
theorem isBlank_of_head? (trimmed : trim chars = chars) (first : chars.head? = some c) :
    isBlank c = false := by
  obtain ⟨rest, rfl⟩ := List.head?_eq_some_iff.mp first
  by_contra blank
  rw [Bool.not_eq_false] at blank
  have shorter : (trim (c :: rest)).length ≤ rest.length := by
    rw [trim, trimStart, List.dropWhile_cons_of_pos blank]
    exact le_trans (length_trimEnd_le _) (length_trimStart_le rest)
  rw [trimmed, List.length_cons] at shorter
  omega

/-- Nor does it end with one. -/
theorem isBlank_of_getLast? (trimmed : trim chars = chars) (last : chars.getLast? = some c) :
    isBlank c = false := by
  rw [← List.head?_reverse, ← trimmed, trim, trimEnd, List.reverse_reverse] at last
  have none := List.head?_dropWhile_not isBlank (trimStart chars).reverse
  rw [last] at none
  simpa using none

/-- Trimming takes nothing off where there are no blanks at the ends. -/
theorem trim_of_ends (first : ∀ c ∈ chars.head?, isBlank c = false)
    (last : ∀ c ∈ chars.getLast?, isBlank c = false) : trim chars = chars := by
  have kept {chars : List Char} (first : ∀ c ∈ chars.head?, isBlank c = false) :
      chars.dropWhile isBlank = chars := by
    cases chars with
    | nil => rfl
    | cons c rest =>
      exact List.dropWhile_cons_of_neg (by rw [first c rfl]; exact Bool.false_ne_true)
  rw [trim, trimStart, kept first, trimEnd, kept (by rwa [List.head?_reverse]),
    List.reverse_reverse]

theorem isBlank_of_isAlphanum (alphanumeric : c.isAlphanum = true) : isBlank c = false := by
  by_contra blank
  rw [Bool.not_eq_false] at blank
  simp only [Char.isAlphanum, Char.isAlpha, Char.isUpper, Char.isLower, Char.isDigit,
    Bool.or_eq_true, Bool.and_eq_true, decide_eq_true_eq, ge_iff_le, UInt32.le_iff_toNat_le]
    at alphanumeric
  simp only [isBlank, Char.toNat, Bool.or_eq_true, Bool.and_eq_true, decide_eq_true_eq,
    beq_iff_eq] at blank
  have bounds : ('z' : Char).val.toNat = 122 ∧ ('Z' : Char).val.toNat = 90 ∧
      ('9' : Char).val.toNat = 57 ∧ ('0' : Char).val.toNat = 48 ∧ ('A' : Char).val.toNat = 65 ∧
      ('a' : Char).val.toNat = 97 := by
    decide
  omega

end RequestSigning.Blank
