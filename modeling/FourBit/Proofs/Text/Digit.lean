import FourBit.Proofs.Reference.Numerals
import FourBit.Proofs.Text.LowerCase

/-! Characters as the reader of numerals sees them: digits of every script as the seven-bit ones,
and all else as it stands. -/

namespace FourBit.Numeral

open Reference

theorem decimalValue_below (c : Char) (value : Nat) (known : Text.decimalValue? c = some value) :
    value < 10 := by
  unfold Text.decimalValue? at known
  obtain ⟨first, found, same⟩ := Option.map_eq_some_iff.mp known
  have inside := List.find?_some found
  simp only [Bool.and_eq_true, decide_eq_true_eq] at inside
  omega

/-- A character that is no blank is read as it stands, or it is a digit of another script. -/
theorem plainChar_cases (c : Char) (ink : Text.isBlank c = false) :
    (plainChar c = c ∧ (c.toNat < 128 ∨ Text.decimalValue? c = none)) ∨
      ∃ value, 128 ≤ c.toNat ∧ Text.decimalValue? c = some value ∧
        plainChar c = Char.ofNat (48 + value) := by
  unfold plainChar
  split
  · rename_i small
    exact .inl ⟨rfl, .inl small⟩
  · rename_i large
    simp only [ink, Bool.false_eq_true, if_false]
    split
    · rename_i value known
      exact .inr ⟨value, Nat.le_of_not_lt large, known, rfl⟩
    · rename_i unknown
      exact .inl ⟨rfl, .inr unknown⟩

theorem plainChar_seen {α : Type} (seen : Char → α) (blind : α) (c : Char)
    (ink : Text.isBlank c = false)
    (digits : ∀ value < 10, seen (Char.ofNat (48 + value)) = blind)
    (beyond : ∀ d : Char, 128 ≤ d.toNat → seen d = blind) : seen (plainChar c) = seen c := by
  rcases plainChar_cases c ink with ⟨same, _⟩ | ⟨value, large, known, read⟩
  · rw [same]
  · rw [read, digits value (decimalValue_below c value known), beyond c large]

theorem digit_below (c : Char) (value : Nat) (digit : IsDigit c value) : value < 16 := by
  rcases digit with figure | known
  · exact (List.getElem?_eq_some_iff.mp figure).1
  · exact Nat.lt_trans (decimalValue_below c value known) (by decide)

theorem digitValue_below (radix : Nat) (within : radix ≤ 16) (c : Char) (value : Nat) :
    digitValue? radix c = some value ↔ digitValue? 16 c = some value ∧ value < radix := by
  simp only [digitValue?, Option.filter_eq_some_iff, decide_eq_true_eq]
  constructor
  · rintro ⟨found, below⟩
    exact ⟨⟨found, Nat.lt_of_lt_of_le below within⟩, below⟩
  · rintro ⟨⟨found, _⟩, below⟩
    exact ⟨found, below⟩

theorem digitValue_sevenBit (c : Char) (small : c.toNat < 128) (value : Nat) :
    digitValue? 16 c = some value ↔ IsDigit c value := by
  have table := Text.of_sevenBit
    (fun c => ∀ value < 16, digitValue? 16 c = some value ↔ IsDigit c value) (by decide +kernel)
  by_cases below : value < 16
  · exact table c small value below
  · constructor
    · intro found
      simp only [digitValue?, Option.filter_eq_some_iff, decide_eq_true_eq] at found
      exact (below found.2).elim
    · intro digit
      exact (below (digit_below c value digit)).elim

theorem digitValue_large (c : Char) (large : 128 ≤ c.toNat) : digitValue? 16 c = none := by
  have first : ¬ (48 ≤ c.toNat ∧ c.toNat ≤ 57) := by omega
  have second : ¬ (97 ≤ c.toNat ∧ c.toNat ≤ 102) := by omega
  have third : ¬ (65 ≤ c.toNat ∧ c.toNat ≤ 70) := by omega
  simp only [digitValue?, first, second, third, if_false, Option.filter_none]

theorem isDigit_large (c : Char) (large : 128 ≤ c.toNat) (value : Nat) :
    IsDigit c value ↔ Text.decimalValue? c = some value := by
  constructor
  · rintro (figure | known)
    · rw [Text.toLower_large c large] at figure
      have small : ∀ d ∈ "0123456789abcdef".toList, d.toNat < 128 := by decide
      have below := small c (List.mem_of_getElem? figure)
      omega
    · exact known
  · exact .inr

theorem isDecimalDigit_iff (c : Char) :
    Text.isDecimalDigit c = true ↔ ∃ value < 10, IsDigit c value := by
  constructor
  · intro decimal
    obtain ⟨value, known⟩ := Option.isSome_iff_exists.mp decimal
    exact ⟨value, decimalValue_below c value known, .inr known⟩
  · rintro ⟨value, below, digit⟩
    rcases Nat.lt_or_ge c.toNat 128 with small | large
    · have table := Text.of_sevenBit
        (fun c => ∀ value < 10, IsDigit c value → Text.isDecimalDigit c = true) (by decide +kernel)
      exact table c small value below digit
    · exact Option.isSome_iff_exists.mpr ⟨value, (isDigit_large c large value).mp digit⟩

theorem digitValue_plainChar (radix : Nat) (within : radix ≤ 16) (c : Char)
    (ink : Text.isBlank c = false) (value : Nat) :
    digitValue? radix (plainChar c) = some value ↔ IsDigit c value ∧ value < radix := by
  rw [digitValue_below radix within]
  apply and_congr_left
  intro _
  rcases plainChar_cases c ink with ⟨same, small | unknown⟩ | ⟨known, large, decimal, read⟩
  · rw [same, digitValue_sevenBit c small]
  · rw [same]
    rcases Nat.lt_or_ge c.toNat 128 with small | large
    · exact digitValue_sevenBit c small value
    · rw [digitValue_large c large, isDigit_large c large, unknown]
  · have table : ∀ n < 10, digitValue? 16 (Char.ofNat (48 + n)) = some n := by decide
    rw [read, isDigit_large c large, decimal, table known (decimalValue_below c known decimal)]

theorem plainChar_eq_iff (sign : Char) (small : sign.toNat < 128)
    (other : ∀ value < 10, Char.ofNat (48 + value) ≠ sign) (c : Char)
    (ink : Text.isBlank c = false) : plainChar c = sign ↔ c = sign := by
  have beyond (d : Char) (large : 128 ≤ d.toNat) : (d == sign) = false := by
    apply beq_false_of_ne
    rintro rfl
    omega
  have same := plainChar_seen (· == sign) false c ink (by simpa using other) beyond
  rw [← beq_iff_eq, same, beq_iff_eq]

theorem plainChar_underscore (c : Char) (ink : Text.isBlank c = false) :
    plainChar c = '_' ↔ c = '_' :=
  plainChar_eq_iff '_' (by decide) (by decide) c ink

end FourBit.Numeral
