import Mathlib.Algebra.Ring.Nat
import FourBit.Datum

namespace FourBit.Datum

theorem isShown_int_iff (value : Int) :
    (int value).isShown = true ↔ value.natAbs < 10 ^ maxDigits := by
  rw [isShown, decide_eq_true_iff]
  exact Nat.length_toDigits_le_iff (by decide) (by decide)

theorem isShown_of_nibble {datum : Datum} {n : Fin 16} (small : datum.nibble? = some n) :
    datum.isShown = true := by
  cases datum with
  | int value =>
      have bounds : 0 ≤ value ∧ value ≤ 15 := by
        simp only [nibble?] at small
        split at small
        · assumption
        · cases small
      have room : 10 ^ 2 ≤ 10 ^ maxDigits := Nat.pow_le_pow_right (by decide) (by decide)
      rw [isShown_int_iff]
      -- The limit is kept as a power: written out it has thousands of digits.
      generalize 10 ^ maxDigits = limit at room ⊢
      omega
  | none | truth | real | text | list | record => cases small

theorem nibble_of_hidden {datum : Datum} (hidden : datum.isShown = false) :
    datum.nibble? = Option.none := by
  cases small : datum.nibble? with
  | none => rfl
  | some n => cases hidden.symm.trans (isShown_of_nibble small)

def firstLong : Datum := int (10 ^ maxDigits : Nat)

theorem firstLong_hidden : firstLong.isShown = false := by
  rw [Bool.eq_false_iff, Ne, firstLong, isShown_int_iff, Int.natAbs_natCast]
  exact Nat.lt_irrefl _

end FourBit.Datum
