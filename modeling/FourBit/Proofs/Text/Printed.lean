import Mathlib.Data.Nat.Digits.Defs
import FourBit.Proofs.Reference.Numerals

namespace FourBit.Reference

variable (radix : Nat) (positive : 1 < radix) (within : radix ≤ 16)

theorem isDigit_digitChar (value : Nat) (below : value < 16) :
    IsDigit (Nat.digitChar value) value := by
  have table : ∀ value < 16, IsDigit (Nat.digitChar value) value := by decide
  exact table value below

theorem positional_concat (values : List Nat) (value : Nat) :
    positional radix (values ++ [value]) = radix * positional radix values + value := by
  rw [positional, List.reverse_append, List.reverse_singleton, List.singleton_append,
    Nat.ofDigits_cons, Nat.add_comm, positional]

theorem positional_zero (values : List Nat) :
    positional radix (0 :: values) = positional radix values := by
  rw [positional, List.reverse_cons, Nat.ofDigits_append, Nat.ofDigits_singleton, Nat.mul_zero,
    Nat.add_zero, positional]

theorem digits_concat (t : Text) (values : List Nat) (c : Char) (value : Nat)
    (spelled : Digits radix t values) (digit : IsDigit c value) (below : value < radix) :
    Digits radix (t ++ [c]) (values ++ [value]) := by
  induction spelled with
  | last d first leading small =>
      exact .next d first [c] [value] leading small (.last c value digit below)
  | next d first rest others leading small more ih => exact .next d first _ _ leading small ih
  | gap d first rest others leading small more ih => exact .gap d first _ _ leading small ih

theorem digits_padded (t : Text) (values : List Nat) (zeros : Nat)
    (spelled : Digits radix t values) (positive : 0 < radix) :
    ∃ padded, Digits radix (List.replicate zeros '0' ++ t) padded ∧
      positional radix padded = positional radix values := by
  induction zeros with
  | zero => exact ⟨values, spelled, rfl⟩
  | succ zeros ih =>
      obtain ⟨padded, more, same⟩ := ih
      exact ⟨0 :: padded, .next '0' 0 _ padded (.inl rfl) positive more,
        (positional_zero radix padded).trans same⟩

include positive within

theorem digits_toDigits (n : Nat) :
    ∃ values, Digits radix (Nat.toDigits radix n) values ∧ positional radix values = n := by
  induction n using Nat.strong_induction_on with
  | h n ih =>
      rw [Nat.toDigits_eq_if positive]
      split
      · rename_i single
        refine ⟨[n], .last _ n (isDigit_digitChar n (by omega)) single, ?_⟩
        rw [positional, List.reverse_singleton, Nat.ofDigits_singleton]
      · rename_i several
        have smaller : n / radix < n := Nat.div_lt_self (by omega) positive
        have last : n % radix < radix := Nat.mod_lt n (by omega)
        obtain ⟨values, spelled, same⟩ := ih (n / radix) smaller
        have digit := isDigit_digitChar (n % radix) (by omega)
        refine ⟨values ++ [n % radix], digits_concat radix _ values _ _ spelled digit last, ?_⟩
        rw [positional_concat, same, Nat.div_add_mod]

theorem mem_toDigits (n : Nat) (c : Char) (inside : c ∈ Nat.toDigits radix n) :
    ∃ value < radix, c = Nat.digitChar value := by
  induction n using Nat.strong_induction_on with
  | h n ih =>
      rw [Nat.toDigits_eq_if positive] at inside
      split at inside
      · rename_i single
        exact ⟨n, single, List.mem_singleton.mp inside⟩
      · rename_i several
        have smaller : n / radix < n := Nat.div_lt_self (by omega) positive
        rcases List.mem_append.mp inside with front | last
        · exact ih (n / radix) smaller front
        · exact ⟨n % radix, Nat.mod_lt n (by omega), List.mem_singleton.mp last⟩

end FourBit.Reference
