import Mathlib.Data.List.TakeWhile
import FourBit.Proofs.Text.UpperCase

/-! Lower case of the seven-bit letters. Classes of characters that take a letter in both cases or
in none do not see it, and upper case undoes it. -/

namespace FourBit.Text

def lowered (t : Text) : Text := t.map Char.toLower

/-- A class that has a letter in both cases or in none. -/
def Caseless (holds : Char → Bool) : Prop := ∀ c, holds c.toLower = holds c

theorem toLower_large (c : Char) (large : 128 ≤ c.toNat) : c.toLower = c := by
  have beyond : ¬ (65 ≤ c.val ∧ c.val ≤ 90) := by
    intro letter
    have low : c.toNat ≤ 90 := UInt32.le_iff_toNat_le.mp letter.2
    omega
  exact dif_neg beyond

theorem toLower_ignored {α : Type} (seen : Char → α)
    (table : ∀ n < 128, seen (Char.ofNat n).toLower = seen (Char.ofNat n)) (c : Char) :
    seen c.toLower = seen c := by
  rcases Nat.lt_or_ge c.toNat 128 with small | large
  · exact of_sevenBit (fun c => seen c.toLower = seen c) table c small
  · rw [toLower_large c large]

theorem caseless_blank : Caseless isBlank := toLower_ignored isBlank (by decide +kernel)

theorem caseless_digit : Caseless isDigitLike := toLower_ignored isDigitLike (by decide +kernel)

theorem caseless_feed : Caseless (· == '\n') := toLower_ignored (· == '\n') (by decide +kernel)

theorem toLower_toLower (c : Char) : c.toLower.toLower = c.toLower :=
  toLower_ignored Char.toLower (by decide +kernel) c

theorem upperChar_toLower (c : Char) : upperChar c.toLower = upperChar c :=
  toLower_ignored upperChar (by decide +kernel) c

theorem lowered_lowered (t : Text) : t.lowered.lowered = t.lowered := by
  simp only [lowered, List.map_map, Function.comp_def, toLower_toLower]

theorem upper_lowered (t : Text) : t.lowered.upper = t.upper := by
  simp only [lowered, upper, List.flatMap_map, upperChar_toLower]

theorem isEmpty_lowered (t : Text) : t.lowered.isEmpty = t.isEmpty := List.isEmpty_map

section Classes

variable {holds : Char → Bool} (caseless : Caseless holds) (t : Text)

include caseless

theorem Caseless.comp : holds ∘ Char.toLower = holds := funext caseless

theorem takeWhile_lowered : t.lowered.takeWhile holds = lowered (t.takeWhile holds) := by
  rw [lowered, List.takeWhile_map, caseless.comp, lowered]

theorem dropWhile_lowered : t.lowered.dropWhile holds = lowered (t.dropWhile holds) := by
  rw [lowered, List.dropWhile_map, caseless.comp, lowered]

theorem splitOnP_lowered : t.lowered.splitOnP holds = (t.splitOnP holds).map lowered := by
  induction t with
  | nil => rfl
  | cons c rest ih =>
      rw [lowered, List.map_cons, List.splitOnP_cons_eq_if_modifyHead, caseless c, ← lowered, ih,
        List.splitOnP_cons_eq_if_modifyHead]
      split
      · rfl
      · cases rest.splitOnP holds <;> rfl

end Classes

theorem trimLeft_lowered (t : Text) : trimLeft t.lowered = (trimLeft t).lowered :=
  dropWhile_lowered caseless_blank t

theorem trimRight_lowered (t : Text) : trimRight t.lowered = (trimRight t).lowered := by
  have mirrored : t.lowered.reverse = lowered t.reverse := List.map_reverse.symm
  rw [trimRight, mirrored, dropWhile_lowered caseless_blank]
  exact List.map_reverse.symm

theorem trim_lowered (t : Text) : trim t.lowered = (trim t).lowered := by
  rw [trim, trimLeft_lowered, trimRight_lowered, trim]

theorem lines_lowered (t : Text) : lines t.lowered = (lines t).map lowered :=
  splitOnP_lowered caseless_feed t

end FourBit.Text
