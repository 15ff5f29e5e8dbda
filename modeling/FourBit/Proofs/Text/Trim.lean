import Mathlib.Data.List.TakeWhile
import FourBit.Text.Basic

namespace FourBit.Text

theorem trimLeft_gap (gap rest : Text) (blank : ∀ c ∈ gap, isBlank c = true) :
    trimLeft (gap ++ rest) = trimLeft rest :=
  List.dropWhile_append_of_pos blank

theorem trimLeft_ink (c : Char) (rest : Text) (ink : isBlank c = false) :
    trimLeft (c :: rest) = c :: rest := by
  simp only [trimLeft, List.dropWhile_cons, ink, Bool.false_eq_true, if_false]

theorem trimRight_gap (rest gap : Text) (blank : ∀ c ∈ gap, isBlank c = true) :
    trimRight (rest ++ gap) = trimRight rest := by
  have mirrored : ∀ c ∈ gap.reverse, isBlank c = true := by simpa using blank
  simp only [trimRight, List.reverse_append, List.dropWhile_append_of_pos mirrored]

theorem trimRight_ink (front back : Text) (c : Char) (ink : isBlank c = false) :
    trimRight (front ++ c :: back) = front ++ c :: trimRight back := by
  have stops : (c :: front.reverse).dropWhile isBlank = c :: front.reverse :=
    trimLeft_ink c front.reverse ink
  simp only [trimRight, List.reverse_append, List.reverse_cons, List.append_assoc,
    List.singleton_append, List.dropWhile_append, stops]
  split
  · rename_i empty
    rw [List.isEmpty_iff.mp empty]
    simp
  · simp

theorem trimLeft_margin (t : Text) :
    ∃ gap, t = gap ++ trimLeft t ∧ ∀ c ∈ gap, isBlank c = true :=
  ⟨t.takeWhile isBlank, List.takeWhile_append_dropWhile.symm,
    fun _ inside => List.mem_takeWhile_imp inside⟩

theorem trimRight_margin (t : Text) :
    ∃ gap, t = trimRight t ++ gap ∧ ∀ c ∈ gap, isBlank c = true := by
  rcases trimLeft_margin t.reverse with ⟨gap, split, blank⟩
  refine ⟨gap.reverse, ?_, by simpa using blank⟩
  have mirrored := congrArg List.reverse split
  rw [List.reverse_reverse, List.reverse_append] at mirrored
  exact mirrored

theorem trim_margins (t : Text) :
    ∃ left right, t = left ++ trim t ++ right ∧ (∀ c ∈ left, isBlank c = true) ∧
      ∀ c ∈ right, isBlank c = true := by
  rcases trimLeft_margin t with ⟨left, front, blankLeft⟩
  rcases trimRight_margin (trimLeft t) with ⟨right, back, blankRight⟩
  refine ⟨left, right, ?_, blankLeft, blankRight⟩
  calc
    t = left ++ trimLeft t := front
    _ = left ++ (trim t ++ right) := congrArg (left ++ ·) back
    _ = left ++ trim t ++ right := (List.append_assoc left _ right).symm

theorem trim_eq_nil_iff (t : Text) : trim t = [] ↔ ∀ c ∈ t, isBlank c = true := by
  constructor
  · intro empty
    rcases trim_margins t with ⟨left, right, split, blankLeft, blankRight⟩
    rw [empty, List.append_nil] at split
    rw [split]
    exact List.forall_mem_append.mpr ⟨blankLeft, blankRight⟩
  · intro blank
    have gone := trimLeft_gap t [] blank
    rw [List.append_nil] at gone
    rw [trim, gone]
    rfl

theorem trim_gap (t gap : Text) (blank : ∀ c ∈ gap, isBlank c = true) :
    trim (t ++ gap) = trim t := by
  simp only [trim, trimLeft, List.dropWhile_append]
  split
  · rename_i empty
    have rest := (trim_eq_nil_iff gap).mpr blank
    rw [List.isEmpty_iff.mp empty]
    exact rest
  · exact trimRight_gap _ gap blank

theorem trim_between (front middle back : Text) (c : Char) (before : ∃ d ∈ front, isBlank d = false)
    (ink : isBlank c = false) :
    trim (front ++ middle ++ c :: back) = trimLeft front ++ middle ++ c :: trimRight back := by
  have stops : ¬ (trimLeft front).isEmpty = true := by
    rcases before with ⟨d, inside, dark⟩
    rw [List.isEmpty_iff, trimLeft, List.dropWhile_eq_nil_iff]
    exact fun blank => Bool.false_ne_true (dark.symm.trans (blank d inside))
  have left : trimLeft (front ++ middle ++ c :: back) = trimLeft front ++ middle ++ c :: back := by
    rw [List.append_assoc, trimLeft, List.dropWhile_append, ← trimLeft, if_neg stops,
      List.append_assoc]
  rw [trim, left, trimRight_ink _ back c ink]

theorem trim_trimRight (t : Text) : trim (trimRight t) = trim t := by
  rcases trimRight_margin t with ⟨gap, split, blank⟩
  have wider := trim_gap (trimRight t) gap blank
  rw [← split] at wider
  exact wider.symm

end FourBit.Text
