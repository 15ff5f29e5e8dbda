import FourBit.Proofs.Assembly.Restyling

namespace FourBit

/-- Every carriage return stands before a line feed. -/
def Text.FeedsFollow (t : Text) : Prop :=
  ∀ before after, t = before ++ '\r' :: after → after.head? = some '\n'

namespace Text

theorem feedsFollow_nil : FeedsFollow [] := by
  intro before after split
  cases before <;> cases split

theorem feedsFollow_cons_iff (c : Char) (rest : Text) :
    FeedsFollow (c :: rest) ↔ (c = '\r' → rest.head? = some '\n') ∧ FeedsFollow rest := by
  constructor
  · intro follow
    constructor
    · rintro rfl
      exact follow [] rest rfl
    · intro before after split
      apply follow (c :: before) after
      rw [split, List.cons_append]
  · intro given before after split
    cases before with
    | nil =>
        cases split
        exact given.1 rfl
    | cons first before =>
        cases split
        exact given.2 before after rfl

instance decidableFeedsFollow : (t : Text) → Decidable t.FeedsFollow
  | [] => isTrue feedsFollow_nil
  | c :: rest =>
    have := decidableFeedsFollow rest
    decidable_of_iff _ (feedsFollow_cons_iff c rest).symm

/-- A line, and what is left of it when the ends of lines are made alike. -/
inductive Returned : Text → Text → Prop
  | bare (raw : Text) : Returned raw raw
  | returned (raw : Text) : Returned (raw ++ ['\r']) raw

theorem Returned.cons {raw left : Text} (returned : Returned raw left) (c : Char) :
    Returned (c :: raw) (c :: left) := by
  cases returned with
  | bare => exact .bare (c :: raw)
  | returned => exact .returned (c :: left)

theorem lines_feed_first (rest : Text) : lines ('\n' :: rest) = [] :: lines rest :=
  Assembly.lines_append [] rest

theorem lines_cons (c : Char) (rest : Text) (other : c ≠ '\n') :
    lines (c :: rest) = (lines rest).modifyHead (c :: ·) := by
  have no : ¬ (c == '\n') = true := by simpa using other
  unfold lines
  rw [List.splitOnP_cons_eq_if_modifyHead, if_neg no]

theorem lines_normalizeNewlines (t : Text) (follow : t.FeedsFollow) :
    List.Forall₂ Returned (lines t) (lines t.normalizeNewlines) := by
  induction t using normalizeNewlines.induct with
  | case1 rest ih =>
      have first : lines ('\r' :: '\n' :: rest) = ['\r'] :: lines rest :=
        Assembly.lines_append ['\r'] rest
      rw [normalizeNewlines, first, lines_feed_first]
      have after := ((feedsFollow_cons_iff _ _).mp follow).2
      exact .cons (.returned []) (ih ((feedsFollow_cons_iff _ _).mp after).2)
  | case2 rest alone =>
      obtain ⟨after, rfl⟩ := List.head?_eq_some_iff.mp (follow [] rest rfl)
      exact (alone after rfl).elim
  | case3 c rest unpaired other ih =>
      have later := ih ((feedsFollow_cons_iff c rest).mp follow).2
      rw [normalizeNewlines.eq_3 c rest unpaired other]
      by_cases feed : c = '\n'
      · rw [feed, lines_feed_first, lines_feed_first]
        exact .cons (.bare []) later
      · rw [lines_cons c _ feed, lines_cons c _ feed]
        generalize lines rest = raws at later
        generalize lines (normalizeNewlines rest) = lefts at later
        cases later with
        | nil => exact .nil
        | cons first others => exact .cons (first.cons c) others
  | case4 => exact .cons (.bare []) .nil

end Text

namespace Assembly

theorem Line.read_returned (number : Nat) {raw left : Text} (returned : Text.Returned raw left) :
    read number raw = read number left := by
  cases returned with
  | bare => rfl
  | returned => exact read_trail number left ['\r'] (by decide)

theorem read_returned_from (first : Nat) {raws lefts : List Text}
    (paired : List.Forall₂ Text.Returned raws lefts) :
    (lefts.zipIdx first).map (fun (raw, index) => Line.read (index + 1) raw) =
      (raws.zipIdx first).map fun (raw, index) => Line.read (index + 1) raw := by
  induction paired generalizing first with
  | nil => rfl
  | cons returned _ ih =>
      simp only [List.zipIdx_cons, List.map_cons, ih (first + 1),
        Line.read_returned (first + 1) returned]

theorem readLines_normalizeNewlines (source : Text) (follow : source.FeedsFollow) :
    readLines source.normalizeNewlines = readLines source :=
  read_returned_from 0 (Text.lines_normalizeNewlines source follow)

theorem assemble_normalizeNewlines (source : Text) (follow : source.FeedsFollow) :
    assemble source.normalizeNewlines = assemble source := by
  unfold assemble
  rw [readLines_normalizeNewlines source follow]

end Assembly

end FourBit
