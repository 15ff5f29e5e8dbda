import Mathlib.Logic.Relation
import FourBit.Proofs.Assembly.Names
import FourBit.Proofs.Assembly.Substance
import FourBit.Proofs.Reference.Restyled

/-! The looks of a source do not matter: restyled, it is assembled to the same words and labels, or
refused in the same way. -/

namespace FourBit

namespace Assembly

open Reference

theorem ink_of_solid (c : Char) (solid : isSeparator c = false) : Text.isBlank c = false := by
  rw [← Bool.not_eq_true] at solid ⊢
  exact fun blank => solid (isSeparator_of_isBlank c blank)

section Gaps

variable (front gap back : Text) (present : gap ≠ []) (separating : ∀ c ∈ gap, isSeparator c = true)

include present separating

theorem tokens_between : tokens (front ++ gap ++ back) = tokens front ++ tokens back := by
  cases gap with
  | nil => exact (present rfl).elim
  | cons c gap =>
      rcases List.forall_mem_cons.mp separating with ⟨first, others⟩
      rw [List.append_assoc, List.cons_append, tokens_append_separator front _ c first,
        tokens_gap_append gap back others]

namespace Line

theorem splitLabel_between : splitLabel? (front ++ gap ++ back) =
    (splitLabel? front).map fun parts => (parts.1, parts.2 ++ gap ++ back) := by
  cases split : splitLabel? front with
  | some parts =>
      rcases name_of_splitLabel front parts.1 parts.2 split with ⟨named, rfl⟩
      simp only [List.append_assoc, List.cons_append, splitLabel_of_name _ _ named, Option.map_some]
  | none =>
      cases later : splitLabel? (front ++ gap ++ back) with
      | none => rfl
      | some parts =>
          rcases name_of_splitLabel _ parts.1 parts.2 later with ⟨named, whole⟩
          rcases List.exists_cons_of_ne_nil present with ⟨c, others, rfl⟩
          have separator := separating c List.mem_cons_self
          have colon : c ≠ ':' := by
            rintro rfl
            cases separator
          rw [List.append_assoc, List.append_eq_append_iff] at whole
          -- The name would reach into the gap, or the front would have a label already.
          rcases whole with ⟨more, longer, rest⟩ | ⟨more, rfl, rest⟩
          · cases more with
            | nil => exact (colon (List.cons.inj rest).1).elim
            | cons d more =>
                have inside : c ∈ parts.1 := by
                  rw [longer, (List.cons.inj rest).1]
                  exact List.mem_append_right front List.mem_cons_self
                exact (Bool.false_ne_true ((named.solid c inside).symm.trans separator)).elim
          · cases more with
            | nil => exact (colon (List.cons.inj rest).1.symm).elim
            | cons d more =>
                have found := splitLabel_of_name parts.1 more named
                rw [(List.cons.inj rest).1] at found
                cases split.symm.trans found

theorem statement_between (c : Char) (solid : isSeparator c = false) :
    (if (Text.trim (front ++ gap ++ c :: back)).isEmpty then none
      else some (tokens (Text.trim (front ++ gap ++ c :: back)))) =
      some (tokens front ++ tokens (c :: back)) := by
  have inside : c ∈ front ++ gap ++ c :: back := List.mem_append_right _ List.mem_cons_self
  have spaced := (tokens_eq_iff _ _).mp (tokens_between front gap (c :: back) present separating)
  exact contents_of_stated _ _ (.words _ c _ inside (ink_of_solid c solid) spaced)

theorem contents_between (number : Nat) (raw : Text) (c : Char)
    (before : ∃ d ∈ front, Text.isBlank d = false) (solid : isSeparator c = false)
    (code : withoutComment raw = front ++ gap ++ c :: back) :
    (read number raw).contents = match splitLabel? (Text.trimLeft front) with
      | some parts =>
        ⟨some parts.1.upper, some (tokens parts.2 ++ tokens (c :: Text.trimRight back))⟩
      | none => ⟨none, some (tokens front ++ tokens (c :: back))⟩ := by
  have trimmed := Text.trim_between front gap back c before (ink_of_solid c solid)
  have split := splitLabel_between (Text.trimLeft front) gap (c :: Text.trimRight back) present
    separating
  rw [← trimmed] at split
  simp only [read, code, split]
  cases splitLabel? (Text.trimLeft front) with
  | none =>
      simp only [Option.map_none, contents,
        statement_between front gap back present separating c solid]
  | some parts =>
      simp only [Option.map_some, contents,
        statement_between parts.2 gap (Text.trimRight back) present separating c solid]

end Line

end Gaps

namespace Line

section Comments

variable (front back : Text)

theorem plain_iff : (∀ c ∈ front, c ≠ ';' ∧ c ≠ '#') ↔ ¬ ∃ c ∈ front, c = ';' ∨ c = '#' := by
  simp

theorem marked_or_plain :
    (∃ c ∈ front, c = ';' ∨ c = '#') ∨ ∀ c ∈ front, c ≠ ';' ∧ c ≠ '#' := by
  rw [plain_iff]
  exact Classical.em _

theorem withoutComment_plain (plain : ∀ c ∈ front, c ≠ ';' ∧ c ≠ '#') :
    withoutComment (front ++ back) = front ++ withoutComment back :=
  List.takeWhile_append_of_pos (by simpa using plain)

theorem withoutComment_self (plain : ∀ c ∈ front, c ≠ ';' ∧ c ≠ '#') :
    withoutComment front = front := by
  have whole := withoutComment_plain front [] plain
  have none : withoutComment [] = [] := rfl
  rwa [none, List.append_nil] at whole

theorem withoutComment_marked (marked : ∃ c ∈ front, c = ';' ∨ c = '#') :
    withoutComment (front ++ back) = withoutComment front := by
  rcases uncommented_withoutComment front with ⟨comment, split, plain, mark⟩
  have present : comment ≠ [] := by
    rintro rfl
    rw [List.append_nil] at split
    rw [← split, plain_iff] at plain
    exact plain marked
  refine withoutComment_of_uncommented _ _ ⟨comment ++ back, ?_, plain, ?_⟩
  · rw [← List.append_assoc, ← split]
  · rwa [List.head?_append_of_ne_nil comment present]

end Comments

theorem plain_of_separating (gap : Text) (separating : ∀ c ∈ gap, isSeparator c = true) :
    ∀ c ∈ gap, c ≠ ';' ∧ c ≠ '#' := by
  intro c inside
  have separator := separating c inside
  constructor <;> rintro rfl <;> cases separator

theorem plain_of_blank (margin : Text) (blank : ∀ c ∈ margin, Text.isBlank c = true) :
    ∀ c ∈ margin, c ≠ ';' ∧ c ≠ '#' :=
  plain_of_separating margin fun c inside => isSeparator_of_isBlank c (blank c inside)

theorem contents_congr (number : Nat) (raw other : Text)
    (same : (withoutComment raw).trim = (withoutComment other).trim) :
    (read number raw).contents = (read number other).contents := by
  simp only [read, same]
  cases splitLabel? (withoutComment other).trim <;> rfl

theorem contents_remark (number : Nat) (raw words : Text) (mark : Char)
    (marks : mark = ';' ∨ mark = '#') :
    (read number (raw ++ mark :: words)).contents = (read number raw).contents := by
  have same : withoutComment (raw ++ mark :: words) = withoutComment raw := by
    rcases marked_or_plain raw with marked | plain
    · exact withoutComment_marked raw _ marked
    · have gone : withoutComment (mark :: words) = [] := by
        rcases marks with rfl | rfl <;> rfl
      rw [withoutComment_plain raw _ plain, gone, List.append_nil, withoutComment_self raw plain]
  exact contents_congr number _ raw (congrArg Text.trim same)

theorem contents_indent (number : Nat) (margin raw : Text)
    (blank : ∀ c ∈ margin, Text.isBlank c = true) :
    (read number (margin ++ raw)).contents = (read number raw).contents := by
  apply contents_congr
  rw [withoutComment_plain margin raw (plain_of_blank margin blank), Text.trim,
    Text.trimLeft_gap margin _ blank, Text.trim]

theorem trim_withoutComment_trail (raw margin : Text)
    (blank : ∀ c ∈ margin, Text.isBlank c = true) :
    (withoutComment (raw ++ margin)).trim = (withoutComment raw).trim := by
  rcases marked_or_plain raw with marked | plain
  · rw [withoutComment_marked raw margin marked]
  · rw [withoutComment_plain raw margin plain, withoutComment_self raw plain,
      withoutComment_self margin (plain_of_blank margin blank), Text.trim_gap raw margin blank]

theorem read_trail (number : Nat) (raw margin : Text)
    (blank : ∀ c ∈ margin, Text.isBlank c = true) :
    read number (raw ++ margin) = read number raw := by
  unfold read
  rw [trim_withoutComment_trail raw margin blank, Text.trim_gap raw margin blank]

theorem contents_restyled (number : Nat) (raw other : Text) (restyled : LineRestyled raw other) :
    (read number other).contents = (read number raw).contents := by
  cases restyled with
  | remark _ words mark marks => exact contents_remark number raw words mark marks
  | indent margin _ blank => exact contents_indent number margin raw blank
  | trail _ margin blank => rw [read_trail number raw margin blank]
  | respace front old new back ends begins old_present old_gap new_present new_gap word =>
      rcases marked_or_plain front with marked | plain
      · apply contents_congr
        rw [List.append_assoc, List.append_assoc, withoutComment_marked front _ marked,
          withoutComment_marked front _ marked]
      · rcases ends with ⟨last, ended, last_solid⟩
        rcases begins with ⟨first, begun, first_solid⟩
        rcases List.head?_eq_some_iff.mp begun with ⟨rest, rfl⟩
        have before : ∃ c ∈ front, Text.isBlank c = false :=
          ⟨last, List.mem_of_getLast? ended, ink_of_solid last last_solid⟩
        have unmarked : first ≠ ';' ∧ first ≠ '#' := by
          rcases word with free | marked
          · exact free first rfl
          · exact ((plain_iff front).mp plain marked).elim
        have code (gap : Text) (separating : ∀ c ∈ gap, isSeparator c = true) :
            withoutComment (front ++ gap ++ first :: rest) =
              front ++ gap ++ first :: withoutComment rest := by
          have clear : ∀ c ∈ front ++ gap ++ [first], c ≠ ';' ∧ c ≠ '#' := by
            simp only [List.forall_mem_append, List.forall_mem_singleton]
            exact ⟨⟨plain, plain_of_separating gap separating⟩, unmarked⟩
          have whole := withoutComment_plain _ rest clear
          simpa only [List.append_assoc, List.singleton_append] using whole
        rw [contents_between front new _ new_present new_gap number _ first before first_solid
            (code new new_gap),
          contents_between front old _ old_present old_gap number _ first before first_solid
            (code old old_gap)]

end Line

theorem lines_append_single (t back : Text) (single : '\n' ∉ back) :
    ∃ above last, Text.lines t = above ++ [last] ∧
      Text.lines (t ++ back) = above ++ [last ++ back] := by
  induction t with
  | nil =>
      have whole : Text.lines back = [back] := by
        apply List.splitOnP_eq_singleton
        intro c inside
        rw [← Bool.not_eq_true, beq_iff_eq]
        rintro rfl
        exact single inside
      exact ⟨[], [], rfl, whole⟩
  | cons c rest ih =>
      rcases ih with ⟨above, last, split, longer⟩
      unfold Text.lines at split longer ⊢
      rw [List.cons_append, List.splitOnP_cons_eq_if_modifyHead,
        List.splitOnP_cons_eq_if_modifyHead, split, longer]
      by_cases feed : (c == '\n') = true
      · exact ⟨[] :: above, last, by simp [feed], by simp [feed]⟩
      · cases above with
        | nil => exact ⟨[], c :: last, by simp [feed], by simp [feed]⟩
        | cons first above => exact ⟨(c :: first) :: above, last, by simp [feed], by simp [feed]⟩

theorem substance_eq (source : Text) : substance source =
    ((Text.lines source).map fun raw => (Line.read 0 raw).substance).filter (· ≠ ⟨none, none⟩) := by
  have unnumbered (number : Nat) (raw : Text) :
      (Line.read number raw).substance = (Line.read 0 raw).substance := by
    have reads := (Line.reads_iff 0 raw _).mpr rfl
    exact congrArg CodeLine.lowered ((Line.reads_iff number raw _).mp reads)
  have each : (readLines source).map Line.substance =
      (Text.lines source).map fun raw => (Line.read 0 raw).substance := by
    conv_rhs => rw [← List.zipIdx_map_fst 0 (Text.lines source)]
    rw [readLines, List.map_map, List.map_map]
    exact List.map_congr_left fun entry _ => unnumbered (entry.2 + 1) entry.1
  rw [substance, each]

theorem substance_lowered (source : Text) : substance source.lowered = substance source := by
  have each (raw : Text) :
      (Line.read 0 raw.lowered).substance = (Line.read 0 raw).substance :=
    Line.contents_lowered 0 raw
  rw [substance_eq, substance_eq, Text.lines_lowered, List.map_map]
  simp only [Function.comp_def, each]

theorem silent_of_blank (line code : Text) (cut : Uncommented line code)
    (blank : ∀ c ∈ code, Text.isBlank c = true) : (Line.read 0 line).substance = ⟨none, none⟩ := by
  have trimmed := (Text.trim_eq_nil_iff code).mpr blank
  simp only [Line.substance, Line.read, Line.withoutComment_of_uncommented line code cut, trimmed]
  rfl

section Changes

variable {source other : Text}

theorem substance_of_line (above below : List Text) (before after : Text)
    (given : Text.lines source = above ++ before :: below)
    (made : Text.lines other = above ++ after :: below) (restyled : LineRestyled before after) :
    substance source = substance other := by
  have same : (Line.read 0 after).substance = (Line.read 0 before).substance :=
    congrArg CodeLine.lowered (Line.contents_restyled 0 before after restyled)
  simp only [substance_eq, given, made, List.map_append, List.map_cons, same]

theorem lines_feed (front back : Text) : ∃ above last,
    Text.lines (front ++ '\n' :: back) = above ++ last :: Text.lines back ∧
      Text.lines (front ++ '\r' :: '\n' :: back) =
        above ++ (last ++ ['\r']) :: Text.lines back := by
  rcases lines_append_single front ['\r'] (by decide) with ⟨above, last, split, longer⟩
  have moved : front ++ '\r' :: '\n' :: back = (front ++ ['\r']) ++ '\n' :: back := by simp
  refine ⟨above, last, ?_, ?_⟩
  · rw [lines_append, split, List.append_assoc, List.singleton_append]
  · rw [moved, lines_append, longer, List.append_assoc, List.singleton_append]

theorem substance_of_restyled (restyled : Restyled source other) :
    substance source = substance other := by
  cases restyled with
  | line above below before after given made restyled =>
      exact substance_of_line above below before after given made restyled
  | insert above below line code cut blank given made =>
      have silent := silent_of_blank line code cut blank
      simp only [substance_eq, given, made, List.map_append, List.map_cons, List.filter_append]
      rw [List.filter_cons_of_neg (by simp [silent])]
  | recase same =>
      calc
        substance source = substance source.lowered := (substance_lowered source).symm
        _ = substance other.lowered := congrArg substance same
        _ = substance other := substance_lowered other
  | feed front back given made =>
      subst given made
      rcases lines_feed front back with ⟨above, last, split, longer⟩
      refine substance_of_line above _ last _ split longer (.trail last ['\r'] ?_)
      intro c inside
      rw [List.mem_singleton.mp inside]
      rfl

end Changes

end Assembly

open Reference Assembly

/-- Changes of the looks of a source, one after the other, leave words, labels, classes of errors
and their addresses. -/
theorem layout_and_case_are_ignored (source other : Text)
    (restyled : Relation.ReflTransGen Restyled source other) :
    SameOutcome (assemble source) (assemble other) := by
  have same : substance source = substance other := by
    induction restyled with
    | refl => rfl
    | tail _ step ih => exact ih.trans (substance_of_restyled step)
  exact assemble_alike source other same

/-- A loop in other letters, with wider gaps, remarks and carriage returns. -/
theorem layout_and_case_are_ignored_decorated :
    Relation.ReflTransGen Restyled "go: out 1\njmp go".toList
        "# top\nGO: OUT , 1\r\n jmp Go;#x".toList ∧
      SameOutcome (assemble "go: out 1\njmp go".toList)
        (assemble "# top\nGO: OUT , 1\r\n jmp Go;#x".toList) := by
  have recased : Restyled "go: out 1\njmp go".toList "GO: OUT 1\njmp Go".toList :=
    .recase (by decide +kernel)
  have old_gap : ∀ c ∈ " ".toList, isSeparator c = true := by decide +kernel
  have new_gap : ∀ c ∈ " , ".toList, isSeparator c = true := by decide +kernel
  have unmarked : ∀ c ∈ "1".toList.head?, c ≠ ';' ∧ c ≠ '#' := by
    intro c first
    cases Option.some.inj first
    decide
  have spaced : Restyled "GO: OUT 1\njmp Go".toList "GO: OUT , 1\njmp Go".toList :=
    .line [] ["jmp Go".toList] _ _ (by decide +kernel) (by decide +kernel)
      (.respace "GO: OUT".toList " ".toList " , ".toList "1".toList ⟨'T', rfl, rfl⟩ ⟨'1', rfl, rfl⟩
        (List.cons_ne_nil _ _) old_gap (List.cons_ne_nil _ _) new_gap (.inl unmarked))
  have remarked : Restyled "GO: OUT , 1\njmp Go".toList "GO: OUT , 1\njmp Go;#x".toList :=
    .line ["GO: OUT , 1".toList] [] _ _ (by decide +kernel) (by decide +kernel)
      (.remark "jmp Go".toList "#x".toList ';' (.inl rfl))
  have indented : Restyled "GO: OUT , 1\njmp Go;#x".toList "GO: OUT , 1\n jmp Go;#x".toList :=
    .line ["GO: OUT , 1".toList] [] _ _ (by decide +kernel) (by decide +kernel)
      (.indent " ".toList "jmp Go;#x".toList (by decide +kernel))
  have inserted : Restyled "GO: OUT , 1\n jmp Go;#x".toList
      "# top\nGO: OUT , 1\n jmp Go;#x".toList :=
    .insert [] ["GO: OUT , 1".toList, " jmp Go;#x".toList] "# top".toList []
      ⟨"# top".toList, rfl, by simp, by simp⟩ (by simp) (by decide +kernel) (by decide +kernel)
  have returned : Restyled "# top\nGO: OUT , 1\n jmp Go;#x".toList
      "# top\nGO: OUT , 1\r\n jmp Go;#x".toList :=
    .feed "# top\nGO: OUT , 1".toList " jmp Go;#x".toList rfl rfl
  have path := ((((((Relation.ReflTransGen.refl).tail recased).tail spaced).tail remarked).tail
    indented).tail inserted).tail returned
  exact ⟨path, layout_and_case_are_ignored _ _ path⟩

end FourBit
