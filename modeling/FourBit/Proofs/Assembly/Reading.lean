import FourBit.Proofs.Assembly.Tokens
import FourBit.Proofs.Text.Trim

namespace FourBit.Assembly

open Reference

theorem tokens_trim (t : Text) : tokens t.trim = tokens t := by
  rcases Text.trim_margins t with ⟨left, right, split, blankLeft, blankRight⟩
  have before : ∀ c ∈ left, isSeparator c = true :=
    fun c inside => isSeparator_of_isBlank c (blankLeft c inside)
  have after : ∀ c ∈ right, isSeparator c = true :=
    fun c inside => isSeparator_of_isBlank c (blankRight c inside)
  calc
    tokens t.trim = tokens (t.trim ++ right) := (tokens_append_gap t.trim right after).symm
    _ = tokens (left ++ (t.trim ++ right)) := (tokens_gap_append left _ before).symm
    _ = tokens t := by rw [← List.append_assoc, ← split]

namespace Line

def contents (line : Line) : CodeLine :=
  ⟨line.label?, if line.body.isEmpty then none else some (tokens line.body)⟩

theorem uncommented_withoutComment (raw : Text) : Uncommented raw (withoutComment raw) := by
  refine ⟨raw.dropWhile fun c => c != ';' && c != '#', ?_, ?_, ?_⟩
  · exact List.takeWhile_append_dropWhile.symm
  · intro c inside
    simpa using List.mem_takeWhile_imp inside
  · intro c first
    have stops := List.head?_dropWhile_not (fun c => c != ';' && c != '#') raw
    rw [first] at stops
    simpa [Classical.or_iff_not_imp_left] using stops

theorem withoutComment_of_uncommented (raw code : Text) (cut : Uncommented raw code) :
    withoutComment raw = code := by
  rcases cut with ⟨comment, rfl, plain, mark⟩
  have kept : ∀ c ∈ code, (c != ';' && c != '#') = true := by simpa using plain
  rw [withoutComment, List.takeWhile_append_of_pos kept]
  cases comment with
  | nil => rw [List.takeWhile_nil, List.append_nil]
  | cons c rest =>
      have stops : (c != ';' && c != '#') = false := by
        rcases mark c rfl with rfl | rfl <;> decide
      simp only [List.takeWhile_cons, stops, Bool.false_eq_true, if_false, List.append_nil]

theorem isBlank_of_isNameStart (c : Char) (start : isNameStart c = true) :
    Text.isBlank c = false := by
  have range : 65 ≤ c.toNat ∧ c.toNat ≤ 122 := by
    have letters : (decide (65 ≤ c.val ∧ c.val ≤ 90) ||
        (decide (97 ≤ c.val) && decide (c.val ≤ 122)) || c == '_') = true := start
    simp only [Bool.or_eq_true, Bool.and_eq_true, decide_eq_true_eq, UInt32.le_iff_toNat_le,
      beq_iff_eq] at letters
    rcases letters with (upper | lower) | rfl
    · exact ⟨upper.1, upper.2.trans (by decide)⟩
    · exact ⟨Nat.le_trans (by decide) lower.1, lower.2⟩
    · decide
  simp only [Text.isBlank, Bool.or_eq_false_iff, Bool.and_eq_false_iff, decide_eq_false_iff_not,
    beq_eq_false_iff_ne]
  omega

theorem splitLabel_of_name (name body : Text) (named : IsName name) :
    splitLabel? (name ++ ':' :: body) = some (name, body) := by
  rcases named with ⟨c, rest, rfl, start, parts⟩
  have colon : ¬ isNamePart ':' = true := by decide
  simp only [List.cons_append, splitLabel?, start, if_true, List.dropWhile_append_of_pos parts,
    List.takeWhile_append_of_pos parts, List.dropWhile_cons_of_neg colon,
    List.takeWhile_cons_of_neg colon, List.append_nil]

theorem name_of_splitLabel (t name body : Text) (split : splitLabel? t = some (name, body)) :
    IsName name ∧ t = name ++ ':' :: body := by
  cases t with
  | nil => cases split
  | cons c rest =>
      simp only [splitLabel?] at split
      split at split
      · rename_i start
        split at split
        · rename_i after colon
          cases split
          refine ⟨⟨c, _, rfl, start, fun d inside => List.mem_takeWhile_imp inside⟩, ?_⟩
          rw [List.cons_append, ← colon, List.takeWhile_append_dropWhile]
        · cases split
      · cases split

theorem trim_label (margin name body : Text) (blank : ∀ c ∈ margin, Text.isBlank c = true)
    (named : IsName name) :
    Text.trim (margin ++ name ++ ':' :: body) = name ++ ':' :: Text.trimRight body := by
  rcases named with ⟨c, rest, rfl, start, parts⟩
  have ink := isBlank_of_isNameStart c start
  have colon : Text.isBlank ':' = false := by decide
  rw [List.append_assoc, Text.trim, Text.trimLeft_gap margin _ blank, List.cons_append,
    Text.trimLeft_ink c _ ink, ← List.cons_append, Text.trimRight_ink _ body ':' colon]

theorem read_of_labelled (number : Nat) (raw : Text) (label? : Option Text) (body : Text)
    (labelled : Labelled (withoutComment raw) label? body) :
    (read number raw).label? = label? ∧ (read number raw).body = body.trim := by
  generalize code : withoutComment raw = text at labelled
  cases labelled with
  | label margin name body blank named =>
      simp only [read, code, trim_label margin name body blank named,
        splitLabel_of_name name _ named, Text.trim_trimRight, and_self]
  | plain _ free =>
      have unsplit : splitLabel? body.trim = none := by
        cases split : splitLabel? body.trim with
        | none => rfl
        | some parts =>
            rcases name_of_splitLabel _ parts.1 parts.2 split with ⟨named, whole⟩
            rcases Text.trim_margins body with ⟨left, right, around, blank, _⟩
            refine (free left parts.1 (parts.2 ++ right) blank named ?_).elim
            rw [around, whole]
            simp only [List.append_assoc, List.cons_append]
      simp only [read, code, unsplit, and_self]

theorem labelled_exists (code : Text) : ∃ label? body, Labelled code label? body := by
  by_cases free : ∀ margin name body, (∀ c ∈ margin, Text.isBlank c = true) → IsName name →
      code ≠ margin ++ name ++ ':' :: body
  · exact ⟨none, code, .plain code free⟩
  · push Not at free
    rcases free with ⟨margin, name, body, blank, named, rfl⟩
    exact ⟨some name.upper, body, .label margin name body blank named⟩

theorem contents_of_stated (body : Text) (statement? : Option (List Text))
    (stated : Stated body statement?) :
    (if body.trim.isEmpty then none else some (tokens body.trim)) = statement? := by
  cases stated with
  | blank blank => simp only [(Text.trim_eq_nil_iff body).mpr blank, List.isEmpty_nil, if_true]
  | words c words inside ink spaced =>
      have present : body.trim ≠ [] := by
        intro empty
        have blank := (Text.trim_eq_nil_iff body).mp empty c inside
        exact Bool.false_ne_true (ink.symm.trans blank)
      rw [if_neg (by simpa using present), tokens_trim, tokens_of_spaced body words spaced]

theorem stated_exists (body : Text) : ∃ statement?, Stated body statement? := by
  by_cases blank : ∀ c ∈ body, Text.isBlank c = true
  · exact ⟨none, .blank body blank⟩
  · push Not at blank
    rcases blank with ⟨c, inside, ink⟩
    rcases spaced_exists body with ⟨words, spaced⟩
    exact ⟨some words, .words body c words inside (by simpa using ink) spaced⟩

theorem reads_iff (number : Nat) (raw : Text) (line : CodeLine) :
    CodeLine.Reads raw line ↔ (read number raw).contents = line := by
  have sound (other : CodeLine) (reads : other.Reads raw) : (read number raw).contents = other := by
    rcases reads with ⟨code, body, cut, labelled, stated⟩
    cases withoutComment_of_uncommented raw code cut
    rcases read_of_labelled number raw _ body labelled with ⟨label, trimmed⟩
    rw [contents, label, trimmed, contents_of_stated body _ stated]
  constructor
  · exact sound line
  · intro same
    rcases labelled_exists (withoutComment raw) with ⟨label?, body, labelled⟩
    rcases stated_exists body with ⟨statement?, stated⟩
    have reads : CodeLine.Reads raw ⟨label?, statement?⟩ :=
      ⟨_, body, uncommented_withoutComment raw, labelled, stated⟩
    rw [← same, sound _ reads]
    exact reads

end Line

theorem feed_not_mem_split (source : Text) :
    ∀ piece ∈ source.splitOn '\n', '\n' ∉ piece := by
  induction source with
  | nil => simp
  | cons c rest ih =>
      rw [List.splitOn_cons_eq_if_modifyHead]
      split
      · exact List.forall_mem_cons.mpr ⟨List.not_mem_nil, ih⟩
      · rename_i other
        cases pieces : rest.splitOn '\n' with
        | nil => simp
        | cons first others =>
            rw [pieces] at ih
            rcases List.forall_mem_cons.mp ih with ⟨head, tail⟩
            have longer : '\n' ∉ c :: first := by
              simpa [eq_comm] using ⟨by simpa using other, head⟩
            exact List.forall_mem_cons.mpr ⟨longer, tail⟩

theorem lines_iff (source : Text) (raws : List Text) :
    Text.lines source = raws ↔
      raws ≠ [] ∧ (∀ raw ∈ raws, '\n' ∉ raw) ∧ source = Text.unlines raws := by
  have split : Text.lines source = source.splitOn '\n' := List.splitOn_eq_splitOnP.symm
  rw [split]
  constructor
  · rintro rfl
    exact ⟨List.splitOn_ne_nil '\n' source, feed_not_mem_split source,
      (List.intercalate_splitOn '\n').symm⟩
  · intro given
    rcases given with ⟨present, single, rfl⟩
    exact List.splitOn_intercalate '\n' single present

theorem lines_append (first second : Text) :
    Text.lines (first ++ '\n' :: second) = Text.lines first ++ Text.lines second :=
  List.splitOnP_append_cons first second rfl

theorem forall_reads_iff (raws : List Text) (first : Nat) (lines : List CodeLine) :
    List.Forall₂ CodeLine.Reads raws lines ↔
      ((raws.zipIdx first).map fun (raw, index) => Line.read (index + 1) raw).map Line.contents =
        lines := by
  induction raws generalizing first lines with
  | nil => simp [eq_comm]
  | cons raw raws ih =>
      simp only [List.zipIdx_cons, List.map_cons, List.forall₂_cons_left_iff,
        Line.reads_iff (first + 1) raw, ih (first + 1)]
      constructor
      · intro given
        rcases given with ⟨line, rest, same, more, rfl⟩
        rw [same, more]
      · rintro rfl
        exact ⟨_, _, rfl, rfl, rfl⟩

theorem reads_source_iff (source : Text) (lines : List CodeLine) :
    Reads source lines ↔ (readLines source).map Line.contents = lines := by
  constructor
  · intro given
    rcases given with ⟨raws, present, single, split, reads⟩
    have same := (lines_iff source raws).mpr ⟨present, single, split⟩
    rw [readLines, same]
    exact (forall_reads_iff raws 0 lines).mp reads
  · intro same
    rcases (lines_iff source _).mp rfl with ⟨present, single, split⟩
    exact ⟨_, present, single, split, (forall_reads_iff _ 0 lines).mpr same⟩

end FourBit.Assembly
