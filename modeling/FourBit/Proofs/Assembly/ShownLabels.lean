import FourBit.Proofs.Assembly.Concatenation
import FourBit.Proofs.Assembly.Relisting

/-! Labels in the listing of a program: each address shows one of its labels, the last, and so a
label is lost just if another label stands between it and its statement. -/

namespace FourBit

open Assembly Reference

/-- A label stands on a line without a statement, and another label stands further down before any
statement. -/
def Reference.Overshadowed (lines : List CodeLine) (name : Text) : Prop :=
  ∃ before line after other, lines = before ++ line :: after ∧ line.label? = some name ∧
    line.statement? = none ∧ Defines after other 0

def Program.Shows (program : Program) (addr : Nat) (name : Text) : Prop :=
  ∃ line ∈ program.listing, ∃ (word : Fin 256) (rest : Text),
    line = listingMargin addr word ++ (name ++ ':' :: rest)

theorem take_listingMargin (addr : Nat) (byte : Fin 256) (inside : addr < 16) :
    (listingMargin addr byte).take 2 = Text.alignRight 2 (Text.decimal addr) := by
  rw [listingMargin, List.append_assoc, List.append_assoc]
  exact List.take_left' (length_address addr inside)

theorem address_inj (addr other : Nat) (inside : addr < 16) (inside' : other < 16)
    (same : Text.alignRight 2 (Text.decimal addr) = Text.alignRight 2 (Text.decimal other)) :
    addr = other := by
  have each : ∀ addr other : Fin 16, Text.alignRight 2 (Text.decimal (addr : Nat)) =
      Text.alignRight 2 (Text.decimal (other : Nat)) → addr = other := by decide +kernel
  exact congrArg Fin.val (each ⟨addr, inside⟩ ⟨other, inside'⟩ same)

theorem listingMargin_inj (addr other : Nat) (byte byte' : Fin 256) (s t : Text)
    (inside : addr < 16) (inside' : other < 16)
    (same : listingMargin addr byte ++ s = listingMargin other byte' ++ t) :
    addr = other ∧ s = t := by
  have sizes := (length_listingMargin addr byte inside).trans
    (length_listingMargin other byte' inside').symm
  obtain ⟨margins, rest⟩ := List.append_inj same sizes
  refine ⟨?_, rest⟩
  apply address_inj addr other inside inside'
  calc
    _ = (listingMargin addr byte).take 2 := (take_listingMargin addr byte inside).symm
    _ = (listingMargin other byte').take 2 := congrArg (List.take 2) margins
    _ = _ := take_listingMargin other byte' inside'

theorem labelColumn_shows (label? : Option Text) (name text rest : Text) (named : IsName name)
    (other : ∀ shown ∈ label?, IsName shown)
    (same : labelColumn label? ++ text = name ++ ':' :: rest) : label? = some name := by
  have split := Line.splitLabel_of_name name rest named
  rw [← same] at split
  cases label? with
  | none => cases split
  | some shown =>
      obtain ⟨gap, column, _⟩ := labelColumn_name shown
      rw [column, List.append_assoc, List.cons_append,
        Line.splitLabel_of_name shown _ (other shown rfl)] at split
      cases split
      rfl

namespace Program

variable (program : Program) (distinct : (program.labels.map Prod.fst).Nodup)

include distinct

theorem labelAt_iff_last (front back : List (Text × Nat)) (name : Text) (addr : Nat)
    (split : program.labels = front ++ (name, addr) :: back) :
    program.labelAt? addr = some name ↔ ∀ other, (other, addr) ∉ back := by
  have order : program.labels.reverse = back.reverse ++ (name, addr) :: front.reverse := by
    rw [split, List.reverse_append, List.reverse_cons, List.append_assoc, List.singleton_append]
  rw [labelAt?, order, List.find?_append]
  cases found : back.reverse.find? (·.2 == addr) with
  | none =>
      have missing := List.find?_eq_none.mp found
      apply iff_of_true
      · simp only [Option.none_or, List.find?_cons, beq_self_eq_true, Option.map_some]
      · intro other listed
        exact missing (other, addr) (List.mem_reverse.mpr listed) (beq_self_eq_true addr)
  | some entry =>
      obtain ⟨last, place⟩ := entry
      have listed := List.mem_reverse.mp (List.mem_of_find?_eq_some found)
      obtain rfl : place = addr := by simpa using List.find?_some found
      apply iff_of_false
      · -- the entry that is found stands behind the label, so that its name is another
        intro same
        cases same
        rw [split, List.map_append, List.map_cons, List.nodup_append] at distinct
        exact (List.nodup_cons.mp distinct.2.1).1 (List.mem_map.mpr ⟨_, listed, rfl⟩)
      · intro absent
        exact absent last listed

end Program

namespace Assembly

theorem labels_around (before : List Line) (line : Line) (after : List Line) (name : Text)
    (label : line.label? = some name) :
    (Layout.empty.extend (before ++ line :: after)).labels =
      (Layout.empty.extend before).labels ++
        (name, (statementsOf (before.map Line.contents)).length) ::
          Layout.labelsFrom ((statementsOf (before.map Line.contents)).length +
            line.contents.statement?.toList.length) after := by
  calc
    _ = (Layout.empty.extend before).labels ++
        Layout.labelsFrom (Layout.empty.extend before).next (line :: after) := by
      rw [Layout.extend_append]
      rfl
    _ = _ := by
      rw [Layout.next_laidOut]
      cases blank : line.body.isEmpty <;> simp [Layout.labelsFrom, label, Line.contents, blank]

section Assembled

variable (source : Text) (program : Program) (assembled : assemble source = .ok program)

include assembled

theorem shows_iff (addr : Nat) (name : Text) (named : IsName name)
    (inside : addr < program.words.length) :
    program.Shows addr name ↔ program.labelAt? addr = some name := by
  have fits := length_words_le source program assembled
  constructor
  · intro given
    obtain ⟨line, listed, word, rest, rfl⟩ := given
    obtain ⟨place, present⟩ := List.getElem?_of_mem listed
    rw [listing_at source program assembled] at present
    obtain ⟨byte, stored, same⟩ := Option.map_eq_some_iff.mp present
    have below := (List.getElem?_eq_some_iff.mp stored).1
    obtain ⟨rfl, columns⟩ := listingMargin_inj _ _ _ _ _ _ (by omega) (by omega) same
    refine labelColumn_shows _ name _ rest named ?_ columns
    intro shown chosen
    exact (label_named source program assembled shown place
      (program.mem_of_labelAt place shown chosen)).1
  · intro chosen
    obtain ⟨gap, column, _⟩ := labelColumn_name name
    have present := listing_at source program assembled addr
    rw [List.getElem?_eq_getElem inside, Option.map_some, chosen, column, List.append_assoc,
      List.cons_append] at present
    exact ⟨_, List.mem_of_getElem? present, _, _, rfl⟩

theorem shows_at_line (before : List CodeLine) (line : CodeLine) (after : List CodeLine)
    (lines : (readLines source).map Line.contents = before ++ line :: after) (name : Text)
    (label : line.label? = some name)
    (inside : (statementsOf before).length < program.words.length) :
    program.Shows (statementsOf before).length name ↔
      ¬ (line.statement? = none ∧ ∃ other, Defines after other 0) := by
  have defined : Defines ((readLines source).map Line.contents) name (statementsOf before).length :=
    ⟨before, line, after, lines, label, rfl⟩
  have known := (mem_labels_iff source program assembled name _).mpr defined
  have named := (label_named source program assembled name _ known).1
  have labels := ((assemble_ok_iff source program).mp assembled).2.2.1
  obtain ⟨front, rest, split, rfl, behind⟩ := List.map_eq_append_iff.mp lines
  obtain ⟨read, back, rfl, rfl, rfl⟩ := List.map_eq_cons_iff.mp behind
  rw [layoutOf, split, labels_around front read back name label] at labels
  rw [shows_iff source program assembled _ name named inside,
    program.labelAt_iff_last (labels_distinct source program assembled) _ _ name _ labels]
  simp only [Layout.mem_labelsFrom_iff]
  -- another label at the same address is one that follows without a statement before it
  constructor
  · intro last given
    obtain ⟨silent, other, follows⟩ := given
    exact last other ⟨0, follows, by simp [silent]⟩
  · intro lone other given
    obtain ⟨offset, follows, place⟩ := given
    have nothing : read.contents.statement?.toList.length = 0 ∧ offset = 0 := by omega
    obtain ⟨silent, rfl⟩ := nothing
    exact lone ⟨by simpa using silent, other, follows⟩

end Assembled

end Assembly

/-- A label of an instruction is shown in the listing, with its address, unless it is overshadowed
by another label that stands between it and the instruction; and of the labels of an instruction one
is always shown. -/
theorem lost_iff_overshadowed (source : Text) (program : Program) (lines : List CodeLine)
    (assembled : assemble source = .ok program) (reads : Reads source lines) (name : Text)
    (addr : Nat) (known : (name, addr) ∈ program.labels) (inside : addr < program.words.length) :
    (¬ program.Shows addr name ↔ Overshadowed lines name) ∧
      ∃ last, (last, addr) ∈ program.labels ∧ program.Shows addr last := by
  cases (reads_source_iff source lines).mp reads
  obtain ⟨before, line, after, split, label, rfl⟩ :=
    (mem_labels_iff source program assembled name addr).mp known
  refine ⟨?_, ?_⟩
  · constructor
    · intro hidden
      rw [shows_at_line source program assembled before line after split name label inside,
        not_not] at hidden
      obtain ⟨silent, other, follows⟩ := hidden
      exact ⟨before, line, after, other, split, label, silent, follows⟩
    · intro overshadowed
      obtain ⟨before', line', after', other, split', label', silent, follows⟩ := overshadowed
      have again := (mem_labels_iff source program assembled name _).mpr
        ⟨before', line', after', split', label', rfl⟩
      have same := label_single source program assembled name _ _ known again
      rw [same] at inside ⊢
      rw [shows_at_line source program assembled before' line' after' split' name label' inside,
        not_not]
      exact ⟨silent, other, follows⟩
  · obtain ⟨last, shown⟩ := program.labelAt_of_mem _ name known
    have listed := program.mem_of_labelAt _ last shown
    have named := (label_named source program assembled last _ listed).1
    exact ⟨last, listed, (shows_iff source program assembled _ last named inside).mpr shown⟩

def labelledTwice : Text := "a:\nb: out 1".toList

/-- The first of them does not even occur in the listing. -/
theorem overshadowed_label_lost :
    ¬ ∀ source program name addr, assemble source = .ok program → (name, addr) ∈ program.labels →
      addr < program.words.length → ∃ line ∈ program.listing, name ++ [':'] <:+: line := by
  intro shown
  have assembled : assemble labelledTwice =
      .ok ⟨[⟨0, ⟨.outIm, 1⟩, 2, "b: out 1".toList, "out 1".toList⟩], [(['A'], 0), (['B'], 0)]⟩ := by
    decide +kernel
  have found := shown labelledTwice _ ['A'] 0 assembled (by decide) (by decide)
  revert found
  decide +kernel

def renamed : Text := "top:\n; here\nstart: in a\nend: jmp top".toList

def renamedLines : List CodeLine :=
  [⟨some "TOP".toList, none⟩, ⟨none, none⟩,
    ⟨some "START".toList, some ["in".toList, "a".toList]⟩,
    ⟨some "END".toList, some ["jmp".toList, "top".toList]⟩]

theorem lost_iff_overshadowed_renamed :
    ∃ program, assemble renamed = .ok program ∧ Reads renamed renamedLines ∧
      ("TOP".toList, 0) ∈ program.labels ∧ 0 < program.words.length ∧
      Overshadowed renamedLines "TOP".toList ∧ ¬ program.Shows 0 "TOP".toList ∧
      ∃ last, (last, 0) ∈ program.labels ∧ program.Shows 0 last := by
  have reads : Reads renamed renamedLines := (reads_source_iff _ _).mpr (by decide +kernel)
  have assembled : assemble renamed =
      .ok ⟨[⟨0, ⟨.inA, 0⟩, 3, "start: in a".toList, "in a".toList⟩,
          ⟨1, ⟨.jmp, 0⟩, 4, "end: jmp top".toList, "jmp top".toList⟩],
        [("TOP".toList, 0), ("START".toList, 0), ("END".toList, 1)]⟩ := by
    decide +kernel
  have overshadowed : Overshadowed renamedLines "TOP".toList :=
    ⟨[], _, _, "START".toList, rfl, rfl, rfl, [_], _, _, rfl, rfl, rfl⟩
  obtain ⟨lost, kept⟩ := lost_iff_overshadowed renamed _ renamedLines assembled reads
    "TOP".toList 0 (by decide) (by decide)
  exact ⟨_, assembled, reads, by decide, by decide, overshadowed, lost.mpr overshadowed, kept⟩

end FourBit
