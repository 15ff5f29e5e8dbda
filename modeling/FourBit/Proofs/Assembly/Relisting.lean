import Mathlib.Data.List.Nodup
import FourBit.Proofs.Assembly.Disassembly

namespace FourBit

open Assembly Reference

def labelColumn (label? : Option Text) : Text :=
  Text.alignLeft 10 (match label? with
    | some name => name ++ [':']
    | none => []) ++ [' ']

theorem labelColumn_name (name : Text) :
    ∃ gap, labelColumn (some name) = name ++ ':' :: gap ∧ ∀ c ∈ gap, c = ' ' := by
  refine ⟨List.replicate (10 - (name ++ [':']).length) ' ' ++ [' '], ?_, ?_⟩
  · simp only [labelColumn, Text.alignLeft, List.rightpad, List.append_assoc, List.cons_append,
      List.nil_append]
  · intro c inside
    rcases List.mem_append.mp inside with filling | last
    · exact List.eq_of_mem_replicate filling
    · exact List.mem_singleton.mp last

theorem reads_column (label? : Option Text) (i : Instruction)
    (named : ∀ name ∈ label?, IsName name ∧ name.upper = name) :
    CodeLine.Reads (labelColumn label? ++ i.text) ⟨label?, some (tokens i.text)⟩ := by
  cases label? with
  | none =>
      have spaces : ∀ c ∈ labelColumn none, c = ' ' := by
        intro c inside
        exact List.eq_of_mem_replicate (show c ∈ List.replicate 11 ' ' from inside)
      rw [← tokens_indent _ i.text spaces]
      exact (i.bare_text.indent _ spaces).reads
  | some name =>
      obtain ⟨written, same⟩ := named name rfl
      obtain ⟨gap, column, spaces⟩ := labelColumn_name name
      have reads := (i.bare_text.indent gap spaces).reads_label name written
      rw [same, tokens_indent gap i.text spaces] at reads
      rw [column, List.append_assoc, List.cons_append]
      exact reads

theorem single_column (label? : Option Text) (i : Instruction)
    (named : ∀ name ∈ label?, IsName name) : '\n' ∉ labelColumn label? ++ i.text := by
  intro feed
  rcases List.mem_append.mp feed with inside | text
  · cases label? with
    | none => exact absurd inside (by decide)
    | some name =>
        obtain ⟨gap, column, spaces⟩ := labelColumn_name name
        rw [column] at inside
        rcases List.mem_append.mp inside with letter | behind
        · exact ((named name rfl).clear _ letter).2.2 rfl
        · rcases List.mem_cons.mp behind with colon | blank
          · cases colon
          · cases spaces _ blank
  · exact i.bare_text.single text

namespace Program

variable (program : Program)

theorem mem_of_labelAt (addr : Nat) (name : Text) (shown : program.labelAt? addr = some name) :
    (name, addr) ∈ program.labels := by
  obtain ⟨entry, found, rfl⟩ := Option.map_eq_some_iff.mp shown
  have place : entry.2 = addr := by simpa using List.find?_some found
  have listed := List.mem_reverse.mp (List.mem_of_find?_eq_some found)
  rw [← place]
  exact listed

theorem labelAt_of_mem (addr : Nat) (name : Text) (listed : (name, addr) ∈ program.labels) :
    ∃ last, program.labelAt? addr = some last := by
  cases shown : program.labelAt? addr with
  | some last => exact ⟨last, rfl⟩
  | none =>
      have missing := List.find?_eq_none.mp (Option.map_eq_none_iff.mp shown)
      exact (missing _ (List.mem_reverse.mpr listed) (beq_self_eq_true addr)).elim

theorem labelAt_eq (addr : Nat) (label? : Option Text)
    (only : ∀ name, (name, addr) ∈ program.labels ↔ label? = some name) :
    program.labelAt? addr = label? := by
  cases shown : program.labelAt? addr with
  | some name =>
      have listed := program.mem_of_labelAt addr name shown
      exact ((only name).mp listed).symm
  | none =>
      cases label? with
      | none => rfl
      | some name =>
          obtain ⟨last, found⟩ := program.labelAt_of_mem addr name ((only name).mpr rfl)
          cases shown.symm.trans found

def entries : List Entry :=
  program.instructions.map fun entry => (program.labelAt? entry.addr, entry.instruction)

theorem listingLine_eq (entry : SourceInstruction) :
    program.listingLine entry = listingMargin entry.addr entry.instruction.byte ++
      (labelColumn (program.labelAt? entry.addr) ++ entry.instruction.text) := by
  have regroup (margin label gap text : Text) :
      margin ++ label ++ gap ++ text = margin ++ (label ++ gap ++ text) := by
    simp only [List.append_assoc]
  exact regroup _ _ _ _

end Program

namespace Assembly

section Assembled

variable (source : Text) (program : Program) (assembled : assemble source = .ok program)

include assembled

theorem label_named (name : Text) (addr : Nat) (known : (name, addr) ∈ program.labels) :
    IsName name ∧ name.upper = name := by
  obtain ⟨before, line, after, split, label, _⟩ :=
    (mem_labels_iff source program assembled name addr).mp known
  have listed : line ∈ (readLines source).map Line.contents := by simp [split]
  obtain ⟨read, among, rfl⟩ := List.mem_map.mp listed
  obtain ⟨⟨raw, index⟩, _, rfl⟩ := List.mem_map.mp among
  obtain ⟨written, named, rfl⟩ := Line.read_label _ raw name label
  exact ⟨named.upper, named.upper_upper⟩

theorem labels_distinct : (program.labels.map Prod.fst).Nodup := by
  obtain ⟨sound, _, labels, _⟩ := (assemble_ok_iff source program).mp assembled
  rw [labels]
  exact sound.distinct

theorem label_single (name : Text) (addr other : Nat) (here : (name, addr) ∈ program.labels)
    (there : (name, other) ∈ program.labels) : addr = other := by
  have distinct := labels_distinct source program assembled
  have first := (Layout.lookup_iff_mem _ name addr distinct).mpr here
  have second := (Layout.lookup_iff_mem _ name other distinct).mpr there
  exact Option.some.inj (first.symm.trans second)

theorem entry_placed (addr : Nat) (entry : SourceInstruction)
    (present : program.instructions[addr]? = some entry) :
    entry.addr = addr ∧ addr < 16 ∧ entry.instruction.canonical = entry.instruction := by
  obtain ⟨statement, form, _, _, rfl⟩ := entry_at source program assembled addr entry present
  have bound := (List.getElem?_eq_some_iff.mp present).1
  have fits := length_words_le source program assembled
  rw [Program.words, List.length_map] at fits
  exact ⟨rfl, Nat.lt_of_lt_of_le bound fits, Instruction.canonical_instructionOf addr form⟩

theorem addresses : program.instructions.map SourceInstruction.addr =
    List.range program.instructions.length := by
  apply List.ext_getElem?
  intro addr
  rw [List.getElem?_map]
  cases present : program.instructions[addr]? with
  | none =>
      have beyond := List.getElem?_eq_none_iff.mp present
      rw [List.getElem?_eq_none (by simpa using beyond), Option.map_none]
  | some entry =>
      have bound := (List.getElem?_eq_some_iff.mp present).1
      rw [List.getElem?_range bound, Option.map_some,
        (entry_placed source program assembled addr entry present).1]

theorem entries_at (addr : Nat) :
    program.entries[addr]? = program.instructions[addr]?.map fun entry =>
      (program.labelAt? addr, entry.instruction) := by
  rw [Program.entries, List.getElem?_map]
  cases present : program.instructions[addr]? with
  | none => rfl
  | some entry =>
      simp only [Option.map_some, (entry_placed source program assembled addr entry present).1]

theorem listing_at (addr : Nat) :
    program.listing[addr]? = program.words[addr]?.map fun word : Fin 256 =>
      listingMargin addr word ++
        (labelColumn (program.labelAt? addr) ++ Instruction.disassemble (word : Nat)) := by
  rw [Program.listing, Program.words, List.getElem?_map, List.getElem?_map]
  cases present : program.instructions[addr]? with
  | none => rfl
  | some entry =>
      have place := (entry_placed source program assembled addr entry present).1
      simp only [Option.map_some, program.listingLine_eq, place, Instruction.disassemble_byte]

theorem entries_distinct : (program.entries.filterMap Prod.fst).Nodup := by
  have shown : program.entries.filterMap Prod.fst =
      (List.range program.instructions.length).filterMap program.labelAt? := by
    calc
      program.entries.filterMap Prod.fst =
          program.instructions.filterMap (program.labelAt? ∘ SourceInstruction.addr) :=
        List.filterMap_map
      _ = (program.instructions.map SourceInstruction.addr).filterMap program.labelAt? :=
        List.filterMap_map.symm
      _ = (List.range program.instructions.length).filterMap program.labelAt? := by
        rw [addresses source program assembled]
  rw [shown]
  refine List.Nodup.filterMap ?_ List.nodup_range
  -- a name that is shown at two addresses would be known by both of them
  intro addr other name here there
  exact label_single source program assembled name addr other
    (program.mem_of_labelAt addr name here) (program.mem_of_labelAt other name there)

theorem sourceOf_program_listing : sourceOf program.listing =
    Text.unlines (program.entries.map fun entry => labelColumn entry.1 ++ entry.2.text) := by
  apply congrArg Text.unlines
  rw [Program.listing, Program.entries, List.map_map, List.map_map]
  apply List.map_congr_left
  intro entry listed
  obtain ⟨addr, present⟩ := List.getElem?_of_mem listed
  obtain ⟨place, inside, _⟩ := entry_placed source program assembled addr entry present
  rw [← place] at inside
  rw [Function.comp_apply, program.listingLine_eq, drop_listingMargin _ _ _ inside]
  rfl

theorem entries_present : program.entries ≠ [] := by
  have present := (denotes_of_assemble source program assembled).present
  rw [← length_words source program assembled, List.length_map, Program.words,
    List.length_map] at present
  apply List.ne_nil_of_length_pos
  rw [Program.entries, List.length_map]
  exact present

theorem reads_entries : Reads (sourceOf program.listing) (writing program.entries) := by
  have named : ∀ entry ∈ program.entries, ∀ name ∈ entry.1, IsName name ∧ name.upper = name := by
    intro entry listed name shown
    obtain ⟨origin, _, rfl⟩ := List.mem_map.mp listed
    exact label_named source program assembled name _ (program.mem_of_labelAt _ name shown)
  refine ⟨_, ?_, ?_, sourceOf_program_listing source program assembled, ?_⟩
  · intro none
    exact entries_present source program assembled (List.map_eq_nil_iff.mp none)
  · intro raw listed
    obtain ⟨entry, among, rfl⟩ := List.mem_map.mp listed
    exact single_column entry.1 entry.2 fun name shown => (named entry among name shown).1
  · apply List.forall₂_map_left_iff.mpr
    apply List.forall₂_map_right_iff.mpr
    apply List.forall₂_same.mpr
    intro entry among
    exact reads_column entry.1 entry.2 (named entry among)

theorem canonical_words : program.entries.map (fun entry => entry.2.canonical.byte) =
    program.words := by
  rw [Program.entries, Program.words, List.map_map]
  apply List.map_congr_left
  intro entry listed
  obtain ⟨addr, present⟩ := List.getElem?_of_mem listed
  exact congrArg Instruction.byte (entry_placed source program assembled addr entry present).2.2

theorem entries_label_iff (addr : Nat) (name : Text) (inside : addr < program.words.length) :
    (∃ i, program.entries[addr]? = some (some name, i)) ↔ program.labelAt? addr = some name := by
  rw [Program.words, List.length_map] at inside
  rw [entries_at source program assembled, List.getElem?_eq_getElem inside]
  simp

end Assembled

end Assembly

/-- The source that is left of the listing of a program is assembled, to a program with the same
words and the same listing. -/
theorem assemble_program_listing (source : Text) (program : Program)
    (assembled : assemble source = .ok program) :
    ∃ again, assemble (sourceOf program.listing) = .ok again ∧ again.words = program.words ∧
      again.listing = program.listing := by
  have fits : program.entries.length ≤ 16 := by
    rw [← List.length_map, canonical_words source program assembled]
    exact length_words_le source program assembled
  obtain ⟨again, reassembled, words, labels⟩ := assemble_written _ _
    (reads_entries source program assembled) (entries_present source program assembled) fits
    (entries_distinct source program assembled)
  rw [canonical_words source program assembled] at words
  refine ⟨again, reassembled, words, List.ext_getElem? ?_⟩
  intro addr
  rw [listing_at _ again reassembled, listing_at source program assembled, words]
  cases present : program.words[addr]? with
  | none => rfl
  | some word =>
      have inside := (List.getElem?_eq_some_iff.mp present).1
      -- of several labels at an address the listing has kept one, which now stands there alone
      have shown : again.labelAt? addr = program.labelAt? addr := by
        apply again.labelAt_eq
        intro name
        rw [labels, entries_label_iff source program assembled addr name inside]
      rw [shown]

def countdown : Text :=
  Text.unlines ["top:".toList, "start: in b ; from".toList, "round_and_round: add b, 15".toList,
    "  jnc finished".toList, "  JMP round_and_round".toList, "finished: out b".toList,
    "  hlt".toList, "behind:".toList]

def countdownListing : List Text :=
  [" 0: 01100000  START:     IN B".toList,
    " 1: 01011111  ROUND_AND_ROUND: ADD B, 15".toList,
    " 2: 11100100             JNC 4".toList,
    " 3: 11110001             JMP 1".toList,
    " 4: 10010000  FINISHED:  OUT B".toList,
    " 5: 11110101             JMP 5".toList]

theorem assemble_program_listing_countdown :
    ∃ program again, assemble countdown = .ok program ∧ program.listing = countdownListing ∧
      assemble (sourceOf program.listing) = .ok again ∧ again.words = program.words ∧
      again.listing = program.listing := by
  have evaluated : (assemble countdown).toOption.map Program.listing = some countdownListing := by
    decide +kernel
  cases assembled : assemble countdown with
  | error rejection =>
      rw [assembled] at evaluated
      cases evaluated
  | ok program =>
      rw [assembled] at evaluated
      obtain ⟨again, reassembled, words, same⟩ :=
        assemble_program_listing countdown program assembled
      exact ⟨program, again, rfl, Option.some.inj evaluated, reassembled, words, same⟩

end FourBit
