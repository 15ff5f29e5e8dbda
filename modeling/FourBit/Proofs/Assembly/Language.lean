import FourBit.Proofs.Assembly.Forms
import FourBit.Proofs.Assembly.Layout
import FourBit.Assembly.Program

namespace FourBit

theorem mapM_ok_iff {α β ε : Type} (f : α → Except ε β) (l : List α) (out : List β) :
    l.mapM f = .ok out ↔
      out.length = l.length ∧
        ∀ (place : Nat) (a : α), l[place]? = some a → ∃ b, out[place]? = some b ∧ f a = .ok b := by
  induction l generalizing out with
  | nil => simp [pure, Except.pure, eq_comm]
  | cons a l ih =>
      simp only [List.mapM_cons, bind_ok_iff, ih]
      constructor
      · intro given
        rcases given with ⟨b, first, rest, ⟨size, others⟩, same⟩
        cases same
        refine ⟨congrArg (· + 1) size, ?_⟩
        intro place a' found
        cases place with
        | zero =>
            cases found
            exact ⟨b, rfl, first⟩
        | succ place => exact others place a' found
      · intro both
        rcases both with ⟨size, entries⟩
        rcases entries 0 a rfl with ⟨b, found, first⟩
        cases out with
        | nil => cases found
        | cons b' rest =>
            cases found
            exact ⟨b, first, rest, ⟨Nat.succ.inj size, fun place => entries (place + 1)⟩, rfl⟩

theorem mapM_ok_exists {α β ε : Type} (f : α → Except ε β) (l : List α)
    (each : ∀ a ∈ l, ∃ b, f a = .ok b) : ∃ out, l.mapM f = .ok out := by
  induction l with
  | nil => exact ⟨[], rfl⟩
  | cons a l ih =>
      rcases List.forall_mem_cons.mp each with ⟨⟨b, first⟩, others⟩
      rcases ih others with ⟨rest, tail⟩
      refine ⟨b :: rest, ?_⟩
      simp only [List.mapM_cons, first, tail, bind, Except.bind, pure, Except.pure]

namespace Assembly

open Reference

def layoutOf (source : Text) : Layout := Layout.empty.extend (readLines source)

theorem assemble_ok_iff (source : Text) (program : Program) :
    assemble source = .ok program ↔
      (layoutOf source).Sound ∧ (layoutOf source).statements ≠ [] ∧
      program.labels = (layoutOf source).labels ∧
      (layoutOf source).statements.mapM (Statement.assemble program.labels) =
        .ok program.instructions := by
  simp only [assemble, bind_ok_iff, Layout.ofLines_ok_iff]
  constructor
  · intro given
    rcases given with ⟨layout, ⟨sound, rfl⟩, assembled⟩
    split at assembled
    · cases assembled
    · rename_i present
      rcases (bind_ok_iff _ _ _).mp assembled with ⟨instructions, entries, same⟩
      cases same
      have some : (layoutOf source).statements ≠ [] := fun none =>
        present (List.isEmpty_iff.mpr none)
      exact ⟨sound, some, rfl, entries⟩
  · intro given
    rcases given with ⟨sound, present, labels, entries⟩
    rcases program with ⟨instructions, known⟩
    cases labels
    refine ⟨layoutOf source, ⟨sound, rfl⟩, ?_⟩
    rw [if_neg fun none => present (List.isEmpty_iff.mp none), bind_ok_iff]
    exact ⟨instructions, entries, rfl⟩

theorem assemble_statement_iff (source : Text) (sound : (layoutOf source).Sound)
    (statement : Statement) (entry : SourceInstruction) :
    statement.assemble (layoutOf source).labels = .ok entry ↔
      ∃ form, Spells ((readLines source).map Line.contents) (tokens statement.body) form ∧
        entry = ⟨statement.addr, instructionOf statement.addr form, statement.line,
          statement.source, statement.body⟩ := by
  have known (name : Text) (addr : Nat) :=
    Layout.lookup_iff_defines (readLines source) name addr sound
  have encodes := instruction_ok_iff (layoutOf source).labels _ known statement
  unfold Statement.assemble
  cases encoded : statement.instruction (layoutOf source).labels with
  | error complaint =>
      simp only [reduceCtorEq, false_iff]
      intro given
      rcases given with ⟨form, spells, _⟩
      cases encoded.symm.trans ((encodes _).mpr ⟨form, spells, rfl⟩)
  | ok i =>
      constructor
      · intro same
        cases same
        rcases (encodes i).mp encoded with ⟨form, spells, rfl⟩
        exact ⟨form, spells, rfl⟩
      · intro given
        rcases given with ⟨form, spells, rfl⟩
        cases encoded.symm.trans ((encodes _).mpr ⟨form, spells, rfl⟩)
        rfl

theorem statement_at (source : Text) (addr : Nat) (words : List Text) :
    (statementsOf ((readLines source).map Line.contents))[addr]? = some words ↔
      ∃ statement, (layoutOf source).statements[addr]? = some statement ∧
        statement.addr = addr ∧ tokens statement.body = words := by
  have laid : (layoutOf source).statements = Layout.statementsFrom 0 (readLines source) := rfl
  rw [laid, ← Layout.statements_contents 0 (readLines source), List.getElem?_map,
    Option.map_eq_some_iff]
  constructor
  · intro given
    rcases given with ⟨statement, found, same⟩
    have place := Layout.statementsFrom_addr 0 (readLines source) addr statement found
    exact ⟨statement, found, place.trans (Nat.zero_add addr), same⟩
  · intro given
    rcases given with ⟨statement, found, _, same⟩
    exact ⟨statement, found, same⟩

theorem length_statements (source : Text) :
    (layoutOf source).statements.length =
      (statementsOf ((readLines source).map Line.contents)).length :=
  Layout.length_statementsFrom 0 (readLines source)

theorem word_at (source : Text) (program : Program) (assembled : assemble source = .ok program)
    (addr : Nat) (words : List Text) (form : Form)
    (found : (statementsOf ((readLines source).map Line.contents))[addr]? = some words)
    (spells : Spells ((readLines source).map Line.contents) words form) :
    (program.words.map Fin.val)[addr]? = some (form.word addr) := by
  rcases (assemble_ok_iff source program).mp assembled with ⟨sound, _, labels, entries⟩
  rcases (mapM_ok_iff _ _ _).mp entries with ⟨_, each⟩
  rcases (statement_at source addr words).mp found with ⟨statement, laid, place, rfl⟩
  rcases each addr statement laid with ⟨entry, kept, answered⟩
  rw [labels] at answered
  cases answered.symm.trans
    ((assemble_statement_iff source sound statement _).mpr ⟨form, spells, rfl⟩)
  have inside : addr < 16 := by
    have bound := (List.getElem?_eq_some_iff.mp found).1
    have fits := ((Layout.sound_iff _).mp sound).2
    omega
  have word := byte_instructionOf addr form inside
  simp only [Program.words, List.map_map, List.getElem?_map, kept, Option.map_some,
    Function.comp_apply, place, word]

theorem length_words (source : Text) (program : Program)
    (assembled : assemble source = .ok program) :
    (program.words.map Fin.val).length =
      (statementsOf ((readLines source).map Line.contents)).length := by
  rcases (assemble_ok_iff source program).mp assembled with ⟨_, _, _, entries⟩
  rcases (mapM_ok_iff _ _ _).mp entries with ⟨size, _⟩
  rw [← length_statements, ← size, Program.words, List.length_map, List.length_map]

theorem denotes_of_assemble (source : Text) (program : Program)
    (assembled : assemble source = .ok program) :
    Denotes ((readLines source).map Line.contents) (program.words.map Fin.val) := by
  rcases (assemble_ok_iff source program).mp assembled with ⟨sound, present, labels, entries⟩
  rcases (mapM_ok_iff _ _ _).mp entries with ⟨_, each⟩
  rcases (Layout.sound_iff _).mp sound with ⟨distinct, fits⟩
  have enough := List.length_pos_iff.mpr present
  rw [length_statements] at enough
  refine ⟨distinct, enough, fits, length_words source program assembled, ?_⟩
  intro addr words found
  rcases (statement_at source addr words).mp found with ⟨statement, laid, _, rfl⟩
  rcases each addr statement laid with ⟨entry, _, answered⟩
  rw [labels] at answered
  rcases (assemble_statement_iff source sound statement entry).mp answered with ⟨form, spells, _⟩
  exact ⟨form, spells, word_at source program assembled addr _ form found spells⟩

theorem assemble_of_denotes (source : Text) (words : List Nat)
    (denotes : Denotes ((readLines source).map Line.contents) words) :
    ∃ program, assemble source = .ok program := by
  have sound : (layoutOf source).Sound :=
    (Layout.sound_iff _).mpr ⟨denotes.distinct, denotes.fits⟩
  have each : ∀ statement ∈ (layoutOf source).statements,
      ∃ entry, statement.assemble (layoutOf source).labels = .ok entry := by
    intro statement listed
    rcases List.getElem?_of_mem listed with ⟨addr, found⟩
    have place := (Layout.statementsFrom_addr 0 (readLines source) addr statement found).trans
      (Nat.zero_add addr)
    have stated := (statement_at source addr _).mpr ⟨statement, found, place, rfl⟩
    rcases denotes.table addr _ stated with ⟨form, spells, _⟩
    exact ⟨_, (assemble_statement_iff source sound statement _).mpr ⟨form, spells, rfl⟩⟩
  rcases mapM_ok_exists _ _ each with ⟨instructions, entries⟩
  have present : (layoutOf source).statements ≠ [] := by
    rw [← List.length_pos_iff, length_statements]
    exact denotes.present
  exact ⟨⟨instructions, _⟩, (assemble_ok_iff source _).mpr ⟨sound, present, rfl, entries⟩⟩

theorem words_of_denotes (source : Text) (program : Program)
    (assembled : assemble source = .ok program) (words : List Nat)
    (denotes : Denotes ((readLines source).map Line.contents) words) :
    program.words.map Fin.val = words := by
  have size := (length_words source program assembled).trans denotes.size.symm
  apply List.ext_getElem?
  intro addr
  cases found : (statementsOf ((readLines source).map Line.contents))[addr]? with
  | none =>
      have beyond := List.getElem?_eq_none_iff.mp found
      have past := denotes.size ▸ beyond
      rw [List.getElem?_eq_none past, List.getElem?_eq_none (size ▸ past)]
  | some statement =>
      rcases denotes.table addr statement found with ⟨form, spells, kept⟩
      rw [kept, word_at source program assembled addr statement form found spells]

/-- A source is assembled to some words if it reads as lines of the language that stand for those
words. -/
theorem assemble_iff_denotes (source : Text) (words : List Nat) :
    (∃ program, assemble source = .ok program ∧ program.words.map Fin.val = words) ↔
      ∃ lines, Reads source lines ∧ Denotes lines words := by
  constructor
  · intro given
    rcases given with ⟨program, assembled, rfl⟩
    have reads := (reads_source_iff source _).mpr rfl
    exact ⟨_, reads, denotes_of_assemble source program assembled⟩
  · intro given
    rcases given with ⟨lines, reads, denotes⟩
    cases (reads_source_iff source lines).mp reads
    rcases assemble_of_denotes source words denotes with ⟨program, assembled⟩
    exact ⟨program, assembled, words_of_denotes source program assembled words denotes⟩

end Assembly

end FourBit
