import FourBit.Proofs.Assembly.Refusal
import FourBit.Proofs.Rom.Padding
import FourBit.Proofs.Run.Stumbling

namespace FourBit

namespace Reference

/-- Lines that can be laid out, and whose first statement that spells no form has no words. -/
def Wordless (lines : List CodeLine) : Prop :=
  (labelsOf lines).Nodup ∧ (statementsOf lines).length ≤ 16 ∧
    ∃ before after, statementsOf lines = before ++ [] :: after ∧
      ∀ words ∈ before, ∃ form, Spells lines words form

def BreaksOff (source : Text) : Prop := ∃ lines, Reads source lines ∧ Wordless lines

end Reference

open Reference

namespace Assembly

def Answered (source : Text) : Prop :=
  (∃ program, assemble source = .ok program) ∨
    ∃ rejection fault, assemble source = .error rejection ∧ rejection.failure = .fault fault ∧
      .parse ∈ fault.kind.lineage

theorem breaksOff_iff (source : Text) :
    BreaksOff source ↔ Wordless ((readLines source).map Line.contents) := by
  constructor
  · intro given
    rcases given with ⟨lines, reads, wordless⟩
    rw [(reads_source_iff source lines).mp reads]
    exact wordless
  · intro wordless
    exact ⟨_, (reads_source_iff source _).mpr rfl, wordless⟩

theorem breaksOff_of_unreported (source : Text) (rejection : Rejection)
    (refused : assemble source = .error rejection)
    (unreported : rejection.complaint.kind? = none) : BreaksOff source := by
  rw [breaksOff_iff]
  rcases (assemble_error_iff source rejection).mp refused with
    unlaid | ⟨_, _, rfl⟩ | ⟨sound, before, statement, after, split, earlier, bad⟩
  · exact (Layout.foldlM_reported _ _ rejection unlaid unreported).elim
  · cases unreported
  · rcases (assemble_statement_error_iff _ statement rejection).mp bad with ⟨complaint, stuck, rfl⟩
    have silent := (instruction_unreported_iff _ statement complaint stuck).mp unreported
    rcases (Layout.sound_iff _).mp sound with ⟨distinct, fits⟩
    refine ⟨distinct, fits, before.map fun statement => tokens statement.body,
      after.map fun statement => tokens statement.body, ?_, ?_⟩
    · rw [← statements_tokens, split, List.map_append, List.map_cons, silent]
    · intro words listed
      rcases List.mem_map.mp listed with ⟨other, among, rfl⟩
      exact (assembles_iff_spells source sound other).mp (earlier other among)

theorem unreported_of_breaksOff (source : Text) (breaks : BreaksOff source) :
    ∃ rejection, assemble source = .error rejection ∧ rejection.complaint.kind? = none := by
  rcases breaks with ⟨lines, reads, distinct, fits, before, after, split, earlier⟩
  have stuck (labels : List (Text × Nat)) (statement : Statement)
      (wordless : tokens statement.body = []) :
      statement.instruction labels = .error .separatorsOnly := by
    simp only [Statement.instruction, wordless]
  rcases refused_at_first source lines before after [] .separatorsOnly reads distinct fits split
    earlier stuck with ⟨number, raw, _, _, refused⟩
  exact ⟨_, refused, rfl⟩

theorem assemble_cases (source : Text) :
    (∃ program, assemble source = .ok program ∧ ¬ BreaksOff source) ∨
    (∃ rejection fault, assemble source = .error rejection ∧ rejection.failure = .fault fault ∧
      .parse ∈ fault.kind.lineage ∧ ¬ BreaksOff source) ∨
    ∃ rejection, assemble source = .error rejection ∧
      rejection.failure = .breach .emptyStatement ∧ BreaksOff source := by
  cases outcome : assemble source with
  | ok program =>
      refine .inl ⟨program, rfl, ?_⟩
      intro breaks
      rcases unreported_of_breaksOff source breaks with ⟨rejection, refused, _⟩
      cases outcome.symm.trans refused
  | error rejection =>
      cases reported : rejection.complaint.kind? with
      | none =>
          exact .inr (.inr ⟨rejection, rfl, rejection.failure_of_unreported reported,
            breaksOff_of_unreported source rejection outcome reported⟩)
      | some kind =>
          refine .inr (.inl ⟨rejection, _, rfl, rejection.failure_of_kind kind reported,
            rejection.complaint.parse_lineage kind reported, ?_⟩)
          intro breaks
          rcases unreported_of_breaksOff source breaks with ⟨other, refused, unreported⟩
          cases outcome.symm.trans refused
          cases unreported.symm.trans reported

theorem not_breaksOff (source : Text)
    (worded : ∀ lines, Reads source lines → [] ∉ statementsOf lines) : ¬ BreaksOff source := by
  intro breaks
  obtain ⟨lines, reads, _, _, before, after, split, _⟩ := breaks
  apply worded lines reads
  rw [split]
  exact List.mem_append_right before List.mem_cons_self

theorem answered_iff (source : Text) : Answered source ↔ ¬ BreaksOff source := by
  rcases assemble_cases source with
    ⟨program, assembled, sound⟩ | ⟨rejection, fault, refused, reported, parse, sound⟩ |
      ⟨rejection, refused, unreported, breaks⟩
  · exact iff_of_true (.inl ⟨program, assembled⟩) sound
  · exact iff_of_true (.inr ⟨rejection, fault, refused, reported, parse⟩) sound
  · refine iff_of_false ?_ (not_not_intro breaks)
    intro answered
    rcases answered with ⟨program, assembled⟩ | ⟨rejection', fault, refused', reported, _⟩
    · cases refused.symm.trans assembled
    · cases refused.symm.trans refused'
      cases unreported.symm.trans reported

end Assembly

open Assembly

theorem Program.rom_assembled (source : Text) (program : Program)
    (assembled : assemble source = .ok program) : ∃ rom, program.rom = .ok rom := by
  rcases program.rom_ok (length_words_le source program assembled) with ⟨rom, made, _⟩
  exact ⟨rom, made⟩

/-- On samples that can be shown, running a source gives a result unless the source breaks the
assembler off. -/
theorem runProgram_cases (source : Text) (options : RunOptions)
    (shown : ∀ sample ∈ options.inputs, sample.isShown = true) :
    (∃ result, runProgram source none none options = .ok result ∧ ¬ BreaksOff source) ∨
    (runProgram source none none options = .error (.breach .emptyStatement) ∧
      BreaksOff source) := by
  rcases assemble_cases source with
    ⟨program, assembled, sound⟩ | ⟨rejection, fault, refused, reported, _, sound⟩ |
      ⟨rejection, refused, unreported, breaks⟩
  · rcases Program.rom_assembled source program assembled with ⟨rom, made⟩
    rcases run_unattended rom options (some program) shown with ⟨result, ran⟩
    exact .inl ⟨result, by simp only [runProgram, assembled, made, ran], sound⟩
  · exact .inl ⟨.rejected fault, by simp only [runProgram, refused, reported], sound⟩
  · exact .inr ⟨by simp only [runProgram, refused, unreported], breaks⟩

end FourBit
