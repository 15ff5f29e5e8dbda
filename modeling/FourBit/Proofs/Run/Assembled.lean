import FourBit.Proofs.Assembly.Entries
import FourBit.Proofs.Rom.Padding
import FourBit.Proofs.Run.Place
import FourBit.Proofs.Run.Stumbling

namespace FourBit

open Assembly Reference

/-- A fault stands at a statement: it has its address and the number and the text of its line. -/
def Fault.PointsAt (fault : Fault) (source : Text) (lines : List CodeLine) (addr : Nat)
    (words : List Text) : Prop :=
  ∃ number raw, Stands lines addr number words ∧ (Text.lines source)[number - 1]? = some raw ∧
    fault.addr = addr ∧ fault.line? = some (number : Int) ∧ fault.source? = some raw.trim

theorem Instruction.haltAt_isSelfLoop (addr : Nat) (inside : addr < 16) (carry : Int) :
    (haltAt addr).isSelfLoop addr carry = true := by
  have same : addr % 16 = addr := Nat.mod_eq_of_lt inside
  simp only [isSelfLoop, isJump, haltAt, Opcode.isJump, Fin.ofNat, same, BEq.rfl, Bool.true_or,
    Bool.and_self]

theorem input_of_opcode (addr : Nat) (form : Form)
    (input : (instructionOf addr form).opcode = .inA ∨ (instructionOf addr form).opcode = .inB) :
    ∃ register, form = .input register := by
  cases form with
  | input register => exact ⟨register, rfl⟩
  | add register n | load register n | copy register =>
      cases register <;> simp [instructionOf, addTo, loadTo, copyTo] at input
  | outputB | output n | halt | jump n | jumpNoCarry n => simp [instructionOf] at input

theorem Blame.inside {program : Program} {rom : Rom} {devices : Devices} {options : RunOptions}
    {result : RunResult} {m : Machine} {fault : Fault}
    (blame : Blame rom devices options result m fault) (obliging : devices.Obliging)
    (cells : rom.cells = (program.words ++ Rom.padding program.words.length).map .byte) :
    ∃ (addr : Nat) (entry : SourceInstruction), m.cpu.pc = addr ∧
      program.instructions[addr]? = some entry := by
  have bounds : 0 ≤ m.cpu.pc ∧ m.cpu.pc < 16 := by
    cases blame with
    | turn _ _ alive =>
        exact (Machine.inRange_of_alive _ rom devices _ m alive).pc
    | budget k _ policy last steps alive =>
        exact (Machine.inRange_of_alive _ rom devices _ m alive).pc
  obtain ⟨addr, pc⟩ := Int.eq_ofNat_of_zero_le bounds.1
  refine ⟨addr, ?_⟩
  cases present : program.instructions[addr]? with
  | some entry => exact ⟨entry, pc, rfl⟩
  | none =>
      have beyond : program.words.length ≤ addr := by
        rw [Program.words, List.length_map]
        exact List.getElem?_eq_none_iff.mp present
      have inside : addr < 16 := by omega
      have fetched := Program.fetch_beyond program rom cells addr beyond inside
      rw [← pc] at fetched
      rcases blame.kind obliging _ _ fetched with ⟨_, input | input⟩ | ⟨_, busy⟩
      · cases input
      · cases input
      · rw [pc, Instruction.haltAt_isSelfLoop addr inside] at busy
        cases busy

theorem Progress.locate_entry (p : Progress) (program : Program) (fault : Fault)
    (entry : SourceInstruction) (found : program.at? p.addr = some entry) :
    p.locate (some program) fault =
      { fault with
        step := p.steps, addr := p.addr, line? := some (entry.line : Int),
        source? := some entry.source } := by
  simp only [locate, Option.bind_some, found]

/-- The error of a run with obliging devices is about a statement of the program. -/
theorem error_points_at_statement (source : Text) (program : Program) (rom : Rom)
    (devices : Devices) (options : RunOptions) (result : RunResult) (shown : Fault)
    (assembled : assemble source = .ok program)
    (cells : rom.cells = (program.words ++ Rom.padding program.words.length).map .byte)
    (obliging : devices.Obliging)
    (ran : runWith rom devices options (some program) = .ok result)
    (error : result.error? = some shown) :
    ∃ lines addr words form,
      (shown.kind = .inputOutOfRange ∨ shown.kind = .stepLimitExceeded) ∧
      Reads source lines ∧ addr < program.words.length ∧
      shown.PointsAt source lines addr words ∧ Spells lines words form ∧
      (rom.bytes.map Fin.val)[addr]? = some (form.word addr) ∧
      (shown.kind = .inputOutOfRange → ∃ register, form = .input register) := by
  obtain ⟨p, m, fault, blame, _, place, rfl⟩ := runWith_blame rom devices options _ _ _ ran error
  obtain ⟨addr, entry, pc, present⟩ := blame.inside obliging cells
  have fetched := Program.fetch_inside program rom cells addr entry present
  rw [← pc] at fetched
  have kinds := blame.kind obliging _ _ fetched
  have found := program_at source program assembled addr
  rw [present, ← pc, ← place] at found
  rw [Progress.locate_entry p program fault entry found]
  obtain ⟨number, raw, words, form, given, line, text, stands, spells, same⟩ :=
    entry_stands source program assembled addr entry present
  have fits := length_words_le source program assembled
  have inside : addr < program.words.length := by
    rw [Program.words, List.length_map]
    exact (List.getElem?_eq_some_iff.mp present).1
  have stored : (rom.bytes.map Fin.val)[addr]? = some (form.word addr) := by
    rw [← byte_instructionOf addr form (Nat.lt_of_lt_of_le inside fits), ← same]
    simp only [Rom.bytes, List.map_map, List.getElem?_map, Option.map_some,
      Program.cell_inside program rom cells addr entry present]
    rfl
  refine ⟨_, addr, words, form, kinds.imp And.left And.left, (reads_source_iff source _).mpr rfl,
    inside, ⟨number, raw, stands, given, place.trans pc, ?_, ?_⟩, spells, stored, ?_⟩
  · rw [line]
  · rw [text]
  · intro range
    rcases kinds with ⟨_, input⟩ | ⟨limit, _⟩
    · rw [same] at input
      exact input_of_opcode addr form input
    · cases limit.symm.trans range

/-- A program that was assembled comes to a result with all devices that give and take what they are
asked, unless it stumbles at a sample that cannot be shown. If it fails, it met a sample that is no
nibble or spent its budget, and what is shown is the statement in the program, and its line, at
which it did. -/
theorem runProgram_fails_at_statement (source : Text) (program : Program)
    (supplier? : Option Supplier) (sink? : Option Sink) (options : RunOptions)
    (assembled : assemble source = .ok program)
    (gives : ∀ supplier ∈ supplier?, ∀ asked, ∃ sample, supplier asked = .ok sample)
    (hears : ∀ sink ∈ sink?, ∀ values, sink values = none) :
    ∃ rom, program.rom = .ok rom ∧
      (options.Stumbles rom (options.devices supplier? sink?) →
        runProgram source supplier? sink? options = .error (.breach .longNumber)) ∧
      (¬ options.Stumbles rom (options.devices supplier? sink?) →
        ∃ result, runProgram source supplier? sink? options = .ok result ∧
          (result.status = "ok" ∨
            ∃ fault lines addr words form, result.error? = some fault ∧
              (fault.kind = .inputOutOfRange ∨ fault.kind = .stepLimitExceeded) ∧
              Reads source lines ∧ addr < program.words.length ∧
              fault.PointsAt source lines addr words ∧ Spells lines words form ∧
              (rom.bytes.map Fin.val)[addr]? = some (form.word addr) ∧
              (fault.kind = .inputOutOfRange → ∃ register, form = .input register))) := by
  have fits := length_words_le source program assembled
  have obliging := options.devices_obliging supplier? sink? gives hears
  obtain ⟨rom, made, cells⟩ := program.rom_ok fits
  refine ⟨rom, made, ?_, ?_⟩
  · intro stumbles
    have broken : run rom supplier? sink? options (some program) = .error .longNumber :=
      runWith_of_stumbles rom _ options (some program) stumbles
    simp only [runProgram, assembled, made, broken]
  · intro sure
    obtain ⟨result, ran⟩ := runWith_ok rom _ options (some program)
      (fun failure raises => (obliging.silent failure raises).elim) sure
    have whole : run rom supplier? sink? options (some program) = .ok result := ran
    refine ⟨result, by simp only [runProgram, assembled, made, whole], ?_⟩
    cases error : result.error? with
    | none => exact .inl (by simp only [RunResult.status, error])
    | some shown =>
        obtain ⟨lines, addr, words, form, points⟩ := error_points_at_statement source program rom _
          options result shown assembled cells obliging ran error
        exact .inr ⟨shown, lines, addr, words, form, rfl, points⟩

def echo : Text := "; echo\nagain: in b ; sample\n  out b\n\n  jmp again".toList

/-- The second sample of the echo is none: its line, the second one, is shown. -/
theorem runProgram_fails_at_statement_echo :
    ∃ program result fault lines words form,
      assemble echo = .ok program ∧
      runProgram echo (some (.replay [.ok (.int 3), .ok (.int 16)])) none .standard = .ok result ∧
      result.outputs = [3] ∧ result.error? = some fault ∧ fault.kind = .inputOutOfRange ∧
      fault.PointsAt echo lines 0 words ∧ fault.line? = some 2 ∧
      fault.source? = some "again: in b ; sample".toList ∧
      Spells lines words form ∧ ∃ register, form = .input register := by
  have evaluated : ∃ program result fault, assemble echo = .ok program ∧
      runProgram echo (some (.replay [.ok (.int 3), .ok (.int 16)])) none .standard = .ok result ∧
      result.outputs = [3] ∧ result.error? = some fault ∧ fault.kind = .inputOutOfRange ∧
      fault.addr = 0 ∧ fault.line? = some 2 ∧
      fault.source? = some "again: in b ; sample".toList :=
    ⟨_, _, _, rfl, rfl, rfl, rfl, rfl, rfl, rfl, rfl⟩
  obtain ⟨program, result, fault, assembled, ran, outputs, error, kind, zero, line, text⟩ :=
    evaluated
  have gives : ∀ supplier ∈ some (Supplier.replay [.ok (.int 3), .ok (.int 16)]), ∀ asked,
      ∃ sample, supplier asked = .ok sample := by
    intro supplier given asked
    cases given
    exact Supplier.replay_ok [.int 3, .int 16] asked
  obtain ⟨rom, made, stumbled, sure⟩ := runProgram_fails_at_statement echo program _ none .standard
    assembled gives (by simp)
  obtain ⟨result', ran', outcome⟩ := sure (by
    intro stumbles
    cases (stumbled stumbles).symm.trans ran)
  cases ran.symm.trans ran'
  rcases outcome with sound |
    ⟨fault', lines, addr, words, form, error', _, _, _, points, spells, _, input⟩
  · simp [RunResult.status, error] at sound
  · cases error.symm.trans error'
    have place : (addr : Int) = 0 := by
      rcases points with ⟨_, _, _, _, same, _⟩
      exact same.symm.trans zero
    have first : addr = 0 := by omega
    subst first
    exact ⟨program, result, fault, lines, words, form, assembled, ran, outputs, error, kind, points,
      line, text, spells, input kind⟩

/-- A single input statement, and a sample that is too long to be shown: nothing points at it. -/
theorem long_sample_points_nowhere :
    runProgram "in a".toList (some (.replay [.ok .firstLong])) none .standard =
      .error (.breach .longNumber) := by
  have assembled : ∃ program rom, assemble "in a".toList = .ok program ∧ program.rom = .ok rom ∧
      ∃ cell, fetch rom 0 = .ok (cell, ⟨.inA, 0⟩) := ⟨_, _, rfl, rfl, _, rfl⟩
  obtain ⟨program, rom, assembled, made, cell, fetched⟩ := assembled
  have broken : run rom (some (.replay [.ok .firstLong])) none .standard (some program) =
      .error .longNumber := by
    apply runWith_of_stumbles
    exact ⟨0, .start, by decide, rfl, cell, ⟨.inA, 0⟩, .firstLong, fetched, .inl rfl, rfl,
      Datum.firstLong_hidden⟩
  simp only [runProgram, assembled, made, broken]

end FourBit
