import FourBit.Proofs.Assembly.Concatenation
import FourBit.Proofs.Assembly.Wordless
import FourBit.Proofs.Reference.Reports

/-! Of several mistakes in a source the assembler reports the one that the language says, for the
line where it stands. -/

namespace FourBit

open Reference

/-- A fault shows the number, counted from one, and the text of a line of a source, or none. -/
def Fault.ShowsLine (fault : Fault) (source : Text) : Option Nat → Prop
  | none => fault.line? = none ∧ fault.source? = none
  | some index => ∃ raw, (Text.lines source)[index]? = some raw ∧
      fault.line? = some ((index + 1 : Nat) : Int) ∧ fault.source? = some raw.trim

theorem Fault.ShowsLine.unique {fault : Fault} {source : Text} {place? other? : Option Nat}
    (shows : fault.ShowsLine source place?) (shows' : fault.ShowsLine source other?) :
    place? = other? := by
  cases place? with
  | none =>
      cases other? with
      | none => rfl
      | some other =>
          obtain ⟨raw, _, line, _⟩ := shows'
          cases shows.1.symm.trans line
  | some place =>
      obtain ⟨raw, _, line, _⟩ := shows
      cases other? with
      | none => cases line.symm.trans shows'.1
      | some other =>
          obtain ⟨raw', _, line', _⟩ := shows'
          have same := Option.some.inj (line.symm.trans line')
          exact congrArg some (by omega)

namespace Reference

theorem statements_split (lines : List CodeLine) (index : Nat) (line : CodeLine)
    (words : List Text) (present : lines[index]? = some line)
    (stated : line.statement? = some words) :
    statementsOf lines =
      statementsOf (lines.take index) ++ words :: statementsOf (lines.drop (index + 1)) := by
  obtain ⟨inside, same⟩ := List.getElem?_eq_some_iff.mp present
  calc
    _ = statementsOf (lines.take index ++ line :: lines.drop (index + 1)) := by
      rw [← same, ← List.drop_eq_getElem_cons inside, List.take_append_drop]
    _ = _ := by
      rw [statements_append, Assembly.Layout.statements_cons, stated]
      rfl

theorem reports_cases (lines : List CodeLine) :
    (∃ kind addr place?, Reports lines kind addr place?) ∨ (∃ words, Denotes lines words) ∨
      Wordless lines := by
  by_cases unlaid : ∃ index, Repeats lines index ∨ Overflows lines index
  · exact .inl (reports_of_unlaid lines unlaid)
  · have distinct (index : Nat) (again : Repeats lines index) : False := unlaid ⟨index, .inl again⟩
    have room (index : Nat) (full : Overflows lines index) : False := unlaid ⟨index, .inr full⟩
    have nodup := (nodup_iff lines).mpr distinct
    have fits := (fits_iff lines).mpr room
    by_cases bad : ∃ words ∈ statementsOf lines, ∀ form, ¬ Spells lines words form
    · obtain ⟨index, line, words, present, stated, earlier, stuck⟩ := exists_first_bad lines bad
      cases words with
      | nil =>
          have split := statements_split lines index line [] present stated
          exact .inr (.inr ⟨nodup, fits, _, _, split, earlier⟩)
      | cons word operands =>
          obtain ⟨kind, mistaken⟩ := mistaken_exists lines word operands
          exact .inl ⟨_, _, _, .statement index line _ kind distinct room present stated earlier
            stuck mistaken⟩
    · cases none : statementsOf lines with
      | nil => exact .inl ⟨_, _, _, .empty distinct none⟩
      | cons first rest =>
          have present : 1 ≤ (statementsOf lines).length := by simp [none]
          push Not at bad
          exact .inr (.inl (Assembly.denotes_of_spelt lines nodup present fits bad))

end Reference

namespace Assembly

/-- A source is refused with an error of some kind, with an address, for a line of the source or for
the whole. -/
def Reported (source : Text) (kind : FaultKind) (addr : Nat) (place? : Option Nat) : Prop :=
  ∃ rejection fault, assemble source = .error rejection ∧ rejection.failure = .fault fault ∧
    fault.kind = kind ∧ fault.addr = addr ∧ fault.ShowsLine source place?

theorem reported_at_line (source raw : Text) (index addr : Nat) (complaint : Complaint)
    (kind : FaultKind) (given : (Text.lines source)[index]? = some raw)
    (reported : complaint.kind? = some kind)
    (refused : assemble source = .error ⟨complaint, addr, some (index + 1, raw.trim)⟩) :
    Reported source kind addr (some index) :=
  ⟨_, _, refused, Rejection.failure_of_kind _ kind reported, rfl, rfl, raw, given, rfl, rfl⟩

structure LineAt (source : Text) (lines : List CodeLine) (index : Nat) (before : List Line)
    (line : Line) (after : List Line) (raw : Text) : Prop where
  split : readLines source = before ++ line :: after
  earlier : before.map Line.contents = lines.take index
  given : (Text.lines source)[index]? = some raw
  place : (line.number, line.source) = (index + 1, raw.trim)

namespace Layout

theorem add_repeated (layout : Layout) (line : Line) (name : Text)
    (label : line.label? = some name) (known : name ∈ layout.names) :
    layout.add line = .error ⟨.duplicateLabel name, 0, some (line.number, line.source)⟩ := by
  have found := (lookup_isSome_iff layout.labels name).mpr known
  simp only [add, addLabel, label, found, if_true]

theorem add_full (layout : Layout) (line : Line) (fresh : ∀ name ∈ line.label?, name ∉ layout.names)
    (stated : line.body.isEmpty = false) (full : 16 ≤ layout.next) :
    layout.add line = .error ⟨.tooLarge, layout.next, some (line.number, line.source)⟩ := by
  have labelled := (addLabel_ok_iff layout _ line).mpr ⟨fresh, rfl⟩
  rw [add, labelled]
  simp only [addStatement, stated, Bool.false_eq_true, if_false]
  exact if_neg (Nat.not_lt.mpr full)

theorem ofLines_refused (before : List Line) (line : Line) (after : List Line)
    (rejection : Rejection) (sound : (empty.extend before).Sound)
    (refused : (empty.extend before).add line = .error rejection) :
    ofLines (before ++ line :: after) = .error rejection := by
  have accepted := (foldlM_ok_iff empty _ before empty_sound).mpr ⟨sound, rfl⟩
  simp only [ofLines, List.foldlM_append, accepted, List.foldlM_cons, bind, Except.bind, refused]

end Layout

theorem Line.body_of_stated (line : Line) (stated : line.contents.statement?.isSome = true) :
    line.body.isEmpty = false := by
  cases blank : line.body.isEmpty with
  | false => rfl
  | true => simp [Line.contents, blank] at stated

theorem mem_mnemonics_iff (t : Text) :
    t ∈ mnemonics ↔ ∃ mnemonic : Mnemonic, t = mnemonic.name := by
  constructor
  · intro listed
    simp only [mnemonics, List.map_cons, List.map_nil, List.mem_cons, List.not_mem_nil,
      or_false] at listed
    rcases listed with rfl | rfl | rfl | rfl | rfl | rfl | rfl
    · exact ⟨.add, rfl⟩
    · exact ⟨.mov, rfl⟩
    · exact ⟨.inp, rfl⟩
    · exact ⟨.out, rfl⟩
    · exact ⟨.jmp, rfl⟩
    · exact ⟨.jnc, rfl⟩
    · exact ⟨.hlt, rfl⟩
  · rintro ⟨mnemonic, rfl⟩
    cases mnemonic <;> decide

theorem readTarget_nowhere (labels : List (Text × Nat)) (target : Text)
    (letter : ∀ c ∈ target.head?, Text.isDigitLike c = false)
    (missing : labels.lookup target.upper = none) :
    readTarget labels target = .error (.unknownLabel target) := by
  have first : target.head?.any Text.isDigitLike = false := by
    cases target with
    | nil => rfl
    | cons c rest => exact letter c rfl
  simp only [readTarget, first, missing, Bool.false_eq_true, if_false]

theorem kind_of_mistaken (labels : List (Text × Nat)) (lines : List CodeLine)
    (known : labels.map Prod.fst = labelsOf lines) (statement : Statement) (complaint : Complaint)
    (kind : FaultKind) (refused : statement.instruction labels = .error complaint)
    (mistaken : Mistaken lines (tokens statement.body) kind) : complaint.kind? = some kind := by
  have unnamed (target : Text) : labels.lookup target = none ↔ target ∉ labelsOf lines := by
    rw [← known, ← Layout.lookup_isSome_iff, Bool.not_eq_true, Option.isSome_eq_false_iff,
      Option.isNone_iff_eq_none]
  generalize spoken : tokens statement.body = words at mistaken
  cases mistaken with
  | mnemonic word operands unknown =>
      cases found : Mnemonic.ofName? word.upper with
      | none =>
          simp only [Statement.instruction, spoken, found] at refused
          cases refused
          rfl
      | some mnemonic =>
          have named := (ofName_iff _ mnemonic).mp found
          exact (unknown ((mem_mnemonics_iff _).mpr ⟨mnemonic, named⟩)).elim
  | target _ nowhere =>
      obtain ⟨word, target, rfl, jump, letter, absent⟩ := nowhere
      have aimless := readTarget_nowhere labels target letter ((unnamed _).mpr absent)
      have found : Mnemonic.ofName? word.upper = some .jmp ∨
          Mnemonic.ofName? word.upper = some .jnc :=
        jump.imp (ofName_iff _ .jmp).mpr (ofName_iff _ .jnc).mpr
      rcases found with found | found
      all_goals
        simp only [Statement.instruction, spoken, found, encode, aimless, bind, Except.bind]
          at refused
        cases refused
        rfl
  | operands word operands listed other =>
      obtain ⟨mnemonic, named⟩ := (mem_mnemonics_iff word.upper).mp listed
      have found := (ofName_iff _ mnemonic).mpr named
      simp only [Statement.instruction, spoken, found] at refused
      rcases encode_error labels statement.addr mnemonic operands complaint refused with
        ⟨operand, jump, rfl, letter, missing, rfl⟩ | invalid
      · have jumps : word.upper = "JMP".toList ∨ word.upper = "JNC".toList := by
          rcases jump with rfl | rfl
          · exact .inl named
          · exact .inr named
        have first : ∀ c ∈ operand.head?, Text.isDigitLike c = false := by
          intro c head
          rw [head] at letter
          exact letter
        exact (other ⟨word, operand, rfl, jumps, first, (unnamed _).mp missing⟩).elim
      · exact invalid

section Reporting

variable (source : Text) (lines : List CodeLine) (reads : Reads source lines) (index : Nat)

section LineAt

variable {source lines index} {before after : List Line} {line : Line} {raw : Text}
  (here : LineAt source lines index before line after raw)

include here

theorem LineAt.sound (distinct : ∀ earlier < index, ¬ Repeats lines earlier)
    (fits : (statementsOf (lines.take index)).length ≤ 16) :
    (Layout.empty.extend before).Sound := by
  rw [Layout.sound_iff, here.earlier]
  exact ⟨(nodup_take_iff lines index).mpr distinct, fits⟩

theorem LineAt.names : (Layout.empty.extend before).names = labelsOf (lines.take index) := by
  rw [Layout.names_laidOut, here.earlier]

theorem LineAt.next :
    (Layout.empty.extend before).next = (statementsOf (lines.take index)).length := by
  rw [Layout.next_laidOut, here.earlier]

theorem LineAt.statements (stated : line.body.isEmpty = false) :
    ∃ rest, (layoutOf source).statements = Layout.statementsFrom 0 before ++
      ⟨(statementsOf (lines.take index)).length, index + 1, raw.trim, line.body⟩ :: rest := by
  have front : (Layout.empty.extend before).statements = Layout.statementsFrom 0 before :=
    List.nil_append _
  refine ⟨Layout.statementsFrom ((Layout.empty.extend before).next + 1) after, ?_⟩
  calc
    _ = (Layout.empty.extend (before ++ line :: after)).statements := by rw [layoutOf, here.split]
    _ = (Layout.empty.extend before).statements ++
        Layout.statementsFrom (Layout.empty.extend before).next (line :: after) := by
      rw [Layout.extend_append]
      rfl
    _ = _ := by
      obtain ⟨number, text⟩ := Prod.mk.inj here.place
      simp only [Layout.statementsFrom, stated, Bool.false_eq_true, if_false, front, number, text,
        here.next]

end LineAt

include reads

theorem line_at (said : CodeLine) (present : lines[index]? = some said) :
    ∃ before line after raw, LineAt source lines index before line after raw ∧
      line.contents = said := by
  cases (reads_source_iff source lines).mp reads
  rw [List.getElem?_map] at present
  obtain ⟨line, found, rfl⟩ := Option.map_eq_some_iff.mp present
  obtain ⟨raw, given, rfl⟩ := readLines_at source index line found
  obtain ⟨inside, same⟩ := List.getElem?_eq_some_iff.mp found
  refine ⟨(readLines source).take index, _, (readLines source).drop (index + 1), raw, ?_, rfl⟩
  constructor
  · rw [← same, ← List.drop_eq_getElem_cons inside, List.take_append_drop]
  · exact List.map_take
  · exact given
  · rw [Line.read_number, Line.read_source]

theorem reported_duplicate (again : Repeats lines index)
    (first : ∀ earlier < index, ¬ Repeats lines earlier)
    (room : ∀ full, Overflows lines full → index ≤ full) :
    Reported source .duplicateLabel 0 (some index) := by
  obtain ⟨said, present, name, label, known⟩ := again
  obtain ⟨before, line, after, raw, here, rfl⟩ := line_at source lines reads index said present
  have sound := here.sound first ((fits_take_iff lines index).mpr
    fun earlier below full => Nat.not_lt.mpr (room earlier full) below)
  rw [← here.names] at known
  have refused := Layout.ofLines_refused before line after _ sound
    (Layout.add_repeated _ line name label known)
  rw [← here.split, here.place] at refused
  exact reported_at_line source raw index 0 _ _ here.given rfl
    ((assemble_error_iff source _).mpr (.inl refused))

theorem reported_tooLarge (full : Overflows lines index)
    (distinct : ∀ earlier ≤ index, ¬ Repeats lines earlier) :
    Reported source .programTooLarge 16 (some index) := by
  obtain ⟨said, present, stated, count⟩ := full
  obtain ⟨before, line, after, raw, here, rfl⟩ := line_at source lines reads index said present
  have sound := here.sound (fun earlier below => distinct earlier (Nat.le_of_lt below))
    (Nat.le_of_eq count)
  have fresh : ∀ name ∈ line.label?, name ∉ (Layout.empty.extend before).names := by
    intro name label known
    rw [here.names] at known
    exact distinct index (Nat.le_refl _) ⟨_, present, name, label, known⟩
  have next := here.next.trans count
  have refused := Layout.ofLines_refused before line after _ sound
    (Layout.add_full _ line fresh (line.body_of_stated stated) (Nat.le_of_eq next.symm))
  rw [← here.split, here.place, next] at refused
  exact reported_at_line source raw index 16 _ _ here.given rfl
    ((assemble_error_iff source _).mpr (.inl refused))

theorem sound_of_reads (distinct : ∀ index, ¬ Repeats lines index)
    (room : ∀ index, ¬ Overflows lines index) : (layoutOf source).Sound := by
  cases (reads_source_iff source lines).mp reads
  exact (Layout.sound_iff _).mpr ⟨(nodup_iff _).mpr distinct, (fits_iff _).mpr room⟩

theorem reported_empty (distinct : ∀ index, ¬ Repeats lines index)
    (none : statementsOf lines = []) : Reported source .parse 0 .none := by
  have room := (fits_iff lines).mp (by simp [none])
  have sound := sound_of_reads source lines reads distinct room
  have empty : (layoutOf source).statements = [] := by
    rw [← List.length_eq_zero_iff, length_statements, (reads_source_iff source lines).mp reads,
      none]
    rfl
  have refused := (assemble_error_iff source _).mpr (.inr (.inl ⟨sound, empty, rfl⟩))
  exact ⟨_, _, refused, Rejection.failure_of_kind _ .parse rfl, rfl, rfl, rfl, rfl⟩

theorem reported_statement (said : CodeLine) (words : List Text) (kind : FaultKind)
    (distinct : ∀ index, ¬ Repeats lines index) (room : ∀ index, ¬ Overflows lines index)
    (present : lines[index]? = some said) (stated : said.statement? = some words)
    (earlier : ∀ words ∈ statementsOf (lines.take index), ∃ form, Spells lines words form)
    (stuck : ∀ form, ¬ Spells lines words form) (mistaken : Mistaken lines words kind) :
    Reported source kind (statementsOf (lines.take index)).length (some index) := by
  have sound := sound_of_reads source lines reads distinct room
  obtain ⟨before, line, after, raw, here, rfl⟩ := line_at source lines reads index said present
  have written := line.body_of_stated (by rw [stated]; rfl)
  obtain ⟨rest, laid⟩ := here.statements written
  have spoken : tokens line.body = words := by
    simpa [Line.contents, written] using stated
  subst spoken
  cases (reads_source_iff source lines).mp reads
  have accepted : ∀ statement ∈ Layout.statementsFrom 0 before,
      ∃ entry, statement.assemble (layoutOf source).labels = .ok entry := by
    intro statement among
    apply (assembles_iff_spells source sound statement).mpr
    apply earlier
    rw [← here.earlier, ← Layout.statements_contents 0 before]
    exact List.mem_map_of_mem among
  generalize same : Statement.mk _ (index + 1) raw.trim line.body = statement at laid
  cases assembled : statement.assemble (layoutOf source).labels with
  | ok entry =>
      obtain ⟨form, spells⟩ :=
        (assembles_iff_spells source sound statement).mp ⟨entry, assembled⟩
      cases same
      exact (stuck form spells).elim
  | error rejection =>
      have refused := (assemble_error_iff source rejection).mpr
        (.inr (.inr ⟨sound, _, statement, rest, laid, accepted, assembled⟩))
      obtain ⟨complaint, wrong, rfl⟩ := (assemble_statement_error_iff _ _ _).mp assembled
      cases same
      exact reported_at_line source raw index _ complaint kind here.given
        (kind_of_mistaken _ _ (Layout.names_laidOut _) _ complaint kind wrong mistaken) refused

theorem reported_of_reports (kind : FaultKind) (addr : Nat) (place? : Option Nat)
    (reports : Reports lines kind addr place?) : Reported source kind addr place? := by
  cases reports with
  | duplicate index again first room =>
      exact reported_duplicate source lines reads index again first room
  | tooLarge index full distinct => exact reported_tooLarge source lines reads index full distinct
  | empty distinct none => exact reported_empty source lines reads distinct none
  | statement index said words _ distinct room present stated earlier stuck mistaken =>
      exact reported_statement source lines reads index said words kind distinct room present stated
        earlier stuck mistaken

theorem reports_of_raised (rejection : Rejection) (fault : Fault)
    (refused : assemble source = .error rejection) (raised : rejection.failure = .fault fault) :
    ∃ addr place?, Reports lines fault.kind addr place? ∧ fault.addr = addr ∧
      fault.ShowsLine source place? := by
  -- a source is refused once, so that what its lines give decides what is raised
  rcases reports_cases lines with ⟨kind, addr, place?, reports⟩ | ⟨words, denotes⟩ | wordless
  · obtain ⟨rejection', fault', refused', raised', rfl, placed, shows⟩ :=
      reported_of_reports source lines reads kind addr place? reports
    cases refused.symm.trans refused'
    cases raised.symm.trans raised'
    exact ⟨addr, place?, reports, placed, shows⟩
  · cases (reads_source_iff source lines).mp reads
    obtain ⟨program, assembled⟩ := assemble_of_denotes source words denotes
    cases assembled.symm.trans refused
  · obtain ⟨other, refused', unreported⟩ :=
      unreported_of_breaksOff source ⟨lines, reads, wordless⟩
    cases refused.symm.trans refused'
    rw [Rejection.failure_of_unreported _ unreported] at raised
    cases raised

theorem reports_of_reported (kind : FaultKind) (addr : Nat) (place? : Option Nat)
    (reported : Reported source kind addr place?) : Reports lines kind addr place? := by
  obtain ⟨rejection, fault, refused, raised, rfl, place, shows⟩ := reported
  obtain ⟨addr', place?', reports, place', shows'⟩ :=
    reports_of_raised source lines reads rejection fault refused raised
  obtain rfl : addr = addr' := Int.ofNat.inj (place.symm.trans place')
  obtain rfl := shows.unique shows'
  exact reports

end Reporting

/-- Every source reads as lines in one way, and of all the mistakes in them the assembler reports
one, as the language says: the first label that comes again, unless a statement without room stands
before it; else that statement; else the want of statements; else what is wrong with the first
statement that spells no form. The error has the number and the text of its line, counted from one
and without the blanks around it. -/
theorem reported_iff_reports (source : Text) :
    (∃! lines, Reads source lines) ∧
      ∀ lines, Reads source lines → ∀ kind addr place?,
        Reported source kind addr place? ↔ Reports lines kind addr place? := by
  constructor
  · refine ⟨_, (reads_source_iff source _).mpr rfl, ?_⟩
    intro lines reads
    exact ((reads_source_iff source lines).mp reads).symm
  · intro lines reads kind addr place?
    constructor
    · exact reports_of_reported source lines reads kind addr place?
    · exact reported_of_reports source lines reads kind addr place?

def jumpThenRepeat : Text := "jmp c\na: out 1\n A: hlt ; again".toList

def jumpThenRepeatLines : List CodeLine :=
  [⟨none, some ["jmp".toList, ['c']]⟩, ⟨some ['A'], some ["out".toList, "1".toList]⟩,
    ⟨some ['A'], some ["hlt".toList]⟩]

theorem reported_iff_reports_jumpThenRepeat :
    Reads jumpThenRepeat jumpThenRepeatLines ∧
      AimsNowhere jumpThenRepeatLines ["jmp".toList, ['c']] ∧
      Reports jumpThenRepeatLines .duplicateLabel 0 (some 2) ∧
      Reported jumpThenRepeat .duplicateLabel 0 (some 2) ∧
      (Text.lines jumpThenRepeat)[2]?.map Text.trim = some "A: hlt ; again".toList := by
  have reads : Reads jumpThenRepeat jumpThenRepeatLines :=
    (reads_source_iff _ _).mpr (by decide +kernel)
  have nowhere : AimsNowhere jumpThenRepeatLines ["jmp".toList, ['c']] := by
    refine ⟨_, _, rfl, .inl (by decide +kernel), ?_, by decide +kernel⟩
    rintro c ⟨⟩
    decide +kernel
  have again : Repeats jumpThenRepeatLines 2 := ⟨_, rfl, _, rfl, by decide⟩
  have reports : Reports jumpThenRepeatLines .duplicateLabel 0 (some 2) := by
    refine .duplicate 2 again ?_ ?_
    · intro earlier before
      exact (nodup_take_iff jumpThenRepeatLines 2).mp (by decide) earlier before
    · intro full overflows
      exact ((fits_iff jumpThenRepeatLines).mp (by decide) full overflows).elim
  have reported := ((reported_iff_reports jumpThenRepeat).2 _ reads _ _ _).mpr reports
  exact ⟨reads, nowhere, reports, reported, by decide +kernel⟩

end Assembly

end FourBit
