import FourBit.Proofs.Assembly.Unlabelled

namespace FourBit

open Assembly

namespace Reference

/-- Statements whose word depends on where they stand: halts, and jumps to labels. -/
def Anchored (labels : List (Text × Nat)) (words : List Text) : Prop :=
  (∃ word, words = [word] ∧ word.upper = "HLT".toList) ∨ ∃ addr, RefersTo labels words addr

def Raised (places word moved : Nat) : Prop :=
  moved / 16 = word / 16 ∧ moved % 16 = word % 16 + places

/-- A program is one program with another behind it, whose statements are given: those that depend
on their place have moved, the labels with them, and the line numbers by the lines before. -/
structure Joined (first second : Program) (statements : List (List Text)) (lines : Nat)
    (whole : Program) : Prop where
  size : whole.words.length = first.words.length + second.words.length
  kept : first.words <+: whole.words
  moved : ∀ (place : Nat) (words : List Text) (word : Fin 256),
    statements[place]? = some words → second.words[place]? = some word →
    ∃ word', whole.words[first.words.length + place]? = some word' ∧
      (Anchored second.labels words → Raised first.words.length word word') ∧
      (¬ Anchored second.labels words → word' = word)
  labels : whole.labels = first.labels ++
    second.labels.map fun entry => (entry.1, entry.2 + first.words.length)
  lines : ∀ (place : Nat) (entry : SourceInstruction), second.instructions[place]? = some entry →
    ∃ entry', whole.instructions[first.words.length + place]? = some entry' ∧
      entry'.line = entry.line + lines

section Append

variable (before after : List CodeLine)

theorem statements_append :
    statementsOf (before ++ after) = statementsOf before ++ statementsOf after :=
  List.filterMap_append

theorem labels_append : labelsOf (before ++ after) = labelsOf before ++ labelsOf after :=
  List.filterMap_append

variable {before after}

theorem Defines.front {name : Text} {addr : Nat} (defined : Defines before name addr) :
    Defines (before ++ after) name addr := by
  rcases defined with ⟨lines, line, rest, rfl, label, rfl⟩
  exact ⟨lines, line, rest ++ after, by simp, label, rfl⟩

theorem Defines.behind {name : Text} {addr : Nat} (defined : Defines after name addr) :
    Defines (before ++ after) name (addr + (statementsOf before).length) := by
  rcases defined with ⟨lines, line, rest, rfl, label, rfl⟩
  refine ⟨before ++ lines, line, rest, by simp, label, ?_⟩
  rw [statements_append, List.length_append, Nat.add_comm]

theorem Defines.within {lines : List CodeLine} {name : Text} {addr : Nat}
    (defined : Defines lines name addr) : addr ≤ (statementsOf lines).length := by
  rcases defined with ⟨earlier, line, rest, rfl, _, rfl⟩
  rw [statements_append, List.length_append]
  exact Nat.le_add_right _ _

theorem mem_labels_iff_defines (lines : List CodeLine) (name : Text) :
    name ∈ labelsOf lines ↔ ∃ addr, Defines lines name addr := by
  constructor
  · intro listed
    rcases List.mem_filterMap.mp listed with ⟨line, among, label⟩
    rcases List.append_of_mem among with ⟨earlier, rest, rfl⟩
    exact ⟨_, earlier, line, rest, rfl, label, rfl⟩
  · rintro ⟨addr, earlier, line, rest, rfl, label, rfl⟩
    exact List.mem_filterMap.mpr ⟨line, by simp, label⟩

theorem Aims.front {target : Text} {n : Fin 16} (aims : Aims before target n) :
    Aims (before ++ after) target n := by
  cases aims with
  | number c rest _ digit valued => exact .number c rest n digit valued
  | label c rest _ letter defined => exact .label c rest n letter defined.front

end Append

variable {lines : List CodeLine} {labels : List (Text × Nat)}

theorem Spells.jump_cases {word target : Text} {form : Form}
    (spells : Spells lines [word, target] form) (jumps : IsJump word) :
    ∃ n, Aims lines target n ∧ ((word.upper = "JMP".toList ∧ form = .jump n) ∨
      (word.upper = "JNC".toList ∧ form = .jumpNoCarry n)) := by
  cases spells with
  | input _ _ _ mnemonic => rcases jumps with other | other <;> cases mnemonic.symm.trans other
  | outputB _ _ mnemonic => rcases jumps with other | other <;> cases mnemonic.symm.trans other
  | output _ _ _ mnemonic => rcases jumps with other | other <;> cases mnemonic.symm.trans other
  | jump _ _ n mnemonic aims => exact ⟨n, aims, .inl ⟨mnemonic, rfl⟩⟩
  | jumpNoCarry _ _ n mnemonic aims => exact ⟨n, aims, .inr ⟨mnemonic, rfl⟩⟩

theorem Spells.word_moved {words : List Text} {form : Form} (spells : Spells lines words form)
    (addr places : Nat) (inside : addr + places < 16) :
    ((∃ word, words = [word] ∧ word.upper = "HLT".toList) →
      Raised places (form.word addr) (form.word (addr + places))) ∧
    ((¬ ∃ word, words = [word] ∧ word.upper = "HLT".toList) →
      form.word (addr + places) = form.word addr) := by
  cases spells with
  | halt word mnemonic =>
      refine ⟨fun _ => ?_, fun other => (other ⟨word, rfl, mnemonic⟩).elim⟩
      simp only [Raised, Form.word, Form.code, Form.operand]
      omega
  | add | load | copyAB | copyBA | input | outputB | output | jump | jumpNoCarry =>
      exact ⟨by simp, fun _ => rfl⟩

namespace Located

variable (located : Located lines labels)

include located

theorem reference_behind (before : List CodeLine) {words : List Text} {form : Form}
    (spells : Spells lines words form) (place addr : Nat) (refers : RefersTo labels words addr)
    (room : addr + (statementsOf before).length < 16) :
    ∃ form', Spells (before ++ lines) words form' ∧
      Raised (statementsOf before).length (form.word place)
        (form'.word (place + (statementsOf before).length)) := by
  rcases refers with ⟨word, target, rfl, jumps, known⟩
  rcases spells.jump_cases jumps with ⟨n, aims, either⟩
  have same := located.aims_label target addr n known aims
  have moved : Aims (before ++ lines) target ⟨addr + (statementsOf before).length, room⟩ := by
    cases aims with
    | number c rest _ digit _ =>
        have letter := Line.letter_of_named c rest (located.named _ addr known)
        exact (Bool.false_ne_true (letter.symm.trans digit)).elim
    | label c rest _ letter _ =>
        have defined := (located.placed _ _).mp known
        exact .label c rest _ letter defined.behind
  rcases either with ⟨mnemonic, rfl⟩ | ⟨mnemonic, rfl⟩
  · refine ⟨_, .jump word target _ mnemonic moved, ?_⟩
    simp only [Raised, Form.word, Form.code, Form.operand]
    omega
  · refine ⟨_, .jumpNoCarry word target _ mnemonic moved, ?_⟩
    simp only [Raised, Form.word, Form.code, Form.operand]
    omega

theorem spells_behind (before : List CodeLine) {words : List Text} {form : Form}
    (spells : Spells lines words form) (place : Nat)
    (inside : place + (statementsOf before).length < 16)
    (room : ∀ addr, RefersTo labels words addr → addr + (statementsOf before).length < 16) :
    ∃ form', Spells (before ++ lines) words form' ∧
      (Anchored labels words → Raised (statementsOf before).length (form.word place)
        (form'.word (place + (statementsOf before).length))) ∧
      (¬ Anchored labels words →
        form'.word (place + (statementsOf before).length) = form.word place) := by
  by_cases free : ∀ addr, ¬ RefersTo labels words addr
  · have respelt := located.keeps words free form spells (before ++ lines)
    rcases spells.word_moved place _ inside with ⟨halts, stays⟩
    refine ⟨form, respelt, ?_, ?_⟩
    · rintro (halt | ⟨addr, refers⟩)
      · exact halts halt
      · exact (free addr refers).elim
    · intro loose
      exact stays fun halt => loose (.inl halt)
  · push Not at free
    rcases free with ⟨addr, refers⟩
    rcases located.reference_behind before spells place addr refers (room addr refers) with
      ⟨form', spells', raised⟩
    exact ⟨form', spells', fun _ => raised, fun loose => (loose (.inr ⟨addr, refers⟩)).elim⟩

theorem spells_front (after : List CodeLine) {words : List Text} {form : Form}
    (spells : Spells lines words form) : Spells (lines ++ after) words form := by
  by_cases free : ∀ addr, ¬ RefersTo labels words addr
  · exact located.keeps words free form spells (lines ++ after)
  · push Not at free
    rcases free with ⟨addr, word, target, rfl, jumps, known⟩
    rcases spells.jump_inv jumps with ⟨n, aims, _, change⟩
    exact change _ target aims.front

end Located

end Reference

namespace Assembly

open Reference

def Line.later (lines : Nat) (line : Line) : Line := { line with number := line.number + lines }

theorem Line.read_later (number lines : Nat) (raw : Text) :
    read (number + lines) raw = (read number raw).later lines := by
  simp only [read, later]
  split <;> rfl

theorem read_from (raws : List Text) (lines : Nat) :
    (raws.zipIdx lines).map (fun (raw, index) => Line.read (index + 1) raw) =
      (raws.zipIdx.map fun (raw, index) => Line.read (index + 1) raw).map (Line.later lines) := by
  rw [List.zipIdx_eq_map_add, List.map_map, List.map_map]
  apply List.map_congr_left
  rintro ⟨raw, index⟩ _
  have number : lines + index + 1 = index + 1 + lines := by omega
  exact (congrArg (Line.read · raw) number).trans (Line.read_later _ lines raw)

theorem readLines_append (first second : Text) :
    readLines (first ++ '\n' :: second) =
      readLines first ++ (readLines second).map (Line.later (Text.lines first).length) := by
  rw [readLines, lines_append, List.zipIdx_append, List.map_append, Nat.zero_add,
    read_from (Text.lines second)]
  rfl

theorem contents_append (first second : Text) :
    (readLines (first ++ '\n' :: second)).map Line.contents =
      (readLines first).map Line.contents ++ (readLines second).map Line.contents := by
  rw [readLines_append, List.map_append, List.map_map]
  rfl

namespace Layout

theorem extend_append (layout : Layout) (first second : List Line) :
    layout.extend (first ++ second) = (layout.extend first).extend second := by
  induction first generalizing layout with
  | nil => rw [List.nil_append, extend_nil]
  | cons line rest ih => rw [List.cons_append, extend_cons, ih, ← extend_cons]

theorem labelsFrom_later (first places lines : Nat) (later : List Line) :
    labelsFrom (first + places) (later.map (Line.later lines)) =
      (labelsFrom first later).map fun entry => (entry.1, entry.2 + places) := by
  induction later generalizing first with
  | nil => rfl
  | cons line rest ih =>
      have next : (if line.body.isEmpty then first + places else first + places + 1) =
          (if line.body.isEmpty then first else first + 1) + places := by
        split <;> omega
      simp only [List.map_cons, labelsFrom, Line.later, List.map_append, next, ← ih]
      cases line.label? <;> rfl

theorem statementsFrom_later (first places lines : Nat) (later : List Line) :
    statementsFrom (first + places) (later.map (Line.later lines)) =
      (statementsFrom first later).map fun statement =>
        { statement with addr := statement.addr + places, line := statement.line + lines } := by
  induction later generalizing first with
  | nil => rfl
  | cons line rest ih =>
      have same : (line.later lines).body = line.body := rfl
      have next : first + places + 1 = first + 1 + places := by omega
      simp only [List.map_cons, statementsFrom, same]
      split
      · exact ih first
      · rw [next, ih (first + 1)]
        rfl

end Layout

theorem denotes_of_spelt (lines : List CodeLine) (distinct : (labelsOf lines).Nodup)
    (present : 1 ≤ (statementsOf lines).length) (fits : (statementsOf lines).length ≤ 16)
    (spelt : ∀ words ∈ statementsOf lines, ∃ form, Spells lines words form) :
    ∃ words, Denotes lines words := by
  have inhabited : Nonempty Form := ⟨.halt⟩
  choose! form spells using spelt
  refine ⟨(statementsOf lines).zipIdx.map fun entry => (form entry.1).word entry.2, distinct,
    present, fits, by simp, ?_⟩
  intro addr words found
  refine ⟨form words, spells words (List.mem_of_getElem? found), ?_⟩
  rw [List.getElem?_map, List.getElem?_zipIdx, found, Option.map_some, Option.map_some,
    Nat.zero_add]

theorem statements_both (s t : Text) :
    statementsOf ((readLines (s ++ '\n' :: t)).map Line.contents) =
      statementsOf ((readLines s).map Line.contents) ++
        statementsOf ((readLines t).map Line.contents) := by
  rw [contents_append, statements_append]

theorem layout_both (s t : Text) : layoutOf (s ++ '\n' :: t) =
    (layoutOf s).extend ((readLines t).map (Line.later (Text.lines s).length)) := by
  rw [layoutOf, readLines_append, Layout.extend_append]
  rfl

section Two

variable (s t : Text) (p q : Program) (first : assemble s = .ok p) (second : assemble t = .ok q)

include first

theorem length_program_words :
    p.words.length = (statementsOf ((readLines s).map Line.contents)).length := by
  have size := length_words s p first
  rw [List.length_map] at size
  exact size

theorem next_layout : (layoutOf s).next = 0 + p.words.length := by
  rw [length_program_words s p first, Nat.zero_add]
  exact length_statements s

theorem program_word_at (addr : Nat) (words : List Text) (form : Form)
    (found : (statementsOf ((readLines s).map Line.contents))[addr]? = some words)
    (spells : Spells ((readLines s).map Line.contents) words form) :
    ∃ word, p.words[addr]? = some word ∧ (word : Nat) = form.word addr := by
  have kept := word_at s p first addr words form found spells
  rw [List.getElem?_map] at kept
  exact Option.map_eq_some_iff.mp kept

include second

theorem assemble_both (fits : p.words.length + q.words.length ≤ 16)
    (apart : ∀ name addr other, (name, addr) ∈ p.labels → (name, other) ∉ q.labels)
    (room : ∀ words ∈ statementsOf ((readLines t).map Line.contents), ∀ addr,
      RefersTo q.labels words addr → addr + p.words.length < 16) :
    ∃ whole, assemble (s ++ '\n' :: t) = .ok whole := by
  have here := denotes_of_assemble s p first
  have there := denotes_of_assemble t q second
  have size := length_program_words s p first
  rw [size, length_program_words t q second] at fits
  rw [size] at room
  have distinct : (labelsOf ((readLines s).map Line.contents ++
      (readLines t).map Line.contents)).Nodup := by
    rw [labels_append]
    refine List.nodup_append.mpr ⟨here.distinct, there.distinct, ?_⟩
    rintro name listed _ again rfl
    rcases (mem_labels_iff_defines _ name).mp listed with ⟨addr, defined⟩
    rcases (mem_labels_iff_defines _ name).mp again with ⟨other, defined'⟩
    exact apart name addr other ((mem_labels_iff s p first name addr).mpr defined)
      ((mem_labels_iff t q second name other).mpr defined')
  have spelt : ∀ words ∈ statementsOf ((readLines s).map Line.contents ++
      (readLines t).map Line.contents), ∃ form, Spells ((readLines s).map Line.contents ++
        (readLines t).map Line.contents) words form := by
    rw [statements_append, List.forall_mem_append]
    constructor
    · intro words listed
      rcases here.spelt words listed with ⟨form, spells⟩
      exact ⟨form, (located_of_assemble s p first).spells_front _ spells⟩
    · intro words listed
      rcases List.getElem?_of_mem listed with ⟨place, found⟩
      rcases there.spelt words listed with ⟨form, spells⟩
      have inside := (List.getElem?_eq_some_iff.mp found).1
      rcases (located_of_assemble t q second).spells_behind _ spells place (by omega)
        (room words listed) with ⟨form', spells', _⟩
      exact ⟨form', spells'⟩
  have present := here.present
  rcases denotes_of_spelt _ distinct
    (by rw [statements_append, List.length_append]; omega)
    (by rw [statements_append, List.length_append]; exact fits) spelt with ⟨words, denotes⟩
  rw [← contents_append] at denotes
  exact assemble_of_denotes _ words denotes

variable (whole : Program) (third : assemble (s ++ '\n' :: t) = .ok whole)

include third

theorem length_whole : whole.words.length = p.words.length + q.words.length := by
  rw [length_program_words _ whole third, statements_both, List.length_append,
    length_program_words s p first, length_program_words t q second]

omit second in
theorem words_front : p.words <+: whole.words := by
  apply List.prefix_iff_getElem?.mpr
  intro addr inside
  have bound := length_program_words s p first ▸ inside
  obtain ⟨words, found⟩ :
      ∃ words, (statementsOf ((readLines s).map Line.contents))[addr]? = some words :=
    ⟨_, List.getElem?_eq_getElem bound⟩
  have behind : (statementsOf ((readLines (s ++ '\n' :: t)).map Line.contents))[addr]? =
      some words := by
    rw [statements_both, List.getElem?_append_left bound]
    exact found
  rcases (denotes_of_assemble s p first).table addr _ found with ⟨form, spells, _⟩
  have spells' := (located_of_assemble s p first).spells_front
    ((readLines t).map Line.contents) spells
  rw [← contents_append] at spells'
  rcases program_word_at s p first addr _ form found spells with ⟨word, here, value⟩
  rcases program_word_at _ whole third addr _ form behind spells' with ⟨word', there, value'⟩
  have same : word' = word := Fin.ext (value'.trans value.symm)
  rw [there, same, ← here]
  exact List.getElem?_eq_getElem inside

theorem word_behind (fits : p.words.length + q.words.length ≤ 16)
    (room : ∀ words ∈ statementsOf ((readLines t).map Line.contents), ∀ addr,
      RefersTo q.labels words addr → addr + p.words.length < 16)
    (place : Nat) (words : List Text) (word : Fin 256)
    (found : (statementsOf ((readLines t).map Line.contents))[place]? = some words)
    (present : q.words[place]? = some word) :
    ∃ word' : Fin 256, whole.words[p.words.length + place]? = some word' ∧
      (Anchored q.labels words → Raised p.words.length word word') ∧
      (¬ Anchored q.labels words → word' = word) := by
  have size := length_program_words s p first
  have inside := (List.getElem?_eq_some_iff.mp present).1
  have moved : (statementsOf ((readLines (s ++ '\n' :: t)).map Line.contents))[
      place + p.words.length]? = some words := by
    rw [statements_both, size, List.getElem?_append_right (Nat.le_add_left _ _),
      Nat.add_sub_cancel_right]
    exact found
  rcases (denotes_of_assemble t q second).table place words found with ⟨form, spells, _⟩
  rcases program_word_at t q second place words form found spells with ⟨_, here, value⟩
  cases present.symm.trans here
  rcases (located_of_assemble t q second).spells_behind ((readLines s).map Line.contents) spells
    place (by omega) (size ▸ room words (List.mem_of_getElem? found)) with
    ⟨form', spells', raised, fixed⟩
  rw [← contents_append] at spells'
  rcases program_word_at _ whole third _ words form' moved spells' with ⟨word', there, value'⟩
  rw [← size, ← value, ← value'] at raised fixed
  rw [Nat.add_comm]
  exact ⟨word', there, raised, fun loose => Fin.ext (fixed loose)⟩

theorem labels_whole : whole.labels = p.labels ++
    q.labels.map fun entry => (entry.1, entry.2 + p.words.length) := by
  rcases (assemble_ok_iff s p).mp first with ⟨_, _, labels, _⟩
  rcases (assemble_ok_iff t q).mp second with ⟨_, _, labels', _⟩
  rcases (assemble_ok_iff _ whole).mp third with ⟨_, _, together, _⟩
  have later := Layout.labelsFrom_later 0 p.words.length (Text.lines s).length (readLines t)
  rw [together, layout_both, labels, labels']
  simp only [Layout.extend, next_layout s p first, later]
  rfl

theorem line_behind (place : Nat) (entry : SourceInstruction)
    (present : q.instructions[place]? = some entry) :
    ∃ entry', whole.instructions[p.words.length + place]? = some entry' ∧
      entry'.line = entry.line + (Text.lines s).length := by
  have inside := (List.getElem?_eq_some_iff.mp present).1
  have size := length_whole s t p q first second whole third
  simp only [Program.words, List.length_map] at size inside ⊢
  have found : ∃ entry', whole.instructions[p.instructions.length + place]? = some entry' :=
    ⟨_, List.getElem?_eq_getElem (by omega)⟩
  rcases found with ⟨entry', found⟩
  refine ⟨entry', found, ?_⟩
  rcases entry_at t q second place entry present with ⟨statement, form, laid, _, rfl⟩
  rcases entry_at _ whole third _ entry' found with ⟨statement', form', laid', _, rfl⟩
  have next : (layoutOf s).next = 0 + p.instructions.length := by
    rw [next_layout s p first, Program.words, List.length_map]
  have length : (layoutOf s).statements.length = p.instructions.length :=
    next.trans (Nat.zero_add _)
  have moved := Layout.statementsFrom_later 0 p.instructions.length (Text.lines s).length
    (readLines t)
  have here : (Layout.statementsFrom 0 (readLines t))[place]? = some statement := laid
  rw [layout_both, Layout.extend, next, moved, ← length,
    List.getElem?_append_right (Nat.le_add_right _ _), Nat.add_sub_cancel_left,
    List.getElem?_map, here, Option.map_some] at laid'
  cases laid'
  rfl

end Two

end Assembly

open Reference

/-- One source behind another is assembled to the two programs one behind the other, if they fit, no
label is in both, and no jump to a label of the second would come to lie behind the memory. -/
theorem assemble_concatenation (s t : Text) (p q : Program) (lines : List CodeLine)
    (first : assemble s = .ok p) (second : assemble t = .ok q) (reads : Reads t lines)
    (fits : p.words.length + q.words.length ≤ 16)
    (apart : ∀ name addr other, (name, addr) ∈ p.labels → (name, other) ∉ q.labels)
    (inside : ∀ words ∈ statementsOf lines, ∀ addr, RefersTo q.labels words addr →
      addr + p.words.length ≠ 16) :
    ∃ whole, assemble (s ++ '\n' :: t) = .ok whole ∧
      Joined p q (statementsOf lines) (Text.lines s).length whole := by
  cases (reads_source_iff t lines).mp reads
  have room : ∀ words ∈ statementsOf ((readLines t).map Line.contents), ∀ addr,
      RefersTo q.labels words addr → addr + p.words.length < 16 := by
    intro words listed addr refers
    have other := inside words listed addr refers
    rcases refers with ⟨_, target, _, _, known⟩
    have within := ((mem_labels_iff t q second target.upper addr).mp known).within
    rw [← length_program_words t q second] at within
    omega
  rcases assemble_both s t p q first second fits apart room with ⟨whole, third⟩
  refine ⟨whole, third, ?_⟩
  constructor
  · exact length_whole s t p q first second whole third
  · exact words_front s t p first whole third
  · exact word_behind s t p q first second whole third fits room
  · exact labels_whole s t p q first second whole third
  · exact line_behind s t p q first second whole third

def knocking : Text := Text.unlines ["a: out 1".toList, "jmp a".toList, "end:".toList]

def counting : Text :=
  Text.unlines ["b: add A, 1".toList, "hlt".toList, "jnc B ; again".toList, "jmp 0".toList]

theorem assemble_concatenation_counting :
    ∃ p q whole, assemble knocking = .ok p ∧ assemble counting = .ok q ∧
      assemble (knocking ++ '\n' :: counting) = .ok whole ∧
      q.words = [0x01, 0xF1, 0xE0, 0xF0] ∧
      whole.words = [0xB1, 0xF0, 0x01, 0xF3, 0xE2, 0xF0] ∧
      whole.labels = [("A".toList, 0), ("END".toList, 2), ("B".toList, 2)] ∧
      Joined p q (statementsOf ((readLines counting).map Line.contents)) 3 whole := by
  have evaluated : (assemble knocking).toOption.map (fun p => (p.words, p.labels)) =
      some ([0xB1, 0xF0], [("A".toList, 0), ("END".toList, 2)]) := by decide +kernel
  have evaluated' : (assemble counting).toOption.map (fun q => (q.words, q.labels)) =
      some ([0x01, 0xF1, 0xE0, 0xF0], [("B".toList, 0)]) := by decide +kernel
  have together : (assemble (knocking ++ '\n' :: counting)).toOption.map
      (fun whole => (whole.words, whole.labels)) = some ([0xB1, 0xF0, 0x01, 0xF3, 0xE2, 0xF0],
        [("A".toList, 0), ("END".toList, 2), ("B".toList, 2)]) := by decide +kernel
  rcases first : assemble knocking with _ | p
  · rw [first] at evaluated
    cases evaluated
  rcases second : assemble counting with _ | q
  · rw [second] at evaluated'
    cases evaluated'
  rw [first] at evaluated
  rw [second] at evaluated'
  rcases Prod.mk.inj (Option.some.inj evaluated) with ⟨words, labels⟩
  rcases Prod.mk.inj (Option.some.inj evaluated') with ⟨words', labels'⟩
  have fits : p.words.length + q.words.length ≤ 16 := by
    rw [words, words']
    decide
  have apart : ∀ name addr other, (name, addr) ∈ p.labels → (name, other) ∉ q.labels := by
    intro name addr other known again
    simp only [labels, List.mem_cons, Prod.mk.injEq, List.not_mem_nil, or_false] at known
    rw [labels', List.mem_singleton] at again
    rcases known with ⟨rfl, _⟩ | ⟨rfl, _⟩ <;> cases again
  have inside : ∀ words ∈ statementsOf ((readLines counting).map Line.contents), ∀ addr,
      RefersTo q.labels words addr → addr + p.words.length ≠ 16 := by
    rintro _ _ addr ⟨_, target, _, _, known⟩
    rw [labels', List.mem_singleton] at known
    rw [(Prod.mk.inj known).2, words]
    decide
  rcases assemble_concatenation knocking counting p q _ first second
      ((reads_source_iff counting _).mpr rfl) fits apart inside with ⟨whole, third, joined⟩
  rw [third] at together
  rcases Prod.mk.inj (Option.some.inj together) with ⟨words'', labels''⟩
  exact ⟨p, q, whole, rfl, rfl, third, words', words'', labels'', joined⟩

end FourBit
