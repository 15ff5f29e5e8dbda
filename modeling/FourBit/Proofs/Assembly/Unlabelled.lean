import FourBit.Proofs.Assembly.Jumps

/-! Sources without labels: with addresses in place of labels they are assembled to the same
words. -/

namespace FourBit

open Assembly

namespace Reference

variable {lines : List CodeLine} {labels : List (Text × Nat)}

/-- A body without references to labels: still a statement if it was one, and the same one, with no
new mark of a comment or end of a line in it. -/
structure Freed (lines : List CodeLine) (body left : Text) : Prop where
  ink : (∃ c ∈ left, Text.isBlank c = false) ↔ ∃ c ∈ body, Text.isBlank c = false
  respelt : Respelt lines (tokens body) (tokens left)
  clear : ∀ c ∈ left, c ∈ body ∨ (c ≠ ';' ∧ c ≠ '#' ∧ c ≠ '\n')

theorem Numbered.freed {body left : Text} (located : Located lines labels)
    (numbered : Numbered labels body left)
    (spelt : (∃ c ∈ body, Text.isBlank c = false) → ∃ form, Spells lines (tokens body) form) :
    Freed lines body left := by
  cases numbered with
  | other _ words spaced free =>
      rw [← tokens_of_spaced body words spaced] at free
      exact ⟨Iff.rfl, located.keeps _ free, fun c inside => .inl inside⟩
  | jump lead word gap target trail addr paired refers =>
      rcases spelt paired.ink with ⟨form, spells⟩
      rw [paired.tokens] at spells
      rcases located.numbers word target addr form refers spells with ⟨n, rfl, respelt⟩
      have written := paired.number n
      refine ⟨iff_of_true written.ink paired.ink, ?_, ?_⟩
      · rw [paired.tokens]
        exact written.tokens ▸ respelt
      · intro c inside
        by_cases digit : c ∈ Text.decimal n
        · exact .inr (decimal_clear n c digit).2
        · simp only [List.mem_append, digit, or_false] at inside ⊢
          exact .inl (inside.imp_left .inl)

theorem Freed.stated {body left : Text} (freed : Freed lines body left)
    (statement? : Option (List Text)) (stated : Stated body statement?)
    (spelt : ∀ words ∈ statement?, ∃ form, Spells lines words form) (margin : Text)
    (blank : ∀ c ∈ margin, Text.isBlank c = true) :
    ∃ new?, Stated (margin ++ left) new? ∧ Labelled (margin ++ left) none (margin ++ left) ∧
      List.Forall₂ (Respelt lines) statement?.toList new?.toList := by
  have separating : ∀ c ∈ margin, isSeparator c = true :=
    fun c inside => isSeparator_of_isBlank c (blank c inside)
  have same : tokens (margin ++ left) = tokens left := tokens_gap_append margin left separating
  cases stated with
  | blank empty =>
      have none : ∀ c ∈ left, Text.isBlank c = true := by
        have other := freed.ink.not.mpr (by simpa using empty)
        simpa using other
      have all := List.forall_mem_append.mpr ⟨blank, none⟩
      refine ⟨.none, .blank _ all, plain_of_tokens _ ?_, .nil⟩
      rw [tokens_gap _ fun c inside => isSeparator_of_isBlank c (all c inside)]
      simp
  | words c words inside ink spaced =>
      rcases freed.ink.mpr ⟨c, inside, ink⟩ with ⟨d, kept, dark⟩
      rcases spelt words rfl with ⟨form, spells⟩
      have respelt := freed.respelt
      rw [tokens_of_spaced body words spaced] at respelt
      refine ⟨some (tokens left), ?_, plain_of_tokens _ ?_, .cons respelt .nil⟩
      · exact .words _ d _ (List.mem_append_right _ kept) dark ((tokens_eq_iff _ _).mp same)
      · rw [same]
        exact (respelt form spells lines).no_colon

/-- Lines that have no label and say some statements, with other jumps for those to labels. -/
structure Plain (lines : List CodeLine) (statements : List (List Text)) (pieces : List Text)
    (codes : List CodeLine) : Prop where
  reads : List.Forall₂ CodeLine.Reads pieces codes
  single : ∀ piece ∈ pieces, '\n' ∉ piece
  unlabelled : labelsOf codes = []
  respelt : List.Forall₂ (Respelt lines) statements (statementsOf codes)

theorem Plain.nil (lines : List CodeLine) : Plain lines [] [] [] := ⟨.nil, by simp, rfl, .nil⟩

theorem Plain.append {first second : List (List Text)} {pieces others : List Text}
    {codes rest : List CodeLine} (plain : Plain lines first pieces codes)
    (more : Plain lines second others rest) :
    Plain lines (first ++ second) (pieces ++ others) (codes ++ rest) := by
  refine ⟨List.rel_append plain.reads more.reads, ?_, ?_, ?_⟩
  · exact List.forall_mem_append.mpr ⟨plain.single, more.single⟩
  · rw [labelsOf, List.filterMap_append]
    exact List.append_eq_nil_iff.mpr ⟨plain.unlabelled, more.unlabelled⟩
  · rw [statementsOf, List.filterMap_append]
    exact List.rel_append plain.respelt more.respelt

theorem CodeLine.Reads.unique {raw : Text} {line other : CodeLine} (reads : line.Reads raw)
    (again : other.Reads raw) : line = other :=
  ((Line.reads_iff 0 raw line).mp reads).symm.trans ((Line.reads_iff 0 raw other).mp again)

theorem Freed.plain {body left : Text} (freed : Freed lines body left)
    (statement? : Option (List Text)) (stated : Stated body statement?)
    (spelt : ∀ words ∈ statement?, ∃ form, Spells lines words form) (margin code comment : Text)
    (blank : ∀ c ∈ margin, Text.isBlank c = true) (within : ∀ c ∈ margin ++ body, c ∈ code)
    (cut : Uncommented (code ++ comment) code) (single : '\n' ∉ code ++ comment) :
    ∃ codes, Plain lines statement?.toList [margin ++ left ++ comment] codes := by
  rcases freed.stated statement? stated spelt margin blank with ⟨new?, written, free, respelt⟩
  rcases cut with ⟨_, split, clear, mark⟩
  cases List.append_cancel_left split
  have from_code : ∀ c ∈ margin ++ left, c ∈ code ∨ (c ≠ ';' ∧ c ≠ '#' ∧ c ≠ '\n') := by
    intro c inside
    rcases List.mem_append.mp inside with before | kept
    · exact .inl (within c (List.mem_append_left _ before))
    · exact (freed.clear c kept).imp_left fun among => within c (List.mem_append_right _ among)
  have unmarked : ∀ c ∈ margin ++ left, c ≠ ';' ∧ c ≠ '#' := by
    intro c inside
    rcases from_code c inside with among | ⟨semicolon, hash, _⟩
    · exact clear c among
    · exact ⟨semicolon, hash⟩
  have reads : CodeLine.Reads (margin ++ left ++ comment) ⟨none, new?⟩ :=
    ⟨_, _, ⟨comment, rfl, unmarked, mark⟩, free, written⟩
  refine ⟨[⟨none, new?⟩], .cons reads .nil, ?_, rfl, ?_⟩
  · rw [List.forall_mem_singleton]
    intro feed
    rcases List.mem_append.mp feed with inside | behind
    · rcases from_code _ inside with among | ⟨_, _, other⟩
      · exact single (List.mem_append_left _ among)
      · exact other rfl
    · exact single (List.mem_append_right _ behind)
  · cases new? <;> exact respelt

theorem Stated.spelt_of_ink {body : Text} {statement? : Option (List Text)}
    (stated : Stated body statement?)
    (spelt : ∀ words ∈ statement?, ∃ form, Spells lines words form)
    (ink : ∃ c ∈ body, Text.isBlank c = false) : ∃ form, Spells lines (tokens body) form := by
  cases stated with
  | blank empty =>
      rcases ink with ⟨c, inside, dark⟩
      exact (Bool.false_ne_true (dark.symm.trans (empty c inside))).elim
  | words c words inside dark spaced =>
      rw [tokens_of_spaced body words spaced]
      exact spelt words rfl

theorem Unlabelled.kept_plain {raw : Text} {kept : List Text} (located : Located lines labels)
    (unlabelled : Unlabelled labels raw kept) (line : CodeLine) (reads : line.Reads raw)
    (single : '\n' ∉ raw)
    (spelt : ∀ words ∈ line.statement?, ∃ form, Spells lines words form) :
    ∃ codes, Plain lines line.statement?.toList kept codes := by
  cases unlabelled with
  | plain code comment left cut free numbered =>
      rcases Line.stated_exists code with ⟨statement?, stated⟩
      have said : CodeLine.Reads (code ++ comment) ⟨none, statement?⟩ :=
        ⟨code, code, cut, free, stated⟩
      cases reads.unique said
      have freed := numbered.freed located (stated.spelt_of_ink spelt)
      exact freed.plain statement? stated spelt [] code comment (by simp) (by simp) cut single
  | label margin name body comment left blank named cut numbered =>
      rcases Line.stated_exists body with ⟨statement?, stated⟩
      have said : CodeLine.Reads (margin ++ name ++ ':' :: body ++ comment)
          ⟨some name.upper, statement?⟩ :=
        ⟨_, body, cut, .label margin name body blank named, stated⟩
      cases reads.unique said
      have freed := numbered.freed located (stated.spelt_of_ink spelt)
      have within : ∀ c ∈ margin ++ body, c ∈ margin ++ name ++ ':' :: body := by
        intro c inside
        rcases List.mem_append.mp inside with before | behind <;> simp [*]
      exact freed.plain statement? stated spelt margin _ comment blank within cut single
  | alone margin name body comment blank named cut empty =>
      have said : CodeLine.Reads (margin ++ name ++ ':' :: body ++ comment)
          ⟨some name.upper, none⟩ :=
        ⟨_, body, cut, .label margin name body blank named, .blank body empty⟩
      cases reads.unique said
      exact ⟨[], Plain.nil lines⟩

theorem kept_plain_all {raws : List Text} {kept : List (List Text)}
    (located : Located lines labels) (unlabelled : List.Forall₂ (Unlabelled labels) raws kept)
    (codes : List CodeLine)
    (reads : List.Forall₂ CodeLine.Reads raws codes) (single : ∀ raw ∈ raws, '\n' ∉ raw)
    (spelt : ∀ words ∈ statementsOf codes, ∃ form, Spells lines words form) :
    ∃ plain, Plain lines (statementsOf codes) kept.flatten plain := by
  -- the lines that say what the labels are stay fixed while the lines to be read get fewer
  induction unlabelled generalizing codes with
  | nil =>
      cases reads
      exact ⟨[], Plain.nil lines⟩
  | cons first rest ih =>
      cases reads with
      | cons here others =>
          rename_i line codes
          rw [Layout.statements_cons] at spelt ⊢
          rcases List.forall_mem_append.mp spelt with ⟨now, later⟩
          rcases List.forall_mem_cons.mp single with ⟨unbroken, singles⟩
          rcases first.kept_plain located line here unbroken (by simpa using now) with ⟨new, plain⟩
          rcases ih codes others singles later with ⟨more, plains⟩
          exact ⟨_, plain.append plains⟩

theorem Denotes.respelt {codes : List CodeLine} {words : List Nat}
    (denotes : Denotes lines words) (unlabelled : labelsOf codes = [])
    (respelt : List.Forall₂ (Respelt lines) (statementsOf lines) (statementsOf codes)) :
    Denotes codes words := by
  have size := respelt.length_eq
  refine ⟨?_, size ▸ denotes.present, size ▸ denotes.fits, denotes.size.trans size, ?_⟩
  · rw [unlabelled]
    exact List.nodup_nil
  · intro addr statement found
    rcases List.getElem?_eq_some_iff.mp found with ⟨inside, rfl⟩
    have bound : addr < (statementsOf lines).length := size ▸ inside
    rcases denotes.table addr _ (List.getElem?_eq_getElem bound) with ⟨form, spells, kept⟩
    have same := respelt.get bound inside
    exact ⟨form, same form spells codes, kept⟩

theorem Denotes.spelt {words : List Nat} (denotes : Denotes lines words) :
    ∀ statement ∈ statementsOf lines, ∃ form, Spells lines statement form := by
  intro statement listed
  rcases List.getElem?_of_mem listed with ⟨addr, found⟩
  rcases denotes.table addr statement found with ⟨form, spells, _⟩
  exact ⟨form, spells⟩

theorem Plain.reads_source {statements : List (List Text)} {pieces : List Text}
    {codes : List CodeLine} (plain : Plain lines statements pieces codes)
    (present : 1 ≤ (statementsOf codes).length) : Reads (Text.unlines pieces) codes := by
  refine ⟨pieces, ?_, plain.single, rfl, plain.reads⟩
  rintro rfl
  cases plain.reads
  cases present

theorem numbered_exists (labels : List (Text × Nat)) (body : Text) :
    ∃ left, Numbered labels body left := by
  rcases spaced_exists body with ⟨words, spaced⟩
  by_cases free : ∀ addr, ¬ RefersTo labels words addr
  · exact ⟨body, .other body words spaced free⟩
  · push Not at free
    rcases free with ⟨addr, word, target, rfl, refers⟩
    rcases paired_of_spaced body word target spaced with ⟨lead, gap, trail, rfl, paired⟩
    exact ⟨_, .jump lead word gap target trail addr paired ⟨word, target, rfl, refers⟩⟩

theorem unlabelled_exists (labels : List (Text × Nat)) (raw : Text) :
    ∃ kept, Unlabelled labels raw kept := by
  have cut := Line.uncommented_withoutComment raw
  rcases Line.labelled_exists (Line.withoutComment raw) with ⟨label?, body, labelled⟩
  generalize Line.withoutComment raw = code at cut labelled
  rcases cut with ⟨comment, rfl, cut⟩
  rcases numbered_exists labels body with ⟨left, numbered⟩
  cases labelled with
  | label margin name body blank named =>
      exact ⟨_, .label margin name body comment left blank named ⟨comment, rfl, cut⟩ numbered⟩
  | plain _ free =>
      exact ⟨_, .plain body comment left ⟨comment, rfl, cut⟩ (.plain body free) numbered⟩

theorem labelFree_exists (labels : List (Text × Nat)) (source : Text) :
    ∃ plain, LabelFree labels source plain := by
  choose kept each using unlabelled_exists labels
  refine ⟨_, (Text.lines source).map kept, ?_, rfl⟩
  rw [List.forall₂_map_right_iff, List.forall₂_same]
  exact fun raw _ => each raw

end Reference

namespace Assembly

open Reference

section Assembled

variable (source : Text) (program : Program) (assembled : assemble source = .ok program)

include assembled

theorem labels_of_unlabelled
    (unlabelled : labelsOf ((readLines source).map Line.contents) = []) : program.labels = [] := by
  apply List.eq_nil_iff_forall_not_mem.mpr
  rintro ⟨name, addr⟩ known
  rcases (mem_labels_iff source program assembled name addr).mp known with
    ⟨before, line, after, split, label, _⟩
  have listed : name ∈ labelsOf ((readLines source).map Line.contents) := by
    rw [split]
    exact List.mem_filterMap.mpr ⟨line, by simp, label⟩
  rw [unlabelled] at listed
  cases listed

theorem assemble_labelFree (plain : Text) (free : LabelFree program.labels source plain) :
    ∃ again, assemble plain = .ok again ∧ again.words = program.words ∧ again.labels = [] := by
  have located := located_of_assemble source program assembled
  have denotes := denotes_of_assemble source program assembled
  rcases (reads_source_iff source _).mpr rfl with ⟨raws, present, single, split, reads⟩
  have lines := (lines_iff source raws).mpr ⟨present, single, split⟩
  rcases free with ⟨kept, unlabelled, rfl⟩
  rw [lines] at unlabelled
  rcases kept_plain_all located unlabelled _ reads single denotes.spelt with ⟨codes, plain⟩
  have stands := denotes.respelt plain.unlabelled plain.respelt
  have same := (reads_source_iff _ codes).mp (plain.reads_source stands.present)
  rw [← same] at stands
  rcases assemble_of_denotes _ _ stands with ⟨again, reassembled⟩
  refine ⟨again, reassembled, ?_, ?_⟩
  · apply (List.map_inj_right fun _ _ => Fin.ext).mp
    exact words_of_denotes _ again reassembled _ stands
  · apply labels_of_unlabelled _ again reassembled
    rw [same]
    exact plain.unlabelled

end Assembled

end Assembly

open Reference

/-- Labels are notation: a source from which they are taken, with the addresses in their place, is
assembled to the same words. The address of a label is the number of statements before it, and it is
where the jumps to the label go. -/
theorem labels_are_notation (source : Text) (program : Program)
    (assembled : assemble source = .ok program) :
    (∃ plain, LabelFree program.labels source plain) ∧
    (∀ plain, LabelFree program.labels source plain → ∃ again,
      assemble plain = .ok again ∧ again.words = program.words ∧ again.labels = []) ∧
    ∃ lines, Reads source lines ∧
      (∀ name addr, (name, addr) ∈ program.labels ↔ Defines lines name addr) ∧
      ∀ (place : Nat) (words : List Text) (addr : Nat),
        (statementsOf lines)[place]? = some words → RefersTo program.labels words addr →
        ∃ word : Fin 256, program.words[place]? = some word ∧ (word : Nat) % 16 = addr := by
  have reads := (reads_source_iff source _).mpr rfl
  refine ⟨labelFree_exists program.labels source,
    assemble_labelFree source program assembled, (readLines source).map Line.contents, reads,
    ?_, ?_⟩
  · exact mem_labels_iff source program assembled
  · intro place words addr
    exact word_of_reference source program assembled place addr words

def disguised : Text :=
  Text.unlines ["A: out 1".toList, "  jmp hlt ; onward".toList, "hlt:JNC a".toList,
    "X0: # end".toList]

def undisguised : Text :=
  Text.unlines [" out 1".toList, "  jmp 2 ; onward".toList, "JNC 0".toList]

def disguises : List (Text × Nat) := [("A".toList, 0), ("HLT".toList, 2), ("X0".toList, 3)]

theorem undisguised_labelFree : LabelFree disguises disguised undisguised := by
  have lines : Text.lines disguised =
      [[] ++ "A".toList ++ ':' :: " out 1".toList ++ [],
        "  ".toList ++ "jmp".toList ++ " ".toList ++ "hlt".toList ++ " ".toList ++
          "; onward".toList,
        [] ++ "hlt".toList ++ ':' :: ([] ++ "JNC".toList ++ " ".toList ++ "a".toList ++ []) ++ [],
        [] ++ "X0".toList ++ ':' :: " ".toList ++ "# end".toList] := by decide +kernel
  have kept : undisguised = Text.unlines (List.flatten
      [[[] ++ " out 1".toList ++ []],
        ["  ".toList ++ "jmp".toList ++ " ".toList ++ Text.decimal 2 ++ " ".toList ++
          "; onward".toList],
        [[] ++ ([] ++ "JNC".toList ++ " ".toList ++ Text.decimal 0 ++ []) ++ []],
        []]) := by decide +kernel
  refine ⟨_, ?_, kept⟩
  rw [lines]
  refine .cons (.label _ _ _ _ _ ?_ ?_ ?_ ?_) (.cons (.plain _ _ _ ?_ ?_ ?_)
    (.cons (.label _ _ _ _ _ ?_ ?_ ?_ ?_) (.cons (.alone _ _ _ _ ?_ ?_ ?_ ?_) .nil)))
  · decide
  · exact ⟨'A', [], by decide, by decide, by decide⟩
  · exact ⟨[], by decide, by decide, by simp⟩
  · refine .other _ ["out".toList, "1".toList] ((tokens_eq_iff _ _).mp (by decide +kernel)) ?_
    rintro addr ⟨word, target, same, jumps, known⟩
    cases same
    exact absurd jumps (by decide)
  · exact ⟨_, rfl, by decide, by simp⟩
  · exact plain_of_tokens _ (by decide)
  · exact .jump _ _ _ _ _ 2 (by constructor <;> decide) ⟨_, _, rfl, .inl (by decide), by decide⟩
  · decide
  · exact ⟨'h', "lt".toList, by decide, by decide, by decide⟩
  · exact ⟨[], by decide, by decide, by simp⟩
  · exact .jump _ _ _ _ _ 0 (by constructor <;> decide) ⟨_, _, rfl, .inr (by decide), by decide⟩
  · decide
  · exact ⟨'X', ['0'], by decide, by decide, by decide⟩
  · exact ⟨"# end".toList, by decide, by decide, by simp⟩
  · decide

theorem labels_are_notation_disguised :
    ∃ program again, assemble disguised = .ok program ∧ program.labels = disguises ∧
      assemble undisguised = .ok again ∧ again.words = program.words ∧ again.labels = [] := by
  have evaluated : (assemble disguised).toOption.map Program.labels = some disguises := by
    decide +kernel
  cases assembled : assemble disguised with
  | error rejection =>
      rw [assembled] at evaluated
      cases evaluated
  | ok program =>
      rw [assembled] at evaluated
      have labels : program.labels = disguises := Option.some.inj evaluated
      rcases labels_are_notation disguised program assembled with ⟨_, kept, _⟩
      have free : LabelFree program.labels disguised undisguised := labels ▸ undisguised_labelFree
      rcases kept undisguised free with ⟨again, reassembled, words, none⟩
      exact ⟨program, again, rfl, labels, reassembled, words, none⟩

end FourBit
