import FourBit.Proofs.Assembly.Entries

namespace FourBit

theorem bind_error_iff {α β ε : Type} (first : Except ε α) (rest : α → Except ε β) (e : ε) :
    (first >>= rest) = .error e ↔ first = .error e ∨ ∃ a, first = .ok a ∧ rest a = .error e := by
  cases first with
  | error e' => simp [bind, Except.bind]
  | ok a => simp [bind, Except.bind]

theorem mapM_error_iff {α β ε : Type} (f : α → Except ε β) (l : List α) (e : ε) :
    l.mapM f = .error e ↔
      ∃ before a after, l = before ++ a :: after ∧ (∀ b ∈ before, ∃ answer, f b = .ok answer) ∧
        f a = .error e := by
  induction l with
  | nil => simp [pure, Except.pure]
  | cons first rest ih =>
      simp only [List.mapM_cons, bind_error_iff, ih]
      constructor
      · intro given
        rcases given with refused | ⟨answer, accepted, tail⟩
        · exact ⟨[], first, rest, rfl, by simp, refused⟩
        · rcases tail with ⟨before, a, after, rfl, earlier, refused⟩ | ⟨_, _, impossible⟩
          · refine ⟨first :: before, a, after, rfl, ?_, refused⟩
            exact List.forall_mem_cons.mpr ⟨⟨answer, accepted⟩, earlier⟩
          · cases impossible
      · intro given
        rcases given with ⟨before, a, after, split, earlier, refused⟩
        cases before with
        | nil =>
            cases split
            exact .inl refused
        | cons b before =>
            cases split
            rcases List.forall_mem_cons.mp earlier with ⟨⟨answer, accepted⟩, others⟩
            exact .inr ⟨answer, accepted, .inl ⟨before, a, after, rfl, others, refused⟩⟩

namespace Assembly

open Reference

theorem Complaint.parse_lineage (complaint : Complaint) (kind : FaultKind)
    (reported : complaint.kind? = some kind) : .parse ∈ kind.lineage := by
  cases complaint <;> cases reported <;> decide

theorem Rejection.failure_of_kind (rejection : Rejection) (kind : FaultKind)
    (reported : rejection.complaint.kind? = some kind) :
    rejection.failure = .fault ⟨kind, rejection.complaint.message.asString, 0, rejection.addr,
      rejection.line?.map fun line => (line.1 : Int), rejection.line?.map (·.2), none⟩ := by
  simp only [failure, reported]

theorem Rejection.failure_of_unreported (rejection : Rejection)
    (unreported : rejection.complaint.kind? = none) :
    rejection.failure = .breach .emptyStatement := by
  simp only [failure, unreported]

section Operands

variable (labels : List (Text × Nat)) (mnemonic : Mnemonic) (operand : Text)
  (complaint : Complaint)

theorem readRegister_error (refused : readRegister mnemonic operand = .error complaint) :
    complaint.kind? = some .invalidOperand := by
  unfold readRegister at refused
  split at refused
  · cases refused
  · cases refused
    rfl

theorem readImmediate_error (refused : readImmediate operand = .error complaint) :
    complaint.kind? = some .invalidOperand := by
  unfold readImmediate at refused
  split at refused
  · cases refused
    rfl
  · split at refused
    · cases refused
    · cases refused
      rfl

theorem readTarget_error (refused : readTarget labels operand = .error complaint) :
    (operand.head?.any Text.isDigitLike = false ∧ labels.lookup operand.upper = none ∧
      complaint = .unknownLabel operand) ∨ complaint.kind? = some .invalidOperand := by
  unfold readTarget at refused
  split at refused
  · exact .inr (readImmediate_error operand complaint refused)
  · rename_i letter
    split at refused
    · rename_i missing
      cases refused
      exact .inl ⟨by simpa using letter, missing, rfl⟩
    · split at refused
      · cases refused
      · cases refused
        exact .inr rfl

end Operands

theorem encode_error (labels : List (Text × Nat)) (addr : Nat) (mnemonic : Mnemonic)
    (operands : List Text) (complaint : Complaint)
    (refused : encode labels addr mnemonic operands = .error complaint) :
    (∃ operand, (mnemonic = .jmp ∨ mnemonic = .jnc) ∧ operands = [operand] ∧
      operand.head?.any Text.isDigitLike = false ∧ labels.lookup operand.upper = none ∧
      complaint = .unknownLabel operand) ∨ complaint.kind? = some .invalidOperand := by
  unfold encode at refused
  split at refused
  · rcases (bind_error_iff _ _ _).mp refused with first | ⟨register, _, tail⟩
    · exact .inr (readRegister_error _ _ complaint first)
    · rcases (bind_error_iff _ _ _).mp tail with second | ⟨n, _, impossible⟩
      · exact .inr (readImmediate_error _ complaint second)
      · cases impossible
  · rcases (bind_error_iff _ _ _).mp refused with first | ⟨register, _, tail⟩
    · exact .inr (readRegister_error _ _ complaint first)
    · split at tail
      · split at tail
        · cases tail
          exact .inr rfl
        · cases tail
      · rcases (bind_error_iff _ _ _).mp tail with second | ⟨n, _, impossible⟩
        · exact .inr (readImmediate_error _ complaint second)
        · cases impossible
  · rcases (bind_error_iff _ _ _).mp refused with first | ⟨register, _, impossible⟩
    · exact .inr (readRegister_error _ _ complaint first)
    · cases impossible
  · split at refused
    · cases refused
    · cases refused
      exact .inr rfl
    · rcases (bind_error_iff _ _ _).mp refused with first | ⟨n, _, impossible⟩
      · exact .inr (readImmediate_error _ complaint first)
      · cases impossible
  · cases refused
  · rcases (bind_error_iff _ _ _).mp refused with first | ⟨n, _, impossible⟩
    · rcases readTarget_error labels _ complaint first with unknown | invalid
      · exact .inl ⟨_, .inl rfl, rfl, unknown⟩
      · exact .inr invalid
    · cases impossible
  · rcases (bind_error_iff _ _ _).mp refused with first | ⟨n, _, impossible⟩
    · rcases readTarget_error labels _ complaint first with unknown | invalid
      · exact .inl ⟨_, .inr rfl, rfl, unknown⟩
      · exact .inr invalid
    · cases impossible
  · cases refused
    exact .inr rfl

theorem instruction_unreported_iff (labels : List (Text × Nat)) (statement : Statement)
    (complaint : Complaint) (refused : statement.instruction labels = .error complaint) :
    complaint.kind? = none ↔ tokens statement.body = [] := by
  unfold Statement.instruction at refused
  split at refused
  · rename_i wordless
    cases refused
    exact iff_of_true rfl wordless
  · rename_i word operands spoken
    have reported : complaint.kind? ≠ none := by
      split at refused
      · cases refused
        exact Option.some_ne_none _
      · rename_i mnemonic named
        rcases encode_error labels statement.addr mnemonic operands complaint refused with
          ⟨operand, _, _, _, _, rfl⟩ | invalid
        · exact Option.some_ne_none _
        · rw [invalid]
          exact Option.some_ne_none _
    rw [spoken]
    exact iff_of_false reported (List.cons_ne_nil word operands)

theorem assemble_statement_error_iff (labels : List (Text × Nat)) (statement : Statement)
    (rejection : Rejection) :
    statement.assemble labels = .error rejection ↔
      ∃ complaint, statement.instruction labels = .error complaint ∧
        rejection = ⟨complaint, statement.addr, some (statement.line, statement.source)⟩ := by
  unfold Statement.assemble
  cases statement.instruction labels <;> simp [eq_comm]

namespace Layout

theorem add_error (layout : Layout) (line : Line) (rejection : Rejection)
    (refused : layout.add line = .error rejection) :
    (∃ name, line.label? = some name ∧ name ∈ layout.names ∧
      rejection = ⟨.duplicateLabel name, 0, some (line.number, line.source)⟩) ∨
    (line.body.isEmpty = false ∧ 16 ≤ layout.next ∧
      rejection = ⟨.tooLarge, layout.next, some (line.number, line.source)⟩) := by
  unfold add at refused
  split at refused
  · rename_i labelled accepted
    rcases (addLabel_ok_iff layout labelled line).mp accepted with ⟨_, rfl⟩
    unfold addStatement at refused
    split at refused
    · cases refused
    · rename_i present
      split at refused
      · cases refused
      · rename_i full
        cases refused
        exact .inr ⟨by simpa using present, Nat.le_of_not_lt full, rfl⟩
  · rename_i rejection' unlabelled
    cases refused
    unfold addLabel at unlabelled
    split at unlabelled
    · cases unlabelled
    · rename_i name label
      split at unlabelled
      · rename_i known
        cases unlabelled
        exact .inl ⟨name, label, (lookup_isSome_iff layout.labels name).mp known, rfl⟩
      · cases unlabelled

theorem foldlM_reported (layout : Layout) (lines : List Line) (rejection : Rejection)
    (refused : lines.foldlM add layout = .error rejection) :
    rejection.complaint.kind? ≠ none := by
  induction lines generalizing layout with
  | nil => cases refused
  | cons line rest ih =>
      rw [List.foldlM_cons, bind_error_iff] at refused
      rcases refused with here | ⟨middle, _, later⟩
      · rcases add_error layout line rejection here with ⟨name, _, _, rfl⟩ | ⟨_, _, rfl⟩
        · exact Option.some_ne_none _
        · exact Option.some_ne_none _
      · exact ih middle later

end Layout

theorem assemble_error_iff (source : Text) (rejection : Rejection) :
    assemble source = .error rejection ↔
      Layout.ofLines (readLines source) = .error rejection ∨
      ((layoutOf source).Sound ∧ (layoutOf source).statements = [] ∧
        rejection = ⟨.noInstructions, 0, none⟩) ∨
      ((layoutOf source).Sound ∧
        ∃ before statement after,
          (layoutOf source).statements = before ++ statement :: after ∧
          (∀ earlier ∈ before, ∃ entry, earlier.assemble (layoutOf source).labels = .ok entry) ∧
          statement.assemble (layoutOf source).labels = .error rejection) := by
  unfold assemble
  rw [bind_error_iff]
  apply or_congr_right
  simp only [Layout.ofLines_ok_iff]
  constructor
  · intro given
    rcases given with ⟨layout, ⟨sound, rfl⟩, refused⟩
    split at refused
    · rename_i empty
      cases refused
      exact .inl ⟨sound, List.isEmpty_iff.mp empty, rfl⟩
    · rcases (bind_error_iff _ _ _).mp refused with statements | ⟨instructions, _, impossible⟩
      · exact .inr ⟨sound, (mapM_error_iff _ _ _).mp statements⟩
      · cases impossible
  · intro given
    rcases given with ⟨sound, empty, rfl⟩ | ⟨sound, bad⟩
    · refine ⟨layoutOf source, ⟨sound, rfl⟩, ?_⟩
      rw [if_pos (List.isEmpty_iff.mpr empty)]
    · have present : ¬ (layoutOf source).statements.isEmpty = true := by
        rcases bad with ⟨before, statement, after, split, _, _⟩
        simp [split]
      refine ⟨layoutOf source, ⟨sound, rfl⟩, ?_⟩
      rw [if_neg present, bind_error_iff]
      exact .inl ((mapM_error_iff _ _ _).mpr bad)

theorem statements_tokens (source : Text) :
    (layoutOf source).statements.map (fun statement => tokens statement.body) =
      statementsOf ((readLines source).map Line.contents) :=
  Layout.statements_contents 0 (readLines source)

theorem assembles_iff_spells (source : Text) (sound : (layoutOf source).Sound)
    (statement : Statement) :
    (∃ entry, statement.assemble (layoutOf source).labels = .ok entry) ↔
      ∃ form, Spells ((readLines source).map Line.contents) (tokens statement.body) form := by
  simp only [assemble_statement_iff source sound]
  constructor
  · rintro ⟨entry, form, spells, _⟩
    exact ⟨form, spells⟩
  · rintro ⟨form, spells⟩
    exact ⟨_, form, spells, rfl⟩

/-- A source that can be laid out is refused for the first of its statements whose words spell no
form, at the address and the line of that statement. -/
theorem refused_at_first (source : Text) (lines : List CodeLine) (before after : List (List Text))
    (words : List Text) (complaint : Complaint) (reads : Reads source lines)
    (distinct : (labelsOf lines).Nodup) (fits : (statementsOf lines).length ≤ 16)
    (split : statementsOf lines = before ++ words :: after)
    (earlier : ∀ words ∈ before, ∃ form, Spells lines words form)
    (stuck : ∀ labels (statement : Statement), tokens statement.body = words →
      statement.instruction labels = .error complaint) :
    ∃ number raw, Stands lines before.length number words ∧
      (Text.lines source)[number - 1]? = some raw ∧
      assemble source = .error ⟨complaint, before.length, some (number, raw.trim)⟩ := by
  cases (reads_source_iff source lines).mp reads
  have sound : (layoutOf source).Sound := (Layout.sound_iff _).mpr ⟨distinct, fits⟩
  rw [← statements_tokens] at split
  rcases List.map_eq_append_iff.mp split with ⟨first, second, laid, rfl, rest⟩
  rcases List.map_eq_cons_iff.mp rest with ⟨statement, others, rfl, spoken, _⟩
  have found : (layoutOf source).statements[first.length]? = some statement := by
    rw [laid, List.getElem?_append_right (Nat.le_refl _), Nat.sub_self]
    rfl
  have place : statement.addr = first.length :=
    (Layout.statementsFrom_addr 0 (readLines source) _ statement found).trans (Nat.zero_add _)
  rcases stands_of_statement source _ statement found with ⟨index, raw, given, line, text, stands⟩
  have bad := (assemble_statement_error_iff (layoutOf source).labels statement _).mpr
    ⟨_, stuck _ statement spoken, rfl⟩
  have accepted : ∀ other ∈ first,
      ∃ entry, other.assemble (layoutOf source).labels = .ok entry := by
    intro other among
    exact (assembles_iff_spells source sound other).mpr
      (earlier _ (List.mem_map.mpr ⟨other, among, rfl⟩))
  rw [place, line, text] at bad
  rw [List.length_map, ← spoken]
  exact ⟨index + 1, raw, stands, given, (assemble_error_iff source _).mpr
    (.inr (.inr ⟨sound, first, statement, others, laid, accepted, bad⟩))⟩

end Assembly

end FourBit
