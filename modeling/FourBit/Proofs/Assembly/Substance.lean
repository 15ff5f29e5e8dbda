import FourBit.Proofs.Assembly.LetterCase

/-! What assembly depends on: the labels of lines, and the words of their statements in lower case.
Lines without either are as good as absent. -/

namespace FourBit.Assembly

open Reference
open Text (lowered)

/-- Both are accepted and a view of the values is the same, or both are refused for errors of one
class at one address. -/
inductive Alike {α β : Type} (view : α → β) : Except Rejection α → Except Rejection α → Prop
  | accepted (first second : α) (same : view first = view second) :
      Alike view (.ok first) (.ok second)
  | refused (first second : Rejection) (kind : first.complaint.kind? = second.complaint.kind?)
      (addr : first.addr = second.addr) : Alike view (.error first) (.error second)

theorem Alike.bind {α β γ δ : Type} {view : α → β} {after : γ → δ}
    {first second : Except Rejection α} {next other : α → Except Rejection γ}
    (alike : Alike view first second)
    (more : ∀ a b, view a = view b → Alike after (next a) (other b)) :
    Alike after (first >>= next) (second >>= other) := by
  cases alike with
  | accepted a b same => exact more a b same
  | refused first second kind addr => exact .refused first second kind addr

def SameOutcome : Except Rejection Program → Except Rejection Program → Prop :=
  Alike fun program => (program.words, program.labels)

def Line.substance (line : Line) : CodeLine := line.contents.lowered

def Statement.substance (statement : Statement) : Nat × List Text :=
  (statement.addr, (tokens statement.body).map lowered)

def Layout.substance (layout : Layout) : List (Text × Nat) × List (Nat × List Text) :=
  (layout.labels, layout.statements.map Statement.substance)

/-- The lines of a source that have a label or a statement. -/
def substance (source : Text) : List CodeLine :=
  ((readLines source).map Line.substance).filter (· ≠ ⟨none, none⟩)

section Statements

variable (labels : List (Text × Nat)) {first second : Statement}
  (same : first.substance = second.substance)

include same

theorem instruction_alike : (first.instruction labels).mapError Complaint.kind? =
    (second.instruction labels).mapError Complaint.kind? := by
  rcases Prod.ext_iff.mp same with ⟨addr, words⟩
  simp only [Statement.substance] at addr words
  unfold Statement.instruction
  cases mine : tokens first.body with
  | nil =>
      rw [mine, List.map_nil, eq_comm, List.map_eq_nil_iff] at words
      rw [words]
  | cons word operands =>
      cases yours : tokens second.body with
      | nil => simp [mine, yours] at words
      | cons word' operands' =>
          simp only [mine, yours, List.map_cons, List.cons.injEq] at words
          have upper : word.upper = word'.upper := by
            rw [← Text.upper_lowered word, words.1, Text.upper_lowered]
          simp only [upper]
          cases Mnemonic.ofName? word'.upper with
          | none => rfl
          | some mnemonic =>
              simp only [addr]
              rw [← encode_lowered, words.2, encode_lowered]

theorem statement_alike :
    Alike (·.instruction.byte) (first.assemble labels) (second.assemble labels) := by
  have addr : first.addr = second.addr := congrArg Prod.fst same
  have graded := instruction_alike labels same
  unfold Statement.assemble
  cases mine : first.instruction labels with
  | ok instruction =>
      cases yours : second.instruction labels with
      | ok other =>
          rw [mine, yours] at graded
          cases graded
          exact .accepted _ _ rfl
      | error complaint =>
          rw [mine, yours] at graded
          cases graded
  | error complaint =>
      cases yours : second.instruction labels with
      | ok other =>
          rw [mine, yours] at graded
          cases graded
      | error other =>
          rw [mine, yours] at graded
          exact .refused _ _ (Except.error.inj graded) addr

end Statements

theorem statements_alike (labels : List (Text × Nat)) (first second : List Statement)
    (same : first.map Statement.substance = second.map Statement.substance) :
    Alike (List.map (·.instruction.byte)) (first.mapM (Statement.assemble labels))
      (second.mapM (Statement.assemble labels)) := by
  induction first generalizing second with
  | nil =>
      cases second with
      | nil => exact .accepted [] [] rfl
      | cons _ _ => cases same
  | cons statement rest ih =>
      cases second with
      | nil => cases same
      | cons other others =>
          simp only [List.map_cons, List.cons.injEq] at same
          rw [List.mapM_cons, List.mapM_cons]
          refine (statement_alike labels same.1).bind fun a b byte => ?_
          refine (ih others same.2).bind fun as bs bytes => ?_
          refine .accepted _ _ ?_
          rw [List.map_cons, List.map_cons, byte, bytes]

namespace Layout

theorem next_of_substance {first second : Layout} (same : first.substance = second.substance) :
    first.next = second.next := by
  have statements := congrArg (·.2.length) same
  simp only [substance, List.length_map] at statements
  exact statements

section Lines

variable {first second : Layout} (same : first.substance = second.substance) {line other : Line}

include same

theorem addLabel_alike (label : line.label? = other.label?) :
    Alike substance (first.addLabel line) (second.addLabel other) := by
  have next := next_of_substance same
  rcases Prod.ext_iff.mp same with ⟨labels, statements⟩
  simp only [substance] at labels statements
  simp only [addLabel, label, labels, next]
  cases other.label? with
  | none => exact .accepted _ _ same
  | some name =>
      simp only
      split
      · exact .refused _ _ rfl rfl
      · refine .accepted _ _ ?_
        simp only [substance, statements]

theorem addStatement_alike (said : line.substance.statement? = other.substance.statement?) :
    Alike substance (first.addStatement line) (second.addStatement other) := by
  have next := next_of_substance same
  rcases Prod.ext_iff.mp same with ⟨labels, statements⟩
  simp only [substance] at labels statements
  simp only [Line.substance, CodeLine.lowered, Line.contents] at said
  unfold addStatement
  cases mine : line.body.isEmpty with
  | true =>
      cases yours : other.body.isEmpty with
      | true => exact .accepted _ _ same
      | false => simp [mine, yours] at said
  | false =>
      cases yours : other.body.isEmpty with
      | true => simp [mine, yours] at said
      | false =>
          simp only [mine, yours, Bool.false_eq_true, if_false, Option.map_some,
            Option.some.injEq] at said
          rw [if_neg Bool.false_ne_true, if_neg Bool.false_ne_true, next]
          split
          · refine .accepted _ _ ?_
            simp only [substance, List.map_append, statements, labels, List.map_cons,
              List.map_nil, Statement.substance, said]
          · exact .refused _ _ rfl rfl

theorem add_alike (said : line.substance = other.substance) :
    Alike substance (first.add line) (second.add other) := by
  have bound (layout : Layout) (line : Line) :
      layout.add line = layout.addLabel line >>= (·.addStatement line) := by
    rw [add]
    cases layout.addLabel line <;> rfl
  rw [bound, bound]
  refine (addLabel_alike same (congrArg CodeLine.label? said)).bind fun a b labelled => ?_
  exact addStatement_alike labelled (congrArg CodeLine.statement? said)

end Lines

theorem foldlM_alike (lines others : List Line)
    (said : lines.map Line.substance = others.map Line.substance) (first second : Layout)
    (same : first.substance = second.substance) :
    Alike substance (lines.foldlM add first) (others.foldlM add second) := by
  induction lines generalizing others first second with
  | nil =>
      cases others with
      | nil => exact .accepted first second same
      | cons _ _ => cases said
  | cons line rest ih =>
      cases others with
      | nil => cases said
      | cons other others =>
          simp only [List.map_cons, List.cons.injEq] at said
          rw [List.foldlM_cons, List.foldlM_cons]
          exact (add_alike same said.1).bind fun a b added => ih others said.2 a b added

theorem add_silent (layout : Layout) (line : Line) (silent : line.substance = ⟨none, none⟩) :
    layout.add line = .ok layout := by
  have label : line.label? = none := congrArg CodeLine.label? silent
  have body : line.body.isEmpty = true := by
    have said := congrArg CodeLine.statement? silent
    cases empty : line.body.isEmpty with
    | true => rfl
    | false => simp [Line.substance, CodeLine.lowered, Line.contents, empty] at said
  simp only [add, addLabel, label, addStatement, body, if_true]

theorem foldlM_silent (lines : List Line) (layout : Layout) :
    (lines.filter (·.substance ≠ ⟨none, none⟩)).foldlM add layout = lines.foldlM add layout := by
  induction lines generalizing layout with
  | nil => rfl
  | cons line rest ih =>
      by_cases silent : line.substance = ⟨none, none⟩
      · rw [List.filter_cons_of_neg (by simpa using silent), List.foldlM_cons,
          add_silent layout line silent, ih]
        rfl
      · rw [List.filter_cons_of_pos (by simpa using silent), List.foldlM_cons, List.foldlM_cons]
        exact congrArg (layout.add line >>= ·) (funext ih)

theorem ofLines_alike (source other : Text)
    (same : Assembly.substance source = Assembly.substance other) :
    Alike substance (ofLines (readLines source)) (ofLines (readLines other)) := by
  unfold Assembly.substance at same
  rw [List.filter_map, List.filter_map] at same
  have folded := foldlM_alike _ _ same empty empty rfl
  simp only [Function.comp_def] at folded
  rwa [foldlM_silent, foldlM_silent] at folded

end Layout

theorem assemble_alike (source other : Text) (same : substance source = substance other) :
    SameOutcome (assemble source) (assemble other) := by
  refine (Layout.ofLines_alike source other same).bind fun layout layout' laid => ?_
  rcases Prod.ext_iff.mp laid with ⟨labels, statements⟩
  simp only [Layout.substance] at labels statements
  have empty : layout.statements.isEmpty = layout'.statements.isEmpty := by
    simpa using congrArg List.isEmpty statements
  rw [empty, labels]
  split
  · exact .refused _ _ rfl rfl
  · refine (statements_alike layout'.labels _ _ statements).bind fun a b bytes => ?_
    refine .accepted _ _ ?_
    simp only [Program.words, bytes]

end FourBit.Assembly
