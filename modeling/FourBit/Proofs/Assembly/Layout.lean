import FourBit.Proofs.Assembly.Reading

namespace FourBit.Assembly

open Reference

namespace Layout

def labelsFrom (addr : Nat) : List Line → List (Text × Nat)
  | [] => []
  | line :: rest =>
    (line.label?.map (·, addr)).toList ++
      labelsFrom (if line.body.isEmpty then addr else addr + 1) rest

def statementsFrom (addr : Nat) : List Line → List Statement
  | [] => []
  | line :: rest =>
    if line.body.isEmpty then statementsFrom addr rest
    else ⟨addr, line.number, line.source, line.body⟩ :: statementsFrom (addr + 1) rest

def extend (layout : Layout) (lines : List Line) : Layout :=
  ⟨layout.labels ++ labelsFrom layout.next lines,
    layout.statements ++ statementsFrom layout.next lines⟩

def names (layout : Layout) : List Text := layout.labels.map Prod.fst

/-- No label twice and no statement beyond the end of the memory. -/
structure Sound (layout : Layout) : Prop where
  distinct : layout.names.Nodup
  fits : layout.next ≤ 16

theorem extend_nil (layout : Layout) : layout.extend [] = layout := by
  simp only [extend, labelsFrom, statementsFrom, List.append_nil]

theorem extend_cons (layout : Layout) (line : Line) (rest : List Line) :
    layout.extend (line :: rest) = (layout.extend [line]).extend rest := by
  cases blank : line.body.isEmpty <;>
    simp [extend, labelsFrom, statementsFrom, next, blank]

theorem names_labelsFrom (addr : Nat) (lines : List Line) :
    (labelsFrom addr lines).map Prod.fst = lines.filterMap Line.label? := by
  induction lines generalizing addr with
  | nil => rfl
  | cons line rest ih =>
      cases label : line.label? <;> simp [labelsFrom, label, ih]

theorem names_extend (layout : Layout) (lines : List Line) :
    (layout.extend lines).names = layout.names ++ lines.filterMap Line.label? := by
  simp only [names, extend, List.map_append, names_labelsFrom]

theorem next_extend (layout : Layout) (lines : List Line) :
    (layout.extend lines).next = layout.next + (statementsFrom layout.next lines).length :=
  List.length_append

theorem lookup_isSome_iff (labels : List (Text × Nat)) (name : Text) :
    (labels.lookup name).isSome = true ↔ name ∈ labels.map Prod.fst := by
  rw [List.lookup_isSome_iff, List.mem_map]
  simp only [beq_iff_eq]
  exact exists_congr fun entry => and_congr_right fun _ => eq_comm

theorem addLabel_ok_iff (layout after : Layout) (line : Line) :
    layout.addLabel line = .ok after ↔
      (∀ name ∈ line.label?, name ∉ layout.names) ∧
        after = ⟨layout.labels ++ labelsFrom layout.next [line], layout.statements⟩ := by
  cases label : line.label? with
  | none => simpa [addLabel, labelsFrom, label] using eq_comm
  | some name =>
      by_cases known : name ∈ layout.names
      · have found := (lookup_isSome_iff layout.labels name).mpr known
        simp [addLabel, label, found, known]
      · have missing : (layout.labels.lookup name).isSome = false := by
          rw [← Bool.not_eq_true, lookup_isSome_iff]
          exact known
        simp [addLabel, labelsFrom, label, missing, known, eq_comm]

theorem addStatement_ok_iff (layout after : Layout) (line : Line) :
    layout.addStatement line = .ok after ↔
      (line.body.isEmpty = false → layout.next < 16) ∧
        after = ⟨layout.labels, layout.statements ++ statementsFrom layout.next [line]⟩ := by
  cases blank : line.body.isEmpty with
  | true => simpa [addStatement, statementsFrom, blank] using eq_comm
  | false =>
      by_cases room : layout.next < 16
      · simp [addStatement, statementsFrom, blank, room, eq_comm]
      · simp [addStatement, blank, room]

theorem add_ok_iff (layout after : Layout) (line : Line) :
    layout.add line = .ok after ↔
      (∀ name ∈ line.label?, name ∉ layout.names) ∧
        (line.body.isEmpty = false → layout.next < 16) ∧ after = layout.extend [line] := by
  unfold add
  cases labelled : layout.addLabel line with
  | error rejection =>
      have refused : ¬ ∀ name ∈ line.label?, name ∉ layout.names := by
        intro fresh
        have accepted := (addLabel_ok_iff layout _ line).mpr ⟨fresh, rfl⟩
        cases labelled.symm.trans accepted
      simp only [reduceCtorEq, refused, false_and]
  | ok middle =>
      rcases (addLabel_ok_iff layout middle line).mp labelled with ⟨fresh, rfl⟩
      simp only [addStatement_ok_iff, extend]
      exact (and_iff_right fresh).symm

theorem sound_extend_one (layout : Layout) (line : Line) (sound : layout.Sound) :
    (layout.extend [line]).Sound ↔
      (∀ name ∈ line.label?, name ∉ layout.names) ∧
        (line.body.isEmpty = false → layout.next < 16) := by
  have names : (layout.extend [line]).names.Nodup ↔
      ∀ name ∈ line.label?, name ∉ layout.names := by
    rw [names_extend, List.nodup_append]
    cases label : line.label? with
    | none => simp [label, sound.distinct]
    | some name =>
        simp only [List.filterMap_cons, label, List.filterMap_nil, List.mem_singleton,
          sound.distinct, true_and, Option.mem_some_iff, forall_eq']
        constructor
        · rintro ⟨_, apart⟩ known
          exact apart name known name rfl rfl
        · intro fresh
          refine ⟨by simp, ?_⟩
          rintro other known _ rfl rfl
          exact fresh known
  have room : (layout.extend [line]).next ≤ 16 ↔
      (line.body.isEmpty = false → layout.next < 16) := by
    rw [next_extend]
    cases blank : line.body.isEmpty with
    | true => simpa [statementsFrom, blank] using sound.fits
    | false =>
        have single : (statementsFrom layout.next [line]).length = 1 := by
          simp [statementsFrom, blank]
        rw [single]
        simp only [true_implies]
        omega
  constructor
  · intro longer
    exact ⟨names.mp longer.distinct, room.mp longer.fits⟩
  · intro both
    rcases both with ⟨fresh, enough⟩
    exact ⟨names.mpr fresh, room.mpr enough⟩

theorem sound_of_extend (layout : Layout) (lines : List Line)
    (sound : (layout.extend lines).Sound) : layout.Sound := by
  rcases sound with ⟨distinct, fits⟩
  rw [names_extend] at distinct
  rw [next_extend] at fits
  exact ⟨(List.nodup_append.mp distinct).1, by omega⟩

theorem foldlM_ok_iff (layout after : Layout) (lines : List Line) (sound : layout.Sound) :
    lines.foldlM add layout = .ok after ↔
      (layout.extend lines).Sound ∧ after = layout.extend lines := by
  induction lines generalizing layout with
  | nil => simp [extend_nil, sound, pure, Except.pure, eq_comm]
  | cons line rest ih =>
      rw [List.foldlM_cons, extend_cons]
      cases added : layout.add line with
      | error rejection =>
          have refused : ¬ (layout.extend [line]).Sound := by
            intro longer
            rcases (sound_extend_one layout line sound).mp longer with ⟨fresh, room⟩
            have accepted := (add_ok_iff layout _ line).mpr ⟨fresh, room, rfl⟩
            cases added.symm.trans accepted
          constructor
          · intro impossible
            cases impossible
          · intro both
            rcases both with ⟨longest, _⟩
            exact (refused (sound_of_extend _ rest longest)).elim
      | ok middle =>
          rcases (add_ok_iff layout middle line).mp added with ⟨fresh, room, rfl⟩
          exact ih _ ((sound_extend_one layout line sound).mpr ⟨fresh, room⟩)

theorem empty_sound : empty.Sound := ⟨List.nodup_nil, by decide⟩

theorem ofLines_ok_iff (lines : List Line) (layout : Layout) :
    ofLines lines = .ok layout ↔ (empty.extend lines).Sound ∧ layout = empty.extend lines :=
  foldlM_ok_iff empty layout lines empty_sound

theorem labels_contents (lines : List Line) :
    labelsOf (lines.map Line.contents) = lines.filterMap Line.label? :=
  List.filterMap_map

theorem statements_contents (addr : Nat) (lines : List Line) :
    (statementsFrom addr lines).map (fun statement => tokens statement.body) =
      statementsOf (lines.map Line.contents) := by
  induction lines generalizing addr with
  | nil => rfl
  | cons line rest ih =>
      have tail := ih (if line.body.isEmpty then addr else addr + 1)
      unfold statementsOf at tail ⊢
      cases blank : line.body.isEmpty <;>
        simpa [statementsFrom, Line.contents, blank] using tail

theorem length_statementsFrom (addr : Nat) (lines : List Line) :
    (statementsFrom addr lines).length = (statementsOf (lines.map Line.contents)).length := by
  rw [← statements_contents addr lines, List.length_map]

theorem statementsFrom_addr (first : Nat) (lines : List Line) (place : Nat) (statement : Statement)
    (present : (statementsFrom first lines)[place]? = some statement) :
    statement.addr = first + place := by
  induction lines generalizing first place with
  | nil => cases present
  | cons line rest ih =>
      unfold statementsFrom at present
      split at present
      · exact ih first place present
      · cases place with
        | zero =>
            cases present
            rfl
        | succ place =>
            rw [ih (first + 1) place present]
            omega

theorem statements_cons (line : CodeLine) (rest : List CodeLine) :
    statementsOf (line :: rest) = line.statement?.toList ++ statementsOf rest := by
  cases stated : line.statement? <;> simp [statementsOf, stated]

theorem defines_cons_iff (line : CodeLine) (rest : List CodeLine) (name : Text) (addr : Nat) :
    Defines (line :: rest) name addr ↔
      (line.label? = some name ∧ addr = 0) ∨
        ∃ later, Defines rest name later ∧ addr = line.statement?.toList.length + later := by
  have size (before : List CodeLine) : (statementsOf (line :: before)).length =
      line.statement?.toList.length + (statementsOf before).length := by
    rw [statements_cons, List.length_append]
  constructor
  · intro given
    rcases given with ⟨before, found, after, split, label, rfl⟩
    cases before with
    | nil =>
        cases split
        exact .inl ⟨label, rfl⟩
    | cons first before =>
        cases split
        exact .inr ⟨_, ⟨before, found, after, rfl, label, rfl⟩, size before⟩
  · intro either
    rcases either with ⟨label, rfl⟩ | ⟨later, ⟨before, found, after, rfl, label, rfl⟩, rfl⟩
    · exact ⟨[], line, rest, rfl, label, rfl⟩
    · exact ⟨line :: before, found, after, rfl, label, (size before).symm⟩

theorem mem_labelsFrom_iff (first : Nat) (lines : List Line) (name : Text) (addr : Nat) :
    (name, addr) ∈ labelsFrom first lines ↔
      ∃ offset, Defines (lines.map Line.contents) name offset ∧ addr = first + offset := by
  induction lines generalizing first with
  | nil => simp [labelsFrom, Defines]
  | cons line rest ih =>
      have here : (name, addr) ∈ (line.label?.map (·, first)).toList ↔
          line.contents.label? = some name ∧ addr = first := by
        simpa [Line.contents] using fun _ => eq_comm
      have size : (if line.body.isEmpty then first else first + 1) =
          first + line.contents.statement?.toList.length := by
        cases blank : line.body.isEmpty <;> simp [Line.contents, blank]
      rw [labelsFrom, List.mem_append, here, ih, size, List.map_cons]
      simp only [defines_cons_iff]
      constructor
      · intro either
        rcases either with ⟨label, rfl⟩ | ⟨later, defined, rfl⟩
        · exact ⟨0, .inl ⟨label, rfl⟩, rfl⟩
        · exact ⟨_, .inr ⟨later, defined, rfl⟩, Nat.add_assoc _ _ _⟩
      · intro given
        rcases given with ⟨offset, ⟨label, rfl⟩ | ⟨later, defined, rfl⟩, rfl⟩
        · exact .inl ⟨label, rfl⟩
        · exact .inr ⟨later, defined, (Nat.add_assoc _ _ _).symm⟩

theorem names_laidOut (lines : List Line) :
    (empty.extend lines).names = labelsOf (lines.map Line.contents) := by
  rw [names_extend, labels_contents]
  rfl

theorem next_laidOut (lines : List Line) :
    (empty.extend lines).next = (statementsOf (lines.map Line.contents)).length := by
  rw [next_extend, length_statementsFrom]
  exact Nat.zero_add _

theorem sound_iff (lines : List Line) :
    (empty.extend lines).Sound ↔
      (labelsOf (lines.map Line.contents)).Nodup ∧
        (statementsOf (lines.map Line.contents)).length ≤ 16 := by
  have names := names_laidOut lines
  have next := next_laidOut lines
  constructor
  · intro both
    rcases both with ⟨distinct, fits⟩
    exact ⟨names ▸ distinct, next ▸ fits⟩
  · intro both
    rcases both with ⟨distinct, fits⟩
    exact ⟨names.symm ▸ distinct, next.symm ▸ fits⟩

theorem lookup_iff_mem (labels : List (Text × Nat)) (name : Text) (addr : Nat)
    (distinct : (labels.map Prod.fst).Nodup) :
    labels.lookup name = some addr ↔ (name, addr) ∈ labels := by
  induction labels with
  | nil => simp
  | cons entry rest ih =>
      rcases entry with ⟨first, place⟩
      rcases List.nodup_cons.mp distinct with ⟨fresh, others⟩
      by_cases same : name = first
      · have absent : (first, addr) ∉ rest := fun later =>
          fresh (List.mem_map.mpr ⟨_, later, rfl⟩)
        simp [same, absent, eq_comm]
      · have different : (name == first) = false := by simpa using same
        simp [List.lookup_cons, different, ih others, same]

theorem lookup_iff_defines (lines : List Line) (name : Text) (addr : Nat)
    (sound : (empty.extend lines).Sound) :
    (empty.extend lines).labels.lookup name = some addr ↔
      Defines (lines.map Line.contents) name addr := by
  rw [lookup_iff_mem _ name addr sound.distinct]
  have members := mem_labelsFrom_iff 0 lines name addr
  simpa [extend, empty, next] using members

end Layout

end FourBit.Assembly
