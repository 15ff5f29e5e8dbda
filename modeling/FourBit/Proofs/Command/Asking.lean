import Mathlib.Data.List.Forall2
import FourBit.Command.Session
import FourBit.Proofs.Assembly.Forms
import FourBit.Proofs.Shown

/-! Command lines that ask for a run: what they ask for, and that every choice of samples, count,
policy and trace can be asked for. -/

namespace FourBit.Command

/-- An invocation asks for a run with some options, of an image or of a source, and for no listing.
-/
structure Invocation.Orders (asked : Invocation) (image : Bool) (options : RunOptions) : Prop where
  image : asked.image = image
  listing : asked.listing = false
  inputs : asked.inputs = options.inputs
  count : asked.maxSteps? = some (options.maxSteps : Int)
  policy : asked.policy? = some options.policy
  trace : asked.trace = options.trace

/-- A command line asks for a run with some options, and the file that it names has some content. -/
def Asks (arguments : List Text) (files : FileTree) (image : Bool) (content : List UInt8)
    (options : RunOptions) : Prop :=
  ∃ asked, Invocation.ofArguments arguments = .ok asked ∧ asked.Orders image options ∧
    (Path.ofText asked.program).hasNul = false ∧
    files.read (.ofText asked.program) = .ok content

theorem ofName_name (policy : HaltPolicy) : HaltPolicy.ofName? policy.name = some policy := by
  cases policy <;> rfl

theorem Invocation.Orders.options {asked : Invocation} {image : Bool} {options : RunOptions}
    (orders : asked.Orders image options) : asked.options = .ok options := by
  have enough : (1 : Int) ≤ options.maxSteps := Int.ofNat_le.mpr options.positive
  simp only [Invocation.options, orders.policy, orders.count, orders.trace, orders.inputs,
    RunOptions.ofFields, ofName_name, enough, dif_pos, Int.toNat_natCast]

def Flag.long : Flag → Text
  | help => "--help".toList
  | image => "--image".toList
  | input => "--input".toList
  | maxSteps => "--max-steps".toList
  | haltPolicy => "--halt-policy".toList
  | listing => "--listing".toList
  | trace => "--trace".toList
  | verbose => "--verbose".toList

def commandLine (samples : List Text) (count : Text) (policy : HaltPolicy) (trace image : Bool)
    (name : Text) : List Text :=
  samples.flatMap (fun sample => [Flag.input.long, sample]) ++
    Flag.maxSteps.long :: count :: Flag.haltPolicy.long :: policy.name.toList ::
      ((if trace then [Flag.trace.long] else []) ++
        ((if image then [Flag.image.long] else []) ++ [name]))

def IsPlain (t : Text) : Prop := t.head? ≠ some '-'

instance (t : Text) : Decidable (IsPlain t) := inferInstanceAs (Decidable (_ ≠ _))

namespace IsPlain

variable {t : Text} (free : IsPlain t)

include free

theorem ne_dashes : t ≠ ['-', '-'] := by
  rintro rfl
  exact free rfl

theorem not_struckOut : Draft.struckOut t = false := by
  simpa [Draft.struckOut] using free.ne_dashes

theorem read : Word.read t = .ok (.plain t) := by
  unfold Word.read
  split
  · exact (free rfl).elim
  · rfl

end IsPlain

namespace Word

variable (rest : List Text) (words : List Word)

theorem readAll_cons (t : Text) (word : Word) (other : t ≠ ['-', '-']) (given : read t = .ok word)
    (later : readAll rest = .ok words) : readAll (t :: rest) = .ok (word :: words) := by
  rw [readAll, if_neg other, given, later]
  rfl

theorem readAll_plain (t : Text) (free : IsPlain t) (later : readAll rest = .ok words) :
    readAll (t :: rest) = .ok (.plain t :: words) :=
  readAll_cons rest words t _ free.ne_dashes free.read later

theorem readAll_long (flag : Flag) (later : readAll rest = .ok words) :
    readAll (flag.long :: rest) = .ok (.option flag false none :: words) := by
  apply readAll_cons rest words flag.long _ _ _ later
  · cases flag <;> decide
  · cases flag <;> rfl

theorem readAll_switch (flag : Flag) (given : Bool) (later : readAll rest = .ok words) :
    readAll ((if given then [flag.long] else []) ++ rest) =
      .ok ((if given then [.option flag false none] else []) ++ words) := by
  cases given with
  | false => exact later
  | true => exact readAll_long rest words flag later

end Word

namespace Draft

variable (draft after : Draft) (flag : Flag) (rest : List Word)

theorem addWords_value (value : Text) (takes : flag.takesValue = true)
    (set : draft.setValue flag value = .ok after) :
    draft.addWords (.option flag false none :: .plain value :: rest) = after.addWords rest := by
  have cluster : Cluster.read flag false none = .ok ⟨[], some (flag, none)⟩ := by
    rw [Cluster.read, if_pos takes]
  rw [addWords, cluster]
  simp only [setSwitches, List.foldlM_nil, pure_bind, setOption, set]
  rfl

theorem addWords_switch (switches : flag.takesValue = false)
    (set : draft.setSwitch flag = .ok after) :
    draft.addWords (.option flag false none :: rest) = after.addWords rest := by
  have cluster : Cluster.read flag false none = .ok ⟨[flag], none⟩ := by
    rw [Cluster.read, switches]
    rfl
  rw [addWords, cluster]
  simp only [setSwitches, List.foldlM_cons, List.foldlM_nil, set]
  rfl

theorem addWords_switch_if (given : Bool) (switches : flag.takesValue = false)
    (set : draft.setSwitch flag = .ok after) :
    draft.addWords ((if given then [.option flag false none] else []) ++ rest) =
      (if given then after else draft).addWords rest := by
  cases given with
  | false => rfl
  | true => exact addWords_switch draft after flag rest switches set

theorem addWords_last (name : Text) (fresh : draft.program? = none) :
    draft.addWords [.plain name] = .ok { draft with program? := some name } := by
  simp only [addWords, addPlain, fresh]

def feed (draft : Draft) (inputs : List Datum) : Draft :=
  { draft with invocation := { draft.invocation with inputs := draft.invocation.inputs ++ inputs } }

end Draft

def sampleWords (samples : List Text) : List Word :=
  samples.flatMap fun sample => [.option .input false none, .plain sample]

def closingWords (count : Text) (policy : HaltPolicy) (trace image : Bool) (name : Text) :
    List Word :=
  .option .maxSteps false none :: .plain count :: .option .haltPolicy false none ::
    .plain policy.name.toList ::
      ((if trace then [.option .trace false none] else []) ++
        ((if image then [.option .image false none] else []) ++ [.plain name]))

theorem readAll_samples (samples rest : List Text) (words : List Word)
    (free : ∀ sample ∈ samples, IsPlain sample) (later : Word.readAll rest = .ok words) :
    Word.readAll (samples.flatMap (fun sample => [Flag.input.long, sample]) ++ rest) =
      .ok (sampleWords samples ++ words) := by
  induction samples with
  | nil => exact later
  | cons sample samples ih =>
      have others := ih fun other listed => free other (List.mem_cons_of_mem sample listed)
      apply Word.readAll_long _ _ .input
      exact Word.readAll_plain _ _ sample (free sample List.mem_cons_self) others

theorem readAll_commandLine (samples : List Text) (count name : Text) (policy : HaltPolicy)
    (trace image : Bool) (samples_free : ∀ sample ∈ samples, IsPlain sample)
    (count_free : IsPlain count) (name_free : IsPlain name) :
    Word.readAll (commandLine samples count policy trace image name) =
      .ok (sampleWords samples ++ closingWords count policy trace image name) := by
  apply readAll_samples samples _ _ samples_free
  apply Word.readAll_long _ _ .maxSteps
  apply Word.readAll_plain _ _ count count_free
  apply Word.readAll_long _ _ .haltPolicy
  apply Word.readAll_plain _ _ policy.name.toList (by cases policy <;> decide)
  apply Word.readAll_switch _ _ .trace
  apply Word.readAll_switch _ _ .image
  exact Word.readAll_plain [] [] name name_free rfl

theorem addWords_samples (draft : Draft) (samples : List Text) (inputs : List Datum)
    (rest : List Word) (free : ∀ sample ∈ samples, IsPlain sample)
    (fed : List.Forall₂ (fun sample input => Draft.readSample sample = .ok input) samples inputs) :
    draft.addWords (sampleWords samples ++ rest) = (draft.feed inputs).addWords rest := by
  induction fed generalizing draft with
  | nil => simp only [Draft.feed, List.append_nil, sampleWords, List.flatMap_nil, List.nil_append]
  | @cons sample input samples inputs first _ ih =>
      have plain := (free sample List.mem_cons_self).not_struckOut
      have set : draft.setValue .input sample = .ok (draft.feed [input]) := by
        simp only [Draft.setValue, plain, Bool.false_eq_true, if_false, first]
        rfl
      have later := ih (draft.feed [input]) fun other listed =>
        free other (List.mem_cons_of_mem sample listed)
      have joined : (draft.feed [input]).feed inputs = draft.feed (input :: inputs) := by
        simp only [Draft.feed, List.append_assoc, List.singleton_append]
      rw [← joined, ← later]
      exact Draft.addWords_value draft _ .input _ sample rfl set

theorem addWords_closing (draft : Draft) (count name : Text) (n : Int) (policy : HaltPolicy)
    (trace image : Bool) (fresh : draft.program? = none) (free : IsPlain count)
    (counted : Draft.readCount count = .ok n) :
    draft.addWords (closingWords count policy trace image name) =
      .ok { draft with
        program? := some name,
        invocation := { draft.invocation with
          maxSteps? := some n, policy? := some policy,
          trace := draft.invocation.trace || trace, image := draft.invocation.image || image } } := by
  have count_set : draft.setValue .maxSteps count =
      .ok { draft with invocation := { draft.invocation with maxSteps? := some n } } := by
    simp only [Draft.setValue, free.not_struckOut, Bool.false_eq_true, if_false, counted]
    rfl
  have policy_set (d : Draft) : d.setValue .haltPolicy policy.name.toList =
      .ok { d with invocation := { d.invocation with policy? := some policy } } := by
    cases policy <;> rfl
  rw [closingWords, Draft.addWords_value draft _ .maxSteps _ count rfl count_set,
    Draft.addWords_value _ _ .haltPolicy _ _ rfl (policy_set _),
    Draft.addWords_switch_if _ _ .trace _ trace rfl rfl,
    Draft.addWords_switch_if _ _ .image _ image rfl rfl, Draft.addWords_last]
  · cases trace <;> cases image <;> simp only [Bool.or_false, Bool.or_true] <;> rfl
  · cases trace <;> cases image <;> exact fresh

theorem asks_commandLine (samples : List Text) (count name : Text) (image : Bool)
    (options : RunOptions) (files : FileTree) (content : List UInt8)
    (samples_free : ∀ sample ∈ samples, IsPlain sample)
    (fed : List.Forall₂ (fun sample input => Draft.readSample sample = .ok input) samples
      options.inputs)
    (count_free : IsPlain count) (counted : Draft.readCount count = .ok options.maxSteps)
    (name_free : IsPlain name) (named : (Path.ofText name).hasNul = false)
    (present : files.read (.ofText name) = .ok content) :
    Asks (commandLine samples count options.policy options.trace image name) files image content
      options := by
  have words := readAll_commandLine samples count name options.policy options.trace image
    samples_free count_free name_free
  have taken := (addWords_samples .empty samples options.inputs _ samples_free fed).trans
    (addWords_closing (Draft.empty.feed options.inputs) count name options.maxSteps options.policy
      options.trace image rfl count_free counted)
  refine ⟨⟨name, image, options.inputs, some options.maxSteps, some options.policy, false,
    options.trace, 0⟩, ?_, ⟨rfl, rfl, rfl, rfl, rfl, rfl⟩, named, present⟩
  rw [Invocation.ofArguments, words]
  simp only [Except.mapError, bind, Except.bind, taken]
  rfl

def Draft.Shown (draft : Draft) : Prop :=
  ∀ input ∈ draft.invocation.inputs, input.isShown = true

namespace Draft

variable {draft after : Draft} (shown : draft.Shown)

include shown

theorem Shown.of_inputs (same : after.invocation.inputs = draft.invocation.inputs) :
    after.Shown := by
  unfold Shown
  rw [same]
  exact shown

theorem Shown.addPlain (t : Text) : (draft.addPlain t).Shown := by
  apply shown.of_inputs
  unfold Draft.addPlain
  split <;> rfl

theorem Shown.setSwitch (flag : Flag) (set : draft.setSwitch flag = .ok after) : after.Shown := by
  apply shown.of_inputs
  cases flag <;> cases set <;> rfl

theorem Shown.setSwitches (switches : List Flag) (set : draft.setSwitches switches = .ok after) :
    after.Shown := by
  unfold Draft.setSwitches at set
  induction switches generalizing draft with
  | nil =>
      cases set
      exact shown
  | cons flag rest ih =>
      rw [List.foldlM_cons, bind_ok_iff] at set
      obtain ⟨next, first, others⟩ := set
      exact ih (shown.setSwitch flag first) others

omit shown in
theorem readSample_shown (t : Text) (sample : Datum) (read : readSample t = .ok sample) :
    sample.isShown = true := by
  unfold readSample at read
  split at read
  · cases read
  · rename_i value _
    by_cases small : 0 ≤ value ∧ value ≤ 15
    · rw [if_pos small] at read
      cases read
      exact Datum.isShown_of_nibble (dif_pos small)
    · rw [if_neg small] at read
      cases read

theorem Shown.feed (sample : Datum) (last : sample.isShown = true) :
    (draft.feed [sample]).Shown := by
  intro input listed
  rcases List.mem_append.mp listed with before | new
  · exact shown input before
  · rw [List.mem_singleton.mp new]
    exact last

theorem Shown.setValue (flag : Flag) (value : Text) (set : draft.setValue flag value = .ok after) :
    after.Shown := by
  cases flag with
  | input =>
      simp only [Draft.setValue] at set
      by_cases dashes : struckOut value = true
      · rw [if_pos dashes] at set
        cases set
        exact shown.feed (.list []) rfl
      · rw [if_neg dashes, bind_ok_iff] at set
        obtain ⟨sample, read, same⟩ := set
        cases same
        exact shown.feed sample (readSample_shown value sample read)
  | maxSteps | haltPolicy =>
      simp only [Draft.setValue] at set
      by_cases dashes : struckOut value = true
      · rw [if_pos dashes] at set
        cases set
        exact shown
      · rw [if_neg dashes, bind_ok_iff] at set
        obtain ⟨_, _, same⟩ := set
        cases same
        exact shown
  | help | image | listing | trace | verbose =>
      cases set
      exact shown

theorem Shown.setOption (flag : Flag) (value : Text)
    (set : draft.setOption flag value = .ok after) : after.Shown := by
  unfold Draft.setOption at set
  cases taken : draft.setValue flag value with
  | error refusal =>
      rw [taken] at set
      cases set
  | ok next =>
      rw [taken] at set
      cases set
      exact shown.setValue flag value taken

theorem Shown.option (switches : List Flag) (last : Flag) (value : Text) (rest : List Word)
    (added : (do
      let switched ← draft.setSwitches switches
      let set ← switched.setOption last value
      set.addWords rest) = .ok after) :
    ∃ set : Draft, set.Shown ∧ set.addWords rest = .ok after := by
  obtain ⟨switched, first, others⟩ := (bind_ok_iff _ _ _).mp added
  obtain ⟨set, second, others⟩ := (bind_ok_iff _ _ _).mp others
  exact ⟨set, (shown.setSwitches switches first).setOption last value second, others⟩

theorem Shown.addWords (words : List Word) (added : draft.addWords words = .ok after) :
    after.Shown := by
  -- Of the ways in which words are taken only an option with a value adds a sample.
  fun_induction draft.addWords words with
  | case1 =>
      cases added
      exact shown
  | case2 draft t _ _ later | case4 draft t _ _ later => exact later (shown.addPlain t) added
  | case3 _ _ _ _ later | case5 _ _ _ later | case6 _ _ _ later | case7 _ _ _ later =>
      exact later shown added
  | case8 | case12 => cases added
  | case9 _ _ _ _ _ switches _ later =>
      obtain ⟨switched, first, others⟩ := (bind_ok_iff _ _ _).mp added
      exact later switched (shown.setSwitches switches first) others
  | case10 _ _ _ _ rest switches last value _ later
  | case11 _ _ _ _ switches last _ value rest later =>
      obtain ⟨set, kept, others⟩ := shown.option switches last value rest added
      exact later set kept others

theorem Shown.finish (asked : Invocation) (finished : draft.finish = .ok asked) :
    ∀ sample ∈ asked.inputs, sample.isShown = true := by
  unfold Draft.finish at finished
  split at finished
  · cases finished
  · split at finished
    · cases finished
      exact shown
    · cases finished

end Draft

/-- An accepted command line brings no sample that a message could not show. -/
theorem Asks.shown {arguments : List Text} {files : FileTree} {image : Bool} {content : List UInt8}
    {options : RunOptions} (asks : Asks arguments files image content options) :
    ∀ sample ∈ options.inputs, sample.isShown = true := by
  obtain ⟨asked, given, orders, _⟩ := asks
  obtain ⟨words, _, taken⟩ := (bind_ok_iff _ _ _).mp given
  obtain ⟨draft, added, ending⟩ := (bind_ok_iff _ _ _).mp taken
  have nothing : Draft.empty.Shown := fun _ listed => (List.not_mem_nil listed).elim
  have shown : draft.Shown := nothing.addWords words added
  rw [← orders.inputs]
  cases finished : draft.finish with
  | error refusal =>
      rw [finished] at ending
      cases ending
  | ok last =>
      rw [finished] at ending
      cases ending
      exact shown.finish asked finished

end FourBit.Command
