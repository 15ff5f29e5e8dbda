import FourBit.Proofs.Machine.Turn

/-! The loop of a run: what a step does to its progress, what every step keeps, and how a budget
splits in two. -/

namespace FourBit.Progress

variable (rom : Rom) (devices : Devices) (options : RunOptions)

/-- A step from one progress to the next has executed an instruction and, if there is a trace,
recorded it. -/
structure Stepped (p q : Progress) (cell : Cell) (i : Instruction) (after : Machine) : Prop where
  fetched : fetch rom p.machine.cpu.pc = .ok (cell, i)
  executed : Machine.execute devices i ⟨p.machine.cpu, p.machine.ports.clear⟩ = (after, none)
  cpu : q.machine.cpu = { after.cpu with halted := q.machine.cpu.halted }
  ports : q.machine.ports = after.ports
  steps : q.steps = p.steps + 1
  addr : q.addr = p.machine.cpu.pc
  rows : q.rows = if options.trace then .ofStep q.steps q.addr cell i q.machine :: p.rows
    else p.rows

theorem step_none (p q : Progress) (taken : p.step rom devices options = (q, none)) :
    ∃ cell i after, p.Stepped rom devices options q cell i after := by
  unfold step at taken
  cases fetched : fetch rom p.machine.cpu.pc with
  | error fault =>
      simp only [fetched] at taken
      cases taken
  | ok found =>
      obtain ⟨cell, i⟩ := found
      cases executed : Machine.execute devices i ⟨p.machine.cpu, p.machine.ports.clear⟩ with
      | mk after outcome =>
          cases outcome with
          | some failure =>
              simp only [fetched, executed] at taken
              cases taken
          | none =>
              simp only [fetched, executed] at taken
              cases taken
              exact ⟨cell, i, after, fetched, executed, rfl, rfl, rfl, rfl, rfl⟩

theorem step_some (p q : Progress) (failure : Failure)
    (taken : p.step rom devices options = (q, some failure)) :
    p.machine.turn rom devices = (q.machine, some failure) ∧ q.steps = p.steps ∧
      q.addr = p.machine.cpu.pc ∧ q.rows = p.rows := by
  unfold step at taken
  cases fetched : fetch rom p.machine.cpu.pc with
  | error fault =>
      simp only [fetched] at taken
      cases taken
      exact ⟨by simp only [Machine.turn, fetched], rfl, rfl, rfl⟩
  | ok found =>
      obtain ⟨cell, i⟩ := found
      cases executed : Machine.execute devices i ⟨p.machine.cpu, p.machine.ports.clear⟩ with
      | mk left outcome =>
          cases outcome with
          | some failure =>
              simp only [fetched, executed] at taken
              cases taken
              exact ⟨by simp only [Machine.turn, fetched, executed], rfl, rfl, rfl⟩
          | none =>
              simp only [fetched, executed] at taken
              cases taken

theorem step_congr (first second : RunOptions) (policy : first.policy = second.policy)
    (trace : first.trace = second.trace) (p : Progress) :
    p.step rom devices first = p.step rom devices second := by
  unfold step
  rw [policy, trace]

theorem iterate_congr (first second : RunOptions) (policy : first.policy = second.policy)
    (trace : first.trace = second.trace) (budget : Nat) (p : Progress) :
    p.iterate rom devices first budget = p.iterate rom devices second budget := by
  induction budget generalizing p with
  | zero => rfl
  | succ budget ih =>
      have same := step_congr rom devices first second policy trace p
      simp only [iterate, same, ih]

theorem iterate_halted (budget : Nat) (p : Progress) (halted : p.machine.cpu.halted = true) :
    p.iterate rom devices options budget = (p, none) := by
  cases budget with
  | zero => rfl
  | succ budget => simp only [iterate, halted, if_true]

theorem iterate_add (first second : Nat) (p : Progress) :
    p.iterate rom devices options (first + second) =
      match p.iterate rom devices options first with
      | (q, none) => q.iterate rom devices options second
      | (q, some failure) => (q, some failure) := by
  induction first generalizing p with
  | zero =>
      rw [Nat.zero_add]
      rfl
  | succ first ih =>
      rw [Nat.succ_add]
      cases halted : p.machine.cpu.halted with
      | true => simp only [iterate_halted rom devices options _ p halted]
      | false =>
          simp only [iterate, halted, Bool.false_eq_true, if_false]
          cases p.step rom devices options with
          | mk q outcome =>
              cases outcome with
              | none => exact ih q
              | some failure => rfl

/-- So many steps, none of which fails, lead from one progress to another. -/
inductive Leads : Nat → Progress → Progress → Prop
  | here (p : Progress) : Leads 0 p p
  | onward (n : Nat) (p q r : Progress) (running : p.machine.cpu.halted = false)
      (taken : p.step rom devices options = (q, none)) (rest : Leads n q r) : Leads (n + 1) p r

theorem iterate_leads (budget : Nat) (p q : Progress) (failure? : Option Failure)
    (ran : p.iterate rom devices options budget = (q, failure?)) :
    (failure? = none ∧ ∃ n, n ≤ budget ∧ Leads rom devices options n p q ∧
      (q.machine.cpu.halted = true ∨ n = budget)) ∨
    ∃ failure n before, failure? = some failure ∧ n < budget ∧
      Leads rom devices options n p before ∧
      before.step rom devices options = (q, some failure) := by
  induction budget generalizing p with
  | zero =>
      cases ran
      exact .inl ⟨rfl, 0, Nat.le_refl 0, .here _, .inr rfl⟩
  | succ budget ih =>
      cases halted : p.machine.cpu.halted with
      | true =>
          rw [iterate_halted rom devices options _ p halted] at ran
          cases ran
          exact .inl ⟨rfl, 0, Nat.zero_le _, .here _, .inl halted⟩
      | false =>
          simp only [iterate, halted, Bool.false_eq_true, if_false] at ran
          cases taken : p.step rom devices options with
          | mk r outcome =>
              rw [taken] at ran
              cases outcome with
              | some failure =>
                  cases ran
                  exact .inr ⟨failure, 0, p, rfl, Nat.zero_lt_succ _, .here p, taken⟩
              | none =>
                  rcases ih r ran with ⟨sound, n, within, leads, stop⟩ |
                    ⟨failure, n, before, same, within, leads, last⟩
                  · exact .inl ⟨sound, n + 1, Nat.succ_le_succ within,
                      .onward n p r q halted taken leads, stop.imp id (congrArg (· + 1))⟩
                  · exact .inr ⟨failure, n + 1, before, same, Nat.succ_lt_succ within,
                      .onward n p r before halted taken leads, last⟩

namespace Leads

variable {rom devices options} {n : Nat} {p q : Progress}

theorem keeps (leads : Leads rom devices options n p q) (kept : Progress → Prop)
    (step : ∀ p q cell i after, kept p → p.Stepped rom devices options q cell i after → kept q)
    (base : kept p) : kept q := by
  induction leads with
  | here p => exact base
  | onward n p q r running taken rest ih =>
      obtain ⟨cell, i, after, stepped⟩ := step_none rom devices options p q taken
      exact ih (step p q cell i after base stepped)

theorem steps (leads : Leads rom devices options n p q) : q.steps = p.steps + n := by
  induction leads with
  | here p => rfl
  | onward n p q r running taken rest ih =>
      obtain ⟨cell, i, after, stepped⟩ := step_none rom devices options p q taken
      rw [ih, stepped.steps]
      omega

end Leads

/-- What every step keeps, and every turn that fails, is kept however far a loop gets. -/
theorem iterate_keeps (kept : Progress → Prop)
    (step : ∀ p q cell i after, kept p → p.Stepped rom devices options q cell i after → kept q)
    (fail : ∀ p q failure, kept p → p.machine.turn rom devices = (q.machine, some failure) →
      q.steps = p.steps → q.rows = p.rows → kept q)
    (budget : Nat) (p : Progress) (base : kept p) :
    kept (p.iterate rom devices options budget).1 := by
  cases ran : p.iterate rom devices options budget with
  | mk q failure? =>
      rcases iterate_leads rom devices options budget p q failure? ran with
        ⟨_, n, _, leads, _⟩ | ⟨failure, n, before, _, _, leads, taken⟩
      · exact leads.keeps kept step base
      · have earlier := leads.keeps kept step base
        obtain ⟨turned, steps, _, rows⟩ := step_some rom devices options before q failure taken
        exact fail before q failure earlier turned steps rows

/-- What a run makes of the end of its loop. -/
inductive Finished (program? : Option Program) :
    Progress × Option Failure → Except Breach RunResult → Prop
  | failed (p : Progress) (fault : Fault) :
      Finished program? (p, some (.fault fault))
        (.ok (p.result .error (some (p.locate program? fault))))
  | broken (p : Progress) (breach : Breach) :
      Finished program? (p, some (.breach breach)) (.error breach)
  | halted (p : Progress) (halted : p.machine.cpu.halted = true) :
      Finished program? (p, none) (.ok (p.result .halt none))
  | spent (p : Progress) (running : p.machine.cpu.halted = false)
      (policy : options.policy = .stepBudget) :
      Finished program? (p, none) (.ok (p.result .stepBudget none))
  | exceeded (p : Progress) (running : p.machine.cpu.halted = false)
      (policy : options.policy = .selfLoop) :
      Finished program? (p, none)
        (.ok (p.result .error (some (p.locate program? (stepLimitFault options.maxSteps)))))

theorem runWith_finished (program? : Option Program) :
    Finished options program? (start.iterate rom devices options options.maxSteps)
      (runWith rom devices options program?) := by
  unfold runWith
  cases start.iterate rom devices options options.maxSteps with
  | mk p failure? =>
      cases failure? with
      | some failure =>
          cases failure with
          | fault fault => exact .failed p fault
          | breach breach => exact .broken p breach
      | none =>
          cases halted : p.machine.cpu.halted with
          | true =>
              simp only [halted, if_true]
              exact .halted p halted
          | false =>
              simp only [halted, Bool.false_eq_true, if_false]
              cases policy : options.policy with
              | stepBudget => exact .spent p halted policy
              | selfLoop => exact .exceeded p halted policy

theorem finished_of_run (supplier? : Option Supplier) (sink? : Option Sink)
    (program? : Option Program) (result : RunResult)
    (ran : run rom supplier? sink? options program? = .ok result) :
    Finished options program?
      (start.iterate rom (options.devices supplier? sink?) options options.maxSteps)
      (.ok result) := by
  have finished := runWith_finished rom (options.devices supplier? sink?) options program?
  have same : runWith rom (options.devices supplier? sink?) options program? = .ok result := ran
  rw [same] at finished
  exact finished

theorem Finished.ends {program? : Option Program} {p : Progress} {failure? : Option Failure}
    {result : RunResult}
    (finished : Finished options program? (p, failure?) (.ok result)) :
    result.machine = p.machine ∧ result.steps = p.steps ∧ result.trace = p.rows.reverse := by
  cases finished with
  | failed | halted | spent | exceeded => exact ⟨rfl, rfl, rfl⟩

end FourBit.Progress
