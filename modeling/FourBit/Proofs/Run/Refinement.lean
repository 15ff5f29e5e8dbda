import FourBit.Proofs.Reference.Machine
import FourBit.Proofs.Run.Stumbling

/-! Runs against the reference machine: every step of the one is a step of the other, and both stop
at one place and for one reason. -/

namespace FourBit

theorem Opcode.code_jmp (opcode : Opcode) : (opcode.code : Nat) = 15 ↔ opcode = .jmp := by
  cases opcode <;> decide

theorem Opcode.code_jnc (opcode : Opcode) : (opcode.code : Nat) = 14 ↔ opcode = .jnc := by
  cases opcode <;> decide

namespace Reference

def State.registers (s : State) : Registers := ⟨s.a, s.b, s.carry, s.pc, s.input, s.output⟩

/-- A machine stands where a configuration of the reference machine stands. -/
structure Tracks (c : Config) (m : Machine) : Prop where
  registers : m.cpu.registers = c.state.registers
  taken : m.ports.asked = c.taken
  written : m.ports.outputs = c.written.map Int.ofNat
  inside : m.cpu.InRange

theorem tracks_zero : Tracks .zero Machine.start :=
  ⟨rfl, rfl, rfl, Cpu.start_inRange⟩

def wordsOf (rom : Rom) : List Nat := rom.bytes.map Fin.val

theorem act_of_unassigned (code operand sample : Nat) (s : State)
    (unassigned : Opcode.ofCode? code = none) : s.act code operand sample = none := by
  unfold State.act
  split <;> first | rfl | cases unassigned

theorem sample_replayed (samples : List (Fin 16)) (c : Config) :
    ∃ n : Fin 16, c.sample (samples.map Fin.val) = n ∧
      Supplier.replay ((Datum.ofNibbles samples).map .ok) c.taken = .ok (.int (n : Nat)) := by
  rcases Nat.lt_or_ge c.taken samples.length with within | beyond
  · refine ⟨samples[c.taken], ?_, ?_⟩
    · simp [Config.sample, within]
    · have place : min c.taken (samples.length - 1) = c.taken := by omega
      simp [Supplier.replay, Datum.ofNibbles, place, within]
  · rcases samples.eq_nil_or_concat with rfl | ⟨front, last, rfl⟩
    · exact ⟨0, rfl, rfl⟩
    · have place : min c.taken front.length = front.length := by
        simp only [List.concat_eq_append, List.length_append, List.length_singleton] at beyond
        omega
      have outside : (front.map Fin.val ++ [last.val])[c.taken]? = none := by
        simpa using beyond
      refine ⟨last, ?_, ?_⟩
      · simp [Config.sample, outside]
      · simp [Supplier.replay, Datum.ofNibbles, place]

theorem onward_registers (cpu : Cpu) (s : State) (same : cpu.registers = s.registers) :
    cpu.advance.registers = s.onward.registers := by
  simp only [Cpu.registers, State.registers, Registers.mk.injEq] at same
  rcases same with ⟨a, b, carry, pc, input, output⟩
  simp only [Cpu.registers, Cpu.advance, State.registers, State.onward, a, b, carry, pc, input,
    output, nibble, Registers.mk.injEq, true_and, and_true]
  omega

theorem jump_registers (cpu : Cpu) (s : State) (operand : Fin 16)
    (same : cpu.registers = s.registers) :
    (cpu.jump operand).registers = State.registers { s with pc := operand } := by
  simp only [Cpu.registers, State.registers, Registers.mk.injEq] at same
  simp only [Cpu.registers, Cpu.jump, State.registers, same, nibble_operand]

theorem sum_carry (n operand : Nat) :
    (if (n : Int) + operand > 15 then 1 else 0 : Int) =
      ((if 15 < n + operand then 1 else 0 : Nat) : Int) := by
  by_cases large : 15 < n + operand
  · have large' : (n : Int) + operand > 15 := by omega
    simp only [large, large', if_true]
    rfl
  · have small : ¬ (n : Int) + operand > 15 := by omega
    simp only [large, small, if_false]
    rfl

theorem execute_tracks (samples : List (Fin 16)) (i : Instruction) (c : Config) (m : Machine)
    (tracks : Tracks c m) :
    ∃ s m', c.state.act i.opcode.code i.operand (c.sample (samples.map Fin.val)) = some s ∧
      Machine.execute (.replaying (Datum.ofNibbles samples)) i m = (m', none) ∧
      m'.cpu.registers = s.registers ∧
      m'.ports.asked = (if (i.opcode.code : Nat) = 2 ∨ (i.opcode.code : Nat) = 6 then c.taken + 1
        else c.taken) ∧
      m'.ports.outputs = (if (i.opcode.code : Nat) = 9 ∨ (i.opcode.code : Nat) = 11 then
        c.written ++ [s.output] else c.written).map Int.ofNat := by
  rcases tracks with ⟨registers, taken, written, inside⟩
  rcases sample_replayed samples c with ⟨n, sample, replayed⟩
  rw [← taken] at replayed
  have given (register : Register) :=
    Machine.receive_of_sample (.replaying (Datum.ofNibbles samples)) register m _ n replayed
      (Datum.nibble_of_fin n)
  have same := registers
  simp only [Cpu.registers, State.registers, Registers.mk.injEq] at same
  have a : nibble (c.state.a : Int) = c.state.a := by
    rw [← same.1]
    exact nibble_of_range _ inside.a.1 inside.a.2
  have b : nibble (c.state.b : Int) = c.state.b := by
    rw [← same.2.1]
    exact nibble_of_range _ inside.b.1 inside.b.2
  rcases i with ⟨opcode, operand⟩
  cases opcode with
  | addA | addB =>
      refine ⟨_, _, rfl, rfl, onward_registers _ _ ?_, ?_, ?_⟩
      · simp only [Cpu.registers, Cpu.add, Cpu.set, Cpu.get, State.registers, same, sum_carry,
          nibble, Registers.mk.injEq, true_and, and_true]
        omega
      · exact taken
      · exact written
  | movAB | movBA | movA | movB =>
      refine ⟨_, _, rfl, rfl, onward_registers _ _ ?_, ?_, ?_⟩
      · simp only [Cpu.registers, Cpu.set, State.registers, a, b, nibble_operand, same]
      · exact taken
      · exact written
  | inA | inB =>
      refine ⟨_, _, rfl, given _, onward_registers _ _ ?_, ?_, ?_⟩
      · simp only [Cpu.registers, Cpu.set, State.registers, nibble_operand, sample, same]
      · exact congrArg (· + 1) taken
      · exact written
  | outB | outIm =>
      refine ⟨_, _, rfl, rfl, onward_registers _ _ ?_, ?_, ?_⟩
      · simp only [Cpu.registers, State.registers, same]
      · exact taken
      · show _ = (c.written ++ [_]).map Int.ofNat
        rw [List.map_append, ← written]
        simp [Ports.outputs, State.onward, nibble_operand, b, same]
  | jmp =>
      refine ⟨_, _, rfl, rfl, jump_registers _ _ operand registers, ?_, ?_⟩
      · exact taken
      · exact written
  | jnc =>
      refine ⟨_, _, rfl, rfl, ?_, ?_, ?_⟩
      · by_cases clear : c.state.carry = 0
        · have clear' : m.cpu.carry = 0 := by rw [same.2.2.1, clear]; rfl
          rw [if_pos clear', if_pos clear]
          exact jump_registers _ _ operand registers
        · have set : m.cpu.carry ≠ 0 := by omega
          rw [if_neg set, if_neg clear]
          exact onward_registers _ _ registers
      · exact taken
      · exact written

theorem fetch_tracks (rom : Rom) (c : Config) (m : Machine) (tracks : Tracks c m) :
    (∃ cell i, fetch rom m.cpu.pc = .ok (cell, i) ∧
      c.word (wordsOf rom) / 16 = i.opcode.code ∧ c.word (wordsOf rom) % 16 = i.operand) ∨
    (∃ fault, fetch rom m.cpu.pc = .error fault ∧
      Opcode.ofCode? (c.word (wordsOf rom) / 16) = none) := by
  have pc : m.cpu.pc = c.state.pc := congrArg Registers.pc tracks.registers
  have size := rom.length_eq
  have inside : c.state.pc < rom.cells.length := by
    have high := tracks.inside.pc.2
    omega
  have present : rom.cells[c.state.pc]? = some rom.cells[c.state.pc] :=
    List.getElem?_eq_getElem inside
  have word : c.word (wordsOf rom) = rom.cells[c.state.pc].value := by
    simp [Config.word, wordsOf, Rom.bytes, List.getD, present]
  rw [pc, fetch_at rom _ _ present, word]
  generalize rom.cells[c.state.pc].value = byte
  cases found : Instruction.ofByte? byte with
  | some i =>
      have same := congrArg Fin.val (Instruction.byte_of_ofByte? found)
      simp only [Instruction.byte] at same
      refine .inl ⟨_, i, rfl, ?_, ?_⟩ <;> omega
  | none => exact .inr ⟨_, rfl, by simpa [Instruction.ofByte?] using found⟩

theorem step_tracks (rom : Rom) (samples : List (Fin 16)) (c : Config) (m : Machine)
    (tracks : Tracks c m) :
    (∃ next after, c.step (wordsOf rom) (samples.map Fin.val) = some next ∧
      m.next? rom (.replaying (Datum.ofNibbles samples)) = some after ∧ Tracks next after) ∨
    (∃ fault, c.step (wordsOf rom) (samples.map Fin.val) = none ∧
      m.turn rom (.replaying (Datum.ofNibbles samples)) = (m, some (.fault fault))) := by
  rcases fetch_tracks rom c m tracks with
    ⟨cell, i, fetched, code, operand⟩ | ⟨fault, missing, unassigned⟩
  · have cleared : Tracks c ⟨m.cpu, m.ports.clear⟩ := { tracks with }
    rcases execute_tracks samples i c _ cleared with
      ⟨s, after, acted, executed, registers, taken, written⟩
    have moved := Machine.next_of_execute rom _ m after cell i fetched executed
    have kept := Machine.execute_inRange (.replaying (Datum.ofNibbles samples)) i
      ⟨m.cpu, m.ports.clear⟩ tracks.inside
    rw [executed] at kept
    have stepped : c.step (wordsOf rom) (samples.map Fin.val) =
        some ⟨s, if (i.opcode.code : Nat) = 2 ∨ (i.opcode.code : Nat) = 6 then c.taken + 1
            else c.taken,
          if (i.opcode.code : Nat) = 9 ∨ (i.opcode.code : Nat) = 11 then c.written ++ [s.output]
            else c.written⟩ := by
      simp only [Config.step, code, operand, acted, Option.map_some]
    exact .inl ⟨_, after, stepped, moved, registers, taken, written, kept⟩
  · refine .inr ⟨fault, ?_, ?_⟩
    · simp only [Config.step, act_of_unassigned _ _ _ _ unassigned, Option.map_none]
    · simp only [Machine.turn, missing]

theorem step_of_moved (rom : Rom) (samples : List (Fin 16)) (c : Config) (m after : Machine)
    (tracks : Tracks c m)
    (moved : m.next? rom (.replaying (Datum.ofNibbles samples)) = some after) :
    ∃ next, c.step (wordsOf rom) (samples.map Fin.val) = some next ∧ Tracks next after := by
  rcases step_tracks rom samples c m tracks with
    ⟨next, after', stepped, moved', later⟩ | ⟨fault, _, turned⟩
  · cases moved.symm.trans moved'
    exact ⟨next, stepped, later⟩
  · have stuck := (Machine.next_none_iff rom _ m).mpr ⟨_, _, turned⟩
    cases moved.symm.trans stuck

theorem step_of_failed (rom : Rom) (samples : List (Fin 16)) (c : Config) (m left : Machine)
    (failure : Failure) (tracks : Tracks c m)
    (turned : m.turn rom (.replaying (Datum.ofNibbles samples)) = (left, some failure)) :
    c.step (wordsOf rom) (samples.map Fin.val) = none ∧ m = left := by
  rcases step_tracks rom samples c m tracks with
    ⟨next, after, _, moved, _⟩ | ⟨fault, stuck, turned'⟩
  · have failing := (Machine.next_none_iff rom _ m).mpr ⟨_, _, turned⟩
    cases moved.symm.trans failing
  · exact ⟨stuck, congrArg Prod.fst (turned'.symm.trans turned)⟩

theorem spins_tracks (rom : Rom) (c : Config) (m : Machine) (tracks : Tracks c m) :
    m.spins rom = true ↔ c.jumpsToItself (wordsOf rom) := by
  have pc : m.cpu.pc = c.state.pc := congrArg Registers.pc tracks.registers
  have carry : m.cpu.carry = c.state.carry := congrArg Registers.carry tracks.registers
  rcases fetch_tracks rom c m tracks with
    ⟨cell, i, fetched, code, operand⟩ | ⟨fault, missing, unassigned⟩
  · rw [Machine.spins_of_fetch rom m cell i fetched, pc, carry]
    unfold Config.jumpsToItself
    rw [code, operand, Opcode.code_jmp, Opcode.code_jnc]
    simp only [Instruction.isSelfLoop, Instruction.isJump]
    cases i.opcode with
    | jmp =>
        simp only [Opcode.isJump, Bool.true_and, BEq.rfl, Bool.true_or, Bool.and_true, beq_iff_eq,
          Int.ofNat_inj, reduceCtorEq, false_and, or_false, and_true]
    | jnc =>
        simp only [Opcode.isJump, Bool.true_and, Bool.and_eq_true, beq_iff_eq, Int.ofNat_inj,
          Bool.or_eq_true, reduceCtorEq, Int.natCast_eq_zero, false_or, true_and]
    | addA | movAB | inA | movA | movBA | addB | inB | movB | outB | outIm =>
        simp only [Opcode.isJump, Bool.false_and, Bool.false_eq_true, reduceCtorEq, false_and,
          or_self, and_false]
  · have silent : m.spins rom = false := by simp only [Machine.spins, missing]
    rw [silent]
    refine ⟨fun spinning => (Bool.false_ne_true spinning).elim, ?_⟩
    intro given
    rcases given with ⟨_, jump | ⟨jump, _⟩⟩
    · rw [jump] at unassigned
      cases unassigned
    · rw [jump] at unassigned
      cases unassigned

theorem endsAt_tracks (policy : HaltPolicy) (rom : Rom) (c : Config) (m : Machine)
    (tracks : Tracks c m) :
    policy.endsAt rom m = true ↔ policy = .selfLoop ∧ c.jumpsToItself (wordsOf rom) := by
  rw [← spins_tracks rom c m tracks, HaltPolicy.endsAt, Bool.and_eq_true, beq_iff_eq]

theorem run_of_alive (policy : HaltPolicy) (rom : Rom) (samples : List (Fin 16)) (k : Nat)
    (m : Machine)
    (alive : Machine.alive? policy rom (.replaying (Datum.ofNibbles samples)) k = some m) :
    ∃ c, Tracks c m ∧ ∀ rest,
      run (wordsOf rom) (samples.map Fin.val) policy (k + rest) =
        resume (wordsOf rom) (samples.map Fin.val) policy rest k c := by
  -- Each step of the emulator uses up one of the steps that the reference machine has left.
  induction k generalizing m with
  | zero =>
      cases alive
      refine ⟨.zero, tracks_zero, ?_⟩
      intro rest
      rw [Nat.zero_add, run]
  | succ k ih =>
      rcases (orbit_succ_iff k m).mp alive with ⟨before, earlier, onward⟩
      rcases (Machine.proceed_iff _ rom _ before m).mp onward with ⟨goes, moved⟩
      rcases ih before earlier with ⟨c, tracks, same⟩
      rcases step_of_moved rom samples c before m tracks moved with ⟨next, stepped, later⟩
      refine ⟨next, later, ?_⟩
      intro rest
      have free : ¬ (policy = .selfLoop ∧ c.jumpsToItself (wordsOf rom)) := by
        rw [← endsAt_tracks policy rom c before tracks, goes]
        exact Bool.false_ne_true
      calc
        run (wordsOf rom) (samples.map Fin.val) policy (k + 1 + rest)
            = run (wordsOf rom) (samples.map Fin.val) policy (k + (rest + 1)) := by
              rw [Nat.add_assoc, Nat.add_comm 1 rest]
          _ = resume (wordsOf rom) (samples.map Fin.val) policy (rest + 1) k c := same (rest + 1)
          _ = resume (wordsOf rom) (samples.map Fin.val) policy rest (k + 1) next :=
              resume_onward _ _ policy rest k c next stepped free

theorem run_within (policy : HaltPolicy) (rom : Rom) (samples : List (Fin 16)) (budget k : Nat)
    (m : Machine) (within : k < budget)
    (alive : Machine.alive? policy rom (.replaying (Datum.ofNibbles samples)) k = some m) :
    ∃ c rest, Tracks c m ∧
      run (wordsOf rom) (samples.map Fin.val) policy budget =
        resume (wordsOf rom) (samples.map Fin.val) policy (rest + 1) k c := by
  rcases run_of_alive policy rom samples k m alive with ⟨c, tracks, same⟩
  have total : k + (budget - k - 1 + 1) = budget := by omega
  have later := same (budget - k - 1 + 1)
  rw [total] at later
  exact ⟨c, budget - k - 1, tracks, later⟩

/-- What a result shows of a verdict: the final registers, the values written, the number of steps
and the reason. -/
structure Verdict.Shown (verdict : Verdict) (result : RunResult) : Prop where
  registers : result.machine.cpu.registers = verdict.config.state.registers
  outputs : result.outputs = verdict.config.written.map Int.ofNat
  steps : result.steps = verdict.steps
  stop : result.stop = verdict.stop

theorem shown_of_spent (rom : Rom) (samples : List (Fin 16)) (policy : HaltPolicy) (budget : Nat)
    (result : RunResult) (steps : result.steps = budget)
    (alive : Machine.alive? policy rom (.replaying (Datum.ofNibbles samples)) budget =
      some result.machine)
    (stop : result.stop = spentReason policy) :
    (run (wordsOf rom) (samples.map Fin.val) policy budget).Shown result := by
  rcases run_of_alive policy rom samples budget result.machine alive with ⟨c, tracks, same⟩
  have verdict := same 0
  rw [Nat.add_zero] at verdict
  rw [verdict]
  exact ⟨tracks.registers, tracks.written, steps, stop⟩

theorem shown_of_halted (rom : Rom) (samples : List (Fin 16)) (policy : HaltPolicy)
    (budget k : Nat) (m after : Machine) (result : RunResult)
    (alive : Machine.alive? policy rom (.replaying (Datum.ofNibbles samples)) k = some m)
    (within : k < budget) (ends : policy.endsAt rom m = true)
    (moved : m.next? rom (.replaying (Datum.ofNibbles samples)) = some after)
    (machine : result.machine = after.halt) (steps : result.steps = k + 1)
    (stop : result.stop = .halt) :
    (run (wordsOf rom) (samples.map Fin.val) policy budget).Shown result := by
  rcases run_within _ rom samples budget k m within alive with ⟨c, rest, tracks, verdict⟩
  have jumps := (endsAt_tracks _ rom c m tracks).mp ends
  rcases step_of_moved rom samples c m after tracks moved with ⟨next, stepped, later⟩
  rw [verdict, resume_jump _ _ _ rest k c next stepped jumps]
  refine ⟨?_, ?_, steps, stop⟩
  · rw [machine]
    exact later.registers
  · rw [RunResult.outputs, machine]
    exact later.written

theorem shown_of_failed (rom : Rom) (samples : List (Fin 16)) (policy : HaltPolicy) (budget : Nat)
    (m : Machine) (failure : Failure) (result : RunResult)
    (alive : Machine.alive? policy rom (.replaying (Datum.ofNibbles samples)) result.steps = some m)
    (within : result.steps < budget)
    (turned : m.turn rom (.replaying (Datum.ofNibbles samples)) = (result.machine, some failure))
    (stop : result.stop = .error) :
    (run (wordsOf rom) (samples.map Fin.val) policy budget).Shown result := by
  rcases run_within _ rom samples budget _ m within alive with ⟨c, rest, tracks, verdict⟩
  rcases step_of_failed rom samples c m _ failure tracks turned with ⟨stuck, left⟩
  rw [verdict, resume_stuck _ _ _ rest _ c stuck]
  refine ⟨?_, ?_, rfl, stop⟩
  · rw [← left]
    exact tracks.registers
  · rw [RunResult.outputs, ← left]
    exact tracks.written

end Reference

open Reference

/-- A run never breaks off, and it ends where the reference machine ends, with the same values
written, after as many steps and for the same reason. -/
theorem run_refines_reference (rom : Rom) (options : RunOptions) (samples : List (Fin 16))
    (program? : Option Program) :
    ∃ result,
      run rom none none { options with inputs := Datum.ofNibbles samples } program? = .ok result ∧
      (Reference.run (wordsOf rom) (samples.map Fin.val) options.policy options.maxSteps).Shown
        result := by
  have ending :=
    run_ending rom none none { options with inputs := Datum.ofNibbles samples } program?
  obtain ⟨result, ran⟩ := run_unattended rom { options with inputs := Datum.ofNibbles samples }
    program? (Datum.ofNibbles_shown samples)
  refine ⟨result, ran, ?_⟩
  rw [ran] at ending
  cases ending with
  | spent _ policy alive steps stop =>
      have reason : options.policy = .stepBudget := policy
      apply shown_of_spent rom samples _ _ result steps alive
      simp only [reason, stop, spentReason]
  | exceeded _ fault policy alive steps stop =>
      have reason : options.policy = .selfLoop := policy
      apply shown_of_spent rom samples _ _ result steps alive
      simp only [reason, stop, spentReason]
  | halted _ k m after alive within ends moved machine steps stop =>
      exact shown_of_halted rom samples _ _ k m after result alive within ends moved machine steps
        stop
  | failed _ m fault shown alive within turned stop =>
      exact shown_of_failed rom samples _ _ m _ result alive within turned stop

end FourBit
