import FourBit.Proofs.Machine.Failure

/-! Machines that are fed samples: the samples in order, and then the last one for ever. -/

namespace FourBit

def Devices.replaying (inputs : List Datum) : Devices := ⟨.replay (inputs.map .ok), none⟩

def Datum.ofNibbles (samples : List (Fin 16)) : List Datum :=
  samples.map fun sample : Fin 16 => .int (sample : Nat)

theorem Datum.nibble_of_fin (n : Fin 16) : (Datum.int (n : Nat)).nibble? = some n := by
  have bounds : 0 ≤ ((n : Nat) : Int) ∧ ((n : Nat) : Int) ≤ 15 := by omega
  have same : Fin.ofNat 16 (n : Nat) = n := Fin.ofNat_val_eq_self n
  simp only [nibble?, bounds, and_self, if_true, Int.toNat_natCast, same]

theorem Datum.eq_of_nibble (datum : Datum) (n : Fin 16) (small : datum.nibble? = some n) :
    datum = .int (n : Nat) := by
  cases datum with
  | int value =>
      simp only [nibble?] at small
      split at small
      · rename_i bounds
        cases small
        congr 1
        simp only [Fin.ofNat]
        omega
      · cases small
  | none | truth | real | text | list | record => cases small

theorem Datum.ofNibbles_shown (samples : List (Fin 16)) :
    ∀ sample ∈ ofNibbles samples, sample.isShown = true := by
  intro sample listed
  obtain ⟨n, _, rfl⟩ := List.mem_map.mp listed
  exact isShown_of_nibble (nibble_of_fin n)

theorem Supplier.replay_place (samples : List (Except Failure Datum)) (first second : Nat)
    (same : min first (samples.length - 1) = min second (samples.length - 1)) :
    Supplier.replay samples first = Supplier.replay samples second := by
  simp only [Supplier.replay, same]

theorem Supplier.replay_cases (inputs : List Datum) (asked : Nat) :
    ∃ sample, Supplier.replay (inputs.map .ok) asked = .ok sample ∧
      (sample ∈ inputs ∨ sample = .int 0) := by
  unfold Supplier.replay
  split
  · rename_i sample found
    obtain ⟨datum, listed, rfl⟩ := List.mem_map.mp (List.mem_of_getElem? found)
    exact ⟨datum, rfl, .inl listed⟩
  · exact ⟨.int 0, rfl, .inr rfl⟩

theorem Supplier.replay_ok (inputs : List Datum) (asked : Nat) :
    ∃ sample, Supplier.replay (inputs.map .ok) asked = .ok sample := by
  obtain ⟨sample, given, _⟩ := Supplier.replay_cases inputs asked
  exact ⟨sample, given⟩

theorem Devices.replaying_silent (inputs : List Datum) (failure : Failure) :
    ¬ (Devices.replaying inputs).Raises failure := by
  intro raises
  cases raises with
  | supplier asked raised =>
      obtain ⟨sample, given⟩ := Supplier.replay_ok inputs asked
      cases given.symm.trans raised
  | sink sink values present raised => cases present

namespace Machine

theorem receive_of_sample (devices : Devices) (register : Register) (m : Machine) (sample : Datum)
    (n : Fin 16) (given : devices.supplier m.ports.asked = .ok sample)
    (nibble : sample.nibble? = some n) :
    m.receive devices register =
      (⟨({ m.cpu with inPort := (n : Int) }.set register n).advance,
        { m.ports with asked := m.ports.asked + 1, lastIn := some (n : Int) }⟩, none) := by
  simp only [receive, Ports.read, given, nibble]

theorem receive_of_large (devices : Devices) (register : Register) (m : Machine) (sample : Datum)
    (given : devices.supplier m.ports.asked = .ok sample) (large : sample.nibble? = none) :
    m.receive devices register =
      (⟨m.cpu, { m.ports with asked := m.ports.asked + 1, lastIn := none }⟩,
        some (Ports.sampleFailure sample)) := by
  simp only [receive, Ports.read, given, large]

theorem turn_fails_replaying (rom : Rom) (inputs : List Datum) (m left : Machine)
    (failure : Failure) (inside : m.cpu.InRange)
    (turned : m.turn rom (.replaying inputs) = (left, some failure)) :
    (∃ fault, failure = .fault fault ∧ (fault.kind = .decode ∨ fault.kind = .inputOutOfRange)) ∨
      (failure = .breach .longNumber ∧ m.Stumbles rom (.replaying inputs)) := by
  obtain ⟨written, fails, _⟩ := turn_fails rom _ m left failure inside turned
  rcases fails.own_or_raised with own | stumbled | raises
  · exact .inl own
  · exact .inr stumbled
  · exact (Devices.replaying_silent inputs failure raises).elim

end Machine

end FourBit
