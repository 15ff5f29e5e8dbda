import Mathlib.Tactic.NormNum
import FourBit.Text.Utf8

namespace FourBit.Utf8

def trail (v : Nat) : Nat → List UInt8
  | 0 => []
  | owed + 1 => UInt8.ofNat (v / 64 ^ owed % 64 + 128) :: trail v owed

/-- A character that has all bits of a number but those of its last bytes, and takes the first of
these. -/
structure Pending.Awaits (p : Pending) (v owed : Nat) : Prop where
  count : p.owed = owed + 1
  bits : p.bits = v / 64 ^ (owed + 1)
  low : p.low ≤ v / 64 ^ owed % 64 + 128
  high : v / 64 ^ owed % 64 + 128 ≤ p.high

theorem toNat_byte (n : Nat) (small : n < 256) : (UInt8.ofNat n).toNat = n :=
  UInt8.toNat_ofNat_of_lt' small

theorem toNat_continuation (n : Nat) : (UInt8.ofNat (n % 64 + 128)).toNat = n % 64 + 128 :=
  toNat_byte _ (by omega)

theorem Pending.Awaits.next {p : Pending} {v owed : Nat} (awaits : p.Awaits v (owed + 1)) :
    (p.next (UInt8.ofNat (v / 64 ^ (owed + 1) % 64 + 128))).Awaits v owed := by
  have split : v / 64 ^ (owed + 1 + 1) = v / 64 ^ (owed + 1) / 64 := by
    rw [pow_succ, Nat.div_div_eq_div_mul]
  have bits := awaits.bits
  have count := awaits.count
  constructor
  · simp only [Pending.next]
    omega
  · simp only [Pending.next, toNat_continuation]
    omega
  · exact Nat.le_add_left 128 _
  · simp only [Pending.next]
    omega

theorem decodeFrom_trail (v owed offset : Nat) (p : Pending) (rest : List UInt8)
    (awaits : p.Awaits v owed) :
    ∃ after, decodeFrom offset (some p) (trail v (owed + 1) ++ rest) =
      (decodeFrom after none rest).map (Char.ofNat v :: ·) := by
  induction owed generalizing offset p with
  | zero =>
      obtain ⟨count, bits, low, high⟩ := awaits
      simp only [pow_zero, Nat.div_one, zero_add, pow_one] at count bits low high
      have whole : v / 64 * 64 + (v % 64 + 128 - 128) = v := by omega
      refine ⟨offset + 1, ?_⟩
      simp only [trail, pow_zero, Nat.div_one, List.cons_append, List.nil_append, decodeFrom,
        toNat_continuation, low, high, and_self, if_true, Pending.next, count, Nat.sub_self, bits,
        whole]
  | succ owed ih =>
      have more : p.owed - 1 ≠ 0 := by
        rw [awaits.count]
        omega
      obtain ⟨after, later⟩ := ih (offset + 1) _ awaits.next
      refine ⟨after, Eq.trans ?_ later⟩
      simp only [trail, List.cons_append]
      rw [decodeFrom, toNat_continuation, if_pos ⟨awaits.low, awaits.high⟩]
      exact if_neg more

theorem decodeFrom_lead (v owed offset : Nat) (byte : UInt8) (p : Pending) (rest : List UInt8)
    (large : 0x80 ≤ byte.toNat) (leads : lead? offset byte = some p) (awaits : p.Awaits v owed) :
    ∃ after, decodeFrom offset none (byte :: trail v (owed + 1) ++ rest) =
      (decodeFrom after none rest).map (Char.ofNat v :: ·) := by
  obtain ⟨after, completed⟩ := decodeFrom_trail v owed (offset + 1) p rest awaits
  refine ⟨after, ?_⟩
  rw [List.cons_append, decodeFrom, if_neg (Nat.not_lt.mpr large), leads]
  exact completed

theorem lead_two (v offset : Nat) (long : 0x7F < v) (short : v ≤ 0x7FF) :
    ∃ p, lead? offset (UInt8.ofNat (v / 64 % 32 + 192)) = some p ∧ p.Awaits v 0 := by
  have byte := toNat_byte (v / 64 % 32 + 192) (by omega)
  have high : ¬ v / 64 % 32 + 192 < 0xC2 := by omega
  have low : v / 64 % 32 + 192 < 0xE0 := by omega
  simp only [lead?, byte, high, low, if_true, if_false]
  refine ⟨_, rfl, ?_⟩
  constructor <;> simp only <;> norm_num <;> omega

/-- Three bytes have sixteen bits. The bounds on the second one let all numbers pass that need three
bytes and are no surrogates. -/
theorem lead_three (v offset : Nat) (long : 0x7FF < v) (short : v ≤ 0xFFFF)
    (valid : v < 0xD800 ∨ 0xDFFF < v) :
    ∃ p, lead? offset (UInt8.ofNat (v / 4096 % 16 + 224)) = some p ∧ p.Awaits v 1 := by
  have byte := toNat_byte (v / 4096 % 16 + 224) (by omega)
  have high : ¬ v / 4096 % 16 + 224 < 0xC2 := by omega
  have middle : ¬ v / 4096 % 16 + 224 < 0xE0 := by omega
  have low : v / 4096 % 16 + 224 < 0xF0 := by omega
  simp only [lead?, byte, high, middle, low, if_true, if_false]
  refine ⟨_, rfl, ?_⟩
  constructor <;> simp only <;> norm_num
  · omega
  · split <;> omega
  · split <;> omega

theorem lead_four (v offset : Nat) (long : 0xFFFF < v) (valid : v < 0x110000) :
    ∃ p, lead? offset (UInt8.ofNat (v / 262144 % 8 + 240)) = some p ∧ p.Awaits v 2 := by
  have byte := toNat_byte (v / 262144 % 8 + 240) (by omega)
  have high : ¬ v / 262144 % 8 + 240 < 0xC2 := by omega
  have middle : ¬ v / 262144 % 8 + 240 < 0xE0 := by omega
  have low : ¬ v / 262144 % 8 + 240 < 0xF0 := by omega
  have last : v / 262144 % 8 + 240 < 0xF5 := by omega
  simp only [lead?, byte, high, middle, low, last, if_true, if_false]
  refine ⟨_, rfl, ?_⟩
  constructor <;> simp only <;> norm_num
  · omega
  · split <;> omega
  · split <;> omega

theorem decodeFrom_encodeChar (offset : Nat) (c : Char) (rest : List UInt8) :
    ∃ after, decodeFrom offset none (String.utf8EncodeChar c ++ rest) =
      (decodeFrom after none rest).map (c :: ·) := by
  have same : Char.ofNat c.val.toNat = c := Char.ofNat_toNat c
  have valid : c.val.toNat < 0xD800 ∨ (0xDFFF < c.val.toNat ∧ c.val.toNat < 0x110000) := c.valid
  unfold String.utf8EncodeChar
  generalize c.val.toNat = v at *
  subst same
  simp only
  split
  · rename_i short
    have byte := toNat_byte v (by omega)
    refine ⟨offset + 1, ?_⟩
    simp only [List.cons_append, List.nil_append, decodeFrom, byte, Nat.lt_succ_of_le short, if_true]
  · rename_i two
    split
    · rename_i short
      obtain ⟨p, leads, awaits⟩ := lead_two v offset (by omega) short
      have read := decodeFrom_lead v 0 offset _ p rest (by rw [toNat_byte] <;> omega) leads awaits
      simpa only [trail, pow_zero, Nat.div_one] using read
    · rename_i three
      split
      · rename_i short
        obtain ⟨p, leads, awaits⟩ := lead_three v offset (by omega) short (by omega)
        have read := decodeFrom_lead v 1 offset _ p rest (by rw [toNat_byte] <;> omega) leads awaits
        simpa only [trail, pow_zero, Nat.div_one, pow_one] using read
      · rename_i four
        obtain ⟨p, leads, awaits⟩ := lead_four v offset (by omega) (by omega)
        have read := decodeFrom_lead v 2 offset _ p rest (by rw [toNat_byte] <;> omega) leads awaits
        simpa only [trail, pow_zero, Nat.div_one, pow_one, Nat.reducePow] using read

theorem decode_encode (t : Text) : decode (t.flatMap String.utf8EncodeChar) = .ok t := by
  have anywhere (offset : Nat) :
      decodeFrom offset none (t.flatMap String.utf8EncodeChar) = .ok t := by
    induction t generalizing offset with
    | nil => rfl
    | cons c rest ih =>
        obtain ⟨after, first⟩ :=
          decodeFrom_encodeChar offset c (rest.flatMap String.utf8EncodeChar)
        rw [List.flatMap_cons, first, ih after]
        rfl
  exact anywhere 0

end FourBit.Utf8
