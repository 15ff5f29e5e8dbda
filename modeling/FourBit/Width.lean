namespace FourBit

instance nibble_width : @NeZero Nat Zero.ofOfNat0 16 := ⟨by decide⟩

instance byte_width : @NeZero Nat Zero.ofOfNat0 256 := ⟨by decide⟩

end FourBit
