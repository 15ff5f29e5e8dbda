import FourBit.Rom.Basic

namespace FourBit

def listingMargin (addr word : Nat) : Text :=
  Text.alignRight 2 (Text.decimal addr) ++ [':', ' '] ++ Text.binary 8 word ++ [' ', ' ']

namespace Rom

def hexdump (rom : Rom) : Text :=
  List.intercalate [' '] (rom.bytes.map fun byte : Fin 256 => Text.hex 2 byte)

def listing (rom : Rom) : List Text :=
  rom.bytes.zipIdx.map fun (byte, addr) =>
    listingMargin addr byte ++ Instruction.disassemble (byte : Nat)

def description (rom : Rom) : String := "Rom(" ++ rom.hexdump.asString ++ ")"

end Rom

end FourBit
