import FourBit.Command.Session

namespace FourBit

def refusal (code : UInt32) (reason : String) : Command.FileError :=
  match if code.toNat < 0x80000000 then code.toNat else 0x100000000 - code.toNat with
  | 20 => .notDirectory
  | 21 => .isDirectory
  | 36 => .nameTooLong
  | number => .other number reason

def readFile (path : Command.Path) : IO (Except Command.FileError (List UInt8)) := do
  try
    let bytes ← IO.FS.readBinFile path.text.asString
    return .ok bytes.toList
  catch failure =>
    match failure with
    | .noFileOrDirectory _ _ _ => return .error .notFound
    | .inappropriateType _ code reason => return .error (refusal code reason)
    | .permissionDenied _ code reason => return .error (refusal code reason)
    | .invalidArgument _ code reason => return .error (refusal code reason)
    | other => return .error (.other 5 other.toString)

def printAnswer (answer : Command.Answer) : IO UInt32 := do
  for line in answer.out do
    IO.println line.asString
  for line in answer.err do
    IO.eprintln line.asString
  match answer.exit with
  | .ok code => return code.toUInt32
  | .error breach =>
    IO.eprintln breach.message
    return 1

end FourBit

def main (arguments : List String) : IO UInt32 := do
  match FourBit.Command.Invocation.ofArguments (arguments.map String.toList) with
  | .error dismissal => FourBit.printAnswer dismissal.answer
  | .ok asked =>
    let content ← FourBit.readFile (.ofText asked.program)
    FourBit.printAnswer (asked.answer content)
