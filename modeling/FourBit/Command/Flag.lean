import FourBit.Text.Basic

namespace FourBit.Command

inductive Flag where
  | help
  | image
  | input
  | maxSteps
  | haltPolicy
  | listing
  | trace
  | verbose
  deriving DecidableEq, Repr

namespace Flag

def all : List Flag := [help, image, input, maxSteps, haltPolicy, listing, trace, verbose]

def spellings : Flag → List Text
  | help => ["-h".toList, "--help".toList]
  | image => ["--image".toList]
  | input => ["--input".toList, "-i".toList]
  | maxSteps => ["--max-steps".toList]
  | haltPolicy => ["--halt-policy".toList]
  | listing => ["--listing".toList, "-l".toList]
  | trace => ["--trace".toList, "-t".toList]
  | verbose => ["--verbose".toList, "-v".toList]

def title (flag : Flag) : Text := List.intercalate ['/'] flag.spellings

def takesValue : Flag → Bool
  | input => true
  | maxSteps => true
  | haltPolicy => true
  | _ => false

def table : List (Text × Flag) :=
  all.flatMap fun flag => flag.spellings.map fun spelling => (spelling, flag)

def ofSpelling? (t : Text) : Option Flag := table.lookup t

end Flag

end FourBit.Command
