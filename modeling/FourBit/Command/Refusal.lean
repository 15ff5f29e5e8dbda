import FourBit.Command.Flag
import FourBit.Run.Options
import FourBit.Text.Quoted

namespace FourBit.Command

inductive Refusal where
  | ambiguous (word : Text) (candidates : List Text)
  | needlessValue (flag : Flag) (value : Text)
  | missingValue (flag : Flag)
  | notSample (value : Text)
  | sampleRange (value : Text)
  | notCount (value : Text)
  | notPolicy (value : Text)
  | missingProgram
  | unrecognized (words : List Text)
  deriving DecidableEq, Repr

namespace Refusal

def about (flag : Flag) (complaint : Text) : Text :=
  "argument ".toList ++ flag.title ++ ": ".toList ++ complaint

def policyNames : Text :=
  List.intercalate ", ".toList (HaltPolicy.all.map fun policy => Text.quoted policy.name.toList)

def message : Refusal → Text
  | ambiguous word candidates =>
    "ambiguous option: ".toList ++ word ++ " could match ".toList ++
      List.intercalate ", ".toList candidates
  | needlessValue flag value => about flag ("ignored explicit argument ".toList ++ Text.quoted value)
  | missingValue flag => about flag "expected one argument".toList
  | notSample value => about .input ("invalid nibble value: ".toList ++ Text.quoted value)
  | sampleRange value => about .input ("input sample must be 0-15, got ".toList ++ value)
  | notCount value => about .maxSteps ("invalid int value: ".toList ++ Text.quoted value)
  | notPolicy value =>
    about .haltPolicy ("invalid choice: ".toList ++ Text.quoted value ++
      " (choose from ".toList ++ policyNames ++ [')'])
  | missingProgram => "the following arguments are required: program".toList
  | unrecognized words => "unrecognized arguments: ".toList ++ List.intercalate [' '] words

end Refusal

end FourBit.Command
