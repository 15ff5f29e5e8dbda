import FourBit.Datum

/-! What can go wrong, by kind: faults, which a run turns into its result, and breaches, which
nothing catches. -/

namespace FourBit

inductive FaultKind where
  | general
  | parse
  | unknownMnemonic
  | invalidOperand
  | duplicateLabel
  | undefinedLabel
  | programTooLarge
  | image
  | runtime
  | decode
  | inputOutOfRange
  | stepLimitExceeded
  | romAccess
  deriving DecidableEq, Repr

namespace FaultKind

def name : FaultKind → String
  | general => "TD4Error"
  | parse => "ParseError"
  | unknownMnemonic => "UnknownMnemonic"
  | invalidOperand => "InvalidOperand"
  | duplicateLabel => "DuplicateLabel"
  | undefinedLabel => "UndefinedLabel"
  | programTooLarge => "ProgramTooLarge"
  | image => "ImageError"
  | runtime => "TD4RuntimeError"
  | decode => "DecodeError"
  | inputOutOfRange => "InputOutOfRange"
  | stepLimitExceeded => "StepLimitExceeded"
  | romAccess => "RomAccessError"

def all : List FaultKind :=
  [general, parse, unknownMnemonic, invalidOperand, duplicateLabel, undefinedLabel, programTooLarge,
    image, runtime, decode, inputOutOfRange, stepLimitExceeded, romAccess]

def ofName? (name : String) : Option FaultKind := all.find? (·.name == name)

def lineage : FaultKind → List FaultKind
  | general => [general]
  | parse => [parse, general]
  | unknownMnemonic => [unknownMnemonic, parse, general]
  | invalidOperand => [invalidOperand, parse, general]
  | duplicateLabel => [duplicateLabel, parse, general]
  | undefinedLabel => [undefinedLabel, parse, general]
  | programTooLarge => [programTooLarge, parse, general]
  | image => [image, general]
  | runtime => [runtime, general]
  | decode => [decode, runtime, general]
  | inputOutOfRange => [inputOutOfRange, runtime, general]
  | stepLimitExceeded => [stepLimitExceeded, runtime, general]
  | romAccess => [romAccess, runtime, general]

end FaultKind

/-- A fault with its place: the steps executed before it, the program address, the source line and
the word that did not decode. -/
structure Fault where
  kind : FaultKind
  message : String
  step : Int
  addr : Int
  line? : Option Int
  source? : Option Text
  word? : Option Int
  deriving DecidableEq, Repr

namespace Fault

def plain (kind : FaultKind) (message : String) : Fault :=
  ⟨kind, message, 0, 0, none, none, none⟩

def atAddr (kind : FaultKind) (message : String) (addr : Int) : Fault :=
  ⟨kind, message, 0, addr, none, none, none⟩

end Fault

/-- Uses that no part of the machine answers for. -/
inductive Breach where
  | emptyStatement
  | operandRange (operand : Int)
  | noExecutor (code : Int)
  | noText (code : Int)
  | unknownPolicy (name : String)
  | tooFewSteps
  | noCount
  | device (message : String)
  | nulInPath
  | longNumber
  deriving DecidableEq, Repr

def Breach.message : Breach → String
  | emptyStatement => "list index out of range"
  | operandRange operand => s!"Operand out of 4-bit range: {operand}"
  | noExecutor code => s!"No executor for opcode: {code}"
  | noText code => s!"{code}"
  | unknownPolicy name => s!"Unknown halt policy: {name}"
  | tooFewSteps => "max_steps must be at least 1"
  | noCount => "'<' not supported between instances of 'list' and 'int'"
  | device message => message
  | nulInPath => "embedded null byte"
  | longNumber =>
    s!"Exceeds the limit ({Datum.maxDigits} digits) for integer string conversion; " ++
      "use sys.set_int_max_str_digits() to increase the limit"

inductive Failure where
  | fault (fault : Fault)
  | breach (breach : Breach)
  deriving DecidableEq, Repr

namespace Failure

def showing (value : Datum) (fault : Fault) : Failure :=
  if value.isShown then .fault fault else .breach .longNumber

theorem showing_shown {value : Datum} (fault : Fault) (shown : value.isShown = true) :
    showing value fault = .fault fault := if_pos shown

theorem showing_hidden {value : Datum} (fault : Fault) (hidden : value.isShown = false) :
    showing value fault = .breach .longNumber := by
  rw [showing, hidden]
  rfl

end Failure

end FourBit
