import FourBit.Text.Basic

namespace FourBit.Command

inductive Severity where
  | debug
  | info
  | warning
  deriving DecidableEq, Repr

namespace Severity

def name : Severity → Text
  | debug => "DEBUG".toList
  | info => "INFO".toList
  | warning => "WARNING".toList

def threshold : Severity → Nat
  | debug => 2
  | info => 1
  | warning => 0

end Severity

inductive Reporter where
  | assembler
  | runner
  | commandLine
  deriving DecidableEq, Repr

def Reporter.name : Reporter → Text
  | assembler => "td4.assembler".toList
  | runner => "td4.runner".toList
  | commandLine => "td4.cli".toList

structure Entry where
  severity : Severity
  reporter : Reporter
  message : Text
  deriving DecidableEq, Repr

namespace Entry

def line (entry : Entry) : Text :=
  entry.severity.name ++ [' '] ++ entry.reporter.name ++ ": ".toList ++ entry.message

def shown (verbosity : Nat) (entries : List Entry) : List Text :=
  (entries.filter fun entry => entry.severity.threshold ≤ verbosity).map line

end Entry

end FourBit.Command
