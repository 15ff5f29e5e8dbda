import FourBit.Text.UpperCase
import FourBit.Text.Numeral
import FourBit.Text.Quoted
import FourBit.Text.Utf8
import FourBit.Datum
import FourBit.Instruction.Operation
import FourBit.Rom.Listing
import FourBit.Machine.Basic
import FourBit.Run.Options
import FourBit.Run.Result
import FourBit.Run.Basic
import FourBit.Command.Session
import FourBit.Service.Reply
import FourBit.Main
import FourBit.Proofs.Run.SelfLoop
import FourBit.Proofs.Run.Recurrence
import FourBit.Proofs.Reference.Machine
import FourBit.Proofs.Run.Refinement
import FourBit.Proofs.Assembly.Tokens
import FourBit.Proofs.Text.Trim
import FourBit.Proofs.Assembly.Layout
import FourBit.Proofs.Assembly.Forms
import FourBit.Proofs.Assembly.Language
import FourBit.Proofs.Assembly.Refusal
import FourBit.Proofs.Rom.Padding
import FourBit.Proofs.Assembly.Entries
import FourBit.Proofs.Run.Assembled
import FourBit.Proofs.Assembly.Wordless
import FourBit.Proofs.Command.Unanswered
import FourBit.Proofs.Assembly.Written
import FourBit.Proofs.Assembly.Disassembly
import FourBit.Proofs.Assembly.Relisting
import FourBit.Proofs.Run.Failure
import FourBit.Proofs.Machine.Range
import FourBit.Proofs.Run.Range
import FourBit.Proofs.Run.Budget
import FourBit.Proofs.Assembly.Unlabelled
import FourBit.Proofs.Run.Trace
import FourBit.Proofs.Run.Unfetched
import FourBit.Proofs.Assembly.Concatenation
import FourBit.Proofs.Reference.Restyled
import FourBit.Proofs.Assembly.Restyling
import FourBit.Proofs.Assembly.Represented
import FourBit.Proofs.Run.Outcome
import FourBit.Proofs.Text.Utf8
import FourBit.Proofs.Assembly.Newlines
import FourBit.Proofs.Run.Onlookers
import FourBit.Proofs.Command.Asking
import FourBit.Proofs.Command.Printing
import FourBit.Proofs.Run.Unfailing
import FourBit.Proofs.Service.Outcome
import FourBit.Proofs.Run.Attempts
import FourBit.Proofs.Run.Samples
import FourBit.Proofs.Assembly.Precedence
import FourBit.Proofs.Run.Outputs
import FourBit.Proofs.Run.Provenance
import FourBit.Proofs.Assembly.Literals
import FourBit.Proofs.Assembly.PrintedLiterals
import FourBit.Proofs.Machine.Effect
import FourBit.Proofs.Run.Forward
import FourBit.Proofs.Assembly.Placement
import FourBit.Proofs.Assembly.ShownLabels
import FourBit.Proofs.Rom.Construction
