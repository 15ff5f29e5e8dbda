import Mathlib.Data.List.Forall2
import FourBit.Assembly.Encoding

/-! The assembly language as its description puts it: lines of source, the words of a statement, and
the forms that a statement may have. From the assembler come the classes of characters and the
values of literals, and nothing else. -/

namespace FourBit.Reference

open Assembly (isSeparator registerName)
open Assembly.Line (isNamePart isNameStart)

instance (t : Text) (holds : Char → Prop) [DecidablePred holds] : Decidable (∀ c ∈ t, holds c) :=
  List.decidableBAll holds t

/-- The words of a text in order, each without separators, with separators before, between and after
them. -/
inductive Spaced : Text → List Text → Prop
  | gap (gap : Text) (separating : ∀ c ∈ gap, isSeparator c = true) : Spaced gap []
  | word (gap word rest : Text) (words : List Text)
      (separating : ∀ c ∈ gap, isSeparator c = true) (present : word ≠ [])
      (solid : ∀ c ∈ word, isSeparator c = false) (apart : ∀ c ∈ rest.head?, isSeparator c = true)
      (more : Spaced rest words) : Spaced (gap ++ word ++ rest) (word :: words)

def Uncommented (raw code : Text) : Prop :=
  ∃ comment, raw = code ++ comment ∧ (∀ c ∈ code, c ≠ ';' ∧ c ≠ '#') ∧
    ∀ c ∈ comment.head?, c = ';' ∨ c = '#'

def IsName (t : Text) : Prop :=
  ∃ c rest, t = c :: rest ∧ isNameStart c = true ∧ ∀ d ∈ rest, isNamePart d = true

/-- A line may begin with one label: a name with a colon right behind it. What follows is its
body. -/
inductive Labelled : Text → Option Text → Text → Prop
  | label (margin name body : Text) (blank : ∀ c ∈ margin, Text.isBlank c = true)
      (named : IsName name) : Labelled (margin ++ name ++ ':' :: body) (some name.upper) body
  | plain (code : Text)
      (free : ∀ margin name body, (∀ c ∈ margin, Text.isBlank c = true) → IsName name →
        code ≠ margin ++ name ++ ':' :: body) : Labelled code none code

inductive Stated : Text → Option (List Text) → Prop
  | blank (body : Text) (blank : ∀ c ∈ body, Text.isBlank c = true) : Stated body none
  | words (body : Text) (c : Char) (words : List Text) (inside : c ∈ body)
      (ink : Text.isBlank c = false) (spaced : Spaced body words) : Stated body (some words)

/-- What a line of source says: its label in upper case and the words of its statement. -/
structure CodeLine where
  label? : Option Text
  statement? : Option (List Text)
  deriving DecidableEq, Repr

def CodeLine.Reads (raw : Text) (line : CodeLine) : Prop :=
  ∃ code body, Uncommented raw code ∧ Labelled code line.label? body ∧ Stated body line.statement?

/-- A source is its lines with line feeds between them. -/
def Reads (source : Text) (lines : List CodeLine) : Prop :=
  ∃ raws, raws ≠ [] ∧ (∀ raw ∈ raws, '\n' ∉ raw) ∧ source = Text.unlines raws ∧
    List.Forall₂ CodeLine.Reads raws lines

def labelsOf (lines : List CodeLine) : List Text := lines.filterMap CodeLine.label?

def statementsOf (lines : List CodeLine) : List (List Text) := lines.filterMap CodeLine.statement?

def Defines (lines : List CodeLine) (name : Text) (addr : Nat) : Prop :=
  ∃ before line after, lines = before ++ line :: after ∧ line.label? = some name ∧
    addr = (statementsOf before).length

def IsLiteral (t : Text) (n : Fin 16) : Prop := Assembly.Literal.read? t = some ((n : Nat) : Int)

/-- The target of a jump: a literal if it begins with a digit, and otherwise a label. -/
inductive Aims (lines : List CodeLine) : Text → Fin 16 → Prop
  | number (c : Char) (rest : Text) (n : Fin 16) (digit : Text.isDigitLike c = true)
      (valued : IsLiteral (c :: rest) n) : Aims lines (c :: rest) n
  | label (c : Char) (rest : Text) (n : Fin 16) (letter : Text.isDigitLike c = false)
      (defined : Defines lines (Text.upper (c :: rest)) n) : Aims lines (c :: rest) n

inductive Form where
  | add (target : Register) (n : Fin 16)
  | load (target : Register) (n : Fin 16)
  | copy (target : Register)
  | input (target : Register)
  | outputB
  | output (n : Fin 16)
  | halt
  | jump (target : Fin 16)
  | jumpNoCarry (target : Fin 16)
  deriving DecidableEq, Repr

namespace Form

def code : Form → Nat
  | add .a _ => 0
  | copy .a => 1
  | input .a => 2
  | load .a _ => 3
  | copy .b => 4
  | add .b _ => 5
  | input .b => 6
  | load .b _ => 7
  | outputB => 9
  | output _ => 11
  | jumpNoCarry _ => 14
  | jump _ => 15
  | halt => 15

def operand (addr : Nat) : Form → Nat
  | add _ n => n
  | load _ n => n
  | copy _ => 0
  | input _ => 0
  | outputB => 0
  | output n => n
  | halt => addr
  | jump target => target
  | jumpNoCarry target => target

def word (addr : Nat) (form : Form) : Nat := form.code * 16 + form.operand addr

end Form

/-- The words of a statement spell a form, whatever the case of mnemonics, registers and labels. -/
inductive Spells (lines : List CodeLine) : List Text → Form → Prop
  | add (word target value : Text) (register : Register) (n : Fin 16)
      (mnemonic : word.upper = "ADD".toList) (named : target.upper = registerName register)
      (valued : IsLiteral value n) :
      Spells lines [word, target, value] (.add register n)
  | load (word target value : Text) (register : Register) (n : Fin 16)
      (mnemonic : word.upper = "MOV".toList) (named : target.upper = registerName register)
      (valued : IsLiteral value n) :
      Spells lines [word, target, value] (.load register n)
  | copyAB (word target source : Text) (mnemonic : word.upper = "MOV".toList)
      (named : target.upper = registerName .a) (other : source.upper = registerName .b) :
      Spells lines [word, target, source] (.copy .a)
  | copyBA (word target source : Text) (mnemonic : word.upper = "MOV".toList)
      (named : target.upper = registerName .b) (other : source.upper = registerName .a) :
      Spells lines [word, target, source] (.copy .b)
  | input (word target : Text) (register : Register) (mnemonic : word.upper = "IN".toList)
      (named : target.upper = registerName register) : Spells lines [word, target] (.input register)
  | outputB (word source : Text) (mnemonic : word.upper = "OUT".toList)
      (named : source.upper = registerName .b) : Spells lines [word, source] .outputB
  | output (word value : Text) (n : Fin 16) (mnemonic : word.upper = "OUT".toList)
      (valued : IsLiteral value n) :
      Spells lines [word, value] (.output n)
  | halt (word : Text) (mnemonic : word.upper = "HLT".toList) : Spells lines [word] .halt
  | jump (word target : Text) (n : Fin 16) (mnemonic : word.upper = "JMP".toList)
      (aims : Aims lines target n) : Spells lines [word, target] (.jump n)
  | jumpNoCarry (word target : Text) (n : Fin 16) (mnemonic : word.upper = "JNC".toList)
      (aims : Aims lines target n) : Spells lines [word, target] (.jumpNoCarry n)

/-- Lines stand for a program: no label twice, one to sixteen statements, and for each of them a
form and its word. -/
structure Denotes (lines : List CodeLine) (words : List Nat) : Prop where
  distinct : (labelsOf lines).Nodup
  present : 1 ≤ (statementsOf lines).length
  fits : (statementsOf lines).length ≤ 16
  size : words.length = (statementsOf lines).length
  table : ∀ addr statement, (statementsOf lines)[addr]? = some statement →
    ∃ form, Spells lines statement form ∧ words[addr]? = some (form.word addr)

end FourBit.Reference
