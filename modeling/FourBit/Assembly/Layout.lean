import FourBit.Assembly.Line
import FourBit.Assembly.Rejection

namespace FourBit.Assembly

structure Statement where
  addr : Nat
  line : Nat
  source : Text
  body : Text
  deriving DecidableEq, Repr

structure Layout where
  labels : List (Text × Nat)
  statements : List Statement
  deriving DecidableEq, Repr

namespace Layout

def empty : Layout := ⟨[], []⟩

def next (layout : Layout) : Nat := layout.statements.length

def addLabel (layout : Layout) (line : Line) : Except Rejection Layout :=
  match line.label? with
  | none => .ok layout
  | some name =>
    if (layout.labels.lookup name).isSome then
      .error ⟨.duplicateLabel name, 0, some (line.number, line.source)⟩
    else .ok { layout with labels := layout.labels ++ [(name, layout.next)] }

def addStatement (layout : Layout) (line : Line) : Except Rejection Layout :=
  if line.body.isEmpty then .ok layout
  else if layout.next < 16 then
    .ok { layout with statements :=
      layout.statements ++ [⟨layout.next, line.number, line.source, line.body⟩] }
  else .error ⟨.tooLarge, layout.next, some (line.number, line.source)⟩

def add (layout : Layout) (line : Line) : Except Rejection Layout :=
  match layout.addLabel line with
  | .ok labelled => labelled.addStatement line
  | .error rejection => .error rejection

def ofLines (lines : List Line) : Except Rejection Layout := lines.foldlM add empty

end Layout

end FourBit.Assembly
