import FourBit.Command.Path
import FourBit.Text.Quoted

/-! Files by name: what reading or writing a path gives, or why it gives nothing. -/

namespace FourBit.Command

inductive FileError where
  | notFound
  | notDirectory
  | isDirectory
  | nameTooLong
  | other (code : Nat) (reason : String)
  deriving DecidableEq, Repr

namespace FileError

def code : FileError → Nat
  | notFound => 2
  | notDirectory => 20
  | isDirectory => 21
  | nameTooLong => 36
  | other code _ => code

def reason : FileError → Text
  | notFound => "No such file or directory".toList
  | notDirectory => "Not a directory".toList
  | isDirectory => "Is a directory".toList
  | nameTooLong => "File name too long".toList
  | other _ reason => reason.toList

def message (error : FileError) (name : Text) : Text :=
  "[Errno ".toList ++ Text.decimal error.code ++ "] ".toList ++ error.reason ++ ": ".toList ++
    Text.quoted name

end FileError

inductive Place where
  | inside (parts : List Text)
  | outside (parts : List Text)
  deriving DecidableEq, Repr

namespace Place

def enter (place : Place) (part : Text) : Place :=
  match place with
  | inside parts => inside (parts ++ [part])
  | outside parts => outside (parts ++ [part])

def leave : Place → Place
  | inside [] => outside []
  | inside parts => inside parts.dropLast
  | outside parts => outside parts.dropLast

end Place

inductive Node where
  | directory
  | file (content : List UInt8)
  deriving Repr

/-- Directories and files below the working directory. Whatever lies on the way to a directory is
one too. -/
structure FileTree where
  directories : List (List Text)
  files : List (List Text × List UInt8)
  deriving Repr

namespace FileTree

def empty : FileTree := ⟨[], []⟩

def node? (tree : FileTree) : Place → Option Node
  | .inside parts =>
    match tree.files.lookup parts with
    | some content => some (.file content)
    | none =>
      if parts.isEmpty || tree.directories.any parts.isPrefixOf then some .directory else none
  | .outside parts => if parts.isEmpty then some .directory else none

def nameFits (part : Text) : Bool := part.asString.utf8ByteSize ≤ 255

def pathFits (path : Path) : Bool := path.text.asString.utf8ByteSize < 4096

/-- Goes on from a place, part by part. Only a directory leads on, and the last part need not exist.
-/
def walk (tree : FileTree) (place : Place) : List Text → Except FileError Place
  | [] => .ok place
  | part :: rest =>
    match tree.node? place with
    | none => .error .notFound
    | some (.file _) => .error .notDirectory
    | some .directory =>
      if part = ['.', '.'] then tree.walk place.leave rest
      else if nameFits part then tree.walk (place.enter part) rest
      else .error .nameTooLong

def locate (tree : FileTree) (path : Path) : Except FileError Place :=
  if pathFits path then
    tree.walk (if path.root.isEmpty then .inside [] else .outside []) path.parts
  else .error .nameTooLong

def read (tree : FileTree) (path : Path) : Except FileError (List UInt8) :=
  match tree.locate path with
  | .error error => .error error
  | .ok place =>
    match tree.node? place with
    | none => .error .notFound
    | some .directory => .error .isDirectory
    | some (.file content) => .ok content

def addDirectory (tree : FileTree) (path : Path) : FileTree :=
  { tree with directories := path.parts :: tree.directories }

def addFile (tree : FileTree) (path : Path) (content : List UInt8) : Except FileError FileTree :=
  match tree.locate path with
  | .error error => .error error
  | .ok (.outside _) => .error .notFound
  | .ok (.inside parts) =>
    match tree.node? (.inside parts) with
    | some .directory => .error .isDirectory
    | _ => .ok { tree with files := (parts, content) :: tree.files }

end FileTree

end FourBit.Command
