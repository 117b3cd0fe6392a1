import Stencil.Loader.Source
import Stencil.Loader.Path

/-!
Templates from files.

The names of templates are paths below a root directory.  Reading a file can fail in several ways;
that it does not exist is one of them, and the others keep the wording of the file system.  A file
tree answers as such a file system does for files and directories without links.
-/

namespace Stencil

/-- Why a file cannot be read. -/
inductive ReadError
  | missing
  | isDirectory
  | notDirectory
  | nameTooLong
  | nulCharacter
  /-- Any other failure, in the words of the file system. -/
  | other (reason : String)
deriving DecidableEq, Repr

/-- What a failed read says about the template. -/
def ReadError.reason : ReadError → NotFound
  | .missing => .noFile
  | .isDirectory => .unreadable "Is a directory (os error 21)"
  | .notDirectory => .unreadable "Not a directory (os error 20)"
  | .nameTooLong => .unreadable "File name too long (os error 36)"
  | .nulCharacter => .unreadable "file name contained an unexpected NUL byte"
  | .other reason => .unreadable reason

/-- The templates below a root directory, given what reading a path answers. -/
def TemplateSource.ofFiles (read : List Char → Except ReadError String) (root : List Char) :
    TemplateSource := fun _ name =>
  match Path.resolve? root name.toList with
  | none => .error (.notFound name .outsideRoot)
  | some path => (read path).mapError fun e => .notFound name e.reason

/-! ## §2. File trees -/

/-- Files with their contents, by the steps of their paths. -/
abbrev FileTree := List (List (List Char) × String)

namespace FileTree

/-- The file tree of a table of paths. -/
def ofTable (files : Table String) : FileTree :=
  files.map fun (path, content) => (Path.steps path.toList, content)

/-- What is at a place: a file, a directory, or nothing. -/
inductive Found
  | file (content : String)
  | directory
  | nothing

/-- What is at the end of a sequence of steps. -/
def find (tree : FileTree) (steps : List (List Char)) : Found :=
  match tree.find? fun file => file.1 == steps with
  | some file => .file file.2
  | none => if steps.isEmpty || tree.any (steps.isPrefixOf ·.1) then .directory else .nothing

/-- The longest part of a path, in bytes. -/
def longestPart : Nat := 255

/-- Goes along the parts of a path from a place; each of them starts from a directory. -/
def walk (tree : FileTree) : List (List Char) → List (List Char) → Except ReadError String
  | place, [] =>
    match tree.find place with
    | .file content => .ok content
    | .directory => .error .isDirectory
    | .nothing => .error .missing
  | place, part :: parts =>
    match tree.find place with
    | .file _ => .error .notDirectory
    | .nothing => .error .missing
    | .directory =>
      if longestPart < (String.ofList part).utf8ByteSize then .error .nameTooLong
      else walk tree (if Path.stays part then place else place ++ [part]) parts

/-- The content of the file at a path. -/
def read (tree : FileTree) (path : List Char) : Except ReadError String :=
  if path.contains '\x00' then .error .nulCharacter else walk tree [] (Path.parts path)

end FileTree

end Stencil
