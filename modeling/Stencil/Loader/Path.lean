/-!
Paths below a directory.

A path is a text of parts with slashes between them, and what its parts stand for are its
components.  A part that is empty or a dot stands for nothing, and two dots go up; a slash at the
head is the root, and a dot at the head is kept.  A name is a path into a directory if it has no
component but ordinary ones and a dot at the head.  Joined to the path of a directory, an absolute
path takes its place; all other paths are appended.
-/

namespace Stencil.Path

/-! ## §1. Parts -/

/-- The parts of a path: the texts between its slashes. -/
def parts : List Char → List (List Char)
  | [] => [[]]
  | '/' :: cs => [] :: parts cs
  | c :: cs =>
    match parts cs with
    | [] => [[c]]
    | part :: more => (c :: part) :: more

/-- Whether a part stays where it is. -/
def stays (part : List Char) : Bool :=
  part.isEmpty || part == ['.']

/-- Whether a part goes up. -/
def goesUp (part : List Char) : Bool :=
  part == ['.', '.']

/-- The parts of a path that lead somewhere. -/
def steps (path : List Char) : List (List Char) :=
  (parts path).filter (!stays ·)

/-! ## §2. Components -/

/-- A component of a path. -/
inductive Component
  | root
  /-- A dot. -/
  | here
  /-- Two dots. -/
  | up
  | ordinary (name : List Char)
deriving DecidableEq, Repr

/-- Whether a component leads to the place where it is read, or to one below. -/
def Component.staysBelow : Component → Bool
  | .here | .ordinary _ => true
  | .root | .up => false

/-- What a part of a path stands for. -/
def component? (part : List Char) : Option Component :=
  if stays part then none else if goesUp part then some .up else some (.ordinary part)

/-- Whether a path begins at the root. -/
def isAbsolute (path : List Char) : Bool :=
  path.head? == some '/'

/-- What the head of a path stands for besides its parts. -/
def lead (path : List Char) : List Component :=
  if isAbsolute path then [.root] else if (parts path).head? == some ['.'] then [.here] else []

/-- The components of a path. -/
def components (path : List Char) : List Component :=
  lead path ++ (parts path).filterMap component?

/-! ## §3. Names in a directory -/

/-- The path of a name in a directory. -/
def join (root name : List Char) : List Char :=
  if isAbsolute name then name
  else if root.isEmpty || root.getLast? == some '/' then root ++ name
  else root ++ '/' :: name

/-- The path that a name means in a directory, if it stays inside of it. -/
def resolve? (root name : List Char) : Option (List Char) :=
  if name.isEmpty || (components name).any (!·.staysBelow) then none else some (join root name)

end Stencil.Path
