/-!
Places in a template's source.

A place is a line and a column.  Lines are separated by newlines alone, and the column counts UTF-8
bytes, so that a place can be found again in the stored file.  Both start at one.
-/

namespace Stencil

/-- A place in source text: the line, and the byte column within it. -/
structure Position where
  line : Nat
  offset : Nat
deriving DecidableEq, Repr, Inhabited

namespace Position

/-- Where every source begins. -/
def start : Position := ⟨1, 1⟩

/-- The place right after a character. -/
def after (p : Position) (c : Char) : Position :=
  if c = '\n' then ⟨p.line + 1, 1⟩ else ⟨p.line, p.offset + c.utf8Size⟩

/-- The place right after a run of characters. -/
def past (p : Position) (cs : List Char) : Position :=
  cs.foldl after p

/-- The place as `line:offset`. -/
def text (p : Position) : String :=
  s!"{p.line}:{p.offset}"

@[simp] theorem past_nil (p : Position) : p.past [] = p := rfl

@[simp] theorem past_cons (p : Position) (c : Char) (cs : List Char) :
    p.past (c :: cs) = (p.after c).past cs := rfl

@[simp] theorem past_append (p : Position) (cs ds : List Char) :
    p.past (cs ++ ds) = (p.past cs).past ds := by
  simp [past, List.foldl_append]

end Position

end Stencil
