import Stencil.Value.Basic

/-!
Which block a slot is filled with.

Templates that extend each other, the templates they take blocks from, and the statement that embeds
one may all define a block of the same name.  A composition lists all definitions, the most specific
first: the blocks of the embedding statement, then, for each template from the child to the root,
its own blocks and after them those it takes over, the last `use` first.
-/

namespace Stencil

/-- A block of one of the templates of a render. -/
structure BlockRef where
  owner : LiveTemplate
  id : DefinitionId
deriving Repr

/-- The block that is meant. -/
def BlockRef.block? (r : BlockRef) : Option Block :=
  r.owner.template.blockAt? r.id

/-- A template from which blocks are taken over. -/
structure UsedTemplate where
  template : LiveTemplate
  aliases : List (String × String)
deriving Repr

/-- The name under which a block is taken over: its first alias, or its own name. -/
def UsedTemplate.exportName (u : UsedTemplate) (name : String) : String :=
  ((u.aliases.find? fun pair => pair.1 == name).map Prod.snd).getD name

/-- The blocks of a table, as blocks of a template. -/
def LiveTemplate.blocks (t : LiveTemplate) (table : Table DefinitionId) :
    List (String × BlockRef) :=
  table.map fun (name, id) => (name, ⟨t, id⟩)

/-- The blocks taken over from a template, under the names they get. -/
def UsedTemplate.exports (u : UsedTemplate) : List (String × BlockRef) :=
  (u.template.blocks u.template.template.blockTable).map fun (name, r) => (u.exportName name, r)

/-- A template of a chain of `extends` with the templates it takes blocks from. -/
structure Level where
  template : LiveTemplate
  uses : List UsedTemplate
deriving Repr

/-- The blocks a level defines and takes over. -/
def Level.blocks (l : Level) : List (String × BlockRef) :=
  l.template.blocks l.template.template.blockTable ++ l.uses.reverse.flatMap UsedTemplate.exports

/-- All definitions of blocks, the more specific of one name first. -/
abbrev Composition := List (String × BlockRef)

namespace Composition

/-- The composition of the levels of a chain, given from the child to the root, under the blocks of
an embedding statement. -/
def ofLevels (overrides : List (String × BlockRef)) (levels : List Level) : Composition :=
  overrides ++ levels.flatMap Level.blocks

/-- The definitions of a block, the most specific first. -/
def candidates (c : Composition) (name : String) : List BlockRef :=
  (c.filter fun entry => entry.1 == name).map Prod.snd

/-- One of the definitions of a block, counted from the most specific. -/
def candidate? (c : Composition) (name : String) (index : Nat) : Option BlockRef :=
  (c.candidates name)[index]?

end Composition

end Stencil
