import Stencil.Proofs.Expr.Phrase
import Stencil.Proofs.Template.Derivation

/-!
Templates as they are written.

A clause is a statement in the form its text shows: its expressions are phrases, its names are plain
words, and a block or a macro has its body inside it.  A page is clauses in a row, and the template
that they extend if they do.

A page has a meaning, the template without the places of its nodes, and a text.  In the meaning a
definition gets its number where it ends, so that it comes after the definitions inside it.
-/

namespace Stencil

open Stencil.Text Stencil.Token

/-! ## §1. Clauses -/

/-- Literal text that nothing in it and nothing after it turns into a delimiter. -/
structure Prose where
  text : String
  nonempty : text ≠ ""
  free : ∀ c ∈ ['{', '%', '#'], ¬ ['{', c] <:+: text.toList
  ends : text.toList.getLast? ≠ some '{'

/-- A parameter of a macro, with its fallback if it has one. -/
structure ParamPhrase where
  name : PlainWord
  fallback : Option Phrase

/-- A filter in a tag, with its arguments. -/
structure FilterPhrase where
  name : PlainWord
  args : List Phrase

/-- A name of another template, and the name that it gets here if it gets one. -/
structure Alias where
  own : PlainWord
  newName : Option PlainWord

/-- A statement as it is written.  Lists that cannot be empty are given by their first item and
those after it; an assignment has a value for each of its names. -/
inductive Clause
  | text (prose : Prose)
  | print (phrase : Phrase)
  | perform (phrase : Phrase)
  | branch (cond : Phrase) (body orElse : List Clause)
  | loop (key : Option PlainWord) (value : PlainWord) (iterable : Phrase)
      (body orElse : List Clause)
  | block (name : DottedName) (body : List Clause)
  | defines (name : PlainWord) (params : List ParamPhrase) (body : List Clause)
  | includes (template : Phrase) (ignoreMissing : Bool) (bindings : Option Phrase) (only : Bool)
  | reuses (template : Phrase) (aliases : List (PlainWord × PlainWord))
  | assign (first : PlainWord × Phrase) (more : List (PlainWord × Phrase))
  | capture (name : PlainWord) (body : List Clause)
  | filtered (first : FilterPhrase) (more : List FilterPhrase) (body : List Clause)
  | importAll (template : Phrase) (newName : PlainWord)
  | importSome (template : Phrase) (first : Alias) (more : List Alias)

/-! ## §2. What a clause means -/

/-- A parameter with all nodes moved to the start of a source. -/
def ParamPhrase.param (p : ParamPhrase) : Param :=
  ⟨p.name.text, p.fallback.map Phrase.expr⟩

/-- A filter with all nodes at the start of a source. -/
def FilterPhrase.call (f : FilterPhrase) : FilterCall :=
  ⟨.start, f.name.text, f.args.map Phrase.expr⟩

/-- A macro's own name and the name it gets here, which is the same if no other is given. -/
def Alias.names (a : Alias) : String × String :=
  (a.own.text, (a.newName.map PlainWord.text).getD a.own.text)

mutual

/-- The statement that a clause leaves in its body, all nodes at the start of a source, and what has
been collected after it.  The definitions inside a block or a macro are collected before it. -/
def Clause.build : Clause → Collected → Stmt × Collected
  | .text prose, d => (.text .start prose.text, d)
  | .print phrase, d => (.print .start phrase.expr, d)
  | .perform phrase, d => (.perform .start phrase.expr, d)
  | .branch cond body orElse, d =>
    let (ss, d₁) := Clause.buildAll body d
    let (more, d₂) := Clause.buildAll orElse d₁
    (.branch .start cond.expr ss more, d₂)
  | .loop key value iterable body orElse, d =>
    let (ss, d₁) := Clause.buildAll body d
    let (more, d₂) := Clause.buildAll orElse d₁
    (.loop .start (key.map PlainWord.text) value.text iterable.expr ss more, d₂)
  | .block name body, d =>
    let (ss, d₁) := Clause.buildAll body d
    (.block .start d₁.blocks.length, d₁.addBlock ⟨name.text, .start, ss⟩)
  | .defines name params body, d =>
    let (ss, d₁) := Clause.buildAll body d
    (.defines .start d₁.macros.length,
      d₁.addMacro ⟨name.text, .start, params.map ParamPhrase.param, ss⟩)
  | .includes template ignoreMissing bindings only, d =>
    (.includes ⟨.start, template.expr, bindings.map Phrase.expr, only, ignoreMissing⟩, d)
  | .reuses template aliases, d =>
    (.reuses ⟨.start, template.expr, aliases.map fun a => (a.1.text, a.2.text)⟩, d)
  | .assign first more, d =>
    (.assign .start ((first :: more).map (·.1.text)) ((first :: more).map (·.2.expr)), d)
  | .capture name body, d =>
    let (ss, d₁) := Clause.buildAll body d
    (.capture .start name.text ss, d₁)
  | .filtered first more body, d =>
    let (ss, d₁) := Clause.buildAll body d
    (.filtered .start ((first :: more).map FilterPhrase.call) ss, d₁)
  | .importAll template newName, d => (.importAll .start template.expr newName.text, d)
  | .importSome template first more, d =>
    (.importSome .start template.expr ((first :: more).map Alias.names), d)

/-- The statements that clauses leave, and what has been collected after them. -/
def Clause.buildAll : List Clause → Collected → List Stmt × Collected
  | [], d => ([], d)
  | clause :: clauses, d =>
    let (s, d₁) := clause.build d
    let (ss, d₂) := Clause.buildAll clauses d₁
    (s :: ss, d₂)

end

/-! ## §3. The fragments of a clause -/

/-- A part of a source outside of which nothing is open: literal text, or words between
delimiters. -/
inductive Fragment
  | prose (prose : Prose)
  | code (fence : Fence) (words : List Word)

/-- A tag: its name, and words after it. -/
def Fragment.tag (name : PlainWord) (words : List Word) : Fragment :=
  .code .tag (.name name :: words)

theorem comma_mem_punctuation : ',' ∈ punctuation := by decide

theorem bar_mem_punctuation : '|' ∈ punctuation := by decide

/-- The words of the items of a list that is not empty, with a mark between any two of them. -/
def inRow {c : Char} (isMark : c ∈ punctuation) (first : List Word) (more : List (List Word)) :
    List Word :=
  first ++ more.flatMap fun item => .mark c isMark :: item

/-- Arguments in parentheses. -/
def argWords (args : List Phrase) : List Word :=
  enclosed .parens (commas (args.map Phrase.words))

/-- The words of a parameter. -/
def ParamPhrase.words (p : ParamPhrase) : List Word :=
  .name p.name :: (p.fallback.map fun e => .mark '=' (by decide) :: e.words).getD []

/-- The words of a filter; without arguments it has no parentheses. -/
def FilterPhrase.words (f : FilterPhrase) : List Word :=
  .name f.name :: if f.args.isEmpty then [] else argWords f.args

/-- The words of a name with its alias. -/
def Alias.words (a : Alias) : List Word :=
  .name a.own :: (a.newName.map fun name => [.name ⟨"as", by decide⟩, .name name]).getD []

namespace Clause

/-- What is iterated over, and the names for it. -/
def loopWords (key : Option PlainWord) (value : PlainWord) (iterable : Phrase) : List Word :=
  (key.map fun key => [.name key, .mark ',' comma_mem_punctuation]).getD [] ++
    .name value :: .binary .isIn :: iterable.words

/-- Whether the template may be missing. -/
def missingWords (ignoreMissing : Bool) : List Word :=
  if ignoreMissing then [.name ⟨"ignore", by decide⟩, .name ⟨"missing", by decide⟩] else []

/-- The variables that the template gets. -/
def bindingWords (bindings : Option Phrase) : List Word :=
  (bindings.map fun e => .name ⟨"with", by decide⟩ :: e.words).getD []

/-- Whether it gets no others. -/
def onlyWords (only : Bool) : List Word :=
  if only then [.name ⟨"only", by decide⟩] else []

/-- The template that is included, and what it gets. -/
def inclusionWords (template : Phrase) (ignoreMissing : Bool) (bindings : Option Phrase)
    (only : Bool) : List Word :=
  template.words ++ (missingWords ignoreMissing ++ (bindingWords bindings ++ onlyWords only))

/-- The words of a block of another template and its name here. -/
def aliasWords (a : PlainWord × PlainWord) : List Word :=
  [.name a.1, .name ⟨"as", by decide⟩, .name a.2]

/-- The template whose blocks are taken over, and those that get other names. -/
def reuseWords (template : Phrase) : List (PlainWord × PlainWord) → List Word
  | [] => template.words
  | first :: more =>
    template.words ++ .name ⟨"with", by decide⟩ ::
      inRow comma_mem_punctuation (aliasWords first) (more.map aliasWords)

/-- Names, and their values after them. -/
def assignWords (first : PlainWord × Phrase) (more : List (PlainWord × Phrase)) : List Word :=
  inRow comma_mem_punctuation [.name first.1] (more.map fun a => [.name a.1]) ++
    .mark '=' (by decide) ::
      inRow comma_mem_punctuation first.2.words (more.map fun a => a.2.words)

/-- Filters, from the first one applied to the last one. -/
def filterWords (first : FilterPhrase) (more : List FilterPhrase) : List Word :=
  inRow bar_mem_punctuation first.words (more.map FilterPhrase.words)

/-- A template, and the macros that are imported from it. -/
def importWords (template : Phrase) (first : Alias) (more : List Alias) : List Word :=
  template.words ++ .name ⟨"import", by decide⟩ ::
    inRow comma_mem_punctuation first.words (more.map Alias.words)

/-- An alternative is left out if there is nothing in it. -/
def alternative (orElse : List Fragment) : List Fragment :=
  if orElse.isEmpty then [] else .tag ⟨"else", by decide⟩ [] :: orElse

end Clause

mutual

/-- The fragments that a clause is written in. -/
def Clause.fragments : Clause → List Fragment
  | .text prose => [.prose prose]
  | .print phrase => [.code .print phrase.words]
  | .perform phrase => [.tag ⟨"do", by decide⟩ phrase.words]
  | .branch cond body orElse =>
    .tag ⟨"if", by decide⟩ cond.words :: (Clause.allFragments body ++
      (Clause.alternative (Clause.allFragments orElse) ++ [.tag ⟨"endif", by decide⟩ []]))
  | .loop key value iterable body orElse =>
    .tag ⟨"for", by decide⟩ (Clause.loopWords key value iterable) ::
      (Clause.allFragments body ++
        (Clause.alternative (Clause.allFragments orElse) ++ [.tag ⟨"endfor", by decide⟩ []]))
  | .block name body =>
    .tag ⟨"block", by decide⟩ [.dotted name] ::
      (Clause.allFragments body ++ [.tag ⟨"endblock", by decide⟩ []])
  | .defines name params body =>
    .tag ⟨"macro", by decide⟩
        (.name name :: enclosed .parens (commas (params.map ParamPhrase.words))) ::
      (Clause.allFragments body ++ [.tag ⟨"endmacro", by decide⟩ []])
  | .includes template ignoreMissing bindings only =>
    [.tag ⟨"include", by decide⟩ (Clause.inclusionWords template ignoreMissing bindings only)]
  | .reuses template aliases =>
    [.tag ⟨"use", by decide⟩ (Clause.reuseWords template aliases)]
  | .assign first more => [.tag ⟨"set", by decide⟩ (Clause.assignWords first more)]
  | .capture name body =>
    .tag ⟨"set", by decide⟩ [.name name] ::
      (Clause.allFragments body ++ [.tag ⟨"endset", by decide⟩ []])
  | .filtered first more body =>
    .tag ⟨"filter", by decide⟩ (Clause.filterWords first more) ::
      (Clause.allFragments body ++ [.tag ⟨"endfilter", by decide⟩ []])
  | .importAll template newName =>
    [.tag ⟨"import", by decide⟩
      (template.words ++ [.name ⟨"as", by decide⟩, .name newName])]
  | .importSome template first more =>
    [.tag ⟨"from", by decide⟩ (Clause.importWords template first more)]

/-- The fragments that clauses are written in. -/
def Clause.allFragments : List Clause → List Fragment
  | [] => []
  | clause :: clauses => clause.fragments ++ Clause.allFragments clauses

end

/-- How a fragment is written: words each after a single space, without trim markers. -/
def Fragment.spelling : Fragment → List Char
  | .prose p => p.text.toList
  | .code fence words => fence.opener ++ spell words ++ ' ' :: fence.closer

/-- The tokens of a fragment. -/
def Fragment.shapes : Fragment → List (TokenKind × String)
  | .prose p => [(.text, p.text)]
  | .code fence words => fence.openShape :: shapesOf words ++ [blankShape, fence.closeShape]

/-! ## §4. Pages -/

/-- What a definition is called. -/
inductive Title
  | block (name : String)
  | macroDef (name : String)
deriving DecidableEq

/-- Whether a clause is literal text. -/
def Clause.isText : Clause → Bool
  | .text _ => true
  | _ => false

mutual

/-- The titles of the definitions in a clause. -/
def Clause.titles : Clause → List Title
  | .branch _ body orElse | .loop _ _ _ body orElse =>
    Clause.allTitles body ++ Clause.allTitles orElse
  | .block name body => Clause.allTitles body ++ [.block name.text]
  | .defines name _ body => Clause.allTitles body ++ [.macroDef name.text]
  | .capture _ body | .filtered _ _ body => Clause.allTitles body
  | .text _ | .print _ | .perform _ | .includes .. | .reuses .. | .assign .. | .importAll ..
  | .importSome .. => []

/-- The titles of the definitions in clauses. -/
def Clause.allTitles : List Clause → List Title
  | [] => []
  | clause :: clauses => clause.titles ++ Clause.allTitles clauses

end

mutual

/-- Whether no two texts follow each other anywhere inside a clause. -/
def Clause.Spaced : Clause → Prop
  | .branch _ body orElse | .loop _ _ _ body orElse =>
    Clause.AllSpaced body ∧ Clause.AllSpaced orElse
  | .block _ body | .defines _ _ body | .capture _ body | .filtered _ _ body =>
    Clause.AllSpaced body
  | .text _ | .print _ | .perform _ | .includes .. | .reuses .. | .assign .. | .importAll ..
  | .importSome .. => True

/-- Whether no two texts follow each other, among clauses or inside them. -/
def Clause.AllSpaced : List Clause → Prop
  | [] => True
  | clause :: clauses =>
    clause.Spaced ∧ (clause.isText → clauses.head?.all fun next => !next.isText) ∧
      Clause.AllSpaced clauses

end

/-- A template as it is written.  Texts do not follow each other, as they would be one; the blocks
have names that differ, and so have the macros. -/
structure Page where
  parent : Option Phrase
  clauses : List Clause
  spaced : Clause.AllSpaced clauses
  distinct : (Clause.allTitles clauses).Nodup

namespace Page

/-- What is collected before the clauses of a page. -/
def opening (page : Page) : Collected :=
  match page.parent with
  | none => .empty
  | some parent => Collected.empty.extend ⟨.start, parent.expr⟩

/-- The template that a page means, all its nodes at the start of a source. -/
def template (page : Page) (name : String) : Template :=
  let (body, d) := Clause.buildAll page.clauses page.opening
  ⟨name, d.parent, body, d.blocks, d.blockTable, d.macros, d.macroTable⟩

/-- The fragments of a page. -/
def fragments (page : Page) : List Fragment :=
  (page.parent.map fun parent => .tag ⟨"extends", by decide⟩ parent.words).toList ++
    Clause.allFragments page.clauses

/-- The text of a page. -/
def text (page : Page) : String :=
  .ofList (page.fragments.flatMap Fragment.spelling)

end Page

/-! ## §5. Templates without places -/

/-- An inclusion with all nodes moved to the start of a source. -/
def Inclusion.unplaced (i : Inclusion) : Inclusion :=
  ⟨.start, i.template.unplaced, i.bindings.map Expr.unplaced, i.only, i.ignoreMissing⟩

/-- A filter with all nodes moved to the start of a source. -/
def FilterCall.unplaced (f : FilterCall) : FilterCall :=
  ⟨.start, f.name, f.args.map Expr.unplaced⟩

/-- A `use` with all nodes moved to the start of a source. -/
def Reuse.unplaced (r : Reuse) : Reuse :=
  ⟨.start, r.template.unplaced, r.aliases⟩

/-- A parameter with all nodes moved to the start of a source. -/
def Param.unplaced (p : Param) : Param :=
  ⟨p.name, p.fallback.map Expr.unplaced⟩

/-- An `extends` with all nodes moved to the start of a source. -/
def Extends.unplaced (x : Extends) : Extends :=
  ⟨.start, x.template.unplaced⟩

mutual

/-- A statement with all nodes moved to the start of a source. -/
def Stmt.unplaced : Stmt → Stmt
  | .text _ content => .text .start content
  | .print _ e => .print .start e.unplaced
  | .block _ id => .block .start id
  | .branch _ cond body orElse =>
    .branch .start cond.unplaced (Stmt.unplacedAll body) (Stmt.unplacedAll orElse)
  | .loop _ key value iterable body orElse =>
    .loop .start key value iterable.unplaced (Stmt.unplacedAll body) (Stmt.unplacedAll orElse)
  | .includes inclusion => .includes inclusion.unplaced
  | .embeds inclusion blocks => .embeds inclusion.unplaced blocks
  | .reuses reuse => .reuses reuse.unplaced
  | .assign _ targets values => .assign .start targets (values.map Expr.unplaced)
  | .capture _ name body => .capture .start name (Stmt.unplacedAll body)
  | .perform _ e => .perform .start e.unplaced
  | .filtered _ filters body =>
    .filtered .start (filters.map FilterCall.unplaced) (Stmt.unplacedAll body)
  | .defines _ id => .defines .start id
  | .importAll _ template newName => .importAll .start template.unplaced newName
  | .importSome _ template names => .importSome .start template.unplaced names

/-- Statements with all nodes moved to the start of a source. -/
def Stmt.unplacedAll : List Stmt → List Stmt
  | [] => []
  | s :: ss => s.unplaced :: Stmt.unplacedAll ss

end

@[simp] theorem Stmt.unplacedAll_eq (ss : List Stmt) :
    Stmt.unplacedAll ss = ss.map Stmt.unplaced := by
  induction ss with
  | nil => rfl
  | cons s ss ih => rw [Stmt.unplacedAll, ih, List.map_cons]

/-- A block with all nodes moved to the start of a source. -/
def Block.unplaced (b : Block) : Block :=
  ⟨b.name, .start, b.body.map Stmt.unplaced⟩

/-- A macro with all nodes moved to the start of a source. -/
def MacroDef.unplaced (m : MacroDef) : MacroDef :=
  ⟨m.name, .start, m.params.map Param.unplaced, m.body.map Stmt.unplaced⟩

/-- What has been collected, with all nodes moved to the start of a source. -/
def Collected.unplaced (d : Collected) : Collected :=
  ⟨d.parent.map Extends.unplaced, d.blocks.map Block.unplaced, d.macros.map MacroDef.unplaced,
    d.macroTable, d.blockTable, d.outerTables⟩

/-- A template with all nodes moved to the start of a source. -/
def Template.unplaced (t : Template) : Template :=
  ⟨t.name, t.parent.map Extends.unplaced, t.body.map Stmt.unplaced, t.blocks.map Block.unplaced,
    t.blockTable, t.macros.map MacroDef.unplaced, t.macroTable⟩

end Stencil
