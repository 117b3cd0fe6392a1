import Stencil.Proofs.Template.Ownership
import Stencil.Render

/-!
The same code in another template.

When code is copied from one template into another its nodes come to stand at other places, and its
blocks get other numbers.  `relocate` says what becomes of it.  What the copy does may still differ
from what the original does, as code can ask for the template that it runs in: by `_self`, by
`block()`, by the name of a macro, or through a callback that looks at the name of the template.
Code that does nothing of this kind is portable.
-/

namespace Stencil

/-! ## §1. Code at other places -/

mutual

/-- An expression with its nodes at other places. -/
def Expr.relocate (move : Position → Position) : Expr → Expr
  | .name pos called => .name (move pos) called
  | .null pos => .null (move pos)
  | .bool pos value => .bool (move pos) value
  | .number pos value => .number (move pos) value
  | .string pos text => .string (move pos) text
  | .call pos called args => .call (move pos) called (Expr.relocateAll move args)
  | .filter pos called args => .filter (move pos) called (Expr.relocateAll move args)
  | .test pos called subject args =>
    .test (move pos) called (subject.relocate move) (Expr.relocateAll move args)
  | .binary pos op left right => .binary (move pos) op (left.relocate move) (right.relocate move)
  | .unary pos op operand => .unary (move pos) op (operand.relocate move)
  | .group pos inner => .group (move pos) (inner.relocate move)
  | .attribute pos object key => .attribute (move pos) (object.relocate move) (key.relocate move)
  | .method pos object key args =>
    .method (move pos) (object.relocate move) (key.relocate move) (Expr.relocateAll move args)
  | .conditional pos cond whenTrue whenFalse =>
    .conditional (move pos) (cond.relocate move) (whenTrue.relocate move)
      (whenFalse.relocate move)
  | .hash pos entries => .hash (move pos) (Expr.relocateEntries move entries)
  | .array pos items => .array (move pos) (Expr.relocateAll move items)

/-- Expressions with their nodes at other places. -/
def Expr.relocateAll (move : Position → Position) : List Expr → List Expr
  | [] => []
  | e :: es => e.relocate move :: Expr.relocateAll move es

/-- Entries of a hash with their nodes at other places. -/
def Expr.relocateEntries (move : Position → Position) : List (Entry Expr) → List (Entry Expr)
  | [] => []
  | ⟨pos, key, value⟩ :: entries =>
    ⟨move pos, key.relocate move, value.relocate move⟩ :: Expr.relocateEntries move entries

end

/-- An inclusion with its nodes at other places. -/
def Inclusion.relocate (move : Position → Position) (i : Inclusion) : Inclusion :=
  ⟨move i.position, i.template.relocate move, i.bindings.map (Expr.relocate move), i.only,
    i.ignoreMissing⟩

/-- A filter with its nodes at other places. -/
def FilterCall.relocate (move : Position → Position) (f : FilterCall) : FilterCall :=
  ⟨move f.position, f.name, Expr.relocateAll move f.args⟩

/-- A `use` with its nodes at other places. -/
def Reuse.relocate (move : Position → Position) (r : Reuse) : Reuse :=
  ⟨move r.position, r.template.relocate move, r.aliases⟩

/-- A table of blocks under other numbers. -/
def renumber (number : DefinitionId → DefinitionId) (table : Table DefinitionId) :
    Table DefinitionId :=
  table.map fun (name, id) => (name, number id)

mutual

/-- A statement with its nodes at other places and its blocks under other numbers. -/
def Stmt.relocate (move : Position → Position) (number : DefinitionId → DefinitionId) :
    Stmt → Stmt
  | .text pos content => .text (move pos) content
  | .print pos e => .print (move pos) (e.relocate move)
  | .block pos id => .block (move pos) (number id)
  | .branch pos cond body orElse =>
    .branch (move pos) (cond.relocate move) (Stmt.relocateAll move number body)
      (Stmt.relocateAll move number orElse)
  | .loop pos key value iterable body orElse =>
    .loop (move pos) key value (iterable.relocate move) (Stmt.relocateAll move number body)
      (Stmt.relocateAll move number orElse)
  | .includes inclusion => .includes (inclusion.relocate move)
  | .embeds inclusion blocks => .embeds (inclusion.relocate move) (renumber number blocks)
  | .reuses reuse => .reuses (reuse.relocate move)
  | .assign pos targets values => .assign (move pos) targets (Expr.relocateAll move values)
  | .capture pos name body => .capture (move pos) name (Stmt.relocateAll move number body)
  | .perform pos e => .perform (move pos) (e.relocate move)
  | .filtered pos filters body =>
    .filtered (move pos) (filters.map (FilterCall.relocate move))
      (Stmt.relocateAll move number body)
  | .defines pos id => .defines (move pos) id
  | .importAll pos template newName => .importAll (move pos) (template.relocate move) newName
  | .importSome pos template names => .importSome (move pos) (template.relocate move) names

/-- Statements with their nodes at other places and their blocks under other numbers. -/
def Stmt.relocateAll (move : Position → Position) (number : DefinitionId → DefinitionId) :
    List Stmt → List Stmt
  | [] => []
  | s :: ss => s.relocate move number :: Stmt.relocateAll move number ss

end

/-- A block with its nodes at other places and the blocks inside under other numbers. -/
def Block.relocate (move : Position → Position) (number : DefinitionId → DefinitionId)
    (b : Block) : Block :=
  ⟨b.name, move b.position, Stmt.relocateAll move number b.body⟩

mutual

@[simp] theorem Expr.relocate_id : ∀ e : Expr, e.relocate id = e
  | .name .. | .null _ | .bool .. | .number .. | .string .. => by
    rw [Expr.relocate, id_eq]
  | .call _ _ args | .filter _ _ args | .array _ args => by
    rw [Expr.relocate, id_eq, relocateAll_id args]
  | .test _ _ subject args => by
    rw [Expr.relocate, id_eq, relocate_id subject, relocateAll_id args]
  | .binary _ _ left right => by
    rw [Expr.relocate, id_eq, relocate_id left, relocate_id right]
  | .unary _ _ e | .group _ e => by
    rw [Expr.relocate, id_eq, relocate_id e]
  | .attribute _ object key => by
    rw [Expr.relocate, id_eq, relocate_id object, relocate_id key]
  | .method _ object key args => by
    rw [Expr.relocate, id_eq, relocate_id object, relocate_id key, relocateAll_id args]
  | .conditional _ cond whenTrue whenFalse => by
    rw [Expr.relocate, id_eq, relocate_id cond, relocate_id whenTrue, relocate_id whenFalse]
  | .hash _ entries => by
    rw [Expr.relocate, id_eq, relocateEntries_id entries]

@[simp] theorem Expr.relocateAll_id : ∀ es : List Expr, Expr.relocateAll id es = es
  | [] => by rw [Expr.relocateAll]
  | e :: es => by rw [Expr.relocateAll, relocate_id e, relocateAll_id es]

@[simp] theorem Expr.relocateEntries_id : ∀ entries : List (Entry Expr),
    Expr.relocateEntries id entries = entries
  | [] => by rw [Expr.relocateEntries]
  | ⟨_, key, value⟩ :: entries => by
    rw [Expr.relocateEntries, id_eq, relocate_id key, relocate_id value,
      relocateEntries_id entries]

end

@[simp] theorem Inclusion.relocate_id (i : Inclusion) : i.relocate id = i := by
  obtain ⟨pos, template, bindings, only, ignoreMissing⟩ := i
  cases bindings <;> simp [Inclusion.relocate]

@[simp] theorem FilterCall.relocate_id (f : FilterCall) : f.relocate id = f := by
  simp [FilterCall.relocate]

@[simp] theorem Reuse.relocate_id (r : Reuse) : r.relocate id = r := by
  simp [Reuse.relocate]

@[simp] theorem renumber_id (table : Table DefinitionId) : renumber id table = table :=
  List.map_id' table

mutual

@[simp] theorem Stmt.relocate_id : ∀ s : Stmt, s.relocate id id = s
  | .text .. | .block .. | .defines .. => by
    simp [Stmt.relocate]
  | .print .. | .perform .. | .importAll .. | .importSome .. | .includes _ | .embeds ..
  | .reuses _ | .assign .. => by
    simp [Stmt.relocate]
  | .branch _ _ body orElse | .loop _ _ _ _ body orElse => by
    simp [Stmt.relocate, relocateAll_id body, relocateAll_id orElse]
  | .capture _ _ body => by
    simp [Stmt.relocate, relocateAll_id body]
  | .filtered _ filters body => by
    have hfilters : FilterCall.relocate id = id := funext FilterCall.relocate_id
    simp [Stmt.relocate, relocateAll_id body, hfilters]

@[simp] theorem Stmt.relocateAll_id : ∀ ss : List Stmt, Stmt.relocateAll id id ss = ss
  | [] => by rw [Stmt.relocateAll]
  | s :: ss => by rw [Stmt.relocateAll, relocate_id s, relocateAll_id ss]

end

@[simp] theorem Render.isSelf_relocate (move : Position → Position) (e : Expr) :
    isSelf (e.relocate move) = isSelf e := by
  cases e <;> simp [Expr.relocate, isSelf]

/-! ## §2. Portable code -/

/-- Whether a callback does not look at the name of the template. -/
def CallState.Blind {α : Type} (f : CallState → α) : Prop :=
  ∀ template template' undefined, f ⟨template, undefined⟩ = f ⟨template', undefined⟩

section Portable

variable {ω : Type} (env : Environment ω) (macros : Table DefinitionId)

/-- Whether a node does not ask for the template that it runs in, where that may have certain
macros. -/
def Expr.Placeless : Expr → Prop
  | .name _ called => called ≠ Render.selfName
  | .call _ called _ =>
    called ≠ "block" ∧ macros.find? called = none ∧
      ∀ f ∈ env.functions.find? called, CallState.Blind f
  | .filter _ called _ => ∀ f ∈ env.filters.find? called, CallState.Blind f
  | .test _ called _ _ => ∀ f ∈ env.tests.find? called, CallState.Blind f
  | .null _ | .bool .. | .number .. | .string .. | .binary .. | .unary .. | .group ..
  | .attribute .. | .method .. | .conditional .. | .hash .. | .array .. => True

/-- Whether a statement asks for nothing of the template that it runs in but certain blocks, and
the expressions and filters of the statement ask for nothing. -/
structure Stmt.Portable (blocks : DefinitionId → Prop) (s : Stmt) : Prop where
  exprs : ∀ whole ∈ s.exprs, ∀ e, whole.Inside e → e.Placeless env macros
  blocks : ∀ id, .block id ∈ s.mentions → blocks id
  filters : ∀ pos filters body, s = .filtered pos filters body →
    ∀ f ∈ filters, ∀ g ∈ env.filters.find? f.name, CallState.Blind g

end Portable

theorem Expr.Inside.trans {whole e part : Expr} (h : whole.Inside e) (h' : e.Inside part) :
    whole.Inside part := by
  induction h' with
  | whole => exact h
  | part _ hpart ih => exact ih.part hpart

end Stencil
