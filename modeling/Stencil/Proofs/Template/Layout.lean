import Stencil.Proofs.Expr.Forgetting
import Stencil.Proofs.Template.Termination

/-!
The layout of code does not matter.

How much white space stands at a place inside a tag, a print or an interpolation, and which, makes
no difference to what a source is parsed as.  Lexing gives the same tokens but for their places, and
parsing forgets places.
-/

namespace Stencil

/-! ## §1. Definitions -/

namespace Parse

theorem forgets_addBlock (block : Block) :
    Forgets id (addBlock block) (addBlock block.unplaced) := by
  refine Forgets.get_bind fun s => ?_
  rw [show s.unplaced.blockTables = s.blockTables from rfl]
  cases s.blockTables with
  | nil => exact Forgets.fail _ rfl
  | cons table outer =>
    refine Forgets.ite Iff.rfl (fun _ => Forgets.fail _ rfl) fun _ => ?_
    have hid : s.unplaced.blocks.length = s.blocks.length := List.length_map _
    rw [hid]
    refine Forgets.bind (f := id) (Forgets.set ?_) fun _ => Forgets.pure s.blocks.length
    simp [ParseState.unplaced, Block.unplaced]

theorem forgets_addMacro (definition : MacroDef) :
    Forgets id (addMacro definition) (addMacro definition.unplaced) := by
  refine Forgets.get_bind fun s => Forgets.ite Iff.rfl (fun _ => Forgets.fail _ rfl) fun _ => ?_
  have hid : s.unplaced.macros.length = s.macros.length := List.length_map _
  rw [hid]
  refine Forgets.bind (f := id) (Forgets.set ?_) fun _ => Forgets.pure s.macros.length
  simp [ParseState.unplaced, MacroDef.unplaced]

theorem forgets_openTable : Forgets id openTable openTable :=
  Forgets.modify fun _ => rfl

theorem forgets_closeTable : Forgets id closeTable closeTable := by
  refine Forgets.get_bind fun s => ?_
  rw [show s.unplaced.blockTables = s.blockTables from rfl]
  cases s.blockTables with
  | nil => exact Forgets.pure []
  | cons table outer =>
    exact Forgets.bind (f := id) (Forgets.set rfl) fun _ => Forgets.pure table

end Parse

/-! ## §2. Statements -/

namespace Stmt

open Parse

/-- A body without places. -/
def Body.unplaced (body : Body) : Body :=
  ⟨body.statements.map Stmt.unplaced, body.ended⟩

/-- The tag that a body belongs to, without its place. -/
def Opening.unplaced (opening : Opening) : Opening :=
  ⟨opening.tag, .start⟩

/-- What the rules of the grammar build on forgets places. -/
structure Rules.Forget (rules : Rules) : Prop where
  expr : Forgets Expr.unplaced rules.expr rules.expr
  body : ∀ stops opening, Forgets Body.unplaced (rules.body stops opening)
    (rules.body stops (opening.map Opening.unplaced))

theorem forgets_parseDottedName (n : Nat) :
    Forgets id (parseDottedName n) (parseDottedName n) := by
  refine forgets_name.bind fun first => ?_
  refine forgets_iterate (f := id) (g := id) (fun dotted => ?_) n first
  refine forgets_next.bind fun dot => ?_
  refine Forgets.ite (by rw [Token.is_unplaced (by decide)]) (fun _ => ?_) fun _ => ?_
  · refine forgets_next.bind fun part => Forgets.ite Iff.rfl (fun hpart => ?_) fun _ => ?_
    · rw [Token.value_unplaced (by rw [hpart]; nofun)]
      exact Forgets.pure_of rfl
    · exact forgets_backup.bind fun _ => forgets_backup.bind fun _ => Forgets.pure_of rfl
  · exact forgets_backup.bind fun _ => Forgets.pure_of rfl

theorem forgets_parseNamedEnd (n : Nat) (opened : String) :
    Forgets id (parseNamedEnd n opened) (parseNamedEnd n opened) := by
  refine forgets_peek.bind fun token => Forgets.ite Iff.rfl (fun _ => ?_) fun _ => forgets_endTag
  refine (forgets_parseDottedName n).bind fun found => Forgets.ite Iff.rfl (fun _ => ?_) fun _ => ?_
  · exact Forgets.fail_bind _ rfl
  · exact forgets_endTag

theorem forgets_parseAlias? (keyword : String) :
    Forgets id (parseAlias? keyword) (parseAlias? keyword) := by
  refine (forgets_accept (by decide) _).bind fun _ => Forgets.ite Iff.rfl (fun _ => ?_) fun _ => ?_
  · exact forgets_name.bind fun name => Forgets.pure (some name)
  · exact Forgets.pure none

theorem unplaced_nestBranches (pos : Position) (branches : List (Expr × List Stmt))
    (orElse : List Stmt) :
    (nestBranches pos branches orElse).map Stmt.unplaced =
      nestBranches .start (branches.map (Prod.map Expr.unplaced (List.map Stmt.unplaced)))
        (orElse.map Stmt.unplaced) := by
  induction branches generalizing orElse with
  | nil => rfl
  | cons branch branches ih =>
    refine (ih _).trans ?_
    rw [List.map_singleton, Stmt.unplaced, unplacedAll_eq, unplacedAll_eq]
    rfl

variable {rules : Rules} (hrules : rules.Forget)

include hrules

theorem forgets_bodyOf (tag : String) (start : Position) (stops : List String) :
    Forgets Body.unplaced (rules.bodyOf tag start stops) (rules.bodyOf tag .start stops) :=
  hrules.body stops (some ⟨tag, start⟩)

theorem forgets_parseIf (pos : Position) :
    Forgets (List.map Stmt.unplaced) (parseIf rules pos) (parseIf rules .start) := by
  refine forgets_iterate (f := List.map (Prod.map Expr.unplaced (List.map Stmt.unplaced)))
    (g := List.map Stmt.unplaced) (fun branches => ?_) _ []
  refine hrules.expr.bind fun cond => forgets_endTag.bind fun _ => ?_
  refine (forgets_bodyOf hrules _ _ _).bind fun body => ?_
  let pairs := List.map (Prod.map Expr.unplaced (List.map Stmt.unplaced))
  have hdone : ∀ orElse,
      Turn.done (nestBranches .start ((cond.unplaced, body.unplaced.statements) :: pairs branches)
        (orElse.map Stmt.unplaced)) = Turn.map pairs (List.map Stmt.unplaced)
          (.done (nestBranches pos ((cond, body.statements) :: branches) orElse)) := by
    intro orElse
    rw [Turn.map, unplaced_nestBranches]
    rfl
  have hended : body.unplaced.ended = body.ended := rfl
  rw [hended]
  generalize body.ended = ended
  split
  · exact Forgets.pure_of rfl
  · refine (forgets_accept (by decide) _).bind fun _ => ?_
    refine Forgets.ite Iff.rfl (fun _ => Forgets.pure_of rfl) fun _ => ?_
    refine forgets_endTag.bind fun _ => (forgets_bodyOf hrules _ _ _).bind fun orElse => ?_
    exact forgets_endTag.bind fun _ => Forgets.pure_of (hdone orElse.statements)
  · exact forgets_endTag.bind fun _ => Forgets.pure_of (hdone [])

theorem forgets_parseFor (pos : Position) :
    Forgets Stmt.unplaced (parseFor rules pos) (parseFor rules .start) := by
  refine forgets_name.bind fun first => (forgets_accept (by decide) _).bind fun _ => ?_
  extract_lets items items'
  have hitems : ∀ names, Forgets Stmt.unplaced (items names) (items' names) := by
    intro (key, value)
    refine (forgets_expectValue (by decide) _).bind fun _ => hrules.expr.bind fun iterable => ?_
    refine (forgets_accept (by decide) _).bind fun _ => ?_
    extract_lets rounds rounds'
    have hrounds : ∀ cond : Option Expr,
        Forgets Stmt.unplaced (rounds cond) (rounds' (cond.map Expr.unplaced)) := by
      intro cond
      refine forgets_endTag.bind fun _ => (forgets_bodyOf hrules _ _ _).bind fun body => ?_
      refine forgets_endTag.bind fun _ => ?_
      extract_lets statements loop statements' loop'
      have hstatements : statements' = statements.map Stmt.unplaced := by
        cases cond with
        | none => rfl
        | some cond =>
          show [Stmt.branch .start cond.unplaced (body.statements.map Stmt.unplaced) []] =
            [Stmt.unplaced (.branch pos cond body.statements [])]
          rw [unplaced, unplacedAll_eq, unplacedAll_eq, List.map_nil]
      have hloop : ∀ orElse,
          Forgets Stmt.unplaced (loop orElse) (loop' (orElse.map Stmt.unplaced)) :=
        fun orElse => Forgets.pure_of (by
          rw [hstatements, unplaced, unplacedAll_eq, unplacedAll_eq])
      refine Forgets.ite Iff.rfl (fun _ => ?_) fun _ => ?_
      · exact (forgets_bodyOf hrules _ _ _).bind fun orElse => forgets_endTag.bind fun _ =>
          (Forgets.pure orElse.statements).bind hloop
      · exact Forgets.bind (Forgets.pure []) hloop
    refine Forgets.ite Iff.rfl (fun _ => ?_) fun _ => ?_
    · exact Forgets.bind (f := Option.map Expr.unplaced) (hrules.expr.map fun _ => rfl) hrounds
    · exact Forgets.bind (Forgets.pure none) hrounds
  refine Forgets.ite Iff.rfl (fun _ => ?_) fun _ => ?_
  · exact forgets_name.bind fun name =>
      Forgets.bind (f := id) (Forgets.pure (some first, name)) hitems
  · exact Forgets.bind (f := id) (Forgets.pure (none, first)) hitems

theorem forgets_parseBlock (pos : Position) :
    Forgets Stmt.unplaced (parseBlock rules pos) (parseBlock rules .start) := by
  refine (forgets_parseDottedName _).bind fun name => forgets_peek.bind fun token => ?_
  extract_lets slot slot'
  have hslot : ∀ statements,
      Forgets Stmt.unplaced (slot statements) (slot' (statements.map Stmt.unplaced)) :=
    fun statements => (forgets_addBlock ⟨name, pos, statements⟩).bind fun _ =>
      Forgets.pure_of (by rw [unplaced]; rfl)
  refine Forgets.ite Iff.rfl (fun _ => ?_) fun _ => ?_
  · refine forgets_endTag.bind fun _ => (forgets_bodyOf hrules _ _ _).bind fun body => ?_
    exact (forgets_parseNamedEnd _ _).bind fun _ => (Forgets.pure body.statements).bind hslot
  · refine hrules.expr.bind fun e => forgets_endTag.bind fun _ => ?_
    exact Forgets.bind (Forgets.pure_of (by rw [List.map_singleton, unplaced])) hslot

theorem forgets_parseParams :
    Forgets (List.map Param.unplaced) (parseParams rules) (parseParams rules) := by
  refine forgets_iterate (f := List.map Param.unplaced) (g := List.map Param.unplaced)
    (fun params => ?_) _ []
  refine forgets_nextSolid.bind fun token => ?_
  rw [Token.kind_unplaced]
  cases hkind : token.kind with
  | parensClose => exact Forgets.pure_of (by rw [Turn.map, List.map_reverse])
  | name =>
    rw [Token.value_unplaced (by simp [hkind])]
    refine (forgets_accept (by decide) _).bind fun _ => ?_
    extract_lets more more'
    have hmore : ∀ fallback : Option Expr, Forgets
        (Turn.map (List.map Param.unplaced) (List.map Param.unplaced)) (more fallback)
        (more' (fallback.map Expr.unplaced)) := by
      intro fallback
      refine (forgets_accept (by decide) _).bind fun _ => ?_
      refine Forgets.ite Iff.rfl (fun _ => Forgets.pure_of rfl) fun _ => ?_
      refine (forgets_expect _).bind fun _ => Forgets.pure_of ?_
      rw [Turn.map, List.map_reverse]
      rfl
    refine Forgets.ite Iff.rfl (fun _ => ?_) fun _ => ?_
    · exact Forgets.bind (f := Option.map Expr.unplaced) (hrules.expr.map fun _ => rfl) hmore
    · exact Forgets.bind (Forgets.pure none) hmore
  | _ => exact Forgets.unexpected token _

theorem forgets_parseMacro (pos : Position) :
    Forgets Stmt.unplaced (parseMacro rules pos) (parseMacro rules .start) := by
  refine forgets_name.bind fun name => (forgets_expect _).bind fun _ => ?_
  refine (forgets_parseParams hrules).bind fun params => forgets_endTag.bind fun _ => ?_
  refine (forgets_bodyOf hrules _ _ _).bind fun body => (forgets_parseNamedEnd _ _).bind fun _ => ?_
  exact (forgets_addMacro ⟨name, pos, params, body.statements⟩).bind fun _ =>
    Forgets.pure_of (by rw [unplaced]; rfl)

theorem forgets_parseExtends (pos : Position) :
    Forgets id (parseExtends rules pos) (parseExtends rules .start) := by
  refine Forgets.get_bind fun s => ?_
  extract_lets extend extend'
  have hextend : Forgets id (extend ()) (extend' ()) :=
    hrules.expr.bind fun _ => forgets_endTag.bind fun _ => Forgets.modify fun _ => rfl
  refine Forgets.ite (by simp [ParseState.unplaced]) (fun _ => ?_) fun _ => hextend
  exact Forgets.fail_bind _ rfl

theorem forgets_parseUse (pos : Position) :
    Forgets Stmt.unplaced (parseUse rules pos) (parseUse rules .start) := by
  refine hrules.expr.bind fun template => (forgets_accept (by decide) _).bind fun _ => ?_
  extract_lets reuse reuse'
  have hreuse : ∀ aliases, Forgets Stmt.unplaced (reuse aliases) (reuse' aliases) := fun aliases =>
    forgets_endTag.bind fun _ => Forgets.pure_of (by rw [unplaced]; rfl)
  refine Forgets.ite Iff.rfl (fun _ => ?_) fun _ => ?_
  · refine Forgets.bind (forgets_commaSeparated (f := id) ?_ _) fun aliases => ?_
    · exact forgets_name.bind fun own => (forgets_expectValue (by decide) _).bind fun _ =>
        forgets_name.bind fun name => Forgets.pure (own, name)
    · rw [List.map_id]
      exact hreuse aliases
  · exact Forgets.bind (f := id) (Forgets.pure []) hreuse

theorem forgets_parseInclusion (pos : Position) :
    Forgets Inclusion.unplaced (parseInclusion rules pos) (parseInclusion rules .start) := by
  refine hrules.expr.bind fun template => (forgets_accept (by decide) _).bind fun _ => ?_
  extract_lets more more'
  have hmore : ∀ ignoreMissing,
      Forgets Inclusion.unplaced (more ignoreMissing) (more' ignoreMissing) := by
    intro ignoreMissing
    refine (forgets_accept (by decide) _).bind fun _ => ?_
    extract_lets only only'
    have honly : ∀ bindings : Option Expr,
        Forgets Inclusion.unplaced (only bindings) (only' (bindings.map Expr.unplaced)) :=
      fun bindings => (forgets_accept (by decide) _).bind fun _ => Forgets.pure_of rfl
    refine Forgets.ite Iff.rfl (fun _ => ?_) fun _ => ?_
    · exact Forgets.bind (f := Option.map Expr.unplaced) (hrules.expr.map fun _ => rfl) honly
    · exact Forgets.bind (Forgets.pure none) honly
  refine Forgets.ite Iff.rfl (fun _ => ?_) fun _ => ?_
  · exact (forgets_expectValue (by decide) _).bind fun _ =>
      Forgets.bind (f := id) (Forgets.pure true) hmore
  · exact Forgets.bind (f := id) (Forgets.pure false) hmore

theorem forgets_parseEmbed (pos : Position) :
    Forgets Stmt.unplaced (parseEmbed rules pos) (parseEmbed rules .start) := by
  refine (forgets_parseInclusion hrules _).bind fun inclusion => forgets_endTag.bind fun _ => ?_
  refine forgets_openTable.bind fun _ => (forgets_bodyOf hrules _ _ _).bind fun _ => ?_
  refine forgets_closeTable.bind fun blocks => forgets_endTag.bind fun _ => ?_
  exact Forgets.pure_of (by rw [unplaced]; rfl)

theorem forgets_parseImport (pos : Position) :
    Forgets Stmt.unplaced (parseImport rules pos) (parseImport rules .start) := by
  refine hrules.expr.bind fun template => (forgets_expectValue (by decide) _).bind fun _ => ?_
  exact forgets_name.bind fun _ => forgets_endTag.bind fun _ =>
    Forgets.pure_of (by rw [unplaced]; rfl)

theorem forgets_parseFrom (pos : Position) :
    Forgets Stmt.unplaced (parseFrom rules pos) (parseFrom rules .start) := by
  refine hrules.expr.bind fun template => (forgets_expectValue (by decide) _).bind fun _ => ?_
  refine Forgets.bind (forgets_commaSeparated (f := id) ?_ _) fun names => ?_
  · exact forgets_name.bind fun own => (forgets_parseAlias? _).bind fun name =>
      Forgets.pure (own, name.getD own)
  · exact forgets_endTag.bind fun _ => Forgets.pure_of (by rw [unplaced, List.map_id])

theorem forgets_parseSet (pos : Position) :
    Forgets Stmt.unplaced (parseSet rules pos) (parseSet rules .start) := by
  refine (forgets_commaSeparated forgets_name _).bind fun targets => ?_
  rw [List.map_id]
  refine (forgets_accept (by decide) _).bind fun _ => Forgets.ite Iff.rfl (fun _ => ?_) fun _ => ?_
  · refine (forgets_commaSeparated hrules.expr _).bind fun values => forgets_endTag.bind fun _ => ?_
    rw [List.length_map]
    refine Forgets.ite Iff.rfl (fun _ => ?_) fun _ => Forgets.pure_of (by rw [unplaced])
    exact Forgets.fail_bind _ rfl
  · split
    · refine forgets_endTag.bind fun _ => (forgets_bodyOf hrules _ _ _).bind fun body => ?_
      exact forgets_endTag.bind fun _ => Forgets.pure_of (by rw [unplaced, unplacedAll_eq]; rfl)
    · exact Forgets.fail _ rfl

theorem forgets_parseFilterCalls :
    Forgets (List.map FilterCall.unplaced) (parseFilterCalls rules) (parseFilterCalls rules) := by
  refine forgets_iterate (f := List.map FilterCall.unplaced) (g := List.map FilterCall.unplaced)
    (fun filters => ?_) _ []
  refine (forgets_expect _).bind_of (fun _ _ _ => kind_of_expect (by decide))
    fun filter hfilter => ?_
  rw [Token.value_unplaced hfilter]
  refine (forgets_accept (by decide) _).bind fun _ => ?_
  extract_lets more more'
  have hmore : ∀ args : List Expr, Forgets
      (Turn.map (List.map FilterCall.unplaced) (List.map FilterCall.unplaced)) (more args)
      (more' (args.map Expr.unplaced)) := by
    intro args
    refine (forgets_accept (by decide) _).bind fun _ => ?_
    refine Forgets.ite Iff.rfl (fun _ => Forgets.pure_of rfl) fun _ => Forgets.pure_of ?_
    rw [Turn.map, List.map_reverse]
    rfl
  refine Forgets.ite Iff.rfl (fun _ => ?_) fun _ => ?_
  · exact (forgets_listUntil hrules.expr _ _).bind hmore
  · exact Forgets.bind (Forgets.pure []) hmore

theorem forgets_parseFiltered (pos : Position) :
    Forgets Stmt.unplaced (parseFiltered rules pos) (parseFiltered rules .start) := by
  refine (forgets_parseFilterCalls hrules).bind fun filters => forgets_endTag.bind fun _ => ?_
  refine (forgets_bodyOf hrules _ _ _).bind fun body => forgets_endTag.bind fun _ => ?_
  exact Forgets.pure_of (by rw [unplaced, unplacedAll_eq]; rfl)

theorem forgets_parseTag (tag : String) (pos : Position) :
    Forgets (List.map Stmt.unplaced) (parseTag rules tag pos) (parseTag rules tag .start) := by
  have hone : ∀ {x y : Parse Stmt}, Forgets Stmt.unplaced x y →
      Forgets (List.map Stmt.unplaced) (do pure [← x]) (do pure [← y]) := fun h =>
    h.bind fun s => Forgets.pure [s]
  unfold parseTag
  split
  · exact forgets_parseIf hrules pos
  · exact hone (forgets_parseFor hrules pos)
  · exact hone (forgets_parseBlock hrules pos)
  · exact (forgets_parseExtends hrules pos).bind fun _ => Forgets.pure []
  · exact hone (forgets_parseUse hrules pos)
  · refine (forgets_parseInclusion hrules pos).bind fun inclusion => forgets_endTag.bind fun _ => ?_
    exact Forgets.pure_of (by rw [List.map_singleton, unplaced])
  · exact hone (forgets_parseEmbed hrules pos)
  · exact hone (forgets_parseSet hrules pos)
  · refine hrules.expr.bind fun e => forgets_endTag.bind fun _ => ?_
    exact Forgets.pure_of (by rw [List.map_singleton, unplaced])
  · exact hone (forgets_parseFiltered hrules pos)
  · exact hone (forgets_parseMacro hrules pos)
  · exact hone (forgets_parseImport hrules pos)
  · exact hone (forgets_parseFrom hrules pos)
  · exact Forgets.fail _ rfl

theorem forgets_parsePiece (stops : List String) (opening : Option Opening)
    (before : List Stmt) :
    Forgets (Turn.map (List.map Stmt.unplaced) Body.unplaced)
      (parsePiece rules stops opening before)
      (parsePiece rules stops (opening.map Opening.unplaced) (before.map Stmt.unplaced)) := by
  refine forgets_next.bind fun token => ?_
  rw [Token.kind_unplaced]
  cases hkind : token.kind with
  | eof =>
    cases opening with
    | none => exact Forgets.pure_of (by rw [Turn.map, Body.unplaced, List.map_reverse])
    | some opening => exact Forgets.fail _ rfl
  | text =>
    rw [Token.value_unplaced (by simp [hkind])]
    exact Forgets.pure_of (by rw [Turn.map, List.map_cons, unplaced]; rfl)
  | printOpen =>
    refine hrules.expr.bind fun e => (forgets_expect _).bind fun _ => Forgets.pure_of ?_
    rw [Turn.map, List.map_cons, unplaced]
    rfl
  | tagOpen =>
    refine forgets_name.bind fun tag => Forgets.ite Iff.rfl (fun _ => ?_) fun _ => ?_
    · exact Forgets.pure_of (by rw [Turn.map, Body.unplaced, List.map_reverse]; rfl)
    · refine (forgets_parseTag hrules tag token.position).bind fun ss => Forgets.pure_of ?_
      rw [Turn.map, List.map_append]
  | _ => exact Forgets.unexpected token _

omit hrules

theorem forgets_parseBody (n : Nat) (stops : List String) (opening : Option Opening) :
    Forgets Body.unplaced (parseBody n stops opening)
      (parseBody n stops (opening.map Opening.unplaced)) := by
  induction n generalizing stops opening with
  | zero => exact Forgets.exhausted
  | succ n ih =>
    have hrules : Rules.Forget ⟨n, Expr.parse n .any, parseBody n⟩ :=
      ⟨Expr.forgets_parse n .any, ih⟩
    exact forgets_iterate (forgets_parsePiece hrules stops opening) n []

end Stmt

/-! ## §3. Templates -/

namespace Template

/-- What parsing a template gives, without places. -/
def parsed : Except ParseFailure Template → Except ParseFailure Template
  | .ok t => .ok t.unplaced
  | .error e => .error e.unplaced

theorem parseWithin_unplaced (n : Nat) (name : String) (σ : TokenStream) :
    parseWithin n name σ.unplaced = parsed (parseWithin n name σ) := by
  have hbody : (Stmt.parseBody n [] none).run (Parse.startState σ.unplaced) = _ :=
    Stmt.forgets_parseBody n [] none (Parse.startState σ)
  unfold parseWithin
  rw [hbody]
  cases (Stmt.parseBody n [] none).run (Parse.startState σ) <;> rfl

/-- Streams that are the same without places are parsed as the same template without places, or not
for the same reason. -/
theorem parsed_parse {source source' : String} (h : (lex source').unplaced = (lex source).unplaced)
    (name : String) : parsed (parse name source') = parsed (parse name source) := by
  have hlength : (lex source').tokens.length = (lex source).tokens.length := by
    simpa [TokenStream.unplaced] using congrArg (List.length ∘ TokenStream.tokens) h
  unfold parse
  rw [← parseWithin_unplaced, ← parseWithin_unplaced, h, hlength]

/-- **The layout of code does not matter.**  Of two sources that differ in one run of blanks inside
a region of code, both are parsed as the same template but for places, or neither is parsed and the
cause is the same but for places. -/
theorem parse_of_respaced (name : String) {source source' : String}
    (h : Respaced source source') :
    (∃ t t', parse name source = .ok t ∧ parse name source' = .ok t' ∧ t'.unplaced = t.unplaced) ∨
      ∃ e e', parse name source = .error (.error e) ∧ parse name source' = .error (.error e') ∧
        e'.kind.unplaced = e.kind.unplaced := by
  have hparsed := parsed_parse (unplaced_lex h) name
  have hends := parse_ne_exhausted name source
  have hends' := parse_ne_exhausted name source'
  cases hresult : parse name source with
  | ok t =>
    cases hresult' : parse name source' with
    | ok t' =>
      rw [hresult, hresult'] at hparsed
      exact .inl ⟨t, t', rfl, rfl, Except.ok.inj hparsed⟩
    | error e =>
      rw [hresult, hresult'] at hparsed
      cases hparsed
  | error e =>
    cases hresult' : parse name source' with
    | ok t' =>
      rw [hresult, hresult'] at hparsed
      cases hparsed
    | error e' =>
      rw [hresult, hresult'] at hparsed
      cases e with
      | exhausted => exact absurd hresult hends
      | error e =>
        cases e' with
        | exhausted => exact absurd hresult' hends'
        | error e' =>
          have herror := ParseFailure.error.inj (Except.error.inj hparsed)
          exact .inr ⟨e, e', rfl, rfl, congrArg ParseError.kind herror⟩

/-- The gap between the words of an operator, in an interpolation inside a tag. -/
theorem parse_of_respaced_not_in :
    ∃ t t', parse "t" "\x7b% do \"#\x7b a not in b \x7d\" %\x7d" = .ok t ∧
      parse "t" "\x7b% do \"#\x7b a not \n\t in b \x7d\" %\x7d" = .ok t' ∧ t'.unplaced = t.unplaced := by
  let gap : Respacing :=
    { old := [' ']
      new := [' ', '\n', '\t', ' ']
      after := "in b \x7d\" %\x7d".toList
      old_ne := List.cons_ne_nil _ _
      new_ne := List.cons_ne_nil _ _
      isBlank_old := List.all_eq_true.mp (by decide)
      isBlank_new := List.all_eq_true.mp (by decide)
      after_solid := by decide }
  have hrespaced : Respaced "\x7b% do \"#\x7b a not in b \x7d\" %\x7d"
      "\x7b% do \"#\x7b a not \n\t in b \x7d\" %\x7d" := by
    refine ⟨gap, "\x7b% do \"#\x7b a not".toList, by decide, by decide, by decide, .interpolation [],
      [.string '"', .tag []], ?_, trivial⟩
    decide +kernel
  have hok : (parse "t" "\x7b% do \"#\x7b a not in b \x7d\" %\x7d").toOption.isSome = true := by
    decide +kernel
  refine (parse_of_respaced "t" hrespaced).resolve_right ?_
  rintro ⟨e, e', he, -⟩
  rw [he] at hok
  cases hok

end Template

end Stencil
