import Stencil.Proofs.Render.Keeps

/-!
What a block writes that is made of texts and of `parent()`.

The definitions of a block form a list, the most specific first.  Where each of them is a sequence
of texts and of prints of `parent()`, what the slot writes can be said without a renderer: every
`parent()` stands for what the next definition expands to.  `expansion` says it, and
`run_renderSlot` says that the renderer agrees with it, whether prints are escaped or not.

The induction is on the definitions that are left.  The step is one definition whose prints of
`parent()` are known to give the expansion of the next one, from whatever output it has written so
far; it leaves the state as it was except for the output, so that the second `parent()` of a body
finds the block and its index where the first one found them.
-/

namespace Stencil

/-- Whether an output takes a number of further texts. -/
def Output.Takes (o : Output) (n : Nat) : Prop :=
  ∀ room, o.room = some room → n ≤ room

/-- The state in which the body of a block is run. -/
def RenderState.inBlock {ω : Type} (s : RenderState ω) (name : String) (index : Nat)
    (r : BlockRef) : RenderState ω :=
  { s with depth := s.depth + 1, frame := Render.Frame.inBlock s.frame name index r }

namespace Render

variable {ω : Type}

/-! ## §1. Pieces -/

/-- A part of the body of a block: a text, or a print of `parent()`. -/
inductive Piece
  | text (pos : Position) (text : String)
  | parent (pos call : Position)

/-- The statement of a piece, as it is written or as it is when prints are escaped for a kind of
output. -/
def Piece.stmt (context : Option String) : Piece → Stmt
  | .text pos s => .text pos s
  | .parent pos call =>
    match context with
    | none => .print pos (.call call "parent" [])
    | some context => .print pos (AutoEscape.escaped pos context (.call call "parent" []))

/-- A definition of a block that is made of pieces. -/
structure PiecedBlock where
  ref : BlockRef
  /-- What the prints are escaped for, if they are. -/
  context : Option String
  pieces : List Piece
  body : ref.block?.map Block.body = some (pieces.map (Piece.stmt context))

/-! ## §2. Expansion -/

/-- The text of a piece, with a text or an error for `parent()`. -/
def Piece.expand (parent : Position → Except Error String) : Piece → Except Error String
  | .text _ s => .ok s
  | .parent _ call => parent call

/-- The texts of pieces, one after the other. -/
def expandAll (parent : Position → Except Error String) : List Piece → Except Error String
  | [] => .ok ""
  | piece :: pieces => do
    let text ← piece.expand parent
    let texts ← expandAll parent pieces
    pure (text ++ texts)

/-- The text of the first of some definitions, in which `parent()` stands for the text of the
next one.  There is an error if the last one asks for its parent. -/
def expansion : List PiecedBlock → Except Error String
  | [] => .ok ""
  | [last] =>
    expandAll (fun call => .error (.render last.ref.owner.name call .noParentBlock)) last.pieces
  | block :: next :: more => expandAll (fun _ => expansion (next :: more)) block.pieces

theorem expandAll_error {parent : Position → Except Error String} {e : Error} {pieces : List Piece}
    (h : expandAll parent pieces = .error e) :
    ∃ pos call, Piece.parent pos call ∈ pieces ∧ parent call = .error e := by
  induction pieces with
  | nil => cases h
  | cons piece pieces ih =>
    rw [expandAll] at h
    -- The error is that of the first piece, or comes from a later one.
    cases hp : piece.expand parent with
    | error e' =>
      rw [hp] at h
      cases h
      cases piece with
      | text => cases hp
      | parent pos call => exact ⟨pos, call, List.mem_cons_self, hp⟩
    | ok text =>
      have hrest : expandAll parent pieces = .error e := by
        rw [hp] at h
        cases hr : expandAll parent pieces with
        | error e' =>
          rw [hr] at h
          cases h
          rfl
        | ok texts =>
          rw [hr] at h
          cases h
      obtain ⟨pos, call, hmem, hcall⟩ := ih hrest
      exact ⟨pos, call, List.mem_cons_of_mem piece hmem, hcall⟩

/-- The only error is that the last definition asks for its parent. -/
theorem expansion_error {blocks : List PiecedBlock} {e : Error} (h : expansion blocks = .error e) :
    ∃ last pos call, blocks.getLast? = some last ∧ Piece.parent pos call ∈ last.pieces ∧
      e = .render last.ref.owner.name call .noParentBlock := by
  induction blocks with
  | nil => cases h
  | cons block more ih =>
    cases more with
    | nil =>
      obtain ⟨pos, call, hmem, hcall⟩ := expandAll_error h
      exact ⟨block, pos, call, rfl, hmem, (Except.error.inj hcall).symm⟩
    | cons next more =>
      -- Every call stands for the same text, so one call that fails is enough.
      obtain ⟨-, -, -, hnext⟩ := expandAll_error h
      obtain ⟨last, pos, call, hlast, hrest⟩ := ih hnext
      exact ⟨last, pos, call, by rwa [List.getLast?_cons_cons], hrest⟩

/-! ## §3. Writing -/

/-- A part of a render that writes a text and changes nothing else, after which the output takes so
many further texts, or that fails with an error. -/
def Writes (x : Render ω Unit) (s : RenderState ω) (left : Nat) : Except Error String → Prop
  | .ok text =>
    ∃ o, x.run s = (.ok ⟨⟩, { s with output := o }) ∧ o.text = s.output.text ++ text ∧ o.Takes left
  | .error e => ∃ t, x.run s = (.error (.error e), t)

/-- A part of a render that gives a rendered text and changes nothing, or that fails with an
error. -/
def Gives (x : Render ω (Value ω)) (s : RenderState ω) : Except Error String → Prop
  | .ok text => x.run s = (.ok (rendered text), s)
  | .error e => ∃ t, x.run s = (.error (.error e), t)

/-- One text after the other. -/
theorem Writes.bind {x y : Render ω Unit} {s : RenderState ω} {n m : Nat}
    {first second : Except Error String} (hx : Writes x s n first)
    (hy : ∀ o, o.Takes n → Writes y { s with output := o } m second) :
    Writes (do x; y) s m (do
      let text ← first
      let texts ← second
      pure (text ++ texts)) := by
  -- The output has changed after the first text, which is why the second is given for any output
  -- that takes what is left.
  cases first with
  | error e =>
    obtain ⟨t, hx⟩ := hx
    exact ⟨t, run_bind_error hx _⟩
  | ok text =>
    obtain ⟨o, hx, ho, htakes⟩ := hx
    have hrest := hy o htakes
    cases second with
    | error e =>
      obtain ⟨t, hy⟩ := hrest
      exact ⟨t, (run_bind_ok hx _).trans hy⟩
    | ok texts =>
      obtain ⟨o', hy, ho', htakes'⟩ := hrest
      refine ⟨o', (run_bind_ok hx _).trans hy, ?_, htakes'⟩
      rw [ho', ho, String.append_assoc]

theorem text_cons (text : String) (written : List String) (room : Option Nat) :
    (Output.mk (text :: written) room).text = (Output.mk written room).text ++ text := by
  simp [Output.text]

/-- A text is written where the output takes one more. -/
theorem writes_write {s : RenderState ω} (text : String) {n : Nat}
    (h : s.output.Takes (n + 1)) : Writes (write text) s n (.ok text) := by
  obtain ⟨frame, depth, lenient, loaded, requests, ⟨written, room⟩, met⟩ := s
  rw [write]
  -- Nothing at all is written for the empty text, so it takes no room.
  by_cases he : text.isEmpty
  · refine ⟨⟨written, room⟩, ?_, ?_, fun m hm => ?_⟩
    · rw [run_bind_ok (run_get _), if_pos he, run_pure]
    · simp [String.isEmpty_iff.mp he]
    · have := h m hm
      omega
  · refine ⟨⟨text :: written, room.map (· - 1)⟩, ?_, text_cons .., fun m hm => ?_⟩
    · rw [run_bind_ok (run_get _), if_neg he]
      rcases room with _ | _ | m
      · rfl
      · have := h 0 rfl
        omega
      · rfl
    · obtain ⟨k, hk, rfl⟩ := Option.map_eq_some_iff.mp hm
      have := h k hk
      omega

/-! ## §4. Bodies -/

section Bodies

variable [HostObject ω] {env : Environment ω} {inner : Option (Runner ω)}

/-- A call of `parent()` is the parent block, whatever the arguments. -/
theorem eval_parent (env : Environment ω) (inner : Option (Runner ω)) (call : Position) :
    eval env inner (.call call "parent" []) = parentBlock inner call := by
  rw [eval, callFunction, if_pos rfl]

/-- The filter does nothing to what a block has rendered. -/
theorem run_applyFilter_escape (hescape : env.filters.find? "escape" = some Catalog.escape)
    (pos : Position) (context text : String) (s : RenderState ω) :
    (applyFilter env pos "escape" (rendered text) (evalAll env inner [.string pos context])).run s =
      (.ok (rendered text), s) := by
  have hargs : (evalAll env inner [.string pos context]).run s = (.ok [.string context], s) := by
    simp [evalAll, eval]
  rw [applyFilter, hescape, run_bind_ok hargs, run_bind_ok (run_frame s)]
  rfl

/-- What a parent block gives it gives through `escape` as well. -/
theorem gives_escaped (hescape : env.filters.find? "escape" = some Catalog.escape)
    (pos call : Position) (context : String) {s : RenderState ω} {r : Except Error String}
    (h : Gives (parentBlock inner call) s r) :
    Gives (eval env inner (AutoEscape.escaped pos context (.call call "parent" []))) s r := by
  have hname : ("escape" : String) ≠ "default" := by decide
  rw [AutoEscape.escaped, eval, if_neg hname, eval_parent]
  cases r with
  | error e =>
    obtain ⟨t, ht⟩ := h
    exact ⟨t, run_bind_error ht _⟩
  | ok text => exact (run_bind_ok h _).trans (run_applyFilter_escape hescape pos context text s)

theorem writes_print {s : RenderState ω} {e : Expr} (pos : Position) {r : Except Error String}
    (h : Gives (eval env inner e) s r) {n : Nat} (htakes : s.output.Takes (n + 1)) :
    Writes (runStmt env inner (.print pos e)) s n r := by
  rw [runStmt]
  cases r with
  | error e =>
    obtain ⟨t, ht⟩ := h
    exact ⟨t, run_bind_error ht _⟩
  | ok text =>
    obtain ⟨o, ho⟩ := writes_write text htakes
    exact ⟨o, (run_bind_ok h _).trans ho.1, ho.2⟩

/-- A piece writes its text, if `parent()` gives what it stands for. -/
theorem writes_piece {parent : Position → Except Error String} {context : Option String}
    (hescape : context.isSome → env.filters.find? "escape" = some Catalog.escape)
    {s : RenderState ω} (hparent : ∀ call, Gives (parentBlock inner call) s (parent call))
    (piece : Piece) {n : Nat} (htakes : s.output.Takes (n + 1)) :
    Writes (runStmt env inner (piece.stmt context)) s n (piece.expand parent) := by
  cases piece with
  | text pos text =>
    rw [Piece.stmt, runStmt]
    exact writes_write text htakes
  | parent pos call =>
    -- Escaped or not, a print shows what `parent()` gives: it is rendered text, which is safe.
    cases context with
    | none =>
      refine writes_print pos ?_ htakes
      rw [eval_parent]
      exact hparent call
    | some context =>
      exact writes_print pos (gives_escaped (hescape rfl) pos call context (hparent call)) htakes

/-- A body of pieces writes their texts one after the other. -/
theorem writes_pieces {parent : Position → Except Error String} {context : Option String}
    (hescape : context.isSome → env.filters.find? "escape" = some Catalog.escape)
    {s : RenderState ω}
    (hparent : ∀ call o, Gives (parentBlock inner call) { s with output := o } (parent call))
    (pieces : List Piece) (htakes : s.output.Takes pieces.length) :
    Writes (runBody env inner (pieces.map (Piece.stmt context))) s 0 (expandAll parent pieces) := by
  induction pieces generalizing s with
  | nil =>
    rw [List.map_nil, runBody]
    exact ⟨s.output, rfl, by simp, htakes⟩
  | cons piece pieces ih =>
    rw [List.map_cons, runBody, expandAll]
    apply Writes.bind (writes_piece hescape (fun call => hparent call s.output) piece htakes)
    intro o ho
    exact ih hparent ho

end Bodies

/-! ## §5. Definitions -/

/-- The frame before a block comes back, when the block leaves its own frame alone. -/
theorem Frame.afterBlock_inBlock (f : Frame ω) (name : String) (index : Nat) (r : BlockRef) :
    Frame.afterBlock f (Frame.inBlock f name index r) = f := by
  have scope : (f.scope.push []).pop = f.scope := Scope.pop_eq_of_below rfl rfl
  simp [Frame.afterBlock, Frame.inBlock, scope]

/-- A block writes what its body writes. -/
theorem writes_renderBlock {runner : Runner ω} {s : RenderState ω} (pos : Position) (name : String)
    (index : Nat) {r : BlockRef} {block : Block} (hblock : r.block? = some block)
    (hdepth : s.depth < maxDepth) {n : Nat} {result : Except Error String}
    (h : Writes (runner.body block.body) (s.inBlock name index r) n result) :
    Writes (renderBlock (some runner) pos name index r) s n result := by
  -- What is run: the body in a frame of its own, one level deeper, then the frame of `s` again.
  have hrun : (renderBlock (some runner) pos name index r).run s =
      (((runner.body block.body).run (s.inBlock name index r)).1,
        leave { ((runner.body block.body).run (s.inBlock name index r)).2 with
          frame := Frame.afterBlock s.frame
            ((runner.body block.body).run (s.inBlock name index r)).2.frame }) := by
    rw [renderBlock, run_deeper_of_lt _ _ _ hdepth, hblock]
    rfl
  unfold Writes
  rw [hrun]
  cases result with
  | error e =>
    obtain ⟨t, ht⟩ := h
    rw [ht]
    exact ⟨_, rfl⟩
  | ok text =>
    obtain ⟨o, ho, htext, htakes⟩ := h
    refine ⟨o, ?_, htext, htakes⟩
    rw [ho]
    simp [RenderState.inBlock, Frame.afterBlock_inBlock, leave]

section Parent

variable {inner : Option (Runner ω)} {s : RenderState ω} {name : String} {index : Nat}

/-- In the last definition of a block there is no parent. -/
theorem gives_parentBlock_of_none (h : candidate? s.frame name (index + 1) = none) (r : BlockRef)
    (o : Output) (call : Position) :
    Gives (parentBlock inner call) { s.inBlock name index r with output := o }
      (.error (.render r.owner.name call .noParentBlock)) := by
  let entered : RenderState ω := { s.inBlock name index r with output := o }
  have hnone : candidate? entered.frame name (index + 1) = none := h
  have hcurrent : entered.frame.current = some (name, index) := rfl
  refine ⟨entered, ?_⟩
  rw [parentBlock, run_bind_ok (run_frame entered), hcurrent, Option.bind_some]
  simp only [hnone, Option.map_none]
  exact run_failAt call _ entered

/-- Elsewhere it gives what the next definition writes. -/
theorem gives_parentBlock_of_some {next : BlockRef}
    (h : candidate? s.frame name (index + 1) = some next) (r : BlockRef) (o : Output)
    (call : Position) {result : Except Error String}
    (hnext : Writes (renderBlock inner call name (index + 1) next)
      { s.inBlock name index r with output := ⟨[], none⟩ } 0 result) :
    Gives (parentBlock inner call) { s.inBlock name index r with output := o } result := by
  let entered : RenderState ω := { s.inBlock name index r with output := o }
  have hsome : candidate? entered.frame name (index + 1) = some next := h
  have hcurrent : entered.frame.current = some (name, index) := rfl
  -- The marker names the block and its index, so that the next definition is found whatever has
  -- been written since.
  have hrun : (parentBlock inner call).run entered =
      (rendered <$> capture (renderBlock inner call name (index + 1) next)).run entered := by
    rw [parentBlock, run_bind_ok (run_frame entered), hcurrent, Option.bind_some]
    simp only [hsome, Option.map_some]
  unfold Gives
  rw [hrun, run_map, run_capture]
  cases result with
  | error e =>
    obtain ⟨t, ht⟩ := hnext
    rw [ht]
    exact ⟨_, rfl⟩
  | ok text =>
    obtain ⟨own, hown, htext, -⟩ := hnext
    have hempty : (Output.mk [] none).text = "" := rfl
    rw [hempty, String.empty_append] at htext
    rw [hown]
    simp [Except.map, htext, entered]

end Parent

section Definitions

variable {env : Environment ω} {name : String} {index : Nat}

/-- The definition that comes after the one of an index. -/
theorem candidate?_of_drop {f : Frame ω} {c : Composition} {block : PiecedBlock}
    {blocks : List PiecedBlock} (hc : f.blocks = some c)
    (hcandidates : (c.candidates name).drop index = (block :: blocks).map PiecedBlock.ref) :
    candidate? f name (index + 1) = blocks.head?.map PiecedBlock.ref := by
  rw [candidate?, hc, Option.bind_some, Composition.candidate?, ← List.getElem?_drop, hcandidates]
  cases blocks <;> rfl

variable [HostObject ω]

/-- One definition writes its pieces, if `parent()` gives what it stands for. -/
theorem writes_definition (block : PiecedBlock)
    (hescape : block.context.isSome → env.filters.find? "escape" = some Catalog.escape)
    {s : RenderState ω} (hdepth : s.depth < maxDepth) {parent : Position → Except Error String}
    (hparent : ∀ call o, Gives (parentBlock (innerRunner env (maxDepth - (s.depth + 1))) call)
      { s.inBlock name index block.ref with output := o } (parent call))
    (pos : Position) (htakes : s.output.Takes block.pieces.length) :
    Writes (renderBlock (innerRunner env (maxDepth - s.depth)) pos name index block.ref) s 0
      (expandAll parent block.pieces) := by
  obtain ⟨b, hb, hbody⟩ := Option.map_eq_some_iff.mp block.body
  -- The level that the body runs on is the one that the count of open constructs leaves.
  have hlevel : maxDepth - s.depth = maxDepth - (s.depth + 1) + 1 := by omega
  rw [hlevel, innerRunner]
  apply writes_renderBlock pos name index hb hdepth
  rw [hbody]
  exact writes_pieces hescape hparent block.pieces htakes

/-- The definitions from an index on write what they expand to, if the limit leaves a level for each
of them. -/
theorem writes_expansion {c : Composition} (blocks : List PiecedBlock) (block : PiecedBlock)
    (hescape : ∀ b ∈ block :: blocks,
      b.context.isSome → env.filters.find? "escape" = some Catalog.escape)
    (hcandidates : (c.candidates name).drop index = (block :: blocks).map PiecedBlock.ref)
    {s : RenderState ω} (hc : s.frame.blocks = some c)
    (hdepth : s.depth + blocks.length < maxDepth) (pos : Position)
    (htakes : s.output.Takes block.pieces.length) :
    Writes (renderBlock (innerRunner env (maxDepth - s.depth)) pos name index block.ref) s 0
      (expansion (block :: blocks)) := by
  have hblock := hescape block List.mem_cons_self
  -- The induction is on the definitions that are left, from every state in which the index names
  -- the first of them.
  induction blocks generalizing block index s pos with
  | nil =>
    refine writes_definition block hblock hdepth (fun call o => ?_) pos htakes
    exact gives_parentBlock_of_none (candidate?_of_drop hc hcandidates) block.ref o call
  | cons next more ih =>
    have hmore : (c.candidates name).drop (index + 1) = (next :: more).map PiecedBlock.ref := by
      rw [← List.drop_drop, hcandidates]
      rfl
    have hescape' := fun b hb => hescape b (List.mem_cons_of_mem block hb)
    refine writes_definition block hblock (by omega) (fun call o => ?_) pos htakes
    refine gives_parentBlock_of_some (candidate?_of_drop hc hcandidates) block.ref o call ?_
    -- The next definition is captured: its output is one of its own, without a limit.
    let captured : RenderState ω := { s.inBlock name index block.ref with output := ⟨[], none⟩ }
    have hblocks : captured.frame.blocks = some c := hc
    have hlength : captured.depth + more.length < maxDepth := by
      rw [List.length_cons] at hdepth
      show s.depth + 1 + more.length < maxDepth
      omega
    have hroom : captured.output.Takes next.pieces.length := nofun
    exact ih next hescape' hmore hblocks hlength call hroom (hescape' next List.mem_cons_self)

/-- **A slot writes the expansion of its block.**  Where the definitions of a block are made of
texts and of `parent()`, and the limit leaves a level for each of them, the slot writes exactly what
they expand to, or fails where the last definition asks for its parent.  Prints may be escaped or
not, each definition for a kind of output of its own. -/
theorem run_renderSlot (env : Environment ω) {c : Composition} {block : Block}
    (first : PiecedBlock) (blocks : List PiecedBlock) {s : RenderState ω} (pos : Position)
    (id : DefinitionId)
    (hslot : s.frame.template.template.blockAt? id = some block)
    (hc : s.frame.blocks = some c)
    (hcandidates : c.candidates block.name = (first :: blocks).map PiecedBlock.ref)
    (hescape : (∃ b ∈ first :: blocks, b.context.isSome) →
      env.filters.find? "escape" = some Catalog.escape)
    (hdepth : s.depth + (first :: blocks).length ≤ maxDepth)
    (htakes : s.output.Takes first.pieces.length) :
    match expansion (first :: blocks) with
    | .ok text =>
      ∃ o, (runStmt env (innerRunner env (maxDepth - s.depth)) (.block pos id)).run s =
        (.ok ⟨⟩, { s with output := o }) ∧ o.text = s.output.text ++ text
    | .error e =>
      (∃ last pos call, (first :: blocks).getLast? = some last ∧
        Piece.parent pos call ∈ last.pieces ∧ e = .render last.ref.owner.name call .noParentBlock) ∧
      ∃ t, (runStmt env (innerRunner env (maxDepth - s.depth)) (.block pos id)).run s =
        (.error (.error e), t) := by
  have hfirst : candidate? s.frame block.name 0 = some first.ref := by
    rw [candidate?, hc, Option.bind_some, Composition.candidate?, hcandidates]
    rfl
  -- A slot looks its block up by identity, and starts with the most specific definition.
  have hrun : (runStmt env (innerRunner env (maxDepth - s.depth)) (.block pos id)).run s =
      (renderBlock (innerRunner env (maxDepth - s.depth)) pos block.name 0 first.ref).run s := by
    rw [runStmt, renderSlot, run_bind_ok (run_frame s), hslot]
    simp only [hfirst, Option.getD_some]
  have h : Writes (renderBlock (innerRunner env (maxDepth - s.depth)) pos block.name 0 first.ref)
      s 0 (expansion (first :: blocks)) := by
    have hall : (c.candidates block.name).drop 0 = (first :: blocks).map PiecedBlock.ref :=
      hcandidates
    refine writes_expansion blocks first ?_ hall hc hdepth pos htakes
    exact fun b hb hsome => hescape ⟨b, hb, hsome⟩
  rw [hrun]
  cases hr : expansion (first :: blocks) with
  | error e =>
    rw [hr] at h
    exact ⟨expansion_error hr, h⟩
  | ok text =>
    rw [hr] at h
    obtain ⟨o, ho, htext, -⟩ := h
    exact ⟨o, ho, htext⟩

end Definitions

/-- A block that asks twice for its parent, with escaping, over one that is plain text. -/
theorem run_renderSlot_parent_twice :
    let base : LiveTemplate := ⟨⟨"base", none, [.block .start 0],
      [⟨"b", .start, [.text .start "x"]⟩], [("b", 0)], [], []⟩, .loaded⟩
    let pieces : List Piece := [.parent .start .start, .text .start "<", .parent .start .start]
    let child : LiveTemplate := ⟨⟨"child", none, [],
      [⟨"b", .start, pieces.map (Piece.stmt (some "html"))⟩], [("b", 0)], [], []⟩, .entry⟩
    let env : Environment Empty :=
      { Environment.empty (fun _ name => .error (.notFound name .unknownName)) 1 with
        filters := [("escape", Catalog.escape)] }
    let start := Environment.startState base [] none []
    let s := { start with frame :=
      { start.frame with blocks := some [("b", ⟨child, 0⟩), ("b", ⟨base, 0⟩)] } }
    ∃ o, (runStmt env (innerRunner env (maxDepth - s.depth)) (.block .start 0)).run s =
      (.ok ⟨⟩, { s with output := o }) ∧ o.text = s.output.text ++ "x<x" := by
  intro base pieces child env start s
  let first : PiecedBlock := ⟨⟨child, 0⟩, some "html", pieces, rfl⟩
  let last : PiecedBlock := ⟨⟨base, 0⟩, none, [.text .start "x"], rfl⟩
  have hdepth : s.depth + [first, last].length ≤ maxDepth := by decide
  exact run_renderSlot env first [last] .start 0 rfl rfl rfl (fun _ => rfl) hdepth nofun

end Render

end Stencil
