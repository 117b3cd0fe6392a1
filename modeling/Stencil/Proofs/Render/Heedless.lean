import Stencil.Proofs.Render.Unread

/-!
Code that does not heed a variable.

Where all templates spare a variable, all code does the same in states that are the same but for it,
at whatever places the code stands.  This is shown for each part of the renderer, given that it
holds for the parts inside, then by induction for bodies, and from there for any number of levels.

The one thing that may be read in the variable is a text that was captured there right before.
Evaluating filters on it is `pipe`: the state decides nothing any more but what the filters do.
-/

namespace Stencil

variable {ω α : Type} {x : String} {ordered : Prop}

namespace Frame.SameBut

variable {env : Environment ω} {fr fr' : Frame ω} (h : fr.SameBut x ordered fr')
include h

/-! ## §1. What frames tell -/

theorem find? {name : String} (hname : name ≠ x) :
    Render.find? env fr' name = Render.find? env fr name := by
  unfold Render.find?
  rw [h.scope.find? hname, h.template]

theorem macroNamed? {name : String} (hname : name ≠ x) :
    Render.macroNamed? fr' name = Render.macroNamed? fr name := by
  unfold Render.macroNamed?
  rw [h.scope.find? hname, h.template]

theorem candidate? (name : String) (index : Nat) :
    Render.candidate? fr' name index = Render.candidate? fr name index := by
  unfold Render.candidate?
  rw [h.blocks]

theorem blockNamed? (name : String) : Render.blockNamed? fr' name = Render.blockNamed? fr name := by
  unfold Render.blockNamed?
  rw [h.candidate?, h.template]

/-- The blocks that a frame knows are blocks of templates that spare the variable. -/
theorem owner_of_candidate? {name : String} {index : Nat} {r : BlockRef}
    (hr : Render.candidate? fr name index = some r) : r.owner.template.Spares x := by
  obtain ⟨c, hc, hcandidate⟩ := Option.bind_eq_some_iff.mp hr
  have hmem : r ∈ c.candidates name := List.mem_of_getElem? hcandidate
  obtain ⟨entry, hentry, rfl⟩ := List.mem_map.mp hmem
  exact h.owners c hc entry (List.mem_filter.mp hentry).1

theorem owner_of_blockNamed? {name : String} {r : BlockRef}
    (hr : Render.blockNamed? fr name = some r) : r.owner.template.Spares x := by
  rcases Option.or_eq_some_iff.mp hr with hcandidate | ⟨_, hown⟩
  · exact h.owner_of_candidate? hcandidate
  · obtain ⟨id, _, rfl⟩ := Option.map_eq_some_iff.mp hown
    exact h.spares

end Frame.SameBut

namespace Render

/-! ## §2. Blocks and macros -/

/-- A runner whose code does not heed the variable where it spares it. -/
structure Heedless (x : String) (r : Runner ω) : Prop where
  eval : ∀ {ordered : Prop} {e : Expr}, e.Spares x → ∀ move,
    Unread x ordered Anything (r.eval e) (r.eval (e.relocate move))
  body : ∀ {ordered : Prop} {ss : List Stmt}, Stmt.Spare x ss → ∀ move,
    Unread x ordered Anything (r.body ss) (r.body (Stmt.relocateAll move id ss))
  macros : ∀ definition args (s : RenderState ω), s.Holds (Template.Spares x) →
    ((macroBody r definition args).run s).2.Holds (Template.Spares x)

namespace Heedless

variable {r : Runner ω} (h : Heedless x r)
include h

theorem eval_same {e : Expr} (he : e.Spares x) :
    Unread x ordered Anything (r.eval e) (r.eval e) := by
  have hmoved : Unread x ordered Anything _ _ := h.eval he id
  rwa [Expr.relocate_id] at hmoved

theorem body_same {ss : List Stmt} (hss : Stmt.Spare x ss) :
    Unread x ordered Anything (r.body ss) (r.body ss) := by
  have hmoved : Unread x ordered Anything _ _ := h.body hss id
  rwa [Stmt.relocateAll_id] at hmoved

end Heedless

section Blocks

variable {inner : Option (Runner ω)} (hinner : ∀ r ∈ inner, Heedless x r)
include hinner

theorem unread_renderBlock (pos pos' : Position) (name : String) (index : Nat) {r : BlockRef}
    (hr : r.owner.template.Spares x) :
    Unread x ordered Anything (renderBlock inner pos name index r)
      (renderBlock inner pos' name index r) := by
  apply Unread.deeper
  intro runner hrunner
  have hrun := hinner runner hrunner
  show Unread x ordered Anything (blockBody runner name index r) (blockBody runner name index r)
  have henter : ∀ fr fr' : Frame ω, fr.SameBut x ordered fr' →
      (Frame.inBlock fr name index r).SameBut x ordered (Frame.inBlock fr' name index r) := by
    intro fr fr' h
    exact ⟨rfl, h.scope.push [], h.blocks, rfl, hr, h.owners,
      fun hordered => (h.sorted hordered).push .nil⟩
  refine Unread.inFrame henter ?_ ?_
  · intro fr fr' gr gr' h h'
    exact ⟨h.template, h'.scope.pop, h'.blocks, h.current, h.spares, h'.owners,
      fun hordered => (h'.sorted hordered).pop⟩
  · cases hblock : r.block? with
    | none => exact .pure trivial
    | some block => exact hrun.body_same (hr.block hblock)

theorem unread_renderSlot (pos pos' : Position) (id : DefinitionId) :
    Unread x ordered Anything (renderSlot inner pos id) (renderSlot inner pos' id) := by
  apply Unread.frame_bind
  intro fr fr' h
  rw [h.template]
  cases fr.template.template.blockAt? id with
  | none => exact .pure trivial
  | some block =>
    dsimp only
    rw [h.candidate?]
    apply unread_renderBlock hinner
    cases hr : candidate? fr block.name 0 with
    | none => exact h.spares
    | some r => exact h.owner_of_candidate? hr

theorem unread_blockValue (pos pos' : Position) (name : String) (index : Nat) {r : BlockRef}
    (hr : r.owner.template.Spares x) :
    Unread x ordered Anything (rendered <$> capture (renderBlock inner pos name index r))
      (rendered <$> capture (renderBlock inner pos' name index r) : Render ω (Value ω)) :=
  (unread_renderBlock hinner pos pos' name index hr).capture.map fun _ _ => trivial

theorem unread_parentBlock (pos pos' : Position) :
    Unread x ordered Anything (parentBlock inner pos) (parentBlock inner pos') := by
  apply Unread.frame_bind
  intro fr fr' h
  rw [h.current]
  cases fr.current with
  | none => exact .failAt _ _ _
  | some running =>
    obtain ⟨name, index⟩ := running
    simp only [Option.bind_some]
    rw [h.candidate?]
    cases hr : candidate? fr name (index + 1) with
    | none => exact .failAt _ _ _
    | some r => exact unread_blockValue hinner pos pos' name (index + 1) (h.owner_of_candidate? hr)

theorem unread_namedBlock (pos pos' : Position) (name : String) :
    Unread x ordered Anything (namedBlock inner pos name) (namedBlock inner pos' name) := by
  apply Unread.frame_bind
  intro fr fr' h
  rw [h.blockNamed?]
  cases hr : blockNamed? fr name with
  | none => exact .failAt _ _ _
  | some r => exact unread_blockValue hinner pos pos' name 0 (h.owner_of_blockNamed? hr)

/-- What a macro sees is the same in both renders, so its code may ask for anything. -/
theorem unread_callMacro (pos pos' : Position) (m : MacroRef) (args : List (Value ω)) :
    Unread x ordered Anything (callMacro inner pos m args) (callMacro inner pos' m args) := by
  unfold callMacro
  cases m.owner.template.macroAt? m.id with
  | none => exact .failAt _ _ _
  | some definition =>
    apply Unread.deeper
    intro runner hrunner
    show Unread x ordered Anything
      (within (fun f => Frame.forMacro f m) (macroBody runner definition args))
      (within (fun f => Frame.forMacro f m) (macroBody runner definition args))
    apply Unread.apart
    · intro fr fr' h
      unfold Frame.forMacro
      rw [h.scope.root]
    · exact (hinner runner hrunner).macros definition args

end Blocks

/-! ## §3. Expressions -/

section Expressions

variable {env : Environment ω}

theorem unread_undefined (pos pos' : Position) (name : String) :
    Unread x ordered Anything (undefined env pos name) (undefined env pos' name) := by
  intro s t states
  unfold undefined
  rw [run_bind_ok (run_get s), run_bind_ok (run_get t), states.lenient]
  split
  · exact Unread.failAt pos pos' _ s t states
  · exact .both _ trivial states

theorem unread_lookup (pos pos' : Position) {name : String} (hname : name ≠ x) :
    Unread x ordered Anything (lookup env pos name) (lookup env pos' name) := by
  apply Unread.frame_bind
  intro fr fr' h
  rw [h.find? hname]
  cases find? env fr name with
  | some v => exact .pure trivial
  | none => exact unread_undefined pos pos' name

/-- A callback gets the same arguments, and the name of the same template. -/
theorem unread_callback (pos pos' : Position) (name : String) {args args' : Render ω α}
    (hargs : Unread x ordered Anything args args')
    (f : CallState → α → Except String (Value ω)) :
    Unread x ordered Anything
      (do
        let args ← args
        let state := env.callState (← frame).template.name
        meet (← ofCall pos name (f state args)))
      (do
        let args ← args'
        let state := env.callState (← frame).template.name
        meet (← ofCall pos' name (f state args))) := by
  apply hargs.bind
  intro vs _
  apply Unread.frame_bind
  intro fr fr' h
  dsimp only
  rw [h.template]
  exact (Unread.ofCall pos pos' name _).bind fun v _ => .meet v

theorem unread_applyFilter (pos pos' : Position) (name : String) (subject : Value ω)
    {args args' : Render ω (List (Value ω))} (hargs : Unread x ordered Anything args args') :
    Unread x ordered Anything (applyFilter env pos name subject args)
      (applyFilter env pos' name subject args') := by
  unfold applyFilter
  cases env.filters.find? name with
  | none => exact .failAt _ _ _
  | some filter => exact unread_callback pos pos' name hargs fun state => filter state subject

theorem unread_applyTest (pos pos' : Position) (name : String)
    {subject subject' : Render ω (Value ω)} {args args' : Render ω (List (Value ω))}
    (hsubject : Unread x ordered Anything subject subject')
    (hargs : Unread x ordered Anything args args') :
    Unread x ordered Anything (applyTest env pos name subject args)
      (applyTest env pos' name subject' args') := by
  unfold applyTest
  cases env.tests.find? name with
  | none => exact .failAt _ _ _
  | some test =>
    apply hsubject.bind
    intro v _
    apply hargs.bind
    intro vs _
    apply Unread.frame_bind
    intro fr fr' h
    dsimp only
    rw [h.template]
    exact (Unread.ofCall pos pos' name _).bind fun b _ => .pure trivial

theorem unread_applyBinary (pos pos' : Position) (op : BinaryOp)
    {left left' right right' : Render ω (Value ω)} [HostObject ω]
    (hleft : Unread x ordered Anything left left')
    (hright : Unread x ordered Anything right right') :
    Unread x ordered Anything (applyBinary pos op left right)
      (applyBinary pos' op left' right') := by
  apply hleft.bind
  intro a _
  split
  · exact .pure trivial
  · exact .pure trivial
  · apply hright.bind
    intro b _
    split
    · exact .pure trivial
    · exact .failAt _ _ _

variable [HostObject ω]

theorem unread_attributeOf (pos pos' : Position) (object key : Value ω) :
    Unread x ordered Anything (attributeOf env pos object key)
      (attributeOf env pos' object key) := by
  unfold attributeOf
  cases object.attribute? key with
  | none => exact unread_undefined pos pos' _
  | some v =>
    cases object with
    | object => exact .meet v
    | _ => exact .pure trivial

variable {inner : Option (Runner ω)} (hinner : ∀ r ∈ inner, Heedless x r)
include hinner

theorem unread_callMethod (pos pos' : Position) (object key : Value ω) (args : List (Value ω)) :
    Unread x ordered Anything (callMethod inner pos object key args)
      (callMethod inner pos' object key args) := by
  unfold callMethod
  split
  · exact unread_callMacro hinner pos pos' _ args
  · exact (Unread.ofCall pos pos' _ _).bind fun v _ => .meet v
  · exact .failAt _ _ _

theorem unread_callFunction (pos pos' : Position) {name : String} (hname : name ≠ x)
    {first first' : Render ω (Option (Value ω))} {args args' : Render ω (List (Value ω))}
    (hfirst : Unread x ordered Anything first first')
    (hargs : Unread x ordered Anything args args') :
    Unread x ordered Anything (callFunction env inner pos name first args)
      (callFunction env inner pos' name first' args') := by
  unfold callFunction
  split
  · exact unread_parentBlock hinner pos pos'
  · split
    · exact hfirst.bind fun v _ => unread_namedBlock hinner pos pos' _
    · apply Unread.frame_bind
      intro fr fr' h
      rw [h.macroNamed? hname]
      cases macroNamed? fr name with
      | some m => exact hargs.bind fun vs _ => unread_callMacro hinner pos pos' m vs
      | none =>
        dsimp only
        cases env.functions.find? name with
        | none => exact .failAt _ _ _
        | some function => exact unread_callback pos pos' name hargs function

set_option linter.unusedSectionVars false in
mutual

/-- An expression that spares the variable does not heed it. -/
theorem unread_eval (move : Position → Position) : ∀ e : Expr, e.Spares x →
    Unread x ordered Anything (eval env inner e) (eval env inner (e.relocate move))
  | .name pos name, .node hasked _ => by
    have hname : name ≠ x := fun heq => hasked (congrArg some heq)
    rw [Expr.relocate, eval, eval]
    exact unread_lookup _ _ hname
  | .null _, _ | .bool .., _ | .number .., _ | .string .., _ => by
    rw [Expr.relocate, eval, eval]
    exact .pure trivial
  | .call pos name args, .node hasked hargs => by
    have hname : name ≠ x := fun heq => hasked (congrArg some heq)
    rw [Expr.relocate, eval, eval]
    exact unread_callFunction hinner _ _ hname (unread_evalFirst move args hargs)
      (unread_evalAll move args hargs)
  | .filter pos name [], _ => by
    rw [Expr.relocate, Expr.relocateAll, eval, eval]
    exact .failAt _ _ _
  | .filter pos name (subject :: args), .node _ hparts => by
    obtain ⟨hsubject, hargs⟩ := List.forall_mem_cons.mp hparts
    have he : Unread x ordered Anything _ _ := unread_eval move subject hsubject
    have hfilter : ∀ v, Unread x ordered Anything
        (applyFilter env pos name v (evalAll env inner args))
        (applyFilter env (move pos) name v (evalAll env inner (Expr.relocateAll move args))) :=
      fun v => unread_applyFilter _ _ name v (unread_evalAll move args hargs)
    rw [Expr.relocate, Expr.relocateAll, eval, eval]
    split
    · exact he.leniently.bind fun v _ => hfilter v
    · exact he.bind fun v _ => hfilter v
  | .test pos name subject args, .node _ hparts => by
    obtain ⟨hsubject, hargs⟩ := List.forall_mem_cons.mp hparts
    rw [Expr.relocate, eval, eval]
    split
    · exact (unread_isDefined move subject hsubject).bind fun b _ => .pure trivial
    · exact unread_applyTest _ _ name (unread_eval move subject hsubject)
        (unread_evalAll move args hargs)
  | .binary pos op left right, .node _ hparts => by
    rw [Expr.relocate, eval, eval]
    exact unread_applyBinary _ _ op (unread_eval move left (hparts _ (.head _)))
      (unread_eval move right (hparts _ (.tail _ (.head _))))
  | .unary _ op operand, .node _ hparts => by
    rw [Expr.relocate, eval, eval]
    exact (unread_eval move operand (hparts _ (.head _))).bind fun v _ => .pure trivial
  | .group _ e, .node _ hparts => by
    rw [Expr.relocate, eval, eval]
    exact unread_eval move e (hparts _ (.head _))
  | .attribute pos object key, .node _ hparts => by
    rw [Expr.relocate, eval, eval]
    apply (unread_eval move object (hparts _ (.head _))).bind
    intro o _
    apply (unread_eval move key (hparts _ (.tail _ (.head _)))).bind
    intro k _
    exact unread_attributeOf _ _ o k
  | .method pos object key args, .node _ hparts => by
    obtain ⟨hobject, hmore⟩ := List.forall_mem_cons.mp hparts
    obtain ⟨hkey, hargs⟩ := List.forall_mem_cons.mp hmore
    rw [Expr.relocate, eval, eval]
    apply (unread_eval move object hobject).bind
    intro o _
    apply (unread_eval move key hkey).bind
    intro k _
    apply (unread_evalAll move args hargs).bind
    intro vs _
    exact unread_callMethod hinner _ _ o k vs
  | .conditional _ cond whenTrue whenFalse, .node _ hparts => by
    rw [Expr.relocate, eval, eval]
    apply (unread_eval move cond (hparts _ (.head _))).bind
    intro v _
    split
    · exact unread_eval move whenTrue (hparts _ (.tail _ (.head _)))
    · exact unread_eval move whenFalse (hparts _ (.tail _ (.tail _ (.head _))))
  | .hash _ entries, .node _ hparts => by
    have hentries : ∀ entry ∈ entries, entry.key.Spares x ∧ entry.value.Spares x :=
      fun entry hentry =>
        ⟨hparts _ (List.mem_flatMap.mpr ⟨entry, hentry, .head _⟩),
          hparts _ (List.mem_flatMap.mpr ⟨entry, hentry, .tail _ (.head _)⟩)⟩
    rw [Expr.relocate, eval, eval]
    exact (unread_evalEntries move entries hentries []).bind fun table _ => .pure trivial
  | .array _ items, .node _ hitems => by
    rw [Expr.relocate, eval, eval]
    exact (unread_evalAll move items hitems).bind fun vs _ => .pure trivial

theorem unread_evalAll (move : Position → Position) : ∀ es : List Expr, (∀ e ∈ es, e.Spares x) →
    Unread x ordered Anything (evalAll env inner es)
      (evalAll env inner (Expr.relocateAll move es))
  | [], _ => by
    rw [Expr.relocateAll]
    exact .pure trivial
  | e :: es, h => by
    obtain ⟨he, hes⟩ := List.forall_mem_cons.mp h
    rw [Expr.relocateAll, evalAll, evalAll]
    apply (unread_eval move e he).bind
    intro v _
    exact (unread_evalAll move es hes).bind fun vs _ => .pure trivial

theorem unread_evalFirst (move : Position → Position) : ∀ es : List Expr,
    (∀ e ∈ es, e.Spares x) →
    Unread x ordered Anything (evalFirst env inner es)
      (evalFirst env inner (Expr.relocateAll move es))
  | [], _ => by
    rw [Expr.relocateAll]
    exact .pure trivial
  | e :: _, h => by
    rw [Expr.relocateAll, evalFirst, evalFirst]
    exact (unread_eval move e (h e (.head _))).bind fun v _ => .pure trivial

theorem unread_evalEntries (move : Position → Position) : ∀ entries : List (Entry Expr),
    (∀ entry ∈ entries, entry.key.Spares x ∧ entry.value.Spares x) →
    ∀ table : Table (Value ω), Unread x ordered Anything (evalEntries env inner entries table)
      (evalEntries env inner (Expr.relocateEntries move entries) table)
  | [], _, table => by
    rw [Expr.relocateEntries]
    exact .pure trivial
  | ⟨_, key, value⟩ :: entries, h, table => by
    obtain ⟨⟨hkey, hvalue⟩, hentries⟩ := List.forall_mem_cons.mp h
    rw [Expr.relocateEntries, evalEntries, evalEntries]
    apply (unread_eval move key hkey).bind
    intro k _
    apply (unread_eval move value hvalue).bind
    intro v _
    exact unread_evalEntries move entries hentries _

theorem unread_isDefined (move : Position → Position) : ∀ e : Expr, e.Spares x →
    Unread x ordered Anything (isDefined env inner e) (isDefined env inner (e.relocate move))
  | .name pos name, .node hasked _ => by
    have hname : name ≠ x := fun heq => hasked (congrArg some heq)
    rw [Expr.relocate, isDefined, isDefined]
    apply Unread.frame_bind
    intro fr fr' h
    rw [h.find? hname]
    exact .pure trivial
  | .attribute _ object key, .node _ hparts => by
    rw [Expr.relocate, isDefined, isDefined]
    apply (unread_eval move object (hparts _ (.head _))).leniently.bind
    intro o _
    exact (unread_eval move key (hparts _ (.tail _ (.head _)))).bind fun k _ => .pure trivial
  | .group _ e, .node _ hparts => by
    rw [Expr.relocate, isDefined, isDefined]
    exact unread_isDefined move e (hparts _ (.head _))
  | .null _, _ | .bool .., _ | .number .., _ | .string .., _ | .call .., _ | .filter .., _
  | .test .., _ | .binary .., _ | .unary .., _ | .method .., _ | .conditional .., _ | .hash .., _
  | .array .., _ => by
    rw [Expr.relocate]
    simp only [isDefined]
    exact .pure trivial

end

end Expressions

/-! ## §4. Other templates -/

section Templates

variable [HostObject ω] {env : Environment ω} (yields : env.Yields (Template.Spares x))

/-- A template with those that it takes blocks from, of which all spare a variable. -/
structure Level.Spares (x : String) (l : Level) : Prop where
  template : l.template.template.Spares x
  uses : ∀ u ∈ l.uses, u.template.template.Spares x

omit [HostObject ω] in
/-- The blocks of levels are blocks of templates that spare the variable. -/
theorem owner_of_mem_levels {levels : List Level} (h : ∀ l ∈ levels, Level.Spares x l)
    {entry : String × BlockRef} (hentry : entry ∈ levels.flatMap Level.blocks) :
    entry.2.owner.template.Spares x := by
  obtain ⟨l, hl, hblock⟩ := List.mem_flatMap.mp hentry
  rcases List.mem_append.mp hblock with hown | hused
  · obtain ⟨_, _, rfl⟩ := List.mem_map.mp hown
    exact (h l hl).template
  · obtain ⟨u, hu, hexport⟩ := List.mem_flatMap.mp hused
    obtain ⟨_, hblocks, rfl⟩ := List.mem_map.mp hexport
    obtain ⟨_, _, rfl⟩ := List.mem_map.mp hblocks
    exact (h l hl).uses u (List.mem_reverse.mp hu)

omit [HostObject ω] in
/-- The template that runs, which is the same in both renders. -/
theorem unread_running {good : α → Prop} {f : LiveTemplate → α}
    (hf : ∀ live : LiveTemplate, live.template.Spares x → good (f live)) :
    Unread x ordered good (do pure (f (← frame).template) : Render ω α)
      (do pure (f (← frame).template)) := by
  apply Unread.frame_bind
  intro fr fr' h
  rw [h.template]
  exact .pure (hf _ h.spares)

include yields

theorem unread_templateOf (move : Position → Position) {eval : Expr → Render ω (Value ω)}
    {e : Expr} (heval : Unread x ordered Anything (eval e) (eval (e.relocate move))) :
    Unread x ordered (fun live => live.template.Spares x) (templateOf env eval e)
      (templateOf env eval (e.relocate move)) := by
  unfold templateOf
  rw [isSelf_relocate]
  split
  · exact unread_running (f := id) fun _ h => h
  · exact heval.bind fun v _ => .load yields _

theorem unread_usedTemplates {runner : Runner ω} (hrun : Heedless x runner) {reuses : List Reuse}
    (h : ∀ reuse ∈ reuses, reuse.template.Spares x) :
    Unread x ordered (fun uses => ∀ u ∈ uses, u.template.template.Spares x)
      (usedTemplates env runner.eval reuses) (usedTemplates env runner.eval reuses) := by
  induction reuses with
  | nil => exact .pure (List.forall_mem_nil _)
  | cons reuse reuses ih =>
    obtain ⟨hreuse, hmore⟩ := List.forall_mem_cons.mp h
    have htemplate : Unread x ordered _ _ _ :=
      unread_templateOf yields id (hrun.eval hreuse id)
    rw [Expr.relocate_id] at htemplate
    apply htemplate.bind
    intro live hlive
    apply (ih hmore).bind
    intro uses huses
    exact .pure (List.forall_mem_cons.mpr ⟨hlive, huses⟩)

/-- A turn of a chain of templates, and the levels that it leaves. -/
theorem unread_followTurn {runner : Runner ω} (hrun : Heedless x runner) {levels : List Level}
    (h : ∀ l ∈ levels, Level.Spares x l) :
    Unread x ordered (fun r => ∀ l ∈ r.1, Level.Spares x l) (followTurn env runner levels)
      (followTurn env runner levels) := by
  apply Unread.frame_bind
  intro fr fr' hframe
  dsimp only
  rw [hframe.template]
  apply (unread_usedTemplates yields hrun fun _ hreuse => hframe.spares.reuses hreuse).bind
  intro uses huses
  have hlevels : ∀ l ∈ ⟨fr.template, uses⟩ :: levels, Level.Spares x l :=
    List.forall_mem_cons.mpr ⟨⟨hframe.spares, huses⟩, h⟩
  cases hparent : fr.template.template.parent with
  | none => exact .pure hlevels
  | some extended =>
    apply (hrun.body_same hframe.spares.body.preamble).bind
    intro _ _
    have hreference : Unread x ordered Anything (reference runner.eval extended.template)
        (reference runner.eval extended.template) := by
      unfold reference
      split
      · exact .pure trivial
      · exact (hrun.eval_same (hframe.spares.parent extended hparent)).bind fun v _ =>
          .pure trivial
    exact hreference.bind fun r _ => .pure hlevels

omit [HostObject ω] in
theorem unread_stepChain (names : List String) (r : Reference) :
    Unread x ordered Anything (stepChain env names r) (stepChain env names r) := by
  have hresolve : Unread x ordered (fun live => live.template.Spares x) (resolve env r)
      (resolve env r) := by
    cases r with
    | named name => exact .load yields name
    | running => exact unread_running (f := id) fun _ h => h
  apply hresolve.bind
  intro parent hparent
  dsimp only
  split
  · exact .throw rfl
  · refine Unread.bind (.changeFrame ?_) fun _ _ => .pure trivial
    intro fr fr' h
    exact ⟨rfl, h.scope, h.blocks, h.current, hparent, h.owners, h.sorted⟩

/-- By induction on the number of turns. -/
theorem unread_followChain {runner : Runner ω} (hrun : Heedless x runner) (n : Nat)
    (names : List String) {levels : List Level} (h : ∀ l ∈ levels, Level.Spares x l) :
    Unread x ordered (fun levels => ∀ l ∈ levels, Level.Spares x l)
      (followChain env runner n names levels) (followChain env runner n names levels) := by
  induction n generalizing names levels with
  | zero => exact .throw rfl
  | succ n ih =>
    rw [followChain_succ]
    have hturn : Unread x ordered (fun r => ∀ l ∈ r.1, Level.Spares x l)
        (chainTurn env runner names levels) (chainTurn env runner names levels) := by
      apply (unread_followTurn yields hrun h).bind
      intro (levels, r) hlevels
      cases r with
      | none => exact .pure hlevels
      | some r => exact (unread_stepChain yields names r).bind fun _ _ => .pure hlevels
    apply hturn.bind
    intro (levels, more) hlevels
    cases more with
    | none => exact .pure fun l hl => hlevels l (List.mem_reverse.mp hl)
    | some names => exact ih names hlevels

/-- A template in scopes that are the same but for the variable, whatever is known of the order of
their layers. -/
theorem unread_renderTemplate {runner : Runner ω} (hrun : Heedless x runner) {t : LiveTemplate}
    (ht : t.template.Spares x) {scope scope' : Scope ω} (hscope : scope.SameBut x scope')
    {overrides : List (String × BlockRef)}
    (h : ∀ entry ∈ overrides, entry.2.owner.template.Spares x) :
    Unread x ordered Anything (renderTemplate env runner t scope overrides)
      (renderTemplate env runner t scope' overrides) := by
  have henter : (Frame.forTemplate t scope).SameBut x False (Frame.forTemplate t scope') :=
    ⟨rfl, hscope, rfl, rfl, ht, nofun, False.elim⟩
  refine Unread.within (fun _ _ _ => henter) ?_
  apply (unread_followChain yields hrun _ _ (List.forall_mem_nil _)).bind
  intro levels hlevels
  refine Unread.bind (.changeFrame ?_) fun _ _ => ?_
  · intro fr fr' hframe
    refine ⟨hframe.template, hframe.scope, rfl, hframe.current, hframe.spares, ?_, nofun⟩
    intro c hc entry hentry
    cases hc
    rcases List.mem_append.mp hentry with hover | hlevel
    · exact h entry hover
    · exact owner_of_mem_levels hlevels hlevel
  · apply Unread.frame_bind
    intro fr fr' hframe
    rw [hframe.template]
    exact hrun.body_same hframe.spares.body

theorem unread_inclusionTarget (move : Position → Position) {eval : Expr → Render ω (Value ω)}
    {i : Inclusion}
    (heval : Unread x ordered Anything (eval i.template) (eval (i.template.relocate move))) :
    Unread x ordered (fun target => ∀ live ∈ target, live.template.Spares x)
      (inclusionTarget env eval i) (inclusionTarget env eval (i.relocate move)) := by
  have hself : isSelf (i.relocate move).template = isSelf i.template := isSelf_relocate _ _
  unfold inclusionTarget
  rw [hself]
  split
  · apply unread_running (f := some)
    intro live hlive known hknown
    cases hknown
    exact hlive
  · apply heval.bind
    intro v _
    apply (Unread.loadFirst yields none _).bind
    intro r hr
    rcases r with (_ | e) | live
    · exact .pure nofun
    · show Unread x ordered _ (if i.ignoreMissing then pure none else fail e)
        (if i.ignoreMissing then pure none else fail e)
      split
      · exact .pure nofun
      · exact .throw rfl
    · refine .pure ?_
      intro known hknown
      cases hknown
      exact hr live rfl

omit [HostObject ω] yields in
theorem unread_inclusionBindings (move : Position → Position)
    {eval : Expr → Render ω (Value ω)} {i : Inclusion}
    (heval : ∀ e ∈ i.bindings, Unread x ordered Anything (eval e) (eval (e.relocate move))) :
    Unread x ordered Anything (inclusionBindings eval i)
      (inclusionBindings eval (i.relocate move)) := by
  obtain ⟨pos, template, bindings, only, ignoreMissing⟩ := i
  cases bindings with
  | none => exact .pure trivial
  | some e =>
    apply (heval e rfl).bind
    intro v _
    cases v with
    | map entries => exact .pure trivial
    | null => exact .pure trivial
    | _ => exact .failAt _ _ _

omit [HostObject ω] yields in
theorem sameBut_inclusionScope (only : Bool) (bindings : Table (Value ω)) {scope scope' : Scope ω}
    (h : scope.SameBut x scope') :
    (inclusionScope only bindings scope).SameBut x (inclusionScope only bindings scope') := by
  unfold inclusionScope
  split
  · exact .refl x _
  · have hmerged : (Scope.ofLayer scope.root scope.flatten).SameBut x
        (Scope.ofLayer scope'.root scope'.flatten) := ⟨h.root, h.flatten, .nil⟩
    exact hmerged.push bindings

theorem unread_renderInclusion {inner : Option (Runner ω)} (hinner : ∀ r ∈ inner, Heedless x r)
    (move : Position → Position) {eval : Expr → Render ω (Value ω)} {i : Inclusion}
    (heval : ∀ e ∈ i.template :: i.bindings.toList,
      Unread x ordered Anything (eval e) (eval (e.relocate move)))
    {overrides : List (String × BlockRef)}
    (hoverrides : ∀ entry ∈ overrides, entry.2.owner.template.Spares x) :
    Unread x ordered Anything (renderInclusion env inner eval i overrides)
      (renderInclusion env inner eval (i.relocate move) overrides) := by
  apply (unread_inclusionTarget yields move (heval _ (.head _))).bind
  intro target htarget
  cases target with
  | none => exact .pure trivial
  | some live =>
    have hbindings : ∀ e ∈ i.bindings,
        Unread x ordered Anything (eval e) (eval (e.relocate move)) :=
      fun e he => heval e (.tail _ (Option.mem_toList.mpr he))
    apply (unread_inclusionBindings move hbindings).bind
    intro bindings _
    apply Unread.frame_bind
    intro fr fr' h
    apply Unread.deeper
    intro runner hrunner
    exact unread_renderTemplate yields (hinner runner hrunner) (htarget live rfl)
      (sameBut_inclusionScope i.only bindings h.scope) hoverrides

end Templates

/-! ## §5. Statements -/

theorem unread_runRounds (key : Option String) (value : String) (length : Nat)
    (parent : Option (Value ω)) {body body' : Render ω Unit}
    (hbody : Unread x ordered Anything body body') (index : Nat)
    (items : List (Value ω × Value ω)) :
    Unread x ordered Anything (runRounds key value length parent body index items)
      (runRounds key value length parent body' index items) := by
  induction items generalizing index with
  | nil => exact .pure trivial
  | cons item items ih =>
    exact (hbody.inLayer (Table.sorted_ofList _)).bind fun _ _ => ih (index + 1)

theorem unread_itemsOf [HostObject ω] (v : Value ω) :
    Unread x ordered Anything (itemsOf v) (itemsOf v) := by
  unfold itemsOf
  split
  · apply (Unread.meet _).bind
    intro w _
    split <;> exact .pure trivial
  · exact .pure trivial

/-- A loop asks for the variable that tells about the loop around it. -/
theorem unread_runLoop [HostObject ω] (hloop : loopName ≠ x) (key : Option String)
    (value : String) {iterable iterable' : Render ω (Value ω)}
    {body body' orElse orElse' : Render ω Unit}
    (hiterable : Unread x ordered Anything iterable iterable')
    (hbody : Unread x ordered Anything body body')
    (horElse : Unread x ordered Anything orElse orElse') :
    Unread x ordered Anything (runLoop key value iterable body orElse)
      (runLoop key value iterable' body' orElse') := by
  apply hiterable.bind
  intro v _
  apply (unread_itemsOf v).bind
  intro items _
  cases items with
  | nil => exact horElse
  | cons item items =>
    apply Unread.frame_bind
    intro fr fr' h
    dsimp only
    rw [h.scope.find? hloop]
    exact unread_runRounds key value _ _ hbody 0 _

theorem unread_assignAll (names : List String) (vs : List (Value ω)) :
    Unread x ordered Anything (assignAll names vs) (assignAll names vs) := by
  induction names generalizing vs with
  | nil => exact .pure trivial
  | cons name names ih =>
    cases vs with
    | nil => exact .pure trivial
    | cons v vs => exact (Unread.assign name v).bind fun _ _ => ih vs

theorem unread_importMacros (pos pos' : Position) (t : LiveTemplate)
    (names : List (String × String)) :
    Unread x ordered Anything (importMacros pos t names : Render ω Unit)
      (importMacros pos' t names) := by
  induction names with
  | nil => exact .pure trivial
  | cons pair names ih =>
    unfold importMacros
    cases t.template.macroTable.find? pair.1 with
    | none => exact .failAt _ _ _
    | some id => exact (Unread.assign pair.2 _).bind fun _ _ => ih

section Statements

variable [HostObject ω] {env : Environment ω} (yields : env.Yields (Template.Spares x))
  {inner : Option (Runner ω)} (hinner : ∀ r ∈ inner, Heedless x r)
include hinner

theorem unread_applyFilters (move : Position → Position) {calls : List FilterCall}
    (h : ∀ call ∈ calls, ∀ e ∈ call.args, e.Spares x) (v : Value ω) :
    Unread x ordered Anything (applyFilters env inner calls v)
      (applyFilters env inner (calls.map (FilterCall.relocate move)) v) := by
  induction calls generalizing v with
  | nil => exact .pure trivial
  | cons call calls ih =>
    obtain ⟨hargs, hmore⟩ := List.forall_mem_cons.mp h
    apply (unread_applyFilter _ _ call.name v (unread_evalAll hinner move call.args hargs)).bind
    intro w _
    exact ih hmore w

include yields

/-- A statement does not heed the variable if its expressions spare it and its bodies do not heed
it. -/
theorem unread_runStmt (move : Position → Position) {s : Stmt} (hasked : s.asked? ≠ some x)
    (hexprs : ∀ e ∈ s.exprs, e.Spares x)
    (hbodies : ∀ body ∈ s.bodies, Unread x ordered Anything (runBody env inner body)
      (runBody env inner (Stmt.relocateAll move id body))) :
    Unread x ordered Anything (runStmt env inner s) (runStmt env inner (s.relocate move id)) := by
  have heval : ∀ e ∈ s.exprs,
      Unread x ordered Anything (eval env inner e) (eval env inner (e.relocate move)) :=
    fun e he => unread_eval hinner move e (hexprs e he)
  cases s with
  | text _ content =>
    rw [Stmt.relocate, runStmt, runStmt]
    exact .write content
  | print _ e =>
    rw [Stmt.relocate, runStmt, runStmt]
    exact (heval e (.head _)).bind fun v _ => .write _
  | block pos id =>
    rw [Stmt.relocate, runStmt, runStmt]
    exact unread_renderSlot hinner _ _ _
  | branch _ cond body orElse =>
    rw [Stmt.relocate, runStmt, runStmt]
    apply (heval cond (.head _)).bind
    intro v _
    split
    · exact hbodies body (.head _)
    · exact hbodies orElse (.tail _ (.head _))
  | loop _ key value iterable body orElse =>
    have hloop : loopName ≠ x := fun heq => hasked (congrArg some heq)
    rw [Stmt.relocate, runStmt, runStmt]
    exact unread_runLoop hloop key value (heval iterable (.head _)) (hbodies body (.head _))
      (hbodies orElse (.tail _ (.head _)))
  | includes inclusion =>
    rw [Stmt.relocate, runStmt, runStmt]
    exact unread_renderInclusion yields hinner move heval (List.forall_mem_nil _)
  | embeds inclusion blocks =>
    rw [Stmt.relocate, runStmt, runStmt, renumber_id]
    apply Unread.frame_bind
    intro fr fr' h
    rw [h.template]
    apply unread_renderInclusion yields hinner move heval
    intro entry hentry
    obtain ⟨_, _, rfl⟩ := List.mem_map.mp hentry
    exact h.spares
  | reuses _ | defines _ _ =>
    rw [Stmt.relocate, runStmt, runStmt]
    exact .pure trivial
  | assign _ targets values =>
    rw [Stmt.relocate, runStmt, runStmt]
    exact (unread_evalAll hinner move values hexprs).bind fun vs _ => unread_assignAll targets vs
  | capture _ name body =>
    rw [Stmt.relocate, runStmt, runStmt]
    exact (hbodies body (.head _)).capture.bind fun text _ => .assign name _
  | perform _ e =>
    rw [Stmt.relocate, runStmt, runStmt]
    exact (heval e (.head _)).bind fun v _ => .pure trivial
  | filtered _ filters body =>
    have hargs : ∀ call ∈ filters, ∀ e ∈ call.args, e.Spares x := fun call hcall e he =>
      hexprs e (List.mem_flatMap.mpr ⟨call, hcall, he⟩)
    rw [Stmt.relocate, runStmt, runStmt]
    apply (hbodies body (.head _)).capture.bind
    intro text _
    exact (unread_applyFilters hinner move hargs _).bind fun v _ => .write _
  | importAll _ template newName =>
    rw [Stmt.relocate, runStmt, runStmt]
    exact (unread_templateOf yields move (heval template (.head _))).bind fun t _ =>
      .assign newName _
  | importSome _ template names =>
    rw [Stmt.relocate, runStmt, runStmt]
    exact (unread_templateOf yields move (heval template (.head _))).bind fun t _ =>
      unread_importMacros _ _ t names

end Statements

/-! ## §6. Filters on a text -/

section Filters

variable [HostObject ω] (env : Environment ω) (inner : Option (Runner ω))

/-- What a filter makes of what evaluates its subject. -/
def pipeCall (subject : Render ω (Value ω)) (call : FilterCall) : Render ω (Value ω) :=
  (if call.name = "default" then leniently subject else subject) >>= fun v =>
    applyFilter env call.position call.name v (evalAll env inner call.args)

/-- What filters make of it, one after the other. -/
def pipe (calls : List FilterCall) (subject : Render ω (Value ω)) : Render ω (Value ω) :=
  calls.foldl (pipeCall env inner) subject

theorem eval_through (e : Expr) (calls : List FilterCall) :
    eval env inner (e.through calls) = pipe env inner calls (eval env inner e) := by
  induction calls generalizing e with
  | nil => rfl
  | cons call calls ih =>
    have hcall : eval env inner (.filter call.position call.name (e :: call.args)) =
        pipeCall env inner (eval env inner e) call := by
      rw [eval, pipeCall]
      split <;> rfl
    show eval env inner (Expr.through (.filter call.position call.name (e :: call.args)) calls) = _
    rw [ih, hcall]
    rfl

omit [HostObject ω] in
theorem relocate_through (move : Position → Position) (e : Expr) (calls : List FilterCall) :
    (e.through calls).relocate move =
      (e.relocate move).through (calls.map (FilterCall.relocate move)) := by
  induction calls generalizing e with
  | nil => rfl
  | cons call calls ih =>
    show Expr.relocate move (Expr.through (.filter call.position call.name (e :: call.args)) calls)
      = _
    rw [ih, Expr.relocate, Expr.relocateAll]
    rfl

/-- Subjects that do the same in a state, whether the flag is up or down, do so through filters. -/
theorem run_pipe_congr {m m' : Render ω (Value ω)} {s : RenderState ω}
    (h : ∀ b, m.run (s.withLenient b) = m'.run (s.withLenient b)) (calls : List FilterCall)
    (b : Bool) :
    (pipe env inner calls m).run (s.withLenient b) =
      (pipe env inner calls m').run (s.withLenient b) := by
  induction calls generalizing m m' b with
  | nil => exact h b
  | cons call calls ih =>
    apply ih
    intro b
    have hleniently : (leniently m).run (s.withLenient b) =
        (leniently m').run (s.withLenient b) := by
      show (((m.run (s.withLenient true)).1, (m.run (s.withLenient true)).2.withLenient b) :
        Except Failure (Value ω) × RenderState ω) = _
      rw [h true]
      rfl
    have hsubject : (if call.name = "default" then leniently m else m).run (s.withLenient b) =
        (if call.name = "default" then leniently m' else m').run (s.withLenient b) := by
      split
      · exact hleniently
      · exact h b
    rw [pipeCall, pipeCall, run_bind, run_bind, hsubject]

/-- In a variable that has been set right before, its value is found. -/
theorem assign_bind_through (name : String) (v : Value ω) (pos : Position)
    (calls : List FilterCall) :
    (do
      assign name v
      eval env inner (Expr.through (.name pos name) calls)) =
      (do
        assign name v
        pipe env inner calls (pure v)) := by
  funext s
  let t : RenderState ω :=
    { s with frame := { s.frame with scope := s.frame.scope.assign name v } }
  have hassign : (assign name v : Render ω Unit).run s = (.ok (), t) := rfl
  show ExceptT.run (assign name v >>= fun _ => _) s = ExceptT.run (assign name v >>= fun _ => _) s
  rw [run_bind_ok hassign, run_bind_ok hassign, eval_through]
  have hlookup : ∀ b, (eval env inner (.name pos name)).run (t.withLenient b) =
      (pure v : Render ω (Value ω)).run (t.withLenient b) := by
    intro b
    have hfind : find? env (t.withLenient b).frame name = some v := by
      show ((List.findSome? (Table.find? · name) (s.frame.scope.innermost.insert name v ::
        s.frame.scope.below)).or _).or _ = some v
      rw [List.findSome?_cons, Table.find?_insert_self]
      rfl
    rw [eval, lookup, run_bind_ok (run_frame _), hfind]
  exact run_pipe_congr env inner hlookup calls t.lenient

/-- Capturing a text in a variable and printing it through filters. -/
theorem runBody_capture_print (name : String) (body ss : List Stmt) (pos pos' pos'' : Position)
    (calls : List FilterCall) :
    runBody env inner
        (.capture pos name body :: .print pos' (.through (.name pos'' name) calls) :: ss) =
      capture (runBody env inner body) >>= fun text =>
        (assign name (rendered text) >>= fun _ => pipe env inner calls (pure (rendered text))) >>=
          fun v => write v.output >>= fun _ => runBody env inner ss := by
  have hset := fun text => assign_bind_through env inner name (rendered text) pos'' calls
  rw [runBody, runBody, runStmt, runStmt]
  simp only [← hset, bind_assoc]

variable {env inner} (hinner : ∀ r ∈ inner, Heedless x r)
include hinner

theorem unread_pipe (move : Position → Position) {calls : List FilterCall}
    (h : ∀ call ∈ calls, ∀ e ∈ call.args, e.Spares x) {m m' : Render ω (Value ω)}
    (hm : Unread x ordered Anything m m') :
    Unread x ordered Anything (pipe env inner calls m)
      (pipe env inner (calls.map (FilterCall.relocate move)) m') := by
  induction calls generalizing m m' with
  | nil => exact hm
  | cons call calls ih =>
    obtain ⟨hargs, hmore⟩ := List.forall_mem_cons.mp h
    apply ih hmore
    have hfilter : ∀ v, Unread x ordered Anything
        (applyFilter env call.position call.name v (evalAll env inner call.args))
        (applyFilter env (move call.position) call.name v
          (evalAll env inner (Expr.relocateAll move call.args))) :=
      fun v => unread_applyFilter _ _ call.name v (unread_evalAll hinner move call.args hargs)
    have hname : (call.relocate move).name = call.name := rfl
    rw [pipeCall, pipeCall, hname]
    split
    · exact hm.leniently.bind fun v _ => hfilter v
    · exact hm.bind fun v _ => hfilter v

theorem unread_assign_pipe (move : Position → Position) {calls : List FilterCall}
    (h : ∀ call ∈ calls, ∀ e ∈ call.args, e.Spares x) (v : Value ω) :
    Unread x ordered Anything (assign x v >>= fun _ => pipe env inner calls (pure v))
      (assign x v >>= fun _ =>
        pipe env inner (calls.map (FilterCall.relocate move)) (pure v)) :=
  (Unread.assign x v).bind fun _ _ => unread_pipe hinner move h (.pure trivial)

/-! ## §7. Bodies -/

/-- By induction over statements that spare the variable. -/
theorem unread_runBody (yields : env.Yields (Template.Spares x)) (move : Position → Position)
    {ss : List Stmt} (h : Stmt.Spare x ss) :
    Unread x ordered Anything (runBody env inner ss)
      (runBody env inner (Stmt.relocateAll move id ss)) := by
  induction h with
  | nil =>
    rw [Stmt.relocateAll]
    exact .pure trivial
  | cons hasked hexprs _ _ ihbodies ih =>
    rw [Stmt.relocateAll, runBody, runBody]
    exact (unread_runStmt yields hinner move hasked hexprs ihbodies).bind fun _ _ => ih
  | once pos pos' pos'' _ hcalls _ ihbody ih =>
    rw [Stmt.relocateAll, Stmt.relocateAll, Stmt.relocate, Stmt.relocate, relocate_through,
      Expr.relocate, runBody_capture_print, runBody_capture_print]
    apply ihbody.capture.bind
    intro text _
    apply (unread_assign_pipe hinner move hcalls (rendered text)).bind
    intro v _
    exact (Unread.write v.output).bind fun _ _ => ih

end Filters

/-! ## §8. Levels -/

/-- Whatever number of levels is left, code does not heed the variable. -/
theorem heedless_innerRunner [HostObject ω] {env : Environment ω}
    (yields : env.Yields (Template.Spares x)) (n : Nat) :
    ∀ r ∈ innerRunner env n, Heedless x r := by
  induction n with
  | zero => exact fun r hr => nomatch hr
  | succ n ih =>
    intro r hr
    cases hr
    refine ⟨?_, ?_, ?_⟩
    · intro ordered e he move
      exact unread_eval ih move e he
    · intro ordered ss hss move
      exact unread_runBody ih yields move hss
    · intro definition args s hs
      exact (closed_holds yields).of_moves ((runnerMoves env n).macroBody definition args) s hs

end Render

end Stencil
