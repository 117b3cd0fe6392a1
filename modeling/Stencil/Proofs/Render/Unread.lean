import Stencil.Proofs.Render.Leniency
import Stencil.Proofs.Render.Relocation
import Stencil.Proofs.Render.Seclusion

/-!
A variable that is not read.

Two renders of one environment go side by side, in states that are the same but for the value of one
variable.  Code that does not ask for the variable does the same in both: it comes to the same
result, writes the same, and leaves states behind that again are the same but for the variable.  In
the second render the code may stand at other places, so errors are the same up to their positions.

`Unread` is the judgement that two parts of renders do the same in this sense.  It is closed under
everything that renders are built with.  Macros are no matter here: what a macro sees of the frame
of its caller has nothing of the variable in it.
-/

namespace Stencil

variable {ω α β : Type}

/-! ## §1. Errors without their positions -/

/-- The error at no position in particular. -/
def Error.unplaced : Error → Error
  | .render template _ kind => .render template .start kind
  | .parse template e => .parse template e
  | .notFound template reason => .notFound template reason
  | .extendsCycle names => .extendsCycle names
  | .outputClosed => .outputClosed

/-- The failure at no position in particular. -/
def Failure.unplaced : Failure → Failure
  | .error e => .error e.unplaced
  | .exhausted => .exhausted

/-! ## §2. Variables -/

namespace Table

theorem sorted_insertAll {t : Table α} (h : t.Sorted) (entries : List (String × α)) :
    (t.insertAll entries).Sorted := by
  induction entries generalizing t with
  | nil => exact h
  | cons entry entries ih => exact ih (sorted_insert h entry.1 entry.2)

theorem sorted_ofList (entries : List (String × α)) : (ofList entries).Sorted :=
  sorted_insertAll List.Pairwise.nil entries

/-- Tables with the same entries but for one name.  If there is a difference, both are in order. -/
def SameBut (x : String) (t t' : Table α) : Prop :=
  t' = t ∨ (t.Sorted ∧ t'.Sorted ∧ ∀ name, name ≠ x → t'.find? name = t.find? name)

namespace SameBut

variable {x name : String} {t t' : Table α}

theorem refl (x : String) (t : Table α) : SameBut x t t := .inl rfl

/-- Setting the entry of the name makes no difference to the others. -/
theorem of_insert (h : t.Sorted) (x : String) (a : α) : SameBut x t (t.insert x a) :=
  .inr ⟨h, sorted_insert h x a, fun _ hname => find?_insert_ne t a (Ne.symm hname)⟩

theorem find? (h : SameBut x t t') (hname : name ≠ x) :
    Table.find? t' name = Table.find? t name := by
  rcases h with rfl | ⟨_, _, h⟩
  · rfl
  · exact h name hname

theorem find?_reverse (h : SameBut x t t') (hname : name ≠ x) :
    Table.find? t'.reverse name = Table.find? t.reverse name := by
  rcases h with rfl | ⟨hsorted, hsorted', h⟩
  · rfl
  · rw [hsorted'.find?_reverse, hsorted.find?_reverse, h name hname]

theorem insert (h : SameBut x t t') (name : String) (a : α) :
    SameBut x (t.insert name a) (t'.insert name a) := by
  rcases h with rfl | ⟨hsorted, hsorted', h⟩
  · exact .refl x _
  · refine .inr ⟨sorted_insert hsorted name a, sorted_insert hsorted' name a, ?_⟩
    intro other hother
    by_cases hname : name = other
    · subst hname
      rw [find?_insert_self, find?_insert_self]
    · rw [find?_insert_ne _ _ hname, find?_insert_ne _ _ hname, h other hother]

end SameBut

end Table

/-- Scopes with the same variables but for one, in the same layers over the same root. -/
structure Scope.SameBut (x : String) (s s' : Scope ω) : Prop where
  root : s'.root = s.root
  innermost : s.innermost.SameBut x s'.innermost
  below : List.Forall₂ (Table.SameBut x) s.below s'.below

namespace Scope

variable {x : String} {s s' : Scope ω}

theorem SameBut.refl (x : String) (s : Scope ω) : s.SameBut x s :=
  ⟨rfl, .refl x _, List.forall₂_same.mpr fun t _ => .refl x t⟩

theorem SameBut.layers (h : s.SameBut x s') :
    List.Forall₂ (Table.SameBut x) s.layers s'.layers :=
  .cons h.innermost h.below

theorem SameBut.find? (h : s.SameBut x s') {name : String} (hname : name ≠ x) :
    s'.find? name = s.find? name := by
  have hlayers := h.layers
  unfold Scope.find?
  rw [h.root]
  congr 1
  generalize s.layers = layers, s'.layers = layers' at hlayers
  induction hlayers with
  | nil => rfl
  | cons hlayer _ ih => rw [List.findSome?_cons, List.findSome?_cons, ih, hlayer.find? hname]

theorem SameBut.assign (h : s.SameBut x s') (name : String) (v : Value ω) :
    (s.assign name v).SameBut x (s'.assign name v) :=
  ⟨h.root, h.innermost.insert name v, h.below⟩

theorem SameBut.push (h : s.SameBut x s') (layer : Table (Value ω)) :
    (s.push layer).SameBut x (s'.push layer) :=
  ⟨h.root, .refl x layer, h.layers⟩

theorem SameBut.pop (h : s.SameBut x s') : s.pop.SameBut x s'.pop := by
  obtain ⟨root, innermost, below⟩ := s
  obtain ⟨root', innermost', below'⟩ := s'
  obtain ⟨hroot, hinnermost, hbelow⟩ := h
  cases hbelow with
  | nil => exact ⟨hroot, hinnermost, .nil⟩
  | cons hlayer hmore => exact ⟨hroot, hlayer, hmore⟩

/-- Merged layers are in order, whatever they are merged from. -/
theorem SameBut.flatten (h : s.SameBut x s') : s.flatten.SameBut x s'.flatten := by
  have hlayers := h.layers
  unfold Scope.flatten
  generalize s.layers = layers, s'.layers = layers' at hlayers
  induction hlayers with
  | nil => exact .refl x _
  | @cons layer layer' layers layers' hlayer _ ih =>
    have hsorted : ∀ layers : List (Table (Value ω)),
        Table.Sorted (layers.foldr (fun layer merged => Table.insertAll merged layer) []) := by
      intro layers
      induction layers with
      | nil => exact .nil
      | cons layer layers ih => exact Table.sorted_insertAll ih layer
    refine .inr ⟨hsorted (layer :: layers), hsorted (layer' :: layers'), ?_⟩
    intro name hname
    rw [List.foldr_cons, List.foldr_cons, Table.find?_insertAll, Table.find?_insertAll,
      hlayer.find?_reverse hname, ih.find? hname]

theorem Sorted.assign (h : s.Sorted) (name : String) (v : Value ω) : (s.assign name v).Sorted := by
  obtain ⟨hinnermost, hbelow⟩ := List.forall_mem_cons.mp h
  exact List.forall_mem_cons.mpr ⟨Table.sorted_insert hinnermost name v, hbelow⟩

theorem Sorted.push (h : s.Sorted) {layer : Table (Value ω)} (hlayer : layer.Sorted) :
    (s.push layer).Sorted :=
  List.forall_mem_cons.mpr ⟨hlayer, h⟩

theorem Sorted.pop (h : s.Sorted) : s.pop.Sorted := by
  obtain ⟨root, innermost, below⟩ := s
  cases below with
  | nil => exact h
  | cons layer more => exact (List.forall_mem_cons.mp h).2

end Scope

/-! ## §3. Code that spares a variable -/

/-- The variable that a node asks for.  What is called by a name may be a macro bound to it. -/
def Expr.asked? : Expr → Option String
  | .name _ called | .call _ called _ => some called
  | .null _ | .bool .. | .number .. | .string .. | .filter .. | .test .. | .binary .. | .unary ..
  | .group .. | .attribute .. | .method .. | .conditional .. | .hash .. | .array .. => none

/-- An expression in which nothing asks for a variable. -/
abbrev Expr.Spares (x : String) (e : Expr) : Prop :=
  e.Everywhere fun part => part.asked? ≠ some x

/-- An expression with filters applied to it, one after the other. -/
def Expr.through (e : Expr) (calls : List FilterCall) : Expr :=
  calls.foldl (fun e call => .filter call.position call.name (e :: call.args)) e

/-- The variable that a statement asks for by itself: a loop passes on what the loop around it
tells. -/
def Stmt.asked? : Stmt → Option String
  | .loop .. => some Render.loopName
  | _ => none

/-- The bodies directly inside a statement. -/
def Stmt.bodies : Stmt → List (List Stmt)
  | .branch _ _ body orElse | .loop _ _ _ _ body orElse => [body, orElse]
  | .capture _ _ body | .filtered _ _ body => [body]
  | _ => []

/-- Statements that do not ask for a variable, except for printing a text through filters right
after capturing it in the variable. -/
inductive Stmt.Spare (x : String) : List Stmt → Prop
  | nil : Spare x []
  | cons {s : Stmt} {ss : List Stmt} : s.asked? ≠ some x → (∀ e ∈ s.exprs, e.Spares x) →
    (∀ body ∈ s.bodies, Spare x body) → Spare x ss → Spare x (s :: ss)
  | once (pos pos' pos'' : Position) {body ss : List Stmt} {calls : List FilterCall} :
    Spare x body → (∀ call ∈ calls, ∀ e ∈ call.args, e.Spares x) → Spare x ss →
    Spare x (.capture pos x body :: .print pos' (.through (.name pos'' x) calls) :: ss)

/-- A template whose code spares a variable, macros aside. -/
structure Template.Spares (x : String) (t : Template) : Prop where
  body : Stmt.Spare x t.body
  blocks : ∀ block ∈ t.blocks, Stmt.Spare x block.body
  parent : ∀ extended ∈ t.parent, extended.template.Spares x

/-- What takes effect of an extending template spares what the template spares. -/
theorem Stmt.Spare.preamble {x : String} {ss : List Stmt} (h : Stmt.Spare x ss) :
    Stmt.Spare x (ss.filter Render.isPreamble) := by
  induction h with
  | nil => exact .nil
  | @cons s ss hasked hexprs hbodies _ _ ih =>
    rw [List.filter_cons]
    split
    · exact .cons hasked hexprs hbodies ih
    · exact ih
  | once pos pos' pos'' hbody _ _ _ ih =>
    -- The print has no effect there, but the capture has.
    refine .cons nofun (List.forall_mem_nil _) ?_ ih
    exact List.forall_mem_singleton.mpr hbody

theorem Stmt.Spare.exprs {x : String} {ss : List Stmt} (h : Stmt.Spare x ss) {reuse : Reuse}
    (hreuse : .reuses reuse ∈ ss) : reuse.template.Spares x := by
  induction h with
  | nil => cases hreuse
  | cons _ hexprs _ _ _ ih =>
    rcases List.mem_cons.mp hreuse with rfl | hmore
    · exact hexprs _ (.head _)
    · exact ih hmore
  | once pos pos' pos'' _ _ _ _ ih =>
    rcases List.mem_cons.mp hreuse with h | hreuse
    · cases h
    · rcases List.mem_cons.mp hreuse with h | hmore
      · cases h
      · exact ih hmore

theorem Template.Spares.reuses {x : String} {t : Template} (h : t.Spares x) {reuse : Reuse}
    (hreuse : reuse ∈ t.reuses) : reuse.template.Spares x := by
  obtain ⟨s, hs, hkind⟩ := List.mem_filterMap.mp hreuse
  cases s with
  | reuses r =>
    cases hkind
    exact h.body.exprs hs
  | _ => cases hkind

theorem Template.Spares.block {x : String} {t : Template} (h : t.Spares x) {id : DefinitionId}
    {block : Block} (hblock : t.blockAt? id = some block) : Stmt.Spare x block.body :=
  h.blocks block (List.mem_of_getElem? hblock)

/-! ## §4. Templates that are loaded -/

/-- All templates that the source has are of a kind, once prepared. -/
def Environment.Yields (env : Environment ω) (kind : Template → Prop) : Prop :=
  ∀ requests name source t, env.source requests name = .ok source →
    env.prepare name source = .ok t → kind t

/-- All loaded templates are of a kind. -/
def RenderState.Holds (s : RenderState ω) (kind : Template → Prop) : Prop :=
  ∀ name live, s.loaded.find? name = some live → kind live.template

namespace Render

variable {env : Environment ω} {kind : Template → Prop}

theorem holds_load (yields : env.Yields kind) (name : String) {s : RenderState ω}
    (h : s.Holds kind) :
    ((load env name).run s).2.Holds kind ∧
      ∀ live, ((load env name).run s).1 = .ok live → kind live.template := by
  rw [run_load]
  cases hfind : s.loaded.find? name with
  | some known =>
    refine ⟨h, ?_⟩
    intro live hlive
    cases hlive
    exact h name known hfind
  | none =>
    dsimp only
    cases hsource : env.source s.requests name with
    | error e => exact ⟨h, nofun⟩
    | ok source =>
      dsimp only
      cases hprepare : env.prepare name source with
      | error failure => exact ⟨h, nofun⟩
      | ok t =>
        have ht : kind t := yields _ name source t hsource hprepare
        refine ⟨?_, ?_⟩
        · intro other live hlive
          by_cases hname : name = other
          · subst hname
            rw [Table.find?_insert_self] at hlive
            cases hlive
            exact ht
          · rw [Table.find?_insert_ne _ _ hname] at hlive
            exact h other live hlive
        · intro live hlive
          cases hlive
          exact ht

/-- No move makes a difference to what is loaded but loading. -/
theorem closed_holds (yields : env.Yields kind) :
    Closed env fun {α : Type} (x : Render ω α) => ∀ s, s.Holds kind → (x.run s).2.Holds kind where
  pure := fun _ _ h => h
  throw := fun _ _ h => h
  bind := by
    intro α β x f hx hf s h
    have hafter := hx s h
    rcases hr : x.run s with ⟨e | a, t⟩
    · rw [hr] at hafter
      rw [run_bind_error hr]
      exact hafter
    · rw [hr] at hafter
      rw [run_bind_ok hr]
      exact hf a t hafter
  frame := fun _ h => h
  changeFrame := fun _ _ h => h
  undefined := by
    intro pos name s h other live
    have hloaded : ((undefined env pos name).run s).2.loaded = s.loaded :=
      keeps_undefined env pos name s
    rw [hloaded]
    exact h other live
  write := by
    intro text s h other live
    have hloaded : ((Render.write text).run s).2.loaded = s.loaded :=
      Keeps.write text (fun _ _ => rfl) s
    rw [hloaded]
    exact h other live
  meet := fun _ _ h => h
  load := fun name _ h => (holds_load yields name h).1
  loadIfThere := by
    intro name s h
    rw [run_loadIfThere]
    exact (holds_load yields name h).1
  capture := by
    intro x hx s h
    rw [run_capture]
    exact hx { s with output := ⟨[], none⟩ } h
  leniently := fun hx s h => hx { s with lenient := true } h
  inFrame := fun enter _ hx s h => hx { s with frame := enter s.frame } h
  deeper := by
    intro α inner pos k hk s h
    by_cases hlimit : maxDepth ≤ s.depth
    · rw [run_deeper_of_limit _ _ _ hlimit]
      exact h
    · rw [run_deeper_of_lt _ _ _ (Nat.lt_of_not_le hlimit)]
      cases inner with
      | none => exact h
      | some r => exact hk r rfl { s with depth := s.depth + 1 } h

end Render

/-! ## §5. States that are the same but for a variable -/

/-- Frames that are the same but for a variable that their code spares.  The layers may be known to
be in order. -/
structure Frame.SameBut (x : String) (ordered : Prop) (f g : Frame ω) : Prop where
  template : g.template = f.template
  scope : f.scope.SameBut x g.scope
  blocks : g.blocks = f.blocks
  current : g.current = f.current
  spares : f.template.template.Spares x
  owners : ∀ c ∈ f.blocks, ∀ entry ∈ c, entry.2.owner.template.Spares x
  sorted : ordered → f.scope.Sorted

/-- States that are the same but for a variable which no code asks for. -/
structure RenderState.SameBut (x : String) (ordered : Prop) (s t : RenderState ω) : Prop where
  frame : s.frame.SameBut x ordered t.frame
  rest : t = { s with frame := t.frame }
  loaded : s.Holds (Template.Spares x)

/-- How two parts of renders end that began in such states: with the same result, up to positions,
and in such states. -/
inductive Ends (x : String) (ordered : Prop) (good : α → Prop) :
    Except Failure α × RenderState ω → Except Failure α × RenderState ω → Prop
  | both {s t : RenderState ω} (a : α) : good a → s.SameBut x ordered t →
    Ends x ordered good (.ok a, s) (.ok a, t)
  | failed {s t : RenderState ω} {e e' : Failure} : e'.unplaced = e.unplaced →
    s.SameBut x ordered t → Ends x ordered good (.error e, s) (.error e', t)

/-- Whether two parts of renders do the same in states that are the same but for a variable, and
what they come to is good. -/
def Unread (x : String) (ordered : Prop) (good : α → Prop) (m m' : Render ω α) : Prop :=
  ∀ s t, s.SameBut x ordered t → Ends x ordered good (m.run s) (m'.run t)

/-- Nothing is asked of a result. -/
abbrev Anything (_ : α) : Prop := True

variable {x : String} {ordered ordered' : Prop} {good : α → Prop} {good' : β → Prop}

namespace RenderState.SameBut

variable {s t : RenderState ω} (h : s.SameBut x ordered t)
include h

theorem depth : t.depth = s.depth := by rw [h.rest]

theorem lenient : t.lenient = s.lenient := by rw [h.rest]

theorem output : t.output = s.output := by rw [h.rest]

theorem exists_frame : ∃ f, t = { s with frame := f } ∧ s.frame.SameBut x ordered f :=
  ⟨t.frame, h.rest, h.frame⟩

/-- A change to something else is made to both. -/
theorem update (change : RenderState ω → RenderState ω)
    (hframe : ∀ u, (change u).frame = u.frame)
    (hloaded : ∀ u, (change u).loaded = u.loaded)
    (hchange : ∀ (u : RenderState ω) f,
      change { u with frame := f } = { change u with frame := f }) :
    (change s).SameBut x ordered (change t) := by
  refine ⟨?_, ?_, ?_⟩
  · rw [hframe, hframe]
    exact h.frame
  · rw [hframe, ← hchange, ← h.rest]
  · intro name live
    rw [hloaded]
    exact h.loaded name live

end RenderState.SameBut

/-- The states can be changed when both have ended. -/
theorem Ends.after {p q : Except Failure α × RenderState ω} (h : Ends x ordered good p q)
    {f g : RenderState ω → RenderState ω}
    (hstates : p.2.SameBut x ordered q.2 → (f p.2).SameBut x ordered' (g q.2)) :
    Ends x ordered' good (p.1, f p.2) (q.1, g q.2) := by
  cases h with
  | both a ha states => exact .both a ha (hstates states)
  | failed he states => exact .failed he (hstates states)

/-- One part after another, of which the second begins where the first one has ended well. -/
theorem Ends.bind {m m' : Render ω α} {f f' : α → Render ω β} {s t : RenderState ω}
    (h : Ends x ordered good (m.run s) (m'.run t))
    (hf : ∀ a u v, m.run s = (.ok a, u) → good a → u.SameBut x ordered v →
      Ends x ordered good' ((f a).run u) ((f' a).run v)) :
    Ends x ordered good' ((m >>= f).run s) ((m' >>= f').run t) := by
  rw [Render.run_bind, Render.run_bind]
  generalize hr : m.run s = p, m'.run t = q at h
  cases h with
  | both a ha states => exact hf a _ _ hr ha states
  | failed he states => exact .failed he states

/-! ## §6. Moves -/

namespace Unread

open Render (run_bind_ok run_get)

variable {m m' : Render ω α}

theorem pure {a : α} (h : good a) : Unread x ordered good (Pure.pure a : Render ω α) (Pure.pure a) :=
  fun _ _ states => .both a h states

theorem throw {e e' : Failure} (h : e'.unplaced = e.unplaced) :
    Unread x ordered good (MonadExcept.throw e : Render ω α) (MonadExcept.throw e') :=
  fun _ _ states => .failed h states

theorem bind {f f' : α → Render ω β} (hm : Unread x ordered good m m')
    (hf : ∀ a, good a → Unread x ordered good' (f a) (f' a)) :
    Unread x ordered good' (m >>= f) (m' >>= f') :=
  fun s t states => (hm s t states).bind fun a u v _ ha inside => hf a ha u v inside

theorem map {f : α → β} (hm : Unread x ordered good m m') (hf : ∀ a, good a → good' (f a)) :
    Unread x ordered good' (f <$> m) (f <$> m') := by
  rw [map_eq_pure_bind, map_eq_pure_bind]
  exact hm.bind fun a ha => pure (hf a ha)

/-- Looking at the frames first. -/
theorem frame_bind {f f' : Frame ω → Render ω α}
    (h : ∀ fr fr' : Frame ω, fr.SameBut x ordered fr' → Unread x ordered good (f fr) (f' fr')) :
    Unread x ordered good (Render.frame >>= f) (Render.frame >>= f') := by
  intro s t states
  rw [run_bind_ok (Render.run_frame s), run_bind_ok (Render.run_frame t)]
  exact h _ _ states.frame s t states

theorem changeFrame {f f' : Frame ω → Frame ω}
    (h : ∀ fr fr', fr.SameBut x ordered fr' → (f fr).SameBut x ordered (f' fr')) :
    Unread x ordered Anything (Render.changeFrame f) (Render.changeFrame f') := by
  intro s t states
  obtain ⟨fr, rfl, hframe⟩ := states.exists_frame
  exact .both () trivial ⟨h _ _ hframe, rfl, states.loaded⟩

theorem failAt (pos pos' : Position) (kind : RenderErrorKind) :
    Unread x ordered good (Render.failAt pos kind : Render ω α) (Render.failAt pos' kind) := by
  apply frame_bind
  intro fr fr' hframe
  rw [hframe.template]
  exact throw rfl

theorem ofCall (pos pos' : Position) (name : String) (r : Except String α) :
    Unread x ordered Anything (Render.ofCall pos name r : Render ω α)
      (Render.ofCall pos' name r) := by
  cases r with
  | ok a => exact pure trivial
  | error message => exact failAt pos pos' _

theorem assign (name : String) (v : Value ω) :
    Unread x ordered Anything (Render.assign name v) (Render.assign name v) := by
  apply changeFrame
  intro fr fr' h
  exact ⟨h.template, h.scope.assign name v, h.blocks, h.current, h.spares, h.owners,
    fun hordered => (h.sorted hordered).assign name v⟩

/-- What a part of a render does that looks at nothing of the frame. -/
theorem of_run
    (hrun : ∀ s fr, m.run { s with frame := fr } =
      ((m.run s).1, { (m.run s).2 with frame := fr }))
    (hgood : ∀ s, s.Holds (Template.Spares x) →
      (m.run s).2.Holds (Template.Spares x) ∧ ∀ a, (m.run s).1 = .ok a → good a) :
    Unread x ordered good m m := by
  intro s t states
  obtain ⟨hloaded, hresult⟩ := hgood s states.loaded
  have hself : m.run s = ((m.run s).1, { (m.run s).2 with frame := s.frame }) := hrun s s.frame
  have hother : m.run t = ((m.run s).1, { (m.run s).2 with frame := t.frame }) := by
    rw [← hrun, ← states.rest]
  rw [hother]
  generalize m.run s = p at hself hloaded hresult
  obtain ⟨r, u⟩ := p
  have hframe : u.frame = s.frame := congrArg (·.2.frame) hself
  have hstates : u.SameBut x ordered { u with frame := t.frame } :=
    ⟨hframe ▸ states.frame, rfl, hloaded⟩
  cases r with
  | error e => exact .failed rfl hstates
  | ok a => exact .both a (hresult a rfl) hstates

theorem meet (v : Value ω) : Unread x ordered Anything (Render.meet v) (Render.meet v) :=
  of_run (fun _ _ => rfl) fun _ h => ⟨h, fun _ _ => trivial⟩

theorem write (text : String) :
    Unread x ordered Anything (Render.write text : Render ω Unit) (Render.write text) := by
  intro s t states
  obtain ⟨fr, rfl, hframe⟩ := states.exists_frame
  unfold Render.write
  rw [run_bind_ok (run_get s), run_bind_ok (run_get _)]
  by_cases hempty : text.isEmpty
  · rw [if_pos hempty, if_pos hempty]
    exact .both () trivial states
  · rw [if_neg hempty, if_neg hempty]
    rcases s with ⟨_, _, _, _, _, ⟨_, _ | _ | n⟩, _⟩
    · exact .both () trivial ⟨hframe, rfl, states.loaded⟩
    · exact .failed rfl states
    · exact .both () trivial ⟨hframe, rfl, states.loaded⟩

/-! ## §7. Constructs that undo a change -/

/-- Code in other frames; more or less may be known about their layers. -/
theorem inFrame {enter : Frame ω → Frame ω} {leave : Frame ω → Frame ω → Frame ω}
    (henter : ∀ fr fr', fr.SameBut x ordered fr' → (enter fr).SameBut x ordered' (enter fr'))
    (hleave : ∀ fr fr' gr gr', fr.SameBut x ordered fr' → gr.SameBut x ordered' gr' →
      (leave fr gr).SameBut x ordered (leave fr' gr'))
    (hm : Unread x ordered' good m m') :
    Unread x ordered good (Render.inFrame enter leave m) (Render.inFrame enter leave m') := by
  intro s t states
  obtain ⟨fr, rfl, hframe⟩ := states.exists_frame
  have h := hm { s with frame := enter s.frame } { s with frame := enter fr }
    ⟨henter _ _ hframe, rfl, states.loaded⟩
  refine h.after (f := fun u => { u with frame := leave s.frame u.frame })
    (g := fun u => { u with frame := leave fr u.frame }) ?_
  intro inside
  refine ⟨hleave _ _ _ _ hframe inside.frame, ?_, inside.loaded⟩
  exact congrArg (fun u : RenderState ω => { u with frame := leave fr u.frame }) inside.rest

theorem within {enter enter' : Frame ω → Frame ω}
    (henter : ∀ fr fr', fr.SameBut x ordered fr' → (enter fr).SameBut x ordered' (enter' fr'))
    (hm : Unread x ordered' good m m') :
    Unread x ordered good (Render.within enter m) (Render.within enter' m') := by
  intro s t states
  obtain ⟨fr, rfl, hframe⟩ := states.exists_frame
  have h := hm { s with frame := enter s.frame } { s with frame := enter' fr }
    ⟨henter _ _ hframe, rfl, states.loaded⟩
  refine h.after (f := fun u => { u with frame := s.frame })
    (g := fun u => { u with frame := fr }) ?_
  intro inside
  refine ⟨hframe, ?_, inside.loaded⟩
  exact congrArg (fun u : RenderState ω => { u with frame := fr }) inside.rest

/-- Code that gets the same frame in both renders does the same, whatever it is. -/
theorem apart {enter : Frame ω → Frame ω}
    (henter : ∀ fr fr' : Frame ω, fr.SameBut x ordered fr' → enter fr' = enter fr)
    (hm : ∀ s, s.Holds (Template.Spares x) → (m.run s).2.Holds (Template.Spares x)) :
    Unread x ordered Anything (Render.within enter m) (Render.within enter m) := by
  intro s t states
  obtain ⟨fr, rfl, hframe⟩ := states.exists_frame
  have hloaded := hm { s with frame := enter s.frame } states.loaded
  show Ends x ordered Anything
    ((m.run { s with frame := enter s.frame }).1,
      { (m.run { s with frame := enter s.frame }).2 with frame := s.frame })
    ((m.run { s with frame := enter fr }).1,
      { (m.run { s with frame := enter fr }).2 with frame := fr })
  rw [henter _ _ hframe]
  generalize m.run { s with frame := enter s.frame } = p at hloaded
  rcases p with ⟨e | a, u⟩
  · exact .failed rfl ⟨hframe, rfl, hloaded⟩
  · exact .both a trivial ⟨hframe, rfl, hloaded⟩

theorem inLayer {layer : Table (Value ω)} (hlayer : layer.Sorted)
    (hm : Unread x ordered good m m') :
    Unread x ordered good (Render.inLayer layer m) (Render.inLayer layer m') := by
  show Unread x ordered good
    (Render.inFrame (fun f => { f with scope := f.scope.push layer })
      (fun _ f => { f with scope := f.scope.pop }) m)
    (Render.inFrame (fun f => { f with scope := f.scope.push layer })
      (fun _ f => { f with scope := f.scope.pop }) m')
  refine inFrame ?_ ?_ hm
  · intro fr fr' h
    exact ⟨h.template, h.scope.push layer, h.blocks, h.current, h.spares, h.owners,
      fun hordered => (h.sorted hordered).push hlayer⟩
  · intro _ _ gr gr' _ h
    exact ⟨h.template, h.scope.pop, h.blocks, h.current, h.spares, h.owners,
      fun hordered => (h.sorted hordered).pop⟩

theorem capture {m m' : Render ω Unit} (hm : Unread x ordered Anything m m') :
    Unread x ordered Anything (Render.capture m) (Render.capture m') := by
  intro s t states
  have hinto : ∀ {u v : RenderState ω} (o : Output), u.SameBut x ordered v →
      (u.into o).SameBut x ordered (v.into o) := fun o h =>
    h.update (·.into o) (fun _ => rfl) (fun _ => rfl) fun _ _ => rfl
  have h := hm (s.into ⟨[], none⟩) (t.into ⟨[], none⟩) (hinto _ states)
  rw [Render.run_capture, Render.run_capture]
  show Ends x ordered Anything
    ((m.run (s.into ⟨[], none⟩)).1.map fun _ => (m.run (s.into ⟨[], none⟩)).2.output.text,
      (m.run (s.into ⟨[], none⟩)).2.into s.output)
    ((m'.run (t.into ⟨[], none⟩)).1.map fun _ => (m'.run (t.into ⟨[], none⟩)).2.output.text,
      (m'.run (t.into ⟨[], none⟩)).2.into t.output)
  generalize m.run (s.into ⟨[], none⟩) = p, m'.run (t.into ⟨[], none⟩) = q at h
  rw [states.output]
  cases h with
  | both a _ inside =>
    dsimp only
    rw [inside.output]
    exact .both _ trivial (hinto s.output inside)
  | failed he inside => exact .failed he (hinto s.output inside)

theorem leniently (hm : Unread x ordered good m m') :
    Unread x ordered good (Render.leniently m) (Render.leniently m') := by
  intro s t states
  have hwith : ∀ {u v : RenderState ω} (b : Bool), u.SameBut x ordered v →
      (u.withLenient b).SameBut x ordered (v.withLenient b) := fun b h =>
    h.update (·.withLenient b) (fun _ => rfl) (fun _ => rfl) fun _ _ => rfl
  have h := hm (s.withLenient true) (t.withLenient true) (hwith true states)
  refine h.after (f := (·.withLenient s.lenient)) (g := (·.withLenient t.lenient)) ?_
  rw [states.lenient]
  exact hwith s.lenient

/-- Both go one level deeper, or both meet the limit. -/
theorem deeper {inner : Option (Render.Runner ω)} (pos pos' : Position)
    {k k' : Render.Runner ω → Render ω α}
    (hk : ∀ r ∈ inner, Unread x ordered good (k r) (k' r)) :
    Unread x ordered good (Render.deeper inner pos k) (Render.deeper inner pos' k') := by
  intro s t states
  by_cases hlimit : Render.maxDepth ≤ s.depth
  · rw [Render.run_deeper_of_limit _ _ _ hlimit,
      Render.run_deeper_of_limit _ _ _ (by rwa [states.depth]), states.frame.template]
    exact .failed rfl states
  · have hlt : s.depth < Render.maxDepth := Nat.lt_of_not_le hlimit
    rw [Render.run_deeper_of_lt _ _ _ hlt,
      Render.run_deeper_of_lt _ _ _ (by rwa [states.depth])]
    have hbody : ∀ {m m' : Render ω α}, Unread x ordered good m m' → Ends x ordered good
        ((Render.ending m Render.leave).run { s with depth := s.depth + 1 })
        ((Render.ending m' Render.leave).run { t with depth := t.depth + 1 }) := by
      intro m m' hm
      have h := hm _ _ (states.update (fun u => { u with depth := u.depth + 1 })
        (fun _ => rfl) (fun _ => rfl) fun _ _ => rfl)
      refine h.after (f := Render.leave) (g := Render.leave) ?_
      intro inside
      exact inside.update Render.leave (fun _ => rfl) (fun _ => rfl) fun _ _ => rfl
    cases inner with
    | some r => exact hbody (hk r rfl)
    | none => exact hbody (throw rfl)

/-! ## §8. Templates -/

/-- Loading looks at nothing that may differ. -/
theorem run_load (env : Environment ω) (name : String) (s : RenderState ω) (fr : Frame ω) :
    (Render.load env name).run { s with frame := fr } =
      (((Render.load env name).run s).1, { ((Render.load env name).run s).2 with frame := fr }) :=
  Render.run_load_change env name (fun s => { s with frame := fr }) (fun _ _ _ => rfl) s

variable {env : Environment ω} (yields : env.Yields (Template.Spares x))
include yields

/-- A template that is loaded spares the variable. -/
theorem load (name : String) :
    Unread x ordered (fun live => live.template.Spares x) (Render.load env name)
      (Render.load env name) :=
  of_run (run_load env name) fun _ h => Render.holds_load yields name h

/-- So does one that may be missing, if it is there. -/
theorem loadIfThere (name : String) :
    Unread x ordered (fun r => ∀ live, r = .ok live → live.template.Spares x)
      (Render.loadIfThere env name) (Render.loadIfThere env name) := by
  apply of_run
  · intro s fr
    rw [Render.run_loadIfThere, Render.run_loadIfThere, run_load]
  · intro s h
    obtain ⟨hloaded, hgood⟩ := Render.holds_load yields name h
    rw [Render.run_loadIfThere]
    refine ⟨hloaded, ?_⟩
    intro r hr live hlive
    subst hlive
    apply hgood live
    generalize ((Render.load env name).run s).1 = found at hr
    rcases found with (e | _) | known
    · dsimp only [Render.orMissing] at hr
      split at hr <;> cases hr
    · cases hr
    · cases hr
      rfl

theorem loadFirst (missing : Option Error) (names : List String) :
    Unread x ordered (fun r => ∀ live, r = .ok live → live.template.Spares x)
      (Render.loadFirst env missing names) (Render.loadFirst env missing names) := by
  induction names generalizing missing with
  | nil => exact pure nofun
  | cons name names ih =>
    refine bind (loadIfThere yields name) ?_
    intro r hr
    cases r with
    | error e => exact ih (some e)
    | ok live => exact pure fun _ h => by cases h; exact hr live rfl

end Unread

end Stencil
