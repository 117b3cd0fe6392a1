import Stencil.Environment
import Stencil.Loader.Source
import Stencil.Proofs.Render.Heedless

/-!
A block of filters is a captured text that is printed through them.

A `filter` block captures what its body writes, takes it through its filters one after the other,
and writes what comes out.  The same text can be captured in a variable and be printed through the
same filters.  There are two differences on the way.  The variable is set while the arguments of the
filters are evaluated, which nobody can tell who does not ask for it.  And a filter `default`
evaluates all that it is applied to leniently, the arguments of the filters before it included,
which makes no difference where undefined variables are null anyway.
-/

namespace Stencil

variable {ω : Type} {x : String}

/-- A state from which no code that comes to run asks for a variable, with its layers in order. -/
structure RenderState.Spares (x : String) (s : RenderState ω) : Prop where
  running : s.frame.template.template.Spares x
  owners : ∀ c ∈ s.frame.blocks, ∀ entry ∈ c, entry.2.owner.template.Spares x
  loaded : s.Holds (Template.Spares x)
  sorted : s.frame.scope.Sorted

theorem RenderState.Spares.sameBut {s : RenderState ω} (h : s.Spares x) : s.SameBut x True s :=
  ⟨⟨rfl, .refl x _, rfl, rfl, h.running, h.owners, fun _ => h.sorted⟩, rfl, h.loaded⟩

/-- Where the layers are in order, setting the variable in one of two scopes leaves them the same
but for it. -/
theorem Scope.SameBut.assign_right {s s' : Scope ω} (h : s.SameBut x s') (hsorted : s.Sorted)
    (v : Value ω) : s.SameBut x (s'.assign x v) := by
  refine ⟨h.root, ?_, h.below⟩
  have hinnermost : s.innermost.Sorted := hsorted _ (.head _)
  rcases h.innermost with heq | ⟨_, hsorted', hsame⟩
  · show s.innermost.SameBut x (s'.innermost.insert x v)
    rw [heq]
    exact .of_insert hinnermost x v
  · refine .inr ⟨hinnermost, Table.sorted_insert hsorted' x v, ?_⟩
    intro name hname
    show (s'.innermost.insert x v).find? name = s.innermost.find? name
    rw [Table.find?_insert_ne _ _ (Ne.symm hname)]
    exact hsame name hname

namespace Render

variable [HostObject ω] {env : Environment ω} {inner : Option (Runner ω)}

/-! ## §1. Filters from the first and from the last -/

theorem applyFilters_concat (calls : List FilterCall) (call : FilterCall) (v : Value ω) :
    applyFilters env inner (calls ++ [call]) v =
      applyFilters env inner calls v >>= fun w =>
        applyFilter env call.position call.name w (evalAll env inner call.args) := by
  induction calls generalizing v with
  | nil =>
    simp only [List.nil_append, applyFilters, bind_pure, pure_bind]
  | cons first calls ih =>
    simp only [List.cons_append, applyFilters, ih, bind_assoc]

theorem pipe_concat (calls : List FilterCall) (call : FilterCall) (subject : Render ω (Value ω)) :
    pipe env inner (calls ++ [call]) subject =
      pipeCall env inner (pipe env inner calls subject) call := by
  rw [pipe, List.foldl_append]
  rfl

/-- A loop over filters and nested filters come to the same, if `default` has nothing to be lenient
about.  The induction is on the filters from the last one, which is the outermost. -/
theorem run_pipe_pure (n : Nat) (calls : List FilterCall) (v : Value ω) {s : RenderState ω}
    (h : s.IsLenient env ∨ ∀ call ∈ calls, call.name ≠ "default") :
    (pipe env (innerRunner env n) calls (pure v)).run s =
      (applyFilters env (innerRunner env n) calls v).run s := by
  induction calls using List.reverseRecOn generalizing s with
  | nil => rfl
  | append_singleton calls call ih =>
    rw [pipe_concat, applyFilters_concat, pipeCall, run_bind, run_bind]
    have hmore : s.IsLenient env ∨ ∀ call ∈ calls, call.name ≠ "default" :=
      h.imp_right fun h call hcall => h call (List.mem_append_left _ hcall)
    by_cases hname : call.name = "default"
    · have hlenient : s.IsLenient env := by
        rcases h with h | h
        · exact h
        · exact absurd hname (h call (List.mem_append_right _ (.head _)))
      have hraised : (pipe env (innerRunner env n) calls (pure v)).run (s.withLenient true) =
          (applyFilters env (innerRunner env n) calls v).run (s.withLenient true) :=
        ih (.inl (.inr rfl))
      have hsubject : (leniently (pipe env (innerRunner env n) calls (pure v))).run s =
          (leniently (applyFilters env (innerRunner env n) calls v)).run s := by
        show (((pipe env (innerRunner env n) calls (pure v)).run (s.withLenient true)).1,
          ((pipe env (innerRunner env n) calls (pure v)).run (s.withLenient true)).2.withLenient
            s.lenient) = _
        rw [hraised]
        rfl
      rw [if_pos hname, hsubject,
        leniently_of_isLenient (filtersMoves (innerRunnerMoves env n) calls v)
          (keeps_applyFilters env (innerRunner_restores env n) calls v) hlenient]
    · rw [if_neg hname, ih hmore]

/-! ## §2. The block and the print -/

/-- Two ends of renders that nobody tells apart who does not look at positions or ask for a certain
variable. -/
structure SameEnd (x : String) (p q : Except Failure Unit × RenderState ω) : Prop where
  /-- The results are the same, and so are the errors up to positions. -/
  result : q.1.mapError Failure.unplaced = p.1.mapError Failure.unplaced
  output : q.2.output = p.2.output
  states : p.2.SameBut x True q.2

omit [HostObject ω] in
theorem SameEnd.of_ends {p q : Except Failure Unit × RenderState ω} (h : Ends x True Anything p q) :
    SameEnd x p q := by
  cases h with
  | both a _ states => exact ⟨rfl, states.output, states⟩
  | failed he states => exact ⟨congrArg Except.error he, states.output, states⟩

/-- What the filters make of a text does not depend on whether it is in the variable. -/
theorem ends_filters (yields : env.Yields (Template.Spares x)) (n : Nat)
    (move : Position → Position) {calls : List FilterCall}
    (hcalls : ∀ call ∈ calls, ∀ e ∈ call.args, e.Spares x) (v : Value ω) {s t : RenderState ω}
    (states : s.SameBut x True t)
    (h : s.IsLenient env ∨ ∀ call ∈ calls, call.name ≠ "default") :
    Ends x True Anything ((applyFilters env (innerRunner env n) calls v).run s)
      ((do
        assign x v
        pipe env (innerRunner env n) (calls.map (FilterCall.relocate move)) (pure v)).run t) := by
  let t' : RenderState ω :=
    { t with frame := { t.frame with scope := t.frame.scope.assign x v } }
  have hassign : (assign x v : Render ω Unit).run t = (.ok (), t') := rfl
  have hframe : s.frame.SameBut x True t'.frame :=
    ⟨states.frame.template, states.frame.scope.assign_right (states.frame.sorted trivial) v,
      states.frame.blocks, states.frame.current, states.frame.spares, states.frame.owners,
      states.frame.sorted⟩
  have hrest : t' = { s with frame := t'.frame } :=
    congrArg (fun u : RenderState ω =>
      { u with frame := { u.frame with scope := u.frame.scope.assign x v } }) states.rest
  rw [run_bind_ok hassign, ← run_pipe_pure n calls v h]
  exact unread_pipe (heedless_innerRunner yields n) move hcalls (.pure trivial) s t'
    ⟨hframe, hrest, states.loaded⟩

end Render

end Stencil
