import Stencil.Proofs.Render.Moves

/-!
What holds of all renders.

A property of parts of renders that each move has, and that goes from parts to what is put together
from them, holds of whatever is made of moves.  A search for the first of several templates and a
chain of templates are loops over moves, and they are gone through here once and for all.
-/

namespace Stencil.Render

variable {ω : Type}

/-- A property of parts of renders that the moves have and all that is put together from parts that
have it. -/
structure Closed (env : Environment ω) (good : ∀ {α : Type}, Render ω α → Prop) : Prop where
  pure : ∀ {α : Type} (a : α), good (Pure.pure a : Render ω α)
  throw : ∀ {α : Type} (e : Failure), good (MonadExcept.throw e : Render ω α)
  bind : ∀ {α β : Type} {x : Render ω α} {f : α → Render ω β},
    good x → (∀ a, good (f a)) → good (x >>= f)
  frame : good (frame : Render ω (Frame ω))
  changeFrame : ∀ f : Frame ω → Frame ω, good (changeFrame f)
  undefined : ∀ pos name, good (undefined env pos name)
  write : ∀ text, good (write text : Render ω Unit)
  meet : ∀ v : Value ω, good (meet v)
  load : ∀ name, good (load env name)
  loadIfThere : ∀ name, good (loadIfThere env name)
  capture : ∀ {x : Render ω Unit}, good x → good (capture x)
  leniently : ∀ {α : Type} {x : Render ω α}, good x → good (leniently x)
  inFrame : ∀ {α : Type} {x : Render ω α} (enter : Frame ω → Frame ω)
    (leave : Frame ω → Frame ω → Frame ω), good x → good (inFrame enter leave x)
  deeper : ∀ {α : Type} (inner : Option (Runner ω)) (pos : Position) (k : Runner ω → Render ω α),
    (∀ r ∈ inner, good (k r)) → good (deeper inner pos k)

namespace Closed

variable {env : Environment ω} {good : ∀ {α : Type}, Render ω α → Prop}
  (closed : Closed env good)
include closed

theorem loadFirst (missing : Option Error) (names : List String) :
    good (loadFirst env missing names) := by
  induction names generalizing missing with
  | nil => exact closed.pure _
  | cons name names ih =>
    apply closed.bind (closed.loadIfThere name)
    intro r
    cases r with
    | error e => exact ih (some e)
    | ok t => exact closed.pure _

theorem seek (optional : Bool) (names : List String) : good (seek env optional names) := by
  apply closed.bind (closed.loadFirst none names)
  intro r
  split
  · exact closed.pure _
  · exact closed.pure _
  · split
    · exact closed.pure _
    · exact closed.throw _

theorem stepChain (names : List String) (r : Reference) : good (stepChain env names r) := by
  have hresolve : good (resolve env r) := by
    cases r with
    | running => exact closed.bind closed.frame fun f => closed.pure _
    | named name => exact closed.load name
  apply closed.bind hresolve
  intro parent
  dsimp only
  split
  · exact closed.throw _
  · exact closed.bind (closed.changeFrame _) fun _ => closed.pure _

variable [HostObject ω]

/-- By induction on the number of turns. -/
theorem followChain {runner : Runner ω} (hturn : ∀ levels, good (followTurn env runner levels))
    (n : Nat) (names : List String) (levels : List Level) :
    good (followChain env runner n names levels) := by
  induction n generalizing names levels with
  | zero => exact closed.throw _
  | succ n ih =>
    rw [followChain_succ]
    apply closed.bind
    · apply closed.bind (hturn levels)
      intro (levels, r)
      cases r with
      | none => exact closed.pure _
      | some r => exact closed.bind (closed.stepChain names r) fun _ => closed.pure _
    · intro (levels, more)
      cases more with
      | none => exact closed.pure _
      | some names => exact ih names levels

/-- A property that is closed under the moves holds of all that is made of them. -/
theorem of_moves {n : Nat} {α : Type} {x : Render ω α} (h : Moves env n x) : good x := by
  induction h with
  | pure a => exact closed.pure a
  | bind _ _ ihx ihf => exact closed.bind ihx ihf
  | frame => exact closed.frame
  | changeFrame f => exact closed.changeFrame f
  | failAt pos kind => exact closed.bind closed.frame fun f => closed.throw _
  | undefined pos name => exact closed.undefined pos name
  | write text => exact closed.write text
  | meet v => exact closed.meet v
  | load name => exact closed.load name
  | seek optional names => exact closed.seek optional names
  | capture _ ih => exact closed.capture ih
  | leniently _ ih => exact closed.leniently ih
  | inFrame enter leave _ ih => exact closed.inFrame enter leave ih
  | chain _ _ ih => exact closed.bind closed.frame fun f => closed.followChain ih _ _ _
  | deeper pos o _ ih =>
    apply closed.deeper
    intro r hr
    cases hr
    exact ih
  | lowest pos o => exact closed.deeper none pos _ nofun

end Closed

end Stencil.Render
