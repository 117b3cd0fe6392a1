import Stencil.Proofs.Render.Inheritance
import Stencil.Proofs.Render.Closure

/-!
An output that takes less only cuts renders short.

A part of a render writes certain texts, whatever was written before.  If the output takes them all,
the part ends as it would with an output that takes everything.  If it does not, the part ends at
the first text that is not taken, and has written those before it; what it has requested by then is
the beginning of what it would have requested.

Nothing that runs can see the output, and no construct goes on after a text was refused: what is
captured goes to an output of its own, which takes everything.
-/

namespace Stencil

open Render

variable {ω α β : Type}

/-! ## §1. Outputs -/

/-- The state with another output. -/
def RenderState.into (s : RenderState ω) (o : Output) : RenderState ω :=
  { s with output := o }

namespace RenderState

@[simp] theorem output_into (s : RenderState ω) (o : Output) : (s.into o).output = o := rfl

@[simp] theorem requests_into (s : RenderState ω) (o : Output) :
    (s.into o).requests = s.requests := rfl

@[simp] theorem loaded_into (s : RenderState ω) (o : Output) : (s.into o).loaded = s.loaded := rfl

@[simp] theorem into_output (s : RenderState ω) : s.into s.output = s := rfl

end RenderState

/-- An output after some texts, the last one first, that it has taken. -/
def Output.after (o : Output) (texts : List String) : Output :=
  ⟨texts ++ o.written, o.room.map (· - texts.length)⟩

@[simp] theorem Output.after_nil (o : Output) : o.after [] = o := by
  rcases o with ⟨written, _ | k⟩ <;> rfl

theorem Output.after_append (o : Output) (earlier later : List String) :
    o.after (later ++ earlier) = (o.after earlier).after later := by
  rcases o with ⟨written, _ | k⟩
  · simp [after]
  · simp only [after, List.append_assoc, List.length_append, Option.map_some]
    rw [Nat.sub_sub, Nat.add_comm later.length]

/-- Texts are taken when the first ones are, and the rest after that. -/
theorem Output.takes_append {o : Output} {earlier later : List String}
    (h : o.Takes (later ++ earlier).length) :
    o.Takes earlier.length ∧ (o.after earlier).Takes later.length := by
  rcases o with ⟨written, _ | k⟩
  · exact ⟨nofun, nofun⟩
  · have hk : (later ++ earlier).length ≤ k := h k rfl
    rw [List.length_append] at hk
    refine ⟨?_, ?_⟩
    · rintro _ ⟨⟩
      omega
    · rintro _ ⟨⟩
      show later.length ≤ k - earlier.length
      omega

/-! ## §2. What a part of a render writes -/

/-- Run from a state, a part of a render comes to an end and has written some texts on the way, the
last one first, unless the output does not take them. -/
structure Emits (x : Render ω α) (s : RenderState ω) (r : Except Failure α) (t : RenderState ω)
    (texts : List String) : Prop where
  /-- Requests are not taken back. -/
  requests : s.requests <:+ t.requests
  of_takes : ∀ o : Output, o.Takes texts.length → x.run (s.into o) = (r, t.into (o.after texts))
  /-- The first text that is not taken is the end. -/
  of_lt : ∀ written k, k < texts.length → ∃ u : RenderState ω,
    x.run (s.into ⟨written, some k⟩) = (.error (.error .outputClosed), u) ∧
    u.output.written = (texts.reverse.take k).reverse ++ written ∧ u.requests <:+ t.requests

/-- Whether limiting the output of a part of a render only cuts it short. -/
def Truncates (x : Render ω α) : Prop :=
  ∀ s, ∃ r t texts, Emits x s r t texts

/-- Whether a part of a render has nothing to do with the output. -/
def Silent (x : Render ω α) : Prop :=
  ∀ s : RenderState ω, s.requests <:+ (x.run s).2.requests ∧
    ∀ o, x.run (s.into o) = ((x.run s).1, (x.run s).2.into o)

theorem Silent.truncates {x : Render ω α} (h : Silent x) : Truncates x := by
  intro s
  refine ⟨(x.run s).1, (x.run s).2, [], (h s).1, fun o _ => ?_, nofun⟩
  rw [o.after_nil]
  exact (h s).2 o

theorem Silent.bind {x : Render ω α} {f : α → Render ω β} (hx : Silent x)
    (hf : ∀ a, Silent (f a)) : Silent (x >>= f) := by
  intro s
  obtain ⟨hrequests, hinto⟩ := hx s
  rcases hr : x.run s with ⟨e | a, t⟩
  · rw [hr] at hrequests hinto
    rw [run_bind_error hr]
    exact ⟨hrequests, fun o => run_bind_error (hinto o) f⟩
  · rw [hr] at hrequests hinto
    rw [run_bind_ok hr]
    refine ⟨hrequests.trans (hf a t).1, fun o => ?_⟩
    rw [run_bind_ok (hinto o)]
    exact (hf a t).2 o

theorem silent_pure (a : α) : Silent (pure a : Render ω α) :=
  fun _ => ⟨List.suffix_refl _, fun _ => rfl⟩

theorem silent_throw (e : Failure) : Silent (throw e : Render ω α) :=
  fun _ => ⟨List.suffix_refl _, fun _ => rfl⟩

theorem silent_frame : Silent (frame : Render ω (Frame ω)) :=
  fun _ => ⟨List.suffix_refl _, fun _ => rfl⟩

theorem silent_changeFrame (f : Frame ω → Frame ω) : Silent (changeFrame f) :=
  fun _ => ⟨List.suffix_refl _, fun _ => rfl⟩

theorem silent_failAt (pos : Position) (kind : RenderErrorKind) :
    Silent (failAt pos kind : Render ω α) :=
  silent_frame.bind fun _ => silent_throw _

theorem silent_meet (v : Value ω) : Silent (meet v) :=
  fun _ => ⟨List.suffix_refl _, fun _ => rfl⟩

/-- Reading the state without a look at the output. -/
theorem Silent.get_bind {f : RenderState ω → Render ω α} (h : ∀ s, Silent (f s))
    (hinto : ∀ s o, f (s.into o) = f s) : Silent (get >>= f) := by
  intro s
  rw [run_bind_ok (run_get s)]
  refine ⟨(h s s).1, fun o => ?_⟩
  rw [run_bind_ok (run_get _), hinto]
  exact (h s s).2 o

theorem silent_undefined (env : Environment ω) (pos : Position) (name : String) :
    Silent (undefined env pos name) := by
  apply Silent.get_bind
  · intro s
    split
    · exact silent_failAt pos _
    · exact silent_pure _
  · exact fun s o => rfl

theorem silent_load (env : Environment ω) (name : String) : Silent (load env name) := by
  intro s
  refine ⟨?_, fun o => run_load_change env name (·.into o) (fun _ _ _ => rfl) s⟩
  rw [run_load]
  cases s.loaded.find? name with
  | some t => exact List.suffix_refl _
  | none =>
    dsimp only
    cases env.source s.requests name with
    | error e => exact List.suffix_cons _ _
    | ok source =>
      dsimp only
      cases env.prepare name source <;> exact List.suffix_cons _ _

theorem silent_loadIfThere (env : Environment ω) (name : String) :
    Silent (loadIfThere env name) := by
  intro s
  obtain ⟨hrequests, hinto⟩ := silent_load env name s
  rw [run_loadIfThere]
  refine ⟨hrequests, fun o => ?_⟩
  rw [run_loadIfThere, hinto]

/-! ## §3. Writing -/

namespace Truncates

theorem bind {x : Render ω α} {f : α → Render ω β} (hx : Truncates x)
    (hf : ∀ a, Truncates (f a)) : Truncates (x >>= f) := by
  intro s
  obtain ⟨r, t, texts, h⟩ := hx s
  have hcut : ∀ (u : RenderState ω) {written k}, x.run (s.into ⟨written, some k⟩) =
      (.error (.error .outputClosed), u) →
      (x >>= f).run (s.into ⟨written, some k⟩) = (.error (.error .outputClosed), u) :=
    fun u _ _ hu => run_bind_error hu f
  cases r with
  | error e =>
    refine ⟨.error e, t, texts, h.requests, fun o ho => run_bind_error (h.of_takes o ho) f, ?_⟩
    intro written k hk
    obtain ⟨u, hu, hwritten⟩ := h.of_lt written k hk
    exact ⟨u, hcut u hu, hwritten⟩
  | ok a =>
    obtain ⟨r, t', later, h'⟩ := hf a t
    refine ⟨r, t', later ++ texts, h.requests.trans h'.requests, fun o ho => ?_, ?_⟩
    · obtain ⟨hearlier, hlater⟩ := o.takes_append ho
      rw [run_bind_ok (h.of_takes o hearlier), h'.of_takes _ hlater, o.after_append]
    · intro written k hk
      rw [List.length_append] at hk
      rw [List.reverse_append]
      rcases Nat.lt_or_ge k texts.length with hlt | hle
      -- The first part is cut short, so the second one is not reached.
      · obtain ⟨u, hu, hwritten, hrequests⟩ := h.of_lt written k hlt
        refine ⟨u, hcut u hu, ?_, hrequests.trans h'.requests⟩
        rw [List.take_append_of_le_length (by simpa using Nat.le_of_lt hlt)]
        exact hwritten
      · obtain ⟨u, hu, hwritten, hrequests⟩ :=
          h'.of_lt (texts ++ written) (k - texts.length) (by omega)
        have htakes : Output.Takes ⟨written, some k⟩ texts.length := by
          rintro _ ⟨⟩
          exact hle
        refine ⟨u, ?_, ?_, hrequests⟩
        · rw [run_bind_ok (h.of_takes _ htakes)]
          exact hu
        · have hall : texts.reverse.take k = texts.reverse :=
            List.take_of_length_le (by simpa using hle)
          rw [hwritten, List.take_append, hall, List.length_reverse, List.reverse_append,
            List.reverse_reverse, List.append_assoc]

/-- Changing more than the output before a part of a render, and after it. -/
theorem around {x y : Render ω α} (hx : Truncates x) {f : RenderState ω → RenderState ω}
    {g : RenderState ω → RenderState ω → RenderState ω}
    (hy : ∀ s, y.run s = ((x.run (f s)).1, g s (x.run (f s)).2))
    (hf : ∀ s o, f (s.into o) = (f s).into o) (hf' : ∀ s, (f s).requests = s.requests)
    (hg : ∀ s t o o', g (s.into o) (t.into o') = (g s t).into o')
    (hg' : ∀ s t, (g s t).requests = t.requests) : Truncates y := by
  have houtput : ∀ s t : RenderState ω, (g s t).output = t.output := by
    intro s t
    have h := hg s t s.output t.output
    simp only [RenderState.into_output] at h
    rw [h]
    rfl
  intro s
  obtain ⟨r, t, texts, h⟩ := hx (f s)
  refine ⟨r, g s t, texts, ?_, fun o ho => ?_, fun written k hk => ?_⟩
  · rw [hg', ← hf' s]
    exact h.requests
  · rw [hy, hf, h.of_takes o ho]
    simp only [hg]
  · obtain ⟨u, hu, hwritten, hrequests⟩ := h.of_lt written k hk
    refine ⟨g (s.into ⟨written, some k⟩) u, ?_, ?_, ?_⟩
    · rw [hy, hf, hu]
    · rw [houtput, hwritten]
    · rw [hg', hg']
      exact hrequests

theorem leniently {x : Render ω α} (hx : Truncates x) : Truncates (Render.leniently x) :=
  hx.around (f := fun s => { s with lenient := true })
    (g := fun s t => { t with lenient := s.lenient }) (fun _ => rfl) (fun _ _ => rfl)
    (fun _ => rfl) (fun _ _ _ _ => rfl) fun _ _ => rfl

theorem inFrame {x : Render ω α} (hx : Truncates x) (enter : Frame ω → Frame ω)
    (leave : Frame ω → Frame ω → Frame ω) : Truncates (Render.inFrame enter leave x) :=
  hx.around (f := fun s => { s with frame := enter s.frame })
    (g := fun s t => { t with frame := leave s.frame t.frame }) (fun _ => rfl) (fun _ _ => rfl)
    (fun _ => rfl) (fun _ _ _ _ => rfl) fun _ _ => rfl

theorem deeper {k : Runner ω → Render ω α} {inner : Option (Runner ω)} (pos : Position)
    (hk : ∀ runner ∈ inner, Truncates (k runner)) : Truncates (Render.deeper inner pos k) := by
  apply bind
  · apply Silent.truncates
    apply Silent.get_bind
    · intro s
      split
      · exact silent_failAt pos _
      · exact fun _ => ⟨List.suffix_refl _, fun _ => rfl⟩
    · exact fun s o => rfl
  · intro _
    refine around (f := id) (g := fun _ t => leave t) ?_ (fun _ => rfl) (fun _ _ => rfl)
      (fun _ => rfl) (fun _ _ _ _ => rfl) fun _ _ => rfl
    cases inner with
    | none => exact (silent_throw _).truncates
    | some runner => exact hk runner rfl

/-- What is captured is written to an output of its own, whatever the output around it takes. -/
theorem silent_capture {x : Render ω Unit} (hx : Truncates x) : Silent (Render.capture x) := by
  intro s
  obtain ⟨r, t, texts, h⟩ := hx s
  have hrun := h.of_takes ⟨[], none⟩ nofun
  refine ⟨?_, fun o => rfl⟩
  rw [run_capture]
  show s.requests <:+ (x.run (s.into ⟨[], none⟩)).2.requests
  rw [hrun]
  exact h.requests

theorem write (text : String) : Truncates (Render.write text : Render ω Unit) := by
  intro s
  by_cases hempty : text.isEmpty
  · have hrun : ∀ s : RenderState ω, (Render.write text).run s = (.ok (), s) := by
      intro s
      rw [Render.write, run_bind_ok (run_get s), if_pos hempty]
      rfl
    refine ⟨.ok (), s, [], List.suffix_refl _, fun o _ => ?_, by simp⟩
    rw [hrun, o.after_nil]
  · refine ⟨.ok (), s, [text], List.suffix_refl _, fun o ho => ?_, fun written k hk => ?_⟩
    · rw [Render.write, run_bind_ok (run_get _), if_neg hempty]
      rcases o with ⟨written, _ | _ | k⟩
      · rfl
      · exact absurd (ho 0 rfl) (Nat.not_succ_le_zero 0)
      · rfl
    · obtain rfl : k = 0 := by simpa using hk
      refine ⟨s.into ⟨written, some 0⟩, ?_, rfl, List.suffix_refl _⟩
      rw [Render.write, run_bind_ok (run_get _), if_neg hempty]
      rfl

end Truncates

/-! ## §4. Renders -/

theorem closed_truncates (env : Environment ω) : Render.Closed env Truncates where
  pure a := (silent_pure a).truncates
  throw e := (silent_throw e).truncates
  bind := .bind
  frame := silent_frame.truncates
  changeFrame f := (silent_changeFrame f).truncates
  undefined pos name := (silent_undefined env pos name).truncates
  write := .write
  meet v := (silent_meet v).truncates
  load name := (silent_load env name).truncates
  loadIfThere name := (silent_loadIfThere env name).truncates
  capture hx := (Truncates.silent_capture hx).truncates
  leniently := .leniently
  inFrame enter leave hx := hx.inFrame enter leave
  deeper _ pos _ hk := .deeper pos hk

/-- Whatever is made of moves is only cut short. -/
theorem Render.Moves.truncates [HostObject ω] {env : Environment ω} {n : Nat} {x : Render ω α}
    (h : Moves env n x) : Truncates x :=
  (closed_truncates env).of_moves h

/-! ## §5. Reports -/

/-- What a report of a render whose output takes `k` texts has to do with the report of the same
render with an output that takes everything. -/
structure RenderReport.Truncated (k : Nat) (full limited : RenderReport) : Prop where
  of_le : full.written.length ≤ k → limited = full
  of_lt : k < full.written.length →
    limited.written = full.written.take k ∧ limited.outcome = .error (.error .outputClosed) ∧
      limited.requests <+: full.requests

variable [HostObject ω]

theorem Environment.truncated_renderFrom (env : Environment ω) (t : LiveTemplate)
    (context : Context ω) (k : Nat) (requests : List String) :
    RenderReport.Truncated k (env.renderFrom t (startState t context none requests))
      (env.renderFrom t (startState t context (some k) requests)) := by
  let s := startState t context none requests
  obtain ⟨r, u, texts, h⟩ := (renderMoves env maxDepth t s.frame.scope []).truncates s
  -- Both renders start in `s`, but for the output.
  have hreport : ∀ {room r u}, (Render.renderTemplate env (runner env maxDepth) t s.frame.scope
      []).run (s.into ⟨[], room⟩) = (r, u) →
      env.renderFrom t (startState t context room requests) =
        ⟨r, u.output.written.reverse, u.requests.reverse⟩ := by
    intro room r u hrun
    rw [renderFrom, show (Render.renderTemplate env (runner env maxDepth) t
      (startState t context room requests).frame.scope []).run
        (startState t context room requests) = (r, u) from hrun]
  have htakes : ∀ {room}, Output.Takes ⟨[], room⟩ texts.length →
      env.renderFrom t (startState t context room requests) =
        ⟨r, texts.reverse, u.requests.reverse⟩ := by
    intro room htakes
    rw [hreport (h.of_takes _ htakes)]
    simp [Output.after]
  have hfull : env.renderFrom t (startState t context none requests) =
      ⟨r, texts.reverse, u.requests.reverse⟩ := htakes (by rintro _ ⟨⟩)
  rw [hfull]
  constructor
  · intro hle
    rw [List.length_reverse] at hle
    apply htakes
    rintro _ ⟨⟩
    exact hle
  · intro hlt
    rw [List.length_reverse] at hlt
    obtain ⟨v, hv, hwritten, hrequests⟩ := h.of_lt [] k hlt
    rw [hreport hv]
    refine ⟨?_, rfl, List.reverse_prefix.mpr hrequests⟩
    simp [hwritten]

end Stencil
