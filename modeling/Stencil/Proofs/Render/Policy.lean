import Stencil.Proofs.Environment.Callbacks
import Stencil.Proofs.Render.Lockstep

/-!
Strictness only rejects.

A render under the strict policy for undefined variables and one under the lenient policy do the
same until the strict one comes upon an undefined variable, where it ends and the lenient one goes
on with null.  So whatever a strict render gives without an error about an undefined variable, the
lenient render gives too.
-/

namespace Stencil

/-! ## §1. The strict and the lenient render -/

/-- Whether a failure is the use of an undefined variable. -/
def Failure.isUndefinedVariable : Failure → Bool
  | .error (.render _ _ (.undefinedVariable _)) => true
  | _ => false

/-- The environment with a policy for undefined variables. -/
def Environment.withPolicy {ω : Type} (env : Environment ω) (policy : UndefinedPolicy) :
    Environment ω :=
  { env with undefined := policy }

/-- What a report of a strict render says about the lenient one. -/
structure RenderReport.OnlyRejects (strict lenient : RenderReport) : Prop where
  of_ok : strict.outcome = .ok () → lenient.outcome = .ok () ∧ lenient.written = strict.written
  of_error : ∀ f, strict.outcome = .error f → ¬f.isUndefinedVariable →
    lenient.outcome = .error f ∧ lenient.written = strict.written
  of_undefinedVariable : ∀ f, strict.outcome = .error f → f.isUndefinedVariable →
    strict.written <+: lenient.written

theorem RenderReport.OnlyRejects.refl (r : RenderReport) : r.OnlyRejects r :=
  ⟨fun h => ⟨h, rfl⟩, fun _ h _ => ⟨h, rfl⟩, fun _ _ _ => List.prefix_refl _⟩

/-- A strict and a lenient render in tandem: nothing differs until an undefined variable is used. -/
def Tandem.policies : Tandem where
  number := id
  number_injective := fun _ _ h => h
  parts e := ∃ template pos name, e = .render template pos (.undefinedVariable name)
  number_of_parts := fun _ => rfl
  found_of_parts := by
    rintro _ ⟨template, pos, name, rfl⟩
    rfl
  requests := Eq
  requests_cons := fun name h => congrArg (name :: ·) h

variable {ω : Type} [HostObject ω]

theorem Environment.IgnoresPolicy.twins {env : Environment ω} (h : env.IgnoresPolicy) :
    Tandem.policies.Twins (env.withPolicy .strict) (env.withPolicy .lenient) := by
  constructor
  · rintro q _ name rfl
    rfl
  · exact fun name source => rfl
  · intro name
    show Option.Rel _ (env.filters.find? name) (env.filters.find? name)
    rcases hf : env.filters.find? name with _ | f
    · exact .none
    · refine .some fun template v args => ?_
      simp only [Tandem.policies, Rename.rename_id]
      exact h.filters f (Table.mem_values_of_find? hf) template _ _ v args
  · intro name
    show Option.Rel _ (env.functions.find? name) (env.functions.find? name)
    rcases hf : env.functions.find? name with _ | f
    · exact .none
    · refine .some fun template args => ?_
      simp only [Tandem.policies, Rename.rename_id]
      exact h.functions f (Table.mem_values_of_find? hf) template _ _ args
  · intro name
    show Option.Rel _ (env.tests.find? name) (env.tests.find? name)
    rcases hf : env.tests.find? name with _ | f
    · exact .none
    · refine .some fun template v args => ?_
      simp only [Tandem.policies, Rename.rename_id]
      exact h.tests f (Table.mem_values_of_find? hf) template _ _ v args
  · exact (Rename.rename_id _).symm
  · rfl
  · exact .inr ⟨rfl, rfl, fun template pos name => ⟨template, pos, name, rfl⟩⟩
  · exact HostObject.opaque_id

/-- From one state, the strict render only rejects. -/
theorem Environment.IgnoresPolicy.onlyRejects {env : Environment ω} (h : env.IgnoresPolicy)
    (t : LiveTemplate) (s : RenderState ω) :
    ((env.withPolicy .strict).renderFrom t s).OnlyRejects
      ((env.withPolicy .lenient).renderFrom t s) := by
  have matched : Tandem.policies.Matched Eq s s :=
    ⟨(Rename.rename_id _).symm, rfl, rfl, rfl, rfl, rfl, fun _ => rfl⟩
  have hends := (Render.inStep_renderTemplate h.twins (Render.inStep_runner h.twins Render.maxDepth)
    Tandem.writable_eq t s.frame.scope []).ends matched
  rw [show rename Tandem.policies.number s.frame.scope = s.frame.scope from Rename.rename_id _]
    at hends
  unfold Environment.renderFrom
  generalize (Render.renderTemplate (env.withPolicy .strict) _ t s.frame.scope []).run s = strict
    at hends ⊢
  generalize (Render.renderTemplate (env.withPolicy .lenient) _ t s.frame.scope []).run s = lenient
    at hends ⊢
  cases hends with
  | @both r r' u u' result states =>
    -- The outcomes are the same, and so are the outputs.
    have houtcome : r' = r := by
      rw [result]
      cases r <;> rfl
    have houtput : u.output = u'.output := states.output
    refine ⟨fun hr => ?_, fun f hr _ => ?_, fun f _ _ => ?_⟩
    · exact ⟨houtcome.trans hr, by simp only [houtput]⟩
    · exact ⟨houtcome.trans hr, by simp only [houtput]⟩
    · simp only [houtput]
      exact List.prefix_refl _
  | @apart e u r u' parts behind =>
    -- The strict render has ended at an undefined variable and the lenient one has gone on.
    obtain ⟨template, pos, name, rfl⟩ := parts
    obtain ⟨o, ho, hwritten⟩ := behind.written
    refine ⟨nofun, fun f hr hf => ?_, fun f _ _ => ?_⟩
    · cases hr
      exact absurd rfl hf
    · show u.output.written.reverse <+: u'.output.written.reverse
      rw [show u.output = o from ho]
      exact List.reverse_prefix.mpr hwritten

end Stencil
