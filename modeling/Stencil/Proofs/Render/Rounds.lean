import Stencil.Proofs.Render.Restoration

/-!
Loops, round by round.

A loop takes each round in a layer of its own, and the layer goes off again when the round has
ended.  As statements put back everything below the innermost layer, nothing is left of a round in
the frame: every round starts from the frame that the loop was met in, with one layer on top, and
the layer says which item it is for.  So a loop is its body run once for each of these layers, each
time in that frame.
-/

namespace Stencil.Render

open RenderState

variable {ω α : Type}

/-! ## §1. What a round is told -/

/-- What is told in round `i`, counted from zero, of a loop of `n` rounds. -/
structure Tells (i n : Nat) (parent : Option (Value ω)) (info : Table (Value ω)) : Prop where
  index : info.find? "index" = some (.ofNat (i + 1))
  index0 : info.find? "index0" = some (.ofNat i)
  revindex : info.find? "revindex" = some (.ofNat (n - i))
  revindex0 : info.find? "revindex0" = some (.ofNat (n - i - 1))
  length : info.find? "length" = some (.ofNat n)
  first : info.find? "first" = some (.bool (decide (i = 0)))
  last : info.find? "last" = some (.bool (decide (i = n - 1)))
  /-- The variable `loop` that was visible around the loop, if there was one. -/
  parent : info.find? "parent" = parent

theorem exists_loopInfo {i n : Nat} (h : i < n) (parent : Option (Value ω)) :
    ∃ info, loopInfo i n parent = .map info ∧ Tells i n parent info := by
  refine ⟨_, rfl, ?_⟩
  have hfirst : (i == 0) = decide (i = 0) := rfl
  have hlast : (n - i == 1) = decide (i = n - 1) := by
    rw [Bool.eq_iff_iff, beq_iff_eq, decide_eq_true_iff]
    omega
  cases parent <;>
    constructor <;>
    simp [Table.ofList, Table.insertAll, Table.find?_insert_ne, hfirst, hlast]

/-- The layer of round `i` of `n`: the item, its key if that has a name, what the round is told, and
nothing else. -/
structure IsRound (key : Option String) (value : String) (i n : Nat) (parent : Option (Value ω))
    (item : Value ω × Value ω) (layer : Table (Value ω)) : Prop where
  holdsValue : layer.find? value = some item.2
  holdsKey : ∀ name ∈ key, layer.find? name = some item.1
  told : ∃ info, layer.find? loopName = some (.map info) ∧ Tells i n parent info
  others : ∀ name, name ≠ value → name ∉ key → name ≠ loopName → layer.find? name = none

theorem isRound_loopLayer {key : Option String} {value : String} (hvalue : value ≠ loopName)
    (hkey : ∀ name ∈ key, name ≠ value ∧ name ≠ loopName) {i n : Nat} (h : i < n)
    (parent : Option (Value ω)) (item : Value ω × Value ω) :
    IsRound key value i n parent item (loopLayer key value (loopInfo i n parent) item) := by
  obtain ⟨info, hinfo, htells⟩ := exists_loopInfo h parent
  rw [hinfo]
  cases key with
  | none =>
    refine ⟨?_, nofun, ⟨info, ?_, htells⟩, fun name hname _ hloop => ?_⟩
    · simp [loopLayer, Table.ofList, Table.insertAll, Table.find?_insert_ne, hvalue.symm]
    · simp [loopLayer, Table.ofList, Table.insertAll]
    · simp [loopLayer, Table.ofList, Table.insertAll, Table.find?_insert_ne, hname.symm,
        hloop.symm]
  | some key =>
    obtain ⟨hne, hloop⟩ := hkey key rfl
    refine ⟨?_, ?_, ⟨info, ?_, htells⟩, fun name hname hother hname' => ?_⟩
    · simp [loopLayer, Table.ofList, Table.insertAll, Table.find?_insert_ne, hvalue.symm, hne]
    · rintro name ⟨⟩
      simp [loopLayer, Table.ofList, Table.insertAll, Table.find?_insert_ne, hloop.symm]
    · simp [loopLayer, Table.ofList, Table.insertAll]
    · have hother : key ≠ name := fun h => hother (h ▸ rfl)
      simp [loopLayer, Table.ofList, Table.insertAll, Table.find?_insert_ne, hname.symm, hother,
        hname'.symm]

/-! ## §2. One round -/

/-- A frame with one more layer. -/
def Frame.withLayer (f : Frame ω) (layer : Table (Value ω)) : Frame ω :=
  { f with scope := f.scope.push layer }

/-- Code in a layer of its own is code in a frame of its own: nothing is left of the layer. -/
theorem inLayer_eq_within {layer : Table (Value ω)} {x : Render ω α} (hx : Keeps surroundings x) :
    inLayer layer x = within (fun f => Frame.withLayer f layer) x := by
  refine ExceptT.ext (funext fun s => ?_)
  let t := (x.run { s with frame := Frame.withLayer s.frame layer }).2
  have hframe : { t.frame with scope := t.frame.scope.pop } = s.frame :=
    (standing_eq_iff.mp (keeps_inLayer layer hx s)).1
  show (_, { t with frame := { t.frame with scope := t.frame.scope.pop } }) =
    (_, { t with frame := s.frame })
  rw [hframe]
  rfl

/-! ## §3. All rounds -/

/-- The layers of the rounds for some items, from a round on, out of `n` rounds. -/
def layersFrom (key : Option String) (value : String) (n : Nat) (parent : Option (Value ω))
    (i : Nat) (items : List (Value ω × Value ω)) : List (Table (Value ω)) :=
  (items.zipIdx i).map fun (item, j) => loopLayer key value (loopInfo j n parent) item

/-- Rounds are run one after the other, each in the frame that the first one is in but for its
layer. -/
theorem run_runRounds (key : Option String) (value : String) (n : Nat) (parent : Option (Value ω))
    {body : Render ω Unit} (hbody : Keeps surroundings body) (i : Nat)
    (items : List (Value ω × Value ω)) (s : RenderState ω) :
    (runRounds key value n parent body i items).run s =
      ((layersFrom key value n parent i items).forM fun layer =>
        within (fun _ => Frame.withLayer s.frame layer) body).run s := by
  induction items generalizing i s with
  | nil => rfl
  | cons item items ih =>
    let layer := loopLayer key value (loopInfo i n parent) item
    have hround : (inLayer layer body).run s =
        (within (fun _ => Frame.withLayer s.frame layer) body).run s := by
      rw [inLayer_eq_within hbody]
      rfl
    show (inLayer layer body >>= fun _ => runRounds key value n parent body (i + 1) items).run s =
      (within (fun _ => Frame.withLayer s.frame layer) body >>= fun _ =>
        (layersFrom key value n parent (i + 1) items).forM fun layer =>
          within (fun _ => Frame.withLayer s.frame layer) body).run s
    rw [run_bind, run_bind, hround]
    -- The next round finds the frame that this one has found.
    rcases hr : (within (fun _ => Frame.withLayer s.frame layer) body).run s with ⟨_ | _, t⟩
    · rfl
    · have hframe : t.frame = s.frame := by
        have := congrArg (fun r => r.2.frame) hr
        exact this.symm
      show (runRounds key value n parent body (i + 1) items).run t = _
      rw [ih, hframe]

variable [HostObject ω] (env : Environment ω)

end Stencil.Render
