import Stencil.Loader.Directory

/-!
What the names of templates can reach below a directory.

A name is accepted by its components, of which it may have ordinary ones and a dot at the head; by
its parts this means that it is not empty, does not begin with a slash and has no part of two dots.
The path that is read for such a name then has the components of the directory and, after them, the
parts of the name, dots and empty parts aside.  Whatever place the directory is at, going along that
path leads down from there and never up.  A name that is not accepted, and one whose file cannot be
read, is reported by its own name.
-/

namespace Stencil

namespace Path

/-! ## §1. Parts -/

theorem parts_ne_nil (path : List Char) : parts path ≠ [] := by
  fun_cases parts path
  · exact List.cons_ne_nil _ _
  · exact List.cons_ne_nil _ _
  · exact List.cons_ne_nil _ _
  · exact List.cons_ne_nil _ _

/-- A character that is no slash goes on the first part of what follows. -/
theorem parts_cons {c : Char} (hc : c ≠ '/') (cs : List Char) :
    ∃ part more, parts cs = part :: more ∧ parts (c :: cs) = (c :: part) :: more := by
  obtain ⟨part, more, h⟩ := List.exists_cons_of_ne_nil (parts_ne_nil cs)
  refine ⟨part, more, h, ?_⟩
  rw [parts, h]
  intro hslash
  exact absurd hslash hc

/-- A slash ends a part. -/
theorem parts_append (path more : List Char) :
    parts (path ++ '/' :: more) = parts path ++ parts more := by
  induction path with
  | nil => rfl
  | cons c cs ih =>
    by_cases hc : c = '/'
    · subst hc
      rw [List.cons_append, parts, parts, ih, List.cons_append]
    · obtain ⟨part, rest, hcs, hparts⟩ := parts_cons hc cs
      obtain ⟨part', rest', hlong, hparts'⟩ := parts_cons hc (cs ++ '/' :: more)
      rw [ih, hcs, List.cons_append] at hlong
      injection hlong with hhead htail
      rw [List.cons_append, hparts', hparts, ← hhead, ← htail, List.cons_append]

/-- No slash is left in a part. -/
theorem slash_notMem_of_mem_parts {path part : List Char} (h : part ∈ parts path) : '/' ∉ part := by
  induction path generalizing part with
  | nil =>
    rw [parts, List.mem_singleton] at h
    rw [h]
    exact List.not_mem_nil
  | cons c cs ih =>
    by_cases hc : c = '/'
    · subst hc
      rw [parts, List.mem_cons] at h
      rcases h with h | h
      · rw [h]
        exact List.not_mem_nil
      · exact ih h
    · obtain ⟨first, rest, hcs, hparts⟩ := parts_cons hc cs
      rw [hparts, List.mem_cons] at h
      rcases h with h | h
      · rw [h, List.mem_cons, not_or]
        exact ⟨Ne.symm hc, ih (hcs ▸ List.mem_cons_self)⟩
      · exact ih (hcs ▸ List.mem_cons_of_mem _ h)

/-! ## §2. Components -/

/-- A part that names something in a directory. -/
structure IsOrdinary (part : List Char) : Prop where
  ne_nil : part ≠ []
  ne_dot : part ≠ ['.']
  ne_dots : part ≠ ['.', '.']
  no_slash : '/' ∉ part

/-- The components of a path without a dot at its head. -/
def moves (path : List Char) : List Component :=
  (components path).filter (· != .here)

/-- The components that the parts of a path stand for contain no dot. -/
theorem moves_eq (path : List Char) :
    moves path = (if isAbsolute path then [.root] else []) ++ (parts path).filterMap component? := by
  have hparts : ∀ c ∈ (parts path).filterMap component?, (c != .here) = true := by
    intro c hc
    obtain ⟨part, -, hpart⟩ := List.mem_filterMap.mp hc
    unfold component? at hpart
    split at hpart
    · cases hpart
    · split at hpart <;> cases hpart <;> rfl
  rw [moves, components, List.filter_append, List.filter_eq_self.mpr hparts, lead]
  congr 1
  split
  · rfl
  · split <;> rfl

/-- A component that is not ordinary is one of a slash at the head, a dot there, and two dots. -/
theorem any_leaves_iff (name : List Char) :
    (components name).any (!·.staysBelow) = true ↔
      name.head? = some '/' ∨ ['.', '.'] ∈ parts name := by
  have hlead : (lead name).any (!·.staysBelow) = isAbsolute name := by
    unfold lead
    split
    · rename_i h
      rw [h]
      rfl
    · rename_i h
      rw [Bool.not_eq_true _ |>.mp h]
      split <;> rfl
  have hpart : ∀ part, (component? part).any (!·.staysBelow) = goesUp part := by
    intro part
    unfold component?
    by_cases hup : goesUp part = true
    · rw [beq_iff_eq.mp hup]
      rfl
    · rw [if_neg hup, Bool.not_eq_true _ |>.mp hup]
      split <;> rfl
  have hparts : ((parts name).filterMap component?).any (!·.staysBelow) = (parts name).any goesUp := by
    rw [List.any_filterMap]
    exact congrArg _ (funext hpart)
  rw [components, List.any_append, hlead, hparts, Bool.or_eq_true, isAbsolute, beq_iff_eq]
  refine or_congr_right ⟨?_, ?_⟩
  · intro h
    obtain ⟨part, hmem, hup⟩ := List.any_eq_true.mp h
    exact beq_iff_eq.mp hup ▸ hmem
  · intro h
    exact List.any_eq_true.mpr ⟨_, h, rfl⟩

/-- Where no part goes up, the parts that lead somewhere are the components. -/
theorem filterMap_component? {path : List Char} (h : ['.', '.'] ∉ parts path) :
    (parts path).filterMap component? = (steps path).map .ordinary := by
  unfold steps
  generalize parts path = names at h ⊢
  induction names with
  | nil => rfl
  | cons part more ih =>
    rw [List.mem_cons, not_or] at h
    have hup : goesUp part = false := beq_false_of_ne (Ne.symm h.1)
    by_cases hstays : stays part = true
    · rw [List.filterMap_cons_none (by rw [component?, if_pos hstays]), ih h.2,
        List.filter_cons_of_neg (by rw [hstays]; exact Bool.false_ne_true)]
    · have hpart : component? part = some (.ordinary part) := by
        rw [component?, if_neg hstays, hup]
        rfl
      rw [List.filterMap_cons_some hpart, ih h.2,
        List.filter_cons_of_pos (by rw [Bool.not_eq_true _ |>.mp hstays]; rfl), List.map_cons]

theorem isOrdinary_of_mem_steps {path part : List Char} (hup : ['.', '.'] ∉ parts path)
    (h : part ∈ steps path) : IsOrdinary part := by
  obtain ⟨hmem, hstays⟩ := List.mem_filter.mp h
  refine ⟨?_, ?_, ?_, slash_notMem_of_mem_parts hmem⟩
  · intro hnil
    subst hnil
    cases hstays
  · intro hdot
    subst hdot
    cases hstays
  · intro hdots
    subst hdots
    exact hup hmem

/-! ## §3. Joining -/

/-- The components of a name that is not absolute follow those of the directory. -/
theorem moves_join (root : List Char) {name : List Char} (habs : isAbsolute name = false) :
    moves (join root name) = moves root ++ (parts name).filterMap component? := by
  rw [join, habs, if_neg Bool.false_ne_true]
  by_cases hroot : root = []
  · subst hroot
    rw [moves_eq, moves_eq]
    show (if isAbsolute name then _ else _) ++ _ = _
    rw [habs]
    rfl
  -- The root has a first character, by which both paths are absolute or neither is.
  have hhead : ∀ more, isAbsolute (root ++ more) = isAbsolute root := by
    intro more
    cases root with
    | nil => exact absurd rfl hroot
    | cons c cs => rfl
  by_cases hslash : root.getLast? = some '/'
  · obtain ⟨dir, rfl⟩ : ∃ dir, root = dir ++ ['/'] := List.getLast?_eq_some_iff.mp hslash
    rw [if_pos (by rw [hslash, BEq.rfl, Bool.or_true]), moves_eq, moves_eq, hhead,
      List.append_assoc dir, List.singleton_append, parts_append, parts_append, List.filterMap_append,
      List.filterMap_append, List.append_assoc, List.append_assoc]
    rfl
  · have hlast : (root.isEmpty || root.getLast? == some '/') = false := by
      rw [Bool.or_eq_false_iff]
      exact ⟨List.isEmpty_eq_false_iff.mpr hroot, beq_false_of_ne hslash⟩
    rw [hlast, if_neg Bool.false_ne_true, moves_eq, moves_eq, hhead, parts_append,
      List.filterMap_append, List.append_assoc]

/-- The place that the components of a path lead to from a place, as the names on the way to it. -/
def follow (place : List (List Char)) : List Component → List (List Char)
  | [] => place
  | .root :: more => follow [] more
  | .here :: more => follow place more
  | .up :: more => follow place.dropLast more
  | .ordinary name :: more => follow (place ++ [name]) more

theorem follow_append (place : List (List Char)) (cs more : List Component) :
    follow place (cs ++ more) = follow (follow place cs) more := by
  induction cs generalizing place with
  | nil => rfl
  | cons c cs ih => cases c <;> exact ih _

/-- A dot leads nowhere. -/
theorem follow_moves (place : List (List Char)) (path : List Char) :
    follow place (moves path) = follow place (components path) := by
  unfold moves
  generalize components path = cs
  induction cs generalizing place with
  | nil => rfl
  | cons c cs ih => cases c <;> exact ih _

theorem follow_ordinary (place names : List (List Char)) :
    follow place (names.map .ordinary) = place ++ names := by
  induction names generalizing place with
  | nil => exact (List.append_nil place).symm
  | cons name more ih =>
    rw [List.map_cons, follow, ih, List.append_assoc, List.singleton_append]

/-! ## §4. Names in a directory -/

theorem resolve?_eq_some_iff {root name path : List Char} :
    resolve? root name = some path ↔
      (name ≠ [] ∧ name.head? ≠ some '/' ∧ ['.', '.'] ∉ parts name) ∧ join root name = path := by
  have hguard : (name.isEmpty || (components name).any (!·.staysBelow)) = true ↔
      name = [] ∨ name.head? = some '/' ∨ ['.', '.'] ∈ parts name := by
    rw [Bool.or_eq_true, List.isEmpty_iff, any_leaves_iff]
  unfold resolve?
  by_cases h : (name.isEmpty || (components name).any (!·.staysBelow)) = true
  · rw [if_pos h]
    refine ⟨nofun, ?_⟩
    intro ⟨⟨hnil, hhead, hup⟩, _⟩
    rcases hguard.mp h with h | h | h
    · exact absurd h hnil
    · exact absurd h hhead
    · exact absurd h hup
  · rw [if_neg h, Option.some_inj]
    rw [hguard, not_or, not_or] at h
    exact ⟨fun hjoin => ⟨h, hjoin⟩, fun hjoin => hjoin.2⟩

/-- The path of a name in a directory has the components of the directory and then the parts of the
name. -/
theorem moves_of_resolve? {root name path : List Char} (h : resolve? root name = some path) :
    moves path = moves root ++ (steps name).map .ordinary := by
  obtain ⟨⟨_, hhead, hup⟩, rfl⟩ := resolve?_eq_some_iff.mp h
  rw [moves_join root (beq_false_of_ne hhead), filterMap_component? hup]

/-- The path of a name in a directory leads from where the directory is along the parts of the
name. -/
theorem follow_of_resolve? {root name path : List Char} (h : resolve? root name = some path)
    (place : List (List Char)) :
    follow place (components path) = follow place (components root) ++ steps name := by
  rw [← follow_moves, moves_of_resolve? h, follow_append, follow_moves, follow_ordinary]

end Path

/-! ## §5. Loading -/

namespace TemplateSource

open Stencil.Path

variable (read : List Char → Except ReadError String) (root : List Char)

/-- The names of templates in a directory are the texts that are not empty, do not begin with a
slash and have no part of two dots.  For such a name the one path that counts is that of the
directory followed by ordinary parts, at a place below it.  All that can go wrong is reported by the
name itself. -/
theorem ofFiles_staysBelow (requests : List String) (name : String) :
    ((resolve? root name.toList).isSome = true ↔
      name ≠ "" ∧ name.toList.head? ≠ some '/' ∧ ['.', '.'] ∉ parts name.toList) ∧
    (resolve? root name.toList = none →
      ofFiles read root requests name = .error (.notFound name .outsideRoot)) ∧
    ∀ path, resolve? root name.toList = some path →
      ((∀ part ∈ Path.steps name.toList, IsOrdinary part) ∧
        moves path = moves root ++ (Path.steps name.toList).map .ordinary ∧
        ∀ place, follow place (components path) =
          follow place (components root) ++ Path.steps name.toList) ∧
      (∀ source, read path = .ok source → ofFiles read root requests name = .ok source) ∧
      ∀ e, read path = .error e →
        ofFiles read root requests name = .error (.notFound name e.reason) := by
  refine ⟨?_, ?_, ?_⟩
  · rw [Option.isSome_iff_exists]
    have hempty : name.toList ≠ [] ↔ name ≠ "" := by
      rw [Ne, String.toList_eq_nil_iff]
    rw [← hempty]
    constructor
    · intro ⟨path, h⟩
      exact (resolve?_eq_some_iff.mp h).1
    · intro h
      exact ⟨_, resolve?_eq_some_iff.mpr ⟨h, rfl⟩⟩
  · intro h
    rw [ofFiles, h]
  · intro path h
    have hload : ofFiles read root requests name =
        (read path).mapError fun e => .notFound name e.reason := by
      rw [ofFiles, h]
    obtain ⟨⟨_, _, hup⟩, _⟩ := resolve?_eq_some_iff.mp h
    refine ⟨⟨?_, moves_of_resolve? h, follow_of_resolve? h⟩, ?_, ?_⟩
    · intro part hpart
      exact isOrdinary_of_mem_steps hup hpart
    · intro source hread
      rw [hload, hread]
      rfl
    · intro e hread
      rw [hload, hread]
      rfl

/-- Dots in a name lead nowhere, and a part that begins with two dots is a name like any other. -/
theorem ofFiles_staysBelow_dots :
    resolve? "/t".toList "./a//..b".toList = some "/t/./a//..b".toList ∧
      moves "/t/./a//..b".toList =
        moves "/t".toList ++ [.ordinary "a".toList, .ordinary "..b".toList] ∧
      ofFiles (fun _ => .error .missing) "/t".toList [] "./a//..b" =
        .error (.notFound "./a//..b" .noFile) :=
  have hpath : resolve? "/t".toList "./a//..b".toList = some "/t/./a//..b".toList := by
    decide +kernel
  have hsteps : Path.steps "./a//..b".toList = ["a".toList, "..b".toList] := by decide +kernel
  have h := (ofFiles_staysBelow (fun _ => .error .missing) "/t".toList [] "./a//..b").2.2 _ hpath
  ⟨hpath, h.1.2.1.trans (by rw [hsteps]; rfl), h.2.2 .missing rfl⟩

end TemplateSource

end Stencil
