import Stencil.Environment
import Stencil.Text.Quoted

/-!
Descriptions of environments.

A description names what is registered in an environment, counts its passes and shows its global
variables.  It is meant for people who look for a mistake: every value shows its kind, numbers keep
a mark that tells them from integers, and texts are quoted.
-/

namespace Stencil

/-! ## §1. Shapes -/

namespace Description

/-- Items with commas between them. -/
def commas (items : List String) : String :=
  ", ".intercalate items

/-- A list. -/
def list (items : List String) : String :=
  "[" ++ commas items ++ "]"

/-- Something with a list in braces. -/
def braces (items : List String) : String :=
  "\x7b" ++ commas items ++ "\x7d"

/-- A record: its name and its fields. -/
def record (name : String) (fields : List String) : String :=
  name ++ " \x7b " ++ commas fields ++ " \x7d"

/-- A field of a record. -/
def field (name value : String) : String :=
  name ++ ": " ++ value

/-- Something that holds a value. -/
def holding (name value : String) : String :=
  name ++ "(" ++ value ++ ")"

/-- Names in quotes. -/
def names (items : List String) : String :=
  list (items.map Text.quoted)

/-- Whether `d * 10 ^ p` is described with an exponent: it is below `10 ^ (-4)` or at least
`10 ^ 16`. -/
def needsExponent (d : Nat) (p : Int) : Bool :=
  let top := Int.ofNat (Number.digits d).length + p
  top ≤ -4 || 16 < top

/-- The number `d * 10 ^ p` with one digit before the point and an exponent. -/
def scientific (d : Nat) (p : Int) : List Char :=
  let exponent := (toString (Int.ofNat (Number.digits d).length + p - 1)).toList
  match Number.digits d with
  | [] => []
  | [digit] => digit :: 'e' :: exponent
  | digit :: more => digit :: '.' :: more ++ 'e' :: exponent

/-- A number; a point or an exponent tells it from an integer. -/
def number (x : Float) : String :=
  match Number.decode x with
  | .finite negative m q =>
    let size :=
      if m == 0 then ['0', '.', '0']
      else
        let (d, p) := Number.shortest m q
        if needsExponent d p then scientific d p
        else if 0 ≤ p then Number.positional d p ++ ['.', '0']
        else Number.positional d p
    .ofList (if negative then '-' :: size else size)
  | _ => Number.plainText x

/-- The kinds of output a text is safe for. -/
def safety : Safety → String
  | .all => "All"
  | .contexts contexts => holding "Contexts" (names contexts)

end Description

open Description

/-! ## §2. Values -/

variable {ω : Type} [HostObject ω]

namespace Value

mutual

/-- The description of a value. -/
def description : Value ω → String
  | .null => "Null"
  | .bool b => holding "Bool" (if b then "true" else "false")
  | .number x => holding "Number" (Description.number x)
  | .string s => holding "String" (Text.quoted s)
  | .array items => holding "Array" (list (descriptions items))
  | .map entries => holding "Map" (braces (entryDescriptions entries))
  | .safe s =>
    holding "Safe" (record "SafeValue"
      [field "text" (Text.quoted s.text), field "safety" (safety s.safety)])
  | .callable m => holding "Macro" ("<macro " ++ m.name ++ " from " ++ m.owner.name ++ ">")
  | .object _ host => holding "Object" (HostObject.description host)

/-- The descriptions of the values in a list. -/
def descriptions : List (Value ω) → List String
  | [] => []
  | v :: vs => v.description :: descriptions vs

/-- The descriptions of the entries of a map. -/
def entryDescriptions : List (String × Value ω) → List String
  | [] => []
  | (name, v) :: entries => field (Text.quoted name) v.description :: entryDescriptions entries

end

end Value

/-! ## §3. Environments -/

/-- The description of a policy. -/
def UndefinedPolicy.description : UndefinedPolicy → String
  | .lenient => "Lenient"
  | .strict => "Strict"

/-- The description of an environment; its templates are left open. -/
def Environment.description (env : Environment ω) : String :=
  record "Environment"
    [field "filters" (names env.filters.names), field "functions" (names env.functions.names),
      field "tests" (names env.tests.names), field "visitors" (toString env.passes.length),
      field "globals" (braces (Value.entryDescriptions env.globals)),
      field "undefined" env.undefined.description,
      field "auto_escape" (if env.autoEscape then "true" else "false"), ".."]

end Stencil
