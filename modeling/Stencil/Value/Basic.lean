import Stencil.Number.Numeral
import Stencil.Template.Basic

/-!
Values that templates compute with.

A value is a scalar, a text, a collection, a macro, or an object of the program that renders the
template.  Every value can be taken as a truth, as a number and as printed text; collections and
objects that answer nothing count as false, zero and empty.  Texts may be marked safe for some kinds
of output, in which case they are not escaped again.

Objects of the host are opaque here: the type `ω` of what is known about them is a parameter, and
`HostObject ω` says how they answer.  Two objects are the same when they have the same identity; an
object that a host has just handed out has none yet, and is not the same as any.
-/

namespace Stencil

/-! ## §1. Texts, macros and objects -/

/-- The kinds of output a text needs no escaping for. -/
inductive Safety
  | all
  | contexts (names : List String)
deriving DecidableEq, Repr

/-- A text that must not be escaped again for some kinds of output. -/
structure SafeText where
  text : String
  safety : Safety
deriving DecidableEq, Repr

/-- Whether a text is safe for a kind of output. -/
def SafeText.isSafeFor (s : SafeText) (context : String) : Bool :=
  match s.safety with
  | .all => true
  | .contexts names => names.contains context

/-- How a template came into a render. -/
inductive Origin
  /-- The render was started with it. -/
  | entry
  /-- It was asked for by its name. -/
  | loaded
deriving DecidableEq, Repr

/-- A template taking part in a render.  A name is loaded at most once in a render, so origin and
name tell these apart. -/
structure LiveTemplate where
  template : Template
  origin : Origin
deriving Repr

namespace LiveTemplate

/-- The name of the template. -/
def name (t : LiveTemplate) : String := t.template.name

/-- Whether two are the same template of a render. -/
def same (a b : LiveTemplate) : Bool :=
  a.origin == b.origin && a.name == b.name

end LiveTemplate

/-- A macro as a value: one of the macros of a template. -/
structure MacroRef where
  owner : LiveTemplate
  id : DefinitionId
deriving Repr

namespace MacroRef

/-- The name of the macro. -/
def name (m : MacroRef) : String :=
  ((m.owner.template.macroAt? m.id).map MacroDef.name).getD ""

/-- Whether two are the same macro of the same template. -/
def same (a b : MacroRef) : Bool :=
  a.owner.same b.owner && a.id == b.id

end MacroRef

/-- Which object of the host a value is. -/
inductive Identity
  /-- An object just handed out by the host. -/
  | unknown
  /-- An object that the host gave to the render. -/
  | given (n : Nat)
  /-- An object met during the render. -/
  | met (n : Nat)
deriving DecidableEq, Repr

/-- Whether two identities are known to be of one object. -/
def Identity.same (a b : Identity) : Bool :=
  a == b && a != .unknown

/-! ## §2. Values -/

/-- A value, with host objects of type `ω`. -/
inductive Value (ω : Type)
  | null
  | bool (b : Bool)
  | number (x : Float)
  | string (s : String)
  | array (items : List (Value ω))
  | map (entries : List (String × Value ω))
  | safe (s : SafeText)
  | callable (m : MacroRef)
  | object (identity : Identity) (host : ω)

/-- How objects of the host answer.  No answer to a question about an object itself makes it false,
zero, empty or without the attribute. -/
class HostObject (ω : Type) where
  truth : ω → Option Bool
  number : ω → Option Float
  output : ω → Option String
  attr : ω → String → Option (Value ω)
  items : ω → Option (List (Value ω))
  call : ω → String → List (Value ω) → Except String (Value ω)
  /-- How an object shows in the description of an environment. -/
  description : ω → String

/-- Where the host has no objects. -/
instance : HostObject Empty where
  truth := nofun
  number := nofun
  output := nofun
  attr := nofun
  items := nofun
  call := nofun
  description := nofun

namespace Value

variable {ω : Type}

instance : Inhabited (Value ω) := ⟨.null⟩

/-- The name of the kind of a value. -/
def kind : Value ω → String
  | .null => "null"
  | .bool _ => "bool"
  | .number _ => "number"
  | .string _ | .safe _ => "string"
  | .array _ => "array"
  | .map _ => "map"
  | .callable _ => "macro"
  | .object .. => "object"

/-- The text that a value is. -/
def text? : Value ω → Option String
  | .string s => some s
  | .safe s => some s.text
  | _ => none

/-- Whether a value is null. -/
def isNull : Value ω → Bool
  | .null => true
  | _ => false

/-- A whole number as a value. -/
def ofNat (n : Nat) : Value ω := .number (Float.ofNat n)

/-! ## §3. Coercions -/

variable [HostObject ω]

/-- Whether a text counts as true. -/
def textTruth (s : String) : Bool := s != "" && s != "0"

/-- A value as a truth. -/
def truthy : Value ω → Bool
  | .null => false
  | .bool b => b
  | .number x => x != 0.0 && !x.isNaN
  | .string s => textTruth s
  | .safe s => textTruth s.text
  | .array items => !items.isEmpty
  | .map entries => !entries.isEmpty
  | .callable _ => true
  | .object _ host => (HostObject.truth host).getD false

/-- A value as a number. -/
def toNumber : Value ω → Float
  | .bool true => 1.0
  | .number x => x
  | .string s => (Number.read? s).getD 0.0
  | .safe s => (Number.read? s.text).getD 0.0
  | .object _ host => (HostObject.number host).getD 0.0
  | _ => 0.0

/-- A value as printed text.  Truth prints as `1`; falsehood, null and collections print nothing. -/
def output : Value ω → String
  | .bool true => "1"
  | .number x => Number.text x
  | .string s => s
  | .safe s => s.text
  | .object _ host => (HostObject.output host).getD ""
  | _ => ""

/-- The number of characters of a text or of elements of a collection. -/
def length? : Value ω → Option Nat
  | .string s => some s.length
  | .safe s => some s.text.length
  | .array items => some items.length
  | .map entries => some entries.length
  | .object _ host => (HostObject.items host).map List.length
  | _ => none

/-- Whether a value is null, or a text or collection with nothing in it. -/
def isEmpty (v : Value ω) : Bool :=
  v.isNull || v.length? == some 0

/-- Whether a loop can go over a value. -/
def isIterable : Value ω → Bool
  | .array _ | .map _ => true
  | .object _ host => (HostObject.items host).isSome
  | _ => false

/-- A list with its indexes as keys. -/
def indexed (items : List (Value ω)) : List (Value ω × Value ω) :=
  items.zipIdx.map fun (item, i) => (ofNat i, item)

/-- The keys and values that a loop goes over. -/
def items : Value ω → List (Value ω × Value ω)
  | .array items => indexed items
  | .map entries => entries.map fun (name, v) => (.string name, v)
  | .object _ host => indexed ((HostObject.items host).getD [])
  | _ => []

/-! ## §4. Attributes -/

/-- The place in a sequence of the given length that a key means.  Keys below zero count from the
end. -/
def index? (key : Value ω) (length : Nat) : Option Nat := do
  let x ←
    match key with
    | .number x => some x
    | .string s => Number.read? s
    | .safe s => Number.read? s.text
    | _ => none
  let n ← Number.integer? x
  let n := if n < 0 then n + length else n
  if 0 ≤ n ∧ n < length then some n.toNat else none

/-- The attribute or element of a value under a key. -/
def attribute? (v key : Value ω) : Option (Value ω) :=
  match v with
  | .map entries => Table.find? entries key.output
  | .array items => (key.index? items.length).bind (items[·]?)
  | .object _ host => HostObject.attr host key.output
  | .string s => (key.index? s.length).bind fun i => (s.toList[i]?).map (.string ∘ String.singleton)
  | .safe s =>
    (key.index? s.text.length).bind fun i => (s.text.toList[i]?).map (.string ∘ String.singleton)
  | _ => none

/-! ## §5. Identities of objects -/

mutual

/-- Gives identities, numbered from `n`, to the objects in a value that have none yet, and says
which number comes next. -/
def identify (name : Nat → Identity) : Value ω → Nat → Value ω × Nat
  | .array items, n =>
    let (items, n) := identifyAll name items n
    (.array items, n)
  | .map entries, n =>
    let (entries, n) := identifyEntries name entries n
    (.map entries, n)
  | .object .unknown host, n => (.object (name n) host, n + 1)
  | v, n => (v, n)

/-- Gives identities to the objects in a list of values. -/
def identifyAll (name : Nat → Identity) : List (Value ω) → Nat → List (Value ω) × Nat
  | [], n => ([], n)
  | v :: vs, n =>
    let (v, n) := identify name v n
    let (vs, n) := identifyAll name vs n
    (v :: vs, n)

/-- Gives identities to the objects in the entries of a map. -/
def identifyEntries (name : Nat → Identity) :
    List (String × Value ω) → Nat → List (String × Value ω) × Nat
  | [], n => ([], n)
  | (key, v) :: entries, n =>
    let (v, n) := identify name v n
    let (entries, n) := identifyEntries name entries n
    ((key, v) :: entries, n)

end

end Value

end Stencil
