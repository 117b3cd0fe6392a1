import Stencil.Text.Alphanumeric
import Stencil.Pattern.Basic

/-!
Reading patterns.

The language of patterns has literals, classes, groups, alternatives, repetitions and conditions on
places; it has neither look-around nor references to groups.  Flags may be set inside of a pattern
and hold to the end of the group they stand in.  A text that is not a pattern has no reading; why
does not matter.

Reading consumes the text from left to right, and the count that bounds it starts at the length of
the text: every step takes a character or more.
-/

namespace Stencil.Pattern

open Stencil.Text

/-! ## §1. Flags -/

/-- How a part of a pattern is read. -/
structure Flags where
  ignoreCase : Bool
  /-- `^` and `$` are about lines. -/
  multiLine : Bool
  /-- `.` matches the end of a line too. -/
  dotAll : Bool
  /-- Repetitions prefer to be short; this does not change what matches. -/
  lazy : Bool
  /-- Classes are those of Unicode, not of ASCII. -/
  unicode : Bool
  /-- White space and comments do not count. -/
  verbose : Bool
  /-- A carriage return ends a line too. -/
  crlf : Bool

/-- The flags at the start of a pattern. -/
def Flags.initial : Flags where
  ignoreCase := false
  multiLine := false
  dotAll := false
  lazy := false
  unicode := true
  verbose := false
  crlf := false

/-- Sets the flag of a letter. -/
def Flags.set? (flags : Flags) (value : Bool) : Char → Option Flags
  | 'i' => some { flags with ignoreCase := value }
  | 'm' => some { flags with multiLine := value }
  | 's' => some { flags with dotAll := value }
  | 'U' => some { flags with lazy := value }
  | 'u' => some { flags with unicode := value }
  | 'x' => some { flags with verbose := value }
  | 'R' => some { flags with crlf := value }
  | _ => none

/-- The rest of a text after the comment it begins with. -/
def afterComment : List Char → List Char
  | [] => []
  | c :: cs => if c == '\n' then cs else afterComment cs

theorem length_afterComment_le (cs : List Char) : (afterComment cs).length ≤ cs.length := by
  induction cs with
  | nil => simp [afterComment]
  | cons c cs ih =>
    rw [afterComment]
    split
    · simp
    · simp only [List.length_cons]
      omega

/-- Skips what does not count under the flags. -/
def skip (flags : Flags) : List Char → List Char
  | [] => []
  | c :: cs =>
    if !flags.verbose then c :: cs
    else if isBlank c then skip flags cs
    else if c == '#' then skip flags (afterComment cs)
    else c :: cs
termination_by cs => cs.length
decreasing_by
  · simp
  · have := length_afterComment_le cs
    simp
    omega

/-- Reads flags up to a colon or a closing parenthesis, which is given back too; `seen` are the
letters so far and `negated` says whether a hyphen was read. -/
def readFlags (flags : Flags) (seen : List Char) (negated : Bool) :
    List Char → Option (Flags × List Char × Char × List Char)
  | [] => none
  | c :: cs =>
    if c == ':' || c == ')' then
      if negated && seen.head? == some '-' then none else some (flags, seen, c, cs)
    else if c == '-' then
      if negated then none else readFlags flags (c :: seen) true cs
    else if seen.contains c then none
    else do
      let flags ← flags.set? (!negated) c
      readFlags flags (c :: seen) negated cs

/-! ## §2. Escapes -/

/-- The value of a hexadecimal digit. -/
def hexValue? (c : Char) : Option Nat :=
  if c.isDigit then some (c.toNat - '0'.toNat)
  else if 'a' ≤ c ∧ c ≤ 'f' then some (c.toNat - 'a'.toNat + 10)
  else if 'A' ≤ c ∧ c ≤ 'F' then some (c.toNat - 'A'.toNat + 10)
  else none

/-- The character with the code point that hexadecimal digits give. -/
def hexChar? (digits : List Char) : Option Char := do
  if digits.isEmpty then none
  let n ← digits.foldlM (fun n c => (hexValue? c).map fun d => min (16 * n + d) 0x110000) 0
  if n < 0xD800 ∨ (0xDFFF < n ∧ n < 0x110000) then some (Char.ofNat n) else none

/-- Takes `n` characters off a text, skipping what does not count after each. -/
def takeSkipping (flags : Flags) : Nat → List Char → Option (List Char × List Char)
  | 0, cs => some ([], cs)
  | _ + 1, [] => none
  | n + 1, c :: cs => do
    let (taken, rest) ← takeSkipping flags n (skip flags cs)
    some (c :: taken, rest)

/-- Takes the text up to a closing brace off, without what does not count. -/
def takeBraced (flags : Flags) : Nat → List Char → Option (List Char × List Char)
  | 0, _ => none
  | n + 1, cs =>
    match skip flags cs with
    | [] => none
    | '}' :: rest => some ([], rest)
    | c :: rest => do
      let (taken, rest) ← takeBraced flags n rest
      some (c :: taken, rest)

/-- A character given by hexadecimal digits: in braces, or as many as the letter before asks for. -/
def readHex (flags : Flags) (width : Nat) (cs : List Char) : Option (Char × List Char) := do
  let (digits, rest) ←
    match skip flags cs with
    | '{' :: rest => takeBraced flags (rest.length + 1) rest
    | rest => takeSkipping flags width rest
  some (← hexChar? digits, rest)

/-- A class with case ignored if the flags say so, and complemented if asked to. -/
def finish (flags : Flags) (negated : Bool) (set : CharClass) : CharClass :=
  let set := if flags.ignoreCase then .folded set else set
  if negated then .compl set else set

/-- The class of a property after `p` or `P`: one letter, or a name in braces. -/
def readProperty (flags : Flags) (negated : Bool) (cs : List Char) :
    Option (CharClass × List Char) := do
  if !flags.unicode then none
  match skip flags cs with
  | [] => none
  | '{' :: rest =>
    let (name, rest) ← takeBraced flags (rest.length + 1) rest
    match name with
    | '^' :: name => some (finish flags (!negated) (← property? name), rest)
    | name => some (finish flags negated (← property? name), rest)
  | c :: rest => some (finish flags negated (← property? [c]), rest)

/-- What an escape sequence stands for. -/
inductive Escaped
  | literal (c : Char)
  | set (set : CharClass)
  | place (test : PlaceTest)

/-- Characters that have a meaning in patterns. -/
def metaChars : List Char :=
  "\\.+*?()|[]\x7b\x7d^$#&-~".toList

/-- Whether a character may stand after a backslash for itself. -/
def isEscapable (c : Char) : Bool :=
  metaChars.contains c || (c.toNat < 128 && !c.isAlphanum && c != '<' && c != '>')

/-- The characters of words under the flags. -/
def Flags.word (flags : Flags) : CharClass :=
  if flags.unicode then .word else .asciiWord

/-- A class named by a letter.  The complement of a class of ASCII would match parts of characters,
which is not allowed. -/
def letterClass? (flags : Flags) (c : Char) : Option CharClass :=
  let named (unicode ascii : CharClass) : CharClass := if flags.unicode then unicode else ascii
  let complement (unicode : CharClass) : Option CharClass :=
    if flags.unicode then some (.compl unicode) else none
  match c with
  | 'd' => some (named .digit .asciiDigit)
  | 's' => some (named .blank .asciiBlank)
  | 'w' => some flags.word
  | 'D' => complement .digit
  | 'S' => complement .blank
  | 'W' => complement .word
  | _ => none

/-- A character named by a letter. -/
def letterChar? : Char → Option Char
  | 'a' => some '\x07'
  | 'f' => some '\x0c'
  | 't' => some '\t'
  | 'n' => some '\n'
  | 'r' => some '\r'
  | 'v' => some '\x0b'
  | _ => none

/-- A condition on places named by a letter. -/
def letterPlace? (flags : Flags) : Char → Option PlaceTest
  | 'A' => some .textStart
  | 'z' => some .textEnd
  | 'b' => some (.wordBoundary flags.word)
  | 'B' => some (.notWordBoundary flags.word)
  | '<' => some (.wordStart flags.word)
  | '>' => some (.wordEnd flags.word)
  | _ => none

/-- The kind of a word boundary that is named in braces after `b`.  What does not begin with a
letter or a hyphen is no such name but a count. -/
def readBoundary (flags : Flags) (cs : List Char) : Option (PlaceTest × List Char) :=
  let plain := some (.wordBoundary flags.word, cs)
  match cs with
  | '{' :: rest =>
    let rest := skip flags rest
    match rest with
    | [] => none
    | c :: _ =>
      if c.isAlpha || c == '-' then do
        let (name, rest) ← takeBraced flags (rest.length + 1) rest
        match String.ofList name with
        | "start" => some (.wordStart flags.word, rest)
        | "end" => some (.wordEnd flags.word, rest)
        | "start-half" => some (.wordStartHalf flags.word, rest)
        | "end-half" => some (.wordEndHalf flags.word, rest)
        | _ => none
      else plain
  | _ => plain

/-- An escape sequence after its backslash. -/
def readEscape (flags : Flags) : List Char → Option (Escaped × List Char)
  | [] => none
  | c :: cs =>
    if c == 'x' || c == 'u' || c == 'U' then do
      let width := if c == 'x' then 2 else if c == 'u' then 4 else 8
      let (c, rest) ← readHex flags width cs
      some (.literal c, rest)
    else if c == 'p' || c == 'P' then do
      let (set, rest) ← readProperty flags (c == 'P') cs
      some (.set set, rest)
    else if "dswDSW".toList.contains c then (letterClass? flags c).map fun set => (.set set, cs)
    else if isEscapable c then some (.literal c, cs)
    else if c == 'b' then do
      let (test, rest) ← readBoundary flags cs
      some (.place test, rest)
    else
      ((letterChar? c).map fun c => (.literal c, cs)).or
        ((letterPlace? flags c).map fun test => (.place test, cs))

/-! ## §3. Bracket expressions -/

/-- An operation between the parts of a bracket expression. -/
inductive SetOp
  | inter
  | diff
  | symDiff

/-- Applies an operation; where case is ignored, it is so on both sides. -/
def SetOp.apply (op : SetOp) (flags : Flags) (a b : CharClass) : CharClass :=
  let a := finish flags false a
  let b := finish flags false b
  match op with
  | .inter => .inter a b
  | .diff => .diff a b
  | .symDiff => .symDiff a b

/-- The part of a bracket expression that is read: what is before the last operation, and the union
since then. -/
structure SetPart where
  before : Option (SetOp × CharClass)
  items : CharClass

/-- Adds a class to the union. -/
def SetPart.add (part : SetPart) (set : CharClass) : SetPart :=
  { part with items := .union part.items set }

/-- The class read so far. -/
def SetPart.close (part : SetPart) (flags : Flags) : CharClass :=
  match part.before with
  | none => part.items
  | some (op, before) => op.apply flags before part.items

/-- A literal character of a class.  Beyond ASCII it needs the flag for Unicode. -/
def literal? (flags : Flags) (c : Char) : Option Char :=
  if flags.unicode || c.toNat < 128 then some c else none

/-- A class named between colons, with what follows it. -/
def readNamedClass? (cs : List Char) : Option (CharClass × List Char) :=
  match cs with
  | '[' :: ':' :: cs =>
    let (negated, cs) := match cs with
      | '^' :: cs => (true, cs)
      | cs => (false, cs)
    let name := cs.takeWhile (· != ':')
    match cs.drop name.length with
    | ':' :: ']' :: rest =>
      (CharClass.asciiNamed? (.ofList name)).map fun set =>
        (if negated then .compl set else set, rest)
    | _ => none
  | _ => none

/-- One member of a bracket expression: a character or a class. -/
def readMember (flags : Flags) : List Char → Option ((Char ⊕ CharClass) × List Char)
  | [] => none
  | '\\' :: cs => do
    match ← readEscape flags cs with
    | (.literal c, rest) => some (.inl (← literal? flags c), rest)
    | (.set set, rest) => some (.inr set, rest)
    | (.place _, _) => none
  | c :: cs => do some (.inl (← literal? flags c), cs)

/-- A member or a range of characters. -/
def readRange (flags : Flags) (cs : List Char) : Option (CharClass × List Char) := do
  let (first, rest) ← readMember flags cs
  let alone : CharClass := match first with
    | .inl c => .single c
    | .inr set => set
  match skip flags rest with
  | [] => none
  | '-' :: after =>
    match skip flags after with
    | ']' :: _ | '-' :: _ => some (alone, '-' :: after)
    | after =>
      let (last, rest) ← readMember flags after
      match first, last with
      | .inl low, .inl high =>
        if low ≤ high then some (.range low.toNat high.toNat, rest) else none
      | _, _ => none
  | rest => some (alone, rest)

/-- The hyphens and the bracket that count for themselves at the start of a bracket expression. -/
def readLeading (flags : Flags) : Nat → Bool → SetPart → List Char → SetPart × List Char
  | 0, _, part, cs => (part, cs)
  | n + 1, first, part, cs =>
    match skip flags cs with
    | '-' :: rest => readLeading flags n false (part.add (.single '-')) rest
    | ']' :: rest => if first then (part.add (.single ']'), rest) else (part, ']' :: rest)
    | rest => (part, rest)

/-- Reads a bracket expression after its opening bracket, through the closing one. -/
def readSet (flags : Flags) : Nat → List Char → Option (CharClass × List Char)
  | 0, _ => none
  | n + 1, cs =>
    let (negated, cs) := match skip flags cs with
      | '^' :: cs => (true, cs)
      | cs => (false, cs)
    let (part, cs) := readLeading flags (cs.length + 1) true ⟨none, .none⟩ cs
    if negated && !flags.unicode then none
    else (parts (readSet flags n) (cs.length + 1) part cs).map fun (set, rest) =>
      (finish flags negated set, rest)
where
  /-- Reads members and operations up to the closing bracket; `inner` reads a bracket expression
  inside. -/
  parts (inner : List Char → Option (CharClass × List Char)) :
      Nat → SetPart → List Char → Option (CharClass × List Char)
    | 0, _, _ => none
    | n + 1, part, cs =>
      let operation (op : SetOp) (rest : List Char) :=
        parts inner n ⟨some (op, part.close flags), .none⟩ rest
      match skip flags cs with
      | [] => none
      | ']' :: rest => some (part.close flags, rest)
      | '&' :: '&' :: rest => operation .inter rest
      | '-' :: '-' :: rest => operation .diff rest
      | '~' :: '~' :: rest => operation .symDiff rest
      | '[' :: rest =>
        match readNamedClass? ('[' :: rest) with
        | some (set, rest) => parts inner n (part.add set) rest
        | none => do
          let (set, rest) ← inner rest
          parts inner n (part.add set) rest
      | rest => do
        let (set, rest) ← readRange flags rest
        parts inner n (part.add set) rest

/-! ## §4. Repetitions -/

/-- A decimal number with blanks around it. -/
def readCount (flags : Flags) (cs : List Char) : Option Nat × List Char :=
  let cs := cs.dropWhile isBlank
  let digits := takeDigits (cs.length + 1) cs
  let rest := dropDigits (cs.length + 1) cs
  (if digits.isEmpty then none else some (digits.foldl (fun n c => 10 * n + (c.toNat - 48)) 0),
    rest.dropWhile isBlank)
where
  /-- The digits at the head of a text, with what does not count between them left out. -/
  takeDigits : Nat → List Char → List Char
    | 0, _ => []
    | _ + 1, [] => []
    | n + 1, c :: cs => if c.isDigit then c :: takeDigits n (skip flags cs) else []
  /-- The text after the digits at its head. -/
  dropDigits : Nat → List Char → List Char
    | 0, cs => cs
    | _ + 1, [] => []
    | n + 1, c :: cs => if c.isDigit then dropDigits n (skip flags cs) else c :: cs

/-- Counts have to be below this bound. -/
def countBound : Nat := 0x100000000

/-- The bounds of a repetition after the opening brace: the least and the greatest count. -/
def readBounds (flags : Flags) (cs : List Char) : Option (Nat × Option Nat × List Char) :=
  match readCount flags (skip flags cs) with
  | (some least, '}' :: rest) => bounded least (some least) rest
  | (some least, ',' :: rest) =>
    match skip flags rest with
    | '}' :: rest => bounded least none rest
    | rest =>
      match readCount flags rest with
      | (some most, '}' :: rest) => if least ≤ most then bounded least (some most) rest else none
      | _ => none
  | _ => none
where
  /-- The bounds, if they are small enough. -/
  bounded (least : Nat) (most : Option Nat) (rest : List Char) :
      Option (Nat × Option Nat × List Char) :=
    if least < countBound ∧ most.getD 0 < countBound then some (least, most, skip flags rest)
    else none

/-- A question mark after a repetition makes it lazy, which does not change what matches. -/
def skipLazy : List Char → List Char
  | '?' :: rest => rest
  | rest => rest

/-! ## §5. Groups -/

/-- Whether a character may stand in the name of a group. -/
def isGroupNameChar (first : Bool) (c : Char) : Bool :=
  if first then c == '_' || (isAlphanumeric c && !CharClass.has (.table decimalDigits) c &&
    !CharClass.has (.table otherNumbers) c)
  else c == '_' || c == '.' || c == '[' || c == ']' || isAlphanumeric c

/-- What an opening parenthesis opens. -/
inductive GroupHead
  /-- Flags for the rest of the group around. -/
  | flags (flags : Flags)
  | group (flags : Flags) (name : Option String)

/-- The name of a group, through its closing angle bracket. -/
def readGroupName (cs : List Char) : Option (String × List Char) :=
  let name := cs.takeWhile (· != '>')
  match name, cs.drop name.length with
  | c :: more, '>' :: rest =>
    if isGroupNameChar true c && more.all (isGroupNameChar false) then
      some (.ofList name, rest)
    else none
  | _, _ => none

/-- Reads what stands after an opening parenthesis. -/
def readGroupHead (flags : Flags) (cs : List Char) : Option (GroupHead × List Char) :=
  match skip flags cs with
  | '?' :: '=' :: _ | '?' :: '!' :: _ | '?' :: '<' :: '=' :: _ | '?' :: '<' :: '!' :: _ => none
  | '?' :: 'P' :: '<' :: rest | '?' :: '<' :: rest => do
    let (name, rest) ← readGroupName rest
    some (.group flags (some name), rest)
  | '?' :: rest => do
    match ← readFlags flags [] false rest with
    | (inner, _, ':', rest) => some (.group inner none, rest)
    | (after, seen, _, rest) => if seen.isEmpty then none else some (.flags after, rest)
  | rest => some (.group flags none, rest)

/-- The part of a group that is read: its flags, the alternatives that are complete, the items of
the last one from its end (a setting of flags is no item that can be repeated), and the names of all
groups so far. -/
structure GroupPart where
  flags : Flags
  alternatives : List Pattern
  items : List (Option Pattern)
  names : List String

namespace GroupPart

/-- A group in which nothing is read. -/
def start (flags : Flags) (names : List String) : GroupPart :=
  ⟨flags, [], [], names⟩

/-- Adds an item. -/
def add (part : GroupPart) (p : Pattern) : GroupPart :=
  { part with items := some p :: part.items }

/-- The last alternative. -/
def last (part : GroupPart) : Pattern :=
  part.items.foldl (fun after item => match item with
    | none => after
    | some p => .seq p after) .empty

/-- Starts another alternative. -/
def next (part : GroupPart) : GroupPart :=
  { part with alternatives := part.last :: part.alternatives, items := [] }

/-- The pattern of the group. -/
def close (part : GroupPart) : Pattern :=
  part.alternatives.foldl (fun p alternative => .alt alternative p) part.last

/-- Repeats the last item, which there must be. -/
def repeatLast? (part : GroupPart) (least : Nat) (most : Option Nat) : Option GroupPart :=
  match part.items with
  | some p :: items => some { part with items := some (.repeated p least most) :: items }
  | _ => none

end GroupPart

/-! ## §6. Patterns -/

/-- A character under the flags. -/
def literalPattern? (flags : Flags) (c : Char) : Option Pattern := do
  let c ← literal? flags c
  some (.char (finish flags false (.single c)))

/-- The dot under the flags.  Without Unicode it would match parts of characters. -/
def dot? (flags : Flags) : Option Pattern :=
  if !flags.unicode then none
  else if flags.dotAll then some (.char .any)
  else if flags.crlf then some (.char (.compl (.ofChars ['\r', '\n'])))
  else some (.char (.compl (.single '\n')))

/-- The start of a text or line under the flags. -/
def caret (flags : Flags) : Pattern :=
  .place <|
    if !flags.multiLine then .textStart else if flags.crlf then .lineStartCrlf else .lineStart

/-- The end of a text or line under the flags. -/
def dollar (flags : Flags) : Pattern :=
  .place (if !flags.multiLine then .textEnd else if flags.crlf then .lineEndCrlf else .lineEnd)

/-- How deep groups may be nested. -/
def nestLimit : Nat := 250

/-- Reads a group up to its closing parenthesis or to the end of the text.  The count `n` bounds the
steps, `depth` the groups inside. -/
def readGroup (depth : Nat) : Nat → GroupPart → List Char → Option (GroupPart × List Char)
  | 0, _, _ => none
  | n + 1, part, cs =>
    match skip part.flags cs with
    | [] => some (part, [])
    | ')' :: rest => some (part, ')' :: rest)
    | '|' :: rest => readGroup depth n part.next rest
    | '(' :: rest => do
      match ← readGroupHead part.flags rest with
      | (.flags flags, rest) =>
        readGroup depth n { part with flags := flags, items := none :: part.items } rest
      | (.group flags name, rest) =>
        if depth = 0 then none
        if name.any part.names.contains then none
        let (inner, rest) ← readGroup (depth - 1) n (.start flags (name.toList ++ part.names)) rest
        match rest with
        | ')' :: rest => readGroup depth n ({ part with names := inner.names }.add inner.close) rest
        | _ => none
    | '*' :: rest => do readGroup depth n (← part.repeatLast? 0 none) (skipLazy rest)
    | '+' :: rest => do readGroup depth n (← part.repeatLast? 1 none) (skipLazy rest)
    | '?' :: rest => do readGroup depth n (← part.repeatLast? 0 (some 1)) (skipLazy rest)
    | '{' :: rest => do
      if (part.repeatLast? 0 none).isNone then none
      let (least, most, rest) ← readBounds part.flags rest
      readGroup depth n (← part.repeatLast? least most) (skipLazy rest)
    | '[' :: rest => do
      let (set, rest) ← readSet part.flags (rest.length + 1) rest
      readGroup depth n (part.add (.char set)) rest
    | '\\' :: rest => do
      match ← readEscape part.flags rest with
      | (.literal c, rest) => readGroup depth n (part.add (← literalPattern? part.flags c)) rest
      | (.set set, rest) => readGroup depth n (part.add (.char set)) rest
      | (.place test, rest) => readGroup depth n (part.add (.place test)) rest
    | '.' :: rest => do readGroup depth n (part.add (← dot? part.flags)) rest
    | '^' :: rest => readGroup depth n (part.add (caret part.flags)) rest
    | '$' :: rest => readGroup depth n (part.add (dollar part.flags)) rest
    | c :: rest => do readGroup depth n (part.add (← literalPattern? part.flags c)) rest

/-- Reads a text as a pattern. -/
def parse? (source : List Char) : Option Pattern := do
  let (part, rest) ← readGroup nestLimit (source.length + 1) (.start .initial []) source
  let p := part.close
  if rest.isEmpty && p.weight ≤ weightLimit then some p else none

/-- The flags that may follow a pattern in delimiters. -/
def delimitedFlags : List Char := ['i', 'm', 's', 'x']

/-- Reads a text as a pattern that may be written between slashes, with flags after the last one. -/
def parseDelimited? (source : String) : Option Pattern :=
  match source.toList with
  | '/' :: cs =>
    if cs.contains '/' then
      let after := (cs.reverse.takeWhile (· != '/')).reverse
      let body := cs.take (cs.length - after.length - 1)
      let flags := after.filter delimitedFlags.contains
      parse? (if flags.isEmpty then body else '(' :: '?' :: flags ++ ')' :: body)
    else parse? ('/' :: cs)
  | cs => parse? cs

end Stencil.Pattern
