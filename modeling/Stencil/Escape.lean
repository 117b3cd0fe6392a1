import Stencil.Value.Basic

/-!
Escaping for kinds of output.

For each kind of output there is a way to write every character so that it cannot be taken for
markup or code there.  Characters are escaped one by one, except that the kind `url` works on UTF-8
bytes.  A kind of output without a rule leaves the text as it is.
-/

namespace Stencil.Escape

/-! ## §1. Hexadecimal digits -/

/-- The upper-case hexadecimal digits of a number, at least `width` of them. -/
def hex (width n : Nat) : List Char :=
  let digits := (Nat.toDigits 16 n).map Char.toUpper
  List.replicate (width - digits.length) '0' ++ digits

/-! ## §2. The kinds of output -/

/-- A character of HTML text. -/
def htmlChar : Char → List Char
  | '&' => "&amp;".toList
  | '<' => "&lt;".toList
  | '>' => "&gt;".toList
  | '"' => "&quot;".toList
  | '\'' => "&#039;".toList
  | c => [c]

/-- Control characters. -/
def isControl (c : Char) : Bool :=
  c.toNat < 0x20 || (0x7F ≤ c.toNat && c.toNat < 0xA0)

/-- A character of an HTML attribute that may be without quotes.  Control characters have no form
there and are replaced. -/
def htmlAttrChar (c : Char) : List Char :=
  if c.isAlphanum || c == ',' || c == '-' || c == '.' || c == '_' then [c]
  else if c == '&' || c == '<' || c == '>' || c == '"' then htmlChar c
  else if isControl c && c != '\t' && c != '\n' && c != '\r' then "&#xFFFD;".toList
  else "&#x".toList ++ hex 2 c.toNat ++ [';']

/-- The UTF-16 code units of a character. -/
def utf16Units (c : Char) : List Nat :=
  let n := c.toNat
  if n < 0x10000 then [n]
  else [0xD800 + (n - 0x10000) / 0x400, 0xDC00 + (n - 0x10000) % 0x400]

/-- A character of a string in a script. -/
def jsChar (c : Char) : List Char :=
  if c.isAlphanum || c == ',' || c == '.' || c == '_' then [c]
  else if c == '\\' then ['\\', '\\']
  else if c == '/' then ['\\', '/']
  else if c == '\x08' then ['\\', 'b']
  else if c == '\x0c' then ['\\', 'f']
  else if c == '\n' then ['\\', 'n']
  else if c == '\r' then ['\\', 'r']
  else if c == '\t' then ['\\', 't']
  else (utf16Units c).flatMap fun unit => '\\' :: 'u' :: hex 4 unit

/-- A character of a style sheet. -/
def cssChar (c : Char) : List Char :=
  if c.isAlphanum then [c] else '\\' :: hex 1 c.toNat ++ [' ']

/-- A byte of a part of a URL. -/
def urlByte (b : UInt8) : List Char :=
  let c := Char.ofNat b.toNat
  if c.isAlphanum || c == '-' || c == '.' || c == '_' || c == '~' then [c]
  else '%' :: hex 2 b.toNat

/-- A text escaped for a kind of output. -/
def text (s context : String) : String :=
  match context with
  | "html" => .ofList (s.toList.flatMap htmlChar)
  | "html_attr" => .ofList (s.toList.flatMap htmlAttrChar)
  | "js" => .ofList (s.toList.flatMap jsChar)
  | "css" => .ofList (s.toList.flatMap cssChar)
  | "url" => .ofList (s.toUTF8.toList.flatMap urlByte)
  | _ => s

/-! ## §3. Values -/

/-- A value escaped for a kind of output, unless it is safe for it already. -/
def value {ω : Type} [HostObject ω] (v : Value ω) (context : String) : Value ω :=
  match v with
  | .safe s => if s.isSafeFor context then v else .safe ⟨text s.text context, .contexts [context]⟩
  | v => .safe ⟨text v.output context, .contexts [context]⟩

end Stencil.Escape
