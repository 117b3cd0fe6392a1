import Stencil.Proofs.Expr.Lexing
import Stencil.Number.Numeral
import Stencil.Template.Expr

/-!
Expressions as they are written.

A phrase is an expression tree in the form its text shows: numbers are digits, and what stands next
to an operator is an operand, which is a primary expression with attributes, subscripts, method
calls and filters after it.  So a phrase needs no parentheses but those of its groups, and
precedence has nothing to decide in it.

A phrase has a meaning, the tree without the places of its nodes, and a text, its words in a row
between the delimiters of a print.
-/

namespace Stencil

open Stencil.Text Stencil.Token

/-! ## §1. Phrases -/

/-- Whether a name is taken for a literal, in whatever case it is written. -/
def isLiteral (name : String) : Bool :=
  ["true", "false", "null", "none"].contains name.toLower

/-- A plain word that names a variable or a function. -/
structure FreeWord where
  word : PlainWord
  free : isLiteral word.text = false

mutual

/-- An expression that needs no parentheses next to an operator. -/
inductive Operand
  | name (name : FreeWord)
  | null
  | bool (value : Bool)
  | number (whole : Digits) (fraction : Option Digits)
  | string (text : String)
  | call (function : FreeWord) (args : List Phrase)
  | group (inner : Phrase)
  | array (items : List Phrase)
  | hash (entries : List (Key × Phrase))
  /-- An attribute after a dot. -/
  | attribute (object : Operand) (word : PlainWord)
  /-- An attribute in brackets. -/
  | subscript (object : Operand) (key : Phrase)
  | method (object : Operand) (word : PlainWord) (args : List Phrase)
  /-- A filter without a list of arguments. -/
  | filter (subject : Operand) (name : PlainWord)
  | filterCall (subject : Operand) (name : PlainWord) (args : List Phrase)

/-- An expression. -/
inductive Phrase
  | operand (operand : Operand)
  | unary (op : UnaryOp) (operand : Operand)
  | binary (op : BinaryOp) (left right : Operand)
  /-- A test, with a name of one or two words. -/
  | test (subject : Operand) (first : PlainWord) (second : Option PlainWord) (args : List Phrase)
  | conditional (cond : Operand) (whenTrue whenFalse : Phrase)

/-- A key of a hash. -/
inductive Key
  | string (text : String)
  | number (whole : Digits) (fraction : Option Digits)
  | group (inner : Phrase)

end

/-! ## §2. The tree of a phrase -/

/-- The number written in digits. -/
def numberOf (whole : Digits) (fraction : Option Digits) : Float :=
  Number.ofDigits whole.text.toList ((fraction.map (·.text.toList)).getD [])

/-- The name of a test from its words. -/
def testName (first : PlainWord) : Option PlainWord → String
  | none => first.text
  | some second => first.text ++ " " ++ second.text

mutual

/-- The tree of an operand; all its nodes are at the start of a source. -/
def Operand.expr : Operand → Expr
  | .name name => .name .start name.word.text
  | .null => .null .start
  | .bool value => .bool .start value
  | .number whole fraction => .number .start (numberOf whole fraction)
  | .string text => .string .start text
  | .call function args => .call .start function.word.text (Phrase.exprs args)
  | .group inner => .group .start inner.expr
  | .array items => .array .start (Phrase.exprs items)
  | .hash entries => .hash .start (Phrase.entryExprs entries)
  | .attribute object word => .attribute .start object.expr (.string .start word.text)
  | .subscript object key => .attribute .start object.expr key.expr
  | .method object word args =>
    .method .start object.expr (.string .start word.text) (Phrase.exprs args)
  | .filter subject name => .filter .start name.text [subject.expr]
  | .filterCall subject name args =>
    .filter .start name.text (subject.expr :: Phrase.exprs args)

/-- The tree of a phrase. -/
def Phrase.expr : Phrase → Expr
  | .operand operand => operand.expr
  | .unary op operand => .unary .start op operand.expr
  | .binary op left right => .binary .start op left.expr right.expr
  | .test subject first second args =>
    .test .start (testName first second) subject.expr (Phrase.exprs args)
  | .conditional cond whenTrue whenFalse =>
    .conditional .start cond.expr whenTrue.expr whenFalse.expr

/-- The tree of a key. -/
def Key.expr : Key → Expr
  | .string text => .string .start text
  | .number whole fraction => .number .start (numberOf whole fraction)
  | .group inner => .group .start inner.expr

/-- The trees of phrases. -/
def Phrase.exprs : List Phrase → List Expr
  | [] => []
  | phrase :: phrases => phrase.expr :: Phrase.exprs phrases

/-- The trees of the entries of a hash. -/
def Phrase.entryExprs : List (Key × Phrase) → List (Entry Expr)
  | [] => []
  | (key, value) :: entries =>
    ⟨.start, key.expr, value.expr⟩ :: Phrase.entryExprs entries

end

mutual

/-- An expression with all its nodes moved to the start of a source. -/
def Expr.unplaced : Expr → Expr
  | .name _ called => .name .start called
  | .null _ => .null .start
  | .bool _ value => .bool .start value
  | .number _ value => .number .start value
  | .string _ text => .string .start text
  | .call _ called args => .call .start called (Expr.unplacedAll args)
  | .filter _ called args => .filter .start called (Expr.unplacedAll args)
  | .test _ called subject args => .test .start called subject.unplaced (Expr.unplacedAll args)
  | .binary _ op left right => .binary .start op left.unplaced right.unplaced
  | .unary _ op operand => .unary .start op operand.unplaced
  | .group _ inner => .group .start inner.unplaced
  | .attribute _ object key => .attribute .start object.unplaced key.unplaced
  | .method _ object key args =>
    .method .start object.unplaced key.unplaced (Expr.unplacedAll args)
  | .conditional _ cond whenTrue whenFalse =>
    .conditional .start cond.unplaced whenTrue.unplaced whenFalse.unplaced
  | .hash _ entries => .hash .start (Expr.unplacedEntries entries)
  | .array _ items => .array .start (Expr.unplacedAll items)

/-- Expressions with all their nodes moved to the start of a source. -/
def Expr.unplacedAll : List Expr → List Expr
  | [] => []
  | e :: es => e.unplaced :: Expr.unplacedAll es

/-- Entries of a hash with all their nodes moved to the start of a source. -/
def Expr.unplacedEntries : List (Entry Expr) → List (Entry Expr)
  | [] => []
  | ⟨_, key, value⟩ :: entries =>
    ⟨.start, key.unplaced, value.unplaced⟩ :: Expr.unplacedEntries entries

end

@[simp] theorem Expr.pos_unplaced (e : Expr) : e.unplaced.pos = .start := by
  cases e <;> rw [Expr.unplaced, Expr.pos]

/-! ## §3. The words of a phrase -/

/-- Sequences of words with commas between them. -/
def commas : List (List Word) → List Word
  | [] => []
  | [item] => item
  | item :: next :: more => item ++ .mark ',' (by decide) :: commas (next :: more)

/-- Words in brackets. -/
def enclosed (bracket : Bracket) (words : List Word) : List Word :=
  .opening bracket :: words ++ [.closing bracket]

mutual

/-- The words of an operand. -/
def Operand.words : Operand → List Word
  | .name name => [.name name.word]
  | .null => [.name ⟨"null", by decide⟩]
  | .bool true => [.name ⟨"true", by decide⟩]
  | .bool false => [.name ⟨"false", by decide⟩]
  | .number whole fraction => [.number whole fraction]
  | .string text => [.quoted text]
  | .call function args => .name function.word :: enclosed .parens (commas (Phrase.allWords args))
  | .group inner => enclosed .parens inner.words
  | .array items => enclosed .array (commas (Phrase.allWords items))
  | .hash entries => enclosed .hash (commas (Phrase.entryWords entries))
  | .attribute object word => object.words ++ [.mark '.' (by decide), .name word]
  | .subscript object key => object.words ++ enclosed .array key.words
  | .method object word args =>
    object.words ++ .mark '.' (by decide) :: .name word ::
      enclosed .parens (commas (Phrase.allWords args))
  | .filter subject name => subject.words ++ [.mark '|' (by decide), .name name]
  | .filterCall subject name args =>
    subject.words ++ .mark '|' (by decide) :: .name name ::
      enclosed .parens (commas (Phrase.allWords args))

/-- The words of a phrase. -/
def Phrase.words : Phrase → List Word
  | .operand operand => operand.words
  | .unary op operand => .unary op :: operand.words
  | .binary op left right => left.words ++ .binary op :: right.words
  | .test subject first second args =>
    subject.words ++ .is :: .name first :: (second.map .name).toList ++
      enclosed .parens (commas (Phrase.allWords args))
  | .conditional cond whenTrue whenFalse =>
    cond.words ++ .mark '?' (by decide) :: whenTrue.words ++
      .mark ':' (by decide) :: whenFalse.words

/-- The words of a key. -/
def Key.words : Key → List Word
  | .string text => [.quoted text]
  | .number whole fraction => [.number whole fraction]
  | .group inner => enclosed .parens inner.words

/-- The words of each of several phrases. -/
def Phrase.allWords : List Phrase → List (List Word)
  | [] => []
  | phrase :: phrases => phrase.words :: Phrase.allWords phrases

/-- The words of each entry of a hash. -/
def Phrase.entryWords : List (Key × Phrase) → List (List Word)
  | [] => []
  | (key, value) :: entries =>
    (key.words ++ .mark ':' (by decide) :: value.words) :: Phrase.entryWords entries

end

/-- The text of a phrase in a print. -/
def Phrase.text (phrase : Phrase) : String :=
  printed phrase.words

/-! ## §4. The words of a phrase fit together -/

/-- Words that leave nothing open, whether or not an operator came before them. -/
def Rounded (words : List Word) : Prop :=
  ∀ brackets afterOperator, steps words (brackets, afterOperator) = some (brackets, false)

/-- Words that leave nothing open if no operator came before them. -/
def Closed (words : List Word) : Prop :=
  ∀ brackets, steps words (brackets, false) = some (brackets, false)

theorem Rounded.closed {words : List Word} (h : Rounded words) : Closed words :=
  fun brackets => h brackets false

theorem Rounded.append {words words' : List Word} (h : Rounded words) (h' : Closed words') :
    Rounded (words ++ words') := by
  intro brackets afterOperator
  rw [steps_append, h, Option.bind_some, h']

theorem Closed.append {words words' : List Word} (h : Closed words) (h' : Closed words') :
    Closed (words ++ words') := by
  intro brackets
  rw [steps_append, h, Option.bind_some, h']

/-- A name leaves nothing open, so that only the words after it count. -/
theorem Closed.name {words : List Word} (h : Closed words) (word : PlainWord) :
    Rounded (.name word :: words) :=
  fun brackets _ => h brackets

/-- A mark leaves nothing open either. -/
theorem Closed.mark {words : List Word} (h : Closed words) {c : Char} (isMark : c ∈ punctuation) :
    Closed (.mark c isMark :: words) :=
  fun brackets => h brackets

theorem Closed.enclosed {words : List Word} (h : Closed words) (bracket : Bracket) :
    Rounded (enclosed bracket words) := by
  intro brackets afterOperator
  simp [Stencil.enclosed, Word.step, h (bracket :: brackets)]

theorem closed_commas {items : List (List Word)} (h : ∀ item ∈ items, Closed item) :
    Closed (commas items) := by
  induction items with
  | nil => exact fun _ => rfl
  | cons item items ih =>
    obtain ⟨hitem, hmore⟩ := List.forall_mem_cons.mp h
    cases items with
    | nil => exact hitem
    | cons next more => exact hitem.append ((ih hmore).mark _)

mutual

theorem Operand.rounded_words : (operand : Operand) → Rounded operand.words
  | .name _ | .null | .bool true | .bool false | .number _ _ | .string _ => fun _ _ => rfl
  | .call function args =>
    ((closed_commas (Phrase.closed_allWords args)).enclosed .parens).closed.name function.word
  | .group inner => inner.closed_words.enclosed .parens
  | .array items => (closed_commas (Phrase.closed_allWords items)).enclosed .array
  | .hash entries => (closed_commas (Phrase.closed_entryWords entries)).enclosed .hash
  | .attribute object _ => object.rounded_words.append fun _ => rfl
  | .subscript object key => object.rounded_words.append (key.closed_words.enclosed .array).closed
  | .method object word args => by
    have hargs := (closed_commas (Phrase.closed_allWords args)).enclosed .parens
    exact object.rounded_words.append ((hargs.closed.name word).closed.mark _)
  | .filter subject _ => subject.rounded_words.append fun _ => rfl
  | .filterCall subject name args => by
    have hargs := (closed_commas (Phrase.closed_allWords args)).enclosed .parens
    exact subject.rounded_words.append ((hargs.closed.name name).closed.mark _)

theorem Phrase.closed_words : (phrase : Phrase) → Closed phrase.words
  | .operand operand => operand.rounded_words.closed
  | .unary op operand => by
    intro brackets
    rw [Phrase.words, steps_cons]
    exact operand.rounded_words brackets true
  | .binary op left right => by
    -- The right operand comes after an operator, which only rounded words may.
    intro brackets
    rw [Phrase.words, steps_append, left.rounded_words, Option.bind_some, steps_cons]
    exact right.rounded_words brackets true
  | .test subject first second args => by
    intro brackets
    have hargs := (closed_commas (Phrase.closed_allWords args)).enclosed .parens
    rw [Phrase.words, List.append_assoc, steps_append, subject.rounded_words, Option.bind_some]
    cases second <;> exact hargs brackets false
  | .conditional cond whenTrue whenFalse => by
    have hchoices :=
      whenTrue.closed_words.append (whenFalse.closed_words.mark (c := ':') (by decide))
    rw [Phrase.words, List.append_assoc]
    exact cond.rounded_words.closed.append (hchoices.mark _)

theorem Key.closed_words : (key : Key) → Closed key.words
  | .string _ | .number _ _ => fun _ => rfl
  | .group inner => (inner.closed_words.enclosed .parens).closed

theorem Phrase.closed_allWords : (phrases : List Phrase) →
    ∀ words ∈ Phrase.allWords phrases, Closed words
  | [] => nofun
  | phrase :: phrases =>
    List.forall_mem_cons.mpr ⟨phrase.closed_words, Phrase.closed_allWords phrases⟩

theorem Phrase.closed_entryWords : (entries : List (Key × Phrase)) →
    ∀ words ∈ Phrase.entryWords entries, Closed words
  | [] => nofun
  | (key, value) :: entries =>
    List.forall_mem_cons.mpr
      ⟨key.closed_words.append (value.closed_words.mark _), Phrase.closed_entryWords entries⟩

end

/-! ## §5. Lists of phrases -/

/-- The words of an entry of a hash. -/
def Phrase.wordsOfEntry (entry : Key × Phrase) : List Word :=
  entry.1.words ++ .mark ':' (by decide) :: entry.2.words

/-- The tree of an entry of a hash. -/
def Phrase.exprOfEntry (entry : Key × Phrase) : Entry Expr :=
  ⟨.start, entry.1.expr, entry.2.expr⟩

/-- An entry of a hash with all its nodes moved to the start of a source. -/
def Expr.unplacedEntry (entry : Entry Expr) : Entry Expr :=
  ⟨.start, entry.key.unplaced, entry.value.unplaced⟩

@[simp] theorem Phrase.allWords_eq (phrases : List Phrase) :
    Phrase.allWords phrases = phrases.map Phrase.words := by
  induction phrases with
  | nil => rfl
  | cons phrase phrases ih => rw [Phrase.allWords, ih, List.map_cons]

@[simp] theorem Phrase.exprs_eq (phrases : List Phrase) :
    Phrase.exprs phrases = phrases.map Phrase.expr := by
  induction phrases with
  | nil => rfl
  | cons phrase phrases ih => rw [Phrase.exprs, ih, List.map_cons]

@[simp] theorem Expr.unplacedAll_eq (es : List Expr) :
    Expr.unplacedAll es = es.map Expr.unplaced := by
  induction es with
  | nil => rfl
  | cons e es ih => rw [Expr.unplacedAll, ih, List.map_cons]

@[simp] theorem Phrase.entryWords_eq (entries : List (Key × Phrase)) :
    Phrase.entryWords entries = entries.map Phrase.wordsOfEntry := by
  induction entries with
  | nil => rfl
  | cons entry entries ih =>
    rw [Phrase.entryWords, ih, List.map_cons]
    rfl

@[simp] theorem Phrase.entryExprs_eq (entries : List (Key × Phrase)) :
    Phrase.entryExprs entries = entries.map Phrase.exprOfEntry := by
  induction entries with
  | nil => rfl
  | cons entry entries ih =>
    rw [Phrase.entryExprs, ih, List.map_cons]
    rfl

@[simp] theorem Expr.unplacedEntries_eq (entries : List (Entry Expr)) :
    Expr.unplacedEntries entries = entries.map Expr.unplacedEntry := by
  induction entries with
  | nil => rfl
  | cons entry entries ih =>
    rw [Expr.unplacedEntries, ih, List.map_cons]
    rfl

/-! ## §6. Beginnings and lengths -/

/-- Whether an operand may begin with a word. -/
def Word.startsOperand : Word → Bool
  | .name _ | .number _ _ | .quoted _ | .opening _ => true
  | _ => false

/-- Whether words begin as an operand does. -/
def StartsOperand (words : List Word) : Prop :=
  ∃ word more, words = word :: more ∧ word.startsOperand

theorem StartsOperand.append {words : List Word} (h : StartsOperand words) (more : List Word) :
    StartsOperand (words ++ more) := by
  obtain ⟨word, words, rfl, hstarts⟩ := h
  exact ⟨word, words ++ more, rfl, hstarts⟩

theorem Operand.startsOperand_words : (operand : Operand) → StartsOperand operand.words
  | .name _ | .null | .bool true | .bool false | .number _ _ | .string _ | .call _ _ | .group _
  | .array _ | .hash _ => ⟨_, _, rfl, rfl⟩
  | .attribute object _ | .subscript object _ | .method object _ _ | .filter object _
  | .filterCall object _ _ => object.startsOperand_words.append _

/-- The number of links of an operand: its attributes, subscripts, method calls and filters. -/
def Operand.links : Operand → Nat
  | .attribute operand _ | .subscript operand _ | .method operand _ _ | .filter operand _
  | .filterCall operand _ _ => operand.links + 1
  | _ => 0

theorem Operand.links_lt : (operand : Operand) → operand.links < operand.words.length
  | .name _ | .null | .bool true | .bool false | .number _ _ | .string _ | .call _ _ | .group _
  | .array _ | .hash _ => Nat.succ_pos _
  | .attribute object _ | .subscript object _ | .method object _ _ | .filter object _
  | .filterCall object _ _ => by
    have := object.links_lt
    simp only [Operand.links, Operand.words, List.length_append, List.length_cons, enclosed]
    omega

theorem length_le_commas {items : List (List Word)} {item : List Word} (h : item ∈ items) :
    item.length ≤ (commas items).length := by
  induction items with
  | nil => cases h
  | cons first items ih =>
    -- The last item has no comma after it.
    cases items with
    | nil =>
      cases List.mem_singleton.mp h
      exact Nat.le_refl _
    | cons second items =>
      simp only [commas, List.length_append, List.length_cons]
      rcases List.mem_cons.mp h with rfl | h
      · omega
      · have := ih h
        omega

theorem length_items_le_commas (items : List (List Word)) :
    items.length ≤ (commas items).length + 1 := by
  induction items with
  | nil => exact Nat.zero_le _
  | cons first items ih =>
    cases items with
    | nil => exact Nat.succ_le_succ (Nat.zero_le _)
    | cons second items =>
      simp only [commas, List.length_append, List.length_cons] at ih ⊢
      omega

theorem enclosed_append (bracket : Bracket) (words rest : List Word) :
    enclosed bracket words ++ rest = .opening bracket :: (words ++ .closing bracket :: rest) := by
  simp [enclosed]

theorem length_enclosed (bracket : Bracket) (words : List Word) :
    (enclosed bracket words).length = words.length + 2 := by
  simp [enclosed]

/-- The count that is enough for an argument list is enough for each argument. -/
theorem count_phrases {bracket : Bracket} {args : List Phrase} {n : Nat}
    (h : 2 * (enclosed bracket (commas (args.map Phrase.words))).length ≤ n) :
    (∀ arg ∈ args, 2 * arg.words.length + 2 ≤ n) ∧ args.length < n := by
  rw [length_enclosed] at h
  constructor
  · intro arg harg
    have := length_le_commas (List.mem_map_of_mem (f := Phrase.words) harg)
    omega
  · have := length_items_le_commas (args.map Phrase.words)
    rw [List.length_map] at this
    omega

/-- The count that is enough for a hash is enough for each key and each value. -/
theorem count_entries {entries : List (Key × Phrase)} {n : Nat}
    (h : 2 * (enclosed .hash (commas (entries.map Phrase.wordsOfEntry))).length ≤ n) :
    (∀ entry ∈ entries, 2 * entry.1.words.length ≤ n ∧ 2 * entry.2.words.length + 2 ≤ n) ∧
      entries.length < n := by
  rw [length_enclosed] at h
  constructor
  · intro entry hentry
    have := length_le_commas (List.mem_map_of_mem (f := Phrase.wordsOfEntry) hentry)
    simp only [Phrase.wordsOfEntry, List.length_append, List.length_cons] at this
    omega
  · have := length_items_le_commas (entries.map Phrase.wordsOfEntry)
    rw [List.length_map] at this
    omega

end Stencil
