import ContainerTasks.Text.Alphanumeric
import ContainerTasks.Text.Blank
import ContainerTasks.Text.Numeral

/-!
# Patterns

A filter may ask for the value of a field by a pattern, a regular expression. Values are never
matched here, since no record has such a field; what matters is which texts are patterns. A pattern
stands between braces and commas of a filter and behind an equals sign, so whatever needs a closing
brace, a comma or an equals sign, such as a repetition that is counted, cannot be written.

A text that has the form of a pattern may still be of no use. Characters are taken as Unicode
unless an option says that they are bytes. For Unicode there is no knowledge of the cases of
letters, of the shorthands for classes of characters, or of the edges of words; and taken as
bytes, a pattern must not fit what is no text.

## Main definitions

* `CharSet`, `Pattern`: patterns and the sets of characters in them
* `Pattern.read?`: the pattern that a text has the form of
* `Pattern.isUsable`: whether a pattern is of use
* `isPattern`
-/

namespace ContainerTasks

/-- A character in a pattern. -/
structure Symbol where
  char : Char
  /-- Whether it is written as a byte, by two digits. -/
  isByte : Bool

/-- A set of characters in brackets. -/
inductive CharSet where
  /-- The characters from one to another one, or only one character. -/
  | range (first last : Symbol)
  /-- The characters of a class with a name, or all others. -/
  | named (negated : Bool)
  /-- The characters of a class with a shorthand, or all others. -/
  | shorthand (negated : Bool)
  | union (parts : List CharSet)
  /-- The intersection or a difference of two sets. -/
  | combination (left right : CharSet)
  | bracketed (negated : Bool) (inner : CharSet)
  deriving Inhabited

/-- Options, each with whether it is switched on. -/
abbrev OptionChanges := List (Char × Bool)

/-- A pattern. -/
inductive Pattern where
  | nothing
  | symbol (s : Symbol)
  | anyChar
  /-- The beginning or the end, of a line or of everything. -/
  | edge
  /-- The beginning or the end of a word, or any other place. -/
  | wordEdge
  | shorthand (negated : Bool)
  | set (negated : Bool) (inner : CharSet)
  /-- Changes options for the rest of the group. -/
  | options (changes : OptionChanges)
  | repetition (p : Pattern)
  /-- A part in parentheses, with options of its own. -/
  | group (changes : OptionChanges) (p : Pattern)
  | sequence (ps : List Pattern)
  | choice (ps : List Pattern)
  deriving Inhabited

/-! ### Reading -/

namespace Pattern

/-- Takes blanks and comments off the front, if they do not count. -/
def skipBlanks (ignored : Bool) (cs : List Char) : List Char :=
  if ignored then skip false cs else cs
where
  /-- Takes blanks and comments off the front. -/
  skip : Bool → List Char → List Char
    | _, [] => []
    | true, c :: rest => skip (c ≠ '\n') rest
    | false, c :: rest =>
      if isBlank c then skip false rest else if c = '#' then skip true rest else c :: rest

/-- The next character that counts. Of a comment only the mark at its beginning is passed over. -/
def nextSymbol? (ignored : Bool) (cs : List Char) : Option Char :=
  if !ignored then cs.head?
  else
    match cs.dropWhile isBlank with
    | '#' :: rest => (rest.dropWhile isBlank).head?
    | rest => rest.head?

/-- Reads so many hexadecimal digits. -/
def hexDigits? (ignored : Bool) : Nat → List Char → Option (List Char × List Char)
  | 0, cs => some ([], cs)
  | _, [] => none
  | count + 1, c :: rest => do
    let _ ← digitValue? 16 c
    let (digits, rest) ← hexDigits? ignored count (skipBlanks ignored rest)
    return (c :: digits, rest)

/-- Whether a character stands for itself behind a backslash. -/
def isEscapable (c : Char) : Bool :=
  c.toNat < 0x80 && !c.isAlphanum && c ≠ '<' && c ≠ '>'

/-- Reads an escape, past its backslash. -/
def escape? (ignored : Bool) : List Char → Option (Pattern × List Char)
  | [] => none
  | c :: rest =>
    match c with
    | 'x' => numbered 2 rest
    | 'u' => numbered 4 rest
    | 'U' => numbered 8 rest
    | 'd' | 's' | 'w' => some (.shorthand false, rest)
    | 'D' | 'S' | 'W' => some (.shorthand true, rest)
    | 'a' => some (.symbol ⟨'\x07', false⟩, rest)
    | 'f' => some (.symbol ⟨'\x0c', false⟩, rest)
    | 't' => some (.symbol ⟨'\t', false⟩, rest)
    | 'n' => some (.symbol ⟨'\n', false⟩, rest)
    | 'r' => some (.symbol ⟨'\r', false⟩, rest)
    | 'v' => some (.symbol ⟨'\x0b', false⟩, rest)
    | 'A' | 'z' => some (.edge, rest)
    | 'b' | 'B' | '<' | '>' => some (.wordEdge, rest)
    | _ => if isEscapable c then some (.symbol ⟨c, false⟩, rest) else none
where
  /-- The character whose code point is written with so many digits. -/
  numbered (count : Nat) (cs : List Char) : Option (Pattern × List Char) := do
    let (digits, rest) ← hexDigits? ignored count (skipBlanks ignored cs)
    let n ← ofDigits? 16 digits
    if n.isValidChar then some (.symbol ⟨Char.ofNat n, count = 2⟩, rest) else none

/-- Reads one item of a set. -/
def setItem? (ignored : Bool) : List Char → Option (Pattern × List Char)
  | [] => none
  | '\\' :: rest => escape? ignored rest
  | c :: rest => some (.symbol ⟨c, false⟩, rest)

/-- An item of a set that is no part of a range, as a set. -/
def setOfItem? : Pattern → Option CharSet
  | .symbol s => some (.range s s)
  | .shorthand negated => some (.shorthand negated)
  | _ => none

/-- Reads a range, or an item by itself. -/
def setRange? (ignored : Bool) (cs : List Char) : Option (CharSet × List Char) := do
  let (first, rest) ← setItem? ignored cs
  match skipBlanks ignored rest with
  | [] => none
  | '-' :: rest =>
    let next := nextSymbol? ignored rest
    if next = some ']' ∨ next = some '-' then return (← setOfItem? first, '-' :: rest)
    let (last, rest) ← setItem? ignored (skipBlanks ignored rest)
    match first, last with
    | .symbol first, .symbol last =>
      if first.char ≤ last.char then some (.range first last, rest) else none
    | _, _ => none
  | rest => return (← setOfItem? first, rest)

/-- The names of classes of characters. -/
def classNames : List String :=
  ["alnum", "alpha", "ascii", "blank", "cntrl", "digit", "graph", "lower", "print", "punct",
    "space", "upper", "word", "xdigit"]

/-- Reads the name of a class, past the bracket in front of it. -/
def namedClass? (cs : List Char) : Option (CharSet × List Char) := do
  let (negated, name) ←
    match cs with
    | ':' :: '^' :: rest => some (true, rest)
    | ':' :: rest => some (false, rest)
    | _ => none
  let found ← classNames.find? fun word => (word.toList ++ [':', ']']).isPrefixOf name
  return (.named negated, name.drop (found.length + 2))

/-- A set from what stands behind its last operator and what stands before. -/
def joinSets (before : Option CharSet) (parts : List CharSet) : CharSet :=
  match before with
  | none => .union parts.reverse
  | some left => .combination left (.union parts.reverse)

/-- Reads a set to its closing bracket, from behind its opening one; `bound` limits the number of
items. Hyphens at the front stand for themselves, and so does a closing bracket there. -/
def set? (ignored : Bool) : Nat → List Char → Option (Bool × CharSet × List Char)
  | 0, _ => none
  | bound + 1, cs => do
    let (negated, cs) :=
      match skipBlanks ignored cs with
      | '^' :: rest => (true, skipBlanks ignored rest)
      | cs => (false, cs)
    let (hyphens, cs) := leading (cs.length + 1) cs
    let (parts, cs) :=
      match hyphens, cs with
      | [], ']' :: rest => ([symbolSet ']'], rest)
      | _, _ => (hyphens, cs)
    let (inner, rest) ← items bound none parts cs
    return (negated, inner, rest)
where
  /-- The set of one character. -/
  symbolSet (c : Char) : CharSet := .range ⟨c, false⟩ ⟨c, false⟩
  /-- Takes hyphens off the front. -/
  leading : Nat → List Char → List CharSet × List Char
    | bound + 1, '-' :: rest =>
      let (hyphens, rest) := leading bound (skipBlanks ignored rest)
      (symbolSet '-' :: hyphens, rest)
    | _, cs => ([], cs)
  /-- Reads items, newest first, and operators. -/
  items : Nat → Option CharSet → List CharSet → List Char → Option (CharSet × List Char)
    | 0, _, _, _ => none
    | bound + 1, before, parts, cs =>
      match skipBlanks ignored cs with
      | [] => none
      | ']' :: rest => some (joinSets before parts, rest)
      | '[' :: rest =>
        match namedClass? rest with
        | some (part, rest) => items bound before (part :: parts) rest
        | none => do
          let (negated, inner, rest) ← set? ignored bound rest
          items bound before (.bracketed negated inner :: parts) rest
      | '&' :: '&' :: rest | '-' :: '-' :: rest | '~' :: '~' :: rest =>
        items bound (some (joinSets before parts)) [] rest
      | cs => do
        let (part, rest) ← setRange? ignored cs
        items bound before (part :: parts) rest

/-- The letters of options. -/
def optionLetters : List Char := ['i', 'm', 's', 'U', 'u', 'R', 'x']

/-- Reads changes of options to the character behind them. A hyphen switches off what comes behind
it, which cannot be nothing, and no option is changed twice. -/
def optionChanges? (done : OptionChanges) (on : Bool) :
    List Char → Option (OptionChanges × List Char)
  | [] => none
  | c :: rest =>
    if c = ':' ∨ c = ')' then some (done, c :: rest)
    else if c = '-' then
      if !on || rest.head? = some ':' || rest.head? = some ')' then none
      else optionChanges? done false rest
    else if optionLetters.contains c && done.all fun (letter, _) => letter ≠ c then
      optionChanges? (done ++ [(c, on)]) on rest
    else none

/-- Whether the name of a group can go on with a character. -/
def isNameCharacter (first : Bool) (c : Char) : Bool :=
  c = '_' ||
    if first then isAlphabetic c else c = '.' || c = '[' || c = ']' || isAlphanumeric c

/-- Reads the rest of the name of a group, to the bracket that ends it. -/
def groupName? (first : Bool) : List Char → Option (List Char × List Char)
  | [] => none
  | c :: rest =>
    if c = '>' then if first then none else some ([], rest)
    else do
      guard (isNameCharacter first c)
      let (name, rest) ← groupName? false rest
      return (c :: name, rest)

/-- What a parenthesis opens. -/
inductive Opening where
  /-- No group at all, but changes of options. -/
  | options (changes : OptionChanges)
  | group (changes : OptionChanges) (name : Option (List Char))

/-- Reads what a parenthesis opens, past it. Groups that look ahead or behind are no part of
patterns. -/
def opening? (cs : List Char) : Option (Opening × List Char) :=
  match cs with
  | '?' :: 'P' :: '<' :: rest => named rest
  | '?' :: '<' :: rest => if rest.head? = some '!' then none else named rest
  | '?' :: rest => do
    let (changes, rest) ← optionChanges? [] true rest
    if rest.head? = some ':' then return (.group changes none, rest.drop 1)
    else if changes.isEmpty then none
    else return (.options changes, rest.drop 1)
  | _ => some (.group [] none, cs)
where
  /-- A group with a name. -/
  named (cs : List Char) : Option (Opening × List Char) :=
    (groupName? true cs).map fun (name, rest) => (.group [] (some name), rest)

/-- Items one after the other, from the newest to the oldest. -/
def ofItems : List Pattern → Pattern
  | [] => .nothing
  | [p] => p
  | ps => .sequence ps.reverse

/-- The alternatives of a group, from the newest to the oldest; of the last one the items. -/
def ofBranches (branches items : List Pattern) : Pattern :=
  if branches.isEmpty then .ofItems items else .choice (.ofItems items :: branches).reverse

/-- Reads a group to its end, which is the end of everything or a closing parenthesis; `bound`
limits the number of items, `names` are those of the groups before, and `branches` and `items`
what has been read of the group, newest first. -/
def body? (bound : Nat) (ignored : Bool) (names : List (List Char))
    (branches items : List Pattern) (cs : List Char) :
    Option (Pattern × List (List Char) × List Char) :=
  match bound with
  | 0 => none
  | bound + 1 =>
    let next (p : Pattern) (rest : List Char) :=
      body? bound ignored names branches (p :: items) rest
    match skipBlanks ignored cs with
    | [] => some (.ofBranches branches items, names, [])
    | ')' :: rest => some (.ofBranches branches items, names, ')' :: rest)
    | '|' :: rest => body? bound ignored names (.ofItems items :: branches) [] rest
    | '(' :: rest => do
      match ← opening? (skipBlanks ignored rest) with
      | (.options changes, rest) =>
        body? bound ((changes.lookup 'x').getD ignored) names branches
          (.options changes :: items) rest
      | (.group changes name, rest) =>
        guard (name.all fun name => !names.contains name)
        let (inner, names, rest) ←
          body? bound ((changes.lookup 'x').getD ignored) (name.toList ++ names) [] [] rest
        guard (!rest.isEmpty)
        body? bound ignored names branches (.group changes inner :: items) (rest.drop 1)
    | '[' :: rest => do
      let (negated, inner, rest) ← set? ignored (2 * rest.length + 2) rest
      next (.set negated inner) rest
    | '\x7b' :: _ => none
    | '\\' :: rest => do
      let (p, rest) ← escape? ignored rest
      next p rest
    | '.' :: rest => next .anyChar rest
    | '^' :: rest | '$' :: rest => next .edge rest
    | c :: rest =>
      if c = '*' ∨ c = '+' ∨ c = '?' then
        match items with
        | [] | .options _ :: _ => none
        | p :: items =>
          body? bound ignored names branches (.repetition p :: items)
            (if rest.head? = some '?' then rest.drop 1 else rest)
      else next (.symbol ⟨c, false⟩) rest

/-- The pattern that a text has the form of. -/
def read? (cs : List Char) : Option Pattern :=
  match body? (cs.length + 1) false [] [] [] cs with
  | some (p, _, []) => some p
  | _ => none

end Pattern

/-! ### Use -/

mutual
/-- How far a set is nested. -/
def CharSet.depth : CharSet → Nat
  | .range .. | .named _ | .shorthand _ => 0
  | .union parts => if parts.length ≤ 1 then depthOfAll parts else 1 + depthOfAll parts
  | .combination left right => 1 + max left.depth right.depth
  | .bracketed _ inner => 1 + inner.depth

/-- How far the deepest of some sets is nested. -/
def CharSet.depthOfAll : List CharSet → Nat
  | [] => 0
  | s :: rest => max s.depth (depthOfAll rest)
end

mutual
/-- Whether each part that a set is made of satisfies a condition. -/
def CharSet.all (p : CharSet → Bool) : CharSet → Bool
  | .union parts => allInAll p parts
  | .combination left right => left.all p && right.all p
  | .bracketed negated inner => p (.bracketed negated inner) && inner.all p
  | s => p s

/-- Whether each part that some sets are made of satisfies a condition. -/
def CharSet.allInAll (p : CharSet → Bool) : List CharSet → Bool
  | [] => true
  | s :: rest => s.all p && allInAll p rest
end

/-- The options that matter for what a pattern is of use for. -/
structure PatternOptions where
  ignoresCase : Bool
  isUnicode : Bool

namespace PatternOptions

/-- The options at the beginning. -/
def standard : PatternOptions := ⟨false, true⟩

/-- The options after changes. -/
def change (o : PatternOptions) (changes : OptionChanges) : PatternOptions :=
  ⟨(changes.lookup 'i').getD o.ignoresCase, (changes.lookup 'u').getD o.isUnicode⟩

/-- Whether a character is of use. -/
def allowsSymbol (o : PatternOptions) (s : Symbol) : Bool :=
  if o.isUnicode then !o.ignoresCase else !s.isByte || s.char.toNat < 0x80

/-- Whether a part of a set is of use. -/
def allowsPart (o : PatternOptions) : CharSet → Bool
  | .range first last =>
    if o.isUnicode then !o.ignoresCase else first.char.toNat < 0x80 && last.char.toNat < 0x80
  | .named negated => if o.isUnicode then !o.ignoresCase else !negated
  | .shorthand negated => !o.isUnicode && !negated
  | .bracketed negated _ => o.isUnicode || !negated
  | .union _ | .combination .. => true

/-- Whether a set is of use. -/
def allowsSet (o : PatternOptions) (negated : Bool) (inner : CharSet) : Bool :=
  (CharSet.bracketed negated inner).all o.allowsPart

end PatternOptions

namespace Pattern

mutual
/-- How far a pattern is nested. -/
def depth : Pattern → Nat
  | .set _ inner => 1 + inner.depth
  | .repetition p | .group _ p => 1 + p.depth
  | .sequence ps | .choice ps => 1 + depthOfAll ps
  | _ => 0

/-- How far the deepest of some patterns is nested. -/
def depthOfAll : List Pattern → Nat
  | [] => 0
  | p :: rest => max p.depth (depthOfAll rest)
end

mutual
/-- The options behind a pattern, if everything in it is of use. -/
def after? (o : PatternOptions) : Pattern → Option PatternOptions
  | .nothing | .edge => some o
  | .symbol s => if o.allowsSymbol s then some o else none
  | .anyChar => if o.isUnicode then some o else none
  | .wordEdge => if o.isUnicode then none else some o
  | .shorthand negated => if o.allowsPart (.shorthand negated) then some o else none
  | .set negated inner => if o.allowsSet negated inner then some o else none
  | .options changes => some (o.change changes)
  | .repetition p => after? o p
  | .group changes p => (after? (o.change changes) p).map fun _ => o
  | .sequence ps | .choice ps => afterAll? o ps

/-- The options behind patterns one after the other, if everything in them is of use. -/
def afterAll? (o : PatternOptions) : List Pattern → Option PatternOptions
  | [] => some o
  | p :: rest => (after? o p).bind fun o => afterAll? o rest
end

/-- How far a pattern may be nested. -/
def maxDepth : Nat := 250

/-- Whether a pattern is of use. -/
def isUsable (p : Pattern) : Bool := p.depth ≤ maxDepth && (after? .standard p).isSome

end Pattern

/-- Whether a text is a pattern that is of use. -/
def isPattern (cs : List Char) : Bool := (Pattern.read? cs).any Pattern.isUsable

end ContainerTasks
