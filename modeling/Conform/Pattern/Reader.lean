import Conform.Pattern.Term
import Conform.Text.Blank
import Conform.Text.Recent

/-!
# Reading patterns

A pattern is a choice between sequences of items, each perhaps repeated. Every text is either read
whole or refused. There are no look-around groups and no references back to a group; both are
refused, as are unknown escapes, repetitions of nothing, counts out of order, ranges out of order
and anything left open.

While blanks are ignored, blanks and comments may stand between any two tokens.
-/

namespace Conform.Pattern.Reader

open Conform.Text (isBlank isAlphabetic isAlphanumeric)

abbrev Chars := List Char

/-- Drops blanks and comments. The first argument says whether a comment is being read. -/
def dropSpace : Bool → Chars → Chars
  | _, [] => []
  | true, c :: cs => dropSpace (c ≠ '\n') cs
  | false, c :: cs =>
    if isBlank c then dropSpace false cs
    else if c = '#' then dropSpace true cs
    else c :: cs

/-- Drops blanks and comments if they are ignored. -/
def skip (ignore : Bool) (cs : Chars) : Chars := if ignore then dropSpace false cs else cs

/-- The longest run of characters of a class, with what may stand between them left out. `fuel` is
at least the number of characters. -/
def collect (ignore : Bool) (p : Char → Bool) : Nat → Chars → Chars × Chars
  | 0, cs => ([], cs)
  | _, [] => ([], [])
  | fuel + 1, c :: cs =>
    if p c then
      let (ds, rest) := collect ignore p fuel (skip ignore cs)
      (c :: ds, rest)
    else ([], c :: cs)

def run (ignore : Bool) (p : Char → Bool) (cs : Chars) : Chars × Chars :=
  collect ignore p cs.length cs

def openBrace : Char := '\x7b'

def closeBrace : Char := '\x7d'

def countLimit : Nat := Nat.pow 2 32

/-- A number of repetitions, with blanks around it. -/
def readCount (ignore : Bool) (cs : Chars) : Option (Nat × Chars) :=
  let (ds, rest) := run ignore Char.isDigit (cs.dropWhile isBlank)
  let n := ds.foldl (fun n c => 10 * n + (c.toNat - '0'.toNat)) 0
  if ds.isEmpty ∨ countLimit ≤ n then none else some (n, skip ignore (rest.dropWhile isBlank))

/-- How often something is repeated, and whether few times are preferred to many. -/
structure Repetition where
  least : Nat
  most : Option Nat
  isLazy : Bool

/-- A question mark behind a repetition makes it lazy. -/
def takeLazy : Chars → Bool × Chars
  | '?' :: cs => (true, cs)
  | cs => (false, cs)

/-- The end of a counted repetition. -/
def closeCount (ignore : Bool) (least : Nat) (most : Option Nat) (cs : Chars) :
    Option (Repetition × Chars) :=
  match cs with
  | [] => none
  | c :: cs =>
    if c ≠ closeBrace ∨ most.any (· < least) then none
    else
      let (isLazy, rest) := takeLazy (skip ignore cs)
      some (⟨least, most, isLazy⟩, rest)

/-- What follows the opening brace of a counted repetition. -/
def readCounts (ignore : Bool) (cs : Chars) : Option (Repetition × Chars) :=
  match readCount ignore (skip ignore cs) with
  | none => none
  | some (least, ',' :: rest) =>
    match skip ignore rest with
    | [] => none
    | c :: rest =>
      if c = closeBrace then closeCount ignore least none (c :: rest)
      else
        match readCount ignore (c :: rest) with
        | none => none
        | some (most, rest) => closeCount ignore least (some most) rest
  | some (least, rest) => closeCount ignore least (some least) rest

def isMeta (c : Char) : Bool :=
  "\\.+*?()|[]^$#&-~".toList.contains c || c = openBrace || c = closeBrace

/-- Characters that a backslash leaves as they are. Letters and digits are kept for meanings of
their own, and so are angle brackets. -/
def isEscapable (c : Char) : Bool :=
  isMeta c || (c.toNat < 128 && !c.isAlphanum && c ≠ '<' && c ≠ '>')

def hexValue? (c : Char) : Option Nat :=
  if c.isDigit then some (c.toNat - '0'.toNat)
  else if 'a' ≤ c ∧ c ≤ 'f' then some (c.toNat - 'a'.toNat + 10)
  else if 'A' ≤ c ∧ c ≤ 'F' then some (c.toNat - 'A'.toNat + 10)
  else none

def charOfHex? (ds : Chars) : Option Char :=
  match ds.mapM hexValue? with
  | none => none
  | some ns =>
    let n := ns.foldl (fun n d => 16 * n + d) 0
    if n.isValidChar then some (Char.ofNat n) else none

/-- As many hexadecimal digits as asked for. -/
def takeHex (ignore : Bool) : Nat → Chars → Option (Chars × Chars)
  | 0, cs => some ([], cs)
  | n + 1, cs =>
    match skip ignore cs with
    | [] => none
    | c :: rest =>
      if (hexValue? c).isNone then none
      else (takeHex ignore n rest).map fun p => (c :: p.1, p.2)

/-- What follows the letter of a hexadecimal escape. -/
def readHex (ignore : Bool) (digits : Nat) (cs : Chars) : Option (Literal × Chars) :=
  match skip ignore cs with
  | [] => none
  | c :: rest =>
    if c = openBrace then
      let (ds, rest) := run ignore (· ≠ closeBrace) (skip ignore rest)
      if ds.isEmpty ∨ rest.isEmpty then none
      else (charOfHex? ds).map fun c => (⟨c, false⟩, skip ignore (rest.drop 1))
    else
      match takeHex ignore digits (c :: rest) with
      | none => none
      | some (ds, rest) => (charOfHex? ds).map fun c => (⟨c, digits = 2⟩, skip ignore rest)

/-- A name and what follows the first occurrence of `sep` in it. -/
def cut? (sep : Chars) : Chars → Option (Chars × Chars)
  | [] => none
  | c :: cs =>
    if sep.isPrefixOf (c :: cs) then some ([], (c :: cs).drop sep.length)
    else (cut? sep cs).map fun p => (c :: p.1, p.2)

/-- A query and whether it asks for the opposite. -/
def queryOf (name : Chars) : PropertyQuery × Bool :=
  let value (p : Chars × Chars) : PropertyQuery := .value (String.ofList p.1) (String.ofList p.2)
  match cut? ['!', '='] name with
  | some p => (value p, true)
  | none =>
    match cut? [':'] name with
    | some p => (value p, false)
    | none =>
      match cut? ['='] name with
      | some p => (value p, false)
      | none => (.name (String.ofList name), false)

/-- What follows the letter of a property. -/
def readProperty (ignore negated : Bool) (cs : Chars) : Option (Term × Chars) :=
  match skip ignore cs with
  | [] => none
  | c :: rest =>
    if c = openBrace then
      let (name, rest) := run ignore (· ≠ closeBrace) (skip ignore rest)
      if rest.isEmpty then none
      else
        let (q, opposite) := queryOf name
        some (.property q (negated != opposite), rest.drop 1)
    else if c = '\\' then none
    else some (.property (.name (String.ofList [c])) negated, skip ignore rest)

def boundaryNamed? (name : String) : Option Anchor :=
  if name = "start" then some .wordStart
  else if name = "end" then some .wordEnd
  else if name = "start-half" then some .wordStartHalf
  else if name = "end-half" then some .wordEndHalf
  else none

/-- What follows `\b`: perhaps the name of a boundary in braces. Braces that do not begin like a
name are left for a repetition. -/
def readBoundary (ignore : Bool) (cs : Chars) : Option (Term × Chars) :=
  let isNameChar (c : Char) : Bool := c.isAlpha || c = '-'
  match cs with
  | [] => some (.anchor .wordBoundary, [])
  | c :: rest =>
    if c ≠ openBrace then some (.anchor .wordBoundary, c :: rest)
    else
      match skip ignore rest with
      | [] => none
      | d :: inner =>
        if !isNameChar d then some (.anchor .wordBoundary, c :: rest)
        else
          let (name, after) := run ignore isNameChar (d :: inner)
          match after with
          | [] => none
          | e :: after =>
            if e ≠ closeBrace then none
            else (boundaryNamed? (String.ofList name)).map fun a => (.anchor a, after)

def shorthandClass? (c : Char) : Option (ShorthandClass × Bool) :=
  if c = 'd' then some (.digit, false)
  else if c = 'D' then some (.digit, true)
  else if c = 's' then some (.space, false)
  else if c = 'S' then some (.space, true)
  else if c = 'w' then some (.word, false)
  else if c = 'W' then some (.word, true)
  else none

def controlEscape? (c : Char) : Option Char :=
  if c = 'a' then some (Char.ofNat 7)
  else if c = 'f' then some (Char.ofNat 12)
  else if c = 't' then some '\t'
  else if c = 'n' then some '\n'
  else if c = 'r' then some '\r'
  else if c = 'v' then some (Char.ofNat 11)
  else none

def anchorEscape? (c : Char) : Option Anchor :=
  if c = 'A' then some .textStart
  else if c = 'z' then some .textEnd
  else if c = 'B' then some .noWordBoundary
  else if c = '<' then some .wordStart
  else if c = '>' then some .wordEnd
  else none

/-- What follows a backslash. -/
def readEscape (ignore : Bool) : Chars → Option (Term × Chars)
  | [] => none
  | c :: cs =>
    let literal (r : Option (Literal × Chars)) : Option (Term × Chars) :=
      r.map fun p => (.literal p.1, p.2)
    if c = 'x' then literal (readHex ignore 2 cs)
    else if c = 'u' then literal (readHex ignore 4 cs)
    else if c = 'U' then literal (readHex ignore 8 cs)
    else if c = 'p' then readProperty ignore false cs
    else if c = 'P' then readProperty ignore true cs
    else if c = 'b' then readBoundary ignore cs
    else
      match shorthandClass? c, controlEscape? c, anchorEscape? c with
      | some (k, negated), _, _ => some (.shorthand k negated, cs)
      | _, some d, _ => some (.literal ⟨d, false⟩, cs)
      | _, _, some a => some (.anchor a, cs)
      | _, _, _ => if isEscapable c then some (.literal ⟨c, false⟩, cs) else none

def asciiNames : List String :=
  ["alnum", "alpha", "ascii", "blank", "cntrl", "digit", "graph", "lower", "print", "punct",
    "space", "upper", "word", "xdigit"]

/-- A named class such as `[:alpha:]` after its bracket, if it is one. -/
def readAscii? (cs : Chars) : Option (ClassTerm × Chars) :=
  match cs with
  | ':' :: cs =>
    let (negated, cs) := match cs with
      | '^' :: r => (true, r)
      | r => (false, r)
    let name := String.ofList (cs.takeWhile (· ≠ ':'))
    match cs.dropWhile (· ≠ ':') with
    | ':' :: ']' :: rest =>
      if asciiNames.contains name then some (.ascii name negated, rest) else none
    | _ => none
  | _ => none

/-- One end of a range, or an item of its own. -/
def readItem (ignore : Bool) : Chars → Option (Term × Chars)
  | [] => none
  | c :: cs => if c = '\\' then readEscape ignore cs else some (.literal ⟨c, false⟩, cs)

def itemOf? : Term → Option ClassTerm
  | .literal l => some (.literal l)
  | .shorthand c negated => some (.shorthand c negated)
  | .property q negated => some (.property q negated)
  | _ => none

/-- What the next character seems to be if blanks are ignored, seen from far enough that a number
sign hides nothing but itself. -/
def glimpse (cs : Chars) : Option Char :=
  match cs.dropWhile isBlank with
  | '#' :: rest => (rest.dropWhile isBlank).head?
  | rest => rest.head?

/-- Whether a hyphen begins a range, seen from what follows it. -/
def opensRange (ignore : Bool) (cs : Chars) : Bool :=
  let next := if ignore then glimpse cs else cs.head?
  next ≠ some ']' && next ≠ some '-'

def readRange (ignore : Bool) (cs : Chars) : Option (ClassTerm × Chars) :=
  match readItem ignore cs with
  | none => none
  | some (first, rest) =>
    match skip ignore rest with
    | [] => none
    | c :: rest =>
      if c ≠ '-' ∨ !opensRange ignore rest then (itemOf? first).map fun t => (t, c :: rest)
      else
        match skip ignore rest with
        | [] => none
        | rest =>
          match first, readItem ignore rest with
          | .literal a, some (.literal b, rest) =>
            if a.char ≤ b.char then some (.range a b, rest) else none
          | _, _ => none

/-- Leading hyphens of a class, and then a closing bracket if no hyphen came, stand for themselves.
`fuel` is at least the number of characters. -/
def leadingItems (ignore : Bool) : Nat → List ClassTerm → Chars → Option (List ClassTerm × Chars)
  | 0, _, _ => none
  | fuel + 1, items, cs =>
    match skip ignore cs with
    | [] => none
    | c :: rest =>
      if c = '-' then leadingItems ignore fuel (.literal ⟨'-', false⟩ :: items) rest
      else if c = ']' ∧ items.isEmpty then
        match skip ignore rest with
        | [] => none
        | rest => some ([.literal ⟨']', false⟩], rest)
      else some (items, c :: rest)

/-- An operator between two sets, and the text after it. -/
def setOperator? : Chars → Option (SetOperator × Chars)
  | '&' :: '&' :: rest => some (.intersection, rest)
  | '-' :: '-' :: rest => some (.difference, rest)
  | '~' :: '~' :: rest => some (.symmetricDifference, rest)
  | _ => none

/-- The left side of an operator that waits for its right one, joined with it. -/
def combine (pending : Option (SetOperator × ClassTerm)) (items : List ClassTerm) : ClassTerm :=
  let right := ClassTerm.ofItems items.reverse
  match pending with
  | none => right
  | some (op, left) => .combined op left right

/-- The head of a class after its bracket: whether it is negated, and its leading items. -/
def openClass (ignore : Bool) (cs : Chars) : Option (Bool × List ClassTerm × Chars) :=
  match skip ignore cs with
  | [] => none
  | c :: rest =>
    if c = '^' then
      (leadingItems ignore (rest.length + 1) [] rest).map fun p => (true, p.1, p.2)
    else (leadingItems ignore (rest.length + 2) [] (c :: rest)).map fun p => (false, p.1, p.2)

/-- The rest of a class up to its closing bracket, with its items so far in reverse. -/
def readClass (ignore : Bool) : Nat → Option (SetOperator × ClassTerm) → List ClassTerm → Chars →
    Option (ClassTerm × Chars)
  | 0, _, _, _ => none
  | fuel + 1, pending, items, cs =>
    match skip ignore cs with
    | [] => none
    | c :: rest =>
      if c = ']' then some (combine pending items, rest)
      else if c = '[' then
        match readAscii? rest with
        | some (t, rest) => readClass ignore fuel pending (t :: items) rest
        | none =>
          match openClass ignore rest with
          | none => none
          | some (negated, inner, rest) =>
            match readClass ignore fuel none inner rest with
            | none => none
            | some (t, rest) =>
              readClass ignore fuel pending (.bracketed negated t :: items) rest
      else
        match setOperator? (c :: rest) with
        | some (op, rest) => readClass ignore fuel (some (op, combine pending items)) [] rest
        | none =>
          match readRange ignore (c :: rest) with
          | none => none
          | some (t, rest) => readClass ignore fuel pending (t :: items) rest

def flag? (c : Char) : Option Flag :=
  if c = 'i' then some .caseInsensitive
  else if c = 'm' then some .multiLine
  else if c = 's' then some .dotTakesNewline
  else if c = 'U' then some .swapGreed
  else if c = 'u' then some .unicode
  else if c = 'R' then some .returnLines
  else if c = 'x' then some .ignoreBlanks
  else none

/-- Flags up to a colon or a closing parenthesis, which is not taken. No flag stands twice, there
is at most one minus, and a flag follows it. -/
def readFlags : Bool → FlagChanges → Chars → Option (FlagChanges × Chars)
  | _, _, [] => none
  | on, read, c :: cs =>
    if c = ':' ∨ c = ')' then
      if !on ∧ (read.all (·.2)) then none else some (read.reverse, c :: cs)
    else if c = '-' then if on then readFlags false read cs else none
    else
      match flag? c with
      | none => none
      | some f => if read.any (·.1 = f) then none else readFlags on ((f, on) :: read) cs

inductive GroupHead where
  | flags (changes : FlagChanges)
  | group (g : Grouping)

def isNameStart (c : Char) : Bool := c = '_' || isAlphabetic c

def isNamePart (c : Char) : Bool :=
  c = '_' || c = '.' || c = '[' || c = ']' || isAlphanumeric c

def readName (cs : Chars) : Option (String × Chars) :=
  let name := cs.takeWhile (· ≠ '>')
  match name, cs.dropWhile (· ≠ '>') with
  | c :: more, _ :: rest =>
    if isNameStart c ∧ more.all isNamePart then some (String.ofList name, rest) else none
  | _, _ => none

/-- What follows an opening parenthesis, up to the inner pattern if there is one. -/
def readHead (ignore : Bool) (cs : Chars) : Option (GroupHead × Chars) :=
  let named (r : Chars) : Option (GroupHead × Chars) :=
    (readName r).map fun p => (.group (.captured (some p.1)), p.2)
  match skip ignore cs with
  | '?' :: '=' :: _ => none
  | '?' :: '!' :: _ => none
  | '?' :: '<' :: '=' :: _ => none
  | '?' :: '<' :: '!' :: _ => none
  | '?' :: 'P' :: '<' :: rest => named rest
  | '?' :: '<' :: rest => named rest
  | '?' :: rest =>
    match readFlags true [] rest with
    | none => none
    | some (changes, ')' :: rest) =>
      if changes.isEmpty then none else some (.flags changes, rest)
    | some (changes, rest) => some (.group (.scoped changes), rest.drop 1)
  | rest => some (.group (.captured none), rest)

def ignoresAfter (ignore : Bool) (changes : FlagChanges) : Bool :=
  match changes.find? (·.1 = .ignoreBlanks) with
  | some (_, on) => on
  | none => ignore

def ignoresWithin (ignore : Bool) : Grouping → Bool
  | .captured _ => ignore
  | .scoped changes => ignoresAfter ignore changes

/-- The item before a repetition sign, repeated. Nothing and a change of flags cannot be. -/
def repeatLast (items : List Term) (r : Repetition) : Option (List Term) :=
  match items with
  | [] => none
  | .flags _ :: _ => none
  | t :: ts => some (.repeated t r.least r.most r.isLazy :: ts)

def repetitionSign? (c : Char) : Option (Nat × Option Nat) :=
  if c = '?' then some (0, some 1)
  else if c = '*' then some (0, none)
  else if c = '+' then some (1, none)
  else none

def atom (c : Char) : Term :=
  if c = '.' then .dot
  else if c = '^' then .anchor .lineStart
  else if c = '$' then .anchor .lineEnd
  else .literal ⟨c, false⟩

/-- Reads up to the end or to a closing parenthesis, which is not taken, with the branches so far
and the items of the current branch in reverse. -/
def readTerm : Nat → Bool → List Term → List Term → Chars → Option (Term × Chars)
  | 0, _, _, _, _ => none
  | fuel + 1, ignore, branches, items, cs =>
    let closed := Term.ofBranches (Term.ofItems items.reverse :: branches).reverse
    match skip ignore cs with
    | [] => some (closed, [])
    | c :: rest =>
      if c = ')' then some (closed, c :: rest)
      else if c = '|' then readTerm fuel ignore (Term.ofItems items.reverse :: branches) [] rest
      else if c = '(' then
        match readHead ignore rest with
        | none => none
        | some (.flags changes, rest) =>
          readTerm fuel (ignoresAfter ignore changes) branches (.flags changes :: items) rest
        | some (.group g, rest) =>
          match readTerm fuel (ignoresWithin ignore g) [] [] rest with
          | some (inner, ')' :: rest) =>
            readTerm fuel ignore branches (.group g inner :: items) rest
          | _ => none
      else if c = '[' then
        match openClass ignore rest with
        | none => none
        | some (negated, first, rest) =>
          match readClass ignore (rest.length + 1) none first rest with
          | none => none
          | some (t, rest) => readTerm fuel ignore branches (.bracketed negated t :: items) rest
      else if c = openBrace then
        match readCounts ignore rest with
        | none => none
        | some (r, rest) =>
          match repeatLast items r with
          | none => none
          | some items => readTerm fuel ignore branches items rest
      else if c = '\\' then
        match readEscape ignore rest with
        | none => none
        | some (t, rest) => readTerm fuel ignore branches (t :: items) rest
      else
        match repetitionSign? c with
        | none => readTerm fuel ignore branches (atom c :: items) rest
        | some (least, most) =>
          let (isLazy, rest) := takeLazy rest
          match repeatLast items ⟨least, most, isLazy⟩ with
          | none => none
          | some items => readTerm fuel ignore branches items rest

/-- The deepest nesting that is read. -/
def depthLimit : Nat := 250

/-- The term that a text writes, if it is a pattern. Names of groups are used once. -/
def read? (text : String) : Option Term :=
  let cs := text.toList
  match readTerm (cs.length + 1) false [] [] cs with
  | some (t, []) => if depthLimit < t.depth ∨ !t.groupNames.Nodup then none else some t
  | _ => none

end Conform.Pattern.Reader
