import Conform.Yaml.Label
import Conform.Yaml.Scalar

/-!
# YAML tokens

Marks, labels and scalars, and besides them the marks that nobody writes: where a block begins and
ends, as its indentation shows, and before a key, as the colon behind it shows. A key stands on one
line and is no longer than 1024 characters.
-/

namespace Conform.Yaml

inductive Token where
  | documentStart | documentEnd
  | directive (d : Directive)
  | sequenceStart | mappingStart | blockEnd
  | openBracket | closeBracket | openBrace | closeBrace
  | dash | comma
  | key | value
  | reference (name : String)
  | anchor (name : String)
  | tag (t : TagText)
  | scalar (text : String) (style : ScalarStyle)

/-- A token that may turn out to be a key: its number, where it begins, and whether it has to. -/
structure PossibleKey where
  number : Nat
  place : At
  isRequired : Bool

/-- A place with what is known of the text before it. -/
structure Lexer where
  place : At
  /-- The tokens so far in reverse, and how many there are. -/
  tokens : List Token
  count : Nat
  /-- Whether a key may begin here. -/
  allowed : Bool
  /-- What may be a key, for each open bracket or brace and for the block around them. -/
  keys : List (Option PossibleKey)
  /-- The columns of the open blocks. -/
  columns : List Nat

namespace Lexer

def start (cs : Chars) : Lexer := ⟨.start cs, [], 0, true, [none], []⟩

def inFlow (l : Lexer) : Bool := 1 < l.keys.length

/-- The column of the innermost block; what stands in no block stands right of it. -/
def column (l : Lexer) : Int :=
  match l.columns with
  | [] => -1
  | n :: _ => n

def push (l : Lexer) (t : Token) : Lexer :=
  { l with tokens := t :: l.tokens, count := l.count + 1 }

/-- Puts a token where the token with a number stands, before it. -/
def insert (l : Lexer) (number : Nat) (t : Token) : Lexer :=
  { l with tokens := l.tokens.insertIdx (l.count - number) t, count := l.count + 1 }

def moved (l : Lexer) (a : At) : Lexer := { l with place := a }

def allow (l : Lexer) (allowed : Bool) : Lexer := { l with allowed := allowed }

def setKey (l : Lexer) (k : Option PossibleKey) : Lexer := { l with keys := k :: l.keys.drop 1 }

/-- What might have been a key is none. -/
def dropKey? (l : Lexer) : Option Lexer :=
  match l.keys.head? with
  | some (some k) => if k.isRequired then none else some (l.setKey none)
  | _ => some l

/-- What begins here may be a key. In a block, what begins at its column has to be one. -/
def noteKey? (l : Lexer) : Option Lexer :=
  if !l.allowed then some l
  else
    let isRequired := !l.inFlow && l.column = l.place.col
    l.dropKey?.map fun l => l.setKey (some ⟨l.count, l.place, isRequired⟩)

def isStale (a : At) (k : PossibleKey) : Bool :=
  k.place.line < a.line || k.place.index + 1024 < a.index

/-- What is too far behind is no key any more. -/
def forgetKeys? (l : Lexer) : Option Lexer :=
  let forget (k : Option PossibleKey) : Option (Option PossibleKey) :=
    match k with
    | none => some none
    | some k =>
      if !isStale l.place k then some (some k) else if k.isRequired then none else some none
  (l.keys.mapM forget).map fun keys => { l with keys }

/-- Opens a block at a column, if it is further right than the innermost one. -/
def openBlock (l : Lexer) (col number : Nat) (t : Token) : Lexer :=
  if l.inFlow ∨ (col : Int) ≤ l.column then l
  else { l.insert number t with columns := col :: l.columns }

/-- Closes the blocks that are further right than a column. -/
def closeBlocks (l : Lexer) (col : Int) : Lexer :=
  if l.inFlow then l
  else
    let closed := l.columns.takeWhile fun n : Nat => col < n
    { l with
      tokens := List.replicate closed.length .blockEnd ++ l.tokens
      count := l.count + closed.length
      columns := l.columns.drop closed.length }

/-- A mark of `n` characters. -/
def mark (l : Lexer) (n : Nat) (t : Token) : Lexer := (l.push t).moved (l.place.skip n)

/-- What stands at the left edge, between documents. -/
def atEdge? (l : Lexer) : Option Lexer := (l.closeBlocks (-1)).dropKey?.map (·.allow false)

def documentMark? (l : Lexer) (t : Token) : Option Lexer := l.atEdge?.map (·.mark 3 t)

def directive? (l : Lexer) : Option Lexer :=
  match l.atEdge?, readDirective? (l.place.skip 1) with
  | some l, some (d, a) => some ((l.push (.directive d)).moved a)
  | _, _ => none

def opening? (l : Lexer) (t : Token) : Option Lexer :=
  l.noteKey?.map fun l => { (l.allow true).mark 1 t with keys := none :: l.keys }

def closing? (l : Lexer) (t : Token) : Option Lexer :=
  l.dropKey?.map fun l =>
    { (l.allow false).mark 1 t with keys := if l.inFlow then l.keys.drop 1 else l.keys }

def comma? (l : Lexer) : Option Lexer := l.dropKey?.map fun l => (l.allow true).mark 1 .comma

/-- A mark that opens a block unless it goes on with one. In a block it stands where a key may. -/
def blockMark? (l : Lexer) (opened : Token) : Option Lexer :=
  if l.inFlow then some l
  else if l.allowed then some (l.openBlock l.place.col l.count opened) else none

def dash? (l : Lexer) : Option Lexer :=
  match (l.blockMark? .sequenceStart).bind dropKey? with
  | some l => some ((l.allow true).mark 1 .dash)
  | none => none

def questionMark? (l : Lexer) : Option Lexer :=
  match (l.blockMark? .mappingStart).bind dropKey? with
  | some l => some ((l.allow !l.inFlow).mark 1 .key)
  | none => none

/-- A colon makes a key of what may be one. -/
def colon? (l : Lexer) : Option Lexer :=
  match l.keys.head? with
  | some (some k) =>
    let l := ((l.insert k.number .key).openBlock k.place.col k.number .mappingStart).setKey none
    some ((l.allow false).mark 1 .value)
  | _ => (l.blockMark? .mappingStart).map fun l => (l.allow !l.inFlow).mark 1 .value

def label? (l : Lexer) (read : At → Option (Token × At)) : Option Lexer :=
  match l.noteKey?, read l.place with
  | some l, some (t, a) => some (((l.allow false).push t).moved a)
  | _, _ => none

def scalar? (l : Lexer) (style : ScalarStyle) (read : At → Option ReadScalar) : Option Lexer :=
  match l.noteKey?, read l.place with
  | some l, some r => some (((l.allow r.endsLine).push (.scalar r.text style)).moved r.place)
  | _, _ => none

def quoted? (l : Lexer) (quote : Char) : Option Lexer :=
  l.scalar? .quoted fun a => readQuoted quote (a.rest.length + 1) [] .none (a.skip 1)

def plain? (l : Lexer) : Option Lexer :=
  l.scalar? .plain fun a => readPlain l.inFlow (l.column + 1) [] .none a a.rest

def textBlock? (l : Lexer) (style : ScalarStyle) : Option Lexer :=
  match l.dropKey?, readTextBlock style l.column (l.place.skip 1) with
  | some l, some r => some (((l.allow true).push (.scalar r.text style)).moved r.place)
  | _, _ => none

/-- Characters with a meaning of their own at the start of a scalar. -/
def isIndicator (c : Char) : Bool :=
  isFlowMark c || "-?:#&*!|>'\"%@".toList.contains c || c.toNat = 0x60

def beginsPlain (inFlow : Bool) (c : Char) (cs : Chars) : Bool :=
  (!isIndicator c && !isBlank c) || (c = '-' && !cs.head?.any isSpace)
    || (!inFlow && (c = '?' || c = ':') && !atBlank cs)

/-- The token that begins with the character `c`. -/
def token? (l : Lexer) (c : Char) (cs : Chars) : Option Lexer :=
  if l.place.col = 0 ∧ c = '%' then l.directive?
  else if l.place.isMarker '-' then l.documentMark? .documentStart
  else if l.place.isMarker '.' then l.documentMark? .documentEnd
  else if c = '[' then l.opening? .openBracket
  else if c = Yaml.openBrace then l.opening? .openBrace
  else if c = ']' then l.closing? .closeBracket
  else if c = Yaml.closeBrace then l.closing? .closeBrace
  else if c = ',' then l.comma?
  else if c = '-' ∧ atBlank cs then l.dash?
  else if c = '?' ∧ (l.inFlow ∨ atBlank cs) then l.questionMark?
  else if c = ':' ∧ (l.inFlow ∨ atBlank cs) then l.colon?
  else if c = '*' then
    l.label? fun a => (readAnchor? (a.skip 1)).map fun p => (.reference p.1, p.2)
  else if c = '&' then
    l.label? fun a => (readAnchor? (a.skip 1)).map fun p => (.anchor p.1, p.2)
  else if c = '!' then l.label? fun a => (readTag? l.inFlow a).map fun p => (.tag p.1, p.2)
  else if c = '|' ∧ !l.inFlow then l.textBlock? .literal
  else if c = '>' ∧ !l.inFlow then l.textBlock? .folded
  else if c = '\'' ∨ c = '"' then l.quoted? c
  else if beginsPlain l.inFlow c cs then l.plain?
  else none

/-- The place of the next token, with the blocks closed that it does not belong to. -/
def toNext? (l : Lexer) : Option Lexer :=
  let onset := nextOnset l.inFlow l.allowed l.place
  let l := { l with allowed := onset.allowed, place := onset.place }
  l.forgetKeys?.map fun l : Lexer => l.closeBlocks l.place.col

/-- The end of the text closes all blocks. -/
def finish? (l : Lexer) : Option (List Token) :=
  (l.closeBlocks (-1)).dropKey?.map fun l : Lexer => l.tokens.reverse

/-- The tokens from a place on. Each takes a character at least; `fuel` is greater than the number
of characters. -/
def run? : Nat → Lexer → Option (List Token)
  | 0, _ => none
  | fuel + 1, l =>
    match l.toNext? with
    | none => none
    | some l =>
      match l.place.rest with
      | [] => l.finish?
      | c :: cs =>
        match l.token? c cs with
        | none => none
        | some l => run? fuel l

end Lexer

/-- The tokens of a text. -/
def tokens? (text : String) : Option (List Token) :=
  let cs := unifyBreaks text.toList
  if cs.all isAllowed then Lexer.run? (cs.length + 1) (.start cs) else none

end Conform.Yaml
