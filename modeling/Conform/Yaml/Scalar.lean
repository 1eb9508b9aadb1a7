import Conform.Yaml.Place
import Conform.Yaml.Plain

/-!
# Reading YAML scalars

Plain scalars, quoted ones and blocks of text, each over as many lines as it takes. Lines are
folded: a line end is read as a blank, and where several line ends stand together the first is left
out. In a block of text this may be switched off.
-/

namespace Conform.Yaml

inductive ScalarStyle where
  | plain | quoted | literal | folded
  deriving DecidableEq

/-- What was passed over since the last character that counts. -/
inductive Gap where
  | blanks (cs : Chars)
  /-- The first line end, unless it is hidden by a backslash, and those after it, all in reverse. -/
  | breaks (first : Option Char) (more : Chars)

namespace Gap

def none : Gap := blanks []

def isLineEnd : Gap → Bool
  | blanks _ => false
  | breaks _ _ => true

/-- A blank or line end more. Blanks count only where no line has ended. -/
def push : Gap → Char → Gap
  | blanks cs, c => if isBreak c then breaks (some c) [] else blanks (c :: cs)
  | breaks first more, c => if isBreak c then breaks first (c :: more) else breaks first more

/-- What a gap is read as, in reverse. A first line end of Unicode is kept. -/
def folded : Gap → Chars
  | blanks cs => cs
  | breaks (some c) more =>
    if c ≠ '\n' then more ++ [c] else if more.isEmpty then [' '] else more
  | breaks .none more => more

end Gap

/-- Marks that end a scalar within brackets or braces. -/
def isFlowMark (c : Char) : Bool :=
  c = ',' || c = '[' || c = ']' || c = openBrace || c = closeBrace

/-- A scalar that was read, and the place behind it. -/
structure ReadScalar where
  text : String
  place : At
  /-- Whether lines end behind it, before the place. -/
  endsLine : Bool

def ReadScalar.of (read : Chars) (gap : Gap) (a : At) : ReadScalar :=
  ⟨String.ofList read.reverse, a, gap.isLineEnd⟩

/-- Whether the scalar ends at this place, which holds the character `c`, after a gap. -/
def endsPlainAfter (inFlow : Bool) (least : Int) (gap : Gap) (a : At) (c : Char) : Bool :=
  match gap with
  | .blanks [] => false
  | _ => (!inFlow && a.col < least) || a.isAnyMarker || c = '#'

/-- Whether the scalar ends before `c` whatever came before. -/
def endsPlain (inFlow : Bool) (c : Char) (cs : Chars) : Bool :=
  (c = ':' && atBlank cs) || (inFlow && isFlowMark c)

/-- The rest of a plain scalar, with what was read in reverse. Behind a line end nothing of it
stands further left than column `least`. -/
def readPlain (inFlow : Bool) (least : Int) : Chars → Gap → At → Chars → Option ReadScalar
  | read, gap, a, [] => some (.of read gap a)
  | read, gap, a, c :: cs =>
    if isBlank c then
      if c = '\t' ∧ gap.isLineEnd ∧ a.col < least then none
      else readPlain inFlow least read (gap.push c) a.next cs
    else if endsPlainAfter inFlow least gap a c then some (.of read gap a)
    else if inFlow ∧ c = ':' ∧ cs.head?.any fun d => isFlowMark d || d = '?' then none
    else if endsPlain inFlow c cs then some (.of read gap a)
    else readPlain inFlow least (c :: (gap.folded ++ read)) .none a.next cs

def hexChar? (ds : Chars) : Option Char :=
  match Plain.digits? 16 ds with
  | some n => if n.isValidChar then some (Char.ofNat n) else none
  | none => none

def simpleEscape? (c : Char) : Option Char :=
  ([('0', 0), ('a', 7), ('b', 8), ('t', 9), ('\t', 9), ('n', 10), ('v', 11), ('f', 12), ('r', 13),
    ('e', 27), (' ', 32), ('"', 34), ('/', 47), ('\\', 92), ('N', 0x85), ('_', 0xA0),
    ('L', 0x2028), ('P', 0x2029)] : List (Char × Nat)).lookup c |>.map Char.ofNat

/-- How many hexadecimal digits follow a letter. -/
def hexLength? (c : Char) : Option Nat :=
  if c = 'x' then some 2 else if c = 'u' then some 4 else if c = 'U' then some 8 else none

/-- What an escape names, and how long it is without its backslash. -/
def readEscape? (c : Char) (cs : Chars) : Option (Char × Nat) :=
  match hexLength? c with
  | some n =>
    if (cs.take n).length = n then (hexChar? (cs.take n)).map fun d => (d, n + 1) else none
  | none => (simpleEscape? c).map fun d => (d, 1)

/-- The rest of a scalar in quotes, with what was read in reverse. `fuel` is greater than the number
of characters. -/
def readQuoted (quote : Char) : Nat → Chars → Gap → At → Option ReadScalar
  | 0, _, _, _ => none
  | fuel + 1, read, gap, a =>
    match a.rest with
    | [] => none
    | c :: cs =>
      if isBlank c then readQuoted quote fuel read (gap.push c) a.next
      else if gap.isLineEnd ∧ a.isAnyMarker then none
      else
        let read := gap.folded ++ read
        if c = quote then
          if quote = '\'' ∧ cs.head? = some quote then
            readQuoted quote fuel (quote :: read) .none (a.skip 2)
          else some (.of read .none (a.skip 1))
        else if c = '\\' ∧ quote = '"' then
          match cs with
          | [] => none
          | d :: ds =>
            if isBreak d then readQuoted quote fuel read (.breaks .none []) (a.skip 1).next
            else
              match readEscape? d ds with
              | some (e, n) => readQuoted quote fuel (e :: read) .none (a.skip (n + 1))
              | none => none
        else readQuoted quote fuel (c :: read) .none a.next

/-- What becomes of the line ends behind a block. -/
inductive Chomping where
  | strip | clip | keep

def chomping? : Chars → Option Chomping
  | '-' :: _ => some .strip
  | '+' :: _ => some .keep
  | _ => none

/-- A number from one to nine. -/
def indentDigit? : Chars → Option Nat
  | c :: _ => if c.isDigit ∧ c ≠ '0' then some (c.toNat - '0'.toNat) else none
  | [] => none

/-- What stands behind the indicator of a block: how it ends and how deep it is, in either order. -/
def readBlockHead (a : At) : Chomping × Option Nat × At :=
  match chomping? a.rest, indentDigit? a.rest with
  | some c, _ =>
    match indentDigit? (a.skip 1).rest with
    | some n => (c, some n, a.skip 2)
    | none => (c, none, a.skip 1)
  | none, some n =>
    match chomping? (a.skip 1).rest with
    | some c => (c, some n, a.skip 2)
    | none => (.clip, some n, a.skip 1)
  | none, none => (.clip, none, a)

/-- Over empty lines, with their ends in reverse: up to column `indent` of a line that is not empty,
or to the end of its blanks if no column is given. Says also how far right a line began. -/
def emptyLines (indent : Option Nat) : Nat → Chars → At → Chars → Option (Nat × Chars × At)
  | widest, breaks, a, [] => some (max widest a.col, breaks, a)
  | widest, breaks, a, c :: cs =>
    let isIndent := indent.all (a.col < ·)
    if c = ' ' ∧ isIndent then emptyLines indent widest breaks a.next cs
    else if c = '\t' ∧ isIndent then none
    else if isBreak c then emptyLines indent (max widest a.col) (c :: breaks) a.next cs
    else some (max widest a.col, breaks, a)

/-- The end of the line before and the empty lines after it, in reverse, as they are read before a
line that does or does not begin with a blank. -/
def joinLines (style : ScalarStyle) (afterBlank : Bool) (first : Option Char) (more : Chars)
    (line : Chars) : Chars :=
  let isBlankLed := line.head?.any isSpace
  if style = .folded ∧ first = some '\n' ∧ !afterBlank ∧ !isBlankLed then
    if more.isEmpty then [' '] else more
  else more ++ first.toList

/-- The lines of a block at a column, with what was read in reverse, whether the line before began
with a blank, its end, and the ends of the empty lines since. `fuel` is greater than the number of
characters. -/
def readLines (style : ScalarStyle) (chomping : Chomping) (indent : Nat) :
    Nat → Chars → Bool → Option Char → Chars → At → Option ReadScalar
  | 0, _, _, _, _, _ => none
  | fuel + 1, read, afterBlank, first, more, a =>
    if a.col ≠ indent ∨ a.rest.isEmpty then
      let tail := match chomping with
        | .strip => []
        | .clip => first.toList
        | .keep => more ++ first.toList
      some (.of (tail ++ read) .none a)
    else
      let line := a.rest.takeWhile (!isBreak ·)
      let read := line.reverse ++ (joinLines style afterBlank first more line ++ read)
      let stop := a.skip line.length
      match emptyLines (some indent) 0 [] stop.next stop.next.rest with
      | none => none
      | some (_, breaks, a) =>
        readLines style chomping indent fuel read (line.head?.any isSpace) stop.rest.head? breaks a

/-- The block of text behind its indicator, within a block at column `outer`. Unless a depth is
given, the first line that is not empty gives it. -/
def readTextBlock (style : ScalarStyle) (outer : Int) (a : At) : Option ReadScalar :=
  let (chomping, depth, a) := readBlockHead a
  match a.lineEnd? with
  | none => none
  | some a =>
    let given := depth.map fun n => (max outer 0).toNat + n
    match emptyLines given 0 [] a a.rest with
    | none => none
    | some (widest, breaks, a) =>
      let indent := given.getD (max widest (max 1 (outer + 1).toNat))
      readLines style chomping indent (a.rest.length + 1) [] false none breaks a

end Conform.Yaml
