/-!
# Places in a YAML text

Lines, blanks and comments. A line may be ended by a carriage return, a line feed, both or one of
the three line ends of Unicode; the first four are the same line feed wherever they are kept.
-/

namespace Conform.Yaml

abbrev Chars := List Char

/-- Line ends that are read as a line feed are made one. -/
def unifyBreaks : Chars → Chars
  | [] => []
  | '\r' :: '\n' :: cs => '\n' :: unifyBreaks cs
  | c :: cs => (if c = '\r' ∨ c.toNat = 0x85 then '\n' else c) :: unifyBreaks cs

def isBreak (c : Char) : Bool := c = '\n' || c.toNat = 0x2028 || c.toNat = 0x2029

def isSpace (c : Char) : Bool := c = ' ' || c = '\t'

def isBlank (c : Char) : Bool := isSpace c || isBreak c

def isByteOrderMark (c : Char) : Bool := c.toNat = 0xFEFF

/-- Whether a character may stand in a text. -/
def isAllowed (c : Char) : Bool :=
  let n := c.toNat
  isSpace c || c = '\n' || (0x20 ≤ n && n ≤ 0x7E) || (0xA0 ≤ n && n ≠ 0xFFFE && n ≠ 0xFFFF)

/-- Whether nothing stands here that could go on with what came before. -/
def atBlank : Chars → Bool
  | [] => true
  | c :: _ => isBlank c

def openBrace : Char := '\x7b'

def closeBrace : Char := '\x7d'

/-- A place in a text: what follows, and how much came before. -/
structure At where
  rest : Chars
  index : Nat
  line : Nat
  col : Nat

namespace At

def start (cs : Chars) : At := ⟨cs, 0, 0, 0⟩

/-- The place behind the next `n` characters, none of which ends the line. -/
def skip (a : At) (n : Nat) : At := { a with
  rest := a.rest.drop n
  index := a.index + n
  col := a.col + n }

/-- The place behind the end of the line. -/
def skipBreak (a : At) : At := ⟨a.rest.drop 1, a.index + 1, a.line + 1, 0⟩

/-- The place behind a character. -/
def next (a : At) : At :=
  match a.rest with
  | [] => a
  | c :: _ => if isBreak c then a.skipBreak else a.skip 1

/-- The place behind all characters of a class. The class has no line ends in it. -/
def skipWhile (a : At) (p : Char → Bool) : At := a.skip (a.rest.takeWhile p).length

/-- Whether a line begins here with three times the same mark and nothing right behind it. -/
def isMarker (a : At) (mark : Char) : Bool :=
  a.col = 0 && (List.replicate 3 mark).isPrefixOf a.rest && atBlank (a.rest.drop 3)

def isAnyMarker (a : At) : Bool := a.isMarker '-' || a.isMarker '.'

/-- Behind the blanks and the comment that may stand at the end of a line, and behind its end. -/
def lineEnd? (a : At) : Option At :=
  let a := a.skipWhile isSpace
  let a := if a.rest.head? = some '#' then a.skipWhile (!isBreak ·) else a
  match a.rest with
  | [] => some a
  | c :: _ => if isBreak c then some a.skipBreak else none

end At

/-- Where a token may begin: whether a key may, and the place. -/
structure Onset where
  allowed : Bool
  place : At

/-- Over blanks, comments and line ends. The first argument says whether a comment is being read.
In a block a key may begin on each new line, and while it may, a tab is not skipped. A line may
begin with a byte order mark. -/
def onsetFrom (inFlow : Bool) : Bool → Bool → At → Chars → Onset
  | _, allowed, a, [] => ⟨allowed, a⟩
  | inComment, allowed, a, c :: cs =>
    if isBreak c then onsetFrom inFlow false (allowed || !inFlow) a.next cs
    else if inComment then onsetFrom inFlow true allowed a.next cs
    else if c = ' ' ∨ (c = '\t' ∧ (inFlow ∨ !allowed)) ∨ (isByteOrderMark c ∧ a.col = 0) then
      onsetFrom inFlow false allowed a.next cs
    else if c = '#' then onsetFrom inFlow true allowed a.next cs
    else ⟨allowed, a⟩

def nextOnset (inFlow allowed : Bool) (a : At) : Onset := onsetFrom inFlow false allowed a a.rest

end Conform.Yaml
