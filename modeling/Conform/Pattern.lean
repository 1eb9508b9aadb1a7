import Conform.Text.Letter

/-!
# Patterns and matching

A pattern is a regular expression over characters with assertions about the place between two of
them. Matching is unanchored: a text matches if some part of it does.

A set of places in a text is a list of marks, one for the place before each character and one for
the end. A pattern takes the places where it may begin to the places where it may end, so matching
needs no backtracking, and which of several matches is meant does not matter.
-/

namespace Conform

/-- What lies on both sides of a place. -/
structure Place where
  before : Option Char
  after : Option Char

/-- What may be asked of a place. Words are made of Unicode's word characters or of those of
ASCII alone. -/
inductive Assertion where
  | textStart | textEnd
  | lineStart | lineEnd
  /-- The ends of lines that may be closed by a carriage return as well. -/
  | returnLineStart | returnLineEnd
  | wordBoundary (unicode : Bool)
  | noWordBoundary (unicode : Bool)
  | wordStart (unicode : Bool)
  | wordEnd (unicode : Bool)
  /-- No word character before. -/
  | wordStartHalf (unicode : Bool)
  /-- No word character after. -/
  | wordEndHalf (unicode : Bool)
  deriving DecidableEq

def isWordChar (unicode : Bool) (c : Char) : Bool :=
  (if unicode then Text.wordChars else Text.asciiWordChars).contains c

def Assertion.holds (p : Place) : Assertion → Bool
  | textStart => p.before.isNone
  | textEnd => p.after.isNone
  | lineStart => p.before.all (· = '\n')
  | lineEnd => p.after.all (· = '\n')
  | returnLineStart =>
    p.before.all (fun c => c = '\n' || (c = '\r' && p.after != some '\n'))
  | returnLineEnd =>
    p.after.all (fun c => c = '\r' || (c = '\n' && p.before != some '\r'))
  | wordBoundary u => p.before.any (isWordChar u) != p.after.any (isWordChar u)
  | noWordBoundary u => p.before.any (isWordChar u) == p.after.any (isWordChar u)
  | wordStart u => !p.before.any (isWordChar u) && p.after.any (isWordChar u)
  | wordEnd u => p.before.any (isWordChar u) && !p.after.any (isWordChar u)
  | wordStartHalf u => !p.before.any (isWordChar u)
  | wordEndHalf u => !p.after.any (isWordChar u)

/-- A class of characters, and whether they were meant as bytes when it was written. -/
structure CharClass where
  members : Text.CharSet
  isBytes : Bool
  deriving DecidableEq

inductive Pattern where
  | empty
  | literal (text : List Char)
  | oneOf (c : CharClass)
  | look (a : Assertion)
  /-- At least `least` times and at most `most` times, or without end. A greedy repetition prefers
  many to few. -/
  | repeated (p : Pattern) (least : Nat) (most : Option Nat) (greedy : Bool)
  | captured (p : Pattern)
  | sequence (ps : List Pattern)
  | choice (ps : List Pattern)

namespace Pattern

abbrev Marks := List Bool

def union (a b : Marks) : Marks := a.zipWith (· || ·) b

def places : Option Char → List Char → List Place
  | before, [] => [⟨before, none⟩]
  | before, c :: cs => ⟨before, some c⟩ :: places (some c) cs

/-- The marks moved by one place where the character between is as asked. -/
def advance (isMember : Char → Bool) (text : List Char) (m : Marks) : Marks :=
  false :: text.zipWith (fun c b => b && isMember c) m

/-- Makes `n` steps, or as many as change anything. -/
def iterate (step : Marks → Marks) : Nat → Marks → Marks
  | 0, m => m
  | n + 1, m =>
    let m' := step m
    if m' = m then m else iterate step n m'

/-- Adds what one more step reaches, until nothing is added or `n` steps are made. -/
def saturate (step : Marks → Marks) : Nat → Marks → Marks
  | 0, m => m
  | n + 1, m =>
    let m' := union m (step m)
    if m' = m then m else saturate step n m'

def nowhere (text : List Char) : Marks := List.replicate (text.length + 1) false

def everywhere (text : List Char) : Marks := List.replicate (text.length + 1) true

mutual

/-- The places where the pattern may end if it begins at a marked one. Each step of an unbounded
repetition marks another place or is the last, so there are no more steps than places. -/
def reach (text : List Char) : Pattern → Marks → Marks
  | empty, m => m
  | literal cs, m => cs.foldl (fun m c => advance (· = c) text m) m
  | oneOf c, m => advance c.members.contains text m
  | look a, m => (places none text).zipWith (fun p b => b && a.holds p) m
  | repeated p least most _, m =>
    let more := match most with
      | none => text.length + 1
      | some k => min (k - least) (text.length + 1)
    saturate (reach text p) more (iterate (reach text p) least m)
  | captured p, m => reach text p m
  | sequence ps, m => reachInTurn text ps m
  | choice ps, m => reachByAny text ps m

def reachInTurn (text : List Char) : List Pattern → Marks → Marks
  | [], m => m
  | p :: ps, m => reachInTurn text ps (reach text p m)

def reachByAny (text : List Char) : List Pattern → Marks → Marks
  | [], _ => nowhere text
  | p :: ps, m => union (reach text p m) (reachByAny text ps m)

end

/-- Whether some part of the text matches. -/
def matchesText (p : Pattern) (text : String) : Bool :=
  (reach text.toList p (everywhere text.toList)).any id

end Pattern

end Conform
