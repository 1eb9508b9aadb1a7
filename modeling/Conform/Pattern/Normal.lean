import Conform.Pattern
import Conform.Text.Utf8

/-!
# Patterns in normal form

Patterns are built by functions that keep them plain: a sequence holds no empty pattern, no
sequence and no two literals side by side; a choice holds no choice; a class of one character is a
literal; and what can be read but once or not at all is not repeated. What a pattern costs is
counted in this form.
-/

namespace Conform.Pattern

open Text (CharSet)

/-- Matches nowhere. -/
def never : Pattern := oneOf ⟨.empty, true⟩

/-- A class, given as a literal if it has but one member. -/
def ofClass (c : CharClass) : Pattern :=
  match c.members.ranges with
  | [] => never
  | [(a, b)] => if a = b then literal [Char.ofNat a] else oneOf c
  | _ => oneOf c

mutual

/-- Whether two patterns are written alike. Two captured parts are not, as each has a number of its
own. -/
def same : Pattern → Pattern → Bool
  | empty, empty => true
  | literal a, literal b => a = b
  | oneOf c, oneOf d => c = d
  | look a, look b => a = b
  | repeated p least most greedy, repeated q least' most' greedy' =>
    same p q && least = least' && most = most' && greedy = greedy'
  | sequence ps, sequence qs => sameAll ps qs
  | choice ps, choice qs => sameAll ps qs
  | _, _ => false

def sameAll : List Pattern → List Pattern → Bool
  | [], [] => true
  | p :: ps, q :: qs => same p q && sameAll ps qs
  | _, _ => false

end

mutual

/-- The fewest bytes of a match, if the pattern matches anywhere. -/
def shortest? : Pattern → Option Nat
  | empty => some 0
  | literal cs => some (cs.map Text.Utf8.length).sum
  | oneOf c => c.members.ranges.head?.map fun r => (Text.Utf8.encode r.1).length
  | look _ => some 0
  | repeated p least _ _ => p.shortest?.map (least * ·)
  | captured p => p.shortest?
  | sequence ps => shortestInTurn? ps
  | choice ps => shortestOfAny? ps

def shortestInTurn? : List Pattern → Option Nat
  | [] => some 0
  | p :: ps =>
    match p.shortest?, shortestInTurn? ps with
    | some n, some m => some (n + m)
    | _, _ => none

def shortestOfAny? : List Pattern → Option Nat
  | [] => none
  | [p] => p.shortest?
  | p :: ps =>
    match p.shortest?, shortestOfAny? ps with
    | some n, some m => some (min n m)
    | _, _ => none

end

mutual

def longest? : Pattern → Option Nat
  | empty => some 0
  | literal cs => some (cs.map Text.Utf8.length).sum
  | oneOf c => c.members.ranges.getLast?.map fun r => (Text.Utf8.encode r.2).length
  | look _ => some 0
  | repeated p _ most _ =>
    match most, p.longest? with
    | some k, some n => some (k * n)
    | _, _ => none
  | captured p => p.longest?
  | sequence ps => longestInTurn? ps
  | choice ps => longestOfAny? ps

def longestInTurn? : List Pattern → Option Nat
  | [] => some 0
  | p :: ps =>
    match p.longest?, longestInTurn? ps with
    | some n, some m => some (n + m)
    | _, _ => none

def longestOfAny? : List Pattern → Option Nat
  | [] => none
  | [p] => p.longest?
  | p :: ps =>
    match p.longest?, longestOfAny? ps with
    | some n, some m => some (max n m)
    | _, _ => none

end

/-- Whether every match is empty. -/
def isVoid (p : Pattern) : Bool := p.longest? = some 0

/-- Whether there are matches and none of them is empty. -/
def isFilled (p : Pattern) : Bool := p.shortest?.any (0 < ·)

def repeatedOf (p : Pattern) (least : Nat) (most : Option Nat) (greedy : Bool) : Pattern :=
  let (least, most) :=
    if p.isVoid then (min 1 least, some (min 1 (most.getD 1))) else (least, most)
  if least = 0 ∧ most = some 0 then empty
  else if least = 1 ∧ most = some 1 then p
  else repeated p least most greedy

/-- The patterns that a part of a sequence consists of. -/
def stepsOf : Pattern → List Pattern
  | empty => []
  | sequence ps => ps
  | p => [p]

def joinLiterals : List Pattern → List Pattern
  | [] => []
  | literal a :: ps =>
    match joinLiterals ps with
    | literal b :: qs => literal (a ++ b) :: qs
    | qs => literal a :: qs
  | p :: ps => p :: joinLiterals ps

def sequenceOf (ps : List Pattern) : Pattern :=
  match joinLiterals (ps.flatMap stepsOf) with
  | [] => empty
  | [p] => p
  | ps => sequence ps

/-- The patterns that a part of a choice consists of. -/
def branchesOf : Pattern → List Pattern
  | choice ps => ps
  | p => [p]

def singleChar? : Pattern → Option Char
  | literal [c] => some c
  | _ => none

def members? : Pattern → Option CharSet
  | oneOf c => some c.members
  | _ => none

/-- A choice of characters or a choice of classes, as a class. -/
def unitedClass? (ps : List Pattern) : Option Pattern :=
  let asClass (s : CharSet) : Pattern := ofClass ⟨s, false⟩
  match ps.mapM singleChar?, ps.mapM members? with
  | some cs, _ => some (asClass (.ofRanges (cs.map fun c => (c.toNat, c.toNat))))
  | none, some sets => some (asClass (.ofUnion sets))
  | none, none => none

def steps? : Pattern → Option (List Pattern)
  | sequence ps => some ps
  | _ => none

/-- The number of steps that two sequences begin with alike. -/
def commonLength (ps qs : List Pattern) : Nat :=
  ((ps.zip qs).takeWhile fun r => same r.1 r.2).length

/-- What several sequences begin with, if it is something, and what follows it in each. -/
def commonStart? (ps : List Pattern) : Option (List Pattern × List (List Pattern)) :=
  match ps.mapM steps? with
  | some (first :: more) =>
    let n := more.foldl (fun n qs => min n (commonLength first qs)) first.length
    if n = 0 then none else some (first.take n, (first :: more).map (·.drop n))
  | _ => none

mutual

def weight : Pattern → Nat
  | repeated p _ _ _ => p.weight + 1
  | captured p => p.weight + 1
  | sequence ps => weightOfAll ps + 1
  | choice ps => weightOfAll ps + 1
  | _ => 1

def weightOfAll : List Pattern → Nat
  | [] => 0
  | p :: ps => p.weight + weightOfAll ps

end

/-- A choice, with what all branches begin with taken out. `fuel` is at least the weight of the
branches. -/
def choiceWithin : Nat → List Pattern → Pattern
  | 0, ps => choice ps
  | fuel + 1, ps =>
    match ps.flatMap branchesOf with
    | [] => never
    | [p] => p
    | ps =>
      match unitedClass? ps, commonStart? ps with
      | some p, _ => p
      | none, some (start, rests) =>
        sequenceOf (start ++ [choiceWithin fuel (rests.map sequenceOf)])
      | none, none => choice ps

def choiceOf (ps : List Pattern) : Pattern := choiceWithin (weightOfAll ps + 1) ps

inductive Direction where
  | forward | backward
  deriving DecidableEq

/-- The end of a text where reading in a direction begins. -/
def Direction.edge : Direction → Assertion
  | forward => .textStart
  | backward => .textEnd

mutual

/-- Whether the pattern says at its outer end that the text begins there, seen in the direction of
reading. -/
def isAnchored (d : Direction) : Pattern → Bool
  | look a => a = d.edge
  | captured p => p.isAnchored d
  | repeated p least _ _ => 0 < least && p.isAnchored d
  | sequence ps =>
    match d with
    | .forward => anchoredAtStart d ps
    | .backward => (anchoredAtEnd d ps).1
  | choice ps => allAnchored d ps
  | _ => false

def anchoredAtStart (d : Direction) : List Pattern → Bool
  | [] => false
  | p :: ps => p.isAnchored d || (p.isVoid && anchoredAtStart d ps)

/-- The same for the end of a sequence, and whether all of the sequence is void. -/
def anchoredAtEnd (d : Direction) : List Pattern → Bool × Bool
  | [] => (false, true)
  | p :: ps =>
    let (anchored, void) := anchoredAtEnd d ps
    (anchored || (void && p.isAnchored d), void && p.isVoid)

def allAnchored (d : Direction) : List Pattern → Bool
  | [] => true
  | p :: ps => p.isAnchored d && allAnchored d ps

end

end Conform.Pattern
