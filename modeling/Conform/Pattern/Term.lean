/-!
# Pattern terms

A pattern as it is written, before its flags have taken effect.
-/

namespace Conform.Pattern

inductive Flag where
  | caseInsensitive | multiLine | dotTakesNewline | swapGreed | unicode | returnLines | ignoreBlanks
  deriving DecidableEq

/-- Flags switched on or off, in the order written. -/
abbrev FlagChanges := List (Flag × Bool)

/-- A literal character. One written with two hexadecimal digits may stand for a byte. -/
structure Literal where
  char : Char
  isByte : Bool

inductive ShorthandClass where
  | digit | space | word

/-- The text between the braces of a property. -/
inductive PropertyQuery where
  | name (property : String)
  | value (property value : String)

inductive SetOperator where
  | intersection | difference | symmetricDifference

/-- What stands between brackets. -/
inductive ClassTerm where
  | literal (l : Literal)
  | range (first last : Literal)
  | ascii (name : String) (negated : Bool)
  | shorthand (c : ShorthandClass) (negated : Bool)
  | property (q : PropertyQuery) (negated : Bool)
  | bracketed (negated : Bool) (inner : ClassTerm)
  | union (items : List ClassTerm)
  | combined (op : SetOperator) (left right : ClassTerm)

inductive Anchor where
  | lineStart | lineEnd | textStart | textEnd
  | wordBoundary | noWordBoundary | wordStart | wordEnd | wordStartHalf | wordEndHalf

/-- What the parentheses of a group are for: to hold on to what is matched, perhaps under a name, or
to bound changes of flags. -/
inductive Grouping where
  | captured (name : Option String)
  | scoped (changes : FlagChanges)

inductive Term where
  | literal (l : Literal)
  | dot
  | anchor (a : Anchor)
  | shorthand (c : ShorthandClass) (negated : Bool)
  | property (q : PropertyQuery) (negated : Bool)
  | bracketed (negated : Bool) (inner : ClassTerm)
  | flags (changes : FlagChanges)
  | group (g : Grouping) (inner : Term)
  /-- A lazy repetition prefers few to many. -/
  | repeated (inner : Term) (least : Nat) (most : Option Nat) (isLazy : Bool)
  | sequence (items : List Term)
  | choice (branches : List Term)

namespace ClassTerm

/-- One item stands for itself. -/
def ofItems : List ClassTerm → ClassTerm
  | [t] => t
  | ts => union ts

mutual

/-- How deep brackets, unions and operators nest. A union of nothing is no union. -/
def depth : ClassTerm → Nat
  | bracketed _ t => t.depth + 1
  | union [] => 0
  | union (t :: ts) => max t.depth (depthOfAll ts) + 1
  | combined _ l r => max l.depth r.depth + 1
  | _ => 0

def depthOfAll : List ClassTerm → Nat
  | [] => 0
  | t :: ts => max t.depth (depthOfAll ts)

end

end ClassTerm

namespace Term

def ofItems : List Term → Term
  | [t] => t
  | ts => sequence ts

def ofBranches : List Term → Term
  | [t] => t
  | ts => choice ts

mutual

/-- How deep the parts of a term nest that hold other parts. -/
def depth : Term → Nat
  | bracketed _ t => t.depth + 1
  | group _ t => t.depth + 1
  | repeated t _ _ _ => t.depth + 1
  | sequence [] => 0
  | sequence (t :: ts) => max t.depth (depthOfAll ts) + 1
  | choice ts => depthOfAll ts + 1
  | _ => 0

def depthOfAll : List Term → Nat
  | [] => 0
  | t :: ts => max t.depth (depthOfAll ts)

end

mutual

def groupNames : Term → List String
  | group (.captured name) t => name.toList ++ t.groupNames
  | group (.scoped _) t => t.groupNames
  | repeated t _ _ _ => t.groupNames
  | sequence ts => groupNamesOfAll ts
  | choice ts => groupNamesOfAll ts
  | _ => []

def groupNamesOfAll : List Term → List String
  | [] => []
  | t :: ts => t.groupNames ++ groupNamesOfAll ts

end

end Term

end Conform.Pattern
