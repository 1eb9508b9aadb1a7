import Conform.Pattern.Layout
import Conform.Pattern.Reader
import Conform.Text.Age
import Conform.Text.Boundary
import Conform.Text.Casing
import Conform.Text.Script

/-!
# What a pattern term means

Flags hold from where they are set to the end of the group. While characters are taken as such, a
class is a set of characters and its case variants are those of full case folding. Otherwise a
class is a set of bytes, and one that holds a byte above 127 is refused, since it could match in
the middle of a character; so only ASCII is left, and nothing can be negated.
-/

namespace Conform.Pattern

open Text (CharSet)

structure Flags where
  caseInsensitive : Bool := false
  multiLine : Bool := false
  dotTakesNewline : Bool := false
  swapGreed : Bool := false
  unicode : Bool := true
  returnLines : Bool := false

def Flags.set (f : Flags) : Flag → Bool → Flags
  | .caseInsensitive, b => { f with caseInsensitive := b }
  | .multiLine, b => { f with multiLine := b }
  | .dotTakesNewline, b => { f with dotTakesNewline := b }
  | .swapGreed, b => { f with swapGreed := b }
  | .unicode, b => { f with unicode := b }
  | .returnLines, b => { f with returnLines := b }
  | .ignoreBlanks, _ => f

def Flags.change (f : Flags) (changes : FlagChanges) : Flags :=
  changes.foldl (fun f c => f.set c.1 c.2) f

/-- Names are compared without case, blanks, underscores, hyphens and a leading `is`. -/
def looseName (name : String) : String :=
  let cs := name.toList
  let isPrefixed := (cs.take 2).map Char.toLower = ['i', 's']
  let kept := ((if isPrefixed then cs.drop 2 else cs).filter fun c =>
    c ≠ ' ' && c ≠ '_' && c ≠ '-' && c.toNat < 128).map Char.toLower
  if isPrefixed ∧ kept = ['c'] then "isc" else String.ofList kept

def lookUp (table : List (List String × CharSet)) (name : String) : Option CharSet :=
  (table.find? (·.1.contains name)).map Prod.snd

/-- Properties that take a value, by their names. -/
inductive ValuedProperty where
  | category | script | scriptExtensions | age | graphemeBreak | wordBreak | sentenceBreak

namespace ValuedProperty

def named? (name : String) : Option ValuedProperty :=
  if name = "gc" ∨ name = "generalcategory" then some category
  else if name = "sc" ∨ name = "script" then some script
  else if name = "scx" ∨ name = "scriptextensions" then some scriptExtensions
  else if name = "age" then some age
  else if name = "gcb" ∨ name = "graphemeclusterbreak" then some graphemeBreak
  else if name = "wb" ∨ name = "wordbreak" then some wordBreak
  else if name = "sb" ∨ name = "sentencebreak" then some sentenceBreak
  else none

def members? (p : ValuedProperty) (name : String) : Option CharSet :=
  match p with
  | category => lookUp Text.Category.named name
  | script => (Text.Script.named? name).map Text.Script.Entry.own
  | scriptExtensions => (Text.Script.named? name).map Text.Script.Entry.reach
  | age => Text.Edition.members? name
  | graphemeBreak => lookUp Text.GraphemeBreak.named name
  | wordBreak => lookUp Text.WordBreak.named name
  | sentenceBreak => lookUp Text.SentenceBreak.named name

end ValuedProperty

def PropertyQuery.members? : PropertyQuery → Option CharSet
  | .name property =>
    let name := looseName property
    lookUp Text.binaryProperties name
      <|> ValuedProperty.category.members? name
      <|> ValuedProperty.script.members? name
  | .value property given =>
    (ValuedProperty.named? (looseName property)).bind (·.members? (looseName given))

def asciiDigits : CharSet := .ofHex "30-39"

def asciiBlanks : CharSet := .ofHex "9-D 20"

/-- The members of a class that is named between colons. -/
def asciiMembers (name : String) : CharSet :=
  if name = "alnum" then .ofHex "30-39 41-5A 61-7A"
  else if name = "alpha" then .ofHex "41-5A 61-7A"
  else if name = "ascii" then .ofHex "0-7F"
  else if name = "blank" then .ofHex "9 20"
  else if name = "cntrl" then .ofHex "0-1F 7F"
  else if name = "digit" then asciiDigits
  else if name = "graph" then .ofHex "21-7E"
  else if name = "lower" then .ofHex "61-7A"
  else if name = "print" then .ofHex "20-7E"
  else if name = "punct" then .ofHex "21-2F 3A-40 5B-60 7B-7E"
  else if name = "space" then asciiBlanks
  else if name = "upper" then .ofHex "41-5A"
  else if name = "word" then Text.asciiWordChars
  else .ofHex "30-39 41-46 61-66"

/-- The set with both cases of its ASCII letters. -/
def asciiCaseClosure (s : CharSet) : CharSet :=
  let letters (first : Nat) : List Nat := (List.range 26).map (first + ·)
  let pairs := (letters 0x41).zip (letters 0x61)
  let met := pairs.filter fun p =>
    s.ranges.any fun r => CharSet.covers r p.1 || CharSet.covers r p.2
  .ofRanges (s.ranges ++ met.flatMap fun p => [(p.1, p.1), (p.2, p.2)])

/-- Closes a set under case, if case does not count. -/
def folded (f : Flags) (s : CharSet) : CharSet :=
  if !f.caseInsensitive then s else if f.unicode then s.caseClosure else asciiCaseClosure s

def negatedIf? (f : Flags) (negated : Bool) (s : CharSet) : Option CharSet :=
  if !negated then some s else if f.unicode then some s.compl else none

def ShorthandClass.members (f : Flags) : ShorthandClass → CharSet
  | digit => if f.unicode then Text.Category.decimalNumbers else asciiDigits
  | space => if f.unicode then Text.blanks else asciiBlanks
  | word => if f.unicode then Text.wordChars else Text.asciiWordChars

/-- The number that a literal stands for in a class. -/
def Literal.code? (f : Flags) (l : Literal) : Option Nat :=
  if f.unicode ∨ l.char.toNat < 128 then some l.char.toNat else none

def SetOperator.apply (op : SetOperator) (s t : CharSet) : CharSet :=
  match op with
  | intersection => s.inter t
  | difference => s.diff t
  | symmetricDifference => s.symmDiff t

mutual

def ClassTerm.members? (f : Flags) : ClassTerm → Option CharSet
  | .literal l => (l.code? f).map fun n => .ofRanges [(n, n)]
  | .range a b =>
    match a.code? f, b.code? f with
    | some a, some b => some (.ofRanges [(a, b)])
    | _, _ => none
  | .ascii name negated => negatedIf? f negated (folded f (asciiMembers name))
  | .shorthand c negated => negatedIf? f negated (c.members f)
  | .property q negated =>
    if f.unicode then q.members?.bind fun s => negatedIf? f negated (folded f s) else none
  | .bracketed negated t => (t.members? f).bind fun s => negatedIf? f negated (folded f s)
  | .union ts => (membersOfAll? f ts).map .ofUnion
  | .combined op l r =>
    match l.members? f, r.members? f with
    | some s, some t => some (op.apply (folded f s) (folded f t))
    | _, _ => none

def membersOfAll? (f : Flags) : List ClassTerm → Option (List CharSet)
  | [] => some []
  | t :: ts =>
    match t.members? f, membersOfAll? f ts with
    | some s, some sets => some (s :: sets)
    | _, _ => none

end

def ofMembers (f : Flags) (s : CharSet) : Pattern := ofClass ⟨s, !f.unicode⟩

def Anchor.assertion (f : Flags) : Anchor → Assertion
  | lineStart =>
    if !f.multiLine then .textStart
    else if f.returnLines then .returnLineStart else .lineStart
  | lineEnd =>
    if !f.multiLine then .textEnd
    else if f.returnLines then .returnLineEnd else .lineEnd
  | textStart => .textStart
  | textEnd => .textEnd
  | wordBoundary => .wordBoundary f.unicode
  | noWordBoundary => .noWordBoundary f.unicode
  | wordStart => .wordStart f.unicode
  | wordEnd => .wordEnd f.unicode
  | wordStartHalf => .wordStartHalf f.unicode
  | wordEndHalf => .wordEndHalf f.unicode

/-- A character on its own. While characters are not taken as such, those outside ASCII still stand
for themselves, but have no other case. -/
def Literal.pattern? (f : Flags) (l : Literal) : Option Pattern :=
  let n := l.char.toNat
  if !f.unicode ∧ 128 ≤ n then if l.isByte then none else some (literal [l.char])
  else if !f.caseInsensitive then some (literal [l.char])
  else if f.unicode then
    some (ofMembers f (.ofRanges ((Text.caseVariants n).map fun n => (n, n))))
  else some (ofMembers f (asciiCaseClosure (.ofRanges [(n, n)])))

def dotPattern? (f : Flags) : Option Pattern :=
  if !f.unicode then none
  else
    let left : CharSet :=
      if f.dotTakesNewline then .empty
      else if f.returnLines then .ofHex "A D" else .ofHex "A"
    some (ofMembers f left.compl)

mutual

/-- The pattern of a term and the flags in force after it. -/
def Term.meaning? (f : Flags) : Term → Option (Pattern × Flags)
  | .literal l => (l.pattern? f).map (·, f)
  | .dot => (dotPattern? f).map (·, f)
  | .anchor a => some (look (a.assertion f), f)
  | .shorthand c negated => ((ClassTerm.shorthand c negated).members? f).map (ofMembers f ·, f)
  | .property q negated => ((ClassTerm.property q negated).members? f).map (ofMembers f ·, f)
  | .bracketed negated t => ((ClassTerm.bracketed negated t).members? f).map (ofMembers f ·, f)
  | .flags changes => some (empty, f.change changes)
  | .group (.captured _) t => (t.meaning? f).map fun p => (captured p.1, f)
  | .group (.scoped changes) t => (t.meaning? (f.change changes)).map fun p => (p.1, f)
  | .repeated t least most isLazy =>
    (t.meaning? f).map fun p => (repeatedOf p.1 least most (isLazy == p.2.swapGreed), p.2)
  | .sequence ts => (meaningsInTurn? f ts).map fun p => (sequenceOf p.1, p.2)
  | .choice ts => (meaningsInTurn? f ts).map fun p => (choiceOf p.1, p.2)

def meaningsInTurn? (f : Flags) : List Term → Option (List Pattern × Flags)
  | [] => some ([], f)
  | t :: ts =>
    match t.meaning? f with
    | none => none
    | some (p, f) => (meaningsInTurn? f ts).map fun q => (p :: q.1, q.2)

end

/-- The pattern that a text writes, if it is one and not too large. -/
def ofText? (text : String) : Option Pattern :=
  match (Reader.read? text).bind fun t => t.meaning? {} with
  | none => none
  | some (p, _) => if p.isLaidOut then some p else none

end Conform.Pattern
