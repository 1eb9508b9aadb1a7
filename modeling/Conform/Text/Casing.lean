import Conform.Text.CaseTable
import Conform.Text.Recent

/-!
# Lower and upper case

Whole texts in one case. A character may become several (`ß` becomes `SS`), and a capital sigma at
the end of a word becomes the final small one.
-/

namespace Conform.Text

def mapped (specials : List (Nat × List Nat)) (shifts : List Shift) (c : Char) : List Char :=
  match specials.lookup c.toNat with
  | some ns => ns.map Char.ofNat
  | none => [Char.ofNat (shifted shifts c.toNat)]

def upperChar (c : Char) : List Char := mapped upperSpecials upperShifts c

def lowerChar (c : Char) : List Char := mapped lowerSpecials lowerShifts c

/-- Whether the first character that does not leave the case open has one. -/
def meetsCased (cs : List Char) : Bool :=
  match cs.dropWhile isCaseIgnorable with
  | [] => false
  | c :: _ => isCased c

def capitalSigma : Char := 'Σ'

/-- The small form of a capital sigma between what comes before it, nearest first, and after. -/
def lowerSigma (before after : List Char) : Char :=
  if meetsCased before && !meetsCased after then 'ς' else 'σ'

def lowerChars : List Char → List Char → List Char
  | _, [] => []
  | before, c :: after =>
    (if c = capitalSigma then [lowerSigma before after] else lowerChar c)
      ++ lowerChars (c :: before) after

def lowercase (s : String) : String := String.ofList (lowerChars [] s.toList)

def uppercase (s : String) : String := String.ofList (s.toList.flatMap upperChar)

/-- The numbers of the characters that equal character `n` but for their case, `n` among them. -/
def caseVariants (n : Nat) : List Nat :=
  let folded := shifted foldShifts n
  folded :: foldShifts.filterMap (·.preimage? folded)

/-- The characters that case folding changes, each with what it becomes. -/
def foldPairs : List (Nat × Nat) :=
  foldShifts.flatMap fun s =>
    (List.range ((s.last - s.first) / s.step + 1)).map fun i =>
      let n := s.first + s.step * i
      (n, s.apply n)

/-- The characters that case folding makes equal, what they become among them. -/
def foldClasses : List (List Nat) :=
  let byImage := foldPairs.mergeSort fun p q => p.2 ≤ q.2
  (byImage.splitBy fun p q => p.2 == q.2).map fun ps =>
    ((ps.head?.map Prod.snd).toList ++ ps.map Prod.fst)

/-- The set with all characters that equal a member but for their case. -/
def CharSet.caseClosure (s : CharSet) : CharSet :=
  let met := foldClasses.filter fun ns => ns.any fun n => s.ranges.any (CharSet.covers · n)
  .ofRanges (s.ranges ++ met.flatten.map fun n => (n, n))

end Conform.Text
