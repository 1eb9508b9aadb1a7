import Conform.Route
import Conform.Text.Blank
import Conform.Value

/-!
# Kinds and coercion

Which values are of a declared kind, and what a value of another kind is turned into. An integer
is a number without a fraction, so `3.0` counts; text is read as a signed 64-bit integer first and
as a double second.
-/

namespace Conform

def Kind.accepts : Kind → Value → Bool
  | .null, .null => true
  | .boolean, .bool _ => true
  | .object, .object _ => true
  | .array, .array _ => true
  | .string, .string _ => true
  | .number, .number _ => true
  | .integer, .number n => n.isWhole
  | _, _ => false

namespace Coercion

/-- A text without its sign, and whether the sign is a minus. -/
def unsigned : List Char → Bool × List Char
  | '+' :: cs => (false, cs)
  | '-' :: cs => (true, cs)
  | cs => (false, cs)

/-- Signed integers reach from minus this number to one below it. -/
def integerLimit : Int := Nat.pow 2 63

def integer? (cs : List Char) : Option Int :=
  let (negative, digits) := unsigned cs
  match decimal? digits with
  | none => none
  | some n =>
    let i : Int := if negative then -n else n
    if -integerLimit ≤ i ∧ i < integerLimit then some i else none

/-- The digits of a number with at most one point among them: all digits, and how many follow the
point. -/
def pointed? (cs : List Char) : Option (List Char × Nat) :=
  let whole := cs.takeWhile Char.isDigit
  match cs.dropWhile Char.isDigit with
  | [] => if whole.isEmpty then none else some (whole, 0)
  | c :: fraction =>
    if c = '.' ∧ fraction.all Char.isDigit ∧ !(whole.isEmpty && fraction.isEmpty) then
      some (whole ++ fraction, fraction.length)
    else none

/-- The power of ten after the letter `e`. -/
def exponent? (cs : List Char) : Option Int :=
  let (negative, digits) := unsigned cs
  (decimal? digits).map fun n => if negative then -n else n

/-- A decimal number as text, if it is finite as a double. -/
def double? (cs : List Char) : Option Double :=
  let (negative, cs) := unsigned cs
  let isMark (c : Char) : Bool := c = 'e' || c = 'E'
  let scale := match cs.dropWhile (!isMark ·) with
    | [] => some 0
    | _ :: power => exponent? power
  match pointed? (cs.takeWhile (!isMark ·)), scale with
  | some (digits, places), some e =>
    (decimal? digits).bind fun n => Double.ofDecimal? negative ⟨n, e - places⟩
  | _, _ => none

def ofBool (b : Bool) : Value := .int (if b then 1 else 0)

def boolOfText? (s : String) : Option Bool :=
  let word := (Text.trimChars s.toList).map Char.toLower
  if word = ['t', 'r', 'u', 'e'] then some true
  else if word = ['f', 'a', 'l', 's', 'e'] then some false
  else none

def boolOfNumber? (n : Number) : Option Bool :=
  if n.toDouble.same (.ofInt 0) then some false
  else if n.toDouble.same (.ofInt 1) then some true
  else none

end Coercion

/-- The value of a kind that a value of another kind becomes, if there is one. -/
def Kind.coerce? (k : Kind) (v : Value) : Option Value :=
  match k, v with
  | .integer, .string s => (Coercion.integer? (Text.trimChars s.toList)).map .int
  | .integer, .bool b => some (Coercion.ofBool b)
  | .number, .string s =>
    let cs := Text.trimChars s.toList
    (Coercion.integer? cs).map .int <|> (Coercion.double? cs).map .double
  | .number, .bool b => some (Coercion.ofBool b)
  | .boolean, .string s => (Coercion.boolOfText? s).map .bool
  | .boolean, .number n => (Coercion.boolOfNumber? n).map .bool
  | .string, .number n => some (.string n.text)
  | .string, .bool b => some (.string (if b then "true" else "false"))
  | .null, .string s => if s = "" then some .null else none
  | .array, .array _ => none
  | .array, v => some (.array [v])
  | _, _ => none

end Conform
