import Conform.Rule.Coercion

/-!
# What a plain scalar stands for

Null, a truth value, an integer in one of four bases, a double, or else a text.
-/

namespace Conform.Yaml.Plain

def isNull (s : String) : Bool := s = "" || s = "~" || s = "null" || s = "Null" || s = "NULL"

def bool? (s : String) : Option Bool :=
  if s = "true" ∨ s = "True" ∨ s = "TRUE" then some true
  else if s = "false" ∨ s = "False" ∨ s = "FALSE" then some false
  else none

def digitValue? (base : Nat) (c : Char) : Option Nat :=
  let n := if c.isDigit then c.toNat - '0'.toNat
    else if 'a' ≤ c ∧ c ≤ 'f' then c.toNat - 'a'.toNat + 10
    else if 'A' ≤ c ∧ c ≤ 'F' then c.toNat - 'A'.toNat + 10
    else 16
  if n < base then some n else none

def digits? (base : Nat) (cs : List Char) : Option Nat :=
  if cs.isEmpty then none
  else (cs.mapM (digitValue? base)).map fun ds => ds.foldl (fun n d => base * n + d) 0

def dropSign : List Char → List Char
  | '+' :: cs => cs
  | '-' :: cs => cs
  | cs => cs

/-- Digits that begin with a zero are a text, unless it is the zero alone. -/
def isZeroLed (cs : List Char) : Bool :=
  match dropSign cs with
  | '0' :: d :: ds => (d :: ds).all Char.isDigit
  | _ => false

/-- An integer in one of four bases, without its sign. -/
def natural? (cs : List Char) : Option Nat :=
  match cs with
  | '0' :: 'x' :: ds => digits? 16 ds
  | '0' :: 'o' :: ds => digits? 8 ds
  | '0' :: 'b' :: ds => digits? 2 ds
  | ds => digits? 10 ds

def integer? (cs : List Char) : Option Int :=
  if isZeroLed cs then none
  else
    match cs with
    | '+' :: ds => (natural? ds).map Int.ofNat
    | '-' :: ds => (natural? ds).map fun n => -n
    | ds => (natural? ds).map Int.ofNat

def isInfinity (s : String) : Bool := s = ".inf" || s = ".Inf" || s = ".INF"

def isNaN (s : String) : Bool := s = ".nan" || s = ".NaN" || s = ".NAN"

/-- Whether a number of bits holds an integer, signed or unsigned. -/
def fits (bits : Nat) (i : Int) : Bool := -Nat.pow 2 (bits - 1) ≤ i && i < Nat.pow 2 bits

/-- The value of a double. One that is not finite is null. -/
def doubleValue? (s : String) : Option Value :=
  let cs := s.toList
  if isInfinity (String.ofList (dropSign cs)) || isNaN s then some .null
  else (Coercion.double? cs).map .double

/-- The value of an integer that 64 bits hold. -/
def integerValue? (s : String) : Option Value :=
  match integer? s.toList with
  | some i => if fits 64 i then some (.int i) else none
  | none => none

/-- What a plain scalar is that is no null, truth value or integer. -/
def doubleOrText (s : String) : Value :=
  if isZeroLed s.toList then .string s else (doubleValue? s).getD (.string s)

/-- The value of a plain scalar. Integers that 64 bits do not hold are refused, unless 128 bits do
not hold them either: those are doubles. -/
def value? (s : String) : Option Value :=
  if isNull s then some .null
  else
    match bool? s, integer? s.toList with
    | some b, _ => some (.bool b)
    | none, some i =>
      if fits 64 i then some (.int i)
      else if fits 128 i then none
      else some (doubleOrText s)
    | none, none => some (doubleOrText s)

end Conform.Yaml.Plain
