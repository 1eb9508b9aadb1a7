import Conform.Dict
import Conform.Double.Decimal

/-!
# Data values

The values of a data tree, of a schema and of every message between them. Objects keep the order
in which their keys were written. An integer and a double are different values even when they are
the same number, the two zeros of doubles are one value, and the order of an object's keys does not
count when values are compared.
-/

namespace Conform

inductive Number where
  | int (i : Int)
  | double (x : Double)
  deriving DecidableEq

namespace Number

/-- The double nearest to a number. -/
def toDouble : Number → Double
  | int i => .ofInt i
  | double x => x

def text : Number → String
  | int i => toString i
  | double x => x.text

def same : Number → Number → Bool
  | int i, int j => i = j
  | double x, double y => x.same y
  | _, _ => false

/-- A number without a fractional part. -/
def isWhole : Number → Bool
  | int _ => true
  | double x => x.isWhole

@[simp] theorem same_self (n : Number) : same n n = true := by cases n <;> simp [same]

end Number

inductive Value where
  | null
  | bool (b : Bool)
  | number (n : Number)
  | string (s : String)
  | array (items : List Value)
  | object (fields : List (String × Value))

/-- The kinds of values, as a schema and a message name them. -/
inductive Kind where
  | null | boolean | object | array | number | integer | string
  deriving DecidableEq, Repr

namespace Kind

def all : List Kind := [null, boolean, object, array, number, integer, string]

def name : Kind → String
  | null => "null"
  | boolean => "boolean"
  | object => "object"
  | array => "array"
  | number => "number"
  | integer => "integer"
  | string => "string"

def named? (s : String) : Option Kind := all.find? (·.name = s)

end Kind

namespace Value

def int (i : Int) : Value := .number (.int i)

def nat (n : Nat) : Value := .int n

def double (x : Double) : Value := .number (.double x)

def strings (l : List String) : Value := .array (l.map .string)

def kind : Value → Kind
  | null => .null
  | bool _ => .boolean
  | number (.int _) => .integer
  | number (.double _) => .number
  | string _ => .string
  | array _ => .array
  | object _ => .object

mutual

/-- Equality of values as data. -/
def same : Value → Value → Bool
  | null, null => true
  | bool a, bool b => a = b
  | number m, number n => m.same n
  | string s, string t => s = t
  | array xs, array ys => sameItems xs ys
  | object d, object e => d.length = e.length && sameFields d e
  | _, _ => false

def sameItems : List Value → List Value → Bool
  | [], [] => true
  | x :: xs, y :: ys => same x y && sameItems xs ys
  | _, _ => false

/-- Whether every field of the first object is a field of the second. -/
def sameFields : List (String × Value) → List (String × Value) → Bool
  | [], _ => true
  | (k, v) :: d, e =>
    (match Dict.get? k e with
      | some w => same v w
      | none => false) && sameFields d e

end

def string? : Value → Option String
  | string s => some s
  | _ => none

def bool? : Value → Option Bool
  | bool b => some b
  | _ => none

def number? : Value → Option Number
  | number n => some n
  | _ => none

/-- A natural number written as an integer; a double never counts as one. -/
def nat? : Value → Option Nat
  | number (.int i) => if 0 ≤ i then some i.toNat else none
  | _ => none

def strings? : Value → Option (List String)
  | array items => items.mapM string?
  | _ => none

/-- A field of an object; other values have none. -/
def field? (k : String) : Value → Option Value
  | object d => Dict.get? k d
  | _ => none

end Value

/-- Equality of values that may be undefined. -/
def sameValue? : Option Value → Option Value → Bool
  | none, none => true
  | some v, some w => v.same w
  | _, _ => false

end Conform
