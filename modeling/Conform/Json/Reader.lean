import Conform.Value

/-!
# Reading JSON

A text is one value with blanks around it and nothing else. A number without a point and exponent
is an integer if it fits 64 bits, signed or unsigned, and a double otherwise; `-0` is a double. A
key given twice keeps its first place and takes its last value. Containers may nest 127 deep.

A double is read from its first digits, as many as fit an unsigned 64-bit integer: the double
nearest to that integer is multiplied or divided by the double nearest to the power of ten. The
result may be a neighbour of the nearest double when there are many digits.
-/

namespace Conform.Json

def digitsLimit : Nat := Nat.pow 2 64

/-- The leading digits of a number and what they leave out. -/
structure Leading where
  /-- The digits read so far; always below `digitsLimit`. -/
  value : Nat
  /-- The power of ten that belongs to them. -/
  scale : Int

def digit? (c : Char) : Option Nat := if c.isDigit then some (c.toNat - '0'.toNat) else none

/-- The digits before the point: those that fit are kept, of the others only the number. -/
def integerDigits : Leading → Bool → List Char → Leading × Bool × List Char
  | n, full, [] => (n, full, [])
  | n, full, c :: cs =>
    match digit? c with
    | none => (n, full, c :: cs)
    | some d =>
      if full ∨ digitsLimit ≤ 10 * n.value + d then
        integerDigits ⟨n.value, n.scale + 1⟩ true cs
      else integerDigits ⟨10 * n.value + d, n.scale⟩ false cs

/-- The digits after the point: the first that does not fit ends the reading of digits. -/
def fractionDigits : Leading → Bool → List Char → Leading × List Char
  | n, _, [] => (n, [])
  | n, full, c :: cs =>
    match digit? c with
    | none => (n, c :: cs)
    | some d =>
      if full ∨ digitsLimit ≤ 10 * n.value + d then fractionDigits n true cs
      else fractionDigits ⟨10 * n.value + d, n.scale - 1⟩ false cs

/-- The nearest double to `10 ^ k` for `k` up to 308. -/
def powerOfTen (k : Nat) : Double :=
  (Double.ofRatio? false ⟨Nat.pow 10 k, 1⟩).getD (.largest false)

/-- Multiplies by a power of ten, in steps that are doubles themselves. Only the downward direction
may take more than one step, and stops at zero. -/
def scaleDouble : Nat → Double → Int → Option Double
  | 0, x, _ => some x
  | fuel + 1, x, e =>
    if e.natAbs ≤ 308 then
      if 0 ≤ e then x.mul? (powerOfTen e.natAbs) else x.div? (powerOfTen e.natAbs)
    else if x.rank = 0 then some x
    else if 0 ≤ e then none
    else (x.div? (powerOfTen 308)).bind fun y => scaleDouble fuel y (e + 308)

/-- Four steps take every double to zero. -/
def Leading.toDouble? (n : Leading) (negative : Bool) : Option Double :=
  (scaleDouble 5 (.ofInt n.value) n.scale).map fun x => if negative then x.neg else x

/-- Exponents are read up to this number; beyond it only the sign matters. -/
def exponentLimit : Nat := Nat.pow 2 31

def exponentDigits : Nat → Bool → List Char → Nat × Bool × List Char
  | e, beyond, [] => (e, beyond, [])
  | e, beyond, c :: cs =>
    match digit? c with
    | none => (e, beyond, c :: cs)
    | some d =>
      if beyond ∨ exponentLimit ≤ 10 * e + d then exponentDigits e true cs
      else exponentDigits (10 * e + d) false cs

/-- What follows the letter of an exponent. -/
def readExponent (negative : Bool) (n : Leading) (cs : List Char) : Option (Double × List Char) :=
  let (down, cs) := match cs with
    | '+' :: r => (false, r)
    | '-' :: r => (true, r)
    | r => (false, r)
  match cs with
  | [] => none
  | c :: _ =>
    if !c.isDigit then none
    else
      let (e, beyond, rest) := exponentDigits 0 false cs
      if beyond then
        if n.value ≠ 0 ∧ !down then none else some (.zero negative, rest)
      else
        (Leading.toDouble? ⟨n.value, if down then n.scale - e else n.scale + e⟩ negative).map
          fun x => (x, rest)

def isExponentMark (c : Char) : Bool := c = 'e' || c = 'E'

/-- What follows the digits of a number that is a double. -/
def readTail (negative : Bool) (n : Leading) : List Char → Option (Double × List Char)
  | c :: cs =>
    if isExponentMark c then readExponent negative n cs
    else (n.toDouble? negative).map fun x => (x, c :: cs)
  | [] => (n.toDouble? negative).map fun x => (x, [])

/-- What follows the point of a number. -/
def readFraction (negative : Bool) (n : Leading) : List Char → Option (Double × List Char)
  | [] => none
  | c :: cs =>
    if !c.isDigit then none
    else
      let (n, rest) := fractionDigits n false (c :: cs)
      readTail negative n rest

/-- The smallest signed integer is minus this number. -/
def negativeLimit : Nat := Nat.pow 2 63

def wholeNumber (negative : Bool) (n : Nat) : Number :=
  if !negative then .int n
  else if n = 0 ∨ negativeLimit < n then .double (Double.ofInt n).neg
  else .int (-n)

def readUnsigned (negative : Bool) (cs : List Char) : Option (Number × List Char) :=
  match cs with
  | [] => none
  | c :: rest =>
    if !c.isDigit then none
    else if c = '0' ∧ rest.head?.any Char.isDigit then none
    else
      let (n, full, after) := integerDigits ⟨0, 0⟩ false cs
      let double (r : Option (Double × List Char)) : Option (Number × List Char) :=
        r.map fun p => (.double p.1, p.2)
      match after with
      | '.' :: r => double (readFraction negative n r)
      | c :: r =>
        if isExponentMark c then double (readExponent negative n r)
        else if full then double (readTail negative n after)
        else some (wholeNumber negative n.value, after)
      | [] =>
        if full then double (readTail negative n [])
        else some (wholeNumber negative n.value, [])

def readNumber : List Char → Option (Number × List Char)
  | '-' :: cs => readUnsigned true cs
  | cs => readUnsigned false cs

def hexValue? (c : Char) : Option Nat :=
  if c.isDigit then some (c.toNat - '0'.toNat)
  else if 'a' ≤ c ∧ c ≤ 'f' then some (c.toNat - 'a'.toNat + 10)
  else if 'A' ≤ c ∧ c ≤ 'F' then some (c.toNat - 'A'.toNat + 10)
  else none

/-- Four hexadecimal digits. -/
def readUnit : List Char → Option (Nat × List Char)
  | a :: b :: c :: d :: rest =>
    match hexValue? a, hexValue? b, hexValue? c, hexValue? d with
    | some a, some b, some c, some d => some (((a * 16 + b) * 16 + c) * 16 + d, rest)
    | _, _, _, _ => none
  | _ => none

def shortEscape? (c : Char) : Option Char :=
  if c = '"' ∨ c = '\\' ∨ c = '/' then some c
  else if c = 'b' then some (Char.ofNat 8)
  else if c = 'f' then some (Char.ofNat 12)
  else if c = 'n' then some '\n'
  else if c = 'r' then some '\r'
  else if c = 't' then some '\t'
  else none

/-- What an escape names, after its backslash. A high surrogate needs its low one behind it. -/
def readEscape : List Char → Option (Char × List Char)
  | [] => none
  | 'u' :: cs =>
    match readUnit cs with
    | none => none
    | some (u, rest) =>
      if 0xDC00 ≤ u ∧ u < 0xE000 then none
      else if 0xD800 ≤ u ∧ u < 0xDC00 then
        match rest with
        | '\\' :: 'u' :: rest =>
          match readUnit rest with
          | none => none
          | some (v, rest) =>
            if 0xDC00 ≤ v ∧ v < 0xE000 then
              some (Char.ofNat (0x10000 + (u - 0xD800) * 0x400 + (v - 0xDC00)), rest)
            else none
        | _ => none
      else some (Char.ofNat u, rest)
  | c :: cs => (shortEscape? c).map fun e => (e, cs)

/-- The rest of a string after its opening quote, with the characters read so far in reverse.
`fuel` is at least the number of characters left. -/
def readChars : Nat → List Char → List Char → Option (String × List Char)
  | 0, _, _ => none
  | _ + 1, _, [] => none
  | fuel + 1, read, c :: cs =>
    if c = '"' then some (String.ofList read.reverse, cs)
    else if c = '\\' then
      match readEscape cs with
      | none => none
      | some (e, rest) => readChars fuel (e :: read) rest
    else if c.toNat < 32 then none
    else readChars fuel (c :: read) cs

def readString (cs : List Char) : Option (String × List Char) := readChars (cs.length + 1) [] cs

def isBlank (c : Char) : Bool := c = ' ' || c = '\n' || c = '\t' || c = '\r'

def skipBlanks (cs : List Char) : List Char := cs.dropWhile isBlank

/-- What is left after `word`, if the text begins with it. -/
def afterWord? (word : String) (cs : List Char) : Option (List Char) :=
  if word.toList.isPrefixOf cs then some (cs.drop word.length) else none

mutual

/-- One value. `depth` is how many more containers may be entered; `fuel` bounds the calls and is
more than twice the number of characters left. -/
def readValue : Nat → Nat → List Char → Option (Value × List Char)
  | 0, _, _ => none
  | fuel + 1, depth, cs =>
    match skipBlanks cs with
    | [] => none
    | '"' :: rest => (readString rest).map fun p => (.string p.1, p.2)
    | '[' :: rest =>
      if depth = 0 then none
      else
        match skipBlanks rest with
        | ']' :: after => some (.array [], after)
        | _ => readItems fuel (depth - 1) [] rest
    | c :: rest =>
      if c.toNat = 0x7b then
        if depth = 0 then none
        else
          match skipBlanks rest with
          | [] => none
          | d :: after =>
            if d.toNat = 0x7d then some (.object [], after)
            else
              (readFields fuel (depth - 1) [] (d :: after)).map fun p =>
                (.object (Dict.ofEntries p.1), p.2)
      else if c = 't' then (afterWord? "rue" rest).map fun r => (.bool true, r)
      else if c = 'f' then (afterWord? "alse" rest).map fun r => (.bool false, r)
      else if c = 'n' then (afterWord? "ull" rest).map fun r => (.null, r)
      else (readNumber (c :: rest)).map fun p => (.number p.1, p.2)

/-- The items of an array that is not empty, with those already read in reverse. -/
def readItems : Nat → Nat → List Value → List Char → Option (Value × List Char)
  | 0, _, _, _ => none
  | fuel + 1, depth, read, cs =>
    match readValue fuel depth cs with
    | none => none
    | some (v, rest) =>
      match skipBlanks rest with
      | ',' :: rest => readItems fuel depth (v :: read) rest
      | ']' :: rest => some (.array (v :: read).reverse, rest)
      | _ => none

/-- The fields of an object that is not empty, as they are written, with those already read in
reverse. -/
def readFields : Nat → Nat → List (String × Value) → List Char →
    Option (List (String × Value) × List Char)
  | 0, _, _, _ => none
  | fuel + 1, depth, read, cs =>
    match skipBlanks cs with
    | '"' :: rest =>
      match readString rest with
      | none => none
      | some (key, rest) =>
        match skipBlanks rest with
        | ':' :: rest =>
          match readValue fuel depth rest with
          | none => none
          | some (v, rest) =>
            match skipBlanks rest with
            | [] => none
            | c :: rest =>
              if c = ',' then readFields fuel depth ((key, v) :: read) rest
              else if c.toNat = 0x7d then some (((key, v) :: read).reverse, rest)
              else none
        | _ => none
    | _ => none

end

/-- One less than the depth of nesting that is refused. -/
def nestingLimit : Nat := 127

/-- The value that a text writes, if it is JSON. -/
def read? (text : String) : Option Value :=
  let cs := text.toList
  match readValue (2 * cs.length + 2) nestingLimit cs with
  | some (v, rest) => if (skipBlanks rest).isEmpty then some v else none
  | none => none

/-- The keys of the object that begins a text, repeated as they are written. -/
def keys (text : String) : List String :=
  let cs := text.toList
  match skipBlanks cs with
  | c :: rest =>
    if c.toNat = 0x7b then
      match readFields (2 * cs.length + 2) nestingLimit [] rest with
      | some (fields, _) => fields.map Prod.fst
      | none => []
    else []
  | [] => []

end Conform.Json
