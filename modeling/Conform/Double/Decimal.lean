import Conform.Double

/-!
# Doubles as decimal text

The digits of a double are the fewest that no other double is nearer to; of two candidates of that
length the nearer one, and of two equally near the even one. They are written positionally while
the decimal exponent lies between -5 and 15, with at least one place after the point, and in
scientific form with a signed exponent otherwise: `0.00001`, `100.0`, `1e-7`, `1.5e+300`.

Reading is exact as well: the double nearest to the decimal number.
-/

namespace Conform.Double

/-- A decimal number `digits * 10 ^ scale`. -/
structure Decimal where
  digits : Nat
  scale : Int

def Decimal.ratio (d : Decimal) : Ratio :=
  ⟨d.digits * Nat.pow 10 d.scale.toNat, Nat.pow 10 (-d.scale).toNat⟩

/-- Whether a ratio reads back as the double of rank `n`. -/
def readsAs (n : Nat) (r : Ratio) : Bool := nearestRank r = n

/-- The number of decimal places of an integer part; at least one. -/
def digitCount (n : Nat) : Nat := (Nat.toDigits 10 n).length

/-- The largest `e` with `10 ^ e ≤ r`, for a positive ratio. -/
def floorLogTen (r : Ratio) : Int :=
  if r.den ≤ r.num then digitCount (r.num / r.den) - 1
  else
    let e : Int := digitCount (r.den / r.num)
    if Ratio.le ⟨1, Nat.pow 10 (e.toNat - 1)⟩ r then -(e - 1) else -e

/-- The multiples of `10 ^ scale` next to a ratio, the nearer one first. -/
def gridNeighbours (r : Ratio) (scale : Int) : List Decimal :=
  let num := r.num * Nat.pow 10 (-scale).toNat
  let den := r.den * Nat.pow 10 scale.toNat
  let low := num / den
  let near := roundHalfEven num den
  if near = low then [⟨low, scale⟩, ⟨low + 1, scale⟩] else [⟨low + 1, scale⟩, ⟨low, scale⟩]

/-- Tries grids from coarse to fine; seventeen digits always read back. -/
def shortestFrom (n : Nat) (r : Ratio) (scale : Int) : Nat → Decimal
  | 0 => (gridNeighbours r scale).headD ⟨0, 0⟩
  | k + 1 =>
    match (gridNeighbours r scale).find? fun d => readsAs n d.ratio with
    | some d => d
    | none => shortestFrom n r (scale - 1) k

/-- The digits of a positive rank, without trailing zeros when they are fewer than the grid's. -/
def shortest (n : Nat) : Decimal :=
  let r := Ratio.scaled (significand n) (exponent n)
  shortestFrom n r (floorLogTen r) 17

def zeros (n : Nat) : String := String.ofList (List.replicate n '0')

/-- The text of `digits * 10 ^ scale` for a digit string without needless zeros. -/
def layout (digits : List Char) (scale : Int) : String :=
  let e := scale + digits.length - 1
  if 0 ≤ scale ∧ e ≤ 15 then String.ofList digits ++ zeros scale.toNat ++ ".0"
  else if 0 ≤ e ∧ e ≤ 15 then
    String.ofList (digits.take (e.toNat + 1)) ++ "." ++ String.ofList (digits.drop (e.toNat + 1))
  else if -5 ≤ e ∧ e < 0 then "0." ++ zeros (-e - 1).toNat ++ String.ofList digits
  else
    let mantissa := match digits with
      | [] => "0"
      | [c] => String.ofList [c]
      | c :: cs => String.ofList [c] ++ "." ++ String.ofList cs
    mantissa ++ "e" ++ (if e < 0 then "-" else "+") ++ toString e.natAbs

def dropTrailingZeros (d : Decimal) : List Char × Int :=
  let cs := Nat.toDigits 10 d.digits
  let kept := (cs.reverse.dropWhile (· = '0')).reverse
  (kept, d.scale + (cs.length - kept.length : Nat))

def text (x : Double) : String :=
  (if x.negative then "-" else "") ++
    if x.rank = 0 then "0.0"
    else
      let (digits, scale) := dropTrailingZeros (shortest x.rank)
      layout digits scale

/-- The double nearest to `digits * 10 ^ scale`, if it is finite. Numbers out of all range are told
apart by their length before any power is taken. -/
def ofDecimal? (negative : Bool) (d : Decimal) : Option Double :=
  let top := d.scale + digitCount d.digits
  if d.digits = 0 ∨ top < -400 then some (zero negative)
  else if 400 < top then none
  else ofRatio? negative d.ratio

end Conform.Double
