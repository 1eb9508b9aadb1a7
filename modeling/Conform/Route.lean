/-!
# Routes and paths

A route is the list of steps from the root of a data tree down to a value. A path is its text:
`/car/wheels/2`. Reading a path is total: empty pieces and `.` are dropped, `..` takes back the
step before it and stops at the root, and a piece of decimal digits without a leading zero, below
`2 ^ 64`, is an index. Every other piece is a key.
-/

namespace Conform

inductive Segment where
  | index (i : Nat)
  | key (k : String)
  deriving DecidableEq, Repr

/-- The number that a string of ASCII digits writes, if it holds a digit and nothing else. -/
def decimal? (digits : List Char) : Option Nat :=
  if digits = [] ∨ digits.any (fun c => !c.isDigit) then none
  else some (digits.foldl (fun n c => 10 * n + (c.toNat - '0'.toNat)) 0)

namespace Segment

/-- Indices are below this number; a longer string of digits is a key. -/
def indexLimit : Nat := Nat.pow 2 64

def ofText (raw : String) : Segment :=
  match decimal? raw.toList with
  | none => key raw
  | some i =>
    if (raw = "0" ∨ raw.toList.head? ≠ some '0') ∧ i < indexLimit then index i else key raw

def text : Segment → String
  | index i => toString i
  | key k => k

def key? : Segment → Option String
  | index _ => none
  | key k => some k

/-- Indices come before keys; both are ordered among themselves. -/
def compare : Segment → Segment → Ordering
  | index i, index j => Ord.compare i j
  | index _, key _ => .lt
  | key _, index _ => .gt
  | key k, key l => Ord.compare k l

end Segment

abbrev Route := List Segment

/-- The pieces of a text between its slashes; there is always one more than there are slashes. -/
def slashPieces : List Char → List (List Char)
  | [] => [[]]
  | c :: cs =>
    if c = '/' then [] :: slashPieces cs
    else
      match slashPieces cs with
      | [] => [[c]]
      | p :: ps => (c :: p) :: ps

namespace Route

def root : Route := []

/-- One piece of a path, taken at a route. -/
def take (r : Route) (piece : List Char) : Route :=
  if piece = [] ∨ piece = ['.'] then r
  else if piece = ['.', '.'] then r.dropLast
  else r ++ [Segment.ofText (String.ofList piece)]

def walkPath (r : Route) (path : String) : Route :=
  (slashPieces path.toList).foldl take r

def parse (path : String) : Route := walkPath root path

/-- The route that a path names, seen from `base`. A path with a slash in front ignores `base`. -/
def resolve (base : Route) (path : String) : Route :=
  if path.toList.head? = some '/' then parse path else base.walkPath path

/-- The canonical path of a route. -/
def text : Route → String
  | [] => "/"
  | r => String.join (r.map fun s => "/" ++ s.text)

def child (r : Route) (s : Segment) : Route := r ++ [s]

/-- The child named by a raw segment text. -/
def childNamed (r : Route) (name : String) : Route := r.child (Segment.ofText name)

def parent? : Route → Option Route
  | [] => none
  | r => some r.dropLast

/-- Whether `r` is `ancestor` or lies beneath it. -/
def startsWith (r ancestor : Route) : Bool := ancestor.isPrefixOf r

/-- The steps of `r` below `ancestor`, if it is at or under it. -/
def below? (ancestor : Route) : Route → Option Route :=
  match ancestor with
  | [] => some
  | s :: rest => fun
    | [] => none
    | t :: r => if s = t then below? rest r else none

/-- Lexicographic order by segment, a route before the longer ones that begin with it. -/
def compare : Route → Route → Ordering
  | [], [] => .eq
  | [], _ :: _ => .lt
  | _ :: _, [] => .gt
  | s :: r, t :: q =>
    match s.compare t with
    | .eq => compare r q
    | o => o

@[simp] theorem text_root : text root = "/" := rfl

theorem startsWith_iff (r a : Route) : r.startsWith a = true ↔ ∃ q, r = a ++ q := by
  rw [startsWith, List.isPrefixOf_iff_prefix]
  exact ⟨fun ⟨q, h⟩ => ⟨q, h.symm⟩, fun ⟨q, h⟩ => ⟨q, h.symm⟩⟩

theorem below?_append (a r : Route) : below? a (a ++ r) = some r := by
  induction a with
  | nil => rfl
  | cons s a ih => simp [below?, ih]

theorem eq_append_of_below? {a r q : Route} (h : below? a r = some q) : r = a ++ q := by
  induction a generalizing r with
  | nil => simpa [below?] using h
  | cons s a ih =>
    cases r with
    | nil => simp [below?] at h
    | cons t r =>
      by_cases hs : s = t
      · simp [below?, hs] at h
        simp [hs, ih h]
      · simp [below?, hs] at h

end Route

namespace Path

def normalize (path : String) : String := (Route.parse path).text

def resolve (base path : String) : String := ((Route.parse base).resolve path).text

def parent? (path : String) : Option String := (Route.parse path).parent?.map Route.text

/-- Whether a canonical path lies strictly beneath another. -/
def isUnder (path ancestor : String) : Bool :=
  if ancestor = "/" then path ≠ "/"
  else (ancestor.toList ++ ['/']).isPrefixOf path.toList

def isAtOrUnder (path ancestor : String) : Bool := path = ancestor || isUnder path ancestor

end Path

end Conform
