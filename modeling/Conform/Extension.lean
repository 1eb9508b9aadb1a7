import Conform.Rule.Evaluation
import Conform.Schema.Registry

/-!
# Extension keywords

Keywords and filters that may be registered beside the built-in ones. They wait, fail, write
elsewhere and visit single children, none of which a built-in keyword does.
-/

namespace Conform.Extension

/-- A keyword whose payload is a string and which looks at no place below. -/
def textual (name : String) (reserves : List String)
    (run : String → EvalOptions → Route → Walk) : Keyword where
  name := name
  reserves := reserves
  compound := false
  nested _ := .ok []
  build
    | .string s => .ok fun options _ _ route => run s options route
    | _ => .error "a string"

def slowLimit : Nat := 50

/-- Waits for the gate that the payload names, and then fails if the value that was there before
was too large a count. -/
def gate : Keyword :=
  textual "gate" [] fun name _ route =>
    .read route fun v =>
      .await name <| .done <|
        Outcome.check (!(v.bind Value.nat?).any (slowLimit ≤ ·)) ("too slow for " ++ name)

/-- Breaks off at one certain value. -/
def lookup : Keyword :=
  textual "lookup" ["lookupNote"] fun reason _ route =>
    .read route fun
      | some (.string "boom") => .fail (.failed "lookup" route reason)
      | _ => .done Outcome.pass

def warn : Keyword :=
  textual "warn" [] fun text _ route => Leaf.judging (fun _ => Outcome.warn text) route

/-- Writes the value to another place as well. -/
def copyTo : Keyword :=
  textual "copyTo" [] fun path _ route =>
    .read route fun v => .write (route.resolve path) v (.done Outcome.silent)

def sameAs : Keyword :=
  textual "sameAs" [] fun path _ route =>
    .read route fun v =>
      .read (route.resolve path) fun w =>
        .done (Outcome.check (sameValue? v w) ("must equal the value at " ++ path))

/-- Answers with its payload. -/
def outcome : Keyword where
  name := "outcome"
  reserves := []
  compound := false
  nested _ := .ok []
  build payload :=
    match Outcome.ofValue? payload with
    | some o => .ok fun _ _ _ _ => .done o
    | none => .error "an outcome"

/-- The child that a key or an index names. -/
def segmentOf? : Value → Option Segment
  | .string s => some (Segment.ofText s)
  | v => v.nat?.map .index

def keyOf? (payload : Value) : Option Segment := (payload.field? "key").bind segmentOf?

def visitChild (key : Segment) (hint : Outcome) : CustomRun := fun _ walkers _ route =>
  match walkers with
  | [] => .done Outcome.pass
  | w :: _ =>
    w.visit (route.child key) hint fun o => .done (Outcome.check o.passes "child is invalid")

/-- Visits one child, perhaps with a hint. -/
def child : Keyword where
  name := "child"
  reserves := []
  compound := true
  nested payload := if (keyOf? payload).isSome then .ok ["schema"] else .error "a key"
  build payload :=
    match keyOf? payload, payload.field? "hint" with
    | some key, none => .ok (visitChild key Outcome.silent)
    | some key, some h =>
      match Outcome.ofValue? h with
      | some hint => .ok (visitChild key hint)
      | none => .error "an outcome"
    | none, _ => .error "a key"

/-- Reverses the characters of a string. -/
def reverse : Filter := Filter.onStrings "reverse" fun s => String.ofList s.toList.reverse

/-- Puts any value into an array of its own. -/
def wrap : Filter := ⟨"wrap", fun v => .array [v]⟩

def registry : Registry where
  keywords := [gate, lookup, warn, copyTo, sameAs, outcome, child]
  filters := [reverse, wrap]

end Conform.Extension
