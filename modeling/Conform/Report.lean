import Conform.Json.Printer
import Conform.Model.Validate

/-!
# Reports

What a run found, as a text with a line for each place or as JSON: every place that the model has a
record of, the failure that came first, and the data as the run left it.
-/

namespace Conform

structure Report where
  path : String
  valid : Bool
  /-- Where the first failure at or under the path is, and its state. -/
  firstError : Option (String × State)
  /-- All places on record in the order of their paths. -/
  states : List (String × State)
  value : Option Value

namespace Report

/-- The canonical path of a place and its state. -/
def stateAt (m : Model) (r : Route) : String × State := (r.text, m.state r)

def collect (m : Model) (target : Route) (valid : Bool) : Report :=
  { path := target.text
    valid
    firstError := (m.firstError? target).map (stateAt m)
    states := m.records.paths.map fun path => stateAt m (Route.parse path)
    value := m.value Route.root }

def stateLine (s : String × State) : String :=
  s.2.status.name ++ " " ++ s.1 ++ (match s.2.message with
    | some message => "  " ++ message
    | none => "")

def verdictLine (r : Report) : String :=
  if r.valid then "OK: " ++ r.path
  else
    "FAIL: " ++ r.path ++ (match r.firstError with
      | some (path, s) =>
        " (first error at " ++ path ++ ": " ++ s.message.getD "invalid" ++ ")"
      | none => "")

def lines (r : Report) : List String := r.states.map stateLine ++ [r.verdictLine]

def text (r : Report) : String := String.join (r.lines.map (· ++ "\n"))

def stateValue (s : String × State) : Value := .object (("path", .string s.1) :: s.2.fields)

def toValue (r : Report) : Value :=
  .object
    [("path", .string r.path), ("valid", .bool r.valid),
      ("firstError", (r.firstError.map stateValue).getD .null),
      ("states", .array (r.states.map stateValue)), ("value", r.value.getD .null)]

def json (r : Report) : String := Json.pretty 0 r.toValue ++ "\n"

end Report

end Conform
