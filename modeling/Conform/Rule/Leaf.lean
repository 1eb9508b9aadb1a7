import Conform.Json.Printer
import Conform.Rule
import Conform.Rule.Coercion

/-!
# Leaves

What the checks do that look at their own place alone. Most of them judge a value that is there
and have nothing to say of an undefined one.
-/

namespace Conform

namespace Leaf

def judgeEnum (allowed : List Value) (v : Value) : Outcome :=
  (Outcome.check (allowed.any (·.same v))
    ("must be one of " ++ Json.joined ", " (allowed.map Json.compact))).annotate
    "enum" (.array allowed)

def judgeConst (expected v : Value) : Outcome :=
  Outcome.check (v.same expected) ("must equal " ++ Json.compact expected)

/-- The largest distance from a whole ratio that still counts as none. -/
def multipleTolerance : Double.Ratio :=
  match Double.ofRatio? false ⟨1, Nat.pow 10 9⟩ with
  | some x => x.abs
  | none => ⟨0, 1⟩

/-- Whether the ratio of two doubles is whole, up to noise; one too large to be finite is not. -/
def isMultiple (x limit : Double) : Bool :=
  match x.div? limit with
  | some q => q.offWhole.lt multipleTolerance
  | none => false

def boundHolds (b : Bound) (x limit : Double) : Bool :=
  match b with
  | .minimum => limit.le x
  | .maximum => x.le limit
  | .exclusiveMinimum => limit.lt x
  | .exclusiveMaximum => x.lt limit
  | .multipleOf => isMultiple x limit

def judgeBound (b : Bound) (limit : Number) (v : Value) : Outcome :=
  (match v with
    | .number n =>
      Outcome.check (boundHolds b n.toDouble limit.toDouble)
        ("must be " ++ b.phrase ++ " " ++ limit.text)
    | _ => Outcome.fail "must be a number").annotate b.name (.number limit)

def judgeLength (side : Side) (limit : Nat) (v : Value) : Outcome :=
  (match v with
    | .string s =>
      Outcome.check (side.holds limit s.length)
        ("must be " ++ side.phrase ++ " " ++ toString limit ++ " characters long")
    | _ => Outcome.fail "must be a string").annotate side.lengthName (.nat limit)

def judgePattern (source : String) (p : Pattern) (v : Value) : Outcome :=
  (match v with
    | .string s => Outcome.check (p.matchesText s) ("must match pattern " ++ source)
    | _ => Outcome.fail "must be a string").annotate "pattern" (.string source)

def judgeItemCount (side : Side) (limit : Nat) (v : Value) : Outcome :=
  (match v with
    | .array items =>
      Outcome.check (side.holds limit items.length)
        ("must contain " ++ side.phrase ++ " " ++ toString limit ++ " items")
    | _ => Outcome.fail "must be an array").annotate side.itemsName (.nat limit)

def hasDuplicate : List Value → Bool
  | [] => false
  | v :: vs => vs.any (v.same ·) || hasDuplicate vs

def judgeUnique (enabled : Bool) (v : Value) : Outcome :=
  match v, enabled with
  | .array items, true => Outcome.check (!hasDuplicate items) "must not contain duplicate items"
  | _, _ => Outcome.silent

def judgeNames (names : List String) (v : Value) : Outcome :=
  match v with
  | .object fields =>
    match names.find? fun name => !Dict.contains name fields with
    | some name => Outcome.fail ("missing required property '" ++ name ++ "'")
    | none => Outcome.pass
  | _ => Outcome.silent

/-- The walk of a check that judges a value and changes nothing. -/
def judging (judge : Value → Outcome) (route : Route) : Walk :=
  .read route fun
    | some v => .done (judge v)
    | none => .done Outcome.silent

/-- The value after the default and the filters. -/
def prepared (default : Option Value) (filters : List Filter) (stored : Option Value) :
    Option Value :=
  (stored <|> default).map fun v => filters.foldl (fun v f => f.apply v) v

def annotationsWalk (default : Option Value) (filters : List Filter) (constant : Outcome)
    (route : Route) : Walk :=
  .read route fun stored =>
    let value := prepared default filters stored
    if sameValue? stored value then .done constant else .write route value (.done constant)

def typeWalk (options : EvalOptions) (kinds : List Kind) (route : Route) : Walk :=
  .read route fun
    | none => .done Outcome.silent
    | some v =>
      let failure := Outcome.fail ("must be of type " ++ Json.joined " or " (kinds.map Kind.name))
      if kinds.any (·.accepts v) then .done Outcome.pass
      else if options.coerceTypes then
        match kinds.findSome? (·.coerce? v) with
        | some w => .write route (some w) (.done Outcome.pass)
        | none => .done failure
      else .done failure

/-- Undefined, null and blank text fail; blanks around a text are taken away. -/
def presentWalk (route : Route) : Walk :=
  let required (o : Outcome) : Outcome := { o with required := true }
  .read route fun
    | none => .done (required (Outcome.fail "is required"))
    | some .null => .done (required (Outcome.fail "is required"))
    | some (.string s) =>
      let trimmed := Text.trim s
      if trimmed = "" then .done (required (Outcome.fail "is required"))
      else if trimmed = s then .done (required Outcome.pass)
      else .write route (some (.string trimmed)) (.done (required Outcome.pass))
    | some _ => .done (required Outcome.pass)

/-- The keys of an object that are not known, in their order. -/
def extraKeys (known : List String) : Value → List String
  | .object fields => (Dict.keys fields).filter fun k => !known.contains k
  | _ => []

/-- Removes keys one after another. -/
def removing (route : Route) : List String → Walk
  | [] => .done Outcome.pass
  | k :: ks => .write (route.childNamed k) none (removing route ks)

def additionalKeysWalk (options : EvalOptions) (known : List String) (route : Route) : Walk :=
  .read route fun
    | none => .done Outcome.silent
    | some v =>
      match extraKeys known v with
      | [] => .done Outcome.pass
      | k :: ks =>
        if options.removeAdditional then removing route (k :: ks)
        else .done (Outcome.fail ("unexpected property '" ++ k ++ "'"))

def walk (options : EvalOptions) (route : Route) : Leaf → Walk
  | annotations default filters constant => annotationsWalk default filters constant route
  | never => .done (Outcome.fail "no value is allowed here")
  | type kinds => typeWalk options kinds route
  | enum allowed => judging (judgeEnum allowed) route
  | const expected => judging (judgeConst expected) route
  | bound b limit => judging (judgeBound b limit) route
  | length side limit => judging (judgeLength side limit) route
  | pattern source p => judging (judgePattern source p) route
  | itemCount side limit => judging (judgeItemCount side limit) route
  | uniqueItems enabled => judging (judgeUnique enabled) route
  | present true => presentWalk route
  | present false => .done Outcome.silent
  | requiredNames names => judging (judgeNames names) route
  | additionalKeys _ true => .done Outcome.silent
  | additionalKeys known false => additionalKeysWalk options known route

end Leaf

end Conform
