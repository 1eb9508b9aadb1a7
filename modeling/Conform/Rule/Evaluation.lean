import Conform.Rule.Leaf

/-!
# Evaluating rules

The walk of a rule runs its checks in order, each after the one before it has given its outcome,
folds the outcomes and puts in the texts of the node. Rules nested in a check reach it as walkers:
they are visited at a place below, applied at the same place, or tried there on a copy.
-/

namespace Conform

namespace Walker

/-- Visits a place below and goes on with the outcome there. -/
def visit (w : Walker) (route : Route) (hint : Outcome) (k : Outcome → Walk) : Walk :=
  .visit route w.declaration hint (fun mode => w.walk mode route) k

/-- Tries the rule at its place, always in full, and goes on with the outcome. -/
def probe (w : Walker) (route : Route) (k : Outcome → Walk) : Walk :=
  Walk.probe route (w.walk .full route) k

end Walker

namespace Check

/-- One place below that a check leads to. -/
structure Visit where
  walker : Walker
  route : Route
  hint : Outcome

/-- Visits places in order. The check passes if all of them do. -/
def visitAll (message : String) : Bool → List Visit → Walk
  | ok, [] => .done (Outcome.check ok message)
  | ok, v :: vs => v.walker.visit v.route v.hint fun o => visitAll message (ok && o.passes) vs

def invalidProperties : String := "contains invalid properties"

def invalidItems : String := "contains invalid items"

/-- Properties are visited in an object and where nothing is yet, so that their defaults can make
the object. -/
def propertiesWalk (visits : List Visit) (route : Route) : Walk :=
  .read route fun
    | none => visitAll invalidProperties true visits
    | some (.object _) => visitAll invalidProperties true visits
    | some _ => .done Outcome.silent

def additionalWalk (known : List String) (w : Walker) (route : Route) : Walk :=
  .read route fun
    | none => .done Outcome.silent
    | some v =>
      visitAll invalidProperties true
        ((Leaf.extraKeys known v).map fun k => ⟨w, route.childNamed k, Outcome.silent⟩)

/-- The visits of the first items of an array, one for each walker. -/
def itemVisits (route : Route) (ws : List Walker) : List Visit :=
  ws.mapIdx fun i w => ⟨w, route.child (.index i), Outcome.silent⟩

def itemsWalk (walkers : Nat → List Walker) (route : Route) : Walk :=
  .read route fun
    | some (.array vs) =>
      visitAll invalidItems true (itemVisits route (walkers vs.length))
    | _ => .done Outcome.silent

def allOfWalk (mode : Mode) (route : Route) : List Outcome → List Walker → Walk
  | os, [] => .done (Outcome.merge os)
  | os, w :: ws => (w.walk mode route).andThen fun o => allOfWalk mode route (os ++ [o]) ws

/-- The first branch that passes when tried is applied. -/
def anyOfWalk (mode : Mode) (route : Route) : List Walker → Walk
  | [] => .done (Outcome.fail "must match at least one allowed schema")
  | w :: ws => w.probe route fun o =>
      if o.passes then w.walk mode route else anyOfWalk mode route ws

/-- Tries every branch and applies the one that passes, if there is exactly one. -/
def oneOfWalk (mode : Mode) (route : Route) : List Walker → List Walker → Walk
  | [], [] => .done (Outcome.fail "must match exactly one schema, matched none")
  | [w], [] => w.walk mode route
  | matched, [] =>
    .done (Outcome.fail ("must match exactly one schema, matched " ++ toString matched.length))
  | matched, w :: ws => w.probe route fun o =>
      oneOfWalk mode route (if o.passes then matched ++ [w] else matched) ws

def excludedWalk (w : Walker) (route : Route) : Walk :=
  w.probe route fun o => .done (Outcome.check (!o.passes) "must not match the excluded schema")

def conditionalWalk (mode : Mode) (route : Route) (condition : Walker)
    (met unmet : Option Walker) : Walk :=
  condition.probe route fun o =>
    match if o.passes then met else unmet with
    | some w => w.walk mode route
    | none => .done Outcome.silent

/-- A check ready to run. -/
structure Ready where
  keyword : String
  isCompound : Bool
  walk : Mode → Route → Walk

/-- Runs checks in order and goes on with the outcomes of those that ran. -/
def runAll (mode : Mode) (route : Route) (finish : List Outcome → Walk) :
    List Outcome → List Ready → Walk
  | os, [] => finish os
  | os, c :: cs =>
    if mode = .structural ∧ !c.isCompound then runAll mode route finish os cs
    else (c.walk mode route).andThen fun o =>
      runAll mode route finish (os ++ [o.attributed c.keyword]) cs

end Check

section

variable (options : EvalOptions)

mutual

def Rule.walk (r : Rule) (mode : Mode) (route : Route) : Walk :=
  match r with
  | .node _ checks messages _ =>
    Check.runAll mode route
      (fun os => .done (messages.resolve options.messages (Outcome.merge os))) []
      (readyChecks checks)

def Check.walk (c : Check) (mode : Mode) (route : Route) : Walk :=
  match c with
  | .leaf l => l.walk options route
  | .properties children => Check.propertiesWalk (propertyVisits route children) route
  | .additional known rule => Check.additionalWalk known ⟨rule.declaration, rule.walk⟩ route
  | .items rule => Check.itemsWalk (fun n => List.replicate n ⟨rule.declaration, rule.walk⟩) route
  | .tuple rules => Check.itemsWalk (fun n => (walkersOf rules).take n) route
  | .allOf branches => Check.allOfWalk mode route [] (walkersOf branches)
  | .anyOf branches => Check.anyOfWalk mode route (walkersOf branches)
  | .oneOf branches => Check.oneOfWalk mode route [] (walkersOf branches)
  | .excluded rule => Check.excludedWalk ⟨rule.declaration, rule.walk⟩ route
  | .conditional condition met unmet =>
    Check.conditionalWalk mode route ⟨condition.declaration, condition.walk⟩ (walkerOf? met)
      (walkerOf? unmet)
  | .custom _ _ rules run => run options (walkersOf rules) mode route

def readyChecks : List Check → List Check.Ready
  | [] => []
  | c :: cs => ⟨c.keyword, c.isCompound, c.walk⟩ :: readyChecks cs

def propertyVisits (route : Route) : List Property → List Check.Visit
  | [] => []
  | .mk key required rule :: ps =>
    ⟨⟨rule.declaration, rule.walk⟩, route.childNamed key, { required := required }⟩
      :: propertyVisits route ps

def walkersOf : List Rule → List Walker
  | [] => []
  | r :: rs => ⟨r.declaration, r.walk⟩ :: walkersOf rs

def walkerOf? : Option Rule → Option Walker
  | none => none
  | some r => some ⟨r.declaration, r.walk⟩

end

def Rule.walker (r : Rule) : Walker := ⟨r.declaration, r.walk options⟩

/-- Evaluates a rule against a value of its own, which keeps what the rule writes. -/
def Rule.evaluateDetached (r : Rule) (isOpen : String → Bool) (value : Option Value) :
    Walk.Detached :=
  (r.walk options .full []).detached isOpen value

end

end Conform
