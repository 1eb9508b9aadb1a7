import Conform.Extension
import Conform.Proofs.BuiltIn
import Conform.Proofs.Confined

/-!
# Where a walk descends

Whatever a walk asks for at a place, it visits places below that place only, and from there on the
same is so. A built-in keyword visits children. A keyword from outside visits what it is written to
visit, so where it may lead is a condition on it, of which rules that hold such keywords are made.
-/

namespace Conform

def Route.IsParent (place r : Route) : Prop := ∃ s, r = place.child s

theorem Route.isParent_child (place : Route) (s : Segment) : IsParent place (place.child s) :=
  ⟨s, rfl⟩

namespace Walk

/-- Whether every visit leads from its place to one that is related to it, the visits within from
there on too. -/
def Descends (rel : Route → Route → Prop) : Walk → Route → Prop
  | done _, _ => True
  | fail _, _ => True
  | read _ next, place => ∀ v, (next v).Descends rel place
  | write _ _ next, place => next.Descends rel place
  | await _ next, place => next.Descends rel place
  | visit r _ _ body next, place =>
    rel place r ∧ (∀ mode, (body mode).Descends rel r) ∧ ∀ o, (next o).Descends rel place

variable {rel : Route → Route → Prop} {w : Walk} {place : Route}

theorem Descends.andThen (h : w.Descends rel place) {k : Outcome → Walk}
    (hk : ∀ o, (k o).Descends rel place) : (w.andThen k).Descends rel place := by
  induction w with
  | done o => exact hk o
  | fail e => trivial
  | read r next ih => exact fun v => ih v (h v)
  | write r v next ih => exact ih h
  | await g next ih => exact ih h
  | visit r d hint body next _ ihn => exact ⟨h.1, h.2.1, fun o => ihn o (h.2.2 o)⟩

/-- On a copy nothing is visited, wherever the walk leads. -/
theorem Descends.shield {base : Route} {k : Outcome → Tree → Walk} {t : Tree}
    (hk : ∀ o t, (k o t).Descends rel place) : (w.shield base k t).Descends rel place := by
  induction w generalizing k t with
  | done o => exact hk o t
  | fail e => trivial
  | read r next ih =>
    rw [Walk.shield]
    split
    · exact ih _ hk
    · exact fun v => ih v hk
  | write r v next ih =>
    rw [Walk.shield]
    split
    · dsimp only
      split
      · trivial
      · exact ih hk
    · exact ih hk
  | await g next ih => exact ih hk
  | visit r d hint body next ihb ihn => exact ihb .full fun o t => ihn _ hk

theorem Descends.probe {base : Route} {k : Outcome → Walk}
    (hk : ∀ o, (k o).Descends rel place) : (w.probe base k).Descends rel place :=
  fun _ => Descends.shield fun o _ => hk o

/-- The walks of something that descends wherever it is. -/
def DescendsAnywhere (rel : Route → Route → Prop) (walk : Mode → Route → Walk) : Prop :=
  ∀ mode route, (walk mode route).Descends rel route

end Walk

open Walk

namespace Leaf

variable {rel : Route → Route → Prop} {place route : Route}

theorem judging_descends (judge : Value → Outcome) : (judging judge route).Descends rel place := by
  intro v
  cases v <;> trivial

theorem removing_descends (ks : List String) : (removing route ks).Descends rel place := by
  induction ks with
  | nil => trivial
  | cons k ks ih => exact ih

/-- A leaf visits nothing. -/
theorem walk_descends (options : EvalOptions) (l : Leaf) :
    (l.walk options route).Descends rel place := by
  cases l with
  | annotations default filters constant =>
    intro v
    dsimp only
    split <;> trivial
  | type kinds =>
    intro v
    cases v with
    | none => trivial
    | some v =>
      dsimp only
      split
      · trivial
      · split
        · split <;> trivial
        · trivial
  | present needed =>
    cases needed with
    | false => trivial
    | true =>
      intro v
      dsimp only
      split
      · trivial
      · trivial
      · split
        · trivial
        · split <;> trivial
      · trivial
  | additionalKeys known allowed =>
    cases allowed with
    | true => trivial
    | false =>
      intro v
      cases v with
      | none => trivial
      | some v =>
        dsimp only
        split
        · trivial
        · split
          · exact removing_descends _
          · trivial
  | never => trivial
  | _ => exact judging_descends _

end Leaf

namespace Check

variable {rel : Route → Route → Prop} {route : Route}

theorem visitAll_descends (message : String) (ok : Bool) {vs : List Visit}
    (h : ∀ v ∈ vs, DescendsAnywhere rel v.walker.walk ∧ rel route v.route) :
    (visitAll message ok vs).Descends rel route := by
  induction vs generalizing ok with
  | nil => trivial
  | cons v vs ih =>
    obtain ⟨⟨hwalk, hroute⟩, hvs⟩ := List.forall_mem_cons.1 h
    exact ⟨hroute, fun mode => hwalk mode v.route, fun o => ih _ hvs⟩

theorem propertiesWalk_descends {visits : List Visit}
    (h : ∀ v ∈ visits, DescendsAnywhere rel v.walker.walk ∧ rel route v.route) :
    (propertiesWalk visits route).Descends rel route := by
  intro v
  dsimp only
  split
  · exact visitAll_descends _ _ h
  · exact visitAll_descends _ _ h
  · trivial

section

variable (child : ∀ place s, rel place (Route.child place s))
include child

theorem additionalWalk_descends (known : List String) {w : Walker}
    (h : DescendsAnywhere rel w.walk) : (additionalWalk known w route).Descends rel route := by
  intro v
  cases v with
  | none => trivial
  | some v =>
    refine visitAll_descends _ _ fun u hu => ?_
    obtain ⟨k, -, rfl⟩ := List.mem_map.1 hu
    exact ⟨h, child route _⟩

theorem itemsWalk_descends {walkers : Nat → List Walker}
    (h : ∀ n, ∀ w ∈ walkers n, DescendsAnywhere rel w.walk) :
    (itemsWalk walkers route).Descends rel route := by
  intro v
  dsimp only
  split
  · refine visitAll_descends _ _ fun u hu => ?_
    obtain ⟨i, hi, rfl⟩ := List.mem_mapIdx.1 hu
    exact ⟨h _ _ (List.getElem_mem hi), child route _⟩
  · trivial

end

theorem allOfWalk_descends (mode : Mode) {ws : List Walker}
    (h : ∀ w ∈ ws, DescendsAnywhere rel w.walk) (os : List Outcome) :
    (allOfWalk mode route os ws).Descends rel route := by
  induction ws generalizing os with
  | nil => trivial
  | cons w ws ih =>
    obtain ⟨hw, hws⟩ := List.forall_mem_cons.1 h
    exact (hw mode route).andThen fun o => ih hws _

theorem anyOfWalk_descends (mode : Mode) {ws : List Walker}
    (h : ∀ w ∈ ws, DescendsAnywhere rel w.walk) :
    (anyOfWalk mode route ws).Descends rel route := by
  induction ws with
  | nil => trivial
  | cons w ws ih =>
    obtain ⟨hw, hws⟩ := List.forall_mem_cons.1 h
    refine Descends.probe fun o => ?_
    split
    · exact hw mode route
    · exact ih hws

theorem oneOfWalk_descends (mode : Mode) {matched ws : List Walker}
    (hm : ∀ w ∈ matched, DescendsAnywhere rel w.walk)
    (h : ∀ w ∈ ws, DescendsAnywhere rel w.walk) :
    (oneOfWalk mode route matched ws).Descends rel route := by
  induction ws generalizing matched with
  | nil =>
    match matched with
    | [] => trivial
    | [w] => exact hm w List.mem_cons_self mode route
    | w :: w' :: rest => trivial
  | cons w ws ih =>
    obtain ⟨hw, hws⟩ := List.forall_mem_cons.1 h
    rw [oneOfWalk]
    refine Descends.probe fun o => ih ?_ hws
    split
    · exact List.forall_mem_append.2 ⟨hm, List.forall_mem_singleton.2 hw⟩
    · exact hm

theorem conditionalWalk_descends (mode : Mode) (condition : Walker) {met unmet : Option Walker}
    (hm : ∀ w ∈ met, DescendsAnywhere rel w.walk)
    (hu : ∀ w ∈ unmet, DescendsAnywhere rel w.walk) :
    (conditionalWalk mode route condition met unmet).Descends rel route := by
  refine Descends.probe fun o => ?_
  have hchosen : ∀ w ∈ (if o.passes then met else unmet), DescendsAnywhere rel w.walk := by
    split
    · exact hm
    · exact hu
  split
  · next w hw => exact hchosen w hw mode route
  · trivial

theorem runAll_descends (mode : Mode) {f : List Outcome → Outcome} {cs : List Ready}
    (h : ∀ c ∈ cs, DescendsAnywhere rel c.walk) (os : List Outcome) :
    (runAll mode route (fun os => done (f os)) os cs).Descends rel route := by
  induction cs generalizing os with
  | nil => trivial
  | cons c cs ih =>
    obtain ⟨hc, hcs⟩ := List.forall_mem_cons.1 h
    unfold runAll
    split
    · exact ih hcs os
    · exact (hc mode route).andThen fun o => ih hcs _

end Check

/-- A keyword from outside that descends if the rules that it is given do. -/
def CustomRun.Descends (rel : Route → Route → Prop) (run : CustomRun) : Prop :=
  ∀ options walkers mode route, (∀ w ∈ walkers, DescendsAnywhere rel w.walk) →
    (run options walkers mode route).Descends rel route

mutual

/-- At every depth, the keywords from outside are of a kind. -/
inductive Rule.Holds (kind : CustomRun → Prop) : Rule → Prop where
  | node {location : String} {checks : List Check} {messages : NodeMessages}
      {declaration : Declaration} (holds : ∀ c ∈ checks, Check.Holds kind c) :
      Rule.Holds kind (.node location checks messages declaration)

inductive Check.Holds (kind : CustomRun → Prop) : Check → Prop where
  | leaf (l : Leaf) : Check.Holds kind (.leaf l)
  | properties {children : List Property}
      (holds : ∀ key required rule, .mk key required rule ∈ children → Rule.Holds kind rule) :
      Check.Holds kind (.properties children)
  | additional {known : List String} {rule : Rule} (holds : Rule.Holds kind rule) :
      Check.Holds kind (.additional known rule)
  | items {rule : Rule} (holds : Rule.Holds kind rule) : Check.Holds kind (.items rule)
  | tuple {rules : List Rule} (holds : ∀ r ∈ rules, Rule.Holds kind r) :
      Check.Holds kind (.tuple rules)
  | allOf {branches : List Rule} (holds : ∀ r ∈ branches, Rule.Holds kind r) :
      Check.Holds kind (.allOf branches)
  | anyOf {branches : List Rule} (holds : ∀ r ∈ branches, Rule.Holds kind r) :
      Check.Holds kind (.anyOf branches)
  | oneOf {branches : List Rule} (holds : ∀ r ∈ branches, Rule.Holds kind r) :
      Check.Holds kind (.oneOf branches)
  /-- What is tried on a copy only may hold anything. -/
  | excluded (rule : Rule) : Check.Holds kind (.excluded rule)
  | conditional {condition : Rule} {met unmet : Option Rule}
      (whenMet : ∀ r ∈ met, Rule.Holds kind r) (whenUnmet : ∀ r ∈ unmet, Rule.Holds kind r) :
      Check.Holds kind (.conditional condition met unmet)
  | custom {keyword : String} {compound : Bool} {rules : List Rule} {run : CustomRun}
      (own : kind run) (holds : ∀ r ∈ rules, Rule.Holds kind r) :
      Check.Holds kind (.custom keyword compound rules run)

end

/-- A rule of built-in keywords holds none from outside. -/
theorem Rule.holds_nesting (ok : String → Prop) (kind : CustomRun → Prop) :
    Nesting ok (Rule.Holds kind) (Check.Holds kind) where
  node _ _ _ _ h := .node h
  leaf l := .leaf l
  properties _ h := .properties fun key required rule hp => (h key required rule hp).2
  additional _ _ h := .additional h
  items _ h := .items h
  tuple _ h := .tuple h
  allOf _ h := .allOf h
  anyOf _ h := .anyOf h
  oneOf _ h := .oneOf h
  excluded r _ := .excluded r
  conditional _ _ _ _ hm hu := .conditional hm hu

/-- A schema compiles to a rule that holds what its registry builds. -/
theorem compile_holds {registry : Registry} {kind : CustomRun → Prop}
    (outside : ∀ k ∈ registry.keywords, ∀ payload run, k.build payload = .ok run → kind run)
    {schema : Value} {rule : Rule} (h : compile registry schema = .ok rule) : rule.Holds kind :=
  compile_yields (Rule.holds_nesting (fun _ => True) kind)
    (fun k hk payload run hb _ _ hr => .custom (outside k hk payload run hb) hr)
    (schema.keyed_of_forall fun _ => trivial) h

section

variable {rel : Route → Route → Prop} (options : EvalOptions)

mutual

/-- **Rules descend.** Where children are related to their places, and the keywords from outside
descend, so does the whole rule. -/
theorem Rule.walk_descends (child : ∀ place s, rel place (Route.child place s)) {r : Rule}
    (h : r.Holds (CustomRun.Descends rel)) : DescendsAnywhere rel (r.walk options) := by
  intro mode route
  match r, h with
  | .node location checks messages declaration, .node holds =>
    rw [Rule.walk, readyChecks_eq_map]
    exact Check.runAll_descends mode
      (List.forall_mem_map.2 fun c hc => Check.walk_descends child (holds c hc)) []

theorem Check.walk_descends (child : ∀ place s, rel place (Route.child place s)) {c : Check}
    (h : c.Holds (CustomRun.Descends rel)) : DescendsAnywhere rel (c.walk options) := by
  have hwalkers : ∀ rules : List Rule, (∀ r ∈ rules, DescendsAnywhere rel (r.walk options)) →
      ∀ w ∈ rules.map (Rule.walker options), DescendsAnywhere rel w.walk :=
    fun rules h => List.forall_mem_map.2 h
  intro mode route
  match c, h with
  | .leaf l, .leaf _ =>
    rw [Check.walk]
    exact l.walk_descends options
  | .properties children, .properties holds =>
    rw [Check.walk, propertyVisits_eq_map]
    refine Check.propertiesWalk_descends fun v hv => ?_
    obtain ⟨⟨key, required, rule⟩, hp, rfl⟩ := List.mem_map.1 hv
    exact ⟨Rule.walk_descends child (holds key required rule hp), child route _⟩
  | .additional known rule, .additional holds =>
    rw [Check.walk]
    exact Check.additionalWalk_descends child known (Rule.walk_descends child holds)
  | .items rule, .items holds =>
    rw [Check.walk]
    refine Check.itemsWalk_descends child fun n w hw => ?_
    rw [List.eq_of_mem_replicate hw]
    exact Rule.walk_descends child holds
  | .tuple rules, .tuple holds =>
    have hws := hwalkers rules fun r hr => Rule.walk_descends child (holds r hr)
    rw [Check.walk, walkersOf_eq_map]
    exact Check.itemsWalk_descends child fun n w hw => hws w (List.mem_of_mem_take hw)
  | .allOf branches, .allOf holds =>
    rw [Check.walk, walkersOf_eq_map]
    exact Check.allOfWalk_descends mode
      (hwalkers branches fun r hr => Rule.walk_descends child (holds r hr)) []
  | .anyOf branches, .anyOf holds =>
    rw [Check.walk, walkersOf_eq_map]
    exact Check.anyOfWalk_descends mode
      (hwalkers branches fun r hr => Rule.walk_descends child (holds r hr))
  | .oneOf branches, .oneOf holds =>
    rw [Check.walk, walkersOf_eq_map]
    exact Check.oneOfWalk_descends mode (fun w hw => (nomatch hw))
      (hwalkers branches fun r hr => Rule.walk_descends child (holds r hr))
  | .excluded rule, .excluded _ =>
    rw [Check.walk]
    exact Descends.probe fun _ => trivial
  | .conditional condition met unmet, .conditional whenMet whenUnmet =>
    rw [Check.walk, walkerOf?_eq_map, walkerOf?_eq_map]
    refine Check.conditionalWalk_descends mode _ ?_ ?_
    · intro w hw
      obtain ⟨r, hr, rfl⟩ := Option.map_eq_some_iff.1 hw
      exact Rule.walk_descends child (whenMet r hr)
    · intro w hw
      obtain ⟨r, hr, rfl⟩ := Option.map_eq_some_iff.1 hw
      exact Rule.walk_descends child (whenUnmet r hr)
  | .custom keyword compound rules run, .custom own holds =>
    rw [Check.walk, walkersOf_eq_map]
    exact own options _ mode route
      (hwalkers rules fun r hr => Rule.walk_descends child (holds r hr))

end

end

namespace Extension

variable {rel : Route → Route → Prop}

theorem textual_descends {name : String} {reserves : List String}
    {run : String → EvalOptions → Route → Walk} {payload : Value} {built : CustomRun}
    (hb : (textual name reserves run).build payload = .ok built)
    (h : ∀ text options route, (run text options route).Descends rel route) :
    built.Descends rel := by
  cases payload with
  | string text =>
    cases hb
    exact fun options _ _ route _ => h text options route
  | _ => cases hb

theorem visitChild_descends (child : ∀ place s, rel place (Route.child place s)) (key : Segment)
    (hint : Outcome) : (visitChild key hint).Descends rel := by
  intro options walkers mode route h
  cases walkers with
  | nil => trivial
  | cons w ws =>
    exact ⟨child route key, fun mode => h w List.mem_cons_self mode _, fun _ => trivial⟩

/-- Every keyword of the extension descends, to a child if anywhere. -/
theorem registry_descends (child : ∀ place s, rel place (Route.child place s)) {k : Keyword}
    (hk : k ∈ registry.keywords) {payload : Value} {run : CustomRun}
    (built : k.build payload = .ok run) : run.Descends rel := by
  simp only [registry, List.mem_cons, List.not_mem_nil, or_false] at hk
  rcases hk with rfl | rfl | rfl | rfl | rfl | rfl | rfl
  · exact textual_descends built fun _ _ _ _ => trivial
  · refine textual_descends built fun _ _ _ v => ?_
    dsimp only
    split <;> trivial
  · exact textual_descends built fun _ _ _ => Leaf.judging_descends _
  · exact textual_descends built fun _ _ _ _ => trivial
  · exact textual_descends built fun _ _ _ _ _ => trivial
  · simp only [outcome] at built
    split at built
    · cases built
      exact fun _ _ _ _ _ => trivial
    · cases built
  · simp only [Extension.child] at built
    split at built
    · cases built
      exact visitChild_descends child _ _
    · split at built
      · cases built
        exact visitChild_descends child _ _
      · cases built
    · cases built

end Extension

end Conform
