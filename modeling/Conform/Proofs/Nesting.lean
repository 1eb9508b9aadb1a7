import Conform.Rule.Evaluation

/-!
# Rules of built-in keywords

A rule that holds no keyword from outside, however deep, and induction over such rules: a property
of rules and one of checks hold as soon as each follows for a node from its checks and for a check
from the rules nested in it. The names of the properties that a rule leads to may be bound to a
condition.
-/

namespace Conform

mutual

/-- Whether the rule and all rules nested in it are made of built-in keywords only. -/
def Rule.isBuiltIn : Rule → Bool
  | .node _ checks _ _ => checksBuiltIn checks

def Check.isBuiltIn : Check → Bool
  | .leaf _ => true
  | .properties children => propertiesBuiltIn children
  | .additional _ rule => rule.isBuiltIn
  | .items rule => rule.isBuiltIn
  | .tuple rules => rulesBuiltIn rules
  | .allOf branches => rulesBuiltIn branches
  | .anyOf branches => rulesBuiltIn branches
  | .oneOf branches => rulesBuiltIn branches
  | .excluded rule => rule.isBuiltIn
  | .conditional condition met unmet =>
    condition.isBuiltIn && optionBuiltIn met && optionBuiltIn unmet
  | .custom .. => false

def checksBuiltIn : List Check → Bool
  | [] => true
  | c :: cs => c.isBuiltIn && checksBuiltIn cs

def propertiesBuiltIn : List Property → Bool
  | [] => true
  | .mk _ _ rule :: ps => rule.isBuiltIn && propertiesBuiltIn ps

def rulesBuiltIn : List Rule → Bool
  | [] => true
  | r :: rs => r.isBuiltIn && rulesBuiltIn rs

def optionBuiltIn : Option Rule → Bool
  | none => true
  | some r => r.isBuiltIn

end

mutual

/-- The names of the properties that the rule and all rules nested in it declare. -/
def Rule.propertyNames : Rule → List String
  | .node _ checks _ _ => namesOfChecks checks

def Check.propertyNames : Check → List String
  | .leaf _ => []
  | .properties children => namesOfProperties children
  | .additional _ rule => rule.propertyNames
  | .items rule => rule.propertyNames
  | .tuple rules => namesOfRules rules
  | .allOf branches => namesOfRules branches
  | .anyOf branches => namesOfRules branches
  | .oneOf branches => namesOfRules branches
  | .excluded rule => rule.propertyNames
  | .conditional condition met unmet =>
    condition.propertyNames ++ namesOfOption met ++ namesOfOption unmet
  | .custom _ _ rules _ => namesOfRules rules

def namesOfChecks : List Check → List String
  | [] => []
  | c :: cs => c.propertyNames ++ namesOfChecks cs

def namesOfProperties : List Property → List String
  | [] => []
  | .mk key _ rule :: ps => key :: rule.propertyNames ++ namesOfProperties ps

def namesOfRules : List Rule → List String
  | [] => []
  | r :: rs => r.propertyNames ++ namesOfRules rs

def namesOfOption : Option Rule → List String
  | none => []
  | some r => r.propertyNames

end

mutual

/-- Made of built-in keywords only, at every depth, and all names of properties are `ok`. -/
inductive Rule.Built (ok : String → Prop) : Rule → Prop where
  | node {location : String} {checks : List Check} {messages : NodeMessages}
      {declaration : Declaration} (built : ∀ c ∈ checks, Check.Built ok c) :
      Rule.Built ok (.node location checks messages declaration)

inductive Check.Built (ok : String → Prop) : Check → Prop where
  | leaf (l : Leaf) : Check.Built ok (.leaf l)
  | properties {children : List Property}
      (names : ∀ key required rule, .mk key required rule ∈ children → ok key)
      (built : ∀ key required rule, .mk key required rule ∈ children → Rule.Built ok rule) :
      Check.Built ok (.properties children)
  | additional {known : List String} {rule : Rule} (built : Rule.Built ok rule) :
      Check.Built ok (.additional known rule)
  | items {rule : Rule} (built : Rule.Built ok rule) : Check.Built ok (.items rule)
  | tuple {rules : List Rule} (built : ∀ r ∈ rules, Rule.Built ok r) :
      Check.Built ok (.tuple rules)
  | allOf {branches : List Rule} (built : ∀ r ∈ branches, Rule.Built ok r) :
      Check.Built ok (.allOf branches)
  | anyOf {branches : List Rule} (built : ∀ r ∈ branches, Rule.Built ok r) :
      Check.Built ok (.anyOf branches)
  | oneOf {branches : List Rule} (built : ∀ r ∈ branches, Rule.Built ok r) :
      Check.Built ok (.oneOf branches)
  | excluded {rule : Rule} (built : Rule.Built ok rule) : Check.Built ok (.excluded rule)
  | conditional {condition : Rule} {met unmet : Option Rule} (built : Rule.Built ok condition)
      (whenMet : ∀ r ∈ met, Rule.Built ok r) (whenUnmet : ∀ r ∈ unmet, Rule.Built ok r) :
      Check.Built ok (.conditional condition met unmet)

end

/-- What is to be shown of each kind of rule and check. -/
structure Nesting (ok : String → Prop) (P : Rule → Prop) (Q : Check → Prop) : Prop where
  node : ∀ location checks messages declaration, (∀ c ∈ checks, Q c) →
    P (.node location checks messages declaration)
  leaf : ∀ l, Q (.leaf l)
  properties : ∀ children,
    (∀ key required rule, .mk key required rule ∈ children → ok key ∧ P rule) →
    Q (.properties children)
  additional : ∀ known rule, P rule → Q (.additional known rule)
  items : ∀ rule, P rule → Q (.items rule)
  tuple : ∀ rules, (∀ r ∈ rules, P r) → Q (.tuple rules)
  allOf : ∀ branches, (∀ r ∈ branches, P r) → Q (.allOf branches)
  anyOf : ∀ branches, (∀ r ∈ branches, P r) → Q (.anyOf branches)
  oneOf : ∀ branches, (∀ r ∈ branches, P r) → Q (.oneOf branches)
  excluded : ∀ rule, P rule → Q (.excluded rule)
  conditional : ∀ condition met unmet, P condition → (∀ r ∈ met, P r) → (∀ r ∈ unmet, P r) →
    Q (.conditional condition met unmet)

namespace Nesting

variable {ok : String → Prop} {P : Rule → Prop} {Q : Check → Prop}

mutual

/-- What follows from one level to the next holds of every rule of built-in keywords. -/
theorem rule (n : Nesting ok P Q) {r : Rule} (h : r.Built ok) : P r := by
  match h with
  | .node built => exact n.node _ _ _ _ fun c hc => n.check (built c hc)

theorem check (n : Nesting ok P Q) {c : Check} (h : c.Built ok) : Q c := by
  match h with
  | .leaf l => exact n.leaf l
  | .properties names built =>
    exact n.properties _ fun key required r hr =>
      ⟨names key required r hr, n.rule (built key required r hr)⟩
  | .additional built => exact n.additional _ _ (n.rule built)
  | .items built => exact n.items _ (n.rule built)
  | .tuple built => exact n.tuple _ fun r hr => n.rule (built r hr)
  | .allOf built => exact n.allOf _ fun r hr => n.rule (built r hr)
  | .anyOf built => exact n.anyOf _ fun r hr => n.rule (built r hr)
  | .oneOf built => exact n.oneOf _ fun r hr => n.rule (built r hr)
  | .excluded built => exact n.excluded _ (n.rule built)
  | .conditional built whenMet whenUnmet =>
    exact n.conditional _ _ _ (n.rule built) (fun r hr => n.rule (whenMet r hr))
      fun r hr => n.rule (whenUnmet r hr)

end

end Nesting

/-- What is made of built-in keywords at one level and at all below is so itself. -/
theorem Rule.built_nesting (ok : String → Prop) : Nesting ok (Rule.Built ok) (Check.Built ok) where
  node _ _ _ _ h := .node h
  leaf l := .leaf l
  properties _ h := .properties (fun key required rule hp => (h key required rule hp).1)
    fun key required rule hp => (h key required rule hp).2
  additional _ _ h := .additional h
  items _ h := .items h
  tuple _ h := .tuple h
  allOf _ h := .allOf h
  anyOf _ h := .anyOf h
  oneOf _ h := .oneOf h
  excluded _ h := .excluded h
  conditional _ _ _ hc hm hu := .conditional hc hm hu

section

variable {ok : String → Prop}

mutual

/-- What is made of built-in keywords is so at every depth, and so are the names that are declared
somewhere within. -/
theorem Rule.built_of_names (r : Rule) (h : r.isBuiltIn = true)
    (names : ∀ k ∈ r.propertyNames, ok k) : r.Built ok := by
  match r with
  | .node location checks messages declaration =>
    rw [Rule.isBuiltIn] at h
    rw [Rule.propertyNames] at names
    exact .node (checksBuilt_of_names checks h names)

theorem Check.built_of_names (c : Check) (h : c.isBuiltIn = true)
    (names : ∀ k ∈ c.propertyNames, ok k) : c.Built ok := by
  match c with
  | .leaf l => exact .leaf l
  | .properties children =>
    rw [Check.propertyNames] at names
    have hp := propertiesBuilt_of_names children h names
    exact .properties (fun key required rule hm => (hp key required rule hm).1)
      fun key required rule hm => (hp key required rule hm).2
  | .additional known r =>
    rw [Check.propertyNames] at names
    exact .additional (r.built_of_names h names)
  | .items r =>
    rw [Check.propertyNames] at names
    exact .items (r.built_of_names h names)
  | .tuple rules =>
    rw [Check.propertyNames] at names
    exact .tuple (rulesBuilt_of_names rules h names)
  | .allOf branches =>
    rw [Check.propertyNames] at names
    exact .allOf (rulesBuilt_of_names branches h names)
  | .anyOf branches =>
    rw [Check.propertyNames] at names
    exact .anyOf (rulesBuilt_of_names branches h names)
  | .oneOf branches =>
    rw [Check.propertyNames] at names
    exact .oneOf (rulesBuilt_of_names branches h names)
  | .excluded r =>
    rw [Check.propertyNames] at names
    exact .excluded (r.built_of_names h names)
  | .conditional condition met unmet =>
    rw [Check.isBuiltIn, Bool.and_eq_true, Bool.and_eq_true] at h
    rw [Check.propertyNames, List.forall_mem_append, List.forall_mem_append] at names
    exact .conditional (condition.built_of_names h.1.1 names.1.1)
      (optionBuilt_of_names met h.1.2 names.1.2) (optionBuilt_of_names unmet h.2 names.2)
  | .custom .. =>
    rw [Check.isBuiltIn] at h
    cases h

theorem checksBuilt_of_names (cs : List Check) (h : checksBuiltIn cs = true)
    (names : ∀ k ∈ namesOfChecks cs, ok k) : ∀ c ∈ cs, c.Built ok := by
  match cs with
  | [] =>
    intro c hc
    cases hc
  | c :: cs =>
    rw [checksBuiltIn, Bool.and_eq_true] at h
    rw [namesOfChecks, List.forall_mem_append] at names
    exact List.forall_mem_cons.2
      ⟨c.built_of_names h.1 names.1, checksBuilt_of_names cs h.2 names.2⟩

theorem propertiesBuilt_of_names (ps : List Property) (h : propertiesBuiltIn ps = true)
    (names : ∀ k ∈ namesOfProperties ps, ok k) :
    ∀ key required rule, .mk key required rule ∈ ps → ok key ∧ rule.Built ok := by
  match ps with
  | [] =>
    intro key required r hp
    cases hp
  | .mk key required r :: ps =>
    rw [propertiesBuiltIn, Bool.and_eq_true] at h
    rw [namesOfProperties, List.cons_append, List.forall_mem_cons, List.forall_mem_append] at names
    intro key' required' r' hp
    rcases List.mem_cons.1 hp with he | hp
    · cases he
      exact ⟨names.1, r.built_of_names h.1 names.2.1⟩
    · exact propertiesBuilt_of_names ps h.2 names.2.2 key' required' r' hp

theorem rulesBuilt_of_names (rs : List Rule) (h : rulesBuiltIn rs = true)
    (names : ∀ k ∈ namesOfRules rs, ok k) : ∀ r ∈ rs, r.Built ok := by
  match rs with
  | [] =>
    intro r hr
    cases hr
  | r :: rs =>
    rw [rulesBuiltIn, Bool.and_eq_true] at h
    rw [namesOfRules, List.forall_mem_append] at names
    exact List.forall_mem_cons.2
      ⟨r.built_of_names h.1 names.1, rulesBuilt_of_names rs h.2 names.2⟩

theorem optionBuilt_of_names (r : Option Rule) (h : optionBuiltIn r = true)
    (names : ∀ k ∈ namesOfOption r, ok k) : ∀ r' ∈ r, r'.Built ok := by
  match r with
  | none =>
    intro r hr
    cases hr
  | some r =>
    intro r' hr
    rw [Option.mem_some_iff] at hr
    rw [← hr]
    exact r.built_of_names h names

end

theorem Rule.built_of_isBuiltIn (r : Rule) (h : r.isBuiltIn = true) : r.Built fun _ => True :=
  r.built_of_names h fun _ _ => trivial

end

theorem checksBuiltIn_of_forall {cs : List Check} (h : ∀ c ∈ cs, c.isBuiltIn = true) :
    checksBuiltIn cs = true := by
  induction cs with
  | nil => rfl
  | cons c cs ih =>
    rw [checksBuiltIn, Bool.and_eq_true]
    exact ⟨h c List.mem_cons_self, ih fun c hc => h c (List.mem_cons_of_mem _ hc)⟩

theorem propertiesBuiltIn_of_forall {ps : List Property}
    (h : ∀ key required rule, .mk key required rule ∈ ps → rule.isBuiltIn = true) :
    propertiesBuiltIn ps = true := by
  induction ps with
  | nil => rfl
  | cons p ps ih =>
    obtain ⟨key, required, rule⟩ := p
    rw [propertiesBuiltIn, Bool.and_eq_true]
    exact ⟨h key required rule List.mem_cons_self,
      ih fun key required rule hp => h key required rule (List.mem_cons_of_mem _ hp)⟩

theorem rulesBuiltIn_of_forall {rs : List Rule} (h : ∀ r ∈ rs, r.isBuiltIn = true) :
    rulesBuiltIn rs = true := by
  induction rs with
  | nil => rfl
  | cons r rs ih =>
    rw [rulesBuiltIn, Bool.and_eq_true]
    exact ⟨h r List.mem_cons_self, ih fun r hr => h r (List.mem_cons_of_mem _ hr)⟩

theorem optionBuiltIn_of_forall {r : Option Rule} (h : ∀ r' ∈ r, r'.isBuiltIn = true) :
    optionBuiltIn r = true := by
  cases r with
  | none => rfl
  | some r => exact h r rfl

theorem isBuiltIn_nesting (ok : String → Prop) :
    Nesting ok (fun r => r.isBuiltIn = true) (fun c => c.isBuiltIn = true) where
  node _ _ _ _ h := checksBuiltIn_of_forall h
  leaf _ := rfl
  properties _ h := propertiesBuiltIn_of_forall fun key required rule hp =>
    (h key required rule hp).2
  additional _ _ h := h
  items _ h := h
  tuple _ h := rulesBuiltIn_of_forall h
  allOf _ h := rulesBuiltIn_of_forall h
  anyOf _ h := rulesBuiltIn_of_forall h
  oneOf _ h := rulesBuiltIn_of_forall h
  excluded _ h := h
  conditional _ _ _ hc hm hu := by
    rw [Check.isBuiltIn, Bool.and_eq_true, Bool.and_eq_true]
    exact ⟨⟨hc, optionBuiltIn_of_forall hm⟩, optionBuiltIn_of_forall hu⟩

theorem Rule.Built.isBuiltIn {ok : String → Prop} {r : Rule} (h : r.Built ok) :
    r.isBuiltIn = true := (isBuiltIn_nesting ok).rule h

section

variable (options : EvalOptions)

theorem walkersOf_eq_map (rs : List Rule) :
    walkersOf options rs = rs.map (Rule.walker options) := by
  induction rs with
  | nil => rw [walkersOf, List.map_nil]
  | cons r rs ih =>
    rw [walkersOf, ih]
    rfl

theorem walkerOf?_eq_map (r : Option Rule) : walkerOf? options r = r.map (Rule.walker options) := by
  cases r <;> rw [walkerOf?] <;> rfl

theorem readyChecks_eq_map (cs : List Check) :
    readyChecks options cs = cs.map fun c => ⟨c.keyword, c.isCompound, c.walk options⟩ := by
  induction cs with
  | nil => rw [readyChecks, List.map_nil]
  | cons c cs ih => rw [readyChecks, ih, List.map_cons]

/-- In full mode no check is left out. -/
theorem Check.runAll_full {route : Route} {finish : List Outcome → Walk} {os : List Outcome}
    {c : Ready} {cs : List Ready} :
    runAll .full route finish os (c :: cs) =
      (c.walk .full route).andThen fun o =>
        runAll .full route finish (os ++ [o.attributed c.keyword]) cs := by
  rw [runAll, if_neg (by simp)]

/-- The visit that a property asks for. -/
def Property.visit (route : Route) : Property → Check.Visit
  | .mk key required rule =>
    ⟨rule.walker options, route.childNamed key, { required := required }⟩

theorem propertyVisits_eq_map (route : Route) (ps : List Property) :
    propertyVisits options route ps = ps.map (Property.visit options route) := by
  induction ps with
  | nil => rw [propertyVisits, List.map_nil]
  | cons p ps ih =>
    cases p
    rw [propertyVisits, ih]
    rfl

end

end Conform
