import Conform.Proofs.Collected
import Conform.Proofs.Grammar

/-!
# Flags and the schemas below them

The rules that a node holds are the compiled forms of the schemas that stand directly in its schema,
one for one and in the same order. So a rule encloses the compiled forms of what its schema encloses
and no other rules. Main statement: the flag that the compiler leaves in a rule, of a schema or
within it, is raised exactly if a `dependsOn` that is not empty stands in the schema of that rule or
in a schema nested in it, however deep.
-/

namespace Conform

open List (Forall₂)

/-- The second schema is nested directly in the first. A boolean under `additionalProperties` is no
schema. -/
inductive Value.Nests : Value → Value → Prop where
  | property {fields entries : List (String × Value)} {name : String} {w : Value}
      (mem : ("properties", .object entries) ∈ fields) (entry : (name, w) ∈ entries) :
      Nests (.object fields) w
  | additional {fields extra : List (String × Value)}
      (mem : ("additionalProperties", .object extra) ∈ fields) :
      Nests (.object fields) (.object extra)
  | items {fields : List (String × Value)} {w : Value} (mem : ("items", w) ∈ fields)
      (single : ∀ ws, w ≠ .array ws) : Nests (.object fields) w
  | place {fields : List (String × Value)} {ws : List Value} {w : Value}
      (mem : ("items", .array ws) ∈ fields) (place : w ∈ ws) : Nests (.object fields) w
  | branch {fields : List (String × Value)} {key : String} {ws : List Value} {w : Value}
      (several : key ∈ ["allOf", "anyOf", "oneOf"]) (mem : (key, .array ws) ∈ fields)
      (branch : w ∈ ws) : Nests (.object fields) w
  | whole {fields : List (String × Value)} {key : String} {w : Value}
      (single : key ∈ ["not", "if"]) (mem : (key, w) ∈ fields) : Nests (.object fields) w
  | beside {fields : List (String × Value)} {key : String} {w : Value}
      (reserved : key ∈ ["then", "else"]) (get : Dict.get? key fields = some w) :
      Nests (.object fields) w

/-- A schema itself, or a schema nested in it at any depth. -/
def Value.Encloses : Value → Value → Prop := Relation.ReflTransGen Value.Nests

/-- An object with a `dependsOn` in which there is a path. -/
def Value.Depends (v : Value) : Prop :=
  ∃ fields paths names, v = .object fields ∧ Dict.get? "dependsOn" fields = some paths ∧
    paths.Names names ∧ names ≠ []

/-- The schemas that a key of a node leads to: those in its payload, and those beside it that belong
to it. -/
def Value.schemasUnder (node : Dict Value) (f : String × Value) : List Value :=
  match BuiltIn.named? f.1 with
  | some k => k.schemas f.2 ++ k.reserves.filterMap fun key => Dict.get? key node
  | none => []

/-- The schemas directly in a schema, key by key, in the order in which they are compiled. -/
def Value.schemas : Value → List Value
  | object fields => fields.flatMap (schemasUnder fields)
  | _ => []

namespace Value

variable {fields : List (String × Value)} {w : Value}

theorem mem_schemas : w ∈ (object fields).schemas ↔ ∃ (k : BuiltIn) (payload : Value),
    (k.name, payload) ∈ fields ∧
      (w ∈ k.schemas payload ∨ ∃ key ∈ k.reserves, Dict.get? key fields = some w) := by
  rw [schemas, List.mem_flatMap]
  constructor
  · rintro ⟨⟨key, payload⟩, hf, hw⟩
    rw [schemasUnder] at hw
    split at hw
    · next k hk =>
      obtain rfl := BuiltIn.named?_eq_some.1 hk
      rw [List.mem_append, List.mem_filterMap] at hw
      exact ⟨k, payload, hf, hw⟩
    · cases hw
  · rintro ⟨k, payload, hf, hw⟩
    refine ⟨_, hf, ?_⟩
    rwa [schemasUnder, BuiltIn.named?_name, List.mem_append, List.mem_filterMap]

/-- The schemas of a payload are nested in the node that holds the keyword. -/
theorem Nests.of_schemas {k : BuiltIn} {payload : Value} (mem : (k.name, payload) ∈ fields)
    (h : w ∈ k.schemas payload) : (object fields).Nests w := by
  cases k with
  | properties =>
    cases payload with
    | object entries =>
      obtain ⟨⟨name, w⟩, hentry, rfl⟩ := List.mem_map.1 h
      exact .property mem hentry
    | _ => cases h
  | additionalProperties =>
    cases payload with
    | object extra =>
      obtain rfl := List.mem_singleton.1 h
      exact .additional mem
    | _ => cases h
  | items =>
    cases payload with
    | array ws => exact .place mem h
    | _ =>
      obtain rfl := List.mem_singleton.1 h
      exact .items mem fun ws he => nomatch he
  | allOf | anyOf | oneOf =>
    cases payload with
    | array ws => exact .branch (by decide) mem h
    | _ => cases h
  | excluded | conditional =>
    obtain rfl := List.mem_singleton.1 h
    exact .whole (by decide) mem
  | _ => cases h

/-- What is nested in a well-formed object is what its keywords lead to: `then` and `else` stand
beside an `if`. -/
theorem nests_iff (wellFormed : WellFormed (object fields)) :
    (object fields).Nests w ↔ w ∈ (object fields).schemas := by
  rw [mem_schemas]
  constructor
  · intro h
    cases h with
    | property mem entry =>
      exact ⟨.properties, _, mem, .inl (List.mem_map.2 ⟨_, entry, rfl⟩)⟩
    | additional mem => exact ⟨.additionalProperties, _, mem, .inl List.mem_cons_self⟩
    | items mem single =>
      refine ⟨.items, _, mem, .inl ?_⟩
      cases w with
      | array ws => exact absurd rfl (single ws)
      | _ => exact List.mem_cons_self
    | place mem place => exact ⟨.items, _, mem, .inl place⟩
    | branch several mem branch =>
      simp only [List.mem_cons, List.not_mem_nil, or_false] at several
      rcases several with rfl | rfl | rfl
      · exact ⟨.allOf, _, mem, .inl branch⟩
      · exact ⟨.anyOf, _, mem, .inl branch⟩
      · exact ⟨.oneOf, _, mem, .inl branch⟩
    | whole single mem =>
      simp only [List.mem_cons, List.not_mem_nil, or_false] at single
      rcases single with rfl | rfl
      · exact ⟨.excluded, _, mem, .inl List.mem_cons_self⟩
      · exact ⟨.conditional, _, mem, .inl List.mem_cons_self⟩
    | @beside _ key _ reserved get =>
      cases wellFormed with
      | object _ keys =>
        rcases keys _ (Dict.mem_of_get? get) with hkey | ⟨-, hif⟩ | ⟨k, hname, -⟩
        · have hne : ∀ key ∈ ["then", "else"], key ∉ Annotations.keys := by decide
          exact absurd hkey (hne key reserved)
        · obtain ⟨⟨_, payload⟩, hf, rfl⟩ := List.mem_map.1 hif
          exact ⟨.conditional, payload, hf, .inr ⟨key, reserved, get⟩⟩
        · exact absurd (hname ▸ reserved) k.name_not_reserved.2
  · rintro ⟨k, payload, mem, h | ⟨key, hkey, get⟩⟩
    · exact .of_schemas mem h
    · cases k with
      | conditional => exact .beside hkey get
      | _ => cases hkey

end Value

theorem compileAt_location {registry : Registry} {v : Value} {location : String} {r : Rule}
    (h : compileAt registry v location = .ok r) : r.location = location := by
  obtain ⟨-, rfl⟩ | ⟨fields, a, checks, raised, -, -, -, rfl⟩ := compileAt_eq_ok h
  · rfl
  · rfl

/-- The rule is what a schema compiles to, where the rule says that the schema stands. -/
def Value.CompilesTo (v : Value) (r : Rule) : Prop := compileAt .standard v r.location = .ok r

theorem Value.CompilesTo.of_compileAt {v : Value} {location : String} {r : Rule}
    (h : compileAt .standard v location = .ok r) : v.CompilesTo r := by
  rwa [CompilesTo, compileAt_location h]

theorem Value.compilesTo_iff {v : Value} {r : Rule} :
    v.CompilesTo r ↔ Registry.standard.Compiles v r :=
  ⟨fun h => ⟨_, h⟩, fun ⟨_, h⟩ => .of_compileAt h⟩

/-- A key that is no keyword leads to no schema. -/
theorem Value.schemasUnder_of_reserved {node : Dict Value} {f : String × Value}
    (reserved : f.1 ∈ Compile.reservedKeys .standard node) : schemasUnder node f = [] := by
  rw [schemasUnder, BuiltIn.named?_of_reserved reserved]

/-- The rules of a check are compiled from what its key leads to. -/
theorem Registry.Makes.rules {node : Dict Value} {f : String × Value} {c : Check}
    (h : standard.Makes Value.CompilesTo node f c) :
    Forall₂ Value.CompilesTo (Value.schemasUnder node f) c.rules := by
  obtain ⟨key, payload⟩ := f
  obtain ⟨k, rfl, made⟩ := h.exists_builtIn
  rw [Value.schemasUnder, BuiltIn.named?_name]
  exact made.rules

theorem forall₂_flatMap {α β γ δ : Type} {R : α → β → Prop} {S : γ → δ → Prop} {f : α → List γ}
    {g : β → List δ} (hfg : ∀ a b, R a b → Forall₂ S (f a) (g b)) {as : List α} {bs : List β}
    (h : Forall₂ R as bs) : Forall₂ S (as.flatMap f) (bs.flatMap g) := by
  induction h with
  | nil => exact .nil
  | cons hab _ ih =>
    rw [List.flatMap_cons, List.flatMap_cons]
    exact List.rel_append (hfg _ _ hab) ih

theorem Value.flatMap_schemasUnder (node entries : Dict Value) :
    entries.flatMap (schemasUnder node) =
      (entries.filter fun f =>
        !(Compile.reservedKeys .standard node).contains f.1).flatMap (schemasUnder node) := by
  induction entries with
  | nil => rfl
  | cons f entries ih =>
    rw [List.flatMap_cons, ih]
    by_cases h : f.1 ∈ Compile.reservedKeys .standard node
    · rw [schemasUnder_of_reserved h, List.filter_cons_of_neg (by simpa using h), List.nil_append]
    · rw [List.filter_cons_of_pos (by simpa using h), List.flatMap_cons]

/-- **Rules follow schemas.** The rules that a node holds are, in order, what the schemas directly
in its schema compile to. -/
theorem Value.CompilesTo.rules {v : Value} {r : Rule} (h : v.CompilesTo r) :
    Forall₂ Value.CompilesTo v.schemas r.rules := by
  obtain ⟨location, h⟩ := compilesTo_iff.1 h
  obtain ⟨rfl, rfl⟩ | ⟨fields, a, checks, raised, hv, -, made, rfl⟩ :=
    Registry.eq_node_of_compileAt h
  · exact .nil
  · have hschemas :
        v.schemas = (Registry.standard.payloads fields).flatMap (schemasUnder fields) := by
      rw [Registry.payloads, ← flatMap_schemasUnder]
      rcases hv with rfl | ⟨rfl, rfl⟩
      · rfl
      · rfl
    have hmade : Forall₂ (Registry.standard.Makes CompilesTo fields)
        (Registry.standard.payloads fields) checks := by
      have hR : Registry.standard.Compiles = CompilesTo := by
        funext w x
        exact propext compilesTo_iff.symm
      rwa [← hR]
    rw [hschemas]
    -- the check of the annotations holds no rule
    have hrules := forall₂_flatMap (fun _ _ hc => Registry.Makes.rules hc) hmade
    exact hrules

/-- A node depends on other places if its schema has a `dependsOn` with a path in it. -/
theorem Value.CompilesTo.dependsOn_ne_nil {v : Value} {r : Rule} (h : v.CompilesTo r) :
    r.dependsOn ≠ [] ↔ v.Depends := by
  obtain ⟨location, h⟩ := compilesTo_iff.1 h
  obtain ⟨rfl, rfl⟩ | ⟨fields, a, checks, raised, hv, ha, -, rfl⟩ :=
    Registry.eq_node_of_compileAt h
  · simp [Rule.dependsOn, Rule.declaration, Depends]
  · have hdepends : v.Depends ↔ ∃ paths names, Dict.get? "dependsOn" fields = some paths ∧
        paths.Names names ∧ names ≠ [] := by
      rcases hv with rfl | ⟨rfl, rfl⟩
      · simp [Depends]
      · simp [Depends]
    obtain ⟨hsome, hnone⟩ := Annotations.strings_eq_ok location (Annotations.parse_eq_ok ha).dependsOn
    rw [hdepends, Rule.dependsOn, Rule.declaration, Annotations.declaration]
    constructor
    · intro hne
      cases hv : Dict.get? "dependsOn" fields with
      | none => exact absurd (hnone hv) hne
      | some paths => exact ⟨paths, a.dependsOn, rfl, hsome paths hv, hne⟩
    · rintro ⟨paths, names, hv, hnames, hne⟩
      rwa [(hsome paths hv).unique hnames]

/-- What is related step by step is related after any number of steps. -/
theorem exists_of_reflTransGen {α β : Type} {R : α → β → Prop} {p : α → α → Prop}
    {q : β → β → Prop} (step : ∀ {a b x}, R a b → p a x → ∃ y, q b y ∧ R x y) {a x : α} {b : β}
    (h : Relation.ReflTransGen p a x) (hab : R a b) :
    ∃ y, Relation.ReflTransGen q b y ∧ R x y := by
  induction h with
  | refl => exact ⟨b, .refl, hab⟩
  | tail _ hp ih =>
    obtain ⟨y, hy, hR⟩ := ih
    obtain ⟨z, hz, hR⟩ := step hR hp
    exact ⟨z, hy.tail hz, hR⟩

namespace Value.CompilesTo

variable {v w : Value} {r x : Rule}

theorem wellFormed (h : v.CompilesTo r) : WellFormed v :=
  (compileAt_isOk v r.location).1 (Except.isOk_iff.2 ⟨r, h⟩)

/-- The schemas nested directly in a schema are those that are compiled for its rule. -/
theorem nests_iff (h : v.CompilesTo r) : v.Nests w ↔ w ∈ v.schemas := by
  cases h.wellFormed with
  | bool b =>
    constructor
    · intro hw
      cases hw
    · intro hw
      cases hw
  | object annotated keys nested branches =>
    exact Value.nests_iff (.object annotated keys nested branches)

/-- Each schema within a schema has its rule within the rule. -/
theorem exists_rule (h : v.CompilesTo r) (hw : v.Encloses w) :
    ∃ x, r.Encloses x ∧ w.CompilesTo x := by
  refine exists_of_reflTransGen (fun hv hw => ?_) hw h
  exact exists_of_forall₂ hv.rules (hv.nests_iff.1 hw)

/-- Each rule within a rule has its schema within the schema. -/
theorem exists_schema (h : v.CompilesTo r) (hx : r.Encloses x) :
    ∃ w, v.Encloses w ∧ w.CompilesTo x := by
  refine exists_of_reflTransGen (R := flip CompilesTo) (fun hv hx => ?_) hx h
  obtain ⟨w, hw, compiles⟩ := exists_of_forall₂ hv.rules.flip hx
  exact ⟨w, hv.nests_iff.2 hw, compiles⟩

/-- The flag of a rule tells whether its schema depends on other places, here or further down. -/
theorem declaresDependents_iff (h : v.CompilesTo r) :
    r.declaresDependents = true ↔ ∃ w, v.Encloses w ∧ w.Depends := by
  rw [(compilesTo_iff.1 h).collects.declaresDependents_iff]
  constructor
  · rintro ⟨x, hx, depends⟩
    obtain ⟨w, hw, compiles⟩ := h.exists_schema hx
    exact ⟨w, hw, compiles.dependsOn_ne_nil.1 depends⟩
  · rintro ⟨w, hw, depends⟩
    obtain ⟨x, hx, compiles⟩ := h.exists_rule hw
    exact ⟨x, hx, compiles.dependsOn_ne_nil.2 depends⟩

end Value.CompilesTo

/-- **Flags are exact.** Whatever rule there is within the rule of a schema, at any depth, is what a
schema within that one compiles to. And whichever schema a rule is compiled from, its flag is raised
if and only if a `dependsOn` that is not empty stands in that schema or in one nested in it. -/
theorem flagged_iff_depends_below {schema : Value} {rule node : Rule}
    (compiled : compile .standard schema = .ok rule) (inside : rule.Encloses node) :
    (∃ v, schema.Encloses v ∧ v.CompilesTo node) ∧
      ∀ v : Value, v.CompilesTo node →
        (node.declaresDependents = true ↔ ∃ w, v.Encloses w ∧ w.Depends) :=
  ⟨(Value.CompilesTo.of_compileAt compiled).exists_schema inside,
    fun _ compiles => compiles.declaresDependents_iff⟩

/-- The schema of what is under `/a`: only a branch of an excluded schema of a place of an array
depends on another place. -/
def buriedSchema : Value :=
  .object [("if", .object []), ("then", .object [("items", .array [.bool true,
    .object [("not", .object [("anyOf", .array [.object [("dependsOn", .string "../../b")]])])]])])]

/-- The schema of what is under `/b`: the `dependsOn` in it is empty. -/
def pathlessSchema : Value :=
  .object [("additionalProperties", .object [("dependsOn", .array [])])]

def buriedRule : Rule :=
  .node "#/properties/a" [.leaf (.annotations none [] {}), .conditional
    (.node "#/properties/a/if" [.leaf (.annotations none [] {})] {} {}) (some
    (.node "#/properties/a/then" [.leaf (.annotations none [] {}), .tuple
      [.node "#/properties/a/then/items/0" [.leaf (.annotations none [] {})] {} {},
      .node "#/properties/a/then/items/1" [.leaf (.annotations none [] {}), .excluded
        (.node "#/properties/a/then/items/1/not" [.leaf (.annotations none [] {}), .anyOf
          [.node "#/properties/a/then/items/1/not/anyOf/0"
            [.leaf (.annotations none [] { dependsOn := ["../../b"] })] {}
            ⟨["../../b"], true⟩]] {} ⟨[], true⟩)] {} ⟨[], true⟩]] {} ⟨[], true⟩)) none] {}
    ⟨[], true⟩

def pathlessRule : Rule :=
  .node "#/properties/b" [.leaf (.annotations none [] {}), .additional []
    (.node "#/properties/b/additionalProperties" [.leaf (.annotations none [] {})] {} {})] {} {}

/-- The flag is raised for `/a` and not for `/b`. -/
theorem flagged_iff_depends_below_buried :
    (∃ rule, compile .standard (.object [("properties",
        .object [("a", buriedSchema), ("b", pathlessSchema)])]) = .ok rule ∧
      rule.Encloses buriedRule ∧ rule.Encloses pathlessRule) ∧
    (buriedRule.declaresDependents = true ∧ ∃ w, buriedSchema.Encloses w ∧ w.Depends) ∧
    (pathlessRule.declaresDependents = false ∧ ¬ ∃ w, pathlessSchema.Encloses w ∧ w.Depends) := by
  have compiled : compile .standard (.object [("properties",
      .object [("a", buriedSchema), ("b", pathlessSchema)])]) = .ok (.node "#"
        [.leaf (.annotations none [] {}), .properties
          [.mk "a" false buriedRule, .mk "b" false pathlessRule]] {} ⟨[], true⟩) := rfl
  have buried := flagged_iff_depends_below compiled (.single List.mem_cons_self)
  have pathless := flagged_iff_depends_below compiled
    (.single (List.mem_cons_of_mem _ List.mem_cons_self))
  have hburied : buriedRule.declaresDependents = true := by decide
  have hpathless : pathlessRule.declaresDependents = false := by decide
  refine ⟨⟨_, compiled, .single List.mem_cons_self,
    .single (List.mem_cons_of_mem _ List.mem_cons_self)⟩,
    ⟨hburied, (buried.2 buriedSchema rfl).1 hburied⟩, hpathless, fun h => ?_⟩
  rw [← pathless.2 pathlessSchema rfl] at h
  exact absurd (hpathless.symm.trans h) Bool.false_ne_true

end Conform
