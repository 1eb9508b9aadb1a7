import Conform.Proofs.Grammar

/-!
# Leaves and names from a schema

What the leaves of a rule hold and which properties it names is decided by the schema that it is
the compiled form of. A condition on schemas that reaches from a schema to the schemas in it, and
bounds the leaves and names of one node, bounds those of the whole rule.
-/

namespace Conform

mutual

/-- Made of built-in keywords only; at every depth the names of properties are `name` and the leaves
are `leaf`. -/
inductive Rule.Made (name : String → Prop) (leaf : Leaf → Prop) : Rule → Prop where
  | node {location : String} {checks : List Check} {messages : NodeMessages}
      {declaration : Declaration} (made : ∀ c ∈ checks, Check.Made name leaf c) :
      Rule.Made name leaf (.node location checks messages declaration)

inductive Check.Made (name : String → Prop) (leaf : Leaf → Prop) : Check → Prop where
  | leaf {l : Leaf} (holds : leaf l) : Check.Made name leaf (.leaf l)
  | properties {children : List Property}
      (names : ∀ key required rule, .mk key required rule ∈ children → name key)
      (made : ∀ key required rule, .mk key required rule ∈ children → Rule.Made name leaf rule) :
      Check.Made name leaf (.properties children)
  | additional {known : List String} {rule : Rule} (made : Rule.Made name leaf rule) :
      Check.Made name leaf (.additional known rule)
  | items {rule : Rule} (made : Rule.Made name leaf rule) : Check.Made name leaf (.items rule)
  | tuple {rules : List Rule} (made : ∀ r ∈ rules, Rule.Made name leaf r) :
      Check.Made name leaf (.tuple rules)
  | allOf {branches : List Rule} (made : ∀ r ∈ branches, Rule.Made name leaf r) :
      Check.Made name leaf (.allOf branches)
  | anyOf {branches : List Rule} (made : ∀ r ∈ branches, Rule.Made name leaf r) :
      Check.Made name leaf (.anyOf branches)
  | oneOf {branches : List Rule} (made : ∀ r ∈ branches, Rule.Made name leaf r) :
      Check.Made name leaf (.oneOf branches)
  | excluded {rule : Rule} (made : Rule.Made name leaf rule) : Check.Made name leaf (.excluded rule)
  | conditional {condition : Rule} {met unmet : Option Rule}
      (made : Rule.Made name leaf condition) (whenMet : ∀ r ∈ met, Rule.Made name leaf r)
      (whenUnmet : ∀ r ∈ unmet, Rule.Made name leaf r) :
      Check.Made name leaf (.conditional condition met unmet)

end

section

variable {name : String → Prop} {leaf : Leaf → Prop}

mutual

theorem Rule.Made.built {r : Rule} (h : r.Made name leaf) : r.Built name := by
  match h with
  | .node made => exact .node fun c hc => (made c hc).built

theorem Check.Made.built {c : Check} (h : c.Made name leaf) : c.Built name := by
  match h with
  | .leaf _ => exact .leaf _
  | .properties names made =>
    exact .properties names fun key required rule hp => (made key required rule hp).built
  | .additional made => exact .additional made.built
  | .items made => exact .items made.built
  | .tuple made => exact .tuple fun r hr => (made r hr).built
  | .allOf made => exact .allOf fun r hr => (made r hr).built
  | .anyOf made => exact .anyOf fun r hr => (made r hr).built
  | .oneOf made => exact .oneOf fun r hr => (made r hr).built
  | .excluded made => exact .excluded made.built
  | .conditional made whenMet whenUnmet =>
    exact .conditional made.built (fun r hr => (whenMet r hr).built)
      fun r hr => (whenUnmet r hr).built

end

theorem Rule.Made.isBuiltIn {r : Rule} (h : r.Made name leaf) : r.isBuiltIn = true :=
  h.built.isBuiltIn

end

theorem Annotations.mem_of_namedFilters {r : Registry} {location : String} {names : List String}
    {filters : List Filter} (h : namedFilters r location names = .ok filters) :
    ∀ f ∈ filters, f ∈ r.filters ++ Filter.builtIn := by
  induction names generalizing filters with
  | nil =>
    cases h
    exact fun f hf => (nomatch hf)
  | cons name names ih =>
    rw [namedFilters] at h
    split at h
    · cases h
    · next f hf =>
      obtain ⟨rest, hrest, rfl⟩ := Except.ok_of_map h
      exact List.forall_mem_cons.2 ⟨List.mem_of_find?_eq_some hf, ih hrest⟩

/-- A condition on schemas that reaches from a schema to the schemas in it and bounds what a node
holds by itself. -/
structure Spread (schema : Value → Prop) (name : String → Prop) (leaf : Leaf → Prop) :
    Prop where
  never : leaf .never
  annotations : ∀ {fields location a}, fields = [] ∨ schema (.object fields) →
    Annotations.parse .standard fields location = .ok a →
    leaf (.annotations a.default a.filters a.constant)
  keyword : ∀ {fields k payload l}, schema (.object fields) →
    (BuiltIn.name k, payload) ∈ fields → k.MakesLeaf fields payload l → leaf l
  names : ∀ {fields entries}, schema (.object fields) →
    ("properties", .object entries) ∈ fields → ∀ e ∈ entries, name e.1
  nested : ∀ {fields k payload}, schema (.object fields) → (BuiltIn.name k, payload) ∈ fields →
    ∀ v ∈ k.schemas payload, schema v
  branches : ∀ {fields key v}, schema (.object fields) → "if" ∈ Dict.keys fields →
    key ∈ ["then", "else"] → Dict.get? key fields = some v → schema v

section

variable {schema : Value → Prop} {name : String → Prop} {leaf : Leaf → Prop}

theorem BuiltIn.Makes.made {R : Value → Rule → Prop} {node : Dict Value} {k : BuiltIn}
    {payload : Value} {c : Check} (h : k.Makes R node payload c)
    (leaves : ∀ l, k.MakesLeaf node payload l → leaf l)
    (names : k = .properties → ∀ entries, payload = .object entries → ∀ e ∈ entries, name e.1)
    (hrules : ∀ x ∈ c.rules, x.Made name leaf) : c.Made name leaf := by
  cases h with
  | leaf made => exact .leaf (leaves _ made)
  | properties compiled =>
    refine .properties (fun key required rule hp => ?_)
      fun key required rule hp => hrules rule (List.mem_map.2 ⟨_, hp, rfl⟩)
    obtain ⟨e, he, -, hkey⟩ := exists_of_forall₂ compiled.flip hp
    cases hkey
    exact names rfl _ rfl e he
  | additional => exact .additional (hrules _ List.mem_cons_self)
  | items => exact .items (hrules _ List.mem_cons_self)
  | tuple => exact .tuple hrules
  | allOf => exact .allOf hrules
  | anyOf => exact .anyOf hrules
  | oneOf => exact .oneOf hrules
  | excluded => exact .excluded (hrules _ List.mem_cons_self)
  | conditional =>
    simp only [Check.rules, List.mem_cons, List.mem_append, Option.mem_toList] at hrules
    exact .conditional (hrules _ (.inl rfl)) (fun r hr => hrules r (.inr (.inl hr)))
      fun r hr => hrules r (.inr (.inr hr))

/-- What a keyword leads to in a schema are schemas of its kind. -/
theorem Spread.of_keyword (sp : Spread schema name leaf) {fields : Dict Value}
    (hv : schema (.object fields)) {k : BuiltIn} {payload : Value}
    (mem : (k.name, payload) ∈ fields) {w : Value}
    (hw : w ∈ k.schemas payload ∨ ∃ key ∈ k.reserves, Dict.get? key fields = some w) :
    schema w := by
  rcases hw with hw | ⟨key, hkey, get⟩
  · exact sp.nested hv mem w hw
  · cases k with
    | conditional => exact sp.branches hv (List.mem_map.2 ⟨_, mem, rfl⟩) hkey get
    | _ => cases hkey

/-- A schema that is compiled as a node with these keys holds none, or is that object. -/
theorem of_eq_object {v : Value} {fields : Dict Value}
    (h : v = .object fields ∨ v = .bool true ∧ fields = []) (hv : schema v) :
    fields = [] ∨ schema (.object fields) := by
  rcases h with rfl | ⟨-, rfl⟩
  · exact .inr hv
  · exact .inl rfl

theorem Registry.Compiles.made (sp : Spread schema name leaf) {r : Rule} {v : Value} (hv : schema v)
    (h : standard.Compiles v r) : r.Made name leaf := by
  induction r using Rule.rules_induction generalizing v with
  | step r ih =>
    obtain ⟨location, h⟩ := h
    obtain ⟨-, rfl⟩ | ⟨fields, a, checks, raised, hobject, ha, made, rfl⟩ := eq_node_of_compileAt h
    · exact .node (List.forall_mem_singleton.2 (.leaf sp.never))
    · have hschema := of_eq_object hobject hv
      refine .node (List.forall_mem_cons.2 ⟨.leaf (sp.annotations hschema ha), fun c hc => ?_⟩)
      obtain ⟨⟨key, payload⟩, hf, hmade⟩ := exists_of_forall₂ made.flip hc
      have mem := List.mem_of_mem_filter hf
      have hnode : schema (.object fields) := hschema.resolve_left (List.ne_nil_of_mem mem)
      obtain ⟨k, rfl, makes⟩ := hmade.exists_builtIn
      refine makes.made (fun l => sp.keyword hnode mem) ?_ fun x hx => ?_
      · rintro rfl entries rfl
        exact sp.names hnode mem
      · obtain ⟨w, hw, compiled⟩ := exists_of_forall₂ makes.rules.flip hx
        rw [List.mem_append, List.mem_filterMap] at hw
        exact ih x (List.mem_flatMap.2 ⟨c, List.mem_cons_of_mem _ hc, hx⟩)
          (sp.of_keyword hnode mem hw) compiled

/-- What holds of a schema, of all schemas in it and so of each of its nodes holds of all leaves and
names of the rule. -/
theorem compile_made (sp : Spread schema name leaf) {v : Value} (hv : schema v) {rule : Rule}
    (h : compile .standard v = .ok rule) : rule.Made name leaf :=
  Registry.Compiles.made sp hv ⟨_, h⟩

end

end Conform
