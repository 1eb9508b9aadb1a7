import Conform.Proofs.Compiling
import Conform.Proofs.Enclosed
import Conform.Proofs.Pointer

/-!
# What keywords make

The compiler reads the payload of a keyword in code of its own for every keyword. `BuiltIn.Makes`
says in one place which check a keyword makes of which payload, where the rules in the check are
related to the schemas they come from. So a rule that a schema compiles to is taken apart level by
level: its checks are those of the annotations and, one for one and in order, those of the keywords
in the node, and the rules in these are compiled from schemas in the node.
-/

namespace Conform

open List (Forall₂)

/-- The schemas in a payload that a keyword takes. -/
def BuiltIn.schemas : BuiltIn → Value → List Value
  | properties, .object fields => fields.map Prod.snd
  | items, .array schemas | allOf, .array schemas | anyOf, .array schemas
  | oneOf, .array schemas => schemas
  | additionalProperties, .object fields => [.object fields]
  | items, v | excluded, v | conditional, v => [v]
  | _, _ => []

/-- The leaf that a keyword makes of a payload with no schemas in it. -/
inductive BuiltIn.MakesLeaf (node : Dict Value) : BuiltIn → Value → Leaf → Prop where
  | type {payload : Value} {names : List String} {kinds : List Kind}
      (written : Compile.typeNames payload = some names)
      (named : names.mapM Kind.named? = some kinds) (some : kinds ≠ []) :
      MakesLeaf node .type payload (.type kinds)
  | enum (allowed : List Value) : MakesLeaf node .enum (.array allowed) (.enum allowed)
  | const (payload : Value) : MakesLeaf node .const payload (.const payload)
  | bound {b : Bound} {limit : Number}
      (positive : b = .multipleOf → limit.toDouble.le (.ofInt 0) = false) :
      MakesLeaf node (.bound b) (.number limit) (.bound b limit)
  | length (side : Side) {payload : Value} {n : Nat} (count : payload.nat? = some n) :
      MakesLeaf node (.length side) payload (.length side n)
  | pattern {source : String} {p : Pattern} (parsed : Pattern.ofText? source = some p) :
      MakesLeaf node .pattern (.string source) (.pattern source p)
  | itemCount (side : Side) {payload : Value} {n : Nat} (count : payload.nat? = some n) :
      MakesLeaf node (.itemCount side) payload (.itemCount side n)
  | uniqueItems (enabled : Bool) :
      MakesLeaf node .uniqueItems (.bool enabled) (.uniqueItems enabled)
  | present (needed : Bool) : MakesLeaf node .required (.bool needed) (.present needed)
  | requiredNames {payload : Value} {names : List String}
      (written : payload.strings? = some names) :
      MakesLeaf node .required payload (.requiredNames names)
  | additionalKeys (allowed : Bool) : MakesLeaf node .additionalProperties (.bool allowed)
      (.additionalKeys (Compile.propertyNames node) allowed)

/-- The check that a keyword makes of a payload, where `R` relates a schema to what it compiles
to. -/
inductive BuiltIn.Makes (R : Value → Rule → Prop) (node : Dict Value) :
    BuiltIn → Value → Check → Prop where
  | leaf {k : BuiltIn} {payload : Value} {l : Leaf} (made : k.MakesLeaf node payload l) :
      Makes R node k payload (.leaf l)
  | properties {entries : Dict Value} {children : List Property}
      (compiled : Forall₂ (fun e p => R e.2 p.rule ∧
        p = .mk e.1 ((Compile.requiredNames node).contains e.1) p.rule) entries children) :
      Makes R node .properties (.object entries) (.properties children)
  | additional {extra : Dict Value} {rule : Rule} (compiled : R (.object extra) rule) :
      Makes R node .additionalProperties (.object extra)
        (.additional (Compile.propertyNames node) rule)
  | items {schema : Value} {rule : Rule} (single : ∀ schemas, schema ≠ .array schemas)
      (compiled : R schema rule) : Makes R node .items schema (.items rule)
  | tuple {schemas : List Value} {rules : List Rule} (compiled : Forall₂ R schemas rules) :
      Makes R node .items (.array schemas) (.tuple rules)
  | allOf {schemas : List Value} {rules : List Rule} (compiled : Forall₂ R schemas rules) :
      Makes R node .allOf (.array schemas) (.allOf rules)
  | anyOf {schemas : List Value} {rules : List Rule} (compiled : Forall₂ R schemas rules) :
      Makes R node .anyOf (.array schemas) (.anyOf rules)
  | oneOf {schemas : List Value} {rules : List Rule} (compiled : Forall₂ R schemas rules) :
      Makes R node .oneOf (.array schemas) (.oneOf rules)
  | excluded {schema : Value} {rule : Rule} (compiled : R schema rule) :
      Makes R node .excluded schema (.excluded rule)
  | conditional {schema : Value} {condition : Rule} {met unmet : Option Rule}
      (compiled : R schema condition) (whenMet : Option.Rel R (Dict.get? "then" node) met)
      (whenUnmet : Option.Rel R (Dict.get? "else" node) unmet) :
      Makes R node .conditional schema (.conditional condition met unmet)

/-- The check that a registry makes of an entry of a node. -/
inductive Registry.Makes (registry : Registry) (R : Value → Rule → Prop) (node : Dict Value) :
    String × Value → Check → Prop where
  | builtIn {key : String} {k : BuiltIn} {payload : Value} {c : Check}
      (found : registry.find? key = some (.builtIn k)) (made : k.Makes R node payload c) :
      Makes registry R node (key, payload) c
  | custom {key : String} {k : Keyword} {payload : Value} {names : List String}
      {rules : List Rule} {run : CustomRun} (found : registry.find? key = some (.custom k))
      (named : k.nested payload = .ok names)
      (compiled : Forall₂ (fun name r => ∃ entries v, payload = .object entries ∧
        Dict.get? name entries = some v ∧ R v r) names rules)
      (built : k.build payload = .ok run) :
      Makes registry R node (key, payload) (.custom key k.compound rules run)

theorem exists_of_forall₂ {α β : Type} {R : α → β → Prop} {as : List α} {bs : List β}
    (h : Forall₂ R as bs) {a : α} (ha : a ∈ as) : ∃ b ∈ bs, R a b := by
  induction h with
  | nil => cases ha
  | cons hab _ ih =>
    rcases List.mem_cons.1 ha with rfl | ha
    · exact ⟨_, List.mem_cons_self, hab⟩
    · obtain ⟨b, hb, hR⟩ := ih ha
      exact ⟨b, List.mem_cons_of_mem _ hb, hR⟩

theorem forall₂_of_rel {R : Value → Rule → Prop} {v? : Option Value} {r? : Option Rule}
    (h : Option.Rel R v? r?) : Forall₂ R v?.toList r?.toList := by
  cases h with
  | none => exact .nil
  | some h => exact .cons h .nil

/-- The rules of the check come, in order, from the schemas in the payload and from those that
belong to the keyword. -/
theorem BuiltIn.Makes.rules {R : Value → Rule → Prop} {node : Dict Value} {k : BuiltIn}
    {payload : Value} {c : Check} (h : k.Makes R node payload c) :
    Forall₂ R (k.schemas payload ++ k.reserves.filterMap fun key => Dict.get? key node)
      c.rules := by
  cases h with
  | leaf made => cases made <;> exact .nil
  | @properties entries children compiled =>
    have hrules : Forall₂ R (entries.map Prod.snd) (children.map Property.rule) := by
      rw [List.forall₂_map_left_iff, List.forall₂_map_right_iff]
      exact compiled.imp fun e p h => h.1
    change Forall₂ R (_ ++ []) _
    rwa [List.append_nil]
  | additional compiled => exact .cons compiled .nil
  | items single compiled =>
    cases payload with
    | array schemas => exact absurd rfl (single schemas)
    | _ => exact .cons compiled .nil
  | tuple compiled | allOf compiled | anyOf compiled | oneOf compiled =>
    change Forall₂ R (_ ++ []) _
    rwa [List.append_nil]
  | excluded compiled => exact .cons compiled .nil
  | conditional compiled whenMet whenUnmet =>
    rw [List.filterMap_eq_flatMap_toList]
    refine .cons compiled ?_
    simpa [reserves] using List.rel_append (forall₂_of_rel whenMet) (forall₂_of_rel whenUnmet)

theorem BuiltIn.at_of_schemas {k : BuiltIn} {payload w : Value} (h : w ∈ k.schemas payload) :
    ∃ path, Value.At path payload w := by
  have hitem : ∀ {ws}, w ∈ ws → ∃ path, Value.At path (.array ws) w := by
    intro ws hw
    obtain ⟨i, hi⟩ := List.getElem?_of_mem hw
    exact ⟨_, .item hi (.here w)⟩
  cases k with
  | properties =>
    cases payload with
    | object entries =>
      obtain ⟨f, hf, rfl⟩ := List.mem_map.1 h
      exact ⟨_, .field hf (.here _)⟩
    | _ => cases h
  | additionalProperties =>
    cases payload with
    | object extra =>
      obtain rfl := List.mem_singleton.1 h
      exact ⟨_, .here _⟩
    | _ => cases h
  | items =>
    cases payload with
    | array ws => exact hitem h
    | _ =>
      obtain rfl := List.mem_singleton.1 h
      exact ⟨_, .here _⟩
  | allOf | anyOf | oneOf =>
    cases payload with
    | array ws => exact hitem h
    | _ => cases h
  | excluded | conditional =>
    obtain rfl := List.mem_singleton.1 h
    exact ⟨_, .here _⟩
  | _ => cases h

/-- Each rule of a check comes from a value in the node. -/
theorem Registry.Makes.exists_schema {registry : Registry} {R : Value → Rule → Prop}
    {node : Dict Value} {f : String × Value} {c : Check} (h : registry.Makes R node f c)
    (mem : f ∈ node) {x : Rule} (hx : x ∈ c.rules) :
    ∃ path w, Value.At path (.object node) w ∧ R w x := by
  cases h with
  | builtIn found made =>
    obtain ⟨w, hw, hR⟩ := exists_of_forall₂ made.rules.flip hx
    rcases List.mem_append.1 hw with hw | hw
    · obtain ⟨path, at_⟩ := BuiltIn.at_of_schemas hw
      exact ⟨_, w, .field mem at_, hR⟩
    · obtain ⟨key, -, get⟩ := List.mem_filterMap.1 hw
      exact ⟨_, w, .field (Dict.mem_of_get? get) (.here w), hR⟩
  | custom found named compiled built =>
    obtain ⟨name, -, entries, w, rfl, get, hR⟩ := exists_of_forall₂ compiled.flip hx
    exact ⟨_, w, .field mem (.field (Dict.mem_of_get? get) (.here w)), hR⟩

theorem forall₂_of_mem {α β : Type} {R S : α → β → Prop} {as : List α} {bs : List β}
    (h : Forall₂ R as bs) (hRS : ∀ a ∈ as, ∀ b ∈ bs, R a b → S a b) : Forall₂ S as bs := by
  induction h with
  | nil => exact .nil
  | cons hab _ ih =>
    refine .cons (hRS _ List.mem_cons_self _ List.mem_cons_self hab) (ih fun a ha b hb => ?_)
    exact hRS a (List.mem_cons_of_mem _ ha) b (List.mem_cons_of_mem _ hb)

theorem rel_of_mem {R S : Value → Rule → Prop} {v? : Option Value} {r? : Option Rule}
    (h : Option.Rel R v? r?) (hRS : ∀ v ∈ v?, ∀ r ∈ r?, R v r → S v r) : Option.Rel S v? r? := by
  cases h with
  | none => exact .none
  | some h => exact .some (hRS _ rfl _ rfl h)

/-- What is related to the rules of a check may as well be related in another way. -/
theorem BuiltIn.Makes.imp {R S : Value → Rule → Prop} {node : Dict Value} {k : BuiltIn}
    {payload : Value} {c : Check} (h : k.Makes R node payload c)
    (hRS : ∀ v, v ∈ k.schemas payload ∨ (∃ key ∈ k.reserves, Dict.get? key node = some v) →
      ∀ x ∈ c.rules, R v x → S v x) : k.Makes S node payload c := by
  cases h with
  | leaf made => exact .leaf made
  | properties compiled =>
    refine .properties (forall₂_of_mem compiled fun e he p hp h => ⟨?_, h.2⟩)
    exact hRS e.2 (.inl (List.mem_map_of_mem he)) p.rule (List.mem_map_of_mem hp) h.1
  | additional compiled =>
    exact .additional (hRS _ (.inl List.mem_cons_self) _ List.mem_cons_self compiled)
  | items single compiled =>
    have hschema : payload ∈ BuiltIn.items.schemas payload := by
      cases payload with
      | array schemas => exact absurd rfl (single schemas)
      | _ => exact List.mem_cons_self
    exact .items single (hRS _ (.inl hschema) _ List.mem_cons_self compiled)
  | tuple compiled => exact .tuple (forall₂_of_mem compiled fun v hv => hRS v (.inl hv))
  | allOf compiled => exact .allOf (forall₂_of_mem compiled fun v hv => hRS v (.inl hv))
  | anyOf compiled => exact .anyOf (forall₂_of_mem compiled fun v hv => hRS v (.inl hv))
  | oneOf compiled => exact .oneOf (forall₂_of_mem compiled fun v hv => hRS v (.inl hv))
  | excluded compiled =>
    exact .excluded (hRS _ (.inl List.mem_cons_self) _ List.mem_cons_self compiled)
  | @conditional _ condition met unmet compiled whenMet whenUnmet =>
    refine .conditional (hRS _ (.inl List.mem_cons_self) _ List.mem_cons_self compiled)
      (rel_of_mem whenMet fun v hv r hr => ?_) (rel_of_mem whenUnmet fun v hv r hr => ?_)
    · exact hRS v (.inr ⟨"then", by decide, hv⟩) r
        (List.mem_cons_of_mem _ (List.mem_append_left _ (Option.mem_toList.2 hr)))
    · exact hRS v (.inr ⟨"else", by decide, hv⟩) r
        (List.mem_cons_of_mem _ (List.mem_append_right _ (Option.mem_toList.2 hr)))

/-- What a payload can be read as is related to the schemas in it. -/
structure Nested.Compiles (R : Value → Rule → Prop) (payload : Value) (n : Nested) : Prop where
  whole : ∀ {location rule}, (n.whole location).Makes rule → R payload rule
  items : ∀ {location schemas rules}, payload = .array schemas →
    (n.items location).Makes rules → Forall₂ R schemas rules
  fields : ∀ {location entries rules}, payload = .object entries →
    (n.fields location).Makes rules → Forall₂ (fun e p => p.1 = e.1 ∧ R e.2 p.2) entries rules
  field : ∀ {name location rule}, (n.field name location).Makes rule →
    ∃ entries v, payload = .object entries ∧ Dict.get? name entries = some v ∧ R v rule

namespace Compile

open BuiltIn (MakesLeaf)

variable {R : Value → Rule → Prop} {s : Site} {payload : Value} {nested : Nested} {c : Check}

theorem typeCheck_makes (h : typeCheck s payload = .ok c) :
    ∃ l, c = .leaf l ∧ MakesLeaf s.node .type payload l := by
  unfold typeCheck at h
  split at h
  · cases h
  · next names written =>
    split at h
    · next k ks named =>
      cases h
      exact ⟨_, rfl, .type written named (List.cons_ne_nil k ks)⟩
    · cases h

theorem enumCheck_makes (h : enumCheck s payload = .ok c) :
    ∃ l, c = .leaf l ∧ MakesLeaf s.node .enum payload l := by
  unfold enumCheck at h
  split at h
  · cases h
    exact ⟨_, rfl, .enum _⟩
  · cases h

theorem boundCheck_makes {b : Bound} (h : boundCheck s b payload = .ok c) :
    ∃ l, c = .leaf l ∧ MakesLeaf s.node (.bound b) payload l := by
  unfold boundCheck at h
  cases payload with
  | number n =>
    simp only [Value.number?] at h
    split at h
    · cases h
    · next hpositive =>
      cases h
      exact ⟨_, rfl, .bound fun hb => Bool.eq_false_iff.2 fun hn => hpositive ⟨hb, hn⟩⟩
  | _ => cases h

theorem patternCheck_makes (h : patternCheck s payload = .ok c) :
    ∃ l, c = .leaf l ∧ MakesLeaf s.node .pattern payload l := by
  unfold patternCheck at h
  cases payload with
  | string source =>
    simp only [Value.string?] at h
    split at h
    · cases h
    · next p parsed =>
      cases h
      exact ⟨_, rfl, .pattern parsed⟩
  | _ => cases h

theorem uniqueCheck_makes (h : uniqueCheck s payload = .ok c) :
    ∃ l, c = .leaf l ∧ MakesLeaf s.node .uniqueItems payload l := by
  unfold uniqueCheck at h
  split at h
  · cases h
    exact ⟨_, rfl, .uniqueItems _⟩
  · cases h

theorem requiredCheck_makes (h : requiredCheck s payload = .ok c) :
    ∃ l, c = .leaf l ∧ MakesLeaf s.node .required payload l := by
  unfold requiredCheck at h
  split at h
  · cases h
    exact ⟨_, rfl, .present _⟩
  · split at h
    · next names written =>
      cases h
      exact ⟨_, rfl, .requiredNames written⟩
    · cases h

theorem countOf_makes {n : Nat} (h : countOf s payload = .ok n) : payload.nat? = some n := by
  unfold countOf at h
  split at h
  · next hn =>
    cases h
    exact hn
  · cases h

theorem propertiesCheck_makes (hn : nested.Compiles R payload)
    (h : (propertiesCheck s payload nested).Makes c) :
    BuiltIn.properties.Makes R s.node payload c := by
  unfold propertiesCheck at h
  split at h
  · obtain ⟨rules, hr, rfl⟩ := h.of_map
    refine .properties ?_
    rw [List.forall₂_map_right_iff]
    exact (hn.fields rfl hr).imp fun e p hp => ⟨hp.2, by rw [hp.1]; rfl⟩
  · exact nomatch h.of_lift

theorem additionalCheck_makes (hn : nested.Compiles R payload)
    (h : (additionalCheck s payload nested).Makes c) :
    BuiltIn.additionalProperties.Makes R s.node payload c := by
  unfold additionalCheck at h
  split at h
  · obtain rfl := h.of_pure
    exact .leaf (.additionalKeys _)
  · obtain ⟨rule, hr, rfl⟩ := h.of_map
    exact .additional (hn.whole hr)
  · exact nomatch h.of_lift

theorem itemsCheck_makes (hn : nested.Compiles R payload)
    (h : (itemsCheck s payload nested).Makes c) : BuiltIn.items.Makes R s.node payload c := by
  unfold itemsCheck at h
  split at h
  · obtain ⟨rules, hr, rfl⟩ := h.of_map
    exact .tuple (hn.items rfl hr)
  · obtain ⟨rule, hr, rfl⟩ := h.of_map
    exact .items nofun (hn.whole hr)
  · obtain ⟨rule, hr, rfl⟩ := h.of_map
    exact .items nofun (hn.whole hr)
  · exact nomatch h.of_lift

theorem branches_makes (hn : nested.Compiles R payload) {rules : List Rule}
    (h : (branches s payload nested).Makes rules) :
    ∃ schemas, payload = .array schemas ∧ Forall₂ R schemas rules := by
  unfold branches at h
  split at h
  · exact ⟨_, rfl, hn.items rfl h⟩
  · exact nomatch h.of_lift

theorem conditionalCheck_makes (hn : nested.Compiles R payload)
    (hs : ∀ key r?, (s.sibling key).Makes r? → Option.Rel R (Dict.get? key s.node) r?)
    (h : (conditionalCheck s nested).Makes c) : BuiltIn.conditional.Makes R s.node payload c := by
  obtain ⟨condition, hc, h⟩ := h.of_bind
  obtain ⟨met, hm, h⟩ := h.of_bind
  obtain ⟨unmet, hu, h⟩ := h.of_bind
  obtain rfl := h.of_pure
  exact .conditional (hn.whole hc) (hs _ _ hm) (hs _ _ hu)

theorem builtInCheck_makes (hn : nested.Compiles R payload)
    (hs : ∀ key r?, (s.sibling key).Makes r? → Option.Rel R (Dict.get? key s.node) r?)
    {k : BuiltIn} (h : (builtInCheck s payload nested k).Makes c) : k.Makes R s.node payload c := by
  have hleaf : ∀ {k : BuiltIn}, (∃ l, c = .leaf l ∧ k.MakesLeaf s.node payload l) →
      k.Makes R s.node payload c := by
    rintro k ⟨l, rfl, made⟩
    exact .leaf made
  cases k with
  | type => exact hleaf (typeCheck_makes h.of_lift)
  | enum => exact hleaf (enumCheck_makes h.of_lift)
  | const =>
    obtain rfl := h.of_pure
    exact .leaf (.const payload)
  | bound b => exact hleaf (boundCheck_makes h.of_lift)
  | length side =>
    obtain ⟨n, hn, rfl⟩ := Except.ok_of_map h.of_lift
    exact .leaf (.length side (countOf_makes hn))
  | pattern => exact hleaf (patternCheck_makes h.of_lift)
  | itemCount side =>
    obtain ⟨n, hn, rfl⟩ := Except.ok_of_map h.of_lift
    exact .leaf (.itemCount side (countOf_makes hn))
  | uniqueItems => exact hleaf (uniqueCheck_makes h.of_lift)
  | required => exact hleaf (requiredCheck_makes h.of_lift)
  | items => exact itemsCheck_makes hn h
  | properties => exact propertiesCheck_makes hn h
  | additionalProperties => exact additionalCheck_makes hn h
  | allOf =>
    obtain ⟨rules, hr, rfl⟩ := h.of_map
    obtain ⟨schemas, rfl, compiled⟩ := branches_makes hn hr
    exact .allOf compiled
  | anyOf =>
    obtain ⟨rules, hr, rfl⟩ := h.of_map
    obtain ⟨schemas, rfl, compiled⟩ := branches_makes hn hr
    exact .anyOf compiled
  | oneOf =>
    obtain ⟨rules, hr, rfl⟩ := h.of_map
    obtain ⟨schemas, rfl, compiled⟩ := branches_makes hn hr
    exact .oneOf compiled
  | excluded =>
    obtain ⟨rule, hr, rfl⟩ := h.of_map
    exact .excluded (hn.whole hr)
  | conditional => exact conditionalCheck_makes hn hs h

theorem customCheck_makes {registry : Registry} (hn : nested.Compiles R payload) {k : Keyword}
    (found : registry.find? s.keyword = some (.custom k))
    (h : (customCheck s payload nested k).Makes c) :
    registry.Makes R s.node (s.keyword, payload) c := by
  unfold customCheck at h
  split at h
  · exact nomatch h.of_lift
  · next names named =>
    obtain ⟨rules, hr, h⟩ := h.of_bind
    split at h
    · exact nomatch h.of_lift
    · next run built =>
      obtain rfl := h.of_pure
      exact .custom found named (hr.of_mapM.imp fun _ _ hf => hn.field hf) built

end Compile

/-- What compiles is `false`, or an object with the checks of its annotations and of its entries,
for which `true` is the empty one. -/
theorem compileAt_eq_ok {registry : Registry} {v : Value} {location : String} {r : Rule}
    (h : compileAt registry v location = .ok r) :
    (v = .bool false ∧ r = .node location [.leaf .never] {} {}) ∨
      ∃ fields a checks raised, (v = .object fields ∨ v = .bool true ∧ fields = []) ∧
        Annotations.parse registry fields location = .ok a ∧
        (compileChecks registry fields location
          (fun key => compileSibling registry fields location key)
          (Compile.reservedKeys registry fields) fields).run false = .ok (checks, raised) ∧
        r = .node location (a.check :: checks) a.messages (a.declaration raised) := by
  match v with
  | .bool true =>
    rw [compileAt] at h
    obtain ⟨a, ha, h⟩ := Except.ok_of_bind h
    cases h
    exact .inr ⟨[], a, [], false, .inr ⟨rfl, rfl⟩, ha, rfl, rfl⟩
  | .bool false =>
    rw [compileAt] at h
    cases h
    exact .inl ⟨rfl, rfl⟩
  | .object fields =>
    rw [compileAt] at h
    obtain ⟨a, ha, h⟩ := Except.ok_of_bind h
    obtain ⟨⟨checks, raised⟩, hc, h⟩ := Except.ok_of_bind h
    cases h
    exact .inr ⟨fields, a, checks, raised, .inl rfl, ha, hc, rfl⟩
  | .null | .number _ | .string _ | .array _ =>
    rw [compileAt] at h
    cases h

namespace Registry

/-- The rule is what the schema compiles to at some place. -/
def Compiles (registry : Registry) (v : Value) (r : Rule) : Prop :=
  ∃ location, compileAt registry v location = .ok r

/-- The entries of a node that hold payloads of keywords. -/
def payloads (registry : Registry) (node : Dict Value) : Dict Value :=
  node.filter fun f => !(Compile.reservedKeys registry node).contains f.1

variable {registry : Registry}

theorem compileSibling_makes {entries : List (String × Value)} {location key : String}
    {r? : Option Rule} (h : (compileSibling registry entries location key).Makes r?) :
    Option.Rel registry.Compiles (Dict.get? key entries) r? := by
  induction entries with
  | nil =>
    rw [compileSibling] at h
    obtain rfl := h.of_pure
    exact .none
  | cons f rest ih =>
    rw [compileSibling] at h
    rw [Dict.get?]
    split at h
    · next hk =>
      obtain ⟨r, hr, rfl⟩ := h.of_map
      rw [if_pos hk]
      exact .some ⟨_, hr.of_nest⟩
    · next hk =>
      rw [if_neg hk]
      exact ih h

theorem compileList_makes {schemas : List Value} {location : String} {i : Nat}
    {rules : List Rule} (h : (compileList registry schemas location i).Makes rules) :
    Forall₂ registry.Compiles schemas rules := by
  induction schemas generalizing i rules with
  | nil =>
    rw [compileList] at h
    obtain rfl := h.of_pure
    exact .nil
  | cons v schemas ih =>
    rw [compileList] at h
    obtain ⟨rule, hr, h⟩ := h.of_bind
    obtain ⟨rules, hrs, h⟩ := h.of_bind
    obtain rfl := h.of_pure
    exact .cons ⟨_, hr.of_nest⟩ (ih hrs)

theorem compileEntries_makes {entries : List (String × Value)} {location : String}
    {rules : List (String × Rule)} (h : (compileEntries registry entries location).Makes rules) :
    Forall₂ (fun e p => p.1 = e.1 ∧ registry.Compiles e.2 p.2) entries rules := by
  induction entries generalizing rules with
  | nil =>
    rw [compileEntries] at h
    obtain rfl := h.of_pure
    exact .nil
  | cons f entries ih =>
    rw [compileEntries] at h
    obtain ⟨rule, hr, h⟩ := h.of_bind
    obtain ⟨rules, hrs, h⟩ := h.of_bind
    obtain rfl := h.of_pure
    exact .cons ⟨rfl, _, hr.of_nest⟩ (ih hrs)

theorem nested_compiles (payload : Value) : Nested.Compiles registry.Compiles payload
    ⟨fun location => .nest (compileAt registry payload location), compileItems registry payload,
      compileFields registry payload, compileField registry payload⟩ where
  whole h := ⟨_, h.of_nest⟩
  items := by
    rintro location schemas rules rfl h
    simp only [compileItems] at h
    exact compileList_makes h
  fields := by
    rintro location entries rules rfl h
    simp only [compileFields] at h
    exact compileEntries_makes h
  field := by
    intro name location rule h
    cases payload with
    | object entries =>
      simp only [compileField] at h
      obtain ⟨rule?, hs, h⟩ := h.of_bind
      have hrel := compileSibling_makes hs
      cases rule? with
      | none => exact absurd h Compiling.not_makes_throw
      | some r =>
        obtain rfl := h.of_pure
        generalize hv : Dict.get? name entries = v? at hrel
        cases hrel with
        | some compiled => exact ⟨entries, _, rfl, hv, compiled⟩
    | _ => exact absurd h Compiling.not_makes_throw

theorem compileChecks_makes {node : Dict Value} {location : String}
    {sibling : String → Compiling (Option Rule)}
    (hs : ∀ key r?, (sibling key).Makes r? → Option.Rel registry.Compiles (Dict.get? key node) r?)
    {reserved : List String} {entries : List (String × Value)} {checks : List Check}
    (h : (compileChecks registry node location sibling reserved entries).Makes checks) :
    Forall₂ (registry.Makes registry.Compiles node)
      (entries.filter fun f => !reserved.contains f.1) checks := by
  induction entries generalizing checks with
  | nil =>
    rw [compileChecks] at h
    obtain rfl := h.of_pure
    exact .nil
  | cons f rest ih =>
    obtain ⟨key, payload⟩ := f
    rw [compileChecks] at h
    split at h
    · next hreserved =>
      rw [List.filter_cons_of_neg (by simpa using hreserved)]
      exact ih h
    · next hreserved =>
      rw [List.filter_cons_of_pos (by simpa using hreserved)]
      split at h
      · exact absurd h Compiling.not_makes_throw
      · next entry found =>
        obtain ⟨check, hc, h⟩ := h.of_bind
        obtain ⟨checks, hrest, h⟩ := h.of_bind
        obtain rfl := h.of_pure
        refine .cons ?_ (ih hrest)
        cases entry with
        | builtIn k =>
          exact .builtIn found (Compile.builtInCheck_makes (nested_compiles payload) hs hc)
        | custom k => exact Compile.customCheck_makes (nested_compiles payload) found hc

/-- What compiles is `false`, or an object with the checks of its annotations and of its keywords,
for which `true` is the empty one. -/
theorem eq_node_of_compileAt {v : Value} {location : String} {r : Rule}
    (h : compileAt registry v location = .ok r) :
    (v = .bool false ∧ r = .node location [.leaf .never] {} {}) ∨
      ∃ fields a checks raised, (v = .object fields ∨ v = .bool true ∧ fields = []) ∧
        Annotations.parse registry fields location = .ok a ∧
        Forall₂ (registry.Makes registry.Compiles fields) (registry.payloads fields) checks ∧
        r = .node location (a.check :: checks) a.messages (a.declaration raised) := by
  obtain ⟨rfl, rfl⟩ | ⟨fields, a, checks, raised, hv, ha, hc, rfl⟩ := compileAt_eq_ok h
  · exact .inl ⟨rfl, rfl⟩
  · exact .inr ⟨fields, a, checks, raised, hv, ha,
      compileChecks_makes (fun key r? => compileSibling_makes) ⟨false, raised, hc⟩, rfl⟩

/-- Each rule in a rule is what a value in the schema compiles to. -/
theorem Compiles.exists_schema {v : Value} {r x : Rule} (h : registry.Compiles v r)
    (hx : x ∈ r.rules) : ∃ path w, Value.At path v w ∧ registry.Compiles w x := by
  obtain ⟨location, h⟩ := h
  obtain ⟨-, rfl⟩ | ⟨fields, a, checks, raised, hv, -, made, rfl⟩ := eq_node_of_compileAt h
  · cases hx
  · obtain ⟨c, hc, hx⟩ := List.mem_flatMap.1 hx
    rcases List.mem_cons.1 hc with rfl | hc
    · cases hx
    · obtain ⟨f, hf, hmade⟩ := exists_of_forall₂ made.flip hc
      rcases hv with rfl | ⟨rfl, rfl⟩
      · exact hmade.exists_schema (List.mem_of_mem_filter hf) hx
      · cases hf

end Registry

end Conform
