import Conform.Proofs.Keywords
import Conform.Proofs.Nesting

/-!
# What schemas compile to

What follows of rules and checks from one level to the next holds of all that a schema compiles to,
as long as the keywords from outside do their part, and with keys of the schema for the names of
properties. So a registry without such keywords compiles every schema to a rule of built-in ones.
-/

namespace Conform

/-- All keys of the objects in a value, at every depth, are `ok`. -/
inductive Value.Keyed (ok : String → Prop) : Value → Prop where
  | null : Value.Keyed ok .null
  | bool (b : Bool) : Value.Keyed ok (.bool b)
  | number (n : Number) : Value.Keyed ok (.number n)
  | string (s : String) : Value.Keyed ok (.string s)
  | array {items : List Value} (values : ∀ v ∈ items, Value.Keyed ok v) :
      Value.Keyed ok (.array items)
  | object {fields : List (String × Value)} (keys : ∀ f ∈ fields, ok f.1)
      (values : ∀ f ∈ fields, Value.Keyed ok f.2) : Value.Keyed ok (.object fields)

theorem Value.keyed_of_forall {ok : String → Prop} (h : ∀ k, ok k) (v : Value) : v.Keyed ok := by
  match v with
  | .null => exact .null
  | .bool b => exact .bool b
  | .number n => exact .number n
  | .string s => exact .string s
  | .array items => exact .array fun w hw => keyed_of_forall h w
  | .object fields =>
    refine .object (fun f _ => h f.1) fun f hf => ?_
    obtain ⟨k, w⟩ := f
    have hlt : sizeOf w < sizeOf fields := by
      have hmem := List.sizeOf_lt_of_mem hf
      rw [Prod.mk.sizeOf_spec] at hmem
      omega
    exact keyed_of_forall h w

theorem Value.At.keyed {ok : String → Prop} {path : List String} {v w : Value} (h : At path v w)
    (keyed : v.Keyed ok) : w.Keyed ok := by
  induction h with
  | here v => exact keyed
  | field mem rest ih =>
    cases keyed with
    | object keys values => exact ih (values _ mem)
  | item get rest ih =>
    cases keyed with
    | array values => exact ih (values _ (List.mem_of_getElem? get))

/-- Whether something holds of the checks that keywords from outside make of the rules that are
given to them. -/
def Registry.Adds (registry : Registry) (P : Rule → Prop) (Q : Check → Prop) : Prop :=
  ∀ k ∈ registry.keywords, ∀ payload run, k.build payload = .ok run → ∀ keyword rules,
    (∀ r ∈ rules, P r) → Q (.custom keyword k.compound rules run)

section

variable {registry : Registry} {ok : String → Prop} {P : Rule → Prop} {Q : Check → Prop}

theorem Registry.mem_of_find? {name : String} {k : Keyword}
    (h : registry.find? name = some (.custom k)) : k ∈ registry.keywords := by
  unfold find? at h
  split at h
  · next k' hk =>
    cases h
    exact List.mem_of_find?_eq_some hk
  · obtain ⟨k', -, he⟩ := Option.map_eq_some_iff.1 h
    cases he

theorem BuiltIn.Makes.holds (nesting : Nesting ok P Q) {R : Value → Rule → Prop} {node : Dict Value}
    {k : BuiltIn} {payload : Value} {c : Check} (h : k.Makes R node payload c)
    (keyed : payload.Keyed ok) (hrules : ∀ x ∈ c.rules, P x) : Q c := by
  cases h with
  | leaf made => exact nesting.leaf _
  | properties compiled =>
    refine nesting.properties _ fun key required rule hp => ⟨?_, ?_⟩
    · obtain ⟨e, he, -, hkey⟩ := exists_of_forall₂ compiled.flip hp
      cases hkey
      cases keyed with
      | object keys values => exact keys e he
    · exact hrules rule (List.mem_map.2 ⟨_, hp, rfl⟩)
  | additional => exact nesting.additional _ _ (hrules _ List.mem_cons_self)
  | items => exact nesting.items _ (hrules _ List.mem_cons_self)
  | tuple => exact nesting.tuple _ hrules
  | allOf => exact nesting.allOf _ hrules
  | anyOf => exact nesting.anyOf _ hrules
  | oneOf => exact nesting.oneOf _ hrules
  | excluded => exact nesting.excluded _ (hrules _ List.mem_cons_self)
  | @conditional _ condition met unmet =>
    simp only [Check.rules, List.mem_cons, List.mem_append, Option.mem_toList] at hrules
    exact nesting.conditional _ _ _ (hrules _ (.inl rfl)) (fun r hr => hrules r (.inr (.inl hr)))
      fun r hr => hrules r (.inr (.inr hr))

theorem Registry.Makes.holds (nesting : Nesting ok P Q) (outside : registry.Adds P Q)
    {R : Value → Rule → Prop} {node : Dict Value} {f : String × Value} {c : Check}
    (h : registry.Makes R node f c) (keyed : f.2.Keyed ok) (hrules : ∀ x ∈ c.rules, P x) : Q c := by
  cases h with
  | builtIn found made => exact made.holds nesting keyed hrules
  | custom found named compiled built =>
    exact outside _ (mem_of_find? found) _ _ built _ _ hrules

theorem Registry.Compiles.holds (nesting : Nesting ok P Q) (outside : registry.Adds P Q) {r : Rule}
    {v : Value} (h : registry.Compiles v r) (keyed : v.Keyed ok) : P r := by
  induction r using Rule.rules_induction generalizing v with
  | step r ih =>
    have hrules : ∀ x ∈ r.rules, P x := by
      intro x hx
      obtain ⟨path, w, at_, compiled⟩ := h.exists_schema hx
      exact ih x hx compiled (at_.keyed keyed)
    obtain ⟨location, h⟩ := h
    obtain ⟨-, rfl⟩ | ⟨fields, a, checks, raised, hv, -, made, rfl⟩ := eq_node_of_compileAt h
    · exact nesting.node _ _ _ _ (List.forall_mem_singleton.2 (nesting.leaf _))
    · refine nesting.node _ _ _ _ (List.forall_mem_cons.2 ⟨nesting.leaf _, fun c hc => ?_⟩)
      obtain ⟨f, hf, hmade⟩ := exists_of_forall₂ made.flip hc
      have hkeyed : f.2.Keyed ok := by
        rcases hv with rfl | ⟨rfl, rfl⟩
        · cases keyed with
          | object keys values => exact values f (List.mem_of_mem_filter hf)
        · cases hf
      exact hmade.holds nesting outside hkeyed fun x hx =>
        hrules x (List.mem_flatMap.2 ⟨c, List.mem_cons_of_mem _ hc, hx⟩)

/-- **Schemas compile level by level.** What follows from one level to the next, of built-in
keywords and of those from outside, holds of the rule of a schema. -/
theorem compile_yields (nesting : Nesting ok P Q) (outside : registry.Adds P Q) {schema : Value}
    (keyed : schema.Keyed ok) {rule : Rule} (h : compile registry schema = .ok rule) : P rule :=
  Registry.Compiles.holds nesting outside ⟨_, h⟩ keyed

/-- Without keywords from outside a schema compiles to a rule of built-in keywords, whose properties
have keys of the schema as their names. -/
theorem compile_built (plain : registry.keywords = []) {schema : Value} (keyed : schema.Keyed ok)
    {rule : Rule} (h : compile registry schema = .ok rule) : rule.Built ok := by
  refine compile_yields (Rule.built_nesting ok) (fun k hk => ?_) keyed h
  rw [plain] at hk
  cases hk

theorem compile_isBuiltIn (plain : registry.keywords = []) {schema : Value} {rule : Rule}
    (h : compile registry schema = .ok rule) : rule.isBuiltIn = true := by
  have keyed : schema.Keyed fun _ => True := schema.keyed_of_forall fun _ => trivial
  exact (compile_built plain keyed h).isBuiltIn

end

end Conform
