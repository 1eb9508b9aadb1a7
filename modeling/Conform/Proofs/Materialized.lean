import Conform.Proofs.Apart
import Conform.Proofs.Reading
import Conform.Proofs.Safe

/-!
# Objects made of defaults

Properties are visited where nothing is yet, so that their defaults can make the object that they
belong to. What is made is decided by the first write: under a key it makes an object, under an
index an array, and a name that reads as an index is one. An object takes names of both kinds. So
where no name reads as an index before a key that has a default, the defaults make an object, and
each of them is found there under its own name.
-/

namespace Conform

namespace Tree

variable {s c : Segment} {t : Tree} {q : Route} {value : Option Value}

theorem childOf?_changeChild_isSome {path above : Route} {holder : Value}
    {change : Option Value → Written (Option Value)} (isSome : ∀ c, (change c).result.isSome)
    (h : (childOf? holder c).isSome) :
    (childOf? (changeChild path above holder s change).result c).isSome := by
  by_cases hsc : s.text = c.text
  · rcases childOf?_changeChild_same hsc isSome with hsame | ⟨_, -, hchild⟩
    · rwa [hsame]
    · rw [hchild]
      exact isSome _
  · rcases childOf?_changeChild_beside hsc with hsame | ⟨hnone, -⟩
    · rwa [hsame]
    · rw [hnone] at h
      cases h

/-- A write at or below a child does not remove the root. -/
theorem set_isSome (h : t.isSome) : (set t (s :: q) value).result.isSome := by
  rw [set]
  split
  · exact h
  · rfl

theorem isSome_of_get? (h : (t.get? q).isSome) : t.isSome := by
  cases t with
  | none => cases h
  | some v => rfl

/-- No child is lost when one is written, or something is written or removed below it. -/
theorem get?_set_isSome (here : q = [] → value.isSome) (h : (t.get? [c]).isSome) :
    ((set t (s :: q) value).result.get? [c]).isSome := by
  rw [set]
  split
  · exact h
  · have hopened : (childOf? (openedFor s (t.getD .null)) c).isSome := by
      rw [childOf?_openedFor]
      cases t with
      | none => cases h
      | some v => rwa [get?_singleton] at h
    rw [get?_singleton]
    cases q with
    | nil => exact childOf?_changeChild_isSome (fun _ => here rfl) hopened
    | cons s' q => exact childOf?_changeChild_isSome (fun _ => rfl) hopened

end Tree

namespace Walk

/-- What all writes that are no removal of the place itself keep, a walk that keeps to the place
keeps. -/
theorem Confined.detached_keeps {w : Walk} {place : Route} {known : Tree → Prop}
    {P : Tree → Prop} (h : w.Confined place known)
    (write : ∀ t q v, (q = [] → v.isSome) → P t → P (Tree.set t (place ++ q) v).result)
    {isOpen : String → Bool} {t t' : Tree} {o : Outcome}
    (hd : w.detached isOpen t = .finished o t') (ht : P t) : P t' := by
  induction w generalizing known t t' o with
  | done o =>
    cases hd
    exact ht
  | fail e => cases hd
  | read r next ih => exact ih _ (h.2 _) hd ht
  | write r v next ih =>
    obtain ⟨⟨q, rfl⟩, here, -, hnext⟩ := h
    simp only [Walk.detached] at hd
    split at hd
    · cases hd
    · refine ih hnext hd (write t q v (fun hq => here ?_) ht)
      rw [hq, List.append_nil]
  | await g next ih => exact absurd h id
  | visit r d hint body next ihb ihn =>
    simp only [Walk.detached] at hd
    split at hd
    · next hb => exact ihn _ (h.2.2 _) hd (ihb .full ((h.2.1 .full).widen h.1) hb ht)
    · cases hd
    · cases hd

end Walk

/-- The default of a schema. -/
def Value.default? : Value → Option Value
  | .object fields => Dict.get? "default" fields
  | _ => none

/-- The default of a rule. -/
def Rule.default? : Rule → Option Value
  | .node _ (.leaf (.annotations default _ _) :: _) _ _ => default
  | _ => none

theorem Rule.eq_of_default? {r : Rule} {d : Value} (h : r.default? = some d) :
    ∃ location filters constant checks messages declaration,
      r = .node location (.leaf (.annotations (some d) filters constant) :: checks) messages
        declaration := by
  unfold default? at h
  split at h
  · cases h
    exact ⟨_, _, _, _, _, _, rfl⟩
  · cases h

theorem Registry.Compiles.default? {registry : Registry} {v : Value} {r : Rule}
    (h : registry.Compiles v r) : r.default? = v.default? := by
  obtain ⟨location, h⟩ := h
  obtain ⟨rfl, rfl⟩ | ⟨fields, a, checks, raised, hv, ha, -, rfl⟩ := Registry.eq_node_of_compileAt h
  · rfl
  · rcases hv with rfl | ⟨rfl, rfl⟩
    · exact (Annotations.parse_eq_ok ha).default
    · exact (Annotations.parse_eq_ok ha).default

theorem Leaf.annotationsWalk_isSome {default : Value} {filters : List Filter} {constant o : Outcome}
    {route : Route} {isOpen : String → Bool} {t t' : Tree}
    (hd : (annotationsWalk (some default) filters constant route).detached isOpen t =
      .finished o t') : (t'.get? route).isSome := by
  have hprepared : (prepared (some default) filters (t.get? route)).isSome := by
    unfold prepared
    cases t.get? route <;> rfl
  obtain ⟨v, hv⟩ := Option.isSome_iff_exists.1 hprepared
  simp only [annotationsWalk, Walk.detached, hv] at hd
  split at hd
  · next hsame =>
    cases hd
    cases hstored : t.get? route with
    | some w => rfl
    | none =>
      rw [hstored] at hsame
      cases hsame
  · simp only [Walk.detached] at hd
    split at hd
    · cases hd
    · next haccepted =>
      cases hd
      rw [Tree.get?_set_self haccepted]
      rfl

section

variable {options : EvalOptions} {isOpen : String → Bool} {t t' : Tree} {s : Segment} {o : Outcome}

/-- The annotations come first. -/
theorem Rule.walk_annotated (location : String) (default : Option Value) (filters : List Filter)
    (constant : Outcome) (checks : List Check) (messages : NodeMessages) (declaration : Declaration)
    (route : Route) :
    (Rule.node location (.leaf (.annotations default filters constant) :: checks) messages
        declaration).walk options .full route =
      (Leaf.annotationsWalk default filters constant route).andThen fun o =>
        Check.runAll .full route
          (fun os => .done (messages.resolve options.messages (Outcome.merge os)))
          [o.attributed "annotations"] (readyChecks options checks) := by
  rw [Rule.walk, readyChecks, Check.runAll_full]
  dsimp only
  rw [Check.walk]
  rfl

/-- A rule of built-in keywords that has a default leaves a value at its place. -/
theorem Rule.default_isSome {r : Rule} (builtIn : r.isBuiltIn = true) (default : r.default?.isSome)
    (hd : (r.walk options .full [s]).detached isOpen t = .finished o t') :
    (t'.get? [s]).isSome := by
  obtain ⟨d, hd'⟩ := Option.isSome_iff_exists.1 default
  obtain ⟨location, filters, constant, checks, messages, declaration, rfl⟩ :=
    Rule.eq_of_default? hd'
  rw [Rule.walk_annotated] at hd
  obtain ⟨said, between, hfirst, hrest⟩ := Walk.detached_of_andThen hd
  have hconfined : (Check.runAll .full [s]
      (fun os => .done (messages.resolve options.messages (Outcome.merge os)))
      [said.attributed "annotations"] (readyChecks options checks)).Confined [s]
      fun _ => True := by
    rw [readyChecks_eq_map]
    refine Check.runAll_confined .full (fun os => ?_) (List.forall_mem_map.2 fun c hc => ?_) _
    · trivial
    · cases Rule.built_of_isBuiltIn _ builtIn with
      | node built =>
        exact (confined_nesting options).check (built c (List.mem_cons_of_mem _ hc)) .full [s]
  exact hconfined.detached_keeps (P := fun t => (t.get? [s]).isSome)
    (fun _ _ _ here => Tree.get?_set_isSome here) hrest (Leaf.annotationsWalk_isSome hfirst)

end

/-- Whether names that read as an index come only behind a key that has a default. -/
def keyFirst : List (String × Option Value) → Bool
  | [] => true
  | (name, default) :: rest =>
    match Segment.ofText name with
    | .index _ => false
    | .key _ => default.isSome || keyFirst rest

theorem keyFirst_cons {name : String} {default : Option Value}
    {rest : List (String × Option Value)} (h : keyFirst ((name, default) :: rest) = true) :
    (∃ k, Segment.ofText name = .key k) ∧ (default.isSome ∨ keyFirst rest = true) := by
  rw [keyFirst] at h
  split at h
  · cases h
  · next k hk => exact ⟨⟨k, hk⟩, Bool.or_eq_true_iff.1 h⟩

/-- The name of a property and the default of its rule. -/
def Property.named : Property → String × Option Value
  | .mk key _ rule => (key, rule.default?)

/-- Whether what is there, if anything, is an object. -/
def Tree.Fielded (t : Tree) : Prop := t.All fun v => ∃ d, v = .object d

theorem Tree.fielded_iff {t : Tree} {k : String} : t.Fielded ↔ t.Takes (.key k) := by
  cases t with
  | none => exact ⟨fun _ => trivial, fun _ v hv => nomatch hv⟩
  | some v =>
    constructor
    · intro h
      obtain ⟨d, rfl⟩ := h v rfl
      trivial
    · rw [Tree.Fielded, Tree.all_some]
      intro h
      cases v with
      | object d => exact ⟨d, rfl⟩
      | _ => exact absurd h id

theorem Tree.Fielded.takes {t : Tree} (h : t.Fielded) (hsome : t.isSome) (s : Segment) :
    t.Takes s := by
  obtain ⟨v, rfl⟩ := Option.isSome_iff_exists.1 hsome
  obtain ⟨d, rfl⟩ := h v rfl
  trivial

section

variable (options : EvalOptions) (isOpen : String → Bool) {t : Tree}

/-- One property, where what is there takes its name. -/
theorem Rule.walk_fielded {r : Rule} {s : Segment}
    (built : r.Built fun name => ∀ i, Segment.ofText name ≠ .index i) (fielded : t.Fielded)
    (takes : t.Takes s) :
    ∃ o t', (r.walk options .full [s]).detached isOpen t = .finished o t' ∧ t'.Fielded ∧
      (t.isSome → t'.isSome) ∧ (∀ c, (t.get? [c]).isSome → (t'.get? [c]).isSome) ∧
      (r.default?.isSome → (t'.get? [s]).isSome) := by
  have hsafe := (safe_nesting options).rule built
  have hconfined := hsafe.confined .full [s]
  obtain ⟨o, t', hd, hup⟩ := (hsafe.safe .full [s] t
    (Tree.admits_cons.2 ⟨takes, Tree.admits_root _⟩)).detached hconfined isOpen
  refine ⟨o, t', hd, ?_, ?_, fun c => ?_, fun h => r.default_isSome built.isBuiltIn h hd⟩
  · have htakes := hup [] s [] rfl (.key "")
    rw [Tree.get?_root, Tree.get?_root] at htakes
    exact Tree.fielded_iff.2 (htakes (Tree.fielded_iff.1 fielded))
  · exact hconfined.detached_keeps (P := fun t => t.isSome) (fun _ _ _ _ => Tree.set_isSome) hd
  · exact hconfined.detached_keeps (P := fun t => (t.get? [c]).isSome)
      (fun _ _ _ here => Tree.get?_set_isSome here) hd

/-- Properties in their order. Once an object is there, it takes all names. -/
theorem Check.visitAll_fielded {ps : List Property} (message : String) (ok : Bool)
    (built : ∀ key required rule, .mk key required rule ∈ ps →
      rule.Built fun name => ∀ i, Segment.ofText name ≠ .index i)
    (fielded : t.Fielded) (first : t.isSome ∨ keyFirst (ps.map Property.named) = true) :
    ∃ o t', (visitAll message ok (ps.map (Property.visit options []))).detached isOpen t =
        .finished o t' ∧ t'.Fielded ∧ (∀ c, (t.get? [c]).isSome → (t'.get? [c]).isSome) ∧
      ∀ p ∈ ps, p.named.2.isSome → (t'.get? [Segment.ofText p.named.1]).isSome := by
  induction ps generalizing t ok with
  | nil => exact ⟨_, t, rfl, fielded, fun _ => id, fun _ hp => nomatch hp⟩
  | cons p ps ih =>
    obtain ⟨key, required, rule⟩ := p
    have takes : t.Takes (Segment.ofText key) := by
      rcases first with hsome | hfirst
      · exact fielded.takes hsome _
      · obtain ⟨⟨k, hk⟩, -⟩ := keyFirst_cons hfirst
        rw [hk]
        exact Tree.fielded_iff.1 fielded
    obtain ⟨said, t₁, hvisit, hfielded, hsome, hkept, hdefault⟩ :=
      rule.walk_fielded options isOpen (built key required rule List.mem_cons_self) fielded takes
    have hfirst : t₁.isSome ∨ keyFirst (ps.map Property.named) = true := by
      rcases first with h | h
      · exact .inl (hsome h)
      · exact (keyFirst_cons h).2.imp_left fun hd => Tree.isSome_of_get? (hdefault hd)
    obtain ⟨o, t', hd, hfielded, hkept', hall⟩ :=
      ih (ok && (Outcome.merge [{ required := required }, said]).passes)
        (fun key required rule hp => built key required rule (List.mem_cons_of_mem _ hp))
        hfielded hfirst
    refine ⟨o, t', ?_, hfielded, fun c hc => hkept' c (hkept c hc), ?_⟩
    · simp only [List.map_cons, Property.visit, visitAll, Walker.visit, Walk.detached]
      rw [show (rule.walker options).walk .full (Route.childNamed [] key) =
        rule.walk options .full [Segment.ofText key] from rfl, hvisit]
      exact hd
    · exact List.forall_mem_cons.2 ⟨fun h => hkept' _ (hdefault h), hall⟩

end

theorem Tree.Fielded.field? {t : Tree} (h : t.Fielded) (name : String) :
    t.bind (Value.field? name) = t.get? [Segment.ofText name] := by
  cases t with
  | none => rfl
  | some v =>
    obtain ⟨d, rfl⟩ := h v rfl
    rw [Tree.get?_singleton, Tree.childOf?, Segment.text_ofText]
    rfl

theorem Property.map_named {node : Dict Value} {registry : Registry} {entries : Dict Value}
    {children : List Property}
    (h : List.Forall₂ (fun e p => registry.Compiles e.2 p.rule ∧
      p = .mk e.1 ((Compile.requiredNames node).contains e.1) p.rule) entries children) :
    children.map Property.named = entries.map fun f => (f.1, f.2.default?) := by
  induction h with
  | nil => rfl
  | @cons e p _ _ hp _ ih =>
    obtain ⟨compiled, hp⟩ := hp
    rw [List.map_cons, List.map_cons, ih, hp, ← compiled.default?]
    rfl

/-- The rule of a schema that has properties and nothing else. -/
theorem compile_properties {registry : Registry} (plain : registry.keywords = [])
    {fields : List (String × Value)} {rule : Rule}
    (h : compile registry (.object [("properties", .object fields)]) = .ok rule) :
    ∃ filters constant ps messages declaration,
      rule = .node "#" [.leaf (.annotations none filters constant), .properties ps] messages
        declaration ∧
      ps.map Property.named = fields.map fun f => (f.1, f.2.default?) := by
  have hfind : registry.find? "properties" = some (.builtIn .properties) := by
    rw [Registry.find?, plain]
    rfl
  have hopen : (Compile.reservedKeys registry [("properties", .object fields)]).contains
      "properties" = false := by
    simp only [Compile.reservedKeys, Dict.keys, List.map_cons, List.map_nil, List.flatMap_cons,
      List.flatMap_nil, hfind]
    rfl
  obtain ⟨hv, -⟩ | ⟨node, a, checks, raised, hv, ha, made, rfl⟩ := Registry.eq_node_of_compileAt h
  · cases hv
  obtain rfl : [("properties", .object fields)] = node := by
    rcases hv with hv | ⟨hv, -⟩
    · exact Value.object.inj hv
    · cases hv
  rw [Registry.payloads, List.filter_cons_of_pos (by rw [hopen]; rfl), List.filter_nil] at made
  cases made with
  | cons made rest =>
    cases rest
    cases made with
    | custom found => cases hfind.symm.trans found
    | builtIn found made =>
      cases hfind.symm.trans found
      cases made with
      | leaf made => cases made
      | properties compiled =>
        have hcheck : a.check = .leaf (.annotations none a.filters a.constant) := by
          rw [Annotations.check, (Annotations.parse_eq_ok ha).default]
          rfl
        rw [hcheck]
        exact ⟨_, _, _, _, _, rfl, Property.map_named compiled⟩

/-- Where nothing is, such a rule leaves what visiting its properties leaves. -/
theorem Rule.evaluate_properties {options : EvalOptions} {isOpen : String → Bool} {t : Tree}
    {o : Outcome} {ps : List Property}
    (hd : (Check.visitAll Check.invalidProperties true
      (ps.map (Property.visit options []))).detached isOpen none = .finished o t)
    (location : String) (filters : List Filter) (constant : Outcome) (messages : NodeMessages)
    (declaration : Declaration) :
    ∃ o', (Rule.node location [.leaf (.annotations none filters constant), .properties ps] messages
      declaration).evaluateDetached options isOpen none = .finished o' t := by
  have hannotations : (Leaf.annotationsWalk none filters constant []).detached isOpen none =
      .finished constant none := rfl
  have hproperties : ((Check.properties ps).walk options .full []).detached isOpen none =
      .finished o t := by
    rw [Check.walk, propertyVisits_eq_map]
    exact hd
  refine ⟨messages.resolve options.messages (Outcome.merge
    [constant.attributed "annotations", o.attributed "properties"]), ?_⟩
  rw [Rule.evaluateDetached, Rule.walk_annotated, Walk.detached_andThen hannotations,
    readyChecks_eq_map, List.map_singleton, Check.runAll_full]
  exact Walk.detached_andThen hproperties

/-- The names of the properties that the properties of a rule declare within. -/
def Rule.innerNames : Rule → List String
  | .node _ checks _ _ => checks.flatMap fun
    | .properties ps => ps.flatMap fun | .mk _ _ rule => rule.propertyNames
    | _ => []

/-- **Defaults make an object.** Let a schema declare properties, none of them under an index before
one under a key that has a default, and let nothing that is nested in them be declared under an
index. Where nothing is, it comes to an outcome whatever the options are. What it leaves is an
object, if anything, and every property that has a default is found in it under its own name. -/
theorem defaults_make_object {registry : Registry} (plain : registry.keywords = [])
    {fields : List (String × Value)} {rule : Rule}
    (compiled : compile registry (.object [("properties", .object fields)]) = .ok rule)
    (first : keyFirst (fields.map fun f => (f.1, f.2.default?)) = true)
    (named : ∀ name ∈ rule.innerNames, ∀ i, Segment.ofText name ≠ .index i)
    (options : EvalOptions) (isOpen : String → Bool) :
    ∃ o t, rule.evaluateDetached options isOpen none = .finished o t ∧
      (∀ v ∈ t, ∃ d, v = .object d) ∧
      ∀ f ∈ fields, f.2.default?.isSome → (t.bind (Value.field? f.1)).isSome := by
  have builtIn := compile_isBuiltIn plain compiled
  obtain ⟨filters, constant, ps, messages, declaration, rfl, hnamed⟩ :=
    compile_properties plain compiled
  have built : ∀ key required r, .mk key required r ∈ ps →
      r.Built fun name => ∀ i, Segment.ofText name ≠ .index i := by
    intro key required r hp
    refine r.built_of_names ?_ fun name hname => named name ?_
    · cases Rule.built_of_isBuiltIn _ builtIn with
      | node checks =>
        cases checks _ (List.mem_cons_of_mem _ List.mem_cons_self) with
        | properties _ rules => exact (rules key required r hp).isBuiltIn
    · exact List.mem_flatMap.2 ⟨_, List.mem_cons_of_mem _ List.mem_cons_self,
        List.mem_flatMap.2 ⟨_, hp, hname⟩⟩
  rw [← hnamed] at first
  obtain ⟨o, t, hd, fielded, -, hall⟩ := Check.visitAll_fielded options isOpen (t := none)
    Check.invalidProperties true built Tree.all_none (.inr first)
  obtain ⟨o', hevaluate⟩ := Rule.evaluate_properties hd "#" filters constant messages declaration
  refine ⟨o', t, hevaluate, fielded, fun f hf hdefault => ?_⟩
  rw [fielded.field?]
  have hmem : (f.1, f.2.default?) ∈ ps.map Property.named := by
    rw [hnamed]
    exact List.mem_map.2 ⟨f, hf, rfl⟩
  obtain ⟨p, hp, he⟩ := List.mem_map.1 hmem
  have hthere := hall p hp
  rw [he] at hthere
  exact hthere hdefault

/-- The rule of a car whose number of doors is 4, and of what is called 0. -/
def numberedRule : Rule :=
  .node "#" [.leaf (.annotations none [] {}),
    .properties
      [.mk "car" false (.node "#/properties/car" [.leaf (.annotations (some (.object [])) [] {}),
        .properties [.mk "doors" false (.node "#/properties/car/properties/doors"
          [.leaf (.annotations (some (.int 4)) [] {})] {} {})]] {} {}),
      .mk "0" false (.node "#/properties/0" [.leaf (.annotations (some (.int 1)) [] {})] {} {})]]
    {} {}

/-- The index comes behind a key that has a default, and is a key itself in the object made then. -/
theorem defaults_make_object_numbered : ∃ o d,
    numberedRule.evaluateDetached {} (fun _ => false) none = .finished o (some (.object d)) ∧
    (Dict.get? "car" d).isSome ∧ (Dict.get? "0" d).isSome := by
  have compiled : compile Registry.standard (.object [("properties", .object
      [("car", .object [("default", .object []), ("properties", .object
        [("doors", .object [("default", .int 4)])])]),
      ("0", .object [("default", .int 1)])])]) = .ok numberedRule := rfl
  have named : ∀ name ∈ numberedRule.innerNames, ∀ i, Segment.ofText name ≠ .index i := by
    intro name hname i
    have hnames : numberedRule.innerNames = ["doors"] := rfl
    rw [hnames] at hname
    cases List.mem_singleton.1 hname
    exact fun h => nomatch h
  obtain ⟨o, t, hd, hobject, hall⟩ :=
    defaults_make_object rfl compiled (by decide +kernel) named {} fun _ => false
  obtain ⟨hcar, hrest⟩ := List.forall_mem_cons.1 hall
  have hzero := List.forall_mem_singleton.1 hrest rfl
  cases t with
  | none => cases hzero
  | some v =>
    obtain ⟨d, rfl⟩ := hobject v rfl
    exact ⟨o, d, hd, hcar rfl, hzero⟩

/-- **A default can make an array.** One under an index alone does. -/
theorem default_makes_array :
    ¬∀ (fields : List (String × Value)) (rule : Rule) (options : EvalOptions)
      (isOpen : String → Bool),
      compile Registry.standard (.object [("properties", .object fields)]) = .ok rule →
      ∃ o t, rule.evaluateDetached options isOpen none = .finished o t ∧
        (∀ v ∈ t, ∃ d, v = .object d) ∧
        ∀ f ∈ fields, f.2.default?.isSome → (t.bind (Value.field? f.1)).isSome := by
  intro h
  obtain ⟨o, t, hd, hobject, -⟩ :=
    h [("0", .object [("default", .int 1)])] _ {} (fun _ => false) rfl
  cases hd
  obtain ⟨d, he⟩ := hobject _ rfl
  cases he

end Conform
