import Conform.Proofs.BuiltIn

/-!
# What a schema is

The compiler has code of its own for the annotations, for the keys that belong to a keyword beside
them, and for the payload of every keyword. `WellFormed` says in one place what it accepts: which
keys an object may hold, how the value of each is written, and which values in it are schemas in
turn. Main statement: with the built-in keywords, exactly the well-formed schemas compile.
-/

namespace Conform

/-- A string, or an array of strings, as the list of them. -/
def Value.Names (v : Value) (names : List String) : Prop :=
  v = .strings names ∨ ∃ s, v = .string s ∧ names = [s]

def Number.Positive : Number → Prop
  | int i => 0 < i
  | double x => x.negative = false ∧ x.rank ≠ 0

theorem Option.isSome_mapM {α β : Type} {f : α → Option β} {l : List α} :
    (l.mapM f).isSome = true ↔ ∀ a ∈ l, (f a).isSome = true := by
  induction l with
  | nil => simp
  | cons a l ih =>
    rw [List.mapM_cons, List.forall_mem_cons, ← ih]
    cases f a with
    | none => simp
    | some b => cases l.mapM f <;> simp

theorem Value.mapM_string?_eq_some {items : List Value} {names : List String} :
    items.mapM string? = some names ↔ items = names.map .string := by
  induction items generalizing names with
  | nil => cases names <;> simp
  | cons v items ih =>
    rw [List.mapM_cons]
    cases names with
    | nil => cases v <;> cases items.mapM string? <;> simp [string?]
    | cons s names =>
      rw [List.map_cons, List.cons.injEq, ← ih]
      cases v <;> cases items.mapM string? <;> simp [string?]

theorem Value.strings?_eq_some {v : Value} {names : List String} :
    v.strings? = some names ↔ v = .strings names := by
  cases v with
  | array items =>
    rw [strings?, mapM_string?_eq_some, strings, Value.array.injEq]
  | _ => simp [strings?, strings]

theorem Compile.typeNames_eq_some {v : Value} {names : List String} :
    typeNames v = some names ↔ v.Names names := by
  cases v with
  | string s => simp [typeNames, Value.Names, Value.strings, eq_comm]
  | _ => simp [typeNames, Value.Names, Value.strings?_eq_some]

theorem Double.le_roundHalfEven (n : Nat) : n ≤ roundHalfEven n 1 := by
  simp only [roundHalfEven, Nat.div_one]
  split
  · exact Nat.le_refl n
  · split
    · exact Nat.le_succ n
    · split
      · exact Nat.le_refl n
      · exact Nat.le_succ n

/-- An integer other than zero has a rank other than zero: either its significand is scaled up, or
it is rounded where rounding does not go below it. -/
theorem Double.nearestRank_pos {n : Nat} (h : 0 < n) : 0 < nearestRank ⟨n, 1⟩ := by
  simp only [nearestRank, Nat.ne_of_gt h, if_false]
  by_cases hq : max (floorLog ⟨n, 1⟩ - 52) (-1074) = -1074
  · rw [hq, show 1 * Nat.pow 2 (-1074 : Int).toNat = 1 from rfl]
    have hscaled : ∀ k, 0 < n * Nat.pow 2 k := fun k => Nat.mul_pos h (Nat.pow_pos (by decide))
    exact Nat.lt_of_lt_of_le (hscaled _)
      (Nat.le_trans (Double.le_roundHalfEven _) (Nat.le_add_left _ _))
  · have hpos : 0 < (max (floorLog ⟨n, 1⟩ - 52) (-1074) + 1074).toNat := by omega
    exact Nat.lt_of_lt_of_le (Nat.mul_pos hpos (by decide)) (Nat.le_add_right _ _)

theorem Double.ofInt_negative (i : Int) : (ofInt i).negative = decide (i < 0) := by
  rw [ofInt, ofRatio?, ofRank?]
  split <;> rfl

theorem Double.ofInt_rank_eq_zero {i : Int} : (ofInt i).rank = 0 ↔ i = 0 := by
  rw [ofInt, ofRatio?, ofRank?]
  by_cases hi : i = 0
  · subst hi
    decide
  · have hrank := nearestRank_pos (Int.natAbs_pos.2 hi)
    split
    · simp only [Option.getD_some]
      omega
    · simp [largest, largestRank, hi]

theorem Double.place_pos_iff (x : Double) : 0 < x.place ↔ x.negative = false ∧ x.rank ≠ 0 := by
  cases h : x.negative with
  | true =>
    simp only [place, h, if_true, Bool.true_eq_false, false_and, iff_false]
    omega
  | false =>
    simp only [place, h, Bool.false_eq_true, if_false, true_and]
    omega

theorem Number.le_zero_iff (n : Number) : n.toDouble.le (.ofInt 0) = true ↔ ¬ n.Positive := by
  have hzero : (Double.ofInt 0).place = 0 := by decide
  have hplace : n.toDouble.le (.ofInt 0) = true ↔ ¬ 0 < n.toDouble.place := by
    rw [Double.le, decide_eq_true_eq, hzero]
    omega
  rw [hplace, Double.place_pos_iff]
  cases n with
  | double x => rfl
  | int i =>
    simp only [toDouble, Double.ofInt_negative, ne_eq, Double.ofInt_rank_eq_zero, Positive,
      decide_eq_false_iff_not]
    omega

theorem Value.Names.unique {v : Value} {names names' : List String} (h : v.Names names)
    (h' : v.Names names') : names = names' :=
  Option.some.inj
    ((Compile.typeNames_eq_some.2 h).symm.trans (Compile.typeNames_eq_some.2 h'))

namespace Annotations

/-- How the value of an annotation is written. -/
inductive Shape where
  | text | flag | names | texts | anything
  deriving DecidableEq

def Shape.Fits : Shape → Value → Prop
  | text, v => ∃ s, v = .string s
  | flag, v => ∃ b, v = .bool b
  | names, v => ∃ names, v.Names names
  | texts, v => ∃ fields, v = .object fields ∧ ∀ f ∈ fields, ∃ s, f.2 = .string s
  | anything, _ => True

def shapes : List (String × Shape) :=
  [("title", .text), ("description", .text), ("default", .anything), ("filter", .names),
    ("readOnly", .flag), ("writeOnly", .flag), ("error", .text), ("errors", .texts),
    ("warning", .text), ("warnings", .texts), ("dependencies", .names), ("dependsOn", .names)]

theorem keys_eq : keys = shapes.map Prod.fst := rfl

/-- The annotation of a node under a key is written in a shape, if it is there. -/
def Written (node : Dict Value) (key : String) (shape : Shape) : Prop :=
  ∀ v, node.get? key = some v → shape.Fits v

/-- The annotations of a node are written in their shapes, and its filters are known. -/
structure Fit (filters : List Filter) (node : Dict Value) : Prop where
  written : ∀ a ∈ shapes, Written node a.1 a.2
  known : ∀ v names, node.get? "filter" = some v → v.Names names →
    ∀ name ∈ names, ∃ f ∈ filters, f.name = name

section

variable {node : Dict Value} (location : String) {key : String}

theorem field_isOk {α : Type} {expected : String} {absent : α} {decode : Value → Option α}
    {shape : Shape} (h : ∀ v, (decode v).isSome = true ↔ shape.Fits v) :
    (field node location key expected absent decode).isOk = true ↔ Written node key shape := by
  rw [field, Written]
  cases node.get? key with
  | none => simp
  | some v =>
    simp only [Option.some.injEq, forall_eq', ← h]
    cases decode v <;> simp

theorem string?_isOk : (string? node location key).isOk = true ↔ Written node key .text := by
  apply field_isOk
  intro v
  cases v <;> simp [Value.string?, Shape.Fits]

theorem flag_isOk : (flag node location key).isOk = true ↔ Written node key .flag := by
  apply field_isOk
  intro v
  cases v <;> simp [Value.bool?, Shape.Fits]

theorem strings_eq :
    strings node location key =
      field node location key "a string or an array of strings" [] Compile.typeNames := by
  rfl

theorem strings_isOk : (strings node location key).isOk = true ↔ Written node key .names := by
  rw [strings_eq location]
  apply field_isOk
  intro v
  rw [Option.isSome_iff_exists]
  simp only [Compile.typeNames_eq_some, Shape.Fits]

theorem texts_isOk : (texts node location key).isOk = true ↔ Written node key .texts := by
  apply field_isOk
  intro v
  cases v with
  | object fields =>
    simp only [Value.texts?, Shape.Fits, Value.object.injEq, exists_eq_left']
    induction fields with
    | nil => simp [Dict.traverse?]
    | cons f fields ih =>
      obtain ⟨k, w⟩ := f
      rw [List.forall_mem_cons, ← ih, Dict.traverse?]
      cases w <;> cases Dict.traverse? Value.string? fields <;> simp [Value.string?]
  | _ => simp [Value.texts?, Shape.Fits]

/-- The list of names is that of the annotation, if it is there. -/
theorem strings_eq_ok {names : List String} (h : strings node location key = .ok names) :
    (∀ v, node.get? key = some v → v.Names names) ∧ (node.get? key = none → names = []) := by
  rw [strings_eq, field] at h
  cases hv : node.get? key with
  | none =>
    rw [hv] at h
    cases h
    exact ⟨fun v hv => (nomatch hv), fun _ => rfl⟩
  | some v =>
    simp only [hv] at h
    split at h
    · next names' hnames =>
      cases h
      refine ⟨fun w hw => ?_, fun hn => nomatch hn⟩
      cases hw
      exact Compile.typeNames_eq_some.1 hnames
    · cases h

theorem namedFilters_isOk {r : Registry} {names : List String} :
    (namedFilters r location names).isOk = true ↔
      ∀ name ∈ names, (r.filter? name).isSome = true := by
  induction names with
  | nil => simp [namedFilters]
  | cons name names ih =>
    rw [namedFilters, List.forall_mem_cons]
    cases r.filter? name with
    | none => simp
    | some f => simp [Except.isOk_map, ih]

end

theorem filter?_isSome {r : Registry} {name : String} :
    (r.filter? name).isSome = true ↔ ∃ f ∈ r.filters ++ Filter.builtIn, f.name = name := by
  rw [Registry.filter?, List.find?_isSome]
  simp only [decide_eq_true_eq]

theorem parse_isOk {r : Registry} {node : Dict Value} {location : String} :
    (parse r node location).isOk = true ↔ Fit (r.filters ++ Filter.builtIn) node := by
  have hfilters : (strings node location "filter" >>= namedFilters r location).isOk = true ↔
      Written node "filter" .names ∧ ∀ v names, node.get? "filter" = some v → v.Names names →
        ∀ name ∈ names, ∃ f ∈ r.filters ++ Filter.builtIn, f.name = name := by
    rw [Except.isOk_bind]
    simp only [namedFilters_isOk, filter?_isSome, ← strings_isOk location]
    constructor
    · rintro ⟨names, hok, hall⟩
      refine ⟨by rw [hok]; rfl, fun v names' hv hnames => ?_⟩
      rwa [hnames.unique ((strings_eq_ok location hok).1 v hv)]
    · rintro ⟨hok, hall⟩
      obtain ⟨names, hnames⟩ := Except.isOk_iff.1 hok
      refine ⟨names, hnames, ?_⟩
      cases hv : node.get? "filter" with
      | none =>
        rw [(strings_eq_ok location hnames).2 hv]
        exact fun _ h => nomatch h
      | some v => exact hall v names hv ((strings_eq_ok location hnames).1 v hv)
  have hparse : (parse r node location).isOk = true ↔
      (strings node location "filter" >>= namedFilters r location).isOk = true ∧
      Written node "dependsOn" .names ∧ Written node "dependencies" .names ∧
      Written node "readOnly" .flag ∧ Written node "writeOnly" .flag ∧
      Written node "title" .text ∧ Written node "description" .text ∧
      Written node "error" .text ∧ Written node "warning" .text ∧
      Written node "errors" .texts ∧ Written node "warnings" .texts := by
    simp only [← strings_isOk location, ← flag_isOk location,
      ← string?_isOk location, ← texts_isOk location]
    rw [parse, ← bind_assoc]
    iterate 10 refine Except.isOk_bind_of fun _ => ?_
    exact Except.isOk_bind_pure
  rw [hparse, hfilters]
  constructor
  · rintro ⟨⟨filter, known⟩, dependsOn, dependencies, readOnly, writeOnly, title, description,
      error, warning, errors, warnings⟩
    refine ⟨?_, known⟩
    simp only [shapes, List.forall_mem_cons]
    exact ⟨title, description, fun _ _ => trivial, filter, readOnly, writeOnly, error, errors,
      warning, warnings, dependencies, dependsOn, fun _ h => nomatch h⟩
  · rintro ⟨written, known⟩
    simp only [shapes, List.forall_mem_cons] at written
    obtain ⟨title, description, -, filter, readOnly, writeOnly, error, errors, warning, warnings,
      dependencies, dependsOn, -⟩ := written
    exact ⟨⟨filter, known⟩, dependsOn, dependencies, readOnly, writeOnly, title, description,
      error, warning, errors, warnings⟩

/-- What the annotations of a node come from. -/
structure Parsed (r : Registry) (node : Dict Value) (location : String) (a : Annotations) :
    Prop where
  default : a.default = node.get? "default"
  silent : a.constant.valid = none
  dependsOn : strings node location "dependsOn" = .ok a.dependsOn
  filters : ∃ names, strings node location "filter" = .ok names ∧
    namedFilters r location names = .ok a.filters

theorem parse_eq_ok {r : Registry} {node : Dict Value} {location : String} {a : Annotations}
    (h : parse r node location = .ok a) : Parsed r node location a := by
  unfold parse at h
  obtain ⟨names, hnames, h⟩ := Except.ok_of_bind h
  obtain ⟨filters, hfilters, h⟩ := Except.ok_of_bind h
  obtain ⟨dependsOn, hdependsOn, h⟩ := Except.ok_of_bind h
  iterate 9 obtain ⟨_, -, h⟩ := Except.ok_of_bind h
  cases h
  exact ⟨rfl, rfl, hdependsOn, names, hnames, hfilters⟩

end Annotations

namespace BuiltIn

/-- What a keyword takes as its payload, whatever the schemas in it are. -/
def Takes : BuiltIn → Value → Prop
  | type, v => ∃ names, v.Names names ∧ names ≠ [] ∧ ∀ name ∈ names, ∃ kind : Kind, kind.name = name
  | enum, v => ∃ allowed, v = .array allowed
  | bound b, v => ∃ n, v = .number n ∧ (b = .multipleOf → n.Positive)
  | length _, v | itemCount _, v => ∃ n : Nat, v = .nat n
  | pattern, v => ∃ source, v = .string source ∧ (Pattern.ofText? source).isSome = true
  | uniqueItems, v => ∃ b, v = .bool b
  | properties, v => ∃ fields, v = .object fields
  | required, v => (∃ b, v = .bool b) ∨ ∃ names, v = .strings names
  | additionalProperties, v => (∃ b, v = .bool b) ∨ ∃ fields, v = .object fields
  | items, v => (∃ b, v = .bool b) ∨ (∃ fields, v = .object fields) ∨ ∃ schemas, v = .array schemas
  | allOf, v | anyOf, v | oneOf, v => ∃ schemas, v = .array schemas ∧ schemas ≠ []
  | const, _ | excluded, _ | conditional, _ => True

theorem named?_name (k : BuiltIn) : named? k.name = some k := by
  cases k with
  | bound b => cases b <;> rfl
  | length side | itemCount side => cases side <;> rfl
  | _ => rfl

theorem named?_eq_some {name : String} {k : BuiltIn} : named? name = some k ↔ k.name = name := by
  constructor
  · intro h
    simpa using List.find?_some h
  · rintro rfl
    exact named?_name k

theorem name_inj {k l : BuiltIn} (h : k.name = l.name) : k = l :=
  Option.some.inj ((named?_name k).symm.trans (h ▸ named?_name l))

end BuiltIn

/-- A schema with the built-in keywords only: a boolean, or an object of annotations, of keywords
with payloads that they take, and of branches beside an `if`, in which all schemas are well
formed. -/
inductive WellFormed : Value → Prop where
  | bool (b : Bool) : WellFormed (.bool b)
  | object {fields : List (String × Value)}
      (annotated : Annotations.Fit Filter.builtIn fields)
      (keys : ∀ f ∈ fields, f.1 ∈ Annotations.keys ∨
        (f.1 ∈ ["then", "else"] ∧ "if" ∈ Dict.keys fields) ∨
        ∃ k : BuiltIn, k.name = f.1 ∧ k.Takes f.2)
      (nested : ∀ f ∈ fields, ∀ k : BuiltIn, k.name = f.1 → ∀ v ∈ k.schemas f.2, WellFormed v)
      (branches : "if" ∈ Dict.keys fields → ∀ key ∈ ["then", "else"], ∀ v,
        Dict.get? key fields = some v → WellFormed v) :
      WellFormed (.object fields)

theorem Kind.named?_isSome {name : String} :
    (Kind.named? name).isSome = true ↔ ∃ kind : Kind, kind.name = name := by
  rw [Kind.named?, List.find?_isSome]
  constructor
  · rintro ⟨kind, -, h⟩
    exact ⟨kind, of_decide_eq_true h⟩
  · rintro ⟨kind, h⟩
    exact ⟨kind, by cases kind <;> decide, decide_eq_true h⟩

theorem Value.nat?_isSome {v : Value} : v.nat?.isSome = true ↔ ∃ n : Nat, v = .nat n := by
  constructor
  · intro h
    cases v with
    | number n =>
      cases n with
      | int i =>
        simp only [nat?] at h
        split at h
        · next hi => exact ⟨i.toNat, by rw [nat, int, Int.toNat_of_nonneg hi]⟩
        · cases h
      | double x => cases h
    | _ => cases h
  · rintro ⟨n, rfl⟩
    simp [nat, int, nat?]

/-- A nested payload compiles where what it holds is well formed. -/
structure Nested.Accepts (n : Nested) (payload : Value) : Prop where
  whole : ∀ location, (n.whole location).SucceedsIff (WellFormed payload)
  items : ∀ location schemas, payload = .array schemas →
    (n.items location).SucceedsIff (∀ v ∈ schemas, WellFormed v)
  fields : ∀ location fields, payload = .object fields →
    (n.fields location).SucceedsIff (∀ f ∈ fields, WellFormed f.2)

namespace Compile

open Compiling

variable {s : Site} {payload : Value} {nested : Nested}

theorem invalid_isOk {α : Type} {expected : String} :
    (s.invalid expected : Except CompileError α).isOk = false := rfl

theorem typeCheck_isOk : (typeCheck s payload).isOk = true ↔ BuiltIn.type.Takes payload := by
  simp only [BuiltIn.Takes, ← typeNames_eq_some, ← Kind.named?_isSome, ← Option.isSome_mapM]
  rw [typeCheck]
  cases typeNames payload with
  | none => simp [invalid_isOk]
  | some names =>
    simp only [Option.some.injEq, exists_eq_left']
    cases names with
    | nil => simp [invalid_isOk]
    | cons name names =>
      cases h : List.mapM Kind.named? (name :: names) with
      | none => simp [invalid_isOk]
      | some kinds =>
        cases kinds with
        | nil => simp [List.mapM_cons, Option.bind_eq_some_iff] at h
        | cons k ks => simp

theorem boundCheck_isOk {b : Bound} :
    (boundCheck s b payload).isOk = true ↔ (BuiltIn.bound b).Takes payload := by
  rw [boundCheck, BuiltIn.Takes]
  cases payload with
  | number n =>
    simp only [Value.number?, Value.number.injEq, exists_eq_left']
    split
    · next h => simp [invalid_isOk, h.1, (Number.le_zero_iff n).1 h.2]
    · next h =>
      refine ⟨fun _ hb => ?_, fun _ => rfl⟩
      exact Classical.byContradiction fun hn => h ⟨hb, (Number.le_zero_iff n).2 hn⟩
  | _ => simp [Value.number?, invalid_isOk]

theorem countOf_isOk : (countOf s payload).isOk = true ↔ ∃ n : Nat, payload = .nat n := by
  rw [← Value.nat?_isSome, countOf]
  cases payload.nat? <;> simp [invalid_isOk]

theorem patternCheck_isOk :
    (patternCheck s payload).isOk = true ↔ BuiltIn.pattern.Takes payload := by
  rw [patternCheck, BuiltIn.Takes]
  cases payload with
  | string source =>
    simp only [Value.string?, Value.string.injEq, exists_eq_left']
    cases Pattern.ofText? source <;> simp
  | _ => simp [Value.string?, invalid_isOk]

theorem requiredCheck_isOk :
    (requiredCheck s payload).isOk = true ↔ BuiltIn.required.Takes payload := by
  rw [requiredCheck.eq_def, BuiltIn.Takes]
  simp only [← Value.strings?_eq_some]
  cases payload with
  | bool b => simp
  | array items => cases h : Value.strings? (.array items) <;> simp [invalid_isOk, h]
  | _ => simp [Value.strings?, invalid_isOk]

theorem enumCheck_isOk : (enumCheck s payload).isOk = true ↔ BuiltIn.enum.Takes payload := by
  cases payload <;> simp [enumCheck, BuiltIn.Takes, invalid_isOk]

theorem uniqueCheck_isOk :
    (uniqueCheck s payload).isOk = true ↔ BuiltIn.uniqueItems.Takes payload := by
  cases payload <;> simp [uniqueCheck, BuiltIn.Takes, invalid_isOk]

theorem propertiesCheck_succeeds (hn : nested.Accepts payload) :
    (propertiesCheck s payload nested).SucceedsIff (BuiltIn.properties.Takes payload ∧
      ∀ v ∈ BuiltIn.properties.schemas payload, WellFormed v) := by
  rw [propertiesCheck.eq_def]
  cases payload with
  | object fields =>
    refine (hn.fields _ fields rfl).map.congr ?_
    rw [BuiltIn.schemas, List.forall_mem_map]
    simp [BuiltIn.Takes]
  | _ => exact .lift (by simp [BuiltIn.Takes, invalid_isOk])

theorem additionalCheck_succeeds (hn : nested.Accepts payload) :
    (additionalCheck s payload nested).SucceedsIff (BuiltIn.additionalProperties.Takes payload ∧
      ∀ v ∈ BuiltIn.additionalProperties.schemas payload, WellFormed v) := by
  rw [additionalCheck.eq_def]
  cases payload with
  | object fields => exact (hn.whole _).map.congr (by simp [BuiltIn.Takes, BuiltIn.schemas])
  | bool b => exact (SucceedsIff.pure _).congr (by simp [BuiltIn.Takes, BuiltIn.schemas])
  | _ => exact .lift (by simp [BuiltIn.Takes, invalid_isOk])

theorem itemsCheck_succeeds (hn : nested.Accepts payload) :
    (itemsCheck s payload nested).SucceedsIff (BuiltIn.items.Takes payload ∧
      ∀ v ∈ BuiltIn.items.schemas payload, WellFormed v) := by
  rw [itemsCheck.eq_def]
  cases payload with
  | object fields => exact (hn.whole _).map.congr (by simp [BuiltIn.Takes, BuiltIn.schemas])
  | bool b => exact (hn.whole _).map.congr (by simp [BuiltIn.Takes, BuiltIn.schemas])
  | array schemas =>
    exact (hn.items _ schemas rfl).map.congr (by simp [BuiltIn.Takes, BuiltIn.schemas])
  | _ => exact .lift (by simp [BuiltIn.Takes, invalid_isOk])

theorem branches_succeeds (hn : nested.Accepts payload) {k : BuiltIn}
    (takes : ∀ v, k.Takes v ↔ ∃ schemas, v = .array schemas ∧ schemas ≠ [])
    (holds : ∀ schemas, k.schemas (.array schemas) = schemas) :
    (branches s payload nested).SucceedsIff
      (k.Takes payload ∧ ∀ v ∈ k.schemas payload, WellFormed v) := by
  rw [branches.eq_def, takes]
  cases payload with
  | array schemas =>
    cases schemas with
    | nil => exact .lift (by simp [invalid_isOk])
    | cons v schemas => exact (hn.items _ (v :: schemas) rfl).congr (by simp [holds])
  | _ => exact .lift (by simp [invalid_isOk])

/-- The check of a keyword is made if the keyword takes the payload and the schemas in it, and those
beside it that belong to the keyword, compile. -/
theorem builtInCheck_succeeds (hn : nested.Accepts payload) {sibling : String → Prop}
    (hs : ∀ key, (s.sibling key).SucceedsIff (sibling key)) {k : BuiltIn} :
    (builtInCheck s payload nested k).SucceedsIff (k.Takes payload ∧
      (∀ v ∈ k.schemas payload, WellFormed v) ∧
      (k = .conditional → sibling "then" ∧ sibling "else")) := by
  have hnone : ∀ {k : BuiltIn} {x : Compiling Check}, k ≠ .conditional →
      x.SucceedsIff (k.Takes payload ∧ ∀ v ∈ k.schemas payload, WellFormed v) →
      x.SucceedsIff (k.Takes payload ∧ (∀ v ∈ k.schemas payload, WellFormed v) ∧
        (k = .conditional → sibling "then" ∧ sibling "else")) := by
    intro k x ne hx
    exact hx.congr (by simp [ne])
  have hleaf : ∀ {k : BuiltIn} {x : Except CompileError Check}, k.schemas payload = [] →
      (x.isOk = true ↔ k.Takes payload) →
      SucceedsIff (liftM x) (k.Takes payload ∧ ∀ v ∈ k.schemas payload, WellFormed v) := by
    intro k x hempty hx
    exact .lift (by simp [hx, hempty])
  cases k with
  | type => exact hnone nofun (hleaf rfl typeCheck_isOk)
  | enum => exact hnone nofun (hleaf rfl enumCheck_isOk)
  | const => exact (SucceedsIff.pure _).congr (by simp [BuiltIn.Takes, BuiltIn.schemas])
  | bound b => exact hnone nofun (hleaf rfl boundCheck_isOk)
  | length side | itemCount side =>
    exact hnone nofun (hleaf rfl (by rw [Except.isOk_map]; exact countOf_isOk))
  | pattern => exact hnone nofun (hleaf rfl patternCheck_isOk)
  | uniqueItems => exact hnone nofun (hleaf rfl uniqueCheck_isOk)
  | required => exact hnone nofun (hleaf rfl requiredCheck_isOk)
  | items => exact hnone nofun (itemsCheck_succeeds hn)
  | properties => exact hnone nofun (propertiesCheck_succeeds hn)
  | additionalProperties => exact hnone nofun (additionalCheck_succeeds hn)
  | allOf | anyOf | oneOf =>
    exact hnone nofun (branches_succeeds hn (fun _ => Iff.rfl) fun _ => rfl).map
  | excluded => exact (hn.whole _).map.congr (by simp [BuiltIn.Takes, BuiltIn.schemas])
  | conditional =>
    have h := (hn.whole s.location).bind fun condition => (hs "then").bind fun met =>
      (hs "else").bind fun unmet => SucceedsIff.pure (Check.conditional condition met unmet)
    exact h.congr (by simp [BuiltIn.Takes, BuiltIn.schemas])

end Compile

theorem Registry.find?_standard {name : String} {entry : Entry} :
    standard.find? name = some entry ↔ ∃ k : BuiltIn, k.name = name ∧ entry = .builtIn k := by
  have hfind : standard.find? name = (BuiltIn.named? name).map .builtIn := rfl
  rw [hfind, Option.map_eq_some_iff]
  simp only [BuiltIn.named?_eq_some, @eq_comm _ entry]

/-- Without keywords from outside each check of a node is made by a built-in keyword. -/
theorem Registry.Makes.exists_builtIn {R : Value → Rule → Prop} {node : Dict Value} {key : String}
    {payload : Value} {c : Check} (h : standard.Makes R node (key, payload) c) :
    ∃ k : BuiltIn, k.name = key ∧ k.Makes R node payload c := by
  cases h with
  | builtIn found made =>
    obtain ⟨k', hname, hk⟩ := find?_standard.1 found
    cases hk
    exact ⟨_, hname, made⟩
  | custom found =>
    obtain ⟨k, -, hk⟩ := find?_standard.1 found
    cases hk

/-- The keys that belong to a keyword beside them are those of `if`. -/
theorem Compile.mem_reservedKeys {node : Dict Value} {key : String} :
    key ∈ reservedKeys .standard node ↔
      key ∈ Annotations.keys ∨ key ∈ ["then", "else"] ∧ "if" ∈ Dict.keys node := by
  rw [reservedKeys, List.mem_append, List.mem_flatMap]
  refine or_congr_right ?_
  constructor
  · rintro ⟨name, hname, hkey⟩
    cases hf : Registry.standard.find? name with
    | none => simp [hf] at hkey
    | some entry =>
      obtain ⟨k, rfl, rfl⟩ := Registry.find?_standard.1 hf
      rw [hf] at hkey
      cases k with
      | conditional => exact ⟨hkey, hname⟩
      | _ => cases hkey
  · rintro ⟨hkey, hif⟩
    exact ⟨"if", hif, hkey⟩

/-- No keyword has the name of an annotation, or of a key that belongs to a keyword. -/
theorem BuiltIn.name_not_reserved (k : BuiltIn) :
    k.name ∉ Annotations.keys ∧ k.name ∉ ["then", "else"] := by
  cases k with
  | bound b => cases b <;> decide
  | length side | itemCount side => cases side <;> decide
  | _ => decide

theorem BuiltIn.named?_of_reserved {node : Dict Value} {key : String}
    (reserved : key ∈ Compile.reservedKeys .standard node) : named? key = none := by
  rw [Option.eq_none_iff_forall_ne_some]
  intro k hk
  rw [Compile.mem_reservedKeys, ← named?_eq_some.1 hk] at reserved
  rcases reserved with hkey | ⟨hkey, -⟩
  · exact k.name_not_reserved.1 hkey
  · exact k.name_not_reserved.2 hkey

/-- What an object has to be, key by key. -/
theorem wellFormed_object {fields : List (String × Value)} :
    WellFormed (.object fields) ↔ Annotations.Fit Filter.builtIn fields ∧
      ∀ f ∈ fields, f.1 ∈ Compile.reservedKeys .standard fields ∨ ∃ k : BuiltIn, k.name = f.1 ∧
        k.Takes f.2 ∧ (∀ v ∈ k.schemas f.2, WellFormed v) ∧
        (k = .conditional → ∀ key ∈ ["then", "else"], ∀ v,
          Dict.get? key fields = some v → WellFormed v) := by
  constructor
  · intro h
    cases h with
    | object annotated keys nested branches =>
      refine ⟨annotated, fun f hf => ?_⟩
      rw [Compile.mem_reservedKeys]
      rcases keys f hf with hkey | hkey | ⟨k, hname, htakes⟩
      · exact .inl (.inl hkey)
      · exact .inl (.inr hkey)
      · refine .inr ⟨k, hname, htakes, nested f hf k hname, ?_⟩
        rintro rfl
        exact branches (List.mem_map.2 ⟨f, hf, hname.symm⟩)
  · rintro ⟨annotated, hall⟩
    have hkeyword : ∀ f ∈ fields, ∀ k : BuiltIn, k.name = f.1 →
        k.Takes f.2 ∧ (∀ v ∈ k.schemas f.2, WellFormed v) ∧
        (k = .conditional → ∀ key ∈ ["then", "else"], ∀ v,
          Dict.get? key fields = some v → WellFormed v) := by
      intro f hf k hname
      rcases hall f hf with hkey | ⟨k', hname', h⟩
      · -- a keyword is never reserved, so that it has to be the other case
        rw [Compile.mem_reservedKeys, ← hname] at hkey
        rcases hkey with hkey | ⟨hkey, -⟩
        · exact absurd hkey k.name_not_reserved.1
        · exact absurd hkey k.name_not_reserved.2
      · rwa [BuiltIn.name_inj (hname'.trans hname.symm)] at h
    refine .object annotated (fun f hf => ?_) (fun f hf k hname => (hkeyword f hf k hname).2.1) ?_
    · rcases hall f hf with hkey | ⟨k, hname, htakes, -⟩
      · rw [Compile.mem_reservedKeys] at hkey
        exact hkey.elim .inl fun h => .inr (.inl h)
      · exact .inr (.inr ⟨k, hname, htakes⟩)
    · intro hif
      obtain ⟨f, hf, hname⟩ := List.mem_map.1 hif
      exact (hkeyword f hf .conditional hname.symm).2.2 rfl

open Compiling (SucceedsIff)

mutual

theorem compileAt_isOk (schema : Value) (location : String) :
    (compileAt .standard schema location).isOk = true ↔ WellFormed schema := by
  match schema with
  | .bool true =>
    rw [compileAt]
    exact ⟨fun _ => .bool true, fun _ => rfl⟩
  | .bool false =>
    rw [compileAt]
    exact ⟨fun _ => .bool false, fun _ => rfl⟩
  | .object fields =>
    have hchecks := compileChecks_succeeds fields fields location
      (fun key => compileSibling_succeeds fields location key)
    have hparse : (Annotations.parse .standard fields location).isOk = true ↔
        Annotations.Fit Filter.builtIn fields := Annotations.parse_isOk
    have hpair : ∀ {p : String → Prop},
        (∀ key ∈ ["then", "else"], p key) ↔ p "then" ∧ p "else" := by
      simp
    rw [compileAt, wellFormed_object, ← hparse]
    simp only [hpair, ← hchecks false]
    refine Except.isOk_bind_of fun a => ?_
    exact Except.isOk_bind_pure
  | .null | .number _ | .string _ | .array _ =>
    rw [compileAt]
    constructor
    · intro h
      cases h
    · intro h
      cases h

theorem compileChecks_succeeds (entries : List (String × Value)) (node : Dict Value)
    (location : String) {sibling : String → Compiling (Option Rule)} {met : String → Prop}
    (hs : ∀ key, (sibling key).SucceedsIff (met key)) :
    (compileChecks .standard node location sibling (Compile.reservedKeys .standard node)
        entries).SucceedsIff
      (∀ f ∈ entries, f.1 ∈ Compile.reservedKeys .standard node ∨ ∃ k : BuiltIn, k.name = f.1 ∧
        k.Takes f.2 ∧ (∀ v ∈ k.schemas f.2, WellFormed v) ∧
        (k = .conditional → met "then" ∧ met "else")) := by
  match entries with
  | [] =>
    rw [compileChecks]
    exact (SucceedsIff.pure _).congr (by simp)
  | (key, payload) :: rest =>
    have hrest := compileChecks_succeeds rest node location hs
    rw [compileChecks, List.forall_mem_cons]
    split
    · next h => exact hrest.congr (by simp [List.contains_iff_mem.1 h])
    · next h =>
      have hkey : key ∉ Compile.reservedKeys .standard node :=
        fun hm => h (List.contains_iff_mem.2 hm)
      split
      · next hf =>
        refine (SucceedsIff.throw _).congr (iff_of_false id ?_)
        rintro ⟨hm | ⟨k, hk, -⟩, -⟩
        · exact hkey hm
        · rw [Registry.find?_standard.2 ⟨k, hk, rfl⟩] at hf
          cases hf
      · next entry hf =>
        obtain ⟨k, hk, rfl⟩ := Registry.find?_standard.1 hf
        have hn : Nested.Accepts ⟨fun location => .nest (compileAt .standard payload location),
            compileItems .standard payload, compileFields .standard payload,
            compileField .standard payload⟩ payload :=
          ⟨fun location => .nest (compileAt_isOk payload location),
            fun loc _ => compileItems_succeeds payload loc,
            fun loc _ => compileFields_succeeds payload loc⟩
        have hcheck := Compile.builtInCheck_succeeds
          (s := ⟨key, locationBelow location key, node, sibling⟩) (k := k) hn hs
        have h := hcheck.bind fun check =>
          hrest.bind fun checks => SucceedsIff.pure (check :: checks)
        refine h.congr (and_congr ?_ (and_iff_left trivial))
        constructor
        · exact fun h => .inr ⟨k, hk, h⟩
        · rintro (hm | ⟨k', hk', h⟩)
          · exact absurd hm hkey
          · rwa [BuiltIn.name_inj (hk'.trans hk.symm)] at h

theorem compileSibling_succeeds (entries : List (String × Value)) (location key : String) :
    (compileSibling .standard entries location key).SucceedsIff
      (∀ v, Dict.get? key entries = some v → WellFormed v) := by
  match entries with
  | [] =>
    rw [compileSibling]
    exact (SucceedsIff.pure _).congr (by simp [Dict.get?])
  | (k, schema) :: rest =>
    rw [compileSibling, Dict.get?]
    split
    · exact (SucceedsIff.nest (compileAt_isOk schema _)).map.congr (by simp)
    · exact compileSibling_succeeds rest location key

theorem compileItems_succeeds (payload : Value) (location : String) {schemas : List Value}
    (h : payload = .array schemas) :
    (compileItems .standard payload location).SucceedsIff (∀ v ∈ schemas, WellFormed v) := by
  match payload, h with
  | .array schemas, rfl =>
    rw [compileItems]
    exact compileList_succeeds schemas location 0

theorem compileList_succeeds (schemas : List Value) (location : String) (i : Nat) :
    (compileList .standard schemas location i).SucceedsIff (∀ v ∈ schemas, WellFormed v) := by
  match schemas with
  | [] =>
    rw [compileList]
    exact (SucceedsIff.pure _).congr (by simp)
  | schema :: rest =>
    have h := (SucceedsIff.nest (compileAt_isOk schema (location ++ "/" ++ toString i))).bind
      fun rule => (compileList_succeeds rest location (i + 1)).bind
        fun rules => SucceedsIff.pure (rule :: rules)
    rw [compileList]
    exact h.congr (by simp)

theorem compileFields_succeeds (payload : Value) (location : String)
    {fields : List (String × Value)} (h : payload = .object fields) :
    (compileFields .standard payload location).SucceedsIff (∀ f ∈ fields, WellFormed f.2) := by
  match payload, h with
  | .object fields, rfl =>
    rw [compileFields]
    exact compileEntries_succeeds fields location

theorem compileEntries_succeeds (entries : List (String × Value)) (location : String) :
    (compileEntries .standard entries location).SucceedsIff (∀ f ∈ entries, WellFormed f.2) := by
  match entries with
  | [] =>
    rw [compileEntries]
    exact (SucceedsIff.pure _).congr (by simp)
  | (key, schema) :: rest =>
    have h := (SucceedsIff.nest (compileAt_isOk schema (entryLocation location key))).bind
      fun rule => (compileEntries_succeeds rest location).bind
        fun rules => SucceedsIff.pure ((key, rule) :: rules)
    rw [compileEntries]
    exact h.congr (by simp)

end

/-- **Exactly the well-formed schemas compile.** With the built-in keywords a value has a rule if
and only if it is a schema by the grammar of `WellFormed`. -/
theorem compiles_iff_wellFormed (schema : Value) :
    (∃ rule, compile .standard schema = .ok rule) ↔ WellFormed schema := by
  rw [← Except.isOk_iff, compile, compileAt_isOk]

end Conform
