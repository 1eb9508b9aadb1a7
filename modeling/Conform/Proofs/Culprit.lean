import Conform.Proofs.Grammar
import Conform.Proofs.Pointer

/-!
# What a compile error points at

A compile error has a location, and says what is wrong there. `Blames` tells what has to be the case
of the value that an error is about: that the compiler could not but refuse it. Main statement: the
value that is to blame is in the schema, and the location leads to it unless a property on the way
has the empty name.
-/

namespace Conform

theorem Annotations.key_ne_empty {key : String} {shape : Shape} (h : (key, shape) ∈ shapes) :
    key ≠ "" := by
  rintro rfl
  have hkey : "" ∈ keys := keys_eq ▸ List.mem_map.2 ⟨_, h, rfl⟩
  exact absurd hkey (by decide)

theorem BuiltIn.name_ne_empty (k : BuiltIn) : k.name ≠ "" := by
  cases k with
  | bound b => cases b <;> decide
  | length side | itemCount side => cases side <;> decide
  | _ => decide

namespace CompileError

def location : CompileError → String
  | unknownKeyword _ location | invalidPayload _ location _ | invalidSchema location _
  | unknownFilter _ location | invalidPattern location => location

/-- What an error says is true of the value at the end of a path. -/
def Blames (path : List String) (v : Value) : CompileError → Prop
  | unknownKeyword key _ => ∃ fields, v = .object fields ∧ key ∈ Dict.keys fields ∧
      key ∉ Annotations.keys ∧ Registry.standard.contains key = false ∧
      ∀ k : BuiltIn, k.name ∈ Dict.keys fields → key ∉ k.reserves
  | invalidPayload key _ _ => path.getLast? = some key ∧
      ((∃ shape, (key, shape) ∈ Annotations.shapes ∧ ¬ shape.Fits v) ∨
        ∃ k : BuiltIn, k.name = key ∧ ¬ k.Takes v)
  | invalidSchema _ found => v.kind = found ∧ found ≠ .object ∧ found ≠ .boolean
  | unknownFilter name _ => path.getLast? = some "filter" ∧
      ∃ names, v.Names names ∧ name ∈ names ∧ ∀ f ∈ Filter.builtIn, f.name ≠ name
  | invalidPattern _ => path.getLast? = some "pattern" ∧
      ∃ source, v = .string source ∧ Pattern.ofText? source = none

theorem Blames.cons {e : CompileError} {path : List String} {v : Value} (h : e.Blames path v)
    (key : String) : e.Blames (key :: path) v := by
  have hlast : ∀ {last}, path.getLast? = some last → (key :: path).getLast? = some last := by
    intro last h
    rw [List.getLast?_cons, h]
    rfl
  cases e with
  | unknownKeyword | invalidSchema => exact h
  | invalidPayload | unknownFilter | invalidPattern => exact ⟨hlast h.1, h.2⟩

/-- Tokens that are not empty are the last ones with or without those that are. -/
theorem Blames.of_nonempty {e : CompileError} {path : List String} {v : Value}
    (h : e.Blames path v) : e.Blames (path.filter (· ≠ "")) v := by
  have hlast : ∀ {last}, last ≠ "" → path.getLast? = some last →
      (path.filter (· ≠ "")).getLast? = some last := by
    intro last ne h
    obtain ⟨front, rfl⟩ := List.getLast?_eq_some_iff.1 h
    simp [ne]
  cases e with
  | unknownKeyword | invalidSchema => exact h
  | invalidPayload key =>
    refine ⟨hlast ?_ h.1, h.2⟩
    rcases h.2 with ⟨shape, mem, -⟩ | ⟨k, rfl, -⟩
    · exact Annotations.key_ne_empty mem
    · exact k.name_ne_empty
  | unknownFilter | invalidPattern => exact ⟨hlast (by decide) h.1, h.2⟩

/-- The error is about a value in another one, and its location is that value's own, seen from the
location of the other. -/
def Located (e : CompileError) (location : String) (v : Value) : Prop :=
  ∃ path w, Value.At path v w ∧ e.location = path.foldl entryLocation location ∧ e.Blames path w

namespace Located

variable {e : CompileError} {location : String}

theorem here {v : Value} (at_ : e.location = location) (blames : e.Blames [] v) :
    Located e location v :=
  ⟨[], v, .here v, at_, blames⟩

theorem field {fields : List (String × Value)} {key : String} {v : Value}
    (mem : (key, v) ∈ fields) (h : Located e (entryLocation location key) v) :
    Located e location (.object fields) := by
  obtain ⟨path, w, at_, hlocation, blames⟩ := h
  exact ⟨key :: path, w, .field mem at_, hlocation, blames.cons key⟩

theorem item {items : List Value} {i : Nat} {v : Value} (get : items[i]? = some v)
    (h : Located e (location ++ "/" ++ toString i) v) : Located e location (.array items) := by
  obtain ⟨path, w, at_, hlocation, blames⟩ := h
  rw [← Pointer.entryLocation_index] at hlocation
  exact ⟨toString i :: path, w, .item get at_, hlocation, blames.cons _⟩

/-- An error about the value under a key, where the key is said to be the last step. -/
theorem payload {fields : List (String × Value)} {key : String} {v : Value}
    (mem : (key, v) ∈ fields) (ne : key ≠ "") (at_ : e.location = locationBelow location key)
    (blames : e.Blames [key] v) : Located e location (.object fields) := by
  refine ⟨[key], v, .field mem (.here v), ?_, blames⟩
  rw [at_, ← Pointer.entryLocation_of_ne ne]
  rfl

end Located

end CompileError

open CompileError (Located)

namespace Annotations

variable {node : Dict Value} {location key : String} {e : CompileError}

/-- An annotation that is refused is not written in its shape. -/
theorem field_error {α : Type} {expected : String} {absent : α} {decode : Value → Option α}
    {shape : Shape} (mem : (key, shape) ∈ shapes) (refused : ¬ Written node key shape)
    (h : field node location key expected absent decode = .error e) :
    Located e location (.object node) := by
  rw [field] at h
  cases hv : node.get? key with
  | none =>
    rw [hv] at h
    cases h
  | some v =>
    simp only [hv] at h
    split at h
    · cases h
    · cases h
      have hfits : ¬ shape.Fits v := by
        intro hfits
        refine refused fun w hw => ?_
        cases hv.symm.trans hw
        exact hfits
      exact .payload (Dict.mem_of_get? hv) (key_ne_empty mem) rfl
        ⟨rfl, .inl ⟨shape, mem, hfits⟩⟩

theorem string?_error (mem : (key, .text) ∈ shapes)
    (h : string? node location key = .error e) : Located e location (.object node) :=
  field_error mem (mt (string?_isOk location).2 (Except.not_isOk h)) h

theorem flag_error (mem : (key, .flag) ∈ shapes)
    (h : flag node location key = .error e) : Located e location (.object node) :=
  field_error mem (mt (flag_isOk location).2 (Except.not_isOk h)) h

theorem strings_error (mem : (key, .names) ∈ shapes)
    (h : strings node location key = .error e) : Located e location (.object node) :=
  field_error mem (mt (strings_isOk location).2 (Except.not_isOk h)) h

theorem texts_error (mem : (key, .texts) ∈ shapes)
    (h : texts node location key = .error e) : Located e location (.object node) :=
  field_error mem (mt (texts_isOk location).2 (Except.not_isOk h)) h

theorem namedFilters_error {r : Registry} {names : List String}
    (h : namedFilters r location names = .error e) :
    ∃ name ∈ names, r.filter? name = none ∧
      e = .unknownFilter name (locationBelow location "filter") := by
  induction names with
  | nil => cases h
  | cons name names ih =>
    rw [namedFilters] at h
    cases hf : r.filter? name with
    | none =>
      simp only [hf] at h
      cases h
      exact ⟨name, List.mem_cons_self, hf, rfl⟩
    | some f =>
      simp only [hf] at h
      obtain ⟨other, hmem, hother⟩ := ih (Except.error_of_map h)
      exact ⟨other, List.mem_cons_of_mem _ hmem, hother⟩

theorem parse_error (h : parse .standard node location = .error e) :
    Located e location (.object node) := by
  rw [parse] at h
  obtain h | ⟨names, hnames, h⟩ := Except.error_of_bind h
  · exact strings_error (by decide) h
  obtain h | ⟨filters, -, h⟩ := Except.error_of_bind h
  · obtain ⟨name, hname, hnone, rfl⟩ := namedFilters_error h
    cases hv : node.get? "filter" with
    | none =>
      rw [(strings_eq_ok location hnames).2 hv] at hname
      cases hname
    | some v =>
      refine .payload (Dict.mem_of_get? hv) (by decide) rfl
        ⟨rfl, names, (strings_eq_ok location hnames).1 v hv, hname, fun f hf he => ?_⟩
      have hsome : (Registry.standard.filter? name).isSome = true := filter?_isSome.2 ⟨f, hf, he⟩
      rw [hnone] at hsome
      cases hsome
  obtain h | ⟨dependsOn, -, h⟩ := Except.error_of_bind h
  · exact strings_error (by decide) h
  obtain h | ⟨dependencies, -, h⟩ := Except.error_of_bind h
  · exact strings_error (by decide) h
  obtain h | ⟨readOnly, -, h⟩ := Except.error_of_bind h
  · exact flag_error (by decide) h
  obtain h | ⟨writeOnly, -, h⟩ := Except.error_of_bind h
  · exact flag_error (by decide) h
  obtain h | ⟨title, -, h⟩ := Except.error_of_bind h
  · exact string?_error (by decide) h
  obtain h | ⟨description, -, h⟩ := Except.error_of_bind h
  · exact string?_error (by decide) h
  obtain h | ⟨error, -, h⟩ := Except.error_of_bind h
  · exact string?_error (by decide) h
  obtain h | ⟨warning, -, h⟩ := Except.error_of_bind h
  · exact string?_error (by decide) h
  obtain h | ⟨errors, -, h⟩ := Except.error_of_bind h
  · exact texts_error (by decide) h
  obtain h | ⟨warnings, -, h⟩ := Except.error_of_bind h
  · exact texts_error (by decide) h
  cases h

end Annotations

namespace Compile

/-- Why the check of a keyword cannot be made: of the payload, of a schema in it, or of a schema
beside it. -/
inductive Refusal (s : Site) (payload : Value) (nested : Nested) (k : BuiltIn) (e : CompileError) :
    Prop where
  | payload {expected : String} (error : e = .invalidPayload s.keyword s.location expected)
      (refused : ¬ k.Takes payload)
  | pattern {source : String} (keyword : k = .pattern) (error : e = .invalidPattern s.location)
      (text : payload = .string source) (refused : Pattern.ofText? source = none)
  | whole (error : (nested.whole s.location).Fails e)
  | items (error : (nested.items s.location).Fails e)
  | fields (error : (nested.fields s.location).Fails e)
  | sibling {key : String} (reserved : key ∈ ["then", "else"]) (error : (s.sibling key).Fails e)

variable {s : Site} {payload : Value} {nested : Nested} {e : CompileError}

/-- A check that refuses nothing but the payload. -/
theorem Refusal.of_invalid {k : BuiltIn} {α : Type} {x : Except CompileError α}
    (takes : x.isOk = true ↔ k.Takes payload) (h : x = .error e)
    (invalid : ∃ expected, e = .invalidPayload s.keyword s.location expected) :
    Refusal s payload nested k e := by
  obtain ⟨expected, he⟩ := invalid
  exact .payload he (mt takes.2 (Except.not_isOk h))

theorem typeCheck_error (h : typeCheck s payload = .error e) :
    Refusal s payload nested .type e := by
  apply Refusal.of_invalid typeCheck_isOk h
  rw [typeCheck] at h
  split at h
  · cases h
    exact ⟨_, rfl⟩
  · split at h
    · cases h
    · cases h
      exact ⟨_, rfl⟩

theorem boundCheck_error {b : Bound} (h : boundCheck s b payload = .error e) :
    Refusal s payload nested (.bound b) e := by
  apply Refusal.of_invalid boundCheck_isOk h
  rw [boundCheck] at h
  split at h
  · cases h
    exact ⟨_, rfl⟩
  · split at h
    · cases h
      exact ⟨_, rfl⟩
    · cases h

theorem countOf_error (h : countOf s payload = .error e) :
    ∃ expected, e = .invalidPayload s.keyword s.location expected := by
  rw [countOf] at h
  split at h
  · cases h
  · cases h
    exact ⟨_, rfl⟩

theorem patternCheck_error (h : patternCheck s payload = .error e) :
    Refusal s payload nested .pattern e := by
  have hrefused := mt patternCheck_isOk.2 (Except.not_isOk h)
  rw [patternCheck] at h
  cases payload with
  | string source =>
    simp only [Value.string?] at h
    cases hp : Pattern.ofText? source with
    | none =>
      rw [hp] at h
      cases h
      exact .pattern rfl rfl rfl hp
    | some p =>
      rw [hp] at h
      cases h
  | _ =>
    cases h
    exact .payload rfl hrefused

theorem requiredCheck_error (h : requiredCheck s payload = .error e) :
    Refusal s payload nested .required e := by
  apply Refusal.of_invalid requiredCheck_isOk h
  rw [requiredCheck.eq_def] at h
  split at h
  · cases h
  · split at h
    · cases h
    · cases h
      exact ⟨_, rfl⟩

theorem enumCheck_error (h : enumCheck s payload = .error e) :
    Refusal s payload nested .enum e := by
  apply Refusal.of_invalid enumCheck_isOk h
  rw [enumCheck.eq_def] at h
  split at h
  · cases h
  · cases h
    exact ⟨_, rfl⟩

theorem uniqueCheck_error (h : uniqueCheck s payload = .error e) :
    Refusal s payload nested .uniqueItems e := by
  apply Refusal.of_invalid uniqueCheck_isOk h
  rw [uniqueCheck.eq_def] at h
  split at h
  · cases h
  · cases h
    exact ⟨_, rfl⟩

/-- A check that refuses the payload as soon as it sees it. -/
theorem Refusal.of_lifted {k : BuiltIn} {expected : String} (refused : ¬ k.Takes payload)
    (h : Compiling.Fails (liftM (s.invalid expected : Except CompileError Check)) e) :
    Refusal s payload nested k e := by
  cases h.of_lift
  exact .payload rfl refused

theorem propertiesCheck_error (h : (propertiesCheck s payload nested).Fails e) :
    Refusal s payload nested .properties e := by
  rw [propertiesCheck.eq_def] at h
  split at h
  · exact .fields h.of_map
  · next hne =>
    refine .of_lifted ?_ h
    rintro ⟨fields, rfl⟩
    exact hne fields rfl

theorem additionalCheck_error (h : (additionalCheck s payload nested).Fails e) :
    Refusal s payload nested .additionalProperties e := by
  rw [additionalCheck.eq_def] at h
  split at h
  · exact absurd h Compiling.not_fails_pure
  · exact .whole h.of_map
  · next hbool hobject =>
    refine .of_lifted ?_ h
    rintro (⟨b, rfl⟩ | ⟨fields, rfl⟩)
    · exact hbool b rfl
    · exact hobject fields rfl

theorem itemsCheck_error (h : (itemsCheck s payload nested).Fails e) :
    Refusal s payload nested .items e := by
  rw [itemsCheck.eq_def] at h
  split at h
  · exact .items h.of_map
  · exact .whole h.of_map
  · exact .whole h.of_map
  · next harray hobject hbool =>
    refine .of_lifted ?_ h
    rintro (⟨b, rfl⟩ | ⟨fields, rfl⟩ | ⟨schemas, rfl⟩)
    · exact hbool b rfl
    · exact hobject fields rfl
    · exact harray schemas rfl

theorem branches_error {k : BuiltIn}
    (takes : ∀ v, k.Takes v ↔ ∃ schemas, v = .array schemas ∧ schemas ≠ [])
    (h : (branches s payload nested).Fails e) : Refusal s payload nested k e := by
  rw [branches.eq_def] at h
  split at h
  · exact .items h
  · next hne =>
    cases h.of_lift
    refine .payload rfl ?_
    rw [takes]
    rintro ⟨schemas, rfl, hcons⟩
    cases schemas with
    | nil => exact hcons rfl
    | cons v schemas => exact hne v schemas rfl

theorem conditionalCheck_error (h : (conditionalCheck s nested).Fails e) :
    Refusal s payload nested .conditional e := by
  rw [conditionalCheck] at h
  obtain h | ⟨condition, -, h⟩ := h.of_bind
  · exact .whole h
  obtain h | ⟨met, -, h⟩ := h.of_bind
  · exact .sibling (by simp) h
  obtain h | ⟨unmet, -, h⟩ := h.of_bind
  · exact .sibling (by simp) h
  exact absurd h Compiling.not_fails_pure

/-- Every error of a built-in keyword has its reason. -/
theorem builtInCheck_error {k : BuiltIn} (h : (builtInCheck s payload nested k).Fails e) :
    Refusal s payload nested k e := by
  cases k with
  | type => exact typeCheck_error h.of_lift
  | enum => exact enumCheck_error h.of_lift
  | const => exact absurd h Compiling.not_fails_pure
  | bound b => exact boundCheck_error h.of_lift
  | length side | itemCount side =>
    have h := Except.error_of_map h.of_lift
    exact .of_invalid countOf_isOk h (countOf_error h)
  | pattern => exact patternCheck_error h.of_lift
  | uniqueItems => exact uniqueCheck_error h.of_lift
  | items => exact itemsCheck_error h
  | properties => exact propertiesCheck_error h
  | required => exact requiredCheck_error h.of_lift
  | additionalProperties => exact additionalCheck_error h
  | allOf | anyOf | oneOf => exact branches_error (fun _ => Iff.rfl) h.of_map
  | excluded => exact .whole h.of_map
  | conditional => exact conditionalCheck_error h

end Compile

/-- A key that the compiler does not know is to blame in the node that holds it. -/
theorem Compile.unknown_located {node : Dict Value} {key location : String}
    (mem : key ∈ Dict.keys node) (reserved : key ∉ reservedKeys .standard node)
    (unknown : Registry.standard.find? key = none) :
    Located (.unknownKeyword key location) location (.object node) := by
  rw [reservedKeys, List.mem_append, not_or] at reserved
  refine .here rfl ⟨node, rfl, mem, reserved.1, ?_, fun k hk hkey => ?_⟩
  · rw [Registry.contains, unknown]
    rfl
  · have hf : Registry.standard.find? k.name = some (.builtIn k) :=
      Registry.find?_standard.2 ⟨k, rfl, rfl⟩
    exact reserved.2 (List.mem_flatMap.2 ⟨k.name, hk, by rwa [hf]⟩)

mutual

theorem compileAt_error (schema : Value) {location : String} {e : CompileError}
    (h : compileAt .standard schema location = .error e) : Located e location schema := by
  match schema with
  | .bool true =>
    rw [compileAt] at h
    cases h
  | .bool false =>
    rw [compileAt] at h
    cases h
  | .object fields =>
    have hs : ∀ {key}, key ≠ "" → (compileSibling .standard fields location key).Fails e →
        Located e location (.object fields) :=
      fun ne hk => compileSibling_error fields ne (fun _ hf => hf) hk
    rw [compileAt] at h
    obtain h | ⟨a, -, h⟩ := Except.error_of_bind h
    · exact Annotations.parse_error h
    obtain h | ⟨checks, -, h⟩ := Except.error_of_bind h
    · exact compileChecks_error fields (fun _ hf => hf) hs ⟨false, h⟩
    cases h
  | .number n =>
    rw [compileAt] at h
    cases h
    exact .here rfl ⟨rfl, by cases n <;> simp [Value.kind], by cases n <;> simp [Value.kind]⟩
  | .null | .string _ | .array _ =>
    rw [compileAt] at h
    cases h
    exact .here rfl ⟨rfl, by decide, by decide⟩

theorem compileChecks_error (entries : List (String × Value)) {node : Dict Value}
    {location : String} {sibling : String → Compiling (Option Rule)} {e : CompileError}
    (sub : ∀ f ∈ entries, f ∈ node)
    (hs : ∀ {key}, key ≠ "" → (sibling key).Fails e → Located e location (.object node))
    (h : (compileChecks .standard node location sibling (Compile.reservedKeys .standard node)
      entries).Fails e) : Located e location (.object node) := by
  match entries with
  | [] =>
    rw [compileChecks] at h
    exact absurd h Compiling.not_fails_pure
  | (key, payload) :: rest =>
    obtain ⟨hmem, hrest⟩ := List.forall_mem_cons.1 sub
    rw [compileChecks] at h
    split at h
    · exact compileChecks_error rest hrest hs h
    · next hreserved =>
      split at h
      · next hf =>
        cases h.of_throw
        exact Compile.unknown_located (List.mem_map.2 ⟨_, hmem, rfl⟩)
          (fun hm => hreserved (List.contains_iff_mem.2 hm)) hf
      · next entry hf =>
        obtain ⟨k, rfl, rfl⟩ := Registry.find?_standard.1 hf
        -- what is to blame in the payload is to blame in the node, one step further up
        have hpayload : Located e (locationBelow location k.name) payload →
            Located e location (.object node) := fun hl =>
          .field hmem ((Pointer.entryLocation_of_ne k.name_ne_empty location).symm ▸ hl)
        obtain h | ⟨check, -, h⟩ := h.of_bind
        · cases Compile.builtInCheck_error h with
          | payload error refused =>
            exact .payload hmem k.name_ne_empty (by rw [error]; rfl)
              (by rw [error]; exact ⟨rfl, .inr ⟨k, rfl, refused⟩⟩)
          | @pattern source keyword error text refused =>
            exact .payload hmem k.name_ne_empty (by rw [error]; rfl)
              (by rw [error, keyword]; exact ⟨rfl, source, text, refused⟩)
          | whole error => exact hpayload (compileAt_error payload error.of_nest)
          | items error => exact hpayload (compileItems_error payload error)
          | fields error => exact hpayload (compileFields_error payload error)
          | @sibling key reserved error =>
            exact hs (by rintro rfl; exact absurd reserved (by decide)) error
        · obtain h | ⟨checks, -, h⟩ := h.of_bind
          · exact compileChecks_error rest hrest hs h
          · exact absurd h Compiling.not_fails_pure

theorem compileSibling_error (entries : List (String × Value)) {node : Dict Value}
    {location key : String} {e : CompileError} (ne : key ≠ "") (sub : ∀ f ∈ entries, f ∈ node)
    (h : (compileSibling .standard entries location key).Fails e) :
    Located e location (.object node) := by
  match entries with
  | [] =>
    rw [compileSibling] at h
    exact absurd h Compiling.not_fails_pure
  | (k, schema) :: rest =>
    obtain ⟨hmem, hrest⟩ := List.forall_mem_cons.1 sub
    rw [compileSibling] at h
    split at h
    · next hk =>
      subst hk
      rw [← Pointer.entryLocation_of_ne ne] at h
      exact .field hmem (compileAt_error schema h.of_map.of_nest)
    · exact compileSibling_error rest ne hrest h

theorem compileItems_error (payload : Value) {location : String} {e : CompileError}
    (h : (compileItems .standard payload location).Fails e) : Located e location payload := by
  match payload with
  | .array schemas =>
    rw [compileItems] at h
    exact compileList_error schemas (fun j => by rw [Nat.zero_add]) h
  | .object _ | .null | .bool _ | .number _ | .string _ => exact absurd h Compiling.not_fails_pure

theorem compileList_error (schemas : List Value) {items : List Value} {location : String} {i : Nat}
    {e : CompileError} (sub : ∀ j, items[i + j]? = schemas[j]?)
    (h : (compileList .standard schemas location i).Fails e) :
    Located e location (.array items) := by
  match schemas with
  | [] =>
    rw [compileList] at h
    exact absurd h Compiling.not_fails_pure
  | schema :: rest =>
    rw [compileList] at h
    obtain h | ⟨rule, -, h⟩ := h.of_bind
    · exact .item (sub 0) (compileAt_error schema h.of_nest)
    obtain h | ⟨rules, -, h⟩ := h.of_bind
    · refine compileList_error rest (fun j => ?_) h
      rw [Nat.add_assoc, Nat.add_comm 1 j, sub]
      rfl
    exact absurd h Compiling.not_fails_pure

theorem compileFields_error (payload : Value) {location : String} {e : CompileError}
    (h : (compileFields .standard payload location).Fails e) : Located e location payload := by
  match payload with
  | .object entries =>
    rw [compileFields] at h
    exact compileEntries_error entries (fun _ hf => hf) h
  | .array _ | .null | .bool _ | .number _ | .string _ => exact absurd h Compiling.not_fails_pure

theorem compileEntries_error (entries : List (String × Value)) {fields : List (String × Value)}
    {location : String} {e : CompileError} (sub : ∀ f ∈ entries, f ∈ fields)
    (h : (compileEntries .standard entries location).Fails e) :
    Located e location (.object fields) := by
  match entries with
  | [] =>
    rw [compileEntries] at h
    exact absurd h Compiling.not_fails_pure
  | (key, schema) :: rest =>
    obtain ⟨hmem, hrest⟩ := List.forall_mem_cons.1 sub
    rw [compileEntries] at h
    obtain h | ⟨rule, -, h⟩ := h.of_bind
    · exact .field hmem (compileAt_error schema h.of_nest)
    obtain h | ⟨rules, -, h⟩ := h.of_bind
    · exact compileEntries_error rest hrest h
    exact absurd h Compiling.not_fails_pure

end

/-- A path over keys that are not empty has no empty step. -/
theorem Value.At.no_empty {path : List String} {v w : Value} (h : At path v w)
    (keyed : v.Keyed (· ≠ "")) : "" ∉ path := by
  induction h with
  | here v => exact List.not_mem_nil
  | field mem rest ih =>
    cases keyed with
    | object keys values =>
      rw [List.mem_cons, not_or]
      exact ⟨(keys _ mem).symm, ih (values _ mem)⟩
  | item get rest ih =>
    cases keyed with
    | array values =>
      rw [List.mem_cons, not_or]
      exact ⟨(Pointer.toString_ne_empty _).symm, ih (values _ (List.mem_of_getElem? get))⟩

/-- **A compile error points at the culprit, empty names apart.** There is a value in the schema
that is to blame for the error. The location, without the hash sign in front, is a pointer, and its
tokens are the steps of the path to that value, less those that are empty. So where no step of the
path is empty, as where no key of the schema is, the pointer resolves to the value that is to
blame. -/
theorem compile_error_points {schema : Value} {e : CompileError} (distinct : schema.Distinct)
    (h : compile .standard schema = .error e) :
    ∃ pointer tokens path v, e.location = "#" ++ pointer ∧
      Pointer.tokens? pointer = some tokens ∧ schema.at? path = some v ∧ e.Blames tokens v ∧
      tokens = path.filter (· ≠ "") ∧
      ("" ∉ path → Pointer.resolve? schema pointer = some v) ∧
      (schema.Keyed (· ≠ "") → "" ∉ path) := by
  obtain ⟨path, v, at_, hlocation, blames⟩ := compileAt_error schema h
  have hat := at_.at?_eq distinct
  refine ⟨Pointer.ofPath (path.filter (· ≠ "")), _, path, v, ?_, Pointer.tokens?_ofPath _, hat,
    blames.of_nonempty, rfl, fun hne => ?_, at_.no_empty⟩
  · rw [hlocation, Pointer.foldl_entryLocation]
  · have hall : path.filter (· ≠ "") = path := by
      rw [List.filter_eq_self]
      intro key hkey
      exact decide_eq_true fun he => hne (he ▸ hkey)
    rw [hall, Pointer.resolve?, Pointer.tokens?_ofPath, Option.bind_some, hat]

/-- A property whose name holds a slash and a tilde, with a kind that there is not. -/
def escapedSchema : Value :=
  .object [("properties", .object [("a/~", .object [("type", .string "text")])])]

/-- The pointer leads to the kind. -/
theorem compile_error_points_escaped :
    ∃ e, compile .standard escapedSchema = .error e ∧ e.location = "#/properties/a~1~0/type" ∧
      ∃ v, Pointer.resolve? escapedSchema "/properties/a~1~0/type" = some v ∧
        e.Blames ["properties", "a/~", "type"] v := by
  have distinct : escapedSchema.Distinct :=
    .object (by decide) (List.forall_mem_singleton.2 (.object (by decide)
      (List.forall_mem_singleton.2 (.object (by decide)
        (List.forall_mem_singleton.2 (.string "text"))))))
  have keyed : escapedSchema.Keyed (· ≠ "") :=
    .object (by decide) (List.forall_mem_singleton.2 (.object (by decide)
      (List.forall_mem_singleton.2 (.object (by decide)
        (List.forall_mem_singleton.2 (.string "text"))))))
  obtain ⟨e, compiled, hlocation⟩ : ∃ e, compile .standard escapedSchema = .error e ∧
      e.location = "#" ++ "/properties/a~1~0/type" := ⟨_, rfl, by decide +kernel⟩
  obtain ⟨pointer, tokens, path, v, hpointer, htokens, -, blames, -, hresolve, hempty⟩ :=
    compile_error_points distinct compiled
  obtain rfl : pointer = "/properties/a~1~0/type" := by
    rw [hlocation] at hpointer
    exact ((String.append_right_inj _).1 hpointer).symm
  have hread : Pointer.tokens? "/properties/a~1~0/type" = some ["properties", "a/~", "type"] := by
    decide +kernel
  obtain rfl : tokens = ["properties", "a/~", "type"] :=
    Option.some.inj (htokens.symm.trans hread)
  exact ⟨e, compiled, hlocation, v, hresolve (hempty keyed), blames⟩

/-- A property with the empty name, and a number where its schema should be. -/
def unnamedSchema : Value := .object [("properties", .object [("", .int 5)])]

/-- The location leads to the object of all properties, which is not to blame: it is not so that the
location of an error always resolves to the value that is. -/
theorem empty_name_misleads :
    compile .standard unnamedSchema = .error (.invalidSchema "#/properties" .integer) ∧
      ¬ ∀ (schema : Value) (e : CompileError), schema.Distinct →
        compile .standard schema = .error e →
        ∃ pointer tokens v, e.location = "#" ++ pointer ∧ Pointer.tokens? pointer = some tokens ∧
          Pointer.resolve? schema pointer = some v ∧ e.Blames tokens v := by
  have compiled : compile .standard unnamedSchema =
      .error (.invalidSchema "#/properties" .integer) := rfl
  refine ⟨compiled, fun hall => ?_⟩
  have distinct : unnamedSchema.Distinct :=
    .object (by decide) (List.forall_mem_singleton.2 (.object (by decide)
      (List.forall_mem_singleton.2 (.number (.int 5)))))
  obtain ⟨pointer, tokens, v, hpointer, -, hresolve, hkind, -⟩ := hall _ _ distinct compiled
  obtain rfl : pointer = "/properties" := by
    have hpointer : "#" ++ "/properties" = "#" ++ pointer := hpointer
    exact ((String.append_right_inj _).1 hpointer).symm
  have hobject : (Pointer.resolve? unnamedSchema "/properties").map Value.kind = some .object := by
    decide +kernel
  rw [hresolve, Option.map_some, hkind] at hobject
  cases hobject

end Conform
