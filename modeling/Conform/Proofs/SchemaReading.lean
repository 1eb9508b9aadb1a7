import Conform.Proofs.Grammar
import Conform.Proofs.Magnitude
import Conform.Proofs.Verdict

/-!
# Reading a schema

What a schema says of a value, read off the schema and the value alone, keyword by keyword: no rule
is compiled, no tree is written, and no branch is tried on a copy. It is a verdict: true, false, or
none where no keyword applies. Defaults, filters and `required: true` make something of a value and
are not read.
-/

namespace Conform

/-- What is said of each value, and of none. -/
abbrev Reading := Option Value → Option Bool

/-- The text, or the texts in the array. -/
def Value.texts : Value → List String
  | string s => [s]
  | array items => items.filterMap string?
  | _ => []

/-- The keys, if it is an object. -/
def Value.keys : Value → List String
  | object fields => Dict.keys fields
  | _ => []

/-- Whether the `properties` of a node have a name. -/
def Value.declares (node : Dict Value) (name : String) : Bool :=
  match node.get? "properties" with
  | some (object entries) => Dict.contains name entries
  | _ => false

open Verdict

namespace BuiltIn

/-- What a keyword with no schemas in its payload says of a value that is there. -/
def judges (node : Dict Value) (payload v : Value) : BuiltIn → Option Bool
  | type => some (Kind.all.any fun kind => kind.name ∈ payload.texts && kind.accepts v)
  | enum =>
    match payload with
    | .array allowed => some (allowed.any (·.same v))
    | _ => none
  | const => some (v.same payload)
  | bound b =>
    match payload, v with
    | .number limit, .number n => some (decide (b.Meant n.toDouble limit.toDouble))
    | _, _ => some false
  | length side =>
    match side, v with
    | .atLeast, .string s => payload.nat?.map fun limit => decide (limit ≤ s.length)
    | .atMost, .string s => payload.nat?.map fun limit => decide (s.length ≤ limit)
    | _, _ => some false
  | pattern =>
    match payload, v with
    | .string source, .string s => (Pattern.ofText? source).map (·.matchesText s)
    | _, _ => some false
  | itemCount side =>
    match side, v with
    | .atLeast, .array vs => payload.nat?.map fun limit => decide (limit ≤ vs.length)
    | .atMost, .array vs => payload.nat?.map fun limit => decide (vs.length ≤ limit)
    | _, _ => some false
  | uniqueItems =>
    match payload, v with
    | .bool true, .array vs => some (decide (vs.Pairwise fun v w => v.same w = false))
    | _, _ => none
  | required =>
    match payload, v with
    | .array names, .object fields =>
      some ((Value.array names).texts.all fun name => Dict.contains name fields)
    | _, _ => none
  | additionalProperties =>
    match payload with
    | .bool false => some (v.keys.all (Value.declares node))
    | _ => none
  | _ => none

/-- What a keyword says, given the readings of what it leads to: of its payload as a schema, of the
items and of the fields of the payload, and of the schemas beside it. -/
def reading (node : Dict Value) (payload : Value) (whole : Reading) (items : List Reading)
    (fields : List (String × Reading)) (beside : String → Reading) (v : Option Value) :
    BuiltIn → Option Bool
  | properties =>
    match v with
    | none | some (.object _) => below (fields.map fun f => f.2 (v.bind (Value.field? f.1)))
    | some _ => none
  | additionalProperties =>
    match payload, v with
    | .object _, some v =>
      below ((v.keys.filter (!Value.declares node ·)).map fun key => whole (v.field? key))
    | _, _ => v.bind fun v => additionalProperties.judges node payload v
  | .items =>
    match v with
    | some (.array vs) =>
      below (match payload with
        | .array _ => items.zipWith (fun read v => read (some v)) vs
        | _ => vs.map fun v => whole (some v))
    | _ => none
  | allOf => conjunction (items.map (· v))
  | anyOf => first (items.map (· v))
  | oneOf => only (items.map (· v))
  | excluded => some (decide (whole v = some false))
  | conditional => if whole v = some false then beside "else" v else beside "then" v
  | k => v.bind fun v => k.judges node payload v

end BuiltIn

mutual

/-- What a schema says of a value that may be undefined. -/
def Value.reading (schema : Value) : Reading :=
  match schema with
  | .bool b => fun _ => if b then none else some false
  | .object fields => fun v =>
    conjunction ((readEntries fields (fun key => readBeside fields key) fields).map (· v))
  | .null | .number _ | .string _ | .array _ => fun _ => none

def readEntries (node : Dict Value) (beside : String → Reading) (entries : List (String × Value)) :
    List Reading :=
  match entries with
  | [] => []
  | (key, payload) :: rest =>
    (match BuiltIn.named? key with
      | some k => fun v => k.reading node payload payload.reading (readItems payload)
          (readFields payload) beside v
      | none => fun _ => none) :: readEntries node beside rest

/-- The schema under a key, which says nothing if it is not there. -/
def readBeside (entries : List (String × Value)) (key : String) : Reading :=
  match entries with
  | [] => fun _ => none
  | (k, schema) :: rest => if k = key then schema.reading else readBeside rest key

def readItems (payload : Value) : List Reading :=
  match payload with
  | .array schemas => readList schemas
  | _ => []

def readList (schemas : List Value) : List Reading :=
  match schemas with
  | [] => []
  | schema :: rest => schema.reading :: readList rest

def readFields (payload : Value) : List (String × Reading) :=
  match payload with
  | .object entries => readNamed entries
  | _ => []

def readNamed (entries : List (String × Value)) : List (String × Reading) :=
  match entries with
  | [] => []
  | (key, schema) :: rest => (key, schema.reading) :: readNamed rest

end

theorem readItems_array (schemas : List Value) :
    readItems (.array schemas) = schemas.map Value.reading := by
  rw [readItems]
  induction schemas with
  | nil => rw [readList, List.map_nil]
  | cons v schemas ih => rw [readList, ih, List.map_cons]

theorem readFields_object (entries : List (String × Value)) :
    readFields (.object entries) = entries.map fun e => (e.1, e.2.reading) := by
  rw [readFields]
  induction entries with
  | nil => rw [readNamed, List.map_nil]
  | cons e entries ih => rw [readNamed, ih, List.map_cons]

theorem readBeside_eq (entries : List (String × Value)) (key : String) :
    readBeside entries key = ((Dict.get? key entries).map Value.reading).getD fun _ => none := by
  induction entries with
  | nil => rw [readBeside, Dict.get?, Option.map_none, Option.getD_none]
  | cons e entries ih =>
    rw [readBeside, Dict.get?]
    split
    · rfl
    · exact ih

/-- What an entry of a node says: nothing, if it is no keyword. -/
def Value.entryReading (node : Dict Value) (e : String × Value) : Reading :=
  match BuiltIn.named? e.1 with
  | some k => fun v => k.reading node e.2 e.2.reading (readItems e.2) (readFields e.2)
      (readBeside node) v
  | none => fun _ => none

/-- An object says what its keywords say together. -/
theorem Value.reading_object (fields : Dict Value) (v : Option Value) :
    (object fields).reading v = conjunction (fields.map fun e => entryReading fields e v) := by
  have hentries : ∀ entries : List (String × Value),
      readEntries fields (readBeside fields) entries = entries.map (entryReading fields) := by
    intro entries
    induction entries with
    | nil => rw [readEntries, List.map_nil]
    | cons e entries ih =>
      rw [readEntries, ih, List.map_cons]
      rfl
  simp only [reading, hentries, List.map_map]
  rfl

theorem Value.texts_strings (names : List String) : (strings names).texts = names := by
  rw [strings, texts, List.filterMap_map]
  exact List.filterMap_some

theorem Value.Names.texts {v : Value} {names : List String} (h : v.Names names) :
    v.texts = names := by
  rcases h with rfl | ⟨s, rfl, rfl⟩
  · exact texts_strings names
  · rfl

theorem Kind.named?_eq_some {name : String} {kind : Kind} :
    named? name = some kind ↔ kind.name = name := by
  constructor
  · intro h
    simpa using List.find?_some h
  · rintro rfl
    cases kind <;> rfl

theorem Option.mem_of_mapM {α β : Type} {f : α → Option β} {as : List α} {bs : List β}
    (h : as.mapM f = some bs) {b : β} : b ∈ bs ↔ ∃ a ∈ as, f a = some b := by
  induction as generalizing bs with
  | nil =>
    cases h
    simp
  | cons a as ih =>
    rw [List.mapM_cons, Option.bind_eq_bind, Option.bind_eq_some_iff] at h
    obtain ⟨b', hb, h⟩ := h
    rw [Option.bind_eq_bind, Option.bind_eq_some_iff] at h
    obtain ⟨bs', hbs, h⟩ := h
    cases h
    rw [List.mem_cons, ih hbs, List.exists_mem_cons_iff, hb, Option.some.injEq, eq_comm]

/-- The kinds with the names in a payload are those that are asked. -/
theorem Kind.any_accepts {payload v : Value} {names : List String} {kinds : List Kind}
    (written : Compile.typeNames payload = some names) (named : names.mapM named? = some kinds) :
    kinds.any (·.accepts v) = all.any fun kind => kind.name ∈ payload.texts && kind.accepts v := by
  have hmem : ∀ kind, kind ∈ kinds ↔ kind.name ∈ names := by
    intro kind
    rw [Option.mem_of_mapM named]
    simp only [named?_eq_some]
    exact ⟨fun ⟨_, hname, h⟩ => h ▸ hname, fun h => ⟨_, h, rfl⟩⟩
  have hall : ∀ kind : Kind, kind ∈ all := by
    intro kind
    cases kind <;> decide
  rw [(Compile.typeNames_eq_some.1 written).texts, Bool.eq_iff_iff]
  simp [hmem, hall]

theorem Value.declares_eq (node : Dict Value) (name : String) :
    declares node name = (Compile.propertyNames node).contains name := by
  rw [declares, Compile.propertyNames]
  cases node.get? "properties" with
  | none => rfl
  | some v =>
    cases v with
    | object entries =>
      rw [Bool.eq_iff_iff, List.contains_iff_mem, Dict.mem_keys_iff]
      rfl
    | _ => rfl

namespace Leaf

theorem boundHolds_eq {b : Bound} {x limit : Double} :
    boundHolds b x limit = decide (b.Meant x limit) := by
  rw [Bool.eq_iff_iff, decide_eq_true_eq, boundHolds_iff]

theorem hasDuplicate_iff {vs : List Value} :
    hasDuplicate vs = false ↔ vs.Pairwise fun v w => v.same w = false := by
  induction vs with
  | nil => simp [hasDuplicate]
  | cons v vs ih => simp [hasDuplicate, ih]

theorem hasDuplicate_eq (vs : List Value) :
    (!hasDuplicate vs) = decide (vs.Pairwise fun v w => v.same w = false) := by
  rw [Bool.eq_iff_iff, decide_eq_true_eq, ← hasDuplicate_iff, Bool.not_eq_true']

theorem extraKeys_eq (node : Dict Value) (v : Value) :
    extraKeys (Compile.propertyNames node) v = v.keys.filter (!Value.declares node ·) := by
  cases v with
  | object fields => simp only [extraKeys, Value.keys, Value.declares_eq]
  | _ => rfl

end Leaf

end Conform
