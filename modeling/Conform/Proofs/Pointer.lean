import Conform.Proofs.Paths
import Conform.Schema.Annotation

/-!
# Locations as pointers

The location of a compile error is a hash sign and a JSON pointer. `tokens?` and `resolve?` read
such a pointer by the rules for JSON pointers, without any use of how it was made. A location that
was built up key by key is read back as the keys that it was built from, those apart that are empty:
`entryLocation` adds nothing for them.
-/

namespace Conform

namespace Pointer

/-- A token as it is meant: `~1` is a slash and `~0` a tilde. No other tilde is allowed. -/
def unescape? : List Char → Option (List Char)
  | [] => some []
  | '~' :: '0' :: cs => (unescape? cs).map ('~' :: ·)
  | '~' :: '1' :: cs => (unescape? cs).map ('/' :: ·)
  | c :: cs => if c = '~' then none else (unescape? cs).map (c :: ·)

/-- The tokens of a pointer, each with a slash in front. -/
def tokens? (pointer : String) : Option (List String) :=
  match slashPieces pointer.toList with
  | [] :: pieces => pieces.mapM fun piece => (unescape? piece).map String.ofList
  | _ => none

/-- The index that a token writes, without a needless zero in front. -/
def index? (token : String) : Option Nat :=
  if token = "0" ∨ token.toList.head? ≠ some '0' then decimal? token.toList else none

end Pointer

/-- The value one token further down. -/
def Value.child? (token : String) : Value → Option Value
  | object fields => Dict.get? token fields
  | array items => (Pointer.index? token).bind (items[·]?)
  | _ => none

/-- The value that a list of tokens leads to. -/
def Value.at? : Value → List String → Option Value
  | v, [] => some v
  | v, token :: path => (v.child? token).bind (at? · path)

def Pointer.resolve? (v : Value) (pointer : String) : Option Value := (tokens? pointer).bind v.at?

namespace Pointer

theorem unescape?_cons {c : Char} (h : c ≠ '~') (cs : List Char) :
    unescape? (c :: cs) = (unescape? cs).map (c :: ·) := by
  rw [unescape?, if_neg h]
  · rintro _ rfl
    exact absurd rfl h
  · rintro _ rfl
    exact absurd rfl h

theorem unescape?_pointerToken (key : String) :
    unescape? (pointerToken key).toList = some key.toList := by
  rw [pointerToken, String.toList_ofList]
  induction key.toList with
  | nil => rfl
  | cons c cs ih =>
    rw [List.flatMap_cons]
    by_cases ht : c = '~'
    · simp [ht, unescape?, ih]
    · by_cases hs : c = '/'
      · simp [hs, unescape?, ih]
      · rw [if_neg ht, if_neg hs, List.singleton_append, unescape?_cons ht, ih, Option.map_some]

theorem no_slash_in_token (key : String) : '/' ∉ (pointerToken key).toList := by
  rw [pointerToken, String.toList_ofList, List.mem_flatMap]
  rintro ⟨c, -, hc⟩
  by_cases ht : c = '~'
  · simp [ht] at hc
  · by_cases hs : c = '/'
    · simp [hs] at hc
    · simp only [if_neg ht, if_neg hs, List.mem_singleton] at hc
      exact hs hc.symm

/-- The pointer with given tokens. -/
def ofPath : List String → String
  | [] => ""
  | key :: path => "/" ++ pointerToken key ++ ofPath path

theorem toList_ofPath_cons (key : String) (path : List String) :
    (ofPath (key :: path)).toList = '/' :: ((pointerToken key).toList ++ (ofPath path).toList) := by
  simp [ofPath]

theorem slashPieces_ofPath (path : List String) {piece : List Char} (h : '/' ∉ piece) :
    slashPieces (piece ++ (ofPath path).toList) =
      piece :: path.map fun key => (pointerToken key).toList := by
  induction path generalizing piece with
  | nil =>
    rw [show (ofPath []).toList = [] from rfl, List.append_nil, slashPieces_of_no_slash h]
    rfl
  | cons key path ih =>
    rw [toList_ofPath_cons, slashPieces_append, slashPieces_of_no_slash h,
      ih (no_slash_in_token key)]
    rfl

/-- What was written is read. -/
theorem tokens?_ofPath (path : List String) : tokens? (ofPath path) = some path := by
  have hpieces : slashPieces (ofPath path).toList =
      [] :: path.map fun key => (pointerToken key).toList :=
    slashPieces_ofPath path List.not_mem_nil
  have hread : ∀ path : List String, (path.map fun key => (pointerToken key).toList).mapM
      (fun piece => (unescape? piece).map String.ofList) = some path := by
    intro path
    induction path with
    | nil => rfl
    | cons key path ih =>
      rw [List.map_cons, List.mapM_cons, ih, unescape?_pointerToken, Option.map_some,
        String.ofList_toList]
      rfl
  rw [tokens?, hpieces]
  exact hread path

theorem index?_toString (i : Nat) : index? (toString i) = some i := by
  rw [index?, if_pos (Segment.toString_front i), Segment.decimal?_toString]

theorem pointerToken_toString (i : Nat) : pointerToken (toString i) = toString i := by
  have hplain : ∀ c ∈ (toString i).toList, c ≠ '~' ∧ c ≠ '/' := by
    intro c hc
    rw [Segment.toList_toString] at hc
    have hdigit := Nat.isDigit_of_mem_toDigits (by decide) (by decide) hc
    constructor
    · rintro rfl
      cases hdigit
    · rintro rfl
      cases hdigit
  have hsame : ∀ cs : List Char, (∀ c ∈ cs, c ≠ '~' ∧ c ≠ '/') → (cs.flatMap fun c =>
      if c = '~' then ['~', '0'] else if c = '/' then ['~', '1'] else [c]) = cs := by
    intro cs h
    induction cs with
    | nil => rfl
    | cons c cs ih =>
      rw [List.forall_mem_cons] at h
      rw [List.flatMap_cons, if_neg h.1.1, if_neg h.1.2, ih h.2, List.singleton_append]
  rw [pointerToken, hsame _ hplain, String.ofList_toList]

theorem toString_ne_empty (i : Nat) : toString i ≠ "" := by
  intro h
  have hlist := congrArg String.toList h
  rw [Segment.toList_toString] at hlist
  exact Nat.toDigits_ne_nil hlist

theorem entryLocation_index (location : String) (i : Nat) :
    entryLocation location (toString i) = location ++ "/" ++ toString i := by
  rw [entryLocation, if_neg (toString_ne_empty i), locationBelow, pointerToken_toString]

theorem entryLocation_of_ne {key : String} (h : key ≠ "") (location : String) :
    entryLocation location key = locationBelow location key := by
  rw [entryLocation, if_neg h]

/-- A location that was built up key by key points along the keys, apart from the empty ones. -/
theorem foldl_entryLocation (path : List String) (location : String) :
    path.foldl entryLocation location = location ++ ofPath (path.filter (· ≠ "")) := by
  induction path generalizing location with
  | nil => simp [ofPath]
  | cons key path ih =>
    rw [List.foldl_cons, ih]
    by_cases h : key = ""
    · simp [entryLocation, h]
    · simp [entryLocation, locationBelow, h, ofPath, String.append_assoc]

end Pointer

/-- A path that leads from a value down to another. -/
inductive Value.At : List String → Value → Value → Prop where
  | here (v : Value) : At [] v v
  | field {fields : List (String × Value)} {key : String} {w x : Value} {path : List String}
      (mem : (key, w) ∈ fields) (rest : At path w x) : At (key :: path) (.object fields) x
  | item {items : List Value} {i : Nat} {w x : Value} {path : List String}
      (get : items[i]? = some w) (rest : At path w x) : At (toString i :: path) (.array items) x

/-- No object in a value holds a key twice. -/
inductive Value.Distinct : Value → Prop where
  | null : Distinct .null
  | bool (b : Bool) : Distinct (.bool b)
  | number (n : Number) : Distinct (.number n)
  | string (s : String) : Distinct (.string s)
  | array {items : List Value} (values : ∀ v ∈ items, Distinct v) : Distinct (.array items)
  | object {fields : List (String × Value)} (keys : (Dict.keys fields).Nodup)
      (values : ∀ f ∈ fields, Distinct f.2) : Distinct (.object fields)

/-- Where keys are distinct, the path leads to one value. -/
theorem Value.At.at?_eq {path : List String} {v w : Value} (h : At path v w)
    (distinct : v.Distinct) : v.at? path = some w := by
  induction h with
  | here v => rfl
  | field mem rest ih =>
    cases distinct with
    | object keys values =>
      rw [at?, child?, Dict.get?_of_mem keys mem]
      exact ih (values _ mem)
  | item get rest ih =>
    cases distinct with
    | array values =>
      rw [at?, child?, Pointer.index?_toString, Option.bind_some, get]
      exact ih (values _ (List.mem_of_getElem? get))

end Conform
