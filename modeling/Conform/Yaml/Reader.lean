import Conform.Yaml.Node
import Conform.Yaml.Token

/-!
# Reading YAML

One document: its directives, and a node of block and flow mappings and sequences, scalars and
aliases. A second document is refused.
-/

namespace Conform.Yaml.Reader

/-- The anchors so far. A name that is used again gets a new number, the number of names so far; so
two anchors may share one, and then the later one counts. -/
structure Anchors where
  /-- The numbers of the names. -/
  numbers : List (String × Nat)
  /-- The numbers of the nodes in the order in which they began, the latest first. -/
  begun : List Nat
  /-- The nodes that have ended, by their places in that order. -/
  nodes : List (Nat × Node)

namespace Anchors

def none : Anchors := ⟨[], [], []⟩

/-- A node begins, perhaps under a name. Its place is given back. -/
def begin (a : Anchors) : Option String → Nat × Anchors
  | .none => (a.begun.length, a)
  | some name =>
    let others := a.numbers.filter (·.1 ≠ name)
    (a.begun.length,
      { a with
        numbers := (name, a.numbers.length) :: others
        begun := a.numbers.length :: a.begun })

/-- A node with a place ends. -/
def close (a : Anchors) (name : Option String) (place : Nat) (n : Node) : Anchors :=
  if name.isSome then { a with nodes := (place, n) :: a.nodes } else a

/-- The anchored nodes by their numbers, the latest first. -/
def list (a : Anchors) : List (Nat × Node) :=
  (a.begun.zipIdx).filterMap fun (number, i) =>
    (a.nodes.lookup (a.begun.length - 1 - i)).map fun n => (number, n)

end Anchors

/-- What is left to read and the anchors so far. -/
structure Reading where
  tokens : List Token
  anchors : Anchors

abbrev Handles := List (String × String)

/-- An anchor and a tag in either order. -/
def takeLabels : List Token → Option String × Option TagText × List Token
  | .anchor a :: .tag t :: ts => (some a, some t, ts)
  | .tag t :: .anchor a :: ts => (some a, some t, ts)
  | .anchor a :: ts => (some a, none, ts)
  | .tag t :: ts => (none, some t, ts)
  | ts => (none, none, ts)

/-- A tag with what its handle stands for, if that is known. -/
def resolveTag? (handles : Handles) (t : TagText) : Option String :=
  if t.handle = "" then some t.suffix else (handles.lookup t.handle).map (· ++ t.suffix)

def resolveTags? (handles : Handles) : Option TagText → Option (Option String)
  | none => some none
  | some t => (resolveTag? handles t).map some

/-- Whether a block goes on without a node here. -/
def lacksBlockNode : List Token → Bool
  | .key :: _ | .value :: _ | .blockEnd :: _ => true
  | _ => false

def lacksItem : List Token → Bool
  | .dash :: _ | .blockEnd :: _ => true
  | _ => false

def lacksFlowNode (close : Token → Bool) : List Token → Bool
  | .comma :: _ => true
  | t :: _ => close t
  | [] => false

def closesSequence : Token → Bool
  | .closeBracket => true
  | _ => false

def closesMapping : Token → Bool
  | .closeBrace => true
  | _ => false

/-- Behind the comma that stands before all nodes but the first. -/
def afterComma? (first : Bool) : List Token → Option (List Token)
  | .comma :: ts => if first then some (.comma :: ts) else some ts
  | ts => if first then some ts else none

mutual

/-- The node at the front. In a block it may be a block of its own, and where `leaning` holds, a
sequence whose dashes stand no further right than the key before. -/
def readNode? (handles : Handles) : Nat → (inBlock leaning : Bool) → Reading →
    Option (Node × Reading)
  | 0, _, _, _ => none
  | fuel + 1, inBlock, leaning, r =>
    match r.tokens with
    | .reference name :: ts =>
      (r.anchors.numbers.lookup name).map fun i => (.reference i, { r with tokens := ts })
    | _ =>
      let (anchor, label, tokens) := takeLabels r.tokens
      match resolveTags? handles label with
      | none => none
      | some tag =>
        let (place, anchors) := r.anchors.begin anchor
        let behind (ts : List Token) : Reading := ⟨ts, anchors⟩
        let found : Option (Node × Reading) :=
          match tokens, inBlock with
          | .scalar text style :: ts, _ =>
            some (.scalar ⟨text, style, if tag = some "!" then none else tag⟩, behind ts)
          | .openBracket :: ts, _ => readItems? handles fuel tag true [] (behind ts)
          | .openBrace :: ts, _ => readEntries? handles fuel tag true [] (behind ts)
          | .sequenceStart :: ts, true => readDashes? handles fuel tag [] (behind ts)
          | .mappingStart :: ts, true => readKeys? handles fuel tag [] (behind ts)
          | ts, _ =>
            if leaning && ts.head?.any (· matches .dash) then
              readLeaning? handles fuel tag [] (behind ts)
            else if anchor.isSome || tag.isSome then some (.scalar ⟨"", .plain, tag⟩, behind ts)
            else none
        found.map fun (n, r) => (n, { r with anchors := r.anchors.close anchor place n })

/-- The items of a sequence with dashes, up to the end of its block. -/
def readDashes? (handles : Handles) : Nat → Option String → List Node → Reading →
    Option (Node × Reading)
  | 0, _, _, _ => none
  | fuel + 1, tag, items, r =>
    match r.tokens with
    | .dash :: ts =>
      if lacksItem ts then readDashes? handles fuel tag (.empty :: items) { r with tokens := ts }
      else
        match readNode? handles fuel true false { r with tokens := ts } with
        | none => none
        | some (n, r) => readDashes? handles fuel tag (n :: items) r
    | .blockEnd :: ts => some (.sequence tag items.reverse, { r with tokens := ts })
    | _ => none

/-- The items of a sequence with dashes that has no block of its own. -/
def readLeaning? (handles : Handles) : Nat → Option String → List Node → Reading →
    Option (Node × Reading)
  | 0, _, _, _ => none
  | fuel + 1, tag, items, r =>
    match r.tokens with
    | .dash :: ts =>
      if lacksItem ts || lacksBlockNode ts then
        readLeaning? handles fuel tag (.empty :: items) { r with tokens := ts }
      else
        match readNode? handles fuel true false { r with tokens := ts } with
        | none => none
        | some (n, r) => readLeaning? handles fuel tag (n :: items) r
    | _ => some (.sequence tag items.reverse, r)

/-- The entries of a mapping, up to the end of its block. -/
def readKeys? (handles : Handles) : Nat → Option String → List (Node × Node) → Reading →
    Option (Node × Reading)
  | 0, _, _, _ => none
  | fuel + 1, tag, entries, r =>
    match r.tokens with
    | .key :: ts =>
      let key := if lacksBlockNode ts then some (Node.empty, { r with tokens := ts })
        else readNode? handles fuel true true { r with tokens := ts }
      match key with
      | none => none
      | some (k, r) =>
        match readBlockValue? handles fuel r with
        | none => none
        | some (n, r) => readKeys? handles fuel tag ((k, n) :: entries) r
    | .blockEnd :: ts => some (.mapping tag entries.reverse, { r with tokens := ts })
    | _ => none

/-- What stands behind a key, if a colon does. -/
def readBlockValue? (handles : Handles) : Nat → Reading → Option (Node × Reading)
  | 0, _ => none
  | fuel + 1, r =>
    match r.tokens with
    | .value :: ts =>
      if lacksBlockNode ts then some (.empty, { r with tokens := ts })
      else readNode? handles fuel true true { r with tokens := ts }
    | _ => some (.empty, r)

/-- The items in brackets. An item may be one entry of a mapping, without braces. -/
def readItems? (handles : Handles) : Nat → Option String → (first : Bool) → List Node → Reading →
    Option (Node × Reading)
  | 0, _, _, _, _ => none
  | fuel + 1, tag, first, items, r =>
    match r.tokens with
    | .closeBracket :: ts => some (.sequence tag items.reverse, { r with tokens := ts })
    | ts =>
      match afterComma? first ts with
      | none => none
      | some (.closeBracket :: ts) => some (.sequence tag items.reverse, { r with tokens := ts })
      | some (.key :: ts) =>
        match readPair? handles fuel { r with tokens := ts } with
        | none => none
        | some (n, r) => readItems? handles fuel tag false (n :: items) r
      | some ts =>
        match readNode? handles fuel false false { r with tokens := ts } with
        | none => none
        | some (n, r) => readItems? handles fuel tag false (n :: items) r

/-- An entry that stands for a mapping. Where the key is left out, what stands in its place is
passed over. -/
def readPair? (handles : Handles) : Nat → Reading → Option (Node × Reading)
  | 0, _ => none
  | fuel + 1, r =>
    let isLeftOut := lacksFlowNode closesSequence r.tokens || r.tokens.head?.any (· matches .value)
    let key := if isLeftOut then some (Node.empty, { r with tokens := r.tokens.drop 1 })
      else readNode? handles fuel false false r
    match key with
    | none => none
    | some (k, r) =>
      (readFlowValue? handles fuel closesSequence r).map fun (n, r) =>
        (.mapping none [(k, n)], r)

/-- What stands behind a key in brackets or braces, if a colon does. -/
def readFlowValue? (handles : Handles) : Nat → (Token → Bool) → Reading → Option (Node × Reading)
  | 0, _, _ => none
  | fuel + 1, close, r =>
    match r.tokens with
    | .value :: ts =>
      if lacksFlowNode close ts then some (.empty, { r with tokens := ts })
      else readNode? handles fuel false false { r with tokens := ts }
    | _ => some (.empty, r)

/-- The entries in braces. A key may stand alone. -/
def readEntries? (handles : Handles) : Nat → Option String → (first : Bool) →
    List (Node × Node) → Reading → Option (Node × Reading)
  | 0, _, _, _, _ => none
  | fuel + 1, tag, first, entries, r =>
    match r.tokens with
    | .closeBrace :: ts => some (.mapping tag entries.reverse, { r with tokens := ts })
    | ts =>
      match afterComma? first ts with
      | none => none
      | some (.closeBrace :: ts) => some (.mapping tag entries.reverse, { r with tokens := ts })
      | some (.key :: ts) =>
        let isLeftOut := lacksFlowNode closesMapping ts || ts.head?.any (· matches .value)
        let key := if isLeftOut then some (Node.empty, { r with tokens := ts })
          else readNode? handles fuel false false { r with tokens := ts }
        match key with
        | none => none
        | some (k, r) =>
          match readFlowValue? handles fuel closesMapping r with
          | none => none
          | some (n, r) => readEntries? handles fuel tag false ((k, n) :: entries) r
      | some ts =>
        match readNode? handles fuel false false { r with tokens := ts } with
        | none => none
        | some (k, r) => readEntries? handles fuel tag false ((k, .empty) :: entries) r

end

def directive? : Token → Option Directive
  | .directive d => some d
  | _ => none

/-- The version of a document may be given once. -/
def areVersionsKnown (ds : List Directive) : Bool :=
  let versions := ds.filterMap fun
    | .version major minor => some (major, minor)
    | .tag _ _ => none
  versions.length ≤ 1 && versions.all fun v => v.1 = 1 && (v.2 = 1 || v.2 = 2)

/-- What the handles of tags stand for. Each is given at most once. -/
def handles? (ds : List Directive) : Option Handles :=
  let given := ds.filterMap fun
    | .version _ _ => none
    | .tag handle start => some (handle, start)
  if areVersionsKnown ds ∧ (given.map Prod.fst).Nodup then
    some (given ++ [("!", "!"), ("!!", standardTag "")])
  else none

def isDocumentEnd : Token → Bool
  | .documentEnd => true
  | _ => false

/-- Whether a document that has begun holds nothing. -/
def isVoid : List Token → Bool
  | [] => true
  | .directive _ :: _ | .documentStart :: _ | .documentEnd :: _ => true
  | _ => false

/-- A node and, behind it, nothing but ends of the document. -/
def readRoot? (handles : Handles) (tokens : List Token) : Option Tree :=
  match readNode? handles (2 * tokens.length + 2) true false ⟨tokens, .none⟩ with
  | none => none
  | some (n, r) => if r.tokens.all isDocumentEnd then some ⟨n, r.anchors.list⟩ else none

def ofTokens? (tokens : List Token) : Option Tree :=
  let directives := tokens.takeWhile fun t => (directive? t).isSome
  match directives, tokens.drop directives.length with
  | [], [] => some ⟨.empty, []⟩
  | _, .documentStart :: ts =>
    match handles? (directives.filterMap directive?) with
    | none => none
    | some handles =>
      if !isVoid ts then readRoot? handles ts
      else if ts.all isDocumentEnd then some ⟨.empty, []⟩ else none
  | [], ts => (handles? []).bind fun handles => readRoot? handles ts
  | _, _ => none

/-- The one document of a text. -/
def read? (text : String) : Option Tree := (tokens? text).bind ofTokens?

end Conform.Yaml.Reader
