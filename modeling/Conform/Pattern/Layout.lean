import Conform.Pattern.Normal
import Std.Data.HashMap

/-!
# Layouts

Before a pattern is used it is laid out as states over bytes, once for reading forwards and once for
reading backwards. What a layout takes is counted in bytes: each state takes as many, and one that
leads to several others takes some for each of them. A pattern with too large a layout is refused.

States of a class that lead on alike are shared as far as a table remembers them. A table has a
fixed number of slots, an entry goes to the slot that its content and the numbers of the states in
it choose, and a later entry drives out an earlier one. So what a class takes may depend on the
number of states before it.
-/

namespace Conform.Pattern

open Text (Range CharSet)

/-- The sum that chooses a slot, with one more number. -/
def mixed (h : UInt64) (n : Nat) : UInt64 := (h ^^^ n.toUInt64) * 1099511628211

def mixStart : UInt64 := 14695981039346656037

/-- A table from keys to states in a number of slots. -/
structure StateTable (κ : Type) where
  slots : Nat
  entries : Std.HashMap Nat (κ × Nat)

namespace StateTable

variable {κ : Type}

def ofSlots (slots : Nat) : StateTable κ := ⟨slots, ∅⟩

def slot (t : StateTable κ) (h : UInt64) : Nat := h.toNat % t.slots

def get? [DecidableEq κ] (t : StateTable κ) (h : UInt64) (k : κ) : Option Nat :=
  match t.entries[t.slot h]? with
  | some (k', s) => if k' = k then some s else none
  | none => none

def insert (t : StateTable κ) (h : UInt64) (k : κ) (s : Nat) : StateTable κ :=
  { t with entries := t.entries.insert (t.slot h) (k, s) }

end StateTable

/-- The states so far, and the bytes that they take besides those that each of them takes. -/
structure Tally where
  states : Nat
  extra : Nat

namespace Tally

def bytesPerState : Nat := 32

/-- The bytes for a way out on a range of bytes. -/
def bytesPerRange : Nat := 8

/-- The bytes for a way out on no byte. -/
def bytesPerBranch : Nat := 4

def bytes (t : Tally) : Nat := bytesPerState * t.states + t.extra

def limit : Nat := 10 * 1024 * 1024

def add (t : Tally) (states extra : Nat) : Tally := ⟨t.states + states, t.extra + extra⟩

/-- Refuses what is too large. -/
def within? (t : Tally) : Option Tally := if limit < t.bytes then none else some t

/-- Counts something `n` times, as long as it is not too large. -/
def times (count : Tally → Option Tally) : Nat → Tally → Option Tally
  | 0, t => some t
  | n + 1, t =>
    match count t with
    | none => none
    | some t => times count n t

end Tally

/-- A way out on a range of bytes, to another node or to the end of the character. -/
structure Edge where
  range : Range
  next : Option Nat

/-- The nodes of the tree of some sequences behind those there are already, each after the nodes
that it leads to. Neighbouring sequences that begin with the same range share a node. `fuel` is at
least the length of a sequence. -/
def addNodes : Nat → List (List Range) → Array (List Edge) → Array (List Edge)
  | 0, _, nodes => nodes
  | fuel + 1, seqs, nodes =>
    let groups := seqs.splitBy fun a b => a.head? == b.head?
    let add (acc : List Edge × Array (List Edge)) (group : List (List Range)) :
        List Edge × Array (List Edge) :=
      match group with
      | [r] :: _ => (⟨r, none⟩ :: acc.1, acc.2)
      | (r :: _) :: _ =>
        let nodes := addNodes fuel (group.map List.tail) acc.2
        (⟨r, some (nodes.size - 1)⟩ :: acc.1, nodes)
      | _ => acc
    let (edges, nodes) := groups.foldl add ([], nodes)
    nodes.push edges.reverse

/-- A way out with the state that it leads to. -/
abbrev Transition := Range × Nat

/-- The nodes laid out, with the states that they have become. -/
structure LaidNodes where
  tally : Tally
  states : Array Nat
  table : StateTable (List Transition)

def LaidNodes.add (target : Nat) (l : LaidNodes) (node : List Edge) : LaidNodes :=
  let out : List Transition := node.map fun e =>
    (e.range, (e.next.bind fun i => l.states[i]?).getD target)
  let h := out.foldl (fun h t => mixed (mixed (mixed h t.1.1) t.1.2) t.2) mixStart
  match l.table.get? h out with
  | some s => { l with states := l.states.push s }
  | none =>
    let s := l.tally.states
    ⟨l.tally.add 1 (Tally.bytesPerRange * out.length), l.states.push s, l.table.insert h out s⟩

def layNodes (nodes : Array (List Edge)) (t : Tally) : Tally :=
  (nodes.foldl (LaidNodes.add t.states) ⟨t.add 1 0, #[], .ofSlots 10000⟩).tally

/-- Sequences read backwards share what they end with. -/
def layBackward (seqs : List (List Range)) (t : Tally) : Tally :=
  let stop := t.states + 1
  let start := t.add 2 (Tally.bytesPerBranch * seqs.length)
  let step (acc : Nat × Tally × StateTable (Nat × Range)) (r : Range) :
      Nat × Tally × StateTable (Nat × Range) :=
    let (state, t, table) := acc
    let h := mixed (mixed (mixed mixStart state) r.1) r.2
    match table.get? h (state, r) with
    | some s => (s, t, table)
    | none => (t.states, t.add 1 0, table.insert h (state, r) t.states)
  let lay (acc : Tally × StateTable (Nat × Range)) (seq : List Range) :
      Tally × StateTable (Nat × Range) :=
    let (_, t, table) := seq.foldl step (stop, acc.1, acc.2)
    (t, table)
  (seqs.foldl lay (start, .ofSlots 1000)).1

/-- Words cut where one of them ends. -/
def cutAtEnds : List (List Nat) → List (List (List Nat))
  | [] => [[]]
  | w :: ws =>
    match cutAtEnds ws with
    | [] => [[w]]
    | c :: cs => if w.isEmpty then [] :: c :: cs else (w :: c) :: cs

/-- The groups of words that lead on from a node, in the order in which they were added. Words that
stand before and after one that ends at the node are kept apart, as the earlier is to be preferred.
A word that ends where nothing has gone on before does so but once. -/
def wordGroups (ws : List (List Nat)) : List (List (List Nat)) :=
  if ws.head? = some [] then [] :: cutAtEnds (ws.dropWhile List.isEmpty) else cutAtEnds ws

/-- The node where some words go on, and the nodes behind it. `fuel` is greater than the length of
the longest word. -/
def layWords : Nat → List (List Nat) → Tally → Tally
  | 0, _, t => t
  | fuel + 1, ws, t =>
    let groups := wordGroups ws
    let led := groups.filter (!·.isEmpty)
    let layGroup (t : Tally) (group : List (List Nat)) : Tally :=
      let firsts := (group.filterMap List.head?).eraseDups
      let behind (t : Tally) (b : Nat) : Tally :=
        let rests := (group.filter fun w => w.head? = some b).map List.tail
        if rests.all List.isEmpty then t else layWords fuel rests t
      (firsts.foldl behind t).add 1
        (if firsts.length = 1 then 0 else Tally.bytesPerRange * firsts.length)
    (led.foldl layGroup t).add 1 (Tally.bytesPerBranch * (led.length + (groups.length - 1)))

/-- What is laid out, in order. -/
inductive Plan where
  | states (count extra : Nat)
  | nodes (ns : Array (List Edge))
  | backward (seqs : List (List Range))
  | words (ws : List (List Nat))
  | all (parts : List Plan)
  | copies (n : Nat) (part : Plan)

namespace Plan

mutual

def lay? : Plan → Tally → Option Tally
  | states n extra, t => (t.add n extra).within?
  | nodes ns, t => (layNodes ns t).within?
  | backward seqs, t => (layBackward seqs t).within?
  | words ws, t =>
    (layWords ((ws.map List.length).foldl max 0 + 1) ws (t.add 1 0)).within?
  | all ps, t => layAll? ps t
  | copies n p, t => Tally.times p.lay? n t

def layAll? : List Plan → Tally → Option Tally
  | [], t => some t
  | p :: ps, t =>
    match p.lay? t with
    | none => none
    | some t => layAll? ps t

end

/-- A state that leads nowhere but on. -/
def join : Plan := states 1 0

/-- A state with a number of ways on. -/
def fork (branches : Nat) : Plan := states 1 (Tally.bytesPerBranch * branches)

/-- At least one copy of a plan or the join that stands for none. -/
def exactly (n : Nat) (p : Plan) : Plan := if n = 0 then join else copies n p

/-- Branches beside each other. What binds them is laid out behind the second. -/
def beside : List Plan → Plan
  | p :: q :: ps => all (p :: q :: fork (ps.length + 2) :: join :: ps)
  | ps => all ps

def ofClass (d : Direction) (s : CharSet) : Plan :=
  let isAscii := s.ranges.all (·.2 < 0x80)
  if isAscii then all [join, states 1 (Tally.bytesPerRange * s.ranges.length)]
  else
    let seqs := s.ranges.flatMap Text.Utf8.sequences
    match d with
    | .forward => nodes (addNodes 4 seqs #[])
    | .backward => backward seqs

/-- A repetition of something with a given plan. `isFilled` says that it matches, but never the
empty text. -/
def ofRepeated (isFilled : Bool) (p : Plan) (least : Nat) (most : Option Nat) : Plan :=
  match most with
  | none =>
    if least = 0 then if isFilled then all [fork 2, p] else all [p, fork 2, fork 2, join]
    else all [copies least p, fork 2]
  | some most =>
    if least = 0 ∧ most = 1 then all [fork 2, p, join]
    else if least = most then exactly least p
    else all [exactly least p, join, copies (most - least) (all [fork 2, p])]

def ofLiteral (d : Direction) (cs : List Char) : List Nat :=
  let bytes := cs.flatMap fun c => Text.Utf8.encode c.toNat
  match d with
  | .forward => bytes
  | .backward => bytes.reverse

end Plan

def text? : Pattern → Option (List Char)
  | literal cs => some cs
  | _ => none

mutual

def plan (d : Direction) : Pattern → Plan
  | empty => .join
  | literal cs => .states (Plan.ofLiteral d cs).length 0
  | oneOf c => .ofClass d c.members
  | look _ => .join
  | repeated p least most _ => .ofRepeated p.isFilled (p.plan d) least most
  | captured p =>
    match d with
    | .forward => .all [.join, p.plan d, .join]
    | .backward => p.plan d
  | sequence ps =>
    match d with
    | .forward => .all (planAll d ps)
    | .backward => .all (planAll d ps).reverse
  | choice ps =>
    match ps.mapM text? with
    | some texts => .words (texts.map (Plan.ofLiteral d))
    | none => .beside (planAll d ps)

def planAll (d : Direction) : List Pattern → List Plan
  | [] => []
  | p :: ps => p.plan d :: planAll d ps

end

/-- The whole layout: a loop over what may stand before the match, unless the pattern begins with
the edge of the text, and the states that tell a match. -/
def wholePlan (d : Direction) (p : Pattern) : Plan :=
  let start : Plan :=
    if p.isAnchored d then .join else .all [.fork 2, .join, .states 1 Tally.bytesPerRange]
  match d with
  | .forward => .all [start, .join, p.plan d, .join, .join]
  | .backward => .all [start, p.plan d, .join]

/-- Whether the pattern may be used. -/
def isLaidOut (p : Pattern) : Bool :=
  [Direction.forward, .backward].all fun d => ((p.wholePlan d).lay? ⟨0, 0⟩).isSome

end Conform.Pattern
