import Conform.Yaml.Plain
import Conform.Yaml.Place

/-!
# Anchors, tags and directives

The labels that may stand before a value and the lines that may stand before a document. A tag is
a handle and a suffix; what the handle stands for is said by directives.
-/

namespace Conform.Yaml

/-- Letters, digits, hyphens and low lines. -/
def isNameChar (c : Char) : Bool := c.isAlphanum || c = '_' || c = '-'

/-- The name behind the mark of an anchor or alias. -/
def readAnchor? (a : At) : Option (String × At) :=
  let name := a.rest.takeWhile isNameChar
  let stop := a.skip name.length
  let mayFollow := match stop.rest with
    | [] => true
    | c :: _ => isBlank c || "?:,]%@".toList.contains c || c = closeBrace || c.toNat = 0x60
  if name.isEmpty ∨ !mayFollow then none else some (String.ofList name, stop)

/-- A tag as it is written. -/
structure TagText where
  handle : String
  suffix : String

def isTagChar (verbatim : Bool) (c : Char) : Bool :=
  isNameChar c || ";/?:@&=+$.%!~*'()".toList.contains c
    || (verbatim && (c = ',' || c = '[' || c = ']'))

/-- How many bytes follow the first one of a character. -/
def trailingBytes? (byte : Nat) : Option Nat :=
  if byte < 0x80 then some 0
  else if byte / 32 = 6 then some 1
  else if byte / 16 = 14 then some 2
  else if byte / 8 = 30 then some 3
  else none

/-- Checks the rest of a tag, in which characters may be written as bytes in hexadecimal, and gives
its characters, each byte for itself. `due` is the number of bytes that a character still needs. -/
def unescapeTag? (due : Nat) : Chars → Option Chars
  | [] => if due = 0 then some [] else none
  | '%' :: c :: d :: cs =>
    match Plain.digits? 16 [c, d] with
    | none => none
    | some byte =>
      let due' := if due = 0 then trailingBytes? byte
        else if byte / 64 = 2 then some (due - 1) else none
      match due' with
      | none => none
      | some due => (unescapeTag? due cs).map (Char.ofNat byte :: ·)
  | c :: cs => if c = '%' ∨ due ≠ 0 then none else (unescapeTag? 0 cs).map (c :: ·)

/-- The tag characters at a place. -/
def readTagChars? (verbatim : Bool) (a : At) : Option (Chars × At) :=
  let cs := a.rest.takeWhile (isTagChar verbatim)
  (unescapeTag? 0 cs).map fun tag => (tag, a.skip cs.length)

/-- An exclamation mark, a name and perhaps a second mark. -/
def readHandle? (a : At) : Option (Chars × At) :=
  match a.rest with
  | '!' :: cs =>
    let name := cs.takeWhile isNameChar
    let a := a.skip (name.length + 1)
    if a.rest.head? = some '!' then some ('!' :: name ++ ['!'], a.skip 1)
    else some ('!' :: name, a)
  | _ => none

/-- A whole tag. The exclamation mark alone is a tag without a handle. -/
def readTagText? (a : At) : Option (TagText × At) :=
  if (a.rest.drop 1).head? = some '<' then
    match readTagChars? true (a.skip 2) with
    | some (c :: cs, stop) =>
      if stop.rest.head? = some '>' then some (⟨"", String.ofList (c :: cs)⟩, stop.skip 1) else none
    | _ => none
  else
    match readHandle? a with
    | none => none
    | some (handle, behind) =>
      match readTagChars? false behind with
      | none => none
      | some (cs, stop) =>
        if 1 < handle.length ∧ handle.getLast? = some '!' then
          if cs.isEmpty then none
          else some (⟨String.ofList handle, String.ofList cs⟩, stop)
        else
          let suffix := handle.drop 1 ++ cs
          if suffix.isEmpty then some (⟨"", "!"⟩, stop)
          else some (⟨"!", String.ofList suffix⟩, stop)

/-- A tag, behind which a blank stands, or a comma where values are set apart by commas. -/
def readTag? (inFlow : Bool) (a : At) : Option (TagText × At) :=
  match readTagText? a with
  | none => none
  | some (tag, stop) =>
    if atBlank stop.rest || (inFlow && stop.rest.head? = some ',') then some (tag, stop) else none

inductive Directive where
  | version (major minor : Nat)
  | tag (handle start : String)

/-- A number of at most nine digits. -/
def readVersionPart? (a : At) : Option (Nat × At) :=
  let ds := a.rest.takeWhile Char.isDigit
  if 9 < ds.length then none
  else (Plain.digits? 10 ds).map fun n => (n, a.skip ds.length)

def readVersion? (a : At) : Option (Directive × At) :=
  match readVersionPart? (a.skipWhile isSpace) with
  | none => none
  | some (major, a) =>
    if a.rest.head? ≠ some '.' then none
    else (readVersionPart? (a.skip 1)).map fun p => (.version major p.1, p.2)

/-- A handle is one exclamation mark or has one at both ends. -/
def readTagDirective? (a : At) : Option (Directive × At) :=
  match readHandle? (a.skipWhile isSpace) with
  | none => none
  | some (handle, a) =>
    if (handle ≠ ['!'] ∧ handle.getLast? ≠ some '!') ∨ !a.rest.head?.any isSpace then none
    else
      match readTagChars? true (a.skipWhile isSpace) with
      | some (c :: cs, stop) =>
        if atBlank stop.rest then
          some (.tag (String.ofList handle) (String.ofList (c :: cs)), stop)
        else none
      | _ => none

/-- A directive behind its percent sign, with its whole line. -/
def readDirective? (a : At) : Option (Directive × At) :=
  let name := a.rest.takeWhile isNameChar
  let behind := a.skip name.length
  if !atBlank behind.rest then none
  else
    let found :=
      if String.ofList name = "YAML" then readVersion? behind
      else if String.ofList name = "TAG" then readTagDirective? behind
      else none
    match found with
    | none => none
    | some (d, stop) => stop.lineEnd?.map fun a => (d, a)

end Conform.Yaml
