import Conform.Value

/-!
# Writing JSON

Two layouts of one grammar: without any space, and indented by two spaces a level with an empty
container kept on its line. Text outside ASCII is written as it is.
-/

namespace Conform.Json

def hexDigit (n : Nat) : Char := "0123456789abcdef".toList.getD n '0'

/-- One character inside quotes. Control characters without a short form are written by number. -/
def escape (c : Char) : List Char :=
  if c = '"' then ['\\', '"']
  else if c = '\\' then ['\\', '\\']
  else if c = '\n' then ['\\', 'n']
  else if c = '\r' then ['\\', 'r']
  else if c = '\t' then ['\\', 't']
  else if c.toNat = 8 then ['\\', 'b']
  else if c.toNat = 12 then ['\\', 'f']
  else if c.toNat < 32 then ['\\', 'u', '0', '0', hexDigit (c.toNat / 16), hexDigit (c.toNat % 16)]
  else [c]

def quoted (s : String) : String :=
  String.ofList ('"' :: s.toList.flatMap escape ++ ['"'])

/-- The pieces with `separator` between any two. -/
def joined (separator : String) : List String → String
  | [] => ""
  | [s] => s
  | s :: t :: rest => s ++ separator ++ joined separator (t :: rest)

mutual

def compact : Value → String
  | .null => "null"
  | .bool true => "true"
  | .bool false => "false"
  | .number n => n.text
  | .string s => quoted s
  | .array items => "[" ++ joined "," (compactItems items) ++ "]"
  | .object fields => "\x7b" ++ joined "," (compactFields fields) ++ "\x7d"

def compactItems : List Value → List String
  | [] => []
  | v :: vs => compact v :: compactItems vs

def compactFields : List (String × Value) → List String
  | [] => []
  | (k, v) :: d => (quoted k ++ ":" ++ compact v) :: compactFields d

end

/-- A line break and the indentation of a level. -/
def newline (level : Nat) : String := String.ofList ('\n' :: List.replicate (2 * level) ' ')

mutual

def pretty (level : Nat) : Value → String
  | .null => "null"
  | .bool true => "true"
  | .bool false => "false"
  | .number n => n.text
  | .string s => quoted s
  | .array [] => "[]"
  | .array (v :: vs) =>
    "[" ++ newline (level + 1)
      ++ joined ("," ++ newline (level + 1)) (pretty (level + 1) v :: prettyItems (level + 1) vs)
      ++ newline level ++ "]"
  | .object [] => "\x7b\x7d"
  | .object ((k, v) :: d) =>
    "\x7b" ++ newline (level + 1)
      ++ joined ("," ++ newline (level + 1))
        ((quoted k ++ ": " ++ pretty (level + 1) v) :: prettyFields (level + 1) d)
      ++ newline level ++ "\x7d"

def prettyItems (level : Nat) : List Value → List String
  | [] => []
  | v :: vs => pretty level v :: prettyItems level vs

def prettyFields (level : Nat) : List (String × Value) → List String
  | [] => []
  | (k, v) :: d => (quoted k ++ ": " ++ pretty level v) :: prettyFields level d

end

end Conform.Json
