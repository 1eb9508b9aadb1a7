/-!
# Arguments

The arguments of a validation: settings, each with a value behind it or behind an equals sign, and
switches. Each may stand once. A value is checked only when the next setting, switch or plea for
help is met, or at the end, so an argument that is not known is complained of first.
-/

namespace Conform.CommandLine

inductive Setting where
  | schema
  | data
  | path
  | config
  deriving DecidableEq

inductive Switch where
  | coerceTypes
  | removeAdditional
  | onlyDirty
  | json
  deriving DecidableEq

inductive UsageError where
  | unknownArgument (text : String)
  /-- A setting without a value, or with an empty one where a file is meant. -/
  | missingValue (setting : Setting)
  | repeated (name : String)
  /-- A value for what takes none. -/
  | unwantedValue (name : String)
  | missingSetting (setting : Setting)
  /-- Help was asked for, which ends the reading. -/
  | help

/-- The arguments of one call. -/
structure Arguments where
  schema : String
  data : String
  path : String
  config : Option String
  coerceTypes : Bool
  removeAdditional : Bool
  onlyDirty : Bool
  json : Bool

namespace Setting

def name : Setting → String
  | schema => "schema"
  | data => "data"
  | path => "path"
  | config => "config"

def ofName? (name : String) : Option Setting :=
  [schema, data, path, config].find? (·.name = name)

end Setting

namespace Switch

def name : Switch → String
  | coerceTypes => "coerce-types"
  | removeAdditional => "remove-additional"
  | onlyDirty => "only-dirty"
  | json => "json"

def ofName? (name : String) : Option Switch :=
  [coerceTypes, removeAdditional, onlyDirty, json].find? (·.name = name)

end Switch

namespace UsageError

def message : UsageError → String
  | unknownArgument text => "unexpected argument '" ++ text ++ "'"
  | missingValue s => "a value is required for '--" ++ s.name ++ "'"
  | repeated name => "'--" ++ name ++ "' cannot be used multiple times"
  | unwantedValue name => "unexpected value for '--" ++ name ++ "'"
  | missingSetting s => "'--" ++ s.name ++ "' is required"
  | help =>
    "usage: validate --schema FILE --data FILE [--path PATH] [--config FILE]
  [--coerce-types] [--remove-additional] [--only-dirty] [--json]"

end UsageError

/-- What one argument is by its looks. -/
inductive Word where
  /-- A value, if one is awaited. -/
  | plain (text : String)
  | setting (s : Setting) (value : Option String)
  | switch (s : Switch)
  | help
  /-- A switch with a value. -/
  | overfull (name : String)
  | unknown (text : String)
  /-- Two dashes: nothing behind them is a setting or switch. -/
  | divider

namespace Word

/-- A word after its two dashes: its name, and what stands behind the first equals sign. -/
def cut (cs : List Char) : String × Option String :=
  let name := cs.takeWhile (· ≠ '=')
  match cs.drop name.length with
  | [] => (String.ofList name, none)
  | _ :: value => (String.ofList name, some (String.ofList value))

def ofLong (cs : List Char) : Word :=
  let (name, value) := cut cs
  match Setting.ofName? name, Switch.ofName? name, value with
  | some s, _, value => setting s value
  | none, some s, none => switch s
  | none, some s, some _ => overfull s.name
  | none, none, value =>
    if name ≠ "help" then unknown (String.ofList ('-' :: '-' :: cs))
    else if value.isSome then overfull name
    else help

def ofText (text : String) : Word :=
  match text.toList with
  | ['-', '-'] => divider
  | '-' :: '-' :: cs => ofLong cs
  | '-' :: 'h' :: _ => help
  | '-' :: _ :: _ => unknown text
  | _ => plain text

end Word

/-- What was given so far, in reverse. -/
structure Given where
  settings : List (Setting × String) := []
  switches : List Switch := []

namespace Given

def addSetting (g : Given) (s : Setting) (value : String) : Except UsageError Given :=
  if (g.settings.lookup s).isSome then .error (.repeated s.name)
  else if value = "" ∧ s ≠ .path then .error (.missingValue s)
  else .ok { g with settings := (s, value) :: g.settings }

def addSwitch (g : Given) (s : Switch) : Except UsageError Given :=
  if g.switches.contains s then .error (.repeated s.name)
  else .ok { g with switches := s :: g.switches }

/-- A setting whose value may still come. -/
structure Awaited where
  setting : Setting
  value : Option String := none

/-- Adds the setting that is still open, if there is one. -/
def close (g : Given) : Option Awaited → Except UsageError Given
  | none => .ok g
  | some ⟨s, none⟩ => .error (.missingValue s)
  | some ⟨s, some value⟩ => g.addSetting s value

def read (g : Given) (a : Option Awaited) : List Word → Except UsageError Given
  | [] => g.close a
  | .plain text :: words =>
    match a with
    | some ⟨s, none⟩ => g.read (some ⟨s, some text⟩) words
    | _ => .error (.unknownArgument text)
  | .setting s none :: words => do (← g.close a).read (some ⟨s, none⟩) words
  | .setting s (some value) :: words => do (← (← g.close a).addSetting s value).read none words
  | .switch s :: words => do (← (← g.close a).addSwitch s).read none words
  | .help :: _ => do
    let _ ← g.close a
    .error .help
  | .overfull name :: _ => .error (.unwantedValue name)
  | .unknown text :: _ => .error (.unknownArgument text)
  | [.divider] => g.close a
  | .divider :: _ :: _ => .error (.unknownArgument "--")

def required (g : Given) (s : Setting) : Except UsageError String :=
  match g.settings.lookup s with
  | some value => .ok value
  | none => .error (.missingSetting s)

end Given

def Arguments.read (args : List String) : Except UsageError Arguments := do
  let g ← Given.read {} none (args.map Word.ofText)
  let schema ← g.required .schema
  let data ← g.required .data
  .ok
    { schema
      data
      path := (g.settings.lookup .path).getD "/"
      config := g.settings.lookup .config
      coerceTypes := g.switches.contains .coerceTypes
      removeAdditional := g.switches.contains .removeAdditional
      onlyDirty := g.switches.contains .onlyDirty
      json := g.switches.contains .json }

end Conform.CommandLine
