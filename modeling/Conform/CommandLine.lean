import Conform.CommandLine.Arguments
import Conform.Document
import Conform.Model.Error
import Conform.Report
import Conform.Schema.Compile

/-!
# The command line

Validates a document against a schema and reports what was found. The schema is read first, then
the data, then the configuration, and the first that fails ends the call.
-/

namespace Conform.CommandLine

/-- What keeps a call from its report. -/
inductive Failure where
  | usage (e : UsageError)
  | unreadable (file : String)
  | malformed (file : String) (format : Format)
  | uncompiled (file : String) (e : CompileError)
  | aborted (path : String) (e : RuleError)

/-- An error and what it was caused by, each with its own text. -/
def chain (texts : List String) : String := ": ".intercalate texts

namespace Failure

/-- The texts of a rule's error and of what caused it. -/
def ruleTexts : RuleError → List String
  | .storage cause => [(RuleError.storage cause).message, cause.message]
  | e => [e.message]

def message : Failure → String
  | usage e => e.message
  | unreadable file => "failed to read " ++ file
  | malformed file format => "invalid " ++ format.name ++ " in " ++ file
  | uncompiled file e =>
    chain ["failed to compile schema " ++ file, (ModelError.compile e).message, e.message]
  | aborted path e =>
    chain (("validation of " ++ path ++ " aborted") :: (ModelError.rule e).message :: ruleTexts e)

end Failure

/-- How a call that reports ends. -/
structure Answer where
  valid : Bool
  output : String

namespace Answer

def exitCode (a : Answer) : Nat := if a.valid then 0 else 1

end Answer

/-- A document of the kind that `decode` reads. -/
def load {α : Type} (files : String → Option String) (decode : Format → String → Option α)
    (file : String) : Except Failure α :=
  match files file with
  | none => .error (.unreadable file)
  | some text =>
    match decode (Format.ofPath file) text with
    | some a => .ok a
    | none => .error (.malformed file (Format.ofPath file))

namespace Arguments

def loadConfig (files : String → Option String) (a : Arguments) : Except Failure ModelConfig :=
  match a.config with
  | none => .ok {}
  | some file => load files ModelConfig.read? file

/-- The options of the run: those of the configuration and those of the call. -/
def options (a : Arguments) (c : ModelConfig) : ValidateOptions :=
  { c.validateOptions with
    onlyDirtyRefs := c.onlyDirtyRefs || a.onlyDirty
    coerceTypes := c.coerceTypes || a.coerceTypes
    removeAdditional := c.removeAdditional || a.removeAdditional }

def report (files : String → Option String) (a : Arguments) : Except Failure Report := do
  let schema ← load files Format.readValue? a.schema
  let data ← load files Format.readValue? a.data
  let config ← a.loadConfig files
  match compile Registry.standard schema with
  | .error e => .error (.uncompiled a.schema e)
  | .ok rule =>
    let target := Route.parse a.path
    match (Model.ofRule rule (some data) config).validateNow target (a.options config) with
    | (_, .error e) => .error (.aborted target.text e)
    | (m, .ok valid) => .ok (Report.collect m target valid)

def answer (files : String → Option String) (a : Arguments) : Except Failure Answer := do
  let r ← a.report files
  .ok ⟨r.valid, if a.json then r.json else r.text⟩

end Arguments

/-- Answers a call. `files` gives the text of a file that can be read. -/
def run (files : String → Option String) (args : List String) : Except Failure Answer :=
  match Arguments.read args with
  | .error e => .error (.usage e)
  | .ok a => a.answer files

end Conform.CommandLine
