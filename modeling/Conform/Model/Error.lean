import Conform.Schema.Registry
import Conform.Walk

/-!
# Errors of models
-/

namespace Conform

/-- What a model's caller can meet. An invalid value is no error but a state. -/
inductive ModelError where
  | compile (e : CompileError)
  | rule (e : RuleError)
  /-- A write of the caller's own was refused. -/
  | path (e : PathError)

def ModelError.message : ModelError → String
  | compile e => "schema compilation failed: " ++ e.message
  | rule e => "validation aborted: " ++ e.message
  | path e => "storage write failed: " ++ e.message

end Conform
