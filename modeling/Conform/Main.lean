import Conform.CommandLine

/-!
# The program

`validate` prints the report of a call: the exit code is 0 for valid data, 1 for invalid data and 2
when there is no report.
-/

namespace Conform.CommandLine

/-- The texts of the files that a call names. A file that cannot be read has none. -/
def readFiles (names : List String) : IO (List (String × String)) := do
  let mut files := []
  for name in names do
    try
      files := (name, ← IO.FS.readFile name) :: files
    catch _ => pure ()
  return files

def validate (args : List String) : IO UInt32 := do
  let names := match Arguments.read args with
    | .ok a => a.schema :: a.data :: a.config.toList
    | .error _ => []
  let files ← readFiles names
  match run (fun name => files.lookup name) args with
  | .ok a =>
    IO.print a.output
    return a.exitCode.toUInt32
  | .error e =>
    IO.eprintln e.message
    return match e with
      | .usage .help => 0
      | _ => 2

end Conform.CommandLine

def main : List String → IO UInt32
  | "validate" :: args => Conform.CommandLine.validate args
  | _ => do
    IO.eprintln Conform.CommandLine.UsageError.help.message
    return 2
