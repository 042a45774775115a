import Protograph.Files.Tree
import Protograph.Schema.Error
import Protograph.Proto.Error

/-! # Run errors — what went wrong, and why

    Each error has a context, what was being done, and all but one have a
    cause.  A faulty configuration is not looked into. -/

namespace Protograph.Cli

/-- What went wrong in a run. -/
inductive RunError where
  | readInput (cause : FileError)
  | readSchema (path : Path) (cause : FileError)
  | loadSchema (path : Path) (cause : SchemaError)
  | readConfig (path : Path) (cause : FileError)
  | parseConfig (path : Path)
  | walk (cause : TranslateError)
  | translate (path : Path) (cause : TranslateError)
  | makeDirectory (path : Path) (cause : FileError)
  | writeFile (path : Path) (cause : FileError)
  | writeOutput (cause : FileError)
  deriving DecidableEq, Repr

namespace RunError

/-- What was being done. -/
def context : RunError → String
  | .readInput _ => "Failed to read schema from stdin"
  | .readSchema path _ => "Failed to read schema file: " ++ path.quoted
  | .loadSchema path _ => "Failed to load schema: " ++ path.quoted
  | .readConfig path _ => "Failed to read config file: " ++ path.quoted
  | .parseConfig path => "Failed to parse config file: " ++ path.quoted
  | .walk _ => "Failed to walk schema"
  | .translate path _ => "Failed to translate schema: " ++ path.quoted
  | .makeDirectory path _ => "Failed to create output directory: " ++ path.quoted
  | .writeFile path _ => "Failed to write output file: " ++ path.quoted
  | .writeOutput _ => "Failed to write output to stdout"

/-- Why it failed. -/
def cause? : RunError → Option String
  | .readInput cause => some cause.message
  | .readSchema _ cause => some cause.message
  | .loadSchema _ cause => some cause.message
  | .readConfig _ cause => some cause.message
  | .parseConfig _ => none
  | .walk cause => some cause.message
  | .translate _ cause => some cause.message
  | .makeDirectory _ cause => some cause.message
  | .writeFile _ cause => some cause.message
  | .writeOutput cause => some cause.message

/-- The report of an error. -/
def report (e : RunError) : String :=
  "Error: " ++ e.context ++ "\n" ++
    match e.cause? with
    | some cause => "\nCaused by:\n    " ++ cause ++ "\n"
    | none => ""

end RunError

end Protograph.Cli
