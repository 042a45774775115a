import Protograph.Cli.Run

/-! # The command line

    Reads the arguments, carries them out on the files of the machine, and
    reports failure: status 2 for arguments that make no sense, 1 for a run
    that fails.  Only warnings would be logged, and no event is one: there is
    no setting that asks for more. -/

namespace Protograph.Cli

/-- How the program is called, line by line. -/
def usageLines : List String :=
  [ "Usage: gqlproto [OPTIONS] <SCHEMA>",
    "",
    "Translate a GraphQL schema into a Protocol Buffers definition",
    "",
    "Arguments:",
    "  <SCHEMA>  GraphQL SDL file to translate ('-' reads stdin)",
    "",
    "Options:",
    "  -o, --out <OUT>                              Output file (stdout if omitted)",
    "      --config <CONFIG>                        TOML file with header options",
    "      --print-types                            Print the emitted type names instead",
    "      --package <PACKAGE>                      Proto package declaration",
    "      --java-package <JAVA_PACKAGE>            Value of the java_package option",
    "      --js-namespace <JS_NAMESPACE>            Value of the js_namespace option",
    "      --jspb-import <JSPB_IMPORT>              Import path of jspb.proto",
    "      --message-id-prefix <MESSAGE_ID_PREFIX>  Text in front of every message id",
    "  -h, --help                                   Print help",
    "  -V, --version                                Print version" ]

/-- How the program is called. -/
def usage : String := String.join (usageLines.map (· ++ "\n"))

/-- The wording of each error of a command line. -/
def ArgumentError.message : ArgumentError → String
  | .schemaMissing => "the schema is missing"
  | .unknown argument => "unexpected argument '" ++ argument ++ "'"
  | .badValue argument => "a value is required for '" ++ argument ++ "'"
  | .givenTwice argument => "'" ++ argument ++ "' cannot be used multiple times"
  | .needlessValue argument => "'" ++ argument ++ "' takes no value"
  | .helpAsked => usage
  | .versionAsked => "gqlproto"

/-- The cause of a failure of the machine's file system. -/
def fileError : IO.Error → FileError
  | .noFileOrDirectory .. => .notFound
  | .noSuchThing .. => .notFound
  | .alreadyExists .. => .alreadyExists
  | .inappropriateType _ code _ => if code == 20 then .notDirectory else .isDirectory
  | .invalidArgument .. => .nulInPath
  | .permissionDenied .. => .accessDenied
  | .resourceExhausted .. => .noSpace
  | .resourceVanished .. => .brokenPipe
  | _ => .isDirectory

/-- Carry out an action on files and catch its failure. -/
def attempt {α : Type} (action : IO α) : IO (Except FileError α) := do
  match ← action.toBaseIO with
  | .ok a => return .ok a
  | .error e => return .error (fileError e)

/-- The files and the input stream of the machine. -/
def machineSource : Source IO where
  readFile p := do return (← attempt (IO.FS.readBinFile p.text)).bind FileTree.decode
  readInput := do return (← attempt (← IO.getStdin).readBinToEnd).bind FileTree.decode
  exists? p := do return (← (IO.FS.realPath p.text).toBaseIO).isOk

/-- The files and the output stream of the machine. -/
def machineSink : Sink IO where
  makeDirectories p := attempt (IO.FS.createDirAll p.text)
  writeFile p text := attempt (IO.FS.writeFile p.text text)
  writeOutput text := attempt do
    let output ← IO.getStdout
    output.putStr text
    output.flush

end Protograph.Cli

open Protograph Protograph.Cli

/-- Carry out a command line. -/
def main (arguments : List String) : IO UInt32 := do
  match Arguments.parse (← IO.getEnv "GQLPROTO_CONFIG") arguments with
  | .error .helpAsked =>
      IO.print usage
      return 0
  | .error .versionAsked =>
      IO.println ArgumentError.versionAsked.message
      return 0
  | .error e =>
      IO.eprintln ("error: " ++ e.message ++ "\n\n" ++ usage)
      return 2
  | .ok arguments =>
      let home : Home :=
        { configHome := (← IO.getEnv "XDG_CONFIG_HOME").map Protograph.Path.mk
          home := (← IO.getEnv "HOME").map Protograph.Path.mk }
      match (← run machineSource machineSink home arguments).result with
      | .ok _ => return 0
      | .error e =>
          IO.eprint e.report
          return 1
