import Protograph.Files.Path
import Protograph.Proto.Options

/-! # Arguments — what a command line asks for

    Options may stand anywhere, their value attached or in the next argument;
    one argument that is no option names the schema.  Behind `--` nothing is an
    option.

    A value in an argument of its own is settled late: only when the next
    known option or the schema is met, or at the end, is it checked that there
    is a value, that the option was not given before, and that a path is not
    empty.  An unknown argument in between is reported first. -/

namespace Protograph.Cli

/-- Options that take a value. -/
inductive ValueOption where
  | out
  | config
  | package
  | javaPackage
  | jsNamespace
  | jspbImport
  | messageIdPrefix
  deriving DecidableEq, Repr

namespace ValueOption

/-- The long name of an option. -/
def long : ValueOption → String
  | .out => "out"
  | .config => "config"
  | .package => "package"
  | .javaPackage => "java-package"
  | .jsNamespace => "js-namespace"
  | .jspbImport => "jspb-import"
  | .messageIdPrefix => "message-id-prefix"

/-- All options that take a value. -/
def all : List ValueOption :=
  [.out, .config, .package, .javaPackage, .jsNamespace, .jspbImport, .messageIdPrefix]

/-- Options whose value is a path, which can not be empty. -/
def isPath : ValueOption → Bool
  | .out => true
  | .config => true
  | _ => false

end ValueOption

/-- Options without a value. -/
inductive Flag where
  | printTypes
  | help
  | version
  deriving DecidableEq, Repr

/-- The long name of a flag. -/
def Flag.long : Flag → String
  | .printTypes => "print-types"
  | .help => "help"
  | .version => "version"

/-- All flags. -/
def Flag.all : List Flag := [.printTypes, .help, .version]

/-- Why a command line is not carried out. -/
inductive ArgumentError where
  | schemaMissing
  | unknown (argument : String)
  /-- An option without its value, or an empty value in place of a path. -/
  | badValue (argument : String)
  /-- An option that is given twice. -/
  | givenTwice (argument : String)
  /-- A flag with a value. -/
  | needlessValue (argument : String)
  | helpAsked
  | versionAsked
  deriving DecidableEq, Repr

/-- What a command line asks for. -/
structure Arguments where
  schema : Path
  out : Option Path := none
  config : Option Path := none
  printTypes : Bool := false
  overrides : Overrides := {}
  deriving DecidableEq, Repr

/-- Something that is still to be settled. -/
inductive Pending where
  | schema (value : String)
  | option (option : ValueOption) (value : Option String)
  deriving DecidableEq, Repr

/-- A command line that has been read in part. -/
structure Progress where
  schema : Option String := none
  values : List (ValueOption × String) := []
  printTypes : Bool := false
  pending : Option Pending := none
  /-- The schema has been met, settled or not. -/
  schemaMet : Bool := false
  /-- Nothing from here on is an option. -/
  plain : Bool := false
  deriving DecidableEq, Repr

namespace Progress

/-- Take the value of an option. -/
def take (s : Progress) (o : ValueOption) (value : String) : Except ArgumentError Progress :=
  if (s.values.lookup o).isSome then .error (.givenTwice o.long)
  else if o.isPath && value == "" then .error (.badValue o.long)
  else .ok { s with values := (o, value) :: s.values }

/-- Settle what is pending. -/
def settle (s : Progress) : Except ArgumentError Progress :=
  match s.pending with
  | none => .ok s
  | some (.schema value) =>
      if value == "" then .error (.badValue "schema")
      else .ok { s with schema := some value, pending := none }
  | some (.option o none) => .error (.badValue o.long)
  | some (.option o (some value)) => take { s with pending := none } o value

/-- Meet an option, with or without a value attached. -/
def meetOption (s : Progress) (o : ValueOption) (attached : Option String) :
    Except ArgumentError Progress := do
  let s ← s.settle
  match attached with
  | some value => s.take o value
  | none => .ok { s with pending := some (.option o none) }

/-- Meet a flag. -/
def meetFlag (s : Progress) (f : Flag) : Except ArgumentError Progress := do
  let s ← s.settle
  match f with
  | .help => .error .helpAsked
  | .version => .error .versionAsked
  | .printTypes =>
      if s.printTypes then .error (.givenTwice f.long) else .ok { s with printTypes := true }

/-- Split at the first equals sign. -/
def splitAtEquals (cs : List Char) : String × Option String :=
  let name := String.ofList (cs.takeWhile (· != '='))
  match cs.dropWhile (· != '=') with
  | [] => (name, none)
  | _ :: value => (name, some (String.ofList value))

/-- Meet a long option: what stands behind the two dashes. -/
def meetLong (s : Progress) (cs : List Char) : Except ArgumentError Progress :=
  let (name, attached) := splitAtEquals cs
  match ValueOption.all.find? (·.long == name), Flag.all.find? (·.long == name) with
  | some o, _ => s.meetOption o attached
  | none, some f =>
      match attached with
      | some _ => .error (.needlessValue f.long)
      | none => s.meetFlag f
  | none, none => .error (.unknown ("--" ++ name))

/-- Meet short options: what stands behind the dash.  The value of an option
    may follow its letter, with or without an equals sign. -/
def meetShort (s : Progress) : List Char → Except ArgumentError Progress
  | [] => .ok s
  | 'h' :: _ => s.meetFlag .help
  | 'V' :: _ => s.meetFlag .version
  | ['o'] => s.meetOption .out none
  | 'o' :: '=' :: value => s.meetOption .out (some (String.ofList value))
  | 'o' :: value => s.meetOption .out (some (String.ofList value))
  | c :: _ => .error (.unknown (String.ofList ['-', c]))

/-- Meet an argument that is no option. -/
def meetPlain (s : Progress) (argument : String) : Except ArgumentError Progress :=
  if s.schemaMet then .error (.unknown argument)
  else do
    let s ← s.settle
    .ok { s with pending := some (.schema argument), schemaMet := true }

/-- Meet an argument. -/
def meet (s : Progress) (argument : String) : Except ArgumentError Progress :=
  if s.plain then s.meetPlain argument
  else
    match argument.toList with
    | ['-', '-'] => .ok { s with plain := true }
    | '-' :: '-' :: cs => s.meetLong cs
    | '-' :: c :: cs => s.meetShort (c :: cs)
    | _ =>
        match s.pending with
        | some (.option o none) => .ok { s with pending := some (.option o (some argument)) }
        | _ => s.meetPlain argument

end Progress

/-- What a command line asks for.  The path of the configuration may also come
    from the environment; the command line goes first. -/
def Arguments.parse (configVariable : Option String) (arguments : List String) :
    Except ArgumentError Arguments := do
  let s ← arguments.foldlM Progress.meet {}
  let s ← s.settle
  let config ←
    match s.values.lookup .config, configVariable with
    | some value, _ => .ok (some value)
    | none, some "" => .error (.badValue ValueOption.config.long)
    | none, value? => .ok value?
  match s.schema with
  | none => .error .schemaMissing
  | some schema =>
      return {
        schema := ⟨schema⟩
        out := (s.values.lookup .out).map Path.mk
        config := config.map Path.mk
        printTypes := s.printTypes
        overrides :=
          { package := s.values.lookup .package
            javaPackage := s.values.lookup .javaPackage
            jsNamespace := s.values.lookup .jsNamespace
            jspbImport := s.values.lookup .jspbImport
            messageIdPrefix := s.values.lookup .messageIdPrefix } }

end Protograph.Cli
