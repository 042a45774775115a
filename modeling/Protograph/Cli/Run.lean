import Protograph.Cli.Arguments
import Protograph.Cli.Error
import Protograph.Sdl.Load
import Protograph.Proto.Document
import Protograph.Proto.Config

/-! # Runs — from a command line to its output

    A run first produces its text and then delivers it.  Producing reads the
    schema, loads it, then reads the options, and writes nothing; delivering
    writes one file or to the output stream.

    Where the schema, the configuration and the output are is left to a
    `Source` and a `Sink`, so that a run can be carried out on the files of a
    machine and on a `FileTree` alike.

    Arguments and paths are texts.  The user's directories are those that the
    environment names; no other record of the users is asked for them. -/

namespace Protograph.Cli

/-- Where a run reads from. -/
structure Source (m : Type → Type) where
  /-- The text of a file. -/
  readFile : Path → m (Except FileError String)
  /-- The text of the input stream. -/
  readInput : m (Except FileError String)
  /-- Something is at a path. -/
  exists? : Path → m Bool

/-- Where a run writes to. -/
structure Sink (m : Type → Type) where
  /-- Make a directory and those it lies in. -/
  makeDirectories : Path → m (Except FileError Unit)
  /-- Write a file whole. -/
  writeFile : Path → String → m (Except FileError Unit)
  /-- Write to the output stream. -/
  writeOutput : String → m (Except FileError Unit)

/-- Directories of the user, as the environment gives them. -/
structure Home where
  configHome : Option Path := none
  home : Option Path := none

/-- Where the configuration is if the command line does not say: in the
    configuration directory if that is an absolute path, else below the home
    directory. -/
def Home.configFile? (h : Home) : Option Path :=
  let directory? : Option Path :=
    match h.configHome.filter Path.isAbsolute with
    | some directory => some directory
    | none => (h.home.filter fun p => p.text != "").map fun p => p.join ⟨".config"⟩
  directory?.map fun directory => (directory.join ⟨"gqlproto"⟩).join ⟨"config.toml"⟩

section Produce

variable {m : Type → Type} [Monad m] {α β : Type}

/-- Go on with a result; an error ends the run and keeps its events. -/
def andThen (first : m (Traced RunError α)) (next : α → m (Traced RunError β)) :
    m (Traced RunError β) := do
  let t ← first
  match t.result with
  | .error e => return ⟨t.events, .error e⟩
  | .ok a =>
      let u ← next a
      return ⟨t.events ++ u.events, u.result⟩

/-- The text of the schema. -/
def readSchema (source : Source m) (path : Path) : m (Traced RunError String) :=
  if path.isName "-" then do
    let read ← source.readInput
    return .ofExcept (read.mapError .readInput)
  else do
    let read ← source.readFile path
    return .ofExcept (read.mapError (.readSchema path))

/-- The options of a configuration file. -/
def readOptions (source : Source m) (path : Path) : m (Traced RunError Options) := do
  match ← source.readFile path with
  | .error e => return .ofExcept (.error (.readConfig path e))
  | .ok text =>
      match Options.ofToml text with
      | .ok options => return ⟨[.configLoaded path.quoted], .ok options⟩
      | .error _ => return .ofExcept (.error (.parseConfig path))

/-- The options before the overrides: of the configuration that is asked for,
    else of the one in its usual place, if there is one. -/
def loadOptions (source : Source m) (home : Home) (asked : Option Path) :
    m (Traced RunError Options) := do
  match asked, home.configFile? with
  | some path, _ => readOptions source path
  | none, some path =>
      if ← source.exists? path then readOptions source path else return pure {}
  | none, none => return ⟨[.configHomeMissing], .ok {}⟩

/-- The text that a schema yields: the emitted names, a line each, or the
    document. -/
def Arguments.textFor (arguments : Arguments) (g : Graph) (options : Options) :
    Traced RunError String :=
  if arguments.printTypes then do
    let ids ← g.walk.mapError .walk
    return String.join ((g.namesOf ids).map (· ++ "\n"))
  else (g.translate (arguments.overrides.apply options)).mapError (.translate arguments.schema)

/-- The text that a command line asks for. -/
def produce (source : Source m) (home : Home) (arguments : Arguments) :
    m (Traced RunError String) :=
  andThen (readSchema source arguments.schema) fun sdl =>
    andThen (pure ((Graph.ofSdl sdl).mapError (.loadSchema arguments.schema))) fun g =>
      andThen (loadOptions source home arguments.config) fun options =>
        pure (arguments.textFor g options)

/-- Deliver a text to the file asked for, or else to the output stream. -/
def deliver (sink : Sink m) (out : Option Path) (text : String) : m (Traced RunError Unit) :=
  match out with
  | none => do
      let written ← sink.writeOutput text
      return .ofExcept (written.mapError .writeOutput)
  | some path =>
      let makeParent : m (Traced RunError Unit) :=
        match path.parent?.filter fun p => p.text != "" with
        | some directory => do
            let made ← sink.makeDirectories directory
            return .ofExcept (made.mapError (.makeDirectory directory))
        | none => return pure ()
      andThen makeParent fun _ => do
        match ← sink.writeFile path text with
        | .ok () => return .report (.outputWritten text.utf8ByteSize path.quoted)
        | .error e => return .ofExcept (.error (.writeFile path e))

/-- Produce a text and deliver it. -/
def run (source : Source m) (sink : Sink m) (home : Home) (arguments : Arguments) :
    m (Traced RunError String) :=
  andThen (produce source home arguments) fun text =>
    andThen (deliver sink arguments.out text) fun _ => pure (pure text)

end Produce

/-! ## Runs on a file tree -/

/-- Files and streams, as data. -/
structure World where
  files : FileTree
  /-- What the input stream holds. -/
  input : ByteArray := .empty
  /-- What has been written to the output stream. -/
  output : String := ""

/-- Read from a world, and leave it as it is. -/
def World.source : Source (StateM World) where
  readFile p := fun w => (w.files.readText p, w)
  readInput := fun w => (FileTree.decode w.input, w)
  exists? p := fun w => (w.files.exists? p, w)

/-- Write to a world.  Its output stream takes whatever is written. -/
def World.sink : Sink (StateM World) where
  makeDirectories p := fun w =>
    let (files, r) := w.files.makeDirectories p
    (r, { w with files })
  writeFile p text := fun w =>
    match w.files.write p text.toUTF8 with
    | .ok files => (.ok (), { w with files })
    | .error e => (.error e, w)
  writeOutput text := fun w => (.ok (), { w with output := w.output ++ text })

/-- Carry out a command line in a world: the text, and the world afterwards. -/
def World.run (w : World) (home : Home) (arguments : Arguments) :
    Traced RunError String × World :=
  (Cli.run World.source World.sink home arguments).run w

end Protograph.Cli
