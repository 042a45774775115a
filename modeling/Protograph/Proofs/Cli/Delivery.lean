import Protograph.Proofs.Files.Writing
import Protograph.Cli.Run

/-! # Delivery — a run writes its text whole and in one place, or nothing

    A run produces a text and then delivers it.

    * Producing only reads: the world is afterwards what it was before
      (`readOnly_produce`).  If there is no text the run is over, and nothing
      has happened.
    * Delivering goes one of two ways.  Either the text is added to the output
      stream, and no file is touched; or it is written to a file, behind the
      directories that it needs, and the stream is not touched
      (`deliver_file`).

    The stream of a world takes everything, so that only the second can fail,
    with some of the directories made and no file changed.  A stream that takes
    nothing ends the run, and no file is changed, either (`run_shut`). -/

namespace Protograph.Cli

open Sdl

variable {α β : Type}

theorem run_bind (action : StateM World α) (next : α → StateM World β) (w : World) :
    (action >>= next).run w = (next (action.run w).1).run (action.run w).2 := rfl

/-! ## One after the other -/

section AndThen

variable {first : StateM World (Traced RunError α)} {next : α → StateM World (Traced RunError β)}
  {w : World}

/-- After an error nothing is done any more. -/
theorem andThen_of_error {e : RunError} (failed : (first.run w).1.result = .error e) :
    ((andThen first next).run w).1.result = .error e
      ∧ ((andThen first next).run w).2 = (first.run w).2 := by
  rw [andThen, run_bind, failed]
  exact ⟨rfl, rfl⟩

theorem andThen_of_ok {a : α} (done : (first.run w).1.result = .ok a) :
    ((andThen first next).run w).1.result = ((next a).run (first.run w).2).1.result
      ∧ ((andThen first next).run w).2 = ((next a).run (first.run w).2).2 := by
  rw [andThen, run_bind, done]
  exact ⟨rfl, rfl⟩

end AndThen

/-! ## Producing -/

/-- An action that leaves every world as it is. -/
def ReadOnly (action : StateM World α) : Prop := ∀ w : World, (action.run w).2 = w

theorem readOnly_pure (a : α) : ReadOnly (pure a) := fun _ => rfl

theorem ReadOnly.bind {action : StateM World α} {next : α → StateM World β} (h : ReadOnly action)
    (later : ∀ a, ReadOnly (next a)) : ReadOnly (action >>= next) := by
  intro w
  rw [run_bind, later, h]

theorem ReadOnly.andThen {first : StateM World (Traced RunError α)}
    {next : α → StateM World (Traced RunError β)} (h : ReadOnly first)
    (later : ∀ a, ReadOnly (next a)) : ReadOnly (andThen first next) := by
  refine h.bind fun t => ?_
  split
  · exact readOnly_pure _
  · exact (later _).bind fun u => readOnly_pure _

theorem readOnly_readFile (path : Path) : ReadOnly (World.source.readFile path) := fun _ => rfl

theorem readOnly_readInput : ReadOnly World.source.readInput := fun _ => rfl

theorem readOnly_exists? (path : Path) : ReadOnly (World.source.exists? path) := fun _ => rfl

theorem result_readSchema {path : Path} (file : path.isName "-" = false) (w : World) :
    ((readSchema World.source path).run w).1.result
      = (w.files.readText path).mapError (.readSchema path) := by
  rw [readSchema, file, if_neg Bool.false_ne_true]
  rfl

/-- A schema that the input stream holds. -/
theorem result_readSchema_input {path : Path} {text : String} (stream : path.isName "-" = true)
    {w : World} (held : w.input = text.toUTF8) :
    ((readSchema World.source path).run w).1.result = .ok text := by
  have input : (World.source.readInput.run w).1 = .ok text := by
    show FileTree.decode w.input = _
    rw [held, FileTree.decode_toUTF8]
  rw [readSchema, stream, if_pos rfl, run_bind, input]
  rfl

theorem readOnly_readSchema (path : Path) : ReadOnly (readSchema World.source path) := by
  rw [readSchema]
  split
  · exact readOnly_readInput.bind fun _ => readOnly_pure _
  · exact (readOnly_readFile path).bind fun _ => readOnly_pure _

theorem readOnly_readOptions (path : Path) : ReadOnly (readOptions World.source path) := by
  refine (readOnly_readFile path).bind fun read => ?_
  split
  · exact readOnly_pure _
  · split
    · exact readOnly_pure _
    · exact readOnly_pure _

theorem readOnly_loadOptions (home : Home) (asked : Option Path) :
    ReadOnly (loadOptions World.source home asked) := by
  rw [loadOptions.eq_def]
  split
  · exact readOnly_readOptions _
  · refine (readOnly_exists? _).bind fun there => ?_
    split
    · exact readOnly_readOptions _
    · exact readOnly_pure _
  · exact readOnly_pure _

theorem readOnly_produce (home : Home) (arguments : Arguments) :
    ReadOnly (produce World.source home arguments) := by
  refine (readOnly_readSchema _).andThen fun sdl => ?_
  refine (readOnly_pure _).andThen fun g => ?_
  exact (readOnly_loadOptions _ _).andThen fun options => readOnly_pure _

/-- The text that a command line asks for in a world, or why there is none. -/
def textIn (w : World) (home : Home) (arguments : Arguments) : Except RunError String :=
  ((produce World.source home arguments).run w).1.result

/-- Once the schema is loaded, the text is what it yields with the options, if there are any. -/
theorem textIn_loaded {w : World} {home : Home} {arguments : Arguments} {sdl : String} {g : Graph}
    (read : ((readSchema World.source arguments.schema).run w).1.result = .ok sdl)
    (loaded : (Graph.ofSdl sdl).result = .ok g) :
    textIn w home arguments
      = ((loadOptions World.source home arguments.config).run w).1.result.bind fun options =>
          (arguments.textFor g options).result := by
  have load : ((pure ((Graph.ofSdl sdl).mapError (.loadSchema arguments.schema)) :
      StateM World (Traced RunError Graph)).run w).1.result = .ok g := by
    show (Graph.ofSdl sdl).result.mapError _ = _
    rw [loaded]
    rfl
  rw [textIn, produce, (andThen_of_ok read).1, readOnly_readSchema, (andThen_of_ok load).1,
    readOnly_pure]
  cases chosen : ((loadOptions World.source home arguments.config).run w).1.result with
  | error e => exact (andThen_of_error chosen).1
  | ok options => exact (andThen_of_ok chosen).1

/-- Where every step of it goes well, the text is what the schema and the options yield. -/
theorem textIn_eq {w : World} {home : Home} {arguments : Arguments} {sdl : String} {g : Graph}
    {options : Options}
    (read : ((readSchema World.source arguments.schema).run w).1.result = .ok sdl)
    (loaded : (Graph.ofSdl sdl).result = .ok g)
    (chosen : ((loadOptions World.source home arguments.config).run w).1.result = .ok options) :
    textIn w home arguments = (arguments.textFor g options).result := by
  rw [textIn_loaded read loaded, chosen]
  rfl

section TextFor

variable {arguments : Arguments} {g : Graph} {options : Options}

/-- A schema that is walked is listed, if that is asked for. -/
theorem result_textFor_listing {ids : List TypeId} (asked : arguments.printTypes = true)
    (walked : g.emissionList = .ok ids) :
    (arguments.textFor g options).result
      = .ok (String.join ((g.namesOf ids).map (· ++ "\n"))) := by
  rw [Arguments.textFor, if_pos asked, Traced.result_bind]
  show (g.emissionList.mapError _).bind _ = _
  rw [walked]
  rfl

/-- Otherwise the document is written, with the overrides applied. -/
theorem result_textFor_document (unasked : arguments.printTypes = false) :
    (arguments.textFor g options).result
      = (g.translate (arguments.overrides.apply options)).result.mapError
          (.translate arguments.schema) := by
  rw [Arguments.textFor, unasked, if_neg Bool.false_ne_true]
  rfl

end TextFor

/-! ## Delivering -/

/-- What is left of a world when a text has been delivered to a file, or has not. -/
inductive Delivered (w : World) (path : Path) (text : String) :
    Except RunError Unit → World → Prop where
  | written {files : FileTree} {l : Location}
      (delivers : w.files.Delivers files path text.toUTF8 l) :
      Delivered w path text (.ok ()) { w with files }
  | failed {files : FileTree} {e : RunError} (furnishes : w.files.Furnishes files) :
      Delivered w path text (.error e) { w with files }

/-- Directories are made first, as far as that goes, and then the file is written. -/
theorem delivered_andThen {w : World} {path : Path} {text : String} {files : FileTree}
    {first : StateM World (Traced RunError Unit)} {next : Unit → StateM World (Traced RunError Unit)}
    (furnishes : w.files.Furnishes files) (made : (first.run w).2 = { w with files })
    (written : Delivered { w with files } path text ((next ()).run { w with files }).1.result
      ((next ()).run { w with files }).2) :
    Delivered w path text ((andThen first next).run w).1.result ((andThen first next).run w).2 := by
  cases ends : (first.run w).1.result with
  | error e =>
      rw [(andThen_of_error ends).1, (andThen_of_error ends).2, made]
      exact .failed furnishes
  | ok a =>
      rw [(andThen_of_ok ends).1, (andThen_of_ok ends).2, made]
      -- what writing does to the furnished tree is done to the tree before it, too
      generalize ((next a).run { w with files }).1.result = ending at written ⊢
      generalize ((next a).run { w with files }).2 = after at written ⊢
      cases written with
      | written delivers => exact .written (furnishes.delivers delivers)
      | failed later => exact .failed (furnishes.trans later)

theorem run_writeFile (w : World) (path : Path) (text : String) :
    (World.sink.writeFile path text).run w =
      match w.files.write path text.toUTF8 with
      | .ok files => (.ok (), { w with files })
      | .error e => (.error e, w) := rfl

/-- A file is written, or else nothing has happened. -/
theorem delivered_write (w : World) (path : Path) (text : String) (event : Event) :
    let write : StateM World (Traced RunError Unit) := do
      match ← World.sink.writeFile path text with
      | .ok () => return .report event
      | .error e => return .ofExcept (.error (.writeFile path e))
    Delivered w path text (write.run w).1.result (write.run w).2 := by
  intro write
  cases written : w.files.write path text.toUTF8 with
  | ok files =>
      obtain ⟨l, delivers⟩ := FileTree.delivers_write written
      rw [run_bind, run_writeFile, written]
      exact .written delivers
  | error e =>
      rw [run_bind, run_writeFile, written]
      exact .failed (FileTree.furnishes_refl _)

theorem deliver_file (w : World) (path : Path) (text : String) :
    Delivered w path text ((deliver World.sink (some path) text).run w).1.result
      ((deliver World.sink (some path) text).run w).2 := by
  rw [deliver]
  -- the directories to be made are those that the path has in front of its last segment
  cases path.parent?.filter fun p => p.text != "" with
  | none =>
      refine delivered_andThen (FileTree.furnishes_refl _) rfl ?_
      exact delivered_write _ _ _ _
  | some directory =>
      refine delivered_andThen (FileTree.furnishes_makeDirectories w.files directory) rfl ?_
      exact delivered_write _ _ _ _

/-! ## Running -/

section Run

variable {w : World} {home : Home} {arguments : Arguments} {sink : Sink (StateM World)}

theorem run_of_error {e : RunError} (h : textIn w home arguments = .error e) :
    (w.run home arguments).1.result = .error e ∧ (w.run home arguments).2 = w := by
  rw [textIn] at h
  rw [World.run, run, (andThen_of_error h).1, (andThen_of_error h).2]
  exact ⟨rfl, readOnly_produce home arguments w⟩

/-- With a text, a run does what delivering the text does. -/
theorem run_of_ok {text : String} (h : textIn w home arguments = .ok text) :
    ((run World.source sink home arguments).run w).1.result
        = ((deliver sink arguments.out text).run w).1.result.map (fun _ => text)
      ∧ ((run World.source sink home arguments).run w).2
        = ((deliver sink arguments.out text).run w).2 := by
  rw [textIn] at h
  rw [run, (andThen_of_ok h).1, (andThen_of_ok h).2, readOnly_produce]
  cases ends : ((deliver sink arguments.out text).run w).1.result with
  | error e =>
      rw [(andThen_of_error ends).1, (andThen_of_error ends).2]
      exact ⟨rfl, rfl⟩
  | ok a =>
      rw [(andThen_of_ok ends).1, (andThen_of_ok ends).2]
      exact ⟨rfl, rfl⟩

/-- Write to a world whose output stream takes nothing. -/
def World.shut (e : FileError) : Sink (StateM World) :=
  { World.sink with writeOutput := fun _ => pure (.error e) }

/-- A text that the output stream does not take is lost, and nothing else has happened. -/
theorem run_shut {text : String} (made : textIn w home arguments = .ok text)
    (onto : arguments.out = none) (e : FileError) :
    ((run World.source (World.shut e) home arguments).run w).1.result = .error (.writeOutput e)
      ∧ ((run World.source (World.shut e) home arguments).run w).2 = w := by
  rw [(run_of_ok made).1, (run_of_ok made).2, onto]
  exact ⟨rfl, rfl⟩

end Run

/-- **ALL OR NOTHING**: a run without a text leaves the world as it was.  A text that is not asked
    for in a file is added to the output stream, and that is all.  One that is asked for in a file
    stands there afterwards, every other file being as it was, or else no file has been changed or
    made; either way nothing is written to the stream. -/
theorem run_all_or_nothing (w : World) (home : Home) (arguments : Arguments) :
    (∀ e, textIn w home arguments = .error e →
      (w.run home arguments).1.result = .error e ∧ (w.run home arguments).2 = w) ∧
    (∀ text, textIn w home arguments = .ok text → arguments.out = none →
      (w.run home arguments).1.result = .ok text
        ∧ (w.run home arguments).2 = { w with output := w.output ++ text }) ∧
    ∀ text path, textIn w home arguments = .ok text → arguments.out = some path →
      ∃ files, (w.run home arguments).2 = { w with files } ∧
        ((w.run home arguments).1.result = .ok text
            ∧ (∃ l, w.files.Delivers files path text.toUTF8 l)
          ∨ (∃ e, (w.run home arguments).1.result = .error e) ∧ w.files.Furnishes files
            ∧ ∀ l content, files.get? l = some (.file content)
                ↔ w.files.get? l = some (.file content)) := by
  refine ⟨fun e => run_of_error, ?_, ?_⟩
  · intro text made onto
    rw [World.run, (run_of_ok made).1, (run_of_ok made).2, onto]
    exact ⟨rfl, rfl⟩
  · intro text path made onto
    rw [World.run, (run_of_ok made).1, (run_of_ok made).2, onto]
    have delivered := deliver_file w path text
    generalize ((deliver World.sink (some path) text).run w).1.result = ending at delivered ⊢
    generalize ((deliver World.sink (some path) text).run w).2 = after at delivered ⊢
    cases delivered with
    | written delivers => exact ⟨_, rfl, Or.inl ⟨rfl, _, delivers⟩⟩
    | failed furnishes => exact ⟨_, rfl, Or.inr ⟨⟨_, rfl⟩, furnishes, furnishes.file_iff⟩⟩

/-- A schema in a file, with nothing around it. -/
def deskText : String := "type Query \x7b a: Int \x7d"

/-- The graph of `deskText`. -/
def deskGraph : Graph :=
  ⟨#[.object ⟨"Query", [⟨"a", .named 1⟩]⟩, .scalar .int], [("Int", 1), ("Query", 0)], 0⟩

theorem ofSdl_desk : (Graph.ofSdl deskText).result = .ok deskGraph := by
  have parsed : Document.ofString deskText
      = .ok [.type (.object "Query" [⟨"a", .named "Int"⟩])] := by decide +kernel
  have built : Document.graph [.type (.object "Query" [⟨"a", .named "Int"⟩])] = .ok deskGraph := by
    decide +kernel
  rw [Graph.ofSdl, parsed, Traced.bind_of_ok rfl, built]
  rfl

def desk : World := { files := ⟨[(["schema.graphql"], .file deskText.toUTF8)], []⟩ }

/-- The document takes the place of its schema. -/
def deskRun : Arguments := { schema := ⟨"schema.graphql"⟩, out := some ⟨"schema.graphql"⟩ }

theorem textIn_desk : ∃ text, textIn desk {} deskRun = .ok text := by
  have held : desk.files.readText ⟨"schema.graphql"⟩ = .ok deskText :=
    FileTree.readText_of_read (FileTree.read_ok.2 ⟨["schema.graphql"], by decide +kernel, rfl⟩)
  have read : ((readSchema World.source deskRun.schema).run desk).1.result = .ok deskText := by
    rw [result_readSchema (by decide +kernel)]
    show (desk.files.readText ⟨"schema.graphql"⟩).mapError _ = _
    rw [held]
    rfl
  rw [textIn_eq read ofSdl_desk rfl]
  exact exists_ok (by decide +kernel)

theorem deliver_desk (text : String) :
    ((deliver World.sink deskRun.out text).run desk).1.result = .ok () := by
  have parent : (Path.mk "schema.graphql").parent?.filter (fun p => p.text != "") = none := by
    decide +kernel
  have last : desk.files.locateLast ⟨"schema.graphql"⟩ = .ok ([], "schema.graphql", false) := by
    decide +kernel
  obtain ⟨files, written⟩ : ∃ files, desk.files.write ⟨"schema.graphql"⟩ text.toUTF8 = .ok files := by
    rw [FileTree.write, last]
    exact ⟨_, rfl⟩
  rw [deskRun, deliver, parent, (andThen_of_ok rfl).1, readOnly_pure, run_bind, run_writeFile,
    written]
  rfl

/-- The document stands where its schema was. -/
theorem desk_run : ∃ text files, textIn desk {} deskRun = .ok text
    ∧ (desk.run {} deskRun).1.result = .ok text ∧ (desk.run {} deskRun).2 = { desk with files }
    ∧ ∃ l, desk.files.Delivers files ⟨"schema.graphql"⟩ text.toUTF8 l := by
  obtain ⟨text, made⟩ := textIn_desk
  have ends : (desk.run {} deskRun).1.result = .ok text := by
    rw [World.run, (run_of_ok made).1, deliver_desk]
    rfl
  obtain ⟨files, world, ⟨-, delivers⟩ | ⟨⟨e, failed⟩, -⟩⟩ :=
    (run_all_or_nothing desk {} deskRun).2.2 text _ made rfl
  · exact ⟨text, files, made, ends, world, delivers⟩
  · rw [ends] at failed
    cases failed

end Protograph.Cli
