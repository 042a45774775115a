import Protograph.Proofs.Cli.CommandLine
import Protograph.Proofs.Cli.Delivery

/-! # Precedence — where each option of a document comes from

    Four places can say what an option is: the command line, a configuration
    that is asked for, the one in its usual place, and the defaults.  At most
    one configuration is looked at (`World.Selects`).  If it can not be read as
    options the run is over, whatever else is given (`World.Refuses`).
    Otherwise it `Tells` some of the options, and each is what the command line
    gives, else what the configuration tells, else the default, whatever holds
    of the other four.

    What the command line gives is said of its words (`Gives`), not of what has
    been read of them.

    The five options are gone through by key, so that what is said of one is
    said of all. -/

namespace Protograph

/-! ## Keys -/

/-- The options of a document. -/
inductive OptionKey where
  | package
  | javaPackage
  | jsNamespace
  | jspbImport
  | messageIdPrefix
  deriving DecidableEq, Repr

namespace OptionKey

/-- The key in a configuration. -/
def name : OptionKey → String
  | .package => "package"
  | .javaPackage => "java_package"
  | .jsNamespace => "js_namespace"
  | .jspbImport => "jspb_import"
  | .messageIdPrefix => "message_id_prefix"

/-- The name on a command line. -/
def flag : OptionKey → String
  | .package => "--package"
  | .javaPackage => "--java-package"
  | .jsNamespace => "--js-namespace"
  | .jspbImport => "--jspb-import"
  | .messageIdPrefix => "--message-id-prefix"

/-- What the option is when nothing is said of it. -/
def default : OptionKey → String
  | .package => "google.api.graphql.rejoiner.proto"
  | .javaPackage => "com.google.api.graphql.rejoiner.proto"
  | .jsNamespace => "com.google.api.graphql.rejoiner.proto"
  | .jspbImport => "java/com/google/apps/jspb/jspb.proto"
  | .messageIdPrefix => "corp.graphql"

end OptionKey

/-- The option of a key. -/
def Options.get (o : Options) : OptionKey → String
  | .package => o.package
  | .javaPackage => o.javaPackage
  | .jsNamespace => o.jsNamespace
  | .jspbImport => o.jspbImport
  | .messageIdPrefix => o.messageIdPrefix

theorem Options.get_default (key : OptionKey) : Options.get {} key = key.default := by
  cases key <;> rfl

/-- Options are told apart by their keys. -/
theorem Options.eq_of_get {o o' : Options} (same : ∀ key, o.get key = o'.get key) : o = o' := by
  obtain ⟨package, javaPackage, jsNamespace, jspbImport, messageIdPrefix⟩ := o
  obtain rfl : package = _ := same .package
  obtain rfl : javaPackage = _ := same .javaPackage
  obtain rfl : jsNamespace = _ := same .jsNamespace
  obtain rfl : jspbImport = _ := same .jspbImport
  obtain rfl : messageIdPrefix = _ := same .messageIdPrefix
  rfl

namespace Overrides

/-- What is given for a key. -/
def get? (given : Overrides) : OptionKey → Option String
  | .package => given.package
  | .javaPackage => given.javaPackage
  | .jsNamespace => given.jsNamespace
  | .jspbImport => given.jspbImport
  | .messageIdPrefix => given.messageIdPrefix

/-- The overrides that give some values. -/
def ofKeys (values : OptionKey → Option String) : Overrides where
  package := values .package
  javaPackage := values .javaPackage
  jsNamespace := values .jsNamespace
  jspbImport := values .jspbImport
  messageIdPrefix := values .messageIdPrefix

@[simp] theorem get?_ofKeys (values : OptionKey → Option String) (key : OptionKey) :
    (ofKeys values).get? key = values key := by
  cases key <;> rfl

/-- Each option is replaced by what is given for it, and by nothing else. -/
theorem get_apply (given : Overrides) (o : Options) (key : OptionKey) :
    (given.apply o).get key = (given.get? key).getD (o.get key) := by
  cases key <;> rfl

end Overrides

/-! ## Configurations -/

section Configuration

variable {t : Toml.Table} {text : String} {values : OptionKey → Option String}

theorem string?_eq_ok {key : String} {value : Option String} :
    t.string? key = .ok value ↔ t.lookup key = value.map .string := by
  rw [Toml.Table.string?]
  cases t.lookup key with
  | none => cases value <;> simp
  | some item => cases item <;> cases value <;> simp

/-- A table sets the options that it has strings for, if it has nothing else for them. -/
theorem ofTable_eq_ok {given : Overrides} :
    Overrides.ofTable t = .ok given
      ↔ ∀ key : OptionKey, t.lookup key.name = (given.get? key).map .string := by
  constructor
  · intro h
    rw [Overrides.ofTable] at h
    obtain ⟨package, first, h⟩ := bind_eq_ok.1 h
    obtain ⟨javaPackage, second, h⟩ := bind_eq_ok.1 h
    obtain ⟨jsNamespace, third, h⟩ := bind_eq_ok.1 h
    obtain ⟨jspbImport, fourth, h⟩ := bind_eq_ok.1 h
    obtain ⟨messageIdPrefix, fifth, h⟩ := bind_eq_ok.1 h
    cases h
    rintro (_ | _ | _ | _ | _)
    · exact string?_eq_ok.1 first
    · exact string?_eq_ok.1 second
    · exact string?_eq_ok.1 third
    · exact string?_eq_ok.1 fourth
    · exact string?_eq_ok.1 fifth
  · intro each
    have package : t.string? "package" = .ok given.package := string?_eq_ok.2 (each .package)
    have javaPackage : t.string? "java_package" = .ok given.javaPackage :=
      string?_eq_ok.2 (each .javaPackage)
    have jsNamespace : t.string? "js_namespace" = .ok given.jsNamespace :=
      string?_eq_ok.2 (each .jsNamespace)
    have jspbImport : t.string? "jspb_import" = .ok given.jspbImport :=
      string?_eq_ok.2 (each .jspbImport)
    have messageIdPrefix : t.string? "message_id_prefix" = .ok given.messageIdPrefix :=
      string?_eq_ok.2 (each .messageIdPrefix)
    rw [Overrides.ofTable, package, javaPackage, jsNamespace, jspbImport, messageIdPrefix]
    rfl

/-- A configuration with strings for some options and nothing else for the others. -/
theorem ofToml_of_strings (table : Toml.Table.ofString text = some t)
    (strings : ∀ key : OptionKey, t.lookup key.name = (values key).map .string) :
    Options.ofToml text = .ok ((Overrides.ofKeys values).apply {}) := by
  have read : Overrides.ofTable t = .ok (Overrides.ofKeys values) := by
    refine ofTable_eq_ok.2 fun key => ?_
    rw [Overrides.get?_ofKeys]
    exact strings key
  rw [Options.ofToml, Overrides.ofToml, table]
  show Overrides.ofTable t >>= _ = _
  rw [read]
  rfl

theorem ofToml_of_noTable (noTable : Toml.Table.ofString text = none) :
    Options.ofToml text = .error () := by
  rw [Options.ofToml, Overrides.ofToml, noTable]
  rfl

/-- One option that is no string is enough for a configuration to be refused. -/
theorem ofToml_of_noString {key : OptionKey} {item : Toml.Item}
    (table : Toml.Table.ofString text = some t) (there : t.lookup key.name = some item)
    (noString : ∀ value, item ≠ .string value) : Options.ofToml text = .error () := by
  have refused : Overrides.ofTable t = .error () := by
    cases read : Overrides.ofTable t with
    | error e => rfl
    | ok given =>
        have fits := ofTable_eq_ok.1 read key
        rw [there] at fits
        obtain ⟨value, -, same⟩ := Option.map_eq_some_iff.1 fits.symm
        exact absurd same.symm (noString value)
  rw [Options.ofToml, Overrides.ofToml, table]
  show Overrides.ofTable t >>= _ = _
  rw [refused]
  rfl

end Configuration

namespace Cli

variable {w : World} {home : Home} {asked : Option Path}

/-- The configuration that is looked at: the one asked for, else the one in its usual place,
    if it is there. -/
def World.configFile? (w : World) (home : Home) (asked : Option Path) : Option Path :=
  asked.or (home.configFile?.filter w.files.exists?)

/-- Why the configuration that is looked at can not be read as options. -/
inductive World.Refuses (w : World) : Option Path → RunError → Prop where
  | unreadable {path : Path} {e : FileError} (fails : w.files.readText path = .error e) :
      Refuses w (some path) (.readConfig path e)
  | noTable {path : Path} {text : String} (held : w.files.readText path = .ok text)
      (table : Toml.Table.ofString text = none) : Refuses w (some path) (.parseConfig path)
  | noString {path : Path} {text : String} {t : Toml.Table} {key : OptionKey} {item : Toml.Item}
      (held : w.files.readText path = .ok text) (table : Toml.Table.ofString text = some t)
      (there : t.lookup key.name = some item) (noString : ∀ value, item ≠ .string value) :
      Refuses w (some path) (.parseConfig path)

/-- What the configuration that is looked at tells of the options: the strings that it has, and
    of the others nothing. -/
inductive World.Tells (w : World) : Option Path → (OptionKey → Option String) → Prop where
  | nothing : Tells w none fun _ => none
  | file {path : Path} {text : String} {t : Toml.Table} {values : OptionKey → Option String}
      (held : w.files.readText path = .ok text) (table : Toml.Table.ofString text = some t)
      (strings : ∀ key : OptionKey, t.lookup key.name = (values key).map .string) :
      Tells w (some path) values

/-- A configuration tells the options or is refused. -/
theorem refuses_or_tells (w : World) (selected : Option Path) :
    (∃ e, w.Refuses selected e) ∨ ∃ values, w.Tells selected values := by
  cases selected with
  | none => exact Or.inr ⟨_, .nothing⟩
  | some path =>
      cases held : w.files.readText path with
      | error e => exact Or.inl ⟨_, .unreadable held⟩
      | ok text =>
          cases table : Toml.Table.ofString text with
          | none => exact Or.inl ⟨_, .noTable held table⟩
          | some t =>
              by_cases strings : ∀ key : OptionKey, ∃ value : Option String,
                  t.lookup key.name = value.map .string
              · choose values strings using strings
                exact Or.inr ⟨values, .file held table strings⟩
              · obtain ⟨key, noString⟩ := not_forall.1 strings
                cases there : t.lookup key.name with
                | none => exact absurd ⟨none, there⟩ noString
                | some item =>
                    refine Or.inl ⟨_, .noString held table there ?_⟩
                    rintro value rfl
                    exact noString ⟨some value, there⟩

/-- A configuration that can be read tells what is read of it. -/
theorem tells_of_ofToml {path : Path} {text : String} {given : Overrides}
    (held : w.files.readText path = .ok text) (read : Overrides.ofToml text = .ok given) :
    w.Tells (some path) given.get? := by
  rw [Overrides.ofToml] at read
  cases table : Toml.Table.ofString text with
  | none =>
      rw [table] at read
      cases read
  | some t =>
      rw [table] at read
      exact .file held table (ofTable_eq_ok.1 read)

theorem refuses_of_ofToml {path : Path} {text : String}
    (held : w.files.readText path = .ok text) (unread : Overrides.ofToml text = .error ()) :
    w.Refuses (some path) (.parseConfig path) := by
  rcases refuses_or_tells w (some path) with ⟨e, refuses⟩ | ⟨values, tells⟩
  · cases refuses with
    | unreadable fails =>
        rw [held] at fails
        cases fails
    | noTable held table => exact .noTable held table
    | noString held table there noString => exact .noString held table there noString
  · cases tells with
    | file held' table strings =>
        rw [held] at held'
        cases held'
        have read := ofToml_of_strings table strings
        rw [Options.ofToml, unread] at read
        cases read

theorem result_readOptions_of_error {path : Path} {e : FileError}
    (fails : w.files.readText path = .error e) :
    ((readOptions World.source path).run w).1.result = .error (.readConfig path e) := by
  have file : ((World.source.readFile path).run w).1 = .error e := fails
  rw [readOptions, run_bind, file]
  rfl

theorem result_readOptions_of_ok {path : Path} {text : String}
    (held : w.files.readText path = .ok text) :
    ((readOptions World.source path).run w).1.result
      = (Options.ofToml text).mapError fun _ => .parseConfig path := by
  have file : ((World.source.readFile path).run w).1 = .ok text := held
  rw [readOptions, run_bind, file]
  dsimp only
  cases Options.ofToml text with
  | error e => rfl
  | ok options => rfl

/-- One configuration is read, or none. -/
theorem result_loadOptions (w : World) (home : Home) (asked : Option Path) :
    ((loadOptions World.source home asked).run w).1.result =
      match w.configFile? home asked with
      | some path => ((readOptions World.source path).run w).1.result
      | none => .ok {} := by
  rw [loadOptions.eq_def, World.configFile?]
  cases asked with
  | some path => rfl
  | none =>
      cases home.configFile? with
      | none => rfl
      | some path =>
          have file : ((World.source.exists? path).run w).1 = w.files.exists? path := rfl
          dsimp only
          rw [run_bind, file, Option.none_or, Option.filter_some]
          cases w.files.exists? path with
          | false => rfl
          | true => rfl

/-- A configuration that is refused is never passed over. -/
theorem options_of_refuses {e : RunError} (h : w.Refuses (w.configFile? home asked) e) :
    ((loadOptions World.source home asked).run w).1.result = .error e := by
  rw [result_loadOptions]
  generalize w.configFile? home asked = selected at h
  cases h with
  | unreadable fails => exact result_readOptions_of_error fails
  | noTable held table =>
      dsimp only
      rw [result_readOptions_of_ok held, ofToml_of_noTable table]
      rfl
  | noString held table there noString =>
      dsimp only
      rw [result_readOptions_of_ok held, ofToml_of_noString table there noString]
      rfl

theorem options_of_tells {values : OptionKey → Option String}
    (h : w.Tells (w.configFile? home asked) values) :
    ((loadOptions World.source home asked).run w).1.result
      = .ok ((Overrides.ofKeys values).apply {}) := by
  rw [result_loadOptions]
  generalize w.configFile? home asked = selected at h
  cases h with
  | nothing => rfl
  | file held table strings =>
      dsimp only
      rw [result_readOptions_of_ok held, ofToml_of_strings table strings]
      rfl

/-! ## Command lines -/

/-- The configuration that is looked at: the one that the command line asks for, else the one of the
    environment, else the one in its usual place, if it is there. -/
inductive World.Selects (w : World) (home : Home) (environment : Option String)
    (line : List String) : Option Path → Prop where
  | asked {path : String} (given : Gives line "--config" path) :
      Selects w home environment line (some ⟨path⟩)
  | inherited {path : String} (unasked : ∀ other, ¬ Gives line "--config" other)
      (set : environment = some path) : Selects w home environment line (some ⟨path⟩)
  | usual {path : Path} (unasked : ∀ other, ¬ Gives line "--config" other)
      (unset : environment = none) (place : home.configFile? = some path)
      (there : w.files.exists? path = true) : Selects w home environment line (some path)
  | nothing (unasked : ∀ other, ¬ Gives line "--config" other) (unset : environment = none)
      (absent : ∀ path, home.configFile? = some path → w.files.exists? path = false) :
      Selects w home environment line none

section Line

variable {environment : Option String} {line : List String} {arguments : Arguments}

theorem config_eq_none_iff (asks : arguments.Asks environment line) :
    arguments.config = none ↔ (∀ other, ¬ Gives line "--config" other) ∧ environment = none := by
  constructor
  · intro none
    have unasked : ∀ other, ¬ Gives line "--config" other := by
      intro other given
      rw [(asks.config other).1 (Or.inl given)] at none
      cases none
    refine ⟨unasked, Option.eq_none_iff_forall_ne_some.2 fun path set => ?_⟩
    rw [(asks.config path).1 (Or.inr ⟨unasked, set⟩)] at none
    cases none
  · rintro ⟨unasked, unset⟩
    refine Option.eq_none_iff_forall_ne_some.2 fun path chosen => ?_
    rcases (asks.config path.text).2 chosen with given | ⟨-, set⟩
    · exact unasked _ given
    · rw [unset] at set
      cases set

/-- The words of the line and the environment decide which configuration is looked at. -/
theorem selects_iff (asks : arguments.Asks environment line) {selected : Option Path} :
    w.Selects home environment line selected ↔ selected = w.configFile? home arguments.config := by
  rw [World.configFile?]
  constructor
  · intro selects
    cases selects with
    | @asked path given => rw [(asks.config path).1 (Or.inl given), Option.some_or]
    | @inherited path unasked set =>
        rw [(asks.config path).1 (Or.inr ⟨unasked, set⟩), Option.some_or]
    | usual unasked unset place there =>
        rw [(config_eq_none_iff asks).2 ⟨unasked, unset⟩, Option.none_or, place,
          Option.filter_some, if_pos there]
    | nothing unasked unset absent =>
        rw [(config_eq_none_iff asks).2 ⟨unasked, unset⟩, Option.none_or]
        refine (Option.filter_eq_none_iff.2 fun path place => ?_).symm
        rw [absent path place]
        exact Bool.false_ne_true
  · rintro rfl
    cases chosen : arguments.config with
    | some path =>
        rw [Option.some_or]
        rcases (asks.config path.text).2 chosen with given | ⟨unasked, set⟩
        · exact .asked given
        · exact .inherited unasked set
    | none =>
        obtain ⟨unasked, unset⟩ := (config_eq_none_iff asks).1 chosen
        rw [Option.none_or]
        cases usual : home.configFile?.filter w.files.exists? with
        | some path =>
            obtain ⟨place, there⟩ := Option.filter_eq_some_iff.1 usual
            exact .usual unasked unset place there
        | none =>
            refine .nothing unasked unset fun path place => Bool.eq_false_iff.2 ?_
            exact Option.filter_eq_none_iff.1 usual path place

theorem overrides_iff (asks : arguments.Asks environment line) (key : OptionKey) (value : String) :
    Gives line key.flag value ↔ arguments.overrides.get? key = some value := by
  cases key with
  | package => exact asks.package value
  | javaPackage => exact asks.javaPackage value
  | jsNamespace => exact asks.jsNamespace value
  | jspbImport => exact asks.jspbImport value
  | messageIdPrefix => exact asks.messageIdPrefix value

end Line

/-! ## Documents -/

/-- **EACH OPTION FOR ITSELF**: with a schema that loads, one configuration is looked at, or none.
    If it is refused, that is the end of the run, whatever the command line gives.  Otherwise the
    document is written with options of which each is what the command line gives for it, else what
    the configuration tells, else the default. -/
theorem options_by_precedence (home : Home) {environment : Option String} {line : List String}
    {arguments : Arguments} {sdl : String} {g : Graph}
    (parsed : Arguments.parse environment line = .ok arguments)
    (read : ((readSchema World.source arguments.schema).run w).1.result = .ok sdl)
    (loaded : (Graph.ofSdl sdl).result = .ok g) :
    ∃ selected,
      (∀ other, w.Selects home environment line other ↔ other = selected)
      ∧ (∀ e, w.Refuses selected e → textIn w home arguments = .error e)
      ∧ (∀ values, w.Tells selected values → ¬ Shows line "--print-types" → ∃ o : Options,
          textIn w home arguments = (g.translate o).result.mapError (.translate arguments.schema)
            ∧ ∀ key : OptionKey,
              (∀ value, Gives line key.flag value → o.get key = value)
              ∧ ((∀ value, ¬ Gives line key.flag value) →
                  o.get key = (values key).getD key.default))
      ∧ ((∃ e, w.Refuses selected e) ∨ ∃ values, w.Tells selected values) := by
  have asks := parse_asks parsed
  refine ⟨w.configFile? home arguments.config, fun _ => selects_iff asks, ?_, ?_,
    refuses_or_tells w _⟩
  · intro e refuses
    rw [textIn_loaded read loaded, options_of_refuses refuses]
    rfl
  · intro values tells unasked
    rw [asks.printTypes, Bool.not_eq_true] at unasked
    refine ⟨arguments.overrides.apply ((Overrides.ofKeys values).apply {}), ?_, fun key => ⟨?_, ?_⟩⟩
    · rw [textIn_eq read loaded (options_of_tells tells), result_textFor_document unasked]
    · intro value given
      rw [Overrides.get_apply, (overrides_iff asks key value).1 given]
      rfl
    · intro ungiven
      have untold : arguments.overrides.get? key = none := by
        refine Option.eq_none_iff_forall_ne_some.2 fun value told => ?_
        exact ungiven value ((overrides_iff asks key value).2 told)
      rw [Overrides.get_apply, untold, Overrides.get_apply, Overrides.get?_ofKeys,
        Options.get_default]
      rfl

/-- A configuration that sets two options. -/
def officeText : String := "package = \"acme\"\njava_package = \"acme\"\n"

/-- A configuration with a number where a text belongs. -/
def strayText : String := "package = 1\n"

/-- A directory with both configurations, the first of which is also in the usual place. -/
def office : World where
  files := ⟨[(["office.toml"], .file officeText.toUTF8), (["stray.toml"], .file strayText.toUTF8),
    (["etc"], .directory), (["etc", "gqlproto"], .directory),
    (["etc", "gqlproto", "config.toml"], .file officeText.toUTF8)], []⟩
  input := deskText.toUTF8

def officeHome : Home := { configHome := some ⟨"/etc"⟩ }

def officeValues : OptionKey → Option String
  | .package => some "acme"
  | .javaPackage => some "acme"
  | _ => none

theorem office_tells {path : Path} {l : Location} (led : office.files.locate path = .ok l)
    (there : office.files.get? l = some (.file officeText.toUTF8)) :
    office.Tells (some path) officeValues := by
  have read : Overrides.ofToml officeText
      = .ok { package := some "acme", javaPackage := some "acme" } := by decide +kernel
  have values : officeValues
      = Overrides.get? { package := some "acme", javaPackage := some "acme" } := by
    funext key
    cases key <;> rfl
  rw [values]
  exact tells_of_ofToml (FileTree.readText_of_read (FileTree.read_ok.2 ⟨l, led, there⟩)) read

theorem office_refuses : office.Refuses (some ⟨"stray.toml"⟩) (.parseConfig ⟨"stray.toml"⟩) := by
  have unread : Overrides.ofToml strayText = .error () := by decide +kernel
  have led : office.files.locate ⟨"stray.toml"⟩ = .ok ["stray.toml"] := by decide +kernel
  exact refuses_of_ofToml (FileTree.readText_of_read (FileTree.read_ok.2 ⟨_, led, rfl⟩)) unread

/-- Two options on the command line, one of them empty. -/
def officeLine : List String :=
  ["-", "--package=short", "--config", "office.toml", "--jspb-import", ""]

theorem officeLine_gives : Gives officeLine "--package" "short"
    ∧ Gives officeLine "--config" "office.toml" ∧ Gives officeLine "--jspb-import" "" := by
  refine ⟨?_, ?_, ?_⟩
  · have there : ["-"] ++ ["--package=short"] <+: officeLine := ⟨_, rfl⟩
    exact .attached there (by decide) (.equals "--package" "short")
  · have there : ["-", "--package=short"] ++ ["--config", "office.toml"] <+: officeLine := ⟨_, rfl⟩
    exact .separate there (by decide)
  · have there : ["-", "--package=short", "--config", "office.toml"] ++ ["--jspb-import", ""]
        <+: officeLine := ⟨_, rfl⟩
    exact .separate there (by decide)

/-- All five options on the command line, and only the names asked for. -/
def strayLine : List String :=
  ["-", "--print-types", "--package=a", "--java-package=b", "--js-namespace=c", "--jspb-import=d",
    "--message-id-prefix=e"]

/-- A line that gives no option at all. -/
def bareLine : List String := ["-"]

theorem office_options :
    (∃ arguments, Arguments.parse (some "stray.toml") officeLine = .ok arguments
      ∧ textIn office officeHome arguments
          = (deskGraph.translate { package := "short", javaPackage := "acme", jspbImport := "" }
              ).result.mapError (.translate ⟨"-"⟩))
    ∧ (∃ arguments, Arguments.parse none bareLine = .ok arguments
      ∧ textIn office officeHome arguments
          = (deskGraph.translate { package := "acme", javaPackage := "acme" }
              ).result.mapError (.translate ⟨"-"⟩))
    ∧ ∃ arguments, Arguments.parse (some "stray.toml") strayLine = .ok arguments
      ∧ office.Tells officeHome.configFile? officeValues
      ∧ textIn office officeHome arguments = .error (.parseConfig ⟨"stray.toml"⟩) := by
  have read : ((readSchema World.source ⟨"-"⟩).run office).1.result = .ok deskText :=
    result_readSchema_input (by decide) rfl
  have usual : office.Tells officeHome.configFile? officeValues :=
    office_tells (l := ["etc", "gqlproto", "config.toml"]) (by decide +kernel) rfl
  refine ⟨?_, ?_, ?_⟩
  · have parsed : Arguments.parse (some "stray.toml") officeLine = .ok
        { schema := ⟨"-"⟩, config := some ⟨"office.toml"⟩,
          overrides := { package := some "short", jspbImport := some "" } } := by decide +kernel
    have asks := parse_asks parsed
    obtain ⟨package, config, jspbImport⟩ := officeLine_gives
    have others : ∀ key ∈ [OptionKey.javaPackage, .jsNamespace, .messageIdPrefix],
        ∀ value, ¬ Gives officeLine key.flag value := by
      intro key other value given
      have told := (overrides_iff asks key value).1 given
      simp only [List.mem_cons, List.not_mem_nil, or_false] at other
      rcases other with rfl | rfl | rfl <;> cases told
    obtain ⟨selected, chosen, -, written, -⟩ :=
      options_by_precedence officeHome parsed read ofSdl_desk
    obtain rfl := (chosen _).1 (.asked config)
    have unlisted : ¬ Shows officeLine "--print-types" := fun shown => by
      cases asks.printTypes.1 shown
    obtain ⟨o, made, each⟩ := written officeValues
      (office_tells (l := ["office.toml"]) (by decide +kernel) rfl) unlisted
    have same : o = { package := "short", javaPackage := "acme", jspbImport := "" } := by
      refine Options.eq_of_get fun key => ?_
      cases key with
      | package => exact (each .package).1 _ package
      | javaPackage => exact (each .javaPackage).2 (others _ (by decide))
      | jsNamespace => exact (each .jsNamespace).2 (others _ (by decide))
      | jspbImport => exact (each .jspbImport).1 _ jspbImport
      | messageIdPrefix => exact (each .messageIdPrefix).2 (others _ (by decide))
    exact ⟨_, parsed, same ▸ made⟩
  · have parsed : Arguments.parse none bareLine = .ok { schema := ⟨"-"⟩ } := by decide +kernel
    have asks := parse_asks parsed
    have nothing : ∀ (key : OptionKey) value, ¬ Gives bareLine key.flag value := by
      intro key value given
      have told := (overrides_iff asks key value).1 given
      cases key <;> cases told
    obtain ⟨selected, chosen, -, written, -⟩ :=
      options_by_precedence officeHome parsed read ofSdl_desk
    obtain ⟨unasked, -⟩ := (config_eq_none_iff asks).1 rfl
    have place : officeHome.configFile? = some ⟨"/etc/gqlproto/config.toml"⟩ := by decide +kernel
    obtain rfl := (chosen _).1 (.usual unasked rfl place (by decide +kernel))
    have unlisted : ¬ Shows bareLine "--print-types" := fun shown => by
      cases asks.printTypes.1 shown
    obtain ⟨o, made, each⟩ := written officeValues usual unlisted
    have same : o = { package := "acme", javaPackage := "acme" } := by
      refine Options.eq_of_get fun key => ?_
      rw [(each key).2 (nothing key)]
      cases key <;> rfl
    exact ⟨_, parsed, same ▸ made⟩
  · have parsed : Arguments.parse (some "stray.toml") strayLine = .ok
        { schema := ⟨"-"⟩, config := some ⟨"stray.toml"⟩, printTypes := true,
          overrides := ⟨some "a", some "b", some "c", some "d", some "e"⟩ } := by decide +kernel
    have unset : Arguments.parse none strayLine = .ok
        { schema := ⟨"-"⟩, printTypes := true,
          overrides := ⟨some "a", some "b", some "c", some "d", some "e"⟩ } := by decide +kernel
    obtain ⟨unasked, -⟩ := (config_eq_none_iff (parse_asks unset)).1 rfl
    obtain ⟨selected, chosen, fails, -, -⟩ :=
      options_by_precedence officeHome parsed read ofSdl_desk
    obtain rfl := (chosen _).1 (.inherited unasked rfl)
    exact ⟨_, parsed, usual, fails _ office_refuses⟩

end Cli

end Protograph
