import Protograph.Proofs.Cli.Words

/-! # Command lines — what is read of a line is what its words say

    The reader meets the words of a line one by one.  What it has gathered
    agrees at each point with the words that it has met (`Progress.Agrees`):
    it does so at the start, each kind of word keeps it (`agrees_meet`), and
    so it does at the end, when what is read is what the whole line says
    (`parse_asks`).

    A value in a word of its own is settled late.  Until then the reader
    `Holds` it without having taken it, and before that it `Lacks` it; what is
    gathered counts both.

    The other way round, whatever can be asked for has a line that asks for it
    (`parse_line`). -/

namespace Protograph.Cli

/-! ## One word more -/

section Line

variable {line : List String} {o : ValueOption} {name value word : String}

/-- An option is given a value under one of its names. -/
def Given (line : List String) (o : ValueOption) (value : String) : Prop :=
  ∃ name ∈ o.names, Gives line name value

/-- The last word is an option without its value. -/
def Awaits (line : List String) (o : ValueOption) : Prop :=
  "--" ∉ line ∧ ∃ name ∈ o.names, line.getLast? = some name

/-- A word is met with all those in front of it. -/
theorem concat_prefix_iff {front : List String} {other : String} :
    front ++ [other] <+: line ++ [word]
      ↔ front = line ∧ other = word ∨ front ++ [other] <+: line := by
  rw [List.prefix_concat_iff]
  refine or_congr_left ⟨fun whole => ?_, ?_⟩
  · obtain ⟨same, last⟩ := List.append_inj' whole rfl
    exact ⟨same, List.singleton_inj.1 last⟩
  · rintro ⟨rfl, rfl⟩
    rfl

theorem dashes_not_mem_names : "--" ∉ o.names := by
  cases o <;> decide

theorem awaits_concat :
    Awaits (line ++ [word]) o ↔ "--" ∉ line ∧ (WordKind.opens o).Spells word := by
  rw [Awaits, List.mem_append, List.mem_singleton, List.getLast?_concat, not_or]
  constructor
  · rintro ⟨⟨options, -⟩, name, known, last⟩
    cases last
    exact ⟨options, .opens known⟩
  · rintro ⟨options, spelled⟩
    cases spelled with
    | opens known =>
        refine ⟨⟨options, ?_⟩, word, known, rfl⟩
        rintro rfl
        exact dashes_not_mem_names known

theorem given_concat :
    Given (line ++ [word]) o value
      ↔ Given line o value ∨ "--" ∉ line ∧ (WordKind.brings o value).Spells word
        ∨ Awaits line o ∧ word = value := by
  constructor
  · rintro ⟨name, known, gives⟩
    cases gives with
    | attached there options attaches =>
        rcases concat_prefix_iff.1 there with ⟨rfl, rfl⟩ | before
        · exact Or.inr (Or.inl ⟨options, .brings known attaches⟩)
        · exact Or.inl ⟨name, known, .attached before options attaches⟩
    | separate there options =>
        rw [List.append_cons] at there
        rcases concat_prefix_iff.1 there with ⟨rfl, rfl⟩ | before
        · refine Or.inr (Or.inr ⟨⟨?_, name, known, List.getLast?_concat⟩, rfl⟩)
          rw [List.mem_append, List.mem_singleton, not_or]
          refine ⟨options, ?_⟩
          rintro rfl
          exact dashes_not_mem_names known
        · rw [← List.append_cons] at before
          exact Or.inl ⟨name, known, .separate before options⟩
  · rintro (⟨name, known, gives⟩ | ⟨options, spelled⟩ | ⟨⟨options, name, known, last⟩, rfl⟩)
    · refine ⟨name, known, ?_⟩
      cases gives with
      | attached there options attaches =>
          exact .attached (there.trans (List.prefix_append _ _)) options attaches
      | separate there options => exact .separate (there.trans (List.prefix_append _ _)) options
    · cases spelled with
      | brings known attaches => exact ⟨_, known, .attached (List.prefix_refl _) options attaches⟩
    · obtain ⟨front, rfl⟩ := List.getLast?_eq_some_iff.1 last
      rw [List.mem_append, not_or] at options
      have there : front ++ [name, word] <+: front ++ [name] ++ [word] := by simp
      exact ⟨name, known, .separate there options.1⟩

theorem shows_concat {other : String} :
    Shows (line ++ [word]) other ↔ Shows line other ∨ "--" ∉ line ∧ word = other := by
  constructor
  · rintro ⟨front, there, options⟩
    rcases concat_prefix_iff.1 there with ⟨rfl, rfl⟩ | before
    · exact Or.inr ⟨options, rfl⟩
    · exact Or.inl ⟨front, before, options⟩
  · rintro (⟨front, there, options⟩ | ⟨options, rfl⟩)
    · exact ⟨front, there.trans (List.prefix_append _ _), options⟩
    · exact ⟨line, List.prefix_refl _, options⟩

theorem places_concat {other : String} :
    Places (line ++ [word]) other
      ↔ Places line other
        ∨ word = other ∧ ("--" ∈ line ∨ Loose word ∧ ∀ o, ¬ Awaits line o) := by
  constructor
  · rintro ⟨front, there, free⟩
    rcases concat_prefix_iff.1 there with ⟨rfl, rfl⟩ | before
    · refine Or.inr ⟨rfl, free.imp_right fun loose => ⟨loose.1, ?_⟩⟩
      rintro o ⟨-, name, known, last⟩
      exact loose.2 o name known last
    · exact Or.inl ⟨front, before, free⟩
  · rintro (⟨front, there, free⟩ | ⟨rfl, free⟩)
    · exact ⟨front, there.trans (List.prefix_append _ _), free⟩
    · refine ⟨line, List.prefix_refl _, ?_⟩
      by_cases options : "--" ∈ line
      · exact Or.inl options
      · obtain ⟨loose, none⟩ := free.resolve_left options
        exact Or.inr ⟨loose, fun o name known last => none o ⟨options, name, known, last⟩⟩

end Line

namespace Progress

variable {s t : Progress} {o : ValueOption} {w : WordKind} {line : List String}
  {name value word : String}

/-- The option waits for its value. -/
def Lacks (s : Progress) (o : ValueOption) : Prop := s.pending = some (.option o none)

/-- The option has the value, settled or not. -/
def Holds (s : Progress) (o : ValueOption) (value : String) : Prop :=
  s.values.lookup o = some value ∨ s.pending = some (.option o (some value))

/-- The schema, settled or not. -/
def named? (s : Progress) : Option String :=
  match s.pending with
  | some (.schema value) => some value
  | _ => s.schema

/-- What has been gathered agrees with the words that have been met.  An option that still lacks its
    value at `--` will never have one; until that is found out, `--` stands behind it. -/
structure Agrees (s : Progress) (line : List String) : Prop where
  plain : s.plain = true ↔ "--" ∈ line
  awaits : ∀ o, Awaits line o ↔ s.Lacks o ∧ s.plain = false
  given : ∀ o value,
    Given line o value ↔ s.Holds o value ∨ s.Lacks o ∧ s.plain = true ∧ value = "--"
  listing : s.printTypes = true ↔ Shows line "--print-types"
  schema : ∀ word, Places line word ↔ s.named? = some word
  new : s.schemaMet = false → s.named? = none

/-- What is settled is what was pending. -/
structure Settles (s t : Progress) : Prop where
  settled : t.pending = none
  complete : ∀ o, ¬ s.Lacks o
  values : ∀ o value, t.values.lookup o = some value ↔ s.Holds o value
  schema : t.schema = s.named?
  same : t.plain = s.plain ∧ t.printTypes = s.printTypes ∧ t.schemaMet = s.schemaMet

theorem take_ok (h : s.take o value = .ok t) :
    s.values.lookup o = none ∧ t = { s with values := (o, value) :: s.values } := by
  rw [take] at h
  split at h
  · cases h
  · next fresh =>
      split at h
      · cases h
      · cases h
        exact ⟨Option.not_isSome_iff_eq_none.1 fresh, rfl⟩

/-- A value that is taken is one more, next to those of other options. -/
theorem lookup_take (h : s.take o value = .ok t) (o' : ValueOption) (value' : String) :
    t.values.lookup o' = some value'
      ↔ s.values.lookup o' = some value' ∨ o' = o ∧ value' = value := by
  obtain ⟨fresh, rfl⟩ := take_ok h
  rw [List.lookup_cons]
  by_cases same : o' = o
  · subst same
    simp [fresh, eq_comm]
  · rw [beq_eq_false_iff_ne.2 same]
    simp [same]

theorem settle_ok (h : s.settle = .ok t) : s.Settles t := by
  rw [settle] at h
  split at h
  · next idle =>
      cases h
      exact ⟨idle, by simp [Lacks, idle], by simp [Holds, idle], by simp [named?, idle], rfl, rfl,
        rfl⟩
  · next value waits =>
      split at h
      · cases h
      · cases h
        exact ⟨rfl, by simp [Lacks, waits], by simp [Holds, waits], by simp [named?, waits], rfl,
          rfl, rfl⟩
  · cases h
  · next o value waits =>
      have taken := lookup_take h
      obtain ⟨-, rfl⟩ := take_ok h
      refine ⟨rfl, by simp [Lacks, waits], ?_, by simp [named?, waits], rfl, rfl, rfl⟩
      intro o' value'
      rw [taken, Holds, waits]
      simp [eq_comm]

section Idle

variable (idle : s.pending = none)

include idle

theorem not_lacks_of_idle (o : ValueOption) : ¬ s.Lacks o := by
  simp [Lacks, idle]

theorem holds_of_idle (o : ValueOption) (value : String) :
    s.Holds o value ↔ s.values.lookup o = some value := by
  simp [Holds, idle]

theorem named?_of_idle : s.named? = s.schema := by
  rw [named?, idle]

end Idle

theorem Agrees.settle (h : s.Agrees line) (settled : s.settle = .ok t) :
    t.Agrees line ∧ t.pending = none := by
  obtain ⟨idle, complete, values, schema, plain, printTypes, schemaMet⟩ := settle_ok settled
  refine ⟨⟨?_, ?_, ?_, ?_, ?_, ?_⟩, idle⟩
  · rw [plain]
    exact h.plain
  · intro o
    simp [h.awaits, complete, not_lacks_of_idle idle]
  · intro o value
    simp [h.given, complete, not_lacks_of_idle idle, holds_of_idle idle, values]
  · rw [printTypes]
    exact h.listing
  · intro word
    rw [h.schema, named?_of_idle idle, schema]
  · intro new
    rw [named?_of_idle idle, schema]
    exact h.new (schemaMet ▸ new)

theorem Agrees.options (h : s.Agrees line) (inFront : s.plain = false) : "--" ∉ line := by
  rw [← h.plain, inFront]
  exact Bool.false_ne_true

theorem dashes_iff : "--" = word ↔ WordKind.dashes.Spells word := by
  constructor
  · rintro rfl
    exact .dashes
  · intro spelled
    cases spelled
    rfl

theorem listing_iff : word = "--print-types" ↔ WordKind.listing.Spells word := by
  constructor
  · rintro rfl
    exact .listing
  · intro spelled
    cases spelled
    rfl

theorem loose_iff : Loose word ↔ WordKind.loose.Spells word := by
  constructor
  · exact .loose
  · intro spelled
    cases spelled with
    | loose loose => exact loose

theorem Agrees.after_dashes (h : s.Agrees line) (inFront : s.plain = false) :
    Agrees { s with plain := true } (line ++ ["--"]) := by
  have options := h.options inFront
  have spelled := spells_iff WordKind.Spells.dashes
  constructor
  · simp
  · intro o
    simp [awaits_concat, spelled]
  · intro o value
    simp [given_concat, spelled, h.given, h.awaits, inFront, Holds, Lacks, eq_comm]
  · simp [shows_concat, h.listing]
  · intro word
    simp [places_concat, loose_iff, options, spelled, h.schema, named?]
  · exact h.new

theorem Agrees.after_opens (h : s.Agrees line) (idle : s.pending = none) (inFront : s.plain = false)
    (known : name ∈ o.names) :
    Agrees { s with pending := some (.option o none) } (line ++ [name]) := by
  have options := h.options inFront
  have spelled := spells_iff (WordKind.Spells.opens known)
  constructor
  · simp [dashes_iff, spelled, h.plain]
  · intro o
    simp [awaits_concat, spelled, Lacks, options, inFront, eq_comm]
  · intro o value
    simp [given_concat, spelled, h.given, h.awaits, inFront, Lacks, Holds, idle]
  · simp [shows_concat, h.listing, listing_iff, spelled]
  · intro word
    simp [places_concat, loose_iff, spelled, h.schema, named?, idle, options]
  · intro new
    have unnamed := h.new new
    rw [named?_of_idle idle] at unnamed
    exact unnamed

theorem Agrees.after_brings (h : s.Agrees line) (idle : s.pending = none)
    (inFront : s.plain = false) (known : name ∈ o.names) (attaches : Attaches name value word)
    (taken : s.take o value = .ok t) : t.Agrees (line ++ [word]) := by
  have options := h.options inFront
  have spelled := spells_iff (WordKind.Spells.brings known attaches)
  have values := lookup_take taken
  obtain ⟨-, rfl⟩ := take_ok taken
  constructor
  · simp [dashes_iff, spelled, h.plain]
  · intro o
    simp [awaits_concat, spelled, Lacks, idle]
  · intro o value
    simp [given_concat, spelled, h.given, h.awaits, inFront, Lacks, Holds, idle, options, values]
  · simp [shows_concat, h.listing, listing_iff, spelled]
  · intro word
    simp [places_concat, loose_iff, spelled, h.schema, named?, idle, options]
  · exact h.new

theorem Agrees.after_listing (h : s.Agrees line) (idle : s.pending = none)
    (inFront : s.plain = false) :
    Agrees { s with printTypes := true } (line ++ ["--print-types"]) := by
  have options := h.options inFront
  have spelled := spells_iff WordKind.Spells.listing
  constructor
  · simp [h.plain]
  · intro o
    simp [awaits_concat, spelled, Lacks, idle]
  · intro o value
    simp [given_concat, spelled, h.given, h.awaits, inFront, Lacks, Holds, idle]
  · simp [shows_concat, options]
  · intro word
    simp [places_concat, loose_iff, spelled, h.schema, named?, idle, options]
  · exact h.new

theorem Agrees.after_answer (h : s.Agrees line) (lacks : s.Lacks o) (inFront : s.plain = false)
    (loose : Loose word) :
    Agrees { s with pending := some (.option o (some word)) } (line ++ [word]) := by
  have options := h.options inFront
  have spelled := spells_iff (WordKind.Spells.loose loose)
  rw [Lacks] at lacks
  constructor
  · simp [dashes_iff, spelled, h.plain]
  · intro o
    simp [awaits_concat, spelled, Lacks]
  · intro o value
    simp [given_concat, spelled, h.given, h.awaits, inFront, Lacks, Holds, lacks]
  · simp [shows_concat, h.listing, listing_iff, spelled]
  · intro word
    have waits : ¬ ∀ o, ¬ Awaits line o := fun none => none o ((h.awaits o).2 ⟨lacks, inFront⟩)
    simp [places_concat, options, waits, h.schema, named?, lacks]
  · intro new
    have unnamed := h.new new
    rw [named?, lacks] at unnamed
    exact unnamed

theorem Agrees.after_plain (h : s.Agrees line) (idle : s.pending = none) (new : s.schemaMet = false)
    (free : "--" ∈ line ∨ Loose word) :
    Agrees { s with pending := some (.schema word), schemaMet := true } (line ++ [word]) := by
  have loose : "--" ∉ line → ∀ w' : WordKind, w'.Spells word ↔ w' = .loose := fun options w' =>
    spells_iff (.loose (free.resolve_left options)) w'
  have unnamed := h.new new
  rw [named?_of_idle idle] at unnamed
  constructor
  · by_cases options : "--" ∈ line
    · simp [h.plain, options]
    · simp [dashes_iff, loose options, h.plain]
  · intro o
    by_cases options : "--" ∈ line
    · simp [awaits_concat, options, Lacks]
    · simp [awaits_concat, loose options, Lacks]
  · intro o value
    by_cases options : "--" ∈ line
    · simp [given_concat, options, h.given, h.awaits, Lacks, Holds, idle]
    · simp [given_concat, loose options, h.given, h.awaits, Lacks, Holds, idle]
  · by_cases options : "--" ∈ line
    · simp [shows_concat, options, h.listing]
    · simp [shows_concat, listing_iff, loose options, h.listing]
  · intro other
    have settled : ∀ o, ¬ Awaits line o := by simp [h.awaits, Lacks, idle]
    simp [places_concat, free, settled, h.schema, named?, idle, unnamed]
  · nofun

theorem Agrees.meetPlain (h : s.Agrees line) (free : "--" ∈ line ∨ Loose word)
    (met : s.meetPlain word = .ok t) : t.Agrees (line ++ [word]) := by
  rw [Progress.meetPlain] at met
  split at met
  · cases met
  · next new =>
      obtain ⟨r, settled, placed⟩ := bind_eq_ok.1 met
      cases placed
      obtain ⟨agrees, idle⟩ := h.settle settled
      refine agrees.after_plain idle ?_ free
      rw [(settle_ok settled).same.2.2]
      exact Bool.eq_false_iff.2 new

/-- Each word that is not refused keeps what has been gathered in agreement with the words. -/
theorem agrees_meet (h : s.Agrees line) (met : s.meet word = .ok t) :
    t.Agrees (line ++ [word]) := by
  cases options : s.plain with
  | true =>
      rw [meet, options, if_pos rfl] at met
      exact h.meetPlain (Or.inl (h.plain.1 options)) met
  | false =>
      obtain ⟨w, spelled⟩ := spelled_of_meet options met
      rw [meet_eq options spelled] at met
      cases spelled with
      | dashes =>
          cases met
          exact h.after_dashes options
      | opens known =>
          obtain ⟨r, settled, opened⟩ := bind_eq_ok.1 met
          cases opened
          obtain ⟨agrees, idle⟩ := h.settle settled
          exact agrees.after_opens idle ((settle_ok settled).same.1.trans options) known
      | brings known attaches =>
          obtain ⟨r, settled, taken⟩ := bind_eq_ok.1 met
          obtain ⟨agrees, idle⟩ := h.settle settled
          exact agrees.after_brings idle ((settle_ok settled).same.1.trans options) known attaches
            taken
      | listing =>
          rw [act] at met
          obtain ⟨-, r, settled, rfl⟩ := meetFlag_ok met
          obtain ⟨agrees, idle⟩ := h.settle settled
          exact agrees.after_listing idle ((settle_ok settled).same.1.trans options)
      | loose loose =>
          rw [act] at met
          split at met
          · next o lacks =>
              -- an option waits, so that the word is its value and not the schema
              cases met
              exact h.after_answer lacks options loose
          · exact h.meetPlain (Or.inr loose) met

theorem agrees_start : Agrees {} [] := by
  constructor
  · simp
  · intro o
    simp [Awaits, Lacks]
  · intro o value
    have none : ∀ name, ¬ Gives [] name value := by
      rintro name (⟨there, -, -⟩ | ⟨there, -⟩)
      · simp at there
      · simp at there
    simp [Given, none, Holds, Lacks]
  · simp [Shows]
  · simp [Places, named?]
  · exact fun _ => rfl

/-- When all is settled, the values are those that the line gives. -/
theorem Agrees.values (h : s.Agrees line) (idle : s.pending = none) (o : ValueOption)
    (value : String) : Given line o value ↔ s.values.lookup o = some value := by
  rw [h.given, holds_of_idle idle]
  simp [not_lacks_of_idle idle]

end Progress

/-! ## Lines -/

/-- What a command line asks for, word by word.  The path of the configuration may come from the
    environment, if it is not on the line. -/
structure Arguments.Asks (arguments : Arguments) (environment : Option String)
    (line : List String) : Prop where
  schema : ∀ word, Places line word ↔ arguments.schema = ⟨word⟩
  out : ∀ value, Gives line "--out" value ∨ Gives line "-o" value ↔ arguments.out = some ⟨value⟩
  config : ∀ value,
    Gives line "--config" value
        ∨ (∀ other, ¬ Gives line "--config" other) ∧ environment = some value
      ↔ arguments.config = some ⟨value⟩
  printTypes : Shows line "--print-types" ↔ arguments.printTypes = true
  package : ∀ value, Gives line "--package" value ↔ arguments.overrides.package = some value
  javaPackage : ∀ value,
    Gives line "--java-package" value ↔ arguments.overrides.javaPackage = some value
  jsNamespace : ∀ value,
    Gives line "--js-namespace" value ↔ arguments.overrides.jsNamespace = some value
  jspbImport : ∀ value,
    Gives line "--jspb-import" value ↔ arguments.overrides.jspbImport = some value
  messageIdPrefix : ∀ value,
    Gives line "--message-id-prefix" value ↔ arguments.overrides.messageIdPrefix = some value

/-- A line is read as what has been gathered at its end. -/
theorem parse_ok {environment : Option String} {line : List String} {arguments : Arguments}
    (h : Arguments.parse environment line = .ok arguments) :
    ∃ s : Progress, s.Agrees line ∧ s.pending = none ∧ s.schema = some arguments.schema.text
      ∧ arguments.out = (s.values.lookup .out).map Path.mk
      ∧ arguments.config = ((s.values.lookup .config).or environment).map Path.mk
      ∧ arguments.printTypes = s.printTypes
      ∧ arguments.overrides =
          { package := s.values.lookup .package
            javaPackage := s.values.lookup .javaPackage
            jsNamespace := s.values.lookup .jsNamespace
            jspbImport := s.values.lookup .jspbImport
            messageIdPrefix := s.values.lookup .messageIdPrefix } := by
  rw [Arguments.parse] at h
  obtain ⟨met, meeting, behind⟩ := bind_eq_ok.1 h
  obtain ⟨s, settling, ending⟩ := bind_eq_ok.1 behind
  have agrees := foldlM_ok (P := fun before s => Progress.Agrees s before) Progress.agrees_start
    Progress.agrees_meet meeting
  -- what was still pending is settled at the end of the line
  obtain ⟨agrees, idle⟩ := agrees.settle settling
  refine ⟨s, agrees, idle, ?_⟩
  clear h behind
  cases named : s.schema with
  | none =>
      simp only [named] at ending
      split at ending
      · cases ending
      · cases ending
      · cases ending
  | some schema =>
      simp only [named] at ending
      split at ending
      · next value _ given =>
          cases ending
          exact ⟨rfl, rfl, by rw [given]; rfl, rfl, rfl⟩
      · cases ending
      · next given _ =>
          cases ending
          exact ⟨rfl, rfl, by rw [given]; rfl, rfl, rfl⟩

/-- **A LINE ASKS FOR WHAT ITS WORDS SAY**: whatever line is not refused, what is read of it is what
    its words give, option by option. -/
theorem parse_asks {environment : Option String} {line : List String} {arguments : Arguments}
    (h : Arguments.parse environment line = .ok arguments) : arguments.Asks environment line := by
  obtain ⟨s, agrees, idle, schema, out, config, printTypes, overrides⟩ := parse_ok h
  have values := agrees.values idle
  have given : ∀ {o : ValueOption} {name : String}, o.names = [name] → ∀ value,
      Gives line name value ↔ s.values.lookup o = some value := by
    intro o name single value
    rw [← values, Given, single]
    simp
  constructor
  · intro word
    rw [agrees.schema, Progress.named?_of_idle idle, schema, Option.some_inj]
    exact ⟨fun same => congrArg Path.mk same, congrArg Path.text⟩
  · intro value
    have both : Gives line "--out" value ∨ Gives line "-o" value ↔ Given line .out value := by
      simp [Given, ValueOption.names]
    rw [both, values, out]
    simp
  · intro value
    simp only [given (o := .config) rfl]
    rw [config]
    cases s.values.lookup .config with
    | none => simp
    | some path => simp
  · rw [printTypes]
    exact agrees.listing.symm
  all_goals
    rw [overrides]
    exact given rfl

/-! ## Lines to ask with -/

/-- The value that is asked for, of an option that takes one. -/
def Arguments.value? (arguments : Arguments) : ValueOption → Option String
  | .out => arguments.out.map Path.text
  | .config => arguments.config.map Path.text
  | .package => arguments.overrides.package
  | .javaPackage => arguments.overrides.javaPackage
  | .jsNamespace => arguments.overrides.jsNamespace
  | .jspbImport => arguments.overrides.jspbImport
  | .messageIdPrefix => arguments.overrides.messageIdPrefix

/-- The words that give options their values. -/
def settings (value? : ValueOption → Option String) (options : List ValueOption) : List String :=
  options.filterMap fun o => (value? o).map fun value => "--" ++ o.long ++ "=" ++ value

/-- A line that asks for all of it. -/
def Arguments.line (arguments : Arguments) : List String :=
  settings arguments.value? ValueOption.all
    ++ (if arguments.printTypes then ["--print-types"] else []) ++ ["--", arguments.schema.text]

theorem meet_setting {values : List (ValueOption × String)} {o : ValueOption} {value : String}
    (fresh : values.lookup o = none) (path : o.isPath = true → value ≠ "") :
    Progress.meet { values } ("--" ++ o.long ++ "=" ++ value)
      = .ok { values := (o, value) :: values } := by
  rw [Progress.meet_brings rfl (ValueOption.mem_names.2 (Or.inl rfl)) (.equals _ _)]
  show Progress.take { values } o value = _
  rw [Progress.take, fresh, if_neg (by simp), if_neg (by simpa using path)]

/-- Options that are given one after another are all taken. -/
theorem foldlM_settings {value? : ValueOption → Option String} {options : List ValueOption}
    (paths : ∀ o : ValueOption, o.isPath = true → value? o ≠ some "") (distinct : options.Nodup)
    {values : List (ValueOption × String)} (fresh : ∀ o ∈ options, values.lookup o = none) :
    ∃ after, (settings value? options).foldlM Progress.meet { values } = .ok { values := after }
      ∧ ∀ o, after.lookup o = if o ∈ options then value? o else values.lookup o := by
  induction options generalizing values with
  | nil => exact ⟨values, rfl, by simp⟩
  | cons o options ih =>
      obtain ⟨new, distinct⟩ := List.nodup_cons.1 distinct
      cases given : value? o with
      | none =>
          obtain ⟨after, run, each⟩ := ih distinct fun o' later => fresh o' (.tail _ later)
          refine ⟨after, by simpa [settings, given] using run, fun o' => ?_⟩
          rw [each]
          by_cases same : o' = o
          · rw [same, if_neg new, if_pos (.head _), fresh o (.head _), given]
          · simp [same]
      | some value =>
          have one := meet_setting (fresh o (.head _)) fun path empty =>
            paths o path (given.trans (congrArg some empty))
          have lookups : ∀ o', List.lookup o' ((o, value) :: values)
              = if o' = o then some value else values.lookup o' := by
            intro o'
            rw [List.lookup_cons]
            by_cases same : o' = o
            · simp [same]
            · simp [same, beq_eq_false_iff_ne.2 same]
          have others : ∀ o' ∈ options, List.lookup o' ((o, value) :: values) = none := by
            intro o' later
            have other : o' ≠ o := by
              rintro rfl
              exact new later
            rw [lookups, if_neg other]
            exact fresh o' (.tail _ later)
          obtain ⟨after, run, each⟩ := ih distinct others
          refine ⟨after, ?_, fun o' => ?_⟩
          · rw [settings, List.filterMap_cons, given]
            show List.foldlM _ _ (_ :: _) = _
            rw [List.foldlM_cons, one]
            exact run
          · rw [each, lookups]
            by_cases same : o' = o
            · rw [same, if_neg new, if_pos rfl, if_pos (.head _), given]
            · simp [same]

/-- **WHATEVER CAN BE ASKED FOR HAS A LINE**: with no path empty, all of it is asked for by the line
    that spells it out. -/
theorem parse_line {environment : Option String} {arguments : Arguments}
    (schema : arguments.schema.text ≠ "")
    (paths : ∀ o : ValueOption, o.isPath = true → arguments.value? o ≠ some "")
    (aside : arguments.config = none → environment = none) :
    Arguments.parse environment arguments.line = .ok arguments := by
  have distinct : ValueOption.all.Nodup := by decide
  obtain ⟨values, run, each⟩ := foldlM_settings paths distinct fun o _ => List.lookup_nil
  have all : ∀ o, values.lookup o = arguments.value? o := by
    intro o
    have inside : o ∈ ValueOption.all := by cases o <;> decide
    rw [each, if_pos inside]
  have rest : ((if arguments.printTypes then ["--print-types"] else [])
      ++ ["--", arguments.schema.text]).foldlM Progress.meet { values }
        = .ok { values, printTypes := arguments.printTypes, plain := true, schemaMet := true,
                pending := some (.schema arguments.schema.text) } := by
    cases arguments.printTypes <;> rfl
  have met : arguments.line.foldlM Progress.meet {}
      = .ok { values, printTypes := arguments.printTypes, plain := true, schemaMet := true,
              pending := some (.schema arguments.schema.text) } := by
    rw [Arguments.line, List.append_assoc, List.foldlM_append]
    show (settings _ _).foldlM Progress.meet { values := [] } >>= _ = _
    rw [run]
    exact rest
  have settled : Progress.settle
      { values, printTypes := arguments.printTypes, plain := true, schemaMet := true,
        pending := some (.schema arguments.schema.text) }
      = .ok { values, printTypes := arguments.printTypes, plain := true, schemaMet := true,
              schema := some arguments.schema.text } := by
    rw [Progress.settle]
    exact if_neg (by simpa using schema)
  rw [Arguments.parse, met]
  show Progress.settle _ >>= _ = _
  rw [settled]
  simp only [bind, Except.bind, all, Arguments.value?]
  obtain ⟨schema, out, config, printTypes, overrides⟩ := arguments
  cases config with
  | none =>
      rw [aside rfl]
      cases out <;> rfl
  | some path => cases out <;> rfl

end Protograph.Cli
