import Protograph.Proofs.Proto.Reading
import Protograph.Proofs.Proto.Blocks

/-! # Reading back — what is written is what is read

    When all names are identifiers and each option is of one line, nothing
    that is written can be taken for something else.  A `Word` has no space in
    it, so the line of a field or of a value falls into the words it was made
    of (`cut_words`); a `Line` has no line end in it and is not empty, so a
    document falls into its lines (`cut_document`) and its body into the
    blocks (`splitOn_body`).  The options may hold spaces, quotes and
    semicolons: they are read between two texts that are known. -/

namespace Protograph

/-! ## Names and words -/

/-- A text that is one identifier. -/
def isName (text : String) : Bool :=
  match text.toList with
  | [] => false
  | c :: cs => Sdl.isNameStart c && cs.all Sdl.isNameRest

/-- A text with something in it, but no space and no line end. -/
structure Word (text : String) : Prop where
  filled : text ≠ ""
  unbroken : ' ' ∉ text.toList
  whole : '\n' ∉ text.toList

/-- A text with something in it, but no line end. -/
structure Line (text : String) : Prop where
  filled : text ≠ ""
  whole : '\n' ∉ text.toList

instance (text : String) : Decidable (Word text) :=
  decidable_of_iff (text ≠ "" ∧ ' ' ∉ text.toList ∧ '\n' ∉ text.toList)
    ⟨fun h => ⟨h.1, h.2.1, h.2.2⟩, fun h => ⟨h.filled, h.unbroken, h.whole⟩⟩

instance (text : String) : Decidable (Line text) :=
  decidable_of_iff (text ≠ "" ∧ '\n' ∉ text.toList)
    ⟨fun h => ⟨h.1, h.2⟩, fun h => ⟨h.filled, h.whole⟩⟩

theorem not_mem_of_isName {text : String} (h : isName text) {c : Char}
    (start : Sdl.isNameStart c = false) (rest : Sdl.isNameRest c = false) : c ∉ text.toList := by
  rw [isName] at h
  split at h
  · cases h
  · next d ds split =>
      rw [Bool.and_eq_true, List.all_eq_true] at h
      rw [split, List.mem_cons]
      rintro (rfl | inside)
      · rw [start] at h
        cases h.1
      · rw [h.2 c inside] at rest
        cases rest

theorem word_of_isName {text : String} (h : isName text) : Word text where
  filled := by
    rintro rfl
    cases h
  unbroken := not_mem_of_isName h (by decide) (by decide)
  whole := not_mem_of_isName h (by decide) (by decide)

theorem word_toString (n : Nat) : Word (toString n) := by
  have digit : ∀ c ∈ (toString n).toList, c.isDigit = true := by
    intro c inside
    rw [Nat.toString_eq_repr, Nat.toList_repr] at inside
    exact Nat.isDigit_of_mem_toDigits (by decide) (by decide) inside
  refine ⟨Nat.repr_ne_empty, ?_, ?_⟩
  · intro inside
    cases digit _ inside
  · intro inside
    cases digit _ inside

theorem not_mem_append {c : Char} {s t : String} :
    c ∉ (s ++ t).toList ↔ c ∉ s.toList ∧ c ∉ t.toList := by
  rw [String.toList_append, List.mem_append, not_or]

theorem Word.append {s t : String} (hs : Word s) (ht : Word t) : Word (s ++ t) where
  filled := by
    intro empty
    exact hs.filled (String.append_eq_empty_iff.1 empty).1
  unbroken := not_mem_append.2 ⟨hs.unbroken, ht.unbroken⟩
  whole := not_mem_append.2 ⟨hs.whole, ht.whole⟩

theorem Line.append {s t : String} (hs : '\n' ∉ s.toList) (ht : Line t) : Line (s ++ t) where
  filled := by
    intro empty
    exact ht.filled (String.append_eq_empty_iff.1 empty).2
  whole := not_mem_append.2 ⟨hs, ht.whole⟩

/-- The words of a line come back when it is cut at the spaces. -/
theorem cut_words {words : List String} (some_word : words ≠ []) (each : ∀ w ∈ words, Word w) :
    cut ' ' (" ".intercalate words) = words :=
  cut_intercalate rfl some_word fun w inside => (each w inside).unbroken

theorem line_words {words : List String} (some_word : words ≠ []) (each : ∀ w ∈ words, Word w) :
    Line (" ".intercalate words) := by
  induction words with
  | nil => exact absurd rfl some_word
  | cons w words ih =>
      obtain ⟨word, others⟩ := List.forall_mem_cons.1 each
      cases words with
      | nil =>
          rw [String.intercalate_singleton]
          exact ⟨word.filled, word.whole⟩
      | cons v words =>
          have rest : Line (" ".intercalate (v :: words)) := ih (List.cons_ne_nil v words) others
          rw [String.intercalate_cons_cons]
          exact Line.append (not_mem_append.2 ⟨word.whole, by decide⟩) rest

/-! ## Lines -/

/-- The words that give a name its number. -/
def numbering (name : String) (number : Nat) : List String := [name, "=", toString number ++ ";"]

theorem word_numbering {name : String} (h : Word name) (number : Nat) :
    ∀ w ∈ numbering name number, Word w := by
  have equals : Word "=" := by decide
  have semicolon : Word ";" := by decide
  simp only [numbering, List.forall_mem_cons]
  exact ⟨h, equals, (word_toString number).append semicolon, List.forall_mem_nil _⟩

/-- The words of the line of a field. -/
def MessageField.words (f : MessageField) (number : Nat) : List String :=
  if f.repeated then "repeated" :: f.base.token :: numbering f.name number
  else f.base.token :: numbering f.name number

theorem MessageField.line_eq (f : MessageField) (number : Nat) :
    f.line number = " ".intercalate (f.words number) := by
  rw [← String.toList_inj]
  cases many : f.repeated with
  | false => simp [MessageField.line, typeText, words, numbering, many]
  | true => simp [MessageField.line, typeText, words, numbering, many]

theorem valueLine_eq (value : String) (ordinal : Nat) :
    Block.valueLine value ordinal = " ".intercalate (numbering value ordinal) := by
  rw [← String.toList_inj]
  simp [Block.valueLine, numbering]

theorem opening_eq (name : String) :
    Block.opening name = " ".intercalate ["message", name, "\x7b"] := by
  rw [← String.toList_inj]
  simp [Block.opening]

/-- A field that is written in words. -/
structure MessageField.InWords (f : MessageField) : Prop where
  token : Word f.base.token
  name : Word f.name

theorem MessageField.InWords.words {f : MessageField} (h : f.InWords) (number : Nat) :
    f.words number ≠ [] ∧ ∀ w ∈ f.words number, Word w := by
  rw [MessageField.words]
  split
  · have repeated : Word "repeated" := by decide
    refine ⟨List.cons_ne_nil _ _, ?_⟩
    simp only [List.forall_mem_cons]
    exact ⟨repeated, h.token, word_numbering h.name number⟩
  · refine ⟨List.cons_ne_nil _ _, ?_⟩
    simp only [List.forall_mem_cons]
    exact ⟨h.token, word_numbering h.name number⟩

/-- What is read of a field. -/
def MessageField.entry (f : MessageField) (number : Nat) : FieldEntry :=
  ⟨f.repeated, f.base.token, f.name, number⟩

/-- The line of a field gives the field back with its number. -/
theorem MessageField.InWords.ofLine?_line {f : MessageField} (h : f.InWords) (number : Nat) :
    FieldEntry.ofLine? (f.line number) = some (f.entry number) := by
  have cut_line : cut ' ' (f.line number) = f.words number := by
    rw [f.line_eq]
    exact cut_words (h.words number).1 (h.words number).2
  rw [FieldEntry.ofLine?, cut_line, MessageField.words, MessageField.entry]
  cases many : f.repeated with
  | false =>
      simp only [numbering, Bool.false_eq_true, if_false, lineNumber?_toString, Option.map_some]
  | true => simp only [numbering, if_true, lineNumber?_toString, Option.map_some]

theorem valueOfLine?_valueLine {value : String} (h : Word value) (ordinal : Nat) :
    valueOfLine? (Block.valueLine value ordinal) = some (value, ordinal) := by
  have cut_line : cut ' ' (Block.valueLine value ordinal) = numbering value ordinal := by
    rw [valueLine_eq]
    exact cut_words (List.cons_ne_nil _ _) (word_numbering h ordinal)
  rw [valueOfLine?, cut_line, numbering]
  simp only [lineNumber?_toString, Option.map_some]

/-! ## Blocks -/

/-- What is read of a block: its parts, numbered by their places. -/
def Block.entry : Block → Entry
  | .message name fields => .message name ((fields.zipIdx 1).map fun p => p.1.entry p.2)
  | .enumWrapper name values => .enumWrapper name values.zipIdx

/-- A block that is written in words. -/
inductive Block.InWords : Block → Prop where
  | message {name : String} {fields : List MessageField} (named : Word name)
      (each : ∀ f ∈ fields, f.InWords) : InWords (.message name fields)
  | enumWrapper {name : String} {values : List String} (named : Word name)
      (each : ∀ v ∈ values, Word v) : InWords (.enumWrapper name values)

theorem lines_message (name text : String) (fields : List MessageField) :
    (Block.message name fields).lines text = Block.opening name :: Block.idOption text name
      :: ((fields.zipIdx 1).map (fun p => p.1.line p.2) ++ ["\x7d"]) := rfl

theorem lines_enumWrapper (name text : String) (values : List String) :
    (Block.enumWrapper name values).lines text = Block.opening name
      :: (" " ++ Block.idOption text name) :: " enum Enum \x7b"
      :: (values.zipIdx.map (fun p => Block.valueLine p.1 p.2) ++ ["\x7d", "\x7d"]) := rfl

theorem mapM_map_eq_some {α β γ : Type} {write : α → β} {read : β → Option γ} {told : α → γ}
    {l : List α} (each : ∀ a ∈ l, read (write a) = some (told a)) :
    (l.map write).mapM read = some (l.map told) := by
  induction l with
  | nil => rfl
  | cons a l ih =>
      obtain ⟨first, others⟩ := List.forall_mem_cons.1 each
      rw [List.map_cons, List.mapM_cons, first, ih others]
      rfl

theorem between_opening (name : String) :
    between "message " " \x7b" (Block.opening name) = some name := by
  rw [between_eq_some_iff, Block.opening]

theorem idOption_eq (text name : String) : Block.idOption text name
    = "option (jspb.message_id) = \"" ++ text ++ "." ++ name ++ "\";" := rfl

theorem idPrefix?_idOption (indent text name : String) :
    idPrefix? indent name (indent ++ Block.idOption text name) = some text := by
  rw [idPrefix?, between_eq_some_iff, idOption_eq]
  simp only [String.append_assoc]

/-- An indented line is not the option of a message. -/
theorem idPrefix?_indented (name line : String) : idPrefix? "" name (" " ++ line) = none := by
  cases read : idPrefix? "" name (" " ++ line) with
  | none => rfl
  | some text =>
      rw [idPrefix?, between_eq_some_iff, ← String.toList_inj] at read
      simp at read

/-- The lines of a block give the block back, and the text in front of its name. -/
theorem Block.InWords.ofLines?_lines {b : Block} (h : b.InWords) (text : String) :
    Entry.ofLines? (b.lines text) = some (text, b.entry) := by
  cases h with
  | @message name fields named each =>
      have read : ((fields.zipIdx 1).map fun p => p.1.line p.2).mapM FieldEntry.ofLine?
          = some ((fields.zipIdx 1).map fun p => p.1.entry p.2) := by
        refine mapM_map_eq_some ?_
        intro p inside
        exact (each p.1 (List.fst_mem_of_mem_zipIdx inside)).ofLine?_line p.2
      have marked : idPrefix? "" name (Block.idOption text name) = some text := by
        have option := idPrefix?_idOption "" text name
        rwa [String.empty_append] at option
      rw [lines_message, Entry.ofLines?, between_opening]
      simp only [Option.bind_eq_bind, Option.bind_some, marked, List.dropLast_concat, read]
      rfl
  | @enumWrapper name values named each =>
      have read : (values.zipIdx.map fun p => Block.valueLine p.1 p.2).mapM valueOfLine?
          = some (values.zipIdx.map id) := by
        refine mapM_map_eq_some ?_
        intro p inside
        exact valueOfLine?_valueLine (each p.1 (List.fst_mem_of_mem_zipIdx inside)) p.2
      have ended : ∀ lines : List String,
          (lines ++ ["\x7d", "\x7d"]).dropLast.dropLast = lines := by
        intro lines
        rw [List.append_cons, List.dropLast_concat, List.dropLast_concat]
      rw [lines_enumWrapper, Entry.ofLines?, between_opening]
      simp only [Option.bind_eq_bind, Option.bind_some, idPrefix?_indented, idPrefix?_idOption,
        List.tail_cons, ended, read, List.map_id]
      rfl

example : Entry.ofLines? ((Block.message "message" [⟨true, .enum "repeated", "option"⟩]).lines "a b")
    = some ("a b", .message "message" [⟨true, "repeated.Enum", "option", 1⟩]) := by decide +kernel

theorem line_idOption {text name : String} (told : '\n' ∉ text.toList) (named : Word name) :
    Line (Block.idOption text name) := by
  rw [idOption_eq]
  refine Line.append ?_ (by decide)
  simp only [not_mem_append]
  exact ⟨⟨⟨by decide, told⟩, by decide⟩, named.whole⟩

/-- Every line of a block is a line. -/
theorem Block.InWords.line {b : Block} (h : b.InWords) {text : String}
    (told : '\n' ∉ text.toList) : ∀ l ∈ b.lines text, Line l := by
  have brace : Line "\x7d" := by decide
  have opening : ∀ {name : String}, Word name → Line (Block.opening name) := by
    intro name named
    have message : Word "message" := by decide
    have open_brace : Word "\x7b" := by decide
    rw [opening_eq]
    refine line_words (List.cons_ne_nil _ _) ?_
    simp only [List.forall_mem_cons]
    exact ⟨message, named, open_brace, List.forall_mem_nil _⟩
  cases h with
  | @message name fields named each =>
      simp only [lines_message, List.forall_mem_cons, List.forall_mem_append]
      refine ⟨opening named, line_idOption told named, ?_, brace, List.forall_mem_nil _⟩
      intro l inside
      obtain ⟨p, place, rfl⟩ := List.mem_map.1 inside
      have words := (each p.1 (List.fst_mem_of_mem_zipIdx place)).words p.2
      rw [MessageField.line_eq]
      exact line_words words.1 words.2
  | @enumWrapper name values named each =>
      have option : Line (" " ++ Block.idOption text name) :=
        Line.append (by decide) (line_idOption told named)
      simp only [lines_enumWrapper, List.forall_mem_cons, List.forall_mem_append]
      refine ⟨opening named, option, by decide, ?_, brace, brace,
        List.forall_mem_nil _⟩
      intro l inside
      obtain ⟨p, place, rfl⟩ := List.mem_map.1 inside
      rw [valueLine_eq]
      exact line_words (List.cons_ne_nil _ _)
        (word_numbering (each p.1 (List.fst_mem_of_mem_zipIdx place)) p.2)

/-! ## Documents -/

theorem forall_mem_intercalate {α : Type} {P : α → Prop} {separator : List α} {l : List (List α)}
    (apart : ∀ a ∈ separator, P a) (each : ∀ b ∈ l, ∀ a ∈ b, P a) :
    ∀ a ∈ separator.intercalate l, P a := by
  induction l with
  | nil => exact List.forall_mem_nil P
  | cons b l ih =>
      obtain ⟨first, others⟩ := List.forall_mem_cons.1 each
      cases l with
      | nil =>
          rw [List.intercalate_singleton]
          exact first
      | cons b' l =>
          rw [List.intercalate_cons_cons, List.forall_mem_append, List.forall_mem_append]
          exact ⟨⟨first, apart⟩, ih others⟩

theorem intercalate_ne_nil {α : Type} {separator b : List α} {l : List (List α)} (filled : b ≠ []) :
    separator.intercalate (b :: l) ≠ [] := by
  cases l with
  | nil =>
      rw [List.intercalate_singleton]
      exact filled
  | cons b' l =>
      rw [List.intercalate_cons_cons, List.append_assoc]
      exact List.append_ne_nil_of_left_ne_nil filled _

/-- Lines in front of others, each ended by a line end. -/
theorem intercalate_append {l m : List String} (some_line : m ≠ []) :
    "\n".intercalate (l ++ m) = String.join (l.map (· ++ "\n")) ++ "\n".intercalate m := by
  induction l with
  | nil => rw [List.nil_append, List.map_nil, String.join_nil, String.empty_append]
  | cons line l ih =>
      have more : l ++ m ≠ [] := List.append_ne_nil_of_right_ne_nil l some_line
      rw [List.cons_append, String.intercalate_cons_of_ne_nil more, ih, List.map_cons,
        String.join_cons, ← String.append_assoc]

/-- Blocks with an empty line between them are lines with a line end between them. -/
theorem intercalate_blocks {blocks : List (List String)} (filled : ∀ b ∈ blocks, b ≠ []) :
    "\n\n".intercalate (blocks.map ("\n".intercalate ·))
      = "\n".intercalate ([""].intercalate blocks) := by
  induction blocks with
  | nil => rfl
  | cons b blocks ih =>
      obtain ⟨first, others⟩ := List.forall_mem_cons.1 filled
      cases blocks with
      | nil => rw [List.map_singleton, String.intercalate_singleton, List.intercalate_singleton]
      | cons b' blocks =>
          have rest : [""].intercalate (b' :: blocks) ≠ [] :=
            intercalate_ne_nil (others b' List.mem_cons_self)
          have ends : "\n\n" = "\n" ++ "" ++ "\n" := by decide
          rw [List.map_cons, List.map_cons, String.intercalate_cons_cons, ← List.map_cons,
            ih others, List.intercalate_cons_cons, List.append_assoc, List.singleton_append,
            String.intercalate_append_of_ne_nil first (List.cons_ne_nil _ _),
            String.intercalate_cons_of_ne_nil rest, ends]
          simp only [String.append_assoc]

theorem Block.lines_ne_nil (b : Block) (text : String) : b.lines text ≠ [] := by
  cases b with
  | message name fields => exact List.cons_ne_nil _ _
  | enumWrapper name values => exact List.cons_ne_nil _ _

/-- The lines of a document. -/
def Options.lines (o : Options) (blocks : List Block) : List String :=
  o.headerLines ++ [""].intercalate (blocks.map (Block.lines o.messageIdPrefix))

theorem Options.document_eq (o : Options) {blocks : List Block} (some_block : blocks ≠ []) :
    o.document blocks = "\n".intercalate (o.lines blocks) := by
  have filled : ∀ b ∈ blocks.map (Block.lines o.messageIdPrefix), b ≠ [] := by
    intro lines inside
    obtain ⟨b, _, rfl⟩ := List.mem_map.1 inside
    exact b.lines_ne_nil o.messageIdPrefix
  have some_line : [""].intercalate (blocks.map (Block.lines o.messageIdPrefix)) ≠ [] := by
    obtain ⟨b, others, rfl⟩ := List.exists_cons_of_ne_nil some_block
    exact intercalate_ne_nil (b.lines_ne_nil o.messageIdPrefix)
  have rendered : blocks.map (Block.render o.messageIdPrefix)
      = (blocks.map (Block.lines o.messageIdPrefix)).map ("\n".intercalate ·) := by
    rw [List.map_map]
    rfl
  rw [Options.lines, intercalate_append some_line, ← intercalate_blocks filled, ← rendered]
  rfl

/-- Options of one line each. -/
structure Options.OneLine (o : Options) : Prop where
  package : '\n' ∉ o.package.toList
  javaPackage : '\n' ∉ o.javaPackage.toList
  jsNamespace : '\n' ∉ o.jsNamespace.toList
  jspbImport : '\n' ∉ o.jspbImport.toList
  messageIdPrefix : '\n' ∉ o.messageIdPrefix.toList

theorem Options.OneLine.headerLines {o : Options} (h : o.OneLine) :
    ∀ line ∈ o.headerLines, '\n' ∉ line.toList := by
  rw [Options.headerLines]
  simp only [List.forall_mem_cons, not_mem_append]
  exact ⟨by decide, by decide, by decide, by decide, ⟨⟨by decide, h.package⟩, by decide⟩,
    by decide, ⟨⟨by decide, h.javaPackage⟩, by decide⟩, ⟨⟨by decide, h.jsNamespace⟩, by decide⟩,
    ⟨⟨by decide, h.jspbImport⟩, by decide⟩, by decide, List.forall_mem_nil _⟩

/-- A document falls into its lines. -/
theorem cut_document {o : Options} (oneLine : o.OneLine) {blocks : List Block}
    (some_block : blocks ≠ []) (each : ∀ b ∈ blocks, b.InWords) :
    cut '\n' (o.document blocks) = o.lines blocks := by
  have body : ∀ line ∈ [""].intercalate (blocks.map (Block.lines o.messageIdPrefix)),
      '\n' ∉ line.toList := by
    refine forall_mem_intercalate (by decide) ?_
    intro lines inside line member
    obtain ⟨b, there, rfl⟩ := List.mem_map.1 inside
    exact ((each b there).line oneLine.messageIdPrefix line member).whole
  rw [o.document_eq some_block]
  refine cut_intercalate rfl (List.cons_ne_nil _ _) ?_
  exact List.forall_mem_append.2 ⟨oneLine.headerLines, body⟩

/-- The body of a document falls into its blocks. -/
theorem splitOn_body {text : String} (told : '\n' ∉ text.toList) {blocks : List Block}
    (some_block : blocks ≠ []) (each : ∀ b ∈ blocks, b.InWords) :
    ([""].intercalate (blocks.map (Block.lines text))).splitOn ""
      = blocks.map (Block.lines text) := by
  refine List.splitOn_intercalate "" ?_ ?_
  · intro lines inside empty
    obtain ⟨b, there, rfl⟩ := List.mem_map.1 inside
    exact ((each b there).line told "" empty).filled rfl
  · intro empty
    exact some_block (List.map_eq_nil_iff.1 empty)

/-- A document gives back its options and what its blocks tell. -/
theorem ofString?_document {o : Options} (oneLine : o.OneLine) {blocks : List Block}
    (some_block : blocks ≠ []) (each : ∀ b ∈ blocks, b.InWords) :
    Reading.ofString? (o.document blocks) = some ⟨o, blocks.map Block.entry⟩ := by
  have read : (blocks.map (Block.lines o.messageIdPrefix)).mapM Entry.ofLines?
      = some (blocks.map fun b => (o.messageIdPrefix, b.entry)) :=
    mapM_map_eq_some fun b there => (each b there).ofLines?_lines o.messageIdPrefix
  have quoted : ∀ front back inner : String,
      between front back (front ++ inner ++ back) = some inner :=
    fun _ _ _ => between_eq_some_iff.2 rfl
  rw [Reading.ofString?, cut_document oneLine some_block each, Options.lines, Options.headerLines]
  simp only [List.cons_append, List.nil_append, Option.bind_eq_bind, Option.bind_some,
    splitOn_body oneLine.messageIdPrefix some_block each, read, quoted]
  obtain ⟨b, others, rfl⟩ := List.exists_cons_of_ne_nil some_block
  simp only [List.map_cons, List.head?_cons, Option.bind_some, List.map_map]
  rfl

/-! ## Schemas -/

/-- The names of the fields or of the values of a type. -/
def TypeNode.members : TypeNode → List String
  | .object o => o.fields.map Field.name
  | .enum e => e.values
  | _ => []

namespace Graph

variable {g : Graph} {id : TypeId}

/-- All types, fields and values have names for names. -/
def WellNamed (g : Graph) : Prop :=
  ∀ node ∈ g.types.toList, isName node.name ∧ ∀ m ∈ node.members, isName m

instance (g : Graph) : Decidable g.WellNamed := inferInstanceAs (Decidable (∀ _ ∈ _, _ ∧ _))

/-- What is read of a field of an object, apart from its number. -/
structure FieldRead (g : Graph) (field : Field TypeId) (entry : FieldEntry) : Prop where
  flat : field.type.listDepth ≤ 1
  repeated : entry.repeated = (field.type.listDepth == 1)
  token : ∃ base, g.Denotes field.type.target base ∧ entry.token = base.token
  name : entry.name = field.name

/-- What is read of the type at an id: for an object its fields in their order,
    numbered from one, and for an enum its values, numbered from zero. -/
inductive EntryOf (g : Graph) (id : TypeId) : Entry → Prop where
  | message {o : ObjectType} {fields : List FieldEntry} (there : g.get? id = some (.object o))
      (each : List.Forall₂ g.FieldRead o.fields fields)
      (numbers : fields.map FieldEntry.number = List.range' 1 o.fields.length) :
      EntryOf g id (.message o.name fields)
  | enumWrapper {e : EnumType} {values : List (String × Nat)}
      (there : g.get? id = some (.enum e)) (names : values.map Prod.fst = e.values)
      (ordinals : values.map Prod.snd = List.range e.values.length) :
      EntryOf g id (.enumWrapper e.name values)

theorem fieldsRead_of_fieldsOf {fields : List (Field TypeId)} {lines : List MessageField}
    (h : List.Forall₂ g.FieldOf fields lines) (start : Nat) :
    List.Forall₂ g.FieldRead fields ((lines.zipIdx start).map fun p => p.1.entry p.2) := by
  induction h generalizing start with
  | nil => exact .nil
  | @cons field line fields lines first rest ih =>
      exact .cons ⟨first.flat, first.repeated, ⟨line.base, first.base, rfl⟩, first.name⟩
        (ih (start + 1))

/-- The entry of a block is what is read of the block's type. -/
theorem entryOf_of_blockOf {block : Block} (h : g.BlockOf id block) : g.EntryOf id block.entry := by
  cases h with
  | @message o lines there fields =>
      refine .message there (fieldsRead_of_fieldsOf fields 1) ?_
      rw [List.map_map, fields.length_eq]
      exact List.zipIdx_map_snd 1 lines
  | @enumWrapper e there =>
      refine .enumWrapper there (List.zipIdx_map_fst 0 e.values) ?_
      rw [List.zipIdx_map_snd, List.range_eq_range']

/-! ## Names in a document -/

theorem WellNamed.node {node : TypeNode} (h : g.WellNamed) (there : g.get? id = some node) :
    Word node.name ∧ ∀ m ∈ node.members, Word m := by
  have inside : node ∈ g.types.toList := Array.mem_toList_iff.2 (Array.mem_of_getElem? there)
  obtain ⟨name, members⟩ := h node inside
  exact ⟨word_of_isName name, fun m member => word_of_isName (members m member)⟩

/-- A reference to a type is a word. -/
theorem WellNamed.token {base : BaseType} (h : g.WellNamed) (denotes : g.Denotes id base) :
    Word base.token := by
  cases denotes with
  | @primitive kind p there mapped =>
      cases p <;> decide
  | message there => exact (h.node there).1
  | enum there =>
      have ending : Word ".Enum" := by decide
      exact (h.node there).1.append ending

theorem WellNamed.inWords {block : Block} (h : g.WellNamed) (stands : g.BlockOf id block) :
    block.InWords := by
  cases stands with
  | @message o lines there fields =>
      refine .message (h.node there).1 ?_
      intro line inside
      obtain ⟨k, at_k⟩ := List.mem_iff_getElem?.1 inside
      obtain ⟨field, at_field, fieldOf⟩ := forall₂_getElem? fields.flip at_k
      have named : line.name ∈ o.fields.map Field.name := by
        rw [fieldOf.name]
        exact List.mem_map_of_mem (List.mem_of_getElem? at_field)
      exact ⟨h.token fieldOf.base, (h.node there).2 line.name named⟩
  | @enumWrapper e there => exact .enumWrapper (h.node there).1 (h.node there).2

/-- The blocks of a document that is written: there is one at least, and all are in words. -/
theorem inWords_of_translate (built : g.Built) (named : g.WellNamed) {o : Options} {text : String}
    (done : (g.translate o).result = .ok text) :
    ∃ ids blocks, g.emissionList = .ok ids ∧ (g.blocks ids).result = .ok blocks
      ∧ List.Forall₂ g.BlockOf ids blocks ∧ blocks ≠ []
      ∧ (∀ block ∈ blocks, block.InWords) ∧ text = o.document blocks := by
  obtain ⟨ids, blocks, walked, emission, made, written⟩ := emission_of_translate built done
  have stand := blocksOf_of_blocks made
  refine ⟨ids, blocks, walked, made, stand, ?_, ?_, written⟩
  · rintro rfl
    obtain ⟨root, there⟩ := built.root_object
    have first := emission.head (Or.inl ⟨root, there⟩)
    cases stand
    cases first
  · intro block inside
    obtain ⟨k, at_k⟩ := List.mem_iff_getElem?.1 inside
    obtain ⟨id, _, stands⟩ := forall₂_getElem? stand.flip at_k
    exact named.inWords stands

/-- A document that is written is read as its options and the types it was made for. -/
theorem ofString?_of_translate (built : g.Built) (named : g.WellNamed) {o : Options}
    (oneLine : o.OneLine) {text : String} (done : (g.translate o).result = .ok text) :
    ∃ ids entries, g.emissionList = .ok ids ∧ List.Forall₂ g.EntryOf ids entries
      ∧ Reading.ofString? text = some ⟨o, entries⟩ := by
  obtain ⟨ids, blocks, walked, -, stand, some_block, each, rfl⟩ :=
    inWords_of_translate built named done
  refine ⟨ids, blocks.map Block.entry, walked, ?_, ofString?_document oneLine some_block each⟩
  rw [List.forall₂_map_right_iff]
  exact stand.imp fun _ _ stands => entryOf_of_blockOf stands

/-- **DOCUMENTS ARE LEGIBLE**: one reader, which knows neither the schema nor the
    options, gets from the text of a document its options and, in their order,
    the kind, the name and the numbered parts of its blocks.  So whatever else
    has the same document has the same options and tells the same. -/
theorem translate_legible (built : g.Built) (named : g.WellNamed) {o : Options}
    (oneLine : o.OneLine) {text : String} (done : (g.translate o).result = .ok text) :
    ∃ ids entries, g.emissionList = .ok ids ∧ List.Forall₂ g.EntryOf ids entries
      ∧ Reading.ofString? text = some ⟨o, entries⟩
      ∧ ∀ (g' : Graph) (o' : Options), g'.Built → g'.WellNamed → o'.OneLine →
          (g'.translate o').result = .ok text →
          o' = o ∧ ∃ ids', g'.emissionList = .ok ids' ∧ List.Forall₂ g'.EntryOf ids' entries := by
  obtain ⟨ids, entries, walked, told, read⟩ := ofString?_of_translate built named oneLine done
  refine ⟨ids, entries, walked, told, read, ?_⟩
  intro g' o' built' named' oneLine' done'
  obtain ⟨ids', entries', walked', told', read'⟩ :=
    ofString?_of_translate built' named' oneLine' done'
  rw [read] at read'
  cases read'
  exact ⟨rfl, ids', walked', told'⟩

/-- What the document of `awkward` tells. -/
def awkwardEntries : List Entry :=
  [ .message "message" [⟨true, "repeated", "repeated", 1⟩, ⟨false, "option.Enum", "option", 2⟩],
    .message "repeated" [⟨true, "option.Enum", "message", 1⟩, ⟨false, "enum", "import", 2⟩,
      ⟨false, "syntax.Enum", "enum", 3⟩, ⟨true, "string", "package", 4⟩,
      ⟨false, "message", "back", 5⟩],
    .enumWrapper "option" [("enum", 0), ("message", 1)], .message "enum" [],
    .enumWrapper "syntax" [] ]

theorem awkward_legible :
    awkward.Built ∧ awkward.WellNamed ∧ Options.OneLine {} ∧
    ∃ text, (awkward.translate {}).result = .ok text ∧ awkward.emissionList = .ok [0, 1, 2, 3, 4]
      ∧ List.Forall₂ awkward.EntryOf [0, 1, 2, 3, 4] awkwardEntries
      ∧ Reading.ofString? text = some ⟨{}, awkwardEntries⟩
      ∧ ∀ (g' : Graph) (o' : Options), g'.Built → g'.WellNamed → o'.OneLine →
          (g'.translate o').result = .ok text → o' = {} ∧
            ∃ ids', g'.emissionList = .ok ids' ∧ List.Forall₂ g'.EntryOf ids' awkwardEntries := by
  have named : awkward.WellNamed := by decide +kernel
  have oneLine : Options.OneLine {} := ⟨by decide, by decide, by decide, by decide, by decide⟩
  obtain ⟨text, done⟩ := awkward_translates
  obtain ⟨ids, entries, walked, told, read, others⟩ :=
    translate_legible awkward_built named oneLine done
  obtain ⟨_, blocks, walked', made, -, some_block, each, rfl⟩ :=
    inWords_of_translate awkward_built named done
  have list : awkward.emissionList = .ok [0, 1, 2, 3, 4] := by decide +kernel
  have told_of_blocks : (awkward.blocks [0, 1, 2, 3, 4]).result.map (·.map Block.entry)
      = .ok awkwardEntries := by decide +kernel
  rw [list] at walked walked'
  cases walked
  cases walked'
  rw [made] at told_of_blocks
  have whole : Reading.ofString? (Options.document {} blocks) = some ⟨{}, awkwardEntries⟩ := by
    rw [← Except.ok.inj told_of_blocks]
    exact ofString?_document oneLine some_block each
  rw [whole] at read
  cases read
  exact ⟨awkward_built, named, oneLine, _, done, list, told, whole, others⟩

end Graph

end Protograph
