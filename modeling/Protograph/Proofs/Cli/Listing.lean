import Protograph.Proofs.Cli.Delivery
import Protograph.Proofs.Proto.References
import Protograph.Proofs.Sdl.Names

/-! # Listing — the names that are printed head the blocks of the document

    The listing of a schema and its document come from the emission list by
    different ways: names are looked up and written a line each, blocks are
    made and written as text.

    A line of a document that begins with `message` and ends with an opening
    brace is a heading.  Only the first line of a block is one: lines of the
    header, of options, fields and values end with a semicolon or begin
    otherwise, whatever the names in them are (`headings_lines`).  So the
    headings of a document name its blocks in order (`headings_document`),
    and those are the types whose names are listed. -/

namespace Protograph

/-! ## Headings -/

/-- The name that a line is the heading of. -/
def heading? (line : String) : Option String := between "message " " \x7b" line

/-- The names in the headings of a text, in order. -/
def headings (text : String) : List String := (cut '\n' text).filterMap heading?

/-- A line that begins otherwise is no heading. -/
theorem heading?_of_first {s t : String} {c : Char} (first : s.toList.head? = some c)
    (other : c ≠ 'm') : heading? (s ++ t) = none := by
  cases read : heading? (s ++ t) with
  | none => rfl
  | some name =>
      have same : ("message " ++ name ++ " \x7b").toList.head? = some c := by
        rw [between_eq_some_iff.1 read, String.toList_append, List.head?_append, first]
        rfl
      rw [String.append_assoc, String.toList_append, List.head?_append] at same
      exact absurd (Option.some.inj same).symm other

/-- A line that ends otherwise is no heading. -/
theorem heading?_of_last {s t : String} {c : Char} (last : t.toList.getLast? = some c)
    (other : c ≠ '\x7b') : heading? (s ++ t) = none := by
  cases read : heading? (s ++ t) with
  | none => rfl
  | some name =>
      have same : ("message " ++ name ++ " \x7b").toList.getLast? = some c := by
        rw [between_eq_some_iff.1 read, String.toList_append, List.getLast?_append, last]
        rfl
      rw [String.toList_append, List.getLast?_append] at same
      exact absurd (Option.some.inj same).symm other

theorem heading?_idOption (text name : String) : heading? (Block.idOption text name) = none :=
  heading?_of_last (c := ';') (by decide) (by decide)

theorem heading?_fieldLine (f : MessageField) (number : Nat) : heading? (f.line number) = none :=
  heading?_of_last (c := ';') (by decide) (by decide)

theorem heading?_valueLine (value : String) (ordinal : Nat) :
    heading? (Block.valueLine value ordinal) = none :=
  heading?_of_last (c := ';') (by decide) (by decide)

theorem headings_map {α : Type} {write : α → String} (silent : ∀ a, heading? (write a) = none)
    (l : List α) : (l.map write).filterMap heading? = [] :=
  List.filterMap_eq_nil_iff.2 (List.forall_mem_map.2 fun a _ => silent a)

/-- Only the first line of a block is a heading. -/
theorem headings_lines (b : Block) (text : String) :
    (b.lines text).filterMap heading? = [b.name] := by
  have opening : ∀ name, heading? (Block.opening name) = some name := between_opening
  have brace : heading? "\x7d" = none := by decide
  cases b with
  | message name fields =>
      have rows : ((fields.zipIdx 1).map fun p => p.1.line p.2).filterMap heading? = [] := by
        refine headings_map ?_ _
        intro p
        exact heading?_fieldLine p.1 p.2
      rw [lines_message, List.filterMap_cons_some (opening name),
        List.filterMap_cons_none (heading?_idOption text name), List.filterMap_append, rows,
        List.nil_append, List.filterMap_cons_none brace]
      rfl
  | enumWrapper name values =>
      have option : heading? (" " ++ Block.idOption text name) = none :=
        heading?_of_first (c := ' ') (by decide) (by decide)
      have enum : heading? " enum Enum \x7b" = none := by decide
      have rows : (values.zipIdx.map fun p => Block.valueLine p.1 p.2).filterMap heading? = [] := by
        refine headings_map ?_ _
        intro p
        exact heading?_valueLine p.1 p.2
      rw [lines_enumWrapper, List.filterMap_cons_some (opening name),
        List.filterMap_cons_none option, List.filterMap_cons_none enum, List.filterMap_append,
        rows, List.nil_append, List.filterMap_cons_none brace, List.filterMap_cons_none brace]
      rfl

theorem headings_headerLines (o : Options) : o.headerLines.filterMap heading? = [] := by
  have ended : ∀ front value : String, heading? (front ++ value ++ ";") = none :=
    fun front value => heading?_of_last (c := ';') (by decide) (by decide)
  have quoted : ∀ front value : String, heading? (front ++ value ++ "\";") = none :=
    fun front value => heading?_of_last (c := ';') (by decide) (by decide)
  refine List.filterMap_eq_nil_iff.2 ?_
  simp only [Options.headerLines, List.forall_mem_cons, ended, quoted]
  exact ⟨by decide, by decide, by decide, by decide, trivial, by decide, trivial, trivial, trivial,
    by decide, List.forall_mem_nil _⟩

theorem filterMap_intercalate {α β : Type} {f : α → Option β} {separator : List α}
    (silent : separator.filterMap f = []) (l : List (List α)) :
    (separator.intercalate l).filterMap f = l.flatMap (List.filterMap f) := by
  induction l with
  | nil => rfl
  | cons b l ih =>
      cases l with
      | nil => rw [List.intercalate_singleton, List.flatMap_singleton]
      | cons b' l =>
          rw [List.intercalate_cons_cons, List.filterMap_append, List.filterMap_append, silent,
            List.append_nil, ih, ← List.flatMap_cons]

/-- The headings of a document name its blocks. -/
theorem headings_document {o : Options} (oneLine : o.OneLine) {blocks : List Block}
    (some_block : blocks ≠ []) (each : ∀ b ∈ blocks, b.InWords) :
    headings (o.document blocks) = blocks.map Block.name := by
  have empty : [""].filterMap heading? = [] := by decide
  rw [headings, cut_document oneLine some_block each, Options.lines, List.filterMap_append,
    headings_headerLines, List.nil_append, filterMap_intercalate empty, List.flatMap_map]
  simp only [headings_lines]
  exact List.flatMap_pure_eq_map Block.name blocks

/-! ## The listing -/

namespace Graph

variable {g : Graph} {ids : List TypeId}

/-- The type at an id is there, and has this name. -/
def Calls (g : Graph) (id : TypeId) (name : String) : Prop :=
  ∃ node, g.get? id = some node ∧ node.name = name

/-- If every id is that of a type, no id is passed over. -/
theorem namesOf_of_calls {names : List String} (h : List.Forall₂ g.Calls ids names) :
    g.namesOf ids = names := by
  induction h with
  | nil => rfl
  | @cons id name ids names first rest ih =>
      obtain ⟨node, there, rfl⟩ := first
      have named : (g.get? id).map TypeNode.name = some node.name := congrArg _ there
      rw [namesOf, List.filterMap_cons_some (f := fun id => (g.get? id).map TypeNode.name) named]
      exact congrArg (node.name :: ·) ih

theorem WellNamed.whole_of_calls {names : List String} (named : g.WellNamed)
    (h : List.Forall₂ g.Calls ids names) : ∀ name ∈ names, '\n' ∉ name.toList := by
  intro name inside
  obtain ⟨k, at_k⟩ := List.mem_iff_getElem?.1 inside
  obtain ⟨id, -, node, there, rfl⟩ := forall₂_getElem? h.flip at_k
  exact (named.node there).1.whole

/-- Every id of the emission list is that of a type. -/
theorem Emission.calls (h : g.Emission ids) :
    List.Forall₂ g.Calls ids (ids.map (nameIn g.types)) := by
  refine List.forall₂_map_right_iff.2 (List.forall₂_same.2 fun id inside => ?_)
  rcases ((h.mem_iff id).1 inside).2 with ⟨o, there⟩ | ⟨e, there⟩
  · exact ⟨_, there, (nameIn_of_get there).symm⟩
  · exact ⟨_, there, (nameIn_of_get there).symm⟩

end Graph

/-- A list of names, a line each. -/
def listing (names : List String) : String := String.join (names.map (· ++ "\n"))

/-- The lines of a listing are its names, and behind the last line end is nothing. -/
theorem cut_listing {names : List String} (whole : ∀ name ∈ names, '\n' ∉ name.toList) :
    cut '\n' (listing names) = names ++ [""] := by
  have lines : listing names = "\n".intercalate (names ++ [""]) := by
    rw [intercalate_append (List.cons_ne_nil _ _), String.intercalate_singleton,
      String.append_empty, listing]
  rw [lines]
  refine cut_intercalate rfl (List.append_ne_nil_of_right_ne_nil _ (List.cons_ne_nil _ _)) ?_
  exact List.forall_mem_append.2 ⟨whole, by decide⟩

namespace Graph

variable {g : Graph} {text : String}

/-- The schema of a text has an emission list. -/
theorem emission_of_ofSdl (h : (ofSdl text).result = .ok g) :
    ∃ ids, g.emissionList = .ok ids ∧ g.Emission ids := by
  have built := built_of_ofSdl h
  obtain ⟨root, there⟩ := built.root_object
  refine built.emission ?_
  rw [rootName_of_get there]
  exact ((wellNamed_of_ofSdl h).node there).1.filled

/-- The headings of the document that is written are the names of the emission list. -/
theorem headings_of_translate (built : g.Built) (named : g.WellNamed) {o : Options}
    (oneLine : o.OneLine) (done : (g.translate o).result = .ok text) :
    ∃ ids, g.emissionList = .ok ids ∧ headings text = ids.map (nameIn g.types) := by
  obtain ⟨ids, blocks, walked, -, stand, some_block, each, rfl⟩ :=
    inWords_of_translate built named done
  refine ⟨ids, walked, ?_⟩
  rw [headings_document oneLine some_block each, names_blocksOf stand]

end Graph

/-! ## Both ways -/

namespace Cli

/-- **THE LISTING AND THE DOCUMENT AGREE**: of a text that loads, the types can always be listed,
    all that are emitted and in their order; and where the document can be written too, its
    headings are the lines of the listing. -/
theorem listing_agrees {w : World} {home : Home} {arguments : Arguments} {sdl : String} {g : Graph}
    {options : Options}
    (read : ((readSchema World.source arguments.schema).run w).1.result = .ok sdl)
    (loaded : (Graph.ofSdl sdl).result = .ok g)
    (chosen : ((loadOptions World.source home arguments.config).run w).1.result = .ok options) :
    ∃ ids names, g.emissionList = .ok ids ∧ List.Forall₂ g.Calls ids names
      ∧ textIn w home { arguments with printTypes := true } = .ok (listing names)
      ∧ cut '\n' (listing names) = names ++ [""]
      ∧ ∀ text, textIn w home { arguments with printTypes := false } = .ok text →
          (arguments.overrides.apply options).OneLine → headings text = names := by
  have built := Graph.built_of_ofSdl loaded
  have wellNamed := Graph.wellNamed_of_ofSdl loaded
  obtain ⟨ids, walked, emission⟩ := Graph.emission_of_ofSdl loaded
  have whole := wellNamed.whole_of_calls emission.calls
  refine ⟨ids, ids.map (nameIn g.types), walked, emission.calls, ?_, cut_listing whole, ?_⟩
  · have listed : textIn w home { arguments with printTypes := true } = _ :=
      textIn_eq read loaded chosen
    rw [listed, result_textFor_listing rfl walked, Graph.namesOf_of_calls emission.calls]
    rfl
  · intro text done oneLine
    have written : textIn w home { arguments with printTypes := false } = _ :=
      textIn_eq read loaded chosen
    rw [written, result_textFor_document rfl, mapError_eq_ok] at done
    obtain ⟨ids', walked', same⟩ := Graph.headings_of_translate built wellNamed oneLine done
    rw [walked] at walked'
    cases walked'
    exact same

/-- Types, a field and a value that are called like words of the format. -/
def mimicText : String :=
  "schema \x7b query: message \x7d type message \x7b message: option \x7d "
    ++ "enum option \x7b message \x7d"

/-- The graph of `mimicText`. -/
def mimicGraph : Graph :=
  ⟨#[.object ⟨"message", [⟨"message", .named 1⟩]⟩, .enum ⟨"option", ["message"]⟩],
    [("option", 1), ("message", 0)], 0⟩

/-- The schema comes from the input stream. -/
def mimic : World := { files := ⟨[], []⟩, input := mimicText.toUTF8 }

def mimicRun : Arguments := { schema := ⟨"-"⟩ }

theorem mimic_agrees :
    textIn mimic {} { mimicRun with printTypes := true } = .ok "message\noption\n"
      ∧ ∃ text, textIn mimic {} mimicRun = .ok text ∧ headings text = ["message", "option"] := by
  have read : ((readSchema World.source mimicRun.schema).run mimic).1.result = .ok mimicText :=
    result_readSchema_input (by decide) rfl
  have loaded : (Graph.ofSdl mimicText).result = .ok mimicGraph :=
    Graph.ofSdl_ok.2 ⟨[.schema (some "message"),
      .type (.object "message" [⟨"message", .named "option"⟩]),
      .type (.enum "option" ["message"])], by decide +kernel, by decide +kernel⟩
  have chosen : ((loadOptions World.source {} mimicRun.config).run mimic).1.result = .ok {} := rfl
  have oneLine : (mimicRun.overrides.apply {}).OneLine :=
    ⟨by decide, by decide, by decide, by decide, by decide⟩
  have order : mimicGraph.emissionList = .ok [0, 1] := by decide +kernel
  obtain ⟨text, written⟩ : ∃ text, textIn mimic {} mimicRun = .ok text := by
    rw [textIn_eq read loaded chosen]
    exact exists_ok (by decide +kernel)
  obtain ⟨ids, names, walked, calls, listed, -, headed⟩ := listing_agrees read loaded chosen
  rw [order] at walked
  cases walked
  have named : names = ["message", "option"] :=
    (Graph.namesOf_of_calls calls).symm.trans (by decide)
  subst named
  exact ⟨listed, text, written, headed text written oneLine⟩

end Cli

end Protograph
