import Protograph.Proto.Document
import Protograph.Sdl.Lexeme

/-! # Reading — a document as its text alone tells it

    A `Reading` is what can be told from the text of a document without the
    schema and the options it was made from: the five options, and for each
    block its kind, its name and its numbered fields or values.

    The text is cut into lines and, behind the header, at empty lines into
    blocks.  In a block the second line tells the kind, for in the wrapper of
    an enum it is indented; a line is cut into words, and the number of words
    tells whether a field is repeated.  No word of the format is looked for
    among the names, so a type may be called `message` or `repeated`. -/

namespace Protograph

/-! ## Pieces of text -/

/-- The pieces of a text around the occurrences of a character. -/
def cut (c : Char) (text : String) : List String := (text.toList.splitOn c).map String.ofList

/-- What stands between a beginning and an end. -/
def between (front back text : String) : Option String :=
  let inner := String.ofList
    ((text.toList.drop front.length).take (text.length - front.length - back.length))
  if front ++ inner ++ back = text then some inner else none

/-- The number that a word is the decimal of. -/
def decimal? (word : String) : Option Nat :=
  let n := Nat.ofDigitChars 10 word.toList 0
  if toString n = word then some n else none

/-- The number that ends a line. -/
def lineNumber? (word : String) : Option Nat := between "" ";" word >>= decimal?

/-! ## Entries -/

/-- A field of a message, as it is read. -/
structure FieldEntry where
  repeated : Bool
  token : String
  name : String
  number : Nat
  deriving DecidableEq, Repr

/-- A block, as it is read. -/
inductive Entry where
  | message (name : String) (fields : List FieldEntry)
  | enumWrapper (name : String) (values : List (String × Nat))
  deriving DecidableEq, Repr

/-- Read the line of a field. -/
def FieldEntry.ofLine? (line : String) : Option FieldEntry :=
  match cut ' ' line with
  | [token, name, _, last] => (lineNumber? last).map fun number => ⟨false, token, name, number⟩
  | [_, token, name, _, last] => (lineNumber? last).map fun number => ⟨true, token, name, number⟩
  | _ => none

/-- Read the line of an enum value. -/
def valueOfLine? (line : String) : Option (String × Nat) :=
  match cut ' ' line with
  | [name, _, last] => (lineNumber? last).map fun ordinal => (name, ordinal)
  | _ => none

/-- What stands in the option that identifies a message, in front of its name. -/
def idPrefix? (indent name line : String) : Option String :=
  between (indent ++ "option (jspb.message_id) = \"") ("." ++ name ++ "\";") line

/-- Read the lines of a block; the text in front of its name comes first. -/
def Entry.ofLines? : List String → Option (String × Entry)
  | first :: second :: rest => do
      let name ← between "message " " \x7b" first
      match idPrefix? "" name second with
      | some text => do
          let fields ← rest.dropLast.mapM FieldEntry.ofLine?
          return (text, .message name fields)
      | none => do
          let text ← idPrefix? " " name second
          let values ← rest.tail.dropLast.dropLast.mapM valueOfLine?
          return (text, .enumWrapper name values)
  | _ => none

/-- What a document tells. -/
structure Reading where
  options : Options
  entries : List Entry
  deriving DecidableEq, Repr

/-- Read a document. -/
def Reading.ofString? (text : String) : Option Reading :=
  match cut '\n' text with
  | _ :: _ :: _ :: _ :: package :: _ :: javaPackage :: jsNamespace :: jspbImport :: _ :: body => do
      let blocks ← (body.splitOn "").mapM Entry.ofLines?
      let first ← blocks.head?
      let package ← between "package " ";" package
      let javaPackage ← between "option java_package = \"" "\";" javaPackage
      let jsNamespace ← between "option (jspb.js_namespace) = \"" "\";" jsNamespace
      let jspbImport ← between "import \"" "\";" jspbImport
      return ⟨⟨package, javaPackage, jsNamespace, jspbImport, first.1⟩, blocks.map (·.2)⟩
  | _ => none

/-! ## Pieces put together and taken apart -/

theorem between_eq_some_iff {front back text inner : String} :
    between front back text = some inner ↔ front ++ inner ++ back = text := by
  constructor
  · intro h
    rw [between] at h
    split at h
    · next whole =>
        cases h
        exact whole
    · cases h
  · rintro rfl
    have taken : ((front ++ inner ++ back).toList.drop front.length).take
        ((front ++ inner ++ back).length - front.length - back.length) = inner.toList := by
      rw [String.toList_append, String.toList_append, List.append_assoc,
        List.drop_left' String.length_toList]
      refine List.take_left' ?_
      simp only [String.length_append, String.length_toList]
      omega
    simp only [between, taken, String.ofList_toList, if_pos]

theorem decimal?_toString (n : Nat) : decimal? (toString n) = some n := by
  have digits : Nat.ofDigitChars 10 (toString n).toList 0 = n := by
    rw [Nat.toString_eq_repr, Nat.toList_repr]
    exact Nat.ofDigitChars_ten_toDigits
  simp only [decimal?, digits, if_pos]

theorem lineNumber?_toString (n : Nat) : lineNumber? (toString n ++ ";") = some n := by
  have inner : between "" ";" (toString n ++ ";") = some (toString n) := by
    rw [between_eq_some_iff, String.empty_append]
  rw [lineNumber?, inner]
  exact decimal?_toString n

/-- Pieces without the character come back when they are cut apart at it. -/
theorem cut_intercalate {c : Char} {separator : String} (single : separator.toList = [c])
    {pieces : List String} (some_piece : pieces ≠ []) (free : ∀ piece ∈ pieces, c ∉ piece.toList) :
    cut c (separator.intercalate pieces) = pieces := by
  have free' : ∀ piece ∈ pieces.map String.toList, c ∉ piece := by
    intro piece member
    obtain ⟨text, inside, rfl⟩ := List.mem_map.1 member
    exact free text inside
  have some_piece' : pieces.map String.toList ≠ [] := by
    intro none
    exact some_piece (List.map_eq_nil_iff.1 none)
  rw [cut, String.toList_intercalate, single, List.splitOn_intercalate c free' some_piece',
    List.map_map]
  exact (List.map_congr_left fun _ _ => String.ofList_toList).trans (List.map_id pieces)

end Protograph
