import Protograph.Sdl.Document
import Protograph.Sdl.Lexeme
import Protograph.Text.Reader
import Protograph.Text.Hex
import Protograph.Text.Int64

/-! # Reading schema documents

    A reader takes words from the front and looks one word ahead: it takes an
    optional part or a further item whenever the next word can begin it.  When
    no continuation allows the next word, reading ends at the place of that
    word.  Two faults are reported elsewhere, once the construct has been read
    whole: repeated or unknown operations of a schema definition, at the word
    `schema`, and an extension that adds nothing, at the word that says what
    is extended.

    At most fifty brackets may be open at once.  The number of further
    brackets that may open, `room`, is also what bounds the recursion into
    nested types and values. -/

namespace Protograph.Sdl.Grammar

/-- A reader of words; an error is the place that no continuation allows. -/
abbrev WordReader := Reader Lexemes Position

variable {α : Type}

/-! ## Words -/

/-- The next word, left unread. -/
def peek : WordReader (Option Token) := Reader.look Lexemes.token?

/-- The place of the next word. -/
def place : WordReader Position := Reader.look Lexemes.place

/-- Take the next word, whatever it is. -/
def skip : WordReader Unit := do
  let behind ← Reader.look Lexemes.tail
  Reader.moveTo behind 1

/-- No continuation allows the next word. -/
def refuse : WordReader α := do
  let p ← place
  Reader.fail p

/-- Take a word that has to be this one. -/
def expect (t : Token) : WordReader Unit := do
  if (← peek) = some t then skip else refuse

/-- Take a word if it is this one. -/
def accept (t : Token) : WordReader Bool := do
  if (← peek) = some t then
    skip
    return true
  else return false

/-- Take a name. -/
def name : WordReader String := do
  match ← peek with
  | some (.name n) =>
      skip
      return n
  | _ => refuse

/-- Take items as long as the next word satisfies `more`. -/
def repeated (more : Option Token → Bool) (item : WordReader α) : WordReader (List α) :=
  Reader.many (fun words => more words.token?) item

/-- Take items up to a closing bracket, and the bracket. -/
def itemsUntil (closing : Char) (item : WordReader α) : WordReader (List α) := do
  let items ← repeated (· ≠ some (.punct closing)) item
  expect (.punct closing)
  return items

/-- Take one item at least, up to a closing bracket, and the bracket. -/
def someUntil (closing : Char) (item : WordReader α) : WordReader (List α) := do
  let first ← item
  let items ← itemsUntil closing item
  return first :: items

/-- Take an opening bracket, if there is room for it, and go on inside. -/
def bracket (opening : Char) (room : Nat) (inside : Nat → WordReader α) : WordReader α :=
  match room with
  | 0 => refuse
  | room + 1 => do
      expect (.punct opening)
      inside room

/-! ## Strings and integers

    A string counts only if its escapes can be resolved, an integer only if it
    fits in 64 bits. -/

/-- Four characters that name a character: digits, of which a plus sign may
    take the first place. -/
def isUnicodeEscape (cs : List Char) : Bool :=
  (hexChar? (if cs.head? = some '+' then cs.tail else cs)).isSome

/-- Every backslash begins an escape. -/
def escapesResolve : List Char → Bool
  | [] => true
  | '\\' :: 'u' :: a :: b :: c :: d :: rest =>
      isUnicodeEscape [a, b, c, d] && escapesResolve rest
  | '\\' :: c :: rest => "\"\\/bfnrt".toList.contains c && escapesResolve rest
  | c :: rest => c != '\\' && escapesResolve rest

/-- The integer that digits behind an optional minus stand for has 64 bits. -/
def isSmallInteger : List Char → Bool
  | '-' :: digits => fitsInt64 true (decimalNumber digits)
  | digits => fitsInt64 false (decimalNumber digits)

/-! ## Values, types and directives -/

/-- A value.  A constant one has no variable in it. -/
def value (constant : Bool) (room : Nat) : WordReader Unit := do
  match ← peek with
  | some (.name _) => skip
  | some (.int text) => if isSmallInteger text then skip else refuse
  | some (.float _) => skip
  | some (.string body) => if escapesResolve body then skip else refuse
  | some (.blockString _) => skip
  | some (.punct c) =>
      if c = '$' && !constant then
        skip
        let _ ← name
      else
        match room with
        | 0 => refuse
        | room + 1 =>
            if c = '[' then
              skip
              let _ ← itemsUntil ']' (value constant room)
            else if c = '\x7b' then
              skip
              let _ ← itemsUntil '\x7d' do
                let _ ← name
                expect (.punct ':')
                value constant room
            else refuse
  | _ => refuse

/-- A type, as written. -/
def typeRef (room : Nat) : WordReader (TypeRef String) := do
  let written ←
    match ← peek with
    | some (.name n) =>
        skip
        pure (.named n)
    | some (.punct '[') =>
        match room with
        | 0 => refuse
        | room + 1 =>
            skip
            let inner ← typeRef room
            expect (.punct ']')
            pure (.list inner)
    | _ => refuse
  if ← accept (.punct '!') then return .nonNull written else return written

/-- A directive: its name and, in brackets, arguments. -/
def directive (room : Nat) : WordReader Unit := do
  expect (.punct '@')
  let _ ← name
  if (← peek) = some (.punct '(') then
    let _ ← bracket '(' room fun room =>
      someUntil ')' do
        let _ ← name
        expect (.punct ':')
        value false room

/-- Directives, if there are any; the answer tells. -/
def directives (room : Nat) : WordReader Bool := do
  let found ← repeated (· = some (.punct '@')) (directive room)
  return !found.isEmpty

/-- A description, if there is one. -/
def description : WordReader Unit := do
  match ← peek with
  | some (.string body) => if escapesResolve body then skip else refuse
  | some (.blockString _) => skip
  | _ => return

/-! ## Parts of definitions -/

/-- An argument or a field of an input object. -/
def inputValue (room : Nat) : WordReader Unit := do
  description
  let _ ← name
  expect (.punct ':')
  let _ ← typeRef room
  if ← accept (.punct '=') then value true room
  let _ ← directives room

/-- Arguments in brackets, if there are any. -/
def arguments (room : Nat) : WordReader Unit := do
  if (← peek) = some (.punct '(') then
    let _ ← bracket '(' room fun room => someUntil ')' (inputValue room)

/-- A field of an object or an interface. -/
def field (room : Nat) : WordReader (Field String) := do
  description
  let n ← name
  arguments room
  expect (.punct ':')
  let type ← typeRef room
  let _ ← directives room
  return ⟨n, type⟩

/-- A value of an enum. -/
def enumValue (room : Nat) : WordReader String := do
  description
  let n ← name
  let _ ← directives room
  return n

/-- A body in curly brackets with one item at least, if there is one. -/
def body (room : Nat) (item : Nat → WordReader α) : WordReader (List α) := do
  if (← peek) = some (.punct '\x7b') then
    bracket '\x7b' room fun room => someUntil '\x7d' (item room)
  else return []

/-- Items behind a separator, the first of which may have one before it too. -/
def separated (separator : Char) (item : WordReader Unit) : WordReader Unit := do
  let _ ← accept (.punct separator)
  item
  let _ ← repeated (· = some (.punct separator)) do
    expect (.punct separator)
    item

/-- The interfaces that a type implements, if it says so; the answer tells. -/
def implements : WordReader Bool := do
  if ← accept (.name "implements") then
    separated '&' do
      let _ ← name
    return true
  else return false

/-- The members of a union, if they are given; the answer tells. -/
def members : WordReader Bool := do
  if ← accept (.punct '=') then
    separated '|' do
      let _ ← name
    return true
  else return false

/-! ## Definitions -/

/-- A type definition from its first word on, and whether it says anything
    beyond its name. -/
def typeDefinition (room : Nat) : WordReader (TypeDefinition × Bool) := do
  match ← peek with
  | some (.name "scalar") =>
      skip
      let n ← name
      let marked ← directives room
      return (.scalar n, marked)
  | some (.name "type") =>
      skip
      let n ← name
      let implementing ← implements
      let marked ← directives room
      let fields ← body room field
      return (.object n fields, implementing || marked || !fields.isEmpty)
  | some (.name "interface") =>
      skip
      let n ← name
      let _ ← implements
      let marked ← directives room
      let fields ← body room field
      return (.interface n, marked || !fields.isEmpty)
  | some (.name "union") =>
      skip
      let n ← name
      let marked ← directives room
      let joined ← members
      return (.union n, marked || joined)
  | some (.name "enum") =>
      skip
      let n ← name
      let marked ← directives room
      let values ← body room enumValue
      return (.enum n values, marked || !values.isEmpty)
  | some (.name "input") =>
      skip
      let n ← name
      let marked ← directives room
      let fields ← body room inputValue
      return (.inputObject n, marked || !fields.isEmpty)
  | _ => refuse

/-- The places where a directive may be allowed. -/
def directiveLocations : List String :=
  [ "QUERY", "MUTATION", "SUBSCRIPTION", "FIELD", "FRAGMENT_DEFINITION", "FRAGMENT_SPREAD",
    "INLINE_FRAGMENT", "SCHEMA", "SCALAR", "OBJECT", "FIELD_DEFINITION", "ARGUMENT_DEFINITION",
    "INTERFACE", "UNION", "ENUM", "ENUM_VALUE", "INPUT_OBJECT", "INPUT_FIELD_DEFINITION",
    "VARIABLE_DEFINITION" ]

/-- One of the places where a directive may be allowed. -/
def directiveLocation : WordReader Unit := do
  match ← peek with
  | some (.name n) => if directiveLocations.contains n then skip else refuse
  | _ => refuse

/-- A directive definition. -/
def directiveDefinition (room : Nat) : WordReader Definition := do
  expect (.name "directive")
  expect (.punct '@')
  let n ← name
  arguments room
  let _ ← accept (.name "repeatable")
  expect (.name "on")
  match ← peek with
  | some (.name _) => separated '|' directiveLocation
  | some (.punct '|') => separated '|' directiveLocation
  | _ => pure ()
  return .directive n

/-- An operation and the type that serves it. -/
def operation : WordReader (String × String) := do
  let operation ← name
  expect (.punct ':')
  let type ← name
  return (operation, type)

/-- Operations are query, mutation and subscription, each at most once. -/
def operationsDiffer (operations : List String) : Bool :=
  operations.all fun o =>
    ["query", "mutation", "subscription"].contains o && operations.count o == 1

/-- A schema definition. -/
def schemaDefinition (room : Nat) : WordReader Definition := do
  let word ← place
  expect (.name "schema")
  let _ ← directives room
  let operations ← bracket '\x7b' room fun _ => itemsUntil '\x7d' operation
  if operationsDiffer (operations.map (·.1)) then
    return .schema (operations.lookup "query")
  else Reader.fail word

/-- An extension: a type definition that says something beyond the name. -/
def extension (room : Nat) : WordReader Definition := do
  expect (.name "extend")
  let word ← place
  let (added, saysMore) ← typeDefinition room
  if saysMore then return .extend added else Reader.fail word

/-- A definition. -/
def definition (room : Nat) : WordReader Definition := do
  match ← peek with
  | some (.name "schema") => schemaDefinition room
  | some (.name "extend") => extension room
  | _ =>
      description
      match ← peek with
      | some (.name "directive") => directiveDefinition room
      | _ =>
          let (defined, _) ← typeDefinition room
          return .type defined

/-- How many brackets may be open at once. -/
def maxOpenBrackets : Nat := 50

/-- Definitions up to the end of the text, one at least. -/
def definitions : WordReader Document := do
  let first ← definition maxOpenBrackets
  let others ← repeated Option.isSome (definition maxOpenBrackets)
  return first :: others

end Grammar

/-- Read a schema text; on failure, the place where no continuation fits. -/
def Document.ofString (s : String) : Except Position Document :=
  let words := Lexemes.ofString s
  match Grammar.definitions ⟨words, words.size⟩ with
  | .error p => .error p
  | .ok (d, c) =>
      match c.rest with
      | .stop _ true => .ok d
      | _ => .error c.rest.place

end Protograph.Sdl
