import Protograph.Toml.Table
import Protograph.Toml.Scalar
import Protograph.Text.Reader

/-! # TOML statements — the lines of a configuration

    A configuration is a sequence of statements: a key with its value, a
    header of a table, or a header of an element of an array of tables.  Each
    ends with its line.  `statements` reads them, `Table.ofString` carries
    them out one after the other.

    Arrays and inline tables nest less than eighty deep, and a dotted key has
    fewer than eighty parts; the depth left over bounds the recursion. -/

namespace Protograph.Toml

/-- A line of a configuration.  A path leads to the table that is meant. -/
inductive Statement where
  | pair (path : List String) (key : String) (item : Item)
  | table (path : List String) (key : String)
  | element (path : List String) (key : String)

namespace Grammar

/-- A reader of characters; one fault is like another. -/
abbrev CharReader := Reader (List Char) Unit

variable {α : Type}

/-- The text is no configuration. -/
def refuse : CharReader α := Reader.fail ()

/-- The next character, left unread. -/
def peek : CharReader (Option Char) := Reader.look List.head?

/-- Take so many characters. -/
def skip (count : Nat) : CharReader Unit := do
  let behind ← Reader.look (List.drop count)
  Reader.moveTo behind count

/-- Take a character that has to be this one. -/
def expect (c : Char) : CharReader Unit := do
  if (← peek) = some c then skip 1 else refuse

/-- Take a character if it is this one. -/
def accept (c : Char) : CharReader Bool := do
  if (← peek) = some c then
    skip 1
    return true
  else return false

/-- Take characters as long as they satisfy `p`. -/
def takeWhile (p : Char → Bool) : CharReader (List Char) := do
  let taken ← Reader.look (List.takeWhile p)
  skip taken.length
  return taken

/-- Read items as long as the next character satisfies `more`. -/
def repeated (more : Option Char → Bool) (item : CharReader α) : CharReader (List α) :=
  Reader.many (fun cs => more cs.head?) item

/-! ## Blanks -/

/-- Take blanks and tabs. -/
def blanks : CharReader Unit := do
  let _ ← takeWhile fun c => c == ' ' || c == '\t'

/-- Take the end of a line. -/
def newline : CharReader Unit := do
  let _ ← accept '\r'
  expect '\n'

/-- Take a comment, if there is one. -/
def comment : CharReader Unit := do
  if ← accept '#' then
    let _ ← takeWhile isTextChar

/-- Take what may stand behind a statement, and the end of its line. -/
def endLine : CharReader Unit := do
  blanks
  comment
  if (← peek).isSome then newline

/-- Take blanks, comments and ends of lines. -/
def space : CharReader Unit := do
  let _ ← repeated
    (fun | some c => " \t\r\n#".toList.contains c | none => false)
    (do
      blanks
      comment
      if (← peek) = some '\r' || (← peek) = some '\n' then newline)

/-! ## Keys -/

/-- Take a string of any form. -/
def string : CharReader String := do
  match ← Reader.look string? with
  | some (text, behind) =>
      let before ← Reader.look List.length
      Reader.moveTo behind (before - behind.length)
      return String.ofList text
  | none => refuse

/-- Characters of a key without quotes. -/
def isBareKeyChar (c : Char) : Bool := c.isAlphanum || c == '_' || c == '-'

/-- A key without dots. -/
def simpleKey : CharReader String := do
  let quoted? (cs : List Char) : Option (List Char × List Char) :=
    match cs with
    | '"' :: rest => basicString rest
    | '\'' :: rest => literalString rest
    | _ => none
  match ← Reader.look quoted? with
  | some (text, behind) =>
      let before ← Reader.look List.length
      Reader.moveTo behind (before - behind.length)
      return String.ofList text
  | none =>
      let bare ← takeWhile isBareKeyChar
      if bare.isEmpty then refuse else return String.ofList bare

/-- The bound on the depth of values and the length of keys. -/
def maxDepth : Nat := 80

/-- A key: the path in front of its last dot, and what is behind it. -/
def key : CharReader (List String × String) := do
  let part : CharReader String := do
    blanks
    let k ← simpleKey
    blanks
    return k
  let first ← part
  let others ← repeated (· = some '.') (do
    expect '.'
    part)
  if others.length + 1 < maxDepth then
    return ((first :: others).dropLast, (first :: others).getLast?.getD first)
  else refuse

/-! ## Values -/

/-- Characters of numbers, truth values, dates and times. -/
def isWordChar (c : Char) : Bool := c.isAlphanum || "+-.:_".toList.contains c

/-- A number, a truth value, a date or a time.  Behind a date and a blank the
    word goes on. -/
def plain : CharReader Unit := do
  let word ← takeWhile isWordChar
  let goesOn (cs : List Char) : Bool :=
    match cs with
    | ' ' :: c :: _ => isWordChar c
    | _ => false
  let whole ←
    if isDate word && (← Reader.look goesOn) then
      skip 1
      let time ← takeWhile isWordChar
      pure (word ++ ' ' :: time)
    else pure word
  if isPlain whole then return else refuse

/-- A value, in which so many levels may nest. -/
def value (depth : Nat) : CharReader Item := do
  match ← peek with
  | some '"' => return .string (← string)
  | some '\'' => return .string (← string)
  | some '[' =>
      match depth with
      | 0 => refuse
      | depth + 1 =>
          skip 1
          space
          let _ ← repeated (· ≠ some ']') do
            let _ ← value depth
            space
            if ← accept ',' then space
            else if (← peek) = some ']' then return
            else refuse
          expect ']'
          return .other
  | some '\x7b' =>
      match depth with
      | 0 => refuse
      | depth + 1 =>
          skip 1
          blanks
          let pair : CharReader (List String × String × Item) := do
            let (path, k) ← key
            expect '='
            blanks
            let item ← value depth
            blanks
            return (path, k, item)
          if ← accept '\x7d' then return .other
          else
            let first ← pair
            let others ← repeated (· = some ',') do
              expect ','
              pair
            expect '\x7d'
            let inserted := (first :: others).foldlM
              (fun (t : Table) (path, k, item) => Table.insertDotted k item path t) []
            if inserted.isSome then return .other else refuse
  | _ =>
      plain
      return .other

/-! ## Statements -/

/-- A key with its value. -/
def pair : CharReader Statement := do
  let (path, k) ← key
  expect '='
  blanks
  let item ← value (maxDepth - 1)
  endLine
  return .pair path k item

/-- A header in one pair of brackets or in two. -/
def header : CharReader Statement := do
  expect '['
  if ← accept '[' then
    let (path, k) ← key
    expect ']'
    expect ']'
    endLine
    return .element path k
  else
    let (path, k) ← key
    expect ']'
    endLine
    return .table path k

/-- A line: a statement, a comment, or nothing. -/
def line : CharReader (Option Statement) := do
  blanks
  match ← peek with
  | some '[' => return some (← header)
  | some c =>
      if c = '#' || c = '\r' || c = '\n' then
        endLine
        return none
      else return some (← pair)
  | none => return none

end Grammar

/-- The statements of a text, which may begin with a byte order mark. -/
def statements (s : String) : Option (List Statement) :=
  let cs := match s.toList with
    | '\ufeff' :: rest => rest
    | cs => cs
  match Grammar.repeated Option.isSome Grammar.line ⟨cs, cs.length⟩ with
  | .ok (lines, _) => some (lines.filterMap id)
  | .error _ => none

/-- A table under construction and the path of the header in force. -/
structure Progress where
  root : Table := []
  header : List String := []

/-- Carry out a statement. -/
def Progress.apply (p : Progress) : Statement → Option Progress
  | .pair path key item =>
      (Table.changeAt (Table.insertDotted key item path) p.header p.root).map
        fun root => { p with root }
  | .table path key =>
      (Table.changeAt (Table.openTable key) path p.root).map fun root => ⟨root, path ++ [key]⟩
  | .element path key =>
      (Table.changeAt (Table.openElement key) path p.root).map fun root => ⟨root, path ++ [key]⟩

/-- What a configuration says. -/
def Table.ofString (s : String) : Option Table := do
  let p ← (← statements s).foldlM Progress.apply {}
  return p.root

end Protograph.Toml
