/-! # Positions — places in a text

    A place is a line and a column, both counted from one. -/

namespace Protograph

/-- A place in a text. -/
structure Position where
  line : Nat
  column : Nat
  deriving DecidableEq, Repr

namespace Position

/-- The first place of a text. -/
def start : Position := ⟨1, 1⟩

/-- A place is shown as line and column with a colon between them. -/
def label (p : Position) : String := toString p.line ++ ":" ++ toString p.column

/-- Move right by some columns. -/
def right (p : Position) (columns : Nat) : Position := ⟨p.line, p.column + columns⟩

/-- The first column of the next line. -/
def newline (p : Position) : Position := ⟨p.line + 1, 1⟩

/-- The place behind some characters, each one column wide. -/
def past (p : Position) : List Char → Position
  | [] => p
  | c :: cs => past (if c = '\n' then p.newline else p.right 1) cs

end Position

end Protograph
