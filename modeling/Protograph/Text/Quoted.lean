import Protograph.Text.Printable

/-! # Quoted text — a text shown on one line between quotes

    Quotes, backslashes and the usual control characters are written with a
    backslash, any other character that can not be shown by its number. -/

namespace Protograph.Quoted

/-- The escape of a character, or the character itself. -/
def escape (c : Char) : List Char :=
  if c = '\x00' then ['\\', '0']
  else if c = '\t' then ['\\', 't']
  else if c = '\r' then ['\\', 'r']
  else if c = '\n' then ['\\', 'n']
  else if c = '\\' || c = '"' || c = '\'' then ['\\', c]
  else if isPrintable c then [c]
  else ['\\', 'u', '\x7b'] ++ Nat.toDigits 16 c.toNat ++ ['\x7d']

/-- A text between quotes, with every character escaped that needs it. -/
def quote (s : String) : String := String.ofList ('"' :: s.toList.flatMap escape ++ ['"'])

end Protograph.Quoted
