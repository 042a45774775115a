import Protograph.Text.Position

/-! # Lexemes — the words of a schema text and where they stand

    A text is a sequence of lexemes with ignored characters between them:
    blanks, commas, byte order marks and comments.  The sequence ends where
    the text ends or where characters stand that begin no lexeme; either way
    the place is known, and reading can complain only when it gets there.

    A place counts a blank or a comma as one column and a tab as eight, a
    carriage return and a byte order mark as none.  The end of a comment, be
    it a line feed or a carriage return, begins a new line. -/

namespace Protograph.Sdl

/-- A word of a schema text. -/
inductive Token where
  | punct (c : Char)
  | spread
  | name (text : String)
  | int (text : List Char)
  | float (text : List Char)
  /-- A string on one line, between its quotes and as it was written. -/
  | string (body : List Char)
  /-- A string between triple quotes, as it was written. -/
  | blockString (body : List Char)
  deriving DecidableEq, Repr

/-- The words of a text with their places. -/
inductive Lexemes where
  /-- No more words: at the end of the text, or before characters that are none. -/
  | stop (place : Position) (atEnd : Bool)
  | next (place : Position) (token : Token) (rest : Lexemes)
  deriving Repr

namespace Lexemes

/-- The place of the next word, or of the end. -/
def place : Lexemes → Position
  | .stop p _ => p
  | .next p _ _ => p

/-- The next word. -/
def token? : Lexemes → Option Token
  | .stop _ _ => none
  | .next _ t _ => some t

/-- The words after the next one. -/
def tail : Lexemes → Lexemes
  | .stop p atEnd => .stop p atEnd
  | .next _ _ rest => rest

/-- Number of words. -/
def size : Lexemes → Nat
  | .stop _ _ => 0
  | .next _ _ rest => rest.size + 1

end Lexemes

/-! ## Words -/

/-- Characters that a name begins with. -/
def isNameStart (c : Char) : Bool := c.isAlpha || c == '_'

/-- Characters that a name goes on with. -/
def isNameRest (c : Char) : Bool := c.isAlphanum || c == '_'

/-- Punctuation of one character. -/
def isPunct (c : Char) : Bool := "()[]\x7b\x7d!$:=@|&".toList.contains c

/-- Characters that end a number. -/
def endsNumber (c : Char) : Bool := " \n\r\t,#!$:=@|&()[]\x7b\x7d".toList.contains c

/-- Digits only, and at least one. -/
def isDigits (cs : List Char) : Bool := !cs.isEmpty && cs.all Char.isDigit

/-- An integer: digits without a leading zero, or zero, behind an optional minus. -/
def isInteger (cs : List Char) : Bool :=
  let digits := if cs.head? = some '-' then cs.tail else cs
  isDigits digits && (digits.head? != some '0' || digits.length == 1)

/-- An exponent: digits behind a sign, or digits of which the first is one to eight. -/
def isExponent : List Char → Bool
  | [] => false
  | c :: cs =>
      if c = '+' || c = '-' then isDigits cs
      else '1' ≤ c && c ≤ '8' && cs.all Char.isDigit

/-- Split at the last character that satisfies `p`. -/
def splitLast (p : Char → Bool) (cs : List Char) : Option (List Char × List Char) :=
  let behind := cs.reverse.takeWhile fun c => !p c
  match cs.reverse.dropWhile fun c => !p c with
  | [] => none
  | _ :: before => some (before.reverse, behind.reverse)

/-- An integer with a fraction. -/
def isDecimal (cs : List Char) : Bool :=
  match splitLast (· == '.') cs with
  | some (whole, fraction) => isInteger whole && isDigits fraction
  | none => false

/-- A number with a fraction, an exponent, or both in this order. -/
def isFloat (cs : List Char) : Bool :=
  match splitLast (fun c => c == 'e' || c == 'E') cs with
  | some (mantissa, exponent) =>
      (isInteger mantissa || isDecimal mantissa) && isExponent exponent
  | none => isDecimal cs

/-- A number with a point or an exponent mark behind its first character is a
    float, any other an integer. -/
def number? (text : List Char) : Option Token :=
  if text.tail.any fun c => c == '.' || c == 'e' || c == 'E' then
    if isFloat text then some (.float text) else none
  else if isInteger text then some (.int text) else none

/-- What stands before the quote that ends a string on one line.  A backslash
    keeps the next character from ending it. -/
def stringBody : Bool → List Char → Option (List Char)
  | _, [] => none
  | escaped, c :: cs =>
      if c = '\n' then none
      else if c = '"' && !escaped then some []
      else (stringBody (!escaped && c == '\\') cs).map (c :: ·)

/-- What stands before the triple quote that ends a block string.  One behind a
    backslash does not. -/
def blockBody : List Char → Option (List Char)
  | [] => none
  | '\\' :: '"' :: '"' :: '"' :: cs =>
      (blockBody cs).map fun body => '\\' :: '"' :: '"' :: '"' :: body
  | '"' :: '"' :: '"' :: _ => some []
  | c :: cs => (blockBody cs).map (c :: ·)

/-- The word that a text begins with, and how many characters it has beyond
    the first. -/
def Token.lex (c : Char) (cs : List Char) : Option (Token × Nat) :=
  if isPunct c then some (.punct c, 0)
  else if isNameStart c then
    let text := c :: cs.takeWhile isNameRest
    some (.name (String.ofList text), text.length - 1)
  else if c.isDigit || c = '-' then
    let text := c :: cs.takeWhile fun d => !endsNumber d
    (number? text).map (·, text.length - 1)
  else if c = '.' then
    match cs with
    | '.' :: '.' :: _ => some (.spread, 2)
    | _ => none
  else if c = '"' then
    match cs with
    | '"' :: '"' :: body => (blockBody body).map fun b => (.blockString b, b.length + 5)
    | _ => (stringBody false cs).map fun b => (.string b, b.length + 1)
  else none

/-! ## The words of a text -/

/-- What follows the end of a comment, if the comment ends before the text. -/
def afterComment (cs : List Char) : Option (List Char) :=
  match cs.dropWhile fun c => c != '\n' && c != '\r' with
  | [] => none
  | _ :: rest => some rest

theorem length_afterComment {cs rest : List Char} (h : afterComment cs = some rest) :
    rest.length ≤ cs.length := by
  unfold afterComment at h
  split at h
  · cases h
  · next c behind found =>
      cases h
      have shorter : (c :: rest).length ≤ cs.length := found ▸ (List.dropWhile_suffix _).length_le
      exact Nat.le_of_succ_le shorter

/-- The words of a text that begins at a place. -/
def Lexemes.scan (p : Position) : List Char → Lexemes
  | [] => .stop p true
  | c :: cs =>
      if c = ' ' || c = ',' then scan (p.right 1) cs
      else if c = '\t' then scan (p.right 8) cs
      else if c = '\r' || c = '\ufeff' then scan p cs
      else if c = '\n' then scan p.newline cs
      else if c = '#' then
        match h : afterComment cs with
        | none => .stop p true
        | some rest =>
            have := length_afterComment h
            scan p.newline rest
      else
        match Token.lex c cs with
        | none => .stop p false
        | some (t, more) => .next p t (scan (p.past (c :: cs.take more)) (cs.drop more))
termination_by cs => cs.length

/-- The words of a text. -/
def Lexemes.ofString (s : String) : Lexemes := scan .start s.toList

end Protograph.Sdl
