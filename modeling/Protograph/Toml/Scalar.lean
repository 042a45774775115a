import Protograph.Text.Hex
import Protograph.Text.Int64

/-! # TOML scalars — numbers, truth values, dates and strings

    A number, truth value or date is written without blanks, except that one
    blank may stand between a date and a time; `isPlain` tells whether such a
    word is one of them.  Strings come in four forms and are read up to their
    end. -/

namespace Protograph.Toml

/-! ## Numbers -/

/-- Digits with single underscores between them. -/
def isGrouped (digit : Char → Bool) : List Char → Bool
  | [] => false
  | [c] => digit c
  | c :: '_' :: rest => digit c && isGrouped digit rest
  | c :: rest => digit c && isGrouped digit rest

/-- The word without a leading sign. -/
def unsigned : List Char → List Char
  | '+' :: rest => rest
  | '-' :: rest => rest
  | cs => cs

/-- A decimal integer without its sign: no leading zero. -/
def isDecimal (cs : List Char) : Bool :=
  isGrouped Char.isDigit cs && (cs.head? != some '0' || cs.length == 1)

/-- The number that digits in a base stand for, underscores left out. -/
def numberIn (base : Nat) (cs : List Char) : Nat :=
  cs.foldl (fun n c => match hexDigit? c with | some d => base * n + d | none => n) 0

/-- An integer that fits in 64 bits. -/
def isInteger : List Char → Bool
  | '0' :: 'x' :: cs =>
      isGrouped (fun c => (hexDigit? c).isSome) cs && fitsInt64 false (numberIn 16 cs)
  | '0' :: 'o' :: cs =>
      isGrouped (fun c => '0' ≤ c && c ≤ '7') cs && fitsInt64 false (numberIn 8 cs)
  | '0' :: 'b' :: cs =>
      isGrouped (fun c => c == '0' || c == '1') cs && fitsInt64 false (numberIn 2 cs)
  | '-' :: cs => isDecimal cs && fitsInt64 true (numberIn 10 cs)
  | cs => isDecimal (unsigned cs) && fitsInt64 false (numberIn 10 (unsigned cs))

/-- The least number that rounds to no finite double: half a step above the
    greatest one. -/
def overflow : Nat := Nat.pow 2 1024 - Nat.pow 2 970

/-- A decimal number `digits * 10 ^ exponent` rounds to a finite double. -/
def isFiniteDouble (digits : Nat) (exponent : Int) : Bool :=
  let length : Int := (Nat.toDigits 10 digits).length + exponent
  if digits = 0 || length < 309 then true
  else if length > 309 then false
  else if exponent < 0 then digits < overflow * Nat.pow 10 (-exponent).toNat
  else digits * Nat.pow 10 exponent.toNat < overflow

/-- A number with a fraction, an exponent, or both.  One too great for a double
    is refused when it is positive. -/
def isFloat (word : List Char) : Bool :=
  let cs := unsigned word
  if cs = ['i', 'n', 'f'] || cs = ['n', 'a', 'n'] then true
  else
    let isMark (c : Char) : Bool := c == 'e' || c == 'E'
    let mantissa := cs.takeWhile fun c => !isMark c
    let marked := cs.dropWhile fun c => !isMark c
    let whole := mantissa.takeWhile (· != '.')
    let pointed := mantissa.dropWhile (· != '.')
    let fraction := pointed.tail
    let exponent := marked.tail
    let scale : Int := numberIn 10 (unsigned exponent)
    let scale := if exponent.head? = some '-' then -scale else scale
    let places : Nat := (fraction.filter Char.isDigit).length
    isDecimal whole
      && (pointed.isEmpty || isGrouped Char.isDigit fraction)
      && (marked.isEmpty || isGrouped Char.isDigit (unsigned exponent))
      && !(pointed.isEmpty && marked.isEmpty)
      && (word.head? = some '-'
          || isFiniteDouble (numberIn 10 (whole ++ fraction)) (scale - places))

/-! ## Dates and times -/

/-- The number that exactly these digits stand for. -/
def number? (cs : List Char) : Option Nat :=
  if cs.all Char.isDigit then some (numberIn 10 cs) else none

/-- Two digits that stand for a number within bounds. -/
def twoDigits (least most : Nat) (a b : Char) : Bool :=
  match number? [a, b] with
  | some n => least ≤ n && n ≤ most
  | none => false

/-- Number of days of a month. -/
def daysOfMonth (year month : Nat) : Nat :=
  if month = 2 then
    if year % 4 = 0 && (year % 100 != 0 || year % 400 = 0) then 29 else 28
  else if month = 4 || month = 6 || month = 9 || month = 11 then 30
  else 31

/-- A day of the calendar. -/
def isDate : List Char → Bool
  | [y₁, y₂, y₃, y₄, '-', m₁, m₂, '-', d₁, d₂] =>
      match number? [y₁, y₂, y₃, y₄], number? [m₁, m₂] with
      | some year, some month =>
          1 ≤ month && month ≤ 12 && twoDigits 1 (daysOfMonth year month) d₁ d₂
      | _, _ => false
  | _ => false

/-- The offset of a time zone. -/
def isOffset : List Char → Bool
  | ['Z'] => true
  | ['z'] => true
  | [sign, h₁, h₂, ':', m₁, m₂] =>
      (sign == '+' || sign == '-') && twoDigits 0 23 h₁ h₂ && twoDigits 0 59 m₁ m₂
  | _ => false

/-- A time of day to the second, with what stands behind it. -/
def afterTime? : List Char → Option (List Char)
  | h₁ :: h₂ :: ':' :: m₁ :: m₂ :: ':' :: s₁ :: s₂ :: rest =>
      if twoDigits 0 23 h₁ h₂ && twoDigits 0 59 m₁ m₂ && twoDigits 0 60 s₁ s₂ then
        match rest with
        | '.' :: more =>
            if (more.head?.map Char.isDigit).getD false then
              some (more.dropWhile Char.isDigit)
            else none
        | _ => some rest
      else none
  | _ => none

/-- A time of day. -/
def isTime (cs : List Char) : Bool := afterTime? cs == some []

/-- A time of day, with or without an offset. -/
def isOffsetTime (cs : List Char) : Bool :=
  match afterTime? cs with
  | some [] => true
  | some rest => isOffset rest
  | none => false

/-- A date, a time, or both. -/
def isDateTime (cs : List Char) : Bool :=
  isTime cs || isDate cs ||
    isDate (cs.take 10) &&
      match cs.drop 10 with
      | c :: time => (c == 'T' || c == 't' || c == ' ') && isOffsetTime time
      | [] => false

/-- A word that is a number, a truth value, a date or a time. -/
def isPlain (cs : List Char) : Bool :=
  cs = ['t', 'r', 'u', 'e'] || cs = ['f', 'a', 'l', 's', 'e']
    || isDateTime cs || isFloat cs || isInteger cs

/-! ## Strings

    Each function is given what stands behind the opening quotes, and answers
    with the text and what stands behind the closing quotes. -/

/-- Characters that stand for themselves: tabs and all but control characters. -/
def isTextChar (c : Char) : Bool := c == '\t' || (' ' ≤ c && c != '\x7f')

/-- Put a character in front of the text of a string. -/
def withChar (c : Char) (r : Option (List Char × List Char)) : Option (List Char × List Char) :=
  r.map fun (text, rest) => (c :: text, rest)

/-- The character that a backslash and a letter stand for. -/
def escaped? (c : Char) : Option Char :=
  if c = 'b' then some '\x08'
  else if c = 't' then some '\t'
  else if c = 'n' then some '\n'
  else if c = 'f' then some '\x0c'
  else if c = 'r' then some '\r'
  else if c = '"' then some '"'
  else if c = '\\' then some '\\'
  else none

/-- A string on one line, with escapes. -/
def basicString : List Char → Option (List Char × List Char)
  | [] => none
  | '"' :: rest => some ([], rest)
  | '\\' :: 'u' :: a :: b :: c :: d :: rest =>
      (hexChar? [a, b, c, d]).bind fun x => withChar x (basicString rest)
  | '\\' :: 'U' :: a :: b :: c :: d :: e :: f :: g :: h :: rest =>
      (hexChar? [a, b, c, d, e, f, g, h]).bind fun x => withChar x (basicString rest)
  | '\\' :: c :: rest => (escaped? c).bind fun x => withChar x (basicString rest)
  | c :: rest => if isTextChar c && c != '\\' then withChar c (basicString rest) else none

/-- A string on one line, without escapes. -/
def literalString : List Char → Option (List Char × List Char)
  | [] => none
  | '\'' :: rest => some ([], rest)
  | c :: rest => if isTextChar c then withChar c (literalString rest) else none

/-- Up to two quotes more behind the three that end a string belong to its text. -/
def closing (quote : Char) : List Char → List Char × List Char
  | a :: b :: rest =>
      if a = quote && b = quote then ([a, b], rest)
      else if a = quote then ([a], b :: rest)
      else ([], a :: b :: rest)
  | [a] => if a = quote then ([a], []) else ([], [a])
  | [] => ([], [])

/-- Nothing but blanks up to the end of the line. -/
def blankToLineEnd (cs : List Char) : Bool :=
  match cs.dropWhile fun c => c == ' ' || c == '\t' with
  | '\n' :: _ => true
  | '\r' :: '\n' :: _ => true
  | _ => false

/-- A string over lines, with escapes.  While `joining`, behind a backslash at
    the end of a line, blanks and line ends are left out. -/
def longBasicString : Bool → List Char → Option (List Char × List Char)
  | _, [] => none
  | _, '"' :: '"' :: '"' :: rest => some (closing '"' rest)
  | joining, '\r' :: '\n' :: rest =>
      if joining then longBasicString true rest else withChar '\n' (longBasicString false rest)
  | _, '\\' :: 'u' :: a :: b :: c :: d :: rest =>
      (hexChar? [a, b, c, d]).bind fun x => withChar x (longBasicString false rest)
  | _, '\\' :: 'U' :: a :: b :: c :: d :: e :: f :: g :: h :: rest =>
      (hexChar? [a, b, c, d, e, f, g, h]).bind fun x => withChar x (longBasicString false rest)
  | joining, c :: rest =>
      if joining && (c == ' ' || c == '\t' || c == '\n') then longBasicString true rest
      else if c = '\\' then
        if blankToLineEnd rest then longBasicString true rest
        else
          match rest with
          | e :: rest => (escaped? e).bind fun x => withChar x (longBasicString false rest)
          | [] => none
      else if isTextChar c || c == '\n' then withChar c (longBasicString false rest)
      else none

/-- A string over lines, without escapes. -/
def longLiteralString : List Char → Option (List Char × List Char)
  | [] => none
  | '\'' :: '\'' :: '\'' :: rest => some (closing '\'' rest)
  | '\r' :: '\n' :: rest => withChar '\n' (longLiteralString rest)
  | c :: rest =>
      if isTextChar c || c == '\n' then withChar c (longLiteralString rest) else none

/-- A line end directly behind the opening quotes is left out. -/
def skipFirstLineEnd : List Char → List Char
  | '\n' :: rest => rest
  | '\r' :: '\n' :: rest => rest
  | cs => cs

/-- A string of any form, from its opening quotes on. -/
def string? : List Char → Option (List Char × List Char)
  | '"' :: '"' :: '"' :: rest => longBasicString false (skipFirstLineEnd rest)
  | '"' :: rest => basicString rest
  | '\'' :: '\'' :: '\'' :: rest => longLiteralString (skipFirstLineEnd rest)
  | '\'' :: rest => literalString rest
  | _ => none

end Protograph.Toml
